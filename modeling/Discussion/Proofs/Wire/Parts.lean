import Discussion.Proofs.Json.Soundness
import Discussion.Proofs.Wire.Rendering

/-!
# What a record is read from

A record is read from an object, whose members stand in any order, or from an array of its fields.
Either gives a part for some of the fields. That is all there is to it: the record is read exactly
when each part that is given can be read, and it is what these parts make of the draft.
-/

namespace Discussion.Wire

open Json (IsDocument Key Reading)

variable {δ α : Type} {fields : List (Field δ)} {f : Field δ} {s : Source} {r : Reading}
  {ms : List (Key × Reading)} {rs : List Reading} {parts : List (Option Reading)}
  {upds : List (δ → δ)} {d d' : δ}

/-! ## Parts -/

/-- The items of an array in the order of the fields, as far as there are items. -/
def itemParts : List (List String) → List Reading → List (Option Reading)
  | [], _ => []
  | _ :: names, rs => rs.head? :: itemParts names rs.tail

/-- The parts that a value gives for fields with some names. An object gives its members, of which
there is one for a field at most. An array gives its items, of which there are no more than
fields. -/
inductive GivesParts (names : List (List String)) : Reading → List (Option Reading) → Prop
  | object {ms : List (Key × Reading)} {parts : List (Option Reading)}
    (hkeys : ∀ m ∈ ms, m.1 ≠ .unpaired)
    (h : List.Forall₂ (fun names part => under names ms = part.toList) names parts) :
    GivesParts names (.object ms true) parts
  | array {rs : List Reading} (h : rs.length ≤ names.length) :
    GivesParts names (.array rs true) (itemParts names rs)

theorem length_itemParts (names : List (List String)) (rs : List Reading) :
    (itemParts names rs).length = names.length := by
  induction names generalizing rs with
  | nil => rfl
  | cons _ names ih => rw [itemParts, List.length_cons, List.length_cons, ih]

theorem mem_of_some_mem_itemParts {names : List (List String)} (h : some r ∈ itemParts names rs) :
    r ∈ rs := by
  induction names generalizing rs with
  | nil => cases h
  | cons _ names ih =>
    rw [itemParts, List.mem_cons] at h
    rcases h with h | h
    · exact List.mem_of_head? h.symm
    · exact List.mem_of_mem_tail (ih h)

theorem exists_mem_of_some_mem {names : List (List String)}
    (h : List.Forall₂ (fun names part => under names ms = part.toList) names parts)
    (hpart : some r ∈ parts) : ∃ key, (key, r) ∈ ms := by
  induction h with
  | nil => cases hpart
  | cons hunder _ ih =>
    rcases List.mem_cons.mp hpart with rfl | hpart
    · have hmem : r ∈ (some r).toList := List.mem_singleton_self r
      exact exists_mem_of_mem_under (hunder.symm ▸ hmem)
    · exact ih hpart

theorem GivesParts.length_eq {names : List (List String)} (h : GivesParts names r parts) :
    parts.length = names.length := by
  cases h with
  | object _ h => exact h.length_eq.symm
  | array _ => exact length_itemParts _ _

/-- The parts of a value without broken strings have none. -/
theorem GivesParts.isWhole {names : List (List String)} {part : Reading}
    (h : GivesParts names r parts) (hwhole : r.isWhole = true) (hpart : some part ∈ parts) :
    part.isWhole = true := by
  cases h with
  | object _ h =>
    rw [Reading.isWhole, Bool.and_true, Reading.allMembersWhole_iff] at hwhole
    obtain ⟨key, hmem⟩ := exists_mem_of_some_mem h hpart
    exact hwhole _ hmem
  | array _ =>
    rw [Reading.isWhole, Bool.and_true, Reading.allWhole_iff] at hwhole
    exact hwhole _ (mem_of_some_mem_itemParts hpart)

/-- Fills a draft with the parts that are given, in the order of the fields. -/
def fillParts (s : Source) (d : δ) : List (Field δ) → List (Option Reading) → Except Fault δ
  | f :: fields, some r :: parts => f.fill s r d >>= fun d => fillParts s d fields parts
  | _ :: fields, none :: parts => fillParts s d fields parts
  | _, _ => .ok d

/-- A field is set once it is filled, and whether it can be filled does not depend on the draft. -/
structure Field.Plain (f : Field δ) : Prop where
  isSet {s : Source} {r : Reading} {d d' : δ} (h : f.fill s r d = .ok d') : f.isSet d' = true
  sets {s : Source} {r : Reading} {d d' : δ} (h : f.fill s r d = .ok d') : ∃ upd, f.Sets s r upd

@[simp]
theorem Field.plain_of {β : Type} {name : String} {dec : Decoder β} {get : δ → Option β}
    {set : β → δ → δ} {alias? : Option String} {leniency : Json.Leniency}
    (hget : ∀ b d, (get (set b d)).isSome = true) :
    (Field.of name dec get set alias? leniency).Plain where
  isSet {s r d d'} h := by
    cases hdec : dec s r with
    | error fault => simp [Field.of, hdec, Except.map] at h
    | ok b =>
      obtain rfl : set b d = d' := by simpa [Field.of, hdec, Except.map] using h
      exact hget b d
  sets {s r d d'} h := by
    cases hdec : dec s r with
    | error fault => simp [Field.of, hdec, Except.map] at h
    | ok b => exact ⟨set b, Field.sets_of hdec⟩

/-- The changes that the parts make, one for each field. -/
inductive Takes (s : Source) :
    List (Field δ) → List (Option Reading) → List (δ → δ) → Prop
  | nil : Takes s [] [] []
  | absent {f : Field δ} {fields : List (Field δ)} {parts : List (Option Reading)}
    {upds : List (δ → δ)} (h : Takes s fields parts upds) :
    Takes s (f :: fields) (none :: parts) (id :: upds)
  | present {f : Field δ} {fields : List (Field δ)} {r : Reading}
    {parts : List (Option Reading)} {upd : δ → δ} {upds : List (δ → δ)} (hsets : f.Sets s r upd)
    (h : Takes s fields parts upds) : Takes s (f :: fields) (some r :: parts) (upd :: upds)

theorem Takes.fillParts_eq (h : Takes s fields parts upds) (d : δ) :
    fillParts s d fields parts = .ok (upds.foldl (fun d upd => upd d) d) := by
  induction h generalizing d with
  | nil => rfl
  | absent _ ih => exact ih d
  | present hsets _ ih =>
    rw [fillParts, hsets d]
    exact ih _

theorem Takes.of_fillParts (hplain : ∀ f ∈ fields, f.Plain) (hlength : fields.length = parts.length)
    (h : fillParts s d fields parts = .ok d') : ∃ upds, Takes s fields parts upds := by
  induction fields generalizing parts d with
  | nil =>
    obtain rfl := List.length_eq_zero_iff.mp hlength.symm
    exact ⟨[], .nil⟩
  | cons f fields ih =>
    obtain ⟨part, parts, rfl⟩ := List.exists_cons_of_length_eq_add_one hlength.symm
    rw [List.forall_mem_cons] at hplain
    have hrest : fields.length = parts.length := Nat.succ.inj hlength
    cases part with
    | none =>
      obtain ⟨upds, hupds⟩ := ih hplain.2 hrest h
      exact ⟨_, .absent hupds⟩
    | some r =>
      rw [fillParts] at h
      cases hfill : f.fill s r d with
      | error fault => rw [hfill] at h; cases h
      | ok d₁ =>
        rw [hfill] at h
        obtain ⟨upd, hupd⟩ := hplain.1.sets hfill
        obtain ⟨upds, hupds⟩ := ih hplain.2 hrest h
        exact ⟨_, .present hupd hupds⟩

/-! ## Objects -/

/-- A member of another name makes no difference to a field. -/
theorem Field.fills_cons_of_false {key : Key} (hkey : isOneOf f.names key = false)
    (upd : δ → δ) : f.Fills s ((key, r) :: ms) upd ↔ f.Fills s ms upd := by
  rw [Field.Fills, Field.Fills, under_cons_of_false hkey]

/-- What an object that fills a draft has: keys that are texts, and for each field nothing if the
field is set already, or else one member at most, which can be read. -/
structure Fillable (fields : List (Field δ)) (s : Source) (d : δ) (ms : List (Key × Reading)) :
    Prop where
  keys : ∀ m ∈ ms, m.1 ≠ .unpaired
  unused : ∀ f ∈ fields, f.isSet d = true → under f.names ms = []
  fills : ∀ f ∈ fields, ∃ upd, f.Fills s ms upd

theorem Fillable.nil : Fillable fields s d [] where
  keys := by simp
  unused _ _ _ := rfl
  fills _ _ := ⟨id, .inl ⟨rfl, rfl⟩⟩

theorem Fillable.cons_of_other {key : String} (hfind : fields.find? (·.hasName key) = none)
    (h : Fillable fields s d ms) : Fillable fields s d ((.name key, r) :: ms) := by
  have hkey : ∀ f ∈ fields, isOneOf f.names (.name key) = false := fun f hf => by
    rw [← Field.hasName_eq]
    simpa using List.find?_eq_none.mp hfind f hf
  refine ⟨List.forall_mem_cons.mpr ⟨nofun, h.keys⟩, fun f hf hset => ?_, fun f hf => ?_⟩
  · rw [under_cons_of_false (hkey f hf), h.unused f hf hset]
  · obtain ⟨upd, hupd⟩ := h.fills f hf
    exact ⟨upd, (Field.fills_cons_of_false (hkey f hf) upd).mpr hupd⟩

/-- The field of the first member is set by it, so no other member of it can follow. -/
theorem Fillable.cons_of_field (hsep : Separate fields) (hplain : ∀ f ∈ fields, f.Plain)
    {key : String} (hfind : fields.find? (·.hasName key) = some f) (hunset : f.isSet d = false)
    (hfill : f.fill s r d = .ok d') (h : Fillable fields s d' ms) :
    Fillable fields s d ((.name key, r) :: ms) := by
  have hother : ∀ g ∈ fields, g.hasName key = false →
      isOneOf g.names (.name key) = false ∧ g.isSet d' = g.isSet d := fun g hg hkey =>
    ⟨Field.hasName_eq g key ▸ hkey, (keeps_of_find? hsep hg hkey hfind).2.isSet hfill⟩
  have hsame : ∀ g ∈ fields, g.hasName key = true → g = f := fun g hg hkey =>
    Option.some.inj ((hsep.find?_eq hg hkey).symm.trans hfind)
  refine ⟨List.forall_mem_cons.mpr ⟨nofun, h.keys⟩, fun g hg hset => ?_, fun g hg => ?_⟩
  · cases hkey : g.hasName key with
    | true =>
      rw [hsame g hg hkey, hunset] at hset
      cases hset
    | false =>
      obtain ⟨hnames, hkept⟩ := hother g hg hkey
      rw [under_cons_of_false hnames, h.unused g hg (hkept.trans hset)]
  · cases hkey : g.hasName key with
    | true =>
      obtain rfl := hsame g hg hkey
      obtain ⟨upd, hupd⟩ := (hplain g hg).sets hfill
      have hnone := h.unused g hg ((hplain g hg).isSet hfill)
      rw [Field.hasName_eq] at hkey
      exact ⟨upd, .inr ⟨r, by rw [under_cons_of_true hkey, hnone], hupd⟩⟩
    | false =>
      obtain ⟨upd, hupd⟩ := h.fills g hg
      exact ⟨upd, (Field.fills_cons_of_false (hother g hg hkey).1 upd).mpr hupd⟩

theorem fillable_of_fillMembers (hsep : Separate fields) (hplain : ∀ f ∈ fields, f.Plain)
    (h : fillMembers fields s d ms = .ok d') : Fillable fields s d ms := by
  induction ms generalizing d with
  | nil => exact .nil
  | cons m rest ih =>
    obtain ⟨key, r⟩ := m
    cases key with
    | unpaired => cases h
    | name key =>
      cases hfind : fields.find? (·.hasName key) with
      | none =>
        rw [fillMembers_cons_of_other hfind] at h
        cases hskip : skip s r with
        | error fault => rw [hskip] at h; cases h
        | ok _ =>
          rw [hskip] at h
          exact .cons_of_other hfind (ih h)
      | some f =>
        cases hunset : f.isSet d with
        | true => rw [fillMembers_cons_of_repeated hfind hunset] at h; cases h
        | false =>
          rw [fillMembers_cons_of_field hfind hunset] at h
          cases hfill : f.fill s r d with
          | error fault => rw [hfill] at h; cases h
          | ok d₁ =>
            rw [hfill] at h
            exact .cons_of_field hsep hplain hfind hunset hfill (ih h)

/-- The parts of an object make the changes of its fields. -/
theorem Takes.forall₂_fills (h : Takes s fields parts upds)
    (hparts : List.Forall₂ (fun names part => under names ms = part.toList)
      (fields.map Field.names) parts) :
    List.Forall₂ (fun f upd => f.Fills s ms upd) fields upds := by
  induction h with
  | nil => exact .nil
  | absent _ ih =>
    obtain ⟨hunder, hparts⟩ := List.forall₂_cons.mp hparts
    exact .cons (.inl ⟨hunder, rfl⟩) (ih hparts)
  | present hsets _ ih =>
    obtain ⟨hunder, hparts⟩ := List.forall₂_cons.mp hparts
    exact .cons (.inr ⟨_, hunder, hsets⟩) (ih hparts)

theorem exists_takes_of_fills (h : ∀ f ∈ fields, ∃ upd, f.Fills s ms upd) :
    ∃ parts upds, List.Forall₂ (fun names part => under names ms = part.toList)
      (fields.map Field.names) parts ∧ Takes s fields parts upds := by
  induction fields with
  | nil => exact ⟨[], [], .nil, .nil⟩
  | cons f fields ih =>
    rw [List.forall_mem_cons] at h
    obtain ⟨parts, upds, hparts, htakes⟩ := ih h.2
    obtain ⟨upd, ⟨hnone, rfl⟩ | ⟨r, hone, hsets⟩⟩ := h.1
    · exact ⟨none :: parts, _, .cons hnone hparts, .absent htakes⟩
    · exact ⟨some r :: parts, _, .cons hone hparts, .present hsets htakes⟩

/-- An object fills a blank draft exactly as its parts do. -/
theorem fillMembers_eq_ok_iff (hsep : Separate fields) (hplain : ∀ f ∈ fields, f.Plain)
    (hunset : ∀ f ∈ fields, f.isSet d = false) (hwhole : ∀ m ∈ ms, m.2.isWhole = true) :
    fillMembers fields s d ms = .ok d' ↔
      ∃ parts, GivesParts (fields.map Field.names) (.object ms true) parts ∧
        fillParts s d fields parts = .ok d' := by
  constructor
  · intro h
    have hfillable := fillable_of_fillMembers hsep hplain h
    obtain ⟨parts, upds, hparts, htakes⟩ := exists_takes_of_fills hfillable.fills
    refine ⟨parts, .object hfillable.keys hparts, ?_⟩
    rw [htakes.fillParts_eq, ← h]
    exact (fillMembers_eq_ok hsep hunset (htakes.forall₂_fills hparts) hfillable.keys hwhole).symm
  · rintro ⟨parts, hgives, h⟩
    cases hgives with
    | object hkeys hparts =>
      have hlength : fields.length = parts.length := by
        rw [← hparts.length_eq, List.length_map]
      obtain ⟨upds, htakes⟩ := Takes.of_fillParts hplain hlength h
      rw [fillMembers_eq_ok hsep hunset (htakes.forall₂_fills hparts) hkeys hwhole, ← h,
        htakes.fillParts_eq]

/-! ## Arrays -/

theorem fillParts_itemParts_nil (fields : List (Field δ)) :
    fillParts s d fields (itemParts (fields.map Field.names) []) = .ok d := by
  induction fields with
  | nil => rfl
  | cons f fields ih => exact ih

/-- An array fills a draft to its end exactly as its parts do. -/
theorem fillItems_eq_ok_iff : (∃ full, fillItems s d fields rs = .ok (d', [], full)) ↔
    rs.length ≤ fields.length ∧
      fillParts s d fields (itemParts (fields.map Field.names) rs) = .ok d' := by
  induction fields generalizing rs d with
  | nil => cases rs <;> simp [fillItems, fillParts]
  | cons f fields ih =>
    cases rs with
    | nil =>
      rw [fillParts_itemParts_nil]
      simp [fillItems]
    | cons r rs =>
      rw [fillItems, List.map_cons, itemParts, List.head?_cons, fillParts, List.length_cons,
        List.length_cons, Nat.succ_le_succ_iff]
      cases f.fill s r d with
      | error fault => simp [bind, Except.bind]
      | ok d₁ => exact ih

/-! ## Records -/

/-- The fields of a record are separate, plain, and not set at first. -/
structure Record.Regular (record : Record δ α) : Prop where
  separate : Separate record.fields
  plain : ∀ f ∈ record.fields, f.Plain
  unset : ∀ f ∈ record.fields, f.isSet record.blank = false

theorem Record.ofMembers_eq_ok_iff {record : Record δ α} {a : α} :
    record.ofMembers d = .ok a ↔ record.finish .object d = .ok a := by
  rw [Record.ofMembers]
  cases record.finish .object d <;> simp [Except.mapError]

theorem Record.ofItems_eq_ok_iff {record : Record δ α} {a : α} :
    record.ofItems d = .ok a ↔ record.finish .array d = .ok a := by
  rw [Record.ofItems]
  cases record.finish .array d <;> simp [Except.mapError]

theorem Record.decode_array_eq_ok_iff {record : Record δ α} {a : α} :
    record.decode s (.array rs true) = .ok a ↔
      ∃ d full, fillItems s.inner record.blank record.fields rs = .ok (d, [], full) ∧
        record.ofItems d = .ok a := by
  rw [Record.decode]
  cases fillItems s.inner record.blank record.fields rs with
  | error fault => simp [bind, Except.bind]
  | ok filled =>
    obtain ⟨d, rest, full⟩ := filled
    cases s <;> cases rest <;> cases h : record.ofItems d <;>
      simp [bind, Except.bind, pure, Except.pure, throw, throwThe, MonadExceptOf.throw, h]

/-- A record whose fields need not be in one form or the other is read exactly when the parts for
its fields can be read and have all that it needs. -/
theorem Record.decode_eq_ok_iff {record : Record δ α} {a : α} (hrecord : record.Regular)
    (hfinish : ∀ form, record.finish form = record.finish .object)
    (hwhole : r.isWhole = true) :
    record.decode s r = .ok a ↔
      ∃ parts d, GivesParts (record.fields.map Field.names) r parts ∧
        fillParts s.inner record.blank record.fields parts = .ok d ∧
          record.finish .object d = .ok a := by
  cases r with
  | object ms closed =>
    rw [Reading.isWhole, Bool.and_eq_true, Reading.allMembersWhole_iff] at hwhole
    obtain ⟨hwhole, rfl⟩ := hwhole
    have hfill (d : δ) : fillMembers record.fields s.inner record.blank ms = .ok d ↔
        ∃ parts, GivesParts (record.fields.map Field.names) (.object ms true) parts ∧
          fillParts s.inner record.blank record.fields parts = .ok d :=
      fillMembers_eq_ok_iff hrecord.separate hrecord.plain hrecord.unset hwhole
    rw [Record.decode_object]
    constructor
    · intro h
      cases hd : fillMembers record.fields s.inner record.blank ms with
      | error fault => rw [hd] at h; cases h
      | ok d =>
        rw [hd] at h
        obtain ⟨parts, hparts, hd⟩ := (hfill d).mp hd
        exact ⟨parts, d, hparts, hd, Record.ofMembers_eq_ok_iff.mp h⟩
    · rintro ⟨parts, d, hparts, hd, h⟩
      rw [(hfill d).mpr ⟨parts, hparts, hd⟩]
      exact Record.ofMembers_eq_ok_iff.mpr h
  | array rs closed =>
    obtain rfl : closed = true := (Bool.and_eq_true _ _ ▸ hwhole : _ ∧ _).2
    rw [Record.decode_array_eq_ok_iff]
    constructor
    · rintro ⟨d, full, hd, h⟩
      obtain ⟨hlength, hd⟩ := fillItems_eq_ok_iff.mp ⟨full, hd⟩
      exact ⟨_, d, .array (by rwa [List.length_map]), hd,
        hfinish .array ▸ Record.ofItems_eq_ok_iff.mp h⟩
    · rintro ⟨parts, d, hparts, hd, h⟩
      cases hparts with
      | array hlength =>
        rw [List.length_map] at hlength
        obtain ⟨full, hd⟩ := fillItems_eq_ok_iff.mpr ⟨hlength, hd⟩
        exact ⟨d, full, hd, Record.ofItems_eq_ok_iff.mpr (hfinish .array ▸ h)⟩
  | null | bool | number | string | broken =>
    constructor
    · intro h
      cases h
    · rintro ⟨parts, d, hparts, -⟩
      cases hparts

/-! ## Texts -/

/-- A text in which nothing may be broken is read exactly when it is JSON and what it says is. -/
theorem ofText_strict_eq_ok_iff {d : Decoder α} {text : String} {a : α} :
    ofText d text = .ok a ↔
      ∃ r, IsDocument text r ∧ d (.text Json.depthLimit) r = .ok a := by
  constructor
  · intro h
    rw [ofText] at h
    cases hread : Json.read .strict text with
    | mk r complete =>
      rw [hread] at h
      dsimp only at h
      cases hd : d (.text Json.depthLimit) r with
      | error fault => rw [hd] at h; cases h
      | ok b =>
        rw [hd] at h
        cases complete with
        | false => cases h
        | true =>
          obtain rfl : b = a := Except.ok.inj h
          exact ⟨r, Json.isDocument_iff.mpr hread, hd⟩
  · rintro ⟨r, htext, hd⟩
    rw [ofText_strict_eq htext, hd]

end Discussion.Wire
