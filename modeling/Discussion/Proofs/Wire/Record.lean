import Discussion.Proofs.Json.Completeness
import Discussion.Wire.Record
import Mathlib.Data.List.Pairwise
import Mathlib.Data.List.Nodup

/-!
# Records in any order

The fields of a record have names of their own and fill parts of a draft of their own. So the
member of a field can be taken out of an object and its effect applied to what the other members
make of the draft. The order of the members does not matter then, and neither do members of other
names.
-/

namespace Discussion.Wire

open Json (Key Reading)

variable {δ α β : Type} {fields : List (Field δ)} {f g : Field δ} {s : Source}
  {ms : List (Key × Reading)} {r : Reading} {d d' : δ} {upd : δ → δ}

/-! ## Members by name -/

/-- Whether a key is one of some names. -/
def isOneOf (names : List String) : Key → Bool
  | .name name => decide (name ∈ names)
  | .unpaired => false

/-- The values under some names, in order. -/
def under (names : List String) (ms : List (Key × Reading)) : List Reading :=
  (ms.filter fun m => isOneOf names m.1).map (·.2)

/-- The members that are not under any of some names, in order. -/
def without (names : List String) (ms : List (Key × Reading)) : List (Key × Reading) :=
  ms.filter fun m => !isOneOf names m.1

section

variable {names names' : List String} {key : Key}

theorem under_cons_of_true (h : isOneOf names key = true) :
    under names ((key, r) :: ms) = r :: under names ms := by
  rw [under, List.filter_cons_of_pos (by exact h)]
  rfl

theorem under_cons_of_false (h : isOneOf names key = false) :
    under names ((key, r) :: ms) = under names ms := by
  rw [under, List.filter_cons_of_neg (by simp [h])]
  rfl

theorem without_cons_of_true (h : isOneOf names key = true) :
    without names ((key, r) :: ms) = without names ms :=
  List.filter_cons_of_neg (by simp [h])

theorem without_cons_of_false (h : isOneOf names key = false) :
    without names ((key, r) :: ms) = (key, r) :: without names ms :=
  List.filter_cons_of_pos (by simp [h])

theorem under_eq_nil_iff : under names ms = [] ↔ ∀ m ∈ ms, isOneOf names m.1 = false := by
  simp [under, List.filter_eq_nil_iff]

theorem exists_mem_of_mem_under (h : r ∈ under names ms) : ∃ key, (key, r) ∈ ms := by
  obtain ⟨m, hm, rfl⟩ := List.mem_map.mp h
  exact ⟨m.1, List.mem_of_mem_filter hm⟩

theorem under_cons_eq_nil_iff :
    under names ((key, r) :: ms) = [] ↔ isOneOf names key = false ∧ under names ms = [] := by
  simp only [under_eq_nil_iff, List.forall_mem_cons]

theorem without_eq_self (h : under names ms = []) : without names ms = ms := by
  rw [without, List.filter_eq_self]
  intro m hm
  rw [under_eq_nil_iff.mp h m hm]
  rfl

theorem isOneOf_append (names names' : List String) (key : Key) :
    isOneOf (names ++ names') key = (isOneOf names key || isOneOf names' key) := by
  cases key <;> simp [isOneOf]

theorem without_append (names names' : List String) (ms : List (Key × Reading)) :
    without (names ++ names') ms = without names (without names' ms) := by
  simp only [without, List.filter_filter, isOneOf_append, Bool.not_or]

theorem isOneOf_eq_false_of_disjoint (h : names.Disjoint names')
    (hkey : isOneOf names key = true) : isOneOf names' key = false := by
  cases key with
  | unpaired => rfl
  | name key =>
    rw [isOneOf, decide_eq_true_eq] at hkey
    exact decide_eq_false (h hkey)

theorem under_without_eq_nil (h : names ⊆ names') (ms : List (Key × Reading)) :
    under names (without names' ms) = [] := by
  rw [under_eq_nil_iff]
  intro m hm
  have hnot : isOneOf names' m.1 = false := by simpa using (List.mem_filter.mp hm).2
  cases hkey : m.1 with
  | unpaired => rfl
  | name key =>
    rw [hkey, isOneOf, decide_eq_false_iff_not] at hnot
    exact decide_eq_false fun hmem => hnot (h hmem)

theorem under_without (h : names.Disjoint names') :
    under names (without names' ms) = under names ms := by
  have hfilter : ∀ m ∈ ms, (isOneOf names m.1 && !isOneOf names' m.1) = isOneOf names m.1 := by
    intro m _
    cases hm : isOneOf names m.1 with
    | false => rfl
    | true => rw [isOneOf_eq_false_of_disjoint h hm]; rfl
  rw [under, without, List.filter_filter, List.filter_congr hfilter, under]

end

/-! ## Independent fields -/

/-- All names of a field. -/
def Field.names (f : Field δ) : List String := f.name :: f.alias?.toList

theorem Field.hasName_eq (f : Field δ) (key : String) :
    f.hasName key = isOneOf f.names (.name key) := by
  simp [Field.hasName, isOneOf, Field.names, eq_comm]

/-- A field changes every draft alike. -/
def Field.Sets (f : Field δ) (s : Source) (r : Reading) (upd : δ → δ) : Prop :=
  ∀ d, f.fill s r d = .ok (upd d)

/-- Filling a field leaves it open whether another is filled, and with what. -/
structure Field.Keeps (f g : Field δ) : Prop where
  isSet {s : Source} {r : Reading} {d d' : δ} (h : f.fill s r d = .ok d') : g.isSet d' = g.isSet d
  fill {s : Source} {r : Reading} {upd : δ → δ} (h : f.Sets s r upd) (s' : Source) (r' : Reading)
    (d : δ) : g.fill s' r' (upd d) = (g.fill s' r' d).map upd

/-- The fields of a record have different names and keep each other. -/
structure Separate (fields : List (Field δ)) : Prop where
  names : (fields.flatMap Field.names).Nodup
  keeps : fields.Pairwise fun f g => f.Keeps g ∧ g.Keeps f

theorem Separate.keeps_of_ne (h : Separate fields) (hf : f ∈ fields) (hg : g ∈ fields)
    (hne : f ≠ g) : f.Keeps g := by
  have : Std.Symm fun f g : Field δ => f.Keeps g ∧ g.Keeps f := ⟨fun _ _ h => h.symm⟩
  exact (h.keeps.forall hf hg hne).1

theorem Separate.disjoint_of_ne (h : Separate fields) (hf : f ∈ fields) (hg : g ∈ fields)
    (hne : f ≠ g) : f.names.Disjoint g.names := by
  have : Std.Symm (Function.onFun List.Disjoint (@Field.names δ)) :=
    ⟨fun _ _ h => List.disjoint_comm.mp h⟩
  exact (List.nodup_flatMap.mp h.names).2.forall hf hg hne

theorem Separate.eq_of_hasName (h : Separate fields) (hf : f ∈ fields) (hg : g ∈ fields)
    {key : String} (hfkey : f.hasName key = true) (hgkey : g.hasName key = true) : f = g := by
  by_contra hne
  rw [Field.hasName_eq, isOneOf, decide_eq_true_eq] at hfkey hgkey
  exact h.disjoint_of_ne hf hg hne hfkey hgkey

theorem Separate.find?_eq (h : Separate fields) (hf : f ∈ fields) {key : String}
    (hkey : f.hasName key = true) : fields.find? (·.hasName key) = some f := by
  cases hfind : fields.find? (·.hasName key) with
  | none => exact absurd hkey (List.find?_eq_none.mp hfind f hf)
  | some g =>
    have hgkey : g.hasName key = true := by simpa using List.find?_some hfind
    rw [h.eq_of_hasName hf (List.mem_of_find?_eq_some hfind) hkey hgkey]

/-! ## Fields that a decoder fills -/

variable {name name' : String} {dec : Decoder α} {dec' : Decoder β} {get : δ → Option α}
  {get' : δ → Option β} {set : α → δ → δ} {set' : β → δ → δ} {alias? alias?' : Option String}
  {leniency leniency' : Json.Leniency}

theorem Field.sets_of {a : α} (h : dec s r = .ok a) :
    (Field.of name dec get set alias? leniency).Sets s r (set a) := by
  intro d
  simp [Field.of, h, Except.map]

@[simp]
theorem Field.keeps_of (hget : ∀ a d, get' (set a d) = get' d)
    (hset : ∀ a b d, set' b (set a d) = set a (set' b d)) :
    (Field.of name dec get set alias? leniency).Keeps
      (Field.of name' dec' get' set' alias?' leniency') where
  isSet {s r d d'} h := by
    cases hdec : dec s r with
    | error fault => simp [Field.of, hdec, Except.map] at h
    | ok a =>
      obtain rfl : set a d = d' := by simpa [Field.of, hdec, Except.map] using h
      simp only [Field.of, hget]
  fill {s r upd} h s' r' d := by
    cases hdec : dec s r with
    | error fault => simp [Field.Sets, Field.of, hdec, Except.map] at h; exact (h d).elim
    | ok a =>
      have hupd : ∀ d, upd d = set a d := by
        simpa [Field.Sets, Field.of, hdec, Except.map, eq_comm] using h
      cases hdec' : dec' s' r' with
      | error fault => simp [Field.of, hdec', Except.map]
      | ok b => simp [Field.of, hdec', Except.map, hupd, hset]

/-! ## Taking a member out -/

theorem fillMembers_cons_of_field {key : String} {rest : List (Key × Reading)}
    (hfind : fields.find? (·.hasName key) = some f) (hunset : f.isSet d = false) :
    fillMembers fields s d ((.name key, r) :: rest) =
      f.fill s r d >>= fun d => fillMembers fields s d rest := by
  rw [fillMembers, hfind]
  simp only [hunset, Bool.false_eq_true, if_false]

theorem fillMembers_cons_of_repeated {key : String} {rest : List (Key × Reading)}
    (hfind : fields.find? (·.hasName key) = some f) (hset : f.isSet d = true) :
    fillMembers fields s d ((.name key, r) :: rest) =
      .error (.mismatch (.repeatedField f.name)) := by
  rw [fillMembers, hfind]
  simp only [hset, if_true]

theorem fillMembers_cons_of_other {key : String} {rest : List (Key × Reading)}
    (hfind : fields.find? (·.hasName key) = none) :
    fillMembers fields s d ((.name key, r) :: rest) =
      skip s r >>= fun _ => fillMembers fields s d rest := by
  rw [fillMembers, hfind]

theorem map_bind_of_map {ε : Type} {x : Except ε δ} {k k' : δ → Except ε δ}
    (h : ∀ d, x = .ok d → k' (upd d) = (k d).map upd) :
    (x.map upd >>= k') = (x >>= k).map upd := by
  cases x with
  | error fault => rfl
  | ok d => exact h d rfl

theorem bind_of_map {ε : Type} {x : Except ε β} {k k' : β → Except ε δ}
    (h : ∀ b, x = .ok b → k' b = (k b).map upd) : (x >>= k') = (x >>= k).map upd := by
  cases x with
  | error fault => rfl
  | ok b => exact h b rfl

theorem keeps_of_find? (hsep : Separate fields) (hf : f ∈ fields) {key : String}
    (hkey : f.hasName key = false) (hfind : fields.find? (·.hasName key) = some g) :
    f.Keeps g ∧ g.Keeps f := by
  have hg : g ∈ fields := List.mem_of_find?_eq_some hfind
  have hgkey : g.hasName key = true := by simpa using List.find?_some hfind
  have hne : f ≠ g := by
    rintro rfl
    rw [hkey] at hgkey
    cases hgkey
  exact ⟨hsep.keeps_of_ne hf hg hne, hsep.keeps_of_ne hg hf hne.symm⟩

/-- The change that a field makes can be made at the end. -/
theorem fillMembers_upd (hsep : Separate fields) (hf : f ∈ fields) (hsets : f.Sets s r upd)
    (hnone : under f.names ms = []) (d : δ) :
    fillMembers fields s (upd d) ms = (fillMembers fields s d ms).map upd := by
  induction ms generalizing d with
  | nil => rfl
  | cons m rest ih =>
    obtain ⟨key, r'⟩ := m
    cases key with
    | unpaired => rfl
    | name key =>
      obtain ⟨hkey, hnone⟩ := under_cons_eq_nil_iff.mp hnone
      rw [← Field.hasName_eq] at hkey
      cases hfind : fields.find? (·.hasName key) with
      | none =>
        rw [fillMembers_cons_of_other hfind, fillMembers_cons_of_other hfind]
        exact bind_of_map fun _ _ => ih hnone d
      | some g =>
        have hkeeps := (keeps_of_find? hsep hf hkey hfind).1
        have hisSet : g.isSet (upd d) = g.isSet d := hkeeps.isSet (hsets d)
        cases hset : g.isSet d with
        | true =>
          rw [fillMembers_cons_of_repeated hfind hset,
            fillMembers_cons_of_repeated hfind (hisSet.trans hset)]
          rfl
        | false =>
          rw [fillMembers_cons_of_field hfind hset,
            fillMembers_cons_of_field hfind (hisSet.trans hset), hkeeps.fill hsets]
          exact map_bind_of_map fun d _ => ih hnone d

/-- The member of a field can be taken out, and the change that it makes be made at the end. -/
theorem fillMembers_eq_without (hsep : Separate fields) (hf : f ∈ fields) (hsets : f.Sets s r upd)
    (hunder : under f.names ms = [r]) (hunset : f.isSet d = false) :
    fillMembers fields s d ms = (fillMembers fields s d (without f.names ms)).map upd := by
  induction ms generalizing d with
  | nil => cases hunder
  | cons m rest ih =>
    obtain ⟨key, r'⟩ := m
    cases hkey : isOneOf f.names key with
    | true =>
      rw [under_cons_of_true hkey, List.cons.injEq] at hunder
      obtain ⟨rfl, hnone⟩ := hunder
      cases key with
      | unpaired => cases hkey
      | name key =>
        rw [← Field.hasName_eq] at hkey
        rw [without_cons_of_true (by rwa [← Field.hasName_eq]), without_eq_self hnone,
          fillMembers_cons_of_field (hsep.find?_eq hf hkey) hunset, hsets d]
        exact fillMembers_upd hsep hf hsets hnone d
    | false =>
      rw [under_cons_of_false hkey] at hunder
      rw [without_cons_of_false hkey]
      cases key with
      | unpaired => rfl
      | name key =>
        rw [← Field.hasName_eq] at hkey
        cases hfind : fields.find? (·.hasName key) with
        | none =>
          rw [fillMembers_cons_of_other hfind, fillMembers_cons_of_other hfind]
          exact bind_of_map fun _ _ => ih hunder hunset
        | some g =>
          have hkeeps := (keeps_of_find? hsep hf hkey hfind).2
          cases hset : g.isSet d with
          | true =>
            rw [fillMembers_cons_of_repeated hfind hset, fillMembers_cons_of_repeated hfind hset]
            rfl
          | false =>
            rw [fillMembers_cons_of_field hfind hset, fillMembers_cons_of_field hfind hset]
            exact bind_of_map fun d' hd' => ih hunder ((hkeeps.isSet hd').trans hunset)

/-! ## Whole objects -/

/-- What an object does to a draft through one field: nothing if the field is left out, or else
what its only member does. -/
def Field.Fills (f : Field δ) (s : Source) (ms : List (Key × Reading)) (upd : δ → δ) : Prop :=
  (under f.names ms = [] ∧ upd = id) ∨ ∃ r, under f.names ms = [r] ∧ f.Sets s r upd

theorem fillMembers_of_others (hnames : ∀ m ∈ ms, m.1 ≠ .unpaired)
    (hothers : ∀ m ∈ ms, isOneOf (fields.flatMap Field.names) m.1 = false)
    (hwhole : ∀ m ∈ ms, m.2.isWhole = true) : fillMembers fields s d ms = .ok d := by
  induction ms with
  | nil => rfl
  | cons m rest ih =>
    obtain ⟨key, r⟩ := m
    rw [List.forall_mem_cons] at hnames hothers hwhole
    cases key with
    | unpaired => exact absurd rfl hnames.1
    | name key =>
      have hfind : fields.find? (·.hasName key) = none := by
        rw [List.find?_eq_none]
        intro f hf hkey
        rw [Field.hasName_eq, isOneOf, decide_eq_true_eq] at hkey
        exact of_decide_eq_false hothers.1 (List.mem_flatMap.mpr ⟨f, hf, hkey⟩)
      have hskip : skip s r = .ok () := by
        cases s with
        | text room => exact if_pos hwhole.1
        | taken => rfl
      rw [fillMembers_cons_of_other hfind, hskip]
      exact ih hnames.2 hothers.2 hwhole.2

/-- The members of some fields can be taken out, and their changes be made at the end. -/
theorem fillMembers_eq_without_all {gs : List (Field δ)} {upds : List (δ → δ)}
    (hsep : Separate fields) (hgs : ∀ f ∈ gs, f ∈ fields) (hnodup : (gs.flatMap Field.names).Nodup)
    (h : List.Forall₂ (fun f upd => f.Fills s ms upd) gs upds)
    (hunset : ∀ f ∈ gs, f.isSet d = false) :
    fillMembers fields s d ms =
      (fillMembers fields s d (without (gs.flatMap Field.names) ms)).map
        fun d => upds.foldl (fun d upd => upd d) d := by
  induction h with
  | nil =>
    rw [List.flatMap_nil, without_eq_self (under_eq_nil_iff.mpr fun m _ => by cases m.1 <;> rfl)]
    cases fillMembers fields s d ms <;> rfl
  | @cons f upd gs upds hf _ ih =>
    rw [List.forall_mem_cons] at hgs hunset
    rw [List.flatMap_cons, List.nodup_append] at hnodup
    have hdisjoint : f.names.Disjoint (gs.flatMap Field.names) := fun _ ha hb =>
      hnodup.2.2 _ ha _ hb rfl
    rw [ih hgs.2 hnodup.2.1 hunset.2, List.flatMap_cons, without_append]
    have hunder : under f.names (without (gs.flatMap Field.names) ms) = under f.names ms :=
      under_without hdisjoint
    rcases hf with ⟨hnone, rfl⟩ | ⟨r, hone, hsets⟩
    · rw [without_eq_self (hunder.trans hnone)]
      rfl
    · rw [fillMembers_eq_without hsep hgs.1 hsets (hunder.trans hone) hunset.1]
      cases fillMembers fields s d (without f.names (without (gs.flatMap Field.names) ms)) <;> rfl

/-- An object fills a draft by the changes of its fields, if there is at most one member for
each. -/
theorem fillMembers_eq_ok {upds : List (δ → δ)} (hsep : Separate fields)
    (hunset : ∀ f ∈ fields, f.isSet d = false)
    (h : List.Forall₂ (fun f upd => f.Fills s ms upd) fields upds)
    (hnames : ∀ m ∈ ms, m.1 ≠ .unpaired) (hwhole : ∀ m ∈ ms, m.2.isWhole = true) :
    fillMembers fields s d ms = .ok (upds.foldl (fun d upd => upd d) d) := by
  have hothers : fillMembers fields s d (without (fields.flatMap Field.names) ms) = .ok d := by
    refine fillMembers_of_others (fun m hm => ?_) (fun m hm => ?_) fun m hm => ?_
    · exact hnames m (List.mem_of_mem_filter hm)
    · simpa using (List.mem_filter.mp hm).2
    · exact hwhole m (List.mem_of_mem_filter hm)
  rw [fillMembers_eq_without_all hsep (fun _ => id) hsep.names h hunset, hothers]
  rfl

namespace Record

variable {record : Record δ α}

theorem decode_object (record : Record δ α) (s : Source) (ms : List (Key × Reading)) :
    record.decode s (.object ms true) =
      fillMembers record.fields s.inner record.blank ms >>= record.ofMembers := rfl

/-- An object with at most one member for each field makes the record of their changes. -/
theorem decode_eq_ofMembers {upds : List (δ → δ)} (hsep : Separate record.fields)
    (hunset : ∀ f ∈ record.fields, f.isSet record.blank = false)
    (h : List.Forall₂ (fun f upd => f.Fills s.inner ms upd) record.fields upds)
    (hnames : ∀ m ∈ ms, m.1 ≠ .unpaired) (hwhole : ∀ m ∈ ms, m.2.isWhole = true) :
    record.decode s (.object ms true) =
      record.ofMembers (upds.foldl (fun d upd => upd d) record.blank) := by
  rw [decode_object, fillMembers_eq_ok hsep hunset h hnames hwhole]
  rfl

/-- A record is read to the end if the values that may be broken are sound. -/
theorem spares_object {room : Nat} {closed : Bool}
    (h : ∀ f ∈ record.fields, f.leniency = .strict ∨
      ∀ r ∈ under f.names ms, r.isSound (room - 1) = true) :
    record.leniency.Spares room (.object ms closed) := by
  intro key r hm
  change (Field.leniencyOf (record.fields.find? (·.hasName key))).Spares (room - 1) r
  cases hfind : record.fields.find? (·.hasName key) with
  | none => trivial
  | some f =>
    have hkey : f.hasName key = true := by simpa using List.find?_some hfind
    rcases h f (List.mem_of_find?_eq_some hfind) with hstrict | hsound
    · change f.leniency.Spares (room - 1) r
      rw [hstrict]
      trivial
    · rw [Field.hasName_eq] at hkey
      have hunder : r ∈ under f.names ms :=
        List.mem_map.mpr ⟨_, List.mem_filter.mpr ⟨hm, hkey⟩, rfl⟩
      exact f.leniency.spares_of_isSound (hsound r hunder)

end Record

end Discussion.Wire
