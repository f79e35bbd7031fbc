import Discussion.Proofs.Json.Token

/-!
# Every JSON text is read as what it says

The reader goes through any text of the grammar and finds what the text says. Where a value may
be broken without harm, it is first passed over in search of its end. A value that can be taken
as a whole is not broken, so that it is read like any other.
-/

namespace Discussion.Json

variable {cs blanks rest next after more : List Char} {r : Reading} {room fuel place : Nat}
  {leniency : Leniency} {key : Key} {us : List Nat}

theorem isBlank_nil : IsBlank [] := by simp [IsBlank]

/-! ## The text inside a container -/

/-- The text of the items after the first. -/
def itemsText (items : List Item) : List Char := items.flatMap fun j => ',' :: j.padded

/-- The text of the members after the first. -/
def membersText (members : List Member) : List Char := members.flatMap fun k => ',' :: k.padded

theorem itemsText_cons_append (j : Item) (items : List Item) (rest : List Char) :
    itemsText (j :: items) ++ rest =
      ',' :: (j.before ++ (j.text ++ (j.after ++ (itemsText items ++ rest)))) := by
  simp [itemsText, Item.padded]

theorem length_itemsText_cons (j : Item) (items : List Item) :
    (itemsText (j :: items)).length =
      j.before.length + j.text.length + j.after.length + (itemsText items).length + 1 := by
  simp [itemsText, Item.padded]
  omega

theorem membersText_cons_append (k : Member) (members : List Member) (rest : List Char) :
    membersText (k :: members) ++ rest = ',' :: (k.padded ++ (membersText members ++ rest)) := by
  simp [membersText]

theorem length_membersText_cons (k : Member) (members : List Member) :
    (membersText (k :: members)).length =
      k.indent.length + k.text.length + (membersText members).length + 1 := by
  simp [membersText, Member.padded]
  omega

theorem stops_itemsText (items : List Item) (rest : List Char) :
    Stops (itemsText items ++ ']' :: rest) := by
  cases items with
  | nil => exact stops_cons (by decide)
  | cons j items => exact stops_cons (by decide)

theorem stops_membersText (members : List Member) (rest : List Char) :
    Stops (membersText members ++ '}' :: rest) := by
  cases members with
  | nil => exact stops_cons (by decide)
  | cons k members => exact stops_cons (by decide)

theorem Member.text_append (m : Member) (rest : List Char) :
    m.text ++ rest = '"' :: (m.spelling ++ '"' :: (m.gap ++ ':' ::
      (m.item.before ++ (m.item.text ++ (m.item.after ++ rest))))) := by
  simp [Member.text, Item.padded]

theorem Member.length_text_lt (m : Member) : m.item.text.length < m.text.length := by
  simp [Member.text, Item.padded]
  omega

theorem Member.skipSpace_padded_append {m : Member} (h : IsBlank m.indent) (rest : List Char) :
    skipSpace (m.padded ++ rest) = m.text ++ rest := by
  rw [Member.padded, List.append_assoc, Member.text_append]
  exact skipSpace_append_cons h (by decide)

theorem Member.skipSpace_text_append (m : Member) (rest : List Char) :
    skipSpace (m.text ++ rest) = m.text ++ rest := by
  rw [Member.text_append]
  exact skipSpace_append_cons isBlank_nil (by decide)

theorem IsText.skipSpace_eq (h : IsText cs r) (hblanks : IsBlank blanks) (rest : List Char) :
    skipSpace (blanks ++ (cs ++ rest)) = cs ++ rest := by
  obtain ⟨c, tail, rfl, hc, -⟩ := h.exists_head
  exact skipSpace_append_cons hblanks hc

theorem IsText.head?_ne_bracket (h : IsText cs r) (rest : List Char) :
    ∀ c ∈ (cs ++ rest).head?, c ≠ ']' := by
  obtain ⟨c, tail, rfl, -, hc, -⟩ := h.exists_head
  simpa using hc

theorem array_append (i : Item) (items : List Item) (rest : List Char) :
    '[' :: (i.padded ++ (items.flatMap (fun j => ',' :: j.padded) ++ [']'])) ++ rest =
      '[' :: (i.before ++ (i.text ++ (i.after ++ (itemsText items ++ ']' :: rest)))) := by
  simp [Item.padded, itemsText]

theorem object_append (m : Member) (members : List Member) (rest : List Char) :
    '{' :: (m.padded ++ (members.flatMap (fun k => ',' :: k.padded) ++ ['}'])) ++ rest =
      '{' :: (m.padded ++ (membersText members ++ '}' :: rest)) := by
  simp [membersText]

/-! ## Passing over values -/

/-- A text that can be taken is passed over, wherever it stands and whatever follows it. -/
def Passes (cs : List Char) (r : Reading) : Prop :=
  ∀ ⦃room fuel blanks rest⦄, IsBlank blanks → Stops rest → r.isSound room = true →
    2 * cs.length ≤ fuel → passValue room fuel (blanks ++ (cs ++ rest)) = ⟨true, rest⟩

theorem passItems_of_last (hvalue : passValue room fuel cs = ⟨true, after⟩)
    (hafter : skipSpace after = ']' :: rest) :
    passItems room (fuel + 1) cs = ⟨true, ']' :: rest⟩ := by
  rw [passItems, hvalue]
  simp only
  rw [hafter]
  rfl

theorem passItems_of_comma (hvalue : passValue room fuel cs = ⟨true, after⟩)
    (hafter : skipSpace after = ',' :: more) (hmore : skipSpace more = next)
    (hnext : ∀ c ∈ next.head?, c ≠ ']') :
    passItems room (fuel + 1) cs = passItems room fuel next := by
  rw [passItems, hvalue]
  simp only
  rw [hafter]
  simp only
  rw [hmore]
  split
  · exact absurd rfl (hnext ']' rfl)
  · rfl

theorem passItems_append {i : Item} {items : List Item}
    (h : ∀ j ∈ i :: items, j.Spaced ∧ IsText j.text j.value ∧ Passes j.text j.value ∧
      j.value.isSound room = true)
    (rest : List Char) (hblanks : IsBlank blanks)
    (hfuel : 2 * (i.text.length + (itemsText items).length) < fuel) :
    passItems room fuel (blanks ++ (i.text ++ (i.after ++ (itemsText items ++ ']' :: rest)))) =
      ⟨true, ']' :: rest⟩ := by
  induction items generalizing i fuel blanks with
  | nil =>
    obtain ⟨fuel, rfl⟩ := Nat.exists_eq_succ_of_ne_zero (Nat.ne_zero_of_lt hfuel)
    obtain ⟨hspaced, -, hpasses, hsound⟩ := h i List.mem_cons_self
    have hvalue := @hpasses room fuel _ _ hblanks
      ((stops_itemsText [] rest).blank_append hspaced.after) hsound (by omega)
    exact passItems_of_last hvalue (skipSpace_append_cons hspaced.after (by decide))
  | cons j items ih =>
    obtain ⟨fuel, rfl⟩ := Nat.exists_eq_succ_of_ne_zero (Nat.ne_zero_of_lt hfuel)
    obtain ⟨⟨hspaced, -, hpasses, hsound⟩, hitems⟩ := List.forall_mem_cons.mp h
    obtain ⟨hnext, htext, -⟩ := hitems j List.mem_cons_self
    have hvalue := @hpasses room fuel _ _ hblanks
      ((stops_itemsText (j :: items) rest).blank_append hspaced.after) hsound (by omega)
    rw [length_itemsText_cons] at hfuel
    rw [itemsText_cons_append] at hvalue ⊢
    rw [passItems_of_comma hvalue (skipSpace_append_cons hspaced.after (by decide))
      (htext.skipSpace_eq hnext.before _) (htext.head?_ne_bracket _)]
    exact ih hitems isBlank_nil (by omega)

theorem joinUnits_ne_none (h : Key.ofText? (textOf? us) ≠ .unpaired) : joinUnits [] us ≠ none := by
  intro hus
  rw [textOf?, hus] at h
  exact h rfl

theorem passMembers_cons {m : Member} (hspaced : m.Spaced)
    (hpasses : Passes m.item.text m.item.value) (hkey : m.entry.1 ≠ .unpaired)
    (hsound : m.item.value.isSound room = true) (hrest : Stops rest)
    (hcs : skipSpace cs = m.text ++ rest) (hfuel : 2 * m.text.length ≤ fuel) :
    passMembers room (fuel + 1) cs =
      match skipSpace (m.item.after ++ rest) with
      | ',' :: rest => passMembers room fuel rest
      | '}' :: rest => ⟨true, '}' :: rest⟩
      | rest => .stop rest := by
  have hlength := m.length_text_lt
  have hvalue := @hpasses room fuel _ _ hspaced.item.before
    (hrest.blank_append hspaced.item.after) hsound (by omega)
  rw [Member.text_append] at hcs
  rw [passMembers, hcs]
  simp only
  rw [(passString_append hspaced.spelling _).1 [] (joinUnits_ne_none hkey)]
  simp only
  rw [skipSpace_append_cons hspaced.gap (by decide)]
  simp only
  revert hvalue
  generalize passValue room fuel _ = passage
  rintro rfl
  rfl

theorem passMembers_append {m : Member} {members : List Member}
    (h : ∀ k ∈ m :: members, k.Spaced ∧ Passes k.item.text k.item.value ∧
      k.entry.1 ≠ .unpaired ∧ k.item.value.isSound room = true)
    (rest : List Char) (hcs : skipSpace cs = m.text ++ (membersText members ++ '}' :: rest))
    (hfuel : 2 * (m.text.length + (membersText members).length) < fuel) :
    passMembers room fuel cs = ⟨true, '}' :: rest⟩ := by
  induction members generalizing m fuel cs with
  | nil =>
    obtain ⟨fuel, rfl⟩ := Nat.exists_eq_succ_of_ne_zero (Nat.ne_zero_of_lt hfuel)
    obtain ⟨hspaced, hpasses, hkey, hsound⟩ := h m List.mem_cons_self
    have hskip : skipSpace (m.item.after ++ (membersText [] ++ '}' :: rest)) = '}' :: rest :=
      skipSpace_append_cons hspaced.item.after (by decide)
    rw [passMembers_cons hspaced hpasses hkey hsound (stops_membersText [] rest) hcs (by omega),
      hskip]
    rfl
  | cons k members ih =>
    obtain ⟨fuel, rfl⟩ := Nat.exists_eq_succ_of_ne_zero (Nat.ne_zero_of_lt hfuel)
    obtain ⟨⟨hspaced, hpasses, hkey, hsound⟩, hmembers⟩ := List.forall_mem_cons.mp h
    rw [passMembers_cons hspaced hpasses hkey hsound (stops_membersText (k :: members) rest) hcs
      (by omega), membersText_cons_append, skipSpace_append_cons hspaced.item.after (by decide)]
    rw [length_membersText_cons] at hfuel
    exact ih hmembers (Member.skipSpace_padded_append (hmembers k List.mem_cons_self).1.indent _)
      (by omega)

theorem passValue_of_numeral {c : Char} (hcs : skipSpace cs = c :: rest)
    (hc : c = '-' ∨ c.isDigit = true) :
    passValue room (fuel + 1) cs = passNumeral (c :: rest) := by
  rw [passValue, hcs]
  have hne : ∀ d : Char, d ≠ '-' → d.isDigit = false → c ≠ d := by
    rintro d hminus hdigit rfl
    simp [hminus, hdigit] at hc
  split
  · rename_i heq
    exact absurd (List.cons_eq_cons.mp heq).1 (hne 'n' (by decide) (by decide))
  · rename_i heq
    exact absurd (List.cons_eq_cons.mp heq).1 (hne 't' (by decide) (by decide))
  · rename_i heq
    exact absurd (List.cons_eq_cons.mp heq).1 (hne 'f' (by decide) (by decide))
  · rename_i heq
    exact absurd (List.cons_eq_cons.mp heq).1 (hne '"' (by decide) (by decide))
  · rename_i heq
    exact absurd (List.cons_eq_cons.mp heq).1 (hne '[' (by decide) (by decide))
  · rename_i heq
    exact absurd (List.cons_eq_cons.mp heq).1 (hne '{' (by decide) (by decide))
  · rfl

theorem passes_of (h : IsText cs r)
    (hvalue : ∀ {room fuel text rest}, skipSpace text = cs ++ rest → Stops rest →
      r.isSound room = true → 2 * cs.length ≤ fuel + 1 →
      passValue room (fuel + 1) text = ⟨true, rest⟩) : Passes cs r := by
  intro room fuel blanks rest hblanks hrest hsound hfuel
  obtain ⟨c, tail, rfl, -⟩ := h.exists_head
  obtain ⟨fuel, rfl⟩ := Nat.exists_eq_succ_of_ne_zero (n := fuel) (by
    rw [List.length_cons] at hfuel
    omega)
  exact hvalue (h.skipSpace_eq hblanks rest) hrest hsound hfuel

theorem passes_emptyArray (h : IsBlank blanks) :
    Passes ('[' :: (blanks ++ [']'])) (.array [] true) := by
  refine passes_of (.emptyArray h) fun {room fuel text rest} htext _ hsound _ => ?_
  rw [List.cons_append, List.append_assoc] at htext
  rw [passValue, htext]
  obtain ⟨hroom, -⟩ := Reading.isSound_array_iff.mp hsound
  simp only [List.singleton_append, if_neg hroom]
  rw [skipSpace_append_cons h (by decide)]
  rfl

theorem passes_array {i : Item} {items : List Item} (hspaced : ∀ j ∈ i :: items, j.Spaced)
    (h : ∀ j ∈ i :: items, IsText j.text j.value)
    (ih : ∀ j ∈ i :: items, Passes j.text j.value) :
    Passes ('[' :: (i.padded ++ (items.flatMap (fun j => ',' :: j.padded) ++ [']'])))
      (.array ((i :: items).map (·.value)) true) := by
  refine passes_of (.array hspaced h) fun {room fuel text rest} htext _ hsound hfuel => ?_
  obtain ⟨hroom, hitems⟩ := Reading.isSound_array_iff.mp hsound
  have hi := List.mem_cons_self (a := i) (l := items)
  have hpass : passItems (room - 1) fuel
      ([] ++ (i.text ++ (i.after ++ (itemsText items ++ ']' :: rest)))) = ⟨true, ']' :: rest⟩ :=
    passItems_append
      (fun j hj => ⟨hspaced j hj, h j hj, ih j hj, hitems _ (List.mem_map_of_mem hj)⟩) rest
      isBlank_nil (by
      simp [Item.padded, itemsText] at hfuel ⊢
      omega)
  rw [array_append] at htext
  rw [passValue, htext]
  simp only [if_neg hroom]
  rw [(h i hi).skipSpace_eq (hspaced i hi).before]
  split
  · rename_i heq
    exact absurd rfl ((h i hi).head?_ne_bracket _ ']' (by rw [heq]; rfl))
  · rw [← List.nil_append (i.text ++ _), hpass]
    rfl

theorem passes_emptyObject (h : IsBlank blanks) :
    Passes ('{' :: (blanks ++ ['}'])) (.object [] true) := by
  refine passes_of (.emptyObject h) fun {room fuel text rest} htext _ hsound _ => ?_
  rw [List.cons_append, List.append_assoc] at htext
  rw [passValue, htext]
  obtain ⟨hroom, -⟩ := Reading.isSound_object_iff.mp hsound
  simp only [List.singleton_append, if_neg hroom]
  rw [skipSpace_append_cons h (by decide)]
  rfl

theorem passes_object {m : Member} {members : List Member}
    (hspaced : ∀ k ∈ m :: members, k.Spaced)
    (h : ∀ k ∈ m :: members, IsText k.item.text k.item.value)
    (ih : ∀ k ∈ m :: members, Passes k.item.text k.item.value) :
    Passes ('{' :: (m.padded ++ (members.flatMap (fun k => ',' :: k.padded) ++ ['}'])))
      (.object ((m :: members).map (·.entry)) true) := by
  refine passes_of (.object hspaced h) fun {room fuel text rest} htext _ hsound hfuel => ?_
  obtain ⟨hroom, hmembers⟩ := Reading.isSound_object_iff.mp hsound
  have hm := List.mem_cons_self (a := m) (l := members)
  have hpass : passMembers (room - 1) fuel (m.text ++ (membersText members ++ '}' :: rest)) =
      ⟨true, '}' :: rest⟩ :=
    passMembers_append
      (fun k hk => ⟨hspaced k hk, ih k hk, hmembers _ (List.mem_map_of_mem hk)⟩) rest
      (m.skipSpace_text_append _) (by
      simp [Member.padded, membersText] at hfuel ⊢
      omega)
  rw [object_append] at htext
  rw [passValue, htext]
  simp only [if_neg hroom]
  rw [Member.skipSpace_padded_append (hspaced m hm).indent]
  rw [Member.text_append] at hpass ⊢
  exact congrArg closeMembers hpass

/-- What can be taken is passed over. -/
theorem IsText.passes (h : IsText cs r) : Passes cs r := by
  induction h with
  | null =>
    refine passes_of .null fun htext _ _ _ => ?_
    rw [passValue, htext]
    rfl
  | boolTrue =>
    refine passes_of .boolTrue fun htext _ _ _ => ?_
    rw [passValue, htext]
    rfl
  | boolFalse =>
    refine passes_of .boolFalse fun htext _ _ _ => ?_
    rw [passValue, htext]
    rfl
  | number h =>
    refine passes_of (.number h) fun htext hrest hsound _ => ?_
    obtain ⟨c, tail, rfl, hc⟩ := h.exists_head
    rw [passValue_of_numeral htext hc]
    refine passNumeral_append h hrest fun hlarge => ?_
    rw [hlarge] at hsound
    exact Bool.false_ne_true hsound
  | @string cs us h =>
    refine passes_of (.string h) fun {room fuel text rest} htext _ hsound _ => ?_
    rw [List.cons_append, List.append_assoc] at htext
    rw [passValue, htext]
    refine (passString_append h rest).1 [] fun hus => ?_
    rw [textOf?, hus] at hsound
    exact Bool.false_ne_true hsound
  | emptyArray h => exact passes_emptyArray h
  | array hspaced h ih => exact passes_array hspaced h ih
  | emptyObject h => exact passes_emptyObject h
  | object hspaced h ih => exact passes_object hspaced h ih

/-! ## Reading values -/

/-- A reading is sound wherever a text of this leniency may be broken. -/
def Leniency.Spares : Leniency → Nat → Reading → Prop
  | .strict, _, _ => True
  | .lenient, room, r => r.isSound room = true
  | .parts item _, room, .array rs _ => ∀ i, ∀ h : i < rs.length, (item i).Spares (room - 1) rs[i]
  | .parts _ member, room, .object ms _ =>
    ∀ name r, (Key.name name, r) ∈ ms → (member name).Spares (room - 1) r
  | .parts _ _, _, _ => True

/-- A sound reading is spared by any leniency. -/
theorem Leniency.spares_of_isSound (leniency : Leniency) (h : r.isSound room = true) :
    leniency.Spares room r := by
  induction leniency generalizing room r with
  | strict => trivial
  | lenient => exact h
  | parts item member ihItem ihMember =>
    cases r with
    | array rs closed =>
      intro i hi
      simp only [Reading.isSound, Bool.and_eq_true, Reading.allSound_iff] at h
      exact ihItem i (h.1.2 _ (List.getElem_mem hi))
    | object ms closed =>
      intro name r hm
      simp only [Reading.isSound, Bool.and_eq_true, Reading.allMembersSound_iff] at h
      exact ihMember name (h.1.2 _ hm).2
    | _ => trivial

theorem Leniency.Spares.item {rs : List Reading} {closed : Bool}
    (h : leniency.Spares room (.array rs closed)) (i : Nat) (hi : i < rs.length) :
    (leniency.atItem i).Spares (room - 1) rs[i] := by
  cases leniency with
  | strict => trivial
  | lenient => trivial
  | parts item member => exact h i hi

theorem Leniency.Spares.member {ms : List (Key × Reading)} {closed : Bool}
    (h : leniency.Spares room (.object ms closed)) (hm : (key, r) ∈ ms) :
    (leniency.atKey key).Spares (room - 1) r := by
  cases leniency with
  | strict => trivial
  | lenient => trivial
  | parts item member =>
    cases key with
    | unpaired => trivial
    | name name => exact h name r hm

/-- A value that is not broken is not taken for a broken one. -/
theorem IsText.brokenAt?_append (h : IsText cs r) (hblanks : IsBlank blanks) (hrest : Stops rest)
    (hspares : leniency.Spares room r) :
    leniency.brokenAt? room (blanks ++ (cs ++ rest)) = none := by
  cases leniency with
  | strict => rfl
  | lenient =>
    rw [Leniency.brokenAt?, pass, h.passes hblanks hrest hspares (by
      simp only [List.length_append]
      omega)]
    rfl
  | parts item member => rfl

/-- A text is read as `r`, wherever it stands and whatever follows it. -/
def ReadsAs (cs : List Char) (r : Reading) : Prop :=
  ∀ ⦃leniency room fuel blanks rest⦄, IsBlank blanks → Stops rest → leniency.Spares room r →
    2 * cs.length ≤ fuel → readValue leniency room fuel (blanks ++ (cs ++ rest)) = (r, some rest)

theorem readItems_of_last
    (hvalue : readValue (leniency.atItem place) room fuel cs = (r, some after))
    (hafter : skipSpace after = ']' :: rest) :
    readItems leniency place room (fuel + 1) cs = ([r], some rest) := by
  rw [readItems, hvalue]
  simp only
  rw [hafter]
  rfl

theorem readItems_of_comma
    (hvalue : readValue (leniency.atItem place) room fuel cs = (r, some after))
    (hafter : skipSpace after = ',' :: more) (hmore : skipSpace more = next)
    (hnext : ∀ c ∈ next.head?, c ≠ ']') :
    readItems leniency place room (fuel + 1) cs =
      (r :: (readItems leniency (place + 1) room fuel next).1,
        (readItems leniency (place + 1) room fuel next).2) := by
  rw [readItems, hvalue]
  simp only
  rw [hafter]
  simp only
  rw [hmore]
  split
  · exact absurd rfl (hnext ']' rfl)
  · rfl

theorem readItems_append {i : Item} {items : List Item}
    (h : ∀ j ∈ i :: items, j.Spaced ∧ IsText j.text j.value ∧ ReadsAs j.text j.value)
    (hspares : ∀ k, ∀ hk : k < (i :: items).length,
      (leniency.atItem (place + k)).Spares room (i :: items)[k].value)
    (rest : List Char) (hblanks : IsBlank blanks)
    (hfuel : 2 * (i.text.length + (itemsText items).length) < fuel) :
    readItems leniency place room fuel
        (blanks ++ (i.text ++ (i.after ++ (itemsText items ++ ']' :: rest)))) =
      ((i :: items).map (·.value), some rest) := by
  induction items generalizing i place fuel blanks with
  | nil =>
    obtain ⟨fuel, rfl⟩ := Nat.exists_eq_succ_of_ne_zero (Nat.ne_zero_of_lt hfuel)
    obtain ⟨hspaced, -, hreads⟩ := h i List.mem_cons_self
    have hvalue := @hreads _ room fuel _ _ hblanks
      ((stops_itemsText [] rest).blank_append hspaced.after) (hspares 0 (by simp)) (by omega)
    exact readItems_of_last hvalue (skipSpace_append_cons hspaced.after (by decide))
  | cons j items ih =>
    obtain ⟨fuel, rfl⟩ := Nat.exists_eq_succ_of_ne_zero (Nat.ne_zero_of_lt hfuel)
    obtain ⟨⟨hspaced, -, hreads⟩, hitems⟩ := List.forall_mem_cons.mp h
    obtain ⟨hnext, htext, -⟩ := hitems j List.mem_cons_self
    have hvalue := @hreads _ room fuel _ _ hblanks
      ((stops_itemsText (j :: items) rest).blank_append hspaced.after) (hspares 0 (by simp))
      (by omega)
    have hread : readItems leniency (place + 1) room fuel
        ([] ++ (j.text ++ (j.after ++ (itemsText items ++ ']' :: rest)))) =
          ((j :: items).map (·.value), some rest) := ih hitems
      (fun k hk => by
        rw [Nat.add_right_comm, Nat.add_assoc]
        exact hspares (k + 1) (Nat.succ_lt_succ hk))
      isBlank_nil (by
        rw [length_itemsText_cons] at hfuel
        omega)
    rw [itemsText_cons_append, Nat.add_zero] at hvalue
    rw [itemsText_cons_append,
      readItems_of_comma hvalue (skipSpace_append_cons hspaced.after (by decide))
        (htext.skipSpace_eq hnext.before _) (htext.head?_ne_bracket _),
      ← List.nil_append (j.text ++ _), hread]
    rfl

theorem readMembers_cons {m : Member} (hspaced : m.Spaced)
    (hreads : ReadsAs m.item.text m.item.value)
    (hspares : (leniency.atKey m.entry.1).Spares room m.entry.2) (hrest : Stops rest)
    (hcs : skipSpace cs = m.text ++ rest) (hfuel : 2 * m.text.length ≤ fuel) :
    readMembers leniency room (fuel + 1) cs =
      match skipSpace (m.item.after ++ rest) with
      | ',' :: rest =>
        (m.entry :: (readMembers leniency room fuel rest).1,
          (readMembers leniency room fuel rest).2)
      | '}' :: rest => ([m.entry], some rest)
      | _ => ([m.entry], none) := by
  have hlength := m.length_text_lt
  have hvalue := @hreads _ room fuel _ _ hspaced.item.before
    (hrest.blank_append hspaced.item.after) hspares (by omega)
  rw [Member.text_append] at hcs
  rw [readMembers, hcs]
  simp only
  rw [readString_append hspaced.spelling]
  simp only
  rw [skipSpace_append_cons hspaced.gap (by decide)]
  rw [Member.entry] at hvalue ⊢
  revert hvalue
  cases textOf? m.units <;>
  · simp only [Key.ofText?]
    generalize readValue _ room fuel _ = result
    rintro rfl
    rfl

theorem readMembers_append {m : Member} {members : List Member}
    (h : ∀ k ∈ m :: members, k.Spaced ∧ ReadsAs k.item.text k.item.value ∧
      (leniency.atKey k.entry.1).Spares room k.entry.2)
    (rest : List Char) (hcs : skipSpace cs = m.text ++ (membersText members ++ '}' :: rest))
    (hfuel : 2 * (m.text.length + (membersText members).length) < fuel) :
    readMembers leniency room fuel cs = ((m :: members).map (·.entry), some rest) := by
  induction members generalizing m fuel cs with
  | nil =>
    obtain ⟨fuel, rfl⟩ := Nat.exists_eq_succ_of_ne_zero (Nat.ne_zero_of_lt hfuel)
    obtain ⟨hspaced, hreads, hspares⟩ := h m List.mem_cons_self
    have hskip : skipSpace (m.item.after ++ (membersText [] ++ '}' :: rest)) = '}' :: rest :=
      skipSpace_append_cons hspaced.item.after (by decide)
    rw [readMembers_cons hspaced hreads hspares (stops_membersText [] rest) hcs (by omega), hskip]
    rfl
  | cons k members ih =>
    obtain ⟨fuel, rfl⟩ := Nat.exists_eq_succ_of_ne_zero (Nat.ne_zero_of_lt hfuel)
    obtain ⟨⟨hspaced, hreads, hspares⟩, hmembers⟩ := List.forall_mem_cons.mp h
    rw [readMembers_cons hspaced hreads hspares (stops_membersText (k :: members) rest) hcs
      (by omega), membersText_cons_append, skipSpace_append_cons hspaced.item.after (by decide)]
    rw [length_membersText_cons] at hfuel
    have hread : readMembers leniency room fuel
        (k.padded ++ (membersText members ++ '}' :: rest)) =
          ((k :: members).map (·.entry), some rest) := ih hmembers
      (Member.skipSpace_padded_append (hmembers k List.mem_cons_self).1.indent _) (by omega)
    simp only
    rw [hread]
    rfl

theorem readValue_of_numeral {c : Char} (hbroken : leniency.brokenAt? room cs = none)
    (hcs : skipSpace cs = c :: rest) (hc : c = '-' ∨ c.isDigit = true) :
    readValue leniency room (fuel + 1) cs =
      match readNumeral (c :: rest) with
      | none => (.broken, none)
      | some (n, rest) => (.number n.magnitude, some rest) := by
  rw [readValue, hbroken, hcs]
  have hne : ∀ d : Char, d ≠ '-' → d.isDigit = false → c ≠ d := by
    rintro d hminus hdigit rfl
    simp [hminus, hdigit] at hc
  split
  · rename_i heq
    cases heq
  · rename_i heq
    exact absurd (List.cons_eq_cons.mp heq).1 (hne 'n' (by decide) (by decide))
  · rename_i heq
    exact absurd (List.cons_eq_cons.mp heq).1 (hne 't' (by decide) (by decide))
  · rename_i heq
    exact absurd (List.cons_eq_cons.mp heq).1 (hne 'f' (by decide) (by decide))
  · rename_i heq
    exact absurd (List.cons_eq_cons.mp heq).1 (hne '"' (by decide) (by decide))
  · rename_i heq
    exact absurd (List.cons_eq_cons.mp heq).1 (hne '[' (by decide) (by decide))
  · rename_i heq
    exact absurd (List.cons_eq_cons.mp heq).1 (hne '{' (by decide) (by decide))
  · rfl

theorem readsAs_of (h : IsText cs r)
    (hvalue : ∀ {leniency room fuel text rest}, leniency.brokenAt? room text = none →
      skipSpace text = cs ++ rest → Stops rest → leniency.Spares room r →
      2 * cs.length ≤ fuel + 1 → readValue leniency room (fuel + 1) text = (r, some rest)) :
    ReadsAs cs r := by
  intro leniency room fuel blanks rest hblanks hrest hspares hfuel
  have hbroken := h.brokenAt?_append hblanks hrest hspares
  have hskip := h.skipSpace_eq hblanks rest
  obtain ⟨c, tail, rfl, -⟩ := h.exists_head
  obtain ⟨fuel, rfl⟩ := Nat.exists_eq_succ_of_ne_zero (n := fuel) (by
    rw [List.length_cons] at hfuel
    omega)
  exact hvalue hbroken hskip hrest hspares hfuel

theorem readsAs_emptyArray (h : IsBlank blanks) :
    ReadsAs ('[' :: (blanks ++ [']'])) (.array [] true) := by
  refine readsAs_of (.emptyArray h) fun {leniency room fuel text rest} hbroken htext _ _ _ => ?_
  rw [List.cons_append, List.append_assoc] at htext
  rw [readValue, hbroken, htext]
  simp only [List.singleton_append]
  rw [skipSpace_append_cons h (by decide)]
  rfl

theorem readsAs_array {i : Item} {items : List Item} (hspaced : ∀ j ∈ i :: items, j.Spaced)
    (h : ∀ j ∈ i :: items, IsText j.text j.value)
    (ih : ∀ j ∈ i :: items, ReadsAs j.text j.value) :
    ReadsAs ('[' :: (i.padded ++ (items.flatMap (fun j => ',' :: j.padded) ++ [']'])))
      (.array ((i :: items).map (·.value)) true) := by
  refine readsAs_of (.array hspaced h)
    fun {leniency room fuel text rest} hbroken htext _ hspares hfuel => ?_
  have hi := List.mem_cons_self (a := i) (l := items)
  have hread : readItems leniency 0 (room - 1) fuel
      ([] ++ (i.text ++ (i.after ++ (itemsText items ++ ']' :: rest)))) =
        ((i :: items).map (·.value), some rest) :=
    readItems_append (fun j hj => ⟨hspaced j hj, h j hj, ih j hj⟩)
      (fun k hk => by
        have hk' : k < ((i :: items).map (·.value)).length := by rwa [List.length_map]
        rw [Nat.zero_add, ← List.getElem_map (f := fun j : Item => j.value) (h := hk')]
        exact hspares.item k hk')
      rest isBlank_nil (by
      simp [Item.padded, itemsText] at hfuel ⊢
      omega)
  rw [array_append] at htext
  rw [readValue, hbroken, htext]
  simp only
  rw [(h i hi).skipSpace_eq (hspaced i hi).before]
  split
  · rename_i heq
    exact absurd rfl ((h i hi).head?_ne_bracket _ ']' (by rw [heq]; rfl))
  · rw [← List.nil_append (i.text ++ _), hread]
    rfl

theorem readsAs_emptyObject (h : IsBlank blanks) :
    ReadsAs ('{' :: (blanks ++ ['}'])) (.object [] true) := by
  refine readsAs_of (.emptyObject h) fun {leniency room fuel text rest} hbroken htext _ _ _ => ?_
  rw [List.cons_append, List.append_assoc] at htext
  rw [readValue, hbroken, htext]
  simp only [List.singleton_append]
  rw [skipSpace_append_cons h (by decide)]
  rfl

theorem readsAs_object {m : Member} {members : List Member}
    (hspaced : ∀ k ∈ m :: members, k.Spaced)
    (h : ∀ k ∈ m :: members, IsText k.item.text k.item.value)
    (ih : ∀ k ∈ m :: members, ReadsAs k.item.text k.item.value) :
    ReadsAs ('{' :: (m.padded ++ (members.flatMap (fun k => ',' :: k.padded) ++ ['}'])))
      (.object ((m :: members).map (·.entry)) true) := by
  refine readsAs_of (.object hspaced h)
    fun {leniency room fuel text rest} hbroken htext _ hspares hfuel => ?_
  have hm := List.mem_cons_self (a := m) (l := members)
  have hread : readMembers leniency (room - 1) fuel
      (m.text ++ (membersText members ++ '}' :: rest)) =
        ((m :: members).map (·.entry), some rest) :=
    readMembers_append
      (fun k hk => ⟨hspaced k hk, ih k hk, hspares.member (List.mem_map_of_mem hk)⟩) rest
      (m.skipSpace_text_append _) (by
      simp [Member.padded, membersText] at hfuel ⊢
      omega)
  rw [object_append] at htext
  rw [readValue, hbroken, htext]
  simp only
  rw [Member.skipSpace_padded_append (hspaced m hm).indent]
  rw [Member.text_append] at hread ⊢
  exact congrArg (fun p => (Reading.object p.1 p.2.isSome, p.2)) hread

/-- Every text is read as what it says. -/
theorem IsText.readsAs (h : IsText cs r) : ReadsAs cs r := by
  induction h with
  | null =>
    refine readsAs_of .null fun hbroken htext _ _ _ => ?_
    rw [readValue, hbroken, htext]
    rfl
  | boolTrue =>
    refine readsAs_of .boolTrue fun hbroken htext _ _ _ => ?_
    rw [readValue, hbroken, htext]
    rfl
  | boolFalse =>
    refine readsAs_of .boolFalse fun hbroken htext _ _ _ => ?_
    rw [readValue, hbroken, htext]
    rfl
  | number h =>
    refine readsAs_of (.number h) fun hbroken htext hrest _ _ => ?_
    have hread := readNumeral_append h hrest
    obtain ⟨c, tail, rfl, hc⟩ := h.exists_head
    rw [List.cons_append] at hread htext
    rw [readValue_of_numeral hbroken htext hc, hread]
  | @string cs us h =>
    refine readsAs_of (.string h) fun {leniency room fuel text rest} hbroken htext _ _ _ => ?_
    rw [List.cons_append, List.append_assoc] at htext
    rw [readValue, hbroken, htext]
    simp only [List.singleton_append]
    rw [readString_append h]
  | emptyArray h => exact readsAs_emptyArray h
  | array hspaced h ih => exact readsAs_array hspaced h ih
  | emptyObject h => exact readsAs_emptyObject h
  | object hspaced h ih => exact readsAs_object hspaced h ih

/-! ## Whole texts -/

/-- A whole text is read as what it says, to its end. -/
theorem IsDocument.read_eq {text : String} (h : IsDocument text r)
    (hspares : leniency.Spares depthLimit r) : read leniency text = ⟨r, true⟩ := by
  obtain ⟨before, cs, after, hbefore, hcs, hafter, htext⟩ := h
  have hrest : Stops after := by
    rw [← List.append_nil after]
    exact stops_nil.blank_append hafter
  have hreads := hcs.readsAs
  have hfuel : 2 * cs.length ≤ 2 * text.toList.length + 2 := by
    simp only [htext, List.length_append]
    omega
  have hvalue := hreads hbefore hrest hspares hfuel
  have hskip : skipSpace after = [] := by
    rw [← List.append_nil after]
    exact skipSpace_append hafter (by simp)
  rw [← htext] at hvalue
  simp [read, hvalue, hskip]

/-- A text says one thing at most. -/
theorem IsDocument.unique {text : String} {r' : Reading} (h : IsDocument text r)
    (h' : IsDocument text r') : r = r' := by
  have hread : read .strict text = ⟨r, true⟩ := h.read_eq trivial
  have hread' : read .strict text = ⟨r', true⟩ := h'.read_eq trivial
  exact congrArg Document.value (hread.symm.trans hread')

end Discussion.Json
