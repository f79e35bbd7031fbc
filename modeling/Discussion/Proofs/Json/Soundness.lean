import Discussion.Proofs.Json.Completeness

/-!
# What is read to its end is JSON

The strict reader only gets to the end of a text that is in the grammar, and then it reads what
the text says. With completeness this makes the reader decide the grammar.
-/

namespace Discussion.Json

open Decimal (Numeral)

variable {cs rest : List Char} {r : Reading}

/-! ## Tokens -/

theorem exists_eq_append_skipSpace (cs : List Char) :
    ∃ blanks, IsBlank blanks ∧ cs = blanks ++ skipSpace cs :=
  ⟨cs.takeWhile isSpace, fun _ => List.mem_takeWhile_imp, List.takeWhile_append_dropWhile.symm⟩

theorem exists_of_readUnits {done us : List Nat} (h : readUnits done cs = some (us, rest)) :
    ∃ spelling units, cs = spelling ++ '"' :: rest ∧ Spells spelling units ∧
      us = done.reverse ++ units := by
  fun_induction readUnits done cs with
  | case1 done => cases h
  | case2 done rest' =>
    obtain ⟨rfl, rfl⟩ : done.reverse = us ∧ rest' = rest := by simpa using h
    exact ⟨[], [], rfl, .nil, by simp⟩
  | case3 => cases h
  | case4 done a b c d rest' n hn ih =>
    obtain ⟨spelling, units, rfl, hspells, rfl⟩ := ih h
    exact ⟨_, _, by simp, .hex hn hspells, by simp⟩
  | case5 => cases h
  | case6 done c rest' hc n hn ih =>
    obtain ⟨spelling, units, rfl, hspells, rfl⟩ := ih h
    exact ⟨_, _, by simp, .escape hn hspells, by simp⟩
  | case7 => cases h
  | case8 done c rest' hquote hhex hescape hcontrol ih =>
    obtain ⟨spelling, units, rfl, hspells, rfl⟩ := ih h
    have hslash : c ≠ '\\' := by
      obtain ⟨e, tail, htail⟩ : ∃ e tail, spelling ++ '"' :: rest = e :: tail :=
        List.exists_cons_of_ne_nil (by simp)
      exact fun hc => hescape e tail hc htail
    exact ⟨_, _, by simp, .plain hquote hslash (Nat.not_lt.mp hcontrol) hspells, by simp⟩

theorem exists_of_readString {text : Option String} (h : readString cs = some (text, rest)) :
    ∃ spelling units, cs = spelling ++ '"' :: rest ∧ Spells spelling units ∧
      text = textOf? units := by
  simp only [readString, Option.map_eq_some_iff] at h
  obtain ⟨⟨us, rest'⟩, hus, heq⟩ := h
  obtain ⟨rfl, rfl⟩ : (joinUnits [] us).map String.ofList = text ∧ rest' = rest := by
    simpa using heq
  obtain ⟨spelling, units, rfl, hspells, rfl⟩ := exists_of_readUnits hus
  exact ⟨spelling, _, rfl, hspells, rfl⟩

theorem eq_of_readDigits {digits : List Char} (h : readDigits cs = some (digits, rest)) :
    cs = digits ++ rest ∧ isNumeral digits = true := by
  unfold readDigits at h
  split at h
  · cases h
  · rename_i hne
    obtain ⟨rfl, rfl⟩ : cs.takeWhile Char.isDigit = digits ∧ cs.dropWhile Char.isDigit = rest := by
      simpa using h
    exact ⟨List.takeWhile_append_dropWhile.symm,
      isNumeral_iff.mpr ⟨hne, fun _ => List.mem_takeWhile_imp⟩⟩

theorem eq_of_readWhole {digits : List Char} (h : readWhole cs = some (digits, rest)) :
    cs = digits ++ rest ∧ isNumeral digits = true ∧
      (digits.head? = some '0' → digits = ['0']) := by
  unfold readWhole at h
  split at h
  · cases h
  · rename_i hzero
    obtain ⟨hcs, hnumeral⟩ := eq_of_readDigits h
    refine ⟨hcs, hnumeral, fun hhead => ?_⟩
    cases digits with
    | nil => cases hhead
    | cons c digits =>
      obtain rfl : c = '0' := by simpa using hhead
      cases digits with
      | nil => rfl
      | cons d digits => exact (hzero _ _ _ h).elim

theorem exists_of_readFraction {fraction : List Char}
    (h : readFraction cs = some (fraction, rest)) :
    ∃ text, cs = text ++ rest ∧ WritesFraction fraction text := by
  unfold readFraction at h
  split at h
  · obtain ⟨rfl, hnumeral⟩ := eq_of_readDigits h
    exact ⟨_, by simp, .some hnumeral⟩
  · obtain ⟨rfl, rfl⟩ : [] = fraction ∧ cs = rest := by simpa using h
    exact ⟨[], rfl, .none⟩

theorem eq_of_readPower {negative : Bool} {exponent : Option (Bool × List Char)}
    (h : readPower negative cs = some (exponent, rest)) :
    ∃ digits, cs = digits ++ rest ∧ isNumeral digits = true ∧
      exponent = some (negative, digits) := by
  simp only [readPower, Option.map_eq_some_iff] at h
  obtain ⟨⟨digits, rest'⟩, hdigits, heq⟩ := h
  obtain ⟨rfl, rfl⟩ : some (negative, digits) = exponent ∧ rest' = rest := by simpa using heq
  obtain ⟨hcs, hnumeral⟩ := eq_of_readDigits hdigits
  exact ⟨digits, hcs, hnumeral, rfl⟩

theorem exists_of_readSignedPower {mark : Char} {exponent : Option (Bool × List Char)}
    (hmark : mark = 'e' ∨ mark = 'E') (h : readSignedPower cs = some (exponent, rest)) :
    ∃ text, mark :: cs = text ++ rest ∧ WritesExponent exponent text := by
  unfold readSignedPower at h
  split at h <;> obtain ⟨digits, rfl, hnumeral, rfl⟩ := eq_of_readPower h
  · exact ⟨_, by simp, .minus hmark hnumeral⟩
  · exact ⟨_, by simp, .plus hmark hnumeral⟩
  · exact ⟨_, by simp, .bare hmark hnumeral⟩

theorem exists_of_readExponent {exponent : Option (Bool × List Char)}
    (h : readExponent cs = some (exponent, rest)) :
    ∃ text, cs = text ++ rest ∧ WritesExponent exponent text := by
  unfold readExponent at h
  split at h
  · exact exists_of_readSignedPower (.inl rfl) h
  · exact exists_of_readSignedPower (.inr rfl) h
  · obtain ⟨rfl, rfl⟩ : none = exponent ∧ cs = rest := by simpa using h
    exact ⟨[], rfl, .none⟩

theorem exists_of_readUnsigned {negative : Bool} {n : Numeral}
    (h : readUnsigned negative cs = some (n, rest)) :
    ∃ text, signChars negative ++ cs = text ++ rest ∧ WritesNumeral n text := by
  simp only [readUnsigned, Option.bind_eq_bind, Option.bind_eq_some_iff] at h
  obtain ⟨⟨whole, cs₁⟩, hwhole, ⟨fraction, cs₂⟩, hfraction, ⟨exponent, cs₃⟩, hexponent, heq⟩ := h
  obtain ⟨rfl, rfl⟩ :
      { negative, whole, fraction, exponent : Numeral } = n ∧ cs₃ = rest := by simpa using heq
  obtain ⟨rfl, hnumeral, hzero⟩ := eq_of_readWhole hwhole
  obtain ⟨point, rfl, hpoint⟩ := exists_of_readFraction hfraction
  obtain ⟨power, rfl, hpower⟩ := exists_of_readExponent hexponent
  exact ⟨signChars negative ++ (whole ++ (point ++ power)), by simp,
    hnumeral, hzero, point, power, hpoint, hpower, rfl⟩

theorem exists_of_readNumeral {n : Numeral} (h : readNumeral cs = some (n, rest)) :
    ∃ text, cs = text ++ rest ∧ WritesNumeral n text := by
  unfold readNumeral at h
  split at h
  · exact exists_of_readUnsigned h
  · exact exists_of_readUnsigned h

/-! ## Values -/

theorem IsBlank.append {blanks blanks' : List Char} (h : IsBlank blanks) (h' : IsBlank blanks') :
    IsBlank (blanks ++ blanks') := by
  simpa [IsBlank, or_imp, forall_and] using ⟨h, h'⟩

/-- An item after more blanks. -/
def Item.indented (blanks : List Char) (i : Item) : Item :=
  { i with before := blanks ++ i.before }

/-- A member after more blanks. -/
def Member.indented (blanks : List Char) (m : Member) : Member :=
  { m with indent := blanks ++ m.indent }

theorem Item.padded_indented (blanks : List Char) (i : Item) :
    (i.indented blanks).padded = blanks ++ i.padded := by
  simp [indented, padded]

theorem Member.padded_indented (blanks : List Char) (m : Member) :
    (m.indented blanks).padded = blanks ++ m.padded := by
  simp [indented, padded, text]

theorem Item.Spaced.indented {blanks : List Char} {i : Item} (h : i.Spaced)
    (hblanks : IsBlank blanks) : (i.indented blanks).Spaced :=
  ⟨hblanks.append h.before, h.after⟩

theorem Member.Spaced.indented {blanks : List Char} {m : Member} (h : m.Spaced)
    (hblanks : IsBlank blanks) : (m.indented blanks).Spaced :=
  ⟨hblanks.append h.indent, h.spelling, h.gap, h.item⟩

/-- What a reader with some fuel gets to the end of is in the grammar. -/
structure IsSoundWith (fuel : Nat) : Prop where
  value {room : Nat} {cs rest : List Char} {r : Reading}
    (h : readValue .strict room fuel cs = (r, some rest)) :
    ∃ blanks text, IsBlank blanks ∧ IsText text r ∧ cs = blanks ++ (text ++ rest)
  items {place room : Nat} {cs rest : List Char} {rs : List Reading}
    (h : readItems .strict place room fuel cs = (rs, some rest)) :
    ∃ i items, (∀ j ∈ i :: items, j.Spaced ∧ IsText j.text j.value) ∧
      rs = (i :: items).map (·.value) ∧ cs = i.padded ++ (itemsText items ++ ']' :: rest)
  members {room : Nat} {cs rest : List Char} {ms : List (Key × Reading)}
    (h : readMembers .strict room fuel cs = (ms, some rest)) :
    ∃ m members, (∀ k ∈ m :: members, k.Spaced ∧ IsText k.item.text k.item.value) ∧
      ms = (m :: members).map (·.entry) ∧ cs = m.padded ++ (membersText members ++ '}' :: rest)

variable {fuel : Nat}

theorem IsSoundWith.items_succ {place room : Nat} {rs : List Reading} (hsound : IsSoundWith fuel)
    (h : readItems .strict place room (fuel + 1) cs = (rs, some rest)) :
    ∃ i items, (∀ j ∈ i :: items, j.Spaced ∧ IsText j.text j.value) ∧
      rs = (i :: items).map (·.value) ∧ cs = i.padded ++ (itemsText items ++ ']' :: rest) := by
  rw [readItems] at h
  split at h
  · cases h
  · rename_i r rest₁ hvalue
    obtain ⟨before, text, hbefore, htext, rfl⟩ := hsound.value hvalue
    obtain ⟨after, hafter, hrest₁⟩ := exists_eq_append_skipSpace rest₁
    split at h
    · rename_i rest₂ hcomma
      obtain ⟨blanks, hblanks, hrest₂⟩ := exists_eq_append_skipSpace rest₂
      split at h
      · cases h
      · cases hmore : readItems .strict (place + 1) room fuel (skipSpace rest₂) with
        | mk rs' rest' =>
          simp only [hmore, Prod.mk.injEq] at h
          obtain ⟨rfl, rfl⟩ := h
          obtain ⟨i, items, hitems, rfl, hcs⟩ := hsound.items hmore
          obtain ⟨⟨hspaced, hi⟩, hitems⟩ := List.forall_mem_cons.mp hitems
          refine ⟨⟨before, text, after, r⟩, i.indented blanks :: items, ?_, rfl, ?_⟩
          · simp only [List.forall_mem_cons]
            exact ⟨⟨⟨hbefore, hafter⟩, htext⟩, ⟨hspaced.indented hblanks, hi⟩, hitems⟩
          · rw [hrest₁, hcomma, hrest₂, hcs]
            simp [Item.padded, Item.indented, itemsText]
    · rename_i rest₂ hbracket
      obtain ⟨rfl, rfl⟩ : [r] = rs ∧ rest₂ = rest := by simpa using h
      refine ⟨⟨before, text, after, r⟩, [], ?_, rfl, ?_⟩
      · simpa using ⟨⟨hbefore, hafter⟩, htext⟩
      · rw [hrest₁, hbracket]
        simp [Item.padded, itemsText]
    · cases h

theorem IsSoundWith.members_succ {room : Nat} {ms : List (Key × Reading)}
    (hsound : IsSoundWith fuel)
    (h : readMembers .strict room (fuel + 1) cs = (ms, some rest)) :
    ∃ m members, (∀ k ∈ m :: members, k.Spaced ∧ IsText k.item.text k.item.value) ∧
      ms = (m :: members).map (·.entry) ∧
        cs = m.padded ++ (membersText members ++ '}' :: rest) := by
  obtain ⟨indent, hindent, hcs⟩ := exists_eq_append_skipSpace cs
  rw [readMembers] at h
  split at h
  · rename_i rest₀ hquote
    split at h
    · cases h
    · rename_i t rest₁ hstring
      obtain ⟨spelling, units, rfl, hspells, rfl⟩ := exists_of_readString hstring
      obtain ⟨gap, hgap, hrest₁⟩ := exists_eq_append_skipSpace rest₁
      simp only at h
      split at h
      · rename_i rest₂ hcolon
        split at h
        · cases h
        · rename_i r rest₃ hvalue
          obtain ⟨before, text, hbefore, htext, rfl⟩ := hsound.value hvalue
          obtain ⟨after, hafter, hrest₃⟩ := exists_eq_append_skipSpace rest₃
          generalize skipSpace rest₃ = rest₄ at h hrest₃
          subst hrest₃
          let m : Member := ⟨indent, spelling, units, gap, ⟨before, text, after, r⟩⟩
          have hm : m.Spaced ∧ IsText m.item.text m.item.value :=
            ⟨⟨hindent, hspells, hgap, ⟨hbefore, hafter⟩⟩, htext⟩
          have hpadded : cs = m.padded ++ rest₄ := by
            rw [hcs, hquote, hrest₁, hcolon]
            simp [m, Member.padded, Member.text, Item.padded]
          split at h
          · rename_i rest₅
            cases hmore : readMembers .strict room fuel rest₅ with
            | mk ms' rest' =>
              simp only [hmore, Prod.mk.injEq] at h
              obtain ⟨rfl, rfl⟩ := h
              obtain ⟨k, members, hmembers, rfl, hcs⟩ := hsound.members hmore
              refine ⟨m, k :: members, List.forall_mem_cons.mpr ⟨hm, hmembers⟩, rfl, ?_⟩
              rw [hpadded, hcs, membersText_cons_append]
          · rename_i rest₅
            obtain ⟨hms, rfl⟩ : _ = ms ∧ rest₅ = rest := by simpa using h
            exact ⟨m, [], by simpa using hm, hms.symm, hpadded⟩
          · cases h
      · cases h
  · cases h

theorem IsSoundWith.value_succ {room : Nat} (hsound : IsSoundWith fuel)
    (h : readValue .strict room (fuel + 1) cs = (r, some rest)) :
    ∃ blanks text, IsBlank blanks ∧ IsText text r ∧ cs = blanks ++ (text ++ rest) := by
  obtain ⟨blanks, hblanks, hcs⟩ := exists_eq_append_skipSpace cs
  suffices htext : ∃ text, IsText text r ∧ skipSpace cs = text ++ rest by
    obtain ⟨text, htext, hskip⟩ := htext
    exact ⟨blanks, text, hblanks, htext, hskip ▸ hcs⟩
  have hstrict : Leniency.strict.brokenAt? room cs = none := rfl
  rw [readValue, hstrict] at h
  generalize skipSpace cs = ds at h
  split at h
  · rename_i hbroken
    cases hbroken
  · cases h
    exact ⟨_, .null, rfl⟩
  · cases h
    exact ⟨_, .boolTrue, rfl⟩
  · cases h
    exact ⟨_, .boolFalse, rfl⟩
  · split at h
    · cases h
    · rename_i hstring
      cases h
      obtain ⟨spelling, units, rfl, hspells, rfl⟩ := exists_of_readString hstring
      exact ⟨_, .string hspells, by simp⟩
  · rename_i rest₁ _
    obtain ⟨inner, hinner, hrest₁⟩ := exists_eq_append_skipSpace rest₁
    split at h
    · rename_i hbracket
      cases h
      exact ⟨_, .emptyArray hinner, by rw [hrest₁, hbracket]; simp⟩
    · cases hmore : readItems .strict 0 (room - 1) fuel (skipSpace rest₁) with
      | mk rs rest' =>
        simp only [hmore, Prod.mk.injEq] at h
        obtain ⟨rfl, rfl⟩ := h
        obtain ⟨i, items, hitems, rfl, hskip⟩ := hsound.items hmore
        obtain ⟨hi, hitems⟩ := List.forall_mem_cons.mp hitems
        have hall : ∀ j ∈ i.indented inner :: items, j.Spaced ∧ IsText j.text j.value :=
          List.forall_mem_cons.mpr ⟨⟨hi.1.indented hinner, hi.2⟩, hitems⟩
        have htext := IsText.array (fun j hj => (hall j hj).1) fun j hj => (hall j hj).2
        refine ⟨_, htext, ?_⟩
        rw [hrest₁, hskip, Item.padded_indented]
        simp [itemsText]
  · rename_i rest₁ _
    obtain ⟨inner, hinner, hrest₁⟩ := exists_eq_append_skipSpace rest₁
    split at h
    · rename_i hbrace
      cases h
      exact ⟨_, .emptyObject hinner, by rw [hrest₁, hbrace]; simp⟩
    · cases hmore : readMembers .strict (room - 1) fuel (skipSpace rest₁) with
      | mk ms rest' =>
        simp only [hmore, Prod.mk.injEq] at h
        obtain ⟨rfl, rfl⟩ := h
        obtain ⟨m, members, hmembers, rfl, hskip⟩ := hsound.members hmore
        obtain ⟨hm, hmembers⟩ := List.forall_mem_cons.mp hmembers
        have hall : ∀ k ∈ m.indented inner :: members,
            k.Spaced ∧ IsText k.item.text k.item.value :=
          List.forall_mem_cons.mpr ⟨⟨hm.1.indented hinner, hm.2⟩, hmembers⟩
        have htext := IsText.object (fun k hk => (hall k hk).1) fun k hk => (hall k hk).2
        refine ⟨_, htext, ?_⟩
        rw [hrest₁, hskip, Member.padded_indented]
        simp [membersText]
  · split at h
    · cases h
    · rename_i hnumeral
      cases h
      obtain ⟨text, rfl, hwrites⟩ := exists_of_readNumeral hnumeral
      exact ⟨text, .number hwrites, rfl⟩

theorem isSoundWith (fuel : Nat) : IsSoundWith fuel := by
  induction fuel with
  | zero =>
    refine ⟨fun h => ?_, fun h => ?_, fun h => ?_⟩
    · simp [readValue] at h
    · simp [readItems] at h
    · simp [readMembers] at h
  | succ fuel ih => exact ⟨ih.value_succ, ih.items_succ, ih.members_succ⟩

/-- The texts that are read strictly to their ends are those of the grammar, and they are read as
what they say. -/
theorem isDocument_iff {text : String} :
    IsDocument text r ↔ read .strict text = ⟨r, true⟩ := by
  refine ⟨fun h => h.read_eq trivial, fun h => ?_⟩
  have hsound := isSoundWith (2 * text.toList.length + 2)
  simp only [read, Document.mk.injEq] at h
  obtain ⟨hr, hcomplete⟩ := h
  cases hvalue : readValue .strict depthLimit (2 * text.toList.length + 2) text.toList with
  | mk r' rest? =>
    rw [hvalue] at hr hcomplete
    obtain rfl : r' = r := hr
    obtain ⟨rest, rfl, hempty⟩ := (Option.any_eq_true _ _).mp hcomplete
    obtain ⟨before, cs, hbefore, hcs, htext⟩ := hsound.value hvalue
    obtain ⟨after, hafter, hrest⟩ := exists_eq_append_skipSpace rest
    rw [List.isEmpty_iff.mp hempty, List.append_nil] at hrest
    exact ⟨before, cs, after, hbefore, hcs, hafter, hrest ▸ htext⟩

end Discussion.Json
