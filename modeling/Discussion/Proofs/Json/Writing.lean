import Discussion.Proofs.Json.Completeness
import Discussion.Json.Value

/-!
# Written values are JSON

The text of a value is in the grammar and says the value, as long as the numbers in it fit in 64
bits. Strings may hold any characters: what would end a string or break it is escaped.
-/

namespace Discussion.Json

open Decimal (Magnitude Numeral)

/-! ## Strings -/

theorem hexNumber?_of_control :
    ∀ n < 0x20, Text.hexNumber? ['0', '0', (n / 16).digitChar, (n % 16).digitChar] = some n := by
  decide

theorem Spells.escapeChar_append {cs : List Char} {us : List Nat} (h : Spells cs us) (c : Char) :
    Spells (escapeChar c ++ cs) (c.toNat :: us) := by
  unfold escapeChar
  split
  case h_8 hquote hslash _ _ _ _ _ =>
    by_cases hcontrol : c.toNat < 0x20
    · rw [if_pos hcontrol]
      exact .hex (hexNumber?_of_control _ hcontrol) h
    · rw [if_neg hcontrol]
      exact .plain hquote hslash (Nat.not_lt.mp hcontrol) h
  all_goals exact .escape rfl h

theorem spells_escaped (cs : List Char) : Spells (cs.flatMap escapeChar) (cs.map Char.toNat) := by
  induction cs with
  | nil => exact .nil
  | cons c cs ih =>
    rw [List.flatMap_cons, List.map_cons]
    exact ih.escapeChar_append c

theorem joinUnits_map_toNat (done cs : List Char) :
    joinUnits done (cs.map Char.toNat) = some (done.reverse ++ cs) := by
  induction cs generalizing done with
  | nil => simp [joinUnits]
  | cons c cs ih =>
    rw [List.map_cons, joinUnits_cons done _ (isHighSurrogate_toNat c) (isLowSurrogate_toNat c),
      Char.ofNat_toNat, ih]
    simp

theorem textOf?_map_toNat (s : String) : textOf? (s.toList.map Char.toNat) = some s := by
  rw [textOf?, joinUnits_map_toNat]
  simp

/-- A string in quotes says the string. -/
theorem isText_quote (s : String) : IsText (quote s) (.string (some s)) := by
  have h := IsText.string (spells_escaped s.toList)
  rwa [textOf?_map_toNat] at h

/-! ## Numbers -/

theorem head?_toDigits {n : Nat} (h : (Nat.toDigits 10 n).head? = some '0') : n = 0 := by
  induction n using Nat.strongRecOn with
  | ind n ih =>
    rcases Nat.lt_or_ge n 10 with hn | hn
    · rw [Nat.toDigits_of_lt_base hn] at h
      simpa using h
    · obtain ⟨c, tail, hhead⟩ :=
        List.exists_cons_of_ne_nil (Nat.toDigits_ne_nil (n := n / 10) (b := 10))
      rw [Nat.toDigits_of_base_le (by decide) hn, hhead] at h
      have hzero := ih (n / 10) (Nat.div_lt_self (by omega) (by decide)) (by rw [hhead]; exact h)
      omega

theorem isNumeral_toDigits (n : Nat) : isNumeral (Nat.toDigits 10 n) = true :=
  isNumeral_iff.mpr ⟨Nat.toDigits_ne_nil,
    fun _ => Nat.isDigit_of_mem_toDigits (by decide) (by decide)⟩

/-- The numeral of a whole number. -/
def integerNumeral (n : Int) : Numeral where
  negative := n < 0
  whole := Nat.toDigits 10 n.natAbs

theorem writesNumeral_numberChars (n : Int) : WritesNumeral (integerNumeral n) (numberChars n) where
  whole := isNumeral_toDigits _
  whole_eq_zero h := by
    have hzero : n.natAbs = 0 := head?_toDigits h
    rw [integerNumeral, hzero, Nat.toDigits_zero]
  text := by
    refine ⟨[], [], .none, .none, ?_⟩
    cases n with
    | ofNat n => simp [numberChars, integerNumeral, signChars]
    | negSucc n => simp [numberChars, integerNumeral, signChars, Int.negSucc_lt_zero]

theorem le_ofDigitChars (digits : List Char) (n : Nat) : n ≤ Nat.ofDigitChars 10 digits n := by
  induction digits generalizing n with
  | nil => rw [Nat.ofDigitChars_nil]
  | cons c digits ih =>
    rw [Nat.ofDigitChars_cons]
    exact Nat.le_trans (by omega) (ih _)

/-- All digits of a number of 64 bits are absorbed. -/
theorem absorb_eq {digits : List Char} {n : Nat}
    (h : Nat.ofDigitChars 10 digits n < UInt64.size) :
    Decimal.absorb n digits = (Nat.ofDigitChars 10 digits n, []) := by
  induction digits generalizing n with
  | nil => rw [Decimal.absorb, Nat.ofDigitChars_nil]
  | cons c digits ih =>
    rw [Nat.ofDigitChars_cons] at h ⊢
    rw [Decimal.absorb, if_pos (Nat.lt_of_le_of_lt (le_ofDigitChars digits _) h)]
    exact ih h

/-- A whole number fits in 64 bits, with a sign only if it is negative. -/
def FitsWord (n : Int) : Prop := -(UInt64.size / 2 : Nat) ≤ n ∧ n < UInt64.size

instance (n : Int) : Decidable (FitsWord n) := inferInstanceAs (Decidable (_ ∧ _))

theorem magnitude_of_whole {n : Numeral} {m : Nat} (hfraction : n.fraction = [])
    (hexponent : n.exponent = none) (hwhole : Decimal.absorb 0 n.whole = (m, [])) :
    n.magnitude =
      if !n.negative then .integer m
      else if 0 < m ∧ m ≤ UInt64.size / 2 then .integer (-m)
      else .float (Decimal.signed true (Float.ofNat m)) := by
  rw [Numeral.magnitude, hwhole]
  exact if_pos ⟨rfl, hfraction, hexponent⟩

theorem magnitude_integerNumeral {n : Int} (h : FitsWord n) :
    (integerNumeral n).magnitude = .integer n := by
  obtain ⟨hlow, hhigh⟩ := h
  have hdigits : Nat.ofDigitChars 10 (Nat.toDigits 10 n.natAbs) 0 = n.natAbs :=
    Nat.ofDigitChars_ten_toDigits
  have hfits : n.natAbs < UInt64.size := by
    simp only [UInt64.size] at hlow hhigh ⊢
    omega
  have hwhole : Decimal.absorb 0 (integerNumeral n).whole = (n.natAbs, []) := by
    rw [integerNumeral, absorb_eq (by rwa [hdigits]), hdigits]
  rw [magnitude_of_whole rfl rfl hwhole]
  rcases Int.lt_or_le n 0 with hneg | hpos
  · have hnegative : (integerNumeral n).negative = true := decide_eq_true hneg
    have hrange : 0 < n.natAbs ∧ n.natAbs ≤ UInt64.size / 2 := by omega
    have habs : -(n.natAbs : Int) = n := by omega
    rw [hnegative, if_neg (by decide), if_pos hrange, habs]
  · have hnegative : (integerNumeral n).negative = false := decide_eq_false (Int.not_lt.mpr hpos)
    have habs : (n.natAbs : Int) = n := by omega
    rw [hnegative, if_pos (by decide), habs]

/-- A whole number of 64 bits is written as it is read. -/
theorem isText_numberChars {n : Int} (h : FitsWord n) :
    IsText (numberChars n) (.number (.integer n)) := by
  have htext := IsText.number (writesNumeral_numberChars n)
  rwa [magnitude_integerNumeral h] at htext

/-! ## Values -/

namespace Value

mutual

/-- What a value reads as. -/
def reading : Value → Reading
  | .null => .null
  | .bool b => .bool b
  | .number n => .number (.integer n)
  | .string s => .string (some s)
  | .array items => .array (itemReadings items) true
  | .object members => .object (memberReadings members) true

/-- What the items of an array read as. -/
def itemReadings : List Value → List Reading
  | [] => []
  | v :: rest => v.reading :: itemReadings rest

/-- What the members of an object read as. -/
def memberReadings : List (String × Value) → List (Key × Reading)
  | [] => []
  | (k, v) :: rest => (.name k, v.reading) :: memberReadings rest

end

theorem itemReadings_eq (items : List Value) : itemReadings items = items.map reading := by
  induction items with
  | nil => rfl
  | cons v items ih => rw [itemReadings, ih, List.map_cons]

theorem memberReadings_eq (members : List (String × Value)) :
    memberReadings members = members.map fun m => (.name m.1, m.2.reading) := by
  induction members with
  | nil => rfl
  | cons m members ih => rw [memberReadings, ih, List.map_cons]

/-- All numbers in a value fit in 64 bits. -/
inductive Fits : Value → Prop
  | null : Fits .null
  | bool (b : Bool) : Fits (.bool b)
  | number {n : Int} (h : FitsWord n) : Fits (.number n)
  | string (s : String) : Fits (.string s)
  | array {items : List Value} (h : ∀ v ∈ items, Fits v) : Fits (.array items)
  | object {members : List (String × Value)} (h : ∀ m ∈ members, Fits m.2) :
    Fits (.object members)

@[simp]
theorem fits_null : Fits .null := .null

@[simp]
theorem fits_bool (b : Bool) : Fits (.bool b) := .bool b

@[simp]
theorem fits_string (s : String) : Fits (.string s) := .string s

@[simp]
theorem fits_number_iff {n : Int} : Fits (.number n) ↔ FitsWord n :=
  ⟨fun h => by cases h; assumption, .number⟩

@[simp]
theorem fits_array_iff {items : List Value} : Fits (.array items) ↔ ∀ v ∈ items, Fits v :=
  ⟨fun h => by cases h; assumption, .array⟩

@[simp]
theorem fits_object_iff {members : List (String × Value)} :
    Fits (.object members) ↔ ∀ m ∈ members, Fits m.2 :=
  ⟨fun h => by cases h; assumption, .object⟩

/-- A value as an item, with nothing around it. -/
def item (v : Value) : Item where
  text := v.chars
  value := v.reading

/-- A member as it is written, with nothing around it. -/
def member (m : String × Value) : Member where
  spelling := m.1.toList.flatMap escapeChar
  units := m.1.toList.map Char.toNat
  item := m.2.item

theorem item_spaced (v : Value) : v.item.Spaced := ⟨isBlank_nil, isBlank_nil⟩

theorem member_spaced (m : String × Value) : (member m).Spaced :=
  ⟨isBlank_nil, spells_escaped _, isBlank_nil, item_spaced _⟩

theorem member_entry (m : String × Value) : (member m).entry = (.name m.1, m.2.reading) := by
  rw [Member.entry, member, textOf?_map_toNat]
  rfl

theorem itemChars_eq (items : List Value) :
    itemChars items = itemsText (items.map item) ++ [']'] := by
  induction items with
  | nil => rfl
  | cons v items ih => simp [itemChars, itemsText, Item.padded, item, ih]

theorem memberChars_eq (members : List (String × Value)) :
    memberChars members = membersText (members.map member) ++ ['}'] := by
  induction members with
  | nil => rfl
  | cons m members ih =>
    simp [memberChars, membersText, Member.padded, Member.text, Item.padded, member, item, quote,
      ih]

theorem chars_array_cons (v : Value) (rest : List Value) :
    (array (v :: rest)).chars =
      '[' :: (v.item.padded ++ (itemsText (rest.map item) ++ [']'])) := by
  simp [chars, itemChars_eq, Item.padded, item]

theorem chars_object_cons (m : String × Value) (rest : List (String × Value)) :
    (object (m :: rest)).chars =
      '{' :: ((member m).padded ++ (membersText (rest.map member) ++ ['}'])) := by
  simp [chars, memberChars_eq, Member.padded, Member.text, Item.padded, member, item, quote]

theorem map_value_item (items : List Value) :
    (items.map item).map (·.value) = itemReadings items := by
  rw [itemReadings_eq, List.map_map]
  rfl

theorem map_entry_member (members : List (String × Value)) :
    (members.map member).map (·.entry) = memberReadings members := by
  rw [memberReadings_eq, List.map_map]
  exact List.map_congr_left fun m _ => member_entry m

/-- A written value is JSON and says the value. -/
theorem Fits.isText {v : Value} (h : v.Fits) : IsText v.chars v.reading := by
  induction h with
  | null => exact .null
  | bool b => cases b with
    | true => exact .boolTrue
    | false => exact .boolFalse
  | number h => exact isText_numberChars h
  | string s => exact isText_quote s
  | @array items _ ih =>
    cases items with
    | nil => exact .emptyArray isBlank_nil
    | cons v rest =>
      have hspaced : ∀ j ∈ (v :: rest).map item, j.Spaced :=
        List.forall_mem_map.mpr fun v _ => item_spaced v
      have htext : ∀ j ∈ (v :: rest).map item, IsText j.text j.value := List.forall_mem_map.mpr ih
      rw [chars_array_cons, reading, ← map_value_item]
      exact .array hspaced htext
  | @object members _ ih =>
    cases members with
    | nil => exact .emptyObject isBlank_nil
    | cons m rest =>
      have hspaced : ∀ k ∈ (m :: rest).map member, k.Spaced :=
        List.forall_mem_map.mpr fun m _ => member_spaced m
      have htext : ∀ k ∈ (m :: rest).map member, IsText k.item.text k.item.value :=
        List.forall_mem_map.mpr ih
      rw [chars_object_cons, reading, ← map_entry_member]
      exact .object hspaced htext

theorem Fits.isWhole {v : Value} (h : v.Fits) : v.reading.isWhole = true := h.isText.isWhole

theorem Fits.isDocument {v : Value} (h : v.Fits) : IsDocument v.text v.reading :=
  ⟨[], v.chars, [], isBlank_nil, h.isText, isBlank_nil, by simp [text]⟩

theorem isSound_array_iff {room : Nat} {items : List Value} :
    (array items).reading.isSound room = true ↔
      room ≠ 0 ∧ ∀ v ∈ items, v.reading.isSound (room - 1) = true := by
  rw [reading, Reading.isSound_array_iff, itemReadings_eq, List.forall_mem_map]

theorem isSound_object_iff {room : Nat} {members : List (String × Value)} :
    (object members).reading.isSound room = true ↔
      room ≠ 0 ∧ ∀ m ∈ members, m.2.reading.isSound (room - 1) = true := by
  rw [reading, Reading.isSound_object_iff, memberReadings_eq, List.forall_mem_map]
  simp

theorem memberReadings_ne_unpaired (members : List (String × Value)) :
    ∀ m ∈ memberReadings members, m.1 ≠ .unpaired := by
  rw [memberReadings_eq, List.forall_mem_map]
  simp

end Value

end Discussion.Json
