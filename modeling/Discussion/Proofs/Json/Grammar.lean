import Discussion.Json.Reader
import Discussion.Reference.Number

/-!
# The grammar of JSON

Which texts are JSON and what they say, apart from how they are read. A text says a reading:
the grammar has no bounds, so a number may be out of range and a string may have a surrogate
that belongs to no pair, and the reading keeps that.
-/

namespace Discussion.Json

open Decimal (Numeral)

/-- Nothing but blanks. -/
def IsBlank (cs : List Char) : Prop := ∀ c ∈ cs, isSpace c = true

/-! ## Strings -/

/-- What may stand between the quotes of a string, with the units that it stands for. -/
inductive Spells : List Char → List Nat → Prop
  | nil : Spells [] []
  | plain {c : Char} {cs : List Char} {us : List Nat} (hquote : c ≠ '"') (hslash : c ≠ '\\')
    (hcontrol : 0x20 ≤ c.toNat) (h : Spells cs us) : Spells (c :: cs) (c.toNat :: us)
  | escape {c : Char} {n : Nat} {cs : List Char} {us : List Nat} (hc : escape? c = some n)
    (h : Spells cs us) : Spells ('\\' :: c :: cs) (n :: us)
  | hex {a b c d : Char} {n : Nat} {cs : List Char} {us : List Nat}
    (hn : Text.hexNumber? [a, b, c, d] = some n) (h : Spells cs us) :
    Spells ('\\' :: 'u' :: a :: b :: c :: d :: cs) (n :: us)

/-- The text of a string, unless a surrogate in it belongs to no pair. -/
def textOf? (us : List Nat) : Option String := (joinUnits [] us).map String.ofList

/-- The key with a text. -/
def Key.ofText? : Option String → Key
  | some s => .name s
  | none => .unpaired

/-! ## Numerals -/

/-- The sign of a numeral. -/
def signChars (negative : Bool) : List Char := if negative then ['-'] else []

/-- The part of a numeral from its point on. -/
inductive WritesFraction : List Char → List Char → Prop
  | none : WritesFraction [] []
  | some {digits : List Char} (h : isNumeral digits = true) :
    WritesFraction digits ('.' :: digits)

/-- The part of a numeral from the mark of its exponent on. -/
inductive WritesExponent : Option (Bool × List Char) → List Char → Prop
  | none : WritesExponent none []
  | bare {mark : Char} {digits : List Char} (hmark : mark = 'e' ∨ mark = 'E')
    (h : isNumeral digits = true) : WritesExponent (some (false, digits)) (mark :: digits)
  | plus {mark : Char} {digits : List Char} (hmark : mark = 'e' ∨ mark = 'E')
    (h : isNumeral digits = true) : WritesExponent (some (false, digits)) (mark :: '+' :: digits)
  | minus {mark : Char} {digits : List Char} (hmark : mark = 'e' ∨ mark = 'E')
    (h : isNumeral digits = true) : WritesExponent (some (true, digits)) (mark :: '-' :: digits)

/-- A numeral. Its whole part is zero alone, or does not start with zero. -/
structure WritesNumeral (n : Numeral) (cs : List Char) : Prop where
  whole : isNumeral n.whole = true
  whole_eq_zero : n.whole.head? = some '0' → n.whole = ['0']
  text : ∃ fraction exponent, WritesFraction n.fraction fraction ∧
    WritesExponent n.exponent exponent ∧
    cs = signChars n.negative ++ (n.whole ++ (fraction ++ exponent))

/-! ## Values -/

/-- A value in its place, with the blanks around it. -/
structure Item where
  before : List Char := []
  text : List Char
  after : List Char := []
  value : Reading

namespace Item

/-- The text of an item and the blanks around it. -/
def padded (i : Item) : List Char := i.before ++ (i.text ++ i.after)

/-- There is nothing around an item but blanks. -/
structure Spaced (i : Item) : Prop where
  before : IsBlank i.before
  after : IsBlank i.after

end Item

/-- A member of an object: the blanks before its key, what stands between the quotes of the key,
the units of the key, the blanks after it, and the value. -/
structure Member where
  indent : List Char := []
  spelling : List Char
  units : List Nat
  gap : List Char := []
  item : Item

namespace Member

/-- The text of a member from its key on. -/
def text (m : Member) : List Char :=
  '"' :: (m.spelling ++ '"' :: (m.gap ++ ':' :: m.item.padded))

/-- The text of a member and the blanks around it. -/
def padded (m : Member) : List Char := m.indent ++ m.text

/-- What a member says. -/
def entry (m : Member) : Key × Reading := (.ofText? (textOf? m.units), m.item.value)

/-- The key of a member is spelled right, and there is nothing around key and value but blanks. -/
structure Spaced (m : Member) : Prop where
  indent : IsBlank m.indent
  spelling : Spells m.spelling m.units
  gap : IsBlank m.gap
  item : m.item.Spaced

end Member

/-- A text is a value and says a reading. -/
inductive IsText : List Char → Reading → Prop
  | null : IsText ['n', 'u', 'l', 'l'] .null
  | boolTrue : IsText ['t', 'r', 'u', 'e'] (.bool true)
  | boolFalse : IsText ['f', 'a', 'l', 's', 'e'] (.bool false)
  | number {n : Numeral} {cs : List Char} (h : WritesNumeral n cs) :
    IsText cs (.number n.magnitude)
  | string {cs : List Char} {us : List Nat} (h : Spells cs us) :
    IsText ('"' :: (cs ++ ['"'])) (.string (textOf? us))
  | emptyArray {blanks : List Char} (h : IsBlank blanks) :
    IsText ('[' :: (blanks ++ [']'])) (.array [] true)
  | array {i : Item} {items : List Item} (hspaced : ∀ j ∈ i :: items, j.Spaced)
    (h : ∀ j ∈ i :: items, IsText j.text j.value) :
    IsText ('[' :: (i.padded ++ (items.flatMap (fun j => ',' :: j.padded) ++ [']'])))
      (.array ((i :: items).map (·.value)) true)
  | emptyObject {blanks : List Char} (h : IsBlank blanks) :
    IsText ('{' :: (blanks ++ ['}'])) (.object [] true)
  | object {m : Member} {members : List Member} (hspaced : ∀ k ∈ m :: members, k.Spaced)
    (h : ∀ k ∈ m :: members, IsText k.item.text k.item.value) :
    IsText ('{' :: (m.padded ++ (members.flatMap (fun k => ',' :: k.padded) ++ ['}'])))
      (.object ((m :: members).map (·.entry)) true)

/-- A whole text is JSON and says a reading: one value with blanks around it. -/
def IsDocument (text : String) (r : Reading) : Prop :=
  ∃ before cs after, IsBlank before ∧ IsText cs r ∧ IsBlank after ∧
    text.toList = before ++ (cs ++ after)

/-! ## What texts begin with -/

theorem isNumeral_iff {cs : List Char} :
    isNumeral cs = true ↔ cs ≠ [] ∧ ∀ c ∈ cs, c.isDigit = true := by
  simp [isNumeral]

theorem isDigit_ne {c d : Char} (hc : c.isDigit = true) (hd : d.isDigit = false) : c ≠ d := by
  rintro rfl
  simp [hc] at hd

theorem eq_of_isSpace {c : Char} (h : isSpace c = true) :
    c = ' ' ∨ c = '\t' ∨ c = '\n' ∨ c = '\r' := by
  simpa [isSpace, or_assoc] using h

theorem WritesNumeral.exists_head {n : Numeral} {cs : List Char} (h : WritesNumeral n cs) :
    ∃ c rest, cs = c :: rest ∧ (c = '-' ∨ c.isDigit = true) := by
  obtain ⟨fraction, exponent, -, -, rfl⟩ := h.text
  obtain ⟨hne, hdigits⟩ := isNumeral_iff.mp h.whole
  obtain ⟨c, tail, hwhole⟩ := List.exists_cons_of_ne_nil hne
  cases hnegative : n.negative with
  | true => exact ⟨'-', _, rfl, .inl rfl⟩
  | false =>
    refine ⟨c, tail ++ (fraction ++ exponent), ?_, .inr (hdigits c (by simp [hwhole]))⟩
    rw [hwhole]
    rfl

/-- No value begins with a blank or with a closing bracket. -/
theorem IsText.exists_head {cs : List Char} {r : Reading} (h : IsText cs r) :
    ∃ c rest, cs = c :: rest ∧ isSpace c = false ∧ c ≠ ']' ∧ c ≠ '}' := by
  cases h with
  | number h =>
    obtain ⟨c, rest, rfl, hc⟩ := h.exists_head
    refine ⟨c, rest, rfl, ?_⟩
    rcases hc with rfl | hc
    · decide
    · refine ⟨?_, isDigit_ne hc (by decide), isDigit_ne hc (by decide)⟩
      rw [← Bool.not_eq_true]
      intro hspace
      rcases eq_of_isSpace hspace with rfl | rfl | rfl | rfl <;> revert hc <;> decide
  | _ => exact ⟨_, _, rfl, by decide⟩

/-! ## What readings consist of -/

namespace Reading

theorem allWhole_iff {rs : List Reading} :
    allWhole rs = true ↔ ∀ r ∈ rs, r.isWhole = true := by
  induction rs with
  | nil => simp [allWhole]
  | cons r rs ih => rw [allWhole, Bool.and_eq_true, ih, List.forall_mem_cons]

theorem allMembersWhole_iff {ms : List (Key × Reading)} :
    allMembersWhole ms = true ↔ ∀ m ∈ ms, m.2.isWhole = true := by
  induction ms with
  | nil => simp [allMembersWhole]
  | cons m ms ih => rw [allMembersWhole, Bool.and_eq_true, ih, List.forall_mem_cons]

theorem allSound_iff {room : Nat} {rs : List Reading} :
    allSound room rs = true ↔ ∀ r ∈ rs, r.isSound room = true := by
  induction rs with
  | nil => simp [allSound]
  | cons r rs ih => rw [allSound, Bool.and_eq_true, ih, List.forall_mem_cons]

theorem allMembersSound_iff {room : Nat} {ms : List (Key × Reading)} :
    allMembersSound room ms = true ↔ ∀ m ∈ ms, m.1 ≠ .unpaired ∧ m.2.isSound room = true := by
  induction ms with
  | nil => simp [allMembersSound]
  | cons m ms ih =>
    obtain ⟨key, r⟩ := m
    cases key with
    | name name => simp [allMembersSound, ih]
    | unpaired => simp [allMembersSound]

theorem isSound_array_iff {room : Nat} {rs : List Reading} :
    (array rs true).isSound room = true ↔
      room ≠ 0 ∧ ∀ r ∈ rs, r.isSound (room - 1) = true := by
  rw [isSound, Bool.and_true, Bool.and_eq_true, decide_eq_true_eq, allSound_iff,
    Nat.pos_iff_ne_zero]

theorem isSound_object_iff {room : Nat} {ms : List (Key × Reading)} :
    (object ms true).isSound room = true ↔
      room ≠ 0 ∧ ∀ m ∈ ms, m.1 ≠ .unpaired ∧ m.2.isSound (room - 1) = true := by
  rw [isSound, Bool.and_true, Bool.and_eq_true, decide_eq_true_eq, allMembersSound_iff,
    Nat.pos_iff_ne_zero]

end Reading

/-- What JSON says holds together. -/
theorem IsText.isWhole {cs : List Char} {r : Reading} (h : IsText cs r) : r.isWhole = true := by
  induction h with
  | array hspaced h ih =>
    rw [Reading.isWhole, Bool.and_true, Reading.allWhole_iff, List.forall_mem_map]
    exact ih
  | object hspaced h ih =>
    rw [Reading.isWhole, Bool.and_true, Reading.allMembersWhole_iff, List.forall_mem_map]
    exact ih
  | _ => rfl

theorem IsDocument.isWhole {text : String} {r : Reading} (h : IsDocument text r) :
    r.isWhole = true := by
  obtain ⟨_, _, _, -, htext, -⟩ := h
  exact htext.isWhole

end Discussion.Json
