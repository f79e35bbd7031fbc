import Discussion.Reference.Number
import Mathlib.Data.List.DropRight

/-!
# Texts of numbers

Post and site numbers are read from a text in three steps: blanks are trimmed, what is left has
to be digits, and their value has to be in range. Each step has a relation of its own here, and
each refusal belongs to one of the steps.
-/

namespace Discussion

/-! ## Trimming -/

namespace Text

/-- A text is `t` with nothing but blanks around it, and `t` has no blank at its ends. -/
structure Trims (cs t : List Char) : Prop where
  text : ∃ before after, (∀ c ∈ before, isBlank c = true) ∧ (∀ c ∈ after, isBlank c = true) ∧
    cs = before ++ (t ++ after)
  head : ∀ c ∈ t.head?, isBlank c = false
  last : ∀ c ∈ t.getLast?, isBlank c = false

variable {cs t : List Char}

theorem dropWhile_isBlank_append {before cs : List Char} (hbefore : ∀ c ∈ before, isBlank c = true)
    (hcs : ∀ c ∈ cs.head?, isBlank c = false) : (before ++ cs).dropWhile isBlank = cs := by
  rw [List.dropWhile_append_of_pos hbefore]
  cases cs with
  | nil => rfl
  | cons c cs => exact List.dropWhile_cons_of_neg (by simpa using hcs)

theorem Trims.eq (h : Trims cs t) : trimBlanks cs = t := by
  obtain ⟨before, after, hbefore, hafter, rfl⟩ := h.text
  cases t with
  | nil =>
    have hall : ∀ c ∈ before ++ ([] ++ after), isBlank c = true := by
      simpa [or_imp, forall_and] using ⟨hbefore, hafter⟩
    rw [trimBlanks, List.dropWhile_eq_nil_iff.mpr hall]
    rfl
  | cons c t =>
    have hlast : ∀ d ∈ (c :: t).reverse.head?, isBlank d = false := by
      rw [List.head?_reverse]
      exact h.last
    have hafter : ∀ d ∈ after.reverse, isBlank d = true := by simpa using hafter
    rw [trimBlanks, dropWhile_isBlank_append hbefore (by simpa using h.head), List.reverse_append,
      dropWhile_isBlank_append hafter hlast, List.reverse_reverse]

theorem trims_trimBlanks (cs : List Char) : Trims cs (trimBlanks cs) := by
  obtain ⟨after, htail, hafter⟩ : ∃ after, cs.dropWhile isBlank = trimBlanks cs ++ after ∧
      ∀ c ∈ after, isBlank c = true :=
    ⟨_, (List.rdropWhile_append_rtakeWhile ..).symm, fun c => List.mem_rtakeWhile_imp⟩
  refine ⟨⟨cs.takeWhile isBlank, after, fun c => List.mem_takeWhile_imp, hafter, ?_⟩, ?_, ?_⟩
  · rw [← htail, List.takeWhile_append_dropWhile]
  · intro c hc
    have hhead : (cs.dropWhile isBlank).head? = some c := by
      rw [htail, List.head?_append, hc, Option.some_or]
    have hnot := List.head?_dropWhile_not isBlank cs
    rwa [hhead] at hnot
  · intro c hc
    obtain ⟨hne, rfl⟩ := List.mem_getLast?_eq_getLast hc
    exact Bool.not_eq_true _ ▸ List.rdropWhile_last_not isBlank (cs.dropWhile isBlank) hne

theorem trims_iff : Trims cs t ↔ trimBlanks cs = t :=
  ⟨Trims.eq, fun h => h ▸ trims_trimBlanks cs⟩

end Text

/-! ## Digits -/

/-- A text is digits, at least one, of value `v`. Leading zeros do not matter. -/
structure Denotes (cs : List Char) (v : Nat) : Prop where
  ne_nil : cs ≠ []
  isDigit : ∀ c ∈ cs, c.isDigit = true
  value : Nat.ofDigitChars 10 cs 0 = v

variable {cs : List Char} {v : Nat}

theorem Denotes.isNumeral (h : Denotes cs v) : isNumeral cs = true := by
  simp only [Discussion.isNumeral, Bool.and_eq_true, Bool.not_eq_true', List.isEmpty_eq_false_iff,
    List.all_eq_true]
  exact ⟨h.ne_nil, h.isDigit⟩

theorem denotes_of_isNumeral (h : isNumeral cs = true) :
    Denotes cs (Nat.ofDigitChars 10 cs 0) := by
  simp only [isNumeral, Bool.and_eq_true, Bool.not_eq_true', List.isEmpty_eq_false_iff,
    List.all_eq_true] at h
  exact ⟨h.1, h.2, rfl⟩

theorem Denotes.unique {w : Nat} (h : Denotes cs v) (h' : Denotes cs w) : v = w :=
  h.value.symm.trans h'.value

/-- The digits of a number, after any number of zeros. -/
theorem denotes_replicate_toDigits (zeros n : Nat) :
    Denotes (List.replicate zeros '0' ++ Nat.toDigits 10 n) n where
  ne_nil := by simp [Nat.toDigits_ne_nil]
  isDigit c hc := by
    rcases List.mem_append.mp hc with hc | hc
    · rw [List.eq_of_mem_replicate hc]
      rfl
    · exact Nat.isDigit_of_mem_toDigits (by decide) (by decide) hc
  value := by
    rw [Nat.ofDigitChars_append, Nat.ofDigitChars_replicate_zero, Nat.mul_zero,
      Nat.ofDigitChars_ten_toDigits]

theorem numeral?_of_denotes {text : String} (h : Denotes (Text.trimBlanks text.toList) v) :
    numeral? text = some (Text.trimBlanks text.toList) := by
  rw [numeral?, if_pos h.isNumeral]

theorem numeral?_eq_none {text : String} (h : ∀ v, ¬ Denotes (Text.trimBlanks text.toList) v) :
    numeral? text = none := by
  rw [numeral?, if_neg fun hnumeral => h _ (denotes_of_isNumeral hnumeral)]

/-! ## Parsers -/

/-- `parse` finds the numbers of 64 bits from `least` on in the texts that denote them, and
refuses every other text at the first step that fails. -/
structure ReadsNumerals {α : Type} (kind : ReferenceKind) (least : Nat) (value : α → Nat)
    (parse : String → Except ReferenceError α) : Prop where
  range (v : Nat) : (∃ n, value n = v) ↔ least ≤ v ∧ v < UInt64.size
  ok_iff (text : String) (n : α) :
    parse text = .ok n ↔ Denotes (Text.trimBlanks text.toList) (value n)
  malformed (text : String) (h : ∀ v, ¬ Denotes (Text.trimBlanks text.toList) v) :
    parse text = .error (.malformed kind text)
  tooSmall (text : String) (v : Nat) (h : Denotes (Text.trimBlanks text.toList) v)
    (hv : v < least) : parse text = .error (.malformed kind "0")
  tooLarge (text : String) (v : Nat) (h : Denotes (Text.trimBlanks text.toList) v)
    (hv : UInt64.size ≤ v) : parse text = .error .tooLarge

/-- A parser of numerals that leaves the range to `read`. -/
theorem ReadsNumerals.of_read {α : Type} {kind : ReferenceKind} {least : Nat} {value : α → Nat}
    {parse : String → Except ReferenceError α} {read : Nat → Except ReferenceError α}
    (hparse : ∀ text, parse text =
      match numeral? text with
      | none => .error (.malformed kind text)
      | some digits => read (Nat.ofDigitChars 10 digits 0))
    (hrange : ∀ v, (∃ n, value n = v) ↔ least ≤ v ∧ v < UInt64.size)
    (hok : ∀ v n, read v = .ok n ↔ value n = v)
    (hsmall : ∀ v < least, read v = .error (.malformed kind "0"))
    (hlarge : ∀ v, UInt64.size ≤ v → read v = .error .tooLarge) :
    ReadsNumerals kind least value parse := by
  have hread : ∀ text v, Denotes (Text.trimBlanks text.toList) v → parse text = read v := by
    intro text v h
    rw [hparse, numeral?_of_denotes h]
    simp only [h.value]
  have hmalformed : ∀ text, (∀ v, ¬ Denotes (Text.trimBlanks text.toList) v) →
      parse text = .error (.malformed kind text) := by
    intro text h
    rw [hparse, numeral?_eq_none h]
  refine ⟨hrange, fun text n => ⟨fun h => ?_, fun h => ?_⟩, hmalformed, fun text v h hv => ?_,
    fun text v h hv => ?_⟩
  · by_cases hdenotes : ∃ v, Denotes (Text.trimBlanks text.toList) v
    · obtain ⟨v, hv⟩ := hdenotes
      rw [hread text v hv, hok] at h
      exact h ▸ hv
    · rw [hmalformed text (not_exists.mp hdenotes)] at h
      cases h
  · rw [hread text _ h]
    exact (hok _ n).mpr rfl
  · rw [hread text v h]
    exact hsmall v hv
  · rw [hread text v h]
    exact hlarge v hv

namespace PostNumber

theorem ofNat_eq_ok_iff {n : PostNumber} : ofNat v = .ok n ↔ n.value = v := by
  constructor
  · intro h
    unfold ofNat at h
    split at h
    · split at h
      · rw [← Except.ok.inj h]
      · cases h
    · cases h
  · rintro rfl
    exact ofNat_value n

theorem readsNumerals : ReadsNumerals .post 1 value parse := by
  refine .of_read (fun _ => rfl) (fun v => ?_) (fun v n => ofNat_eq_ok_iff) (fun v hv => ?_)
    fun v hv => ?_
  · exact ⟨fun ⟨n, hn⟩ => hn ▸ ⟨n.pos, n.lt⟩, fun h => ⟨⟨v, h.1, h.2⟩, rfl⟩⟩
  · obtain rfl : v = 0 := Nat.lt_one_iff.mp hv
    rfl
  · have hpos : 0 < v := Nat.lt_of_lt_of_le (by decide) hv
    rw [ofNat, dif_pos hpos, dif_neg (Nat.not_lt.mpr hv)]

theorem parse_eq_ok_iff {text : String} {n : PostNumber} :
    parse text = .ok n ↔ Denotes (Text.trimBlanks text.toList) n.value :=
  readsNumerals.ok_iff text n

end PostNumber

namespace SiteNumber

theorem ofNat_eq_ok_iff {n : SiteNumber} : ofNat v = .ok n ↔ n.value = v := by
  constructor
  · intro h
    unfold ofNat at h
    split at h
    · rw [← Except.ok.inj h]
    · cases h
  · rintro rfl
    exact ofNat_value n

theorem readsNumerals : ReadsNumerals .site 0 value parse := by
  refine .of_read (fun _ => rfl) (fun v => ?_) (fun v n => ofNat_eq_ok_iff)
    (fun v hv => absurd hv (Nat.not_lt_zero v)) fun v hv => ?_
  · exact ⟨fun ⟨n, hn⟩ => hn ▸ ⟨Nat.zero_le _, n.lt⟩, fun h => ⟨⟨v, h.2⟩, rfl⟩⟩
  · rw [ofNat, dif_neg (Nat.not_lt.mpr hv)]

theorem parse_eq_ok_iff {text : String} {n : SiteNumber} :
    parse text = .ok n ↔ Denotes (Text.trimBlanks text.toList) n.value :=
  readsNumerals.ok_iff text n

end SiteNumber

/-! ## Parents -/

/-- The texts that say that a post starts a conversation. -/
def SaysRoot (t : List Char) : Prop := t = [] ∨ t = ['0'] ∨ t = ['n', 'o', 'n', 'e']

namespace PostNumber

theorem parseParent_of_root {text : String} (h : SaysRoot (Text.trimBlanks text.toList)) :
    parseParent text = .ok none := if_pos h

theorem parseParent_of_not_root {text : String} (h : ¬ SaysRoot (Text.trimBlanks text.toList)) :
    parseParent text = (parse text).map some := if_neg h

theorem not_saysRoot {n : PostNumber} {t : List Char} (h : Denotes t n.value) : ¬ SaysRoot t := by
  rintro (rfl | rfl | rfl)
  · exact h.ne_nil rfl
  · exact Nat.lt_irrefl 0 (Nat.lt_of_lt_of_eq n.pos h.value.symm)
  · exact absurd (h.isDigit 'n' (by simp)) (by decide)

theorem parseParent_eq_none_iff {text : String} :
    parseParent text = .ok none ↔ SaysRoot (Text.trimBlanks text.toList) := by
  refine ⟨fun h => ?_, parseParent_of_root⟩
  by_contra hroot
  rw [parseParent_of_not_root hroot] at h
  cases hparse : parse text with
  | error e => simp [hparse, Except.map] at h
  | ok n => simp [hparse, Except.map] at h

theorem parseParent_eq_some_iff {text : String} {n : PostNumber} :
    parseParent text = .ok (some n) ↔ Denotes (Text.trimBlanks text.toList) n.value := by
  constructor
  · intro h
    by_cases hroot : SaysRoot (Text.trimBlanks text.toList)
    · simp [parseParent_of_root hroot] at h
    · rw [parseParent_of_not_root hroot] at h
      cases hparse : parse text with
      | error e => simp [hparse, Except.map] at h
      | ok m =>
        obtain rfl : m = n := by simpa [hparse, Except.map] using h
        exact parse_eq_ok_iff.mp hparse
  · intro h
    rw [parseParent_of_not_root (not_saysRoot h), parse_eq_ok_iff.mpr h]
    rfl

end PostNumber

/-! ## Written numbers -/

theorem isBlank_of_isDigit {c : Char} (h : c.isDigit = true) : Text.isBlank c = false := by
  have hrange : 48 ≤ c.toNat ∧ c.toNat ≤ 57 := by
    simpa [Char.isDigit, UInt32.le_iff_toNat_le] using h
  simp only [Text.isBlank, Bool.or_eq_false_iff, Bool.and_eq_false_iff, decide_eq_false_iff_not,
    beq_eq_false_iff_ne]
  omega

theorem Denotes.trims {before after : List Char} (h : Denotes cs v)
    (hbefore : ∀ c ∈ before, Text.isBlank c = true) (hafter : ∀ c ∈ after, Text.isBlank c = true) :
    Text.Trims (before ++ (cs ++ after)) cs :=
  ⟨⟨before, after, hbefore, hafter, rfl⟩,
    fun c hc => isBlank_of_isDigit (h.isDigit c (List.mem_of_mem_head? hc)),
    fun c hc => isBlank_of_isDigit (h.isDigit c (List.mem_of_mem_getLast? hc))⟩

/-- The digits of a number say it, also after zeros and between blanks. -/
theorem denotes_padded {text : String} {before after : List Char} (zeros n : Nat)
    (hbefore : ∀ c ∈ before, Text.isBlank c = true) (hafter : ∀ c ∈ after, Text.isBlank c = true)
    (htext : text.toList =
      before ++ ((List.replicate zeros '0' ++ Nat.toDigits 10 n) ++ after)) :
    Denotes (Text.trimBlanks text.toList) n := by
  have hdenotes := denotes_replicate_toDigits zeros n
  rwa [htext, (hdenotes.trims hbefore hafter).eq]

theorem denotes_toString (n : Nat) : Denotes (Text.trimBlanks (toString n).toList) n := by
  have htext : (toString n).toList =
      [] ++ ((List.replicate 0 '0' ++ Nat.toDigits 10 n) ++ []) := by simp
  exact denotes_padded 0 n (by simp) (by simp) htext

theorem PostNumber.parse_toString (n : PostNumber) : parse (toString n) = .ok n :=
  parse_eq_ok_iff.mpr (denotes_toString n.value)

theorem SiteNumber.parse_toString (n : SiteNumber) : parse (toString n) = .ok n :=
  parse_eq_ok_iff.mpr (denotes_toString n.value)

end Discussion
