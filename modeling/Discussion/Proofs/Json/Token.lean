import Discussion.Proofs.Json.Grammar
import Discussion.Json.Passage
import Mathlib.Data.List.TakeWhile

/-!
# Reading strings and numerals

A string or a numeral is read up to its end, whatever follows. For a numeral what follows must
not go on with it, which nothing does that may follow a value.
-/

namespace Discussion.Json

open Decimal (Magnitude Numeral)

variable {rest : List Char}

/-! ## Blanks -/

theorem skipSpace_append {blanks : List Char} (hblanks : IsBlank blanks)
    (hrest : ∀ c ∈ rest.head?, isSpace c = false) : skipSpace (blanks ++ rest) = rest := by
  rw [skipSpace, List.dropWhile_append_of_pos hblanks]
  cases rest with
  | nil => rfl
  | cons c rest => rw [List.dropWhile_cons, hrest c rfl]; rfl

theorem skipSpace_append_cons {blanks : List Char} {c : Char} (hblanks : IsBlank blanks)
    (hc : isSpace c = false) : skipSpace (blanks ++ c :: rest) = c :: rest :=
  skipSpace_append hblanks fun d hd => by
    rw [List.head?_cons, Option.mem_some] at hd
    rwa [← hd]

/-! ## Strings -/

theorem readUnits_append {cs : List Char} {us : List Nat} (h : Spells cs us) (done : List Nat)
    (rest : List Char) :
    readUnits done (cs ++ '"' :: rest) = some (done.reverse ++ us, rest) := by
  induction h generalizing done with
  | nil => simp [readUnits]
  | plain hquote hslash hcontrol h ih =>
    rw [List.cons_append, readUnits, if_neg (Nat.not_lt.mpr hcontrol), ih]
    · simp
    all_goals simp_all
  | escape hc h ih =>
    rw [List.cons_append, List.cons_append, readUnits, hc]
    · simp [ih]
    · rintro a b c d rest rfl
      simp [escape?] at hc
  | hex hn h ih =>
    simp only [List.cons_append, readUnits, hn, ih]
    simp

theorem readString_append {cs : List Char} {us : List Nat} (h : Spells cs us)
    (rest : List Char) : readString (cs ++ '"' :: rest) = some (textOf? us, rest) := by
  rw [readString, readUnits_append h]
  rfl

/-! ## Surrogates -/

theorem toNat_lt_or_lt (c : Char) : c.toNat < 0xD800 ∨ 0xDFFF < c.toNat := by
  rcases c.valid with h | ⟨h, -⟩
  · exact .inl h
  · exact .inr h

theorem isHighSurrogate_toNat (c : Char) : isHighSurrogate c.toNat = false := by
  have hc := toNat_lt_or_lt c
  simp only [isHighSurrogate, Bool.and_eq_false_iff, decide_eq_false_iff_not]
  omega

theorem isLowSurrogate_toNat (c : Char) : isLowSurrogate c.toNat = false := by
  have hc := toNat_lt_or_lt c
  simp only [isLowSurrogate, Bool.and_eq_false_iff, decide_eq_false_iff_not]
  omega

theorem isHighSurrogate_of_isLowSurrogate {n : Nat} (h : isLowSurrogate n = true) :
    isHighSurrogate n = false := by
  simp only [isLowSurrogate, Bool.and_eq_true, decide_eq_true_eq] at h
  simp only [isHighSurrogate, Bool.and_eq_false_iff, decide_eq_false_iff_not]
  omega

theorem not_surrogate_of_escape? {c : Char} {n : Nat} (h : escape? c = some n) :
    isHighSurrogate n = false ∧ isLowSurrogate n = false := by
  simp only [escape?] at h
  split at h <;> cases h <;> decide

theorem joinUnits_cons (done : List Char) {n : Nat} (us : List Nat)
    (hhigh : isHighSurrogate n = false) (hlow : isLowSurrogate n = false) :
    joinUnits done (n :: us) = joinUnits (Char.ofNat n :: done) us := by
  cases us <;> simp [joinUnits, hhigh, hlow]

theorem joinUnits_of_low (done : List Char) {n : Nat} (us : List Nat)
    (hlow : isLowSurrogate n = true) : joinUnits done (n :: us) = none := by
  cases us <;> simp [joinUnits, isHighSurrogate_of_isLowSurrogate hlow, hlow]

theorem joinUnits_of_high (done : List Char) {n : Nat} (hhigh : isHighSurrogate n = true)
    {us : List Nat} (hnext : ∀ m ∈ us.head?, isLowSurrogate m = false) :
    joinUnits done (n :: us) = none := by
  cases us with
  | nil => simp [joinUnits, hhigh]
  | cons m us => simp [joinUnits, hhigh, hnext m rfl]

/-! ## Passing over strings -/

/-- A string without unpaired surrogates is passed over. After a surrogate that opens a pair,
the string goes on with the one that closes it. -/
theorem passString_append {cs : List Char} {us : List Nat} (h : Spells cs us) (rest : List Char) :
    (∀ done, joinUnits done us ≠ none →
      passString false (cs ++ '"' :: rest) = ⟨true, rest⟩) ∧
    ∀ done n, isHighSurrogate n = true → joinUnits done (n :: us) ≠ none →
      passString true (cs ++ '"' :: rest) = ⟨true, rest⟩ := by
  induction h with
  | nil =>
    refine ⟨fun done hjoin => by simp [passString], fun done n hn hjoin => ?_⟩
    exact absurd (joinUnits_of_high done hn (by simp)) hjoin
  | @plain c cs us hquote hslash hcontrol h ih =>
    have hhigh := isHighSurrogate_toNat c
    have hlow := isLowSurrogate_toNat c
    refine ⟨fun done hjoin => ?_, fun done n hn hjoin => ?_⟩
    · rw [joinUnits_cons done us hhigh hlow] at hjoin
      rw [List.cons_append, passString, if_neg Bool.false_ne_true, if_neg hquote, if_neg hslash,
        if_neg (Nat.not_lt.mpr hcontrol), ih.1 _ hjoin]
      all_goals simp_all
    · exact absurd (joinUnits_of_high done hn (by simp [hlow])) hjoin
  | @escape c n cs us hc h ih =>
    obtain ⟨hhigh, hlow⟩ := not_surrogate_of_escape? hc
    refine ⟨fun done hjoin => ?_, fun done m hm hjoin => ?_⟩
    · rw [joinUnits_cons done us hhigh hlow] at hjoin
      rw [List.cons_append, List.cons_append, passString, if_pos (by simp [hc]), ih.1 _ hjoin]
      · rintro a b c d rest rfl
        simp [escape?] at hc
      · rintro rfl
        simp [escape?] at hc
    · exact absurd (joinUnits_of_high done hm (by simp [hlow])) hjoin
  | @hex a b c d n cs us hn h ih =>
    simp only [List.cons_append, passString, hn, if_neg Bool.false_ne_true, if_true]
    refine ⟨fun done hjoin => ?_, fun done m hm hjoin => ?_⟩
    · cases hlow : isLowSurrogate n with
      | true => exact absurd (joinUnits_of_low done us hlow) hjoin
      | false =>
        rw [if_neg Bool.false_ne_true]
        cases hhigh : isHighSurrogate n with
        | true => exact ih.2 done n hhigh hjoin
        | false =>
          rw [joinUnits_cons done us hhigh hlow] at hjoin
          exact ih.1 _ hjoin
    · cases hlow : isLowSurrogate n with
      | true =>
        rw [if_pos rfl]
        rw [joinUnits, if_pos hm, if_pos hlow] at hjoin
        exact ih.1 _ hjoin
      | false => exact absurd (joinUnits_of_high done hm (by simp [hlow])) hjoin

/-! ## Numerals -/

/-- Whether a numeral may go on with `c`. -/
def continuesNumeral (c : Char) : Bool := c.isDigit || c == '.' || c == 'e' || c == 'E'

/-- A numeral may end here. -/
def Stops (rest : List Char) : Prop := ∀ c ∈ rest.head?, continuesNumeral c = false

theorem stops_nil : Stops [] := by
  intro c hc
  cases hc

theorem stops_cons {c : Char} {rest : List Char} (h : continuesNumeral c = false) :
    Stops (c :: rest) := by
  intro d hd
  rw [List.head?_cons, Option.mem_some] at hd
  rwa [← hd]

theorem continuesNumeral_of_isSpace {c : Char} (h : isSpace c = true) :
    continuesNumeral c = false := by
  rcases eq_of_isSpace h with rfl | rfl | rfl | rfl <;> decide

theorem Stops.blank_append {blanks rest : List Char} (hblanks : IsBlank blanks)
    (h : Stops rest) : Stops (blanks ++ rest) := by
  cases blanks with
  | nil => exact h
  | cons c blanks => exact stops_cons (continuesNumeral_of_isSpace (hblanks c List.mem_cons_self))

theorem readDigits_append {digits rest : List Char} (h : isNumeral digits = true)
    (hrest : ∀ c ∈ rest.head?, c.isDigit = false) :
    readDigits (digits ++ rest) = some (digits, rest) := by
  obtain ⟨hne, hdigits⟩ := isNumeral_iff.mp h
  have htake : rest.takeWhile Char.isDigit = [] := by
    cases rest with
    | nil => rfl
    | cons c rest => rw [List.takeWhile_cons, hrest c rfl]; rfl
  have hdrop : rest.dropWhile Char.isDigit = rest := by
    cases rest with
    | nil => rfl
    | cons c rest => rw [List.dropWhile_cons, hrest c rfl]; rfl
  rw [readDigits, List.takeWhile_append_of_pos hdigits, List.dropWhile_append_of_pos hdigits,
    htake, hdrop, List.append_nil]
  split
  · contradiction
  · rfl

theorem readWhole_append {whole rest : List Char} (h : isNumeral whole = true)
    (hzero : whole.head? = some '0' → whole = ['0'])
    (hrest : ∀ c ∈ rest.head?, c.isDigit = false) :
    readWhole (whole ++ rest) = some (whole, rest) := by
  rw [readWhole, readDigits_append h hrest]
  split
  · rename_i heq
    simp only [Option.some.injEq, Prod.mk.injEq] at heq
    have hone := hzero (by rw [heq.1]; rfl)
    rw [hone] at heq
    simp at heq
  · rfl

theorem readFraction_append {fraction cs rest : List Char} (h : WritesFraction fraction cs)
    (hdigit : ∀ c ∈ rest.head?, c.isDigit = false) (hpoint : ∀ c ∈ rest.head?, c ≠ '.') :
    readFraction (cs ++ rest) = some (fraction, rest) := by
  cases h with
  | none =>
    rw [List.nil_append, readFraction]
    rintro tail rfl
    exact hpoint '.' rfl rfl
  | some h => rw [List.cons_append, readFraction, readDigits_append h hdigit]

theorem readPower_append {negative : Bool} {digits rest : List Char}
    (h : isNumeral digits = true) (hrest : ∀ c ∈ rest.head?, c.isDigit = false) :
    readPower negative (digits ++ rest) = some (some (negative, digits), rest) := by
  rw [readPower, readDigits_append h hrest, Option.map_some]

theorem readSignedPower_append {digits rest : List Char} (h : isNumeral digits = true)
    (hrest : ∀ c ∈ rest.head?, c.isDigit = false) :
    readSignedPower (digits ++ rest) = some (some (false, digits), rest) := by
  obtain ⟨hne, hdigits⟩ := isNumeral_iff.mp h
  obtain ⟨c, tail, rfl⟩ := List.exists_cons_of_ne_nil hne
  have hc : c.isDigit = true := hdigits c List.mem_cons_self
  rw [← readPower_append h hrest, List.cons_append, readSignedPower]
  · rintro tail' heq
    exact isDigit_ne hc (by decide) (List.cons_eq_cons.mp heq).1
  · rintro tail' heq
    exact isDigit_ne hc (by decide) (List.cons_eq_cons.mp heq).1

theorem readExponent_append {exponent : Option (Bool × List Char)} {cs rest : List Char}
    (h : WritesExponent exponent cs) (hdigit : ∀ c ∈ rest.head?, c.isDigit = false)
    (hmark : ∀ c ∈ rest.head?, c ≠ 'e' ∧ c ≠ 'E') :
    readExponent (cs ++ rest) = some (exponent, rest) := by
  cases h with
  | none =>
    rw [List.nil_append, readExponent]
    · rintro tail rfl
      exact (hmark 'e' rfl).1 rfl
    · rintro tail rfl
      exact (hmark 'E' rfl).2 rfl
  | bare h hdigits =>
    rcases h with rfl | rfl <;> exact readSignedPower_append hdigits hdigit
  | plus h hdigits =>
    rcases h with rfl | rfl <;> exact readPower_append hdigits hdigit
  | minus h hdigits =>
    rcases h with rfl | rfl <;> exact readPower_append hdigits hdigit

theorem continuesNumeral_eq_false_iff {c : Char} :
    continuesNumeral c = false ↔ c.isDigit = false ∧ c ≠ '.' ∧ c ≠ 'e' ∧ c ≠ 'E' := by
  simp [continuesNumeral, and_assoc]

theorem WritesExponent.head {exponent : Option (Bool × List Char)} {cs rest : List Char}
    (h : WritesExponent exponent cs) (hrest : Stops rest) :
    ∀ c ∈ (cs ++ rest).head?, c.isDigit = false ∧ c ≠ '.' := by
  cases h with
  | none =>
    intro c hc
    obtain ⟨hdigit, hpoint, -, -⟩ := continuesNumeral_eq_false_iff.mp (hrest c hc)
    exact ⟨hdigit, hpoint⟩
  | bare h => rcases h with rfl | rfl <;> simp
  | plus h => rcases h with rfl | rfl <;> simp
  | minus h => rcases h with rfl | rfl <;> simp

theorem WritesFraction.head {fraction cs rest : List Char} (h : WritesFraction fraction cs)
    (hrest : ∀ c ∈ rest.head?, c.isDigit = false) :
    ∀ c ∈ (cs ++ rest).head?, c.isDigit = false := by
  cases h with
  | none => exact hrest
  | some h => simp

theorem readUnsigned_append {n : Numeral} {fraction exponent rest : List Char}
    (hwhole : isNumeral n.whole = true) (hzero : n.whole.head? = some '0' → n.whole = ['0'])
    (hfraction : WritesFraction n.fraction fraction)
    (hexponent : WritesExponent n.exponent exponent) (hrest : Stops rest) :
    readUnsigned n.negative (n.whole ++ (fraction ++ (exponent ++ rest))) = some (n, rest) := by
  have hhead := hexponent.head hrest
  have hstop := fun c hc => continuesNumeral_eq_false_iff.mp (hrest c hc)
  rw [readUnsigned, readWhole_append hwhole hzero (hfraction.head fun c hc => (hhead c hc).1)]
  simp only [Option.bind_eq_bind, Option.bind_some]
  rw [readFraction_append hfraction (fun c hc => (hhead c hc).1) (fun c hc => (hhead c hc).2)]
  simp only [Option.bind_some]
  rw [readExponent_append hexponent (fun c hc => (hstop c hc).1) (fun c hc => (hstop c hc).2.2)]
  rfl

/-- A numeral is read to its end. -/
theorem readNumeral_append {n : Numeral} {cs rest : List Char} (h : WritesNumeral n cs)
    (hrest : Stops rest) : readNumeral (cs ++ rest) = some (n, rest) := by
  obtain ⟨fraction, exponent, hfraction, hexponent, rfl⟩ := h.text
  have hunsigned := readUnsigned_append h.whole h.whole_eq_zero hfraction hexponent hrest
  obtain ⟨hne, hdigits⟩ := isNumeral_iff.mp h.whole
  obtain ⟨c, tail, hwhole⟩ := List.exists_cons_of_ne_nil hne
  have hc : c.isDigit = true := hdigits c (by simp [hwhole])
  cases hnegative : n.negative with
  | true =>
    rw [hnegative] at hunsigned
    simpa [signChars, readNumeral] using hunsigned
  | false =>
    rw [hnegative] at hunsigned
    rw [← hunsigned, hwhole]
    simp only [signChars, Bool.false_eq_true, if_false, List.nil_append, List.cons_append,
      List.append_assoc]
    rw [readNumeral]
    rintro tail' heq
    exact isDigit_ne hc (by decide) (List.cons_eq_cons.mp heq).1

theorem passNumeral_append {n : Numeral} {cs : List Char} (h : WritesNumeral n cs)
    (hrest : Stops rest) (hlarge : n.magnitude ≠ .tooLarge) :
    passNumeral (cs ++ rest) = ⟨true, rest⟩ := by
  unfold passNumeral
  rw [readNumeral_append h hrest]
  cases hn : n.magnitude with
  | tooLarge => exact absurd hn hlarge
  | integer k => simp only [hn]
  | float x => simp only [hn]

end Discussion.Json
