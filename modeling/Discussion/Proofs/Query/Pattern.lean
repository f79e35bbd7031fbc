import Discussion.Reference.Query
import Mathlib.Data.List.TakeWhile
import Mathlib.Tactic.ByContra

/-!
# Pairs of a query string by pattern

A pair is a key, an `=` and a value. The key has at least one character and none of `&`,
`=` and `?`; the value has no `&`. The pairs of a query string are those that a search
finds which takes, each time, the pair that begins first in what is left of the string,
with the longest key and the longest value. Reading from left to right does the same
without looking for a place to begin.
-/

namespace Discussion.Query

/-- A pair occurs in a text, after what is skipped and before the rest. -/
structure Occurs (cs skipped key value rest : List Char) : Prop where
  text : cs = skipped ++ (key ++ '=' :: (value ++ rest))
  key_ne_nil : key ≠ []
  isKeyChar : ∀ c ∈ key, isKeyChar c = true
  ne_amp : ∀ c ∈ value, c ≠ '&'

/-- No pair begins before this one, and none that begins with it reaches further. -/
structure IsFirst (cs skipped key value rest : List Char) : Prop
    extends Occurs cs skipped key value rest where
  leftmost : ∀ s k v r, Occurs cs s k v r → skipped.length ≤ s.length
  longest : ∀ k v r, Occurs cs skipped k v r →
    k.length ≤ key.length ∧ v.length ≤ value.length

/-- The pairs that a search finds in a text, one after the other. -/
inductive Finds : List Char → List (List Char × List Char) → Prop
  | nothing {cs : List Char} (h : ∀ s k v r, ¬ Occurs cs s k v r) : Finds cs []
  | pair {cs skipped key value rest : List Char} {ps : List (List Char × List Char)}
    (h : IsFirst cs skipped key value rest) (hrest : Finds rest ps) :
    Finds cs ((key, value) :: ps)

variable {cs pre skipped key value rest : List Char} {ps : List (List Char × List Char)}

/-! ## Occurrences -/

/-- Where a run of key characters ends is settled by the text. -/
theorem eq_of_append_cons_eq {a b x y : List Char} {c d : Char}
    (ha : ∀ e ∈ a, isKeyChar e = true) (hc : isKeyChar c = false)
    (hb : ∀ e ∈ b, isKeyChar e = true) (hd : isKeyChar d = false)
    (h : a ++ c :: x = b ++ d :: y) : a = b ∧ c = d ∧ x = y := by
  have hrun := congrArg (List.takeWhile isKeyChar) h
  rw [List.takeWhile_append_of_pos ha, List.takeWhile_append_of_pos hb] at hrun
  simp only [List.takeWhile_cons, hc, hd, Bool.false_eq_true, if_false, List.append_nil] at hrun
  subst hrun
  obtain ⟨hcd, hxy⟩ := List.cons_eq_cons.mp (List.append_cancel_left h)
  exact ⟨rfl, hcd, hxy⟩

theorem Occurs.append (h : Occurs cs skipped key value rest) :
    Occurs (pre ++ cs) (pre ++ skipped) key value rest where
  text := by rw [h.text, List.append_assoc]
  key_ne_nil := h.key_ne_nil
  isKeyChar := h.isKeyChar
  ne_amp := h.ne_amp

/-- A pair that begins after `pre` is a pair of what follows `pre`. -/
theorem Occurs.exists_of_append (h : Occurs (pre ++ cs) skipped key value rest)
    (hpre : pre.length ≤ skipped.length) :
    ∃ s, skipped = pre ++ s ∧ Occurs cs s key value rest := by
  have hskipped : skipped <+: pre ++ cs := ⟨_, h.text.symm⟩
  obtain ⟨s, rfl⟩ := List.prefix_of_prefix_length_le (List.prefix_append pre cs) hskipped hpre
  refine ⟨s, rfl, ?_, h.key_ne_nil, h.isKeyChar, h.ne_amp⟩
  have htext := h.text
  rw [List.append_assoc] at htext
  exact List.append_cancel_left htext

/-- A run of key characters that no `=` follows is no beginning of a pair. -/
theorem length_lt_of_occurs {run : List Char} {c : Char} (hrun : ∀ e ∈ run, isKeyChar e = true)
    (hc : isKeyChar c = false) (hopen : ¬ (c = '=' ∧ run ≠ []))
    (h : Occurs (run ++ c :: cs) skipped key value rest) : run.length < skipped.length := by
  by_contra hlength
  have hskipped : skipped <+: run ++ c :: cs := ⟨_, h.text.symm⟩
  obtain ⟨tail, rfl⟩ := List.prefix_of_prefix_length_le hskipped
    (List.prefix_append run (c :: cs)) (Nat.le_of_not_lt hlength)
  have htext := h.text
  rw [List.append_assoc] at htext
  have htail : ∀ e ∈ tail, Query.isKeyChar e = true :=
    fun e he => hrun e (List.mem_append_right _ he)
  obtain ⟨rfl, rfl, -⟩ := eq_of_append_cons_eq htail hc h.isKeyChar (by decide)
    (List.append_cancel_left htext)
  exact hopen ⟨rfl, List.append_ne_nil_of_right_ne_nil _ h.key_ne_nil⟩

/-- What no pair begins in can be left out in front. -/
theorem Finds.append (h : Finds cs ps)
    (hpre : ∀ s k v r, Occurs (pre ++ cs) s k v r → pre.length ≤ s.length) :
    Finds (pre ++ cs) ps := by
  cases h with
  | nothing hnone =>
    refine .nothing fun s k v r hs => ?_
    obtain ⟨s', -, hs'⟩ := hs.exists_of_append (hpre s k v r hs)
    exact hnone s' k v r hs'
  | @pair _ skipped key value rest ps hfirst hrest =>
    suffices hfirst' : IsFirst (pre ++ cs) (pre ++ skipped) key value rest from
      .pair hfirst' hrest
    refine ⟨hfirst.toOccurs.append, ?_, ?_⟩
    · intro s k v r hs
      obtain ⟨s', rfl, hs'⟩ := hs.exists_of_append (hpre s k v r hs)
      have hleft := hfirst.leftmost s' k v r hs'
      rw [List.length_append, List.length_append]
      omega
    · intro k v r hs
      obtain ⟨s', hskipped, hs'⟩ := hs.exists_of_append (hpre _ k v r hs)
      obtain rfl := List.append_cancel_left hskipped
      exact hfirst.longest k v r hs'

/-! ## Reading from left to right -/

/-- A key that an `=` follows begins the first pair. -/
theorem isFirst_of_run {run : List Char} (hne : run ≠ [])
    (hrun : ∀ e ∈ run, isKeyChar e = true) (rest : List Char) :
    IsFirst (run ++ '=' :: rest) [] run (rest.takeWhile (· != '&'))
      (rest.dropWhile (· != '&')) where
  text := by rw [List.takeWhile_append_dropWhile, List.nil_append]
  key_ne_nil := hne
  isKeyChar := hrun
  ne_amp c hc := by simpa using List.mem_takeWhile_imp hc
  leftmost s _ _ _ _ := Nat.zero_le s.length
  longest k v r hs := by
    obtain ⟨rfl, -, rfl⟩ := eq_of_append_cons_eq hrun (by decide) hs.isKeyChar (by decide) hs.text
    have hv : ∀ c ∈ v, (c != '&') = true := fun c hc => by simpa using hs.ne_amp c hc
    rw [List.takeWhile_append_of_pos hv, List.length_append]
    exact ⟨Nat.le_refl _, Nat.le_add_right _ _⟩

theorem finds_pairsFrom (key cs : List Char) (hkey : ∀ c ∈ key, isKeyChar c = true) :
    Finds (key.reverse ++ cs) (pairsFrom key cs) := by
  have hreverse : ∀ c ∈ key.reverse, isKeyChar c = true :=
    fun c hc => hkey c (List.mem_reverse.mp hc)
  fun_induction pairsFrom key cs with
  | case1 key =>
    refine .nothing fun s k v r hs => ?_
    have hmem : '=' ∈ key.reverse := by
      rw [← List.append_nil key.reverse, hs.text]
      simp
    exact absurd (hreverse '=' hmem) (by decide)
  | case2 key c rest hc ih =>
    have hcons : ∀ d ∈ c :: key, isKeyChar d = true := List.forall_mem_cons.mpr ⟨hc, hkey⟩
    have hrest := ih hcons fun d hd => hcons d (List.mem_reverse.mp hd)
    rwa [List.reverse_cons, List.append_assoc] at hrest
  | case3 key c rest hc hopen ih =>
    obtain ⟨rfl, hne⟩ := hopen
    exact .pair (isFirst_of_run (by simpa using hne) hreverse rest) (ih (by simp) (by simp))
  | case4 key c rest hc hopen ih =>
    have hrest : Finds rest (pairsFrom [] rest) := ih (by simp) (by simp)
    have htext : key.reverse ++ c :: rest = (key.reverse ++ [c]) ++ rest := by simp
    rw [htext]
    apply hrest.append
    intro s k v r hs
    rw [← htext] at hs
    rw [List.length_append]
    exact length_lt_of_occurs hreverse (by simpa using hc) (by simpa using hopen) hs

/-- Reading from left to right finds the pairs that a search finds. -/
theorem finds_pairs (query : String) : Finds query.toList (pairs query) :=
  finds_pairsFrom [] query.toList (by simp)

end Discussion.Query
