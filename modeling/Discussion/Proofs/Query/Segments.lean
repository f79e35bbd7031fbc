import Discussion.Proofs.Query.Pattern
import Mathlib.Data.List.DropRight

/-!
# Pairs of a query string by segments

A query string is made of segments with `&` between them. A segment has a pair if it has
an `=` with a character right before it that is neither `=` nor `?`. The first such `=`
ends the key, which begins after the last `=` or `?` before it, and all that follows the
`=` is the value. The post to fold on is read off the first segment whose pair asks for
one.
-/

namespace Discussion.Query

variable {c : Char} {segment rest tail done key : List Char} {n : PostNumber}

/-- The segments of a query string, left to right. -/
def segments (query : String) : List (List Char) := query.toList.splitOn '&'

/-- Whether `c` is neither `=` nor `?`. -/
def isPlain (c : Char) : Bool := c != '=' && c != '?'

/-- Whether an `=` stands at place `i` of a segment, with a plain character right before
it. An `=` that comes after a `?` or another `=` would have an empty key. -/
def opensAt (segment : List Char) (i : Nat) : Bool :=
  segment[i]? == some '=' && (segment.take i).getLast?.any isPlain

/-- The key and the value of a segment: the plain characters right before the first `=`
that opens a value, and all that follows it. -/
def segmentPair? (segment : List Char) : Option (List Char × List Char) :=
  ((List.range segment.length).find? (opensAt segment)).map fun i =>
    ((segment.take i).rtakeWhile isPlain, segment.drop (i + 1))

/-- A segment asks for the post `n`: its key says `pivot`, and its value says `n`. -/
def AsksFor (segment : List Char) (n : PostNumber) : Prop :=
  ∃ key value, segmentPair? segment = some (key, value) ∧
    Text.percentDecode? key = some "pivot" ∧
    ∃ text, Text.percentDecode? value = some text ∧ PostNumber.parse text = .ok n

/-! ## One segment -/

/-- The pair of a segment, read from left to right. `key` holds the plain characters just
read, last one first. -/
def readSegment (key : List Char) : List Char → Option (List Char × List Char)
  | [] => none
  | c :: rest =>
    if isPlain c then readSegment (c :: key) rest
    else if c = '=' ∧ key ≠ [] then some (key.reverse, rest)
    else readSegment [] rest

theorem opensAt_length (done rest : List Char) (c : Char) :
    opensAt (done ++ c :: rest) done.length = (c == '=' && done.getLast?.any isPlain) := by
  simp [opensAt]

theorem rtakeWhile_ne_nil_iff (done : List Char) :
    done.rtakeWhile isPlain ≠ [] ↔ done.getLast?.any isPlain = true := by
  induction done using List.reverseRecOn with
  | nil => simp
  | append_singleton done c =>
    rw [List.rtakeWhile_concat, List.getLast?_concat]
    by_cases hc : isPlain c = true <;> simp [hc]

theorem segmentPair?_append (hdone : ∀ i < done.length, opensAt (done ++ '=' :: rest) i = false)
    (hplain : done.getLast?.any isPlain = true) :
    segmentPair? (done ++ '=' :: rest) = some (done.rtakeWhile isPlain, rest) := by
  have hfind : (List.range (done ++ '=' :: rest).length).find? (opensAt (done ++ '=' :: rest)) =
      some done.length := by
    rw [List.find?_range_eq_some, opensAt_length]
    refine ⟨by simpa using hplain, by simp, ?_⟩
    simpa using hdone
  rw [segmentPair?, hfind]
  simp

/-- Reading goes on with the plain characters at the end of what has been read. -/
theorem readSegment_eq (hdone : ∀ i < done.length, opensAt (done ++ rest) i = false) :
    readSegment (done.rtakeWhile isPlain).reverse rest = segmentPair? (done ++ rest) := by
  induction rest generalizing done with
  | nil =>
    rw [List.append_nil] at hdone ⊢
    have hnone : (List.range done.length).find? (opensAt done) = none := by
      simpa using hdone
    rw [readSegment, segmentPair?, hnone, Option.map_none]
  | cons c rest ih =>
    have hcons : done ++ c :: rest = (done ++ [c]) ++ rest := by simp
    by_cases hopen : opensAt (done ++ c :: rest) done.length = true
    · rw [opensAt_length, Bool.and_eq_true, beq_iff_eq] at hopen
      obtain ⟨rfl, hplain⟩ := hopen
      have hne := (rtakeWhile_ne_nil_iff done).mpr hplain
      rw [segmentPair?_append hdone hplain, readSegment, if_neg (by decide),
        if_pos ⟨rfl, by simpa using hne⟩, List.reverse_reverse]
    · have hnext : ∀ i < (done ++ [c]).length, opensAt ((done ++ [c]) ++ rest) i = false := by
        intro i hi
        rw [← hcons]
        rw [List.length_append, List.length_singleton] at hi
        rcases Nat.lt_succ_iff_lt_or_eq.mp hi with hi | rfl
        · exact hdone i hi
        · simpa using hopen
      have hrest := ih hnext
      rw [List.rtakeWhile_concat] at hrest
      rw [hcons, ← hrest, readSegment]
      by_cases hc : isPlain c = true
      · rw [if_pos hc, if_pos hc, List.reverse_append]
        rfl
      · rw [if_neg hc, if_neg hc, if_neg]
        · rfl
        · rintro ⟨rfl, hne⟩
          rw [opensAt_length] at hopen
          have hplain := (rtakeWhile_ne_nil_iff done).mp (by simpa using hne)
          simp [hplain] at hopen

theorem readSegment_nil (segment : List Char) : readSegment [] segment = segmentPair? segment :=
  @readSegment_eq segment [] (by simp)

/-- What stands right before the first `=` is no key, so the second one ends the key. -/
example : segmentPair? "a?=pivot=3".toList = some ("pivot".toList, "3".toList) := by decide

/-! ## All segments -/

theorem isKeyChar_eq (hc : c ≠ '&') : isKeyChar c = isPlain c := by
  rw [isKeyChar, isPlain, bne_iff_ne.mpr hc, Bool.true_and]

/-- Up to the end of a segment, the pairs are its own. Then a new key begins. -/
theorem pairsFrom_append (key : List Char) (hsegment : '&' ∉ segment)
    (htail : ∀ c ∈ tail.head?, c = '&') :
    pairsFrom key (segment ++ tail) =
      (readSegment key segment).toList ++ pairsFrom [] tail := by
  induction segment generalizing key with
  | nil =>
    cases tail with
    | nil => rw [List.append_nil, pairsFrom, pairsFrom, readSegment, Option.toList_none]; rfl
    | cons c tail =>
      obtain rfl := htail c rfl
      simp [pairsFrom, readSegment, isKeyChar]
  | cons c segment ih =>
    rw [List.mem_cons, not_or] at hsegment
    have hvalue : ∀ d ∈ segment, (d != '&') = true :=
      fun d hd => bne_iff_ne.mpr (ne_of_mem_of_not_mem hd hsegment.2)
    have htake : tail.takeWhile (· != '&') = [] ∧ tail.dropWhile (· != '&') = tail := by
      cases tail with
      | nil => exact ⟨rfl, rfl⟩
      | cons d tail =>
        obtain rfl := htail d rfl
        exact ⟨rfl, rfl⟩
    rw [List.cons_append, pairsFrom, readSegment, isKeyChar_eq (Ne.symm hsegment.1)]
    split
    · exact ih _ hsegment.2
    · split
      · rw [List.takeWhile_append_of_pos hvalue, List.dropWhile_append_of_pos hvalue, htake.1,
          htake.2, List.append_nil]
        rfl
      · exact ih _ hsegment.2

/-- The pairs of a query string are those of its segments. -/
theorem pairsFrom_eq_filterMap (cs : List Char) :
    pairsFrom [] cs = (cs.splitOn '&').filterMap segmentPair? := by
  by_cases hamp : '&' ∈ cs
  · obtain ⟨segment, rest, hcs, hsegment⟩ := List.eq_append_cons_of_mem hamp
    have hshort : rest.length < cs.length := by
      rw [hcs, List.length_append, List.length_cons]
      omega
    have hsplit : cs.splitOn '&' = segment :: rest.splitOn '&' := by
      rw [hcs, List.splitOn]
      exact List.splitOnP_append_cons_of_forall_mem
        (fun d hd => beq_eq_false_iff_ne.mpr (ne_of_mem_of_not_mem hd hsegment)) '&' rfl rest
    have hrest : pairsFrom [] ('&' :: rest) = pairsFrom [] rest := by
      simp [pairsFrom, isKeyChar]
    have htail : ∀ c ∈ ('&' :: rest).head?, c = '&' := by simp
    have hpairs := pairsFrom_append [] hsegment htail
    rw [hrest, readSegment_nil, pairsFrom_eq_filterMap rest] at hpairs
    rw [hsplit, hcs, hpairs, List.filterMap_eq_flatMap_toList, List.filterMap_eq_flatMap_toList,
      List.flatMap_cons]
  · have hsplit : cs.splitOn '&' = [cs] :=
      List.splitOnP_eq_singleton fun d hd =>
        beq_eq_false_iff_ne.mpr (ne_of_mem_of_not_mem hd hamp)
    have htail : ∀ c ∈ ([] : List Char).head?, c = '&' := by simp
    have hpairs := pairsFrom_append [] hamp htail
    rw [List.append_nil, readSegment_nil, pairsFrom, List.append_nil] at hpairs
    rw [hsplit, hpairs, List.filterMap_eq_flatMap_toList, List.flatMap_singleton]
termination_by cs.length

/-! ## The post that is asked for -/

theorem toOption_eq_some_iff {ε α : Type} {x : Except ε α} {a : α} :
    x.toOption = some a ↔ x = .ok a := by
  cases x <;> simp [Except.toOption]

theorem pairPivot?_eq_some_iff {pair : List Char × List Char} :
    pairPivot? pair = some n ↔ Text.percentDecode? pair.1 = some "pivot" ∧
      ∃ text, Text.percentDecode? pair.2 = some text ∧ PostNumber.parse text = .ok n := by
  rw [pairPivot?, Option.bind_eq_bind, Option.bind_eq_some_iff]
  constructor
  · rintro ⟨word, hword, hpivot⟩
    split at hpivot
    · rename_i heq
      rw [Option.bind_eq_some_iff] at hpivot
      obtain ⟨text, htext, hn⟩ := hpivot
      exact ⟨heq ▸ hword, text, htext, toOption_eq_some_iff.mp hn⟩
    · cases hpivot
  · rintro ⟨hword, text, htext, hn⟩
    refine ⟨"pivot", hword, ?_⟩
    rw [if_pos rfl, Option.bind_eq_some_iff]
    exact ⟨text, htext, toOption_eq_some_iff.mpr hn⟩

theorem asksFor_iff : AsksFor segment n ↔ (segmentPair? segment).bind pairPivot? = some n := by
  rw [Option.bind_eq_some_iff, AsksFor]
  simp only [Prod.exists, pairPivot?_eq_some_iff]

theorem bind_eq_none_iff :
    (segmentPair? segment).bind pairPivot? = none ↔ ∀ n, ¬ AsksFor segment n := by
  rw [Option.eq_none_iff_forall_ne_some]
  simp only [asksFor_iff, ne_eq]

theorem pivot?_eq_findSome? (query : String) :
    pivot? query = (segments query).findSome? fun s => (segmentPair? s).bind pairPivot? := by
  rw [pivot?, pairs, pairsFrom_eq_filterMap, segments]
  induction query.toList.splitOn '&' with
  | nil => rfl
  | cons s rest ih =>
    rw [List.findSome?_cons, ← ih, List.filterMap_cons]
    cases segmentPair? s with
    | none => rfl
    | some pair => rw [List.findSome?_cons]; rfl

/-- The post to fold on is the one that the first segment asks for of all segments that ask for
a post. -/
theorem pivot?_eq_some_iff {query : String} : pivot? query = some n ↔
    ∃ before segment after, segments query = before ++ segment :: after ∧ AsksFor segment n ∧
      ∀ s ∈ before, ∀ m, ¬ AsksFor s m := by
  rw [pivot?_eq_findSome?]
  simp only [List.findSome?_eq_some_iff, asksFor_iff, bind_eq_none_iff]

/-- How a query string is read, whatever it is. The pairs that are read from left to right
are those that a search for the first and longest pair finds, time after time. The post to
fold on is the one that the first segment asks for of all segments that ask for a post, and
there is none if no segment does. -/
theorem pivot?_of_segments (query : String) :
    Finds query.toList (pairs query) ∧
    (∀ n, pivot? query = some n ↔ ∃ before segment after,
      segments query = before ++ segment :: after ∧ AsksFor segment n ∧
        ∀ s ∈ before, ∀ m, ¬ AsksFor s m) ∧
    (pivot? query = none ↔ ∀ s ∈ segments query, ∀ m, ¬ AsksFor s m) := by
  refine ⟨finds_pairs query, fun n => pivot?_eq_some_iff, ?_⟩
  rw [pivot?_eq_findSome?]
  simp only [List.findSome?_eq_none_iff, bind_eq_none_iff]

/-- A `?` before the first `=` leaves a segment without a pair, a zero is no post, and the
third segment asks for a post under an encoded key before the fourth does. -/
theorem pivot?_of_segments_encoded :
    pivot? "?a?=b&=pivot=0&%70ivot=%33&pivot=4" = some ⟨3, by decide, by decide⟩ := by
  have hnone : ∀ s ∈ ["?a?=b".toList, "=pivot=0".toList], ∀ m, ¬ AsksFor s m := by
    intro s hs
    rw [← bind_eq_none_iff]
    simp only [List.mem_cons, List.not_mem_nil, or_false] at hs
    rcases hs with rfl | rfl
    · decide
    · decide
  obtain ⟨-, hsome, -⟩ := pivot?_of_segments "?a?=b&=pivot=0&%70ivot=%33&pivot=4"
  exact (hsome _).mpr ⟨["?a?=b".toList, "=pivot=0".toList], "%70ivot=%33".toList,
    ["pivot=4".toList], by decide,
    ⟨"%70ivot".toList, "%33".toList, by decide, by decide, "3", by decide, by decide⟩, hnone⟩

end Discussion.Query
