import Discussion.Proofs.Query.Segments
import Discussion.Proofs.Reference.Numeral
import Discussion.Session.Replay

/-!
# Folding at load

A pivot that is given at load names at most one post. It may be a query string that asks for a
post, or the number of a post by itself. A view folds around the post if it has the post and is
the page of a thread. In every other case the pivot changes nothing.
-/

namespace Discussion.Session

open Query (AsksFor segments)

variable {v w : View} {pivot : String} {n : PostNumber}

/-- A pivot names a post. With an `=` in it, it is a query string, and its first segment that asks
for a post says which. Without one it is the number of the post. -/
inductive Names : String → PostNumber → Prop
  | query {pivot : String} {n : PostNumber} {before after : List (List Char)} {segment : List Char}
    (hquery : '=' ∈ pivot.toList) (hsegments : segments pivot = before ++ segment :: after)
    (hasks : AsksFor segment n) (hfirst : ∀ s ∈ before, ∀ m, ¬ AsksFor s m) : Names pivot n
  | number {pivot : String} {n : PostNumber} (hquery : '=' ∉ pivot.toList)
    (hdenotes : Denotes (Text.trimBlanks pivot.toList) n.value) : Names pivot n

/-- What a view comes to when it is loaded with a pivot, or with none. -/
inductive FoldsAtLoad (v : View) : Option String → View → Prop
  | fold {pivot : String} {n : PostNumber} (hpage : v.page = .thread) (hnames : Names pivot n)
    (hpost : v.thread.contains n = true) : FoldsAtLoad v (some pivot) (v.foldAround n).1
  | stay {pivot : Option String}
    (h : ∀ text n, pivot = some text → Names text n →
      v.page = .query ∨ v.thread.contains n = false) : FoldsAtLoad v pivot v

/-- The post that a pivot names, as it is looked up. -/
def named? (pivot : String) : Option PostNumber :=
  if '=' ∈ pivot.toList then Query.pivot? pivot else (PostNumber.parse pivot).toOption

theorem names_iff : Names pivot n ↔ named? pivot = some n := by
  rw [named?]
  constructor
  · intro h
    cases h with
    | query hquery hsegments hasks hfirst =>
      rw [if_pos hquery]
      exact Query.pivot?_eq_some_iff.mpr ⟨_, _, _, hsegments, hasks, hfirst⟩
    | number hquery hdenotes =>
      rw [if_neg hquery]
      exact Query.toOption_eq_some_iff.mpr (PostNumber.parse_eq_ok_iff.mpr hdenotes)
  · intro h
    by_cases hquery : '=' ∈ pivot.toList
    · rw [if_pos hquery] at h
      obtain ⟨_, _, _, hsegments, hasks, hfirst⟩ := Query.pivot?_eq_some_iff.mp h
      exact .query hquery hsegments hasks hfirst
    · rw [if_neg hquery] at h
      exact .number hquery (PostNumber.parse_eq_ok_iff.mp (Query.toOption_eq_some_iff.mp h))

theorem foldAtLoad_fst (v : View) (pivot : String) :
    (v.foldAtLoad pivot).1 = (named? pivot).elim v fun n => (v.foldOn n).1 := by
  rw [View.foldAtLoad, named?]
  by_cases hquery : '=' ∈ pivot.toList
  · rw [if_pos hquery, if_pos hquery, View.foldFromQuery]
    cases Query.pivot? pivot <;> rfl
  · rw [if_neg hquery, if_neg hquery]
    cases PostNumber.parse pivot <;> rfl

theorem foldOn_fst_of_page (h : v.page = .thread) (n : PostNumber) :
    (v.foldOn n).1 = (v.foldAround n).1 := by
  rw [View.foldOn, h]

/-- On the page of a query, and on a post that is missing, there is no fold. -/
theorem foldOn_fst_eq_self (h : v.page = .query ∨ v.thread.contains n = false) :
    (v.foldOn n).1 = v := by
  rw [View.foldOn]
  cases hpage : v.page with
  | query => rfl
  | thread =>
    have hpost : v.thread.contains n = false := h.resolve_left (by simp [hpage])
    simp [View.foldAround, hpost]

/-- A view is folded at load as its pivot says. -/
theorem foldsAtLoad_some_iff : FoldsAtLoad v (some pivot) w ↔ w = (v.foldAtLoad pivot).1 := by
  rw [foldAtLoad_fst]
  constructor
  · intro h
    cases h with
    | fold hpage hnames hpost =>
      rw [names_iff.mp hnames]
      exact (foldOn_fst_of_page hpage _).symm
    | stay h =>
      cases hnamed : named? pivot with
      | none => rfl
      | some n => exact (foldOn_fst_eq_self (h _ _ rfl (names_iff.mpr hnamed))).symm
  · rintro rfl
    cases hnamed : named? pivot with
    | none =>
      refine .stay fun text n htext hnames => ?_
      obtain rfl := Option.some.inj htext
      rw [names_iff, hnamed] at hnames
      cases hnames
    | some n =>
      by_cases hfold : v.page = .thread ∧ v.thread.contains n = true
      · rw [Option.elim_some, foldOn_fst_of_page hfold.1]
        exact .fold hfold.1 (names_iff.mpr hnamed) hfold.2
      · have hstay : v.page = .query ∨ v.thread.contains n = false := by
          cases hpage : v.page with
          | query => exact .inl rfl
          | thread => exact .inr (Bool.not_eq_true _ ▸ fun hpost => hfold ⟨hpage, hpost⟩)
        rw [Option.elim_some, foldOn_fst_eq_self hstay]
        refine .stay fun text m htext hnames => ?_
        obtain rfl := Option.some.inj htext
        rw [names_iff, hnamed] at hnames
        rwa [← Option.some.inj hnames]

theorem foldsAtLoad_none_iff : FoldsAtLoad v none w ↔ w = v := by
  constructor
  · intro h
    cases h
    rfl
  · rintro rfl
    exact .stay nofun

theorem exists_foldsAtLoad (v : View) (pivot : Option String) : ∃ w, FoldsAtLoad v pivot w := by
  cases pivot with
  | none => exact ⟨v, foldsAtLoad_none_iff.mpr rfl⟩
  | some pivot => exact ⟨_, foldsAtLoad_some_iff.mpr rfl⟩

end Discussion.Session
