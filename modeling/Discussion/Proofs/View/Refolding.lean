import Discussion.Proofs.View.Marks

/-!
# Folding anew

A fold goes over all rows and asks nothing of them, so it keeps exactly the
conversation of its pivot whatever was folded before. Unfolding brings all views
together that differ in folds and marks only, and a fold is the same on all of them.
-/

namespace Discussion

open Relation (TransGen)

namespace Thread

variable {t : Thread} {p n : PostNumber}

/-- `n` is `p`, or targets lead from one of the two to the other. -/
def Related (t : Thread) (p n : PostNumber) : Prop :=
  n = p ∨ TransGen t.Replies p n ∨ TransGen t.Replies n p

theorem Indexed.mem_conversation_iff_related (h : t.Indexed) (hp : p ∈ t.numbers) :
    n ∈ t.conversation p ↔ t.Related p n := by
  rw [h.mem_conversation_iff hp, Relation.reflTransGen_iff_eq_or_transGen,
    Relation.reflTransGen_iff_eq_or_transGen, Related, eq_comm (a := p)]
  tauto

/-- A post that replies to nothing and has no replies is related to itself alone. -/
theorem Indexed.eq_of_related (h : t.Indexed) (hp : t.target? p = none)
    (hreplies : ∀ k ∈ t.numbers, t.target? k ≠ some p) (hn : t.Related p n) : n = p := by
  rcases hn with rfl | hpath | hpath
  · rfl
  · obtain ⟨k, hk, -⟩ := TransGen.head'_iff.mp hpath
    have hk : t.target? p = some k := hk
    simp [hp] at hk
  · obtain ⟨k, -, hk⟩ := TransGen.tail'_iff.mp hpath
    exact absurd hk (hreplies k (h.mem_of_target? hk))

end Thread

/-- The row of `n` as a fold on `p` leaves it: only its place has changed. -/
structure Row.FoldedFrom (t : Thread) (p n : PostNumber) (old row : Row) : Prop where
  rest : row = { old with mark := row.mark, hidden := row.hidden }
  visible : row.hidden = false ↔ t.Related p n
  kept : row.mark.kept = true ↔ t.Related p n
  pivot : row.mark.pivot = true ↔ n = p

namespace View

variable {u v w : View} {p q n : PostNumber}

/-- The view `w` is `v` folded on `p`: only the fold and the places of the rows have
changed. -/
structure FoldedFrom (v : View) (p : PostNumber) (w : View) : Prop where
  fold : w.fold = some p
  rest : w = { v with rows := w.rows, fold := w.fold }
  keys : w.rows.keys = v.thread.numbers
  rows : ∀ n ∈ v.thread.numbers, ∃ old row, v.row? n = some old ∧ w.row? n = some row ∧
    Row.FoldedFrom v.thread p n old row

/-- The view `w` is `v` without a fold: every row is visible and without marks. -/
structure UnfoldedFrom (v w : View) : Prop where
  fold : w.fold = none
  rest : w = { v with rows := w.rows, fold := w.fold }
  keys : w.rows.keys = v.thread.numbers
  rows : ∀ n ∈ v.thread.numbers, ∃ old, v.row? n = some old ∧
    w.row? n = some { old with mark := {}, hidden := false }

theorem foldedFrom_foldAround (h : v.Aligned) (hp : p ∈ v.thread.numbers) :
    v.FoldedFrom p (v.foldAround p).1 := by
  have hcontains := h.indexed.contains_iff.mpr hp
  refine ⟨fold_foldAround hcontains, ?_, ?_, ?_⟩
  · rw [foldAround, if_pos hcontains]
    rfl
  · rw [(h.foldAround p).keys, thread_foldAround]
  · intro n hn
    obtain ⟨old, hold⟩ := h.exists_row hn
    have hmem := h.indexed.mem_conversation_iff_related (n := n) hp
    refine ⟨old, { old with
      mark := ⟨n ∈ v.thread.conversation p, n = p⟩
      hidden := n ∉ v.thread.conversation p }, hold, ?_, ?_⟩
    · have hrow : v.rows.get? n = some old := hold
      rw [foldAround, if_pos hcontains, row?]
      simp [mapRows, hrow]
    · constructor
      · rfl
      · simp [hmem]
      · simp [hmem]
      · simp

theorem unfoldedFrom_unfold (h : v.Aligned) : v.UnfoldedFrom v.unfold where
  fold := rfl
  rest := rfl
  keys := h.unfold.keys
  rows n hn := by
    obtain ⟨old, hold⟩ := h.exists_row hn
    have hrow : v.rows.get? n = some old := hold
    refine ⟨old, hold, ?_⟩
    rw [row?, unfold]
    simp [mapRows, hrow]

theorem unfold_unfold (v : View) : v.unfold.unfold = v.unfold := by
  simp only [unfold, mapRows, PostMap.map_map]

theorem unfold_fst_foldAround (v : View) (q : PostNumber) :
    (v.foldAround q).1.unfold = v.unfold := by
  rw [foldAround]
  split
  · simp only [unfold, mapRows, PostMap.map_map]
  · rfl

theorem thread_page_congr (h : u.unfold = v.unfold) : u.thread = v.thread ∧ u.page = v.page := by
  have hthread : u.unfold.thread = v.unfold.thread := congrArg View.thread h
  have hpage : u.unfold.page = v.unfold.page := congrArg View.page h
  exact ⟨hthread, hpage⟩

/-- Views that unfold alike fold alike. -/
theorem foldAround_congr (h : u.unfold = v.unfold) (hp : v.thread.contains p = true) :
    u.foldAround p = v.foldAround p := by
  have hp' : u.thread.contains p = true := by
    rw [(thread_page_congr h).1]
    exact hp
  rw [← unfold_foldAround hp, ← h, unfold_foldAround hp']

theorem foldOn_eq (hpage : v.page = .thread) : v.foldOn p = v.foldAround p := by
  rw [foldOn, hpage]

theorem toggleFold_eq (hpage : v.page = .thread) (hp : v.thread.contains p = true)
    (hfold : v.fold ≠ some p) : v.toggleFold p = v.foldAround p := by
  rw [toggleFold, hpage]
  dsimp only
  rw [if_neg hfold, unfold_foldAround hp]

/-- On the page of a whole thread, a fold on a post of the thread keeps and shows
exactly the posts to which targets lead from it or from which they lead to it, and
scrolls to it. It is the same fold on any view with the same rows up to their
places, as after another fold. The fold control of the pivot shows every row. -/
theorem Reachable.fold_keeps_conversation (h : Reachable v) (hpage : v.page = .thread)
    (hp : p ∈ v.thread.numbers) :
    (∃ w, v.foldOn p = (w, [.scrollTo (.post p)]) ∧ v.FoldedFrom p w) ∧
    (v.fold ≠ some p → v.toggleFold p = v.foldOn p) ∧
    (∀ u : View, u.unfold = v.unfold → u.foldOn p = v.foldOn p ∧
      (u.fold ≠ some p → u.toggleFold p = v.foldOn p)) ∧
    (∀ q ∈ v.thread.numbers, q ≠ p → (v.foldOn q).1.foldOn p = v.unfold.foldOn p ∧
      (v.foldOn q).1.toggleFold p = v.unfold.toggleFold p) ∧
    (v.fold = some p → ∃ w, v.toggleFold p = (w, []) ∧ v.UnfoldedFrom w) := by
  have haligned := h.aligned
  have hcontains := haligned.indexed.contains_iff.mpr hp
  have hsame : ∀ u : View, u.unfold = v.unfold → u.foldOn p = v.foldOn p ∧
      (u.fold ≠ some p → u.toggleFold p = v.foldOn p) := by
    intro u hu
    obtain ⟨hthread, hupage⟩ := thread_page_congr hu
    rw [hpage] at hupage
    rw [foldOn_eq hpage, ← foldAround_congr hu hcontains]
    exact ⟨foldOn_eq hupage, toggleFold_eq hupage (hthread ▸ hcontains)⟩
  refine ⟨⟨(v.foldAround p).1, ?_, foldedFrom_foldAround haligned hp⟩, (hsame v rfl).2, hsame,
    ?_, ?_⟩
  · rw [foldOn_eq hpage, foldAround, if_pos hcontains]
  · intro q hq hne
    have hqcontains := haligned.indexed.contains_iff.mpr hq
    have hqpivot : (v.foldAround q).1.fold ≠ some p := by
      rw [fold_foldAround hqcontains]
      simpa using hne
    have hrefold := hsame _ (unfold_fst_foldAround v q)
    have hdirect := hsame _ (unfold_unfold v)
    rw [foldOn_eq (p := q) hpage, hrefold.1, hrefold.2 hqpivot, hdirect.1,
      hdirect.2 (Option.some_ne_none p).symm]
    exact ⟨rfl, rfl⟩
  · intro hfold
    refine ⟨v.unfold, ?_, unfoldedFrom_unfold haligned⟩
    rw [toggleFold, hpage]
    dsimp only
    rw [if_pos hfold]

section

open Sample

/-- Two posts that reply to each other, folded on the first when a post of its own
arrives. -/
def foldedCycle : View :=
  ((opened {} (snapshot [post one (some two), post two (some one)])).call (.foldOn one)).call
    (.insert ⟨three, post three none⟩ false)

/-- A fold on the arrival hides the cycle, as it would have without the first fold. -/
theorem fold_keeps_conversation_foldedCycle :
    Reachable foldedCycle ∧ foldedCycle.page = .thread ∧ foldedCycle.fold = some one ∧
    (∃ w, foldedCycle.toggleFold three = (w, [.scrollTo (.post three)]) ∧
      w = (foldedCycle.unfold.foldOn three).1 ∧
      (∃ row, w.row? one = some row ∧ row.hidden = true) ∧
      ∃ row, w.row? three = some row ∧ row.hidden = false ∧ row.mark.pivot = true) ∧
    ∃ w, foldedCycle.toggleFold one = (w, []) ∧ foldedCycle.UnfoldedFrom w := by
  have hopened :
      Reachable (opened {} (snapshot [post one (some two), post two (some one)])) :=
    reachable_opened (by decide)
  have hreachable : Reachable foldedCycle := (hopened.call _).call _
  have hpage : foldedCycle.page = .thread := by decide
  have hfold : foldedCycle.fold = some one := by decide
  obtain ⟨⟨w, hw, hfolded⟩, htoggle, hsame, -, -⟩ :=
    hreachable.fold_keeps_conversation (p := three) hpage (by decide)
  obtain ⟨-, -, -, -, hunfold⟩ :=
    hreachable.fold_keeps_conversation (p := one) hpage (by decide)
  have hisolated : ¬ foldedCycle.thread.Related three one := by
    intro hrelated
    have heq := hreachable.aligned.indexed.eq_of_related (by decide) (by decide) hrelated
    exact absurd heq (by decide)
  obtain ⟨_, row, -, hrow, hplaced⟩ := hfolded.rows one (by decide)
  obtain ⟨_, pivot, -, hpivot, hpivotPlaced⟩ := hfolded.rows three (by decide)
  have hhidden : row.hidden = true := by
    rw [← Bool.not_eq_false, hplaced.visible]
    exact hisolated
  refine ⟨hreachable, hpage, hfold, ⟨w, ?_, ?_, ⟨row, hrow, hhidden⟩, pivot, hpivot, ?_, ?_⟩,
    hunfold hfold⟩
  · rw [htoggle (by decide), hw]
  · rw [(hsame _ (unfold_unfold foldedCycle)).1, hw]
  · exact hpivotPlaced.visible.mpr (Or.inl rfl)
  · exact hpivotPlaced.pivot.mpr rfl

end

end View

end Discussion
