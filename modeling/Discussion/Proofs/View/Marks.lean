import Discussion.Proofs.View.Footprint

/-!
# Rows, marks and the fold

What every reachable view keeps about its rows: they stand for the posts of the
thread, all but the placeholders are bound, and their marks tell whether and
where the view is folded.
-/

namespace Discussion

/-- Whether the row of `n` is placed as a view with this fold has to place it. -/
def Place.Fits (a : Place) (fold : Option PostNumber) (n : PostNumber) : Prop :=
  match fold with
  | none => a = ⟨{}, false⟩
  | some p => (a.mark.pivot = true ↔ n = p) ∧ (n = p → a.mark.kept = true) ∧
      a.hidden = !a.mark.kept

namespace View

variable {v w : View} {p q : Post} {n k : PostNumber} {settings : Settings} {s : Snapshot}

/-! ## Marks -/

/-- The marks of the rows agree with the fold, and only a thread page is folded. -/
structure Marked (v : View) : Prop where
  aligned : v.Aligned
  pivot : ∀ n, v.fold = some n → v.page = .thread ∧ n ∈ v.thread.numbers
  places : ∀ n a, v.place? n = some a → a.Fits v.fold n

namespace Marked

theorem of_sameLayout (h : v.Marked) (hvw : v.SameLayout w) : w.Marked where
  aligned := h.aligned.of_sameLayout hvw
  pivot := by
    rw [hvw.fold, hvw.page, hvw.thread]
    exact h.pivot
  places n a ha := by
    rw [hvw.fold]
    exact h.places n a (hvw.place n ▸ ha)

/-- The new row is kept or hidden by the fold, and it is not the pivot's. -/
theorem merge (h : v.Marked) (hp : v.thread.contains p.number = false) :
    (v.merge p).Marked where
  aligned := h.aligned.merge hp
  pivot n hn := by
    rw [fold_merge] at hn
    rw [page_merge, thread_merge, Thread.mem_numbers_receive]
    exact ⟨(h.pivot n hn).1, Or.inl (h.pivot n hn).2⟩
  places n a ha := by
    have hmem := h.aligned.indexed.contains_eq_false_iff.mp hp
    rw [fold_merge]
    by_cases hn : n = p.number
    · subst hn
      rw [place?_merge_self h.aligned.indexed hmem] at ha
      obtain rfl := Option.some.inj ha
      cases hfold : v.fold with
      | none => rfl
      | some m =>
        have hne : p.number ≠ m := by
          rintro rfl
          exact hmem (h.pivot _ hfold).2
        simp [Place.Fits, hne]
    · exact h.places n a (place?_merge_of_ne hn ▸ ha)

theorem foldAround (h : v.Marked) (hpage : v.page = .thread)
    (hn : v.thread.contains n = true) : (v.foldAround n).1.Marked where
  aligned := h.aligned.foldAround n
  pivot m hm := by
    rw [fold_foldAround hn] at hm
    obtain rfl := Option.some.inj hm
    rw [thread_foldAround]
    refine ⟨?_, h.aligned.indexed.contains_iff.mp hn⟩
    rw [View.foldAround, if_pos hn]
    exact hpage
  places k a ha := by
    rw [place?_foldAround hn, Option.map_eq_some_iff] at ha
    obtain ⟨-, -, rfl⟩ := ha
    rw [fold_foldAround hn]
    simp only [Place.Fits, decide_eq_true_eq, true_and]
    refine ⟨?_, by simp⟩
    rintro rfl
    exact List.mem_cons_self

theorem unfold (h : v.Marked) : v.unfold.Marked where
  aligned := h.aligned.unfold
  pivot m hm := by cases hm
  places k a ha := by
    rw [place?_unfold, Option.map_eq_some_iff] at ha
    obtain ⟨-, -, rfl⟩ := ha
    rfl

theorem change (h : v.Marked) (hvw : Change v w) : w.Marked := by
  cases hvw with
  | retouch hr => exact h.of_sameLayout hr.sameLayout
  | merge p hp => exact h.merge hp
  | fold n hpage hn => exact h.foldAround hpage hn
  | unfold => exact h.unfold
  | color n => exact h.of_sameLayout (sameLayout_requestColor v n)

/-- The page of a query is not folded. -/
theorem fold_eq_none (h : v.Marked) (hpage : v.page = .query) : v.fold = none := by
  rw [Option.eq_none_iff_forall_ne_some]
  intro n hn
  have hthread := (h.pivot n hn).1
  rw [hpage] at hthread
  cases hthread

/-- Without a fold every row is visible and unmarked. -/
theorem unmarked (h : v.Marked) (hfold : v.fold = none) {row : Row}
    (hrow : v.row? n = some row) : row.mark = {} ∧ row.hidden = false := by
  have hfits := h.places n row.place (place?_eq_some_iff.mpr ⟨row, hrow, rfl⟩)
  rw [hfold] at hfits
  exact ⟨congrArg Place.mark hfits, congrArg Place.hidden hfits⟩

end Marked

theorem marked_opened (hv : View.ofSnapshot settings s = .ok v) : v.Marked := by
  have haligned := aligned_opened hv
  obtain ⟨-, rfl⟩ := ofSnapshot_eq_ok_iff.mp hv
  have hfold := fold_opened settings s
  refine ⟨haligned, by simp [hfold], ?_⟩
  intro n a ha
  rw [(sameLayout_opened settings s).place, place?_eq_some_iff] at ha
  obtain ⟨row, hrow, rfl⟩ := ha
  rw [hfold, row?_bare hrow]
  rfl

theorem Reachable.marked (h : Reachable v) : v.Marked :=
  h.invariant (fun _ _ _ hv => marked_opened hv) fun _ _ hv hvw => hv.change hvw

/-! ## Bound rows -/

/-- All rows are bound but those of placeholders. -/
def BoundRows (v : View) : Prop := ∀ q ∈ v.thread.posts, v.isBound q.number = !q.omission

theorem isBound_decorate_post (h : v.Aligned) (hq : q ∈ v.thread.posts) (n : PostNumber) :
    (v.decorate n).isBound q.number =
      (v.isBound q.number || (decide (q.number = n) && !q.omission)) := by
  obtain ⟨e, he, rfl⟩ := List.mem_map.mp hq
  have hget := h.indexed.get?_eq_some_iff.mpr ⟨he, rfl⟩
  obtain ⟨row, hrow⟩ := h.exists_row (List.mem_map_of_mem he)
  by_cases hn : e.post.number = n
  · subst hn
    rw [isBound_decorate h.indexed hget hrow, isBound_of_row? hrow]
    simp
  · rw [decide_eq_false hn, Bool.false_and, Bool.or_false]
    cases hother : v.thread.get? n with
    | none => rw [decorate, hother]
    | some other =>
      obtain ⟨otherRow, hotherRow⟩ := h.exists_row (h.indexed.mem_of_get? hother)
      rw [isBound_decorate h.indexed hother hotherRow, if_neg hn]

theorem isBound_foldl_decorate (h : v.Aligned) (hq : q ∈ v.thread.posts)
    (ns : List PostNumber) :
    (ns.foldl decorate v).isBound q.number =
      (v.isBound q.number || (decide (q.number ∈ ns) && !q.omission)) := by
  induction ns generalizing v with
  | nil => simp
  | cons n rest ih =>
    have hlayout := sameLayout_decorate v n
    have hq' : q ∈ (v.decorate n).thread.posts := by
      rw [hlayout.thread]
      exact hq
    rw [List.foldl_cons, ih (h.of_sameLayout hlayout) hq', isBound_decorate_post h hq]
    by_cases hn : q.number = n
    · cases q.omission <;> simp [hn]
    · simp [hn]

theorem boundRows_opened (hv : View.ofSnapshot settings s = .ok v) : v.BoundRows := by
  obtain ⟨hnodup, rfl⟩ := ofSnapshot_eq_ok_iff.mp hv
  intro q hq
  rw [thread_opened] at hq
  have hmem : q.number ∈ (Thread.opened s).numbers := Thread.mem_numbers_iff.mpr ⟨q, hq, rfl⟩
  have hbare : (bare settings s).Aligned := aligned_bare hnodup
  obtain ⟨row, hrow⟩ := hbare.exists_row hmem
  rw [opened, isBound_foldl_decorate hbare hq, isBound_of_row? hrow, row?_bare hrow]
  simp [hmem]

theorem BoundRows.merge (h : v.BoundRows) (hv : v.Aligned)
    (hp : v.thread.contains p.number = false) : (v.merge p).BoundRows := by
  have hmem := hv.indexed.contains_eq_false_iff.mp hp
  intro q hq
  rw [thread_merge, Thread.posts_receive, List.mem_append, List.mem_singleton] at hq
  rcases hq with hq | rfl
  · have hqmem := Thread.mem_numbers_iff.mpr ⟨q, hq, rfl⟩
    have hne : q.number ≠ p.number := fun heq => hmem (heq ▸ hqmem)
    obtain ⟨row, hrow⟩ := hv.exists_row hqmem
    rw [← h q hq, isBound_of_row? hrow, isBound, row?_merge_of_ne hv.indexed hmem hne, hrow,
      Option.map_some, Option.any_some]
    split <;> rfl
  · rw [settle_number, settle_omission, isBound_of_row? (row?_merge_self hv.indexed hmem)]
    rfl

theorem isBound_handOut (v : View) (n k : PostNumber) :
    (v.handOut n).isBound k = v.isBound k := by
  rw [isBound, isBound, row?_handOut]
  split
  · rw [Option.any_map]
    rfl
  · rfl

theorem BoundRows.change (h : v.BoundRows) (hv : v.Aligned) (hvw : Change v w) :
    w.BoundRows := by
  rcases hvw.color_cases with hcolors | ⟨p, hp, rfl⟩ | ⟨n, -, -, rfl⟩
  · intro q hq
    rw [hcolors.isBound]
    exact h q (hcolors.thread ▸ hq)
  · exact h.merge hv hp
  · intro q hq
    rw [isBound_handOut]
    exact h q hq

theorem Reachable.boundRows (h : Reachable v) : v.BoundRows := by
  induction h with
  | opened hv => exact boundRows_opened hv
  | @call v hv c ih => exact ih.change hv.aligned (change_call v c)

/-! ## Reachable views -/

theorem mem_posts_iff {e : Entry} {row : Row} :
    (e, row) ∈ v.posts ↔ e ∈ v.thread.entries ∧ v.row? e.post.number = some row := by
  simp only [posts, List.mem_filterMap, Option.map_eq_some_iff, Prod.mk.injEq]
  constructor
  · rintro ⟨e', he, row', hrow, rfl, rfl⟩
    exact ⟨he, hrow⟩
  · rintro ⟨he, hrow⟩
    exact ⟨e, he, row, hrow, rfl, rfl⟩

/-- Each post comes with its row. -/
theorem Aligned.map_fst_posts (h : v.Aligned) : v.posts.map (·.1) = v.thread.entries := by
  have hrow : ∀ e ∈ v.thread.entries,
      ((v.row? e.post.number).map fun row => (e, row)).map (·.1) = some e := by
    intro e he
    obtain ⟨row, hrow⟩ := h.exists_row (List.mem_map_of_mem he)
    rw [hrow]
    rfl
  rw [posts, List.map_filterMap, List.filterMap_congr hrow, List.filterMap_some]

/-- The rows of a reachable view are keyed by the posts of its thread, and bound
but for placeholders. Without a fold every row is visible and unmarked. A fold
stands on a post of a thread page: its row is kept and the only one marked as the
pivot's, and the rows that are not kept are the hidden ones. -/
theorem Reachable.rows_and_marks (h : Reachable v) :
    (v.thread.numbers.Nodup ∧ v.rows.keys = v.thread.numbers ∧
      v.posts.map (·.1) = v.thread.entries) ∧
    (∀ e row, (e, row) ∈ v.posts →
      v.row? e.post.number = some row ∧ (row.bound = true ↔ e.post.omission = false)) ∧
    (v.fold = none → ∀ n row, v.row? n = some row →
      row.hidden = false ∧ row.mark.kept = false ∧ row.mark.pivot = false) ∧
    (∀ p, v.fold = some p → v.page = .thread ∧ p ∈ v.thread.numbers ∧
      (∃ row, v.row? p = some row ∧ row.mark.pivot = true ∧ row.mark.kept = true) ∧
      ∀ n row, v.row? n = some row →
        (row.mark.pivot = true → n = p) ∧ (row.hidden = true ↔ row.mark.kept = false)) ∧
    (v.page = .query → v.fold = none) := by
  have hmarked := h.marked
  have haligned := hmarked.aligned
  have hplace : ∀ n row, v.row? n = some row → row.place.Fits v.fold n :=
    fun n row hrow => hmarked.places n _ (place?_eq_some_iff.mpr ⟨row, hrow, rfl⟩)
  refine ⟨⟨haligned.indexed.nodup, haligned.keys, haligned.map_fst_posts⟩, ?_, ?_, ?_, ?_⟩
  · intro e row hmem
    obtain ⟨he, hrow⟩ := mem_posts_iff.mp hmem
    have hbound := h.boundRows e.post (List.mem_map_of_mem he)
    rw [isBound_of_row? hrow] at hbound
    exact ⟨hrow, by simp [hbound]⟩
  · intro hfold n row hrow
    have hfits := hplace n row hrow
    rw [hfold] at hfits
    have hmark : row.mark = {} := congrArg Place.mark hfits
    have hhidden : row.hidden = false := congrArg Place.hidden hfits
    simp [hmark, hhidden]
  · intro p hfold
    obtain ⟨hpage, hp⟩ := hmarked.pivot p hfold
    have hfits := hplace
    simp only [hfold, Place.Fits] at hfits
    obtain ⟨row, hrow⟩ := haligned.exists_row hp
    obtain ⟨hpivot, hkept, -⟩ := hfits p row hrow
    refine ⟨hpage, hp, ⟨row, hrow, hpivot.mpr rfl, hkept rfl⟩, ?_⟩
    intro n other hother
    obtain ⟨hpivot, -, hhidden⟩ := hfits n other hother
    have hhidden : other.hidden = !other.mark.kept := hhidden
    exact ⟨hpivot.mp, by simp [hhidden]⟩
  · intro hquery
    by_contra hfold
    obtain ⟨p, hp⟩ := Option.ne_none_iff_exists'.mp hfold
    have hpage := (hmarked.pivot p hp).1
    rw [hquery] at hpage
    cases hpage

section

open Sample

/-- The view of a post to which a reply arrives, folded on the reply. -/
def foldedReply : View :=
  ((opened {} single).call (.insert ⟨two, post two (some one)⟩ true)).call (.foldOn two)

/-- The reply has the mark of the pivot, and no other row has it. -/
theorem rows_and_marks_foldedReply :
    Reachable foldedReply ∧ foldedReply.fold = some two ∧
    foldedReply.rows.keys = [one, two] ∧
    (∃ row, foldedReply.row? two = some row ∧ row.mark.pivot = true ∧ row.mark.kept = true) ∧
    ∀ row, foldedReply.row? one = some row → row.mark.pivot = false := by
  have hopened : Reachable (opened {} single) :=
    .opened (ofSnapshot_eq_ok_iff.mpr ⟨by decide, rfl⟩)
  have hreachable : Reachable foldedReply := (hopened.call _).call _
  have hfold : foldedReply.fold = some two := by decide
  obtain ⟨⟨-, hkeys, -⟩, -, -, hfolded, -⟩ := hreachable.rows_and_marks
  obtain ⟨-, -, hpivot, hrows⟩ := hfolded two hfold
  refine ⟨hreachable, hfold, hkeys.trans (by decide), hpivot, ?_⟩
  intro row hrow
  rw [← Bool.not_eq_true]
  intro hmark
  exact absurd ((hrows one row hrow).1 hmark) (by decide)

end

end View

end Discussion
