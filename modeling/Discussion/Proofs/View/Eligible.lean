import Discussion.Proofs.View.Folding

/-!
# Present conversations and folds

The conversation of a pivot may come to hold posts that the fold on it hides,
and this module says exactly when. In a single view, the fold shows the present
conversation if all of its older posts belonged to it when the fold was made and
all of its arrivals have targets. Over all runs, it does so if no post of the
snapshot names a missing parent; on the page of a query there are no folds.
-/

namespace Discussion

namespace View

open Relation (ReflTransGen TransGen)

variable {v w start : View} {p n m q : PostNumber} {settings : Settings} {s : Snapshot}

/-- The fold shows the conversation that its pivot has now. -/
def ShowsConversation (v : View) : Prop :=
  ∀ p, v.fold = some p → ∀ q ∈ v.thread.conversation p, v.Shows q

/-- The view in which the present fold was made: the one after the last command
that moved the fold, or `start` if none did. -/
def foldStart (start v : View) : List Command → View
  | [] => start
  | c :: rest =>
    let next := (v.dispatch c).view
    foldStart (if next.fold = v.fold then start else next) next rest

/-- A fold that stands after a command stood before it, or the command made it. -/
theorem foldHeld_dispatch (hv : v.Aligned)
    (h : ∀ p, v.fold = some p → FoldHeld start p v) (c : Command)
    (hp : (v.dispatch c).view.fold = some p) :
    FoldHeld (if (v.dispatch c).view.fold = v.fold then start else (v.dispatch c).view) p
      (v.dispatch c).view := by
  rcases dispatch_cases v c with hr | ⟨a, footer, -, hnum, hnew, heq⟩ | ⟨n, -, hn, heq⟩
  · have hfold := hr.sameLayout.fold
    rw [if_pos hfold]
    exact (h p (hfold ▸ hp)).of_sameLayout hr.sameLayout
  · have hfold := fold_merge v a.post
    rw [heq] at hp ⊢
    rw [if_pos hfold]
    exact (h p (hfold ▸ hp)).merge (hnum ▸ hnew)
  · rw [heq] at hp ⊢
    rcases toggleFold_cases v n with hsame | ⟨-, -, hunfold⟩ | ⟨-, hne, -, hfolded⟩
    · rw [hsame] at hp ⊢
      rw [if_pos rfl]
      exact h p hp
    · rw [hunfold] at hp
      cases hp
    · rw [hfolded] at hp ⊢
      rw [fold_foldAround hn] at hp ⊢
      obtain rfl := Option.some.inj hp
      rw [if_neg (Ne.symm hne)]
      exact foldHeld_foldAround hv hn

/-- A fold that stands after a run stands since the view in which it was made. -/
theorem foldHeld_run (hv : v.Aligned) (h : ∀ p, v.fold = some p → FoldHeld start p v)
    (cs : List Command) :
    ∀ p, (v.run cs).1.fold = some p → FoldHeld (foldStart start v cs) p (v.run cs).1 := by
  induction cs generalizing start v with
  | nil => exact h
  | cons c rest ih =>
    rw [run_cons, foldStart]
    exact ih (hv.change (change_dispatch v c)) fun p hp => foldHeld_dispatch hv h c hp

/-! ## One view -/

/-- A fold shows the present conversation exactly if its older posts belonged to
it when the fold was made, and no arrival in it starts a conversation. -/
theorem FoldHeld.shows_iff (h : FoldHeld w p v) :
    (∀ q ∈ v.thread.conversation p, v.Shows q) ↔
      ∀ q ∈ v.thread.conversation p,
        if q ∈ w.thread.numbers then q ∈ w.thread.conversation p
        else v.thread.target? q ≠ none := by
  have hp := h.grown.present p h.pivot
  constructor
  · intro hall q hq
    have hqv := h.aligned.indexed.mem_of_mem_conversation hp hq
    have hlead := (h.keeps_iff hqv).mp (keeps_eq_true_iff.mpr (hall q hq))
    split
    · rename_i hold
      exact (leadsInto_iff_of_mem hold).mp hlead
    · rename_i hnew
      obtain ⟨m, hm, hpath⟩ := hlead
      rcases ReflTransGen.cases_head hpath with rfl | ⟨k, hk, -⟩
      · exact absurd (h.base.mem_of_mem_conversation h.pivot hm) hnew
      · exact Option.ne_none_iff_exists'.mpr ⟨k, hk.2⟩
  · intro hall q hq
    have hqv := h.aligned.indexed.mem_of_mem_conversation hp hq
    rw [← keeps_eq_true_iff, h.keeps_iff hqv]
    obtain ⟨m, hpath, hend⟩ := h.grown.ends q hqv
    have hm := h.aligned.indexed.mem_conversation_of_arrivedPath hp hq hpath
    have hcond := hall m hm
    split at hcond
    · exact ⟨m, hcond, hpath⟩
    · rename_i hnew
      exact absurd (hend.resolve_left hnew) hcond

/-! ## All runs -/

/-- No post of the thread names a missing parent. -/
def Whole (v : View) : Prop := ∀ n m, v.thread.Names n m → m ∈ v.thread.numbers

theorem Whole.change (h : v.Whole) (hv : v.Aligned) (hvw : Change v w) : w.Whole := by
  rcases hvw.thread_cases with heq | ⟨p, -, heq⟩
  · rw [Whole, heq]
    exact h
  · intro n m hnames
    rw [heq, Thread.names_receive] at hnames
    rw [heq, Thread.mem_numbers_receive]
    rcases hnames with hnames | ⟨-, hparent⟩
    · exact Or.inl (h n m hnames)
    · exact Or.inl (settled_settle hv.indexed p m hparent).2

theorem Whole.foldStart (hstart : start.Whole) (h : v.Whole) (hv : v.Aligned)
    (cs : List Command) : (View.foldStart start v cs).Whole := by
  induction cs generalizing start v with
  | nil => exact hstart
  | cons c rest ih =>
    rw [View.foldStart]
    have hchange := change_dispatch v c
    apply ih
    · split
      · exact hstart
      · exact h.change hv hchange
    · exact h.change hv hchange
    · exact hv.change hchange

/-- In a thread that was whole when the fold was made, old posts lead to old posts. -/
theorem FoldHeld.path_of_whole (h : FoldHeld w p v) (hw : w.Whole) (hn : n ∈ w.thread.numbers)
    (hpath : ReflTransGen v.thread.Replies n m) :
    m ∈ w.thread.numbers ∧ ReflTransGen w.thread.Replies n m := by
  induction hpath with
  | refl => exact ⟨hn, .refl⟩
  | @tail j k _ hstep ih =>
    have hnames := (h.aligned.indexed.target?_eq_some_iff.mp hstep).1
    have hk := hw j k ((h.grown.names j ih.1 k).mp hnames)
    exact ⟨hk, ih.2.tail ((h.grown.replies_iff h.base ih.1 hk).mp hstep)⟩

/-- A fold on a whole thread shows the present conversation for good. -/
theorem FoldHeld.shows_of_whole (h : FoldHeld w p v) (hw : w.Whole) :
    ∀ q ∈ v.thread.conversation p, v.Shows q := by
  have hp := h.grown.present p h.pivot
  apply h.shows_iff.mpr
  intro q hq
  rw [h.base.mem_conversation_iff h.pivot]
  rcases (h.aligned.indexed.mem_conversation_iff hp).mp hq with hpath | hpath
  · obtain ⟨hold, hpath⟩ := h.path_of_whole hw h.pivot hpath
    rw [if_pos hold]
    exact Or.inl hpath
  · split
    · rename_i hold
      exact Or.inr (h.path_of_whole hw hold hpath).2
    · rename_i hnew
      rcases ReflTransGen.cases_head hpath with rfl | ⟨k, hk, -⟩
      · exact absurd h.pivot hnew
      · exact Option.ne_none_iff_exists'.mpr ⟨k, hk⟩

/-- Nothing folds the page of a query. -/
theorem fold_eq_none_of_query (hpage : v.page = .query) (hfold : v.fold = none)
    (cs : List Command) : (v.run cs).1.fold = none := by
  have hchange : ∀ v w : View, v.page = .query ∧ v.fold = none → Change v w →
      w.page = .query ∧ w.fold = none := by
    intro v w h hvw
    cases hvw with
    | retouch hr => exact ⟨hr.sameLayout.page.trans h.1, hr.sameLayout.fold.trans h.2⟩
    | merge p => exact ⟨(page_merge v p).trans h.1, (fold_merge v p).trans h.2⟩
    | fold n hthread =>
      rw [h.1] at hthread
      cases hthread
    | unfold => exact ⟨h.1, rfl⟩
    | color n =>
      have hlayout := sameLayout_requestColor v n
      exact ⟨hlayout.page.trans h.1, hlayout.fold.trans h.2⟩
  exact (run_invariant hchange ⟨hpage, hfold⟩ cs).2

/-- Where a post names a missing parent, a fold on the post and the arrival of
the parent hide a part of the conversation. -/
theorem exists_run_not_showsConversation (hv : v.Aligned) (hpage : v.page = .thread)
    (hfold : v.fold = none) (hnames : v.thread.Names n m) (hm : m ∉ v.thread.numbers) :
    ∃ cs, ¬ (v.run cs).1.ShowsConversation := by
  have hn := hv.indexed.contains_iff.mpr hnames.mem
  obtain ⟨post, hpost, rfl, hparent⟩ := hnames
  let arrival : Arrival := ⟨m, { post with number := m, parent := none }⟩
  let w := (v.foldAround post.number).1
  have hw : (v.dispatch (.toggleFold post.number)).view = w := by
    have htoggle : v.toggleFold post.number = v.foldAround post.number := by
      rw [toggleFold, hpage, hfold, ← unfold_foldAround hn]
      rfl
    rw [dispatch_toggleFold hn, htoggle]
  have hheld : FoldHeld w post.number w := foldHeld_foldAround hv hn
  have hwnumbers : m ∉ w.thread.numbers := by
    rw [thread_foldAround]
    exact hm
  have hnew := hheld.base.contains_eq_false_iff.mpr hwnumbers
  have hmerge : (w.dispatch (.insert arrival none)).view = w.merge arrival.post :=
    dispatch_insert rfl hnew none
  have hsettle : w.settle arrival.post = arrival.post := rfl
  have hlater : FoldHeld w post.number (w.merge arrival.post) := hheld.merge hnew
  have hthread : (w.merge arrival.post).thread = w.thread.receive arrival.post := by
    rw [thread_merge, hsettle]
  refine ⟨[.toggleFold post.number, .insert arrival none], ?_⟩
  rw [run_cons, run_cons, run_nil, hw, hmerge]
  intro hshows
  have hreply : (w.merge arrival.post).thread.Replies post.number m := by
    rw [hthread, hheld.base.replies_receive_iff hwnumbers hheld.pivot]
    refine Or.inr ⟨rfl, post, ?_, rfl, hparent⟩
    rw [thread_foldAround]
    exact hpost
  have htarget : (w.merge arrival.post).thread.target? m = none := by
    have hsettled : w.thread.Settled arrival.post := by
      intro k hk
      cases hk
    rw [hthread]
    exact hheld.base.target?_receive_self hwnumbers hsettled
  have hpivot := hlater.grown.present _ hlater.pivot
  have hmem : m ∈ (w.merge arrival.post).thread.conversation post.number :=
    hlater.aligned.indexed.mem_conversation_of_replies hpivot
      ((hlater.aligned.indexed.mem_conversation_iff hpivot).mpr (Or.inl .refl)) hreply
  have hcond := hlater.shows_iff.mp (hshows _ hlater.fold) m hmem
  rw [if_neg hwnumbers] at hcond
  exact hcond htarget

/-- In every view of a run, the fold shows the present conversation exactly if the
older posts of that conversation belonged to it when the fold was made and its
arrivals have targets. In all views of all runs it does so exactly if the page is
that of a query, or the snapshot has every parent that its posts name. -/
theorem showsConversation_iff (hv : View.ofSnapshot settings s = .ok v) :
    (∀ cs p, (v.run cs).1.fold = some p →
      ((∀ q ∈ (v.run cs).1.thread.conversation p, (v.run cs).1.Shows q) ↔
        ∀ q ∈ (v.run cs).1.thread.conversation p,
          if q ∈ (foldStart v v cs).thread.numbers then
            q ∈ (foldStart v v cs).thread.conversation p
          else (v.run cs).1.thread.target? q ≠ none)) ∧
    ((∀ cs, (v.run cs).1.ShowsConversation) ↔ s.page = .query ∨ s.Complete) := by
  have haligned := aligned_opened hv
  obtain ⟨hnodup, rfl⟩ := ofSnapshot_eq_ok_iff.mp hv
  have hfold := fold_opened settings s
  have hnumbers := numbers_opened settings s
  have hheld : ∀ cs p, ((opened settings s).run cs).1.fold = some p →
      FoldHeld (foldStart (opened settings s) (opened settings s) cs) p
        ((opened settings s).run cs).1 :=
    foldHeld_run haligned (by simp [hfold])
  refine ⟨fun cs p hp => (hheld cs p hp).shows_iff, ?_⟩
  constructor
  · intro hall
    by_contra hnot
    rw [not_or] at hnot
    obtain ⟨hpage, hcomplete⟩ := hnot
    obtain ⟨post, hpost, m, hparent, hm⟩ : ∃ post ∈ s.posts, ∃ m, post.parent = some m ∧
        m ∉ s.posts.map (·.number) := by
      simpa [Snapshot.Complete] using hcomplete
    have hthread : (opened settings s).page = .thread := by
      rw [page_opened]
      cases hs : s.page with
      | thread => rfl
      | query => exact absurd hs hpage
    obtain ⟨cs, hcs⟩ := exists_run_not_showsConversation haligned hthread hfold
      (names_opened.mpr ⟨post, hpost, rfl, hparent⟩) (hnumbers ▸ hm)
    exact hcs (hall cs)
  · rintro (hpage | hcomplete) cs p hp
    · have hnone := fold_eq_none_of_query ((page_opened settings s).trans hpage) hfold cs
      simp [hnone] at hp
    · have hwhole : (opened settings s).Whole := by
        intro n m hnames
        obtain ⟨post, hpost, -, hparent⟩ := names_opened.mp hnames
        rw [hnumbers]
        exact hcomplete post hpost m hparent
      exact (hheld cs p hp).shows_of_whole (hwhole.foldStart hwhole haligned cs)

/-! ## A parent that arrives into a fold -/

section

open Sample

/-- A post, and a reply to one that is missing. -/
def loose : Snapshot := snapshot [post one none, post two (some three)]

/-- A fold on the reply, and then the arrival of its parent. -/
def parentIntoFold : List Command := [.toggleFold two, .insert ⟨three, post three none⟩ none]

theorem ofSnapshot_loose : View.ofSnapshot {} loose = .ok (opened {} loose) :=
  ofSnapshot_eq_ok_iff.mpr ⟨by decide, rfl⟩

/-- The snapshot lacks a parent, so in some run a fold hides a part of the
conversation; before the parent arrives it does not. -/
theorem showsConversation_iff_loose :
    View.ofSnapshot {} loose = .ok (opened {} loose) ∧
    ((opened {} loose).run [.toggleFold two]).1.fold = some two ∧
    (∀ q ∈ ((opened {} loose).run [.toggleFold two]).1.thread.conversation two,
      ((opened {} loose).run [.toggleFold two]).1.Shows q) ∧
    ¬ ∀ cs, ((opened {} loose).run cs).1.ShowsConversation := by
  have hfold : ((opened {} loose).run [.toggleFold two]).1.fold = some two := by decide
  obtain ⟨hrun, hall⟩ := showsConversation_iff ofSnapshot_loose
  refine ⟨ofSnapshot_loose, hfold, (hrun _ two hfold).mpr ?_, ?_⟩
  · have hstart : foldStart (opened {} loose) (opened {} loose) [.toggleFold two] =
        ((opened {} loose).run [.toggleFold two]).1 := rfl
    have haligned := aligned_run ofSnapshot_loose [.toggleFold two]
    intro q hq
    have hmem := haligned.indexed.mem_of_mem_conversation (by decide) hq
    rw [hstart, if_pos hmem]
    exact hq
  · rw [hall]
    rintro (hpage | hcomplete)
    · cases hpage
    · have hmem := hcomplete (post two (some three)) (by decide) three rfl
      revert hmem
      decide

/-- The pivot replies to the post that has arrived, whose row is hidden. -/
theorem not_showsConversation_loose :
    View.ofSnapshot {} loose = .ok (opened {} loose) ∧
    ((opened {} loose).run parentIntoFold).1.fold = some two ∧
    three ∈ ((opened {} loose).run parentIntoFold).1.thread.ancestors two ∧
    (((opened {} loose).run parentIntoFold).1.row? three).map (·.hidden) = some true ∧
    ¬ ((opened {} loose).run parentIntoFold).1.ShowsConversation := by
  have hfold : ((opened {} loose).run parentIntoFold).1.fold = some two := by decide
  have hkeeps : ((opened {} loose).run parentIntoFold).1.keeps three = false := by decide
  have haligned := aligned_run ofSnapshot_loose parentIntoFold
  have hreply : ((opened {} loose).run parentIntoFold).1.thread.Replies two three := by
    have htarget : ((opened {} loose).run parentIntoFold).1.thread.target? two = some three := by
      decide
    exact htarget
  have hancestor := haligned.indexed.mem_ancestors_of_replies hreply
  refine ⟨ofSnapshot_loose, hfold, hancestor, by decide, ?_⟩
  intro hshows
  have hthree := hshows two hfold three
    (List.mem_append_left _ (List.mem_cons_of_mem _ hancestor))
  rw [← keeps_eq_true_iff, hkeeps] at hthree
  cases hthree

end

end View

end Discussion
