import Discussion.Proofs.View.Marks
import Discussion.Proofs.View.Overlays

/-!
# Folds, hints, the reader and highlights do not interfere

The highlights and colors that a run leaves are those that the run leaves without its
fold controls, its hints and its changes of reader; and the fold that it leaves is the
one that its fold controls and live posts leave alone.
-/

namespace Discussion

/-- The commands that bear on the fold. -/
def Command.bearsOnFold : Command → Bool
  | .toggleFold _ | .insert _ _ => true
  | _ => false

/-- The color, the flags and the paints of a row. -/
def Row.looks (row : Row) : Option Color × Bool × Bool × (Part → Layers) :=
  (row.linkColor, row.bound, row.highlight.authorSelected, row.highlight.part)

namespace View

variable {v w : View} {p : Post} {n q : PostNumber} {c : Command}

/-! ## What is stripped off -/

/-- The commands of a run, each with the effects that it returns. -/
def answers (v : View) : List Command → List (Command × List Effect)
  | [] => []
  | c :: rest => (c, (v.dispatch c).effects) :: (v.dispatch c).view.answers rest

theorem map_fst_answers (v : View) (cs : List Command) : (v.answers cs).map (·.1) = cs := by
  induction cs generalizing v with
  | nil => rfl
  | cons c rest ih => rw [answers, List.map_cons, ih]

/-- A command with its effects, without the badges that they show. -/
def withoutBadges (a : Command × List Effect) : Command × List Effect :=
  (a.1, a.2.map Effect.withoutBadge)

theorem strip_run (wide : Bool) (v : View) (cs : List Command) :
    (v.run cs).1.strip wide =
      ((v.strip wide).run (cs.filter fun c => !c.isStripped wide)).1 := by
  induction cs generalizing v with
  | nil => rfl
  | cons c rest ih =>
    rw [run_cons, ih]
    cases hc : c.isStripped wide with
    | true => rw [strip_dispatch_eq_self v hc, List.filter_cons_of_neg (by simp [hc])]
    | false => rw [List.filter_cons_of_pos (by simp [hc]), run_cons, (strip_dispatch v hc).1]

theorem strip_answers (wide : Bool) (v : View) (cs : List Command) :
    ((v.answers cs).filter fun a => !a.1.isStripped wide).map withoutBadges =
      ((v.strip wide).answers (cs.filter fun c => !c.isStripped wide)).map withoutBadges := by
  induction cs generalizing v with
  | nil => rfl
  | cons c rest ih =>
    rw [answers]
    cases hc : c.isStripped wide with
    | true =>
      rw [List.filter_cons_of_neg (by simp [hc]), List.filter_cons_of_neg (by simp [hc]), ih,
        strip_dispatch_eq_self v hc]
    | false =>
      obtain ⟨hview, heffects⟩ := strip_dispatch v hc
      rw [List.filter_cons_of_pos (by simp [hc]), List.filter_cons_of_pos (by simp [hc]), answers,
        List.map_cons, List.map_cons, ih, hview, withoutBadges, withoutBadges, heffects]

/-- Two runs with the same commands, but for some whose work is stripped off, leave the
same view when it is stripped. -/
theorem strip_run_congr {wide : Bool} {cs ds : List Command}
    (h : (cs.filter fun c => !c.isStripped wide) = ds.filter fun c => !c.isStripped wide)
    (v : View) : (v.run cs).1.strip wide = (v.run ds).1.strip wide := by
  rw [strip_run, strip_run, h]

theorem answers_filter (wide : Bool) (v : View) (cs : List Command) :
    ((v.answers cs).filter fun a => !a.1.isStripped wide).map withoutBadges =
      (v.answers (cs.filter fun c => !c.isStripped wide)).map withoutBadges := by
  have hall : ∀ a ∈ v.answers (cs.filter fun c => !c.isStripped wide),
      (!a.1.isStripped wide) = true := by
    intro a ha
    have hmem := List.mem_map_of_mem (f := (·.1)) ha
    rw [map_fst_answers] at hmem
    exact (List.mem_filter.mp hmem).2
  have hkept := strip_answers wide v (cs.filter fun c => !c.isStripped wide)
  rw [List.filter_eq_self.mpr hall, List.filter_filter] at hkept
  simp only [Bool.and_self] at hkept
  rw [strip_answers, hkept]

/-! ## What bears on the fold -/

namespace SameLayout

theorem symm (h : v.SameLayout w) : w.SameLayout v :=
  ⟨h.thread.symm, h.fold.symm, h.page.symm, h.keys.symm, fun n => (h.place n).symm⟩

theorem settle (h : v.SameLayout w) (p : Post) : w.settle p = v.settle p := by
  rw [View.settle, View.settle, h.thread]

theorem keeps (h : v.SameLayout w) (n : PostNumber) : w.keeps n = v.keeps n := by
  rw [View.keeps, View.keeps, h.place]

/-- A live post is placed by the layout alone. -/
theorem merge (h : v.SameLayout w) (hv : v.Aligned) (hp : v.thread.contains p.number = false) :
    (v.merge p).SameLayout (w.merge p) := by
  have hw : w.Aligned := hv.of_sameLayout h
  have hmem : p.number ∉ v.thread.numbers := hv.indexed.contains_eq_false_iff.mp hp
  have hmem' : p.number ∉ w.thread.numbers := by rwa [h.thread]
  refine ⟨?_, ?_, ?_, ?_, ?_⟩
  · rw [thread_merge, thread_merge, h.thread, h.settle]
  · rw [fold_merge, fold_merge, h.fold]
  · rw [page_merge, page_merge, h.page]
  · rw [keys_merge (hw.keys ▸ hmem'), keys_merge (hv.keys ▸ hmem), h.keys]
  · intro n
    by_cases hn : n = p.number
    · have hkeeps : w.keeps = v.keeps := funext h.keeps
      rw [hn, place?_merge_self hw.indexed hmem', place?_merge_self hv.indexed hmem, h.fold,
        h.settle, hkeeps]
    · rw [place?_merge_of_ne hn, place?_merge_of_ne hn, h.place]

theorem unfold (h : v.SameLayout w) : v.unfold.SameLayout w.unfold where
  thread := h.thread
  fold := rfl
  page := h.page
  keys := (PostMap.keys_map _ _).trans (h.keys.trans (PostMap.keys_map _ _).symm)
  place n := by rw [place?_unfold, place?_unfold, h.place]

theorem foldAround (h : v.SameLayout w) (n : PostNumber) :
    (v.foldAround n).1.SameLayout (w.foldAround n).1 := by
  cases hn : v.thread.contains n with
  | false =>
    have hn' : w.thread.contains n = false := by rwa [h.thread]
    rw [View.foldAround, View.foldAround, if_neg (by simp [hn]), if_neg (by simp [hn'])]
    exact h
  | true =>
    have hn' : w.thread.contains n = true := by rwa [h.thread]
    refine ⟨?_, ?_, ?_, ?_, ?_⟩
    · rw [thread_foldAround, thread_foldAround, h.thread]
    · rw [fold_foldAround hn, fold_foldAround hn']
    · rw [View.foldAround, View.foldAround, if_pos hn, if_pos hn']
      exact h.page
    · rw [View.foldAround, View.foldAround, if_pos hn, if_pos hn']
      exact (PostMap.keys_map _ _).trans (h.keys.trans (PostMap.keys_map _ _).symm)
    · intro k
      rw [place?_foldAround hn, place?_foldAround hn', h.place, h.thread]

theorem toggleFold (h : v.SameLayout w) (n : PostNumber) :
    (v.toggleFold n).1.SameLayout (w.toggleFold n).1 := by
  rw [View.toggleFold, View.toggleFold, h.page, h.fold]
  split
  · split
    · exact h.unfold
    · exact h.unfold.foldAround n
  · exact h

/-- A command that bears on the fold sees of a view only its layout. -/
theorem dispatch (h : v.SameLayout w) (hv : v.Aligned) (hc : c.bearsOnFold = true) :
    (v.dispatch c).view.SameLayout (w.dispatch c).view := by
  cases c with
  | toggleFold n =>
    cases hn : v.thread.contains n with
    | true =>
      rw [dispatch_toggleFold hn, dispatch_toggleFold (h.thread ▸ hn)]
      exact h.toggleFold n
    | false =>
      have hn' : w.thread.contains n = false := by rwa [h.thread]
      rw [dispatch_of_not_contains rfl hn, dispatch_of_not_contains rfl hn']
      exact h
  | insert a footer =>
    by_cases hdropped : a.post.number ≠ a.number ∨ v.thread.contains a.number = true
    · rw [dispatch_insert_of_dropped hdropped, dispatch_insert_of_dropped (h.thread ▸ hdropped)]
      exact h
    · rw [not_or, not_not, Bool.not_eq_true] at hdropped
      obtain ⟨hnum, hnew⟩ := hdropped
      rw [dispatch_insert hnum hnew, dispatch_insert hnum (h.thread ▸ hnew)]
      exact h.merge hv (hnum ▸ hnew)
  | _ => cases hc

end SameLayout

/-- No other command bears on the fold. -/
theorem sameLayout_dispatch (v : View) (hc : c.bearsOnFold = false) :
    v.SameLayout (v.dispatch c).view := by
  rcases dispatch_cases v c with hr | ⟨a, footer, rfl, -⟩ | ⟨n, rfl, -⟩
  · exact hr.sameLayout
  · cases hc
  · cases hc

theorem SameLayout.run (h : v.SameLayout w) (hv : v.Aligned) (cs : List Command) :
    (v.run cs).1.SameLayout (w.run (cs.filter Command.bearsOnFold)).1 := by
  induction cs generalizing v w with
  | nil => exact h
  | cons c rest ih =>
    have hnext := hv.change (change_dispatch v c)
    rw [run_cons]
    cases hc : c.bearsOnFold with
    | true =>
      rw [List.filter_cons_of_pos hc, run_cons]
      exact ih (h.dispatch hv hc) hnext
    | false =>
      rw [List.filter_cons_of_neg (by simp [hc])]
      exact ih ((sameLayout_dispatch v hc).symm.trans h) hnext

/-! ## Folding and unfolding -/

theorem fold_dispatch (v : View) (hc : c.isFold = false) :
    (v.dispatch c).view.fold = v.fold ∧ (v.dispatch c).view.page = v.page := by
  rcases dispatch_cases v c with hr | ⟨a, footer, -, -, -, heq⟩ | ⟨n, rfl, -⟩
  · exact ⟨hr.sameLayout.fold, hr.sameLayout.page⟩
  · rw [heq]
    exact ⟨fold_merge v a.post, page_merge v a.post⟩
  · cases hc

theorem fold_run (v : View) {cs : List Command} (hcs : ∀ c ∈ cs, c.isFold = false) :
    (v.run cs).1.fold = v.fold ∧ (v.run cs).1.page = v.page := by
  induction cs generalizing v with
  | nil => exact ⟨rfl, rfl⟩
  | cons c rest ih =>
    rw [List.forall_mem_cons] at hcs
    obtain ⟨hfold, hpage⟩ := fold_dispatch v hcs.1
    obtain ⟨hfold', hpage'⟩ := ih (v.dispatch c).view hcs.2
    exact ⟨hfold'.trans hfold, hpage'.trans hpage⟩

/-- There is nothing to strip off a view without a fold but hints and the reader. -/
theorem Marked.strip_eq_self (h : v.Marked) (hfold : v.fold = none) : v.strip false = v := by
  have hrows : (v.mapRows fun _ => Row.strip false) = v := by
    apply h.aligned.mapRows_eq_self
    intro n row hrow
    obtain ⟨highlight, mark, hidden, linkColor, bound⟩ := row
    obtain ⟨rfl, rfl⟩ : mark = {} ∧ hidden = false := h.unmarked hfold hrow
    rfl
  rw [strip, hrows, ← hfold]
  rfl

theorem fold_dispatch_toggleFold (h : v.Marked) (hpage : v.page = .thread) (hfold : v.fold = none)
    (hp : q ∈ v.thread.numbers) : (v.dispatch (.toggleFold q)).view.fold = some q := by
  have hq : v.thread.contains q = true := h.aligned.indexed.contains_iff.mpr hp
  rw [dispatch_toggleFold hq, toggleFold, hpage]
  dsimp only
  rw [hfold, if_neg (by simp), unfold_foldAround hq, fold_foldAround hq]

/-- On the pivot, the fold control unfolds. -/
theorem fold_dispatch_pivot (h : v.Marked) (hfold : v.fold = some q) :
    (v.dispatch (.toggleFold q)).view.fold = none := by
  obtain ⟨hpage, hq⟩ := h.pivot q hfold
  rw [dispatch_toggleFold (h.aligned.indexed.contains_iff.mpr hq), toggleFold, hpage]
  dsimp only
  rw [if_pos hfold]
  rfl

/-- Between folding and unfolding a page, a run does what it does on the page unfolded. -/
theorem Reachable.run_between_toggles (h : Reachable v) (hpage : v.page = .thread)
    (hfold : v.fold = none) (hq : q ∈ v.thread.numbers) {cs : List Command}
    (hcs : ∀ c ∈ cs, c.isFold = false) :
    (v.run (.toggleFold q :: cs ++ [.toggleFold q])).1 = (v.run cs).1 := by
  have hfolded : ((v.dispatch (.toggleFold q)).view.run cs).1.fold = some q :=
    (fold_run _ hcs).1.trans (fold_dispatch_toggleFold h.marked hpage hfold hq)
  have hmarked : ((v.dispatch (.toggleFold q)).view.run cs).1.Marked :=
    ((h.call (.dispatch (.toggleFold q))).run cs).marked
  have hend : (v.run (.toggleFold q :: cs ++ [.toggleFold q])).1.fold = none := by
    rw [List.cons_append, run_cons, run_append]
    exact fold_dispatch_pivot hmarked hfolded
  have hself : (v.run cs).1.fold = none := (fold_run v hcs).1.trans hfold
  rw [← (h.run _).marked.strip_eq_self hend, ← (h.run cs).marked.strip_eq_self hself]
  apply strip_run_congr
  simp [Command.isStripped, Command.isFold]

/-- A fold control on a post that arrives only later is ignored, and the second one folds. -/
theorem Reachable.run_between_toggles_iff (h : Reachable v) (hpage : v.page = .thread)
    (hfold : v.fold = none) {cs : List Command} (hcs : ∀ c ∈ cs, c.isFold = false) :
    (v.run (.toggleFold q :: cs ++ [.toggleFold q])).1 = (v.run cs).1 ↔
      (q ∈ (v.run cs).1.thread.numbers → q ∈ v.thread.numbers) := by
  by_cases hq : q ∈ v.thread.numbers
  · exact iff_of_true (h.run_between_toggles hpage hfold hq hcs) fun _ => hq
  · have hfirst : v.dispatch (.toggleFold q) = { view := v } :=
      dispatch_of_not_contains rfl (h.aligned.indexed.contains_eq_false_iff.mpr hq)
    have hlast : (v.run (.toggleFold q :: cs ++ [.toggleFold q])).1 =
        ((v.run cs).1.dispatch (.toggleFold q)).view := by
      rw [List.cons_append, run_cons, hfirst, run_append]
      rfl
    obtain ⟨hself, hpage'⟩ := fold_run v hcs
    by_cases hlate : q ∈ (v.run cs).1.thread.numbers
    · have hfolded : ((v.run cs).1.dispatch (.toggleFold q)).view.fold = some q :=
        fold_dispatch_toggleFold (h.run cs).marked (hpage'.trans hpage) (hself.trans hfold) hlate
      refine iff_of_false (fun hsame => ?_) fun hfrom => hq (hfrom hlate)
      rw [← hlast, hsame, hself, hfold] at hfolded
      cases hfolded
    · have hignored : (v.run cs).1.dispatch (.toggleFold q) = { view := (v.run cs).1 } :=
        dispatch_of_not_contains rfl
          ((h.run cs).aligned.indexed.contains_eq_false_iff.mpr hlate)
      refine iff_of_true ?_ fun harrived => absurd harrived hlate
      rw [hlast, hignored]

/-- However a view goes on, the thread, the colors, the bound rows, the selections and the
paints that it ends with are those without the fold controls, hints and changes of
reader among its commands, and every other command asks the same of the host, up to the
badge; and the fold, the hidden rows and their marks are those of the fold controls and
live posts alone. Between two fold controls on one post of a page without a fold, the
commands leave the view that they leave by themselves, unless the post arrives among
them. -/
theorem Reachable.no_interference (h : Reachable v) (cs : List Command) :
    (v.run cs).1.thread = (v.run (cs.filter fun c => !c.isOverlay)).1.thread ∧
    (v.run cs).1.wheel = (v.run (cs.filter fun c => !c.isOverlay)).1.wheel ∧
    (∀ n, ((v.run cs).1.row? n).map Row.looks =
      ((v.run (cs.filter fun c => !c.isOverlay)).1.row? n).map Row.looks) ∧
    ((v.answers cs).filter fun a => !a.1.isOverlay).map withoutBadges =
      (v.answers (cs.filter fun c => !c.isOverlay)).map withoutBadges ∧
    (v.run cs).1.fold = (v.run (cs.filter Command.bearsOnFold)).1.fold ∧
    (∀ n, (v.run cs).1.place? n = (v.run (cs.filter Command.bearsOnFold)).1.place? n) ∧
    (v.page = .thread → v.fold = none → (∀ c ∈ cs, c.isFold = false) → ∀ q,
      ((v.run (.toggleFold q :: cs ++ [.toggleFold q])).1 = (v.run cs).1 ↔
        (q ∈ (v.run cs).1.thread.numbers → q ∈ v.thread.numbers))) := by
  have hstrip : (v.run cs).1.strip true =
      (v.run (cs.filter fun c => !c.isOverlay)).1.strip true := by
    apply strip_run_congr
    rw [List.filter_filter]
    simp [Command.isStripped]
  have hthread := congrArg View.thread hstrip
  have hwheel := congrArg View.wheel hstrip
  have hlayout := (SameLayout.refl v).run h.aligned cs
  refine ⟨hthread, hwheel, fun n => ?_, answers_filter true v cs, hlayout.fold.symm,
    fun n => (hlayout.place n).symm,
    fun hpage hfold hcs _ => h.run_between_toggles_iff hpage hfold hcs⟩
  have hrow := congrArg (fun w => (w.row? n).map Row.looks) hstrip
  simp only [row?_strip, Option.map_map] at hrow
  exact hrow

section

open Sample

/-- A hint, a reply, a fold and a change of reader, and a quote of the reply. -/
def overlaid : List Command :=
  [.showHint one .fold, .insert ⟨two, post two (some one)⟩ none, .toggleFold one,
    .setIdentity (some (post one none).author), .quote two, .hideHint one]

/-- The reply and the quote leave the same paints by themselves, the reply and the fold
the same fold; and between folding and unfolding, the same view. -/
theorem no_interference_single :
    Reachable (opened {} single) ∧
    (((opened {} single).run overlaid).1.row? two).map Row.looks =
      (((opened {} single).run [.insert ⟨two, post two (some one)⟩ none, .quote two]).1.row?
        two).map Row.looks ∧
    ((opened {} single).run overlaid).1.fold = some one ∧
    ((opened {} single).run overlaid).1.place? two =
      ((opened {} single).run [.insert ⟨two, post two (some one)⟩ none, .toggleFold one]).1.place?
        two ∧
    (opened {} single).page = .thread ∧ (opened {} single).fold = none ∧
    one ∈ (opened {} single).thread.numbers ∧
    ((opened {} single).run [.toggleFold one, .insert ⟨two, post two (some one)⟩ none,
        .quote two, .toggleFold one]).1 =
      ((opened {} single).run [.insert ⟨two, post two (some one)⟩ none, .quote two]).1 := by
  have hreachable : Reachable (opened {} single) :=
    .opened (ofSnapshot_eq_ok_iff.mpr ⟨by decide, rfl⟩)
  obtain ⟨-, -, hlooks, -, hfold, hplace, -⟩ := hreachable.no_interference overlaid
  obtain ⟨-, -, -, -, -, -, hbetween⟩ := hreachable.no_interference
    [.insert ⟨two, post two (some one)⟩ none, .quote two]
  refine ⟨hreachable, hlooks two, hfold.trans (by decide), hplace two, rfl, fold_opened _ _,
    by decide, ?_⟩
  exact (hbetween rfl (fold_opened _ _) (by decide) one).mpr fun _ => by decide

/-- The fold control on a reply is used before the reply arrives, and once more after. -/
theorem not_restored_lateReply :
    Reachable (opened {} single) ∧ (opened {} single).page = .thread ∧
    (opened {} single).fold = none ∧
    ((opened {} single).run [.toggleFold two, .insert ⟨two, post two (some one)⟩ none,
        .toggleFold two]).1 ≠
      ((opened {} single).run [.insert ⟨two, post two (some one)⟩ none]).1 := by
  refine ⟨.opened (ofSnapshot_eq_ok_iff.mpr ⟨by decide, rfl⟩), rfl, fold_opened _ _, ?_⟩
  intro hsame
  exact absurd (congrArg View.fold hsame) (by decide)

end

end View

end Discussion
