import Discussion.Proofs.View.Marks
import Discussion.Proofs.View.Pinning

/-!
# Posts that take no part in interaction

A post without a bound row answers no command. This covers the placeholders, whose
rows are never bound, and the numbers that are not in the thread. The commands of the
links to replies look for the color of a post and not at its row, and the fold control
looks at neither; these are the commands that have to be told apart.
-/

namespace Discussion

namespace View

variable {v : View} {n : PostNumber} {c : Command} {row : Row}

/-! ## Rows that are not bound -/

theorem Aligned.mapBound_eq_self (hv : v.Aligned) (hfree : v.isBound n = false)
    (f : Highlight → Highlight) : v.modifyRow n (·.mapBound f) = v := by
  apply hv.modifyRow_eq_self
  intro row hrow
  rw [isBound_of_row? hrow] at hfree
  rw [Row.mapBound, if_neg (by simp [hfree])]

theorem linkedTarget?_of_not_bound (hfree : v.isBound n = false) :
    v.linkedTarget? n = none := by
  rw [linkedTarget?]
  cases hrow : v.row? n with
  | none => rfl
  | some row =>
    rw [isBound_of_row? hrow] at hfree
    simp [hfree]

theorem hoverHeader_of_not_bound (hfree : v.isBound n = false) : v.hoverHeader n = v := by
  rw [hoverHeader]
  split
  · rfl
  · rw [if_neg (by simp [hfree])]

theorem clickHeader_of_not_bound (hfree : v.isBound n = false) : v.clickHeader n = v := by
  rw [clickHeader]
  split
  · rename_i row _ hrow
    rw [isBound_of_row? hrow] at hfree
    rw [if_neg (by simp [hfree])]
  · rfl

theorem hoverNumber_of_not_bound (hfree : v.isBound n = false) : v.hoverNumber n = v := by
  rw [hoverNumber]
  split
  · rfl
  · rw [if_neg (by simp [hfree])]

/-- There is no hint to take off a row that is not bound. -/
theorem Reachable.hideHint_of_not_bound (h : Reachable v) (hfree : v.isBound n = false) :
    v.hideHint n = v := by
  apply h.aligned.modifyRow_eq_self
  intro row hrow
  rw [isBound_of_row? hrow] at hfree
  have hhint := ((h.wellPinned.rows n row hrow).idle hfree).hint
  have hself : { row.highlight with hint := none } = row.highlight :=
    Highlight.ext_parts (Highlight.part_hint _ _) rfl hhint.symm
  rw [Row.mapHighlight, hself]

/-- A post without a bound row answers no command but the fold control and those of
links to replies, and the latter only once it has a color. -/
theorem Reachable.perform_of_not_bound (h : Reachable v) (hfree : v.isBound n = false)
    (hc : c.post? = some n) (htoggle : c ≠ .toggleFold n)
    (hlink : ∀ reply, c = .hoverLink n reply ∨ c = .clickLink n reply →
      v.linkedReply? n reply = none) : v.perform c = { view := v } := by
  have htarget := linkedTarget?_of_not_bound hfree
  cases c with
  | hoverHeader k =>
    obtain rfl := Option.some.inj hc
    rw [perform, hoverHeader_of_not_bound hfree]
  | leaveHeader k =>
    obtain rfl := Option.some.inj hc
    rw [perform, leaveHeader, paint, h.aligned.mapBound_eq_self hfree]
  | clickHeader k =>
    obtain rfl := Option.some.inj hc
    rw [perform, clickHeader_of_not_bound hfree]
  | hoverNumber k =>
    obtain rfl := Option.some.inj hc
    rw [perform, hoverNumber_of_not_bound hfree]
  | quote k =>
    obtain rfl := Option.some.inj hc
    rw [perform, quote, if_neg (by simp [hfree])]
    rfl
  | hoverTarget k =>
    obtain rfl := Option.some.inj hc
    rw [perform, hoverTarget, htarget]
  | clickTarget k =>
    obtain rfl := Option.some.inj hc
    rw [perform, clickTarget, htarget]
    rfl
  | hoverLink k reply =>
    obtain rfl := Option.some.inj hc
    rw [perform, hoverLink, hlink reply (Or.inl rfl)]
  | clickLink k reply =>
    obtain rfl := Option.some.inj hc
    rw [perform, clickLink, hlink reply (Or.inr rfl)]
    rfl
  | showHint k hint =>
    obtain rfl := Option.some.inj hc
    rw [perform, showHint, h.aligned.mapBound_eq_self hfree]
  | hideHint k =>
    obtain rfl := Option.some.inj hc
    rw [perform, h.hideHint_of_not_bound hfree]
  | toggleFold k => exact absurd (congrArg Command.toggleFold (Option.some.inj hc)) htoggle
  | leaveLink | insert a footer | setIdentity identity => cases hc

/-! ## Unfolding -/

/-- Without a fold there is nothing to unfold. -/
theorem Marked.unfold_eq_self_iff (h : v.Marked) : v.unfold = v ↔ v.fold = none := by
  constructor
  · intro hself
    exact (congrArg View.fold hself).symm
  · intro hfold
    have hrows : (v.mapRows fun _ row => { row with hidden := false, mark := {} }) = v := by
      apply h.aligned.mapRows_eq_self
      intro k row hrow
      obtain ⟨hmark, hhidden⟩ := h.unmarked hfold hrow
      rw [← hmark, ← hhidden]
    rw [View.unfold, hrows, ← hfold]

/-! ## Posts that are not in the thread -/

theorem Aligned.isBound_of_not_mem (hv : v.Aligned) (hn : n ∉ v.thread.numbers) :
    v.isBound n = false := by
  rw [isBound, hv.row?_eq_none hn]
  rfl

theorem linkedReply?_of_not_mem (hv : v.thread.Indexed) (hn : n ∉ v.thread.numbers)
    (reply : PostNumber) : v.linkedReply? n reply = none := by
  have hget : v.thread.get? n = none :=
    Option.not_isSome_iff_eq_none.mp fun hsome => hn (hv.get?_isSome_iff.mp hsome)
  rw [linkedReply?, hget]
  rfl

/-- The fold control of a post that is not there unfolds the view all the same. -/
theorem Marked.toggleFold_of_not_mem (h : v.Marked) (hn : n ∉ v.thread.numbers) :
    v.toggleFold n = (v.unfold, []) := by
  have hfold : v.fold ≠ some n := fun hfold => hn (h.pivot n hfold).2
  rw [toggleFold]
  cases hpage : v.page with
  | query => rw [h.unfold_eq_self_iff.mpr (h.fold_eq_none hpage)]
  | thread =>
    have hcontains : v.unfold.thread.contains n = false :=
      h.aligned.indexed.contains_eq_false_iff.mpr hn
    -- the check for the post comes only once the view is unfolded
    dsimp only
    rw [if_neg hfold, View.foldAround, if_neg (by simp [hcontains])]

/-- Nothing comes of a command, a fold or a request for a color if its post is not in
the thread, whether the command is dispatched or its operation is called directly. The
one exception is the operation of the fold control: it drops the fold that the view
has, and so no operation has an effect exactly if there is no fold. -/
theorem Reachable.missing_post (h : Reachable v) (hn : n ∉ v.thread.numbers) :
    (∀ c, c.post? = some n → v.dispatch c = { view := v }) ∧
    v.foldOn n = (v, []) ∧
    v.requestColor n = (v, none) ∧
    (∀ c, c.post? = some n → c ≠ .toggleFold n → v.perform c = { view := v }) ∧
    v.perform (.toggleFold n) = { view := v.unfold } ∧
    ((∀ c, c.post? = some n → v.perform c = { view := v }) ↔ v.fold = none) := by
  have hv := h.aligned
  have hcontains := hv.indexed.contains_eq_false_iff.mpr hn
  have hperform : ∀ c, c.post? = some n → c ≠ .toggleFold n → v.perform c = { view := v } := by
    intro c hc htoggle
    apply h.perform_of_not_bound (hv.isBound_of_not_mem hn) hc htoggle
    exact fun reply _ => linkedReply?_of_not_mem hv.indexed hn reply
  have htoggle : v.perform (.toggleFold n) = { view := v.unfold } := by
    rw [perform, h.marked.toggleFold_of_not_mem hn]
    rfl
  refine ⟨fun c hc => dispatch_of_not_contains hc hcontains, ?_, ?_, hperform, htoggle, ?_⟩
  · rw [foldOn, foldAround, if_neg (by simp [hcontains])]
    cases v.page <;> rfl
  · rw [requestColor, if_neg (by simp [hcontains])]
  · rw [← h.marked.unfold_eq_self_iff]
    constructor
    · intro hall
      have hself := hall (.toggleFold n) rfl
      rw [htoggle] at hself
      exact congrArg Response.view hself
    · intro hself c hc
      by_cases hfold : c = .toggleFold n
      · rw [hfold, htoggle, hself]
      · exact hperform c hc hfold

section

open Sample

/-- In a view that is folded on a reply, the commands of a third number are ignored,
a click on its links does nothing, and the operation of its fold control unfolds. -/
theorem missing_post_foldedReply :
    Reachable foldedReply ∧ three ∉ foldedReply.thread.numbers ∧
    foldedReply.dispatch (.toggleFold three) = { view := foldedReply } ∧
    foldedReply.perform (.clickLink three two) = { view := foldedReply } ∧
    foldedReply.perform (.toggleFold three) = { view := foldedReply.unfold } ∧
    ¬ ∀ c, c.post? = some three → foldedReply.perform c = { view := foldedReply } := by
  have hopened : Reachable (opened {} single) := reachable_opened (by decide)
  have hreachable : Reachable foldedReply := (hopened.call _).call _
  have hmissing : three ∉ foldedReply.thread.numbers := by decide
  obtain ⟨hdispatch, -, -, hperform, htoggle, hall⟩ := hreachable.missing_post hmissing
  refine ⟨hreachable, hmissing, hdispatch _ rfl, hperform _ rfl (by simp), htoggle, ?_⟩
  rw [hall]
  decide

/-- The only post of a thread is folded on, and the fold control of a post that is not
there is worked directly: the fold is gone. -/
theorem not_missing_post_single :
    Reachable ((opened {} single).run [.toggleFold one]).1 ∧
    two ∉ ((opened {} single).run [.toggleFold one]).1.thread.numbers ∧
    ((opened {} single).run [.toggleFold one]).1.fold = some one ∧
    (((opened {} single).run [.toggleFold one]).1.perform (.toggleFold two)).view.fold = none := by
  have hopened : Reachable (opened {} single) := reachable_opened (by decide)
  exact ⟨hopened.run _, by decide, by decide, by decide⟩

end

end View

end Discussion
