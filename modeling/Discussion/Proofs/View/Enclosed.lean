import Discussion.Proofs.View.Asking
import Discussion.Proofs.View.Lit
import Discussion.Proofs.View.Marks

/-!
# Colored links stay in view

The conversation that a fold keeps is closed under targets, and an arrival is shown
only if its parent is. So a visible row with a colored link leads to a visible row.
The color matters: a row that named a post before the post arrived is linked to it
without a color, and the fold may keep the row and hide the post.
-/

namespace Discussion

namespace View

variable {v w : View} {p : Post} {n m k : PostNumber} {row : Row} {settings : Settings}
  {s : Snapshot}

/-- The row of a post is visible. -/
def Visible (v : View) (n : PostNumber) : Prop := ∃ row, v.row? n = some row ∧ row.hidden = false

/-- The link of a post's row to its target has a color. -/
def LinkLit (v : View) (n : PostNumber) : Prop :=
  ∃ row, v.row? n = some row ∧ row.highlight.target.accent ≠ none

/-- The colored links of visible rows lead to visible rows. -/
def Enclosed (v : View) : Prop :=
  ∀ n m, v.Visible n → v.LinkLit n → v.thread.target? n = some m → v.Visible m

/-! ## Visible rows -/

theorem visible_iff_place : v.Visible n ↔ ∃ a, v.place? n = some a ∧ a.hidden = false := by
  constructor
  · rintro ⟨row, hrow, hvisible⟩
    exact ⟨row.place, place?_eq_some_iff.mpr ⟨row, hrow, rfl⟩, hvisible⟩
  · rintro ⟨a, ha, hvisible⟩
    obtain ⟨row, hrow, rfl⟩ := place?_eq_some_iff.mp ha
    exact ⟨row, hrow, hvisible⟩

theorem visible_congr (h : w.place? n = v.place? n) : w.Visible n ↔ v.Visible n := by
  rw [visible_iff_place, visible_iff_place, h]

theorem visible_of_keeps (h : v.keeps n = true) : v.Visible n := by
  obtain ⟨a, ha, hkept⟩ := (Option.any_eq_true _ _).mp h
  rw [Bool.and_eq_true, Bool.not_eq_true'] at hkept
  exact visible_iff_place.mpr ⟨a, ha, hkept.1⟩

theorem Marked.visible (h : v.Marked) (hfold : v.fold = none) (hn : n ∈ v.thread.numbers) :
    v.Visible n := by
  obtain ⟨row, hrow⟩ := h.aligned.exists_row hn
  exact ⟨row, hrow, (h.unmarked hfold hrow).2⟩

theorem visible_foldAround_iff (h : v.Aligned) (hk : v.thread.contains k = true)
    (hn : n ∈ v.thread.numbers) :
    (v.foldAround k).1.Visible n ↔ n ∈ v.thread.conversation k := by
  obtain ⟨a, ha⟩ := h.exists_place hn
  rw [visible_iff_place, place?_foldAround hk, ha]
  simp

theorem mem_of_visible (h : v.Aligned) (hn : v.Visible n) : n ∈ v.thread.numbers := by
  obtain ⟨row, hrow, -⟩ := hn
  exact h.mem_of_row? hrow

/-- A visible arrival has no parent, or its parent is visible. -/
theorem visible_parent (h : v.Marked) (hp : p.number ∉ v.thread.numbers)
    (hvisible : (v.merge p).Visible p.number) (hm : (v.settle p).parent = some m) :
    v.Visible m := by
  have hmem : m ∈ v.thread.numbers := (settled_settle h.aligned.indexed p m hm).2
  cases hfold : v.fold with
  | none => exact h.visible hfold hmem
  | some pivot =>
    obtain ⟨a, ha, hshown⟩ := visible_iff_place.mp hvisible
    rw [place?_merge_self h.aligned.indexed hp, hfold, hm] at ha
    obtain rfl := Option.some.inj ha
    exact visible_of_keeps (by simpa using hshown)

/-! ## Colored links -/

theorem LinkLit.of_sameColors (h : w.LinkLit n) (hvw : v.SameColors w) : v.LinkLit n := by
  obtain ⟨row, hrow, haccent⟩ := h
  obtain ⟨old, hold, hsame⟩ := hvw.exists_row hrow
  exact ⟨old, hold, (hsame.base .target).1 ▸ haccent⟩

/-- The color of a post is not that of its link. -/
theorem LinkLit.of_requestColor (h : (v.requestColor k).1.LinkLit n) : v.LinkLit n := by
  rcases requestColor_cases v k with heq | ⟨-, -, heq⟩
  · rwa [heq] at h
  · obtain ⟨row, hrow, haccent⟩ := h
    rw [heq] at hrow
    obtain ⟨old, hold, htint⟩ := exists_row_of_handOut hrow
    exact ⟨old, hold, (link_of_tint htint).1 ▸ haccent⟩

theorem LinkLit.of_merge (h : (v.merge p).LinkLit n) (hv : v.Aligned)
    (hp : p.number ∉ v.thread.numbers) (hn : n ≠ p.number) : v.LinkLit n := by
  obtain ⟨row, hrow, haccent⟩ := h
  obtain ⟨old, hold, htint⟩ := exists_row_of_merge hv.indexed hp hn hrow
  exact ⟨old, hold, (link_of_tint htint).1 ▸ haccent⟩

/-! ## Changes -/

namespace Enclosed

theorem of_sameLayout (h : v.Enclosed) (hvw : v.SameLayout w)
    (hlit : ∀ n, w.LinkLit n → v.LinkLit n) : w.Enclosed := by
  intro n m hvisible haccent hm
  rw [hvw.thread] at hm
  rw [visible_congr (hvw.place n)] at hvisible
  rw [visible_congr (hvw.place m)]
  exact h n m hvisible (hlit n haccent) hm

theorem foldAround (hv : v.Aligned) (hk : v.thread.contains k = true) :
    (v.foldAround k).1.Enclosed := by
  intro n m hvisible _ hm
  rw [thread_foldAround] at hm
  have hnmem := hv.indexed.mem_of_target? hm
  have hmmem := hv.indexed.target?_mem hm
  rw [visible_foldAround_iff hv hk hnmem] at hvisible
  rw [visible_foldAround_iff hv hk hmmem]
  exact hv.indexed.mem_conversation_of_replies (hv.indexed.contains_iff.mp hk) hvisible hm

theorem unfold (hv : v.Marked) : v.unfold.Enclosed :=
  fun _ _ _ _ hm => hv.unfold.visible rfl (hv.aligned.indexed.target?_mem hm)

/-- An arrival is shown with its parent, and it changes no link that has a color. -/
theorem merge (h : v.Enclosed) (hv : v.Marked) (hlit : v.Lit)
    (hp : p.number ∉ v.thread.numbers) : (v.merge p).Enclosed := by
  intro n m hvisible haccent hm
  have hindexed := hv.aligned.indexed
  have htarget : v.Visible m := by
    by_cases hn : n = p.number
    · have hnew : (v.settle p).number ∉ v.thread.numbers := by rwa [settle_number]
      have hself := hindexed.target?_receive_self hnew (settled_settle hindexed p)
      subst hn
      rw [settle_number, ← thread_merge, hm] at hself
      exact visible_parent hv hp hvisible hself.symm
    · have hold := haccent.of_merge hv.aligned hp hn
      rw [visible_congr (place?_merge_of_ne hn)] at hvisible
      -- the target of a colored link was there when the link got its color
      obtain ⟨row, hrow, hcolored⟩ := hold
      obtain ⟨-, j, hj, -⟩ := (hlit n row hrow).leads hcolored
      have hjm : some j = some m := (target?_merge hv.aligned hp hj).symm.trans hm
      obtain rfl := Option.some.inj hjm
      exact h n j hvisible ⟨row, hrow, hcolored⟩ hj
  have hne : m ≠ p.number := by
    rintro rfl
    exact hp (mem_of_visible hv.aligned htarget)
  rwa [visible_congr (place?_merge_of_ne hne)]

theorem change (h : v.Enclosed) (hv : v.Marked) (hlit : v.Lit) (hvw : Change v w) :
    w.Enclosed := by
  cases hvw with
  | retouch hr => exact h.of_sameLayout hr.sameLayout fun _ hn => hn.of_sameColors hr.sameColors
  | merge p hp => exact h.merge hv hlit (hv.aligned.indexed.contains_eq_false_iff.mp hp)
  | fold k _ hk => exact foldAround hv.aligned hk
  | unfold => exact unfold hv
  | color k => exact h.of_sameLayout (sameLayout_requestColor v k) fun _ hn => hn.of_requestColor

end Enclosed

theorem enclosed_opened (hv : View.ofSnapshot settings s = .ok v) : v.Enclosed := by
  have hmarked := marked_opened hv
  have hfold : v.fold = none := by
    obtain ⟨-, rfl⟩ := ofSnapshot_eq_ok_iff.mp hv
    exact fold_opened settings s
  exact fun _ _ _ _ hm => hmarked.visible hfold (hmarked.aligned.indexed.target?_mem hm)

theorem Reachable.enclosed (h : Reachable v) : v.Enclosed := by
  induction h with
  | opened hv => exact enclosed_opened hv
  | @call v hv c ih => exact ih.change hv.marked hv.lit (change_call v c)

/-! ## Clicks -/

theorem dispatch_clickTarget (hn : v.thread.contains n = true) :
    v.dispatch (.clickTarget n) = respond (v.clickTarget n) := by
  rw [dispatch_eq_perform]
  · rfl
  · rintro k ⟨rfl⟩
    exact hn

theorem linkedTarget?_of_accent_eq_none (hrow : v.row? n = some row)
    (haccent : row.highlight.target.accent = none) : v.linkedTarget? n = none := by
  rw [linkedTarget?, hrow, Option.bind_eq_bind, Option.bind_some, if_neg]
  simp [haccent]

/-- In every view that is reached, folded or not, the colored link of a visible row
leads to a visible row, and a click on it scrolls there. A click on a link without a
color does nothing. So no click on the link of a visible row scrolls to a row that is
hidden before it or after it. -/
theorem Reachable.links_stay_in_view (h : Reachable v) (hrow : v.row? n = some row)
    (hvisible : row.hidden = false) :
    (row.highlight.target.accent ≠ none → ∃ m target, v.thread.target? n = some m ∧
      v.row? m = some target ∧ target.hidden = false ∧
      (v.dispatch (.clickTarget n)).effects = [.scrollTo (.post m)]) ∧
    (row.highlight.target.accent = none → v.dispatch (.clickTarget n) = { view := v }) ∧
    (∀ m, .scrollTo (.post m) ∈ (v.dispatch (.clickTarget n)).effects →
      v.Visible m ∧ (v.dispatch (.clickTarget n)).view.Visible m) := by
  have hcontains := h.aligned.indexed.contains_iff.mpr (h.aligned.mem_of_row? hrow)
  have hdispatch := dispatch_clickTarget hcontains
  have hlit := h.lit n row hrow
  have hcolored : row.highlight.target.accent ≠ none → ∃ m target,
      v.thread.target? n = some m ∧ v.row? m = some target ∧ target.hidden = false ∧
      (v.dispatch (.clickTarget n)).effects = [.scrollTo (.post m)] := by
    intro haccent
    obtain ⟨hbound, m, hm, -⟩ := hlit.leads haccent
    have hlink := linkedTarget?_eq_some_iff.mpr ⟨row, hrow, hbound, haccent, hm⟩
    obtain ⟨target, htarget, hshown⟩ :=
      h.enclosed n m ⟨row, hrow, hvisible⟩ ⟨row, hrow, haccent⟩ hm
    refine ⟨m, target, hm, htarget, hshown, ?_⟩
    rw [hdispatch, clickTarget, hlink]
    rfl
  have hplain : row.highlight.target.accent = none →
      v.dispatch (.clickTarget n) = { view := v } := by
    intro haccent
    rw [hdispatch, clickTarget, linkedTarget?_of_accent_eq_none hrow haccent]
    rfl
  refine ⟨hcolored, hplain, ?_⟩
  intro m hscroll
  by_cases haccent : row.highlight.target.accent = none
  · rw [hplain haccent] at hscroll
    cases hscroll
  · obtain ⟨j, target, -, htarget, hshown, heffects⟩ := hcolored haccent
    rw [heffects, List.mem_singleton] at hscroll
    obtain rfl : m = j := by simpa using hscroll
    have hbefore : v.Visible m := ⟨target, htarget, hshown⟩
    have hlayout : v.SameLayout (v.dispatch (.clickTarget n)).view := by
      rw [hdispatch]
      exact (retouched_clickTarget v n).sameLayout
    exact ⟨hbefore, (visible_congr (hlayout.place m)).mpr hbefore⟩

section

open Sample

/-- Two posts that reply to each other are folded on the first when a reply to the
second arrives. -/
def joinedCycle : View :=
  ((opened {} (snapshot [post one (some two), post two (some one)])).call (.foldOn one)).call
    (.insert ⟨three, post three (some two)⟩ false)

/-- The reply is shown, and a click on its link scrolls to the second post. -/
theorem links_stay_in_view_joinedCycle :
    Reachable joinedCycle ∧ joinedCycle.fold = some one ∧
    (∃ row, joinedCycle.row? three = some row ∧ row.hidden = false ∧
      row.highlight.target.accent ≠ none) ∧
    (joinedCycle.dispatch (.clickTarget three)).effects = [.scrollTo (.post two)] ∧
    (joinedCycle.dispatch (.clickTarget three)).view.Visible two := by
  have hopened :
      Reachable (opened {} (snapshot [post one (some two), post two (some one)])) :=
    reachable_opened (by decide)
  have hreachable : Reachable joinedCycle := (hopened.call _).call _
  have hshown : (joinedCycle.row? three).any (fun row => !row.hidden) = true := by
    decide +kernel
  obtain ⟨row, hrow, hvisible⟩ := (Option.any_eq_true _ _).mp hshown
  rw [Bool.not_eq_true'] at hvisible
  have hlink : joinedCycle.linkedTarget? three = some two := by decide
  have haccent : row.highlight.target.accent ≠ none := by
    intro hnone
    rw [linkedTarget?_of_accent_eq_none hrow hnone] at hlink
    cases hlink
  obtain ⟨hcolored, -, hscroll⟩ := hreachable.links_stay_in_view hrow hvisible
  obtain ⟨m, -, hm, -, -, heffects⟩ := hcolored haccent
  rw [target?_of_linkedTarget? hlink] at hm
  obtain rfl := Option.some.inj hm
  refine ⟨hreachable, by decide, ⟨row, hrow, hvisible, haccent⟩, heffects, ?_⟩
  exact (hscroll two (by rw [heffects]; exact List.mem_singleton_self _)).2

/-- The target of a link without a color may be hidden while the link is in view: here
it arrives after the fold on the post that names it. -/
example :
    let v := ((opened {} (snapshot [post two (some three)])).call (.foldOn two)).call
      (.insert ⟨three, post three none⟩ false)
    v.thread.target? two = some three ∧ (v.row? two).any (fun row => !row.hidden) = true ∧
      (v.row? three).any (·.hidden) = true := by
  decide +kernel

end

end View

end Discussion
