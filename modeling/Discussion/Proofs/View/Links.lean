import Discussion.Proofs.Thread.Links
import Discussion.Proofs.View.Reach

/-!
# Links over runs

Over any run of a view, the links of a post are its children but for the replies
of the snapshot that had awaited it. So the rows that hovering points out as
replies to a post are those of the replies that did not await it.
-/

namespace Discussion

namespace View

open Thread (Linked)

variable {v w : View} {n m k : PostNumber} {c : Color} {settings : Settings} {s : Snapshot}

theorem linked_change (h : Linked s v.thread) (hvw : Change v w) : Linked s w.thread := by
  rcases hvw.thread_cases with heq | ⟨p, hp, heq⟩
  · rw [heq]
    exact h
  · rw [heq]
    apply h.receive
    · rw [settle_number]
      exact h.indexed.contains_eq_false_iff.mp hp
    · exact settled_settle h.indexed p

theorem linked_run (hv : View.ofSnapshot settings s = .ok v) (cs : List Command) :
    Linked s (v.run cs).1.thread := by
  obtain ⟨hnodup, rfl⟩ := ofSnapshot_eq_ok_iff.mp hv
  apply run_invariant (P := fun v => Linked s v.thread)
  · exact fun _ _ h hvw => linked_change h hvw
  · rw [thread_opened]
    exact Thread.linked_opened hnodup

theorem Reachable.linked (h : Reachable v) : ∃ s, Linked s v.thread := by
  apply h.invariant (P := fun v => ∃ s, Linked s v.thread)
  · intro settings s v hv
    exact ⟨s, linked_run hv []⟩
  · rintro v w ⟨s, hv⟩ hvw
    exact ⟨s, linked_change hv hvw⟩

/-! ## Hovering -/

/-- A row links to its target if it is bound and its link has a color. -/
theorem linkedTarget?_eq_some_iff :
    v.linkedTarget? n = some m ↔ ∃ row, v.row? n = some row ∧ row.bound = true ∧
      row.highlight.target.accent ≠ none ∧ v.thread.target? n = some m := by
  rw [linkedTarget?]
  cases v.row? n with
  | none => simp
  | some row => simp [Option.isSome_iff_ne_none, and_assoc]

theorem linkedReply?_eq_some_iff :
    v.linkedReply? n k = some c ↔ k ∈ v.thread.linksOf n ∧ v.linkColor? n = some c := by
  rw [linkedReply?, Thread.linksOf]
  cases v.thread.get? n with
  | none => simp
  | some e => simp

/-- Pointing out a post points out those that reply to it and did not await it. -/
theorem hoverNumber_eq (h : Linked s v.thread) (hn : n ∈ v.thread.numbers)
    (hc : v.linkColor? n = some c) (hbound : v.isBound n = true) :
    v.hoverNumber n = v.paintAll fun k =>
      if v.thread.target? k = some n ∧ k ∉ s.awaiting n then replyCues c
      else if k = n then numberCues else plainCues := by
  rw [hoverNumber, hc]
  dsimp only
  rw [if_pos hbound]
  simp only [h.mem_linksOf_iff hn]

/-- Pointing out a target points out the other replies that did not await it. -/
theorem hoverTarget_eq (h : Linked s v.thread) (hn : n ∈ v.thread.numbers)
    (hk : v.linkedTarget? k = some n) (hc : v.linkColor? n = some c) :
    v.hoverTarget k = v.paintAll fun j =>
      if j = n then referredCues c
      else if v.thread.target? j = some n ∧ j ∉ s.awaiting n then targetCues else plainCues := by
  rw [hoverTarget, hk]
  dsimp only
  rw [hc]
  simp only [h.mem_linksOf_iff hn]

/-! ## All runs -/

/-- The links of every post are its children. -/
def LinksChildren (v : View) : Prop :=
  ∀ n ∈ v.thread.numbers, v.thread.linksOf n = v.thread.children n

/-- The arrival of an awaited post makes links and children differ. -/
theorem not_linksChildren_insert (hv : View.ofSnapshot settings s = .ok v) {p : Post}
    (hwait : s.awaiting p.number ≠ []) :
    ¬ (v.run [.insert ⟨p.number, p⟩ none]).1.LinksChildren := by
  have hlinked := linked_run hv [.insert ⟨p.number, p⟩ none]
  have hmem : p.number ∉ v.thread.numbers := by
    obtain ⟨-, rfl⟩ := ofSnapshot_eq_ok_iff.mp hv
    rw [numbers_opened]
    exact fun hn => hwait (Snapshot.awaiting_of_mem hn)
  have hnew := (aligned_opened hv).indexed.contains_eq_false_iff.mpr hmem
  have hmerge : (v.run [.insert ⟨p.number, p⟩ none]).1 = v.merge p :=
    dispatch_insert rfl hnew none
  rw [hmerge] at hlinked ⊢
  have hn : p.number ∈ (v.merge p).thread.numbers := by
    rw [thread_merge, Thread.mem_numbers_receive, settle_number]
    exact Or.inr rfl
  intro hall
  exact hwait ((hlinked.linksOf_eq_children_iff hn).mp (hall _ hn))

/-- In every view of a run, the children of a post are the replies of the snapshot
that awaited it, followed by its links; hovering points out as its replies those
that it links back to. In all views of all runs the links are the children exactly
if the snapshot has every parent that its posts name. -/
theorem linksOf_run (hv : View.ofSnapshot settings s = .ok v) :
    (∀ cs, ∀ n ∈ (v.run cs).1.thread.numbers,
      (v.run cs).1.thread.children n = s.awaiting n ++ (v.run cs).1.thread.linksOf n ∧
      ((v.run cs).1.thread.linksOf n = (v.run cs).1.thread.children n ↔ s.awaiting n = []) ∧
      (∀ k, k ∈ (v.run cs).1.thread.linksOf n ↔
        (v.run cs).1.thread.target? k = some n ∧ k ∉ s.awaiting n) ∧
      (∀ c, (v.run cs).1.linkColor? n = some c → (v.run cs).1.isBound n = true →
        (v.run cs).1.hoverNumber n = (v.run cs).1.paintAll fun k =>
          if (v.run cs).1.thread.target? k = some n ∧ k ∉ s.awaiting n then replyCues c
          else if k = n then numberCues else plainCues) ∧
      (∀ k c, (v.run cs).1.linkedTarget? k = some n → (v.run cs).1.linkColor? n = some c →
        (v.run cs).1.hoverTarget k = (v.run cs).1.paintAll fun j =>
          if j = n then referredCues c
          else if (v.run cs).1.thread.target? j = some n ∧ j ∉ s.awaiting n then targetCues
          else plainCues)) ∧
    ((∀ cs, (v.run cs).1.LinksChildren) ↔ s.Complete) := by
  have hlinked := linked_run hv
  constructor
  · intro cs n hn
    have h := hlinked cs
    exact ⟨h.links n hn, h.linksOf_eq_children_iff hn, fun k => h.mem_linksOf_iff hn,
      fun c => hoverNumber_eq h hn, fun k c => hoverTarget_eq h hn⟩
  · constructor
    · intro hall
      rw [Snapshot.complete_iff]
      intro n
      by_contra hwait
      obtain ⟨k, hk⟩ := List.exists_mem_of_ne_nil _ hwait
      have hn : n ∉ s.posts.map (·.number) := by
        intro hn
        exact hwait (Snapshot.awaiting_of_mem hn)
      rw [Snapshot.awaiting_of_not_mem hn, List.mem_map] at hk
      obtain ⟨post, -, -⟩ := hk
      exact not_linksChildren_insert (p := { post with number := n }) hv hwait (hall _)
    · intro hcomplete cs n hn
      exact ((hlinked cs).linksOf_eq_children_iff hn).mpr (Snapshot.complete_iff.mp hcomplete n)

/-! ## A reply before its parent -/

section

open Sample

/-- One post, which replies to a post that is missing. -/
def orphan : Snapshot := snapshot [post one (some two)]

/-- The missing post arrives. -/
def lateParent : List Command := [.insert ⟨two, post two none⟩ none]

theorem ofSnapshot_orphan : View.ofSnapshot {} orphan = .ok (opened {} orphan) :=
  ofSnapshot_eq_ok_iff.mpr ⟨by decide, rfl⟩

/-- Over this run the late parent has a child that its links lack. -/
theorem linksOf_run_lateParent :
    View.ofSnapshot {} orphan = .ok (opened {} orphan) ∧
    two ∈ ((opened {} orphan).run lateParent).1.thread.numbers ∧
    ((opened {} orphan).run lateParent).1.thread.children two =
      orphan.awaiting two ++ ((opened {} orphan).run lateParent).1.thread.linksOf two ∧
    orphan.awaiting two = [one] ∧
    ¬ ∀ cs, ((opened {} orphan).run cs).1.LinksChildren := by
  have hmem : two ∈ ((opened {} orphan).run lateParent).1.thread.numbers := by decide
  have hlinks := linksOf_run ofSnapshot_orphan
  refine ⟨ofSnapshot_orphan, hmem, (hlinks.1 lateParent two hmem).1, by decide, ?_⟩
  intro hall
  have hcomplete := Snapshot.complete_iff.mp (hlinks.2.mp hall) two
  revert hcomplete
  decide

/-- A post that arrives after the reply to it has a child and no link. -/
theorem not_linksChildren_lateParent :
    View.ofSnapshot {} orphan = .ok (opened {} orphan) ∧
    ((opened {} orphan).run lateParent).1.thread.target? one = some two ∧
    ((opened {} orphan).run lateParent).1.thread.children two = [one] ∧
    ((opened {} orphan).run lateParent).1.thread.linksOf two = [] ∧
    ¬ ((opened {} orphan).run lateParent).1.LinksChildren := by
  refine ⟨ofSnapshot_orphan, by decide, by decide, by decide, ?_⟩
  intro hall
  have heq := hall two (by decide)
  revert heq
  decide

end

end View

end Discussion
