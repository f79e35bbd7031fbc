import Discussion.Page.Thread
import Discussion.Proofs.View.Decoration
import Discussion.Proofs.View.Loading

/-!
# Hovering leaves no residue

Only the last cue that a part follows counts. So once the pointer has left, nothing
tells where it has been.
-/

namespace Discussion

namespace PostMap

variable {α : Type} {m : PostMap α} {f : PostNumber → α → α}

/-- A change that leaves every value alone changes nothing. -/
theorem map_eq_self (hnodup : m.keys.Nodup) (h : ∀ n a, m.get? n = some a → f n a = a) :
    m.map f = m := by
  have hentries : m.entries.map (fun e => (e.1, f e.1 e.2)) = m.entries := by
    rw [List.map_congr_left (g := id), List.map_id]
    rintro ⟨k, a⟩ he
    dsimp only
    rw [h k a (get?_eq_some_of_mem hnodup he)]
    rfl
  rw [map, hentries]

end PostMap

namespace View

variable {v w : View} {n : PostNumber} {row : Row}

theorem hovered_run {hs : List Command} (hhs : ∀ c ∈ hs, c.isHover = true) :
    v.Hovered (v.run hs).1 ∧ (v.run hs).2 = [] := by
  induction hs generalizing v with
  | nil => exact ⟨.refl v, rfl⟩
  | cons c rest ih =>
    rw [List.forall_mem_cons] at hhs
    obtain ⟨hview, heffects⟩ := hovered_dispatch (v := v) hhs.1
    obtain ⟨hlater, hnone⟩ := ih (v := (v.dispatch c).view) hhs.2
    rw [run_cons]
    exact ⟨hview.trans hlater, by rw [heffects, hnone]; rfl⟩

/-! ## Changes that change nothing -/

theorem Aligned.mapRows_eq_self (hv : v.Aligned) {f : PostNumber → Row → Row}
    (hf : ∀ n row, v.row? n = some row → f n row = row) : v.mapRows f = v := by
  rw [mapRows, PostMap.map_eq_self (hv.keys ▸ hv.indexed.nodup) hf]

theorem Aligned.modifyRow_eq_self (hv : v.Aligned) {f : Row → Row}
    (hf : ∀ row, v.row? n = some row → f row = row) : v.modifyRow n f = v := by
  rw [modifyRow, PostMap.modify_eq_self (hv.keys ▸ hv.indexed.nodup) hf]

/-! ## Leaving -/

/-- What the pointer has hovered is gone when it leaves. -/
theorem Hovered.leaveLink_eq (h : v.Hovered w) : w.leaveLink = v.leaveLink := by
  obtain ⟨f, hf, rfl⟩ := h
  have hrow : ∀ n (row : Row), (f n row).mapHighlight (·.rest v.palette) =
      row.mapHighlight (·.rest v.palette) := fun n row => (hf n row).rest_eq
  calc (v.mapRows f).leaveLink
      = v.mapRows fun n row => (f n row).mapHighlight (·.rest v.palette) := by
        rw [leaveLink, mapRows, mapRows, PostMap.map_map]
        rfl
    _ = v.leaveLink := by
        simp only [hrow]
        rfl

theorem row?_leaveLink (v : View) (n : PostNumber) :
    v.leaveLink.row? n = (v.row? n).map (·.mapHighlight (·.rest v.palette)) :=
  row?_mapRows v _ n

/-- Once the pointer has left, a part shows its pinned paint, or else its base. -/
theorem exists_row_of_leaveLink (hrow : v.leaveLink.row? n = some row) :
    ∃ old, v.row? n = some old ∧ row.bound = old.bound ∧ ∀ p,
      (row.highlight.part p).pinned = (old.highlight.part p).pinned ∧
      (row.highlight.part p).base = (old.highlight.part p).base ∧
      (row.highlight.part p).visible =
        (row.highlight.part p).pinned.getD (row.highlight.part p).base := by
  rw [row?_leaveLink, Option.map_eq_some_iff] at hrow
  obtain ⟨old, hold, rfl⟩ := hrow
  refine ⟨old, hold, rfl, fun p => ?_⟩
  have hpart : (old.mapHighlight (·.rest v.palette)).highlight.part p =
      (old.highlight.part p).follow v.palette .rest := Highlight.part_follow _ _ _ p
  rw [hpart, Layers.pinned_follow, Layers.base_follow, Layers.visible_follow_rest]
  exact ⟨rfl, rfl, rfl⟩

/-- Leaving changes nothing where no part has a hover paint in view. -/
theorem Aligned.leaveLink_eq_self (hv : v.Aligned)
    (hrest : ∀ n row, v.row? n = some row → ∀ p, (row.highlight.part p).isPinned = false →
      (row.highlight.part p).hover = none) : v.leaveLink = v := by
  apply hv.mapRows_eq_self
  intro n row hrow
  rw [Row.mapHighlight, Highlight.rest_eq_self (hrest n row hrow)]

/-- However the pointer hovers and leaves parts of posts, the host is asked for
nothing, and once it has left the view is the one that leaving alone makes of the
view before. Every part of it shows its pinned paint, or else its base. If no part
had a hover paint in view before, it is the view before, with the same page. -/
theorem Reachable.leave_after_hovers (h : Reachable v) {hs : List Command}
    (hhs : ∀ c ∈ hs, c.isHover = true) :
    (v.run (hs ++ [.leaveLink])).2 = [] ∧
    (v.run (hs ++ [.leaveLink])).1 = (v.run [.leaveLink]).1 ∧
    (∀ n row, (v.run [.leaveLink]).1.row? n = some row →
      ∃ old, v.row? n = some old ∧ ∀ p,
        (row.highlight.part p).pinned = (old.highlight.part p).pinned ∧
        (row.highlight.part p).base = (old.highlight.part p).base ∧
        (row.highlight.part p).visible =
          match (row.highlight.part p).pinned with
          | some paint => paint
          | none => (row.highlight.part p).base) ∧
    ((∀ n row, v.row? n = some row → ∀ p, (row.highlight.part p).isPinned = false →
        (row.highlight.part p).hover = none) →
      (v.run (hs ++ [.leaveLink])).1 = v ∧
      (v.run (hs ++ [.leaveLink])).1.render = v.render) := by
  obtain ⟨hview, heffects⟩ := hovered_run (v := v) hhs
  have hleave : (v.run (hs ++ [.leaveLink])).1 = v.leaveLink := by
    rw [run_append]
    exact hview.leaveLink_eq
  refine ⟨?_, hleave, ?_, ?_⟩
  · rw [run_append, heffects]
    rfl
  · intro n row hrow
    obtain ⟨old, hold, -, hparts⟩ := exists_row_of_leaveLink hrow
    refine ⟨old, hold, fun p => ?_⟩
    obtain ⟨hpinned, hbase, hvisible⟩ := hparts p
    refine ⟨hpinned, hbase, hvisible.trans ?_⟩
    cases (row.highlight.part p).pinned <;> rfl
  · intro hrest
    have hself : (v.run (hs ++ [.leaveLink])).1 = v :=
      hleave.trans (h.aligned.leaveLink_eq_self hrest)
    exact ⟨hself, by rw [hself]⟩

section

open Sample

/-- The view of a post with a reply, after a click on the link to the reply and
once the pointer has left it. -/
def clickedReply : View :=
  (((opened {} single).call (.insert ⟨two, post two (some one)⟩ true)).call
    (.dispatch (.clickLink one two))).call (.dispatch .leaveLink)

/-- The pointer moves over both posts. -/
def wandering : List Command :=
  [.hoverHeader one, .hoverNumber one, .leaveLink, .hoverTarget two, .leaveHeader three,
    .hoverLink one two]

/-- A click on a link leaves pinned paint and no hover paint in view, so that the
pointer can wander without a trace. -/
theorem leave_after_hovers_clickedReply :
    Reachable clickedReply ∧ (∀ c ∈ wandering, c.isHover = true) ∧
    (clickedReply.run wandering).1 ≠ clickedReply ∧
    (clickedReply.run (wandering ++ [.leaveLink])).2 = [] ∧
    (clickedReply.run (wandering ++ [.leaveLink])).1 = clickedReply := by
  have hopened : Reachable (opened {} single) :=
    .opened (ofSnapshot_eq_ok_iff.mpr ⟨by decide, rfl⟩)
  have hreachable : Reachable clickedReply := ((hopened.call _).call _).call _
  have hhovers : ∀ c ∈ wandering, c.isHover = true := by decide
  have hrest : ∀ e ∈ clickedReply.rows.entries, ∀ p ∈ Part.all,
      (e.2.highlight.part p).isPinned = false → (e.2.highlight.part p).hover = none := by decide
  obtain ⟨heffects, -, -, hself⟩ := hreachable.leave_after_hovers hhovers
  refine ⟨hreachable, hhovers, by decide, heffects, (hself ?_).1⟩
  intro n row hrow p
  exact hrest (n, row) (PostMap.mem_of_get? hrow) p (by cases p <;> decide)

end

end View

end Discussion
