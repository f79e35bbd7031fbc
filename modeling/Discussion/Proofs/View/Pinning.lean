import Discussion.Proofs.View.Accents
import Discussion.Proofs.View.Calm
import Discussion.Proofs.View.Repinning

/-!
# The shape of pinned paint

A click on a header pins headers and bodies, together with the selection of the
author; a quote and a click on a link pin the number and the body of one row after
all else is dropped. However these follow each other, and whatever comes between
them, pinned paint keeps the same shape.
-/

namespace Discussion

namespace Highlight

open View (authorParts selectHighlight deselectHighlight selectCues)

/-- A highlight from which all is dropped has only its hint left. -/
theorem idle_repin_rest {h : Highlight} (hhint : h.hint = none) (palette : Palette) :
    (h.repin palette (fun _ => .rest) []).Idle := by
  refine ⟨fun p => ?_, fun p => ?_, rfl, hhint⟩
  · rw [part_repin, if_neg List.not_mem_nil]
    rfl
  · rw [pinned_repin, if_neg List.not_mem_nil]

/-- Selecting an author pins the header and the body. -/
theorem pinned_selectHighlight (palette : Palette) (pale : Color) (h : Highlight) (p : Part) :
    ((selectHighlight palette pale h).part p).pinned =
      if p ∈ authorParts then some ((h.part p).follow palette (selectCues pale p)).visible
      else (h.part p).pinned := by
  have hpart : (selectHighlight palette pale h).part p =
      ((h.follow palette (selectCues pale)).pin authorParts).part p := part_authorSelected _ _ p
  rw [hpart, part_pin, part_follow]
  split
  · exact Layers.pinned_pin _
  · exact Layers.pinned_follow _ _ _

/-- Deselecting an author unpins the header and the body. -/
theorem pinned_deselectHighlight (palette : Palette) (h : Highlight) (p : Part) :
    ((deselectHighlight palette h).part p).pinned =
      if p ∈ authorParts then none else (h.part p).pinned := by
  have hpart : (deselectHighlight palette h).part p = ((h.unpin authorParts).rest palette).part p :=
    part_authorSelected _ _ p
  rw [hpart, rest, part_follow, Layers.pinned_follow, unpin, part_mapParts]
  split <;> rfl

end Highlight

namespace Row

open View (postParts selectHighlight deselectHighlight)

variable {row row' : Row} {palette : Palette}

/-- The parts that can be pinned in one row. -/
structure WellPinned (row : Row) : Prop where
  target : row.highlight.target.pinned = none
  header : row.highlight.header.isPinned = row.highlight.authorSelected
  body : row.highlight.body.isPinned = true →
    row.highlight.authorSelected = true ∨ row.highlight.number.isPinned = true
  idle : row.bound = false → row.highlight.Idle

theorem Unpinned.wellPinned (h : row.Unpinned) : row.WellPinned := by
  have hfree : ∀ p, (row.highlight.part p).isPinned = false := by
    intro p
    rw [Layers.isPinned, h.pinned]
    rfl
  exact ⟨h.pinned .target, (hfree .header).trans h.selected.symm,
    fun hbody => absurd hbody (by simp [show row.highlight.body.isPinned = false from hfree .body]),
    h.idle⟩

namespace WellPinned

theorem calm (h : row.WellPinned) (hcalm : row.Calm row') : row'.WellPinned := by
  have hpinned : ∀ p, (row'.highlight.part p).isPinned = (row.highlight.part p).isPinned :=
    fun p => congrArg Option.isSome (hcalm.pinned p)
  refine ⟨(hcalm.pinned .target).trans h.target, ?_, ?_, ?_⟩
  · rw [hcalm.selected, ← h.header]
    exact hpinned .header
  · intro hbody
    rw [hcalm.selected, show row'.highlight.number.isPinned = _ from hpinned .number]
    exact h.body ((hpinned .body).symm.trans hbody)
  · intro hbound
    rw [hcalm.bound] at hbound
    exact hcalm.idle hbound (h.idle hbound)

theorem select (h : row.WellPinned) (hbound : row.bound = true) (pale : Color) :
    (row.mapHighlight (selectHighlight palette pale)).WellPinned := by
  have hpinned := Highlight.pinned_selectHighlight palette pale row.highlight
  refine ⟨?_, ?_, fun _ => Or.inl rfl, fun hfree => absurd hbound ?_⟩
  · exact (hpinned .target).trans h.target
  · exact congrArg Option.isSome (hpinned .header)
  · simp [show row.bound = false from hfree]

theorem deselect (h : row.WellPinned) (hbound : row.bound = true) :
    (row.mapHighlight (deselectHighlight palette)).WellPinned := by
  have hpinned := Highlight.pinned_deselectHighlight palette row.highlight
  have hbody : (row.mapHighlight (deselectHighlight palette)).highlight.body.isPinned = false :=
    congrArg Option.isSome (hpinned .body)
  refine ⟨?_, ?_, fun hpin => absurd hpin (by simp [hbody]), fun hfree => absurd hbound ?_⟩
  · exact (hpinned .target).trans h.target
  · exact congrArg Option.isSome (hpinned .header)
  · simp [show row.bound = false from hfree]

theorem repin (h : row.WellPinned) (cues : Cues) {parts : List Part}
    (hparts : parts = postParts ∨ parts = []) :
    (row.repin palette cues parts).WellPinned := by
  have hpinned := row.pinned_repin palette cues parts
  have hother : ∀ p, p ∉ postParts →
      ((row.repin palette cues parts).highlight.part p).pinned = none := by
    intro p hp
    rw [hpinned, if_neg]
    rintro ⟨-, hmem⟩
    rcases hparts with rfl | rfl
    · exact hp hmem
    · exact List.not_mem_nil hmem
  refine ⟨hother .target (by decide), ?_, ?_, ?_⟩
  · rw [authorSelected_repin]
    exact congrArg Option.isSome (hother .header (by decide))
  · -- the body is pinned together with the number
    intro hbody
    have hif : row.bound = true ∧ Part.body ∈ parts := by
      by_contra hnot
      have hnone := (hpinned .body).trans (if_neg hnot)
      rw [Layers.isPinned, show (row.repin palette cues parts).highlight.body.pinned = none
        from hnone] at hbody
      cases hbody
    have hall : parts = postParts :=
      hparts.resolve_right (fun hnil => List.not_mem_nil (hnil ▸ hif.2))
    have hnumber := (hpinned .number).trans (if_pos ⟨hif.1, by rw [hall]; decide⟩)
    exact Or.inr (congrArg Option.isSome hnumber)
  · intro hfree
    rw [bound_repin] at hfree
    rw [repin_of_not_bound hfree]
    exact Highlight.idle_repin_rest (h.idle hfree).hint palette

end WellPinned

end Row

namespace View

variable {v w : View} {row : Row} {settings : Settings} {s : Snapshot}

/-! ## The shape of pinned paint -/

/-- Every row is well pinned, and at most one of them has a pinned number. -/
structure WellPinned (v : View) : Prop where
  rows : ∀ n row, v.row? n = some row → row.WellPinned
  number : ∀ n k row other, v.row? n = some row → v.row? k = some other →
    row.highlight.number.isPinned = true → other.highlight.number.isPinned = true → n = k

namespace WellPinned

/-- Rows that are well pinned make a view well pinned if no number is pinned but
those that were. -/
theorem of_rows (h : v.WellPinned)
    (hrows : ∀ n row, w.row? n = some row → row.WellPinned ∧
      (row.highlight.number.isPinned = true →
        ∃ old, v.row? n = some old ∧ old.highlight.number.isPinned = true)) : w.WellPinned where
  rows n row hrow := (hrows n row hrow).1
  number n k row other hrow hother hpinned hpinned' := by
    obtain ⟨old, hold, hwas⟩ := (hrows n row hrow).2 hpinned
    obtain ⟨old', hold', hwas'⟩ := (hrows k other hother).2 hpinned'
    exact h.number n k old old' hold hold' hwas hwas'

theorem calm (h : v.WellPinned) (hvw : v.Calm w) : w.WellPinned := by
  apply h.of_rows
  intro n row hrow
  rcases hvw.row_cases hrow with ⟨old, hold, hcalm⟩ | hunpinned
  · refine ⟨(h.rows n old hold).calm hcalm, fun hpinned => ⟨old, hold, ?_⟩⟩
    exact (congrArg Option.isSome (hcalm.pinned .number)).symm.trans hpinned
  · refine ⟨hunpinned.wellPinned, fun hpinned => absurd hpinned ?_⟩
    have hnone : row.highlight.number.pinned = none := hunpinned.pinned .number
    simp [Layers.isPinned, hnone]

/-- A click on a header leaves the numbers alone. -/
theorem clickHeader (h : v.WellPinned) (n : PostNumber) : (v.clickHeader n).WellPinned := by
  rcases clickHeader_cases v n with heq | ⟨e, change, -, hchange, heq⟩
  · rwa [heq]
  have hrow : ∀ row : Row, row.WellPinned → row.bound = true →
      (row.mapHighlight change).WellPinned ∧
        (change row.highlight).number.pinned = row.highlight.number.pinned := by
    intro row hrow hbound
    rcases hchange with rfl | ⟨pale, rfl⟩
    · exact ⟨hrow.deselect hbound, Highlight.pinned_deselectHighlight _ row.highlight .number⟩
    · exact ⟨hrow.select hbound pale,
        Highlight.pinned_selectHighlight _ pale row.highlight .number⟩
  apply h.of_rows
  intro k row hnew
  rw [heq, row?_mapRows, Option.map_eq_some_iff] at hnew
  obtain ⟨old, hold, rfl⟩ := hnew
  have hself := h.rows k old hold
  split
  · rw [Row.mapBound]
    split
    · rename_i hbound
      obtain ⟨hwell, hnumber⟩ := hrow old hself hbound
      refine ⟨hwell, fun hpinned => ⟨old, hold, ?_⟩⟩
      exact (congrArg Option.isSome hnumber).symm.trans hpinned
    · exact ⟨hself, fun hpinned => ⟨old, hold, hpinned⟩⟩
  · exact ⟨hself, fun hpinned => ⟨old, hold, hpinned⟩⟩

/-- A view that is pinned anew has pinned parts in one row only. -/
theorem repin (h : v.WellPinned) (m : PostNumber) (cues : PostNumber → Cues) :
    (v.repin m cues).WellPinned := by
  have honly : ∀ {k row}, (v.repin m cues).row? k = some row →
      row.highlight.number.isPinned = true → k = m := by
    intro k row hrow hpinned
    by_contra hk
    have hnone : row.highlight.number.pinned = none :=
      pinned_of_repin hrow (fun hm => hk hm.1) .number
    rw [Layers.isPinned, hnone] at hpinned
    cases hpinned
  constructor
  · intro k row hrow
    obtain ⟨old, hold, rfl⟩ := exists_row_of_repin hrow
    apply (h.rows k old hold).repin
    split
    · exact Or.inl rfl
    · exact Or.inr rfl
  · intro n k row other hrow hother hpinned hpinned'
    rw [honly hrow hpinned, honly hother hpinned']

theorem keptOrRepinned (h : v.WellPinned) (hvw : v.KeptOrRepinned w) : w.WellPinned := by
  rcases hvw with rfl | ⟨m, cues, rfl⟩
  · exact h
  · exact h.repin m cues

theorem perform (h : v.WellPinned) (hv : v.Aligned) (c : Command) :
    (v.perform c).view.WellPinned := by
  cases hclick : c.isClick with
  | false => exact h.calm (calm_perform hv hclick)
  | true =>
    cases c with
    | clickHeader n => exact h.clickHeader n
    | quote n => exact h.keptOrRepinned (keptOrRepinned_quote v n)
    | clickTarget n => exact h.keptOrRepinned (keptOrRepinned_clickTarget v n)
    | clickLink n reply => exact h.keptOrRepinned (keptOrRepinned_clickLink v n reply)
    | _ => cases hclick

theorem call (h : v.WellPinned) (hv : v.Aligned) (c : Call) : (v.call c).WellPinned := by
  cases c with
  | dispatch c =>
    rcases dispatch_eq_perform_or_ignored v c with heq | heq
    · rw [View.call, heq]
      exact h.perform hv c
    · rwa [View.call, heq]
  | perform c => exact h.perform hv c
  | insert a atBottom => exact h.calm (calm_insert hv a atBottom)
  | foldOn n => exact h.calm (calm_foldOn v n)
  | foldFromQuery query =>
    rw [View.call, foldFromQuery]
    split
    · exact h
    · exact h.calm (calm_foldOn v _)
  | requestColor n => exact h.calm (calm_requestColor v n)

end WellPinned

/-! ## Opening -/

theorem idle_boundRow (h : row.highlight.Idle) (v : View) (n : PostNumber) :
    (v.boundRow n row).highlight.Idle := by
  rw [boundRow]
  dsimp only
  split
  · exact h
  · exact h.colorize .target _

/-- Decoration colors parts and leaves nothing else. -/
theorem idle_decorate (hv : v.Aligned) (h : ∀ k row, v.row? k = some row → row.highlight.Idle)
    (n : PostNumber) : ∀ k row, (v.decorate n).row? k = some row → row.highlight.Idle := by
  rcases decorate_cases v n with heq | ⟨e, he, hbare, homission⟩
  · rwa [heq]
  · intro k row hrow
    obtain ⟨old, hold, ⟨-, rfl⟩ | ⟨-, rfl | rfl⟩⟩ :=
      exists_row_of_decorate hv he hbare homission hrow
    · exact idle_boundRow (h k old hold) v n
    · exact (h k old hold).colorize .number _
    · exact h k _ hold

theorem idle_opened (hv : View.ofSnapshot settings s = .ok v) :
    ∀ k row, v.row? k = some row → row.highlight.Idle := by
  obtain ⟨hnodup, rfl⟩ := ofSnapshot_eq_ok_iff.mp hv
  apply opened_invariant (P := fun v => ∀ k row, v.row? k = some row → row.highlight.Idle) hnodup
  · intro k row hrow
    rw [row?_bare hrow]
    exact Highlight.idle_empty
  · exact fun v n hv _ hidle => idle_decorate hv hidle n

theorem wellPinned_opened (hv : View.ofSnapshot settings s = .ok v) : v.WellPinned := by
  have hunpinned : ∀ n row, v.row? n = some row → row.Unpinned :=
    fun n row hrow => Row.unpinned_of_idle (idle_opened hv n row hrow)
  refine ⟨fun n row hrow => (hunpinned n row hrow).wellPinned, ?_⟩
  intro n k row other hrow _ hpinned
  have hnone : row.highlight.number.pinned = none := (hunpinned n row hrow).pinned .number
  rw [Layers.isPinned, hnone] at hpinned
  cases hpinned

theorem Reachable.wellPinned (h : Reachable v) : v.WellPinned := by
  induction h with
  | opened hv => exact wellPinned_opened hv
  | call hv c ih => exact ih.call hv.aligned c

/-- The target part of a row is never pinned, and at most one row of a view has a
pinned number. A header is pinned exactly if the author is selected, and a body
only if the author is selected or the number is pinned. On a row that is not bound
nothing is pinned, nothing is hovered, no author is selected and no hint is shown. -/
theorem Reachable.shape_of_pins (h : Reachable v) :
    (∀ n row, v.row? n = some row →
      row.highlight.target.isPinned = false ∧
      (row.highlight.header.isPinned = true ↔ row.highlight.authorSelected = true) ∧
      (row.highlight.body.isPinned = true →
        row.highlight.authorSelected = true ∨ row.highlight.number.isPinned = true) ∧
      (row.bound = false →
        (∀ p, (row.highlight.part p).isPinned = false ∧ (row.highlight.part p).hover = none) ∧
        row.highlight.authorSelected = false ∧ row.highlight.hint = none)) ∧
    (∀ n k row other, v.row? n = some row → v.row? k = some other →
      row.highlight.number.isPinned = true → other.highlight.number.isPinned = true → n = k) := by
  refine ⟨?_, h.wellPinned.number⟩
  intro n row hrow
  obtain ⟨htarget, hheader, hbody, hidle⟩ := h.wellPinned.rows n row hrow
  refine ⟨by rw [Layers.isPinned, htarget]; rfl, by rw [hheader], hbody, ?_⟩
  intro hfree
  obtain ⟨hhover, hpinned, hselected, hhint⟩ := hidle hfree
  exact ⟨fun p => ⟨by rw [Layers.isPinned, hpinned]; rfl, hhover p⟩, hselected, hhint⟩

section

open Sample

/-- The number of the quoted reply is the only pinned one, and the placeholder has
no pinned part, though its author is selected. -/
theorem shape_of_pins_quotedReply :
    Reachable quotedReply ∧
    (∃ row, quotedReply.row? two = some row ∧ row.highlight.number.isPinned = true ∧
      row.highlight.header.isPinned = true ∧ row.highlight.authorSelected = true ∧
      row.highlight.target.isPinned = false) ∧
    (∀ row, quotedReply.row? one = some row → row.highlight.number.isPinned = false) ∧
    (∀ row, quotedReply.row? three = some row → row.bound = false ∧
      (∀ p, (row.highlight.part p).isPinned = false) ∧ row.highlight.authorSelected = false) := by
  obtain ⟨hshape, hnumber⟩ := reachable_quotedReply.shape_of_pins
  obtain ⟨row, hrow⟩ := reachable_quotedReply.aligned.exists_row (n := two) (by decide)
  have hpinned : row.highlight.number.isPinned = true ∧ row.highlight.header.isPinned = true := by
    have hany : (quotedReply.row? two).any (fun row =>
        row.highlight.number.isPinned = true ∧ row.highlight.header.isPinned = true) = true := by
      decide
    rw [hrow, Option.any_some, decide_eq_true_iff] at hany
    exact hany
  obtain ⟨htarget, hheader, -, -⟩ := hshape two row hrow
  refine ⟨reachable_quotedReply,
    ⟨row, hrow, hpinned.1, hpinned.2, hheader.mp hpinned.2, htarget⟩, ?_, ?_⟩
  · intro other hother
    rw [← Bool.not_eq_true]
    intro hboth
    exact absurd (hnumber one two other row hother hrow hboth hpinned.1) (by decide)
  · intro other hother
    have hbound : quotedReply.isBound three = false := by decide
    rw [isBound_of_row? hother] at hbound
    obtain ⟨-, -, -, hfree⟩ := hshape three other hother
    exact ⟨hbound, fun p => ((hfree hbound).1 p).1, (hfree hbound).2.1⟩

end

end View

end Discussion
