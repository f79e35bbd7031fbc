import Discussion.Proofs.Thread.Growth
import Discussion.Proofs.View.Following

/-!
# Retouching a view

Hovering, clicking, hints and a new reader only retouch a view: the thread, the
colors, the fold and the marks of every row stay as they are, and so do the link
color and the base paint of every part. So every command but a merge and a fold
control is a retouch.
-/

namespace Discussion

namespace Highlight

variable {a b c : Highlight}

/-- Each part of `b` has the link color and the base paint that it has in `a`. -/
def SameBase (a b : Highlight) : Prop :=
  ∀ p, (b.part p).accent = (a.part p).accent ∧ (b.part p).base = (a.part p).base

theorem SameBase.refl (a : Highlight) : a.SameBase a := fun _ => ⟨rfl, rfl⟩

theorem SameBase.trans (hab : a.SameBase b) (hbc : b.SameBase c) : a.SameBase c :=
  fun p => ⟨(hbc p).1.trans (hab p).1, (hbc p).2.trans (hab p).2⟩

theorem sameBase_mapParts {f : Part → Layers → Layers}
    (hf : ∀ p l, (f p l).accent = l.accent ∧ (f p l).base = l.base) (h : Highlight) :
    h.SameBase (h.mapParts f) := by
  intro p
  rw [part_mapParts]
  exact hf p _

theorem sameBase_follow (h : Highlight) (palette : Palette) (cues : Cues) :
    h.SameBase (h.follow palette cues) := by
  intro p
  rw [part_follow, Layers.accent_follow, Layers.base_follow]
  exact ⟨rfl, rfl⟩

theorem sameBase_pin (h : Highlight) (parts : List Part) : h.SameBase (h.pin parts) := by
  apply sameBase_mapParts
  intro p l
  split
  · rw [Layers.pin]
    split <;> exact ⟨rfl, rfl⟩
  · exact ⟨rfl, rfl⟩

theorem sameBase_unpin (h : Highlight) (parts : List Part) : h.SameBase (h.unpin parts) := by
  apply sameBase_mapParts
  intro p l
  split <;> exact ⟨rfl, rfl⟩

theorem sameBase_restore (h : Highlight) (palette : Palette) : h.SameBase (h.restore palette) :=
  (sameBase_unpin h _).trans (sameBase_follow _ _ _)

/-- The parts do not depend on the selection of the author and on the hint. -/
theorem sameBase_of_part_eq (hparts : ∀ p, b.part p = a.part p) : a.SameBase b :=
  fun p => ⟨congrArg Layers.accent (hparts p), congrArg Layers.base (hparts p)⟩

theorem sameBase_authorSelected (h : Highlight) (selected : Bool) :
    h.SameBase { h with authorSelected := selected } :=
  sameBase_of_part_eq (part_authorSelected h selected)

theorem sameBase_hint (h : Highlight) (hint : Option Hint) : h.SameBase { h with hint } :=
  sameBase_of_part_eq (part_hint h hint)

end Highlight

namespace Row

/-- Only the highlight of a row changes, and each part keeps its link color and
its base paint. -/
def Repainted (row row' : Row) : Prop :=
  row' = { row with highlight := row'.highlight } ∧ row.highlight.SameBase row'.highlight

variable {row row' row'' : Row} {f : Highlight → Highlight} {palette : Palette}

theorem Repainted.refl (row : Row) : row.Repainted row := ⟨rfl, .refl _⟩

theorem Repainted.trans (h : row.Repainted row') (h' : row'.Repainted row'') :
    row.Repainted row'' := by
  refine ⟨?_, h.2.trans h'.2⟩
  rw [h'.1, h.1]

theorem repainted_mapHighlight (hf : ∀ h : Highlight, h.SameBase (f h)) (row : Row) :
    row.Repainted (row.mapHighlight f) :=
  ⟨rfl, hf _⟩

theorem repainted_mapBound (hf : ∀ h : Highlight, h.SameBase (f h)) (row : Row) :
    row.Repainted (row.mapBound f) := by
  rw [mapBound]
  split
  · exact repainted_mapHighlight hf row
  · exact .refl row

theorem Hovered.repainted (h : row.Hovered palette row') : row.Repainted row' := by
  rcases h with rfl | ⟨cues, -, rfl⟩
  · exact .refl row'
  · exact repainted_mapHighlight (fun h => Highlight.sameBase_follow h palette cues) row

end Row

namespace View

open Highlight (sameBase_follow sameBase_pin sameBase_unpin sameBase_restore
  sameBase_authorSelected sameBase_hint)
open Row (repainted_mapHighlight repainted_mapBound)

variable {v w x : View} {n : PostNumber}

/-! ## Retouching -/

/-- `w` is `v` with some rows repainted, and perhaps with another reader. -/
def Retouched (v w : View) : Prop :=
  ∃ (f : PostNumber → Row → Row) (identity : Option AuthorKey),
    (∀ n (row : Row), row.Repainted (f n row)) ∧ w = { v.mapRows f with identity }

/-- Repainting rows is a retouch. -/
theorem Retouched.of_mapRows {f : PostNumber → Row → Row}
    (hf : ∀ n (row : Row), row.Repainted (f n row)) : v.Retouched (v.mapRows f) :=
  ⟨f, v.identity, hf, rfl⟩

theorem Retouched.refl (v : View) : v.Retouched v := by
  refine ⟨fun _ row => row, v.identity, fun _ row => .refl row, ?_⟩
  simp [mapRows]

theorem Retouched.trans (hvw : v.Retouched w) (hwx : w.Retouched x) : v.Retouched x := by
  obtain ⟨f, i, hf, rfl⟩ := hvw
  obtain ⟨g, j, hg, rfl⟩ := hwx
  refine ⟨fun n row => g n (f n row), j, fun n row => (hf n row).trans (hg n _), ?_⟩
  simp [mapRows]

/-- Repainting one row is a retouch. -/
theorem retouched_modifyRow {f : Row → Row} (hf : ∀ row : Row, row.Repainted (f row))
    (n : PostNumber) : v.Retouched (v.modifyRow n f) := by
  apply Retouched.of_mapRows
  intro k row
  split
  · exact hf row
  · exact .refl row

theorem Hovered.retouched (h : v.Hovered w) : v.Retouched w := by
  obtain ⟨f, hf, rfl⟩ := h
  exact Retouched.of_mapRows fun n row => (hf n row).repainted

theorem retouched_pin (v : View) (n : PostNumber) (parts : List Part) :
    v.Retouched (v.pin n parts) :=
  retouched_modifyRow (repainted_mapBound fun h => sameBase_pin h _) n

theorem retouched_restoreAll (v : View) : v.Retouched v.restoreAll := by
  apply Retouched.of_mapRows
  intro n row
  apply repainted_mapHighlight
  intro h
  exact (sameBase_restore h _).trans (sameBase_authorSelected _ _)

theorem sameBase_selectHighlight (palette : Palette) (pale : Color) (h : Highlight) :
    h.SameBase (selectHighlight palette pale h) :=
  ((sameBase_follow h _ _).trans (sameBase_pin _ _)).trans (sameBase_authorSelected _ _)

theorem sameBase_deselectHighlight (palette : Palette) (h : Highlight) :
    h.SameBase (deselectHighlight palette h) :=
  ((sameBase_unpin h _).trans (sameBase_follow _ _ _)).trans (sameBase_authorSelected _ _)

theorem retouched_clickHeader (v : View) (n : PostNumber) : v.Retouched (v.clickHeader n) := by
  rw [clickHeader]
  split
  · split
    · apply Retouched.of_mapRows
      intro k row
      split
      · apply repainted_mapBound
        intro h
        split
        · exact sameBase_deselectHighlight _ h
        · exact sameBase_selectHighlight _ _ h
      · exact .refl row
    · exact .refl v
  · exact .refl v

theorem retouched_clickTarget (v : View) (n : PostNumber) :
    v.Retouched (v.clickTarget n).1 := by
  rw [clickTarget]
  split
  · exact .refl v
  · exact ((retouched_restoreAll v).trans (hovered_hoverTarget _ n).retouched).trans
      (retouched_pin _ _ _)

theorem retouched_clickLink (v : View) (n reply : PostNumber) :
    v.Retouched (v.clickLink n reply).1 := by
  rw [clickLink]
  split
  · exact .refl v
  · exact ((retouched_restoreAll v).trans (hovered_hoverLink _ n reply).retouched).trans
      (retouched_pin _ _ _)

theorem retouched_quote (v : View) (n : PostNumber) : v.Retouched (v.quote n).1 := by
  rw [quote]
  split
  · exact ((retouched_restoreAll v).trans (hovered_paint _ n _).retouched).trans
      (retouched_pin _ n _)
  · exact .refl v

/-- All that a command does which neither merges a post nor works a fold control. -/
theorem retouched_perform {c : Command} (htoggle : ∀ n, c ≠ .toggleFold n)
    (hinsert : ∀ a footer, c ≠ .insert a footer) : v.Retouched (v.perform c).view := by
  cases hhover : c.isHover with
  | true => exact (hovered_perform hhover).1.retouched
  | false =>
    cases c with
    | clickHeader n => exact retouched_clickHeader v n
    | quote n => exact retouched_quote v n
    | clickTarget n => exact retouched_clickTarget v n
    | clickLink n reply => exact retouched_clickLink v n reply
    | showHint n hint =>
      exact retouched_modifyRow (repainted_mapBound fun h => sameBase_hint h _) n
    | hideHint n => exact retouched_modifyRow (repainted_mapHighlight fun h => sameBase_hint h _) n
    | setIdentity identity =>
      refine ⟨fun _ row => row, identity, fun _ row => .refl row, ?_⟩
      simp [perform, setIdentity, respond, mapRows]
    | toggleFold n => exact absurd rfl (htoggle n)
    | insert a footer => exact absurd rfl (hinsert a footer)
    | hoverHeader n | leaveHeader n | hoverNumber n | hoverTarget n | hoverLink n reply
    | leaveLink => cases hhover

end View

end Discussion
