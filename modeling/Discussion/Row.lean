import Discussion.Highlight

/-!
# Rows

What a view keeps about a post apart from the post itself.
-/

namespace Discussion

/-- The marks that a fold leaves on a row. -/
structure FoldMark where
  /-- Whether the row belongs to the conversation that the fold keeps. -/
  kept : Bool := false
  /-- Whether the fold was made around this row. -/
  pivot : Bool := false
deriving DecidableEq

/-- The glyph of a row's fold control. -/
def FoldMark.glyph (m : FoldMark) : String := if m.pivot then "◆" else "◇"

/-- The view's state of one post. -/
structure Row where
  highlight : Highlight := {}
  mark : FoldMark := {}
  hidden : Bool := false
  /-- The color of the links to this post, once one has asked for it. -/
  linkColor : Option Color := none
  /-- Whether the row takes part in interaction. Placeholders never do. -/
  bound : Bool := false
deriving DecidableEq

namespace Row

/-- Changes the highlight of a row. -/
def mapHighlight (r : Row) (f : Highlight → Highlight) : Row :=
  { r with highlight := f r.highlight }

/-- Changes the highlight of a row that is bound. -/
def mapBound (r : Row) (f : Highlight → Highlight) : Row :=
  if r.bound then r.mapHighlight f else r

end Row

end Discussion
