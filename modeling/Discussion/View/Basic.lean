import Discussion.Effect
import Discussion.Row
import Discussion.Thread.Conversation
import Discussion.Wheel

/-!
# Views

A view is one page of a discussion: the thread, a row of display state for each
of its posts, the sequence of link colors, and the fold. This module opens a
view and hands out link colors.
-/

namespace Discussion

/-- The state of one page of a discussion. -/
structure View where
  settings : Settings
  thread : Thread
  rows : PostMap Row
  /-- The sequence from which the next link color is taken. -/
  wheel : Wheel
  /-- The post that the view is folded on. -/
  fold : Option PostNumber := none
  page : PageKind := .thread
  /-- The author key of the reader. -/
  identity : Option AuthorKey := none
deriving DecidableEq

namespace View

/-- The color rules of a view. -/
def palette (v : View) : Palette := v.settings.palette

/-- The row of a post. -/
def row? (v : View) (n : PostNumber) : Option Row := v.rows.get? n

/-- Whether the row of a post takes part in interaction. -/
def isBound (v : View) (n : PostNumber) : Bool := (v.row? n).any (·.bound)

/-- The color of the links to a post, if it has one already. -/
def linkColor? (v : View) (n : PostNumber) : Option Color := (v.row? n).bind (·.linkColor)

/-- Changes every row. -/
def mapRows (v : View) (f : PostNumber → Row → Row) : View := { v with rows := v.rows.map f }

/-- Changes the row of one post, if there is one. -/
def modifyRow (v : View) (n : PostNumber) (f : Row → Row) : View :=
  { v with rows := v.rows.modify n f }

/-- The color of the links to a post. A post in the thread gets the next color
of the sequence when it is first asked for, and keeps it; a post outside the
thread has none. -/
def requestColor (v : View) (n : PostNumber) : View × Option Color :=
  if v.thread.contains n then
    match v.linkColor? n with
    | some c => (v, some c)
    | none =>
      let c := v.wheel.next
      let paint (row : Row) : Row :=
        { row with linkColor := some c, highlight := row.highlight.colorize .number c }
      ({ v.modifyRow n paint with wheel := v.wheel.advance }, some c)
  else (v, none)

/-- The pale color of a post's author. -/
def authorColor? (v : View) (n : PostNumber) : Option Color :=
  (v.thread.get? n).map fun entry => v.palette.pale entry.post.seed

/-- The glyph and color of the reader, as on the first post under the reader's
author key. -/
def badge (v : View) : Option Badge := do
  let identity ← v.identity
  let entry ← v.thread.entries.find? (·.post.author = identity)
  pure ⟨entry.post.marker, entry.post.seed⟩

/-- Binds the row of a post and colors its link to the post it replies to. A
placeholder is left bare, and a row that is bound already is left alone. -/
def decorate (v : View) (n : PostNumber) : View :=
  match v.thread.get? n with
  | none => v
  | some entry =>
    if v.isBound n || entry.post.omission then v
    else
      let v := v.modifyRow n fun row => { row with bound := true }
      match v.thread.target? n with
      | none => v
      | some target =>
        match v.requestColor target with
        | (v, none) => v
        | (v, some c) => v.modifyRow n (·.mapHighlight (·.colorize .target c))

/-- Opens a view on a snapshot. -/
def ofSnapshot (settings : Settings) (s : Snapshot) : Except ThreadError View := do
  let thread ← Thread.ofSnapshot s
  let start : View :=
    { settings
      thread
      rows := ⟨thread.numbers.map fun n => (n, {})⟩
      wheel := Wheel.ofPalette settings.palette
      page := s.page }
  pure (thread.numbers.foldl decorate start)

/-- The posts with their rows, in order of arrival. -/
def posts (v : View) : List (Entry × Row) :=
  v.thread.entries.filterMap fun entry => (v.row? entry.post.number).map fun row => (entry, row)

end View

end Discussion
