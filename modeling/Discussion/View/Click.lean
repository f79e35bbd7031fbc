import Discussion.View.Hover

/-!
# Clicking

Clicks pin paint. A click on an author's header selects or deselects the posts
of that author; a quote or a click on a link first drops whatever was pinned.
-/

namespace Discussion.View

/-- The parts that selecting an author pins. -/
def authorParts : List Part := [.header, .body]

/-- The parts that a quote or a link pins. -/
def postParts : List Part := [.number, .body]

/-- The header and the body in the pale color of a selected author. -/
def selectCues (pale : Color) : Cues
  | .header => .color pale
  | .body => .color pale
  | _ => .accent

/-- The highlight of a row whose author becomes selected. -/
def selectHighlight (palette : Palette) (pale : Color) (h : Highlight) : Highlight :=
  { (h.follow palette (selectCues pale)).pin authorParts with authorSelected := true }

/-- The highlight of a row whose author is no longer selected. -/
def deselectHighlight (palette : Palette) (h : Highlight) : Highlight :=
  { (h.unpin authorParts).rest palette with authorSelected := false }

/-- Selects or deselects every post by the author of `n`. The clicked row
decides which. -/
def clickHeader (v : View) (n : PostNumber) : View :=
  match v.thread.get? n, v.row? n with
  | some entry, some row =>
    if row.bound then
      let change := if row.highlight.authorSelected then deselectHighlight v.palette
        else selectHighlight v.palette (v.palette.pale entry.post.seed)
      let mine := v.thread.byAuthor entry.post.author
      v.mapRows fun k row => if k ∈ mine then row.mapBound change else row
    else v
  | _, _ => v

/-- Drops every pinned and every hover paint, and every selection. -/
def restoreAll (v : View) : View :=
  v.mapRows fun _ row =>
    row.mapHighlight fun h => { h.restore v.palette with authorSelected := false }

/-- Pins parts of a bound row. -/
def pin (v : View) (n : PostNumber) (parts : List Part) : View :=
  v.modifyRow n (·.mapBound (·.pin parts))

/-- Follows the link of a row to the post it replies to. -/
def clickTarget (v : View) (n : PostNumber) : View × List Effect :=
  match v.linkedTarget? n with
  | none => (v, [])
  | some target =>
    ((v.restoreAll.hoverTarget n).pin target postParts, [.scrollTo (.post target)])

/-- Follows the link of a post to one of its replies. -/
def clickLink (v : View) (n reply : PostNumber) : View × List Effect :=
  match v.linkedReply? n reply with
  | none => (v, [])
  | some _ =>
    ((v.restoreAll.hoverLink n reply).pin reply postParts, [.scrollTo (.post reply)])

/-- The post number in its link color over a body with the cue `body`. -/
def quoteCues (body : Cue) : Cues
  | .number => .accent
  | .body => body
  | _ => .rest

/-- Marks a post as the one that is replied to, and opens the composer unless
the thread is locked. -/
def quote (v : View) (n : PostNumber) : View × List Effect :=
  if v.isBound n then
    let v := v.restoreAll
    let body : Cue := match v.linkColor? n with
      | some c => .reference c
      | none => .color v.palette.quote
    ((v.paint n (quoteCues body)).pin n postParts,
      if v.thread.locked then [] else [.compose n, .scrollTo .composer])
  else (v, [])

end Discussion.View
