import Discussion.View.Basic

/-!
# Hovering

What the rows show while the pointer rests on a part of one of them. Hovering
changes hover paints only, and only on bound rows whose part is not pinned.
-/

namespace Discussion.View

/-- Paints one row. -/
def paint (v : View) (n : PostNumber) (cues : Cues) : View :=
  v.modifyRow n (·.mapBound (·.follow v.palette cues))

/-- Paints every row. -/
def paintAll (v : View) (cues : PostNumber → Cues) : View :=
  v.mapRows fun n row => row.mapBound (·.follow v.palette (cues n))

/-- The header in the pale color of the author, the links in their own colors. -/
def headerCues (pale : Color) : Cues
  | .header => .color pale
  | .number => .accent
  | .target => .accent
  | .body => .rest

/-- The post number in its link color, the rest plain. -/
def numberCues : Cues
  | .number => .accent
  | _ => .plain

/-- The link to the target in its color, the rest plain. -/
def targetCues : Cues
  | .target => .accent
  | _ => .plain

/-- The post number in its link color over a body that is referred to. -/
def referredCues (c : Color) : Cues
  | .number => .accent
  | .body => .reference c
  | _ => .plain

/-- The link to the target in its color over a body that is referred to. -/
def replyCues (c : Color) : Cues
  | .target => .accent
  | .body => .reference c
  | _ => .plain

/-- No paint in any part. -/
def plainCues : Cues := fun _ => .plain

/-- Paints the header of a row with the pale color of its author. -/
def hoverHeader (v : View) (n : PostNumber) : View :=
  match v.authorColor? n with
  | none => v
  | some pale => if v.isBound n then v.paint n (headerCues pale) else v

/-- Drops the hover paint of a row. -/
def leaveHeader (v : View) (n : PostNumber) : View :=
  v.paint n fun _ => .rest

/-- Points out a post and the replies linked back into it. Nothing happens
before some link has asked for the color of the post. -/
def hoverNumber (v : View) (n : PostNumber) : View :=
  match v.linkColor? n with
  | none => v
  | some c =>
    if v.isBound n then
      let replies := v.thread.linksOf n
      v.paintAll fun k =>
        if k ∈ replies then replyCues c else if k = n then numberCues else plainCues
    else v

/-- The post that a row's link leads to, if the row is bound and its link has a
color. -/
def linkedTarget? (v : View) (n : PostNumber) : Option PostNumber := do
  let row ← v.row? n
  if row.bound && row.highlight.target.accent.isSome then v.thread.target? n else none

/-- Points out the post that `n` replies to, and the other replies to it. -/
def hoverTarget (v : View) (n : PostNumber) : View :=
  match v.linkedTarget? n with
  | none => v
  | some target =>
    match v.linkColor? target with
    | none => v
    | some c =>
      let replies := v.thread.linksOf target
      v.paintAll fun k =>
        if k = target then referredCues c else if k ∈ replies then targetCues else plainCues

/-- The link color of a post that `reply` is linked back into. -/
def linkedReply? (v : View) (n reply : PostNumber) : Option Color := do
  let entry ← v.thread.get? n
  if reply ∈ entry.links then v.linkColor? n else none

/-- Points out a reply that is linked back into `n`. -/
def hoverLink (v : View) (n reply : PostNumber) : View :=
  match v.linkedReply? n reply with
  | none => v
  | some c =>
    v.paintAll fun k =>
      if k = reply then replyCues c else if k = n then numberCues else plainCues

/-- Drops the hover paint of every row. -/
def leaveLink (v : View) : View :=
  v.mapRows fun _ row => row.mapHighlight (·.rest v.palette)

/-- Shows a hint over a bound row. -/
def showHint (v : View) (n : PostNumber) (hint : Hint) : View :=
  v.modifyRow n (·.mapBound fun h => { h with hint := some hint })

/-- Takes the hint off a row. -/
def hideHint (v : View) (n : PostNumber) : View :=
  v.modifyRow n (·.mapHighlight fun h => { h with hint := none })

end Discussion.View
