import Discussion.Post

/-!
# The host of a view

What the host of a view measures for it, and what the view asks its host to do after a command.
-/

namespace Discussion

/-! ## The end of the page

Whether the page is scrolled to its end is read off the box of its footer. -/

/-- The box of the page footer, relative to the window. -/
structure Box where
  top : Float
  left : Float
  bottom : Float
  right : Float
deriving DecidableEq

/-- The footer's box and the size of the window, as the host measured them. -/
structure Footer where
  box : Box
  width : Float
  height : Float
deriving DecidableEq

/-- The page is at its end while the footer lies inside the window, give or
take `margin` beyond the far edges. -/
def Footer.atBottom (f : Footer) (margin : Float) : Bool :=
  f.box.top ≥ 0 && f.box.left ≥ 0 && f.box.bottom ≤ f.height + margin &&
    f.box.right ≤ f.width + margin

/-! ## Effects -/

/-- The author glyph of the reader, shown beside the composer. -/
structure Badge where
  marker : Option String
  color : Color
deriving DecidableEq

/-- An event that other parts of the page may react to. -/
inductive Broadcast
  | insertedPost (number : PostNumber)
deriving DecidableEq

/-- A place to scroll to. -/
inductive ScrollTarget
  | post (number : PostNumber)
  | composer
deriving DecidableEq

/-- Work for the host. -/
inductive Effect
  | scrollTo (target : ScrollTarget)
  /-- Fill in the post that is replied to, and focus the composer. -/
  | compose (replyTo : PostNumber)
  | announce (event : Broadcast)
  | badge (badge : Option Badge)
deriving DecidableEq

end Discussion
