import Discussion.Effect
import Discussion.Wire.Record

/-!
# Measures of the page in data
-/

namespace Discussion.Wire

/-- The edges of a box, as far as they are known. -/
structure BoxDraft where
  top : Option Float := none
  left : Option Float := none
  bottom : Option Float := none
  right : Option Float := none

/-- The record of the footer's box. -/
def boxRecord : Record BoxDraft Box where
  name := "struct FooterRect"
  fields := [
    .of "top" float (·.top) fun x d => { d with top := some x },
    .of "left" float (·.left) fun x d => { d with left := some x },
    .of "bottom" float (·.bottom) fun x d => { d with bottom := some x },
    .of "right" float (·.right) fun x d => { d with right := some x }]
  blank := {}
  finish _ d := do
    let top ← require "top" d.top
    let left ← require "left" d.left
    let bottom ← require "bottom" d.bottom
    let right ← require "right" d.right
    pure { top, left, bottom, right }

/-- The measures of a footer, as far as they are known. -/
structure FooterDraft where
  box : Option Box := none
  width : Option Float := none
  height : Option Float := none

/-- The record of the footer's measures. -/
def footerRecord : Record FooterDraft Footer where
  name := "struct FooterPosition"
  fields := [
    .of "rect" boxRecord.decode (·.box) fun b d => { d with box := some b },
    .of "window_width" float (·.width) fun x d => { d with width := some x },
    .of "window_height" float (·.height) fun x d => { d with height := some x }]
  blank := {}
  finish _ d := do
    let box ← require "rect" d.box
    let width ← require "window_width" d.width
    let height ← require "window_height" d.height
    pure { box, width, height }

/-- The measures of a footer. -/
def footer : Decoder Footer := footerRecord.decode

/-- The record that says whether the page is scrolled to its end. -/
def viewportRecord : Record (Option Bool) Bool where
  name := "struct Viewport"
  fields := [.of "at_bottom" boolean id fun b _ => some b]
  blank := none
  finish _ d := .ok (d.getD false)

/-- Whether the page is scrolled to its end. -/
def viewport : Decoder Bool := viewportRecord.decode

end Discussion.Wire
