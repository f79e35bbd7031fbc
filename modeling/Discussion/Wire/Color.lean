import Discussion.Json.Value
import Discussion.Palette
import Discussion.Wire.Record

/-!
# Colors in data
-/

namespace Discussion.Wire

/-- Three channels, as far as they are known. -/
structure ChannelDraft (α β : Type) where
  hue : Option α := none
  saturation : Option β := none
  lightness : Option β := none

/-- The record of what `mk` makes of three channels, all of which have to be there. -/
def channelRecord {α β γ : Type} (name : String) (hue : Decoder α) (percentage : Decoder β)
    (mk : α → β → β → γ) : Record (ChannelDraft α β) γ where
  name
  fields := [
    .of "hue" hue (·.hue) fun n d => { d with hue := some n },
    .of "saturation" percentage (·.saturation) fun n d => { d with saturation := some n },
    .of "lightness" percentage (·.lightness) fun n d => { d with lightness := some n }]
  blank := {}
  finish _ d := do
    let hue ← require "hue" d.hue
    let saturation ← require "saturation" d.saturation
    let lightness ← require "lightness" d.lightness
    pure (mk hue saturation lightness)

/-- The record of a color. -/
def colorRecord : Record (ChannelDraft UInt16 UInt8) Color :=
  channelRecord "struct Hsl" word16 word8 .mk

/-- A color; its channels are taken as they are. -/
def color : Decoder Color := colorRecord.decode

/-- A color as data. -/
def ofColor (c : Color) : Json.Value :=
  .object [("hue", .number c.hue.toNat), ("saturation", .number c.saturation.toNat),
    ("lightness", .number c.lightness.toNat)]

/-- The record of a color shift. -/
def colorShiftRecord : Record (ChannelDraft Int32 Int32) ColorShift :=
  channelRecord "struct HslMask" signed32 signed32 .mk

/-- An offset for each channel of a color. -/
def colorShift : Decoder ColorShift := colorShiftRecord.decode

/-- A color shift as data. -/
def ofColorShift (c : ColorShift) : Json.Value :=
  .object [("hue", .number c.hue.toInt), ("saturation", .number c.saturation.toInt),
    ("lightness", .number c.lightness.toInt)]

end Discussion.Wire
