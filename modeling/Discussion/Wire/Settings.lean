import Discussion.Wire.Color

/-!
# Settings in data

Every field of the settings, and of the palette in them, may be left out and
then has its default.
-/

namespace Discussion.Wire

/-- The rules of a palette, as far as they are given. -/
structure PaletteDraft where
  start : Option Color := none
  hueStep : Option UInt16 := none
  lightnessStep : Option UInt8 := none
  lightnessSpan : Option UInt8 := none
  lightnessFloor : Option UInt8 := none
  darkShift : Option ColorShift := none
  paleLightness : Option UInt8 := none
  quote : Option Color := none

/-- The palette of a draft. -/
def PaletteDraft.complete (d : PaletteDraft) : Palette :=
  let p : Palette := {}
  { start := d.start.getD p.start
    hueStep := d.hueStep.getD p.hueStep
    lightnessStep := d.lightnessStep.getD p.lightnessStep
    lightnessSpan := d.lightnessSpan.getD p.lightnessSpan
    lightnessFloor := d.lightnessFloor.getD p.lightnessFloor
    darkShift := d.darkShift.getD p.darkShift
    paleLightness := d.paleLightness.getD p.paleLightness
    quote := d.quote.getD p.quote }

/-- The record of a palette. -/
def paletteRecord : Record PaletteDraft Palette where
  name := "struct Palette"
  fields := [
    .of "start" color (·.start) fun c d => { d with start := some c },
    .of "hue_step" word16 (·.hueStep) fun n d => { d with hueStep := some n },
    .of "lightness_step" word8 (·.lightnessStep) fun n d => { d with lightnessStep := some n },
    .of "lightness_span" word8 (·.lightnessSpan) fun n d => { d with lightnessSpan := some n },
    .of "lightness_floor" word8 (·.lightnessFloor) fun n d => { d with lightnessFloor := some n },
    .of "dark_mask" colorShift (·.darkShift) fun c d => { d with darkShift := some c },
    .of "pale_lightness" word8 (·.paleLightness) fun n d => { d with paleLightness := some n },
    .of "quote" color (·.quote) fun c d => { d with quote := some c }]
  blank := {}
  finish _ d := .ok d.complete

/-- A palette. -/
def palette : Decoder Palette := paletteRecord.decode

/-- A palette as data. -/
def ofPalette (p : Palette) : Json.Value :=
  .object [("start", ofColor p.start), ("hue_step", .number p.hueStep.toNat),
    ("lightness_step", .number p.lightnessStep.toNat),
    ("lightness_span", .number p.lightnessSpan.toNat),
    ("lightness_floor", .number p.lightnessFloor.toNat),
    ("dark_mask", ofColorShift p.darkShift),
    ("pale_lightness", .number p.paleLightness.toNat), ("quote", ofColor p.quote)]

/-- The settings, as far as they are given. -/
structure SettingsDraft where
  palette : Option Palette := none
  stayDownMargin : Option Float := none

/-- The record of the settings. -/
def settingsRecord : Record SettingsDraft Settings where
  name := "struct ViewConfig"
  fields := [
    .of "palette" palette (·.palette) fun p d => { d with palette := some p },
    .of "stay_down_margin" float (·.stayDownMargin) fun x d => { d with stayDownMargin := some x }]
  blank := {}
  finish _ d :=
    let s : Settings := {}
    .ok {
      palette := d.palette.getD s.palette
      stayDownMargin := d.stayDownMargin.getD s.stayDownMargin }

/-- The settings of a view. -/
def settings : Decoder Settings := settingsRecord.decode

end Discussion.Wire
