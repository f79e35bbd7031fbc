import Discussion.Color

/-!
# Palettes and settings

How a view chooses its colors, and when it stays at the bottom of the page.
-/

namespace Discussion

/-- An offset for each channel of a color. -/
structure ColorShift where
  hue : Int32
  saturation : Int32
  lightness : Int32
deriving DecidableEq

namespace ColorShift

/-- `d` is the color `c` with every channel moved by its offset. The sums go around at the ends
of a word of 32 bits; then the hue goes around the circle, and the percentages stop at 0 and 100. -/
structure Moves (s : ColorShift) (c d : Color) : Prop where
  hue : (d.hue.toNat : Int) = (c.hue.toNat + s.hue.toInt).bmod UInt32.size % 360
  saturation : (d.saturation.toNat : Int) =
    max 0 (min 100 ((c.saturation.toNat + s.saturation.toInt).bmod UInt32.size))
  lightness : (d.lightness.toNat : Int) =
    max 0 (min 100 ((c.lightness.toNat + s.lightness.toInt).bmod UInt32.size))

/-- The offsets with which no sum leaves its word, whatever the color. Only with such offsets do
words that go around and words that trap give the same colors. -/
structure Fits (s : ColorShift) : Prop where
  hue : s.hue.toInt < 0x80000000 - 65535
  saturation : s.saturation.toInt < 0x80000000 - 255
  lightness : s.lightness.toInt < 0x80000000 - 255

end ColorShift

/-- The color rules of a view. -/
@[ext]
structure Palette where
  /-- Where the sequence of link colors stands before the first is taken. -/
  start : Color := ⟨0, 70, 80⟩
  hueStep : UInt16 := 113
  lightnessStep : UInt8 := 89
  lightnessSpan : UInt8 := 20
  lightnessFloor : UInt8 := 65
  /-- Turns the color of a post into the darker one of a text that refers to it. -/
  darkShift : ColorShift := ⟨0, -40, -5⟩
  /-- The lightness of every author color. -/
  paleLightness : UInt8 := 90
  /-- The color of a quoted post that has no link color. -/
  quote : Color := ⟨46, 17, 76⟩
deriving DecidableEq

namespace Palette

/-- The darker variant of a post's color. -/
def dark (p : Palette) (c : Color) : Color :=
  c.shifted p.darkShift.hue p.darkShift.saturation p.darkShift.lightness

/-- The pale variant of an author's color. -/
def pale (p : Palette) (seed : Color) : Color :=
  seed.withLightness p.paleLightness

end Palette

/-! ## Moved colors -/

namespace ColorShift

variable {s : ColorShift} {c d d' : Color}

theorem moves_shifted (s : ColorShift) (c : Color) :
    s.Moves c (c.shifted s.hue s.saturation s.lightness) := by
  have hhue := c.hue.toNat_lt
  have hsaturation := c.saturation.toNat_lt
  have hlightness := c.lightness.toNat_lt
  rw [Color.shifted]
  constructor
  · rw [Color.hue_ofChannels, Color.offsetChannel_eq_bmod (by omega)]
  · rw [Color.saturation_ofChannels, Color.offsetChannel_eq_bmod (by omega)]
  · rw [Color.lightness_ofChannels, Color.offsetChannel_eq_bmod (by omega)]

/-- A shift moves a color to one color only. -/
theorem Moves.unique (h : s.Moves c d) (h' : s.Moves c d') : d = d' :=
  Color.ext_channels (Int.ofNat.inj (h.hue.trans h'.hue.symm))
    (Int.ofNat.inj (h.saturation.trans h'.saturation.symm))
    (Int.ofNat.inj (h.lightness.trans h'.lightness.symm))

/-- A channel is not below zero, so a sum can leave its word at the upper end only. -/
theorem bmod_eq_add {channel bound : Nat} {offset : Int32} (hchannel : channel ≤ bound)
    (hoffset : offset.toInt < 0x80000000 - bound) :
    (channel + offset.toInt).bmod UInt32.size = channel + offset.toInt := by
  have hlow := offset.le_toInt
  have hsize : UInt32.size = 0x100000000 := rfl
  exact Int.bmod_eq_of_le (by omega) (by omega)

/-- With offsets that fit, the channels are moved by the offsets themselves. -/
theorem Moves.of_fits (h : s.Moves c d) (hfits : s.Fits) :
    (d.hue.toNat : Int) = (c.hue.toNat + s.hue.toInt) % 360 ∧
      (d.saturation.toNat : Int) = max 0 (min 100 (c.saturation.toNat + s.saturation.toInt)) ∧
      (d.lightness.toNat : Int) = max 0 (min 100 (c.lightness.toNat + s.lightness.toInt)) := by
  rw [h.hue, h.saturation, h.lightness,
    bmod_eq_add (Nat.le_of_lt_succ c.hue.toNat_lt) hfits.hue,
    bmod_eq_add (Nat.le_of_lt_succ c.saturation.toNat_lt) hfits.saturation,
    bmod_eq_add (Nat.le_of_lt_succ c.lightness.toNat_lt) hfits.lightness]
  exact ⟨rfl, rfl, rfl⟩

end ColorShift

namespace Palette

variable {p : Palette} {c d : Color}

/-- The dark variant is the color moved by the offsets of the palette. -/
theorem moves_dark_iff : p.darkShift.Moves c d ↔ d = p.dark c := by
  have hdark : p.darkShift.Moves c (p.dark c) := p.darkShift.moves_shifted c
  constructor
  · exact fun h => h.unique hdark
  · rintro rfl
    exact hdark

/-- A sum that leaves its word comes in again at the other end. -/
example : ({ darkShift := ⟨2147483647, 0, 0⟩ } : Palette).dark ⟨113, 70, 74⟩ = ⟨344, 70, 74⟩ := by
  decide

theorem fits_darkShift_default : ({} : Palette).darkShift.Fits := by
  constructor <;> decide

/-- The palette that is used when none is given takes off 40 percent of saturation and 5 of
lightness, as far as there are so many. -/
theorem dark_default (c : Color) :
    (({} : Palette).dark c).hue.toNat = c.hue.toNat % 360 ∧
      (({} : Palette).dark c).saturation.toNat = min (c.saturation.toNat - 40) 100 ∧
      (({} : Palette).dark c).lightness.toNat = min (c.lightness.toNat - 5) 100 := by
  have hmoves : ({} : Palette).darkShift.Moves c (({} : Palette).dark c) := moves_dark_iff.mpr rfl
  obtain ⟨hhue, hsaturation, hlightness⟩ := hmoves.of_fits fits_darkShift_default
  have hoffsets : ({} : Palette).darkShift.hue.toInt = 0 ∧
      ({} : Palette).darkShift.saturation.toInt = -40 ∧
      ({} : Palette).darkShift.lightness.toInt = -5 := by decide
  omega

/-- The pale variant has the hue and the saturation of the author's color, and the lightness of
the palette as far as it is a percentage. -/
theorem eq_pale_iff : d = p.pale c ↔ d.hue = c.hue ∧ d.saturation = c.saturation ∧
    d.lightness.toNat = min p.paleLightness.toNat 100 := by
  have hlightness : (p.pale c).lightness.toNat = min p.paleLightness.toNat 100 :=
    c.toNat_withLightness_lightness p.paleLightness
  constructor
  · rintro rfl
    exact ⟨c.withLightness_hue _, c.withLightness_saturation _, hlightness⟩
  · rintro ⟨hhue, hsaturation, h⟩
    exact Color.ext_channels (congrArg _ hhue) (congrArg _ hsaturation) (h.trans hlightness.symm)

end Palette

/-- The settings of a view. -/
structure Settings where
  palette : Palette := {}
  /-- How far, in pixels, the footer may reach past the window while the page
  still counts as scrolled to its end. -/
  stayDownMargin : Float := 200
deriving DecidableEq

end Discussion
