/-!
# Colors

Colors of posts and links in hue, saturation and lightness.
-/

namespace Discussion

/-- A color as the page writes it: a hue in degrees, saturation and lightness
in percent. Colors that the server sends are kept as they are, so a channel may
lie outside its range. -/
structure Color where
  hue : UInt16
  saturation : UInt8
  lightness : UInt8
deriving DecidableEq

/-- Brings a percentage into the range from 0 to 100. -/
def clampPercent (n : Int) : UInt8 :=
  if n ≤ 0 then 0 else if 100 ≤ n then 100 else UInt8.ofNat n.toNat

theorem toNat_clampPercent (n : Int) : ((clampPercent n).toNat : Int) = max 0 (min 100 n) := by
  rw [clampPercent]
  split
  · rename_i hlow
    exact (Int.max_eq_left (Int.le_trans (Int.min_le_right 100 n) hlow)).symm
  · rename_i hlow
    split
    · rename_i hhigh
      rw [Int.min_eq_left hhigh]
      rfl
    · rename_i hhigh
      rw [UInt8.toNat_ofNat_of_lt' (by simp only [UInt8.size]; omega)]
      omega

namespace Color

/-- The color with the given channels: the hue goes around the circle, the
percentages stop at their ends. -/
def ofChannels (hue saturation lightness : Int) : Color where
  hue := UInt16.ofNat (hue % 360).toNat
  saturation := clampPercent saturation
  lightness := clampPercent lightness

/-- A channel and an offset added in a word of 32 bits. A sum that leaves the
word comes in again at its other end. -/
def offsetChannel (channel : Nat) (offset : Int32) : Int := (Int32.ofNat channel + offset).toInt

/-- Moves every channel by an offset. -/
def shifted (c : Color) (hue saturation lightness : Int32) : Color :=
  ofChannels (offsetChannel c.hue.toNat hue) (offsetChannel c.saturation.toNat saturation)
    (offsetChannel c.lightness.toNat lightness)

/-- The same color with another lightness, of at most 100 percent. -/
def withLightness (c : Color) (lightness : UInt8) : Color :=
  { c with lightness := min lightness 100 }

/-- The color in the notation of style sheets. -/
def css (c : Color) : String :=
  "hsl(" ++ toString c.hue.toNat ++ ", " ++ toString c.saturation.toNat ++ "%, " ++
    toString c.lightness.toNat ++ "%)"

/-! ## Channels -/

theorem ext_channels {c d : Color} (hhue : c.hue.toNat = d.hue.toNat)
    (hsaturation : c.saturation.toNat = d.saturation.toNat)
    (hlightness : c.lightness.toNat = d.lightness.toNat) : c = d := by
  obtain ⟨hue, saturation, lightness⟩ := c
  obtain rfl := UInt16.toNat_inj.mp hhue
  obtain rfl := UInt8.toNat_inj.mp hsaturation
  obtain rfl := UInt8.toNat_inj.mp hlightness
  rfl

theorem hue_ofChannels (hue saturation lightness : Int) :
    ((ofChannels hue saturation lightness).hue.toNat : Int) = hue % 360 := by
  have hlow := Int.emod_nonneg hue (show (360 : Int) ≠ 0 by decide)
  have hhigh := Int.emod_lt_of_pos hue (show (0 : Int) < 360 by decide)
  rw [ofChannels, UInt16.toNat_ofNat_of_lt' (by simp only [UInt16.size]; omega)]
  exact Int.toNat_of_nonneg hlow

theorem saturation_ofChannels (hue saturation lightness : Int) :
    ((ofChannels hue saturation lightness).saturation.toNat : Int) =
      max 0 (min 100 saturation) :=
  toNat_clampPercent saturation

theorem lightness_ofChannels (hue saturation lightness : Int) :
    ((ofChannels hue saturation lightness).lightness.toNat : Int) = max 0 (min 100 lightness) :=
  toNat_clampPercent lightness

/-- The sum in a word differs from the sum by a multiple of the size of the word. -/
theorem offsetChannel_eq_bmod {channel : Nat} (h : channel < 0x80000000) (offset : Int32) :
    offsetChannel channel offset = (channel + offset.toInt).bmod UInt32.size := by
  rw [offsetChannel, Int32.toInt_add, Int32.toInt_ofNat_of_lt h]

@[simp]
theorem withLightness_hue (c : Color) (l : UInt8) : (c.withLightness l).hue = c.hue := rfl

@[simp]
theorem withLightness_saturation (c : Color) (l : UInt8) :
    (c.withLightness l).saturation = c.saturation := rfl

@[simp]
theorem toNat_withLightness_lightness (c : Color) (l : UInt8) :
    (c.withLightness l).lightness.toNat = min l.toNat 100 := by
  change (if l ≤ 100 then l else 100).toNat = min l.toNat 100
  split
  · rename_i h
    exact (Nat.min_eq_left (UInt8.le_iff_toNat_le.mp h)).symm
  · rename_i h
    exact (Nat.min_eq_right (Nat.le_of_not_le (mt UInt8.le_iff_toNat_le.mpr h))).symm

end Color

end Discussion
