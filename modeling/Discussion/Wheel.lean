import Discussion.Palette

/-!
# The sequence of link colors

Link colors are taken one after the other from a sequence. The hue advances by
a fixed step, so that colors that follow each other lie far apart; the
lightness jumps about in a narrow band. The sequence never starts anew while a
view lives.
-/

namespace Discussion

/-- A place in the sequence of link colors. -/
structure Wheel where
  current : Color
  hueStep : UInt32
  lightnessStep : UInt32
  lightnessSpan : UInt32
  lightnessFloor : UInt32
deriving DecidableEq

namespace Wheel

/-- The sequence of a palette before its first color. A span of zero counts as
one. -/
def ofPalette (p : Palette) : Wheel where
  current := p.start
  hueStep := p.hueStep.toUInt32
  lightnessStep := p.lightnessStep.toUInt32
  lightnessSpan := max p.lightnessSpan.toUInt32 1
  lightnessFloor := p.lightnessFloor.toUInt32

/-- The color that comes next. -/
def next (w : Wheel) : Color :=
  let hue := (w.current.hue.toUInt32 + w.hueStep) % 360
  let lightness :=
    (w.current.lightness.toUInt32 + w.lightnessStep) % w.lightnessSpan + w.lightnessFloor
  Color.ofChannels hue.toNat w.current.saturation.toNat lightness.toNat

/-- The sequence after its next color has been taken. -/
def advance (w : Wheel) : Wheel := { w with current := w.next }

/-- The first colors of the sequence. -/
def take (w : Wheel) : Nat → List Color
  | 0 => []
  | n + 1 => w.next :: w.advance.take n

@[simp]
theorem current_advance (w : Wheel) : w.advance.current = w.next := rfl

end Wheel

end Discussion
