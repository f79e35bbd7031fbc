/-!
# Decimal numerals with a point and an exponent

The binary number that a decimal numeral stands for is found in two steps: its
digits are read into a significand of 64 bits, and the significand is scaled by
a power of ten. Both steps round, so the result is near the decimal value but
not always the nearest.
-/

namespace Discussion.Decimal

/-- The parts of a numeral. -/
structure Numeral where
  negative : Bool
  /-- The digits before the point. -/
  whole : List Char
  /-- The digits after the point. -/
  fraction : List Char := []
  /-- The digits of the exponent, if there is one, and whether it is negative. -/
  exponent : Option (Bool × List Char) := none

/-- Appends digits to a significand for as long as it fits in 64 bits; gives the
significand and the digits that are left. -/
def absorb (significand : Nat) : List Char → Nat × List Char
  | [] => (significand, [])
  | c :: rest =>
    let next := 10 * significand + (c.toNat - '0'.toNat)
    if next < UInt64.size then absorb next rest else (significand, c :: rest)

/-- The largest power of ten by which a number is scaled at once. -/
def largestPower : Nat := 308

/-- The least number beyond 31 bits, which no exponent reaches. -/
def exponentLimit : Nat := 0x80000000

/-- A power of ten. -/
def powerOfTen (n : Nat) : Float := Float.ofScientific 1 false n

/-- Scales `x` by a power of ten. There is no result when the number gets too
large; a number that gets too small ends as zero. -/
def scale (x : Float) (exponent : Int) : Option Float :=
  if 0 ≤ exponent then
    if exponent ≤ largestPower then
      let y := x * powerOfTen exponent.toNat
      if y.isInf then none else some y
    else if x == 0 then some x else none
  else if -exponent ≤ largestPower then some (x / powerOfTen (-exponent).toNat)
  else if x == 0 then some x
  else scale (x / powerOfTen largestPower) (exponent + largestPower)
termination_by (-exponent).toNat
decreasing_by
  simp only [largestPower] at *
  omega

/-- What a numeral stands for. -/
inductive Magnitude
  | integer (n : Int)
  | float (x : Float)
  | tooLarge

/-- Gives a number its sign. -/
def signed (negative : Bool) (x : Float) : Float := if negative then -x else x

namespace Numeral

/-- The number that a numeral stands for. Digits alone stand for an integer as
long as it fits in 64 bits, signed below zero; negative zero is no integer. An
exponent beyond 31 bits makes any number too large or zero. -/
def magnitude (n : Numeral) : Magnitude :=
  let (significand, unread) := absorb 0 n.whole
  if unread = [] ∧ n.fraction = [] ∧ n.exponent = none then
    if !n.negative then .integer significand
    else if 0 < significand ∧ significand ≤ UInt64.size / 2 then .integer (-significand)
    else .float (signed true (Float.ofNat significand))
  else
    let (significand, beyond) := absorb significand n.fraction
    let shift : Int := unread.length - (n.fraction.length - beyond.length : Nat)
    let scaled (exponent : Int) : Magnitude :=
      match scale (Float.ofNat significand) exponent with
      | some x => .float (signed n.negative x)
      | none => .tooLarge
    match n.exponent with
    | none => scaled shift
    | some (below, digits) =>
      let exponent := Nat.ofDigitChars 10 digits 0
      if exponentLimit ≤ exponent then
        if significand ≠ 0 ∧ !below then .tooLarge else .float (signed n.negative 0)
      else scaled (if below then shift - exponent else shift + exponent)

end Numeral

end Discussion.Decimal
