/-!
# Shortest decimal text of a binary number

The text of a 64-bit binary number has the fewest digits that read back as the
same number, and of those the ones nearest to it.
-/

namespace Discussion.Decimal

/-- A positive number `mantissa · 2 ^ exponent`, as binary numbers hold it. -/
structure Binary where
  mantissa : Nat
  exponent : Int
  /-- Whether the number below is nearer than the number above. -/
  narrow : Bool

/-- The top bit of a mantissa of 53 bits. Only the bits below it are stored. -/
def topBit : Nat := 0x10000000000000

/-- The bit that tells negative numbers. -/
def signBit : Nat := 0x8000000000000000

/-- The absolute value of a finite binary number, from its bits. -/
def Binary.ofBits (bits : UInt64) : Binary :=
  let fraction : Nat := bits.toNat % topBit
  let biased : Nat := bits.toNat / topBit % 0x800
  if biased = 0 then ⟨fraction, -1074, false⟩
  else ⟨topBit + fraction, (biased : Int) - 1075, fraction = 0 ∧ 1 < biased⟩

/-- Compares `a · 2 ^ p` with `b · 10 ^ q`. -/
def compareScaled (a : Nat) (p : Int) (b : Nat) (q : Int) : Ordering :=
  compare (a * Nat.pow 2 p.toNat * Nat.pow 10 (-q).toNat)
    (b * Nat.pow 10 q.toNat * Nat.pow 2 (-p).toNat)

namespace Binary

/-- Whether `digits · 10 ^ q` reads back as the number: it lies between the
points halfway to the neighbours, or on one of them if the mantissa is even. -/
def reads (b : Binary) (digits : Nat) (q : Int) : Bool :=
  let low := 4 * b.mantissa - if b.narrow then 1 else 2
  let high := 4 * b.mantissa + 2
  let p := b.exponent - 2
  let even := b.mantissa % 2 = 0
  match compareScaled low p digits q, compareScaled high p digits q with
  | .lt, .gt => true
  | .eq, .gt => even
  | .lt, .eq => even
  | _, _ => false

/-- The whole part of the number over `10 ^ q`. -/
def quotient (b : Binary) (q : Int) : Nat :=
  b.mantissa * Nat.pow 2 b.exponent.toNat * Nat.pow 10 (-q).toNat /
    (Nat.pow 10 q.toNat * Nat.pow 2 (-b.exponent).toNat)

/-- Whether the number is nearer to `(d + 1) · 10 ^ q` than to `d · 10 ^ q`; a
tie goes to the even digit. -/
def nearerAbove (b : Binary) (d : Nat) (q : Int) : Bool :=
  match compareScaled (2 * b.mantissa) b.exponent (2 * d + 1) q with
  | .lt => false
  | .gt => true
  | .eq => d % 2 = 1

/-- The neighbour of the number on the grid of `10 ^ q` that reads back, the
nearer one if both do. -/
def onGrid? (b : Binary) (q : Int) : Option Nat :=
  let d := b.quotient q
  match b.reads d q, b.reads (d + 1) q with
  | true, true => some (if b.nearerAbove d q then d + 1 else d)
  | true, false => some d
  | false, true => some (d + 1)
  | false, false => none

/-- The exponent of the number's first decimal digit, searched downwards from
`top`. -/
def leading (b : Binary) : Nat → Int → Int
  | 0, top => top
  | fuel + 1, top =>
    if compareScaled b.mantissa b.exponent 1 top = .lt then b.leading fuel (top - 1) else top

/-- The coarsest of the grids from `q` down on which a neighbour reads back,
with that neighbour. -/
def search (b : Binary) : Nat → Int → Nat × Int
  | 0, q => (b.quotient q, q)
  | fuel + 1, q =>
    match b.onGrid? q with
    | some d => (d, q)
    | none => b.search fuel (q - 1)

/-- The shortest digits that read back, and the exponent of the last of them.
Seventeen digits are always enough. -/
def shortest (b : Binary) : Nat × Int := b.search 17 (b.leading 640 309)

end Binary

/-- Drops trailing zeros of a digit sequence. -/
def trimZeros (digits : List Char) : List Char :=
  (digits.reverse.dropWhile (· = '0')).reverse

/-- The notation of numbers in messages: positional from `1e-5` to below
`1e16`, always with a fraction; otherwise in scientific notation with a sign
before a positive exponent. -/
def floatText (x : Float) : String :=
  let bits := x.toBits
  let sign := if signBit ≤ bits.toNat then "-" else ""
  if bits.toNat % signBit = 0 then sign ++ "0.0"
  else
    let (d, q) := (Binary.ofBits bits).shortest
    let all := Nat.toDigits 10 d
    let top : Int := q + all.length - 1
    let digits := trimZeros all
    let body : List Char :=
      if -5 ≤ top ∧ top < 16 then
        if top < 0 then '0' :: '.' :: List.replicate (-top - 1).toNat '0' ++ digits
        else
          let whole := (top + 1).toNat
          let padded := digits ++ List.replicate (whole - digits.length) '0'
          let fraction := padded.drop whole
          padded.take whole ++ '.' :: if fraction = [] then ['0'] else fraction
      else
        let mantissa := match digits with
          | [] => []
          | [c] => [c]
          | c :: rest => c :: '.' :: rest
        mantissa ++ 'e' :: (if top < 0 then '-' else '+') :: Nat.toDigits 10 top.natAbs
    sign ++ String.ofList body

end Discussion.Decimal
