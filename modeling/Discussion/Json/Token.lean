import Discussion.Decimal.Numeral
import Discussion.Text.Basic

/-!
# Strings and numerals in JSON

The parts of a text without parts of their own.
-/

namespace Discussion.Json

open Decimal (Numeral)

/-- The blanks between tokens. -/
def isSpace (c : Char) : Bool := c == ' ' || c == '\t' || c == '\n' || c == '\r'

/-- Drops leading blanks. -/
def skipSpace (cs : List Char) : List Char := cs.dropWhile isSpace

/-- The code point of a simple escape. -/
def escape? : Char → Option Nat
  | '"' => some 0x22
  | '\\' => some 0x5C
  | '/' => some 0x2F
  | 'b' => some 0x08
  | 'f' => some 0x0C
  | 'n' => some 0x0A
  | 'r' => some 0x0D
  | 't' => some 0x09
  | _ => none

/-- Reads the rest of a string after its opening quote, as code points and
surrogates, onto those in `done`, last one first. Control characters have to be
escaped. -/
def readUnits (done : List Nat) : List Char → Option (List Nat × List Char)
  | [] => none
  | '"' :: rest => some (done.reverse, rest)
  | '\\' :: 'u' :: a :: b :: c :: d :: rest =>
    match Text.hexNumber? [a, b, c, d] with
    | none => none
    | some n => readUnits (n :: done) rest
  | '\\' :: c :: rest =>
    match escape? c with
    | none => none
    | some n => readUnits (n :: done) rest
  | c :: rest => if c.toNat < 0x20 then none else readUnits (c.toNat :: done) rest

/-- Whether a unit opens a pair of surrogates. -/
def isHighSurrogate (n : Nat) : Bool := 0xD800 ≤ n && n ≤ 0xDBFF

/-- Whether a unit closes a pair of surrogates. -/
def isLowSurrogate (n : Nat) : Bool := 0xDC00 ≤ n && n ≤ 0xDFFF

/-- Joins the surrogates of each pair, onto the characters in `done`, last one
first. There is no result if a surrogate belongs to no pair. -/
def joinUnits (done : List Char) : List Nat → Option (List Char)
  | [] => some done.reverse
  | [n] =>
    if isHighSurrogate n || isLowSurrogate n then none else some (Char.ofNat n :: done).reverse
  | n :: m :: rest =>
    if isHighSurrogate n then
      if isLowSurrogate m then
        joinUnits (Char.ofNat (0x10000 + 0x400 * (n - 0xD800) + (m - 0xDC00)) :: done) rest
      else none
    else if isLowSurrogate n then none
    else joinUnits (Char.ofNat n :: done) (m :: rest)

/-- Reads the rest of a string after its opening quote. The text is missing if a
surrogate belongs to no pair. -/
def readString (cs : List Char) : Option (Option String × List Char) :=
  (readUnits [] cs).map fun (units, rest) => ((joinUnits [] units).map String.ofList, rest)

/-- Splits off the digits at the front, of which there has to be one. -/
def readDigits (cs : List Char) : Option (List Char × List Char) :=
  match cs.takeWhile Char.isDigit with
  | [] => none
  | digits => some (digits, cs.dropWhile Char.isDigit)

/-- Reads the digits before the point: zero alone, or digits that do not start
with zero. -/
def readWhole (cs : List Char) : Option (List Char × List Char) :=
  match readDigits cs with
  | some ('0' :: _ :: _, _) => none
  | other => other

/-- Reads a fraction, if there is one. -/
def readFraction : List Char → Option (List Char × List Char)
  | '.' :: rest => readDigits rest
  | cs => some ([], cs)

/-- Reads the digits of an exponent after its sign. -/
def readPower (negative : Bool) (cs : List Char) :
    Option (Option (Bool × List Char) × List Char) :=
  (readDigits cs).map fun (digits, rest) => (some (negative, digits), rest)

/-- Reads the exponent after its mark. -/
def readSignedPower : List Char → Option (Option (Bool × List Char) × List Char)
  | '-' :: rest => readPower true rest
  | '+' :: rest => readPower false rest
  | cs => readPower false cs

/-- Reads an exponent, if there is one. -/
def readExponent : List Char → Option (Option (Bool × List Char) × List Char)
  | 'e' :: rest => readSignedPower rest
  | 'E' :: rest => readSignedPower rest
  | cs => some (none, cs)

/-- Reads a numeral after its sign. -/
def readUnsigned (negative : Bool) (cs : List Char) : Option (Numeral × List Char) := do
  let (whole, cs) ← readWhole cs
  let (fraction, cs) ← readFraction cs
  let (exponent, cs) ← readExponent cs
  pure ({ negative, whole, fraction, exponent }, cs)

/-- Reads a numeral. -/
def readNumeral : List Char → Option (Numeral × List Char)
  | '-' :: rest => readUnsigned true rest
  | cs => readUnsigned false cs

end Discussion.Json
