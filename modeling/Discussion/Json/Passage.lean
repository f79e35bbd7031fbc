import Discussion.Json.Token

/-!
# Passing over a value

A value is passed over in search of its end. If the value is not sound, the
search stops where it broke. The character that broke it is used up where only
certain characters could have followed, and left where the value might have
ended. A container that broke inside is closed if its closing bracket comes
next.
-/

namespace Discussion.Json

open Decimal (Magnitude Numeral)

/-- The end of the search: whether the value was sound, and what follows. -/
structure Passage where
  sound : Bool
  rest : List Char

/-- A search that stops. -/
def Passage.stop (rest : List Char) : Passage := ⟨false, rest⟩

/-- Uses up a number of bytes. A character that reaches beyond them is left. -/
def dropBytes : Nat → List Char → List Char
  | 0, cs => cs
  | _, [] => []
  | n + 1, c :: rest =>
    if c.utf8Size ≤ n + 1 then dropBytes (n + 1 - c.utf8Size) rest else c :: rest
termination_by _ cs => cs.length

/-- Passes over the rest of a word. -/
def passWord : List Char → List Char → Passage
  | [], cs => ⟨true, cs⟩
  | _ :: _, [] => .stop []
  | e :: word, c :: rest =>
    if c = e then passWord word rest else .stop (dropBytes 1 (c :: rest))

/-- Passes over the rest of a string after its opening quote. If `paired` holds,
the string has just opened a pair of surrogates, which has to be closed. -/
def passString (paired : Bool) : List Char → Passage
  | [] => .stop []
  | '\\' :: 'u' :: a :: b :: c :: d :: rest =>
    match Text.hexNumber? [a, b, c, d] with
    | none => .stop (dropBytes 4 (a :: b :: c :: d :: rest))
    | some n =>
      if paired then
        if isLowSurrogate n then passString false rest else .stop rest
      else if isLowSurrogate n then .stop rest
      else passString (isHighSurrogate n) rest
  | '\\' :: 'u' :: rest => .stop (dropBytes 4 rest)
  | '\\' :: c :: rest =>
    if !paired && (escape? c).isSome then passString false rest
    else .stop (dropBytes 1 (c :: rest))
  | c :: rest =>
    if paired then .stop (dropBytes 1 (c :: rest))
    else if c = '"' then ⟨true, rest⟩
    else if c = '\\' then .stop []
    else if c.toNat < 0x20 then .stop rest
    else passString false rest

/-- Whether a digit comes next. -/
def atDigit : List Char → Bool
  | c :: _ => c.isDigit
  | [] => false

/-- Where a numeral breaks that has no exponent in its right place. -/
def brokenExponent : List Char → List Char
  | 'e' :: '+' :: rest | 'e' :: '-' :: rest | 'E' :: '+' :: rest | 'E' :: '-' :: rest =>
    dropBytes 1 rest
  | 'e' :: rest | 'E' :: rest => dropBytes 1 rest
  | cs => cs

/-- Where a numeral breaks after its whole part. -/
def brokenFraction : List Char → List Char
  | '.' :: rest => if atDigit rest then brokenExponent (rest.dropWhile Char.isDigit) else rest
  | cs => brokenExponent cs

/-- Where a numeral breaks that is none. -/
def brokenUnsigned : List Char → List Char
  | '0' :: rest => if atDigit rest then rest else brokenFraction rest
  | cs => if atDigit cs then brokenFraction (cs.dropWhile Char.isDigit) else dropBytes 1 cs

/-- The digits of an exponent that are left once it exceeds 31 bits. -/
def excessDigits (value : Nat) : List Char → List Char
  | [] => []
  | c :: rest =>
    let next := 10 * value + (c.toNat - '0'.toNat)
    if Decimal.exponentLimit ≤ next then rest else excessDigits next rest

/-- Passes over a numeral. -/
def passNumeral (cs : List Char) : Passage :=
  match readNumeral cs with
  | some (n, rest) =>
    match n.magnitude with
    | .tooLarge => .stop (((n.exponent.map (·.2)).map (excessDigits 0)).getD [] ++ rest)
    | _ => ⟨true, rest⟩
  | none =>
    .stop <| match cs with
      | '-' :: rest => brokenUnsigned rest
      | cs => if atDigit cs then brokenUnsigned cs else cs

/-- Closes an array whose items have been passed over. -/
def closeItems (p : Passage) : Passage :=
  match skipSpace p.rest with
  | ']' :: rest => ⟨p.sound, rest⟩
  | ',' :: rest => .stop rest
  | rest => .stop rest

/-- Closes an object whose members have been passed over. -/
def closeMembers (p : Passage) : Passage :=
  match skipSpace p.rest with
  | '}' :: rest => ⟨p.sound, rest⟩
  | rest => .stop rest

mutual

/-- Passes over a value, with room for `room` containers inside one another. -/
def passValue (room fuel : Nat) (cs : List Char) : Passage :=
  match fuel with
  | 0 => .stop cs
  | fuel + 1 =>
    match skipSpace cs with
    | 'n' :: rest => passWord ['u', 'l', 'l'] rest
    | 't' :: rest => passWord ['r', 'u', 'e'] rest
    | 'f' :: rest => passWord ['a', 'l', 's', 'e'] rest
    | '"' :: rest => passString false rest
    | '[' :: rest =>
      if room = 0 then .stop ('[' :: rest)
      else
        match skipSpace rest with
        | ']' :: rest => ⟨true, rest⟩
        | rest => closeItems (passItems (room - 1) fuel rest)
    | '{' :: rest =>
      if room = 0 then .stop ('{' :: rest)
      else
        match skipSpace rest with
        | '}' :: rest => ⟨true, rest⟩
        | rest => closeMembers (passMembers (room - 1) fuel rest)
    | cs => passNumeral cs
termination_by structural fuel

/-- Passes over the items of an array up to its end. -/
def passItems (room fuel : Nat) (cs : List Char) : Passage :=
  match fuel with
  | 0 => .stop cs
  | fuel + 1 =>
    match passValue room fuel cs with
    | ⟨false, rest⟩ => .stop rest
    | ⟨true, rest⟩ =>
      match skipSpace rest with
      | ',' :: rest =>
        match skipSpace rest with
        | ']' :: rest => .stop (']' :: rest)
        | rest => passItems room fuel rest
      | ']' :: rest => ⟨true, ']' :: rest⟩
      | rest => .stop rest
termination_by structural fuel

/-- Passes over the members of an object up to its end. -/
def passMembers (room fuel : Nat) (cs : List Char) : Passage :=
  match fuel with
  | 0 => .stop cs
  | fuel + 1 =>
    match skipSpace cs with
    | '"' :: rest =>
      match passString false rest with
      | ⟨false, rest⟩ => .stop rest
      | ⟨true, rest⟩ =>
        match skipSpace rest with
        | ':' :: rest =>
          match passValue room fuel rest with
          | ⟨false, rest⟩ => .stop rest
          | ⟨true, rest⟩ =>
            match skipSpace rest with
            | ',' :: rest => passMembers room fuel rest
            | '}' :: rest => ⟨true, '}' :: rest⟩
            | rest => .stop rest
        | rest => .stop rest
    | rest => .stop rest
termination_by structural fuel

end

/-- Passes over a value. -/
def pass (room : Nat) (cs : List Char) : Passage := passValue room (2 * cs.length + 2) cs

end Discussion.Json
