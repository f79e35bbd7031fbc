import Discussion.Json.Leniency

/-!
# Reading JSON

The reader goes through a text from left to right and builds its reading. It
takes a quantity of fuel that any text of its length cannot use up.

Some values may be broken without harm to the rest of the text. Where the
leniency of a text allows for that, such a value becomes a broken part of the
reading, and reading goes on where the value broke.
-/

namespace Discussion.Json

mutual

/-- Reads one value, with room for `room` containers inside one another; gives
its reading and what follows it, if reading did not stop inside. -/
def readValue (leniency : Leniency) (room fuel : Nat) (cs : List Char) :
    Reading × Option (List Char) :=
  match fuel with
  | 0 => (.broken, none)
  | fuel + 1 =>
    match leniency.brokenAt? room cs, skipSpace cs with
    | some rest, _ => (.broken, some rest)
    | none, 'n' :: 'u' :: 'l' :: 'l' :: rest => (.null, some rest)
    | none, 't' :: 'r' :: 'u' :: 'e' :: rest => (.bool true, some rest)
    | none, 'f' :: 'a' :: 'l' :: 's' :: 'e' :: rest => (.bool false, some rest)
    | none, '"' :: rest =>
      match readString rest with
      | none => (.broken, none)
      | some (text, rest) => (.string text, some rest)
    | none, '[' :: rest =>
      match skipSpace rest with
      | ']' :: rest => (.array [] true, some rest)
      | rest =>
        let (items, rest) := readItems leniency 0 (room - 1) fuel rest
        (.array items rest.isSome, rest)
    | none, '{' :: rest =>
      match skipSpace rest with
      | '}' :: rest => (.object [] true, some rest)
      | rest =>
        let (members, rest) := readMembers leniency (room - 1) fuel rest
        (.object members rest.isSome, rest)
    | none, cs =>
      match readNumeral cs with
      | none => (.broken, none)
      | some (n, rest) => (.number n.magnitude, some rest)
termination_by structural fuel

/-- Reads the items of an array from place `i` up to its end. -/
def readItems (leniency : Leniency) (i room fuel : Nat) (cs : List Char) :
    List Reading × Option (List Char) :=
  match fuel with
  | 0 => ([.broken], none)
  | fuel + 1 =>
    match readValue (leniency.atItem i) room fuel cs with
    | (r, none) => ([r], none)
    | (r, some rest) =>
      match skipSpace rest with
      | ',' :: rest =>
        match skipSpace rest with
        | ']' :: _ => ([r], none)
        | rest =>
          let (items, rest) := readItems leniency (i + 1) room fuel rest
          (r :: items, rest)
      | ']' :: rest => ([r], some rest)
      | _ => ([r], none)
termination_by structural fuel

/-- Reads the members of an object up to its end. -/
def readMembers (leniency : Leniency) (room fuel : Nat) (cs : List Char) :
    List (Key × Reading) × Option (List Char) :=
  match fuel with
  | 0 => ([], none)
  | fuel + 1 =>
    match skipSpace cs with
    | '"' :: rest =>
      match readString rest with
      | none => ([], none)
      | some (text, rest) =>
        let key := match text with
          | some s => Key.name s
          | none => Key.unpaired
        match skipSpace rest with
        | ':' :: rest =>
          match readValue (leniency.atKey key) room fuel rest with
          | (r, none) => ([(key, r)], none)
          | (r, some rest) =>
            match skipSpace rest with
            | ',' :: rest =>
              let (members, rest) := readMembers leniency room fuel rest
              ((key, r) :: members, rest)
            | '}' :: rest => ([(key, r)], some rest)
            | _ => ([(key, r)], none)
        | _ => ([(key, .broken)], none)
    | _ => ([], none)
termination_by structural fuel

end

/-- A whole text: the reading of its first value, and whether only blanks
follow. -/
structure Document where
  value : Reading
  complete : Bool

/-- Reads a text. -/
def read (leniency : Leniency) (text : String) : Document :=
  let cs := text.toList
  let (value, rest) := readValue leniency depthLimit (2 * cs.length + 2) cs
  { value, complete := rest.any fun rest => (skipSpace rest).isEmpty }

end Discussion.Json
