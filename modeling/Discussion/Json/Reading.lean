import Discussion.Decimal.Numeral

/-!
# What a text reads as

A text need not be JSON from end to end, and a reader that wants a certain kind
of value may object to a part of it before the place where it stops being JSON.
So the reading of a text is a tree that keeps all that was read, in order, and
marks the place where reading stopped.

There are two ways to pass a part of a tree. A part that is skipped only has to
hold together. A part that is taken also has to make sense: numbers within
range, no unpaired surrogates, and not too many containers inside one another.
-/

namespace Discussion.Json

open Decimal (Magnitude)

/-- The key of a member. -/
inductive Key
  | name (s : String)
  /-- A string with a surrogate that belongs to no pair. -/
  | unpaired
deriving DecidableEq

/-- A text as far as it could be read. -/
inductive Reading
  | null
  | bool (b : Bool)
  | number (n : Magnitude)
  /-- A string; it has no text if a surrogate in it belongs to no pair. -/
  | string (text : Option String)
  /-- The items of an array, and whether its end was found. -/
  | array (items : List Reading) (closed : Bool)
  /-- The members of an object, and whether its end was found. -/
  | object (members : List (Key × Reading)) (closed : Bool)
  /-- What follows is no JSON. -/
  | broken

namespace Reading

mutual

/-- Whether a part can be skipped. -/
def isWhole : Reading → Bool
  | .array items closed => allWhole items && closed
  | .object members closed => allMembersWhole members && closed
  | .broken => false
  | _ => true

/-- Whether every item can be skipped. -/
def allWhole : List Reading → Bool
  | [] => true
  | r :: rest => r.isWhole && allWhole rest

/-- Whether every member can be skipped. -/
def allMembersWhole : List (Key × Reading) → Bool
  | [] => true
  | (_, r) :: rest => r.isWhole && allMembersWhole rest

end

mutual

/-- Whether a part can be taken, with room for `room` containers inside one
another. -/
def isSound (room : Nat) : Reading → Bool
  | .array items closed => 0 < room && allSound (room - 1) items && closed
  | .object members closed => 0 < room && allMembersSound (room - 1) members && closed
  | .number .tooLarge => false
  | .string none => false
  | .broken => false
  | _ => true

/-- Whether every item can be taken. -/
def allSound (room : Nat) : List Reading → Bool
  | [] => true
  | r :: rest => r.isSound room && allSound room rest

/-- Whether every member can be taken. -/
def allMembersSound (room : Nat) : List (Key × Reading) → Bool
  | [] => true
  | (.name _, r) :: rest => r.isSound room && allMembersSound room rest
  | _ :: _ => false

end

end Reading

/-- How many containers may stand inside one another in a part that is taken. -/
def depthLimit : Nat := 127

end Discussion.Json
