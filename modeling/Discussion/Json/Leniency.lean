import Discussion.Json.Passage
import Discussion.Json.Reading

/-!
# Leniency

Which values of a text may be broken without harm to the rest of it.
-/

namespace Discussion.Json

/-- Which values of a text may be broken without harm to the rest. -/
inductive Leniency
  | strict
  /-- The value itself, as a whole. -/
  | lenient
  /-- Values inside a container, by their place in an array or by their key. -/
  | parts (item : Nat → Leniency) (member : String → Leniency)

namespace Leniency

/-- Whether the value itself may be broken. -/
def isLenient : Leniency → Bool
  | .lenient => true
  | _ => false

/-- The leniency of an item. -/
def atItem : Leniency → Nat → Leniency
  | .parts item _, i => item i
  | _, _ => .strict

/-- The leniency of a member. -/
def atKey : Leniency → Key → Leniency
  | .parts _ member, .name key => member key
  | _, _ => .strict

/-- Where reading goes on after a value that may be broken and is. -/
def brokenAt? (leniency : Leniency) (room : Nat) (cs : List Char) : Option (List Char) :=
  if leniency.isLenient then
    let p := pass room cs
    if p.sound then none else some p.rest
  else none

end Leniency

end Discussion.Json
