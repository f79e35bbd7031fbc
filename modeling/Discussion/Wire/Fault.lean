import Discussion.Decimal.Shortest
import Discussion.Json.Reading
import Discussion.Reference.Number
import Discussion.Text.Shown

/-!
# What can be wrong with incoming data

Incoming text is either no JSON, or JSON that does not fit what is expected.
-/

namespace Discussion.Wire

open Json (Reading)

/-! ## Positions at the end of messages

A message about a text may end in a position, as in `at line 3 column 5`. What is wrong counts here
and not where, so a position is dropped. A message that quotes incoming data may end like that by
chance; it is cut all the same. -/

/-- Whether a text is a number of 64 bits. -/
def isCoordinate (cs : List Char) : Bool :=
  isNumeral cs && decide (Nat.ofDigitChars 10 cs 0 < UInt64.size)

/-- Takes a number and the label in front of it off the end of a text. The text
is given back to front. -/
def dropCoordinate? (label : String) (reversed : List Char) : Option (List Char) :=
  let digits := (reversed.takeWhile Char.isDigit).reverse
  let rest := reversed.dropWhile Char.isDigit
  let mark := label.toList.reverse
  if isCoordinate digits && mark.isPrefixOf rest then some (rest.drop mark.length) else none

/-- Drops the position at the end of a message, if there is one. -/
def dropPosition (message : String) : String :=
  let cut := do
    let rest ← dropCoordinate? " column " message.toList.reverse
    dropCoordinate? " at line " rest
  match cut with
  | some rest => String.ofList rest.reverse
  | none => message

/-! ## Faults -/

/-- What was met in place of the expected value. -/
inductive Found
  | null
  | bool (b : Bool)
  | integer (n : Int)
  | float (x : Float)
  | text (s : String)
  | sequence
  | map

/-- The naming of what was met. -/
def Found.describe : Found → String
  | .null => "null"
  | .bool b => "boolean `" ++ toString b ++ "`"
  | .integer n => "integer `" ++ toString n ++ "`"
  | .float x => "floating point `" ++ Decimal.floatText x ++ "`"
  | .text s => "string " ++ Text.quoted s
  | .sequence => "sequence"
  | .map => "map"

/-- How a value fails to fit. -/
inductive Mismatch
  | wrongType (found : Found) (expected : String)
  | outOfRange (n : Int) (expected : String)
  | wrongLength (length : Nat) (expected : String)
  | missingField (field : String)
  | repeatedField (field : String)
  | unknownVariant (name : String) (known : List String)
  /-- None of the forms that a type may take. -/
  | noForm (type : String)
  /-- An object that names a variant has to have one member. -/
  | notSingle
  | badReference (cause : ReferenceError)

/-- A name in the quotes of messages. -/
def ticked (name : String) : String := "`" ++ name ++ "`"

/-- The list of the known variants in messages. -/
def oneOf : List String → String
  | [] => "nothing"
  | [a] => ticked a
  | [a, b] => ticked a ++ " or " ++ ticked b
  | names => "one of " ++ ", ".intercalate (names.map ticked)

/-- The wording of a mismatch. -/
def Mismatch.message : Mismatch → String
  | .wrongType found expected => "invalid type: " ++ found.describe ++ ", expected " ++ expected
  | .outOfRange n expected =>
    "invalid value: integer `" ++ toString n ++ "`, expected " ++ expected
  | .wrongLength length expected =>
    "invalid length " ++ toString length ++ ", expected " ++ expected
  | .missingField field => "missing field " ++ ticked field
  | .repeatedField field => "duplicate field " ++ ticked field
  | .unknownVariant name known =>
    "unknown variant " ++ ticked name ++ ", expected " ++ oneOf known
  | .noForm type => "data did not match any variant of untagged enum " ++ type
  | .notSingle => "invalid value: map, expected map with a single key"
  | .badReference cause => dropPosition cause.message

/-- What is wrong with incoming data. -/
inductive Fault
  /-- The text is no JSON. -/
  | malformed
  | mismatch (cause : Mismatch)

/-- The wording of a fault. -/
def Fault.message : Fault → String
  | .malformed => "the text is not JSON"
  | .mismatch cause => cause.message

/-- What a part of a reading is, if that much can be told. -/
def found? : Reading → Option Found
  | .null => some .null
  | .bool b => some (.bool b)
  | .number (.integer n) => some (.integer n)
  | .number (.float x) => some (.float x)
  | .number .tooLarge => none
  | .string (some s) => some (.text s)
  | .string none => none
  | .array _ _ => some .sequence
  | .object _ _ => some .map
  | .broken => none

/-- The objection to a value of the wrong kind. -/
def wrongType (expected : String) (r : Reading) : Fault :=
  match found? r with
  | none => .malformed
  | some found => .mismatch (.wrongType found expected)

end Discussion.Wire
