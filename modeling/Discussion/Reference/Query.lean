import Discussion.Reference.Number
import Discussion.Text.Basic

/-!
# The pivot of a query string

A page address may ask for a fold with a `pivot` parameter. The query string is
scanned once, from left to right, for pairs of a key and a value.
-/

namespace Discussion.Query

/-- Whether `c` may stand in the key of a pair. -/
def isKeyChar (c : Char) : Bool := c != '&' && c != '=' && c != '?'

/-- The pairs of a query string. `key` holds the key characters just read, last
one first. An `=` after at least one of them opens a value, which runs up to
the next `&`. -/
def pairsFrom (key : List Char) : List Char → List (List Char × List Char)
  | [] => []
  | c :: rest =>
    if isKeyChar c then pairsFrom (c :: key) rest
    else if c = '=' ∧ key ≠ [] then
      (key.reverse, rest.takeWhile (· != '&')) :: pairsFrom [] (rest.dropWhile (· != '&'))
    else pairsFrom [] rest
termination_by cs => cs.length
decreasing_by
  · exact Nat.lt_succ_self _
  · exact Nat.lt_succ_of_le (List.dropWhile_sublist _).length_le
  · exact Nat.lt_succ_self _

/-- The pairs of a query string, left to right. -/
def pairs (query : String) : List (List Char × List Char) :=
  pairsFrom [] query.toList

/-- The post that a pair asks for, if its key is `pivot` and its value names a
post. -/
def pairPivot? (pair : List Char × List Char) : Option PostNumber := do
  let key ← Text.percentDecode? pair.1
  if key = "pivot" then
    let value ← Text.percentDecode? pair.2
    (PostNumber.parse value).toOption
  else none

/-- The post that a query string asks to fold on: that of the first pair that
names one. -/
def pivot? (query : String) : Option PostNumber :=
  (pairs query).findSome? pairPivot?

end Discussion.Query
