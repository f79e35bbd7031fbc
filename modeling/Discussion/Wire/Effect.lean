import Discussion.Effect
import Discussion.Wire.Post

/-!
# Effects and broadcasts in data

Effects are only written. A broadcast is written and read; its kind and its
details are two members of an object, in either order.
-/

namespace Discussion.Wire

open Json (Key Reading Value)

/-- A broadcast as data. -/
def ofBroadcast : Broadcast → Value
  | .insertedPost n =>
    .object [("type", .string "insertedPost"), ("detail", .object [("id", .number n.value)])]

/-- A badge as data, or null. -/
def ofBadge? : Option Badge → Value
  | none => .null
  | some b => .object [("marker", .ofText? b.marker), ("color", ofColor b.color)]

/-- A place to scroll to as data. -/
def ofScrollTarget : ScrollTarget → Value
  | .post n => .object [("post", .number n.value)]
  | .composer => .string "composer"

/-- An effect as data. -/
def ofEffect : Effect → Value
  | .scrollTo target => .object [("effect", .string "scroll_to"), ("target", ofScrollTarget target)]
  | .compose n => .object [("effect", .string "compose"), ("reply_to", .number n.value)]
  | .announce event => .object [("effect", .string "announce"), ("event", ofBroadcast event)]
  | .badge b => .object [("effect", .string "badge"), ("badge", ofBadge? b)]

/-- The record of the details of a broadcast about a new post. -/
def insertedRecord : Record (Option PostNumber) Broadcast where
  name := "struct variant Announcement::InsertedPost"
  fields := [.of "id" postNumber id fun n _ => some n]
  blank := none
  finish _ d := do
    let n ← require "id" d
    pure (.insertedPost n)

/-- The details of a broadcast about a new post, which have to be an object. -/
def insertedDetail : Decoder Broadcast
  | s, .object members closed => insertedRecord.decode s (.object members closed)
  | _, r => .error (wrongType insertedRecord.name r)

/-- The kinds of broadcasts, with the decoders of their details. -/
def broadcastKinds : Variants (Decoder Broadcast) := [("insertedPost", insertedDetail)]

/-- The members of a broadcast that matter. -/
inductive BroadcastMember
  | kind
  | detail
deriving DecidableEq

/-- The name of a member. -/
def BroadcastMember.name : BroadcastMember → String
  | .kind => "type"
  | .detail => "detail"

/-- The member of a key. -/
def BroadcastMember.ofKey? (key : String) : Option BroadcastMember :=
  if key = "type" then some .kind else if key = "detail" then some .detail else none

/-- The next member that matters, and what follows it. Other members are passed
over. -/
def nextMember (s : Source) (closed : Bool) :
    List (Key × Reading) → Except Fault (Option (BroadcastMember × Reading × List (Key × Reading)))
  | [] => if closed then .ok none else .error .malformed
  | (.name key, r) :: rest =>
    match BroadcastMember.ofKey? key with
    | some m => .ok (some (m, r, rest))
    | none => do
      skip s r
      nextMember s closed rest
  | _ :: _ => .error .malformed

/-- Refuses a member that comes once more. -/
def noMore (s : Source) (closed : Bool) (members : List (Key × Reading)) : Except Fault Unit := do
  match ← nextMember s closed members with
  | none => pure ()
  | some (m, _, _) => throw (.mismatch (.repeatedField m.name))

/-- A broadcast. Details that come before their kind are taken as a whole. -/
def broadcast : Decoder Broadcast
  | s, .object members closed => do
    let inner := s.inner
    match ← nextMember inner closed members with
    | none => throw (.mismatch (.missingField "type"))
    | some (.kind, r, rest) =>
      let detail ← variant broadcastKinds inner r
      match ← nextMember inner closed rest with
      | none => throw (.mismatch (.missingField "detail"))
      | some (.kind, _, _) => throw (.mismatch (.repeatedField "type"))
      | some (.detail, r, rest) =>
        let b ← detail inner r
        noMore inner closed rest
        pure b
    | some (.detail, content, rest) =>
      take inner content
      match ← nextMember inner closed rest with
      | none => throw (.mismatch (.missingField "type"))
      | some (.detail, _, _) => throw (.mismatch (.repeatedField "detail"))
      | some (.kind, r, rest) =>
        let detail ← variant broadcastKinds inner r
        let b ← detail .taken content
        noMore inner closed rest
        pure b
  | s, .array rs closed => do
    let short (n : Nat) : Fault :=
      if closed then .mismatch (.wrongLength n "adjacently tagged enum Announcement")
      else .malformed
    match rs with
    | [] => throw (short 0)
    | kind :: rs =>
      let detail ← variantName broadcastKinds kind
      match rs with
      | [] => throw (short 1)
      | r :: rest =>
        let b ← detail s.inner r
        if rest.isEmpty && closed then pure b else throw .malformed
  | _, r => .error (wrongType "adjacently tagged enum Announcement" r)

end Discussion.Wire
