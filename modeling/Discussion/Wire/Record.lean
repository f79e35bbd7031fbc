import Discussion.Json.Leniency
import Discussion.Wire.Decoder

/-!
# Records

A record is written as an object, or as an array of its fields in order. The
fields go one by one into a draft, which is finished at the end.
-/

namespace Discussion.Wire

open Json (Key Leniency Reading)

/-- A field of a record with drafts of type `δ`. -/
structure Field (δ : Type) where
  name : String
  /-- Another name for the field. -/
  alias? : Option String
  isSet : δ → Bool
  /-- Decodes the field into a draft. -/
  fill : Source → Reading → δ → Except Fault δ
  /-- Which values in the field may be broken. -/
  leniency : Leniency

/-- A field that `d` decodes. -/
def Field.of {δ α : Type} (name : String) (d : Decoder α) (get : δ → Option α)
    (set : α → δ → δ) (alias? : Option String := none) (leniency : Leniency := .strict) :
    Field δ where
  name
  alias?
  isSet draft := (get draft).isSome
  fill s r draft := (d s r).map fun a => set a draft
  leniency

/-- Whether a key names a field. -/
def Field.hasName {δ : Type} (f : Field δ) (key : String) : Bool :=
  f.name = key || f.alias? = some key

/-- The two forms of a record. -/
inductive Form
  | object
  | array
deriving DecidableEq

/-- How a record is decoded. -/
structure Record (δ α : Type) where
  /-- What messages call the record. -/
  name : String
  fields : List (Field δ)
  blank : δ
  /-- The record of a draft, or the first field that is missing. -/
  finish : Form → δ → Except String α

/-- `n` elements, in words. -/
def elements (n : Nat) : String := toString n ++ if n = 1 then " element" else " elements"

variable {δ α : Type}

/-- Fills a draft with the members of an object. A repeated field is refused
before its value is looked at; unknown members are passed over. -/
def fillMembers (fields : List (Field δ)) (s : Source) (draft : δ) :
    List (Key × Reading) → Except Fault δ
  | [] => .ok draft
  | (.name key, r) :: rest =>
    match fields.find? (·.hasName key) with
    | none => do
      skip s r
      fillMembers fields s draft rest
    | some f =>
      if f.isSet draft then .error (.mismatch (.repeatedField f.name))
      else do
        let draft ← f.fill s r draft
        fillMembers fields s draft rest
  | _ :: _ => .error .malformed

/-- Fills a draft with the items of an array, in the order of the fields; gives
the items that are left over, and whether there was one for every field. -/
def fillItems (s : Source) (draft : δ) :
    List (Field δ) → List Reading → Except Fault (δ × List Reading × Bool)
  | [], rs => .ok (draft, rs, true)
  | _ :: _, [] => .ok (draft, [], false)
  | f :: fields, r :: rs => do
    let draft ← f.fill s r draft
    fillItems s draft fields rs

/-- The leniency of a field, if there is one. -/
def Field.leniencyOf {δ : Type} (f : Option (Field δ)) : Leniency :=
  match f with
  | some f => f.leniency
  | none => .strict

namespace Record

/-- Which values in a record may be broken. -/
def leniency (record : Record δ α) : Leniency :=
  .parts (fun i => Field.leniencyOf record.fields[i]?) fun key =>
    Field.leniencyOf (record.fields.find? (·.hasName key))

/-- The record of a draft filled from an object. -/
def ofMembers (record : Record δ α) (draft : δ) : Except Fault α :=
  (record.finish .object draft).mapError fun field => .mismatch (.missingField field)

/-- The record of a draft filled from an array. -/
def ofItems (record : Record δ α) (draft : δ) : Except Fault α :=
  (record.finish .array draft).mapError fun field =>
    .mismatch (.wrongLength (record.fields.findIdx (·.name = field))
      (record.name ++ " with " ++ elements record.fields.length))

/-- Decodes a record in either form. -/
def decode (record : Record δ α) : Decoder α
  | s, .object members closed => do
    let draft ← fillMembers record.fields s.inner record.blank members
    if closed then record.ofMembers draft else throw .malformed
  | s, .array rs closed => do
    let (draft, rest, full) ← fillItems s.inner record.blank record.fields rs
    if !full && !closed then throw .malformed
    let a ← record.ofItems draft
    match s with
    | .text _ => if rest.isEmpty && closed then pure a else throw .malformed
    | .taken =>
      if rest.isEmpty then pure a
      else
        let length := record.fields.length
        throw (.mismatch (.wrongLength rs.length (elements length ++ " in sequence")))
  | _, r => .error (wrongType record.name r)

end Record

/-- The value of a field that has to be there. -/
def require {β : Type} (field : String) (value : Option β) : Except String β :=
  match value with
  | some b => .ok b
  | none => .error field

end Discussion.Wire
