import Discussion.Wire.Fault
import Discussion.Reference.Key

/-!
# Decoders

A decoder turns a part of a reading into a value, and stops at the first thing
that is wrong, in the order of the text.
-/

namespace Discussion.Wire

open Json (Reading)

/-- Where a part comes from. -/
inductive Source
  /-- From the text itself, with room for so many containers inside one another. -/
  | text (room : Nat)
  /-- From a part that was taken as a whole before, and so is known to be sound. -/
  | taken

/-- The source of the parts inside a container. -/
def Source.inner : Source → Source
  | .text room => .text (room - 1)
  | .taken => .taken

/-- A reader of values. -/
abbrev Decoder (α : Type) := Source → Reading → Except Fault α

/-- Passes over a part. -/
def skip : Decoder Unit
  | .text _, r => if r.isWhole then .ok () else .error .malformed
  | .taken, _ => .ok ()

/-- Takes a part as a whole. -/
def take : Decoder Unit
  | .text room, r => if r.isSound room then .ok () else .error .malformed
  | .taken, _ => .ok ()

/-- A boolean. -/
def boolean : Decoder Bool
  | _, .bool b => .ok b
  | _, r => .error (wrongType "a boolean" r)

/-- A string. -/
def text : Decoder String
  | _, .string (some s) => .ok s
  | _, r => .error (wrongType "a string" r)

/-- A whole number from `low` up to but not including `high`. -/
def integer (expected : String) (low high : Int) : Decoder Int
  | _, .number (.integer n) =>
    if low ≤ n ∧ n < high then .ok n else .error (.mismatch (.outOfRange n expected))
  | _, r => .error (wrongType expected r)

/-- A whole number of 8 bits. -/
def word8 : Decoder UInt8 := fun s r =>
  (integer "u8" 0 UInt8.size s r).map fun n => UInt8.ofNat n.toNat

/-- A whole number of 16 bits. -/
def word16 : Decoder UInt16 := fun s r =>
  (integer "u16" 0 UInt16.size s r).map fun n => UInt16.ofNat n.toNat

/-- A whole number of 64 bits. -/
def word64 : Decoder UInt64 := fun s r =>
  (integer "u64" 0 UInt64.size s r).map fun n => UInt64.ofNat n.toNat

/-- A signed number of 32 bits. -/
def signed32 : Decoder Int32 := fun s r =>
  (integer "i32" (-0x80000000) 0x80000000 s r).map Int32.ofInt

/-- A number with a fraction; whole numbers are taken too. -/
def float : Decoder Float
  | _, .number (.integer n) => .ok (Float.ofInt n)
  | _, .number (.float x) => .ok x
  | _, r => .error (wrongType "f64" r)

/-- Null for nothing, or else what `d` decodes. -/
def optional {α : Type} (d : Decoder α) : Decoder (Option α)
  | _, .null => .ok none
  | s, r => (d s r).map some

/-- What `d` decodes, or `default` in place of any value that does not fit or
cannot be taken at all. -/
def orDefault {α : Type} (default : α) (d : Decoder α) : Decoder α := fun s r =>
  match take s r, d .taken r with
  | .ok (), .ok a => .ok a
  | _, _ => .ok default

/-- Decodes items from left to right. -/
def items {α : Type} (d : Decoder α) (s : Source) : List Reading → Except Fault (List α)
  | [] => .ok []
  | r :: rest => do
    let a ← d s r
    let rest ← items d s rest
    pure (a :: rest)

/-- An array of what `d` decodes. -/
def sequence {α : Type} (d : Decoder α) : Decoder (List α)
  | s, .array rs closed => do
    let as ← items d s.inner rs
    if closed then pure as else throw .malformed
  | _, r => .error (wrongType "a sequence" r)

/-- Takes over the refusal of a reference. -/
def refer {α : Type} (r : Except ReferenceError α) : Except Fault α :=
  r.mapError fun cause => .mismatch (.badReference cause)

/-- A thread slug, from a string. -/
def slug : Decoder Slug := fun s r => text s r >>= fun t => refer (Slug.parse t)

/-- A reference as it stands in the data: a whole number or a string. -/
inductive RawReference
  | number (n : Nat)
  | text (s : String)

/-- The text of a reference. -/
def RawReference.toText : RawReference → String
  | .number n => toString n
  | .text s => s

/-- A reference as it stands in the data. -/
def rawReference : Decoder RawReference := fun s r =>
  match take s r with
  | .error fault => .error fault
  | .ok () =>
    match r with
    | .number (.integer (.ofNat n)) => .ok (.number n)
    | .string (some t) => .ok (.text t)
    | _ => .error (.mismatch (.noForm "RawId"))

/-- A post number. -/
def postNumber : Decoder PostNumber := fun s r =>
  rawReference s r >>= fun raw => refer <|
    match raw with
    | .number n => PostNumber.ofNat n
    | .text t => PostNumber.parse t

/-- A site number. -/
def siteNumber : Decoder SiteNumber := fun s r =>
  rawReference s r >>= fun raw => refer (SiteNumber.parse raw.toText)

/-- An author key. -/
def authorKey : Decoder AuthorKey := fun s r =>
  rawReference s r >>= fun raw => refer (AuthorKey.parse raw.toText)

/-- The post that a reply points at, if any. -/
def parent : Decoder (Option PostNumber) := fun s r =>
  optional rawReference s r >>= fun
    | none => pure none
    | some raw => refer (PostNumber.parseParent raw.toText)

end Discussion.Wire
