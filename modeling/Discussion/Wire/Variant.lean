import Discussion.Wire.Decoder

/-!
# Named variants

A type with a few named variants is written as the name, or as an object whose
one member has the name as its key and holds null.
-/

namespace Discussion.Wire

open Json (Key Reading)

variable {α : Type}

/-- The names of a type's variants. -/
abbrev Variants (α : Type) := List (String × α)

/-- The variant of a name. -/
def variantNamed (vs : Variants α) (name : String) : Except Fault α :=
  match vs.lookup name with
  | some a => .ok a
  | none => .error (.mismatch (.unknownVariant name (vs.map (·.1))))

/-- The name of a variant, which has to be a string. -/
def variantName (vs : Variants α) : Reading → Except Fault α
  | .string (some name) => variantNamed vs name
  | r => .error (wrongType "variant identifier" r)

/-- Passes over the null after the name of a variant. In a part that was taken
as a whole, an object without members is as good. -/
def variantUnit : Decoder Unit
  | _, .null => .ok ()
  | .taken, .object [] _ => .ok ()
  | _, r => .error (wrongType "unit" r)

/-- A variant in the text itself. The name of a single member is looked up
before anything after it is read. -/
def variantInText (vs : Variants α) (room : Nat) : Reading → Except Fault α
  | .string (some name) => variantNamed vs name
  | .object ((.name name, r) :: rest) closed => do
    let a ← variantNamed vs name
    variantUnit (.text room) r
    if rest.isEmpty && closed then pure a else throw .malformed
  | _ => .error .malformed

/-- A variant in a part that was taken as a whole. -/
def variantTaken (vs : Variants α) : Reading → Except Fault α
  | .string (some name) => variantNamed vs name
  | .object [(.name name, r)] _ => do
    let a ← variantNamed vs name
    variantUnit .taken r
    pure a
  | .object _ _ => .error (.mismatch .notSingle)
  | r => .error (wrongType "string or map" r)

/-- One of the named variants. -/
def variant (vs : Variants α) : Decoder α
  | .text room, r => variantInText vs room r
  | .taken, r => variantTaken vs r

end Discussion.Wire
