import Discussion.Json.Reader
import Discussion.Wire.Command
import Discussion.Wire.Effect
import Discussion.Wire.Settings

/-!
# Decoding texts

What a whole text decodes as. A text that goes on after its value is refused,
once the value itself has been found to fit.
-/

namespace Discussion

namespace Wire

open Json (Leniency)

/-- Decodes a whole text, in which some values may be broken. -/
def ofText {α : Type} (d : Decoder α) (text : String) (leniency : Leniency := .strict) :
    Except Fault α := do
  let document := Json.read leniency text
  let a ← d (.text Json.depthLimit) document.value
  if document.complete then pure a else throw .malformed

/-- Decodes a record from a whole text. -/
def Record.ofText {δ α : Type} (record : Record δ α) (text : String) : Except Fault α :=
  Wire.ofText record.decode text record.leniency

end Wire

/-- Reads a post. -/
def Post.ofText (text : String) : Except Wire.Fault Post := Wire.postRecord.ofText text

/-- Reads a live post. -/
def Arrival.ofText (text : String) : Except Wire.Fault Arrival := Wire.arrivalRecord.ofText text

/-- Reads the snapshot of a thread. -/
def Snapshot.ofText (text : String) : Except Wire.Fault Snapshot :=
  Wire.snapshotRecord.ofText text

/-- Reads settings. -/
def Settings.ofText (text : String) : Except Wire.Fault Settings :=
  Wire.ofText Wire.settings text

/-- Reads a command. -/
def Command.ofText (text : String) : Except Wire.Fault Command :=
  Wire.ofText Wire.command text

/-- The text of an effect. -/
def Effect.text (e : Effect) : String := (Wire.ofEffect e).text

end Discussion
