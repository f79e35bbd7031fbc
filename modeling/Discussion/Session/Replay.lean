import Discussion.Session.Log

/-!
# Replaying events

Events are a text with one command on each line. They are replayed in order on
a view; blank lines do not count, and a line that is no command is reported and
left out.
-/

namespace Discussion

namespace Session

/-- What a line of the events says. -/
inductive Line
  | blank
  | command (c : Command)
  | malformed (fault : Wire.Fault)

/-- Reads a line. Blanks around a command do not matter. -/
def Line.read (line : List Char) : Line :=
  match Text.trimBlanks line with
  | [] => .blank
  | cs =>
    match Command.ofText (String.ofList cs) with
    | .ok c => .command c
    | .error fault => .malformed fault

/-- Cuts a text at its line feeds. `line` holds the characters of the current
line, last one first. -/
def cutLines (line : List Char) : List Char → List (List Char)
  | [] => [line.reverse]
  | c :: rest => if c = '\n' then line.reverse :: cutLines [] rest else cutLines (c :: line) rest

/-- The lines of a text. -/
def lines (text : String) : List Line := (cutLines [] text.toList).map Line.read

/-- The events of a session. -/
structure Events where
  lines : List Line := []
  /-- Whether reading failed after these lines. -/
  broken : Bool := false

namespace Events

/-- The events of a text. -/
def ofText (text : String) : Events := { lines := Session.lines text }

/-- Cuts bytes at their line feeds. `line` holds the bytes of the current line,
last one first. -/
def cutBytes (line : List UInt8) : List UInt8 → List (List UInt8)
  | [] => [line.reverse]
  | b :: rest => if b = 10 then line.reverse :: cutBytes [] rest else cutBytes (b :: line) rest

/-- Reads lines up to the first that is not UTF-8. -/
def readLines : List (List UInt8) → Events
  | [] => {}
  | bytes :: rest =>
    match String.fromUTF8? ⟨bytes.toArray⟩ with
    | none => { broken := true }
    | some line =>
      let later := readLines rest
      { later with lines := Line.read line.toList :: later.lines }

/-- The events in a file. -/
def ofBytes (bytes : ByteArray) : Events := readLines (cutBytes [] bytes.data.toList)

end Events

/-- What comes of replaying events. -/
structure Replayed where
  view : View
  /-- The number of commands. -/
  count : Nat := 0
  log : List LogLine := []

end Session

namespace View

open Session (Line LogLine Replayed)

/-- Replays one line. -/
def replayLine (v : View) : Line → Replayed
  | .blank => { view := v }
  | .command c =>
    let r := v.dispatch c
    { view := r.view, count := 1, log := Session.responseLines r }
  | .malformed fault => { view := v, log := [.commandSkipped fault] }

/-- Replays lines in order. -/
def replay (v : View) : List Line → Replayed
  | [] => { view := v }
  | line :: rest =>
    let now := v.replayLine line
    let later := now.view.replay rest
    { view := later.view, count := now.count + later.count, log := now.log ++ later.log }

@[simp]
theorem replay_nil (v : View) : v.replay [] = { view := v } := rfl

theorem replay_cons (v : View) (line : Line) (rest : List Line) :
    v.replay (line :: rest) =
      { view := ((v.replayLine line).view.replay rest).view
        count := (v.replayLine line).count + ((v.replayLine line).view.replay rest).count
        log := (v.replayLine line).log ++ ((v.replayLine line).view.replay rest).log } := rfl

theorem replay_append (v : View) (first rest : List Line) :
    v.replay (first ++ rest) =
      { view := ((v.replay first).view.replay rest).view
        count := (v.replay first).count + ((v.replay first).view.replay rest).count
        log := (v.replay first).log ++ ((v.replay first).view.replay rest).log } := by
  induction first generalizing v with
  | nil => simp
  | cons line first ih => simp [replay_cons, ih, Nat.add_assoc]

/-- Sets the identity of the reader, and reports the badge. -/
def adopt (v : View) (identity : AuthorKey) : View × List LogLine :=
  let r := v.setIdentity (some identity)
  (r.1, Session.effectLines r.2)

/-- Folds on a pivot, which is a query string if it has an `=` in it, and else a
post number. A pivot that is neither is reported and left out. -/
def foldAtLoad (v : View) (pivot : String) : View × List LogLine :=
  if '=' ∈ pivot.toList then
    let r := v.foldFromQuery pivot
    (r.1, Session.effectLines r.2)
  else
    match PostNumber.parse pivot with
    | .ok n =>
      let r := v.foldOn n
      (r.1, Session.effectLines r.2)
    | .error cause => (v, [.pivotIgnored pivot cause])

end View

end Discussion
