import Discussion.Page.Thread
import Discussion.Session.Arguments
import Discussion.Session.Replay

/-!
# Running a session

A session loads its settings and its thread, replays the events, and writes the
page at the very end. The first thing that fails ends it, so a page is written
whole or not at all.
-/

namespace Discussion.Session

/-- Why a session ends without a page. -/
inductive Failure
  | unreadable (path : String)
  | badSettings (fault : Wire.Fault)
  | badThread (fault : Wire.Fault)
  | badGraph (cause : ThreadError)
  | badIdentity (cause : ReferenceError)
  | unreadableEvents
  | unwritable (path : String)

/-- The wording of a failure. -/
def Failure.message : Failure → String
  | .unreadable path => "Failed to read " ++ path
  | .badSettings fault => "Failed to load settings: " ++ fault.message
  | .badThread fault => "Failed to load thread: " ++ fault.message
  | .badGraph cause => "Failed to load thread: " ++ cause.message
  | .badIdentity cause => "Invalid identity: " ++ cause.message
  | .unreadableEvents => "Failed to read events"
  | .unwritable path => "Failed to write " ++ path

/-- A stage of a session: what it logs, and its result. -/
structure Logged (α : Type) where
  log : List LogLine := []
  result : Except Failure α

namespace Logged

variable {α β : Type}

/-- Goes on with `f`, unless the stage has failed. -/
def andThen (a : Logged α) (f : α → Logged β) : Logged β :=
  match a.result with
  | .error cause => ⟨a.log, .error cause⟩
  | .ok x => ⟨a.log ++ (f x).log, (f x).result⟩

instance : Monad Logged where
  pure x := ⟨[], .ok x⟩
  bind := andThen

/-- Logs lines. -/
def say (lines : List LogLine) : Logged Unit := ⟨lines, .ok ()⟩

/-- Ends the session. -/
def fail (cause : Failure) : Logged α := ⟨[], .error cause⟩

/-- Takes over a result. -/
def ofExcept {ε : Type} (wrap : ε → Failure) : Except ε α → Logged α
  | .ok x => ⟨[], .ok x⟩
  | .error cause => ⟨[], .error (wrap cause)⟩

/-- The exit code of a session. -/
def exitCode (a : Logged α) : UInt8 :=
  match a.result with
  | .ok _ => 0
  | .error _ => 1

theorem bind_of_error {a : Logged α} {cause : Failure} (h : a.result = .error cause)
    (f : α → Logged β) : a >>= f = ⟨a.log, .error cause⟩ := by
  show a.andThen f = _
  simp [andThen, h]

theorem bind_of_ok {a : Logged α} {x : α} (h : a.result = .ok x) (f : α → Logged β) :
    a >>= f = ⟨a.log ++ (f x).log, (f x).result⟩ := by
  show a.andThen f = _
  simp [andThen, h]

end Logged

/-- A file, with its text unless it cannot be read. -/
structure TextFile where
  path : String
  text : Option String

/-- The text of a file. -/
def TextFile.read (f : TextFile) : Logged String :=
  match f.text with
  | some text => pure text
  | none => .fail (.unreadable f.path)

/-- Loads the settings; without a file they have their defaults. -/
def loadSettings : Option TextFile → Logged Settings
  | none => pure {}
  | some file => do
    let text ← file.read
    let settings ← .ofExcept .badSettings (Settings.ofText text)
    .say [.settingsLoaded file.path]
    pure settings

/-- Opens a view on the thread in a file. -/
def loadView (settings : Settings) (file : TextFile) : Logged View := do
  let text ← file.read
  let snapshot ← .ofExcept .badThread (Snapshot.ofText text)
  let v ← .ofExcept .badGraph (View.ofSnapshot settings snapshot)
  .say [.threadLoaded v.thread.slug v.thread.entries.length]
  pure v

/-- Takes on the identity of the reader, if one is given. -/
def takeIdentity (v : View) : Option String → Logged View
  | none => pure v
  | some text => do
    let identity ← .ofExcept .badIdentity (AuthorKey.parse text)
    let r := v.adopt identity
    .say r.2
    pure r.1

/-- Folds at load, if a pivot is given. -/
def takePivot (v : View) : Option String → Logged View
  | none => pure v
  | some pivot => do
    let r := v.foldAtLoad pivot
    .say r.2
    pure r.1

/-- The view before the events. -/
def prepare (a : Arguments) (settings : Option TextFile) (thread : TextFile) : Logged View := do
  let settings ← loadSettings settings
  let v ← loadView settings thread
  let v ← takeIdentity v a.identity
  takePivot v a.pivot

/-- The view after the events, which are missing if their file cannot be
opened. -/
def playEvents (v : View) : Option Events → Logged View
  | none => .fail .unreadableEvents
  | some events => do
    let r := v.replay events.lines
    .say r.log
    if events.broken then .fail .unreadableEvents
    else
      .say [.replayed r.count]
      pure r.view

/-- The end of a session, after its page has been written or could not be. -/
def conclude (a : Arguments) (written : Bool) : Logged Unit :=
  if written then .say [.pageWritten a.output] else .fail (.unwritable a.output)

/-- The name of the settings file in the home directory. -/
def settingsName : String := ".thread-view.json"

/-- The settings file in a home directory. -/
def homeSettings (home : String) : String :=
  if home = "" ∨ home.endsWith "/" then home ++ settingsName else home ++ "/" ++ settingsName

/-- The files around a session. -/
structure Surroundings where
  home : Option String
  isPresent : String → Bool
  text? : String → Option String
  events? : String → Option Events
  /-- The events that come from the input. -/
  input : Events
  isWritable : String → Bool

namespace Surroundings

/-- Where the settings come from: from the file that is named, or else from the
one in the home directory if there is one. -/
def settingsPath? (s : Surroundings) (a : Arguments) : Option String :=
  match a.config with
  | some path => some path
  | none => (s.home.map homeSettings).filter s.isPresent

/-- The file at a path. -/
def file (s : Surroundings) (path : String) : TextFile := ⟨path, s.text? path⟩

/-- The events of a session. -/
def events (s : Surroundings) (a : Arguments) : Option Events :=
  match a.events with
  | some path => s.events? path
  | none => some s.input

end Surroundings

/-- Runs a session; gives its page. -/
def run (a : Arguments) (s : Surroundings) : Logged String := do
  let v ← prepare a ((s.settingsPath? a).map s.file) (s.file a.thread)
  let v ← playEvents v (s.events a)
  conclude a (s.isWritable a.output)
  pure v.render

end Discussion.Session
