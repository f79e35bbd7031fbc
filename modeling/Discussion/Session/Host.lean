import Discussion.Session.Run

/-!
# The host of a session

A session reads its files, prints its log and writes its page through a host. The
program is the same on every host.
-/

namespace Discussion.Session

/-- What a session asks of its host. -/
structure Host (m : Type → Type) where
  /-- The home directory. -/
  home : m (Option String)
  /-- Whether there is a file at a path. -/
  isPresent : String → m Bool
  /-- The text of a file, unless it cannot be read. -/
  text? : String → m (Option String)
  /-- The events in a file, unless it cannot be opened. -/
  events? : String → m (Option Events)
  /-- The events that come from the input. -/
  input : m Events
  /-- Writes a file; says whether that was possible. -/
  write : String → String → m Bool
  /-- Prints a line. -/
  print : String → m Unit
  /-- Reports what went wrong. -/
  report : String → m Unit

namespace Host

variable {m : Type → Type} [Monad m] (host : Host m)

/-- Reads a file. -/
def file (path : String) : m TextFile := do
  let text ← host.text? path
  pure ⟨path, text⟩

/-- Reads the settings, if there is a file with settings. -/
def settings (a : Arguments) : m (Option TextFile) := do
  match a.config with
  | some path => some <$> host.file path
  | none =>
    match ← host.home with
    | none => pure none
    | some home =>
      let path := homeSettings home
      if ← host.isPresent path then some <$> host.file path else pure none

/-- Reads the events. -/
def events (a : Arguments) : m (Option Events) :=
  match a.events with
  | some path => host.events? path
  | none => some <$> host.input

/-- Prints what a stage has logged; goes on with its result, or reports why
there is none. -/
def continueWith {α : Type} (a : Logged α) (next : α → m UInt8) : m UInt8 := do
  a.log.forM fun line => host.print line.text
  match a.result with
  | .ok x => next x
  | .error cause =>
    host.report cause.message
    pure a.exitCode

/-- Runs a session; gives its exit code. -/
def runSession (a : Arguments) : m UInt8 := do
  let settings ← host.settings a
  let thread ← host.file a.thread
  host.continueWith (prepare a settings thread) fun v => do
    let events ← host.events a
    host.continueWith (playEvents v events) fun v => do
      let written ← host.write a.output v.render
      host.continueWith (conclude a written) fun _ => pure 0

/-- Does what a command line asks for; gives the exit code. -/
def runWords (words : List String) : m UInt8 := do
  match Request.ofWords words with
  | .run a => host.runSession a
  | .version =>
    host.print versionText
    pure 0
  | .help =>
    usage.forM host.print
    pure 0
  | .invalid =>
    host.report "The arguments are not valid. For more information, try '--help'."
    pure 2

end Host

end Discussion.Session
