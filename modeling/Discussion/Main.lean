import Discussion.Session.Host

/-!
# Command line

Replays interactions and live posts against a thread, and writes the page that
results. The log goes to the output, one line at a time.
-/

namespace Discussion.Session

/-- Whether an action succeeds. -/
def succeeds (action : IO Unit) : IO Bool := do
  try
    action
    return true
  catch _ => return false

/-- The result of an action, unless it fails. -/
def result? {α : Type} (action : IO α) : IO (Option α) := do
  try
    return some (← action)
  catch _ => return none

/-- The system that the program runs on. -/
def system : Host IO where
  home := IO.getEnv "HOME"
  isPresent path := succeeds (discard (IO.FS.realPath path))
  text? path := result? (IO.FS.readFile path)
  events? path := result? (Events.ofBytes <$> IO.FS.readBinFile path)
  input := do
    let input ← IO.getStdin
    let bytes? ← result? input.readBinToEnd
    return (bytes?.map .ofBytes).getD { broken := true }
  write path text := succeeds (IO.FS.writeFile path text)
  print line := IO.println line
  report message := IO.eprintln message

end Discussion.Session

/-- Does what a command line asks for. -/
def main (words : List String) : IO UInt32 :=
  return (← Discussion.Session.system.runWords words).toUInt32
