import Discussion.Text.Shown
import Discussion.Wire.Text

/-!
# The log

What a session reports while it runs, one line at a time.
-/

namespace Discussion.Session

/-- A line of the log. -/
inductive LogLine
  | settingsLoaded (path : String)
  | threadLoaded (slug : Slug) (count : Nat)
  | effect (e : Effect)
  | postDropped (d : Dropped)
  | commandSkipped (fault : Wire.Fault)
  | pivotIgnored (pivot : String) (cause : ReferenceError)
  | replayed (count : Nat)
  | pageWritten (path : String)

/-- How serious a line is. -/
inductive Level
  | info
  | warn
deriving DecidableEq

/-- The name of a level. -/
def Level.name : Level → String
  | .info => "INFO"
  | .warn => "WARN"

namespace LogLine

/-- The level of a line. -/
def level : LogLine → Level
  | .postDropped _ | .commandSkipped _ | .pivotIgnored _ _ => .warn
  | _ => .info

/-- The part of the program that a line comes from. -/
def origin : LogLine → String
  | .postDropped _ => "thread_view::command"
  | _ => "thread_viewer"

/-- The wording of a line. -/
def message : LogLine → String
  | .settingsLoaded path => "Loaded config from " ++ path
  | .threadLoaded slug count =>
    "Loaded thread " ++ slug.text ++ " with " ++ toString count ++ " posts"
  | .effect e => e.text
  | .postDropped d => "Dropped live post " ++ d.number.digits ++ ": " ++ d.cause.message
  | .commandSkipped fault => "Skipping malformed command: " ++ fault.message
  | .pivotIgnored pivot cause => "Ignoring pivot " ++ Text.quoted pivot ++ ": " ++ cause.message
  | .replayed count => "Replayed " ++ toString count ++ " commands"
  | .pageWritten path => "Wrote " ++ path

/-- A line as it is printed. -/
def text (l : LogLine) : String :=
  l.level.name ++ " " ++ l.origin ++ ": " ++ Text.printed l.message

end LogLine

/-- The lines that report effects. -/
def effectLines (effects : List Effect) : List LogLine := effects.map .effect

/-- The lines that report what came of a command. -/
def responseLines (r : Response) : List LogLine :=
  (r.dropped.map LogLine.postDropped).toList ++ effectLines r.effects

end Discussion.Session
