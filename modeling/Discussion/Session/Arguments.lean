/-!
# Arguments

What the words of a command line ask for. Options may stand before and after
the thread file; `--` ends them.
-/

namespace Discussion.Session

/-- The name and version of the program. -/
def versionText : String := "thread-viewer 0.1.0"

/-- How the program is called. -/
def usage : List String := [
  "Replays interactions and live posts against a thread, then writes the page.",
  "",
  "Usage: thread-viewer [OPTIONS] <THREAD>",
  "",
  "  <THREAD>               the thread, in JSON",
  "  -e, --events <FILE>    JSON commands, one on each line (default: the input)",
  "  -o, --output <FILE>    the page (default: thread.html)",
  "      --config <FILE>    the settings (default: ~/.thread-view.json if there is one)",
  "      --pivot <PIVOT>    the post to fold on, as a number or a query with pivot=N",
  "      --identity <KEY>   the author key of the reader",
  "  -h, --help             print this text",
  "  -V, --version          print the version"]

/-- What a session works on. -/
structure Arguments where
  /-- The file with the thread. -/
  thread : String
  /-- The file with the events, which otherwise come from the input. -/
  events : Option String := none
  /-- The file for the page. -/
  output : String := "thread.html"
  /-- The file with the settings. -/
  config : Option String := none
  /-- Where to fold at load. -/
  pivot : Option String := none
  /-- The author key of the reader. -/
  identity : Option String := none
deriving DecidableEq

/-- What a command line asks for. -/
inductive Request
  | run (arguments : Arguments)
  | version
  | help
  | invalid
deriving DecidableEq

/-- The options with a value. -/
inductive Parameter
  | events
  | output
  | config
  | pivot
  | identity
deriving DecidableEq

namespace Parameter

/-- The parameter with a long name. -/
def ofName? (name : String) : Option Parameter :=
  [("events", events), ("output", output), ("config", config), ("pivot", pivot),
    ("identity", identity)].lookup name

/-- The parameter with a short name. -/
def ofLetter? : Char → Option Parameter
  | 'e' => some .events
  | 'o' => some .output
  | _ => none

/-- Whether a parameter takes a value. A path cannot be empty. -/
def accepts (p : Parameter) (value : String) : Bool :=
  match p with
  | .events | .output | .config => value ≠ ""
  | .pivot | .identity => true

end Parameter

/-- What a word of a command line is. -/
inductive Word
  | plain
  | parameter (p : Parameter) (value : Option String)
  | version
  | help
  | endOfOptions
  | unknown

/-- A long option after its two dashes. A value may follow an `=`. -/
def Word.ofLong (cs : List Char) : Word :=
  let name := String.ofList (cs.takeWhile (· != '='))
  let value := match cs.dropWhile (· != '=') with
    | [] => none
    | _ :: value => some (String.ofList value)
  match Parameter.ofName? name with
  | some p => .parameter p value
  | none =>
    if name = "version" ∧ value = none then .version
    else if name = "help" ∧ value = none then .help
    else .unknown

/-- A short option after its dash. Its value may follow at once or after an
`=`. -/
def Word.ofShort (letter : Char) (rest : List Char) : Word :=
  match Parameter.ofLetter? letter with
  | some p => .parameter p <| match rest with
    | [] => none
    | '=' :: value => some (String.ofList value)
    | value => some (String.ofList value)
  | none => if letter = 'V' then .version else if letter = 'h' then .help else .unknown

/-- Reads a word. A single dash is no option. -/
def Word.read (word : String) : Word :=
  match word.toList with
  | ['-', '-'] => .endOfOptions
  | '-' :: '-' :: cs => .ofLong cs
  | '-' :: letter :: rest => .ofShort letter rest
  | _ => .plain

/-- What has been read of a command line. -/
structure ArgumentDraft where
  thread : Option String := none
  values : List (Parameter × String) := []

namespace ArgumentDraft

/-- Takes the thread file, once. -/
def addThread (d : ArgumentDraft) (path : String) : Option ArgumentDraft :=
  if d.thread = none ∧ path ≠ "" then some { d with thread := some path } else none

/-- Takes the value of a parameter, once. -/
def addValue (d : ArgumentDraft) (p : Parameter) (value : String) : Option ArgumentDraft :=
  if d.values.lookup p = none ∧ p.accepts value then some { d with values := (p, value) :: d.values }
  else none

/-- The request of a command line without further words. -/
def finish (d : ArgumentDraft) : Request :=
  match d.thread with
  | none => .invalid
  | some thread =>
    let output := (d.values.lookup .output).getD "thread.html"
    .run {
      thread, output
      events := d.values.lookup .events
      config := d.values.lookup .config
      pivot := d.values.lookup .pivot
      identity := d.values.lookup .identity }

/-- Reads the words after the end of the options. -/
def readPlain (d : ArgumentDraft) : List String → Request
  | [] => d.finish
  | word :: rest =>
    match d.addThread word with
    | none => .invalid
    | some d => d.readPlain rest

/-- Reads words. The first that asks for the version or for help is answered at
once. -/
def read (d : ArgumentDraft) : List String → Request
  | [] => d.finish
  | word :: rest =>
    match Word.read word with
    | .endOfOptions => d.readPlain rest
    | .version => .version
    | .help => .help
    | .unknown => .invalid
    | .plain =>
      match d.addThread word with
      | none => .invalid
      | some d => d.read rest
    | .parameter p (some value) =>
      match d.addValue p value with
      | none => .invalid
      | some d => d.read rest
    | .parameter p none =>
      match rest with
      | [] => .invalid
      | value :: rest =>
        match Word.read value, d.addValue p value with
        | .plain, some d => d.read rest
        | _, _ => .invalid

end ArgumentDraft

/-- The request of a command line. -/
def Request.ofWords (words : List String) : Request := ArgumentDraft.read {} words

end Discussion.Session
