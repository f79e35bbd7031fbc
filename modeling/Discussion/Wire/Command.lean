import Discussion.View.Command
import Discussion.Wire.Footer
import Discussion.Wire.Post

/-!
# Commands in data

A command is an object with the member `command`, which says what to do, or an
array that starts with it. The rest is taken as a whole before it is decoded,
because the member may come last.
-/

namespace Discussion.Wire

open Json (Key Reading)

/-- The hints. -/
def hints : Variants Hint :=
  [("user", .user), ("select", .select), ("report", .report), ("fold", .fold)]

/-- A hint. -/
def hint : Decoder Hint := variant hints

/-- The name of a hint. -/
def hintName : Hint → String
  | .user => "user"
  | .select => "select"
  | .report => "report"
  | .fold => "fold"

/-- What messages call the variant of a command. -/
def commandVariant (name : String) : String := "struct variant Command::" ++ name

/-- A command on one post. -/
def onPost (name : String) (command : PostNumber → Command) : Decoder Command :=
  Record.decode {
    name := commandVariant name
    fields := [.of "post" postNumber id fun n _ => some n]
    blank := (none : Option PostNumber)
    finish := fun _ d => do
      let n ← require "post" d
      pure (command n) }

/-- The posts of a link, as far as they are known. -/
structure LinkDraft where
  post : Option PostNumber := none
  reply : Option PostNumber := none

/-- A command on the link from a post to a reply. -/
def onLink (name : String) (command : PostNumber → PostNumber → Command) : Decoder Command :=
  Record.decode {
    name := commandVariant name
    fields := [
      .of "post" postNumber LinkDraft.post fun n d => { d with post := some n },
      .of "reply" postNumber LinkDraft.reply fun n d => { d with reply := some n }]
    blank := {}
    finish := fun _ d => do
      let n ← require "post" d.post
      let reply ← require "reply" d.reply
      pure (command n reply) }

/-- The post and the hint of a command, as far as they are known. -/
structure HintDraft where
  post : Option PostNumber := none
  hint : Option Hint := none

/-- The command that shows a hint. -/
def showHint : Decoder Command :=
  Record.decode {
    name := commandVariant "HoverNotifier"
    fields := [
      .of "post" postNumber HintDraft.post fun n d => { d with post := some n },
      .of "notifier" hint HintDraft.hint fun h d => { d with hint := some h }]
    blank := {}
    finish := fun _ d => do
      let n ← require "post" d.post
      let hint ← require "notifier" d.hint
      pure (.showHint n hint) }

/-- The parts of a command with a live post, as far as they are known. -/
structure InsertDraft where
  arrival : Option Arrival := none
  footer : Option (Option Footer) := none

/-- The command with a live post. -/
def insertPost : Decoder Command :=
  Record.decode {
    name := commandVariant "PostInserted"
    fields := [
      .of "fragment" arrival InsertDraft.arrival fun a d => { d with arrival := some a },
      .of "footer" (optional footer) InsertDraft.footer fun f d => { d with footer := some f }]
    blank := {}
    finish := fun _ d => do
      let arrival ← require "fragment" d.arrival
      pure (.insert arrival (d.footer.getD none)) }

/-- The command that sets the identity of the reader. In an array the key has to
be there, even if it is null. -/
def setIdentity : Decoder Command :=
  Record.decode {
    name := commandVariant "SetIdentity"
    fields := [.of "identity" (optional authorKey) id fun k _ => some k]
    blank := (none : Option (Option AuthorKey))
    finish := fun form d => do
      let identity ← match form with
        | .object => pure (d.getD none)
        | .array => require "identity" d
      pure (.setIdentity identity) }

/-- The command that leaves a link; members of an object do not matter. -/
def leaveLink : Decoder Command
  | _, .array (_ :: rest) _ =>
    .error (.mismatch (.wrongLength (rest.length + 1) (elements 0 ++ " in sequence")))
  | _, _ => .ok .leaveLink

/-- The commands, with the decoders of what follows their names. -/
def commands : Variants (Decoder Command) := [
  ("hover_header", onPost "HoverHeader" .hoverHeader),
  ("leave_header", onPost "LeaveHeader" .leaveHeader),
  ("click_header", onPost "ClickHeader" .clickHeader),
  ("hover_post_no", onPost "HoverPostNo" .hoverNumber),
  ("click_quote", onPost "ClickQuote" .quote),
  ("hover_reply_target", onPost "HoverReplyTarget" .hoverTarget),
  ("click_reply_target", onPost "ClickReplyTarget" .clickTarget),
  ("hover_reply_link", onLink "HoverReplyLink" .hoverLink),
  ("click_reply_link", onLink "ClickReplyLink" .clickLink),
  ("leave_link", leaveLink),
  ("hover_notifier", showHint),
  ("leave_notifier", onPost "LeaveNotifier" .hideHint),
  ("toggle_fold", onPost "ToggleFold" .toggleFold),
  ("post_inserted", insertPost),
  ("set_identity", setIdentity)]

/-- Looks up the name of a command among its members, and takes the others as
they come. -/
def gather (s : Source) (form : Option (Decoder Command)) (content : List (Key × Reading)) :
    List (Key × Reading) → Except Fault (Option (Decoder Command) × List (Key × Reading))
  | [] => .ok (form, content.reverse)
  | (.name key, r) :: rest =>
    if key = "command" then
      match form with
      | some _ => .error (.mismatch (.repeatedField "command"))
      | none => do
        let form ← variantName commands r
        gather s (some form) content rest
    else do
      take s r
      gather s form ((.name key, r) :: content) rest
  | _ :: _ => .error .malformed

/-- Takes items as they come. -/
def takeAll (s : Source) : List Reading → Except Fault Unit
  | [] => .ok ()
  | r :: rest => do
    take s r
    takeAll s rest

/-- A command. -/
def command : Decoder Command
  | s, .object members closed => do
    let (form, content) ← gather s.inner none [] members
    if !closed then throw .malformed
    match form with
    | none => throw (.mismatch (.missingField "command"))
    | some form => form .taken (.object content true)
  | _, .array [] closed =>
    .error (if closed then .mismatch (.missingField "command") else .malformed)
  | s, .array (name :: rest) closed => do
    let form ← variantName commands name
    takeAll s.inner rest
    if !closed then throw .malformed
    form .taken (.array rest true)
  | _, r => .error (wrongType "internally tagged enum Command" r)

end Discussion.Wire
