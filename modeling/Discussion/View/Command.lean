import Discussion.View.Click
import Discussion.View.Live

/-!
# Commands

The interactions and live events that a host hands to a view, and what the view
does with them, one at a time.
-/

namespace Discussion

/-- One interaction or live event. -/
inductive Command
  | hoverHeader (post : PostNumber)
  | leaveHeader (post : PostNumber)
  | clickHeader (post : PostNumber)
  | hoverNumber (post : PostNumber)
  | quote (post : PostNumber)
  | hoverTarget (post : PostNumber)
  | clickTarget (post : PostNumber)
  | hoverLink (post reply : PostNumber)
  | clickLink (post reply : PostNumber)
  | leaveLink
  | showHint (post : PostNumber) (hint : Hint)
  | hideHint (post : PostNumber)
  | toggleFold (post : PostNumber)
  /-- A live post. Without a footer the view does not follow the page's end. -/
  | insert (arrival : Arrival) (footer : Option Footer)
  | setIdentity (identity : Option AuthorKey)
deriving DecidableEq

/-- The post that a command acts on and that has to be in the thread. -/
def Command.post? : Command → Option PostNumber
  | .hoverHeader n | .leaveHeader n | .clickHeader n | .hoverNumber n | .quote n
  | .hoverTarget n | .clickTarget n | .hoverLink n _ | .clickLink n _ | .showHint n _
  | .hideHint n | .toggleFold n => some n
  | .leaveLink | .insert _ _ | .setIdentity _ => none

/-- A live post that was dropped. -/
structure Dropped where
  number : PostNumber
  cause : Rejection
deriving DecidableEq

/-- What comes of a command: the view after it, the effects in order, and the
live post that was dropped, if any. -/
structure Response where
  view : View
  effects : List Effect := []
  dropped : Option Dropped := none
deriving DecidableEq

namespace View

/-- Takes on an author key for the reader, and shows the badge for it. -/
def setIdentity (v : View) (identity : Option AuthorKey) : View × List Effect :=
  let v := { v with identity }
  (v, [.badge v.badge])

/-- Whether the page counts as scrolled to its end. -/
def atBottom (v : View) (footer : Footer) : Bool := footer.atBottom v.settings.stayDownMargin

/-- The response of a step that drops nothing. -/
def respond (r : View × List Effect) : Response := { view := r.1, effects := r.2 }

/-- Does what a command says, whether or not its post is in the thread. -/
def perform (v : View) : Command → Response
  | .hoverHeader n => { view := v.hoverHeader n }
  | .leaveHeader n => { view := v.leaveHeader n }
  | .clickHeader n => { view := v.clickHeader n }
  | .hoverNumber n => { view := v.hoverNumber n }
  | .quote n => respond (v.quote n)
  | .hoverTarget n => { view := v.hoverTarget n }
  | .clickTarget n => respond (v.clickTarget n)
  | .hoverLink n reply => { view := v.hoverLink n reply }
  | .clickLink n reply => respond (v.clickLink n reply)
  | .leaveLink => { view := v.leaveLink }
  | .showHint n hint => { view := v.showHint n hint }
  | .hideHint n => { view := v.hideHint n }
  | .toggleFold n => respond (v.toggleFold n)
  | .insert arrival footer =>
    match v.insert arrival (footer.any v.atBottom) with
    | .ok r => respond r
    | .error cause => { view := v, dropped := some ⟨arrival.number, cause⟩ }
  | .setIdentity identity => respond (v.setIdentity identity)

/-- Runs one command. A command on a post outside the thread is ignored. -/
def dispatch (v : View) (c : Command) : Response :=
  match c.post? with
  | none => v.perform c
  | some n => if v.thread.contains n then v.perform c else { view := v }

/-- Runs commands in order, and collects their effects. -/
def run (v : View) : List Command → View × List Effect
  | [] => (v, [])
  | c :: rest =>
    let r := v.dispatch c
    let later := r.view.run rest
    (later.1, r.effects ++ later.2)

@[simp]
theorem run_nil (v : View) : v.run [] = (v, []) := rfl

theorem run_cons (v : View) (c : Command) (rest : List Command) :
    v.run (c :: rest) =
      (((v.dispatch c).view.run rest).1,
        (v.dispatch c).effects ++ ((v.dispatch c).view.run rest).2) := rfl

theorem run_append (v : View) (first rest : List Command) :
    v.run (first ++ rest) =
      (((v.run first).1.run rest).1, (v.run first).2 ++ ((v.run first).1.run rest).2) := by
  induction first generalizing v with
  | nil => rfl
  | cons c first ih => simp [run_cons, ih]

end View

end Discussion
