import Discussion.Proofs.Session.Stages
import Discussion.Proofs.View.Folding
import Discussion.Proofs.Wire.RoundTrip
import Discussion.Session.Host

/-!
# All or nothing

A host that is a plain value holds the files around a session and what has been printed. On such a
host the program writes its page at the very end, in one piece, after all that it reads has been
read. So there is either the whole page of the last view, or the files are as they were.
-/

namespace Discussion.Session

/-- The files after a text has been written to one of them. -/
def Surroundings.put (s : Surroundings) (path text : String) : Surroundings :=
  { s with
    isPresent := fun p => if p = path then true else s.isPresent p
    text? := fun p => if p = path then some text else s.text? p
    events? := fun p => if p = path then some (.ofText text) else s.events? p }

/-- The files with other lines in the events. -/
def Surroundings.mapLines (s : Surroundings) (f : List Line → List Line) : Surroundings :=
  { s with
    events? := fun path => (s.events? path).map fun e => { e with lines := f e.lines }
    input := { s.input with lines := f s.input.lines } }

/-- A host with its files, what it has printed, and what it has reported. -/
structure Scene where
  around : Surroundings
  printed : List String := []
  reported : List String := []

namespace Scene

/-- The host that a scene is. -/
def host : Host (StateM Scene) where
  home := do return (← get).around.home
  isPresent path := do return (← get).around.isPresent path
  text? path := do return (← get).around.text? path
  events? path := do return (← get).around.events? path
  input := do return (← get).around.input
  write path text := do
    let scene ← get
    if scene.around.isWritable path then
      set { scene with around := scene.around.put path text }
      return true
    else return false
  print line := modify fun scene => { scene with printed := scene.printed ++ [line] }
  report message := modify fun scene => { scene with reported := scene.reported ++ [message] }

variable {a : Arguments} {scene : Scene}

/-! ## The program on a scene -/

/-- A scene after lines have been printed. -/
def print (scene : Scene) (lines : List LogLine) : Scene :=
  { scene with printed := scene.printed ++ lines.map LogLine.text }

theorem print_print (scene : Scene) (first rest : List LogLine) :
    (scene.print first).print rest = scene.print (first ++ rest) := by
  simp [print]

theorem run_forM_print (lines : List LogLine) (scene : Scene) :
    (lines.forM fun line => host.print line.text).run scene = ((), scene.print lines) := by
  induction lines generalizing scene with
  | nil =>
    rw [print, List.map_nil, List.append_nil]
    rfl
  | cons line rest ih =>
    have hrest := ih { scene with printed := scene.printed ++ [line.text] }
    rw [List.forM_eq_forM] at hrest ⊢
    rw [List.forM_cons, StateT.run_bind]
    refine hrest.trans ?_
    simp [print]

theorem run_home_bind {β : Type} (next : Option String → StateM Scene β) (scene : Scene) :
    (host.home >>= next).run scene = (next scene.around.home).run scene := rfl

theorem run_isPresent_bind {β : Type} (path : String) (next : Bool → StateM Scene β)
    (scene : Scene) :
    (host.isPresent path >>= next).run scene = (next (scene.around.isPresent path)).run scene := rfl

theorem run_settings (a : Arguments) (scene : Scene) :
    (host.settings a).run scene =
      ((scene.around.settingsPath? a).map scene.around.file, scene) := by
  rw [Host.settings, Surroundings.settingsPath?]
  cases a.config with
  | some path => rfl
  | none =>
    dsimp only
    rw [run_home_bind]
    cases scene.around.home with
    | none => rfl
    | some home =>
      dsimp only
      rw [Option.map_some, Option.filter_some, run_isPresent_bind]
      cases scene.around.isPresent (homeSettings home) <;> rfl

theorem run_events (a : Arguments) (scene : Scene) :
    (host.events a).run scene = (scene.around.events a, scene) := by
  rw [Host.events, Surroundings.events]
  cases a.events <;> rfl

theorem run_write (path text : String) (scene : Scene) :
    (host.write path text).run scene =
      (scene.around.isWritable path,
        if scene.around.isWritable path then
          { scene with around := scene.around.put path text }
        else scene) := by
  change StateT.run (if scene.around.isWritable path = true then _ else _) scene = _
  cases scene.around.isWritable path <;> rfl

theorem run_continueWith {α : Type} (l : Logged α) (next : α → StateM Scene UInt8)
    (scene : Scene) :
    (host.continueWith l next).run scene =
      match l.result with
      | .ok x => (next x).run (scene.print l.log)
      | .error cause =>
        (1, { scene.print l.log with reported := scene.reported ++ [cause.message] }) := by
  rw [Host.continueWith, StateT.run_bind, run_forM_print]
  cases hresult : l.result with
  | ok x => rfl
  | error cause =>
    have hexit : l.exitCode = 1 := by rw [Logged.exitCode, hresult]
    rw [hexit]
    rfl

/-- A scene after a session that ends like this. -/
def ended (scene : Scene) (a : Arguments) (l : Logged String) : Scene :=
  match l.result with
  | .ok page => { scene.print l.log with around := scene.around.put a.output page }
  | .error cause => { scene.print l.log with reported := scene.reported ++ [cause.message] }

/-- A program that goes on from a stage does what the stages do together, if what it goes on with
does. -/
theorem run_continueWith_eq_ended {α : Type} {l : Logged α} {f : α → Logged String}
    {next : α → StateM Scene UInt8}
    (hnext : ∀ x, (next x).run (scene.print l.log) =
      ((f x).exitCode, (scene.print l.log).ended a (f x))) :
    (host.continueWith l next).run scene = ((l >>= f).exitCode, scene.ended a (l >>= f)) := by
  rw [run_continueWith]
  cases hresult : l.result with
  | error cause =>
    rw [Logged.bind_of_error hresult]
    rfl
  | ok x =>
    rw [Logged.bind_of_ok hresult]
    dsimp only
    rw [hnext, ended, ended, ← print_print]
    rfl

/-- The page is written, or else the session fails. -/
theorem run_write_conclude (a : Arguments) (page : String) (scene : Scene) :
    StateT.run (do
      let written ← host.write a.output page
      host.continueWith (conclude a written) fun _ => pure 0) scene =
      ((conclude a (scene.around.isWritable a.output) >>= fun _ => pure page).exitCode,
        scene.ended a (conclude a (scene.around.isWritable a.output) >>= fun _ => pure page)) := by
  rw [StateT.run_bind, run_write]
  cases scene.around.isWritable a.output with
  | false => exact run_continueWith (conclude a false) _ _
  | true => exact run_continueWith (conclude a true) _ _

/-- On a scene the program does what the stages of a session do together. -/
theorem run_runSession (a : Arguments) (scene : Scene) :
    (host.runSession a).run scene =
      ((run a scene.around).exitCode, scene.ended a (run a scene.around)) := by
  rw [Host.runSession, StateT.run_bind, run_settings]
  refine run_continueWith_eq_ended fun v => ?_
  rw [StateT.run_bind, run_events]
  exact run_continueWith_eq_ended fun w => run_write_conclude a w.render _

theorem run_runWords {words : List String} (hwords : Request.ofWords words = .run a)
    (scene : Scene) : (host.runWords words).run scene =
      ((run a scene.around).exitCode, scene.ended a (run a scene.around)) := by
  rw [Host.runWords, hwords]
  exact run_runSession a scene

theorem exitCode_run_eq_zero_iff {s : Surroundings} :
    (run a s).exitCode = 0 ↔ (∃ v, Ready a s v) ∧ s.isWritable a.output = true := by
  simp only [Logged.exitCode_eq_zero_iff, result_run_eq_ok_iff]
  constructor
  · rintro ⟨_, v, hv, hwritable, rfl⟩
    exact ⟨⟨v, hv⟩, hwritable⟩
  · rintro ⟨⟨v, hv⟩, hwritable⟩
    exact ⟨_, v, hv, hwritable, rfl⟩

/-! ## Pivots and events -/

theorem inForce_congr {s : Surroundings} {settings : Settings} (pivot : Option String)
    (f : List Line → List Line) :
    InForce { a with pivot } (s.mapLines f) settings ↔ InForce a s settings := by
  constructor
  · rintro (⟨hpath, htext, hsettings⟩ | ⟨hunnamed, hhome, hpresent, htext, hsettings⟩ |
      ⟨hunnamed, habsent⟩)
    · exact .named hpath htext hsettings
    · exact .home hunnamed hhome hpresent htext hsettings
    · exact .default hunnamed habsent
  · rintro (⟨hpath, htext, hsettings⟩ | ⟨hunnamed, hhome, hpresent, htext, hsettings⟩ |
      ⟨hunnamed, habsent⟩)
    · exact .named hpath htext hsettings
    · exact .home hunnamed hhome hpresent htext hsettings
    · exact .default hunnamed habsent

theorem events_mapLines (a : Arguments) (s : Surroundings) (pivot : Option String)
    (f : List Line → List Line) :
    (s.mapLines f).events { a with pivot } =
      (s.events a).map fun e => { e with lines := f e.lines } := by
  simp only [Surroundings.events]
  cases a.events <;> rfl

theorem exists_ready_congr (s : Surroundings) (pivot : Option String)
    (f : List Line → List Line) :
    (∃ v, Ready { a with pivot } (s.mapLines f) v) ↔ ∃ v, Ready a s v := by
  have hevents : (∃ e, (s.mapLines f).events { a with pivot } = some e ∧ e.broken = false) ↔
      ∃ e, s.events a = some e ∧ e.broken = false := by
    simp [events_mapLines]
  rw [exists_ready_iff, exists_ready_iff, hevents]
  simp only [inForce_congr]
  rfl

theorem exitCode_run_cases (a : Arguments) (s : Surroundings) :
    (run a s).exitCode = 0 ∨ (run a s).exitCode = 1 := by
  rw [Logged.exitCode]
  cases (run a s).result with
  | ok page => exact .inl rfl
  | error cause => exact .inr rfl

/-- Neither the pivot nor what the events say matters for the exit code. -/
theorem exitCode_run_congr (a : Arguments) (s : Surroundings) (pivot : Option String)
    (f : List Line → List Line) :
    (run { a with pivot } (s.mapLines f)).exitCode = (run a s).exitCode := by
  have hzero : (run { a with pivot } (s.mapLines f)).exitCode = 0 ↔ (run a s).exitCode = 0 := by
    rw [exitCode_run_eq_zero_iff, exitCode_run_eq_zero_iff, exists_ready_congr]
    rfl
  rcases exitCode_run_cases { a with pivot } (s.mapLines f) with h | h <;>
    rcases exitCode_run_cases a s with h' | h' <;> simp_all

/-! ## All or nothing -/

section

open Json (Value)
open Sample (two)

/-- Settings with a shift that turns the hue back. -/
def backwardSettings : Settings := { palette := { darkShift := ⟨-120, -40, -5⟩ } }

/-- A value that says just the shift. -/
def backwardValue : Value := .object [("palette", .object [("dark_mask",
  Wire.ofColorShift backwardSettings.palette.darkShift)])]

/-- A host with a thread, with settings at home, with a file that has a number in it, and with
events that say no command. -/
def pairScene : Scene where
  around := {
    home := some "h"
    isPresent := fun path => path = "h/.thread-view.json"
    text? := fun path => [("t", (Wire.ofSnapshot View.pair).text),
      ("h/.thread-view.json", backwardValue.text), ("n", (Value.number 7).text)].lookup path
    events? := fun _ => none
    input := .ofText "fold"
    isWritable := fun _ => true }

/-- A thread and a query string that asks for its second post. -/
def pairArguments : Arguments := { thread := "t", pivot := some "?pivot=2" }

theorem writesSettings_backwardValue :
    Wire.WritesSettings backwardValue.text backwardSettings := by
  have hfits : backwardValue.Fits := by
    simp only [backwardValue, Wire.ofColorShift, Value.fits_object_iff, List.forall_mem_cons,
      Value.fits_number_iff, List.not_mem_nil, false_imp_iff, implies_true, and_true]
    decide
  have hshift : Wire.SaysShift backwardSettings.palette.darkShift
      (Wire.ofColorShift backwardSettings.palette.darkShift).reading :=
    ⟨[some _, some _, some _], .object (by decide) (.cons rfl <| .cons rfl <| .cons rfl .nil),
      .cons rfl <| .cons rfl <| .cons rfl .nil⟩
  have hpalette : Wire.SaysPalette backwardSettings.palette (Value.object [("dark_mask",
      Wire.ofColorShift backwardSettings.palette.darkShift)]).reading :=
    ⟨[none, none, none, none, none, some _, none, none],
      .object (by decide) (.cons rfl <| .cons rfl <| .cons rfl <| .cons rfl <| .cons rfl <|
        .cons rfl <| .cons rfl <| .cons rfl .nil),
      .cons rfl <| .cons rfl <| .cons rfl <| .cons rfl <| .cons rfl <|
        .cons hshift <| .cons rfl <| .cons rfl .nil⟩
  exact ⟨_, hfits.isDocument, [some _, none], .object (by decide) (.cons rfl <| .cons rfl .nil),
    .cons hpalette <| .cons rfl .nil⟩

/-- A number is no settings. -/
theorem not_writesSettings_number (settings : Settings) :
    ¬ Wire.WritesSettings (Value.number 7).text settings := by
  have hfits : (Value.number 7).Fits := Value.fits_number_iff.mpr (by decide)
  rintro ⟨r, hr, parts, hparts, -⟩
  obtain rfl : r = (Value.number 7).reading := hr.unique hfits.isDocument
  cases hparts

end

end Scene

end Discussion.Session
