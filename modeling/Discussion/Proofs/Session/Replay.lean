import Discussion.Proofs.Session.Lines
import Discussion.Proofs.View.Folding

/-!
# Replaying texts

To replay a text is to run the commands that its lines say, in order. A line that says no command
is passed over, and what goes on around the lines does not matter, so that two texts may be
replayed one after the other or joined by a line feed.
-/

namespace Discussion

namespace Session

/-- The command on a line, if there is one. -/
def Line.command? : Line → Option Command
  | .command c => some c
  | _ => none

/-- The effect that a line of the log reports. -/
def LogLine.effect? : LogLine → Option Effect
  | .effect e => some e
  | _ => none

/-- The effects that a replay reports. -/
def Replayed.effects (r : Replayed) : List Effect := r.log.filterMap LogLine.effect?

/-- The command that a line says, if the text between its blanks decodes as one. -/
def commandOn? (line : List Char) : Option Command :=
  (Command.ofText (String.ofList (Text.trimBlanks line))).toOption

/-- The commands that the lines of a text say. -/
def commandsIn (text : String) : List Command := (text.toList.splitOn '\n').filterMap commandOn?

theorem command?_read (line : List Char) : (Line.read line).command? = commandOn? line := by
  rw [Line.read, commandOn?]
  cases Text.trimBlanks line with
  | nil => rfl
  | cons c cs =>
    dsimp only
    cases Command.ofText (String.ofList (c :: cs)) <;> rfl

theorem filterMap_command?_lines (text : String) :
    (lines text).filterMap Line.command? = commandsIn text := by
  rw [lines, cutLines_eq_splitOn, List.filterMap_map, commandsIn]
  exact List.filterMap_congr fun line _ => command?_read line

theorem filterMap_effect?_effectLines (effects : List Effect) :
    (effectLines effects).filterMap LogLine.effect? = effects := by
  rw [effectLines, List.filterMap_map]
  exact List.filterMap_some

theorem filterMap_effect?_responseLines (r : Response) :
    (responseLines r).filterMap LogLine.effect? = r.effects := by
  rw [responseLines, List.filterMap_append, filterMap_effect?_effectLines]
  cases r.dropped <;> rfl

end Session

namespace View

open Session

/-- A line runs its command, if it has one. -/
theorem replayLine_eq_run (v : View) (line : Line) :
    ((v.replayLine line).view, (v.replayLine line).effects) = v.run line.command?.toList ∧
      (v.replayLine line).count = line.command?.toList.length := by
  cases line with
  | blank => exact ⟨rfl, rfl⟩
  | malformed fault => exact ⟨rfl, rfl⟩
  | command c =>
    refine ⟨?_, rfl⟩
    have heffects : (v.replayLine (.command c)).effects = (v.dispatch c).effects :=
      filterMap_effect?_responseLines (v.dispatch c)
    rw [heffects, Line.command?, Option.toList_some, run_cons, run_nil, List.append_nil]
    rfl

/-- A replay runs the commands of its lines. -/
theorem replay_eq_run (v : View) (ls : List Line) :
    ((v.replay ls).view, (v.replay ls).effects) = v.run (ls.filterMap Line.command?) ∧
      (v.replay ls).count = (ls.filterMap Line.command?).length := by
  induction ls generalizing v with
  | nil => exact ⟨rfl, rfl⟩
  | cons line rest ih =>
    obtain ⟨hline, hlinecount⟩ := v.replayLine_eq_run line
    obtain ⟨hrest, hrestcount⟩ := ih (v.replayLine line).view
    have hcommands : (line :: rest).filterMap Line.command? =
        line.command?.toList ++ rest.filterMap Line.command? := by
      cases hc : line.command? <;> simp [hc]
    have heffects : (v.replay (line :: rest)).effects =
        (v.replayLine line).effects ++ ((v.replayLine line).view.replay rest).effects :=
      List.filterMap_append
    constructor
    · rw [hcommands, run_append, ← hline, ← hrest, heffects]
      rfl
    · rw [hcommands, List.length_append, ← hlinecount, ← hrestcount]
      rfl

/-- Blank lines are passed over. -/
theorem replay_filter_isFilled (v : View) (ls : List Line) :
    v.replay (ls.filter Line.isFilled) = v.replay ls := by
  induction ls generalizing v with
  | nil => rfl
  | cons line rest ih =>
    cases line with
    | blank =>
      rw [List.filter_cons_of_neg (by simp [Line.isFilled]), ih, replay_cons]
      simp [replayLine]
    | command c => rw [List.filter_cons_of_pos rfl, replay_cons, replay_cons, ih]
    | malformed fault => rw [List.filter_cons_of_pos rfl, replay_cons, replay_cons, ih]

theorem replay_lines_of_spaced {text spaced : String} (v : View)
    (h : Spaced text.toList spaced.toList) : v.replay (lines spaced) = v.replay (lines text) := by
  rw [← replay_filter_isFilled, ← v.replay_filter_isFilled (lines text)]
  exact congrArg v.replay h.filledLines_eq

/-- Replaying two texts joined by a line feed is replaying one after the other. What is replayed
are the commands that the lines say; blanks around the lines change nothing. -/
theorem replay_text (v : View) :
    (∀ a b : String, v.replay (lines (a ++ "\n" ++ b)) =
      let first := v.replay (lines a)
      let second := first.view.replay (lines b)
      { view := second.view
        count := first.count + second.count
        log := first.log ++ second.log }) ∧
    (∀ text : String, Events.ofBytes text.toUTF8 = { lines := lines text } ∧
      (v.replay (lines text)).view = (v.run (commandsIn text)).1 ∧
      (v.replay (lines text)).effects = (v.run (commandsIn text)).2 ∧
      (v.replay (lines text)).count = (commandsIn text).length) ∧
    (∀ text spaced : String, Spaced text.toList spaced.toList →
      v.replay (lines spaced) = v.replay (lines text)) ∧
    ∀ text : String,
      v.replay (lines (String.ofList (withReturns text.toList))) = v.replay (lines text) := by
  refine ⟨fun a b => ?_, fun text => ?_, fun text spaced h => v.replay_lines_of_spaced h,
    fun text => v.replay_lines_of_spaced ?_⟩
  · rw [lines_append, replay_append]
  · obtain ⟨hrun, hcount⟩ := v.replay_eq_run (lines text)
    rw [filterMap_command?_lines] at hrun hcount
    obtain ⟨hview, heffects⟩ := Prod.ext_iff.mp hrun
    exact ⟨Events.ofBytes_toUTF8 text, hview, heffects, hcount⟩
  · rw [String.toList_ofList]
    exact spaced_withReturns text.toList

section

open Sample

/-- A line that says no command, and one that folds. -/
def foldingText : String := "fold\n\x7b\"command\": \"toggle_fold\", \"post\": 1\x7d\n"

/-- The text with a carriage return at the end of each line runs its one command all the same. -/
theorem replay_text_folding :
    commandsIn foldingText = [.toggleFold one] ∧
      ((opened {} pair).replay
        (lines (String.ofList (withReturns foldingText.toList)))).effects =
          [.scrollTo (.post one)] := by
  have hcommands : commandsIn foldingText = [.toggleFold one] := by decide +kernel
  have hspaced : Spaced foldingText.toList
      (String.ofList (withReturns foldingText.toList)).toList := by
    rw [String.toList_ofList]
    exact spaced_withReturns _
  obtain ⟨-, hsaid, hspaces, -⟩ := (opened {} pair).replay_text
  have heffects : ((opened {} pair).replay (lines foldingText)).effects =
      ((opened {} pair).run [.toggleFold one]).2 := by
    rw [← hcommands]
    exact (hsaid foldingText).2.2.1
  refine ⟨hcommands, ?_⟩
  rw [hspaces foldingText _ hspaced]
  exact heffects.trans (by decide)

end

end View

end Discussion
