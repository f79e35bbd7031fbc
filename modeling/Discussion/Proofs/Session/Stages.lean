import Discussion.Proofs.Session.Pivot
import Discussion.Proofs.View.Reach
import Discussion.Proofs.Wire.Settings
import Discussion.Session.Run

/-!
# The stages of a session

A stage of a session that can fail says so in its result. A session gives a page exactly when the
settings in force, the thread, the identity and the events are in order and the page can be
written; where it folds at load and what the events say does not matter for that.
-/

namespace Discussion.Session

/-! ## Results -/

namespace Logged

variable {α β ε : Type}

theorem result_bind_eq_ok_iff {a : Logged α} {f : α → Logged β} {y : β} :
    (a >>= f).result = .ok y ↔ ∃ x, a.result = .ok x ∧ (f x).result = .ok y := by
  cases h : a.result with
  | error cause => simp [bind_of_error h]
  | ok x => simp [bind_of_ok h]

theorem result_ofExcept_eq_ok_iff {wrap : ε → Failure} {e : Except ε α} {x : α} :
    (ofExcept wrap e).result = .ok x ↔ e = .ok x := by
  cases e <;> simp [ofExcept]

theorem result_pure_eq_ok_iff {x y : α} : (pure x : Logged α).result = .ok y ↔ x = y := by
  change Except.ok x = Except.ok y ↔ _
  rw [Except.ok.injEq]

theorem result_say (lines : List LogLine) : (say lines).result = .ok () := rfl

theorem exitCode_eq_zero_iff {a : Logged α} : a.exitCode = 0 ↔ ∃ x, a.result = .ok x := by
  rw [exitCode]
  cases a.result <;> simp

end Logged

open Logged
open Wire (WritesSettings)

variable {a : Arguments} {s : Surroundings} {v w : View} {settings : Settings}

theorem result_read_eq_ok_iff {f : TextFile} {text : String} :
    f.read.result = .ok text ↔ f.text = some text := by
  rw [TextFile.read]
  cases f.text with
  | none => simp [fail]
  | some t => exact result_pure_eq_ok_iff.trans (Option.some_inj.symm)

/-! ## Stages -/

/-- The settings in force: those in the file that is named, or else in the one at home if it is
there, or else the defaults. -/
inductive InForce (a : Arguments) (s : Surroundings) : Settings → Prop
  | named {path text : String} {settings : Settings} (hpath : a.config = some path)
      (htext : s.text? path = some text) (hsettings : WritesSettings text settings) :
      InForce a s settings
  | home {home text : String} {settings : Settings} (hunnamed : a.config = none)
      (hhome : s.home = some home) (hpresent : s.isPresent (homeSettings home) = true)
      (htext : s.text? (homeSettings home) = some text)
      (hsettings : WritesSettings text settings) : InForce a s settings
  | default (hunnamed : a.config = none)
      (habsent : ∀ home, s.home = some home → s.isPresent (homeSettings home) = false) :
      InForce a s {}

theorem result_loadSettings_some_eq_ok_iff {f : TextFile} :
    (loadSettings (some f)).result = .ok settings ↔
      ∃ text, f.text = some text ∧ WritesSettings text settings := by
  simp only [loadSettings, result_bind_eq_ok_iff, result_read_eq_ok_iff,
    result_ofExcept_eq_ok_iff, Wire.settings_ofText_eq_ok_iff, result_say, true_and, exists_const,
    result_pure_eq_ok_iff, exists_eq_right]

theorem result_loadSettings_eq_ok_iff :
    (loadSettings ((s.settingsPath? a).map s.file)).result = .ok settings ↔
      InForce a s settings := by
  constructor
  · intro h
    cases hconfig : a.config with
    | some path =>
      rw [Surroundings.settingsPath?, hconfig] at h
      obtain ⟨text, htext, hsettings⟩ := result_loadSettings_some_eq_ok_iff.mp h
      exact .named hconfig htext hsettings
    | none =>
      rw [Surroundings.settingsPath?, hconfig] at h
      cases hpath : (s.home.map homeSettings).filter s.isPresent with
      | none =>
        rw [hpath] at h
        rw [Option.filter_eq_none_iff] at hpath
        obtain rfl := result_pure_eq_ok_iff.mp h
        refine .default hconfig fun home hhome => ?_
        exact Bool.not_eq_true _ ▸ hpath _ (Option.map_eq_some_iff.mpr ⟨home, hhome, rfl⟩)
      | some path =>
        rw [hpath] at h
        obtain ⟨hmap, hpresent⟩ := Option.filter_eq_some_iff.mp hpath
        obtain ⟨home, hhome, rfl⟩ := Option.map_eq_some_iff.mp hmap
        obtain ⟨text, htext, hsettings⟩ := result_loadSettings_some_eq_ok_iff.mp h
        exact .home hconfig hhome hpresent htext hsettings
  · intro h
    rw [Surroundings.settingsPath?]
    cases h with
    | named hpath htext hsettings =>
      rw [hpath]
      exact result_loadSettings_some_eq_ok_iff.mpr ⟨_, htext, hsettings⟩
    | home hunnamed hhome hpresent htext hsettings =>
      simp only [hunnamed, hhome, Option.map_some, Option.filter_some, hpresent, if_true]
      exact result_loadSettings_some_eq_ok_iff.mpr ⟨_, htext, hsettings⟩
    | default hunnamed habsent =>
      have hnone : (s.home.map homeSettings).filter s.isPresent = none := by
        simpa [Option.filter_eq_none_iff] using habsent
      rw [hunnamed]
      simp only [hnone]
      rfl

theorem result_loadView_eq_ok_iff {f : TextFile} :
    (loadView settings f).result = .ok v ↔ ∃ text, f.text = some text ∧
      ∃ snapshot, Snapshot.ofText text = .ok snapshot ∧
        View.ofSnapshot settings snapshot = .ok v := by
  simp only [loadView, result_bind_eq_ok_iff, result_read_eq_ok_iff,
    result_ofExcept_eq_ok_iff, result_say, true_and, exists_const,
    result_pure_eq_ok_iff, exists_eq_right]

/-- The view of a reader, who may be unknown. -/
def readBy (v : View) : Option AuthorKey → View
  | none => v
  | some key => (v.setIdentity (some key)).1

theorem parse_eq_ok_iff {text : String} {key : AuthorKey} :
    AuthorKey.parse text = .ok key ↔ key.text = text := by
  rw [AuthorKey.parse]
  constructor
  · intro h
    split at h
    · rw [← Except.ok.inj h]
    · cases h
  · rintro rfl
    rw [dif_pos key.valid]

theorem result_takeIdentity_eq_ok_iff {identity : Option String} :
    (takeIdentity v identity).result = .ok w ↔
      ∃ reader : Option AuthorKey, identity = reader.map AuthorKey.text ∧ w = readBy v reader := by
  cases identity with
  | none =>
    rw [takeIdentity, result_pure_eq_ok_iff]
    constructor
    · rintro rfl
      exact ⟨none, rfl, rfl⟩
    · rintro ⟨reader, hreader, rfl⟩
      obtain rfl := Option.map_eq_none_iff.mp hreader.symm
      rfl
  | some text =>
    simp only [takeIdentity, result_bind_eq_ok_iff, result_ofExcept_eq_ok_iff, parse_eq_ok_iff,
      result_say, true_and, exists_const, result_pure_eq_ok_iff]
    constructor
    · rintro ⟨key, rfl, rfl⟩
      exact ⟨some key, rfl, rfl⟩
    · rintro ⟨reader, hreader, rfl⟩
      obtain ⟨key, rfl, hkey⟩ := Option.map_eq_some_iff.mp hreader.symm
      exact ⟨key, hkey, rfl⟩

/-- A pivot never fails. -/
theorem result_takePivot_eq_ok_iff {pivot : Option String} :
    (takePivot v pivot).result = .ok w ↔ FoldsAtLoad v pivot w := by
  cases pivot with
  | none => rw [takePivot, result_pure_eq_ok_iff, foldsAtLoad_none_iff, eq_comm]
  | some pivot =>
    rw [foldsAtLoad_some_iff]
    exact (Iff.of_eq (Except.ok.injEq ..)).trans eq_comm

theorem result_playEvents_eq_ok_iff {events : Option Events} :
    (playEvents v events).result = .ok w ↔
      ∃ e, events = some e ∧ e.broken = false ∧ w = (v.replay e.lines).view := by
  cases events with
  | none => simp [playEvents, fail]
  | some e =>
    simp only [playEvents, result_bind_eq_ok_iff, result_say, true_and, exists_const,
      Option.some_inj, exists_eq_left']
    cases e.broken with
    | true => simp [fail]
    | false =>
      simp only [Bool.false_eq_true, if_false, result_bind_eq_ok_iff, result_say, true_and,
        exists_const, result_pure_eq_ok_iff]
      exact eq_comm

theorem result_conclude_eq_ok_iff {written : Bool} :
    (conclude a written).result = .ok () ↔ written = true := by
  cases written <;> simp [conclude, say, fail]

/-- All that a session reads before its page is in order, and leads to the view `v`. -/
inductive Ready (a : Arguments) (s : Surroundings) : View → Prop
  | intro {settings : Settings} {text : String} {snapshot : Snapshot} {reader : Option AuthorKey}
      {folded : View} {events : Events} (hsettings : InForce a s settings) (htext : s.text? a.thread = some text)
      (hsnapshot : Snapshot.ofText text = .ok snapshot)
      (hdistinct : (snapshot.posts.map (·.number)).Nodup)
      (hreader : a.identity = reader.map AuthorKey.text)
      (hfold : FoldsAtLoad (readBy (View.opened settings snapshot) reader) a.pivot folded)
      (hevents : s.events a = some events) (hwhole : events.broken = false) :
      Ready a s (folded.replay events.lines).view

/-- What a session needs does not depend on one another. -/
theorem exists_ready_iff : (∃ v, Ready a s v) ↔
    (∃ settings, InForce a s settings) ∧
      (∃ text snapshot, s.text? a.thread = some text ∧ Snapshot.ofText text = .ok snapshot ∧
        (snapshot.posts.map (·.number)).Nodup) ∧
      (∃ reader : Option AuthorKey, a.identity = reader.map AuthorKey.text) ∧
      ∃ events, s.events a = some events ∧ events.broken = false := by
  constructor
  · rintro ⟨_, hsettings, htext, hsnapshot, hdistinct, hreader, -, hevents, hwhole⟩
    exact ⟨⟨_, hsettings⟩, ⟨_, _, htext, hsnapshot, hdistinct⟩, ⟨_, hreader⟩, _, hevents, hwhole⟩
  · rintro ⟨⟨_, hsettings⟩, ⟨_, _, htext, hsnapshot, hdistinct⟩, ⟨_, hreader⟩, _, hevents, hwhole⟩
    obtain ⟨_, hfold⟩ := exists_foldsAtLoad (readBy (View.opened _ _) _) a.pivot
    exact ⟨_, .intro hsettings htext hsnapshot hdistinct hreader hfold hevents hwhole⟩

/-- A session is ready exactly when its stages before the page succeed. -/
theorem ready_iff : Ready a s v ↔
    ∃ w, (prepare a ((s.settingsPath? a).map s.file) (s.file a.thread)).result = .ok w ∧
      (playEvents w (s.events a)).result = .ok v := by
  simp only [prepare, result_bind_eq_ok_iff, result_loadSettings_eq_ok_iff,
    result_loadView_eq_ok_iff, View.ofSnapshot_eq_ok_iff, result_takeIdentity_eq_ok_iff,
    result_takePivot_eq_ok_iff, result_playEvents_eq_ok_iff, Surroundings.file]
  constructor
  · rintro ⟨hsettings, htext, hsnapshot, hdistinct, hreader, hfold, hevents, hwhole⟩
    exact ⟨_, ⟨_, hsettings, _, ⟨_, htext, _, hsnapshot, hdistinct, rfl⟩, _, ⟨_, hreader, rfl⟩,
      hfold⟩, _, hevents, hwhole, rfl⟩
  · rintro ⟨_, ⟨settings, hsettings, _, ⟨text, htext, snapshot, hsnapshot, hdistinct, rfl⟩, _,
      ⟨reader, hreader, rfl⟩, hfold⟩, events, hevents, hwhole, rfl⟩
    exact .intro hsettings htext hsnapshot hdistinct hreader hfold hevents hwhole

theorem result_run_eq_ok_iff {page : String} :
    (run a s).result = .ok page ↔
      ∃ v, Ready a s v ∧ s.isWritable a.output = true ∧ page = v.render := by
  simp only [run, ready_iff, result_bind_eq_ok_iff, result_pure_eq_ok_iff]
  constructor
  · rintro ⟨w, hw, v, hv, ⟨⟩, hwritten, rfl⟩
    exact ⟨v, ⟨w, hw, hv⟩, result_conclude_eq_ok_iff.mp hwritten, rfl⟩
  · rintro ⟨v, ⟨w, hw, hv⟩, hwritable, rfl⟩
    exact ⟨w, hw, v, hv, (), result_conclude_eq_ok_iff.mpr hwritable, rfl⟩

end Discussion.Session
