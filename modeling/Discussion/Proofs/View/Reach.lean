import Discussion.Proofs.Thread.Opening
import Discussion.Proofs.View.Layout

/-!
# Reachable views

A host opens a view on a snapshot and then makes calls: it dispatches commands,
or calls an operation of the view directly. Whatever it calls changes the view
in one of five ways, and so an invariant of these holds of every view that is
reached. One of them is that the rows stand for the posts of the thread.
-/

namespace Discussion

namespace View

variable {v w : View} {n m : PostNumber} {p : Post} {settings : Settings} {s : Snapshot}

/-! ## Opening -/

/-- The view with which opening begins: every row is bare. -/
def bare (settings : Settings) (s : Snapshot) : View where
  settings := settings
  thread := Thread.opened s
  rows := ⟨(Thread.opened s).numbers.map fun n => (n, {})⟩
  wheel := Wheel.ofPalette settings.palette
  page := s.page

/-- The view that opens on a snapshot with distinct numbers. -/
def opened (settings : Settings) (s : Snapshot) : View :=
  (Thread.opened s).numbers.foldl decorate (bare settings s)

theorem row?_bare {row : Row} (hrow : (bare settings s).row? n = some row) : row = {} := by
  have hmem := PostMap.mem_of_get? hrow
  rw [bare, List.mem_map] at hmem
  obtain ⟨k, -, heq⟩ := hmem
  exact (congrArg Prod.snd heq).symm

theorem ofSnapshot_eq_ok_iff :
    View.ofSnapshot settings s = .ok v ↔
      (s.posts.map (·.number)).Nodup ∧ v = opened settings s := by
  have hthread := fun t => Thread.ofSnapshot_eq_ok_iff (s := s) (t := t)
  rw [ofSnapshot]
  cases ht : Thread.ofSnapshot s with
  | error cause =>
    constructor
    · intro herror
      cases herror
    · rintro ⟨hnodup, -⟩
      have := (hthread _).mpr ⟨hnodup, rfl⟩
      simp [ht] at this
  | ok t =>
    obtain ⟨hnodup, rfl⟩ := (hthread t).mp ht
    constructor
    · rintro ⟨⟩
      exact ⟨hnodup, rfl⟩
    · rintro ⟨-, rfl⟩
      rfl

theorem sameLayout_foldl_decorate (ns : List PostNumber) (v : View) :
    v.SameLayout (ns.foldl decorate v) := by
  induction ns generalizing v with
  | nil => exact .refl v
  | cons n rest ih => exact (sameLayout_decorate v n).trans (ih _)

theorem sameLayout_opened (settings : Settings) (s : Snapshot) :
    (bare settings s).SameLayout (opened settings s) :=
  sameLayout_foldl_decorate _ _

theorem thread_opened (settings : Settings) (s : Snapshot) :
    (opened settings s).thread = Thread.opened s :=
  (sameLayout_opened settings s).thread

theorem fold_opened (settings : Settings) (s : Snapshot) : (opened settings s).fold = none :=
  (sameLayout_opened settings s).fold

theorem page_opened (settings : Settings) (s : Snapshot) : (opened settings s).page = s.page :=
  (sameLayout_opened settings s).page

theorem numbers_opened (settings : Settings) (s : Snapshot) :
    (opened settings s).thread.numbers = s.posts.map (·.number) := by
  rw [thread_opened, Thread.numbers_opened]

theorem names_opened :
    (opened settings s).thread.Names n m ↔
      ∃ post ∈ s.posts, post.number = n ∧ post.parent = some m := by
  rw [thread_opened, Thread.Names, Thread.posts_opened]

/-! ## Commands -/

theorem dispatch_toggleFold (hn : v.thread.contains n = true) :
    (v.dispatch (.toggleFold n)).view = (v.toggleFold n).1 := by
  rw [dispatch_eq_perform]
  · rfl
  · rintro k ⟨rfl⟩
    exact hn

/-- A live post is never ignored. -/
theorem dispatch_insert_eq_perform (v : View) (a : Arrival) (footer : Option Footer) :
    v.dispatch (.insert a footer) = v.perform (.insert a footer) := by
  apply dispatch_eq_perform
  rintro k ⟨⟩

/-- A live post of its own, unused number is merged. -/
theorem dispatch_insert {a : Arrival} (hnum : a.post.number = a.number)
    (hnew : v.thread.contains a.number = false) (footer : Option Footer) :
    (v.dispatch (.insert a footer)).view = v.merge a.post := by
  rw [dispatch_insert_eq_perform, perform, insert_eq, if_neg (not_not_intro hnum),
    if_neg (by simp [hnew])]
  rfl

/-- Any other live post is dropped. -/
theorem dispatch_insert_of_dropped {a : Arrival}
    (h : a.post.number ≠ a.number ∨ v.thread.contains a.number = true)
    (footer : Option Footer) : (v.dispatch (.insert a footer)).view = v := by
  rw [dispatch_insert_eq_perform, perform, insert_eq]
  by_cases hnum : a.post.number = a.number
  · rw [if_neg (not_not_intro hnum), if_pos (h.resolve_left (not_not_intro hnum))]
  · rw [if_pos hnum]

/-- Every command retouches the view, merges a post, or works a fold control. -/
theorem dispatch_cases (v : View) (c : Command) :
    (v.Retouched (v.dispatch c).view) ∨
    (∃ a footer, c = .insert a footer ∧ a.post.number = a.number ∧
      v.thread.contains a.number = false ∧ (v.dispatch c).view = v.merge a.post) ∨
    (∃ n, c = .toggleFold n ∧ v.thread.contains n = true ∧
      (v.dispatch c).view = (v.toggleFold n).1) := by
  by_cases htoggle : ∃ n, c = .toggleFold n
  · obtain ⟨n, rfl⟩ := htoggle
    cases hn : v.thread.contains n with
    | true => exact Or.inr (Or.inr ⟨n, rfl, hn, dispatch_toggleFold hn⟩)
    | false =>
      rw [dispatch, Command.post?]
      dsimp only
      rw [if_neg (by simp [hn])]
      exact Or.inl (.refl v)
  · by_cases hinsert : ∃ a footer, c = .insert a footer
    · obtain ⟨a, footer, rfl⟩ := hinsert
      by_cases hdropped : a.post.number ≠ a.number ∨ v.thread.contains a.number = true
      · rw [dispatch_insert_of_dropped hdropped]
        exact Or.inl (.refl v)
      · rw [not_or, not_not, Bool.not_eq_true] at hdropped
        obtain ⟨hnum, hnew⟩ := hdropped
        exact Or.inr (Or.inl ⟨a, footer, rfl, hnum, hnew, dispatch_insert hnum hnew footer⟩)
    · have hretouch : v.Retouched (v.perform c).view :=
        retouched_perform (fun n h => htoggle ⟨n, h⟩) (fun a footer h => hinsert ⟨a, footer, h⟩)
      rcases dispatch_eq_perform_or_ignored v c with heq | heq
      · rw [heq]
        exact Or.inl hretouch
      · rw [heq]
        exact Or.inl (.refl v)

/-- A fold control folds around its post, or it unfolds. -/
theorem toggleFold_cases (v : View) (n : PostNumber) :
    (v.toggleFold n).1 = v ∨
    (v.page = .thread ∧ (v.fold = some n ∨ v.thread.contains n = false) ∧
      (v.toggleFold n).1 = v.unfold) ∨
    (v.page = .thread ∧ v.fold ≠ some n ∧ v.thread.contains n = true ∧
      v.toggleFold n = v.foldAround n) := by
  rw [toggleFold]
  cases hpage : v.page with
  | query => exact Or.inl rfl
  | thread =>
    dsimp only
    by_cases hfold : v.fold = some n
    · rw [if_pos hfold]
      exact Or.inr (Or.inl ⟨rfl, Or.inl hfold, rfl⟩)
    · rw [if_neg hfold]
      cases hn : v.thread.contains n with
      | true => exact Or.inr (Or.inr ⟨rfl, hfold, rfl, unfold_foldAround hn⟩)
      | false =>
        have hn' : v.unfold.thread.contains n = false := hn
        refine Or.inr (Or.inl ⟨rfl, Or.inr rfl, ?_⟩)
        rw [foldAround, if_neg (by simp [hn'])]

/-- All that a fold control changes are the fold and the places of the rows. -/
theorem toggleFold_eq_mapRows (v : View) (n : PostNumber) :
    ∃ (f : PostNumber → Row → Row) (fold : Option PostNumber),
      (∀ k row, ∃ mark hidden, f k row = { row with mark, hidden }) ∧
      (v.toggleFold n).1 = { v.mapRows f with fold } := by
  rcases toggleFold_cases v n with heq | ⟨-, -, heq⟩ | ⟨-, -, hn, heq⟩
  · refine ⟨fun _ row => row, v.fold, fun _ row => ⟨row.mark, row.hidden, rfl⟩, ?_⟩
    rw [heq, mapRows, PostMap.map_id]
  · exact ⟨_, none, fun _ _ => ⟨_, _, rfl⟩, heq⟩
  · rw [heq, foldAround, if_pos hn]
    exact ⟨_, some n, fun _ _ => ⟨_, _, rfl⟩, rfl⟩

/-! ## Calls -/

/-- What a host can ask of a view. -/
inductive Call
  | dispatch (c : Command)
  /-- The operation of a command, whether or not its post is in the thread. -/
  | perform (c : Command)
  | insert (a : Arrival) (atBottom : Bool)
  | foldOn (n : PostNumber)
  | foldFromQuery (query : String)
  | requestColor (n : PostNumber)

/-- The view after a call. -/
def call (v : View) : Call → View
  | .dispatch c => (v.dispatch c).view
  | .perform c => (v.perform c).view
  | .insert a atBottom =>
    match v.insert a atBottom with
    | .ok r => r.1
    | .error _ => v
  | .foldOn n => (v.foldOn n).1
  | .foldFromQuery query => (v.foldFromQuery query).1
  | .requestColor n => (v.requestColor n).1

/-- The views that a host can reach. -/
inductive Reachable : View → Prop
  | opened {settings : Settings} {s : Snapshot} {v : View}
      (h : View.ofSnapshot settings s = .ok v) : Reachable v
  | call {v : View} (h : Reachable v) (c : Call) : Reachable (v.call c)

/-- The ways in which a call can change a view. -/
inductive Change (v : View) : View → Prop
  | retouch {w : View} (h : v.Retouched w) : Change v w
  | merge (p : Post) (hp : v.thread.contains p.number = false) : Change v (v.merge p)
  | fold (n : PostNumber) (hpage : v.page = .thread) (hn : v.thread.contains n = true) :
      Change v (v.foldAround n).1
  | unfold (hpage : v.page = .thread) : Change v v.unfold
  | color (n : PostNumber) : Change v (v.requestColor n).1

theorem change_toggleFold (v : View) (n : PostNumber) : Change v (v.toggleFold n).1 := by
  rcases toggleFold_cases v n with h | ⟨hpage, -, h⟩ | ⟨hpage, -, hn, h⟩
  · rw [h]
    exact .retouch (.refl v)
  · rw [h]
    exact .unfold hpage
  · rw [h]
    exact .fold n hpage hn

theorem change_foldOn (v : View) (n : PostNumber) : Change v (v.foldOn n).1 := by
  rw [foldOn]
  cases hpage : v.page with
  | query => exact .retouch (.refl v)
  | thread =>
    dsimp only
    cases hn : v.thread.contains n with
    | true => exact .fold n hpage hn
    | false =>
      rw [foldAround, if_neg (by simp [hn])]
      exact .retouch (.refl v)

/-- A live post is merged, or it is dropped. -/
theorem call_insert_cases (v : View) (a : Arrival) (atBottom : Bool) :
    v.call (.insert a atBottom) = v ∨
      v.thread.contains a.post.number = false ∧
        v.call (.insert a atBottom) = v.merge a.post := by
  rw [call, insert_eq]
  by_cases hnum : a.post.number = a.number
  · cases hnew : v.thread.contains a.number with
    | true => exact Or.inl (by rw [if_neg (not_not_intro hnum), if_pos rfl])
    | false =>
      refine Or.inr ⟨hnum ▸ hnew, ?_⟩
      rw [if_neg (not_not_intro hnum), if_neg Bool.false_ne_true]
  · exact Or.inl (by rw [if_pos hnum])

theorem change_insert (v : View) (a : Arrival) (atBottom : Bool) :
    Change v (v.call (.insert a atBottom)) := by
  rcases call_insert_cases v a atBottom with heq | ⟨hnew, heq⟩
  · rw [heq]
    exact .retouch (.refl v)
  · rw [heq]
    exact .merge a.post hnew

theorem change_dispatch (v : View) (c : Command) : Change v (v.dispatch c).view := by
  rcases dispatch_cases v c with h | ⟨a, footer, -, hnum, hc, h⟩ | ⟨n, -, -, h⟩
  · exact .retouch h
  · rw [h]
    exact .merge a.post (hnum ▸ hc)
  · rw [h]
    exact change_toggleFold v n

theorem change_perform (v : View) (c : Command) : Change v (v.perform c).view := by
  by_cases htoggle : ∃ n, c = .toggleFold n
  · obtain ⟨n, rfl⟩ := htoggle
    exact change_toggleFold v n
  · by_cases hinsert : ∃ a footer, c = .insert a footer
    · obtain ⟨a, footer, rfl⟩ := hinsert
      exact change_dispatch v (.insert a footer)
    · exact .retouch
        (retouched_perform (fun n h => htoggle ⟨n, h⟩) (fun a footer h => hinsert ⟨a, footer, h⟩))

/-- Every call is a change of one of these kinds. -/
theorem change_call (v : View) (c : Call) : Change v (v.call c) := by
  cases c with
  | dispatch c => exact change_dispatch v c
  | perform c => exact change_perform v c
  | insert a atBottom => exact change_insert v a atBottom
  | foldOn n => exact change_foldOn v n
  | foldFromQuery query =>
    rw [call, foldFromQuery]
    split
    · exact .retouch (.refl v)
    · exact change_foldOn v _
  | requestColor n => exact .color n

theorem reachable_opened (hnodup : (s.posts.map (·.number)).Nodup) :
    Reachable (View.opened settings s) :=
  .opened (ofSnapshot_eq_ok_iff.mpr ⟨hnodup, rfl⟩)

/-- What holds of every view just opened and is kept by every change holds of
every view that is reached. -/
theorem Reachable.invariant {P : View → Prop}
    (hopened : ∀ settings s v, View.ofSnapshot settings s = .ok v → P v)
    (hchange : ∀ v w, P v → Change v w → P w) (h : Reachable v) : P v := by
  induction h with
  | opened h => exact hopened _ _ _ h
  | @call v _ c ih => exact hchange v _ ih (change_call v c)

theorem Reachable.run (h : Reachable v) (cs : List Command) : Reachable (v.run cs).1 := by
  induction cs generalizing v with
  | nil => exact h
  | cons c rest ih => exact ih (h.call (.dispatch c))

/-- What every change keeps holds after a run if it holds before. -/
theorem run_invariant {P : View → Prop} (hchange : ∀ v w, P v → Change v w → P w)
    (h : P v) (cs : List Command) : P (v.run cs).1 := by
  induction cs generalizing v with
  | nil => exact h
  | cons c rest ih =>
    rw [run_cons]
    exact ih (hchange v _ h (change_dispatch v c))

/-- A change keeps the thread, or the thread receives a post. -/
theorem Change.thread_cases (h : Change v w) :
    w.thread = v.thread ∨
      ∃ p, v.thread.contains p.number = false ∧ w.thread = v.thread.receive (v.settle p) := by
  cases h with
  | retouch hr => exact Or.inl hr.sameLayout.thread
  | merge p hp => exact Or.inr ⟨p, hp, thread_merge v p⟩
  | fold n => exact Or.inl (thread_foldAround v n)
  | unfold => exact Or.inl rfl
  | color n => exact Or.inl (sameLayout_requestColor v n).thread

/-! ## Rows and posts -/

/-- The rows of a view stand for the posts of its thread, in the same order. -/
structure Aligned (v : View) : Prop where
  indexed : v.thread.Indexed
  keys : v.rows.keys = v.thread.numbers

namespace Aligned

theorem of_sameLayout (h : v.Aligned) (hvw : v.SameLayout w) : w.Aligned where
  indexed := by
    rw [hvw.thread]
    exact h.indexed
  keys := by
    rw [hvw.keys, hvw.thread]
    exact h.keys

theorem merge (h : v.Aligned) (hp : v.thread.contains p.number = false) :
    (v.merge p).Aligned := by
  have hmem := h.indexed.contains_eq_false_iff.mp hp
  constructor
  · rw [thread_merge]
    apply h.indexed.receive
    rwa [settle_number]
  · have hkeys : p.number ∉ v.rows.keys := by rwa [h.keys]
    rw [keys_merge hkeys, thread_merge, Thread.numbers_receive, settle_number, h.keys]

theorem foldAround (h : v.Aligned) (n : PostNumber) : (v.foldAround n).1.Aligned := by
  rw [View.foldAround]
  split
  · exact ⟨h.indexed, (PostMap.keys_map _ _).trans h.keys⟩
  · exact h

theorem unfold (h : v.Aligned) : v.unfold.Aligned :=
  ⟨h.indexed, (PostMap.keys_map _ _).trans h.keys⟩

theorem change (h : v.Aligned) (hvw : Change v w) : w.Aligned := by
  cases hvw with
  | retouch hr => exact h.of_sameLayout hr.sameLayout
  | merge p hp => exact h.merge hp
  | fold n => exact h.foldAround n
  | unfold => exact h.unfold
  | color n => exact h.of_sameLayout (sameLayout_requestColor v n)

theorem exists_row (h : v.Aligned) (hn : n ∈ v.thread.numbers) : ∃ row, v.row? n = some row := by
  rw [← h.keys] at hn
  exact PostMap.exists_of_mem_keys hn

theorem mem_of_row? (h : v.Aligned) {row : Row} (hrow : v.row? n = some row) :
    n ∈ v.thread.numbers := by
  rw [← h.keys, ← PostMap.contains_iff, PostMap.contains, Option.isSome_iff_exists]
  exact ⟨row, hrow⟩

theorem row?_eq_none (h : v.Aligned) (hn : n ∉ v.thread.numbers) : v.row? n = none := by
  rw [Option.eq_none_iff_forall_ne_some]
  intro row hrow
  exact hn (h.mem_of_row? hrow)

/-- Every post of the thread has a place. -/
theorem exists_place (h : v.Aligned) (hn : n ∈ v.thread.numbers) :
    ∃ a, v.place? n = some a := by
  obtain ⟨row, hrow⟩ := h.exists_row hn
  exact ⟨row.place, place?_eq_some_iff.mpr ⟨row, hrow, rfl⟩⟩

theorem mem_of_place (h : v.Aligned) {a : Place} (ha : v.place? n = some a) :
    n ∈ v.thread.numbers := by
  obtain ⟨row, hrow, -⟩ := place?_eq_some_iff.mp ha
  exact h.mem_of_row? hrow

end Aligned

theorem aligned_bare (hnodup : (s.posts.map (·.number)).Nodup) : (bare settings s).Aligned where
  indexed := Thread.indexed_opened hnodup
  keys := by simp [bare, PostMap.keys, Function.comp_def]

/-- What holds of the bare view and is kept by decoration holds on opening. -/
theorem opened_invariant {P : View → Prop} (hnodup : (s.posts.map (·.number)).Nodup)
    (hbare : P (bare settings s))
    (hdecorate : ∀ v n, v.Aligned → v.thread = Thread.opened s → P v → P (v.decorate n)) :
    P (opened settings s) := by
  have hall : ∀ (ns : List PostNumber) (v : View), v.Aligned → v.thread = Thread.opened s →
      P v → P (ns.foldl decorate v) := by
    intro ns
    induction ns with
    | nil => exact fun v _ _ h => h
    | cons n rest ih =>
      intro v hv hthread h
      have hlayout := sameLayout_decorate v n
      exact ih _ (hv.of_sameLayout hlayout) (hlayout.thread.trans hthread)
        (hdecorate v n hv hthread h)
  exact hall _ _ (aligned_bare hnodup) rfl hbare

theorem aligned_opened (h : View.ofSnapshot settings s = .ok v) : v.Aligned := by
  obtain ⟨hnodup, rfl⟩ := ofSnapshot_eq_ok_iff.mp h
  exact (aligned_bare hnodup).of_sameLayout (sameLayout_opened settings s)

theorem aligned_run (h : View.ofSnapshot settings s = .ok v) (cs : List Command) :
    (v.run cs).1.Aligned :=
  run_invariant (fun _ _ hv hvw => hv.change hvw) (aligned_opened h) cs

theorem Reachable.aligned (h : Reachable v) : v.Aligned :=
  h.invariant (fun _ _ _ hv => aligned_opened hv) fun _ _ hv hvw => hv.change hvw

end View

end Discussion
