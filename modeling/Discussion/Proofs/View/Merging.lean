import Discussion.Proofs.Thread.Storage
import Discussion.Proofs.View.Footprint

/-!
# Merging in place

A live post is merged by writes to the thread, to its indexes, to the rows and to the sequence of
colors, one after the other on the one view that there is. A post is refused before the first of
them, so a refusal leaves nothing behind. The writes of a merge come to the footprint of the post.
-/

namespace Discussion

namespace View

variable {v : View} {p : Post} {n : PostNumber}

/-! ## One write after the other -/

/-- Works on the thread of a view. -/
def onThread {α : Type} (action : StateM Thread α) : StateM View α := do
  let v ← get
  let r := action.run v.thread
  set { v with thread := r.2 }
  return r.1

/-- Gives a post a bare row, unless it has a row already. -/
def openRow (n : PostNumber) : StateM View Unit :=
  modify fun v => if (v.row? n).isSome then v else { v with rows := v.rows.insert n {} }

/-- Takes the next color of the sequence, which moves on. -/
def takeColor : StateM View Color := do
  let v ← get
  set { v with wheel := v.wheel.advance }
  return v.wheel.next

/-- Hands out the color of a post, writing in place: the sequence moves on, then the row gets the
color, and then its number. -/
def requestColorInPlace (n : PostNumber) : StateM View (Option Color) := do
  if (← get).thread.contains n then
    openRow n
    match (← get).linkColor? n with
    | some c => return some c
    | none =>
      let c ← takeColor
      modify (·.modifyRow n fun row => { row with linkColor := some c })
      modify (·.modifyRow n (·.mapHighlight (·.colorize .number c)))
      return some c
  else return none

/-- Decorates a row, writing in place: the row is bound, then the color of the target is asked for,
and then the link gets it. -/
def decorateInPlace (n : PostNumber) : StateM View Unit := do
  match (← get).thread.get? n with
  | none => return
  | some entry =>
    openRow n
    if (← get).isBound n || entry.post.omission then return
    modify (·.modifyRow n fun row => { row with bound := true })
    match (← get).thread.target? n with
    | none => return
    | some target =>
      match ← requestColorInPlace target with
      | none => return
      | some c => modify (·.modifyRow n (·.mapHighlight (·.colorize .target c)))

/-- Seats a post that has just got its entry: it gets its row, its link back is bound, and the row
is decorated. -/
def seatInPlace (n : PostNumber) : StateM View Unit := do
  openRow n
  onThread (modify (·.bind n))
  decorateInPlace n

/-- Merges a live post, writing in place. The writes before a refusal stay, if there are any. -/
def insertInPlace (a : Arrival) (atBottom : Bool) :
    StateM View (Except Rejection (List Effect)) := do
  if a.post.number ≠ a.number then return .error (.misplaced a.number a.post.number)
  let post := (← get).settle a.post
  match ← onThread (Thread.pushInPlace post) with
  | .error cause => return .error (.refused cause)
  | .ok _ =>
    seatInPlace a.number
    let badge := (← get).badge
    let hidden := (← get).hidesArrival a.number
    modify fun v => v.modifyRow a.number fun row =>
      { row with hidden, mark := { row.mark with kept := v.fold.isSome && !hidden } }
    return .ok ([.announce (.insertedPost a.number), .badge badge] ++
      if atBottom then [.scrollTo .composer] else [])

/-- Runs the command that brings a live post, writing in place; gives its effects and the post that
was dropped, if any. -/
def arriveInPlace (a : Arrival) (footer : Option Footer) :
    StateM View (List Effect × Option Dropped) := do
  let v ← get
  match ← insertInPlace a (footer.any v.atBottom) with
  | .ok effects => return (effects, none)
  | .error cause => return ([], some ⟨a.number, cause⟩)

/-! ## What the writes come to -/

theorem run_onThread {α : Type} (action : StateM Thread α) (v : View) :
    (onThread action).run v =
      ((action.run v.thread).1, { v with thread := (action.run v.thread).2 }) := rfl

section

variable {α β : Type} {action : StateM View α} {a : α} {w : View}

theorem run_bind_eq (h : action.run v = (a, w)) (next : α → StateM View β) :
    (action >>= next).run v = (next a).run w := by
  rw [StateT.run_bind, h]
  rfl

theorem run_get_bind (next : View → StateM View β) (v : View) :
    (get >>= next).run v = (next v).run v := rfl

theorem run_modify_bind (f : View → View) (next : PUnit → StateM View β) (v : View) :
    (modify f >>= next).run v = (next ⟨⟩).run (f v) := rfl

end

theorem run_openRow_of_isSome (h : (v.row? n).isSome = true) : (openRow n).run v = ((), v) := by
  change ((), if (v.row? n).isSome = true then v else _) = _
  rw [if_pos h]

theorem run_openRow_of_eq_none (h : v.row? n = none) :
    (openRow n).run v = ((), { v with rows := v.rows.insert n {} }) := by
  change ((), if (v.row? n).isSome = true then v else _) = _
  rw [h, Option.isSome_none, if_neg Bool.false_ne_true]

theorem modifyRow_modifyRow (v : View) (n : PostNumber) (f g : Row → Row) :
    (v.modifyRow n f).modifyRow n g = v.modifyRow n fun row => g (f row) := by
  have hrow : ∀ k row, (if k = n then g (if k = n then f row else row)
      else if k = n then f row else row) = if k = n then g (f row) else row := by
    intro k row
    split <;> rfl
  simp only [modifyRow, PostMap.modify, PostMap.map_map, hrow]

/-- Every post of the thread has a row. -/
def HasRows (v : View) : Prop := ∀ n, v.thread.contains n = true → (v.row? n).isSome = true

theorem HasRows.modifyRow (h : v.HasRows) (n : PostNumber) (f : Row → Row) :
    (v.modifyRow n f).HasRows := by
  intro k hk
  rw [row?_modifyRow]
  split <;> simpa using h k hk

theorem Aligned.hasRows (h : v.Aligned) : v.HasRows := by
  intro n hn
  obtain ⟨row, hrow⟩ := h.exists_row (h.indexed.contains_iff.mp hn)
  rw [hrow, Option.isSome_some]

theorem run_requestColorInPlace (h : v.HasRows) (n : PostNumber) :
    (requestColorInPlace n).run v = ((v.requestColor n).2, (v.requestColor n).1) := by
  rw [requestColorInPlace, run_get_bind, requestColor]
  cases hn : v.thread.contains n with
  | false => rfl
  | true =>
    rw [if_pos rfl, if_pos rfl, run_bind_eq (run_openRow_of_isSome (h n hn)), run_get_bind]
    cases v.linkColor? n with
    | some c => rfl
    | none =>
      exact congrArg (some v.wheel.next, ·)
        (modifyRow_modifyRow { v with wheel := v.wheel.advance } n _ _)

theorem run_decorateInPlace (h : v.HasRows) (hn : (v.row? n).isSome = true) :
    (decorateInPlace n).run v = ((), v.decorate n) := by
  rw [decorateInPlace, run_get_bind, decorate]
  cases v.thread.get? n with
  | none => rfl
  | some entry =>
    dsimp only
    rw [run_bind_eq (run_openRow_of_isSome hn), run_get_bind]
    cases v.isBound n || entry.post.omission with
    | true => rfl
    | false =>
      rw [if_neg Bool.false_ne_true, if_neg Bool.false_ne_true, run_modify_bind, run_get_bind]
      have hbound := h.modifyRow n fun row => { row with bound := true }
      cases (v.modifyRow n fun row => { row with bound := true }).thread.target? n with
      | none => rfl
      | some target =>
        dsimp only
        rw [run_bind_eq (run_requestColorInPlace hbound target)]
        cases (v.modifyRow n fun row => { row with bound := true }).requestColor target with
        | mk w c => cases c <;> rfl

theorem run_onThread_pushInPlace (hp : p.number ∉ v.thread.numbers) (h : v.thread.Indexed) :
    (onThread (Thread.pushInPlace (v.settle p))).run v =
      (.ok p.number, { v with thread := v.thread.extend (v.settle p) }) := by
  have hcontains := h.contains_eq_false_iff.mpr hp
  rw [run_onThread, Thread.run_pushInPlace_of_not_contains (by rwa [settle_number]), settle_number]

theorem run_seatInPlace (hv : v.Aligned) (hp : p.number ∉ v.thread.numbers) :
    (seatInPlace p.number).run { v with thread := v.thread.extend (v.settle p) } =
      ((), v.seat p) := by
  have hopen := run_openRow_of_eq_none
    (v := { v with thread := v.thread.extend (v.settle p) }) (hv.row?_eq_none hp)
  have hrow : ((v.grow (v.settle p)).row? p.number).isSome = true := by
    rw [row?_grow_settle_self, Option.isSome_some]
  have hgrown : (v.grow (v.settle p)).HasRows :=
    (hv.grow (by rwa [settle_number])).hasRows
  rw [seatInPlace, run_bind_eq hopen, run_bind_eq (run_onThread _ _), seat_eq_decorate,
    ← run_decorateInPlace hgrown hrow, grow, Thread.receive, settle_number]
  rfl

/-- The writes of a merge come to the merged view. A refusal comes before all of them. -/
theorem run_insertInPlace (hv : v.Aligned) (a : Arrival) (atBottom : Bool) :
    (insertInPlace a atBottom).run v =
      if a.post.number ≠ a.number then (.error (.misplaced a.number a.post.number), v)
      else if v.thread.contains a.number then (.error (.refused (.duplicate a.number)), v)
      else (.ok ([.announce (.insertedPost a.number), .badge (v.seat a.post).badge] ++
        if atBottom then [.scrollTo .composer] else []), v.merge a.post) := by
  obtain ⟨n, p⟩ := a
  rw [insertInPlace]
  by_cases hnum : p.number = n
  · subst hnum
    rw [if_neg (not_not_intro rfl), if_neg (not_not_intro rfl), run_get_bind]
    cases hc : v.thread.contains p.number with
    | true =>
      have hpush : (onThread (Thread.pushInPlace (v.settle p))).run v =
          (.error (.duplicate p.number), v) := by
        rw [run_onThread, Thread.run_pushInPlace_of_contains (by rwa [settle_number]),
          settle_number]
      rw [run_bind_eq hpush, if_pos rfl]
      rfl
    | false =>
      have hp := hv.indexed.contains_eq_false_iff.mp hc
      have hfold : (v.seat p).fold = v.fold := fold_merge v p
      rw [run_bind_eq (run_onThread_pushInPlace hp hv.indexed), if_neg Bool.false_ne_true]
      dsimp only
      rw [run_bind_eq (run_seatInPlace hv hp), merge, ← hfold]
      rfl
  · rw [if_pos hnum, if_pos hnum]
    rfl

theorem run_arriveInPlace (v : View) (a : Arrival) (footer : Option Footer) :
    (arriveInPlace a footer).run v =
      match (insertInPlace a (footer.any v.atBottom)).run v with
      | (.ok effects, w) => ((effects, none), w)
      | (.error cause, w) => (([], some ⟨a.number, cause⟩), w) := by
  rw [arriveInPlace, run_get_bind]
  rcases hrun : (insertInPlace a (footer.any v.atBottom)).run v with ⟨result, w⟩
  rw [run_bind_eq hrun]
  cases result <;> rfl

/-! ## Merging in place is merging -/

theorem run_insertInPlace_eq_match (hv : v.Aligned) (a : Arrival) (atBottom : Bool) :
    (insertInPlace a atBottom).run v =
      match v.insert a atBottom with
      | .ok r => (.ok r.2, r.1)
      | .error cause => (.error cause, v) := by
  rw [run_insertInPlace hv, insert_eq]
  by_cases hnum : a.post.number ≠ a.number
  · rw [if_pos hnum, if_pos hnum]
  · rw [if_neg hnum, if_neg hnum]
    cases v.thread.contains a.number <;> rfl

theorem insert_eq_run (hv : v.Aligned) (a : Arrival) (atBottom : Bool) :
    v.insert a atBottom = ((insertInPlace a atBottom).run v).1.map fun effects =>
      (((insertInPlace a atBottom).run v).2, effects) := by
  rw [run_insertInPlace_eq_match hv]
  cases v.insert a atBottom <;> rfl

theorem call_insert_eq_run (hv : v.Aligned) (a : Arrival) (atBottom : Bool) :
    v.call (.insert a atBottom) = ((insertInPlace a atBottom).run v).2 := by
  rw [call, run_insertInPlace_eq_match hv]
  cases v.insert a atBottom <;> rfl

theorem dispatch_insert_eq_run (hv : v.Aligned) (a : Arrival) (footer : Option Footer) :
    v.dispatch (.insert a footer) =
      { view := ((arriveInPlace a footer).run v).2
        effects := ((arriveInPlace a footer).run v).1.1
        dropped := ((arriveInPlace a footer).run v).1.2 } := by
  rw [dispatch_insert_eq_perform, perform, run_arriveInPlace, run_insertInPlace_eq_match hv]
  cases v.insert a (footer.any v.atBottom) <;> rfl

/-- A refusal leaves the view as it was, and does not depend on where the page is scrolled to. -/
theorem run_insertInPlace_of_error (hv : v.Aligned) {a : Arrival} {atBottom : Bool}
    {cause : Rejection} {w : View} (h : (insertInPlace a atBottom).run v = (.error cause, w)) :
    w = v ∧ ∀ atBottom', (insertInPlace a atBottom').run v = (.error cause, v) := by
  rw [run_insertInPlace hv] at h
  by_cases hnum : a.post.number ≠ a.number
  · rw [if_pos hnum, Prod.mk.injEq, Except.error.injEq] at h
    obtain ⟨rfl, rfl⟩ := h
    exact ⟨rfl, fun _ => by rw [run_insertInPlace hv, if_pos hnum]⟩
  · rw [if_neg hnum] at h
    cases hc : v.thread.contains a.number with
    | true =>
      rw [hc, if_pos rfl, Prod.mk.injEq, Except.error.injEq] at h
      obtain ⟨rfl, rfl⟩ := h
      exact ⟨rfl, fun _ => by rw [run_insertInPlace hv, if_neg hnum, if_pos hc]⟩
    | false =>
      rw [hc, if_neg Bool.false_ne_true] at h
      cases h

/-- A live post is refused for a wrong number, and otherwise for a number that is
in use; then nothing has been written, and nothing is asked of the host. Any other
live post is merged: the view gets the footprint of the merge, and the host is to
announce the post, to show the badge as it is now, and to scroll to the composer
if the page was at its end. What is written in place is what a merge, a call and a
command make of the view. -/
theorem insert_refuses_or_merges (hv : Reachable v) (a : Arrival) (atBottom : Bool) :
    (a.post.number ≠ a.number →
      (insertInPlace a atBottom).run v = (.error (.misplaced a.number a.post.number), v)) ∧
    (a.post.number = a.number → a.number ∈ v.thread.numbers →
      (insertInPlace a atBottom).run v = (.error (.refused (.duplicate a.number)), v)) ∧
    (a.post.number = a.number → a.number ∉ v.thread.numbers →
      ∃ w, (insertInPlace a atBottom).run v =
          (.ok ([.announce (.insertedPost a.number), .badge w.badge] ++
            if atBottom then [.scrollTo .composer] else []), w) ∧
        v.Footprint a.post w) ∧
    (∀ cause w, (insertInPlace a atBottom).run v = (.error cause, w) →
      w = v ∧ ∀ footer, (arriveInPlace a footer).run v = (([], some ⟨a.number, cause⟩), v)) ∧
    (v.insert a atBottom = ((insertInPlace a atBottom).run v).1.map fun effects =>
      (((insertInPlace a atBottom).run v).2, effects)) ∧
    v.call (.insert a atBottom) = ((insertInPlace a atBottom).run v).2 ∧
    ∀ footer, v.dispatch (.insert a footer) =
      { view := ((arriveInPlace a footer).run v).2
        effects := ((arriveInPlace a footer).run v).1.1
        dropped := ((arriveInPlace a footer).run v).1.2 } := by
  have haligned := hv.aligned
  obtain ⟨s, hlinked⟩ := hv.linked
  have hrun := run_insertInPlace haligned a atBottom
  refine ⟨?_, ?_, ?_, ?_, insert_eq_run haligned a atBottom, call_insert_eq_run haligned a atBottom,
    dispatch_insert_eq_run haligned a⟩
  · intro hnum
    rw [hrun, if_pos hnum]
  · intro hnum hmem
    rw [hrun, if_neg (not_not_intro hnum), if_pos (haligned.indexed.contains_iff.mpr hmem)]
  · intro hnum hnew
    have hcontains := haligned.indexed.contains_eq_false_iff.mpr hnew
    refine ⟨v.merge a.post, ?_, footprint_merge haligned hlinked (hnum ▸ hnew)⟩
    rw [hrun, if_neg (not_not_intro hnum), if_neg (by simp [hcontains])]
    rfl
  · intro cause w hcause
    obtain ⟨hkept, hany⟩ := run_insertInPlace_of_error haligned hcause
    refine ⟨hkept, fun footer => ?_⟩
    rw [run_arriveInPlace, hany]

section

open Sample

/-- A thread of one post refuses its number and a misplaced post, and nothing has been
written then. A reply to the post is merged, for which the post is given the first color. -/
theorem insert_refuses_or_merges_single :
    Reachable (opened {} single) ∧
    (insertInPlace ⟨one, post two none⟩ true).run (opened {} single) =
      (.error (.misplaced one two), opened {} single) ∧
    (insertInPlace ⟨one, post one none⟩ true).run (opened {} single) =
      (.error (.refused (.duplicate one)), opened {} single) ∧
    (opened {} single).dispatch (.insert ⟨one, post one none⟩ none) =
      { view := opened {} single, effects := [],
        dropped := some ⟨one, .refused (.duplicate one)⟩ } ∧
    ∃ w, (insertInPlace ⟨two, post two (some one)⟩ true).run (opened {} single) =
        (.ok [.announce (.insertedPost two), .badge w.badge, .scrollTo .composer], w) ∧
      (opened {} single).Footprint (post two (some one)) w ∧
      w.wheel = (opened {} single).wheel.advance := by
  have hopened : Reachable (opened {} single) :=
    .opened (ofSnapshot_eq_ok_iff.mpr ⟨by decide, rfl⟩)
  have hmisplaced := (insert_refuses_or_merges hopened ⟨one, post two none⟩ true).1 (by decide)
  obtain ⟨-, hduplicate, -, hdropped, -, -, hdispatch⟩ :=
    insert_refuses_or_merges hopened ⟨one, post one none⟩ true
  have hrefused := hduplicate rfl (by decide)
  have hcommand := hdispatch none
  rw [(hdropped _ _ hrefused).2 none] at hcommand
  obtain ⟨w, hw, hfootprint⟩ :=
    (insert_refuses_or_merges hopened ⟨two, post two (some one)⟩ true).2.2.1 rfl (by decide)
  have hcolored : (post two (some one)).omission = false ∧
      ∃ m, ((opened {} single).entering (post two (some one))).parent = some m ∧
        (opened {} single).linkColor? m = none :=
    ⟨rfl, one, by decide, by decide⟩
  refine ⟨hopened, hmisplaced, hrefused, hcommand, w, hw, hfootprint, ?_⟩
  rw [hfootprint.wheel, if_pos hcolored]

end

end View

end Discussion
