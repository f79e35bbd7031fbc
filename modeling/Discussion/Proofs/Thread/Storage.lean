import Discussion.Proofs.Thread.Binding

/-!
# What a thread stores

A thread stores its posts as a list and two indexes over it, and a new post is written
to all three, one after the other. Whatever posts are added, refused ones among them, and
whatever replies are bound in between, the indexes say what the list says. The index of
replies also holds missing parents and posts that reply to themselves; they are left out
when it is read.
-/

namespace Discussion

namespace Thread

variable {t : Thread} {p : Post} {n m : PostNumber} {i : Nat}

/-! ## Writing in place -/

/-- Adding a post as one write after the other: to the index of replies, to that of
positions, and to the posts. A post whose number is in use is refused before the first
of them. -/
def pushInPlace (p : Post) : StateM Thread (Except ThreadError PostNumber) := do
  if (← get).contains p.number then return .error (.duplicate p.number)
  if let some parent := p.parent then
    modify fun t =>
      { t with replies := t.replies.insert parent (t.repliesTo parent ++ [p.number]) }
  modify fun t => { t with positions := t.positions.insert p.number t.entries.length }
  modify fun t => { t with entries := t.entries ++ [{ post := p }] }
  return .ok p.number

/-- An edit made in place. After a refusal the edits go on. -/
def Edit.inPlace : Edit → StateM Thread Unit
  | .push p => (fun _ => ()) <$> pushInPlace p
  | .bind reply => modify (·.bind reply)

theorem run_pushInPlace_of_not_contains (hp : t.contains p.number = false) :
    (pushInPlace p).run t = (.ok p.number, t.extend p) := by
  cases hparent : p.parent
  all_goals
    simp only [pushInPlace, hparent, bind_pure_comp, StateT.run_bind, StateT.run_get,
      pure_bind, hp, Bool.false_eq_true, if_false, StateT.run_modify, StateT.run_map, map_pure,
      Thread.extend]
    rfl

theorem run_pushInPlace_of_contains (hp : t.contains p.number = true) :
    (pushInPlace p).run t = (.error (.duplicate p.number), t) := by
  simp only [pushInPlace, StateT.run_bind, StateT.run_get, pure_bind, hp, if_true]
  rfl

theorem run_inPlace (t : Thread) (e : Edit) : e.inPlace.run t = ((), t.edit e) := by
  cases e with
  | push p =>
    rw [Edit.inPlace, StateT.run_map, edit]
    cases hp : t.contains p.number with
    | true =>
      rw [run_pushInPlace_of_contains hp, push_of_contains hp]
      rfl
    | false =>
      rw [run_pushInPlace_of_not_contains hp, push_of_not_contains hp]
      rfl
  | bind reply => rfl

theorem run_forM_inPlace (t : Thread) (es : List Edit) :
    (es.forM Edit.inPlace).run t = ((), t.editAll es) := by
  induction es generalizing t with
  | nil => rfl
  | cons e es ih =>
    rw [List.forM_eq_forM] at ih ⊢
    rw [List.forM_cons, StateT.run_bind, run_inPlace]
    exact ih (t.edit e)

/-! ## Stored positions -/

/-- Positions are stored of the posts that are there, in the order of their arrival. -/
theorem Built.keys_positions (h : t.Built) : t.positions.keys = t.numbers := by
  induction h with
  | blank slug locked viewMarker => rfl
  | @edit t _ e ih =>
    cases e with
    | push p =>
      rcases edit_push_cases t p with heq | ⟨hp, heq⟩
      · rw [heq, ih]
      · rw [heq, numbers_extend, Thread.extend, PostMap.keys_insert_of_not_contains hp, ih]
    | bind reply => rw [Thread.edit, positions_bind, numbers_bind, ih]

/-- Where a position is stored, there is the post. -/
theorem Indexed.exists_entry_of_position (h : t.Indexed) (hi : t.positions.get? n = some i) :
    ∃ e, t.entries[i]? = some e ∧ e.post.number = n := by
  have hn := (h.positions n i).mp hi
  rw [numbers, List.getElem?_map] at hn
  exact Option.map_eq_some_iff.mp hn

theorem Indexed.exists_position_of_target (h : t.Indexed) (hm : t.target? n = some m) :
    ∃ i e, t.positions.get? m = some i ∧ t.entries[i]? = some e ∧ e.post.number = m := by
  obtain ⟨i, hi⟩ := h.exists_position (h.target?_mem hm)
  obtain ⟨e, he, hnumber⟩ := h.exists_entry_of_position hi
  exact ⟨i, e, hi, he, hnumber⟩

/-! ## The whole of it -/

/-- What a thread stores in its two indexes, and what is read from them, is what its
posts say. -/
structure RepresentsPosts (t : Thread) : Prop where
  /-- No two posts have one number. -/
  nodup : t.numbers.Nodup
  /-- The positions of the posts are stored, and of nothing else. -/
  keys : t.positions.keys = t.numbers
  position : ∀ n i, t.positions.get? n = some i ↔ t.numbers[i]? = some n
  /-- A look-up by number gives the post with this number, if it is there. -/
  get? : ∀ n e, t.get? n = some e ↔ e ∈ t.entries ∧ e.post.number = n
  present : ∀ n, (t.get? n).isSome = true ↔ n ∈ t.numbers
  /-- At every stored position there is an entry, and it is the right one. -/
  stored : ∀ n i, t.positions.get? n = some i →
    ∃ e, t.entries[i]? = some e ∧ e.post.number = n
  /-- Every target has a position, and there is its entry. -/
  resolved : ∀ n m, t.target? n = some m →
    ∃ i e, t.positions.get? m = some i ∧ t.entries[i]? = some e ∧ e.post.number = m
  /-- Stored under a number are all posts that name it as their parent. The number may be
  missing, and a post may name itself. -/
  replies : ∀ n, t.repliesTo n = (t.posts.filter (·.parent = some n)).map (·.number)
  /-- The children of a post are those that reply to it, in the order of arrival. -/
  children : ∀ n ∈ t.numbers, t.children n = t.numbers.filter fun r => t.target? r = some n
  /-- A post with a number in use is refused, and then nothing has been written. -/
  push : ∀ p, (pushInPlace p).run t =
    if p.number ∈ t.numbers then (.error (.duplicate p.number), t)
    else (.ok p.number, t.edit (.push p))

theorem Indexed.run_pushInPlace (h : t.Indexed) (p : Post) :
    (pushInPlace p).run t =
      if p.number ∈ t.numbers then (.error (.duplicate p.number), t)
      else (.ok p.number, t.edit (.push p)) := by
  split
  · rename_i hp
    exact run_pushInPlace_of_contains (h.contains_iff.mpr hp)
  · rename_i hp
    have hcontains := h.contains_eq_false_iff.mpr hp
    rw [run_pushInPlace_of_not_contains hcontains, Thread.edit, push_of_not_contains hcontains]

/-- Whatever posts are added in place, refused ones among them, and whatever replies are
bound in between, the indexes of the thread represent its posts. -/
theorem indexes_represent_posts (slug : Slug) (locked : Bool) (viewMarker : UInt64)
    (es : List Edit) :
    ((es.forM Edit.inPlace).run { slug, locked, viewMarker }).2.RepresentsPosts := by
  rw [run_forM_inPlace]
  have hbuilt := (Built.blank slug locked viewMarker).editAll es
  have hindexed := hbuilt.indexed
  exact {
    nodup := hindexed.nodup
    keys := hbuilt.keys_positions
    position := hindexed.positions
    get? := fun _ _ => hindexed.get?_eq_some_iff
    present := fun _ => hindexed.get?_isSome_iff
    stored := fun _ _ => hindexed.exists_entry_of_position
    resolved := fun _ _ => hindexed.exists_position_of_target
    replies := hindexed.replies
    children := fun _ => hindexed.children_eq
    push := hindexed.run_pushInPlace }

section

open Sample

/-- A post that replies to itself, one whose parent is missing and then arrives, and one
that is refused. -/
def crossing : List Edit :=
  [.push (post one (some one)), .push (post two (some three)), .bind two,
    .push (post one none), .push (post three (some one)), .bind two]

/-- The reply to itself is stored and not read, the reply to the missing post is read once
its parent is there, and a second post with a number in use leaves no trace. -/
theorem indexes_represent_posts_crossing :
    ∃ t, (crossing.forM Edit.inPlace).run { slug := (snapshot []).slug } = ((), t) ∧
      t.RepresentsPosts ∧ t.numbers = [one, two, three] ∧
      t.repliesTo one = [one, three] ∧ t.children one = [three] ∧ t.children three = [two] ∧
      (∃ i e, t.positions.get? three = some i ∧ t.entries[i]? = some e ∧
        e.post.number = three) ∧
      (pushInPlace (post two (some one))).run t = (.error (.duplicate two), t) := by
  have hrun := run_forM_inPlace { slug := (snapshot []).slug } crossing
  have hrepresents := indexes_represent_posts (snapshot []).slug false 0 crossing
  rw [hrun] at hrepresents
  refine ⟨_, hrun, hrepresents, by decide, by decide, ?_, ?_, ?_, ?_⟩
  · rw [hrepresents.children one (by decide)]
    decide
  · rw [hrepresents.children three (by decide)]
    decide
  · exact hrepresents.resolved two three (by decide)
  · rw [hrepresents.push, if_pos (by decide)]
    rfl

end

end Thread

end Discussion
