import Discussion.Proofs.View.Decoration
import Discussion.Proofs.View.Links
import Discussion.Proofs.View.Loading

/-!
# The footprint of a live post

The merge of a live post adds one entry and one row. Of what was there, it writes
to the entry of the post's parent, which gains a link, and to the row of the
parent, which gains a color if it had none; all other entries and rows stay as
they are.
-/

namespace Discussion

namespace View

variable {v w : View} {p : Post} {n m k : PostNumber}

/-- The post as it enters the thread: without its parent, if this is the post
itself or missing. -/
def entering (v : View) (p : Post) : Post :=
  { p with parent := p.parent.filter fun m => m ≠ p.number ∧ m ∈ v.thread.numbers }

/-- The row with which a merged post begins. -/
def arrivalRow (v : View) (p : Post) : Row :=
  let kept := (v.entering p).parent.any v.keeps
  { highlight := match (v.entering p).parent with
      | none => {}
      | some m => if p.omission then {} else ({} : Highlight).colorize .target (v.colorFor m)
    mark := ⟨v.fold.isSome && kept, false⟩
    hidden := v.fold.isSome && !kept
    bound := !p.omission }

/-- The view `w` differs from `v` in what the merge of `p` has to write, and in
nothing else. -/
structure Footprint (v : View) (p : Post) (w : View) : Prop where
  /-- The post comes last, and its parent gains the link back to it. -/
  entries : w.thread.entries =
    (v.thread.entries.map fun e =>
      if (v.entering p).parent = some e.post.number then
        { e with links := e.links ++ [p.number] }
      else e) ++ [{ post := v.entering p }]
  indexed : w.thread.Indexed
  slug : w.thread.slug = v.thread.slug
  locked : w.thread.locked = v.thread.locked
  viewMarker : w.thread.viewMarker = v.thread.viewMarker
  keys : w.rows.keys = v.rows.keys ++ [p.number]
  /-- A parent without a color gets the next one; every other row stays. -/
  rows : ∀ n row, v.row? n = some row → w.row? n = some
    (if p.omission = false ∧ (v.entering p).parent = some n ∧ row.linkColor = none then
      { row with
        linkColor := some v.wheel.next
        highlight := { row.highlight with
          number := { row.highlight.number with
            accent := some v.wheel.next
            base := .filled v.wheel.next } } }
    else row)
  arrival : w.row? p.number = some (v.arrivalRow p)
  /-- The sequence of colors moves on only if a color was taken. -/
  wheel : w.wheel =
    if p.omission = false ∧ ∃ m, (v.entering p).parent = some m ∧ v.linkColor? m = none then
      v.wheel.advance
    else v.wheel
  settings : w.settings = v.settings
  fold : w.fold = v.fold
  page : w.page = v.page
  identity : w.identity = v.identity

theorem settle_eq_entering (h : v.thread.Indexed) (p : Post) : v.settle p = v.entering p := by
  have hcond : ∀ m, (m = p.number ∨ v.thread.contains m = false) ↔
      ¬ (m ≠ p.number ∧ m ∈ v.thread.numbers) := by
    intro m
    rw [h.contains_eq_false_iff, not_and_or, not_not]
  rw [settle, entering]
  split
  · rename_i hparent
    rw [hparent, Option.filter_none, ← hparent]
  · rename_i m hparent
    rw [hparent, if_congr (hcond m) rfl rfl, Option.filter_some]
    by_cases hm : m ≠ p.number ∧ m ∈ v.thread.numbers
    · rw [if_neg (not_not_intro hm), if_pos (decide_eq_true hm), ← hparent]
    · rw [if_pos hm, if_neg (by simpa using hm)]

/-! ## Seating the post -/

theorem settle_omission (v : View) (p : Post) : (v.settle p).omission = p.omission := by
  rw [settle]
  split
  · rfl
  · split <;> rfl

/-- A post is seated by decorating the bare row that it brings. -/
theorem seat_eq_decorate (v : View) (p : Post) :
    v.seat p = (v.grow (v.settle p)).decorate p.number := by
  rw [seat, grow, settle_number]

theorem row?_grow_settle_self (v : View) (p : Post) :
    (v.grow (v.settle p)).row? p.number = some {} := by
  have hself := row?_grow_self v (v.settle p)
  rwa [settle_number] at hself

theorem colorFor_grow (hm : m ≠ p.number) : (v.grow p).colorFor m = v.colorFor m := by
  rw [colorFor, linkColor?_grow hm]
  rfl

section

variable (h : v.thread.Indexed) (hp : p.number ∉ v.thread.numbers)

include h hp

theorem get?_grow_settle :
    (v.grow (v.settle p)).thread.get? p.number = some { post := v.settle p } := by
  have hself := h.get?_receive_self (p := v.settle p) (by rwa [settle_number])
  rwa [settle_number] at hself

theorem target?_grow_settle :
    (v.grow (v.settle p)).thread.target? p.number = (v.settle p).parent := by
  have htarget := h.target?_receive_self (p := v.settle p) (by rwa [settle_number])
    (settled_settle h p)
  rwa [settle_number] at htarget

theorem indexed_grow_settle : (v.grow (v.settle p)).thread.Indexed :=
  h.receive (by rwa [settle_number])

/-- Seating a post gives its parent a color if it had none, and leaves the other
rows as they are. -/
theorem row?_seat_of_ne (hk : k ≠ p.number) :
    (v.seat p).row? k = (v.row? k).map fun row =>
      if p.omission = false ∧ (v.settle p).parent = some k ∧ row.linkColor = none then
        row.tint v.wheel.next
      else row := by
  have hget := get?_grow_settle h hp
  have hgrow : (v.grow (v.settle p)).row? k = v.row? k :=
    row?_grow (by rwa [settle_number])
  rw [seat_eq_decorate]
  cases homission : p.omission with
  | true =>
    rw [decorate_of_left hget (Or.inr ((settle_omission v p).trans homission)), hgrow]
    simp
  | false =>
    rw [row?_decorate_of_bare (indexed_grow_settle h hp) hget
      (isBound_of_row? (row?_grow_settle_self v p))
      ((settle_omission v p).trans homission), hgrow, target?_grow_settle h hp]
    simp only [if_neg hk, true_and]
    rfl

theorem row?_seat_self :
    (v.seat p).row? p.number = some
      { highlight := match (v.settle p).parent with
          | none => {}
          | some m =>
            if p.omission then {} else ({} : Highlight).colorize .target (v.colorFor m)
        bound := !p.omission } := by
  have hget := get?_grow_settle h hp
  rw [seat_eq_decorate]
  cases homission : p.omission with
  | true =>
    rw [decorate_of_left hget (Or.inr ((settle_omission v p).trans homission)),
      row?_grow_settle_self v p]
    cases (v.settle p).parent <;> rfl
  | false =>
    rw [row?_decorate_of_bare (indexed_grow_settle h hp) hget
      (isBound_of_row? (row?_grow_settle_self v p))
      ((settle_omission v p).trans homission), row?_grow_settle_self v p,
      Option.map_some, if_pos rfl, boundRow, target?_grow_settle h hp]
    cases hparent : (v.settle p).parent with
    | none => rfl
    | some m =>
      have hm : m ≠ (v.settle p).number := (settled_settle h p m hparent).1
      dsimp only
      rw [colorFor_grow hm]
      rfl

theorem wheel_seat :
    (v.seat p).wheel =
      if p.omission = false ∧ ∃ m, (v.settle p).parent = some m ∧ v.linkColor? m = none then
        v.wheel.advance
      else v.wheel := by
  have hget := get?_grow_settle h hp
  rw [seat_eq_decorate]
  cases homission : p.omission with
  | true =>
    rw [decorate_of_left hget (Or.inr ((settle_omission v p).trans homission))]
    simp [grow]
  | false =>
    rw [wheel_decorate_of_bare (indexed_grow_settle h hp) hget
      (isBound_of_row? (row?_grow_settle_self v p))
      ((settle_omission v p).trans homission), target?_grow_settle h hp]
    have hlink : ∀ m, (v.settle p).parent = some m →
        (v.grow (v.settle p)).linkColor? m = v.linkColor? m :=
      fun m hm => linkColor?_grow (settled_settle h p m hm).1
    have hcond : (∃ m, (v.settle p).parent = some m ∧
          (v.grow (v.settle p)).linkColor? m = none) ↔
        false = false ∧ ∃ m, (v.settle p).parent = some m ∧ v.linkColor? m = none := by
      rw [eq_self_iff_true, true_and]
      apply exists_congr
      intro m
      apply and_congr_right
      intro hm
      rw [hlink m hm]
    rw [if_congr hcond rfl rfl]
    rfl

/-- The fold has the last word on the new row. -/
theorem row?_merge_self : (v.merge p).row? p.number = some (v.arrivalRow p) := by
  rw [merge]
  dsimp only
  rw [row?_modifyRow, if_pos rfl, row?_seat_self h hp, Option.map_some, hidesArrival_seat h hp,
    settle_eq_entering h, arrivalRow]
  cases v.fold.isSome <;> simp

theorem row?_merge_of_ne (hk : k ≠ p.number) :
    (v.merge p).row? k = (v.row? k).map fun row =>
      if p.omission = false ∧ (v.settle p).parent = some k ∧ row.linkColor = none then
        row.tint v.wheel.next
      else row := by
  rw [← row?_seat_of_ne h hp hk, merge]
  dsimp only
  rw [row?_modifyRow, if_neg hk]

/-- An old row is left or tinted by a merge. -/
theorem exists_row_of_merge (hk : k ≠ p.number) {row : Row}
    (hrow : (v.merge p).row? k = some row) :
    ∃ old, v.row? k = some old ∧ (row = old.tint v.wheel.next ∨ row = old) := by
  rw [row?_merge_of_ne h hp hk, Option.map_eq_some_iff] at hrow
  obtain ⟨old, hold, rfl⟩ := hrow
  refine ⟨old, hold, ?_⟩
  split
  · exact Or.inl rfl
  · exact Or.inr rfl

theorem settings_merge : (v.merge p).settings = v.settings := by
  change (v.seat p).settings = v.settings
  rw [seat_eq_decorate]
  exact settings_decorate (indexed_grow_settle h hp) p.number

theorem identity_merge : (v.merge p).identity = v.identity := by
  change (v.seat p).identity = v.identity
  rw [seat_eq_decorate]
  exact identity_decorate (indexed_grow_settle h hp) p.number

end

/-- A merge gives the parent a color if it had none, and changes no other color. -/
theorem linkColor?_merge (hv : v.Aligned) (hp : p.number ∉ v.thread.numbers) (k : PostNumber) :
    (v.merge p).linkColor? k =
      if p.omission = false ∧ (v.settle p).parent = some k ∧ v.linkColor? k = none then
        some v.wheel.next
      else v.linkColor? k := by
  have hsettled := settled_settle hv.indexed p
  by_cases hk : k = p.number
  · subst hk
    have hself : (v.settle p).parent ≠ some p.number := by
      intro hparent
      exact (hsettled _ hparent).1 (settle_number v p).symm
    rw [linkColor?_of_row? (row?_merge_self hv.indexed hp), if_neg (fun h => hself h.2.1),
      linkColor?, hv.row?_eq_none hp]
    rfl
  · have hrow : p.omission = false ∧ (v.settle p).parent = some k → v.row? k ≠ none := by
      rintro ⟨-, hparent⟩
      obtain ⟨row, hsome⟩ := hv.exists_row (hsettled k hparent).2
      simp [hsome]
    simp only [← and_assoc]
    refine linkColor?_eq_ite (row?_merge_of_ne hv.indexed hp hk) ?_ hrow
    intro row
    simp only [and_assoc]
    split <;> rfl

/-! ## The merged view -/

theorem footprint_merge (hv : v.Aligned) {s : Snapshot} (hlinked : Thread.Linked s v.thread)
    (hp : p.number ∉ v.thread.numbers) : v.Footprint p (v.merge p) := by
  have h := hv.indexed
  have hsettle := settle_eq_entering h p
  have hentering : (v.entering p).number ∉ v.thread.numbers := hp
  have hsettled : v.thread.Settled (v.entering p) := hsettle ▸ settled_settle h p
  have hthread : (v.merge p).thread = v.thread.receive (v.entering p) := by
    rw [thread_merge, hsettle]
  have hbind := Thread.bind_eq_with_entries (v.thread.extend (v.entering p))
    (v.entering p).number
  refine ⟨?_, ?_, ?_, ?_, ?_, ?_, ?_, row?_merge_self h hp, ?_, ?_, fold_merge v p,
    page_merge v p, ?_⟩
  · rw [hthread]
    exact hlinked.entries_receive hentering hsettled
  · rw [hthread]
    exact h.receive hentering
  · rw [hthread, Thread.receive, hbind]
    rfl
  · rw [hthread, Thread.receive, hbind]
    rfl
  · rw [hthread, Thread.receive, hbind]
    rfl
  · exact keys_merge (hv.keys ▸ hp)
  · intro n row hrow
    have hn : n ≠ p.number := by
      rintro rfl
      exact hp (hv.mem_of_row? hrow)
    rw [row?_merge_of_ne h hp hn, hrow, Option.map_some, hsettle]
    rfl
  · rw [← hsettle]
    exact wheel_seat h hp
  · exact settings_merge h hp
  · exact identity_merge h hp

end View

end Discussion
