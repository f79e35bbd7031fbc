import Discussion.Proofs.Thread.Index

/-!
# Growing threads

What the two operations on a thread do to it. Adding a post puts it at the end
of the list and keeps every other entry; binding a reply changes the links of
one entry and nothing else. Both keep a thread indexed.
-/

namespace Discussion

namespace Thread

variable {t u : Thread} {p : Post} {n m r : PostNumber}

/-- The thread with one more post at its end. -/
def extend (t : Thread) (p : Post) : Thread :=
  { t with
    entries := t.entries ++ [{ post := p }]
    positions := t.positions.insert p.number t.entries.length
    replies := match p.parent with
      | none => t.replies
      | some parent => t.replies.insert parent (t.repliesTo parent ++ [p.number]) }

theorem push_of_contains (h : t.contains p.number = true) :
    t.push p = .error (.duplicate p.number) := by
  rw [push, if_pos h]

theorem push_of_not_contains (h : t.contains p.number = false) : t.push p = .ok (t.extend p) := by
  rw [push, if_neg (by simp [h])]
  rfl

/-! ## Adding a post -/

@[simp]
theorem posts_extend (t : Thread) (p : Post) : (t.extend p).posts = t.posts ++ [p] := by
  simp [extend, posts]

@[simp]
theorem numbers_extend (t : Thread) (p : Post) :
    (t.extend p).numbers = t.numbers ++ [p.number] := by
  simp [numbers_eq]

theorem names_extend :
    (t.extend p).Names n m ↔ t.Names n m ∨ (p.number = n ∧ p.parent = some m) := by
  simp [Names, or_and_right, exists_or]

theorem repliesTo_extend (t : Thread) (p : Post) (n : PostNumber) :
    (t.extend p).repliesTo n =
      if p.parent = some n then t.repliesTo n ++ [p.number] else t.repliesTo n := by
  rw [repliesTo]
  cases hparent : p.parent with
  | none => simp [extend, hparent, repliesTo]
  | some parent =>
    simp only [extend, hparent, PostMap.get?_insert, Option.some.injEq]
    by_cases h : n = parent
    · simp [h]
    · simp [h, Ne.symm h, repliesTo]

theorem Indexed.extend (h : t.Indexed) (hp : p.number ∉ t.numbers) :
    (t.extend p).Indexed where
  nodup := by
    rw [numbers_extend, List.nodup_append]
    refine ⟨h.nodup, List.nodup_singleton _, ?_⟩
    rintro a ha b hb rfl
    exact hp (List.mem_singleton.mp hb ▸ ha)
  positions := by
    intro n i
    have hlen : t.numbers.length = t.entries.length := by simp [numbers]
    rw [numbers_extend, Thread.extend, PostMap.get?_insert]
    by_cases hn : n = p.number
    · subst hn
      have hbefore : i < t.numbers.length → t.numbers[i]? ≠ some p.number :=
        fun _ hi => hp (List.mem_of_getElem? hi)
      rw [if_pos rfl, List.getElem?_append]
      split
      · rename_i hi
        simp only [Option.some.injEq, hbefore hi, iff_false]
        omega
      · rename_i hi
        rw [List.getElem?_singleton]
        split
        · simp only [Option.some.injEq, iff_true]
          omega
        · simp only [Option.some.injEq, reduceCtorEq, iff_false]
          omega
    · rw [if_neg hn, h.positions, List.getElem?_append]
      split
      · rfl
      · rename_i hi
        rw [List.getElem?_eq_none (Nat.le_of_not_lt hi), List.getElem?_singleton]
        split <;> simp [Ne.symm hn]
  replies := by
    intro n
    rw [repliesTo_extend, h.replies, posts_extend, List.filter_append, List.map_append]
    by_cases hn : p.parent = some n
    · simp [hn]
    · simp [hn]

/-- A new post has an entry without links; every other entry stays. -/
theorem Indexed.get?_extend (h : t.Indexed) (hp : p.number ∉ t.numbers) (n : PostNumber) :
    (t.extend p).get? n = if n = p.number then some { post := p } else t.get? n := by
  apply Option.ext
  intro e
  rw [(h.extend hp).get?_eq_some_iff]
  by_cases hn : n = p.number
  · subst hn
    rw [if_pos rfl]
    constructor
    · rintro ⟨he, hnum⟩
      rcases List.mem_append.mp he with he | he
      · exact absurd (List.mem_map.mpr ⟨e, he, hnum⟩) hp
      · rw [List.mem_singleton.mp he]
    · rintro ⟨⟩
      exact ⟨List.mem_append_right _ (List.mem_singleton_self _), rfl⟩
  · rw [if_neg hn, h.get?_eq_some_iff]
    constructor
    · rintro ⟨he, hnum⟩
      rcases List.mem_append.mp he with he | he
      · exact ⟨he, hnum⟩
      · rw [List.mem_singleton.mp he] at hnum
        exact absurd hnum.symm hn
    · rintro ⟨he, hnum⟩
      exact ⟨List.mem_append_left _ he, hnum⟩

theorem Indexed.linksOf_extend (h : t.Indexed) (hp : p.number ∉ t.numbers) (n : PostNumber) :
    (t.extend p).linksOf n = if n = p.number then [] else t.linksOf n := by
  rw [linksOf, h.get?_extend hp]
  by_cases hn : n = p.number
  · simp [hn]
  · simp [hn, linksOf]

/-! ## Binding a reply -/

/-- Binding changes nothing but entries. -/
theorem bind_eq_with_entries (t : Thread) (r : PostNumber) :
    t.bind r = { t with entries := (t.bind r).entries } := by
  rw [bind]
  split
  · rfl
  · split <;> rfl

@[simp]
theorem positions_bind (t : Thread) (r : PostNumber) : (t.bind r).positions = t.positions := by
  rw [bind_eq_with_entries]

@[simp]
theorem replies_bind (t : Thread) (r : PostNumber) : (t.bind r).replies = t.replies := by
  rw [bind_eq_with_entries]

@[simp]
theorem post_link (e : Entry) (r : PostNumber) : (e.link r).post = e.post := by
  rw [Entry.link]
  split <;> rfl

@[simp]
theorem posts_bind (t : Thread) (r : PostNumber) : (t.bind r).posts = t.posts := by
  rw [bind]
  split
  · rfl
  · split
    · rfl
    · apply List.ext_getElem?
      intro i
      simp only [posts, List.getElem?_map, List.getElem?_modify]
      split <;> simp [Function.comp_def]

@[simp]
theorem numbers_bind (t : Thread) (r : PostNumber) : (t.bind r).numbers = t.numbers := by
  rw [numbers_eq, numbers_eq, posts_bind]

@[simp]
theorem contains_bind (t : Thread) (r n : PostNumber) :
    (t.bind r).contains n = t.contains n := by
  rw [contains, contains, positions_bind]

@[simp]
theorem repliesTo_bind (t : Thread) (r n : PostNumber) :
    (t.bind r).repliesTo n = t.repliesTo n := by
  rw [repliesTo, repliesTo, replies_bind]

@[simp]
theorem names_bind (t : Thread) (r : PostNumber) :
    (t.bind r).Names n m ↔ t.Names n m := by
  rw [Names, Names, posts_bind]

@[simp]
theorem children_bind (t : Thread) (r n : PostNumber) :
    (t.bind r).children n = t.children n := by
  simp [children]

theorem Indexed.bind (h : t.Indexed) (r : PostNumber) : (t.bind r).Indexed where
  nodup := by
    rw [numbers_bind]
    exact h.nodup
  positions := by
    intro n i
    rw [positions_bind, numbers_bind]
    exact h.positions n i
  replies := by
    intro n
    rw [repliesTo_bind, posts_bind]
    exact h.replies n

/-- Binding a reply links it into the entry of its target. -/
theorem Indexed.get?_bind (h : t.Indexed) (r n : PostNumber) :
    (t.bind r).get? n =
      (t.get? n).map fun e => if t.target? r = some n then e.link r else e := by
  cases htarget : t.target? r with
  | none => simp [Thread.bind, htarget]
  | some m =>
    obtain ⟨i, hi⟩ := h.exists_position (h.target?_mem htarget)
    have hbind : t.bind r = { t with entries := t.entries.modify i (·.link r) } := by
      simp [Thread.bind, htarget, hi]
    rw [hbind]
    simp only [Thread.get?, Option.bind_eq_bind, Option.some.injEq]
    cases hj : t.positions.get? n with
    | none => rfl
    | some j =>
      have hij : i = j ↔ m = n := by
        constructor
        · rintro rfl
          exact Option.some.inj (((h.positions m i).mp hi).symm.trans ((h.positions n i).mp hj))
        · rintro rfl
          exact Option.some.inj (hi.symm.trans hj)
      simp only [Option.bind_some, List.getElem?_modify, hij]
      rfl

/-- Binding a reply changes no entry but that of its target. -/
theorem Indexed.entries_bind (h : t.Indexed) (r : PostNumber) :
    (t.bind r).entries =
      t.entries.map fun e => if t.target? r = some e.post.number then e.link r else e := by
  cases htarget : t.target? r with
  | none => simp [Thread.bind, htarget]
  | some m =>
    obtain ⟨i, hi⟩ := h.exists_position (h.target?_mem htarget)
    have hm := (h.positions m i).mp hi
    rw [Thread.bind, htarget]
    dsimp only
    rw [hi]
    apply List.ext_getElem?
    intro j
    rw [List.getElem?_modify, List.getElem?_map]
    cases he : t.entries[j]? with
    | none => rfl
    | some e =>
      have hj : t.numbers[j]? = some e.post.number := by simp [numbers, he]
      have hij : i = j ↔ m = e.post.number := by
        constructor
        · rintro rfl
          exact Option.some.inj (hm.symm.trans hj)
        · rintro rfl
          exact Option.some.inj (hi.symm.trans ((h.positions _ j).mpr hj))
      simp only [Option.map_some, Option.some.injEq, hij]
      rfl

@[simp]
theorem Indexed.target?_bind (h : t.Indexed) (r n : PostNumber) :
    (t.bind r).target? n = t.target? n := by
  apply Option.ext
  intro m
  rw [(h.bind r).target?_eq_some_iff, h.target?_eq_some_iff, names_bind, numbers_bind]

/-- A reply is linked into the entry of its target, if it is not linked there yet. -/
theorem Indexed.linksOf_bind (h : t.Indexed) (r n : PostNumber) :
    (t.bind r).linksOf n =
      if t.target? r = some n ∧ r ∉ t.linksOf n then t.linksOf n ++ [r] else t.linksOf n := by
  rw [linksOf, h.get?_bind]
  cases he : t.get? n with
  | none =>
    have hnone : t.target? r ≠ some n := by
      intro htarget
      have hsome := h.get?_isSome_iff.mpr (h.target?_mem htarget)
      simp [he] at hsome
    simp [hnone, linksOf, he]
  | some e =>
    have hlinks : t.linksOf n = e.links := by simp [linksOf, he]
    by_cases htarget : t.target? r = some n
    · by_cases hr : r ∈ e.links
      · simp [htarget, hlinks, Entry.link, hr]
      · simp [htarget, hlinks, Entry.link, hr]
    · simp [htarget, hlinks]

theorem Indexed.linksOf_bind_of_not_mem (h : t.Indexed) (r : PostNumber) (hr : r ∉ t.linksOf n) :
    (t.bind r).linksOf n =
      if t.target? r = some n then t.linksOf n ++ [r] else t.linksOf n := by
  simp only [h.linksOf_bind, hr, not_false_eq_true, and_true]

end Thread

end Discussion
