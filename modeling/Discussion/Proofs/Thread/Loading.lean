import Discussion.Proofs.Thread.Arrival
import Discussion.Proofs.Thread.Opening

/-!
# Loading posts one by one

Opening a thread adds all posts of the snapshot before it binds the first of
them; a thread that receives a post adds and binds it at once. A binding writes
to the entry of a target alone, and a post that comes later is nobody's target
if parents come first. So the two orders give the same thread, with its entries,
links and indexes.
-/

namespace Discussion

theorem modify_append_of_lt {α : Type} (f : α → α) {xs : List α} {i : Nat} (ys : List α)
    (hi : i < xs.length) : (xs ++ ys).modify i f = xs.modify i f ++ ys := by
  induction xs generalizing i with
  | nil => simp at hi
  | cons x xs ih =>
    cases i with
    | zero => rfl
    | succ i =>
      have hrest := ih (i := i) (Nat.lt_of_succ_lt_succ hi)
      simp [hrest]

/-- Every post of the list that has a parent comes after it. -/
def ParentsFirst (posts : List Post) : Prop :=
  ∀ i (h : i < posts.length), ∀ m ∈ posts[i].parent, m ∈ (posts.take i).map (·.number)

instance (posts : List Post) : Decidable (ParentsFirst posts) :=
  inferInstanceAs (Decidable (∀ i (h : i < posts.length), ∀ m ∈ posts[i].parent,
    m ∈ (posts.take i).map (·.number)))

namespace ParentsFirst

variable {first rest : List Post} {p q : Post} {m : PostNumber}

theorem of_append (h : ParentsFirst (first ++ rest)) : ParentsFirst first := by
  intro i hi m hm
  have hlength : i < (first ++ rest).length := by
    rw [List.length_append]
    omega
  have hparent := h i hlength m
  rw [List.getElem_append_left hi, List.take_append_of_le_length (Nat.le_of_lt hi)] at hparent
  exact hparent hm

/-- The parent of the next post is among the posts before it. -/
theorem parent_mem (h : ParentsFirst (first ++ p :: rest)) (hm : p.parent = some m) :
    m ∈ first.map (·.number) := by
  have hlength : first.length < (first ++ p :: rest).length := by simp
  have hparent := h first.length hlength m
  rw [List.getElem_append_right (Nat.le_refl _), List.take_left] at hparent
  simp only [Nat.sub_self, List.getElem_cons_zero] at hparent
  exact hparent hm

/-- A list with parents first has the parents of all its posts. -/
theorem mem_of_parent (h : ParentsFirst first) (hq : q ∈ first) (hm : q.parent = some m) :
    m ∈ first.map (·.number) := by
  obtain ⟨i, hi, rfl⟩ := List.getElem_of_mem hq
  have hmem := h i hi m hm
  rw [List.map_take] at hmem
  exact List.mem_of_mem_take hmem

end ParentsFirst

/-- The next post has a number of its own. -/
theorem nodup_numbers_append_iff {posts : List Post} {p : Post} :
    ((posts ++ [p]).map (·.number)).Nodup ↔
      (posts.map (·.number)).Nodup ∧ p.number ∉ posts.map (·.number) := by
  rw [List.map_append, List.map_singleton, List.nodup_append]
  constructor
  · rintro ⟨hnodup, -, hne⟩
    refine ⟨hnodup, ?_⟩
    intro hmem
    exact hne _ hmem p.number (List.mem_singleton_self _) rfl
  · rintro ⟨hnodup, hp⟩
    refine ⟨hnodup, List.nodup_singleton _, ?_⟩
    rintro n hn k hk rfl
    exact hp (List.mem_singleton.mp hk ▸ hn)

namespace Thread

variable {t : Thread} {p : Post} {s : Snapshot} {n m r : PostNumber}

/-- A post that nobody names is no new target. -/
theorem Indexed.target?_extend (h : t.Indexed) (hp : p.number ∉ t.numbers)
    (hn : n ≠ p.number) (hnames : ¬ t.Names n p.number) :
    (t.extend p).target? n = t.target? n := by
  apply Option.ext
  intro m
  rw [(h.extend hp).target?_eq_some_iff, h.target?_eq_some_iff, names_extend, numbers_extend,
    List.mem_append, List.mem_singleton]
  constructor
  · rintro ⟨hm | ⟨heq, -⟩, hne, hmem⟩
    · refine ⟨hm, hne, hmem.resolve_right ?_⟩
      rintro rfl
      exact hnames hm
    · exact absurd heq.symm hn
  · rintro ⟨hm, hne, hmem⟩
    exact ⟨Or.inl hm, hne, Or.inl hmem⟩

/-- A post that nobody names can be added before or after a binding. -/
theorem Indexed.extend_bind (h : t.Indexed) (hp : p.number ∉ t.numbers) (hr : r ≠ p.number)
    (hnames : ¬ t.Names r p.number) : (t.bind r).extend p = (t.extend p).bind r := by
  have htarget := h.target?_extend hp hr hnames
  cases hm : t.target? r with
  | none => simp [Thread.bind, htarget, hm]
  | some m =>
    obtain ⟨i, hi⟩ : ∃ i, t.positions.get? m = some i :=
      Option.isSome_iff_exists.mp (h.contains_iff.mpr (h.target?_mem hm))
    have hmp : m ≠ p.number := fun heq => hp (heq ▸ h.target?_mem hm)
    have hlength : i < t.entries.length := by
      have hget := List.getElem?_eq_some_iff.mp ((h.positions m i).mp hi)
      simpa [numbers] using hget.1
    have hposition : (t.extend p).positions.get? m = some i := by
      rw [Thread.extend, PostMap.get?_insert, if_neg hmp, hi]
    have hbefore : t.bind r = { t with entries := t.entries.modify i (·.link r) } := by
      simp [Thread.bind, hm, hi]
    have hafter : (t.extend p).bind r =
        { t.extend p with entries := (t.extend p).entries.modify i (·.link r) } := by
      simp [Thread.bind, htarget, hm, hposition]
    rw [hafter, hbefore]
    simp only [Thread.extend, modify_append_of_lt _ _ hlength, List.length_modify]
    rfl

theorem Indexed.extend_foldl_bind (h : t.Indexed) (hp : p.number ∉ t.numbers)
    {ns : List PostNumber} (hns : p.number ∉ ns) (hnames : ∀ n, ¬ t.Names n p.number) :
    (ns.foldl Thread.bind t).extend p = ns.foldl Thread.bind (t.extend p) := by
  induction ns generalizing t with
  | nil => rfl
  | cons r rest ih =>
    rw [List.mem_cons, not_or] at hns
    rw [List.foldl_cons, List.foldl_cons, ← h.extend_bind hp (Ne.symm hns.1) (hnames r)]
    apply ih (h.bind r)
    · rwa [numbers_bind]
    · exact hns.2
    · intro n
      rw [names_bind]
      exact hnames n

theorem numbers_opened_append (s : Snapshot) (p : Post) :
    (opened { s with posts := s.posts ++ [p] }).numbers = (opened s).numbers ++ [p.number] := by
  rw [numbers_opened, numbers_opened, List.map_append, List.map_singleton]

/-- A snapshot with one more post opens as the thread that then receives it. -/
theorem opened_append (hnodup : ((s.posts ++ [p]).map (·.number)).Nodup)
    (hparent : ∀ q ∈ s.posts, q.parent ≠ some p.number) :
    opened { s with posts := s.posts ++ [p] } = (opened s).receive p := by
  obtain ⟨hnodup, hp⟩ := nodup_numbers_append_iff.mp hnodup
  have hindexed : (s.posts.foldl extend (blank s)).Indexed :=
    (indexed_blank s).foldl_extend hnodup
  have hposts : (s.posts.foldl extend (blank s)).posts = s.posts := by
    rw [posts_foldl_extend, posts_blank, List.nil_append]
  have hfresh : p.number ∉ (s.posts.foldl extend (blank s)).numbers := by
    rwa [numbers_eq, hposts]
  have hnames : ∀ n, ¬ (s.posts.foldl extend (blank s)).Names n p.number := by
    rintro n ⟨q, hq, -, hqp⟩
    rw [hposts] at hq
    exact hparent q hq hqp
  rw [receive, opened, opened, hindexed.extend_foldl_bind hfresh hp hnames]
  simp only [List.map_append, List.foldl_append]
  rfl

end Thread

end Discussion
