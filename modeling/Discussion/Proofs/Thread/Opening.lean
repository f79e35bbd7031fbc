import Discussion.Proofs.Thread.Growth

/-!
# Opening a thread

A snapshot opens as a thread unless two of its posts have one number. All posts
are added first and their replies bound afterwards, so that in a thread just
opened the links of every post are its children.
-/

namespace Discussion

/-- Every parent that a post of the snapshot names is in the snapshot. -/
def Snapshot.Complete (s : Snapshot) : Prop :=
  ∀ post ∈ s.posts, ∀ m, post.parent = some m → m ∈ s.posts.map (·.number)

namespace Thread

variable {t u : Thread} {ps : List Post} {n r : PostNumber}

/-- The thread with which opening begins. -/
def blank (s : Snapshot) : Thread :=
  { slug := s.slug, locked := s.locked, viewMarker := s.viewMarker }

theorem indexed_blank (s : Snapshot) : (blank s).Indexed :=
  indexed_of_empty s.slug s.locked s.viewMarker

@[simp]
theorem posts_blank (s : Snapshot) : (blank s).posts = [] := rfl

/-- Posts can be added one after the other exactly if all numbers are distinct. -/
theorem Indexed.pushAll_eq_ok_iff (h : t.Indexed) :
    t.pushAll ps = .ok u ↔
      (t.numbers ++ ps.map (·.number)).Nodup ∧ u = ps.foldl Thread.extend t := by
  induction ps generalizing t with
  | nil => simp [pushAll, h.nodup, eq_comm]
  | cons p rest ih =>
    rw [pushAll]
    cases hc : t.contains p.number with
    | true =>
      have hmem := h.contains_iff.mp hc
      rw [push_of_contains hc]
      constructor
      · intro herror
        cases herror
      · rintro ⟨hnodup, -⟩
        rw [List.nodup_append] at hnodup
        exact absurd rfl (hnodup.2.2 _ hmem p.number List.mem_cons_self)
    | false =>
      have hp := h.contains_eq_false_iff.mp hc
      rw [push_of_not_contains hc]
      have hrest := ih (h.extend hp)
      rw [numbers_extend, List.append_assoc, List.singleton_append] at hrest
      exact hrest

@[simp]
theorem posts_foldl_extend (t : Thread) (ps : List Post) :
    (ps.foldl Thread.extend t).posts = t.posts ++ ps := by
  induction ps generalizing t with
  | nil => simp
  | cons p rest ih => simp [ih]

theorem Indexed.foldl_extend (h : t.Indexed)
    (hnodup : (t.numbers ++ ps.map (·.number)).Nodup) : (ps.foldl Thread.extend t).Indexed := by
  induction ps generalizing t with
  | nil => exact h
  | cons p rest ih =>
    have hp : p.number ∉ t.numbers := fun hmem =>
      (List.nodup_append.mp hnodup).2.2 _ hmem p.number List.mem_cons_self rfl
    apply ih (h.extend hp)
    rw [numbers_extend, List.append_assoc, List.singleton_append]
    exact hnodup

/-- Adding posts gives none of them a link. -/
theorem linksOf_foldl_extend (h : ∀ e ∈ t.entries, e.links = []) :
    ∀ e ∈ (ps.foldl Thread.extend t).entries, e.links = [] := by
  induction ps generalizing t with
  | nil => exact h
  | cons p rest ih =>
    apply ih
    intro e he
    rcases List.mem_append.mp he with he | he
    · exact h e he
    · rw [List.mem_singleton.mp he]

/-! ## Binding in turn -/

@[simp]
theorem posts_foldl_bind (ns : List PostNumber) (t : Thread) :
    (ns.foldl bind t).posts = t.posts := by
  induction ns generalizing t with
  | nil => rfl
  | cons r rest ih => rw [List.foldl_cons, ih, posts_bind]

@[simp]
theorem children_foldl_bind (ns : List PostNumber) (t : Thread) (n : PostNumber) :
    (ns.foldl bind t).children n = t.children n := by
  induction ns generalizing t with
  | nil => rfl
  | cons r rest ih => rw [List.foldl_cons, ih, children_bind]

theorem Indexed.foldl_bind (h : t.Indexed) (ns : List PostNumber) :
    (ns.foldl Thread.bind t).Indexed := by
  induction ns generalizing t with
  | nil => exact h
  | cons r rest ih => exact ih (h.bind r)

/-- Bound one after the other, replies are linked in this order. -/
theorem Indexed.linksOf_foldl_bind (h : t.Indexed) {ns : List PostNumber} (hns : ns.Nodup)
    (hfresh : ∀ r ∈ ns, r ∉ t.linksOf n) :
    (ns.foldl Thread.bind t).linksOf n =
      t.linksOf n ++ ns.filter fun r => t.target? r = some n := by
  induction ns generalizing t with
  | nil => simp
  | cons r rest ih =>
    rw [List.nodup_cons] at hns
    have hlinks := h.linksOf_bind_of_not_mem r (hfresh r List.mem_cons_self)
    have hrest : ∀ k ∈ rest, k ∉ (t.bind r).linksOf n := by
      intro k hk
      have hkt := hfresh k (List.mem_cons_of_mem _ hk)
      rw [hlinks]
      split
      · rw [List.mem_append, List.mem_singleton, not_or]
        refine ⟨hkt, ?_⟩
        rintro rfl
        exact hns.1 hk
      · exact hkt
    rw [List.foldl_cons, ih (h.bind r) hns.2 hrest, hlinks, List.filter_cons]
    by_cases htarget : t.target? r = some n
    · simp [htarget, h.target?_bind]
    · simp [htarget, h.target?_bind]

/-! ## Snapshots -/

/-- What opening makes of a snapshot with distinct numbers. -/
def opened (s : Snapshot) : Thread :=
  (s.posts.map (·.number)).foldl bind (s.posts.foldl extend (blank s))

theorem ofSnapshot_eq_ok_iff {s : Snapshot} :
    ofSnapshot s = .ok t ↔ (s.posts.map (·.number)).Nodup ∧ t = opened s := by
  have hpush : ∀ u, (blank s).pushAll s.posts = .ok u ↔
      (s.posts.map (·.number)).Nodup ∧ u = s.posts.foldl extend (blank s) :=
    fun _ => (indexed_blank s).pushAll_eq_ok_iff
  have hopened : opened s =
      (s.posts.foldl extend (blank s)).numbers.foldl bind (s.posts.foldl extend (blank s)) := by
    rw [opened, numbers_eq (s.posts.foldl extend (blank s)), posts_foldl_extend]
    rfl
  rw [hopened]
  rw [ofSnapshot]
  change ((blank s).pushAll s.posts >>= fun t => pure (t.numbers.foldl bind t)) = .ok t ↔ _
  cases hall : (blank s).pushAll s.posts with
  | error cause =>
    constructor
    · intro herror
      cases herror
    · rintro ⟨hnodup, -⟩
      have := (hpush _).mpr ⟨hnodup, rfl⟩
      simp [hall] at this
  | ok u =>
    obtain ⟨hnodup, rfl⟩ := (hpush u).mp hall
    constructor
    · rintro ⟨⟩
      exact ⟨hnodup, rfl⟩
    · rintro ⟨-, rfl⟩
      rfl

@[simp]
theorem posts_opened (s : Snapshot) : (opened s).posts = s.posts := by
  rw [opened, posts_foldl_bind, posts_foldl_extend, posts_blank, List.nil_append]

theorem numbers_opened (s : Snapshot) : (opened s).numbers = s.posts.map (·.number) := by
  rw [numbers_eq, posts_opened]

theorem indexed_opened {s : Snapshot} (h : (s.posts.map (·.number)).Nodup) :
    (opened s).Indexed :=
  ((indexed_blank s).foldl_extend h).foldl_bind _

/-- In a thread just opened, the links of a post are its children. -/
theorem linksOf_opened {s : Snapshot} (h : (s.posts.map (·.number)).Nodup)
    (hn : n ∈ (opened s).numbers) : (opened s).linksOf n = (opened s).children n := by
  have hindexed : (s.posts.foldl extend (blank s)).Indexed := (indexed_blank s).foldl_extend h
  have hnumbers : (s.posts.foldl extend (blank s)).numbers = s.posts.map (·.number) := by
    rw [numbers_eq, posts_foldl_extend, posts_blank, List.nil_append]
  have hempty : (s.posts.foldl extend (blank s)).linksOf n = [] := by
    rw [linksOf]
    cases he : (s.posts.foldl extend (blank s)).get? n with
    | none => rfl
    | some e =>
      have hmem := (hindexed.get?_eq_some_iff.mp he).1
      have hnone : ∀ e ∈ (blank s).entries, e.links = [] := by
        intro e he
        cases he
      exact linksOf_foldl_extend hnone e hmem
  have hlinks := hindexed.linksOf_foldl_bind (n := n) h (by simp [hempty])
  rw [numbers_opened] at hn
  rw [opened, hlinks, hempty, List.nil_append, children_foldl_bind,
    hindexed.children_eq (hnumbers ▸ hn), hnumbers]

end Thread

/-! ## Sample snapshots -/

namespace Sample

def one : PostNumber := ⟨1, by decide, by decide⟩

def two : PostNumber := ⟨2, by decide, by decide⟩

def three : PostNumber := ⟨3, by decide, by decide⟩

/-- A post that says nothing. -/
def post (number : PostNumber) (parent : Option PostNumber) : Post where
  number := number
  site := ⟨number.value, number.lt⟩
  parent := parent
  author := ⟨"a", by decide⟩
  seed := ⟨200, 100, 30⟩

/-- A thread of a few posts. -/
def snapshot (posts : List Post) : Snapshot where
  slug := ⟨"f00", by decide⟩
  posts := posts

end Sample

end Discussion
