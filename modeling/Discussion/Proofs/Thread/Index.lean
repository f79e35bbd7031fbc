import Discussion.Thread.Conversation
import Mathlib.Data.List.Nodup

/-!
# The indexes of a thread

A thread keeps its posts in a list and two indexes beside it. Every thread that
is built by adding posts and binding replies is `Indexed`: its numbers are
distinct, and both indexes say what the list says. The targets, the children
and the links of a post are then read off the list.
-/

namespace Discussion

namespace Thread

variable {t : Thread} {p : Post} {n m r : PostNumber}

/-- The posts of a thread, in order of arrival. -/
def posts (t : Thread) : List Post := t.entries.map (·.post)

/-- Whether the post `n` names `m` as its parent, present or not. -/
def Names (t : Thread) (n m : PostNumber) : Prop :=
  ∃ p ∈ t.posts, p.number = n ∧ p.parent = some m

/-- The two indexes of a thread say what its list of posts says. -/
structure Indexed (t : Thread) : Prop where
  nodup : t.numbers.Nodup
  positions : ∀ n i, t.positions.get? n = some i ↔ t.numbers[i]? = some n
  replies : ∀ n, t.repliesTo n = (t.posts.filter (·.parent = some n)).map (·.number)

theorem numbers_eq (t : Thread) : t.numbers = t.posts.map (·.number) := by
  simp [numbers, posts]

theorem mem_numbers_iff : n ∈ t.numbers ↔ ∃ p ∈ t.posts, p.number = n := by
  simp [numbers_eq]

theorem Names.mem (h : t.Names n m) : n ∈ t.numbers := by
  obtain ⟨p, hp, hn, -⟩ := h
  exact mem_numbers_iff.mpr ⟨p, hp, hn⟩

/-- A thread without posts is indexed. -/
theorem indexed_of_empty (slug : Slug) (locked : Bool) (viewMarker : UInt64) :
    Indexed { slug, locked, viewMarker } where
  nodup := List.nodup_nil
  positions := by
    intro n i
    simp [numbers, PostMap.get?]
  replies := by
    intro n
    simp [repliesTo, posts, PostMap.get?]

theorem linksOf_of_get? {e : Entry} (he : t.get? n = some e) : t.linksOf n = e.links := by
  rw [linksOf, he, Option.map_some, Option.getD_some]

namespace Indexed

theorem contains_iff (h : t.Indexed) : t.contains n = true ↔ n ∈ t.numbers := by
  rw [Thread.contains, PostMap.contains, Option.isSome_iff_exists, List.mem_iff_getElem?]
  exact exists_congr fun i => h.positions n i

theorem contains_eq_false_iff (h : t.Indexed) : t.contains n = false ↔ n ∉ t.numbers := by
  rw [← h.contains_iff, Bool.not_eq_true]

theorem exists_position (h : t.Indexed) (hn : n ∈ t.numbers) :
    ∃ i, t.positions.get? n = some i :=
  Option.isSome_iff_exists.mp (h.contains_iff.mpr hn)

/-- The entry of a post is the one entry with its number. -/
theorem get?_eq_some_iff (h : t.Indexed) {e : Entry} :
    t.get? n = some e ↔ e ∈ t.entries ∧ e.post.number = n := by
  rw [Thread.get?, Option.bind_eq_bind, Option.bind_eq_some_iff]
  constructor
  · rintro ⟨i, hi, he⟩
    refine ⟨List.mem_of_getElem? he, ?_⟩
    have hn := (h.positions n i).mp hi
    simpa [numbers, he] using hn
  · rintro ⟨he, hn⟩
    obtain ⟨i, hi⟩ := List.mem_iff_getElem?.mp he
    refine ⟨i, (h.positions n i).mpr ?_, hi⟩
    simp [numbers, hi, hn]

theorem get?_isSome_iff (h : t.Indexed) : (t.get? n).isSome = true ↔ n ∈ t.numbers := by
  rw [Option.isSome_iff_exists]
  constructor
  · rintro ⟨e, he⟩
    obtain ⟨hmem, hn⟩ := h.get?_eq_some_iff.mp he
    exact List.mem_map.mpr ⟨e, hmem, hn⟩
  · intro hn
    obtain ⟨e, hmem, he⟩ := List.mem_map.mp hn
    exact ⟨e, h.get?_eq_some_iff.mpr ⟨hmem, he⟩⟩

theorem mem_of_get? (h : t.Indexed) {e : Entry} (he : t.get? n = some e) : n ∈ t.numbers :=
  h.get?_isSome_iff.mp (Option.isSome_of_eq_some he)

theorem linksOf_of_not_mem (h : t.Indexed) (hn : n ∉ t.numbers) : t.linksOf n = [] := by
  rw [← h.get?_isSome_iff, Bool.not_eq_true, Option.isSome_eq_false_iff,
    Option.isNone_iff_eq_none] at hn
  rw [linksOf, hn, Option.map_none, Option.getD_none]

/-- A post replies to the parent it names, if that is another post of the thread. -/
theorem target?_eq_some_iff (h : t.Indexed) :
    t.target? n = some m ↔ t.Names n m ∧ m ≠ n ∧ m ∈ t.numbers := by
  simp only [Thread.target?, Option.bind_eq_bind, Option.bind_eq_some_iff]
  constructor
  · rintro ⟨e, he, parent, hparent, hif⟩
    split at hif
    · rename_i hcond
      obtain rfl : parent = m := Option.some.inj hif
      obtain ⟨hmem, hn⟩ := h.get?_eq_some_iff.mp he
      exact ⟨⟨e.post, List.mem_map_of_mem hmem, hn, hparent⟩, hcond.1,
        h.contains_iff.mp hcond.2⟩
    · simp at hif
  · rintro ⟨⟨q, hq, hn, hparent⟩, hne, hm⟩
    obtain ⟨e, hmem, rfl⟩ := List.mem_map.mp hq
    refine ⟨e, h.get?_eq_some_iff.mpr ⟨hmem, hn⟩, m, hparent, ?_⟩
    rw [if_pos ⟨hne, h.contains_iff.mpr hm⟩]

theorem target?_mem (h : t.Indexed) (hm : t.target? n = some m) : m ∈ t.numbers :=
  (h.target?_eq_some_iff.mp hm).2.2

theorem mem_of_target? (h : t.Indexed) (hm : t.target? n = some m) : n ∈ t.numbers :=
  (h.target?_eq_some_iff.mp hm).1.mem

theorem target?_ne (h : t.Indexed) (hm : t.target? n = some m) : m ≠ n :=
  (h.target?_eq_some_iff.mp hm).2.1

theorem mem_children_iff (h : t.Indexed) : r ∈ t.children n ↔ t.Names r n ∧ r ≠ n := by
  rw [children, h.replies, List.mem_filter, List.mem_map]
  constructor
  · rintro ⟨⟨q, hq, rfl⟩, hcond⟩
    rw [List.mem_filter] at hq
    exact ⟨⟨q, hq.1, rfl, of_decide_eq_true hq.2⟩, (of_decide_eq_true hcond).1⟩
  · rintro ⟨hnames, hne⟩
    have hr := h.contains_iff.mpr hnames.mem
    obtain ⟨q, hq, rfl, hparent⟩ := hnames
    exact ⟨⟨q, List.mem_filter.mpr ⟨hq, decide_eq_true hparent⟩, rfl⟩,
      decide_eq_true ⟨hne, hr⟩⟩

/-- The children of a post of the thread are the posts that reply to it, in
order of arrival. -/
theorem children_eq (h : t.Indexed) (hn : n ∈ t.numbers) :
    t.children n = t.numbers.filter fun r => t.target? r = some n := by
  have hreply : ∀ q ∈ t.posts, (t.target? q.number = some n ↔
      q.parent = some n ∧ q.number ≠ n) := by
    intro q hq
    rw [h.target?_eq_some_iff]
    constructor
    · rintro ⟨⟨q', hq', hnum, hparent⟩, hne, -⟩
      have hinj := List.inj_on_of_nodup_map (numbers_eq t ▸ h.nodup) hq' hq hnum
      exact ⟨hinj ▸ hparent, hne.symm⟩
    · rintro ⟨hparent, hne⟩
      exact ⟨⟨q, hq, rfl, hparent⟩, hne.symm, hn⟩
  rw [children, h.replies, numbers_eq, List.filter_map, List.filter_map, List.filter_filter]
  congr 1
  apply List.filter_congr
  intro q hq
  have hmem : t.contains q.number = true :=
    h.contains_iff.mpr (mem_numbers_iff.mpr ⟨q, hq, rfl⟩)
  simp [hreply q hq, hmem, and_comm]

end Indexed

end Thread

end Discussion
