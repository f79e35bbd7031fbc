import Discussion.Proofs.Thread.Arrival
import Discussion.Proofs.Thread.Opening

/-!
# Links and replies

A thread keeps the replies to a post twice: in an index over all parents that
were ever named, and as links in the entry of the post. The index is filled when
a reply is added, a link when it is bound. The two agree on a post that was there
when its replies came. Where a reply of the snapshot named a post that arrived
later, the index has the reply and the entry has no link to it.
-/

namespace Discussion

/-- The posts of a snapshot that name the missing post `n` as their parent, in
order of arrival. -/
def Snapshot.awaiting (s : Snapshot) (n : PostNumber) : List PostNumber :=
  if n ∈ s.posts.map (·.number) then []
  else (s.posts.filter (·.parent = some n)).map (·.number)

namespace Snapshot

variable {s : Snapshot} {n : PostNumber}

theorem awaiting_of_mem (hn : n ∈ s.posts.map (·.number)) : s.awaiting n = [] :=
  if_pos hn

theorem awaiting_of_not_mem (hn : n ∉ s.posts.map (·.number)) :
    s.awaiting n = (s.posts.filter (·.parent = some n)).map (·.number) :=
  if_neg hn

theorem complete_iff : s.Complete ↔ ∀ n, s.awaiting n = [] := by
  constructor
  · intro hcomplete n
    by_cases hn : n ∈ s.posts.map (·.number)
    · exact awaiting_of_mem hn
    · rw [awaiting_of_not_mem hn, List.map_eq_nil_iff, List.filter_eq_nil_iff]
      intro post hpost hparent
      exact hn (hcomplete post hpost n (of_decide_eq_true hparent))
  · intro hall post hpost m hparent
    by_contra hm
    have hnone := hall m
    rw [awaiting_of_not_mem hm, List.map_eq_nil_iff, List.filter_eq_nil_iff] at hnone
    exact hnone post hpost (decide_eq_true hparent)

end Snapshot

namespace Thread

variable {t : Thread} {p : Post} {s : Snapshot} {n m k : PostNumber}

/-! ## What an arrival changes -/

theorem Indexed.mem_of_mem_repliesTo (h : t.Indexed) (hk : k ∈ t.repliesTo n) :
    k ∈ t.numbers := by
  rw [h.replies, List.mem_map] at hk
  obtain ⟨post, hpost, rfl⟩ := hk
  exact mem_numbers_iff.mpr ⟨post, List.mem_of_mem_filter hpost, rfl⟩

/-- The children of a post are the posts that name it, but for itself. -/
theorem Indexed.children_eq_filter (h : t.Indexed) (n : PostNumber) :
    t.children n = (t.repliesTo n).filter (· ≠ n) := by
  rw [children]
  apply List.filter_congr
  intro k hk
  simp [h.contains_iff.mpr (h.mem_of_mem_repliesTo hk)]

theorem repliesTo_receive (t : Thread) (p : Post) (n : PostNumber) :
    (t.receive p).repliesTo n =
      if p.parent = some n then t.repliesTo n ++ [p.number] else t.repliesTo n := by
  rw [receive, repliesTo_bind, repliesTo_extend]

/-- A new post becomes the last child of its parent. -/
theorem Indexed.children_extend (h : t.Indexed) (hp : p.number ∉ t.numbers) (n : PostNumber) :
    (t.extend p).children n =
      t.children n ++ if p.parent = some n ∧ p.number ≠ n then [p.number] else [] := by
  rw [(h.extend hp).children_eq_filter, h.children_eq_filter, repliesTo_extend]
  by_cases hparent : p.parent = some n
  · by_cases hn : p.number = n
    · simp [hparent, hn]
    · simp [hparent, hn]
  · simp [hparent]

theorem Indexed.children_receive (h : t.Indexed) (hp : p.number ∉ t.numbers)
    (hs : t.Settled p) (n : PostNumber) :
    (t.receive p).children n =
      if p.parent = some n then t.children n ++ [p.number] else t.children n := by
  rw [Thread.receive, children_bind, h.children_extend hp]
  by_cases hparent : p.parent = some n
  · have hne : p.number ≠ n := Ne.symm (hs n hparent).1
    rw [if_pos ⟨hparent, hne⟩, if_pos hparent]
  · rw [if_neg fun hand => hparent hand.1, if_neg hparent, List.append_nil]

/-- A new post has no links, and is linked back into its parent. -/
theorem Indexed.linksOf_receive (h : t.Indexed) (hp : p.number ∉ t.numbers)
    (hs : t.Settled p) (hnew : ∀ n, p.number ∉ t.linksOf n) (n : PostNumber) :
    (t.receive p).linksOf n =
      if p.parent = some n then t.linksOf n ++ [p.number]
      else if n = p.number then [] else t.linksOf n := by
  have hextend := h.linksOf_extend hp n
  have hfresh : p.number ∉ (t.extend p).linksOf n := by
    rw [hextend]
    split
    · exact List.not_mem_nil
    · exact hnew n
  have htarget : (t.extend p).target? p.number = p.parent := by
    rw [← (h.extend hp).target?_bind p.number]
    exact h.target?_receive_self hp hs
  rw [Thread.receive, (h.extend hp).linksOf_bind_of_not_mem _ hfresh, htarget, hextend]
  by_cases hparent : p.parent = some n
  · have hne : n ≠ p.number := (hs n hparent).1
    simp [hparent, hne]
  · simp [hparent]

/-! ## The two records of replies -/

/-- How the children of a post compare to its links, in a thread that was opened
on the snapshot `s`. -/
structure Linked (s : Snapshot) (t : Thread) : Prop where
  indexed : t.Indexed
  present : ∀ n ∈ s.posts.map (·.number), n ∈ t.numbers
  /-- Only posts of the snapshot name a post that is missing. -/
  missing : ∀ n, n ∉ t.numbers → t.repliesTo n = s.awaiting n
  /-- The links of a post lack the replies that were there before it. -/
  links : ∀ n ∈ t.numbers, t.children n = s.awaiting n ++ t.linksOf n

theorem linked_opened (hnodup : (s.posts.map (·.number)).Nodup) : Linked s (opened s) where
  indexed := indexed_opened hnodup
  present n hn := by rwa [numbers_opened]
  missing n hn := by
    rw [numbers_opened] at hn
    rw [(indexed_opened hnodup).replies, posts_opened, Snapshot.awaiting_of_not_mem hn]
  links n hn := by
    have hmem := hn
    rw [numbers_opened] at hmem
    rw [Snapshot.awaiting_of_mem hmem, List.nil_append, linksOf_opened hnodup hn]

namespace Linked

theorem mem_of_mem_linksOf (h : Linked s t) (hk : k ∈ t.linksOf n) : k ∈ t.numbers := by
  have hn : n ∈ t.numbers := by
    by_contra hn
    rw [h.indexed.linksOf_of_not_mem hn] at hk
    exact List.not_mem_nil hk
  have hchild : k ∈ t.children n := by
    rw [h.links n hn]
    exact List.mem_append_right _ hk
  exact (h.indexed.mem_children_iff.mp hchild).1.mem

/-- A post that is not in the thread is linked nowhere. -/
theorem not_mem_linksOf (h : Linked s t) (hk : k ∉ t.numbers) (n : PostNumber) :
    k ∉ t.linksOf n :=
  fun hmem => hk (h.mem_of_mem_linksOf hmem)

/-- An arrival comes last, and the entry of its parent gains the link back to it. -/
theorem entries_receive (h : Linked s t) (hp : p.number ∉ t.numbers) (hs : t.Settled p) :
    (t.receive p).entries =
      (t.entries.map fun e =>
        if p.parent = some e.post.number then { e with links := e.links ++ [p.number] } else e) ++
        [{ post := p }] := by
  have htarget : (t.extend p).target? p.number = p.parent := by
    rw [← (h.indexed.extend hp).target?_bind p.number]
    exact h.indexed.target?_receive_self hp hs
  have hself : p.parent ≠ some p.number := fun hparent => (hs _ hparent).1 rfl
  rw [Thread.receive, (h.indexed.extend hp).entries_bind, htarget, Thread.extend,
    List.map_append, List.map_singleton, if_neg hself]
  congr 1
  apply List.map_congr_left
  intro e he
  have hlinks := linksOf_of_get? (h.indexed.get?_eq_some_iff.mpr ⟨he, rfl⟩)
  have hfresh : p.number ∉ e.links := hlinks ▸ h.not_mem_linksOf hp e.post.number
  rw [Entry.link, if_neg hfresh]

/-- An arrival finds the replies that awaited it and is linked by none of them;
from then on, links and children grow together. -/
theorem receive (h : Linked s t) (hp : p.number ∉ t.numbers) (hs : t.Settled p) :
    Linked s (t.receive p) where
  indexed := h.indexed.receive hp
  present n hn := mem_numbers_receive.mpr (Or.inl (h.present n hn))
  missing n hn := by
    rw [mem_numbers_receive, not_or] at hn
    have hparent : p.parent ≠ some n := fun hparent => hn.1 (hs n hparent).2
    rw [repliesTo_receive, if_neg hparent, h.missing n hn.1]
  links n hn := by
    have hlinks := h.indexed.linksOf_receive hp hs
      (h.not_mem_linksOf hp) n
    rw [h.indexed.children_receive hp hs, hlinks]
    rcases mem_numbers_receive.mp hn with hn | rfl
    · have hne : n ≠ p.number := fun heq => hp (heq ▸ hn)
      rw [if_neg hne, h.links n hn]
      split
      · rw [List.append_assoc]
      · rfl
    · have hparent : p.parent ≠ some p.number := fun hparent => (hs _ hparent).1 rfl
      have hself : ∀ k ∈ t.repliesTo p.number, k ≠ p.number := by
        rintro k hk rfl
        exact hp (h.indexed.mem_of_mem_repliesTo hk)
      rw [if_neg hparent, if_neg hparent, if_pos rfl, List.append_nil,
        h.indexed.children_eq_filter, List.filter_eq_self.mpr (by simpa using hself),
        h.missing _ hp]

theorem linksOf_eq_children_iff (h : Linked s t) (hn : n ∈ t.numbers) :
    t.linksOf n = t.children n ↔ s.awaiting n = [] := by
  rw [h.links n hn]
  constructor
  · intro heq
    have hlength := congrArg List.length heq
    rw [List.length_append] at hlength
    exact List.eq_nil_of_length_eq_zero (by omega)
  · intro hnone
    rw [hnone, List.nil_append]

/-- A post is linked back from those that reply to it and did not await it. -/
theorem mem_linksOf_iff (h : Linked s t) (hn : n ∈ t.numbers) :
    k ∈ t.linksOf n ↔ t.target? k = some n ∧ k ∉ s.awaiting n := by
  have hchild : k ∈ s.awaiting n ++ t.linksOf n ↔ t.target? k = some n := by
    rw [← h.links n hn]
    exact h.indexed.mem_children_iff_replies hn
  have hdisjoint : List.Disjoint (s.awaiting n) (t.linksOf n) := by
    apply List.disjoint_of_nodup_append
    rw [← h.links n hn, h.indexed.children_eq hn]
    exact h.indexed.nodup.filter _
  rw [← hchild, List.mem_append]
  constructor
  · intro hk
    exact ⟨Or.inr hk, fun hwait => hdisjoint hwait hk⟩
  · rintro ⟨hwait | hk, hnot⟩
    · exact absurd hwait hnot
    · exact hk

/-- A post is linked back from its target alone. -/
theorem target?_of_mem_linksOf (h : Linked s t) (hk : k ∈ t.linksOf n) :
    t.target? k = some n := by
  have hn : n ∈ t.numbers := by
    by_contra hn
    rw [h.indexed.linksOf_of_not_mem hn] at hk
    cases hk
  exact ((h.mem_linksOf_iff hn).mp hk).1

theorem not_mem_linksOf_self (h : Linked s t) (n : PostNumber) : n ∉ t.linksOf n :=
  fun hn => h.indexed.target?_ne (h.target?_of_mem_linksOf hn) rfl

theorem mem_linksOf_receive_of_ne (h : Linked s t) (hp : p.number ∉ t.numbers)
    (hs : t.Settled p) (hk : k ≠ p.number) :
    k ∈ (t.receive p).linksOf n ↔ k ∈ t.linksOf n := by
  rw [h.indexed.linksOf_receive hp hs (h.not_mem_linksOf hp)]
  by_cases hparent : p.parent = some n
  · simp [hparent, hk]
  · rw [if_neg hparent]
    split
    · rename_i hn
      rw [hn, h.indexed.linksOf_of_not_mem hp]
    · rfl

/-- An arrival is linked back from its parent alone. -/
theorem mem_linksOf_receive_self (h : Linked s t) (hp : p.number ∉ t.numbers)
    (hs : t.Settled p) (m : PostNumber) :
    p.number ∈ (t.receive p).linksOf m ↔ (t.receive p).target? p.number = some m := by
  have hnot := h.not_mem_linksOf hp
  rw [h.indexed.linksOf_receive hp hs hnot, h.indexed.target?_receive_self hp hs]
  by_cases hparent : p.parent = some m
  · simp [hparent]
  · rw [if_neg hparent]
    split <;> simp [hparent, hnot]

end Linked

/-- On opening, all replies are linked back. -/
theorem mem_linksOf_opened (hnodup : (s.posts.map (·.number)).Nodup) :
    k ∈ (opened s).linksOf n ↔ (opened s).target? k = some n := by
  have hindexed := indexed_opened hnodup
  by_cases hn : n ∈ (opened s).numbers
  · rw [linksOf_opened hnodup hn]
    exact hindexed.mem_children_iff_replies hn
  · rw [hindexed.linksOf_of_not_mem hn]
    constructor
    · intro hk
      cases hk
    · intro htarget
      exact absurd (hindexed.target?_mem htarget) hn

end Thread

end Discussion
