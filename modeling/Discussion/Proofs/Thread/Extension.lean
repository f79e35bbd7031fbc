import Discussion.Proofs.Thread.Editing
import Discussion.Proofs.Thread.Links
import Discussion.Proofs.Thread.Loading

/-!
# Adding a post

A new post may be the parent that older posts have named all along. It then gives
targets to replies that had none, joins conversations, and may close a cycle. What the
thread says of the posts that were there is extended by this, and never taken back: a
walk from target to target goes on only where it had ended for want of the new post.
-/

namespace Discussion

namespace Thread

open Relation (TransGen)

variable {t u : Thread} {p : Post} {n m d : PostNumber} {unseen unseen' : List PostNumber}
  {next next' : Option PostNumber}

/-- The post at which the walk from target to target ends that starts at `n`. -/
def walkEnd (t : Thread) (n : PostNumber) : PostNumber := (t.ancestors n).getLastD n

theorem push_eq_ok_iff : t.push p = .ok u ↔ t.contains p.number = false ∧ t.extend p = u := by
  cases hp : t.contains p.number with
  | true => simp [push_of_contains hp]
  | false => simp [push_of_not_contains hp]

/-! ## Targets -/

/-- A post that was there replies to the post it replied to, unless it named the new
post as its parent. -/
theorem Indexed.replies_extend_iff (h : t.Indexed) (hp : p.number ∉ t.numbers)
    (hn : n ∈ t.numbers) :
    (t.extend p).Replies n m ↔ t.Replies n m ∨ (m = p.number ∧ t.Names n m) := by
  have hreceive := h.replies_receive_iff (m := m) hp hn
  rwa [Replies, Thread.receive, (h.extend hp).target?_bind] at hreceive

theorem Indexed.replies_extend (h : t.Indexed) (hp : p.number ∉ t.numbers)
    (hm : t.Replies n m) : (t.extend p).Replies n m :=
  (h.replies_extend_iff hp (h.mem_of_target? hm)).mpr (Or.inl hm)

theorem Indexed.replies_extend_self_iff (h : t.Indexed) (hp : p.number ∉ t.numbers)
    (hm : m ∈ t.numbers) : (t.extend p).Replies p.number m ↔ p.parent = some m := by
  have hne : m ≠ p.number := fun heq => hp (heq ▸ hm)
  rw [Replies, (h.extend hp).target?_eq_some_iff, names_extend, numbers_extend]
  constructor
  · rintro ⟨hnames | ⟨-, hparent⟩, -, -⟩
    · exact absurd hnames.mem hp
    · exact hparent
  · intro hparent
    exact ⟨Or.inr ⟨rfl, hparent⟩, hne, List.mem_append_left _ hm⟩

/-! ## Walks -/

/-- With more targets and more posts to meet, a walk can only go further. -/
theorem walkTargets_prefix (hreplies : ∀ n m, t.Replies n m → u.Replies n m)
    (hunseen : unseen.Sublist unseen') (hnext : ∀ n, next = some n → next' = some n) :
    t.walkTargets unseen next <+: u.walkTargets unseen' next' := by
  fun_induction walkTargets t unseen next generalizing unseen' next' with
  | case1 => exact List.nil_prefix
  | case2 unseen n hn ih =>
    obtain rfl := hnext n rfl
    rw [walkTargets, if_pos (hunseen.subset hn)]
    have hrest := ih (hunseen.erase n) (hreplies n)
    exact List.cons_prefix_cons.mpr ⟨rfl, hrest⟩
  | case3 => exact List.nil_prefix

/-- A walk that does not end at a reply to the new post ends where it ended. -/
theorem Indexed.walkTargets_extend (h : t.Indexed) (hp : p.number ∉ t.numbers)
    (hn : n ∈ t.numbers)
    (hend : ¬ t.Names ((t.walkTargets unseen (t.target? n)).getLastD n) p.number) :
    (t.extend p).walkTargets (unseen ++ [p.number]) ((t.extend p).target? n) =
      t.walkTargets unseen (t.target? n) := by
  generalize hnext : t.target? n = next at hend
  fun_induction walkTargets t unseen next generalizing n with
  | case1 unseen =>
    have hne : n ≠ p.number := fun heq => hp (heq ▸ hn)
    rw [h.target?_extend hp hne hend, hnext, walkTargets]
  | case2 unseen m hm ih =>
    have htarget : (t.extend p).target? n = some m := h.replies_extend hp hnext
    rw [List.getLastD_cons] at hend
    have hrest := ih (h.target?_mem hnext) rfl hend
    rw [htarget, walkTargets, if_pos (List.mem_append_left _ hm),
      List.erase_append_left _ hm, hrest]
  | case3 unseen m hm =>
    have htarget : (t.extend p).target? n = some m := h.replies_extend hp hnext
    have hne : m ≠ p.number := fun heq => hp (heq ▸ h.target?_mem hnext)
    rw [htarget, walkTargets, if_neg]
    simp [hm, hne]

theorem Indexed.mem_of_mem_ancestors (h : t.Indexed) (hm : m ∈ t.ancestors n) :
    m ∈ t.numbers :=
  (h.mem_erase_iff.mp (walkTargets_sound hm).1).2

theorem walkEnd_eq_or_mem (t : Thread) (n : PostNumber) :
    t.walkEnd n = n ∨ t.walkEnd n ∈ t.ancestors n :=
  List.mem_cons.mp List.getLastD_mem_cons

/-- A post keeps its ancestors, nearest first. -/
theorem Indexed.ancestors_prefix_extend (h : t.Indexed) (hp : p.number ∉ t.numbers)
    (d : PostNumber) : t.ancestors d <+: (t.extend p).ancestors d := by
  have hunseen : (t.numbers.erase d).Sublist ((t.extend p).numbers.erase d) := by
    rw [numbers_extend]
    exact (List.sublist_append_left _ _).erase d
  exact walkTargets_prefix (fun _ _ => h.replies_extend hp) hunseen
    fun _ hm => h.replies_extend hp hm

/-- A post gets further ancestors exactly if its walk ended at a reply to the new post. -/
theorem Indexed.ancestors_extend_eq_iff (h : t.Indexed) (hp : p.number ∉ t.numbers)
    (hd : d ∈ t.numbers) :
    (t.extend p).ancestors d = t.ancestors d ↔ ¬ t.Names (t.walkEnd d) p.number := by
  constructor
  · intro heq hnames
    have hreply : (t.extend p).Replies (t.walkEnd d) p.number :=
      (h.replies_extend_iff hp hnames.mem).mpr (Or.inr ⟨rfl, hnames⟩)
    have hmem : p.number ∈ (t.extend p).ancestors d := by
      rcases walkEnd_eq_or_mem t d with hend | hend
      · exact (h.extend hp).mem_ancestors_of_replies (hend ▸ hreply)
      · have hne : p.number ≠ d := fun heq => hp (heq ▸ hd)
        exact (h.extend hp).mem_ancestors_of_mem (heq ▸ hend) hreply hne
    rw [heq] at hmem
    exact hp (h.mem_of_mem_ancestors hmem)
  · intro hend
    rw [ancestors, numbers_extend, List.erase_append_left _ hd]
    exact h.walkTargets_extend hp hd hend

/-! ## Replies -/

theorem Indexed.descendants_subset_extend (h : t.Indexed) (hp : p.number ∉ t.numbers)
    (hd : d ∈ t.numbers) : t.descendants d ⊆ (t.extend p).descendants d := by
  intro m hm
  obtain ⟨hne, hpath⟩ := (h.mem_descendants_iff hd).mp hm
  have hd' : d ∈ (t.extend p).numbers := by
    rw [numbers_extend]
    exact List.mem_append_left _ hd
  have hpath' := TransGen.mono (fun _ _ => h.replies_extend (p := p) hp) m d hpath
  exact ((h.extend hp).mem_descendants_iff hd').mpr ⟨hne, hpath'⟩

/-! ## The whole of it -/

/-- A post that a thread accepts adds to what the thread says of every post that was
there. The ancestors of the post are the first of its ancestors now, and are joined by
others exactly if the walk to them ended at a reply to the new post; its children gain
the new post if that replies to it; no descendant is lost; a target, the post itself and
the links in it stay as they were. -/
theorem Built.push_extends (h : t.Built) (hpush : t.push p = .ok u) (hd : d ∈ t.numbers) :
    t.ancestors d <+: u.ancestors d ∧
    (u.ancestors d ≠ t.ancestors d ↔ t.Names (t.walkEnd d) p.number) ∧
    u.children d = (t.children d ++ if u.target? p.number = some d then [p.number] else []) ∧
    t.descendants d ⊆ u.descendants d ∧
    (∀ m, t.target? d = some m → u.target? d = some m) ∧
    u.get? d = t.get? d := by
  have hindexed := h.indexed
  obtain ⟨hcontains, rfl⟩ := push_eq_ok_iff.mp hpush
  have hp : p.number ∉ t.numbers := hindexed.contains_eq_false_iff.mp hcontains
  have hne : d ≠ p.number := fun heq => hp (heq ▸ hd)
  have hreply : (t.extend p).target? p.number = some d ↔ p.parent = some d :=
    hindexed.replies_extend_self_iff hp hd
  refine ⟨hindexed.ancestors_prefix_extend hp d, ?_, ?_,
    hindexed.descendants_subset_extend hp hd, fun _ => hindexed.replies_extend hp, ?_⟩
  · rw [Ne, hindexed.ancestors_extend_eq_iff hp hd, not_not]
  · rw [hindexed.children_extend hp]
    simp only [hreply, Ne, Ne.symm hne, not_false_eq_true, and_true]
  · rw [hindexed.get?_extend hp, if_neg hne]

section

open Sample

/-- The thread of a post whose parent is missing and a reply to it, which is bound. -/
def parentless : Thread :=
  ((Thread.edit { slug := (snapshot []).slug } (.push (post one (some three)))).edit
    (.push (post two (some one)))).edit (.bind two)

/-- The missing parent comes as a reply to the reply, and closes a cycle. -/
theorem push_extends_parentless :
    ∃ u, parentless.Built ∧ parentless.push (post three (some two)) = .ok u ∧
      two ∈ parentless.numbers ∧ parentless.ancestors two = [one] ∧
      [one] <+: u.ancestors two ∧ u.ancestors two ≠ [one] ∧ u.children two = [three] ∧
      u.target? two = some one := by
  have hbuilt : parentless.Built :=
    (((Built.blank (snapshot []).slug false 0).edit _).edit _).edit _
  have hpush : parentless.push (post three (some two)) =
      .ok (parentless.extend (post three (some two))) := push_of_not_contains (by decide)
  have htwo : two ∈ parentless.numbers := by decide
  have htarget : parentless.target? two = some one := by decide
  have hnone : parentless.target? one = none := by decide
  have hancestors : parentless.ancestors two = [one] := by
    rw [ancestors, htarget, walkTargets, if_pos (by decide), hnone, walkTargets]
  have hend : parentless.Names (parentless.walkEnd two) three := by
    refine ⟨post one (some three), by decide, ?_, rfl⟩
    rw [walkEnd, hancestors]
    rfl
  obtain ⟨hfirst, hdiffer, hchildren, -, hkept, -⟩ := hbuilt.push_extends hpush htwo
  rw [hancestors] at hfirst hdiffer
  exact ⟨_, hbuilt, hpush, htwo, hancestors, hfirst, hdiffer.mpr hend, hchildren,
    hkept one htarget⟩

end

end Thread

end Discussion
