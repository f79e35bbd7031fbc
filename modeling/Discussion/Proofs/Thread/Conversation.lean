import Discussion.Proofs.Thread.Index
import Mathlib.Logic.Relation

/-!
# Conversations as reachability

The ancestors of a post are what its targets lead to, and its descendants are
the posts whose targets lead to it; cycles change nothing about this. Together
with the post itself they are its conversation, which no target leads out of.
-/

namespace Discussion

namespace Thread

open Relation (ReflTransGen TransGen)

variable {t : Thread} {n m k p q : PostNumber} {unseen pending : List PostNumber}

/-- The post `n` replies to the post `m`. -/
def Replies (t : Thread) (n m : PostNumber) : Prop := t.target? n = some m

theorem Replies.unique (hm : t.Replies n m) (hk : t.Replies n k) : m = k :=
  Option.some.inj (hm.symm.trans hk)

/-- What is no longer unseen once `n` is seen is `n` or was seen before. -/
theorem eq_or_not_mem_of_not_mem_erase (h : k ∉ unseen.erase n) : k = n ∨ k ∉ unseen := by
  by_cases hk : k = n
  · exact Or.inl hk
  · exact Or.inr fun hmem => h ((List.mem_erase_of_ne hk).mpr hmem)

/-! ## Ancestors -/

theorem walkTargets_sound {next : Option PostNumber} (hm : m ∈ t.walkTargets unseen next) :
    m ∈ unseen ∧ ∃ n, next = some n ∧ ReflTransGen t.Replies n m := by
  fun_induction walkTargets t unseen next with
  | case1 => simp at hm
  | case2 unseen n hn ih =>
    rcases List.mem_cons.mp hm with rfl | hm
    · exact ⟨hn, m, rfl, .refl⟩
    · obtain ⟨hmem, k, hk, hpath⟩ := ih hm
      exact ⟨List.mem_of_mem_erase hmem, n, rfl, .head hk hpath⟩
  | case3 => simp at hm

theorem walkTargets_start (n : PostNumber) :
    n ∈ t.walkTargets unseen (some n) ∨ n ∉ unseen := by
  rw [walkTargets]
  split
  · exact Or.inl List.mem_cons_self
  · rename_i hn
    exact Or.inr hn

/-- The walk stops only where the next target has been seen. -/
theorem walkTargets_closed {next : Option PostNumber} (hm : m ∈ t.walkTargets unseen next)
    (hk : t.Replies m k) : k ∈ t.walkTargets unseen next ∨ k ∉ unseen := by
  fun_induction walkTargets t unseen next with
  | case1 => simp at hm
  | case2 unseen n hn ih =>
    have hlater : k ∈ t.walkTargets (unseen.erase n) (t.target? n) ∨ k ∉ unseen.erase n := by
      rcases List.mem_cons.mp hm with rfl | hm
      · rw [show t.target? m = some k from hk]
        exact walkTargets_start k
      · exact ih hm
    rcases hlater with hlater | hlater
    · exact Or.inl (List.mem_cons_of_mem _ hlater)
    · rcases eq_or_not_mem_of_not_mem_erase hlater with rfl | hseen
      · exact Or.inl List.mem_cons_self
      · exact Or.inr hseen
  | case3 => simp at hm

theorem Indexed.mem_erase_iff (h : t.Indexed) : m ∈ t.numbers.erase n ↔ m ≠ n ∧ m ∈ t.numbers :=
  h.nodup.mem_erase_iff

theorem Indexed.mem_ancestors_of_replies (h : t.Indexed) (hk : t.Replies n k) :
    k ∈ t.ancestors n := by
  have hmem := h.mem_erase_iff.mpr ⟨h.target?_ne hk, h.target?_mem hk⟩
  rw [ancestors, show t.target? n = some k from hk]
  exact (walkTargets_start k).resolve_right (not_not_intro hmem)

theorem Indexed.mem_ancestors_of_mem (h : t.Indexed) (hm : m ∈ t.ancestors n)
    (hk : t.Replies m k) (hkn : k ≠ n) : k ∈ t.ancestors n := by
  have hmem := h.mem_erase_iff.mpr ⟨hkn, h.target?_mem hk⟩
  exact (walkTargets_closed hm hk).resolve_right (not_not_intro hmem)

/-- The ancestors of a post are the other posts that its targets lead to. -/
theorem Indexed.mem_ancestors_iff (h : t.Indexed) :
    m ∈ t.ancestors n ↔ m ≠ n ∧ TransGen t.Replies n m := by
  constructor
  · intro hm
    obtain ⟨hmem, k, hk, hpath⟩ := walkTargets_sound hm
    exact ⟨(h.mem_erase_iff.mp hmem).1, TransGen.head' hk hpath⟩
  · rintro ⟨hne, hpath⟩
    have hall : m = n ∨ m ∈ t.ancestors n := by
      induction hpath with
      | single hk => exact Or.inr (h.mem_ancestors_of_replies hk)
      | @tail j k _ hk ih =>
        by_cases hkn : k = n
        · exact Or.inl hkn
        · by_cases hjn : j = n
          · exact Or.inr (h.mem_ancestors_of_replies (hjn ▸ hk))
          · have hj := (ih hjn).resolve_left hjn
            exact Or.inr (h.mem_ancestors_of_mem hj hk hkn)
    exact hall.resolve_left hne

/-! ## Descendants -/

theorem Indexed.mem_children_iff_replies (h : t.Indexed) (hn : n ∈ t.numbers) :
    m ∈ t.children n ↔ t.Replies m n := by
  rw [h.mem_children_iff, Replies, h.target?_eq_some_iff]
  constructor
  · rintro ⟨hnames, hne⟩
    exact ⟨hnames, hne.symm, hn⟩
  · rintro ⟨hnames, hne, -⟩
    exact ⟨hnames, hne.symm⟩

theorem Indexed.collectReplies_sound (h : t.Indexed) (hunseen : ∀ n ∈ unseen, n ∈ t.numbers)
    (hm : m ∈ t.collectReplies unseen pending) :
    m ∈ unseen ∧ ∃ n ∈ pending, ReflTransGen t.Replies m n := by
  fun_induction collectReplies t unseen pending with
  | case1 => simp at hm
  | case2 unseen n rest hn ih =>
    rcases List.mem_cons.mp hm with rfl | hm
    · exact ⟨hn, m, List.mem_cons_self, .refl⟩
    · obtain ⟨hmem, k, hk, hpath⟩ := ih (fun j hj => hunseen j (List.mem_of_mem_erase hj)) hm
      refine ⟨List.mem_of_mem_erase hmem, ?_⟩
      rcases List.mem_append.mp hk with hk | hk
      · have hreply := (h.mem_children_iff_replies (hunseen n hn)).mp hk
        exact ⟨n, List.mem_cons_self, hpath.tail hreply⟩
      · exact ⟨k, List.mem_cons_of_mem _ hk, hpath⟩
  | case3 unseen n rest hn ih =>
    obtain ⟨hmem, k, hk, hpath⟩ := ih hunseen hm
    exact ⟨hmem, k, List.mem_cons_of_mem _ hk, hpath⟩

theorem collectReplies_pending (hm : m ∈ pending) :
    m ∈ t.collectReplies unseen pending ∨ m ∉ unseen := by
  fun_induction collectReplies t unseen pending with
  | case1 => simp at hm
  | case2 unseen n rest hn ih =>
    rcases List.mem_cons.mp hm with rfl | hm
    · exact Or.inl List.mem_cons_self
    · rcases ih (List.mem_append_right _ hm) with hin | hout
      · exact Or.inl (List.mem_cons_of_mem _ hin)
      · rcases eq_or_not_mem_of_not_mem_erase hout with rfl | hseen
        · exact Or.inl List.mem_cons_self
        · exact Or.inr hseen
  | case3 unseen n rest hn ih =>
    rcases List.mem_cons.mp hm with rfl | hm
    · exact Or.inr hn
    · exact ih hm

/-- No reply to a collected post is left out, unless it had been seen. -/
theorem collectReplies_closed (hm : m ∈ t.collectReplies unseen pending)
    (hk : k ∈ t.children m) : k ∈ t.collectReplies unseen pending ∨ k ∉ unseen := by
  fun_induction collectReplies t unseen pending with
  | case1 => simp at hm
  | case2 unseen n rest hn ih =>
    have hlater : k ∈ t.collectReplies (unseen.erase n) (t.children n ++ rest) ∨
        k ∉ unseen.erase n := by
      rcases List.mem_cons.mp hm with rfl | hm
      · exact collectReplies_pending (List.mem_append_left _ hk)
      · exact ih hm
    rcases hlater with hlater | hlater
    · exact Or.inl (List.mem_cons_of_mem _ hlater)
    · rcases eq_or_not_mem_of_not_mem_erase hlater with rfl | hseen
      · exact Or.inl List.mem_cons_self
      · exact Or.inr hseen
  | case3 unseen n rest hn ih => exact ih hm

theorem Indexed.mem_descendants_of_replies (h : t.Indexed) (hk : t.Replies k n) :
    k ∈ t.descendants n := by
  have hmem := h.mem_erase_iff.mpr ⟨(h.target?_ne hk).symm, h.mem_of_target? hk⟩
  have hchild := (h.mem_children_iff_replies (h.target?_mem hk)).mpr hk
  exact (collectReplies_pending hchild).resolve_right (not_not_intro hmem)

theorem Indexed.mem_descendants_of_mem (h : t.Indexed) (hm : m ∈ t.descendants n)
    (hk : t.Replies k m) (hkn : k ≠ n) : k ∈ t.descendants n := by
  have hmem := h.mem_erase_iff.mpr ⟨hkn, h.mem_of_target? hk⟩
  have hchild := (h.mem_children_iff_replies (h.target?_mem hk)).mpr hk
  exact (collectReplies_closed hm hchild).resolve_right (not_not_intro hmem)

/-- The descendants of a post are the other posts whose targets lead to it. -/
theorem Indexed.mem_descendants_iff (h : t.Indexed) (hn : n ∈ t.numbers) :
    m ∈ t.descendants n ↔ m ≠ n ∧ TransGen t.Replies m n := by
  constructor
  · intro hm
    obtain ⟨hmem, k, hk, hpath⟩ :=
      h.collectReplies_sound (fun j hj => List.mem_of_mem_erase hj) hm
    exact ⟨(h.mem_erase_iff.mp hmem).1,
      TransGen.tail' hpath ((h.mem_children_iff_replies hn).mp hk)⟩
  · rintro ⟨hne, hpath⟩
    have hall : m = n ∨ m ∈ t.descendants n := by
      induction hpath using TransGen.head_induction_on with
      | single hk => exact Or.inr (h.mem_descendants_of_replies hk)
      | @head k j hk _ ih =>
        by_cases hkn : k = n
        · exact Or.inl hkn
        · by_cases hjn : j = n
          · exact Or.inr (h.mem_descendants_of_replies (hjn ▸ hk))
          · have hj := (ih hjn).resolve_left hjn
            exact Or.inr (h.mem_descendants_of_mem hj hk hkn)
    exact hall.resolve_left hne

/-- A post belongs to the conversation of `p` if targets lead from one of the
two to the other. -/
theorem Indexed.mem_conversation_iff (h : t.Indexed) (hp : p ∈ t.numbers) :
    q ∈ t.conversation p ↔ ReflTransGen t.Replies p q ∨ ReflTransGen t.Replies q p := by
  rw [conversation, List.cons_append, List.mem_cons, List.mem_append, h.mem_ancestors_iff,
    h.mem_descendants_iff hp, Relation.reflTransGen_iff_eq_or_transGen,
    Relation.reflTransGen_iff_eq_or_transGen]
  by_cases hq : q = p
  · simp [hq]
  · simp [hq, Ne.symm hq]

theorem Indexed.mem_of_mem_conversation (h : t.Indexed) (hp : p ∈ t.numbers)
    (hq : q ∈ t.conversation p) : q ∈ t.numbers := by
  rcases (h.mem_conversation_iff hp).mp hq with hpath | hpath
  · rcases ReflTransGen.cases_tail hpath with rfl | ⟨k, -, hk⟩
    · exact hp
    · exact h.target?_mem hk
  · rcases ReflTransGen.cases_head hpath with rfl | ⟨k, hk, -⟩
    · exact hp
    · exact h.mem_of_target? hk

/-- No target leads out of a conversation. -/
theorem Indexed.mem_conversation_of_replies (h : t.Indexed) (hp : p ∈ t.numbers)
    (hq : q ∈ t.conversation p) (hk : t.Replies q k) : k ∈ t.conversation p := by
  rw [h.mem_conversation_iff hp] at hq ⊢
  rcases hq with hpath | hpath
  · exact Or.inl (hpath.tail hk)
  · rcases ReflTransGen.cases_head hpath with rfl | ⟨j, hj, hrest⟩
    · exact Or.inl (.single hk)
    · exact Or.inr (hk.unique hj ▸ hrest)

end Thread

end Discussion
