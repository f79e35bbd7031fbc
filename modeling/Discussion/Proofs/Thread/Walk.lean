import Discussion.Proofs.Thread.Conversation
import Discussion.Proofs.Thread.Editing
import Discussion.Proofs.Thread.Opening
import Mathlib.Data.List.Chain
import Mathlib.Data.List.Perm.Subperm
import Mathlib.Logic.Function.Iterate

/-!
# Walking to the ancestors

The ancestors of a post are looked for by a walk from target to target. Nothing bounds
the walk in advance: it goes on as long as there is a target, and only what it has seen
cuts it short in a cycle. In every thread it ends within as many steps as there are
posts. What it has passed by then is the one way from target to target that repeats no
post and cannot go on.
-/

namespace Discussion

namespace Thread

variable {t : Thread} {n m : PostNumber} {unseen chain xs ys : List PostNumber}
  {next : Option PostNumber}

/-- `chain` leads from target to target, away from `n` and without repetition, as far
as this is possible. -/
structure IsMaximalWalk (t : Thread) (n : PostNumber) (chain : List PostNumber) : Prop where
  nodup : chain.Nodup
  not_mem : n ∉ chain
  /-- The first post is the target of `n`, and each further one is the target of the
  one before it. -/
  replies : (n :: chain).IsChain t.Replies
  /-- The last post has no target, or one that would repeat. -/
  stops : ∀ m, t.Replies (chain.getLastD n) m → m = n ∨ m ∈ chain

/-! ## There is one maximal walk -/

theorem isChain_append_cons_iff :
    (n :: (xs ++ m :: ys)).IsChain t.Replies ↔
      (n :: xs).IsChain t.Replies ∧ t.Replies (xs.getLastD n) m ∧
        (m :: ys).IsChain t.Replies := by
  rw [← List.cons_append, List.isChain_append, List.getLast?_cons, ← List.getLastD_eq_getLast?]
  simp [and_comm]

/-- Of two ways that start at one post, one goes on where the other ends. -/
theorem prefix_or_prefix_of_replies (hxs : (n :: xs).IsChain t.Replies)
    (hys : (n :: ys).IsChain t.Replies) : xs <+: ys ∨ ys <+: xs := by
  induction xs generalizing n ys with
  | nil => exact Or.inl List.nil_prefix
  | cons x xs ih =>
    cases ys with
    | nil => exact Or.inr List.nil_prefix
    | cons y ys =>
      obtain ⟨hx, hxs⟩ := List.isChain_cons_cons.mp hxs
      obtain ⟨hy, hys⟩ := List.isChain_cons_cons.mp hys
      obtain rfl := hx.unique hy
      simpa only [List.cons_prefix_cons, true_and] using ih hxs hys

namespace IsMaximalWalk

theorem eq_of_prefix (hxs : t.IsMaximalWalk n xs) (hys : t.IsMaximalWalk n ys)
    (hle : xs <+: ys) : xs = ys := by
  obtain ⟨rest, rfl⟩ := hle
  cases rest with
  | nil => rw [List.append_nil]
  | cons m rest =>
    have hreply : t.Replies (xs.getLastD n) m := (isChain_append_cons_iff.mp hys.replies).2.1
    exfalso
    rcases hxs.stops m hreply with rfl | hm
    · exact hys.not_mem (List.mem_append_right _ List.mem_cons_self)
    · exact List.disjoint_of_nodup_append hys.nodup hm List.mem_cons_self

theorem unique (hxs : t.IsMaximalWalk n xs) (hys : t.IsMaximalWalk n ys) : xs = ys := by
  rcases prefix_or_prefix_of_replies hxs.replies hys.replies with hle | hle
  · exact hxs.eq_of_prefix hys hle
  · exact (hys.eq_of_prefix hxs hle).symm

theorem head?_eq (h : t.IsMaximalWalk n chain) (hindexed : t.Indexed) :
    chain.head? = t.target? n := by
  cases chain with
  | cons m rest => exact (List.isChain_cons_cons.mp h.replies).1.symm
  | nil =>
    cases htarget : t.target? n with
    | none => rfl
    | some m =>
      rcases h.stops m htarget with rfl | hm
      · exact absurd rfl (hindexed.target?_ne htarget)
      · cases hm

end IsMaximalWalk

/-- A way without repetition is shorter than the thread. -/
theorem Indexed.length_lt_of_replies (h : t.Indexed) (hn : n ∈ t.numbers)
    (hnodup : (n :: chain).Nodup) (hreplies : (n :: chain).IsChain t.Replies) :
    chain.length < t.numbers.length := by
  have hchain : ∀ m ∈ chain, m ∈ t.numbers :=
    hreplies.cons_induction (· ∈ t.numbers) chain (fun _ _ hreply _ => h.target?_mem hreply) hn
  have hsubset : n :: chain ⊆ t.numbers := List.cons_subset.mpr ⟨hn, hchain⟩
  exact (hnodup.subperm hsubset).length_le

/-! ## The ancestors are a maximal walk -/

theorem nodup_walkTargets (hunseen : unseen.Nodup) : (t.walkTargets unseen next).Nodup := by
  fun_induction walkTargets t unseen next with
  | case1 => exact List.nodup_nil
  | case2 unseen n hn ih =>
    refine List.nodup_cons.mpr ⟨fun hmem => ?_, ih (hunseen.erase n)⟩
    exact hunseen.not_mem_erase (walkTargets_sound hmem).1
  | case3 => exact List.nodup_nil

theorem isChain_walkTargets (hnext : t.target? n = next) :
    (n :: t.walkTargets unseen next).IsChain t.Replies := by
  fun_induction walkTargets t unseen next generalizing n with
  | case1 => exact List.isChain_singleton n
  | case2 unseen m hm ih => exact List.isChain_cons_cons.mpr ⟨hnext, ih rfl⟩
  | case3 => exact List.isChain_singleton n

theorem Indexed.isMaximalWalk_ancestors (h : t.Indexed) (n : PostNumber) :
    t.IsMaximalWalk n (t.ancestors n) where
  nodup := nodup_walkTargets (h.nodup.erase n)
  not_mem hn := (h.mem_erase_iff.mp (walkTargets_sound hn).1).1 rfl
  replies := isChain_walkTargets rfl
  stops m hm := by
    by_cases hmn : m = n
    · exact Or.inl hmn
    · have hlast : (t.ancestors n).getLastD n ∈ n :: t.ancestors n := List.getLastD_mem_cons
      rcases List.mem_cons.mp hlast with hlast | hlast
      · exact Or.inr (h.mem_ancestors_of_replies (hlast ▸ hm))
      · exact Or.inr (h.mem_ancestors_of_mem hlast hm hmn)

/-! ## The walk, step by step -/

/-- A walk under way: the posts that it has passed, nearest first, all that it has seen,
and the target that comes next, if there is one. -/
structure Walk where
  chain : List PostNumber
  seen : List PostNumber
  next : Option PostNumber
deriving DecidableEq

namespace Walk

variable {w : Walk}

/-- At first, only the post is seen from which the walk starts. -/
def start (t : Thread) (n : PostNumber) : Walk := ⟨[], [n], t.target? n⟩

/-- Passes the next target and turns to the target of that. The walk ends at a target
that has been seen. -/
def step (t : Thread) (w : Walk) : Walk :=
  match w.next with
  | none => w
  | some m =>
    if m ∈ w.seen then { w with next := none }
    else { chain := w.chain ++ [m], seen := m :: w.seen, next := t.target? m }

theorem step_cases (t : Thread) (w : Walk) :
    (w.next = none ∧ w.step t = w) ∨
    (∃ m, w.next = some m ∧ m ∈ w.seen ∧ w.step t = { w with next := none }) ∨
    (∃ m, w.next = some m ∧ m ∉ w.seen ∧
      w.step t = { chain := w.chain ++ [m], seen := m :: w.seen, next := t.target? m }) := by
  rw [step]
  cases hnext : w.next with
  | none => exact Or.inl ⟨rfl, rfl⟩
  | some m =>
    by_cases hm : m ∈ w.seen
    · exact Or.inr (Or.inl ⟨m, rfl, hm, if_pos hm⟩)
    · exact Or.inr (Or.inr ⟨m, rfl, hm, if_neg hm⟩)

/-- The walk has followed the targets from `n` on, and what comes next is the target of
the post passed last. It has ended only where that target was seen or missing. -/
structure Follows (t : Thread) (n : PostNumber) (w : Walk) : Prop where
  mem_seen_iff : ∀ m, m ∈ w.seen ↔ m = n ∨ m ∈ w.chain
  nodup : w.chain.Nodup
  not_mem : n ∉ w.chain
  replies : (n :: w.chain).IsChain t.Replies
  next : ∀ m, w.next = some m → t.Replies (w.chain.getLastD n) m
  stops : ∀ m, t.Replies (w.chain.getLastD n) m → w.next = some m ∨ m = n ∨ m ∈ w.chain

theorem follows_start (t : Thread) (n : PostNumber) : (start t n).Follows t n where
  mem_seen_iff m := by simp [start]
  nodup := List.nodup_nil
  not_mem := List.not_mem_nil
  replies := List.isChain_singleton n
  next _ hm := hm
  stops _ hm := Or.inl hm

theorem Follows.stop (h : w.Follows t n) (hnext : w.next = some m) (hm : m ∈ w.seen) :
    Follows t n { w with next := none } where
  mem_seen_iff := h.mem_seen_iff
  nodup := h.nodup
  not_mem := h.not_mem
  replies := h.replies
  next k hk := by cases hk
  stops k hk := by
    rcases h.stops k hk with hk | hk
    · obtain rfl : m = k := Option.some.inj (hnext.symm.trans hk)
      exact Or.inr ((h.mem_seen_iff m).mp hm)
    · exact Or.inr hk

theorem Follows.pass (h : w.Follows t n) (hnext : w.next = some m) (hm : m ∉ w.seen) :
    Follows t n { chain := w.chain ++ [m], seen := m :: w.seen, next := t.target? m } := by
  obtain ⟨hmn, hchain⟩ : m ≠ n ∧ m ∉ w.chain := not_or.mp (mt (h.mem_seen_iff m).mpr hm)
  constructor
  case mem_seen_iff =>
    intro k
    simp only [List.mem_cons, h.mem_seen_iff, List.mem_append, List.not_mem_nil, or_false]
    tauto
  case nodup =>
    rw [← List.concat_eq_append]
    exact h.nodup.concat hchain
  case not_mem =>
    intro hn
    rcases List.mem_append.mp hn with hn | hn
    · exact h.not_mem hn
    · exact hmn (List.mem_singleton.mp hn).symm
  case replies =>
    exact isChain_append_cons_iff.mpr ⟨h.replies, h.next m hnext, List.isChain_singleton m⟩
  case next =>
    intro k hk
    rwa [List.getLastD_concat]
  case stops =>
    intro k hk
    rw [List.getLastD_concat] at hk
    exact Or.inl hk

theorem Follows.step (h : w.Follows t n) : (w.step t).Follows t n := by
  rcases step_cases t w with ⟨-, heq⟩ | ⟨m, hnext, hm, heq⟩ | ⟨m, hnext, hm, heq⟩
  · rwa [heq]
  · rw [heq]
    exact h.stop hnext hm
  · rw [heq]
    exact h.pass hnext hm

theorem follows_iterate (t : Thread) (n : PostNumber) (k : Nat) :
    ((step t)^[k] (start t n)).Follows t n := by
  induction k with
  | zero => exact follows_start t n
  | succ k ih =>
    rw [Function.iterate_succ_apply']
    exact ih.step

theorem Follows.isMaximalWalk (h : w.Follows t n) (hend : w.next = none) :
    t.IsMaximalWalk n w.chain where
  nodup := h.nodup
  not_mem := h.not_mem
  replies := h.replies
  stops m hm := (h.stops m hm).resolve_left (by simp [hend])

/-- As long as it does not end, the walk passes one post with each step. -/
theorem next_iterate_eq_none_or (t : Thread) (n : PostNumber) (k : Nat) :
    ((step t)^[k] (start t n)).next = none ∨ ((step t)^[k] (start t n)).chain.length = k := by
  induction k with
  | zero => exact Or.inr rfl
  | succ k ih =>
    rw [Function.iterate_succ_apply']
    generalize (step t)^[k] (start t n) = w at ih
    rcases step_cases t w with ⟨hnext, heq⟩ | ⟨m, -, -, heq⟩ | ⟨m, hnext, -, heq⟩
    · exact Or.inl (by rw [heq, hnext])
    · exact Or.inl (by rw [heq])
    · have hlength : w.chain.length = k := ih.resolve_left (by simp [hnext])
      exact Or.inr (by simp [heq, hlength])

/-- However the targets lie, the walk ends within as many steps as there are posts. -/
theorem next_iterate_eq_none (h : t.Indexed) (hn : n ∈ t.numbers) {k : Nat}
    (hk : t.numbers.length ≤ k) : ((step t)^[k] (start t n)).next = none := by
  have hfollows := follows_iterate t n k
  have hshort := h.length_lt_of_replies hn
    (List.nodup_cons.mpr ⟨hfollows.not_mem, hfollows.nodup⟩) hfollows.replies
  exact (next_iterate_eq_none_or t n k).resolve_right (by omega)

end Walk

/-! ## The whole of it -/

/-- In a thread that has been built, the walk from any of its posts ends within as many
steps as there are posts, and has then passed the ancestors of the post. They are its
one maximal walk: they begin with its target and are fewer than the posts. -/
theorem Built.ancestors_eq_walk (h : t.Built) (hn : n ∈ t.numbers) :
    (∀ k, t.numbers.length ≤ k →
      ((Walk.step t)^[k] (.start t n)).next = none ∧
        ((Walk.step t)^[k] (.start t n)).chain = t.ancestors n) ∧
    t.IsMaximalWalk n (t.ancestors n) ∧
    (∀ chain, t.IsMaximalWalk n chain → chain = t.ancestors n) ∧
    (t.ancestors n).head? = t.target? n ∧
    (t.ancestors n).length < t.numbers.length := by
  have hindexed := h.indexed
  have hwalk := hindexed.isMaximalWalk_ancestors n
  refine ⟨fun k hk => ?_, hwalk, fun chain hchain => hchain.unique hwalk,
    hwalk.head?_eq hindexed, ?_⟩
  · have hend := Walk.next_iterate_eq_none hindexed hn hk
    exact ⟨hend, ((Walk.follows_iterate t n k).isMaximalWalk hend).unique hwalk⟩
  · exact hindexed.length_lt_of_replies hn
      (List.nodup_cons.mpr ⟨hwalk.not_mem, hwalk.nodup⟩) hwalk.replies

section

open Sample

/-- The thread of a post whose target and the target of that reply to each other. One
reply is bound before its target comes, and one post is refused. -/
def tailed : Thread :=
  ((((Thread.edit { slug := (snapshot []).slug } (.push (post one (some two)))).edit
    (.bind one)).edit (.push (post two (some three)))).edit (.push (post one none))).edit
      (.push (post three (some two)))

/-- The walk passes both posts of the cycle and stops where the first would repeat. -/
theorem ancestors_eq_walk_tailed :
    tailed.Built ∧ one ∈ tailed.numbers ∧ tailed.ancestors one = [two, three] ∧
    tailed.target? three = some two ∧
    (Walk.step tailed)^[3] (.start tailed one) = ⟨[two, three], [three, two, one], none⟩ ∧
    ∀ chain, tailed.IsMaximalWalk one chain → chain = [two, three] := by
  have hbuilt : tailed.Built :=
    (((((Built.blank (snapshot []).slug false 0).edit _).edit _).edit _).edit _).edit _
  have hone : one ∈ tailed.numbers := by decide
  have hsteps : (Walk.step tailed)^[3] (.start tailed one) =
      ⟨[two, three], [three, two, one], none⟩ := by decide
  obtain ⟨hends, -, hunique, -, -⟩ := hbuilt.ancestors_eq_walk hone
  have hancestors : [two, three] = tailed.ancestors one := by
    have hchain := (hends 3 (by decide)).2
    rwa [hsteps] at hchain
  refine ⟨hbuilt, hone, hancestors.symm, by decide, hsteps, fun chain hchain => ?_⟩
  rw [hunique chain hchain, hancestors]

end

end Thread

end Discussion
