import Discussion.Proofs.Thread.Conversation
import Discussion.Proofs.Thread.Editing
import Discussion.Proofs.Thread.Opening
import Mathlib.Logic.Function.Iterate

/-!
# Searching for descendants

The descendants of a post are searched for with a stack of replies. Nothing bounds
the search in advance: it goes on as long as there is a reply on the stack, and only
what it has found cuts the cycles. In every thread it comes to an end, and then it has
found the posts of whose ancestors the post is one.
-/

namespace Discussion

namespace Thread

open Relation (ReflTransGen TransGen)

/-- A search under way: the posts that have been found, and the stack of those that
are still to be looked at, from its top. -/
structure Search where
  found : List PostNumber
  stack : List PostNumber
deriving DecidableEq

namespace Search

variable {t : Thread} {root n m k : PostNumber} {x : Search}

/-- The search begins with the replies to the root, the last one on top. -/
def start (t : Thread) (root : PostNumber) : Search := ⟨[], (t.children root).reverse⟩

/-- Takes a post off the stack. A post that is neither the root nor found before is
found now, and its replies are put on the stack. -/
def step (t : Thread) (root : PostNumber) (x : Search) : Search :=
  match x.stack with
  | [] => x
  | n :: rest =>
    if n = root ∨ n ∈ x.found then { x with stack := rest }
    else { found := n :: x.found, stack := (t.children n).reverse ++ rest }

theorem step_of_seen {rest : List PostNumber} (hstack : x.stack = n :: rest)
    (hn : n = root ∨ n ∈ x.found) : x.step t root = { x with stack := rest } := by
  rw [step, hstack]
  exact if_pos hn

theorem step_of_new {rest : List PostNumber} (hstack : x.stack = n :: rest)
    (hn : ¬ (n = root ∨ n ∈ x.found)) :
    x.step t root = { found := n :: x.found, stack := (t.children n).reverse ++ rest } := by
  rw [step, hstack]
  exact if_neg hn

/-! ## The end of the search -/

/-- The posts of the thread that have not been found. -/
def unfound (t : Thread) (x : Search) : List PostNumber := t.numbers.filter (· ∉ x.found)

theorem stack_step (h : t.Indexed) (hx : ∀ n ∈ x.stack, n ∈ t.numbers) :
    ∀ n ∈ (x.step t root).stack, n ∈ t.numbers := by
  cases hstack : x.stack with
  | nil =>
    rw [step, hstack]
    exact hx
  | cons n rest =>
    rw [hstack, List.forall_mem_cons] at hx
    by_cases hn : n = root ∨ n ∈ x.found
    · rw [step_of_seen hstack hn]
      exact hx.2
    · rw [step_of_new hstack hn]
      intro k hk
      rcases List.mem_append.mp hk with hk | hk
      · exact (h.mem_children_iff.mp (List.mem_reverse.mp hk)).1.mem
      · exact hx.2 k hk

/-- A step finds a post, or it makes the stack lower. -/
theorem step_lt (hx : ∀ n ∈ x.stack, n ∈ t.numbers) (hstack : x.stack ≠ []) :
    Prod.Lex (· < ·) (· < ·)
      (((x.step t root).unfound t).length, (x.step t root).stack.length)
      ((x.unfound t).length, x.stack.length) := by
  obtain ⟨n, rest, hstack⟩ := List.exists_cons_of_ne_nil hstack
  rw [hstack, List.forall_mem_cons] at hx
  by_cases hn : n = root ∨ n ∈ x.found
  · rw [step_of_seen hstack hn, hstack]
    exact Prod.Lex.right _ (Nat.lt_succ_self _)
  · have hunfound : n ∈ x.unfound t :=
      List.mem_filter.mpr ⟨hx.1, decide_eq_true (not_or.mp hn).2⟩
    have herase : (x.step t root).unfound t = (x.unfound t).filter (· ≠ n) := by
      rw [step_of_new hstack hn, unfound, unfound, List.filter_filter]
      simp
    apply Prod.Lex.left
    rw [herase, List.length_filter_lt_length_iff_exists]
    exact ⟨n, hunfound, by simp⟩

/-- However the replies lie, the stack runs out. -/
theorem exists_iterate_stack_eq_nil (h : t.Indexed) (root : PostNumber) (x : Search)
    (hx : ∀ n ∈ x.stack, n ∈ t.numbers) : ∃ k, ((step t root)^[k] x).stack = [] := by
  by_cases hstack : x.stack = []
  · exact ⟨0, hstack⟩
  · obtain ⟨k, hk⟩ := exists_iterate_stack_eq_nil h root (x.step t root) (stack_step h hx)
    exact ⟨k + 1, hk⟩
termination_by ((x.unfound t).length, x.stack.length)
decreasing_by exact step_lt hx hstack

/-! ## What is found -/

/-- All that has been found or is on the stack leads to the root, and no reply to
what has been found is left out. -/
structure Leads (t : Thread) (root : PostNumber) (x : Search) : Prop where
  found : ∀ n ∈ x.found, n ≠ root ∧ TransGen t.Replies n root
  stack : ∀ n ∈ x.stack, TransGen t.Replies n root
  closed : ∀ n, n = root ∨ n ∈ x.found → ∀ k, t.Replies k n →
    k = root ∨ k ∈ x.found ∨ k ∈ x.stack

theorem leads_start (h : t.Indexed) (hroot : root ∈ t.numbers) : (start t root).Leads t root where
  found n hn := by cases hn
  stack n hn := .single ((h.mem_children_iff_replies hroot).mp (List.mem_reverse.mp hn))
  closed n hn k hk := by
    rcases hn with rfl | hn
    · exact Or.inr (Or.inr (List.mem_reverse.mpr ((h.mem_children_iff_replies hroot).mpr hk)))
    · cases hn

theorem Leads.step (hx : x.Leads t root) (h : t.Indexed) : (x.step t root).Leads t root := by
  cases hstack : x.stack with
  | nil =>
    rw [Search.step, hstack]
    exact hx
  | cons n rest =>
    have hpath : TransGen t.Replies n root := hx.stack n (by rw [hstack]; exact List.mem_cons_self)
    have hrest : ∀ k ∈ rest, TransGen t.Replies k root :=
      fun k hk => hx.stack k (by rw [hstack]; exact List.mem_cons_of_mem n hk)
    have hclosed := hx.closed
    rw [hstack] at hclosed
    by_cases hn : n = root ∨ n ∈ x.found
    · rw [step_of_seen hstack hn]
      refine ⟨hx.found, hrest, ?_⟩
      intro m hm k hk
      rcases hclosed m hm k hk with hk | hk | hk
      · exact Or.inl hk
      · exact Or.inr (Or.inl hk)
      · rcases List.mem_cons.mp hk with rfl | hk
        · exact hn.imp_right Or.inl
        · exact Or.inr (Or.inr hk)
    · obtain ⟨j, hj, -⟩ := TransGen.head'_iff.mp hpath
      have hreplies : ∀ k, k ∈ (t.children n).reverse ↔ t.Replies k n := by
        intro k
        rw [List.mem_reverse]
        exact h.mem_children_iff_replies (h.mem_of_target? hj)
      rw [step_of_new hstack hn]
      constructor
      case found =>
        intro k hk
        rcases List.mem_cons.mp hk with rfl | hk
        · exact ⟨fun heq => hn (Or.inl heq), hpath⟩
        · exact hx.found k hk
      case stack =>
        intro k hk
        rcases List.mem_append.mp hk with hk | hk
        · exact .head ((hreplies k).mp hk) hpath
        · exact hrest k hk
      case closed =>
        intro m hm k hk
        by_cases hmn : m = n
        · exact Or.inr (Or.inr (List.mem_append_left _ ((hreplies k).mpr (hmn ▸ hk))))
        · have hold := hm.imp_right fun hm => (List.mem_cons.mp hm).resolve_left hmn
          rcases hclosed m hold k hk with hk | hk | hk
          · exact Or.inl hk
          · exact Or.inr (Or.inl (List.mem_cons_of_mem n hk))
          · rcases List.mem_cons.mp hk with rfl | hk
            · exact Or.inr (Or.inl List.mem_cons_self)
            · exact Or.inr (Or.inr (List.mem_append_right _ hk))

theorem Leads.iterate (hx : x.Leads t root) (h : t.Indexed) (k : Nat) :
    ((Search.step t root)^[k] x).Leads t root := by
  induction k generalizing x with
  | zero => exact hx
  | succ k ih => exact ih (hx.step h)

/-- Once the stack is empty, the search has found all that leads to the root. -/
theorem Leads.mem_found_iff (hx : x.Leads t root) (hstack : x.stack = []) :
    n ∈ x.found ↔ n ≠ root ∧ TransGen t.Replies n root := by
  have hclosed : ∀ m, m = root ∨ m ∈ x.found → ∀ k, t.Replies k m → k = root ∨ k ∈ x.found := by
    intro m hm k hk
    rcases hx.closed m hm k hk with hk | hk | hk
    · exact Or.inl hk
    · exact Or.inr hk
    · rw [hstack] at hk
      cases hk
  constructor
  · exact hx.found n
  · rintro ⟨hne, hpath⟩
    have hall : n = root ∨ n ∈ x.found := by
      induction hpath using TransGen.head_induction_on with
      | single hk => exact hclosed root (Or.inl rfl) _ hk
      | @head k j hk _ ih =>
        by_cases hj : j = root
        · exact hclosed j (Or.inl hj) k hk
        · exact hclosed j (ih hj) k hk
    exact hall.resolve_left hne

/-- The search comes to an end with the descendants of its root. -/
theorem exists_iterate_found (h : t.Indexed) (hroot : root ∈ t.numbers) :
    ∃ k, ((step t root)^[k] (start t root)).stack = [] ∧
      ∀ n, n ∈ ((step t root)^[k] (start t root)).found ↔ n ∈ t.descendants root := by
  have hstart : ∀ n ∈ (start t root).stack, n ∈ t.numbers :=
    fun n hn => (h.mem_children_iff.mp (List.mem_reverse.mp hn)).1.mem
  obtain ⟨k, hk⟩ := exists_iterate_stack_eq_nil h root (start t root) hstart
  refine ⟨k, hk, fun n => ?_⟩
  rw [((leads_start h hroot).iterate h k).mem_found_iff hk, h.mem_descendants_iff hroot]

end Search

/-! ## Ancestors and descendants -/

variable {t : Thread} {p : PostNumber}

/-- In a thread that has been built, the search for the descendants of a post comes to
an end and finds them. They are the posts of whose ancestors the post is one, which are
the other posts from which one target or several lead to it; no post is among its own
ancestors or descendants. -/
theorem Built.mem_descendants_iff_mem_ancestors (h : t.Built) (hp : p ∈ t.numbers) :
    (∃ k, ((Search.step t p)^[k] (.start t p)).stack = [] ∧
      ∀ d, d ∈ ((Search.step t p)^[k] (.start t p)).found ↔ d ∈ t.descendants p) ∧
    (∀ d, (d ∈ t.descendants p ↔ p ∈ t.ancestors d) ∧
      (p ∈ t.ancestors d ↔ d ≠ p ∧ TransGen t.Replies d p)) ∧
    p ∉ t.descendants p ∧ p ∉ t.ancestors p := by
  have hindexed := h.indexed
  have hancestors : ∀ d, p ∈ t.ancestors d ↔ d ≠ p ∧ TransGen t.Replies d p := by
    intro d
    rw [hindexed.mem_ancestors_iff, ne_comm]
  have hdescendants : ∀ d, d ∈ t.descendants p ↔ d ≠ p ∧ TransGen t.Replies d p :=
    fun d => hindexed.mem_descendants_iff hp
  refine ⟨Search.exists_iterate_found hindexed hp, fun d => ⟨?_, hancestors d⟩, ?_, ?_⟩
  · rw [hdescendants, hancestors]
  · rw [hdescendants]
    exact fun hself => hself.1 rfl
  · rw [hancestors]
    exact fun hself => hself.1 rfl

section

open Sample

/-- The thread of two posts that reply to each other and one that replies to itself.
One reply is bound before its target comes, and one post is refused. -/
def knotted : Thread :=
  ((((Thread.edit { slug := (snapshot []).slug } (.push (post one (some two)))).edit
    (.bind one)).edit (.push (post two (some one)))).edit (.push (post one none))).edit
      (.push (post three (some three)))

/-- In the cycle either post is both an ancestor and a descendant of the other. -/
theorem mem_descendants_iff_mem_ancestors_knotted :
    knotted.Built ∧ one ∈ knotted.numbers ∧
    two ∈ knotted.descendants one ∧ one ∈ knotted.ancestors two ∧
    one ∈ knotted.descendants two ∧ two ∈ knotted.ancestors one ∧
    three ∉ knotted.descendants three ∧ three ∉ knotted.ancestors three := by
  have hbuilt : knotted.Built :=
    (((((Built.blank (snapshot []).slug false 0).edit _).edit _).edit _).edit _).edit _
  have hone : one ∈ knotted.numbers := by decide
  have hreply : knotted.Replies one two ∧ knotted.Replies two one := by
    constructor <;> rw [Replies] <;> decide
  obtain ⟨-, hfirst, -, -⟩ := hbuilt.mem_descendants_iff_mem_ancestors hone
  obtain ⟨-, hsecond, -, -⟩ :=
    hbuilt.mem_descendants_iff_mem_ancestors (p := two) (by decide)
  obtain ⟨-, -, hself⟩ := hbuilt.mem_descendants_iff_mem_ancestors (p := three) (by decide)
  have hancestor := (hfirst two).2.mpr ⟨by decide, .single hreply.2⟩
  have hancestor' := (hsecond one).2.mpr ⟨by decide, .single hreply.1⟩
  exact ⟨hbuilt, hone, (hfirst two).1.mpr hancestor, hancestor, (hsecond one).1.mpr hancestor',
    hancestor', hself⟩

end

end Thread

end Discussion
