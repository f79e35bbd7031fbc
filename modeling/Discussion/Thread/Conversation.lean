import Discussion.Thread.Basic

/-!
# Conversations

The ancestors and descendants of a post in the reply graph. Replies may form
cycles, so both walks carry the posts that are still unseen; a post leaves them
when it is reached, and their number bounds the walk.
-/

namespace Discussion.Thread

/-- Walks from target to target, starting with `next`, as long as it meets
posts that are still unseen. -/
def walkTargets (t : Thread) (unseen : List PostNumber) (next : Option PostNumber) :
    List PostNumber :=
  match next with
  | none => []
  | some n =>
    if n ∈ unseen then n :: t.walkTargets (unseen.erase n) (t.target? n) else []
termination_by unseen.length
decreasing_by
  rename_i h
  have := List.length_pos_of_mem h
  rw [List.length_erase_of_mem h]
  omega

/-- The targets of a post, nearest first, up to the post that starts the
conversation or to the first that would repeat. -/
def ancestors (t : Thread) (n : PostNumber) : List PostNumber :=
  t.walkTargets (t.numbers.erase n) (t.target? n)

/-- The replies to `n` in order of arrival. -/
def children (t : Thread) (n : PostNumber) : List PostNumber :=
  (t.repliesTo n).filter fun reply => reply ≠ n ∧ t.contains reply

/-- Collects the unseen posts among `pending`, their replies, and so on. -/
def collectReplies (t : Thread) (unseen pending : List PostNumber) : List PostNumber :=
  match pending with
  | [] => []
  | n :: rest =>
    if n ∈ unseen then n :: t.collectReplies (unseen.erase n) (t.children n ++ rest)
    else t.collectReplies unseen rest
termination_by (unseen.length, pending.length)
decreasing_by
  · rename_i h
    have := List.length_pos_of_mem h
    apply Prod.Lex.left
    rw [List.length_erase_of_mem h]
    omega
  · apply Prod.Lex.right
    simp

/-- All posts whose chain of targets reaches `n`, each once and without `n`
itself. -/
def descendants (t : Thread) (n : PostNumber) : List PostNumber :=
  t.collectReplies (t.numbers.erase n) (t.children n)

/-- The posts that a fold on `n` keeps: `n`, its ancestors and its descendants. -/
def conversation (t : Thread) (n : PostNumber) : List PostNumber :=
  n :: t.ancestors n ++ t.descendants n

end Discussion.Thread
