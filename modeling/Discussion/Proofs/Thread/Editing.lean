import Discussion.Proofs.Thread.Growth

/-!
# Threads as they are built

A thread is built by adding posts and binding replies, in any order and any number
of times. A post whose number is in use is refused, and then the thread stays as it
was. Whatever the edits are, its indexes say what its list of posts says.
-/

namespace Discussion

namespace Thread

variable {t : Thread}

/-- What can be done to a thread while it is built. -/
inductive Edit
  | push (p : Post)
  | bind (reply : PostNumber)
deriving DecidableEq

/-- The thread after an edit. -/
def edit (t : Thread) : Edit → Thread
  | .push p =>
    match t.push p with
    | .ok u => u
    | .error _ => t
  | .bind reply => t.bind reply

/-- The threads that edits make of a thread without posts. -/
inductive Built : Thread → Prop
  | blank (slug : Slug) (locked : Bool) (viewMarker : UInt64) :
      Built { slug, locked, viewMarker }
  | edit {t : Thread} (h : Built t) (e : Edit) : Built (t.edit e)

/-- A post is refused, or it is added at the end. -/
theorem edit_push_cases (t : Thread) (p : Post) :
    t.edit (.push p) = t ∨ t.contains p.number = false ∧ t.edit (.push p) = t.extend p := by
  rw [edit]
  cases hp : t.contains p.number with
  | true =>
    rw [push_of_contains hp]
    exact Or.inl rfl
  | false =>
    rw [push_of_not_contains hp]
    exact Or.inr ⟨rfl, rfl⟩

theorem Indexed.edit (h : t.Indexed) (e : Edit) : (t.edit e).Indexed := by
  cases e with
  | push p =>
    rcases edit_push_cases t p with heq | ⟨hp, heq⟩
    · rwa [heq]
    · rw [heq]
      exact h.extend (h.contains_eq_false_iff.mp hp)
  | bind reply => exact h.bind reply

theorem Built.indexed (h : t.Built) : t.Indexed := by
  induction h with
  | blank slug locked viewMarker => exact indexed_of_empty slug locked viewMarker
  | edit _ e ih => exact ih.edit e

end Thread

end Discussion
