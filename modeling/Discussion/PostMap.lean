import Discussion.Reference.Number

/-!
# Maps keyed by post numbers

A finite map whose entries keep the order in which their keys first came in.
-/

namespace Discussion

/-- A finite map from post numbers, as its entries in order of insertion. -/
structure PostMap (α : Type) where
  entries : List (PostNumber × α) := []
deriving DecidableEq

namespace PostMap

variable {α : Type}

/-- The value stored under a post number. -/
def get? (m : PostMap α) (n : PostNumber) : Option α := m.entries.lookup n

/-- Whether a value is stored under a post number. -/
def contains (m : PostMap α) (n : PostNumber) : Bool := (m.get? n).isSome

/-- The post numbers with a value, in order of insertion. -/
def keys (m : PostMap α) : List PostNumber := m.entries.map (·.1)

/-- Applies `f` to every value. -/
def map (m : PostMap α) (f : PostNumber → α → α) : PostMap α :=
  ⟨m.entries.map fun e => (e.1, f e.1 e.2)⟩

/-- Applies `f` to the value stored under `n`, if there is one. -/
def modify (m : PostMap α) (n : PostNumber) (f : α → α) : PostMap α :=
  m.map fun k a => if k = n then f a else a

/-- Stores `a` under `n`, in place of the value that may be there. -/
def insert (m : PostMap α) (n : PostNumber) (a : α) : PostMap α :=
  if m.contains n then m.modify n fun _ => a else ⟨m.entries ++ [(n, a)]⟩

@[simp]
theorem get?_map (m : PostMap α) (f : PostNumber → α → α) (n : PostNumber) :
    (m.map f).get? n = (m.get? n).map (f n) := by
  obtain ⟨entries⟩ := m
  simp only [get?, map]
  induction entries with
  | nil => rfl
  | cons e rest ih =>
    obtain ⟨k, a⟩ := e
    by_cases h : n = k
    · subst h; simp
    · simp [List.lookup_cons, beq_false_of_ne h, ih]

@[simp]
theorem keys_map (m : PostMap α) (f : PostNumber → α → α) : (m.map f).keys = m.keys := by
  simp [keys, map]

@[simp]
theorem keys_modify (m : PostMap α) (n : PostNumber) (f : α → α) :
    (m.modify n f).keys = m.keys := by
  simp [modify]

theorem get?_modify (m : PostMap α) (n k : PostNumber) (f : α → α) :
    (m.modify n f).get? k = if k = n then (m.get? k).map f else m.get? k := by
  by_cases h : k = n <;> simp [modify, h]

@[simp]
theorem get?_empty (n : PostNumber) : (⟨[]⟩ : PostMap α).get? n = none := rfl

theorem get?_insert (m : PostMap α) (n k : PostNumber) (a : α) :
    (m.insert n a).get? k = if k = n then some a else m.get? k := by
  by_cases hm : m.contains n = true
  · rw [insert, if_pos hm, get?_modify]
    by_cases h : k = n
    · subst h
      obtain ⟨b, hb⟩ := Option.isSome_iff_exists.mp hm
      simp [hb]
    · simp [h]
  · rw [insert, if_neg hm]
    have hnone : m.get? n = none := by simpa [contains] using hm
    simp only [get?, List.lookup_append, List.lookup_cons, List.lookup_nil] at hnone ⊢
    by_cases h : k = n
    · subst h; simp [hnone]
    · simp [h, beq_false_of_ne h]

theorem keys_insert_of_not_contains {m : PostMap α} {n : PostNumber} (h : m.contains n = false)
    (a : α) : (m.insert n a).keys = m.keys ++ [n] := by
  simp [insert, h, keys]

end PostMap

end Discussion
