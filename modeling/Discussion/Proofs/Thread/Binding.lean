import Discussion.Proofs.Thread.Extension
import Mathlib.Data.List.Induction

/-!
# Links as a record of bindings

A reply is linked back when it is bound, and it may be bound early, late, again, or
never. Whatever else is done to a thread meanwhile, the links of a post are the replies
that were bound while the post was their target, in the order in which this was first
done. A snapshot binds all its posts once they are there, so in a thread just opened the
links of a post are its children.
-/

namespace Discussion

theorem eraseDups_concat {α : Type} [DecidableEq α] (xs : List α) (a : α) :
    (xs ++ [a]).eraseDups = if a ∈ xs then xs.eraseDups else xs.eraseDups ++ [a] := by
  rw [List.eraseDups_append]
  by_cases ha : a ∈ xs
  · simp [List.removeAll, ha]
  · simp [List.removeAll, ha, List.eraseDups_cons]

theorem nodup_eraseDups {α : Type} [DecidableEq α] (xs : List α) : xs.eraseDups.Nodup := by
  induction xs using List.reverseRecOn with
  | nil => exact List.nodup_nil
  | append_singleton xs a ih =>
    rw [eraseDups_concat]
    split
    · exact ih
    · rename_i ha
      refine List.nodup_append.mpr ⟨ih, List.nodup_singleton a, ?_⟩
      rintro b hb c hc rfl
      exact ha (List.mem_eraseDups.mp (List.mem_singleton.mp hc ▸ hb))

namespace Thread

variable {t start : Thread} {p : Post} {n m r k : PostNumber} {e : Edit} {es : List Edit}
  {s : Snapshot}

/-- The thread after edits, one after the other. -/
def editAll (t : Thread) (es : List Edit) : Thread := es.foldl edit t

/-- The reply that an edit binds to `n`, if it binds one. -/
def Edit.bindsTo (t : Thread) (n : PostNumber) : Edit → List PostNumber
  | .push _ => []
  | .bind r => if t.target? r = some n then [r] else []

/-- The replies that edits bind to `n`, in the order of the edits. A reply that is bound
again stands there again. -/
def boundTo (t : Thread) (n : PostNumber) : List Edit → List PostNumber
  | [] => []
  | e :: es => e.bindsTo t n ++ (t.edit e).boundTo n es

@[simp]
theorem editAll_nil (t : Thread) : t.editAll [] = t := rfl

@[simp]
theorem editAll_cons (t : Thread) (e : Edit) (es : List Edit) :
    t.editAll (e :: es) = (t.edit e).editAll es := rfl

theorem editAll_concat (t : Thread) (es : List Edit) (e : Edit) :
    t.editAll (es ++ [e]) = (t.editAll es).edit e := by
  rw [editAll, List.foldl_append]
  rfl

theorem boundTo_concat (t : Thread) (n : PostNumber) (es : List Edit) (e : Edit) :
    t.boundTo n (es ++ [e]) = t.boundTo n es ++ e.bindsTo (t.editAll es) n := by
  induction es generalizing t with
  | nil => simp [boundTo]
  | cons d es ih => rw [List.cons_append, boundTo, boundTo, ih, List.append_assoc, editAll_cons]

theorem Edit.mem_bindsTo_iff : r ∈ e.bindsTo t n ↔ e = .bind r ∧ t.target? r = some n := by
  cases e with
  | push p => simp [bindsTo]
  | bind k =>
    rw [bindsTo]
    split
    · rename_i hk
      simp only [List.mem_singleton, Edit.bind.injEq]
      constructor
      · rintro rfl
        exact ⟨rfl, hk⟩
      · rintro ⟨rfl, -⟩
        rfl
    · rename_i hk
      simp only [List.not_mem_nil, Edit.bind.injEq, false_iff, not_and]
      rintro rfl
      exact hk

/-- A reply stands among those bound to `n` if some edit binds it while `n` is its
target. -/
theorem mem_boundTo_iff :
    r ∈ t.boundTo n es ↔ ∃ before after, es = before ++ .bind r :: after ∧
      (t.editAll before).target? r = some n := by
  induction es generalizing t with
  | nil => simp [boundTo]
  | cons e es ih =>
    rw [boundTo, List.mem_append, Edit.mem_bindsTo_iff, ih]
    constructor
    · rintro (⟨rfl, htarget⟩ | ⟨before, after, rfl, htarget⟩)
      · exact ⟨[], es, rfl, htarget⟩
      · exact ⟨e :: before, after, rfl, htarget⟩
    · rintro ⟨before, after, heq, htarget⟩
      cases before with
      | nil =>
        obtain ⟨rfl, rfl⟩ := List.cons_eq_cons.mp heq
        exact Or.inl ⟨rfl, htarget⟩
      | cons d before =>
        obtain ⟨rfl, rfl⟩ := List.cons_eq_cons.mp heq
        exact Or.inr ⟨before, after, rfl, htarget⟩

/-! ## One binding -/

/-- A reply that is linked already can be bound again without effect. -/
theorem Indexed.bind_of_mem_linksOf (h : t.Indexed) (htarget : t.target? r = some n)
    (hr : r ∈ t.linksOf n) : t.bind r = t := by
  have hentries : (t.bind r).entries = t.entries := by
    rw [h.entries_bind]
    conv => rhs; rw [← List.map_id t.entries]
    apply List.map_congr_left
    intro e he
    split
    · rename_i heq
      obtain rfl : n = e.post.number := Option.some.inj (htarget.symm.trans heq)
      rw [linksOf_of_get? (h.get?_eq_some_iff.mpr ⟨he, rfl⟩)] at hr
      rw [Entry.link, if_pos hr, id]
    · rfl
  rw [bind_eq_with_entries, hentries]

theorem bind_of_target?_eq_none (htarget : t.target? r = none) : t.bind r = t := by
  rw [bind, htarget]

/-- Binding a reply twice is binding it once. -/
theorem Indexed.bind_bind (h : t.Indexed) (r : PostNumber) : (t.bind r).bind r = t.bind r := by
  cases htarget : t.target? r with
  | none => rw [bind_of_target?_eq_none htarget, bind_of_target?_eq_none htarget]
  | some n =>
    apply (h.bind r).bind_of_mem_linksOf (n := n)
    · rw [h.target?_bind, htarget]
    · rw [h.linksOf_bind]
      split
      · exact List.mem_append_right _ (List.mem_singleton_self r)
      · rename_i hnot
        exact not_not.mp fun hr => hnot ⟨htarget, hr⟩

/-! ## One edit -/

/-- Adding a post changes no links, whether the post is accepted or not. -/
theorem Indexed.linksOf_edit_push (h : t.Indexed) (p : Post) (n : PostNumber) :
    (t.edit (.push p)).linksOf n = t.linksOf n := by
  rcases edit_push_cases t p with heq | ⟨hcontains, heq⟩
  · rw [heq]
  · have hp := h.contains_eq_false_iff.mp hcontains
    rw [heq, h.linksOf_extend hp]
    split
    · rename_i hn
      rw [hn, h.linksOf_of_not_mem hp]
    · rfl

theorem Indexed.replies_edit (h : t.Indexed) (e : Edit) (hm : t.Replies n m) :
    (t.edit e).Replies n m := by
  cases e with
  | push p =>
    rcases edit_push_cases t p with heq | ⟨hcontains, heq⟩
    · rwa [heq]
    · rw [heq]
      exact h.replies_extend (h.contains_eq_false_iff.mp hcontains) hm
  | bind r => exact (h.target?_bind r n).trans hm

/-- A post is linked back from its target alone. -/
theorem Built.target?_of_mem_links (h : t.Built) (hr : r ∈ t.linksOf n) :
    t.target? r = some n := by
  induction h with
  | blank slug locked viewMarker =>
    rw [(indexed_of_empty slug locked viewMarker).linksOf_of_not_mem List.not_mem_nil] at hr
    cases hr
  | @edit t h e ih =>
    cases e with
    | push p =>
      rw [h.indexed.linksOf_edit_push] at hr
      exact h.indexed.replies_edit (.push p) (ih hr)
    | bind k =>
      rw [Thread.edit, h.indexed.target?_bind]
      rw [Thread.edit, h.indexed.linksOf_bind] at hr
      split at hr
      · rename_i hbound
        rcases List.mem_append.mp hr with hr | hr
        · exact ih hr
        · rw [List.mem_singleton.mp hr]
          exact hbound.1
      · exact ih hr

theorem Built.editAll (h : t.Built) (es : List Edit) : (t.editAll es).Built := by
  induction es generalizing t with
  | nil => exact h
  | cons e es ih => exact ih (h.edit e)

/-! ## The record -/

/-- From a thread without links, edits leave in the links of a post what they bound to
it, each reply where it came first. -/
theorem Built.linksOf_editAll (h : start.Built) (hempty : ∀ n, start.linksOf n = [])
    (es : List Edit) (n : PostNumber) :
    (start.editAll es).linksOf n = (start.boundTo n es).eraseDups := by
  induction es using List.reverseRecOn with
  | nil => exact hempty n
  | append_singleton es e ih =>
    have hindexed := (h.editAll es).indexed
    rw [editAll_concat, boundTo_concat]
    cases e with
    | push p => rw [hindexed.linksOf_edit_push, ih, Edit.bindsTo, List.append_nil]
    | bind r =>
      rw [Thread.edit, hindexed.linksOf_bind, ih, Edit.bindsTo]
      by_cases htarget : (start.editAll es).target? r = some n
      · rw [if_pos htarget, eraseDups_concat]
        by_cases hr : r ∈ start.boundTo n es
        · simp [htarget, hr]
        · simp [htarget, hr]
      · simp [htarget]

/-- What the links say in the thread that the edits `es` make of `start`. -/
structure RecordsBindings (start : Thread) (es : List Edit) : Prop where
  /-- A post is linked back to the replies that were bound while it was their target. -/
  mem : ∀ n r, r ∈ (start.editAll es).linksOf n ↔ ∃ before after,
    es = before ++ .bind r :: after ∧ (start.editAll before).target? r = some n
  /-- They stand in the order in which they were bound first. -/
  order : ∀ n, (start.editAll es).linksOf n = (start.boundTo n es).eraseDups
  nodup : ∀ n, ((start.editAll es).linksOf n).Nodup
  unique : ∀ r n m, r ∈ (start.editAll es).linksOf n → r ∈ (start.editAll es).linksOf m → n = m
  irrefl : ∀ n, n ∉ (start.editAll es).linksOf n
  children : ∀ n, (start.editAll es).linksOf n ⊆ (start.editAll es).children n
  /-- A reply that has been bound to a post can be bound again without effect. -/
  again : ∀ r n, r ∈ (start.editAll es).linksOf n → (start.editAll es).bind r = start.editAll es
  twice : ∀ r, ((start.editAll es).bind r).bind r = (start.editAll es).bind r
  /-- A binding writes to the links in the entry of the target, and to nothing else. -/
  frame : ∀ r, (start.editAll es).bind r =
    { start.editAll es with
      entries := (start.editAll es).entries.map fun e =>
        if (start.editAll es).target? r = some e.post.number then e.link r else e }

theorem Built.recordsBindings (h : start.Built) (hempty : ∀ n, start.linksOf n = [])
    (es : List Edit) : start.RecordsBindings es where
  mem n r := by rw [h.linksOf_editAll hempty, List.mem_eraseDups, mem_boundTo_iff]
  order := h.linksOf_editAll hempty es
  nodup n := by
    rw [h.linksOf_editAll hempty]
    exact nodup_eraseDups _
  unique r n m hn hm := by
    have hbuilt := h.editAll es
    exact Option.some.inj
      ((hbuilt.target?_of_mem_links hn).symm.trans (hbuilt.target?_of_mem_links hm))
  irrefl n hn := by
    have hbuilt := h.editAll es
    exact hbuilt.indexed.target?_ne (hbuilt.target?_of_mem_links hn) rfl
  children n r hr := by
    have hbuilt := h.editAll es
    have htarget := hbuilt.target?_of_mem_links hr
    exact (hbuilt.indexed.mem_children_iff_replies (hbuilt.indexed.target?_mem htarget)).mpr htarget
  again r n hr := by
    have hbuilt := h.editAll es
    exact hbuilt.indexed.bind_of_mem_linksOf (hbuilt.target?_of_mem_links hr) hr
  twice := (h.editAll es).indexed.bind_bind
  frame r := by rw [bind_eq_with_entries, (h.editAll es).indexed.entries_bind]

/-- A snapshot is refused exactly if two of its posts have one number. -/
theorem ofSnapshot_eq_error_iff (s : Snapshot) :
    (∃ cause, ofSnapshot s = .error cause) ↔ ¬ (s.posts.map (·.number)).Nodup := by
  cases hopen : ofSnapshot s with
  | error cause =>
    simp only [Except.error.injEq, exists_eq', true_iff]
    intro hnodup
    have hok := ofSnapshot_eq_ok_iff.mpr ⟨hnodup, rfl⟩
    simp [hopen] at hok
  | ok t => simp [(ofSnapshot_eq_ok_iff.mp hopen).1]

/-- Whatever posts are added, refused ones among them, and whatever replies are bound in
between, the links of a post are the replies that were bound to it, each once and in the
order in which this was first done. Opening binds every reply: it fails exactly if two
posts of the snapshot have one number, and in the thread it makes, the links of every post
are the posts that reply to it, in the order of arrival. -/
theorem links_record_bindings :
    (∀ (slug : Slug) (locked : Bool) (viewMarker : UInt64) (es : List Edit),
      RecordsBindings { slug, locked, viewMarker } es) ∧
    ∀ s : Snapshot,
      ((∃ cause, ofSnapshot s = .error cause) ↔ ¬ (s.posts.map (·.number)).Nodup) ∧
      ∀ t, ofSnapshot s = .ok t → t.numbers = s.posts.map (·.number) ∧
        ∀ n ∈ t.numbers, t.linksOf n = t.children n ∧
          t.children n = t.numbers.filter fun r => t.target? r = some n := by
  constructor
  · intro slug locked viewMarker es
    have hempty := indexed_of_empty slug locked viewMarker
    exact (Built.blank slug locked viewMarker).recordsBindings
      (fun n => hempty.linksOf_of_not_mem List.not_mem_nil) es
  · intro s
    refine ⟨ofSnapshot_eq_error_iff s, fun t hopen => ?_⟩
    obtain ⟨hnodup, rfl⟩ := ofSnapshot_eq_ok_iff.mp hopen
    exact ⟨numbers_opened s, fun n hn =>
      ⟨linksOf_opened hnodup hn, (indexed_opened hnodup).children_eq hn⟩⟩

section

open Sample

/-- A reply is bound before its target comes, then after it, and then once more, while a
post with its number is refused. The target replies to it in turn. -/
def rebinding : List Edit :=
  [.push (post one (some two)), .bind one, .push (post two (some one)), .bind two, .bind one,
    .push (post one none), .bind one]

/-- The first call links nothing, the last changes nothing. Opened at once, the two posts
are linked alike. -/
theorem links_record_bindings_rebinding :
    boundTo { slug := (snapshot []).slug } two rebinding = [one, one] ∧
    (editAll { slug := (snapshot []).slug } rebinding).linksOf two = [one] ∧
    (editAll { slug := (snapshot []).slug } rebinding).bind one =
      editAll { slug := (snapshot []).slug } rebinding ∧
    (∃ t, ofSnapshot (snapshot [post one (some two), post two (some one)]) = .ok t ∧
      t.linksOf two = [one] ∧ t.linksOf one = [two]) ∧
    ∃ cause, ofSnapshot (snapshot [post one none, post one (some two)]) = .error cause := by
  obtain ⟨hrecord, hopening⟩ := links_record_bindings
  have hbound : boundTo { slug := (snapshot []).slug } two rebinding = [one, one] := by decide
  have hedits := hrecord (snapshot []).slug false 0 rebinding
  have hlinks := hedits.order two
  rw [hbound] at hlinks
  have htwo : (editAll { slug := (snapshot []).slug } rebinding).linksOf two = [one] := hlinks
  obtain ⟨-, hopen⟩ := hopening (snapshot [post one (some two), post two (some one)])
  obtain ⟨-, hchildren⟩ := hopen (opened _) (ofSnapshot_eq_ok_iff.mpr ⟨by decide, rfl⟩)
  refine ⟨hbound, htwo, ?_, ⟨opened _, ofSnapshot_eq_ok_iff.mpr ⟨by decide, rfl⟩, ?_, ?_⟩, ?_⟩
  · exact hedits.again one two (htwo ▸ List.mem_singleton_self one)
  · rw [(hchildren two (by decide)).1]
    decide
  · rw [(hchildren one (by decide)).1]
    decide
  · exact (hopening _).1.mpr (by decide)

end

end Thread

end Discussion
