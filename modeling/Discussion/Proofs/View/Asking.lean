import Discussion.Proofs.View.Growing

/-!
# What a run asks of the host

A view asks its host to announce a post when it merges it, and at no other time;
so the announcements of a run are its arrivals. It asks for a reply to a post, or
to scroll to one, only if the post is in the thread, and it never asks for a reply
in a thread that is locked.
-/

namespace Discussion

/-- The post that the host is to reply to or to scroll to. -/
def Effect.post? : Effect → Option PostNumber
  | .compose n | .scrollTo (.post n) => some n
  | .scrollTo .composer | .announce _ | .badge _ => none

/-- The post that the host is to announce. -/
def Effect.announced? : Effect → Option PostNumber
  | .announce (.insertedPost n) => some n
  | .scrollTo _ | .compose _ | .badge _ => none

/-- The posts that the host is to announce, in order. -/
def announced (es : List Effect) : List PostNumber := es.filterMap Effect.announced?

@[simp]
theorem announced_append (es fs : List Effect) :
    announced (es ++ fs) = announced es ++ announced fs :=
  List.filterMap_append

namespace Thread

theorem locked_bind (t : Thread) (r : PostNumber) : (t.bind r).locked = t.locked := by
  rw [bind_eq_with_entries]

theorem locked_receive (t : Thread) (p : Post) : (t.receive p).locked = t.locked :=
  locked_bind (t.extend p) p.number

theorem locked_opened (s : Snapshot) : (opened s).locked = s.locked := by
  have hextend : ∀ (ps : List Post) (t : Thread), (ps.foldl extend t).locked = t.locked := by
    intro ps
    induction ps with
    | nil => exact fun _ => rfl
    | cons p rest ih => exact fun t => ih (t.extend p)
  have hbind : ∀ (ns : List PostNumber) (t : Thread), (ns.foldl bind t).locked = t.locked := by
    intro ns
    induction ns with
    | nil => exact fun _ => rfl
    | cons r rest ih => exact fun t => (ih (t.bind r)).trans (locked_bind t r)
  exact (hbind _ _).trans (hextend _ _)

end Thread

namespace View

variable {v w : View} {n m : PostNumber} {c : Command} {e : Effect} {settings : Settings}
  {s : Snapshot}

theorem Change.locked (h : Change v w) : w.thread.locked = v.thread.locked := by
  rcases h.thread_cases with heq | ⟨p, -, heq⟩
  · rw [heq]
  · rw [heq, Thread.locked_receive]

/-! ## One command -/

/-- What a view may ask of its host without a merge. -/
def MayAsk (v : View) : Effect → Prop
  | .compose n => n ∈ v.thread.numbers ∧ v.thread.locked = false
  | .scrollTo (.post n) => n ∈ v.thread.numbers
  | .announce _ => False
  | .scrollTo .composer | .badge _ => True

theorem MayAsk.mem_of_post? (h : v.MayAsk e) (hn : e.post? = some n) : n ∈ v.thread.numbers := by
  cases e with
  | compose k =>
    obtain rfl := Option.some.inj hn
    exact h.1
  | scrollTo target =>
    cases target with
    | post k =>
      obtain rfl := Option.some.inj hn
      exact h
    | composer => cases hn
  | announce event | badge badge => cases hn

theorem MayAsk.announced?_eq_none (h : v.MayAsk e) : e.announced? = none := by
  cases e with
  | announce event => exact h.elim
  | compose k | scrollTo target | badge badge => rfl

theorem Aligned.mem_of_isBound (hv : v.Aligned) (hn : v.isBound n = true) :
    n ∈ v.thread.numbers := by
  obtain ⟨row, hrow, -⟩ := (Option.any_eq_true _ _).mp hn
  exact hv.mem_of_row? hrow

theorem mayAsk_quote (hv : v.Aligned) (n : PostNumber) : ∀ e ∈ (v.quote n).2, v.MayAsk e := by
  cases hbound : v.isBound n with
  | false =>
    rw [quote, if_neg (by simp [hbound])]
    exact List.forall_mem_nil _
  | true =>
    rw [quote_eq hbound]
    dsimp only
    cases hlocked : v.thread.locked with
    | true => exact List.forall_mem_nil _
    | false =>
      rw [if_neg Bool.false_ne_true, List.forall_mem_cons, List.forall_mem_singleton]
      exact ⟨⟨hv.mem_of_isBound hbound, hlocked⟩, trivial⟩

/-- A colored link leads to the target of its post. -/
theorem target?_of_linkedTarget? (hm : v.linkedTarget? n = some m) :
    v.thread.target? n = some m := by
  obtain ⟨-, -, -, -, htarget⟩ := linkedTarget?_eq_some_iff.mp hm
  exact htarget

theorem mayAsk_clickTarget (hv : v.Aligned) (n : PostNumber) :
    ∀ e ∈ (v.clickTarget n).2, v.MayAsk e := by
  rw [clickTarget]
  split
  · exact List.forall_mem_nil _
  · rename_i m hm
    rw [List.forall_mem_singleton]
    exact hv.indexed.target?_mem (target?_of_linkedTarget? hm)

/-- The link back to a reply leads to a post of the thread, though no command checks
the number of the reply. -/
theorem mayAsk_clickLink (hv : Thread.Linked s v.thread) (n reply : PostNumber) :
    ∀ e ∈ (v.clickLink n reply).2, v.MayAsk e := by
  rw [clickLink]
  split
  · exact List.forall_mem_nil _
  · rename_i color hc
    rw [List.forall_mem_singleton]
    exact hv.mem_of_mem_linksOf (linkedReply?_eq_some_iff.mp hc).1

theorem mayAsk_toggleFold (hv : v.Aligned) (n : PostNumber) :
    ∀ e ∈ (v.toggleFold n).2, v.MayAsk e := by
  rw [toggleFold]
  split
  · split
    · exact List.forall_mem_nil _
    · rw [foldAround]
      split
      · rename_i hn
        rw [List.forall_mem_singleton]
        exact hv.indexed.contains_iff.mp hn
      · exact List.forall_mem_nil _
  · exact List.forall_mem_nil _

theorem mayAsk_perform (hv : v.Aligned) (hlinked : Thread.Linked s v.thread)
    (hc : ∀ a footer, c ≠ .insert a footer) : ∀ e ∈ (v.perform c).effects, v.MayAsk e := by
  cases hhover : c.isHover with
  | true =>
    rw [(hovered_perform hhover).2]
    exact List.forall_mem_nil _
  | false =>
    cases c with
    | clickHeader n | showHint n hint | hideHint n => exact List.forall_mem_nil _
    | quote n => exact mayAsk_quote hv n
    | clickTarget n => exact mayAsk_clickTarget hv n
    | clickLink n reply => exact mayAsk_clickLink hlinked n reply
    | toggleFold n => exact mayAsk_toggleFold hv n
    | setIdentity i => exact List.forall_mem_singleton.mpr trivial
    | insert a footer => exact absurd rfl (hc a footer)
    | hoverHeader n | leaveHeader n | hoverNumber n | hoverTarget n | hoverLink n reply
    | leaveLink => cases hhover

theorem thread_toggleFold (v : View) (n : PostNumber) : (v.toggleFold n).1.thread = v.thread := by
  obtain ⟨f, fold, -, heq⟩ := toggleFold_eq_mapRows v n
  rw [heq]
  rfl

/-- What a merge asks of the host: to announce the post, and nothing about a post
besides. -/
theorem asks_of_merge (n : PostNumber) (badge : Option Badge) (atBottom : Bool) :
    announced ([.announce (.insertedPost n), .badge badge] ++
      if atBottom then [.scrollTo .composer] else []) = [n] ∧
    ∀ e ∈ [.announce (.insertedPost n), .badge badge] ++
      (if atBottom then [.scrollTo .composer] else []), Effect.post? e = none := by
  cases atBottom with
  | true => exact ⟨rfl, by simp [Effect.post?]⟩
  | false => exact ⟨rfl, by simp [Effect.post?]⟩

/-- A command keeps the posts and asks only for what the view may ask without a merge,
or it merges a post and asks to announce it. -/
theorem Reachable.dispatch_asks (h : Reachable v) (c : Command) :
    ((v.dispatch c).view.thread.numbers = v.thread.numbers ∧
      ∀ e ∈ (v.dispatch c).effects, v.MayAsk e) ∨
    ∃ n, n ∉ v.thread.numbers ∧ (v.dispatch c).view.thread.numbers = v.thread.numbers ++ [n] ∧
      announced (v.dispatch c).effects = [n] ∧ ∀ e ∈ (v.dispatch c).effects, e.post? = none := by
  obtain ⟨s, hlinked⟩ := h.linked
  by_cases hinsert : ∃ a footer, c = .insert a footer
  · obtain ⟨a, footer, rfl⟩ := hinsert
    rw [dispatch_insert_eq_perform, perform, insert_eq]
    by_cases hnum : a.post.number = a.number
    · rw [if_neg (not_not_intro hnum)]
      cases hnew : v.thread.contains a.number with
      | true =>
        rw [if_pos rfl]
        exact Or.inl ⟨rfl, List.forall_mem_nil _⟩
      | false =>
        have hnumbers : (v.merge a.post).thread.numbers = v.thread.numbers ++ [a.number] := by
          rw [thread_merge, Thread.numbers_receive, settle_number, hnum]
        rw [if_neg Bool.false_ne_true]
        exact Or.inr ⟨a.number, h.aligned.indexed.contains_eq_false_iff.mp hnew, hnumbers,
          asks_of_merge a.number _ _⟩
    · rw [if_pos hnum]
      exact Or.inl ⟨rfl, List.forall_mem_nil _⟩
  · have hc : ∀ a footer, c ≠ .insert a footer := fun a footer heq => hinsert ⟨a, footer, heq⟩
    refine Or.inl ⟨?_, ?_⟩
    · rcases dispatch_cases v c with hr | ⟨a, footer, heq, -⟩ | ⟨n, -, -, heq⟩
      · rw [hr.sameLayout.thread]
      · exact absurd heq (hc a footer)
      · rw [heq, thread_toggleFold]
    · rcases dispatch_eq_perform_or_ignored v c with heq | heq
      · rw [heq]
        exact mayAsk_perform h.aligned hlinked hc
      · rw [heq]
        exact List.forall_mem_nil _

/-- The posts that come with a command are those that it asks to announce. -/
theorem Reachable.numbers_dispatch (h : Reachable v) (c : Command) :
    (v.dispatch c).view.thread.numbers = v.thread.numbers ++ announced (v.dispatch c).effects := by
  rcases h.dispatch_asks c with ⟨hsame, hasks⟩ | ⟨n, -, hnumbers, hannounced, -⟩
  · have hnone : announced (v.dispatch c).effects = [] :=
      List.filterMap_eq_nil_iff.mpr fun e he => (hasks e he).announced?_eq_none
    rw [hsame, hnone, List.append_nil]
  · rw [hnumbers, hannounced]

/-- What a command asks about a post, it asks about a post of the thread. -/
theorem Reachable.mem_of_effect (h : Reachable v) (he : e ∈ (v.dispatch c).effects)
    (hn : e.post? = some n) : n ∈ v.thread.numbers := by
  rcases h.dispatch_asks c with ⟨-, hasks⟩ | ⟨k, -, -, -, hnone⟩
  · exact (hasks e he).mem_of_post? hn
  · rw [hnone e he] at hn
    cases hn

theorem Reachable.locked_of_compose (h : Reachable v)
    (he : .compose n ∈ (v.dispatch c).effects) : v.thread.locked = false := by
  rcases h.dispatch_asks c with ⟨-, hasks⟩ | ⟨k, -, -, -, hnone⟩
  · exact (hasks _ he).2
  · cases hnone _ he

/-! ## Runs -/

theorem Reachable.numbers_run (h : Reachable v) (cs : List Command) :
    (v.run cs).1.thread.numbers = v.thread.numbers ++ announced (v.run cs).2 := by
  induction cs generalizing v with
  | nil => exact (List.append_nil _).symm
  | cons c rest ih =>
    have hrest := ih (h.call (.dispatch c))
    rw [run_cons, announced_append, ← List.append_assoc, ← h.numbers_dispatch c]
    exact hrest

theorem Reachable.not_compose_run (h : Reachable v) (hlocked : v.thread.locked = true)
    (cs : List Command) (n : PostNumber) : .compose n ∉ (v.run cs).2 := by
  induction cs generalizing v with
  | nil => exact List.not_mem_nil
  | cons c rest ih =>
    have hstep := (change_dispatch v c).locked
    rw [run_cons, List.mem_append, not_or]
    refine ⟨fun he => ?_, ih (h.call (.dispatch c)) (hstep.trans hlocked)⟩
    rw [h.locked_of_compose he] at hlocked
    cases hlocked

/-- Over any run from a snapshot, the host is to announce the posts that arrived, each
once and in the order in which they stand after those of the snapshot. Whatever a
command of the run asks about replying or scrolling to a post is about a post that is
in the thread by then, and a locked thread never asks for a reply. -/
theorem effects_of_run (hv : View.ofSnapshot settings s = .ok v) (cs : List Command) :
    (v.run cs).1.thread.numbers = s.posts.map (·.number) ++ announced (v.run cs).2 ∧
    (announced (v.run cs).2).Nodup ∧
    (∀ n ∈ announced (v.run cs).2, n ∉ s.posts.map (·.number)) ∧
    (∀ first c rest, cs = first ++ c :: rest →
      ∀ e ∈ ((v.run first).1.dispatch c).effects, ∀ n, e.post? = some n →
        n ∈ (v.run first).1.thread.numbers) ∧
    (s.locked = true → ∀ n, .compose n ∉ (v.run cs).2) := by
  have hreachable : Reachable v := .opened hv
  obtain ⟨-, rfl⟩ := ofSnapshot_eq_ok_iff.mp hv
  have hnumbers := hreachable.numbers_run cs
  rw [numbers_opened] at hnumbers
  have hnodup := (aligned_run hv cs).indexed.nodup
  rw [hnumbers, List.nodup_append] at hnodup
  refine ⟨hnumbers, hnodup.2.1, ?_, ?_, ?_⟩
  · intro n hn hloaded
    exact hnodup.2.2 n hloaded n hn rfl
  · intro first c rest _ e he n hn
    exact (hreachable.run first).mem_of_effect he hn
  · intro hlocked
    apply hreachable.not_compose_run
    rw [thread_opened, Thread.locked_opened, hlocked]

section

open Sample

/-- A locked thread of one post. -/
def lockedSingle : Snapshot := { single with locked := true }

/-- A reply arrives twice, is quoted, and is gone to. -/
def asking : List Command :=
  [.insert ⟨two, post two (some one)⟩ none, .insert ⟨two, post two none⟩ none, .quote two,
    .clickLink one two]

/-- The reply is announced once, it is there when the host is to scroll to it, and
the quote of it asks nothing. -/
theorem effects_of_run_lockedSingle :
    View.ofSnapshot {} lockedSingle = .ok (opened {} lockedSingle) ∧
    announced ((opened {} lockedSingle).run asking).2 = [two] ∧
    .scrollTo (.post two) ∈ ((opened {} lockedSingle).run asking).2 ∧
    two ∈ ((opened {} lockedSingle).run (asking.take 3)).1.thread.numbers ∧
    .compose two ∉ ((opened {} lockedSingle).run asking).2 := by
  have hv : View.ofSnapshot {} lockedSingle = .ok (opened {} lockedSingle) :=
    ofSnapshot_eq_ok_iff.mpr ⟨by decide, rfl⟩
  obtain ⟨hnumbers, -, -, hposts, hcompose⟩ := effects_of_run hv asking
  have hboth : ((opened {} lockedSingle).run asking).1.thread.numbers = [one] ++ [two] := by
    decide
  refine ⟨hv, ?_, by decide, ?_, hcompose rfl two⟩
  · exact List.append_cancel_left (hnumbers.symm.trans hboth)
  · exact hposts (asking.take 3) (.clickLink one two) [] rfl (.scrollTo (.post two)) (by decide)
      two rfl

end

end View

end Discussion
