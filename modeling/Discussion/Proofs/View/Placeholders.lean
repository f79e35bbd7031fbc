import Discussion.Proofs.View.Unbound

/-!
# Placeholders

The row of a placeholder is never bound, and so no paint, hint or selection ever gets
to it, and its own link stays without color. But whoever replies to a placeholder asks
for its color, as for that of any other post. So a placeholder is bare exactly as long
as only placeholders are linked back into it; and it takes part in interaction through
the links to its replies, and through its fold control.
-/

namespace Discussion

namespace Highlight

/-- What is left of an idle highlight are the link colors of its parts. -/
theorem eq_of_idle {a b : Highlight} (ha : a.Idle) (hb : b.Idle) (harests : a.RestsInAccents)
    (hbrests : b.RestsInAccents) (haccent : ∀ p, (a.part p).accent = (b.part p).accent) :
    a = b := by
  have hlayers : ∀ {l l' : Layers}, l.base = l'.base → l.accent = l'.accent →
      l.hover = l'.hover → l.pinned = l'.pinned → l = l' := by
    rintro ⟨⟩ ⟨⟩ rfl rfl rfl rfl
    rfl
  apply ext_parts
  · intro p
    apply hlayers _ (haccent p)
    · rw [ha.hover, hb.hover]
    · rw [ha.pinned, hb.pinned]
    · rw [harests p, hbrests p, haccent p]
  · rw [ha.selected, hb.selected]
  · rw [ha.hint, hb.hint]

end Highlight

/-- A row that is idle and whose link has no color shows its own color and nothing
besides. -/
theorem Row.Coherent.highlight_of_idle {row : Row} (h : row.Coherent) (hidle : row.highlight.Idle)
    (htarget : row.highlight.target.accent = none) :
    row.highlight = row.linkColor.elim {} (({} : Highlight).colorize .number) := by
  have haccent : ∀ p, (row.highlight.part p).accent =
      if p = .number then row.linkColor else none := by
    intro p
    cases p with
    | header => exact h.header
    | number => exact h.number
    | target => exact htarget
    | body => exact h.body
  have hempty : ∀ p, (({} : Highlight).part p).accent = none := by
    intro p
    cases p <;> rfl
  cases hcolor : row.linkColor with
  | none =>
    apply Highlight.eq_of_idle hidle Highlight.idle_empty h.base Row.coherent_empty.base
    intro p
    rw [haccent, hcolor, ite_self, hempty]
  | some c =>
    apply Highlight.eq_of_idle hidle (Highlight.idle_empty.colorize .number c) h.base
      (Row.coherent_empty.base.colorize .number c)
    intro p
    rw [haccent, hcolor, Highlight.part_colorize]
    split
    · rfl
    · exact (hempty p).symm

namespace View

variable {v start : View} {n reply : PostNumber} {e : Entry} {settings : Settings} {s : Snapshot}

theorem BoundRows.isBound_of_omission (h : v.BoundRows) (hv : v.thread.Indexed)
    (he : v.thread.get? n = some e) (homission : e.post.omission = true) :
    v.isBound n = false := by
  obtain ⟨hmem, rfl⟩ := hv.get?_eq_some_iff.mp he
  rw [h e.post (List.mem_map_of_mem hmem), homission]
  rfl

/-! ## Rows of placeholders -/

/-- Over any run, the row of a placeholder is not bound and shows its own color at most.
It has no color, and nothing is to be seen on it, exactly if every post that is linked
back into the placeholder is a placeholder too. -/
theorem placeholder_row_run (hstart : View.ofSnapshot settings s = .ok start)
    (cs : List Command) (he : (start.run cs).1.thread.get? n = some e)
    (homission : e.post.omission = true) :
    ∃ row, (start.run cs).1.row? n = some row ∧ row.bound = false ∧
      row.highlight = row.linkColor.elim {} (({} : Highlight).colorize .number) ∧
      (row.linkColor = none ∧ row.highlight = {} ↔
        ∀ q ∈ (start.run cs).1.thread.posts, q.number ∈ e.links → q.omission = true) := by
  have hreachable : Reachable (start.run cs).1 := (Reachable.opened hstart).run cs
  have hv := hreachable.aligned
  have hlinked := linked_run hstart cs
  have hcoherent : (start.run cs).1.Coherent :=
    (coherent_opened hstart).run (aligned_opened hstart) (linked_run hstart []) cs
  have hrows := hreachable.boundRows
  have hfree := hrows.isBound_of_omission hv.indexed he homission
  obtain ⟨row, hrow⟩ := hv.exists_row (hv.indexed.mem_of_get? he)
  rw [isBound_of_row? hrow] at hfree
  have hidle := (hreachable.wellPinned.rows n row hrow).idle hfree
  have hhighlight := (hcoherent.rows n row hrow).highlight_of_idle hidle
    (hcoherent.unlinked n row hrow (Or.inl hfree))
  -- the color decides, since nothing else is left on the row
  have hbare : row.linkColor = none ∧ row.highlight = {} ↔ row.linkColor = none := by
    refine and_iff_left_of_imp fun hnone => ?_
    rw [hhighlight, hnone]
    rfl
  refine ⟨row, hrow, hfree, hhighlight, ?_⟩
  rw [hbare, ← linkColor?_of_row? hrow, ← Option.not_isSome_iff_eq_none,
    hcoherent.isSome_linkColor?_iff hv hlinked, Thread.linksOf_of_get? he]
  constructor
  · intro hnone q hq hlink
    by_contra hshown
    exact hnone ⟨q.number, hlink, by simp [hrows q hq, hshown]⟩
  · rintro hall ⟨r, hlink, hbound⟩
    have hlinks : r ∈ (start.run cs).1.thread.linksOf n := by rwa [Thread.linksOf_of_get? he]
    obtain ⟨q, hq, rfl⟩ := Thread.mem_numbers_iff.mp (hlinked.mem_of_mem_linksOf hlinks)
    rw [hrows q hq, hall q hq hlink] at hbound
    cases hbound

section

open Sample

/-- Two placeholders, the second of them a reply to the first. -/
def omitted : Snapshot :=
  snapshot [{ post one none with omission := true },
    { post two (some one) with omission := true }]

/-- A reply to the second placeholder arrives. -/
def lateAnswer : List Command := [.insert ⟨three, post three (some two)⟩ none]

/-- The first placeholder stays bare, and the second has a color from now on. -/
theorem placeholder_row_run_omitted :
    View.ofSnapshot {} omitted = .ok (opened {} omitted) ∧
    (∃ row, ((opened {} omitted).run lateAnswer).1.row? one = some row ∧
      row.linkColor = none ∧ row.highlight = {}) ∧
    ∃ row, ((opened {} omitted).run lateAnswer).1.row? two = some row ∧ row.bound = false ∧
      row.highlight = ({} : Highlight).colorize .number (Wheel.ofPalette {}).next := by
  have hstart : View.ofSnapshot {} omitted = .ok (opened {} omitted) :=
    ofSnapshot_eq_ok_iff.mpr ⟨by decide, rfl⟩
  have hfirst : ((opened {} omitted).run lateAnswer).1.thread.get? one =
      some ⟨{ post one none with omission := true }, [two]⟩ := by decide
  have hsecond : ((opened {} omitted).run lateAnswer).1.thread.get? two =
      some ⟨{ post two (some one) with omission := true }, [three]⟩ := by decide
  obtain ⟨row, hrow, -, -, hbare⟩ := placeholder_row_run hstart lateAnswer hfirst rfl
  obtain ⟨row', hrow', hfree, hhighlight, -⟩ := placeholder_row_run hstart lateAnswer hsecond rfl
  have hcolor : ((opened {} omitted).run lateAnswer).1.linkColor? two =
      some (Wheel.ofPalette {}).next := by decide
  rw [linkColor?_of_row? hrow'] at hcolor
  rw [hcolor] at hhighlight
  exact ⟨hstart, ⟨row, hrow, hbare.mpr (by decide)⟩, row', hrow', hfree, hhighlight⟩

/-- A placeholder with a reply. -/
def answered : Snapshot :=
  snapshot [{ post one none with omission := true }, post two (some one)]

/-- The placeholder has a color, which its number shows. -/
theorem not_bare_answered :
    View.ofSnapshot {} answered = .ok (opened {} answered) ∧
    ((opened {} answered).thread.get? one).any (·.post.omission) = true ∧
    (opened {} answered).linkColor? one = some (Wheel.ofPalette {}).next ∧
    ((opened {} answered).row? one).any (fun row => row.highlight ≠ {}) = true :=
  ⟨ofSnapshot_eq_ok_iff.mpr ⟨by decide, rfl⟩, by decide, by decide, by decide⟩

end

/-! ## Commands on placeholders -/

theorem linkedReply?_eq_none_iff (he : v.thread.get? n = some e) :
    v.linkedReply? n reply = none ↔ reply ∉ e.links ∨ v.linkColor? n = none := by
  rw [linkedReply?, he]
  by_cases hreply : reply ∈ e.links <;> simp [hreply]

theorem clickLink_eq_self_iff :
    v.clickLink n reply = (v, []) ↔ v.linkedReply? n reply = none := by
  rw [clickLink]
  cases v.linkedReply? n reply with
  | none => exact iff_of_true rfl rfl
  | some c => exact iff_of_false (fun hself => by cases congrArg Prod.snd hself) (by simp)

/-- On a thread page the fold control of a post that is there never does nothing. -/
theorem toggleFold_eq_self_iff (hn : v.thread.contains n = true) :
    v.toggleFold n = (v, []) ↔ v.page = .query := by
  rw [toggleFold]
  cases v.page with
  | query => exact iff_of_true rfl rfl
  | thread =>
    refine iff_of_false (fun hself => ?_) (by simp)
    dsimp only at hself
    by_cases hfold : v.fold = some n
    · rw [if_pos hfold] at hself
      have hnone : v.unfold.fold = v.fold := congrArg (fun r => r.1.fold) hself
      rw [hfold] at hnone
      cases hnone
    · rw [if_neg hfold, unfold_foldAround hn, foldAround, if_pos hn] at hself
      cases congrArg Prod.snd hself

/-- A response without effects in which nothing is dropped. -/
theorem respond_eq_self_iff {r : View × List Effect} :
    respond r = { view := v } ↔ r = (v, []) := by
  rw [respond, Response.mk.injEq, Prod.ext_iff]
  simp

/-- Nothing comes of a command on a placeholder, but for two kinds of commands: its fold
control does nothing only on the page of a query, and the commands of a link to a reply
do nothing only if there is no such link or the placeholder has no color. So a
placeholder takes no command at all exactly if it is on the page of a query and is
without links or without color. -/
theorem Reachable.placeholder_commands (h : Reachable v) (he : v.thread.get? n = some e)
    (homission : e.post.omission = true) :
    (∀ c, c.post? = some n → c ≠ .toggleFold n →
      (∀ reply, c = .hoverLink n reply ∨ c = .clickLink n reply →
        reply ∉ e.links ∨ v.linkColor? n = none) → v.dispatch c = { view := v }) ∧
    (v.dispatch (.toggleFold n) = { view := v } ↔ v.page = .query) ∧
    (∀ reply, v.dispatch (.clickLink n reply) = { view := v } ↔
      reply ∉ e.links ∨ v.linkColor? n = none) ∧
    ((∀ c, c.post? = some n → v.dispatch c = { view := v }) ↔
      v.page = .query ∧ (e.links = [] ∨ v.linkColor? n = none)) := by
  have hindexed := h.aligned.indexed
  have hfree := h.boundRows.isBound_of_omission hindexed he homission
  have hn : v.thread.contains n = true :=
    hindexed.contains_iff.mpr (hindexed.mem_of_get? he)
  have hdispatch : ∀ c, c.post? = some n → v.dispatch c = v.perform c := by
    intro c hc
    apply dispatch_eq_perform
    intro k hk
    rwa [Option.some.inj (hk.symm.trans hc)]
  have hother : ∀ c, c.post? = some n → c ≠ .toggleFold n →
      (∀ reply, c = .hoverLink n reply ∨ c = .clickLink n reply →
        reply ∉ e.links ∨ v.linkColor? n = none) → v.dispatch c = { view := v } := by
    intro c hc htoggle hlink
    rw [hdispatch c hc]
    apply h.perform_of_not_bound hfree hc htoggle
    exact fun reply hreply => (linkedReply?_eq_none_iff he).mpr (hlink reply hreply)
  have hfold : v.dispatch (.toggleFold n) = { view := v } ↔ v.page = .query := by
    rw [hdispatch _ rfl, perform, respond_eq_self_iff, toggleFold_eq_self_iff hn]
  have hclick : ∀ reply, v.dispatch (.clickLink n reply) = { view := v } ↔
      reply ∉ e.links ∨ v.linkColor? n = none := by
    intro reply
    rw [hdispatch _ rfl, perform, respond_eq_self_iff, clickLink_eq_self_iff,
      linkedReply?_eq_none_iff he]
  refine ⟨hother, hfold, hclick, ?_⟩
  constructor
  · intro hall
    refine ⟨hfold.mp (hall _ rfl), ?_⟩
    by_contra hcolored
    rw [not_or] at hcolored
    obtain ⟨reply, hreply⟩ := List.exists_mem_of_ne_nil _ hcolored.1
    exact ((hclick reply).mp (hall _ rfl)).elim (fun hnot => hnot hreply) hcolored.2
  · rintro ⟨hpage, hplain⟩ c hc
    by_cases htoggle : c = .toggleFold n
    · rw [htoggle]
      exact hfold.mpr hpage
    · apply hother c hc htoggle
      intro reply _
      apply hplain.imp_left
      intro hnil
      rw [hnil]
      exact List.not_mem_nil

section

open Sample

/-- On the page of a query nothing comes of a command on a placeholder that only a
placeholder replies to. On the page of the thread its fold control works. -/
theorem placeholder_commands_omitted :
    Reachable (opened {} { omitted with page := .query }) ∧
    (∀ c : Command, c.post? = some one →
      (opened {} { omitted with page := .query }).dispatch c =
        { view := opened {} { omitted with page := .query } }) ∧
    Reachable (opened {} omitted) ∧
    (opened {} omitted).dispatch (.quote one) = { view := opened {} omitted } ∧
    (opened {} omitted).dispatch (.clickLink one two) = { view := opened {} omitted } ∧
    (opened {} omitted).dispatch (.toggleFold one) ≠ { view := opened {} omitted } := by
  have hquery : Reachable (opened {} { omitted with page := .query }) :=
    reachable_opened (by decide)
  have hthread : Reachable (opened {} omitted) := reachable_opened (by decide)
  obtain ⟨-, -, -, hall⟩ := hquery.placeholder_commands (n := one)
    (e := ⟨{ post one none with omission := true }, [two]⟩) (by decide) rfl
  obtain ⟨hother, hfold, hclick, -⟩ := hthread.placeholder_commands (n := one)
    (e := ⟨{ post one none with omission := true }, [two]⟩) (by decide) rfl
  refine ⟨hquery, hall.mpr ⟨page_opened _ _, Or.inr (by decide)⟩, hthread,
    hother _ rfl (by simp) (by simp), (hclick two).mpr (Or.inr (by decide)), ?_⟩
  rw [ne_eq, hfold, page_opened]
  decide

/-- The view folds around a placeholder that has a reply, and goes to the reply by its
link. -/
theorem not_ignored_answered :
    Reachable (opened {} answered) ∧
    ((opened {} answered).thread.get? one).any (·.post.omission) = true ∧
    ((opened {} answered).dispatch (.toggleFold one)).view.fold = some one ∧
    ((opened {} answered).dispatch (.toggleFold one)).effects = [.scrollTo (.post one)] ∧
    ((opened {} answered).dispatch (.clickLink one two)).effects = [.scrollTo (.post two)] :=
  ⟨reachable_opened (by decide), by decide, by decide, by decide, by decide⟩

end

end View

end Discussion
