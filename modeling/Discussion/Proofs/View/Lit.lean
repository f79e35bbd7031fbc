import Discussion.Proofs.View.Accents

/-!
# Colored links

A link gets a color from the post that it leads to. So where the link of a row is
colored, the row is bound, and the post at the other end is there and has a color.
-/

namespace Discussion

namespace View

variable {v w : View} {p : Post} {n m : PostNumber} {c : Color} {row : Row}
  {settings : Settings} {s : Snapshot}

/-- A tint changes neither the link of a row nor whether the row is bound. -/
theorem link_of_tint {old : Row} (h : row = old.tint c ∨ row = old) :
    row.highlight.target.accent = old.highlight.target.accent ∧ row.bound = old.bound := by
  rcases h with rfl | rfl <;> exact ⟨rfl, rfl⟩

/-- The row of `n` shows its own color, and if its link is colored then the row is
bound and the link leads to a post with a color. -/
structure LitRow (v : View) (n : PostNumber) (row : Row) : Prop where
  coherent : row.Coherent
  leads : row.highlight.target.accent ≠ none →
    row.bound = true ∧ ∃ m, v.thread.target? n = some m ∧ v.linkColor? m ≠ none

/-- Every row is lit. -/
def Lit (v : View) : Prop := ∀ n row, v.row? n = some row → v.LitRow n row

theorem lit_opened (hv : View.ofSnapshot settings s = .ok v) : v.Lit := by
  have hcoherent := coherent_opened hv
  have hlinked : Thread.Linked s v.thread := linked_run hv []
  intro n row hrow
  refine ⟨hcoherent.rows n row hrow, fun haccent => ?_⟩
  have hlink : ¬ (row.bound = false ∨ ∀ m, n ∉ v.thread.linksOf m) :=
    fun hfree => haccent (hcoherent.unlinked n row hrow hfree)
  rw [not_or, Bool.not_eq_false, not_forall] at hlink
  obtain ⟨hbound, m, hm⟩ := hlink
  rw [not_not] at hm
  exact ⟨hbound, m, hlinked.target?_of_mem_linksOf hm,
    (hcoherent.linked n row m hrow hbound hm).1⟩

theorem coherent_arrivalRow (v : View) (p : Post) : (v.arrivalRow p).Coherent := by
  have hempty : ({} : Highlight).RestsInAccents := Row.coherent_empty.base
  rw [arrivalRow]
  cases (v.entering p).parent with
  | none => exact ⟨rfl, rfl, rfl, hempty⟩
  | some m =>
    cases p.omission with
    | true => exact ⟨rfl, rfl, rfl, hempty⟩
    | false => exact ⟨rfl, rfl, rfl, hempty.colorize .target _⟩

/-- The link of an arrival is colored if it has a parent and is no placeholder. -/
theorem accent_arrivalRow (h : (v.arrivalRow p).highlight.target.accent ≠ none) :
    p.omission = false ∧ ∃ m, (v.entering p).parent = some m := by
  rw [arrivalRow] at h
  cases hparent : (v.entering p).parent with
  | none =>
    rw [hparent] at h
    exact absurd rfl h
  | some m =>
    cases homission : p.omission with
    | true =>
      rw [hparent, homission] at h
      exact absurd rfl h
    | false => exact ⟨rfl, m, rfl⟩

/-- A row stays lit if it is left or tinted: its target stays, and no color is taken
away. -/
theorem LitRow.step {old : Row} (h : v.LitRow n old) (hstep : v.ColorStep w)
    (htarget : ∀ m, v.thread.target? n = some m → w.thread.target? n = some m)
    (hrow : row = old.tint c ∨ row = old) : w.LitRow n row := by
  have hsame := link_of_tint hrow
  constructor
  · rcases hrow with rfl | rfl
    · exact h.coherent.tint c
    · exact h.coherent
  · intro haccent
    rw [hsame.1] at haccent
    obtain ⟨hbound, m, hm, hc⟩ := h.leads haccent
    obtain ⟨d, hd⟩ := Option.ne_none_iff_exists'.mp hc
    refine ⟨hsame.2.trans hbound, m, htarget m hm, ?_⟩
    rw [hstep.linkColor?_eq_some hd]
    exact Option.some_ne_none d

theorem target?_merge (hv : v.Aligned) (hp : p.number ∉ v.thread.numbers)
    (hm : v.thread.target? n = some m) : (v.merge p).thread.target? n = some m := by
  have hnew : (v.settle p).number ∉ v.thread.numbers := by rwa [settle_number]
  have hn := hv.indexed.mem_of_target? hm
  rw [thread_merge]
  exact (hv.indexed.replies_receive_iff hnew hn).mpr (Or.inl hm)

/-- The parent of an arrival with a colored link is given a color if it had none. -/
theorem litRow_arrivalRow (hv : v.Aligned) (hp : p.number ∉ v.thread.numbers) :
    (v.merge p).LitRow p.number (v.arrivalRow p) := by
  refine ⟨coherent_arrivalRow v p, fun haccent => ?_⟩
  have hsettled := settled_settle hv.indexed p
  have hnew : (v.settle p).number ∉ v.thread.numbers := by rwa [settle_number]
  obtain ⟨homission, m, hparent⟩ := accent_arrivalRow haccent
  rw [← settle_eq_entering hv.indexed] at hparent
  refine ⟨by rw [arrivalRow, homission]; rfl, m, ?_, ?_⟩
  · have hself := hv.indexed.target?_receive_self hnew hsettled
    rw [thread_merge, ← settle_number v p, hself, hparent]
  · rw [linkColor?_merge hv hp, homission, hparent]
    cases v.linkColor? m <;> simp

namespace Lit

theorem of_sameColors (h : v.Lit) (hvw : v.SameColors w) : w.Lit := by
  intro n row hrow
  obtain ⟨old, hold, hsame⟩ := hvw.exists_row hrow
  obtain ⟨hcoherent, hleads⟩ := h n old hold
  have haccent : row.highlight.target.accent = old.highlight.target.accent :=
    (hsame.base .target).1
  refine ⟨hcoherent.of_sameColors hsame, ?_⟩
  rw [haccent, hsame.bound, hvw.thread]
  simp only [hvw.linkColor?]
  exact hleads

theorem handOut (h : v.Lit) (hstep : v.ColorStep (v.handOut n)) : (v.handOut n).Lit := by
  intro k row hrow
  obtain ⟨old, hold, htint⟩ := exists_row_of_handOut hrow
  exact (h k old hold).step hstep (fun _ hm => hm) htint

theorem merge (h : v.Lit) (hv : v.Aligned) (hp : p.number ∉ v.thread.numbers) :
    (v.merge p).Lit := by
  intro k row hrow
  by_cases hk : k = p.number
  · subst hk
    rw [row?_merge_self hv.indexed hp] at hrow
    obtain rfl := Option.some.inj hrow
    exact litRow_arrivalRow hv hp
  · obtain ⟨old, hold, htint⟩ := exists_row_of_merge hv.indexed hp hk hrow
    exact (h k old hold).step (colorStep_merge hv hp) (fun _ hm => target?_merge hv hp hm) htint

theorem change (h : v.Lit) (hv : v.Aligned) (hvw : Change v w) : w.Lit := by
  have hstep := hvw.colorStep hv
  rcases hvw.color_cases with hsame | ⟨p, hp, rfl⟩ | ⟨n, -, -, rfl⟩
  · exact h.of_sameColors hsame
  · exact h.merge hv (hv.indexed.contains_eq_false_iff.mp hp)
  · exact h.handOut hstep

end Lit

theorem Reachable.lit (h : Reachable v) : v.Lit := by
  induction h with
  | opened hv => exact lit_opened hv
  | @call v hv c ih => exact ih.change hv.aligned (change_call v c)

end View

end Discussion
