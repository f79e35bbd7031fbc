import Discussion.Proofs.View.Ledger

/-!
# Link colors and their copies

The color of the links to a post is kept in the row of the post, in the number
part of this row, and in the target part of the row of every reply that is bound
and linked back. Over any run of commands the copies agree, and a post has a
color only if there is such a reply.
-/

namespace Discussion

namespace Highlight

variable {h : Highlight} {p q : Part} {c : Color}

theorem part_colorize (h : Highlight) (p q : Part) (c : Color) :
    (h.colorize p c).part q = if q = p then (h.part q).colorize c else h.part q := by
  rw [colorize, part_mapParts]

/-- Every part rests in its own link color, or else in no paint of its own. -/
def RestsInAccents (h : Highlight) : Prop :=
  ∀ p, (h.part p).base = (h.part p).accent.elim .plain .filled

theorem RestsInAccents.colorize (hrests : h.RestsInAccents) (p : Part) (c : Color) :
    (h.colorize p c).RestsInAccents := by
  intro q
  rw [part_colorize]
  split
  · rfl
  · exact hrests q

end Highlight

namespace Row

variable {row row' : Row} {c : Color}

/-- The parts of a row show the colors that the row has. -/
structure Coherent (row : Row) : Prop where
  number : row.highlight.number.accent = row.linkColor
  header : row.highlight.header.accent = none
  body : row.highlight.body.accent = none
  base : row.highlight.RestsInAccents

theorem coherent_empty : ({} : Row).Coherent :=
  ⟨rfl, rfl, rfl, fun p => by cases p <;> rfl⟩

namespace Coherent

theorem of_sameColors (h : row.Coherent) (hsame : row.SameColors row') : row'.Coherent := by
  refine ⟨?_, (hsame.base .header).1.trans h.header, (hsame.base .body).1.trans h.body, ?_⟩
  · rw [hsame.linkColor, ← h.number]
    exact (hsame.base .number).1
  · intro p
    rw [(hsame.base p).1, (hsame.base p).2]
    exact h.base p

theorem tint (h : row.Coherent) (c : Color) : (row.tint c).Coherent :=
  ⟨rfl, h.header, h.body, h.base.colorize .number c⟩

theorem boundRow (h : row.Coherent) (v : View) (n : PostNumber) :
    (v.boundRow n row).Coherent := by
  rw [View.boundRow]
  cases v.thread.target? n with
  | none => exact ⟨h.number, h.header, h.body, h.base⟩
  | some m => exact ⟨h.number, h.header, h.body, h.base.colorize .target (v.colorFor m)⟩

end Coherent

end Row

namespace View

open Thread (Linked)

variable {v w : View} {p : Post} {n m k : PostNumber} {c : Color} {row : Row}
  {settings : Settings} {s : Snapshot}

/-- The link colors of the posts agree with what the rows of the replies show. -/
structure Coherent (v : View) : Prop where
  rows : ∀ n row, v.row? n = some row → row.Coherent
  /-- A color has been asked for by a reply. -/
  asked : ∀ n, v.linkColor? n ≠ none → ∃ r ∈ v.thread.linksOf n, v.isBound r = true
  linked : ∀ r row m, v.row? r = some row → row.bound = true → r ∈ v.thread.linksOf m →
    v.linkColor? m ≠ none ∧ row.highlight.target.accent = v.linkColor? m
  unlinked : ∀ r row, v.row? r = some row →
    row.bound = false ∨ (∀ m, r ∉ v.thread.linksOf m) → row.highlight.target.accent = none

namespace Coherent

theorem of_sameColors (h : v.Coherent) (hvw : v.SameColors w) : w.Coherent where
  rows n row hrow := by
    obtain ⟨old, hold, hsame⟩ := hvw.exists_row hrow
    exact (h.rows n old hold).of_sameColors hsame
  asked n hn := by
    rw [hvw.linkColor?] at hn
    obtain ⟨r, hr, hbound⟩ := h.asked n hn
    exact ⟨r, hvw.thread ▸ hr, (hvw.isBound r).trans hbound⟩
  linked r row m hrow hbound hr := by
    obtain ⟨old, hold, hsame⟩ := hvw.exists_row hrow
    obtain ⟨hm, haccent⟩ := h.linked r old m hold (hsame.bound ▸ hbound) (hvw.thread ▸ hr)
    rw [hvw.linkColor?]
    exact ⟨hm, (hsame.base .target).1.trans haccent⟩
  unlinked r row hrow hfree := by
    obtain ⟨old, hold, hsame⟩ := hvw.exists_row hrow
    rw [hsame.bound, hvw.thread] at hfree
    exact (hsame.base .target).1.trans (h.unlinked r old hold hfree)

end Coherent

/-! ## Decoration -/

section

variable {e : Entry} (hv : v.Aligned) (he : v.thread.get? n = some e)
  (hbare : v.isBound n = false) (homission : e.post.omission = false)

include hv he hbare homission

/-- A row is left, tinted or bound by decoration. -/
theorem exists_row_of_decorate {row' : Row} (hrow : (v.decorate n).row? k = some row') :
    ∃ row, v.row? k = some row ∧
      (k = n ∧ row' = v.boundRow n row ∨
        k ≠ n ∧ (row' = row.tint v.wheel.next ∨ row' = row)) := by
  rw [row?_decorate_of_bare hv.indexed he hbare homission, Option.map_eq_some_iff] at hrow
  obtain ⟨row, hold, rfl⟩ := hrow
  refine ⟨row, hold, ?_⟩
  by_cases hk : k = n
  · exact Or.inl ⟨hk, if_pos hk⟩
  · rw [if_neg hk]
    refine Or.inr ⟨hk, ?_⟩
    split
    · exact Or.inl rfl
    · exact Or.inr rfl

theorem linkColor?_decorate_of_ne_none (hm : v.linkColor? m ≠ none) :
    (v.decorate n).linkColor? m = v.linkColor? m := by
  rw [linkColor?_decorate_of_bare hv he hbare homission, if_neg (fun h => hm h.2)]

theorem linkColor?_decorate_target (htarget : v.thread.target? n = some m) :
    (v.decorate n).linkColor? m = some (v.colorFor m) := by
  rw [linkColor?_decorate_of_bare hv he hbare homission, colorFor]
  cases hc : v.linkColor? m with
  | none => rw [if_pos ⟨htarget, rfl⟩, Option.getD_none]
  | some c => rw [if_neg (fun h => by cases h.2), Option.getD_some]

end

theorem accent_boundRow (htarget : v.thread.target? n = some m) (row : Row) :
    (v.boundRow n row).highlight.target.accent = some (v.colorFor m) := by
  rw [boundRow, htarget]
  rfl

theorem accent_boundRow_of_none (htarget : v.thread.target? n = none) (row : Row) :
    (v.boundRow n row).highlight.target.accent = row.highlight.target.accent := by
  rw [boundRow, htarget]

/-- The colors stay coherent if the post is linked back from its target and from
no other post. -/
theorem Coherent.decorate (h : v.Coherent) (hv : v.Aligned)
    (hlinks : ∀ m, n ∈ v.thread.linksOf m ↔ v.thread.target? n = some m) :
    (v.decorate n).Coherent := by
  rcases decorate_cases v n with heq | ⟨e, he, hbare, homission⟩
  · rwa [heq]
  have hthread : (v.decorate n).thread = v.thread := (sameLayout_decorate v n).thread
  obtain ⟨bare, hbarerow⟩ := hv.exists_row (hv.indexed.mem_of_get? he)
  have hbind := isBound_decorate hv.indexed he hbarerow
  constructor
  case rows =>
    intro k row' hrow
    obtain ⟨row, hold, ⟨-, rfl⟩ | ⟨-, rfl | rfl⟩⟩ :=
      exists_row_of_decorate hv he hbare homission hrow
    · exact (h.rows k row hold).boundRow v n
    · exact (h.rows k row hold).tint _
    · exact h.rows k _ hold
  case asked =>
    intro k hk
    rw [hthread]
    by_cases hold : v.linkColor? k = none
    · -- only the target of `n` can have got a color just now
      have htarget : v.thread.target? n = some k := by
        by_contra hother
        rw [linkColor?_decorate_of_bare hv he hbare homission, if_neg (fun h => hother h.1)] at hk
        exact hk hold
      exact ⟨n, (hlinks k).mpr htarget, by simp [hbind, homission]⟩
    · obtain ⟨r, hr, hbound⟩ := h.asked k hold
      exact ⟨r, hr, by simp [hbind, homission, hbound]⟩
  case linked =>
    intro r row' m hrow hbound hr
    rw [hthread] at hr
    obtain ⟨row, hold, ⟨rfl, rfl⟩ | ⟨-, hrow'⟩⟩ :=
      exists_row_of_decorate hv he hbare homission hrow
    · have htarget := (hlinks m).mp hr
      rw [linkColor?_decorate_target hv he hbare homission htarget]
      exact ⟨Option.some_ne_none _, accent_boundRow htarget row⟩
    · -- a tint does not reach the target part, and no color is given twice
      have holdlink : v.linkColor? m ≠ none ∧ row.highlight.target.accent = v.linkColor? m := by
        apply h.linked r row m hold _ hr
        rcases hrow' with rfl | rfl <;> exact hbound
      rw [linkColor?_decorate_of_ne_none hv he hbare homission holdlink.1]
      rcases hrow' with rfl | rfl <;> exact holdlink
  case unlinked =>
    intro r row' hrow hfree
    rw [hthread] at hfree
    obtain ⟨row, hold, ⟨rfl, rfl⟩ | ⟨-, rfl | rfl⟩⟩ :=
      exists_row_of_decorate hv he hbare homission hrow
    · have hnone : ∀ m, r ∉ v.thread.linksOf m := hfree.resolve_left Bool.noConfusion
      have htarget : v.thread.target? r = none := by
        rw [Option.eq_none_iff_forall_ne_some]
        intro m hm
        exact hnone m ((hlinks m).mpr hm)
      rw [accent_boundRow_of_none htarget]
      exact h.unlinked r row hold (Or.inr hnone)
    · exact h.unlinked r row hold hfree
    · exact h.unlinked r _ hold hfree

/-! ## Opening -/

theorem coherent_bare (settings : Settings) (s : Snapshot) : (bare settings s).Coherent where
  rows n row hrow := by
    rw [row?_bare hrow]
    exact Row.coherent_empty
  asked n hn := absurd (linkColor?_bare settings s n) hn
  linked r row m hrow hbound := by
    rw [row?_bare hrow] at hbound
    cases hbound
  unlinked r row hrow _ := by rw [row?_bare hrow]

theorem coherent_opened (h : View.ofSnapshot settings s = .ok v) : v.Coherent := by
  obtain ⟨hnodup, rfl⟩ := ofSnapshot_eq_ok_iff.mp h
  apply opened_invariant hnodup (coherent_bare settings s)
  intro v n hv hthread h
  apply h.decorate hv
  intro m
  rw [hthread]
  exact Thread.mem_linksOf_opened hnodup

/-! ## Merging -/

theorem Coherent.grow (h : v.Coherent) (hlinked : Linked s v.thread)
    (hp : p.number ∉ v.thread.numbers) (hs : v.thread.Settled p) : (v.grow p).Coherent := by
  have hself := row?_grow_self v p
  have hlinks : ∀ {r m}, r ≠ p.number →
      (r ∈ (v.grow p).thread.linksOf m ↔ r ∈ v.thread.linksOf m) :=
    hlinked.mem_linksOf_receive_of_ne hp hs
  -- what is linked, and what links to it, was there before
  have hold : ∀ {r m}, r ∈ v.thread.linksOf m → r ≠ p.number ∧ m ≠ p.number := by
    intro r m hr
    constructor
    · rintro rfl
      exact hlinked.not_mem_linksOf hp m hr
    · rintro rfl
      rw [hlinked.indexed.linksOf_of_not_mem hp] at hr
      cases hr
  constructor
  case rows =>
    intro n row hrow
    by_cases hn : n = p.number
    · rw [hn, hself] at hrow
      cases hrow
      exact Row.coherent_empty
    · exact h.rows n row (row?_grow hn ▸ hrow)
  case asked =>
    intro n hn
    have hne : n ≠ p.number := by
      rintro rfl
      exact hn (linkColor?_of_row? hself)
    rw [linkColor?_grow hne] at hn
    obtain ⟨r, hr, hbound⟩ := h.asked n hn
    have hrne := (hold hr).1
    refine ⟨r, (hlinks hrne).mpr hr, ?_⟩
    rw [isBound, row?_grow hrne]
    exact hbound
  case linked =>
    intro r row m hrow hbound hr
    have hrne : r ≠ p.number := by
      rintro rfl
      rw [hself] at hrow
      cases hrow
      cases hbound
    have hr := (hlinks hrne).mp hr
    rw [linkColor?_grow (hold hr).2]
    exact h.linked r row m (row?_grow hrne ▸ hrow) hbound hr
  case unlinked =>
    intro r row hrow hfree
    by_cases hrp : r = p.number
    · rw [hrp, hself] at hrow
      cases hrow
      rfl
    · simp only [hlinks hrp] at hfree
      exact h.unlinked r row (row?_grow hrp ▸ hrow) hfree

theorem Coherent.merge (h : v.Coherent) (hv : v.Aligned) (hlinked : Linked s v.thread)
    (hp : p.number ∉ v.thread.numbers) : (v.merge p).Coherent := by
  have hnew : (v.settle p).number ∉ v.thread.numbers := by rwa [settle_number]
  have hsettled := settled_settle hv.indexed p
  have hseat : (v.seat p).Coherent := by
    rw [seat_eq_decorate, ← settle_number v p]
    apply (h.grow hlinked hnew hsettled).decorate (hv.grow hnew)
    exact hlinked.mem_linksOf_receive_self hnew hsettled
  have hmarks : (v.seat p).SameColors (v.merge p) := by
    apply SameColors.of_modifyRow
    exact fun row => ⟨rfl, rfl, .refl row.highlight⟩
  exact hseat.of_sameColors hmarks

/-! ## Runs -/

theorem Coherent.dispatch (h : v.Coherent) (hv : v.Aligned) (hlinked : Linked s v.thread)
    (c : Command) : (v.dispatch c).view.Coherent := by
  rcases dispatch_cases v c with hretouch | ⟨a, footer, -, hnum, hnew, heq⟩ | ⟨n, -, -, heq⟩
  · exact h.of_sameColors hretouch.sameColors
  · rw [heq]
    apply h.merge hv hlinked
    rw [hnum]
    exact hv.indexed.contains_eq_false_iff.mp hnew
  · rw [heq]
    rcases toggleFold_cases v n with heq | ⟨-, -, heq⟩ | ⟨-, -, -, heq⟩
    · rwa [heq]
    · rw [heq]
      exact h.of_sameColors (sameColors_unfold v)
    · rw [heq]
      exact h.of_sameColors (sameColors_foldAround v n)

theorem Coherent.run (h : v.Coherent) (hv : v.Aligned) (hlinked : Linked s v.thread)
    (cs : List Command) : (v.run cs).1.Coherent := by
  induction cs generalizing v with
  | nil => exact h
  | cons c rest ih =>
    have hchange := change_dispatch v c
    rw [run_cons]
    exact ih (h.dispatch hv hlinked c) (hv.change hchange) (linked_change hlinked hchange)

theorem Coherent.accent_eq_some_iff (h : v.Coherent) (hrow : v.row? n = some row)
    (hbound : row.bound = true) :
    row.highlight.target.accent = some c ↔
      ∃ m, n ∈ v.thread.linksOf m ∧ v.linkColor? m = some c := by
  constructor
  · intro haccent
    by_cases hfree : ∀ m, n ∉ v.thread.linksOf m
    · rw [h.unlinked n row hrow (Or.inr hfree)] at haccent
      cases haccent
    · obtain ⟨m, hm⟩ := not_forall_not.mp hfree
      exact ⟨m, hm, (h.linked n row m hrow hbound hm).2.symm.trans haccent⟩
  · rintro ⟨m, hm, hc⟩
    rw [(h.linked n row m hrow hbound hm).2, hc]

theorem Coherent.isSome_linkColor?_iff (h : v.Coherent) (hv : v.Aligned)
    (hlinked : Linked s v.thread) (n : PostNumber) :
    (v.linkColor? n).isSome ↔ ∃ r ∈ v.thread.linksOf n, v.isBound r = true := by
  rw [Option.isSome_iff_ne_none]
  constructor
  · exact h.asked n
  · rintro ⟨r, hr, hbound⟩
    obtain ⟨row, hrow⟩ := hv.exists_row (hlinked.mem_of_mem_linksOf hr)
    rw [isBound_of_row? hrow] at hbound
    exact (h.linked r row n hrow hbound hr).1

/-- Over any run, a post has a color exactly if a bound row links back to it. The
target part of a bound row has the color of the post from which the row is linked
back, which is its target, and no color if there is none; the number part has the
color of the row itself; and the other parts have none. Each part rests in its
color, or without paint. -/
theorem coherent_run {start : View} (hstart : View.ofSnapshot settings s = .ok start)
    (cs : List Command) :
    (∀ n, ((start.run cs).1.linkColor? n).isSome ↔
      ∃ r ∈ (start.run cs).1.thread.linksOf n, (start.run cs).1.isBound r = true) ∧
    (∀ r n, r ∈ (start.run cs).1.thread.linksOf n →
      (start.run cs).1.thread.target? r = some n) ∧
    (∀ r row, (start.run cs).1.row? r = some row →
      (row.bound = true → ∀ c, row.highlight.target.accent = some c ↔
        ∃ n, r ∈ (start.run cs).1.thread.linksOf n ∧
          (start.run cs).1.linkColor? n = some c) ∧
      row.highlight.number.accent = row.linkColor ∧
      row.highlight.header.accent = none ∧
      row.highlight.body.accent = none ∧
      ∀ part, (row.highlight.part part).base =
        match (row.highlight.part part).accent with
        | none => .plain
        | some c => .filled c) := by
  have hv := aligned_run hstart cs
  have hlinked := linked_run hstart cs
  have h : (start.run cs).1.Coherent :=
    (coherent_opened hstart).run (aligned_opened hstart) (linked_run hstart []) cs
  refine ⟨h.isSome_linkColor?_iff hv hlinked, ?_, ?_⟩
  · intro r n hr
    have hn : n ∈ (start.run cs).1.thread.numbers := by
      by_contra hn
      rw [hlinked.indexed.linksOf_of_not_mem hn] at hr
      cases hr
    exact ((hlinked.mem_linksOf_iff hn).mp hr).1
  · intro r row hrow
    obtain ⟨hnumber, hheader, hbody, hbase⟩ := h.rows r row hrow
    refine ⟨fun hbound c => h.accent_eq_some_iff hrow hbound, hnumber, hheader, hbody, ?_⟩
    intro part
    rw [hbase part]
    cases (row.highlight.part part).accent <;> rfl

section

open Sample

/-- A reply to the only post arrives. -/
def liveReply : List Command := [.insert ⟨two, post two (some one)⟩ none]

/-- Once it has a reply, a post has the first color, which the reply shows in its
target part. -/
theorem coherent_run_liveReply :
    View.ofSnapshot {} single = .ok (opened {} single) ∧
    (((opened {} single).run liveReply).1.linkColor? one).isSome ∧
    ((opened {} single).run liveReply).1.linkColor? two = none ∧
    ((opened {} single).run liveReply).1.thread.target? two = some one ∧
    ∃ row, ((opened {} single).run liveReply).1.row? two = some row ∧ row.bound = true ∧
      row.highlight.target.accent = some (Wheel.ofPalette {}).next := by
  have hstart : View.ofSnapshot {} single = .ok (opened {} single) :=
    ofSnapshot_eq_ok_iff.mpr ⟨by decide, rfl⟩
  obtain ⟨hasked, htarget, hrows⟩ := coherent_run hstart liveReply
  have hlink : two ∈ ((opened {} single).run liveReply).1.thread.linksOf one := by decide
  have hbound : ((opened {} single).run liveReply).1.isBound two = true := by decide
  have hcolor : ((opened {} single).run liveReply).1.linkColor? one =
      some (Wheel.ofPalette {}).next := by decide
  obtain ⟨row, hrow⟩ := (aligned_run hstart liveReply).exists_row (n := two) (by decide)
  rw [isBound_of_row? hrow] at hbound
  have haccent := ((hrows two row hrow).1 hbound (Wheel.ofPalette {}).next).mpr
    ⟨one, hlink, hcolor⟩
  refine ⟨hstart, (hasked one).mpr ⟨two, hlink, by decide⟩, ?_, htarget two one hlink, row, hrow,
    hbound, haccent⟩
  rw [← Option.not_isSome_iff_eq_none, hasked two]
  decide

end

end View

end Discussion
