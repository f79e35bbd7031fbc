import Discussion.Proofs.View.Following
import Discussion.Proofs.View.Lit

/-!
# What pointing at a link paints

Pointing at a number, at a link or at a link back is one operation: a post is pointed
out in its number, replies in their links, and some posts in their bodies. Each part
takes the color from its own row, and these colors agree because a bound row that is
linked back has in its link the color of the post at the other end.
-/

namespace Discussion

namespace View

variable {v w : View} {p : Post} {n m k r : PostNumber} {c : Color} {row : Row}
  {replies bodies : List PostNumber} {settings : Settings} {s : Snapshot}

/-! ## Links back and their colors -/

/-- A bound row that is linked back from `m` has a link in the color of `m`. -/
def Tied (v : View) : Prop :=
  ∀ r row m, v.row? r = some row → row.bound = true → r ∈ v.thread.linksOf m →
    ∃ c, v.linkColor? m = some c ∧ row.highlight.target.accent = some c

theorem tied_opened (hv : View.ofSnapshot settings s = .ok v) : v.Tied := by
  intro r row m hrow hbound hr
  obtain ⟨hm, haccent⟩ := (coherent_opened hv).linked r row m hrow hbound hr
  obtain ⟨c, hc⟩ := Option.ne_none_iff_exists'.mp hm
  exact ⟨c, hc, haccent.trans hc⟩

namespace Tied

theorem of_sameColors (h : v.Tied) (hvw : v.SameColors w) : w.Tied := by
  intro r row m hrow hbound hr
  obtain ⟨old, hold, hsame⟩ := hvw.exists_row hrow
  obtain ⟨c, hc, haccent⟩ := h r old m hold (hsame.bound ▸ hbound) (hvw.thread ▸ hr)
  exact ⟨c, (hvw.linkColor? m).trans hc, (hsame.base .target).1.trans haccent⟩

/-- Neither a tint nor a color that is given away unties a row. -/
theorem step {old : Row} (h : v.Tied) (hstep : v.ColorStep w) (hold : v.row? r = some old)
    (hrow : row = old.tint c ∨ row = old) (hbound : row.bound = true)
    (hr : r ∈ v.thread.linksOf m) :
    ∃ d, w.linkColor? m = some d ∧ row.highlight.target.accent = some d := by
  have hsame := link_of_tint hrow
  obtain ⟨d, hd, haccent⟩ := h r old m hold (hsame.2 ▸ hbound) hr
  exact ⟨d, hstep.linkColor?_eq_some hd, hsame.1.trans haccent⟩

theorem handOut (h : v.Tied) (hstep : v.ColorStep (v.handOut n)) : (v.handOut n).Tied := by
  intro r row m hrow hbound hr
  obtain ⟨old, hold, htint⟩ := exists_row_of_handOut hrow
  exact h.step hstep hold htint hbound hr

/-- The link of an arrival gets the color that its parent has, or is given. -/
theorem arrival (hv : v.Aligned) (hlinked : Thread.Linked s v.thread)
    (hp : p.number ∉ v.thread.numbers) (hbound : (v.arrivalRow p).bound = true)
    (hr : p.number ∈ (v.merge p).thread.linksOf m) :
    ∃ c, (v.merge p).linkColor? m = some c ∧
      (v.arrivalRow p).highlight.target.accent = some c := by
  have hnew : (v.settle p).number ∉ v.thread.numbers := by rwa [settle_number]
  have hsettled := settled_settle hv.indexed p
  have homission : p.omission = false := by simpa [arrivalRow] using hbound
  have hparent : (v.settle p).parent = some m := by
    rw [thread_merge, ← settle_number v p, hlinked.mem_linksOf_receive_self hnew hsettled,
      hv.indexed.target?_receive_self hnew hsettled] at hr
    exact hr
  refine ⟨v.colorFor m, ?_, ?_⟩
  · rw [linkColor?_merge hv hp, homission, hparent, colorFor]
    cases v.linkColor? m <;> simp
  · rw [arrivalRow, ← settle_eq_entering hv.indexed, hparent, homission]
    rfl

theorem merge (h : v.Tied) (hv : v.Aligned) (hlinked : Thread.Linked s v.thread)
    (hp : p.number ∉ v.thread.numbers) : (v.merge p).Tied := by
  intro r row m hrow hbound hr
  by_cases hrp : r = p.number
  · subst hrp
    rw [row?_merge_self hv.indexed hp] at hrow
    obtain rfl := Option.some.inj hrow
    exact arrival hv hlinked hp hbound hr
  · have hnew : (v.settle p).number ∉ v.thread.numbers := by rwa [settle_number]
    rw [thread_merge, hlinked.mem_linksOf_receive_of_ne hnew (settled_settle hv.indexed p)
      (by rwa [settle_number])] at hr
    obtain ⟨old, hold, htint⟩ := exists_row_of_merge hv.indexed hp hrp hrow
    exact h.step (colorStep_merge hv hp) hold htint hbound hr

theorem change (h : v.Tied) (hv : v.Aligned) (hlinked : Thread.Linked s v.thread)
    (hvw : Change v w) : w.Tied := by
  have hstep := hvw.colorStep hv
  rcases hvw.color_cases with hsame | ⟨p, hp, rfl⟩ | ⟨n, -, -, rfl⟩
  · exact h.of_sameColors hsame
  · exact h.merge hv hlinked (hv.indexed.contains_eq_false_iff.mp hp)
  · exact h.handOut hstep

end Tied

theorem Reachable.tied (h : Reachable v) : v.Tied := by
  induction h with
  | opened hv => exact tied_opened hv
  | @call v hv c ih =>
    obtain ⟨s, hlinked⟩ := hv.linked
    exact ih.change hv.aligned hlinked (change_call v c)

/-! ## Pointing -/

/-- The number of `n` and the links of `replies` in their colors, the bodies of
`bodies` referred to in the color `c`, and nothing else. -/
def pointingCues (n : PostNumber) (c : Color) (replies bodies : List PostNumber)
    (k : PostNumber) : Cues
  | .header => .plain
  | .number => if k = n then .accent else .plain
  | .target => if k ∈ replies then .accent else .plain
  | .body => if k ∈ bodies then .reference c else .plain

/-- The number of `n` and the links of `replies` filled with `c`, the bodies of
`bodies` filled with `dark`, and nothing else. -/
def pointing (n : PostNumber) (c dark : Color) (replies bodies : List PostNumber)
    (k : PostNumber) : Part → Paint
  | .header => .plain
  | .number => if k = n then .filled c else .plain
  | .target => if k ∈ replies then .filled c else .plain
  | .body => if k ∈ bodies then .filled dark else .plain

/-- From `v` to `w` only hover paints change: unbound rows and pinned parts stay, and
every other part shows its paint in `paints`. -/
structure PointsOut (v w : View) (paints : PostNumber → Part → Paint) : Prop where
  hovered : v.Hovered w
  unbound : ∀ k row, v.row? k = some row → row.bound = false → w.row? k = some row
  bound : ∀ k row, v.row? k = some row → row.bound = true → ∃ row', w.row? k = some row' ∧
    row' = { row with highlight := row'.highlight } ∧
    ∀ q, ((row.highlight.part q).isPinned = true →
        row'.highlight.part q = row.highlight.part q) ∧
      ((row.highlight.part q).isPinned = false →
        (row'.highlight.part q).isPinned = false ∧
        (row'.highlight.part q).visible = paints k q)

/-- The parts of a bound row show for the cues what pointing out is to paint. -/
theorem shown_pointingCues (hlit : v.LitRow k row) (htied : v.Tied)
    (hrow : v.row? k = some row) (hbound : row.bound = true) (hc : v.linkColor? n = some c)
    (hreplies : ∀ r ∈ replies, r ∈ v.thread.linksOf n) (bodies : List PostNumber) (q : Part) :
    (row.highlight.part q).shown v.palette (pointingCues n c replies bodies k q) =
      pointing n c (v.palette.dark c) replies bodies k q := by
  cases q with
  | header => rfl
  | number =>
    by_cases hk : k = n
    · subst hk
      have haccent : row.highlight.number.accent = some c := by
        rw [hlit.coherent.number, ← linkColor?_of_row? hrow, hc]
      simp [pointingCues, pointing, Layers.shown, Layers.hoverPaint, Highlight.part, haccent]
    · simp [pointingCues, pointing, Layers.shown, Layers.hoverPaint, hk]
  | target =>
    by_cases hk : k ∈ replies
    · obtain ⟨d, hd, haccent⟩ := htied k row n hrow hbound (hreplies k hk)
      obtain rfl : c = d := Option.some.inj (hc.symm.trans hd)
      simp [pointingCues, pointing, Layers.shown, Layers.hoverPaint, Highlight.part, haccent, hk]
    · simp [pointingCues, pointing, Layers.shown, Layers.hoverPaint, hk]
  | body =>
    by_cases hk : k ∈ bodies <;> simp [pointingCues, pointing, Layers.shown, Layers.hoverPaint, hk]

/-- The cues of a post with a color point it out in this color, and in the color that the palette
makes of it. -/
theorem Reachable.pointsOut_paintAll (h : Reachable v) (hc : v.linkColor? n = some c)
    (hreplies : ∀ r ∈ replies, r ∈ v.thread.linksOf n) (bodies : List PostNumber) :
    ∃ dark, v.palette.darkShift.Moves c dark ∧
      v.PointsOut (v.paintAll (pointingCues n c replies bodies))
        (pointing n c dark replies bodies) := by
  refine ⟨v.palette.dark c, Palette.moves_dark_iff.mpr rfl, hovered_paintAll v _, ?_, ?_⟩
  · intro k row hrow hbound
    rw [paintAll, row?_mapRows, hrow, Option.map_some, Row.mapBound, if_neg (by simp [hbound])]
  · intro k row hrow hbound
    have hpaint := shown_pointingCues (h.lit k row hrow) h.tied hrow hbound hc hreplies bodies
    refine ⟨row.mapHighlight (·.follow v.palette (pointingCues n c replies bodies k)), ?_, rfl, ?_⟩
    · rw [paintAll, row?_mapRows, hrow, Option.map_some, Row.mapBound, if_pos hbound]
    · intro q
      rw [Row.mapHighlight, Highlight.part_follow]
      constructor
      · exact fun hpinned => Layers.follow_of_isPinned hpinned _ _
      · intro hfree
        refine ⟨?_, (Layers.visible_follow hfree _ _).trans (hpaint q)⟩
        rw [Layers.isPinned, Layers.pinned_follow]
        exact hfree

/-- A reply is pointed out in its link and its body, and the post in its number. -/
theorem pointingCues_eq_replyCues (hn : n ∉ replies) (c : Color) (k : PostNumber) :
    (if k ∈ replies then replyCues c else if k = n then numberCues else plainCues) =
      pointingCues n c replies replies k := by
  funext q
  by_cases hk : k ∈ replies
  · have hne : k ≠ n := fun heq => hn (heq ▸ hk)
    cases q <;> simp [pointingCues, replyCues, hk, hne]
  · by_cases hkn : k = n <;> cases q <;>
      simp [pointingCues, numberCues, plainCues, hk, hkn, hn]

/-- A target is pointed out in its number and its body, and the replies in their links. -/
theorem pointingCues_eq_referredCues (hn : n ∉ replies) (c : Color) (k : PostNumber) :
    (if k = n then referredCues c else if k ∈ replies then targetCues else plainCues) =
      pointingCues n c replies [n] k := by
  funext q
  by_cases hkn : k = n
  · cases q <;> simp [pointingCues, referredCues, hkn, hn]
  · by_cases hk : k ∈ replies <;> cases q <;>
      simp [pointingCues, targetCues, plainCues, hk, hkn]

theorem hoverNumber_eq_pointing (hn : n ∉ v.thread.linksOf n) (hbound : v.isBound n = true)
    (hc : v.linkColor? n = some c) :
    v.hoverNumber n =
      v.paintAll (pointingCues n c (v.thread.linksOf n) (v.thread.linksOf n)) := by
  rw [hoverNumber, hc]
  dsimp only
  rw [if_pos hbound]
  simp only [pointingCues_eq_replyCues hn]

theorem hoverTarget_eq_pointing (hm : m ∉ v.thread.linksOf m)
    (hlink : v.linkedTarget? n = some m) (hc : v.linkColor? m = some c) :
    v.hoverTarget n = v.paintAll (pointingCues m c (v.thread.linksOf m) [m]) := by
  rw [hoverTarget, hlink]
  dsimp only
  rw [hc]
  simp only [pointingCues_eq_referredCues hm]

theorem hoverLink_eq_pointing (hr : r ≠ n) (hlink : v.linkedReply? n r = some c) :
    v.hoverLink n r = v.paintAll (pointingCues n c [r] [r]) := by
  have hn : n ∉ [r] := fun hmem => hr (List.mem_singleton.mp hmem).symm
  rw [hoverLink, hlink]
  simp only [← funext (pointingCues_eq_replyCues hn c), List.mem_singleton]

/-- Pointing at the number of a bound post with a color, at a colored link, or at a link
back fills with one color the number of the post at the end of the links and the links
that lead to it, or the one link back. With that color moved by the palette's offsets it
fills some bodies: those of the replies, that of the target, or that of the one reply.
Every other part of a bound row shows no paint. Pinned parts and unbound rows stay, and
the call does nothing when its condition fails. -/
theorem Reachable.hovers_point_out (h : Reachable v) :
    (∀ n c, v.isBound n = true → v.linkColor? n = some c →
      ∃ dark, v.palette.darkShift.Moves c dark ∧
        v.PointsOut (v.hoverNumber n)
          (pointing n c dark (v.thread.linksOf n) (v.thread.linksOf n))) ∧
    (∀ n row m c, v.row? n = some row → row.highlight.target.accent ≠ none →
      v.thread.target? n = some m → v.linkColor? m = some c →
      ∃ dark, v.palette.darkShift.Moves c dark ∧
        v.PointsOut (v.hoverTarget n) (pointing m c dark (v.thread.linksOf m) [m])) ∧
    (∀ n r c, r ∈ v.thread.linksOf n → v.linkColor? n = some c →
      ∃ dark, v.palette.darkShift.Moves c dark ∧
        v.PointsOut (v.hoverLink n r) (pointing n c dark [r] [r])) ∧
    (∀ n, ¬ (v.isBound n = true ∧ ∃ c, v.linkColor? n = some c) → v.hoverNumber n = v) ∧
    (∀ n, (¬ ∃ row m c, v.row? n = some row ∧ row.highlight.target.accent ≠ none ∧
      v.thread.target? n = some m ∧ v.linkColor? m = some c) → v.hoverTarget n = v) ∧
    (∀ n r, ¬ (r ∈ v.thread.linksOf n ∧ ∃ c, v.linkColor? n = some c) → v.hoverLink n r = v) := by
  obtain ⟨s, hlinked⟩ := h.linked
  have hself := hlinked.not_mem_linksOf_self
  refine ⟨?_, ?_, ?_, ?_, ?_, ?_⟩
  · intro n c hbound hc
    rw [hoverNumber_eq_pointing (hself n) hbound hc]
    exact h.pointsOut_paintAll hc (fun _ hr => hr) _
  · intro n row m c hrow haccent hm hc
    have hbound := ((h.lit n row hrow).leads haccent).1
    have hlink := linkedTarget?_eq_some_iff.mpr ⟨row, hrow, hbound, haccent, hm⟩
    rw [hoverTarget_eq_pointing (hself m) hlink hc]
    exact h.pointsOut_paintAll hc (fun _ hr => hr) _
  · intro n r c hr hc
    have hne : r ≠ n := by
      rintro rfl
      exact hself r hr
    rw [hoverLink_eq_pointing hne (linkedReply?_eq_some_iff.mpr ⟨hr, hc⟩)]
    exact h.pointsOut_paintAll hc (by simpa using hr) _
  · intro n hfail
    rw [hoverNumber]
    cases hc : v.linkColor? n with
    | none => rfl
    | some c => exact if_neg fun hbound => hfail ⟨hbound, c, hc⟩
  · intro n hfail
    rw [hoverTarget]
    cases hlink : v.linkedTarget? n with
    | none => rfl
    | some m =>
      obtain ⟨row, hrow, -, haccent, hm⟩ := linkedTarget?_eq_some_iff.mp hlink
      dsimp only
      cases hc : v.linkColor? m with
      | none => rfl
      | some c => exact absurd ⟨row, m, c, hrow, haccent, hm, hc⟩ hfail
  · intro n r hfail
    rw [hoverLink]
    cases hlink : v.linkedReply? n r with
    | none => rfl
    | some c =>
      obtain ⟨hr, hc⟩ := linkedReply?_eq_some_iff.mp hlink
      exact absurd ⟨hr, c, hc⟩ hfail

section

open Sample

/-- A palette that takes the hue by a third of the circle against its direction. -/
def backwards : Palette := { darkShift := ⟨-120, -40, -5⟩ }

/-- A post, a reply to it and a placeholder of another reply. The post is quoted, which
pins its number and its body. -/
def quotedPost : View :=
  (opened { palette := backwards } (snapshot [post one none, post two (some one),
    { post three (some one) with omission := true }])).call (.dispatch (.quote one))

/-- Pointing at the number paints the link and the body of the reply, in the first color of the
sequence and in this color moved. The pinned number and the placeholder stay as they are. -/
theorem hovers_point_out_quotedPost :
    Reachable quotedPost ∧ quotedPost.isBound one = true ∧
    quotedPost.linkColor? one = some ⟨113, 70, 74⟩ ∧
      quotedPost.PointsOut (quotedPost.hoverNumber one)
        (pointing one ⟨113, 70, 74⟩ ⟨353, 30, 69⟩ [two, three] [two, three]) ∧
      (∃ row row', quotedPost.row? one = some row ∧
        (quotedPost.hoverNumber one).row? one = some row' ∧
        row.highlight.number.isPinned = true ∧ row'.highlight.number = row.highlight.number) ∧
      (∃ row, (quotedPost.hoverNumber one).row? two = some row ∧
        row.highlight.target.visible = .filled ⟨113, 70, 74⟩ ∧
        row.highlight.body.visible = .filled ⟨353, 30, 69⟩) ∧
      (quotedPost.hoverNumber one).row? three = quotedPost.row? three ∧
      quotedPost.hoverNumber three = quotedPost := by
  have hopened : Reachable (opened { palette := backwards } (snapshot [post one none,
      post two (some one), { post three (some one) with omission := true }])) :=
    reachable_opened (by decide)
  have hreachable : Reachable quotedPost := hopened.call _
  obtain ⟨hnumber, -, -, hfail, -, -⟩ := hreachable.hovers_point_out
  have hc : quotedPost.linkColor? one = some ⟨113, 70, 74⟩ := by decide
  obtain ⟨dark, hdark, hpoints⟩ := hnumber one _ (by decide) hc
  obtain rfl : dark = ⟨353, 30, 69⟩ := hdark.unique ⟨by decide, by decide, by decide⟩
  have hlinks : quotedPost.thread.linksOf one = [two, three] := by decide
  rw [hlinks] at hpoints
  have hpin : (quotedPost.row? one).any (·.highlight.number.isPinned) = true := by decide
  have hfree : (quotedPost.row? two).any (fun row =>
      !row.highlight.target.isPinned && !row.highlight.body.isPinned) = true := by decide
  obtain ⟨first, hfirst, hpin⟩ := (Option.any_eq_true _ _).mp hpin
  obtain ⟨reply, hreply, hfree⟩ := (Option.any_eq_true _ _).mp hfree
  obtain ⟨bare, hbare⟩ := hreachable.aligned.exists_row (n := three) (by decide)
  have hbound : ∀ n row, quotedPost.row? n = some row → row.bound = quotedPost.isBound n :=
    fun n row hrow => (isBound_of_row? hrow).symm
  obtain ⟨first', hfirst', -, hkept⟩ :=
    hpoints.bound one first hfirst ((hbound one first hfirst).trans (by decide))
  obtain ⟨reply', hreply', -, hpainted⟩ :=
    hpoints.bound two reply hreply ((hbound two reply hreply).trans (by decide))
  rw [Bool.and_eq_true, Bool.not_eq_true', Bool.not_eq_true'] at hfree
  refine ⟨hreachable, by decide, hc, hpoints,
    ⟨first, first', hfirst, hfirst', hpin, (hkept .number).1 hpin⟩,
    ⟨reply', hreply', ((hpainted .target).2 hfree.1).2, ((hpainted .body).2 hfree.2).2⟩, ?_, ?_⟩
  · rw [hbare]
    exact hpoints.unbound three bare hbare ((hbound three bare hbare).trans (by decide))
  · exact hfail three fun hcond => absurd hcond.1 (by decide)

end

end View

end Discussion
