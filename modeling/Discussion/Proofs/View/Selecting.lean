import Discussion.Proofs.View.Pinning

/-!
# Selecting an author

A click on a header selects or deselects every bound row of one author. What a row
shows then depends on what was pinned in it before: selecting does not paint over a
pinned body, and deselecting takes off what selecting pins.
-/

namespace Discussion

namespace Layers

/-- A part follows a color unless it is pinned. -/
theorem visible_follow_color (l : Layers) (palette : Palette) (c : Color) :
    (l.follow palette (.color c)).visible = if l.isPinned then l.visible else .filled c := by
  cases h : l.isPinned with
  | true => rw [follow_of_isPinned h, if_pos rfl]
  | false =>
    rw [visible_follow h]
    rfl

end Layers

namespace Highlight

open View (authorParts selectCues selectHighlight deselectHighlight)

variable {p : Part}

/-- Selecting an author pins the pale color where nothing is pinned. -/
theorem visible_selectHighlight (palette : Palette) (pale : Color) (h : Highlight)
    (hp : p ∈ authorParts) :
    ((selectHighlight palette pale h).part p).isPinned = true ∧
    ((selectHighlight palette pale h).part p).visible =
      if (h.part p).isPinned then (h.part p).visible else .filled pale := by
  have hpinned := pinned_selectHighlight palette pale h p
  have hcue : selectCues pale p = .color pale := by
    cases p with
    | header | body => rfl
    | number | target => exact absurd hp (by decide)
  rw [if_pos hp, hcue, Layers.visible_follow_color] at hpinned
  refine ⟨by rw [Layers.isPinned, hpinned]; rfl, ?_⟩
  rw [Layers.visible, hpinned]
  rfl

/-- Deselecting an author leaves a part at rest, unless it is pinned for another
reason. -/
theorem visible_deselectHighlight (palette : Palette) (h : Highlight)
    (hp : p ∈ authorParts ∨ (h.part p).isPinned = false) :
    ((deselectHighlight palette h).part p).isPinned = false ∧
    ((deselectHighlight palette h).part p).visible =
      ((deselectHighlight palette h).part p).base := by
  have hfree : ((deselectHighlight palette h).part p).pinned = none := by
    rw [pinned_deselectHighlight]
    split
    · rfl
    · exact Option.isNone_iff_eq_none.mp
        (Option.isSome_eq_false_iff.mp (hp.resolve_left ‹p ∉ authorParts›))
  have hpart : (deselectHighlight palette h).part p =
      ((h.unpin authorParts).part p).follow palette .rest :=
    (part_authorSelected _ _ p).trans (part_follow _ _ _ p)
  refine ⟨by rw [Layers.isPinned, hfree]; rfl, ?_⟩
  rw [hpart] at hfree ⊢
  rw [Layers.visible_follow_rest, Layers.base_follow, ← Layers.pinned_follow _ palette .rest, hfree]
  rfl

end Highlight

namespace View

variable {v w : View} {n k : PostNumber} {e : Entry} {row other : Row}

/-- The clicked row decides what becomes of the bound rows of its author. -/
theorem row?_clickHeader (he : v.thread.get? n = some e) (hrow : v.row? n = some row)
    (hbound : row.bound = true) (k : PostNumber) :
    (v.clickHeader n).row? k = (v.row? k).map fun other =>
      if k ∈ v.thread.byAuthor e.post.author then
        other.mapBound (if row.highlight.authorSelected then deselectHighlight v.palette
          else selectHighlight v.palette (v.palette.pale e.post.seed))
      else other := by
  rw [clickHeader, he, hrow]
  dsimp only
  rw [if_pos hbound, row?_mapRows]

theorem row?_clickHeader_of_mine (hv : v.Aligned) (he : v.thread.get? n = some e)
    (hrow : v.row? n = some row) (hbound : row.bound = true) {e' : Entry}
    (he' : v.thread.get? k = some e') (hauthor : e'.post.author = e.post.author)
    (hother : v.row? k = some other) (hbound' : other.bound = true) :
    (v.clickHeader n).row? k = some
      (other.mapHighlight (if row.highlight.authorSelected then deselectHighlight v.palette
        else selectHighlight v.palette (v.palette.pale e.post.seed))) := by
  have hmine : k ∈ v.thread.byAuthor e.post.author := (mem_byAuthor_iff hv).mpr ⟨e', he', hauthor⟩
  rw [row?_clickHeader he hrow hbound, hother, Option.map_some, if_pos hmine, Row.mapBound,
    if_pos hbound']

theorem row?_clickHeader_of_other (hv : v.Aligned) (he : v.thread.get? n = some e)
    (hrow : v.row? n = some row) (hbound : row.bound = true) {e' : Entry}
    (he' : v.thread.get? k = some e') (hauthor : e'.post.author ≠ e.post.author) :
    (v.clickHeader n).row? k = v.row? k := by
  have hmine : k ∉ v.thread.byAuthor e.post.author := by
    intro hmem
    obtain ⟨e'', he'', heq⟩ := (mem_byAuthor_iff hv).mp hmem
    obtain rfl : e'' = e' := Option.some.inj (he''.symm.trans he')
    exact hauthor heq
  rw [row?_clickHeader he hrow hbound]
  simp only [if_neg hmine, Option.map_id']

/-- A click on a bound header whose author is not selected pins the header and the body
of every bound row of that author: in the pale color of the clicked post, or in the
paint that was pinned there already. A click on one whose author is selected leaves
these rows at rest, but for a post number that was pinned before. Either way the rows
of other authors stay as they are. -/
theorem Reachable.clickHeader_toggles (h : Reachable v) (hn : v.isBound n = true) :
    v.dispatch (.clickHeader n) = { view := v.clickHeader n } ∧
    ∃ e row, v.thread.get? n = some e ∧ v.row? n = some row ∧
      (row.highlight.authorSelected = false → ∀ k e' other, v.thread.get? k = some e' →
        e'.post.author = e.post.author → v.row? k = some other → other.bound = true →
        ∃ row', (v.clickHeader n).row? k = some row' ∧ row'.highlight.authorSelected = true ∧
          ∀ p ∈ authorParts, (row'.highlight.part p).isPinned = true ∧
            (row'.highlight.part p).visible =
              if (other.highlight.part p).isPinned then (other.highlight.part p).visible
              else .filled (v.palette.pale e.post.seed)) ∧
      (row.highlight.authorSelected = true → ∀ k e' other, v.thread.get? k = some e' →
        e'.post.author = e.post.author → v.row? k = some other → other.bound = true →
        ∃ row', (v.clickHeader n).row? k = some row' ∧ row'.highlight.authorSelected = false ∧
          ∀ p, p ≠ .number ∨ (other.highlight.part p).isPinned = false →
            (row'.highlight.part p).isPinned = false ∧
            (row'.highlight.part p).visible = (row'.highlight.part p).base) ∧
      (∀ k e', v.thread.get? k = some e' → e'.post.author ≠ e.post.author →
        (v.clickHeader n).row? k = v.row? k) := by
  have hv := h.aligned
  obtain ⟨row, hrow, hbound⟩ := (Option.any_eq_true _ _).mp hn
  have hmem : n ∈ v.thread.numbers := hv.mem_of_row? hrow
  obtain ⟨e, he⟩ := Option.isSome_iff_exists.mp (hv.indexed.get?_isSome_iff.mpr hmem)
  refine ⟨?_, e, row, he, hrow, ?_, ?_, ?_⟩
  · rw [dispatch_eq_perform]
    · rfl
    · rintro k ⟨rfl⟩
      exact hv.indexed.contains_iff.mpr hmem
  · intro hselected k e' other he' hauthor hother hbound'
    have hnew := row?_clickHeader_of_mine hv he hrow hbound he' hauthor hother hbound'
    rw [hselected, if_neg Bool.false_ne_true] at hnew
    exact ⟨_, hnew, rfl, fun p hp =>
      Highlight.visible_selectHighlight v.palette _ other.highlight hp⟩
  · intro hselected k e' other he' hauthor hother hbound'
    have hnew := row?_clickHeader_of_mine hv he hrow hbound he' hauthor hother hbound'
    rw [hselected, if_pos rfl] at hnew
    refine ⟨_, hnew, rfl, fun p hp => ?_⟩
    apply Highlight.visible_deselectHighlight v.palette other.highlight
    -- of the other two parts, the target is never pinned
    cases p with
    | header | body => exact Or.inl (by decide)
    | number => exact Or.inr (hp.resolve_left (not_not_intro rfl))
    | target =>
      refine Or.inr ?_
      rw [Layers.isPinned, show (other.highlight.part .target).pinned = none from
        (h.wellPinned.rows k other hother).target]
      rfl
  · exact fun k e' he' hauthor => row?_clickHeader_of_other hv he hrow hbound he' hauthor

/-- What a click on a header would do to the rows of the author if it passed over
nothing that other clicks have pinned. -/
structure CleanToggle (v : View) (n : PostNumber) : Prop where
  select : ∀ e row, v.thread.get? n = some e → v.row? n = some row →
    row.highlight.authorSelected = false →
    ∀ k e' row', v.thread.get? k = some e' → e'.post.author = e.post.author →
      (v.clickHeader n).row? k = some row' → row'.bound = true →
      ∀ p ∈ authorParts, (row'.highlight.part p).isPinned = true ∧
        (row'.highlight.part p).visible = .filled (v.palette.pale e.post.seed)
  deselect : ∀ e row, v.thread.get? n = some e → v.row? n = some row →
    row.highlight.authorSelected = true →
    ∀ k e' row', v.thread.get? k = some e' → e'.post.author = e.post.author →
      (v.clickHeader n).row? k = some row' → row'.bound = true →
      ∀ p, (row'.highlight.part p).isPinned = false ∧
        (row'.highlight.part p).visible = (row'.highlight.part p).base

section

open Sample

/-- A post with a reply by the same author, after the reply was quoted. -/
def quoted : View :=
  (opened {} (snapshot [post one none, post two (some one)])).call (.dispatch (.quote two))

theorem reachable_quoted : Reachable quoted :=
  .call (.opened (ofSnapshot_eq_ok_iff.mpr ⟨by decide, rfl⟩)) _

theorem reachable_clickHeader_quoted : Reachable (quoted.clickHeader one) :=
  reachable_quoted.call (.perform (.clickHeader one))

/-- The author of a post with a quoted reply is selected and deselected. The body of
the reply keeps the color of the quote at first, and rests in the end. -/
theorem clickHeader_toggles_quoted :
    Reachable quoted ∧ quoted.isBound one = true ∧
    (∃ row', (quoted.clickHeader one).row? two = some row' ∧
      row'.highlight.header.visible = .filled (quoted.palette.pale (post one none).seed) ∧
      row'.highlight.body.visible = .filled quoted.palette.quote) ∧
    Reachable (quoted.clickHeader one) ∧ (quoted.clickHeader one).isBound one = true ∧
    ∃ row', ((quoted.clickHeader one).clickHeader one).row? two = some row' ∧
      row'.highlight.body.isPinned = false ∧
      row'.highlight.body.visible = row'.highlight.body.base := by
  obtain ⟨-, e, row, he, hrow, hselect, -⟩ :=
    reachable_quoted.clickHeader_toggles (n := one) (by decide)
  obtain rfl : _ = e := Option.some.inj ((rfl : quoted.thread.get? one = some _).symm.trans he)
  obtain rfl : _ = row := Option.some.inj ((rfl : quoted.row? one = some _).symm.trans hrow)
  obtain ⟨row₁, hrow₁, -, hparts₁⟩ := hselect (by decide) two _ _ rfl rfl rfl (by decide)
  obtain ⟨-, e', row', he', hrow', -, hdeselect, -⟩ :=
    reachable_clickHeader_quoted.clickHeader_toggles (n := one) (by decide)
  obtain rfl : _ = e' :=
    Option.some.inj ((rfl : (quoted.clickHeader one).thread.get? one = some _).symm.trans he')
  obtain rfl : _ = row' :=
    Option.some.inj ((rfl : (quoted.clickHeader one).row? one = some _).symm.trans hrow')
  obtain ⟨row₂, hrow₂, -, hparts₂⟩ := hdeselect (by decide) two _ _ rfl rfl rfl (by decide)
  refine ⟨reachable_quoted, by decide, ⟨row₁, hrow₁, ?_, ?_⟩, reachable_clickHeader_quoted,
    by decide, row₂, hrow₂, hparts₂ .body (Or.inl (by decide))⟩
  · exact (hparts₁ .header (by decide)).2
  · exact (hparts₁ .body (by decide)).2

/-- The body of a quoted reply does not take the pale color of its author, and its
number stays pinned when the author is deselected. -/
theorem not_cleanToggle_quoted :
    Reachable quoted ∧ quoted.isBound one = true ∧ ¬ quoted.CleanToggle one ∧
    Reachable (quoted.clickHeader one) ∧ (quoted.clickHeader one).isBound one = true ∧
    ¬ (quoted.clickHeader one).CleanToggle one := by
  refine ⟨reachable_quoted, by decide, ?_, reachable_clickHeader_quoted, by decide, ?_⟩
  · intro h
    have hbody :=
      (h.select _ _ rfl rfl (by decide) two _ _ rfl rfl rfl (by decide) .body (by decide)).2
    exact absurd hbody (by decide)
  · intro h
    have hnumber :=
      (h.deselect _ _ rfl rfl (by decide) two _ _ rfl rfl rfl (by decide) .number).1
    exact absurd hnumber (by decide)

end

end View

end Discussion
