import Discussion.Proofs.View.Hovering

/-!
# Pinning anew

A quote and a click on a link do the same with different cues: they drop every
pinned and every hover paint and every selection, let the bound rows follow cues,
and pin the number and the body of one post. What comes of it depends on nothing
that the pointer did before.
-/

namespace Discussion

namespace Layers

/-- A part without hover paint and pinned paint. -/
def wipe (l : Layers) : Layers := { base := l.base, accent := l.accent }

theorem visible_follow_wipe (l : Layers) (palette : Palette) (cue : Cue) :
    (l.wipe.follow palette cue).visible = l.shown palette cue := by
  rw [visible_follow rfl]
  cases cue <;> rfl

/-- Pinning pins what is visible. -/
theorem pinned_pin (l : Layers) : l.pin.pinned = some l.visible := by
  rw [pin]
  split
  · rename_i h
    obtain ⟨paint, hpaint⟩ := Option.isSome_iff_exists.mp h
    rw [visible, hpaint]
    rfl
  · rfl

end Layers

namespace Highlight

/-- A highlight without hover paints, pinned paints, selection and hint. -/
def wipe (h : Highlight) : Highlight :=
  { h.mapParts fun _ l => l.wipe with authorSelected := false, hint := none }

@[simp]
theorem part_wipe (h : Highlight) (p : Part) : h.wipe.part p = (h.part p).wipe := by
  cases p <;> rfl

@[simp]
theorem part_restore (h : Highlight) (palette : Palette) (p : Part) :
    (h.restore palette).part p = (h.part p).wipe := by
  cases p <;> rfl

/-- Highlights with the same link colors and base paints are wiped alike. -/
theorem SameBase.wipe_eq {a b : Highlight} (h : a.SameBase b) : b.wipe = a.wipe := by
  apply ext_parts
  · intro p
    rw [part_wipe, part_wipe, Layers.wipe, Layers.wipe, (h p).1, (h p).2]
  · rfl
  · rfl

/-- The highlight after all of it is dropped, its parts have followed cues, and
some of them are pinned. The hint stays. -/
def repin (h : Highlight) (palette : Palette) (cues : Cues) (parts : List Part) : Highlight :=
  ({ h.restore palette with authorSelected := false }.follow palette cues).pin parts

theorem part_repin (h : Highlight) (palette : Palette) (cues : Cues) (parts : List Part)
    (p : Part) :
    (h.repin palette cues parts).part p =
      if p ∈ parts then ((h.part p).wipe.follow palette (cues p)).pin
      else (h.part p).wipe.follow palette (cues p) := by
  rw [repin, part_pin, part_follow, part_authorSelected, part_restore]

theorem pinned_repin (h : Highlight) (palette : Palette) (cues : Cues) (parts : List Part)
    (p : Part) :
    ((h.repin palette cues parts).part p).pinned =
      if p ∈ parts then some ((h.part p).shown palette (cues p)) else none := by
  rw [part_repin]
  split
  · rw [Layers.pinned_pin, Layers.visible_follow_wipe]
  · exact Layers.pinned_follow _ _ _

/-- Following no cue and pinning no part leaves what is left of a highlight. -/
theorem repin_rest (h : Highlight) (palette : Palette) :
    h.repin palette (fun _ => .rest) [] = { h.restore palette with authorSelected := false } := by
  apply ext_parts
  · intro p
    cases p <;> rfl
  · rfl
  · rfl

theorem repin_wipe (h : Highlight) (palette : Palette) (cues : Cues) (parts : List Part) :
    h.wipe.repin palette cues parts = { h.repin palette cues parts with hint := none } := by
  apply ext_parts
  · intro p
    have hpart := part_repin h palette cues parts p
    rw [part_repin, part_wipe]
    cases p <;> exact hpart.symm
  · rfl
  · rfl

end Highlight

namespace Row

variable {row row' : Row}

theorem Repainted.wipe_eq (h : row.Repainted row') :
    row'.mapHighlight (·.wipe) = row.mapHighlight (·.wipe) := by
  rw [mapHighlight, h.2.wipe_eq, h.1]
  rfl

/-- The row of a view that is pinned anew. A row that is not bound follows no cue
and is not pinned. -/
def repin (row : Row) (palette : Palette) (cues : Cues) (parts : List Part) : Row :=
  ((row.mapHighlight fun h => { h.restore palette with authorSelected := false }).mapBound
    (·.follow palette cues)).mapBound (·.pin parts)

theorem repin_of_bound (h : row.bound = true) (palette : Palette) (cues : Cues)
    (parts : List Part) :
    row.repin palette cues parts = row.mapHighlight (·.repin palette cues parts) := by
  simp only [repin, mapBound, mapHighlight, h, if_true]
  rfl

theorem repin_of_not_bound (h : row.bound = false) (palette : Palette) (cues : Cues)
    (parts : List Part) :
    row.repin palette cues parts = row.mapHighlight (·.repin palette (fun _ => .rest) []) := by
  simp [repin, mapBound, mapHighlight, h, Highlight.repin_rest]

@[simp]
theorem bound_repin (row : Row) (palette : Palette) (cues : Cues) (parts : List Part) :
    (row.repin palette cues parts).bound = row.bound := by
  cases h : row.bound with
  | true => rw [repin_of_bound h, mapHighlight, h]
  | false => rw [repin_of_not_bound h, mapHighlight, h]

theorem authorSelected_repin (row : Row) (palette : Palette) (cues : Cues) (parts : List Part) :
    (row.repin palette cues parts).highlight.authorSelected = false := by
  cases h : row.bound with
  | true => rw [repin_of_bound h]; rfl
  | false => rw [repin_of_not_bound h]; rfl

theorem pinned_repin (row : Row) (palette : Palette) (cues : Cues) (parts : List Part)
    (p : Part) :
    ((row.repin palette cues parts).highlight.part p).pinned =
      if row.bound = true ∧ p ∈ parts then some ((row.highlight.part p).shown palette (cues p))
      else none := by
  cases h : row.bound with
  | true =>
    rw [repin_of_bound h, mapHighlight]
    simp [Highlight.pinned_repin]
  | false =>
    rw [repin_of_not_bound h, mapHighlight]
    simp [Highlight.pinned_repin]

/-- A row that is pinned anew in its number and its body. -/
theorem pinned_repin_postParts (h : row.bound = true) (palette : Palette)
    (cues : Cues) (p : Part) :
    ((row.repin palette cues View.postParts).highlight.part p).pinned =
      match p with
      | .number => some (row.highlight.number.shown palette (cues .number))
      | .body => some (row.highlight.body.shown palette (cues .body))
      | _ => none := by
  rw [pinned_repin]
  cases p with
  | header | target => exact if_neg (fun hmem => absurd hmem.2 (by decide))
  | number | body => exact if_pos ⟨h, by decide⟩

theorem repin_wipe (row : Row) (palette : Palette) (cues : Cues) (parts : List Part) :
    (row.mapHighlight (·.wipe)).repin palette cues parts =
      (row.repin palette cues parts).mapHighlight fun h => { h with hint := none } := by
  cases h : row.bound with
  | true =>
    have hwiped : (row.mapHighlight (·.wipe)).bound = true := h
    rw [repin_of_bound h, repin_of_bound hwiped]
    simp only [mapHighlight, Highlight.repin_wipe]
  | false =>
    have hwiped : (row.mapHighlight (·.wipe)).bound = false := h
    rw [repin_of_not_bound h, repin_of_not_bound hwiped]
    simp only [mapHighlight, Highlight.repin_wipe]

end Row

namespace View

variable {v w x : View} {n m k : PostNumber} {c : Color} {row : Row}

/-- Drops what the pointer and clicks have left, lets the bound rows follow cues,
and pins the number and the body of `m`. -/
def repin (v : View) (m : PostNumber) (cues : PostNumber → Cues) : View :=
  (v.restoreAll.paintAll cues).pin m postParts

theorem repin_eq_mapRows (v : View) (m : PostNumber) (cues : PostNumber → Cues) :
    v.repin m cues =
      v.mapRows fun k row => row.repin v.palette (cues k) (if k = m then postParts else []) := by
  have hnone : ∀ row : Row, row.mapBound (·.pin []) = row := by
    intro row
    have hpin : row.highlight.pin [] = row.highlight :=
      Highlight.ext_parts (fun p => by simp) rfl rfl
    rw [Row.mapBound, Row.mapHighlight, hpin, ite_self]
  simp only [repin, pin, modifyRow, PostMap.modify, paintAll, restoreAll, mapRows,
    PostMap.map_map]
  congr 2
  funext k row
  by_cases hk : k = m
  · rw [if_pos hk, if_pos hk]
    rfl
  · rw [if_neg hk, if_neg hk, Row.repin, hnone]
    rfl

theorem row?_repin (v : View) (m : PostNumber) (cues : PostNumber → Cues) (k : PostNumber) :
    (v.repin m cues).row? k = (v.row? k).map fun row =>
      row.repin v.palette (cues k) (if k = m then postParts else []) := by
  rw [repin_eq_mapRows, row?_mapRows]

theorem exists_row_of_repin {cues : PostNumber → Cues} (hrow : (v.repin m cues).row? k = some row) :
    ∃ old, v.row? k = some old ∧
      row = old.repin v.palette (cues k) (if k = m then postParts else []) := by
  rw [row?_repin, Option.map_eq_some_iff] at hrow
  obtain ⟨old, hold, rfl⟩ := hrow
  exact ⟨old, hold, rfl⟩

/-- In a view that is pinned anew nothing is pinned but two parts of one bound row. -/
theorem pinned_of_repin {cues : PostNumber → Cues} (hrow : (v.repin m cues).row? k = some row)
    (hother : ¬ (k = m ∧ row.bound = true)) (p : Part) : (row.highlight.part p).pinned = none := by
  obtain ⟨old, -, rfl⟩ := exists_row_of_repin hrow
  rw [Row.bound_repin] at hother
  rw [Row.pinned_repin, if_neg]
  rintro ⟨hbound, hmem⟩
  have hne : k ≠ m := fun heq => hother ⟨heq, hbound⟩
  rw [if_neg hne] at hmem
  exact List.not_mem_nil hmem

/-! ## Wiping -/

/-- The view without hover paints, pinned paints, selections and hints. -/
def wipe (v : View) : View := v.mapRows fun _ row => row.mapHighlight (·.wipe)

/-- The view without its hints. -/
def withoutHints (v : View) : View :=
  v.mapRows fun _ row => row.mapHighlight fun h => { h with hint := none }

/-- But for the hints, pinning anew makes the same of a view and of what is left of
the view when it is wiped. -/
theorem withoutHints_repin (v : View) (m : PostNumber) (cues : PostNumber → Cues) :
    (v.repin m cues).withoutHints = v.wipe.repin m cues := by
  simp only [repin_eq_mapRows, withoutHints, wipe, mapRows, PostMap.map_map, Row.repin_wipe]
  rfl

/-- The view `w` is `v` with some rows repainted. -/
def Repainted (v w : View) : Prop := v.Retouched w ∧ w.identity = v.identity

theorem Repainted.refl (v : View) : v.Repainted v := ⟨.refl v, rfl⟩

theorem Repainted.trans (hvw : v.Repainted w) (hwx : w.Repainted x) : v.Repainted x :=
  ⟨hvw.1.trans hwx.1, hwx.2.trans hvw.2⟩

theorem Repainted.wipe_eq (h : v.Repainted w) : w.wipe = v.wipe := by
  obtain ⟨⟨f, identity, hf, rfl⟩, hidentity⟩ := h
  obtain rfl : identity = v.identity := hidentity
  have hrow : ∀ n (row : Row), (f n row).mapHighlight (·.wipe) = row.mapHighlight (·.wipe) :=
    fun n row => (hf n row).wipe_eq
  simp only [wipe, mapRows, PostMap.map_map, hrow]

/-! ## Quotes and links -/

theorem SameColors.linkedTarget? (h : v.SameColors w) (n : PostNumber) :
    w.linkedTarget? n = v.linkedTarget? n := by
  cases hrow : w.row? n with
  | none =>
    rw [View.linkedTarget?, View.linkedTarget?, hrow, h.row?_eq_none hrow]
    rfl
  | some row =>
    obtain ⟨old, hold, hcolors⟩ := h.exists_row hrow
    have haccent : row.highlight.target.accent = old.highlight.target.accent :=
      (hcolors.base .target).1
    rw [View.linkedTarget?, View.linkedTarget?, hrow, hold, Option.bind_eq_bind,
      Option.bind_some, Option.bind_some, hcolors.bound, haccent, h.thread]

theorem SameColors.linkedReply? (h : v.SameColors w) (n reply : PostNumber) :
    w.linkedReply? n reply = v.linkedReply? n reply := by
  rw [View.linkedReply?, View.linkedReply?, h.thread, h.linkColor?]

theorem sameColors_restoreAll (v : View) : v.SameColors v.restoreAll :=
  (retouched_restoreAll v).sameColors

/-- A row from which all is dropped has nothing to lose when it rests. -/
theorem follow_rest_restored (palette : Palette) (row : Row) :
    (row.mapHighlight fun h => { h.restore palette with authorSelected := false }).mapBound
      (·.follow palette fun _ => .rest) =
    row.mapHighlight fun h => { h.restore palette with authorSelected := false } := by
  rw [Row.mapBound]
  split
  · rfl
  · rfl

theorem paintAll_rest_restoreAll (v : View) :
    v.restoreAll.paintAll (fun _ _ => .rest) = v.restoreAll := by
  simp only [paintAll, restoreAll, mapRows, PostMap.map_map]
  congr 2
  funext k row
  exact follow_rest_restored v.palette row

theorem paint_restoreAll (v : View) (n : PostNumber) (cues : Cues) :
    v.restoreAll.paint n cues =
      v.restoreAll.paintAll fun k => if k = n then cues else fun _ => .rest := by
  simp only [paint, modifyRow, PostMap.modify, paintAll, restoreAll, mapRows, PostMap.map_map]
  congr 2
  funext k row
  by_cases hk : k = n
  · rw [if_pos hk, if_pos hk]
  · rw [if_neg hk, if_neg hk]
    exact (follow_rest_restored v.palette row).symm

/-- What the rows follow for a quote of `n`. -/
def quotedCues (v : View) (n : PostNumber) : PostNumber → Cues :=
  fun k =>
    if k = n then
      quoteCues (match v.linkColor? n with
        | some c => .reference c
        | none => .color v.palette.quote)
    else fun _ => .rest

/-- What the rows follow for a click on a link to `m` in the color `c`. -/
def targetedCues (v : View) (m : PostNumber) (c : Color) : PostNumber → Cues :=
  fun k =>
    if k = m then referredCues c else if k ∈ v.thread.linksOf m then targetCues else plainCues

/-- What the rows follow for a click on the link from `n` to a reply. -/
def linkedCues (n reply : PostNumber) (c : Color) : PostNumber → Cues :=
  fun k => if k = reply then replyCues c else if k = n then numberCues else plainCues

theorem quote_eq (hn : v.isBound n = true) :
    v.quote n = (v.repin n (v.quotedCues n),
      if v.thread.locked then [] else [.compose n, .scrollTo .composer]) := by
  rw [quote, if_pos hn]
  dsimp only
  rw [(sameColors_restoreAll v).linkColor?, paint_restoreAll]
  rfl

theorem hoverTarget_restoreAll (hm : v.linkedTarget? n = some m) :
    v.restoreAll.hoverTarget n =
      match v.linkColor? m with
      | none => v.restoreAll
      | some c => v.restoreAll.paintAll (v.targetedCues m c) := by
  rw [hoverTarget, (sameColors_restoreAll v).linkedTarget?, hm]
  dsimp only
  rw [(sameColors_restoreAll v).linkColor?]
  rfl

theorem clickTarget_eq (hm : v.linkedTarget? n = some m) (hc : v.linkColor? m = some c) :
    v.clickTarget n = (v.repin m (v.targetedCues m c), [.scrollTo (.post m)]) := by
  rw [clickTarget, hm]
  dsimp only
  rw [hoverTarget_restoreAll hm, hc]
  rfl

theorem clickLink_eq {reply : PostNumber} (hc : v.linkedReply? n reply = some c) :
    v.clickLink n reply = (v.repin reply (linkedCues n reply c), [.scrollTo (.post reply)]) := by
  rw [clickLink, hc]
  dsimp only
  rw [hoverLink, (sameColors_restoreAll v).linkedReply?, hc]
  rfl

/-- The view `w` is `v` pinned anew, or it is `v`. -/
def KeptOrRepinned (v w : View) : Prop := w = v ∨ ∃ m cues, w = v.repin m cues

theorem keptOrRepinned_quote (v : View) (n : PostNumber) : v.KeptOrRepinned (v.quote n).1 := by
  cases hn : v.isBound n with
  | true =>
    rw [quote_eq hn]
    exact Or.inr ⟨_, _, rfl⟩
  | false =>
    rw [quote, if_neg (by simp [hn])]
    exact Or.inl rfl

theorem keptOrRepinned_clickTarget (v : View) (n : PostNumber) :
    v.KeptOrRepinned (v.clickTarget n).1 := by
  cases hm : v.linkedTarget? n with
  | none =>
    rw [clickTarget, hm]
    exact Or.inl rfl
  | some m =>
    cases hc : v.linkColor? m with
    | some c =>
      rw [clickTarget_eq hm hc]
      exact Or.inr ⟨_, _, rfl⟩
    | none =>
      refine Or.inr ⟨m, fun _ _ => .rest, ?_⟩
      rw [clickTarget, hm]
      dsimp only
      rw [hoverTarget_restoreAll hm, hc, repin, paintAll_rest_restoreAll]

theorem keptOrRepinned_clickLink (v : View) (n reply : PostNumber) :
    v.KeptOrRepinned (v.clickLink n reply).1 := by
  cases hc : v.linkedReply? n reply with
  | none =>
    rw [clickLink, hc]
    exact Or.inl rfl
  | some c =>
    rw [clickLink_eq hc]
    exact Or.inr ⟨_, _, rfl⟩

end View

end Discussion
