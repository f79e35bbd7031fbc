import Discussion.Proofs.View.Footprint
import Discussion.Proofs.View.Hovering

/-!
# What outlasts all but clicks

Only a click pins paint, drops pinned paint or selects an author. However a view
goes on without a click, with hovers, hints, folds, live posts and requests for
colors, the pinned paints and the selections of its rows stay. A click on a header
changes the rows of one author only.
-/

namespace Discussion

/-- The commands by which a click pins or drops paint. -/
def Command.isClick : Command → Bool
  | .clickHeader _ | .quote _ | .clickTarget _ | .clickLink _ _ => true
  | _ => false

namespace Layers

/-- A part that is pinned shows its pinned paint. -/
theorem visible_eq_of_isPinned {l l' : Layers} (hpinned : l'.pinned = l.pinned)
    (h : l.isPinned = true) : l'.visible = l.visible := by
  obtain ⟨paint, hpaint⟩ := Option.isSome_iff_exists.mp h
  rw [visible, visible, hpinned, hpaint]
  rfl

end Layers

namespace Highlight

/-- Nothing in the highlight is left by the pointer. -/
structure Idle (h : Highlight) : Prop where
  hover : ∀ p, (h.part p).hover = none
  pinned : ∀ p, (h.part p).pinned = none
  selected : h.authorSelected = false
  hint : h.hint = none

theorem idle_empty : ({} : Highlight).Idle :=
  ⟨fun p => by cases p <;> rfl, fun p => by cases p <;> rfl, rfl, rfl⟩

theorem Idle.colorize {h : Highlight} (hidle : h.Idle) (p : Part) (c : Color) :
    (h.colorize p c).Idle := by
  have hpart : ∀ q, ((h.colorize p c).part q).hover = (h.part q).hover ∧
      ((h.colorize p c).part q).pinned = (h.part q).pinned := by
    intro q
    rw [Highlight.colorize, part_mapParts]
    split <;> exact ⟨rfl, rfl⟩
  exact ⟨fun q => (hpart q).1.trans (hidle.hover q), fun q => (hpart q).2.trans (hidle.pinned q),
    hidle.selected, hidle.hint⟩

end Highlight

namespace Row

variable {row row' row'' : Row} {palette : Palette}

/-- From `row` to `row'` no paint is pinned or unpinned and no selection changes,
and the pointer leaves nothing on a row that is not bound. -/
structure Calm (row row' : Row) : Prop where
  pinned : ∀ p, (row'.highlight.part p).pinned = (row.highlight.part p).pinned
  selected : row'.highlight.authorSelected = row.highlight.authorSelected
  bound : row'.bound = row.bound
  idle : row.bound = false → row.highlight.Idle → row'.highlight.Idle

theorem Calm.refl (row : Row) : row.Calm row := ⟨fun _ => rfl, rfl, rfl, fun _ h => h⟩

theorem Calm.trans (h : row.Calm row') (h' : row'.Calm row'') : row.Calm row'' where
  pinned p := (h'.pinned p).trans (h.pinned p)
  selected := h'.selected.trans h.selected
  bound := h'.bound.trans h.bound
  idle hbound hidle := h'.idle (h.bound.trans hbound) (h.idle hbound hidle)

theorem calm_of_highlight_eq (hhighlight : row'.highlight = row.highlight)
    (hbound : row'.bound = row.bound) : row.Calm row' where
  pinned p := by rw [hhighlight]
  selected := by rw [hhighlight]
  bound := hbound
  idle _ hidle := hhighlight ▸ hidle

theorem Hovered.calm (h : row.Hovered palette row') : row.Calm row' := by
  rcases h with rfl | ⟨cues, hcues, rfl⟩
  · exact .refl row'
  · have hpinned : ∀ p, ((row.highlight.follow palette cues).part p).pinned =
        (row.highlight.part p).pinned := by
      intro p
      rw [Highlight.part_follow, Layers.pinned_follow]
    refine ⟨hpinned, rfl, rfl, ?_⟩
    -- the cue to rest leaves no hover paint
    intro hbound hidle
    have hrest : cues = fun _ => .rest := hcues.resolve_left (by simp [hbound])
    have hself : (row.mapHighlight (·.follow palette fun _ => .rest)).highlight = row.highlight :=
      Highlight.rest_eq_self (fun p _ => hidle.hover p) palette
    rw [hrest, hself]
    exact hidle

theorem calm_tint (row : Row) (c : Color) : row.Calm (row.tint c) := by
  refine ⟨?_, rfl, rfl, fun _ hidle => hidle.colorize .number c⟩
  intro p
  rw [tint, Highlight.colorize, Highlight.part_mapParts]
  split <;> rfl

theorem calm_hideHint (row : Row) :
    row.Calm (row.mapHighlight fun h => { h with hint := none }) where
  pinned p := congrArg Layers.pinned (Highlight.part_hint _ _ p)
  selected := rfl
  bound := rfl
  idle _ hidle :=
    ⟨fun p => (congrArg Layers.hover (Highlight.part_hint _ _ p)).trans (hidle.hover p),
      fun p => (congrArg Layers.pinned (Highlight.part_hint _ _ p)).trans (hidle.pinned p),
      hidle.selected, rfl⟩

theorem calm_showHint (row : Row) (hint : Hint) :
    row.Calm (row.mapBound fun h => { h with hint := some hint }) := by
  rw [mapBound]
  split
  · rename_i hbound
    exact ⟨fun p => congrArg Layers.pinned (Highlight.part_hint _ _ p), rfl, rfl,
      fun hfree => absurd hbound (by simp [hfree])⟩
  · exact .refl row

/-- No paint is pinned in the row and its author is not selected; and if the row is
not bound, the pointer has left nothing else. -/
structure Unpinned (row : Row) : Prop where
  pinned : ∀ p, (row.highlight.part p).pinned = none
  selected : row.highlight.authorSelected = false
  idle : row.bound = false → row.highlight.Idle

theorem unpinned_of_idle (h : row.highlight.Idle) : row.Unpinned :=
  ⟨h.pinned, h.selected, fun _ => h⟩

theorem Unpinned.calm (h : row.Unpinned) (hcalm : row.Calm row') : row'.Unpinned where
  pinned p := (hcalm.pinned p).trans (h.pinned p)
  selected := hcalm.selected.trans h.selected
  idle hbound := by
    rw [hcalm.bound] at hbound
    exact hcalm.idle hbound (h.idle hbound)

end Row

namespace View

variable {v w x : View} {n k : PostNumber} {p : Post} {c : Command} {row : Row}

/-! ## Commands that do not click -/

/-- From `v` to `w` no paint is pinned or unpinned and no selection changes, and
new rows are not pinned. -/
structure Calm (v w : View) : Prop where
  kept : ∀ n row, v.row? n = some row → ∃ row', w.row? n = some row' ∧ row.Calm row'
  new : ∀ n row, v.row? n = none → w.row? n = some row → row.Unpinned

namespace Calm

theorem of_rows {f : PostNumber → Row → Row} (hrows : ∀ n, w.row? n = (v.row? n).map (f n))
    (hf : ∀ n (row : Row), row.Calm (f n row)) : v.Calm w where
  kept n row hrow := ⟨f n row, by rw [hrows, hrow, Option.map_some], hf n row⟩
  new n row hnone hrow := by
    rw [hrows, hnone] at hrow
    cases hrow

theorem of_mapRows {f : PostNumber → Row → Row} (hf : ∀ n (row : Row), row.Calm (f n row)) :
    v.Calm (v.mapRows f) :=
  of_rows (row?_mapRows v f) hf

theorem of_modifyRow {f : Row → Row} (hf : ∀ row : Row, row.Calm (f row)) (n : PostNumber) :
    v.Calm (v.modifyRow n f) := by
  apply of_mapRows
  intro k row
  split
  · exact hf row
  · exact .refl row

/-- All that is changed is not in the rows. -/
theorem of_rows_eq (hrows : w.rows = v.rows) : v.Calm w := by
  apply of_rows (f := fun _ row => row)
  · intro n
    rw [row?, hrows, Option.map_id']
    rfl
  · exact fun _ row => .refl row

theorem refl (v : View) : v.Calm v := of_rows_eq rfl

/-- A row of `w` is calmly made from a row of `v`, or it is new. -/
theorem row_cases (h : v.Calm w) (hrow : w.row? n = some row) :
    (∃ old, v.row? n = some old ∧ old.Calm row) ∨ row.Unpinned := by
  cases hold : v.row? n with
  | none => exact Or.inr (h.new n row hold hrow)
  | some old =>
    obtain ⟨row', hrow', hcalm⟩ := h.kept n old hold
    obtain rfl : row' = row := Option.some.inj (hrow'.symm.trans hrow)
    exact Or.inl ⟨old, rfl, hcalm⟩

theorem trans (hvw : v.Calm w) (hwx : w.Calm x) : v.Calm x where
  kept n row hrow := by
    obtain ⟨row', hrow', hcalm⟩ := hvw.kept n row hrow
    obtain ⟨row'', hrow'', hcalm'⟩ := hwx.kept n row' hrow'
    exact ⟨row'', hrow'', hcalm.trans hcalm'⟩
  new n row hnone hrow := by
    rcases hwx.row_cases hrow with ⟨old, hold, hcalm⟩ | hunpinned
    · exact (hvw.new n old hnone hold).calm hcalm
    · exact hunpinned

end Calm

theorem Hovered.calm (h : v.Hovered w) : v.Calm w := by
  obtain ⟨f, hf, rfl⟩ := h
  exact .of_mapRows fun n row => (hf n row).calm

theorem calm_unfold (v : View) : v.Calm v.unfold :=
  .of_rows (row?_mapRows v _) fun _ _ => Row.calm_of_highlight_eq rfl rfl

theorem calm_foldAround (v : View) (n : PostNumber) : v.Calm (v.foldAround n).1 := by
  rw [foldAround]
  split
  · exact .of_rows (row?_mapRows v _) fun _ _ => Row.calm_of_highlight_eq rfl rfl
  · exact .refl v

theorem calm_toggleFold (v : View) (n : PostNumber) : v.Calm (v.toggleFold n).1 := by
  rcases toggleFold_cases v n with heq | ⟨-, -, heq⟩ | ⟨-, -, -, heq⟩
  · rw [heq]
    exact .refl v
  · rw [heq]
    exact calm_unfold v
  · rw [heq]
    exact calm_foldAround v n

theorem calm_foldOn (v : View) (n : PostNumber) : v.Calm (v.foldOn n).1 := by
  rw [foldOn]
  split
  · exact calm_foldAround v n
  · exact .refl v

theorem calm_requestColor (v : View) (n : PostNumber) : v.Calm (v.requestColor n).1 := by
  rcases requestColor_cases v n with heq | ⟨-, -, heq⟩
  · rw [heq]
    exact .refl v
  · rw [heq]
    have hrows : v.Calm (v.modifyRow n (·.tint v.wheel.next)) :=
      .of_modifyRow (fun row => Row.calm_tint row _) n
    exact ⟨hrows.kept, hrows.new⟩

theorem unpinned_arrivalRow (v : View) (p : Post) : (v.arrivalRow p).Unpinned := by
  apply Row.unpinned_of_idle
  rw [arrivalRow]
  dsimp only
  split
  · exact Highlight.idle_empty
  · split
    · exact Highlight.idle_empty
    · exact Highlight.idle_empty.colorize .target _

/-- A merge may color the parent, and its own row is not pinned. -/
theorem calm_merge (hv : v.Aligned) (hp : p.number ∉ v.thread.numbers) :
    v.Calm (v.merge p) := by
  constructor
  · intro n row hrow
    have hn : n ≠ p.number := by
      rintro rfl
      exact hp (hv.mem_of_row? hrow)
    rw [row?_merge_of_ne hv.indexed hp hn, hrow]
    refine ⟨_, rfl, ?_⟩
    dsimp only
    split
    · exact Row.calm_tint row _
    · exact .refl row
  · intro n row hnone hrow
    by_cases hn : n = p.number
    · rw [hn, row?_merge_self hv.indexed hp] at hrow
      obtain rfl := Option.some.inj hrow
      exact unpinned_arrivalRow v p
    · rw [row?_merge_of_ne hv.indexed hp hn, hnone] at hrow
      cases hrow

theorem calm_insert (hv : v.Aligned) (a : Arrival) (atBottom : Bool) :
    v.Calm (v.call (.insert a atBottom)) := by
  rcases call_insert_cases v a atBottom with heq | ⟨hnew, heq⟩
  · rw [heq]
    exact .refl v
  · rw [heq]
    exact calm_merge hv (hv.indexed.contains_eq_false_iff.mp hnew)

/-- The view after the command of a live post does not depend on where the page is
scrolled to. -/
theorem view_perform_insert (v : View) (a : Arrival) (footer : Option Footer) :
    (v.perform (.insert a footer)).view = v.call (.insert a (footer.any v.atBottom)) := by
  rw [perform, call]
  cases v.insert a (footer.any v.atBottom) <;> rfl

theorem calm_perform (hv : v.Aligned) (hc : c.isClick = false) : v.Calm (v.perform c).view := by
  cases hhover : c.isHover with
  | true => exact (hovered_perform hhover).1.calm
  | false =>
    cases c with
    | showHint n hint => exact .of_modifyRow (fun row => Row.calm_showHint row hint) n
    | hideHint n => exact .of_modifyRow Row.calm_hideHint n
    | toggleFold n => exact calm_toggleFold v n
    | insert a footer =>
      rw [view_perform_insert]
      exact calm_insert hv a _
    | setIdentity identity => exact .of_rows_eq rfl
    | clickHeader n | quote n | clickTarget n | clickLink n reply => cases hc
    | hoverHeader n | leaveHeader n | hoverNumber n | hoverTarget n | hoverLink n reply
    | leaveLink => cases hhover

theorem calm_dispatch (hv : v.Aligned) (hc : c.isClick = false) :
    v.Calm (v.dispatch c).view := by
  rcases dispatch_eq_perform_or_ignored v c with heq | heq
  · rw [heq]
    exact calm_perform hv hc
  · rw [heq]
    exact .refl v

theorem calm_run (hv : v.Aligned) {cs : List Command} (hcs : ∀ c ∈ cs, c.isClick = false) :
    v.Calm (v.run cs).1 := by
  induction cs generalizing v with
  | nil => exact .refl v
  | cons c rest ih =>
    rw [List.forall_mem_cons] at hcs
    rw [run_cons]
    exact (calm_dispatch hv hcs.1).trans (ih (hv.change (change_dispatch v c)) hcs.2)

/-! ## Clicks on a header -/

/-- What a click on a header changes are bound rows of the same author. -/
theorem clickHeader_cases (v : View) (n : PostNumber) :
    v.clickHeader n = v ∨
      ∃ e change, v.thread.get? n = some e ∧
        (change = deselectHighlight v.palette ∨
          ∃ pale, change = selectHighlight v.palette pale) ∧
        v.clickHeader n = v.mapRows fun k row =>
          if k ∈ v.thread.byAuthor e.post.author then row.mapBound change else row := by
  rw [clickHeader]
  split
  · rename_i e row he hrow
    split
    · refine Or.inr ⟨e, _, he, ?_, rfl⟩
      split
      · exact Or.inl rfl
      · exact Or.inr ⟨_, rfl⟩
    · exact Or.inl rfl
  · exact Or.inl rfl

theorem mem_byAuthor_iff (hv : v.Aligned) {author : AuthorKey} :
    k ∈ v.thread.byAuthor author ↔ ∃ e, v.thread.get? k = some e ∧ e.post.author = author := by
  simp only [Thread.byAuthor, List.mem_map, List.mem_filter, decide_eq_true_eq,
    hv.indexed.get?_eq_some_iff]
  constructor
  · rintro ⟨e, ⟨he, hauthor⟩, hk⟩
    exact ⟨e, ⟨he, hk⟩, hauthor⟩
  · rintro ⟨e, ⟨he, hk⟩, hauthor⟩
    exact ⟨e, ⟨he, hauthor⟩, hk⟩

/-- A row that a click on the header of `n` changes is bound and has the author
of `n`. -/
theorem clickHeader_row_ne (hv : v.Aligned) (hne : (v.clickHeader n).row? k ≠ v.row? k) :
    v.isBound k = true ∧ ∃ e other, v.thread.get? n = some e ∧ v.thread.get? k = some other ∧
      other.post.author = e.post.author := by
  rcases clickHeader_cases v n with heq | ⟨e, change, he, -, heq⟩
  · rw [heq] at hne
    exact absurd rfl hne
  · rw [heq, row?_mapRows] at hne
    cases hrow : v.row? k with
    | none =>
      rw [hrow] at hne
      exact absurd rfl hne
    | some row =>
      rw [hrow, Option.map_some] at hne
      by_cases hmine : k ∈ v.thread.byAuthor e.post.author
      · obtain ⟨other, hother, hauthor⟩ := (mem_byAuthor_iff hv).mp hmine
        refine ⟨?_, e, other, he, hother, hauthor⟩
        rw [isBound_of_row? hrow]
        by_contra hfree
        rw [if_pos hmine, Row.mapBound, if_neg hfree] at hne
        exact hne rfl
      · rw [if_neg hmine] at hne
        exact absurd rfl hne

/-- However the view goes on without a click, every row keeps its pinned paints,
what a pinned part shows, and the selection of its author. A click on a header
changes nothing but bound rows of the author of the clicked post. -/
theorem Reachable.pins_stay_without_click (h : Reachable v) {cs : List Command}
    (hcs : ∀ c ∈ cs, c.isClick = false) :
    (∀ n row, v.row? n = some row → ∃ row', (v.run cs).1.row? n = some row' ∧
      (∀ p, (row'.highlight.part p).pinned = (row.highlight.part p).pinned ∧
        ((row.highlight.part p).isPinned = true →
          (row'.highlight.part p).visible = (row.highlight.part p).visible)) ∧
      row'.highlight.authorSelected = row.highlight.authorSelected) ∧
    (∀ n k, (v.dispatch (.clickHeader n)).view.row? k ≠ v.row? k →
      v.isBound k = true ∧ ∃ e other, v.thread.get? n = some e ∧ v.thread.get? k = some other ∧
        other.post.author = e.post.author) := by
  constructor
  · intro n row hrow
    obtain ⟨row', hrow', hcalm⟩ := (calm_run h.aligned hcs).kept n row hrow
    refine ⟨row', hrow', fun p => ⟨hcalm.pinned p, ?_⟩, hcalm.selected⟩
    exact Layers.visible_eq_of_isPinned (hcalm.pinned p)
  · intro n k hne
    rcases dispatch_eq_perform_or_ignored v (.clickHeader n) with heq | heq
    · rw [heq] at hne
      exact clickHeader_row_ne h.aligned hne
    · rw [heq] at hne
      exact absurd rfl hne

section

open Sample

/-- The view of a post with a reply and a placeholder, after the reply was quoted
and its author selected. -/
def quotedReply : View :=
  ((((opened {} single).call (.insert ⟨two, post two (some one)⟩ true)).call
    (.insert ⟨three, { post three none with omission := true }⟩ true)).call
    (.dispatch (.quote two))).call (.dispatch (.clickHeader one))

theorem reachable_quotedReply : Reachable quotedReply := by
  have hopened : Reachable (opened {} single) :=
    .opened (ofSnapshot_eq_ok_iff.mpr ⟨by decide, rfl⟩)
  exact (((hopened.call _).call _).call _).call _

/-- The pointer hovers and leaves, the view is folded, and a post is dropped. -/
def withoutClick : List Command :=
  [.hoverNumber one, .leaveLink, .showHint two .fold, .toggleFold one,
    .insert ⟨three, post three none⟩ none, .setIdentity none]

/-- The paint of the quote and the selection outlast a run without a click, and a
click on the header of the author passes over the placeholder. -/
theorem pins_stay_without_click_quotedReply :
    Reachable quotedReply ∧ (∀ c ∈ withoutClick, c.isClick = false) ∧
    (∃ row, (quotedReply.run withoutClick).1.row? two = some row ∧
      row.highlight.body.pinned = some (.filled quotedReply.palette.quote) ∧
      row.highlight.body.visible = .filled quotedReply.palette.quote ∧
      row.highlight.authorSelected = true) ∧
    (quotedReply.dispatch (.clickHeader two)).view.row? three = quotedReply.row? three := by
  have hclicks : ∀ c ∈ withoutClick, c.isClick = false := by decide
  obtain ⟨hrows, hheader⟩ := reachable_quotedReply.pins_stay_without_click hclicks
  obtain ⟨row, hrow⟩ := reachable_quotedReply.aligned.exists_row (n := two) (by decide)
  have hquoted : row.highlight.body.pinned = some (.filled quotedReply.palette.quote) ∧
      row.highlight.authorSelected = true := by
    have hany : (quotedReply.row? two).any (fun row =>
        row.highlight.body.pinned = some (.filled quotedReply.palette.quote) ∧
          row.highlight.authorSelected = true) = true := by decide
    rw [hrow, Option.any_some, decide_eq_true_iff] at hany
    exact hany
  obtain ⟨row', hrow', hparts, hselected⟩ := hrows two row hrow
  have hpinned : row'.highlight.body.pinned = some (.filled quotedReply.palette.quote) :=
    (hparts .body).1.trans hquoted.1
  refine ⟨reachable_quotedReply, hclicks, ⟨row', hrow', hpinned, ?_, ?_⟩, ?_⟩
  · rw [Layers.visible, hpinned]
    rfl
  · exact hselected.trans hquoted.2
  · by_contra hne
    exact absurd (hheader two three hne).1 (by decide)

end

end View

end Discussion
