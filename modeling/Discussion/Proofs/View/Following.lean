import Discussion.View.Command

/-!
# Following cues

While the pointer moves over a view, bound rows follow cues. A part that follows
a cue shows what that cue asks for, whatever it followed before, and a part with
a pinned paint does not follow at all. Every command of a pointer that does not
click makes rows follow cues, and does nothing else.
-/

namespace Discussion

namespace PostMap

variable {α : Type}

@[simp]
theorem map_map (m : PostMap α) (f g : PostNumber → α → α) :
    (m.map f).map g = m.map fun n a => g n (f n a) := by
  simp [map, Function.comp_def]

@[simp]
theorem map_id (m : PostMap α) : m.map (fun _ a => a) = m := by
  simp [map]

end PostMap

namespace Layers

@[simp]
theorem pinned_follow (l : Layers) (palette : Palette) (cue : Cue) :
    (l.follow palette cue).pinned = l.pinned := by
  rw [follow]
  split <;> rfl

@[simp]
theorem base_follow (l : Layers) (palette : Palette) (cue : Cue) :
    (l.follow palette cue).base = l.base := by
  rw [follow]
  split <;> rfl

@[simp]
theorem accent_follow (l : Layers) (palette : Palette) (cue : Cue) :
    (l.follow palette cue).accent = l.accent := by
  rw [follow]
  split <;> rfl

theorem follow_of_not_isPinned {l : Layers} (h : l.isPinned = false) (palette : Palette)
    (cue : Cue) : l.follow palette cue = { l with hover := l.hoverPaint palette cue } := by
  rw [follow, if_neg (by simp [h])]

theorem visible_of_not_isPinned {l : Layers} (h : l.isPinned = false) :
    l.visible = l.hover.getD l.base := by
  have hfree : l.pinned = none := Option.isNone_iff_eq_none.mp (Option.isSome_eq_false_iff.mp h)
  rw [visible, hfree]
  rfl

/-- The paint that a part shows for a cue once it is wiped. -/
def shown (l : Layers) (palette : Palette) (cue : Cue) : Paint :=
  (l.hoverPaint palette cue).getD l.base

theorem visible_follow {l : Layers} (h : l.isPinned = false) (palette : Palette) (cue : Cue) :
    (l.follow palette cue).visible = l.shown palette cue := by
  rw [follow_of_not_isPinned h, visible_of_not_isPinned]
  · rfl
  · exact h

/-- Only the last cue that a part follows counts. -/
theorem follow_follow (l : Layers) (palette : Palette) (first last : Cue) :
    (l.follow palette first).follow palette last = l.follow palette last := by
  cases h : l.isPinned with
  | true => rw [follow_of_isPinned h palette first]
  | false =>
    have hfirst : (l.follow palette first).isPinned = false := by
      rw [isPinned, pinned_follow]
      exact h
    rw [follow_of_not_isPinned hfirst, follow_of_not_isPinned h, follow_of_not_isPinned h]
    cases last <;> rfl

/-- A part that rests shows its pinned paint, or else its base. -/
theorem visible_follow_rest (l : Layers) (palette : Palette) :
    (l.follow palette .rest).visible = l.pinned.getD l.base := by
  cases h : l.pinned with
  | some paint =>
    rw [follow_of_isPinned (by simp [isPinned, h]), visible, h]
    rfl
  | none =>
    rw [follow_of_not_isPinned (by simp [isPinned, h]), visible, h]
    rfl

theorem follow_rest_eq_self {l : Layers} (h : l.isPinned = false → l.hover = none)
    (palette : Palette) : l.follow palette .rest = l := by
  cases hpin : l.isPinned with
  | true => exact follow_of_isPinned hpin palette .rest
  | false =>
    rw [follow_of_not_isPinned hpin, hoverPaint, ← h hpin]

end Layers

namespace Highlight

@[simp]
theorem part_follow (h : Highlight) (palette : Palette) (cues : Cues) (p : Part) :
    (h.follow palette cues).part p = (h.part p).follow palette (cues p) :=
  part_mapParts _ _ p

@[simp]
theorem part_pin (h : Highlight) (parts : List Part) (p : Part) :
    (h.pin parts).part p = if p ∈ parts then (h.part p).pin else h.part p :=
  part_mapParts _ _ p

@[simp]
theorem part_unpin (h : Highlight) (parts : List Part) (p : Part) :
    (h.unpin parts).part p = if p ∈ parts then (h.part p).unpin else h.part p :=
  part_mapParts _ _ p

@[simp]
theorem part_authorSelected (h : Highlight) (selected : Bool) (p : Part) :
    { h with authorSelected := selected }.part p = h.part p := by
  cases p <;> rfl

@[simp]
theorem part_hint (h : Highlight) (hint : Option Hint) (p : Part) :
    { h with hint }.part p = h.part p := by
  cases p <;> rfl

/-- Only the last cues that a highlight follows count. -/
theorem follow_follow (h : Highlight) (palette : Palette) (first last : Cues) :
    (h.follow palette first).follow palette last = h.follow palette last := by
  apply ext_parts
  · intro p
    rw [part_follow, part_follow, part_follow, Layers.follow_follow]
  · rfl
  · rfl

theorem rest_eq_self {h : Highlight}
    (hrest : ∀ p, (h.part p).isPinned = false → (h.part p).hover = none) (palette : Palette) :
    h.rest palette = h := by
  apply ext_parts
  · intro p
    rw [rest, part_follow, Layers.follow_rest_eq_self (hrest p)]
  · rfl
  · rfl

end Highlight

namespace Row

/-- The row `row'` is `row`, or it is `row` after its parts have followed some
cues. A row that is not bound follows no cue but the one to rest. -/
def Hovered (palette : Palette) (row row' : Row) : Prop :=
  row' = row ∨ ∃ cues : Cues, (row.bound = true ∨ cues = fun _ => .rest) ∧
    row' = row.mapHighlight (·.follow palette cues)

variable {palette : Palette} {row row' row'' : Row}

theorem Hovered.refl (palette : Palette) (row : Row) : row.Hovered palette row := Or.inl rfl

theorem Hovered.trans (h : row.Hovered palette row') (h' : row'.Hovered palette row'') :
    row.Hovered palette row'' := by
  rcases h' with rfl | ⟨last, hlast, rfl⟩
  · exact h
  · rcases h with rfl | ⟨first, -, rfl⟩
    · exact Or.inr ⟨last, hlast, rfl⟩
    · refine Or.inr ⟨last, hlast, ?_⟩
      simp only [mapHighlight, Highlight.follow_follow]

theorem hovered_mapBound (palette : Palette) (cues : Cues) (row : Row) :
    row.Hovered palette (row.mapBound (·.follow palette cues)) := by
  rw [mapBound]
  split
  · rename_i hbound
    exact Or.inr ⟨cues, Or.inl hbound, rfl⟩
  · exact .refl palette row

/-- A row that is hovered and rests is the row that rests. -/
theorem Hovered.rest_eq (h : row.Hovered palette row') :
    row'.mapHighlight (·.rest palette) = row.mapHighlight (·.rest palette) := by
  rcases h with rfl | ⟨cues, -, rfl⟩
  · rfl
  · simp only [mapHighlight, Highlight.rest, Highlight.follow_follow]

end Row

/-- The commands of a pointer that moves over the view and does not click. -/
def Command.isHover : Command → Bool
  | .hoverHeader _ | .leaveHeader _ | .hoverNumber _ | .hoverTarget _ | .hoverLink _ _
  | .leaveLink => true
  | _ => false

namespace View

variable {v w x : View} {c : Command}

/-! ## Hovered views -/

/-- The rows of `w` are rows of `v` that have followed cues; all else is the same. -/
def Hovered (v w : View) : Prop :=
  ∃ f : PostNumber → Row → Row, (∀ n (row : Row), row.Hovered v.palette (f n row)) ∧
    w = v.mapRows f

theorem Hovered.refl (v : View) : v.Hovered v := by
  refine ⟨fun _ row => row, fun _ row => .refl v.palette row, ?_⟩
  simp [mapRows]

theorem Hovered.trans (hvw : v.Hovered w) (hwx : w.Hovered x) : v.Hovered x := by
  obtain ⟨f, hf, rfl⟩ := hvw
  obtain ⟨g, hg, rfl⟩ := hwx
  refine ⟨fun n row => g n (f n row), fun n row => (hf n row).trans (hg n _), ?_⟩
  simp [mapRows]

theorem hovered_paintAll (v : View) (cues : PostNumber → Cues) : v.Hovered (v.paintAll cues) :=
  ⟨_, fun n row => Row.hovered_mapBound v.palette (cues n) row, rfl⟩

theorem hovered_paint (v : View) (n : PostNumber) (cues : Cues) : v.Hovered (v.paint n cues) := by
  refine ⟨_, fun k row => ?_, rfl⟩
  dsimp only
  split
  · exact Row.hovered_mapBound v.palette cues row
  · exact .refl v.palette row

theorem hovered_leaveLink (v : View) : v.Hovered v.leaveLink :=
  ⟨_, fun _ _ => Or.inr ⟨fun _ => .rest, Or.inr rfl, rfl⟩, rfl⟩

theorem hovered_hoverHeader (v : View) (n : PostNumber) : v.Hovered (v.hoverHeader n) := by
  rw [hoverHeader]
  split
  · exact .refl v
  · split
    · exact hovered_paint v n _
    · exact .refl v

theorem hovered_hoverNumber (v : View) (n : PostNumber) : v.Hovered (v.hoverNumber n) := by
  rw [hoverNumber]
  split
  · exact .refl v
  · split
    · exact hovered_paintAll v _
    · exact .refl v

theorem hovered_hoverTarget (v : View) (n : PostNumber) : v.Hovered (v.hoverTarget n) := by
  rw [hoverTarget]
  split
  · exact .refl v
  · split
    · exact .refl v
    · exact hovered_paintAll v _

theorem hovered_hoverLink (v : View) (n reply : PostNumber) : v.Hovered (v.hoverLink n reply) := by
  rw [hoverLink]
  split
  · exact .refl v
  · exact hovered_paintAll v _

/-- A pointer that does not click hovers the view and asks nothing of the host. -/
theorem hovered_perform (hc : c.isHover = true) :
    v.Hovered (v.perform c).view ∧ (v.perform c).effects = [] := by
  cases c with
  | hoverHeader n => exact ⟨hovered_hoverHeader v n, rfl⟩
  | leaveHeader n => exact ⟨hovered_paint v n _, rfl⟩
  | hoverNumber n => exact ⟨hovered_hoverNumber v n, rfl⟩
  | hoverTarget n => exact ⟨hovered_hoverTarget v n, rfl⟩
  | hoverLink n reply => exact ⟨hovered_hoverLink v n reply, rfl⟩
  | leaveLink => exact ⟨hovered_leaveLink v, rfl⟩
  | _ => cases hc

/-- A command does its operation, or it is ignored. -/
theorem dispatch_eq_perform_or_ignored (v : View) (c : Command) :
    v.dispatch c = v.perform c ∨ v.dispatch c = { view := v } := by
  rw [dispatch]
  split
  · exact Or.inl rfl
  · split
    · exact Or.inl rfl
    · exact Or.inr rfl

theorem dispatch_eq_perform (hc : ∀ n, c.post? = some n → v.thread.contains n = true) :
    v.dispatch c = v.perform c := by
  rw [dispatch]
  split
  · rfl
  · rename_i n hn
    rw [if_pos (hc n hn)]

theorem dispatch_of_not_contains {n : PostNumber} (hc : c.post? = some n)
    (hn : v.thread.contains n = false) : v.dispatch c = { view := v } := by
  rw [dispatch, hc]
  exact if_neg (by simp [hn])

theorem hovered_dispatch (hc : c.isHover = true) :
    v.Hovered (v.dispatch c).view ∧ (v.dispatch c).effects = [] := by
  rcases dispatch_eq_perform_or_ignored v c with heq | heq
  · rw [heq]
    exact hovered_perform hc
  · rw [heq]
    exact ⟨.refl v, rfl⟩

end View

end Discussion
