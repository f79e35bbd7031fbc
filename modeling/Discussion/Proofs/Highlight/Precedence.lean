import Discussion.Proofs.View.Following
import Mathlib.Data.List.Basic
import Mathlib.Data.List.Induction

/-!
# What a part shows, by its history

A part has three layers of paint, and what it shows can be told without them, from the
requests that it has met. A cue is heard unless the part was pinned before it. A part
that is not pinned shows the last cue that it heard, and a pinned part shows what was
the last cue heard when it was pinned.
-/

namespace Discussion

namespace Layers

/-- What an operation on a highlight asks of one part. -/
inductive Request
  | follow (palette : Palette) (cue : Cue)
  | pin
  | unpin
deriving DecidableEq

namespace Request

/-- Whether a request pins the part or unpins it, if it does either. -/
def pins? : Request → Option Bool
  | .follow _ _ => none
  | .pin => some true
  | .unpin => some false

/-- The cue of a request, with the color rules it comes with. -/
def cue? : Request → Option (Palette × Cue)
  | .follow palette cue => some (palette, cue)
  | .pin | .unpin => none

end Request

/-- The requests that a part has met, from the first to the last. -/
abbrev Past := List Request

namespace Past

/-- The last request to pin or to unpin was one to pin. -/
def pinned (past : Past) : Bool := (past.filterMap Request.pins?).getLastD false

/-- The cues that were asked for while the part was not pinned. -/
def heard (past : Past) : List (Palette × Cue) :=
  (List.range past.length).filterMap fun i =>
    if pinned (past.take i) then none else past[i]?.bind Request.cue?

/-- The request at `i` is the last that pinned a part that was not pinned. -/
structure PinnedAt (past : Past) (i : Nat) : Prop where
  pin : past[i]? = some .pin
  before : pinned (past.take i) = false
  since : ∀ j, i < j → j ≤ past.length → pinned (past.take j) = true

variable {past later : Past} {r : Request} {i : Nat}

theorem pinned_concat (past : Past) (r : Request) :
    pinned (past ++ [r]) = r.pins?.getD (pinned past) := by
  rw [pinned, List.filterMap_append]
  cases r with
  | follow palette cue => simp [Request.pins?, pinned]
  | pin | unpin => simp [Request.pins?]

theorem pinned_pin (past : Past) : pinned (past ++ [.pin]) = true := by
  rw [pinned_concat]
  rfl

theorem heard_concat (past : Past) (r : Request) :
    heard (past ++ [r]) = heard past ++ if pinned past then [] else r.cue?.toList := by
  have hbefore : ∀ i ∈ List.range past.length,
      (if pinned ((past ++ [r]).take i) then none else (past ++ [r])[i]?.bind Request.cue?) =
        if pinned (past.take i) then none else past[i]?.bind Request.cue? := by
    intro i hi
    rw [List.mem_range] at hi
    rw [List.take_append_of_le_length (Nat.le_of_lt hi), List.getElem?_append_left hi]
  rw [heard, List.length_append, List.length_singleton, List.range_succ, List.filterMap_append,
    List.filterMap_congr hbefore]
  congr 1
  cases hpinned : pinned past <;> cases r <;> simp [hpinned, Request.cue?]

/-- While a part is pinned and not unpinned, it stays pinned and hears nothing. -/
theorem heard_append_of_pinned (h : pinned past = true) (hlater : .unpin ∉ later) :
    pinned (past ++ later) = true ∧ heard (past ++ later) = heard past := by
  induction later using List.reverseRecOn with
  | nil => simpa using h
  | append_singleton later r ih =>
    rw [List.mem_append, not_or, List.mem_singleton] at hlater
    obtain ⟨hpinned, hheard⟩ := ih hlater.1
    rw [← List.append_assoc, pinned_concat, heard_concat, hpinned, hheard]
    cases r with
    | follow palette cue => simp [Request.pins?]
    | pin => simp [Request.pins?]
    | unpin => exact absurd rfl hlater.2

/-! ## The moment of pinning -/

theorem PinnedAt.lt_length (h : PinnedAt past i) : i < past.length :=
  (List.getElem?_eq_some_iff.mp h.pin).1

theorem PinnedAt.concat (h : PinnedAt past i) (hr : pinned (past ++ [r]) = true) :
    PinnedAt (past ++ [r]) i where
  pin := by
    rw [List.getElem?_append_left h.lt_length]
    exact h.pin
  before := by
    rw [List.take_append_of_le_length (Nat.le_of_lt h.lt_length)]
    exact h.before
  since j hj hlength := by
    rw [List.length_append, List.length_singleton] at hlength
    rcases Nat.lt_or_ge past.length j with hlast | hlast
    · have hall : (past ++ [r]).length ≤ j := by
        rwa [List.length_append, List.length_singleton]
      rw [List.take_of_length_le hall]
      exact hr
    · rw [List.take_append_of_le_length hlast]
      exact h.since j hj hlast

theorem PinnedAt.of_concat (h : PinnedAt (past ++ [r]) i) (hi : i < past.length) :
    PinnedAt past i where
  pin := by
    rw [← List.getElem?_append_left hi]
    exact h.pin
  before := by
    rw [← List.take_append_of_le_length (Nat.le_of_lt hi)]
    exact h.before
  since j hj hlength := by
    rw [← List.take_append_of_le_length hlength]
    apply h.since j hj
    rw [List.length_append]
    omega

/-- A pinned part was pinned at some moment and has been since. -/
theorem exists_pinnedAt (h : pinned past = true) : ∃ i, PinnedAt past i := by
  induction past using List.reverseRecOn with
  | nil => cases h
  | append_singleton past r ih =>
    cases hpast : pinned past with
    | true =>
      obtain ⟨i, hi⟩ := ih hpast
      exact ⟨i, hi.concat h⟩
    | false =>
      -- of the three requests, only one to pin can have pinned the part
      have hr : r = .pin := by
        rw [pinned_concat, hpast] at h
        cases r with
        | pin => rfl
        | follow palette cue | unpin => cases h
      subst hr
      refine ⟨past.length, by simp, by simpa using hpast, ?_⟩
      intro j hj hlength
      rw [List.take_of_length_le (by simp at hlength ⊢; omega)]
      exact h

/-- Nothing has been heard since the moment of pinning. -/
theorem heard_take_of_pinnedAt (h : PinnedAt past i) : heard (past.take i) = heard past := by
  induction past using List.reverseRecOn with
  | nil => cases h.lt_length
  | append_singleton past r ih =>
    have hlt := h.lt_length
    rw [List.length_append, List.length_singleton] at hlt
    rcases Nat.lt_succ_iff_lt_or_eq.mp hlt with hi | rfl
    · have hbefore := h.of_concat hi
      have hpinned : pinned past = true := by
        have := hbefore.since past.length hi (Nat.le_refl _)
        rwa [List.take_length] at this
      rw [List.take_append_of_le_length (Nat.le_of_lt hi), ih hbefore, heard_concat, if_pos hpinned,
        List.append_nil]
    · have hr : r = .pin := by simpa using h.pin
      rw [List.take_append_of_le_length (Nat.le_refl _), List.take_length, heard_concat, hr]
      simp [Request.cue?]

end Past

/-! ## Layers after requests -/

variable {l l₀ : Layers} {past later : Past} {r : Request}

/-- The layers of a part after a request. -/
def heed (l : Layers) : Request → Layers
  | .follow palette cue => l.follow palette cue
  | .pin => l.pin
  | .unpin => l.unpin

/-- The paint of the last cue that a part has heard, or else its base. -/
def told (l : Layers) (past : Past) : Paint :=
  match past.heard.getLast? with
  | none => l.base
  | some (palette, cue) => l.shown palette cue

theorem told_concat (l : Layers) (past : Past) (r : Request) :
    l.told (past ++ [r]) =
      match r with
      | .follow palette cue =>
        if past.pinned then l.told past else l.shown palette cue
      | .pin | .unpin => l.told past := by
  rw [told, Past.heard_concat]
  cases r with
  | follow palette cue =>
    cases h : past.pinned with
    | true => simp [told]
    | false => simp [Request.cue?]
  | pin | unpin => simp [told, Request.cue?]

/-- The layers `l` of a part are told from those that it had, `l₀`, and its past. -/
structure Recounts (l₀ : Layers) (past : Past) (l : Layers) : Prop where
  base : l.base = l₀.base
  accent : l.accent = l₀.accent
  isPinned : l.isPinned = past.pinned
  hover : l.hover.getD l.base = l₀.told past
  visible : l.visible = l₀.told past

theorem recounts_nil (hhover : l₀.hover = none) (hpinned : l₀.pinned = none) :
    l₀.Recounts [] l₀ where
  base := rfl
  accent := rfl
  isPinned := by rw [Layers.isPinned, hpinned]; rfl
  hover := by rw [hhover]; rfl
  visible := by rw [Layers.visible, hhover, hpinned]; rfl

namespace Recounts

theorem follow (h : l₀.Recounts past l) (palette : Palette) (cue : Cue) :
    l₀.Recounts (past ++ [.follow palette cue]) (l.follow palette cue) := by
  have hstill : past.pinned = (past ++ [Request.follow palette cue]).pinned := by
    rw [Past.pinned_concat]
    rfl
  cases hpinned : past.pinned with
  | true =>
    have htold : l₀.told past = l₀.told (past ++ [.follow palette cue]) := by
      rw [told_concat]
      simp [hpinned]
    rw [follow_of_isPinned (h.isPinned.trans hpinned)]
    exact ⟨h.base, h.accent, h.isPinned.trans hstill, h.hover.trans htold,
      h.visible.trans htold⟩
  | false =>
    have hfree := h.isPinned.trans hpinned
    have hshown : l.shown palette cue = l₀.told (past ++ [.follow palette cue]) := by
      rw [told_concat]
      cases cue <;> simp [hpinned, shown, hoverPaint, h.accent, h.base]
    have hvisible := (visible_follow hfree palette cue).trans hshown
    rw [follow_of_not_isPinned hfree] at hvisible ⊢
    exact ⟨h.base, h.accent, h.isPinned.trans hstill, hshown, hvisible⟩

theorem pin (h : l₀.Recounts past l) : l₀.Recounts (past ++ [.pin]) l.pin := by
  have htold : l₀.told past = l₀.told (past ++ [.pin]) := by rw [told_concat]
  have hpinned := Past.pinned_pin past
  have hvisible := (visible_pin l).trans (h.visible.trans htold)
  cases hl : l.isPinned with
  | true =>
    rw [pin_of_isPinned hl] at hvisible ⊢
    exact ⟨h.base, h.accent, hl.trans hpinned.symm, h.hover.trans htold, hvisible⟩
  | false =>
    have hpin : l.pin = { l with pinned := some l.visible } := by
      rw [Layers.pin, if_neg (by simp [hl])]
    rw [hpin] at hvisible ⊢
    exact ⟨h.base, h.accent, hpinned.symm, h.hover.trans htold, hvisible⟩

/-- What is under the pinned paint is what was visible when it was pinned. -/
theorem unpin (h : l₀.Recounts past l) : l₀.Recounts (past ++ [.unpin]) l.unpin := by
  have htold : l₀.told past = l₀.told (past ++ [.unpin]) := by rw [told_concat]
  have hpinned : (past ++ [Request.unpin]).pinned = false := by rw [Past.pinned_concat]; rfl
  exact ⟨h.base, h.accent, hpinned.symm, h.hover.trans htold, h.hover.trans htold⟩

theorem heed (h : l₀.Recounts past l) (r : Request) :
    l₀.Recounts (past ++ [r]) (l.heed r) := by
  cases r with
  | follow palette cue => exact h.follow palette cue
  | pin => exact h.pin
  | unpin => exact h.unpin

theorem foldl_heed (h : l₀.Recounts past l) (later : Past) :
    l₀.Recounts (past ++ later) (later.foldl Layers.heed l) := by
  induction later generalizing past l with
  | nil => rwa [List.append_nil]
  | cons r rest ih =>
    rw [List.append_cons]
    exact ih (h.heed r)

/-- Unpinning a part that has been pinned all along shows what pinning found. -/
theorem visible_unpin (h : l₀.Recounts past l) (hlater : .unpin ∉ later) :
    (later.foldl Layers.heed l.pin).unpin.visible = l.visible := by
  have hheard := (Past.heard_append_of_pinned (Past.pinned_pin past) hlater).2
  calc (later.foldl Layers.heed l.pin).unpin.visible
      = l₀.told (past ++ [.pin] ++ later ++ [.unpin]) := (h.pin.foldl_heed later).unpin.visible
    _ = l₀.told (past ++ [.pin] ++ later) := by rw [told_concat]
    _ = l₀.told (past ++ [.pin]) := by rw [told, told, hheard]
    _ = l₀.told past := by rw [told_concat]
    _ = l.visible := h.visible.symm

end Recounts

/-- What the layers `l` of a part show is what its past tells about the layers `l₀` that
it had before. -/
structure ShownBy (l₀ : Layers) (past : Past) (l : Layers) : Prop where
  isPinned : l.isPinned = past.pinned
  free : past.pinned = false → l.visible = l₀.told past
  pinned : past.pinned = true →
    (∃ i, past.PinnedAt i) ∧ ∀ i, past.PinnedAt i → l.visible = l₀.told (past.take i)

theorem Recounts.shownBy (h : l₀.Recounts past l) : l₀.ShownBy past l where
  isPinned := h.isPinned
  free _ := h.visible
  pinned hpinned := by
    refine ⟨Past.exists_pinnedAt hpinned, ?_⟩
    intro i hi
    rw [h.visible, told, told, Past.heard_take_of_pinnedAt hi]

end Layers

/-! ## Highlights after operations -/

namespace Highlight

/-- An operation on the highlight of a row. -/
inductive Operation
  | follow (palette : Palette) (cues : Cues)
  | rest (palette : Palette)
  | pin (parts : List Part)
  | unpin (parts : List Part)
  | restore (palette : Palette)

/-- What an operation asks of a part, in order. -/
def Operation.requests (p : Part) : Operation → Layers.Past
  | .follow palette cues => [.follow palette (cues p)]
  | .rest palette => [.follow palette .rest]
  | .pin parts => if p ∈ parts then [.pin] else []
  | .unpin parts => if p ∈ parts then [.unpin] else []
  | .restore palette => [.unpin, .follow palette .rest]

/-- What a run of operations asks of a part. -/
def pastOf (p : Part) (ops : List Operation) : Layers.Past := ops.flatMap (Operation.requests p)

variable {h : Highlight}

/-- The highlight after an operation. -/
def operate (h : Highlight) : Operation → Highlight
  | .follow palette cues => h.follow palette cues
  | .rest palette => h.rest palette
  | .pin parts => h.pin parts
  | .unpin parts => h.unpin parts
  | .restore palette => h.restore palette

/-- The highlight after a run of operations. -/
def operateAll (h : Highlight) (ops : List Operation) : Highlight := ops.foldl operate h

theorem part_operate (h : Highlight) (op : Operation) (p : Part) :
    (h.operate op).part p = (op.requests p).foldl Layers.heed (h.part p) := by
  cases op with
  | follow palette cues => exact part_follow h palette cues p
  | rest palette => exact part_follow h palette _ p
  | pin parts =>
    rw [operate, part_pin, Operation.requests]
    split <;> rfl
  | unpin parts =>
    rw [operate, part_unpin, Operation.requests]
    split <;> rfl
  | restore palette => cases p <;> rfl

theorem part_operateAll (h : Highlight) (ops : List Operation) (p : Part) :
    (h.operateAll ops).part p = (pastOf p ops).foldl Layers.heed (h.part p) := by
  induction ops generalizing h with
  | nil => rfl
  | cons op rest ih =>
    rw [operateAll, List.foldl_cons, ← operateAll, ih, part_operate, ← List.foldl_append]
    rfl

/-- After any operations on a highlight without hover and pinned paints, each part shows
what its past tells: the last cue that it heard, or else its base, while it is not
pinned, and what that was at the moment of pinning while it is. To pin a part never
changes what it shows, to pin it again changes nothing, and to unpin it shows again what
it showed when it was pinned. -/
theorem operateAll_shows (hidle : ∀ q, (h.part q).hover = none ∧ (h.part q).pinned = none)
    (ops : List Operation) (p : Part) :
    (h.part p).ShownBy (pastOf p ops) ((h.operateAll ops).part p) ∧
    (∀ parts, (((h.operateAll ops).pin parts).part p).visible =
      ((h.operateAll ops).part p).visible) ∧
    (∀ parts, ((h.operateAll ops).part p).isPinned = true →
      ((h.operateAll ops).pin parts).part p = (h.operateAll ops).part p) ∧
    (∀ on later off, p ∈ on → p ∈ off → .unpin ∉ pastOf p later →
      (((((h.operateAll ops).pin on).operateAll later).unpin off).part p).visible =
        ((h.operateAll ops).part p).visible) := by
  have hrecounts : (h.part p).Recounts (pastOf p ops) ((h.operateAll ops).part p) := by
    rw [part_operateAll]
    exact (Layers.recounts_nil (hidle p).1 (hidle p).2).foldl_heed (pastOf p ops)
  refine ⟨hrecounts.shownBy, ?_, ?_, ?_⟩
  · intro parts
    rw [part_pin]
    split
    · exact Layers.visible_pin _
    · rfl
  · intro parts hpinned
    rw [part_pin, Layers.pin_of_isPinned hpinned, ite_self]
  · intro on later off hon hoff hlater
    rw [part_unpin, if_pos hoff, part_operateAll, part_pin, if_pos hon]
    exact hrecounts.visible_unpin hlater

/-- The number follows a color and is pinned; then everything is to be plain, and the
body is pinned and the number unpinned. -/
def changes : List Operation :=
  [.follow {} fun _ => .color ⟨120, 50, 50⟩, .pin [.number], .follow {} fun _ => .plain,
    .pin [.number, .body], .unpin [.number]]

/-- The number did not hear the second cue and shows the color, and the body shows no
color any more, which is what it showed when it was pinned. -/
theorem operateAll_shows_changes :
    (∀ q, ((({} : Highlight).colorize .number ⟨200, 70, 80⟩).part q).hover = none ∧
      ((({} : Highlight).colorize .number ⟨200, 70, 80⟩).part q).pinned = none) ∧
    (((({} : Highlight).colorize .number ⟨200, 70, 80⟩).operateAll changes).part
      .number).visible = .filled ⟨120, 50, 50⟩ ∧
    (((({} : Highlight).colorize .number ⟨200, 70, 80⟩).operateAll changes).part
      .body).isPinned = true ∧
    (((({} : Highlight).colorize .number ⟨200, 70, 80⟩).operateAll changes).part
      .body).visible = .plain := by
  have hidle : ∀ q, ((({} : Highlight).colorize .number ⟨200, 70, 80⟩).part q).hover = none ∧
      ((({} : Highlight).colorize .number ⟨200, 70, 80⟩).part q).pinned = none := by
    intro q
    cases q <;> exact ⟨rfl, rfl⟩
  have hnumber := (operateAll_shows hidle changes .number).1
  have hbody := (operateAll_shows hidle changes .body).1
  have hpinned : (pastOf .body changes).pinned = true := by decide
  have hmoment : (pastOf .body changes).PinnedAt 2 := by
    refine ⟨by decide, by decide, ?_⟩
    intro j hj hlength
    have hall : (pastOf .body changes).length = 3 := by decide
    obtain rfl : j = 3 := by omega
    decide
  refine ⟨hidle, ?_, hbody.isPinned.trans hpinned, ?_⟩
  · rw [hnumber.free (by decide)]
    decide
  · rw [(hbody.pinned hpinned).2 2 hmoment]
    decide

/-- A part that rests while it is pinned does not hear it. -/
example :
    let shows (ops : List Operation) := ((({} : Highlight).operateAll ops).part .body).visible
    let hover : Operation := .follow {} fun _ => .color ⟨120, 50, 50⟩
    shows [hover, .pin [.body], .rest {}, .unpin [.body]] = .filled ⟨120, 50, 50⟩ ∧
      shows [hover, .pin [.body], .unpin [.body], .rest {}] = .plain := by
  decide

end Highlight

end Discussion
