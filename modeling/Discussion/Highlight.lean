import Discussion.Palette

/-!
# Highlights

A row has four parts. Each of them holds up to three paints: the base paint it
rests in, a hover paint that follows the pointer, and a pinned paint that a
click leaves. The visible paint is the pinned one if there is one, else the
hover paint, else the base. A hint may lie over all of them.
-/

namespace Discussion

/-! ## Hints

A short label over a row names the action under the pointer. It paints over the row while it shows
and leaves no trace. -/

/-- The actions that a row can announce. -/
inductive Hint
  | user
  | select
  | report
  | fold
deriving DecidableEq

namespace Hint

/-- The text of a hint. -/
def label : Hint → String
  | .user => "USER"
  | .select => "SELECT"
  | .report => "REPORT"
  | .fold => "FOLD"

/-- The background of a row under a hint. -/
def background : Hint → String
  | .user => "#bedc90"
  | .select => "#dcba90"
  | .report => "#dc9190"
  | .fold => "#cbc0dc"

/-- The color of the row's text under a hint. -/
def textColor (_ : Hint) : String := "black"

end Hint

/-! ## Paints -/

/-- The parts of a row that take paint. -/
inductive Part
  | header
  | number
  | target
  | body
deriving DecidableEq

/-- The parts of a row, from left to right. -/
def Part.all : List Part := [.header, .number, .target, .body]

/-- The color of the text on a paint. -/
inductive Ink
  | inherit
  | black
deriving DecidableEq

/-- What a part of a row is painted with. -/
structure Paint where
  background : Option Color := none
  ink : Ink := .inherit
deriving DecidableEq

namespace Paint

/-- No paint of its own. -/
def plain : Paint := {}

/-- Black text on a color. -/
def filled (c : Color) : Paint := ⟨some c, .black⟩

end Paint

/-- What the pointer asks a part to show. -/
inductive Cue
  /-- Nothing: drop the hover paint. -/
  | rest
  /-- No color at all. -/
  | plain
  /-- The part's own link color, if it has one. -/
  | accent
  | color (c : Color)
  /-- The dark variant of the color of a post that is referred to. -/
  | reference (c : Color)
deriving DecidableEq

/-- A cue for each part of a row. -/
abbrev Cues := Part → Cue

/-- The paints of one part of a row. -/
structure Layers where
  base : Paint := .plain
  /-- The part's own link color. -/
  accent : Option Color := none
  hover : Option Paint := none
  pinned : Option Paint := none
deriving DecidableEq

namespace Layers

/-- The paint on top. -/
def visible (l : Layers) : Paint := (l.pinned <|> l.hover).getD l.base

/-- Whether a click has pinned a paint. -/
def isPinned (l : Layers) : Bool := l.pinned.isSome

/-- Gives a part its link color, which is also the paint it rests in. -/
def colorize (l : Layers) (c : Color) : Layers :=
  { l with accent := some c, base := .filled c }

/-- The hover paint that a cue asks for. -/
def hoverPaint (l : Layers) (palette : Palette) : Cue → Option Paint
  | .rest => none
  | .plain => some .plain
  | .accent => some (match l.accent with
    | none => .plain
    | some c => .filled c)
  | .color c => some (.filled c)
  | .reference c => some (.filled (palette.dark c))

/-- Follows a cue, unless a paint is pinned. -/
def follow (l : Layers) (palette : Palette) (cue : Cue) : Layers :=
  if l.isPinned then l else { l with hover := l.hoverPaint palette cue }

/-- Pins the paint that is visible. -/
def pin (l : Layers) : Layers :=
  if l.isPinned then l else { l with pinned := some l.visible }

/-- Takes off the pinned paint. -/
def unpin (l : Layers) : Layers := { l with pinned := none }

theorem follow_of_isPinned {l : Layers} (h : l.isPinned = true) (palette : Palette) (cue : Cue) :
    l.follow palette cue = l := by
  simp [follow, h]

theorem pin_of_isPinned {l : Layers} (h : l.isPinned = true) : l.pin = l := by
  simp [pin, h]

@[simp]
theorem visible_pin (l : Layers) : l.pin.visible = l.visible := by
  by_cases h : l.isPinned = true
  · rw [pin_of_isPinned h]
  · rw [pin, if_neg h]; rfl

end Layers

/-- The highlight of a row. -/
structure Highlight where
  header : Layers := {}
  number : Layers := {}
  target : Layers := {}
  body : Layers := {}
  /-- Whether the row belongs to a selected author. -/
  authorSelected : Bool := false
  hint : Option Hint := none
deriving DecidableEq

namespace Highlight

/-- The layers of one part. -/
def part (h : Highlight) : Part → Layers
  | .header => h.header
  | .number => h.number
  | .target => h.target
  | .body => h.body

/-- Changes the layers of every part. -/
def mapParts (h : Highlight) (f : Part → Layers → Layers) : Highlight :=
  { h with
    header := f .header h.header
    number := f .number h.number
    target := f .target h.target
    body := f .body h.body }

/-- Gives one part its link color. -/
def colorize (h : Highlight) (p : Part) (c : Color) : Highlight :=
  h.mapParts fun q l => if q = p then l.colorize c else l

/-- Follows a cue in every part. -/
def follow (h : Highlight) (palette : Palette) (cues : Cues) : Highlight :=
  h.mapParts fun p l => l.follow palette (cues p)

/-- Drops every hover paint that is not under a pinned one. -/
def rest (h : Highlight) (palette : Palette) : Highlight :=
  h.follow palette fun _ => .rest

/-- Pins the parts among `parts`. -/
def pin (h : Highlight) (parts : List Part) : Highlight :=
  h.mapParts fun p l => if p ∈ parts then l.pin else l

/-- Unpins the parts among `parts`. -/
def unpin (h : Highlight) (parts : List Part) : Highlight :=
  h.mapParts fun p l => if p ∈ parts then l.unpin else l

/-- Drops every pinned and every hover paint. -/
def restore (h : Highlight) (palette : Palette) : Highlight :=
  (h.unpin Part.all).rest palette

@[simp]
theorem part_mapParts (h : Highlight) (f : Part → Layers → Layers) (p : Part) :
    (h.mapParts f).part p = f p (h.part p) := by
  cases p <;> rfl

@[simp]
theorem authorSelected_mapParts (h : Highlight) (f : Part → Layers → Layers) :
    (h.mapParts f).authorSelected = h.authorSelected := rfl

@[simp]
theorem hint_mapParts (h : Highlight) (f : Part → Layers → Layers) :
    (h.mapParts f).hint = h.hint := rfl

/-- A highlight is known by its parts, its selection and its hint. -/
theorem ext_parts {a b : Highlight} (hparts : ∀ p, a.part p = b.part p)
    (hauthor : a.authorSelected = b.authorSelected) (hhint : a.hint = b.hint) : a = b := by
  have h1 := hparts .header
  have h2 := hparts .number
  have h3 := hparts .target
  have h4 := hparts .body
  cases a
  cases b
  simp_all [part]

end Highlight

end Discussion
