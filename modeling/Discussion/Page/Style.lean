import Discussion.Row

/-!
# Styles

The style attributes that show the state of a row.
-/

namespace Discussion

namespace Page

/-- A background. -/
def backgroundStyle (color : String) : String := "background-color: " ++ color ++ ";"

/-- A text color. -/
def inkStyle (color : String) : String := "color: " ++ color ++ ";"

end Page

/-- The name of an ink. -/
def Ink.name : Ink → String
  | .inherit => "inherit"
  | .black => "black"

/-- The style of a paint. -/
def Paint.style (p : Paint) : String :=
  match p.background, p.ink with
  | some c, .black => Page.backgroundStyle c.css ++ " " ++ Page.inkStyle "black"
  | some c, .inherit => Page.backgroundStyle c.css
  | none, .black => Page.inkStyle "black"
  | none, .inherit => ""

namespace Row

/-- The style of the header column and of the fold control, which take the text
color of a hint. -/
def hintTextStyle (r : Row) : String :=
  match r.highlight.hint with
  | some h => Page.inkStyle h.textColor
  | none => ""

/-- The style of a whole row. -/
def style (r : Row) : String :=
  (if r.hidden then "display: none;" else "") ++
    match r.highlight.hint with
    | some h => Page.backgroundStyle h.background
    | none => ""

/-- The style of a row's body, which a hint paints over. -/
def bodyStyle (r : Row) : String :=
  match r.highlight.hint with
  | some h => Page.backgroundStyle h.background
  | none => r.highlight.body.visible.style

end Row

end Discussion
