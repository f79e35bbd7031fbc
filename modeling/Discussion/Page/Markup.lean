/-!
# Markup

The page as a tree of elements, and its text. Text and attribute values are
escaped when they are written; a comment is markup already and goes in as it is.
-/

namespace Discussion.Page

/-- The attributes of an element. Classes, link and style are left out when they
are empty; data attributes never are. -/
structure Attributes where
  classes : String := ""
  link : String := ""
  style : String := ""
  /-- The data attributes, without the common part of their names. -/
  data : List (String × String) := []

/-- A piece of a page. -/
inductive Node
  | element (tag : String) (attributes : Attributes) (children : List Node)
  | text (s : String)
  /-- Markup from outside. -/
  | markup (s : String)

/-- A character of an attribute's value. -/
def attributeChar (c : Char) : List Char :=
  match c with
  | '"' => "&quot;".toList
  | '\'' => "&#39;".toList
  | '\x60' => "&#96;".toList
  | c => [c]

/-- A character of text. -/
def textChar (c : Char) : List Char :=
  match c with
  | '"' => "&quot;".toList
  | '&' => "&amp;".toList
  | '\'' => "&#x27;".toList
  | '<' => "&lt;".toList
  | '>' => "&gt;".toList
  | c => [c]

/-- An attribute with its value. -/
def attributeChars (name value : String) : List Char :=
  ' ' :: name.toList ++ '=' :: '"' :: value.toList.flatMap attributeChar ++ ['"']

/-- An attribute, unless its value is empty. -/
def optionalChars (name value : String) : List Char :=
  if value = "" then [] else attributeChars name value

/-- The attributes of an element. -/
def Attributes.chars (a : Attributes) : List Char :=
  optionalChars "class" a.classes ++ optionalChars "href" a.link ++ optionalChars "style" a.style ++
    a.data.flatMap fun (name, value) => attributeChars ("data-" ++ name) value

namespace Node

mutual

/-- The text of a piece. -/
def chars : Node → List Char
  | .element tag attributes children =>
    '<' :: tag.toList ++ attributes.chars ++ '>' :: allChars children ++
      '<' :: '/' :: tag.toList ++ ['>']
  | .text s => s.toList.flatMap textChar
  | .markup s => s.toList

/-- The text of pieces, one after the other. -/
def allChars : List Node → List Char
  | [] => []
  | n :: rest => n.chars ++ allChars rest

end

/-- The text of a piece. -/
def render (n : Node) : String := String.ofList n.chars

end Node

end Discussion.Page
