import Discussion.Page.Markup
import Mathlib.Data.List.Basic

/-!
# Tags of a page

A page is read here as a reader of the text does who knows nothing of the tree behind it: character
by character, and from `<` to the next `>` outside of quotes it is a tag. What texts and attribute
values say makes no difference to the tags that are found.
-/

namespace Discussion.Page

/-- A tag in the text of a page. Values of attributes stand as they are written. -/
inductive Tag
  | opening (name : String) (attributes : List (String × String))
  | closing (name : String)
deriving DecidableEq

/-! ## Reading tags -/

/-- A tag as far as it has been read. -/
structure TagDraft where
  name : List Char := []
  attributes : List (String × String) := []

namespace TagDraft

/-- The tag, when nothing more of it comes. -/
def tag (d : TagDraft) : Tag :=
  match d.name with
  | '/' :: name => .closing (String.ofList name)
  | name => .opening (String.ofList name) d.attributes

/-- Adds an attribute. -/
def add (d : TagDraft) (key value : List Char) : TagDraft :=
  { d with attributes := d.attributes ++ [(String.ofList key, String.ofList value)] }

end TagDraft

/-- Where a reader of a page is. -/
inductive Spot
  | text
  /-- In the name of a tag. -/
  | name (d : TagDraft)
  /-- Between attributes. -/
  | gap (d : TagDraft)
  /-- In the name of an attribute. -/
  | key (d : TagDraft) (key : List Char)
  /-- Before the value of an attribute. -/
  | value (d : TagDraft) (key : List Char)
  /-- In a value, up to the same quote again. -/
  | quoted (d : TagDraft) (key : List Char) (quote : Char) (value : List Char)
  /-- In a value without quotes. -/
  | bare (d : TagDraft) (key value : List Char)

/-- Where a character leads in a tag: its end, a gap, or else `next`. -/
def TagDraft.proceed (d : TagDraft) (c : Char) (next : Spot) : Spot × Option Tag :=
  if c = '>' then (.text, some d.tag) else if c.isWhitespace then (.gap d, none) else (next, none)

/-- Reads a character; gives the tag that ends with it, if there is one. -/
def Spot.step : Spot → Char → Spot × Option Tag
  | .text, c => (if c = '<' then .name {} else .text, none)
  | .name d, c => d.proceed c (.name { d with name := d.name ++ [c] })
  | .gap d, c => d.proceed c (.key d [c])
  | .key d k, c =>
    if c = '=' then (.value d k, none) else (d.add k []).proceed c (.key d (k ++ [c]))
  | .value d k, c =>
    if c = '"' ∨ c = '\'' then (.quoted d k c [], none)
    else if c.isWhitespace then (.value d k, none)
    else (d.add k []).proceed c (.bare d k [c])
  | .quoted d k q v, c =>
    if c = q then (.gap (d.add k v), none) else (.quoted d k q (v ++ [c]), none)
  | .bare d k v, c => (d.add k v).proceed c (.bare d k (v ++ [c]))

/-- The tags that end within a text. -/
def scan : Spot → List Char → List Tag
  | _, [] => []
  | p, c :: cs => (p.step c).2.toList ++ scan (p.step c).1 cs

/-- The tags of a page, in order. -/
def tags (text : String) : List Tag := scan .text text.toList

/-- From `p`, the text `cs` has the tags `ts` and leads to `q`. -/
inductive Reads : Spot → List Char → List Tag → Spot → Prop
  | nil (p : Spot) : Reads p [] [] p
  | cons {p q : Spot} {c : Char} {cs : List Char} {ts : List Tag}
      (h : Reads (p.step c).1 cs ts q) : Reads p (c :: cs) ((p.step c).2.toList ++ ts) q

namespace Reads

variable {p q r : Spot} {c : Char} {cs ds : List Char} {t : Tag} {ts us : List Tag}

theorem scan_eq (h : Reads p cs ts q) : scan p cs = ts := by
  induction h with
  | nil => rfl
  | cons _ ih => rw [scan, ih]

theorem append (hpq : Reads p cs ts q) (hqr : Reads q ds us r) :
    Reads p (cs ++ ds) (ts ++ us) r := by
  induction hpq with
  | nil => exact hqr
  | cons _ ih =>
    rw [List.append_assoc]
    exact .cons (ih hqr)

/-- A character within a tag or a text. -/
theorem silent (hc : p.step c = (q, none)) (h : Reads q cs ts r) : Reads p (c :: cs) ts r := by
  have hcons : Reads p (c :: cs) ((p.step c).2.toList ++ ts) r := .cons (by rwa [hc])
  rwa [hc] at hcons

/-- The last character of a tag. -/
theorem ending (hc : p.step c = (q, some t)) : Reads p [c] [t] q := by
  have hcons : Reads p [c] ((p.step c).2.toList ++ []) q := .cons (by rw [hc]; exact .nil q)
  rwa [hc] at hcons

end Reads

/-! ## Texts and values -/

/-- A character of the names of elements and attributes. -/
def isNameChar (c : Char) : Bool := c.isAlphanum || c == '-'

/-- Whether a text is the name of an element or an attribute. -/
def isName (s : String) : Bool := !s.toList.isEmpty && s.toList.all isNameChar

/-- The value of an attribute as it is written. -/
def escaped (value : String) : String := String.ofList (value.toList.flatMap attributeChar)

variable {p : Spot} {d : TagDraft} {c : Char} {k r : List Char} {s name : String}

theorem isNameChar_ne {c' : Char} (hc : isNameChar c = true) (hc' : isNameChar c' = false) :
    c ≠ c' := by
  rintro rfl
  rw [hc] at hc'
  cases hc'

theorem isWhitespace_eq_false (hc : isNameChar c = true) : c.isWhitespace = false := by
  simp only [Char.isWhitespace, Bool.or_eq_false_iff, decide_eq_false_iff_not]
  exact ⟨⟨⟨isNameChar_ne hc rfl, isNameChar_ne hc rfl⟩, isNameChar_ne hc rfl⟩,
    isNameChar_ne hc rfl⟩

/-- A name has a first character. -/
theorem exists_of_isName (h : isName s = true) :
    ∃ c cs, s.toList = c :: cs ∧ isNameChar c = true ∧ ∀ x ∈ cs, isNameChar x = true := by
  rw [isName] at h
  cases hs : s.toList with
  | nil => simp [hs] at h
  | cons c cs =>
    simp only [hs, List.isEmpty_cons, List.all_cons, Bool.not_false, Bool.true_and,
      Bool.and_eq_true, List.all_eq_true] at h
    exact ⟨c, cs, rfl, h.1, h.2⟩

theorem lt_notMem_textChar (c : Char) : '<' ∉ textChar c := by
  unfold textChar
  split
  case h_6 hlt _ =>
    rw [List.mem_singleton]
    exact fun h => hlt h.symm
  all_goals decide

theorem quote_notMem_attributeChar (c : Char) : '"' ∉ attributeChar c := by
  unfold attributeChar
  split
  case h_4 hquote _ _ =>
    rw [List.mem_singleton]
    exact fun h => hquote h.symm
  all_goals decide

theorem quote_notMem_escaped (value : String) : '"' ∉ (escaped value).toList := by
  rw [escaped, String.toList_ofList, List.mem_flatMap]
  rintro ⟨c, -, hc⟩
  exact quote_notMem_attributeChar c hc

/-! ## Parts of a tag -/

theorem TagDraft.proceed_of_isNameChar (d : TagDraft) (next : Spot) (hc : isNameChar c = true) :
    d.proceed c next = (next, none) := by
  rw [proceed, if_neg (isNameChar_ne hc rfl), isWhitespace_eq_false hc]
  rfl

theorem reads_text {cs : List Char} (h : '<' ∉ cs) : Reads .text cs [] .text := by
  induction cs with
  | nil => exact .nil _
  | cons c cs ih =>
    rw [List.mem_cons, not_or] at h
    refine .silent ?_ (ih h.2)
    rw [Spot.step, if_neg (Ne.symm h.1)]

theorem reads_name {cs : List Char} (h : ∀ c ∈ cs, isNameChar c = true) :
    Reads (.name d) cs [] (.name { d with name := d.name ++ cs }) := by
  induction cs generalizing d with
  | nil => simpa using Reads.nil (.name d)
  | cons c cs ih =>
    obtain ⟨hc, hcs⟩ := List.forall_mem_cons.mp h
    refine .silent (d.proceed_of_isNameChar _ hc) ?_
    simpa using ih (d := { d with name := d.name ++ [c] }) hcs

theorem reads_key {cs : List Char} (h : ∀ c ∈ cs, isNameChar c = true) :
    Reads (.key d k) cs [] (.key d (k ++ cs)) := by
  induction cs generalizing k with
  | nil => simpa using Reads.nil (.key d k)
  | cons c cs ih =>
    obtain ⟨hc, hcs⟩ := List.forall_mem_cons.mp h
    have hstep : (Spot.key d k).step c = (.key d (k ++ [c]), none) := by
      rw [Spot.step, if_neg (isNameChar_ne hc rfl), TagDraft.proceed_of_isNameChar _ _ hc]
    refine .silent hstep ?_
    simpa using ih (k := k ++ [c]) hcs

theorem reads_quoted {quote : Char} {cs : List Char} (h : quote ∉ cs) :
    Reads (.quoted d k quote r) cs [] (.quoted d k quote (r ++ cs)) := by
  induction cs generalizing r with
  | nil => simpa using Reads.nil (.quoted d k quote r)
  | cons c cs ih =>
    rw [List.mem_cons, not_or] at h
    refine .silent ?_ (?_ : Reads (.quoted d k quote (r ++ [c])) cs [] _)
    · rw [Spot.step, if_neg (Ne.symm h.1)]
    · simpa using ih (r := r ++ [c]) h.2

/-- An attribute may start at `p`, and the tag `d` may end there. -/
def TagDraft.Settled (d : TagDraft) (p : Spot) : Prop := p = .name d ∨ p = .gap d

theorem TagDraft.Settled.step_space (h : d.Settled p) : p.step ' ' = (.gap d, none) := by
  rcases h with rfl | rfl <;> rfl

theorem TagDraft.Settled.step_end (h : d.Settled p) : p.step '>' = (.text, some d.tag) := by
  rcases h with rfl | rfl <;> rfl

theorem reads_attribute (hp : d.Settled p) (hname : isName name = true) (value : String) :
    Reads p (attributeChars name value) [] (.gap (d.add name.toList (escaped value).toList)) := by
  obtain ⟨c, cs, hchars, hc, hcs⟩ := exists_of_isName hname
  have hvalue := reads_quoted (d := d) (k := c :: cs) (r := []) (quote_notMem_escaped value)
  have hclose : Reads (.quoted d (c :: cs) '"' (escaped value).toList) ['"'] []
      (.gap (d.add (c :: cs) (escaped value).toList)) := by
    refine .silent ?_ (.nil _)
    rw [Spot.step, if_pos rfl]
  have hkey : Reads (.key d [c]) cs [] (.key d (c :: cs)) := reads_key hcs
  rw [attributeChars, hchars]
  refine .silent hp.step_space (.silent (d.proceed_of_isNameChar _ hc) ?_)
  have hquote : Reads (.key d (c :: cs)) ('=' :: '"' :: ((escaped value).toList ++ ['"'])) []
      (.gap (d.add (c :: cs) (escaped value).toList)) := by
    refine .silent rfl (.silent rfl ?_)
    exact hvalue.append hclose
  simpa [escaped] using hkey.append hquote

/-- The attributes that an element has, by name. -/
def Attributes.listed (a : Attributes) : List (String × String) :=
  optional "class" a.classes ++ optional "href" a.link ++ optional "style" a.style ++
    a.data.map fun (name, value) => ("data-" ++ name, value)
where
  optional (name value : String) : List (String × String) :=
    if value = "" then [] else [(name, value)]

/-- The attributes of an element as they are written. -/
def Attributes.written (a : Attributes) : List (String × String) :=
  a.listed.map (Prod.map id escaped)

theorem optionalChars_eq (name value : String) :
    optionalChars name value =
      (Attributes.listed.optional name value).flatMap fun (n, v) => attributeChars n v := by
  rw [optionalChars, Attributes.listed.optional]
  split
  · rfl
  · simp

theorem Attributes.chars_eq (a : Attributes) :
    a.chars = a.listed.flatMap fun (name, value) => attributeChars name value := by
  simp only [chars, listed, List.flatMap_append, optionalChars_eq, List.flatMap_map]

/-- The names of all attributes of an element can be read back. -/
def Attributes.Named (a : Attributes) : Prop := ∀ d ∈ a.data, isName ("data-" ++ d.1) = true

theorem Attributes.Named.isName {a : Attributes} (h : a.Named) :
    ∀ x ∈ a.listed, isName x.1 = true := by
  have hoptional {name value : String} {x : String × String}
      (hx : x ∈ listed.optional name value) : x.1 = name := by
    rw [listed.optional] at hx
    split at hx
    · cases hx
    · rw [List.mem_singleton.mp hx]
  intro x hx
  simp only [listed, List.mem_append, List.mem_map] at hx
  rcases hx with ((hx | hx) | hx) | ⟨y, hy, rfl⟩
  · rw [hoptional hx]; decide
  · rw [hoptional hx]; decide
  · rw [hoptional hx]; decide
  · exact h y hy

theorem reads_attributes {l : List (String × String)} (hp : d.Settled p)
    (hl : ∀ x ∈ l, isName x.1 = true) :
    ∃ q, Reads p (l.flatMap fun (name, value) => attributeChars name value) [] q ∧
      TagDraft.Settled { d with attributes := d.attributes ++ l.map (Prod.map id escaped) }
        q := by
  induction l generalizing d p with
  | nil => exact ⟨p, .nil p, by simpa using hp⟩
  | cons x l ih =>
    obtain ⟨hx, hl⟩ := List.forall_mem_cons.mp hl
    have hfirst := reads_attribute hp hx x.2
    obtain ⟨q, hrest, hq⟩ := ih (d := d.add x.1.toList (escaped x.2).toList) (.inr rfl) hl
    exact ⟨q, hfirst.append hrest, by simpa [TagDraft.add, Prod.map] using hq⟩

/-! ## Elements -/

theorem TagDraft.tag_of_isName {tag : String} (htag : isName tag = true)
    (attributes : List (String × String)) :
    TagDraft.tag ⟨tag.toList, attributes⟩ = .opening tag attributes := by
  obtain ⟨c, cs, hchars, hc, -⟩ := exists_of_isName htag
  rw [TagDraft.tag]
  split
  case h_1 heq =>
    obtain ⟨rfl, -⟩ := List.cons.inj (hchars.symm.trans heq)
    exact absurd rfl (isNameChar_ne hc rfl)
  case h_2 => rw [String.ofList_toList]

theorem reads_tagName {tag : String} (htag : isName tag = true) (read : List Char) :
    Reads (.name { name := read }) tag.toList [] (.name { name := read ++ tag.toList }) := by
  obtain ⟨c, cs, hchars, hc, hcs⟩ := exists_of_isName htag
  rw [hchars]
  exact reads_name (List.forall_mem_cons.mpr ⟨hc, hcs⟩)

theorem reads_opening {tag : String} {a : Attributes} (htag : isName tag = true) (ha : a.Named) :
    Reads .text ('<' :: tag.toList ++ a.chars ++ ['>']) [.opening tag a.written] .text := by
  obtain ⟨q, hattributes, hq⟩ :=
    reads_attributes (d := { name := tag.toList }) (.inl rfl) ha.isName
  have hend : q.step '>' = (.text, some (.opening tag a.written)) := by
    rw [← TagDraft.tag_of_isName htag]
    exact hq.step_end
  rw [a.chars_eq]
  exact .silent rfl (((reads_tagName htag []).append hattributes).append (.ending hend))

theorem reads_closing {tag : String} (htag : isName tag = true) :
    Reads .text ('<' :: '/' :: tag.toList ++ ['>']) [.closing tag] .text := by
  have hclosing : TagDraft.tag { name := '/' :: tag.toList } = .closing tag :=
    congrArg Tag.closing String.ofList_toList
  have hend : Reads (.name { name := '/' :: tag.toList }) ['>'] [.closing tag] .text :=
    .ending (by rw [← hclosing]; rfl)
  exact .silent rfl (.silent rfl ((reads_tagName htag ['/']).append hend))

/-! ## Pieces of a page -/

/-- An element with what is in it. -/
def Tag.element (name : String) (attributes : List (String × String)) (inner : List Tag) :
    List Tag :=
  .opening name attributes :: inner ++ [.closing name]

namespace Node

mutual

/-- The tags of a piece, as its elements are nested. -/
def tags : Node → List Tag
  | .element tag a children => Tag.element tag a.written (allTags children)
  | .text _ => []
  | .markup _ => []

/-- The tags of pieces, one after the other. -/
def allTags : List Node → List Tag
  | [] => []
  | n :: rest => n.tags ++ allTags rest

end

theorem allTags_eq_flatMap (ns : List Node) : allTags ns = ns.flatMap tags := by
  induction ns with
  | nil => rfl
  | cons n ns ih => rw [allTags, ih, List.flatMap_cons]

/-- A piece whose elements and attributes have names, and whose markup is without tags. -/
inductive Sound : Node → Prop
  | element {tag : String} {a : Attributes} {children : List Node} (htag : isName tag = true)
      (ha : a.Named) (hchildren : ∀ n ∈ children, Sound n) : Sound (.element tag a children)
  | text (s : String) : Sound (.text s)
  | markup {s : String} (hs : '<' ∉ s.toList) : Sound (.markup s)

theorem reads_allChars {ns : List Node} (h : ∀ n ∈ ns, Reads .text n.chars n.tags .text) :
    Reads .text (allChars ns) (allTags ns) .text := by
  induction ns with
  | nil => exact .nil _
  | cons n ns ih =>
    obtain ⟨hn, hns⟩ := List.forall_mem_cons.mp h
    exact hn.append (ih hns)

theorem Sound.reads {n : Node} (h : n.Sound) : Reads .text n.chars n.tags .text := by
  induction h with
  | element htag ha _ ih =>
    have hall := ((reads_opening htag ha).append (reads_allChars ih)).append (reads_closing htag)
    simpa [chars, tags, Tag.element] using hall
  | text s =>
    refine reads_text ?_
    rw [chars, List.mem_flatMap]
    rintro ⟨c, -, hc⟩
    exact lt_notMem_textChar c hc
  | markup hs => exact reads_text hs

/-- The tags that are read in the text of a piece are its own. -/
theorem Sound.tags_render {n : Node} (h : n.Sound) : Page.tags n.render = n.tags := by
  rw [Page.tags, render, String.toList_ofList]
  exact h.reads.scan_eq

end Node

end Discussion.Page
