import Discussion.Page.Thread
import Discussion.Proofs.Page.Tags
import Discussion.Proofs.View.Marks

/-!
# The outline of a page

The outline of a page is what its tags say of the posts: which elements there are, in which order
and how they are nested, and whose they are. It depends on the numbers of the posts, on the links
between them and on the placeholders, and on nothing that an author may have put into a key or a
glyph.
-/

namespace Discussion

namespace Page

namespace Tag

/-- A tag with those of its attributes that have one of these names. -/
def keep (keys : List String) : Tag → Tag
  | .opening name attributes => .opening name (attributes.filter (·.1 ∈ keys))
  | .closing name => .closing name

/-- Whether a tag opens an element of this name. -/
def opens (name : String) : Tag → Bool
  | .opening n _ => n == name
  | .closing _ => false

/-- The style of a tag takes its element off the page. -/
def Hides : Tag → Prop
  | .opening _ attributes => ∃ style, attributes.lookup "style" = some style ∧
      "display: none;".toList <:+: style.toList
  | .closing _ => False

end Tag

/-! ## Outlines -/

/-- What the outline of a page shows of a post. -/
structure PostShape where
  omission : Bool
  number : PostNumber
  links : List PostNumber

namespace Outline

/-- The attributes that stand in an outline. -/
def keys : List String := ["class", "data-post-lid", "data-reply"]

/-- An element with its class. -/
def box (tag classes : String) (inner : List Tag) : List Tag :=
  Tag.element tag [("class", classes)] inner

/-- The link to a reply. -/
def reply (n : PostNumber) : List Tag :=
  Tag.element "a" [("class", "reply_link"), ("data-reply", n.digits)] []

/-- The header of a post. -/
def header : List Tag :=
  box "div" "header_col"
    (box "aside" "post_header" [] ++ box "a" "post_no" [] ++ box "a" "reply_target" [] ++
      box "a" "fold_posts" [] ++ box "div" "action_indicator" [])

/-- The article of a post. -/
def post (p : PostShape) : List Tag :=
  Tag.element "article" [("class", "post_row"), ("data-post-lid", p.number.digits)]
    (if p.omission then box "div" "comment_body" []
    else header ++ box "div" "comment_body" (p.links.flatMap reply))

/-- A page with or without a badge. -/
def page (badge : Bool) (posts : List PostShape) : List Tag :=
  box "div" "thread" ((if badge then box "span" "user_han" [] else []) ++ posts.flatMap post)

end Outline

/-- The outline of a piece. -/
def Node.outline (n : Node) : List Tag := n.tags.map (·.keep Outline.keys)

@[simp]
theorem Node.outline_text (s : String) : (Node.text s).outline = [] := rfl

@[simp]
theorem Node.outline_markup (s : String) : (Node.markup s).outline = [] := rfl

theorem escaped_eq_self {s : String} (h : ∀ c ∈ s.toList, attributeChar c = [c]) :
    escaped s = s := by
  have hchars : s.toList.flatMap attributeChar = s.toList := by
    rw [List.flatMap_congr h, List.flatMap_singleton']
  rw [escaped, hchars, String.ofList_toList]

@[simp]
theorem escaped_digits (n : PostNumber) : escaped n.digits = n.digits := by
  apply escaped_eq_self
  intro c hc
  have hdigit : c.isDigit = true := by
    apply Nat.isDigit_of_mem_toDigits (b := 10) (n := n.value) (by decide) (by decide)
    simpa [PostNumber.digits] using hc
  unfold attributeChar
  split
  · cases hdigit
  · cases hdigit
  · cases hdigit
  · rfl

theorem filter_written_optional {name : String} (hname : name ∉ Outline.keys) (value : String) :
    ((Attributes.listed.optional name value).map (Prod.map id escaped)).filter
      (·.1 ∈ Outline.keys) = [] := by
  rw [Attributes.listed.optional]
  split
  · rfl
  · simp [hname]

/-- Of the attributes of an element, its class stands in the outline, and some of its data. -/
theorem Node.outline_element {tag classes : String} (hclass : classes ≠ "")
    (hplain : escaped classes = classes) (link style : String) (data : List (String × String))
    (children : List Node) :
    (Node.element tag { classes, link, style, data } children).outline =
      Tag.element tag
        (("class", classes) ::
          (data.map fun (name, value) => ("data-" ++ name, escaped value)).filter
            (·.1 ∈ Outline.keys))
        (children.flatMap outline) := by
  have hlink := filter_written_optional (by decide : "href" ∉ Outline.keys) link
  have hstyle := filter_written_optional (by decide : "style" ∉ Outline.keys) style
  have hkeys : "class" ∈ Outline.keys := by decide
  have hattributes : (Attributes.written { classes, link, style, data }).filter
        (·.1 ∈ Outline.keys) = ("class", classes) ::
      (data.map fun (name, value) => ("data-" ++ name, escaped value)).filter
        (·.1 ∈ Outline.keys) := by
    simp only [Attributes.written, Attributes.listed, List.map_append, List.filter_append, hlink,
      hstyle]
    simp [Attributes.listed.optional, hclass, hplain, hkeys, Function.comp_def]
  rw [outline, tags, Tag.element, allTags_eq_flatMap, List.cons_append, List.map_cons,
    List.map_append, List.map_flatMap, Tag.keep, hattributes]
  rfl

theorem outline_replyLink (slug : Slug) (n : PostNumber) :
    (replyLink slug n).outline = Outline.reply n := by
  simp (disch := decide) [replyLink, Node.outline_element, List.filter_cons, Outline.keys,
    Outline.reply]

theorem outline_badge (b : Badge) : (badge b).outline = Outline.box "span" "user_han" [] := by
  simp (disch := decide) [badge, Node.outline_element, Outline.box]

theorem outline_headerColumn (p : Post) (row : Row) :
    (headerColumn p row).outline = Outline.header := by
  simp (disch := decide) [headerColumn, Node.outline_element, List.filter_cons, Outline.keys,
    Outline.header, Outline.box]

theorem outline_bodyColumn (slug : Slug) (e : Entry) (row : Row) :
    (bodyColumn slug e row).outline =
      Outline.box "div" "comment_body" (e.links.flatMap Outline.reply) := by
  simp (disch := decide) [bodyColumn, Node.outline_element, Outline.box, List.flatMap_map,
    outline_replyLink]

/-- Only what the outline shows of a post counts in the outline of its row. -/
theorem outline_postRow (slug : Slug) (e : Entry) (row : Row) :
    (postRow slug e row).outline = Outline.post ⟨e.post.omission, e.post.number, e.links⟩ := by
  cases homission : e.post.omission with
  | true =>
    simp (disch := decide) [postRow, omissionRow, homission, Node.outline_element,
      List.filter_cons, Outline.keys, Outline.post, Outline.box]
  | false =>
    simp (disch := decide) [postRow, homission, Node.outline_element, List.filter_cons,
      Outline.keys, Outline.post, outline_headerColumn, outline_bodyColumn]

/-! ## Soundness -/

theorem Node.sound_element_iff {tag : String} {a : Attributes} {children : List Node} :
    (Node.element tag a children).Sound ↔
      isName tag = true ∧ a.Named ∧ ∀ n ∈ children, n.Sound := by
  constructor
  · rintro (⟨htag, ha, hchildren⟩ | _ | _)
    exact ⟨htag, ha, hchildren⟩
  · rintro ⟨htag, ha, hchildren⟩
    exact .element htag ha hchildren

theorem sound_replyLink (slug : Slug) (n : PostNumber) : (replyLink slug n).Sound := by
  simp +decide [replyLink, Node.sound_element_iff, Attributes.Named, Node.Sound.text]

theorem sound_badge (b : Badge) : (badge b).Sound := by
  simp +decide [badge, Node.sound_element_iff, Attributes.Named, Node.Sound.text]

theorem sound_headerColumn (p : Post) (row : Row) : (headerColumn p row).Sound := by
  simp +decide [headerColumn, Node.sound_element_iff, Attributes.Named, Node.Sound.text]

theorem sound_bodyColumn (slug : Slug) {e : Entry} (row : Row)
    (hcomment : '<' ∉ e.post.comment.toList) : (bodyColumn slug e row).Sound := by
  simp +decide [bodyColumn, Node.sound_element_iff, Attributes.Named,
    Node.Sound.markup hcomment, sound_replyLink]

theorem sound_postRow (slug : Slug) {e : Entry} (row : Row)
    (hcomment : '<' ∉ e.post.comment.toList) : (postRow slug e row).Sound := by
  rw [postRow]
  split
  · simp +decide [omissionRow, Node.sound_element_iff, Attributes.Named,
      Node.Sound.markup hcomment]
  · simp +decide [Node.sound_element_iff, Attributes.Named, sound_headerColumn,
      sound_bodyColumn slug row hcomment]

/-! ## Articles -/

/-- The articles that a piece opens. -/
def Node.articles (n : Node) : List Tag := n.tags.filter (·.opens "article")

theorem Node.articles_element (tag : String) (a : Attributes) (children : List Node) :
    (Node.element tag a children).articles =
      (if tag = "article" then [.opening tag a.written] else []) ++
        children.flatMap articles := by
  have hinner : (allTags children).filter (·.opens "article") = children.flatMap articles := by
    rw [allTags_eq_flatMap, List.filter_flatMap]
    rfl
  have hclosing : [Tag.closing tag].filter (·.opens "article") = [] := rfl
  rw [articles, tags, Tag.element, List.filter_append, List.filter_cons, hinner, hclosing,
    List.append_nil, Tag.opens]
  by_cases htag : tag = "article" <;> simp [htag]

theorem Node.articles_article (a : Attributes) {children : List Node}
    (hinner : children.flatMap articles = []) :
    (Node.element "article" a children).articles = [.opening "article" a.written] := by
  rw [articles_element, if_pos rfl, hinner, List.append_nil]

@[simp]
theorem Node.articles_text (s : String) : (Node.text s).articles = [] := rfl

@[simp]
theorem Node.articles_markup (s : String) : (Node.markup s).articles = [] := rfl

theorem articles_badge (b : Badge) : (badge b).articles = [] := by
  simp [badge, Node.articles_element]

theorem articles_headerColumn (p : Post) (row : Row) : (headerColumn p row).articles = [] := by
  simp [headerColumn, Node.articles_element]

theorem articles_bodyColumn (slug : Slug) (e : Entry) (row : Row) :
    (bodyColumn slug e row).articles = [] := by
  simp [bodyColumn, replyLink, Node.articles_element]

theorem lookup_written_optional {name : String} (hname : "style" ≠ name) (value : String) :
    ((Attributes.listed.optional name value).map (Prod.map id escaped)).lookup "style" = none := by
  rw [Attributes.listed.optional]
  split
  · rfl
  · simp [hname]

theorem Attributes.lookup_written_style (a : Attributes) :
    a.written.lookup "style" = if a.style = "" then none else some (escaped a.style) := by
  have hdata (name : String) : "style" ≠ "data-" ++ name := by
    intro h
    have hchars := congrArg String.toList h
    simp at hchars
  have hnone : ((a.data.map fun (name, value) => ("data-" ++ name, value)).map
      (Prod.map id escaped)).lookup "style" = none := by
    simp only [List.map_map, List.lookup_eq_none_iff, List.mem_map]
    rintro _ ⟨d, -, rfl⟩
    simpa using hdata d.1
  simp only [written, listed, List.map_append, List.lookup_append, hnone,
    lookup_written_optional (by decide : "style" ≠ "class"),
    lookup_written_optional (by decide : "style" ≠ "href")]
  rw [listed.optional]
  split <;> simp

theorem escaped_append (s t : String) : escaped (s ++ t) = escaped s ++ escaped t := by
  rw [escaped, String.toList_append, List.flatMap_append, String.ofList_append]
  rfl

/-- The style of a row is its background, after the declaration that hides the row. -/
theorem exists_rowStyle_eq (row : Row) :
    ∃ background : String,
      row.style = (if row.hidden then "display: none;" else "") ++ background ∧
        escaped background = background ∧ 'y' ∉ background.toList := by
  refine ⟨_, rfl, ?_⟩
  split
  · rename_i h _
    cases h <;> decide
  · decide

theorem escaped_rowStyle (row : Row) : escaped row.style = row.style := by
  obtain ⟨background, hstyle, hplain, -⟩ := exists_rowStyle_eq row
  rw [hstyle, escaped_append, hplain]
  congr 1
  split <;> decide

theorem infix_rowStyle_iff (row : Row) :
    "display: none;".toList <:+: row.style.toList ↔ row.hidden = true := by
  obtain ⟨background, hstyle, -, hnot⟩ := exists_rowStyle_eq row
  rw [hstyle, String.toList_append]
  cases row.hidden with
  | true => exact iff_of_true (List.prefix_append _ _).isInfix rfl
  -- no background has the `y` of `display`
  | false => simpa using fun h => hnot (h.subset (by decide))

theorem hides_article_iff (row : Row) (data : List (String × String)) :
    Tag.Hides (.opening "article"
      (Attributes.written { classes := "post_row", style := row.style, data })) ↔
        row.hidden = true := by
  rw [Tag.Hides, Attributes.lookup_written_style, ← infix_rowStyle_iff, escaped_rowStyle]
  by_cases hempty : row.style = ""
  · simp [hempty]
  · simp [hempty]

/-- A row has one article, and its style shows whether the row is hidden. -/
theorem exists_articles_postRow (slug : Slug) (e : Entry) (row : Row) :
    ∃ tag, (postRow slug e row).articles = [tag] ∧ (tag.Hides ↔ row.hidden = true) := by
  rw [postRow]
  split
  · refine ⟨_, Node.articles_article _ ?_, hides_article_iff row _⟩
    simp [Node.articles_element]
  · refine ⟨_, Node.articles_article _ ?_, hides_article_iff row _⟩
    simp [articles_headerColumn, articles_bodyColumn]

end Page

/-! ## Pages of views -/

/-- What the outline of a page shows of an entry. -/
def Entry.shape (e : Entry) : Page.PostShape := ⟨e.post.omission, e.post.number, e.links⟩

namespace View

variable {v : View}

theorem sound_markup (hcomments : ∀ e ∈ v.thread.entries, '<' ∉ e.post.comment.toList) :
    v.markup.Sound := by
  rw [markup, Page.Node.sound_element_iff]
  refine ⟨by decide, by simp +decide [Page.Attributes.Named], ?_⟩
  intro n hn
  rcases List.mem_append.mp hn with hn | hn
  · rw [Option.mem_toList, Option.map_eq_some_iff] at hn
    obtain ⟨b, -, rfl⟩ := hn
    exact Page.sound_badge b
  · obtain ⟨x, hx, rfl⟩ := List.mem_map.mp hn
    exact Page.sound_postRow _ _ (hcomments x.1 (mem_posts_iff.mp hx).1)

theorem outline_markup (hv : v.Aligned) :
    v.markup.outline = Page.Outline.page v.badge.isSome (v.thread.entries.map Entry.shape) := by
  have hbadge : (v.badge.map Page.badge).toList.flatMap Page.Node.outline =
      if v.badge.isSome then Page.Outline.box "span" "user_han" [] else [] := by
    cases v.badge with
    | none => rfl
    | some b => simp [Page.outline_badge]
  have hrows : (v.posts.map fun x => Page.postRow v.thread.slug x.1 x.2).flatMap
      Page.Node.outline = (v.thread.entries.map Entry.shape).flatMap Page.Outline.post := by
    rw [← hv.map_fst_posts, List.map_map, List.flatMap_map, List.flatMap_map]
    exact List.flatMap_congr fun x _ => Page.outline_postRow _ _ _
  rw [markup, Page.Node.outline_element (by decide) (by decide), List.flatMap_append, hbadge, hrows]
  simp [Page.Outline.page, Page.Outline.box, Page.Outline.keys]

theorem articles_markup (v : View) :
    v.markup.articles =
      v.posts.flatMap fun x => (Page.postRow v.thread.slug x.1 x.2).articles := by
  have hbadge : (v.badge.map Page.badge).toList.flatMap Page.Node.articles = [] := by
    cases v.badge with
    | none => rfl
    | some b => simp [Page.articles_badge]
  rw [markup, Page.Node.articles_element, if_neg (by decide), List.nil_append,
    List.flatMap_append, hbadge, List.nil_append, List.flatMap_map]

/-- The article that starts with this tag is taken off the page exactly if the row of the post is
hidden. -/
def StartsArticle (v : View) (tag : Page.Tag) (n : PostNumber) : Prop :=
  ∃ row, v.row? n = some row ∧ (tag.Hides ↔ row.hidden = true)

theorem StartsArticle.hides_iff {tag : Page.Tag} {n : PostNumber} {hidden : Bool}
    (h : v.StartsArticle tag n) (hn : (v.row? n).map (·.hidden) = some hidden) :
    tag.Hides ↔ hidden = true := by
  obtain ⟨row, hrow, htag⟩ := h
  rw [hrow, Option.map_some, Option.some_inj] at hn
  rwa [hn] at htag

theorem forall₂_startsArticle (slug : Slug) {posts : List (Entry × Row)}
    (hposts : ∀ x ∈ posts, v.row? x.1.post.number = some x.2) :
    List.Forall₂ v.StartsArticle (posts.flatMap fun x => (Page.postRow slug x.1 x.2).articles)
      (posts.map (·.1.post.number)) := by
  induction posts with
  | nil => exact .nil
  | cons x posts ih =>
    obtain ⟨hx, hposts⟩ := List.forall_mem_cons.mp hposts
    obtain ⟨tag, htag, hhides⟩ := Page.exists_articles_postRow slug x.1 x.2
    rw [List.flatMap_cons, htag]
    exact .cons ⟨x.2, hx, hhides⟩ (ih hposts)

theorem Aligned.forall₂_startsArticle_markup (hv : v.Aligned) :
    List.Forall₂ v.StartsArticle v.markup.articles v.thread.numbers := by
  have hnumbers : v.thread.numbers = v.posts.map (·.1.post.number) := by
    rw [Thread.numbers, ← hv.map_fst_posts, List.map_map]
    rfl
  rw [articles_markup, hnumbers]
  exact forall₂_startsArticle _ fun x hx => (mem_posts_iff.mp hx).2

/-- The tags in the text of a page are those of its outline, whatever the keys and the glyphs of
its authors are. Each post has one article, in order of arrival, and its style takes it off the page
exactly if the row of the post is hidden. -/
theorem Reachable.page_outline (h : Reachable v)
    (hcomments : ∀ e ∈ v.thread.entries, '<' ∉ e.post.comment.toList) :
    (Page.tags v.render).map (·.keep Page.Outline.keys) =
        Page.Outline.page v.badge.isSome (v.thread.entries.map Entry.shape) ∧
      List.Forall₂ v.StartsArticle ((Page.tags v.render).filter (·.opens "article"))
        v.thread.numbers := by
  have htags : Page.tags v.render = v.markup.tags := (sound_markup hcomments).tags_render
  rw [htags]
  exact ⟨outline_markup h.aligned, h.aligned.forall₂_startsArticle_markup⟩

section

open Sample

/-- A key that would end the element in which it stands. -/
def breakingKey : AuthorKey := ⟨"\"></article><a>", by decide⟩

/-- A post with markup in its key and its glyph. -/
def breakingPost : Post :=
  { post one none with author := breakingKey, marker := some "'</article>&\"<a href=" }

/-- The reader has the key of the post, and after a fold on it a reply and a placeholder arrive. -/
def breakingView : View :=
  ((opened {} (snapshot [breakingPost])).run [.setIdentity (some breakingKey), .toggleFold one,
    .insert ⟨two, post two (some one)⟩ none,
    .insert ⟨three, { post three none with omission := true }⟩ none]).1

/-- The badge stands before three articles, of which only the last one is hidden. -/
theorem page_outline_breakingView :
    Reachable breakingView ∧
    (∀ e ∈ breakingView.thread.entries, '<' ∉ e.post.comment.toList) ∧
    (Page.tags breakingView.render).map (·.keep Page.Outline.keys) =
      Page.Outline.page true [⟨false, one, [two]⟩, ⟨false, two, []⟩, ⟨true, three, []⟩] ∧
    ∃ first second third,
      (Page.tags breakingView.render).filter (·.opens "article") = [first, second, third] ∧
        ¬ first.Hides ∧ ¬ second.Hides ∧ third.Hides := by
  have hreachable : Reachable breakingView := (reachable_opened (by decide)).run _
  have hcomments : ∀ e ∈ breakingView.thread.entries, '<' ∉ e.post.comment.toList := by decide
  obtain ⟨houtline, harticles⟩ := hreachable.page_outline hcomments
  have hbadge : breakingView.badge.isSome = true := by decide
  have hshapes : breakingView.thread.entries.map Entry.shape =
      [⟨false, one, [two]⟩, ⟨false, two, []⟩, ⟨true, three, []⟩] := rfl
  have hnumbers : breakingView.thread.numbers = [one, two, three] := rfl
  rw [hbadge, hshapes] at houtline
  rw [hnumbers] at harticles
  generalize (Page.tags breakingView.render).filter (·.opens "article") = read at harticles ⊢
  obtain _ | ⟨hone, _ | ⟨htwo, _ | ⟨hthree, _ | _⟩⟩⟩ := harticles
  refine ⟨hreachable, hcomments, houtline, _, _, _, rfl, ?_, ?_, ?_⟩
  · rw [hone.hides_iff (by decide : _ = some false)]
    exact Bool.false_ne_true
  · rw [htwo.hides_iff (by decide : _ = some false)]
    exact Bool.false_ne_true
  · rw [hthree.hides_iff (by decide : _ = some true)]

end

end View

end Discussion
