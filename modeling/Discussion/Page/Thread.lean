import Discussion.Page.Markup
import Discussion.Page.Style
import Discussion.View.Basic

/-!
# The page of a thread

The page shows the reader's badge, if there is one, and a row for every post in
order of arrival.
-/

namespace Discussion

namespace Page

/-- The link from a post to one of its replies. -/
def replyLink (slug : Slug) (reply : PostNumber) : Node :=
  .element "a"
    { classes := "reply_link", link := slug.postAddress reply, data := [("reply", reply.digits)] }
    [.text ("→" ++ reply.digits)]

/-- The row of a placeholder. -/
def omissionRow (p : Post) (row : Row) : Node :=
  .element "article"
    { classes := "post_row", style := row.style,
      data := [("omission", "true"), ("post-lid", p.number.digits)] }
    [.element "div" { classes := "comment_body" } [.markup p.comment]]

/-- The column with the author, the numbers and the controls of a post. -/
def headerColumn (p : Post) (row : Row) : Node :=
  let h := row.highlight
  let target := (p.parent.map PostNumber.digits).getD ""
  .element "div" { classes := "header_col", style := row.hintTextStyle } [
    .element "aside"
      { classes := "post_header", style := h.header.visible.style, data := [("user", p.author.text)] }
      [.text (p.marker.getD "")],
    .element "a" { classes := "post_no", style := h.number.visible.style }
      [.text p.number.digits],
    .element "a"
      { classes := "reply_target", style := h.target.visible.style, data := [("target", target)] }
      [.text target],
    .element "a" { classes := "fold_posts", style := row.hintTextStyle } [.text row.mark.glyph],
    .element "div"
      { classes := "action_indicator",
        style := if h.hint.isSome then "visibility: visible;" else "visibility: hidden;" }
      [.text ((h.hint.map Hint.label).getD "")]]

/-- The comment of a post, with the links to its replies. -/
def bodyColumn (slug : Slug) (e : Entry) (row : Row) : Node :=
  .element "div" { classes := "comment_body", style := row.bodyStyle }
    (.markup e.post.comment :: e.links.map (replyLink slug))

/-- The row of a post. -/
def postRow (slug : Slug) (e : Entry) (row : Row) : Node :=
  if e.post.omission then omissionRow e.post row
  else
    .element "article"
      { classes := "post_row", style := row.style,
        data := [("pivot", if row.mark.pivot then "true" else ""),
          ("post-gid", e.post.site.digits), ("post-lid", e.post.number.digits)] }
      [headerColumn e.post row, bodyColumn slug e row]

/-- The badge of the reader. -/
def badge (b : Badge) : Node :=
  .element "span"
    { classes := "user_han", style := inkStyle b.color.css ++ " visibility: visible;" }
    [.text (b.marker.getD "")]

end Page

namespace View

/-- The page of a view. -/
def markup (v : View) : Page.Node :=
  let t := v.thread
  .element "div"
    { classes := "thread",
      data := [("identity-scope", t.identityScope), ("random-mark", toString t.viewMarker.toNat),
        ("thread-id", t.slug.text)] }
    ((v.badge.map Page.badge).toList ++
      v.posts.map fun (entry, row) => Page.postRow t.slug entry row)

/-- The text of a view's page. -/
def render (v : View) : String := v.markup.render

end View

end Discussion
