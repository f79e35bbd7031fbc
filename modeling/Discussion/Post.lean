import Discussion.Color
import Discussion.Reference.Key

/-!
# Posts as the server sends them

A post, the snapshot of a thread with which a view opens, and a post that
arrives later over the live connection.
-/

namespace Discussion

/-- A post as the server renders it. -/
structure Post where
  number : PostNumber
  site : SiteNumber
  /-- The post that this one replies to, if any. It need not be in the thread. -/
  parent : Option PostNumber := none
  author : AuthorKey
  /-- The color of the author in this thread. -/
  seed : Color
  /-- The glyph of the author in this thread. -/
  marker : Option String := none
  /-- The rendered comment, which is markup already. -/
  comment : String := ""
  /-- Whether the post is a placeholder for posts left out. -/
  omission : Bool := false
deriving DecidableEq

/-- What a page shows: a whole thread, or the results of a query. -/
inductive PageKind
  | thread
  | query
deriving DecidableEq

/-- A thread as the server renders it on load. -/
structure Snapshot where
  slug : Slug
  locked : Bool := false
  viewMarker : UInt64 := 0
  page : PageKind := .thread
  posts : List Post := []
deriving DecidableEq

/-- A post pushed over the live connection, with the number under which the
host will look it up. -/
structure Arrival where
  number : PostNumber
  post : Post
deriving DecidableEq

end Discussion
