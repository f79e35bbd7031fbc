import Discussion.Post
import Discussion.Wire.Color
import Discussion.Wire.Variant

/-!
# Posts in data

The server writes most fields of a post under one of two names, and its numbers
as numbers or as strings. A parent or a marker that makes no sense is passed
over, so that it never costs a post.
-/

namespace Discussion.Wire

/-- The fields of a post, as far as they are known. -/
structure PostDraft where
  number : Option PostNumber := none
  site : Option SiteNumber := none
  parent : Option (Option PostNumber) := none
  author : Option AuthorKey := none
  seed : Option Color := none
  marker : Option (Option String) := none
  comment : Option String := none
  omission : Option Bool := none

/-- The field of the parent. -/
def parentField : Field PostDraft :=
  .of "reply_target" (orDefault none parent) (·.parent) (fun n d => { d with parent := some n })
    "target" .lenient

/-- The field of the marker. -/
def markerField : Field PostDraft :=
  .of "marker" (orDefault none (optional text)) (·.marker) (fun m d => { d with marker := some m })
    none .lenient

/-- The record of a post. -/
def postRecord : Record PostDraft Post where
  name := "struct PostAttrs"
  fields := [
    .of "local_id" postNumber (·.number) (fun n d => { d with number := some n }) "post_lid",
    .of "global_id" siteNumber (·.site) (fun n d => { d with site := some n }) "post_gid",
    parentField,
    .of "identity" authorKey (·.author) (fun k d => { d with author := some k }) "user",
    .of "color" color (·.seed) fun c d => { d with seed := some c },
    markerField,
    .of "comment" text (·.comment) fun t d => { d with comment := some t },
    .of "omission" boolean (·.omission) fun b d => { d with omission := some b }]
  blank := {}
  finish _ d := do
    let number ← require "local_id" d.number
    let site ← require "global_id" d.site
    let author ← require "identity" d.author
    let seed ← require "color" d.seed
    pure {
      number, site, author, seed
      parent := d.parent.getD none
      marker := d.marker.getD none
      comment := d.comment.getD ""
      omission := d.omission.getD false }

/-- A post. -/
def post : Decoder Post := postRecord.decode

/-- A post number as data, or null. -/
def ofNumber? : Option PostNumber → Json.Value
  | none => .null
  | some n => .number n.value

/-- A post as data. -/
def ofPost (p : Post) : Json.Value :=
  .object [("local_id", .number p.number.value), ("global_id", .number p.site.value),
    ("reply_target", ofNumber? p.parent), ("identity", .string p.author.text),
    ("color", ofColor p.seed), ("marker", .ofText? p.marker), ("comment", .string p.comment),
    ("omission", .bool p.omission)]

/-- The kinds of pages. -/
def pageKinds : Variants PageKind := [("thread", .thread), ("query", .query)]

/-- The kind of a page. -/
def pageKind : Decoder PageKind := variant pageKinds

/-- The name of a kind of page. -/
def pageName : PageKind → String
  | .thread => "thread"
  | .query => "query"

/-- The fields of a snapshot, as far as they are known. -/
structure SnapshotDraft where
  slug : Option Slug := none
  locked : Option Bool := none
  viewMarker : Option UInt64 := none
  page : Option PageKind := none
  posts : Option (List Post) := none

/-- The record of a snapshot. -/
def snapshotRecord : Record SnapshotDraft Snapshot where
  name := "struct ThreadAttrs"
  fields := [
    .of "thread_id" slug (·.slug) fun t d => { d with slug := some t },
    .of "locked" boolean (·.locked) fun b d => { d with locked := some b },
    .of "view_marker" word64 (·.viewMarker) (fun n d => { d with viewMarker := some n })
      "random_mark",
    .of "page_type" pageKind (·.page) fun k d => { d with page := some k },
    .of "posts" (sequence post) (·.posts) (fun ps d => { d with posts := some ps }) none
      (.parts (fun _ => postRecord.leniency) fun _ => .strict)]
  blank := {}
  finish _ d := do
    let slug ← require "thread_id" d.slug
    pure {
      slug
      locked := d.locked.getD false
      viewMarker := d.viewMarker.getD 0
      page := d.page.getD .thread
      posts := d.posts.getD [] }

/-- The snapshot of a thread. -/
def snapshot : Decoder Snapshot := snapshotRecord.decode

/-- A snapshot as data. -/
def ofSnapshot (s : Snapshot) : Json.Value :=
  .object [("thread_id", .string s.slug.text), ("locked", .bool s.locked),
    ("view_marker", .number s.viewMarker.toNat), ("page_type", .string (pageName s.page)),
    ("posts", .array (s.posts.map ofPost))]

/-- The fields of an arrival, as far as they are known. -/
structure ArrivalDraft where
  number : Option PostNumber := none
  post : Option Post := none

/-- The record of an arrival. -/
def arrivalRecord : Record ArrivalDraft Arrival where
  name := "struct PostFragment"
  fields := [
    .of "id" postNumber (·.number) fun n d => { d with number := some n },
    .of "post" post (·.post) (fun p d => { d with post := some p }) none postRecord.leniency]
  blank := {}
  finish _ d := do
    let number ← require "id" d.number
    let post ← require "post" d.post
    pure { number, post }

/-- A live post. -/
def arrival : Decoder Arrival := arrivalRecord.decode

/-- A live post as data. -/
def ofArrival (a : Arrival) : Json.Value :=
  .object [("id", .number a.number.value), ("post", ofPost a.post)]

end Discussion.Wire
