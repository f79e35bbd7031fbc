import Discussion.Post
import Discussion.PostMap

/-!
# The reply graph

A thread holds its posts in order of arrival, and two indexes over them: the
position of every post, and the replies that name each post as their parent.
The parent of a reply may be missing, and may arrive after it.

Each entry also keeps the links back to its replies, in the order in which they
were bound.
-/

namespace Discussion

/-- A post in its thread, with the replies linked back into it. -/
structure Entry where
  post : Post
  links : List PostNumber := []
deriving DecidableEq

/-- Adds the link back to a reply, once. -/
def Entry.link (e : Entry) (reply : PostNumber) : Entry :=
  if reply ∈ e.links then e else { e with links := e.links ++ [reply] }

/-- The posts of one view of a thread. -/
structure Thread where
  slug : Slug
  locked : Bool := false
  viewMarker : UInt64 := 0
  /-- The posts in order of arrival. -/
  entries : List Entry := []
  /-- Where each post stands among the entries. -/
  positions : PostMap Nat := {}
  /-- The posts that name a post as their parent, in order of arrival. -/
  replies : PostMap (List PostNumber) := {}
deriving DecidableEq

/-- Why a thread refuses a post. -/
inductive ThreadError
  /-- A post with this number is there already. -/
  | duplicate (number : PostNumber)
deriving DecidableEq

/-- The wording of a refusal. -/
def ThreadError.message : ThreadError → String
  | .duplicate n => "Post " ++ n.digits ++ " is already in the thread"

namespace Thread

/-- The numbers of the posts, in order of arrival. -/
def numbers (t : Thread) : List PostNumber := t.entries.map (·.post.number)

/-- The key that ties a reader's identity to this load of the thread. -/
def identityScope (t : Thread) : String := t.slug.identityScope t.viewMarker

/-- Whether a post is in the thread. -/
def contains (t : Thread) (n : PostNumber) : Bool := t.positions.contains n

/-- The entry of a post. -/
def get? (t : Thread) (n : PostNumber) : Option Entry := do
  let i ← t.positions.get? n
  t.entries[i]?

/-- All posts that name `n` as their parent. -/
def repliesTo (t : Thread) (n : PostNumber) : List PostNumber := (t.replies.get? n).getD []

/-- Adds a post at the end. -/
def push (t : Thread) (p : Post) : Except ThreadError Thread :=
  if t.contains p.number then .error (.duplicate p.number)
  else .ok { t with
    entries := t.entries ++ [{ post := p }]
    positions := t.positions.insert p.number t.entries.length
    replies := match p.parent with
      | none => t.replies
      | some parent => t.replies.insert parent (t.repliesTo parent ++ [p.number]) }

/-- The post that `n` replies to, if it is in the thread. A post that replies
to itself has no target. -/
def target? (t : Thread) (n : PostNumber) : Option PostNumber := do
  let entry ← t.get? n
  let parent ← entry.post.parent
  if parent ≠ n ∧ t.contains parent then some parent else none

/-- Links `reply` back into its target. Nothing happens to a reply without a
target, or when the link is there already. -/
def bind (t : Thread) (reply : PostNumber) : Thread :=
  match t.target? reply with
  | none => t
  | some target =>
    match t.positions.get? target with
    | none => t
    | some i => { t with entries := t.entries.modify i (·.link reply) }

/-- Adds posts one after the other. -/
def pushAll (t : Thread) : List Post → Except ThreadError Thread
  | [] => .ok t
  | p :: rest => t.push p >>= fun t => t.pushAll rest

/-- The thread of a snapshot. All posts are added first and their links bound
afterwards, so that a reply may come before the post it replies to. -/
def ofSnapshot (s : Snapshot) : Except ThreadError Thread := do
  let start : Thread := { slug := s.slug, locked := s.locked, viewMarker := s.viewMarker }
  let t ← start.pushAll s.posts
  pure (t.numbers.foldl bind t)

/-- The posts of one author, in order of arrival. -/
def byAuthor (t : Thread) (author : AuthorKey) : List PostNumber :=
  (t.entries.filter (·.post.author = author)).map (·.post.number)

/-- The links back from the replies to a post. -/
def linksOf (t : Thread) (n : PostNumber) : List PostNumber :=
  ((t.get? n).map (·.links)).getD []

end Thread

end Discussion
