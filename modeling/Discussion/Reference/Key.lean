import Discussion.Reference.Number
import Discussion.Text.Basic

/-!
# Thread slugs and author keys

A slug names a thread in page addresses. An author key marks the posts that one
author wrote within one view of a thread.
-/

namespace Discussion

/-- Whether `c` may stand in a slug. -/
def isSlugChar (c : Char) : Bool :=
  c.isAlphanum || c == '_' || c == '-'

/-- Whether a text has the form of a slug. -/
def isSlug (text : String) : Bool :=
  !text.toList.isEmpty && text.toList.all isSlugChar

/-- The name of a thread in page addresses: letters, digits, `_` and `-`. -/
structure Slug where
  text : String
  valid : isSlug text = true
deriving DecidableEq

namespace Slug

/-- Reads a slug; nothing is trimmed. -/
def parse (text : String) : Except ReferenceError Slug :=
  if h : isSlug text = true then .ok ⟨text, h⟩ else .error (.malformed .thread text)

/-- The address of a thread's page. -/
def address (slug : Slug) : String := "/t/" ++ Text.percentEncode slug.text

/-- The key that ties a reader's identity to one load of a thread, which the
server marks with a number of its own. -/
def identityScope (slug : Slug) (viewMarker : UInt64) : String :=
  "thread_" ++ slug.text ++ "_" ++ toString viewMarker.toNat

/-- The address of one post on its thread's page. -/
def postAddress (slug : Slug) (n : PostNumber) : String :=
  slug.address ++ n.anchor

end Slug

/-- Whether a text has the form of an author key. -/
def isAuthorKey (text : String) : Bool :=
  !text.toList.isEmpty && text.toList.all (!Text.isBlank ·)

/-- The mark of an author within one view: any text without blanks. -/
structure AuthorKey where
  text : String
  valid : isAuthorKey text = true
deriving DecidableEq

namespace AuthorKey

/-- Reads an author key; nothing is trimmed. -/
def parse (text : String) : Except ReferenceError AuthorKey :=
  if h : isAuthorKey text = true then .ok ⟨text, h⟩ else .error (.malformed .author text)

end AuthorKey

end Discussion
