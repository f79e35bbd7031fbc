import Discussion.Text.Basic

/-!
# Post numbers

A post has two numbers: one that is unique within its thread and starts at one,
and one that is unique on the whole site. Both fit in 64 bits, and both are
read from decimal digits with blanks around them.
-/

namespace Discussion

/-! ## Refusals -/

/-- What a text was expected to name. -/
inductive ReferenceKind
  | post
  | site
  | thread
  | author
deriving DecidableEq

/-- The name of a kind of reference in messages. -/
def ReferenceKind.label : ReferenceKind → String
  | .post => "LocalId"
  | .site => "GlobalId"
  | .thread => "Thread"
  | .author => "Identity"

/-- Why a reference is refused. -/
inductive ReferenceError
  /-- The text does not have the form of its kind. -/
  | malformed (kind : ReferenceKind) (text : String)
  /-- The digits stand for a number of more than 64 bits. -/
  | tooLarge
deriving DecidableEq

/-- The wording of a refusal. -/
def ReferenceError.message : ReferenceError → String
  | .malformed kind text => "Does not match as " ++ kind.label ++ ": " ++ text
  | .tooLarge => "Failed to parse number: number too large to fit in target type"

/-! ## Numbers -/

/-- Whether a text consists of digits, of which there is at least one. -/
def isNumeral (cs : List Char) : Bool := !cs.isEmpty && cs.all Char.isDigit

/-- The digits of a numeric reference once blanks are trimmed, if they are all
that remains. -/
def numeral? (text : String) : Option (List Char) :=
  let cs := Text.trimBlanks text.toList
  if isNumeral cs then some cs else none

/-- The number of a post within its thread. Zero is no post number. -/
structure PostNumber where
  value : Nat
  pos : 0 < value
  lt : value < UInt64.size
deriving DecidableEq

namespace PostNumber

theorem ext {a b : PostNumber} (h : a.value = b.value) : a = b := by
  cases a; cases b; simp_all

/-- The post number `n`, unless `n` is zero or too large. -/
def ofNat (n : Nat) : Except ReferenceError PostNumber :=
  if hpos : 0 < n then
    if hlt : n < UInt64.size then .ok ⟨n, hpos, hlt⟩ else .error .tooLarge
  else .error (.malformed .post (toString n))

/-- Reads a post number from its digits. -/
def parse (text : String) : Except ReferenceError PostNumber :=
  match numeral? text with
  | none => .error (.malformed .post text)
  | some digits => ofNat (Nat.ofDigitChars 10 digits 0)

/-- Reads the post that a reply points at. Nothing, `0` and `none` all say that
the post starts a conversation of its own. -/
def parseParent (text : String) : Except ReferenceError (Option PostNumber) :=
  let cs := Text.trimBlanks text.toList
  if cs = [] ∨ cs = ['0'] ∨ cs = ['n', 'o', 'n', 'e'] then .ok none
  else (parse text).map some

/-- The decimal digits of a post number. -/
def digits (n : PostNumber) : String := toString n.value

instance : ToString PostNumber := ⟨digits⟩

/-- The fragment of a page address that leads to a post. -/
def anchor (n : PostNumber) : String := "#" ++ n.digits

theorem ofNat_value (n : PostNumber) : ofNat n.value = .ok n := by
  rw [ofNat, dif_pos n.pos, dif_pos n.lt]

end PostNumber

/-- The number of a post on the whole site. -/
structure SiteNumber where
  value : Nat
  lt : value < UInt64.size
deriving DecidableEq

namespace SiteNumber

/-- The site number `n`, unless `n` is too large. -/
def ofNat (n : Nat) : Except ReferenceError SiteNumber :=
  if h : n < UInt64.size then .ok ⟨n, h⟩ else .error .tooLarge

/-- Reads a site number from its digits. -/
def parse (text : String) : Except ReferenceError SiteNumber :=
  match numeral? text with
  | none => .error (.malformed .site text)
  | some digits => ofNat (Nat.ofDigitChars 10 digits 0)

/-- The decimal digits of a site number. -/
def digits (n : SiteNumber) : String := toString n.value

instance : ToString SiteNumber := ⟨digits⟩

theorem ofNat_value (n : SiteNumber) : ofNat n.value = .ok n := by
  rw [ofNat, dif_pos n.lt]

end SiteNumber

end Discussion
