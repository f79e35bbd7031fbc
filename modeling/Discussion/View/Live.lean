import Discussion.View.Fold

/-!
# Live posts

A post that arrives over the live connection is merged into the view as a
whole, or the view stays as it is.
-/

namespace Discussion

/-- Why a live post is dropped. -/
inductive Rejection
  /-- The host would look the post up under another number than its own. -/
  | misplaced (key number : PostNumber)
  | refused (cause : ThreadError)
deriving DecidableEq

/-- The wording of a rejection. -/
def Rejection.message : Rejection → String
  | .misplaced key number => "Fragment keyed " ++ key.digits ++ " renders post " ++ number.digits
  | .refused cause => "Failed to update reply graph: " ++ cause.message

namespace View

/-- The post of an arrival as it enters the thread: a target that is missing,
or the post itself, makes it start a conversation of its own. -/
def settle (v : View) (p : Post) : Post :=
  match p.parent with
  | none => p
  | some parent =>
    if parent = p.number ∨ v.thread.contains parent = false then { p with parent := none } else p

/-- Merges a live post. `atBottom` says whether the page was scrolled to its
end just before. -/
def insert (v : View) (a : Arrival) (atBottom : Bool) : Except Rejection (View × List Effect) :=
  if a.post.number ≠ a.number then .error (.misplaced a.number a.post.number)
  else
    match v.thread.push (v.settle a.post) with
    | .error cause => .error (.refused cause)
    | .ok thread =>
      let v := { v with thread := thread.bind a.number, rows := v.rows.insert a.number {} }
      let v := v.decorate a.number
      let hidden := v.hidesArrival a.number
      let settleRow (row : Row) : Row :=
        { row with hidden, mark := { row.mark with kept := v.fold.isSome && !hidden } }
      .ok (v.modifyRow a.number settleRow,
        [.announce (.insertedPost a.number), .badge v.badge] ++
          if atBottom then [.scrollTo .composer] else [])

end View

end Discussion
