import Discussion.View.Basic
import Discussion.Reference.Query

/-!
# Folds

A fold leaves only the conversation around one post, its pivot, and hides every
other row. Only the page of a whole thread can be folded.
-/

namespace Discussion.View

/-- Shows every row and clears the marks of the fold. -/
def unfold (v : View) : View :=
  { v.mapRows fun _ row => { row with hidden := false, mark := {} } with fold := none }

/-- Folds around a post of the thread, whatever the fold was before. -/
def foldAround (v : View) (pivot : PostNumber) : View × List Effect :=
  if v.thread.contains pivot then
    let kept := v.thread.conversation pivot
    let mark (n : PostNumber) (row : Row) : Row :=
      { row with mark := ⟨n ∈ kept, n = pivot⟩, hidden := n ∉ kept }
    ({ v.mapRows mark with fold := some pivot }, [.scrollTo (.post pivot)])
  else (v, [])

/-- Folds around a post, on the page of a whole thread. -/
def foldOn (v : View) (pivot : PostNumber) : View × List Effect :=
  match v.page with
  | .thread => v.foldAround pivot
  | .query => (v, [])

/-- Works the fold control of a post: on the pivot it unfolds, on any other
post it folds anew. -/
def toggleFold (v : View) (n : PostNumber) : View × List Effect :=
  match v.page with
  | .thread => if v.fold = some n then (v.unfold, []) else v.unfold.foldAround n
  | .query => (v, [])

/-- Folds on the post that a query string asks for. -/
def foldFromQuery (v : View) (query : String) : View × List Effect :=
  match Query.pivot? query with
  | none => (v, [])
  | some pivot => v.foldOn pivot

/-- Whether the fold hides a post that has just arrived: a post stays visible
only if it replies to a post that the fold keeps. -/
def hidesArrival (v : View) (n : PostNumber) : Bool :=
  match v.fold with
  | none => false
  | some _ =>
    match (v.thread.target? n).bind v.row? with
    | none => true
    | some row => row.hidden || !row.mark.kept

end Discussion.View
