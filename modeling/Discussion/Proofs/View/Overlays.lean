import Discussion.Proofs.View.Repinning

/-!
# What lies over a view

A fold hides rows and marks them, a hint lies over a single row, and the reader is a
name under which the badge is looked up. A view can be stripped of the fold, or of all
three. No other operation reads what is stripped off: it does to a stripped view what
it does to the whole view, and asks the same of the host, up to the badge.
-/

namespace Discussion

/-- An effect without the badge that it shows. -/
def Effect.withoutBadge : Effect → Effect
  | .badge _ => .badge none
  | e => e

namespace Command

/-- The command of the fold control. -/
def isFold : Command → Bool
  | .toggleFold _ => true
  | _ => false

/-- The commands that fold, show and hide hints, or name the reader. -/
def isOverlay : Command → Bool
  | .toggleFold _ | .showHint _ _ | .hideHint _ | .setIdentity _ => true
  | _ => false

/-- The commands whose work is stripped off. -/
def isStripped (wide : Bool) (c : Command) : Bool := if wide then c.isOverlay else c.isFold

end Command

namespace PostMap

variable {α : Type}

theorem contains_map (m : PostMap α) (f : PostNumber → α → α) (n : PostNumber) :
    (m.map f).contains n = m.contains n := by
  rw [contains, contains, get?_map, Option.isSome_map]

theorem map_insert (m : PostMap α) (n : PostNumber) (a : α) (f : PostNumber → α → α) :
    (m.insert n a).map f = (m.map f).insert n (f n a) := by
  rw [insert, insert, contains_map]
  split
  · rw [modify, modify, map_map, map_map]
    congr 1
    funext k b
    by_cases hk : k = n
    · simp [hk]
    · simp [hk]
  · simp [map]

end PostMap

namespace Highlight

/-- The highlight under another hint. -/
def withHint (h : Highlight) (hint : Option Hint) : Highlight := { h with hint }

/-- The change of a highlight has nothing to do with the hint. -/
def HintFree (f : Highlight → Highlight) : Prop :=
  ∀ h hint, f (h.withHint hint) = (f h).withHint hint

theorem hintFree_mapParts (f : Part → Layers → Layers) : HintFree (·.mapParts f) :=
  fun _ _ => rfl

theorem HintFree.hint_eq {f : Highlight → Highlight} (hf : HintFree f) (h : Highlight) :
    (f h).hint = h.hint := by
  have hself : f h = (f h).withHint h.hint := hf h h.hint
  rw [hself]
  rfl

end Highlight

namespace Row

open Highlight (HintFree)

/-- The row without what a fold leaves on it; if `wide`, also without its hint. -/
def strip (wide : Bool) (row : Row) : Row :=
  { row with
    mark := {}
    hidden := false
    highlight := row.highlight.withHint (if wide then none else row.highlight.hint) }

variable {f : Highlight → Highlight} {wide : Bool}

theorem strip_mapHighlight (hf : HintFree f) (row : Row) :
    (row.mapHighlight f).strip wide = (row.strip wide).mapHighlight f := by
  rw [strip, mapHighlight, hf.hint_eq, ← hf]
  rfl

theorem strip_mapBound (hf : HintFree f) (row : Row) :
    (row.mapBound f).strip wide = (row.strip wide).mapBound f := by
  rw [mapBound, mapBound, show (row.strip wide).bound = row.bound from rfl]
  split
  · exact strip_mapHighlight hf row
  · rfl

theorem strip_empty (wide : Bool) : ({} : Row).strip wide = {} := by
  cases wide <;> rfl

end Row

namespace View

open Highlight (HintFree hintFree_mapParts)

/-- The view without its fold; if `wide`, also without its hints and its reader. -/
def strip (wide : Bool) (v : View) : View :=
  { v.mapRows (fun _ => Row.strip wide) with
    fold := none
    identity := if wide then none else v.identity }

variable {wide : Bool} {c : Command}

/-! ## What is left -/

theorem row?_strip (v : View) (n : PostNumber) :
    (v.strip wide).row? n = (v.row? n).map (·.strip wide) :=
  row?_mapRows v _ n

theorem sameColors_strip (v : View) : v.SameColors (v.strip wide) := by
  have hrows : v.SameColors (v.mapRows fun _ => Row.strip wide) :=
    .of_mapRows fun n row => ⟨rfl, rfl, Highlight.sameBase_hint row.highlight _⟩
  exact ⟨hrows.thread, hrows.settings, hrows.wheel, hrows.rows⟩

theorem strip_mapRows {f : PostNumber → Row → Row}
    (hf : ∀ n row, (f n row).strip wide = f n (row.strip wide)) (v : View) :
    (v.mapRows f).strip wide = (v.strip wide).mapRows f := by
  simp only [strip, mapRows, PostMap.map_map, hf]

theorem strip_modifyRow {f : Row → Row} (hf : ∀ row, (f row).strip wide = f (row.strip wide))
    (v : View) (n : PostNumber) :
    (v.modifyRow n f).strip wide = (v.strip wide).modifyRow n f := by
  apply strip_mapRows (f := fun k row => if k = n then f row else row)
  intro k row
  split
  · exact hf row
  · rfl

/-- A change of rows that is stripped off. -/
theorem strip_mapRows_eq_self {f : PostNumber → Row → Row}
    (hf : ∀ n row, (f n row).strip wide = row.strip wide) (v : View) :
    (v.mapRows f).strip wide = v.strip wide := by
  simp only [strip, mapRows, PostMap.map_map, hf]

theorem strip_modifyRow_eq_self {f : Row → Row} (hf : ∀ row, (f row).strip wide = row.strip wide)
    (v : View) (n : PostNumber) : (v.modifyRow n f).strip wide = v.strip wide := by
  apply strip_mapRows_eq_self (f := fun k row => if k = n then f row else row)
  intro k row
  split
  · exact hf row
  · rfl

/-! ## Hovering and clicking -/

theorem strip_paint (v : View) (n : PostNumber) (cues : Cues) :
    (v.paint n cues).strip wide = (v.strip wide).paint n cues :=
  strip_modifyRow (Row.strip_mapBound (hintFree_mapParts _)) v n

theorem strip_paintAll (v : View) (cues : PostNumber → Cues) :
    (v.paintAll cues).strip wide = (v.strip wide).paintAll cues :=
  strip_mapRows (fun _ => Row.strip_mapBound (hintFree_mapParts _)) v

theorem strip_hoverHeader (v : View) (n : PostNumber) :
    (v.hoverHeader n).strip wide = (v.strip wide).hoverHeader n := by
  rw [hoverHeader, hoverHeader, show (v.strip wide).authorColor? n = v.authorColor? n from rfl,
    (sameColors_strip v).isBound]
  split
  · rfl
  · split
    · exact strip_paint v n _
    · rfl

theorem strip_hoverNumber (v : View) (n : PostNumber) :
    (v.hoverNumber n).strip wide = (v.strip wide).hoverNumber n := by
  rw [hoverNumber, hoverNumber, (sameColors_strip v).linkColor?, (sameColors_strip v).isBound]
  split
  · rfl
  · split
    · exact strip_paintAll v _
    · rfl

theorem strip_hoverTarget (v : View) (n : PostNumber) :
    (v.hoverTarget n).strip wide = (v.strip wide).hoverTarget n := by
  rw [hoverTarget, hoverTarget, (sameColors_strip v).linkedTarget?]
  split
  · rfl
  · dsimp only
    rw [(sameColors_strip v).linkColor?]
    split
    · rfl
    · exact strip_paintAll v _

theorem strip_hoverLink (v : View) (n reply : PostNumber) :
    (v.hoverLink n reply).strip wide = (v.strip wide).hoverLink n reply := by
  rw [hoverLink, hoverLink, (sameColors_strip v).linkedReply?]
  split
  · rfl
  · exact strip_paintAll v _

theorem strip_leaveLink (v : View) : v.leaveLink.strip wide = (v.strip wide).leaveLink := by
  apply strip_mapRows
  exact fun _ => Row.strip_mapHighlight fun _ _ => rfl

theorem strip_restoreAll (v : View) : v.restoreAll.strip wide = (v.strip wide).restoreAll := by
  apply strip_mapRows
  exact fun _ => Row.strip_mapHighlight fun _ _ => rfl

theorem strip_pin (v : View) (n : PostNumber) (parts : List Part) :
    (v.pin n parts).strip wide = (v.strip wide).pin n parts :=
  strip_modifyRow (Row.strip_mapBound (hintFree_mapParts _)) v n

theorem strip_clickHeader (v : View) (n : PostNumber) :
    (v.clickHeader n).strip wide = (v.strip wide).clickHeader n := by
  rw [clickHeader, clickHeader, row?_strip, show (v.strip wide).thread = v.thread from rfl]
  cases v.thread.get? n with
  | none => rfl
  | some e =>
    cases v.row? n with
    | none => rfl
    | some row =>
      rw [Option.map_some]
      dsimp only
      rw [show (row.strip wide).bound = row.bound from rfl]
      split
      · apply strip_mapRows
        intro k other
        split
        · apply Row.strip_mapBound
          intro h hint
          split <;> rfl
        · rfl
      · rfl

theorem strip_clickTarget (v : View) (n : PostNumber) :
    (v.strip wide).clickTarget n = ((v.clickTarget n).1.strip wide, (v.clickTarget n).2) := by
  rw [clickTarget, clickTarget, (sameColors_strip v).linkedTarget?]
  split
  · rfl
  · dsimp only
    rw [strip_pin, strip_hoverTarget, strip_restoreAll]

theorem strip_clickLink (v : View) (n reply : PostNumber) :
    (v.strip wide).clickLink n reply =
      ((v.clickLink n reply).1.strip wide, (v.clickLink n reply).2) := by
  rw [clickLink, clickLink, (sameColors_strip v).linkedReply?]
  split
  · rfl
  · dsimp only
    rw [strip_pin, strip_hoverLink, strip_restoreAll]

theorem strip_quote (v : View) (n : PostNumber) :
    (v.strip wide).quote n = ((v.quote n).1.strip wide, (v.quote n).2) := by
  rw [quote, quote, (sameColors_strip v).isBound]
  split
  · dsimp only
    rw [strip_pin, strip_paint, strip_restoreAll, (sameColors_restoreAll _).linkColor?,
      (sameColors_restoreAll _).linkColor?, (sameColors_strip v).linkColor?]
    rfl
  · rfl

/-! ## Hints -/

theorem strip_showHint (v : View) (n : PostNumber) (hint : Hint) :
    (v.showHint n hint).strip false = (v.strip false).showHint n hint := by
  apply strip_modifyRow
  intro row
  rw [Row.mapBound, Row.mapBound, show (row.strip false).bound = row.bound from rfl]
  split <;> rfl

theorem strip_hideHint (v : View) (n : PostNumber) :
    (v.hideHint n).strip false = (v.strip false).hideHint n := by
  apply strip_modifyRow
  exact fun _ => rfl

/-! ## Live posts -/

theorem strip_handOut (v : View) (n : PostNumber) :
    (v.handOut n).strip wide = (v.strip wide).handOut n := by
  have hrows : (v.modifyRow n (·.tint v.wheel.next)).strip wide =
      (v.strip wide).modifyRow n (·.tint v.wheel.next) := by
    apply strip_modifyRow
    exact fun _ => rfl
  exact congrArg (fun w : View => { w with wheel := v.wheel.advance }) hrows

theorem strip_requestColor (v : View) (n : PostNumber) :
    (v.strip wide).requestColor n =
      ((v.requestColor n).1.strip wide, (v.requestColor n).2) := by
  have hlink : (v.strip wide).linkColor? n = v.linkColor? n := (sameColors_strip v).linkColor? n
  cases hn : v.thread.contains n with
  | false =>
    have hn' : (v.strip wide).thread.contains n = false := hn
    rw [requestColor_of_not_contains hn, requestColor_of_not_contains hn']
  | true =>
    have hn' : (v.strip wide).thread.contains n = true := hn
    cases hc : v.linkColor? n with
    | none =>
      rw [requestColor_of_none hn hc, requestColor_of_none hn' (hlink.trans hc), strip_handOut]
      rfl
    | some color =>
      rw [requestColor_of_linkColor? hn hc, requestColor_of_linkColor? hn' (hlink.trans hc)]

theorem strip_decorate (v : View) (n : PostNumber) :
    (v.decorate n).strip wide = (v.strip wide).decorate n := by
  have hbound : (v.modifyRow n fun row => { row with bound := true }).strip wide =
      (v.strip wide).modifyRow n fun row => { row with bound := true } := by
    apply strip_modifyRow
    exact fun _ => rfl
  rw [decorate, decorate, (sameColors_strip v).isBound,
    show (v.strip wide).thread = v.thread from rfl]
  cases v.thread.get? n with
  | none => rfl
  | some e =>
    dsimp only
    split
    · rfl
    · rw [← hbound,
        show ((v.modifyRow n _).strip wide).thread.target? n = v.thread.target? n from rfl,
        show (v.modifyRow n _).thread.target? n = v.thread.target? n from rfl]
      cases v.thread.target? n with
      | none => rfl
      | some m =>
        dsimp only
        rw [strip_requestColor]
        split
        · rename_i heq
          rw [heq]
        · rename_i w color heq
          rw [heq]
          apply strip_modifyRow
          exact Row.strip_mapHighlight fun _ _ => rfl

/-- A change of one row that makes no difference to a stripped view. -/
theorem modifyRow_strip_eq_self {f : Row → Row}
    (hf : ∀ row : Row, f (row.strip wide) = row.strip wide) (v : View) (n : PostNumber) :
    (v.strip wide).modifyRow n f = v.strip wide := by
  have hrow : ∀ k (row : Row), (if k = n then f (row.strip wide) else row.strip wide) =
      row.strip wide := by
    intro k row
    split
    · exact hf row
    · rfl
  simp only [strip, modifyRow, PostMap.modify, mapRows, PostMap.map_map, hrow]

theorem strip_seat (v : View) (p : Post) : (v.seat p).strip wide = (v.strip wide).seat p := by
  rw [seat, seat, strip_decorate]
  simp only [strip, mapRows, PostMap.map_insert, Row.strip_empty]
  rfl

/-- Without a fold, a live post is neither hidden nor marked. -/
theorem strip_merge (v : View) (p : Post) : (v.merge p).strip wide = (v.strip wide).merge p := by
  have hhidden : ((v.strip wide).seat p).hidesArrival p.number = false := by
    rw [hidesArrival_eq, (sameLayout_seat (v.strip wide) p).fold]
    rfl
  have hmerge : (v.merge p).strip wide = (v.seat p).strip wide := by
    apply strip_modifyRow_eq_self
    exact fun _ => rfl
  rw [hmerge, merge, hhidden, ← strip_seat]
  symm
  apply modifyRow_strip_eq_self
  exact fun _ => rfl

/-! ## Commands -/

/-- The host is asked for the same, up to the badge. -/
theorem strip_perform_insert (v : View) (a : Arrival) (footer : Option Footer) :
    ((v.strip wide).perform (.insert a footer)).view =
      (v.perform (.insert a footer)).view.strip wide ∧
    ((v.strip wide).perform (.insert a footer)).effects.map Effect.withoutBadge =
      (v.perform (.insert a footer)).effects.map Effect.withoutBadge := by
  rw [perform, perform, insert_eq, insert_eq, show (v.strip wide).thread = v.thread from rfl]
  by_cases hnum : a.post.number ≠ a.number
  · rw [if_pos hnum, if_pos hnum]
    exact ⟨rfl, rfl⟩
  · rw [if_neg hnum, if_neg hnum]
    cases v.thread.contains a.number with
    | true => exact ⟨rfl, rfl⟩
    | false => exact ⟨(strip_merge v a.post).symm, rfl⟩

/-- What is not stripped off is done to the stripped view as to the whole one. -/
theorem strip_perform (v : View) (hc : c.isStripped wide = false) :
    ((v.strip wide).perform c).view = (v.perform c).view.strip wide ∧
    ((v.strip wide).perform c).effects.map Effect.withoutBadge =
      (v.perform c).effects.map Effect.withoutBadge := by
  cases c with
  | hoverHeader n => exact ⟨(strip_hoverHeader v n).symm, rfl⟩
  | leaveHeader n => exact ⟨(strip_paint v n _).symm, rfl⟩
  | clickHeader n => exact ⟨(strip_clickHeader v n).symm, rfl⟩
  | hoverNumber n => exact ⟨(strip_hoverNumber v n).symm, rfl⟩
  | quote n => simp [perform, respond, strip_quote]
  | hoverTarget n => exact ⟨(strip_hoverTarget v n).symm, rfl⟩
  | clickTarget n => simp [perform, respond, strip_clickTarget]
  | hoverLink n reply => exact ⟨(strip_hoverLink v n reply).symm, rfl⟩
  | clickLink n reply => simp [perform, respond, strip_clickLink]
  | leaveLink => exact ⟨(strip_leaveLink v).symm, rfl⟩
  | insert a footer => exact strip_perform_insert v a footer
  | toggleFold n => cases wide <;> cases hc
  | showHint n hint =>
    cases wide with
    | true => cases hc
    | false => exact ⟨(strip_showHint v n hint).symm, rfl⟩
  | hideHint n =>
    cases wide with
    | true => cases hc
    | false => exact ⟨(strip_hideHint v n).symm, rfl⟩
  | setIdentity i =>
    cases wide with
    | true => cases hc
    | false => exact ⟨rfl, rfl⟩

theorem strip_dispatch (v : View) (hc : c.isStripped wide = false) :
    ((v.strip wide).dispatch c).view = (v.dispatch c).view.strip wide ∧
    ((v.strip wide).dispatch c).effects.map Effect.withoutBadge =
      (v.dispatch c).effects.map Effect.withoutBadge := by
  rw [dispatch, dispatch, show (v.strip wide).thread = v.thread from rfl]
  split
  · exact strip_perform v hc
  · split
    · exact strip_perform v hc
    · exact ⟨rfl, rfl⟩

theorem strip_toggleFold (v : View) (n : PostNumber) :
    (v.toggleFold n).1.strip wide = v.strip wide := by
  obtain ⟨f, fold, hf, heq⟩ := toggleFold_eq_mapRows v n
  have hrows : (v.mapRows f).strip wide = v.strip wide := by
    apply strip_mapRows_eq_self
    intro k row
    obtain ⟨mark, hidden, hrow⟩ := hf k row
    rw [hrow]
    rfl
  rw [heq]
  exact hrows

/-- Fold controls, hints and the reader change only what is stripped off. -/
theorem strip_dispatch_eq_self (v : View) (hc : c.isStripped wide = true) :
    (v.dispatch c).view.strip wide = v.strip wide := by
  rcases dispatch_eq_perform_or_ignored v c with heq | heq
  · rw [heq]
    cases c with
    | toggleFold n => exact strip_toggleFold v n
    | showHint n hint =>
      cases wide with
      | true =>
        apply strip_modifyRow_eq_self
        intro row
        rw [Row.mapBound]
        split <;> rfl
      | false => cases hc
    | hideHint n =>
      cases wide with
      | true =>
        apply strip_modifyRow_eq_self
        exact fun _ => rfl
      | false => cases hc
    | setIdentity i =>
      cases wide with
      | true => rfl
      | false => cases hc
    | _ => cases wide <;> cases hc
  · rw [heq]

end View

end Discussion
