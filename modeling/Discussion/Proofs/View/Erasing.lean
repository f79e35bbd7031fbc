import Discussion.Proofs.View.Calm
import Discussion.Proofs.View.Lit
import Discussion.Proofs.View.Repinning

/-!
# Quotes and links erase the highlights

A quote and a click on a link leave one row with pinned paint, and nothing of what
was pinned, hovered or selected before. So what they leave does not depend on how
the pointer came there.
-/

namespace Discussion

/-- The commands of the pointer: hovers, clicks and hints. -/
def Command.isPointer : Command → Bool
  | .toggleFold _ | .insert _ _ | .setIdentity _ => false
  | _ => true

namespace View

variable {v w : View} {n m : PostNumber} {c : Color} {row : Row}

/-! ## The pointer -/

theorem identity_of_mapRows {f : PostNumber → Row → Row} (h : w = v.mapRows f) :
    w.identity = v.identity := by
  rw [h]
  rfl

theorem identity_keptOrRepinned (h : v.KeptOrRepinned w) : w.identity = v.identity := by
  rcases h with rfl | ⟨m, cues, rfl⟩
  · rfl
  · exact identity_of_mapRows (repin_eq_mapRows v m cues)

/-- The pointer does not change who the reader is. -/
theorem identity_perform {a : Command} (ha : a.isPointer = true) :
    (v.perform a).view.identity = v.identity := by
  cases hhover : a.isHover with
  | true =>
    obtain ⟨f, -, heq⟩ := (hovered_perform (v := v) hhover).1
    exact identity_of_mapRows heq
  | false =>
    cases a with
    | clickHeader n =>
      rcases clickHeader_cases v n with heq | ⟨e, change, -, -, heq⟩
      · rw [perform, heq]
      · exact identity_of_mapRows heq
    | quote n => exact identity_keptOrRepinned (keptOrRepinned_quote v n)
    | clickTarget n => exact identity_keptOrRepinned (keptOrRepinned_clickTarget v n)
    | clickLink n reply => exact identity_keptOrRepinned (keptOrRepinned_clickLink v n reply)
    | showHint n hint | hideHint n => rfl
    | toggleFold n | insert a footer | setIdentity identity => cases ha
    | hoverHeader n | leaveHeader n | hoverNumber n | hoverTarget n | hoverLink n reply
    | leaveLink => cases hhover

theorem repainted_dispatch {a : Command} (ha : a.isPointer = true) :
    v.Repainted (v.dispatch a).view := by
  rcases dispatch_eq_perform_or_ignored v a with heq | heq
  · rw [heq]
    refine ⟨retouched_perform ?_ ?_, identity_perform ha⟩
    · rintro n rfl
      cases ha
    · rintro b footer rfl
      cases ha
  · rw [heq]
    exact .refl v

theorem repainted_run {cs : List Command} (hcs : ∀ a ∈ cs, a.isPointer = true) :
    v.Repainted (v.run cs).1 := by
  induction cs generalizing v with
  | nil => exact .refl v
  | cons a rest ih =>
    rw [List.forall_mem_cons] at hcs
    rw [run_cons]
    exact (repainted_dispatch hcs.1).trans (ih hcs.2)

/-! ## Erasing -/

/-- After the click `a` no author is selected, and all that is pinned are the number
and the body of `m`, in these paints, if its row is bound. Once the pointer has left,
every other part shows its base. And whatever the pointer does just before, the click
asks the same of the host and leaves the same view, but for the hints. -/
structure Erases (v : View) (a : Command) (m : PostNumber) (number body : Paint) : Prop where
  unselected : ∀ k row, (v.dispatch a).view.row? k = some row →
    row.highlight.authorSelected = false
  pinned : ∀ k row, (v.dispatch a).view.row? k = some row → ∀ p,
    (row.highlight.part p).pinned =
      if k = m ∧ row.bound = true then
        match p with
        | .number => some number
        | .body => some body
        | _ => none
      else none
  rests : ∀ k row, ((v.dispatch a).view.dispatch .leaveLink).view.row? k = some row → ∀ p,
    ¬ (k = m ∧ row.bound = true ∧ p ∈ postParts) →
      (row.highlight.part p).visible = (row.highlight.part p).base
  forgets : ∀ cs, (∀ b ∈ cs, b.isPointer = true) →
    ((v.run cs).1.dispatch a).effects = (v.dispatch a).effects ∧
    ((v.run cs).1.dispatch a).view.withoutHints = (v.dispatch a).view.withoutHints

/-- A click erases if it pins the view anew, with the same cues and effects after
every repaint. -/
theorem erases_of_repin {a : Command} (cues : PostNumber → Cues) (effects : List Effect)
    {number body : Paint}
    (hclick : ∀ w, v.Repainted w → w.dispatch a = { view := w.repin m cues, effects })
    (hnumber : ∀ row, v.row? m = some row → row.bound = true →
      row.highlight.number.shown v.palette (cues m .number) = number)
    (hbody : ∀ row, v.row? m = some row → row.bound = true →
      row.highlight.body.shown v.palette (cues m .body) = body) :
    v.Erases a m number body := by
  have hself : v.dispatch a = { view := v.repin m cues, effects } := hclick v (.refl v)
  have hview : (v.dispatch a).view = v.repin m cues := by rw [hself]
  have hpinned : ∀ k row, (v.dispatch a).view.row? k = some row → ∀ p,
      (row.highlight.part p).pinned =
        if k = m ∧ row.bound = true then
          match p with
          | .number => some number
          | .body => some body
          | _ => none
        else none := by
    intro k row hrow p
    rw [hview] at hrow
    split
    · rename_i hmine
      obtain ⟨rfl, hbound⟩ := hmine
      obtain ⟨old, hold, rfl⟩ := exists_row_of_repin hrow
      rw [Row.bound_repin] at hbound
      have hparts := Row.pinned_repin_postParts hbound v.palette (cues k) p
      rw [hnumber old hold hbound, hbody old hold hbound] at hparts
      rw [if_pos rfl]
      exact hparts.trans (by cases p <;> rfl)
    · rename_i hother
      exact pinned_of_repin hrow hother p
  refine ⟨?_, hpinned, ?_, ?_⟩
  · intro k row hrow
    rw [hview] at hrow
    obtain ⟨old, -, rfl⟩ := exists_row_of_repin hrow
    exact Row.authorSelected_repin _ _ _ _
  · intro k row hleft p hother
    obtain ⟨struck, hstruck, hbound, hparts⟩ := exists_row_of_leaveLink hleft
    obtain ⟨hkept, -, hvisible⟩ := hparts p
    have hfree : (row.highlight.part p).pinned = none := by
      rw [hkept, hpinned k struck hstruck p, ← hbound]
      split
      · rename_i hmine
        cases p with
        | header | target => rfl
        | number | body => exact absurd ⟨hmine.1, hmine.2, by decide⟩ hother
      · rfl
    rw [hvisible, hfree]
    rfl
  · -- the click sees only what is left of the view when it is wiped
    intro cs hcs
    have hrun : v.Repainted (v.run cs).1 := repainted_run hcs
    rw [hclick _ hrun, hself]
    refine ⟨rfl, ?_⟩
    rw [withoutHints_repin, withoutHints_repin, hrun.wipe_eq]

/-- The color of the body of a quoted post: its own color moved by the palette's offsets, or the
palette's color for quotes. -/
def QuoteColor (palette : Palette) : Option Color → Color → Prop
  | none, d => d = palette.quote
  | some c, d => palette.darkShift.Moves c d

theorem erases_quote (hv : v.Aligned) (hrow : v.row? n = some row) (hbound : row.bound = true) :
    v.Erases (.quote n) n (row.highlight.number.accent.elim .plain .filled)
      (.filled (row.linkColor.elim v.palette.quote v.palette.dark)) := by
  have hn : v.thread.contains n = true := hv.indexed.contains_iff.mpr (hv.mem_of_row? hrow)
  apply erases_of_repin (v.quotedCues n)
    (if v.thread.locked then [] else [.compose n, .scrollTo .composer])
  · intro w hw
    have hsame := hw.1.sameColors
    have hwbound : w.isBound n = true := by rw [hsame.isBound, isBound_of_row? hrow, hbound]
    have hcues : w.quotedCues n = v.quotedCues n := by
      funext k
      rw [quotedCues, quotedCues, hsame.linkColor?, palette, palette, hsame.settings]
    rw [dispatch_eq_perform, perform, quote_eq hwbound, hcues, hsame.thread]
    · rfl
    · rintro k ⟨rfl⟩
      rwa [hsame.thread]
  · intro row' hrow' _
    obtain rfl : row' = row := Option.some.inj (hrow'.symm.trans hrow)
    rw [quotedCues, if_pos rfl]
    cases h : row'.highlight.number.accent <;> simp [Layers.shown, Layers.hoverPaint, quoteCues, h]
  · intro row' hrow' _
    obtain rfl : row' = row := Option.some.inj (hrow'.symm.trans hrow)
    rw [quotedCues, if_pos rfl, linkColor?_of_row? hrow]
    cases row'.linkColor <;> rfl

theorem erases_clickTarget (hv : v.Aligned) (hlit : v.Lit) (hrow : v.row? n = some row)
    (haccent : row.highlight.target.accent ≠ none) :
    ∃ m c, v.thread.target? n = some m ∧ v.linkColor? m = some c ∧
      v.Erases (.clickTarget n) m (.filled c) (.filled (v.palette.dark c)) := by
  obtain ⟨hbound, m, hm, hc⟩ := (hlit n row hrow).leads haccent
  obtain ⟨c, hc⟩ := Option.ne_none_iff_exists'.mp hc
  have hn : v.thread.contains n = true := hv.indexed.contains_iff.mpr (hv.mem_of_row? hrow)
  have hlinked := linkedTarget?_eq_some_iff.mpr ⟨row, hrow, hbound, haccent, hm⟩
  refine ⟨m, c, hm, hc, erases_of_repin (v.targetedCues m c) [.scrollTo (.post m)]
    ?_ ?_ ?_⟩
  · intro w hw
    have hsame := hw.1.sameColors
    have hcues : w.targetedCues m c = v.targetedCues m c := by
      funext k
      rw [targetedCues, targetedCues, hsame.thread]
    rw [dispatch_eq_perform, perform,
      clickTarget_eq ((hsame.linkedTarget? n).trans hlinked) ((hsame.linkColor? m).trans hc), hcues]
    · rfl
    · rintro k ⟨rfl⟩
      rwa [hsame.thread]
  · intro row' hrow' _
    have hnumber : row'.highlight.number.accent = some c := by
      rw [(hlit m row' hrow').coherent.number, ← linkColor?_of_row? hrow', hc]
    rw [targetedCues, if_pos rfl]
    simp [Layers.shown, Layers.hoverPaint, referredCues, hnumber]
  · intro row' _ _
    rw [targetedCues, if_pos rfl]
    rfl

theorem erases_clickLink (hv : v.Aligned) {reply : PostNumber}
    (hlink : reply ∈ v.thread.linksOf n) (hc : v.linkColor? n = some c) :
    v.Erases (.clickLink n reply) reply .plain (.filled (v.palette.dark c)) := by
  obtain ⟨row, hrow, -⟩ := Option.bind_eq_some_iff.mp hc
  have hn : v.thread.contains n = true := hv.indexed.contains_iff.mpr (hv.mem_of_row? hrow)
  have hlinked := linkedReply?_eq_some_iff.mpr ⟨hlink, hc⟩
  apply erases_of_repin (linkedCues n reply c) [.scrollTo (.post reply)]
  · intro w hw
    have hsame := hw.1.sameColors
    rw [dispatch_eq_perform, perform, clickLink_eq ((hsame.linkedReply? n reply).trans hlinked)]
    · rfl
    · rintro k ⟨rfl⟩
      rwa [hsame.thread]
  · intro row' _ _
    rw [linkedCues, if_pos rfl]
    rfl
  · intro row' _ _
    rw [linkedCues, if_pos rfl]
    rfl

/-- A quote of a bound post erases the highlights but for its own row; a click on a
colored link erases them but for the row of the post that the link leads to; and a
click on a link back to a reply, in a post with a color, but for the row of the
reply. The body of the row that is left has the color at the end of the link moved by
the palette's offsets. -/
theorem Reachable.clicks_erase (h : Reachable v) :
    (∀ n row, v.row? n = some row → row.bound = true →
      ∃ dark, QuoteColor v.palette row.linkColor dark ∧
        v.Erases (.quote n) n (row.highlight.number.accent.elim .plain .filled)
          (.filled dark)) ∧
    (∀ n row, v.row? n = some row → row.highlight.target.accent ≠ none →
      ∃ m c dark, v.thread.target? n = some m ∧ v.linkColor? m = some c ∧
        v.palette.darkShift.Moves c dark ∧
        v.Erases (.clickTarget n) m (.filled c) (.filled dark)) ∧
    (∀ n reply c, reply ∈ v.thread.linksOf n → v.linkColor? n = some c →
      ∃ dark, v.palette.darkShift.Moves c dark ∧
        v.Erases (.clickLink n reply) reply .plain (.filled dark)) := by
  have hmoves : ∀ c, v.palette.darkShift.Moves c (v.palette.dark c) := fun _ =>
    Palette.moves_dark_iff.mpr rfl
  refine ⟨fun n row hrow hbound => ?_, fun n row hrow haccent => ?_,
    fun n reply c hlink hc => ?_⟩
  · refine ⟨_, ?_, erases_quote h.aligned hrow hbound⟩
    cases row.linkColor with
    | none => rfl
    | some c => exact hmoves c
  · obtain ⟨m, c, hm, hc, herases⟩ := erases_clickTarget h.aligned h.lit hrow haccent
    exact ⟨m, c, _, hm, hc, hmoves c, herases⟩
  · exact ⟨_, hmoves c, erases_clickLink h.aligned hlink hc⟩

section

open Sample

/-- In a view with pinned paint and a selected author, the link of the reply leads
to the first post, and the link back to the reply. A click on either erases the
highlights, whether or not the pointer hovers and clicks before. So does a quote of the
reply, which no link leads to. -/
theorem clicks_erase_quotedReply :
    Reachable quotedReply ∧
    quotedReply.Erases (.clickTarget two) one (.filled ⟨113, 70, 74⟩) (.filled ⟨113, 30, 69⟩) ∧
    quotedReply.Erases (.clickLink one two) two .plain (.filled ⟨113, 30, 69⟩) ∧
    quotedReply.Erases (.quote two) two .plain (.filled ⟨46, 17, 76⟩) ∧
    ((quotedReply.run [.clickHeader two, .quote one, .hoverNumber one]).1.dispatch
      (.clickLink one two)).view.withoutHints =
      (quotedReply.dispatch (.clickLink one two)).view.withoutHints := by
  obtain ⟨hquote, htarget, hlink⟩ := reachable_quotedReply.clicks_erase
  have hcolor : quotedReply.linkColor? one = some ⟨113, 70, 74⟩ := by decide
  have hmoves : ∀ d, quotedReply.palette.darkShift.Moves ⟨113, 70, 74⟩ d → d = ⟨113, 30, 69⟩ :=
    fun d hd => hd.unique ⟨by decide, by decide, by decide⟩
  obtain ⟨row, hrow⟩ := reachable_quotedReply.aligned.exists_row (n := two) (by decide)
  have hrows : (quotedReply.row? two).any (fun row => row.highlight.target.accent.isSome &&
      row.bound && row.highlight.number.accent.isNone && row.linkColor.isNone) = true := by decide
  simp only [hrow, Option.any_some, Bool.and_eq_true, Option.isSome_iff_ne_none,
    Option.isNone_iff_eq_none] at hrows
  obtain ⟨⟨⟨haccent, hbound⟩, hnumber⟩, hbare⟩ := hrows
  obtain ⟨m, c, dark, hm, hc, hdark, herases⟩ := htarget two row hrow haccent
  obtain rfl : one = m := Option.some.inj ((by decide : quotedReply.thread.target? two =
    some one).symm.trans hm)
  obtain rfl : ⟨113, 70, 74⟩ = c := Option.some.inj (hcolor.symm.trans hc)
  obtain rfl := hmoves dark hdark
  obtain ⟨dark, hdark, hback⟩ := hlink one two _ (by decide) hcolor
  obtain rfl := hmoves dark hdark
  obtain ⟨dark, hdark, hquoted⟩ := hquote two row hrow hbound
  rw [hbare] at hdark
  rw [hnumber] at hquoted
  obtain rfl : dark = ⟨46, 17, 76⟩ := hdark
  exact ⟨reachable_quotedReply, herases, hback, hquoted, (hback.forgets _ (by decide)).2⟩

end

end View

end Discussion
