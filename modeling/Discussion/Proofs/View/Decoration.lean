import Discussion.Proofs.View.Reach

/-!
# Decoration row by row

What handing out a link color and decorating a row do to every row of a view and
to its sequence of colors. A request colors at most the row of the post that it
names. Decoration is a request for the color of the target, after which the row
itself is bound; no other row changes. Apart from requests and merges, no change
touches the colors of a view.
-/

namespace Discussion

namespace PostMap

variable {α : Type}

theorem modify_modify (m : PostMap α) (n : PostNumber) (f g : α → α) :
    (m.modify n f).modify n g = m.modify n fun a => g (f a) := by
  rw [modify, modify, modify, map_map]
  congr 1
  funext k a
  split <;> rfl

theorem modify_comm {n k : PostNumber} (h : n ≠ k) (m : PostMap α) (f g : α → α) :
    (m.modify n f).modify k g = (m.modify k g).modify n f := by
  rw [modify, modify, modify, modify, map_map, map_map]
  congr 1
  funext j a
  by_cases hj : j = n
  · simp [hj, h]
  · simp [hj]

end PostMap

namespace Row

/-- The row of a post once its links have the color `c`. -/
def tint (row : Row) (c : Color) : Row :=
  { row with linkColor := some c, highlight := row.highlight.colorize .number c }

/-- The row `row'` has the colors of `row`, and is bound if `row` is. -/
structure SameColors (row row' : Row) : Prop where
  linkColor : row'.linkColor = row.linkColor
  bound : row'.bound = row.bound
  base : row.highlight.SameBase row'.highlight

theorem Repainted.sameColors {row row' : Row} (h : row.Repainted row') : row.SameColors row' := by
  refine ⟨?_, ?_, h.2⟩
  · rw [h.1]
  · rw [h.1]

end Row

namespace View

variable {v w : View} {n m k : PostNumber} {c : Color} {e : Entry} {row : Row}

theorem row?_mapRows (v : View) (f : PostNumber → Row → Row) (n : PostNumber) :
    (v.mapRows f).row? n = (v.row? n).map (f n) :=
  PostMap.get?_map v.rows f n

theorem row?_modifyRow (v : View) (n k : PostNumber) (f : Row → Row) :
    (v.modifyRow n f).row? k = if k = n then (v.row? k).map f else v.row? k :=
  PostMap.get?_modify v.rows n k f

theorem linkColor?_of_row? (h : v.row? n = some row) : v.linkColor? n = row.linkColor := by
  rw [linkColor?, h, Option.bind_some]

theorem isBound_of_row? (h : v.row? n = some row) : v.isBound n = row.bound := by
  rw [isBound, h, Option.any_some]

theorem linkColor?_modifyRow {f : Row → Row} (hf : ∀ row, (f row).linkColor = row.linkColor)
    (v : View) (n k : PostNumber) : (v.modifyRow n f).linkColor? k = v.linkColor? k := by
  rw [linkColor?, linkColor?, row?_modifyRow]
  split
  · cases v.row? k with
    | none => rfl
    | some row => exact hf row
  · rfl

/-- A row that is given a color if it had none shows this in its post. -/
theorem linkColor?_eq_ite {f : Row → Row} {q : Prop} [Decidable q]
    (hrow : w.row? k = (v.row? k).map f)
    (hf : ∀ row : Row,
      (f row).linkColor = if q ∧ row.linkColor = none then some c else row.linkColor)
    (hq : q → v.row? k ≠ none) :
    w.linkColor? k = if q ∧ v.linkColor? k = none then some c else v.linkColor? k := by
  rw [linkColor?, hrow]
  cases hold : v.row? k with
  | none =>
    rw [if_neg (fun h => hq h.1 hold), linkColor?, hold]
    rfl
  | some row =>
    rw [linkColor?_of_row? hold]
    exact hf row

/-! ## Requests -/

/-- The view once `n` has been given the next color of the sequence. -/
def handOut (v : View) (n : PostNumber) : View :=
  { v.modifyRow n (·.tint v.wheel.next) with wheel := v.wheel.advance }

/-- The color that a request for a post of the thread gives. -/
def colorFor (v : View) (n : PostNumber) : Color := (v.linkColor? n).getD v.wheel.next

theorem requestColor_of_not_contains (hn : v.thread.contains n = false) :
    v.requestColor n = (v, none) := by
  rw [requestColor, if_neg (by simp [hn])]

theorem requestColor_of_linkColor? (hn : v.thread.contains n = true)
    (hc : v.linkColor? n = some c) : v.requestColor n = (v, some c) := by
  rw [requestColor, if_pos hn, hc]

theorem requestColor_of_none (hn : v.thread.contains n = true) (hc : v.linkColor? n = none) :
    v.requestColor n = (v.handOut n, some v.wheel.next) := by
  rw [requestColor, if_pos hn, hc]
  rfl

/-- A request changes nothing, or it hands out a color. -/
theorem requestColor_cases (v : View) (n : PostNumber) :
    (v.requestColor n).1 = v ∨
      (v.thread.contains n = true ∧ v.linkColor? n = none ∧
        (v.requestColor n).1 = v.handOut n) := by
  cases hn : v.thread.contains n with
  | false => exact Or.inl (by rw [requestColor_of_not_contains hn])
  | true =>
    cases hc : v.linkColor? n with
    | none => exact Or.inr ⟨rfl, rfl, by rw [requestColor_of_none hn hc]⟩
    | some c => exact Or.inl (by rw [requestColor_of_linkColor? hn hc])

theorem row?_handOut (v : View) (n k : PostNumber) :
    (v.handOut n).row? k =
      if k = n then (v.row? k).map (·.tint v.wheel.next) else v.row? k :=
  row?_modifyRow v n k _

/-- A row is left or tinted when a color is handed out. -/
theorem exists_row_of_handOut (hrow : (v.handOut n).row? k = some row) :
    ∃ old, v.row? k = some old ∧ (row = old.tint v.wheel.next ∨ row = old) := by
  rw [row?_handOut] at hrow
  split at hrow
  · obtain ⟨old, hold, rfl⟩ := Option.map_eq_some_iff.mp hrow
    exact ⟨old, hold, Or.inl rfl⟩
  · exact ⟨row, hrow, Or.inr rfl⟩

theorem linkColor?_handOut (hrow : v.row? n = some row) (k : PostNumber) :
    (v.handOut n).linkColor? k = if k = n then some v.wheel.next else v.linkColor? k := by
  rw [linkColor?, row?_handOut]
  by_cases hk : k = n
  · simp [hk, hrow, Row.tint]
  · simp [hk, linkColor?]

theorem row?_requestColor (hn : v.thread.contains n = true) (k : PostNumber) :
    (v.requestColor n).1.row? k = (v.row? k).map fun row =>
      if k = n ∧ row.linkColor = none then row.tint v.wheel.next else row := by
  cases hrow : v.row? k with
  | none =>
    rcases requestColor_cases v n with heq | ⟨-, -, heq⟩
    · rw [heq, hrow, Option.map_none]
    · rw [heq, row?_handOut, hrow]
      simp
  | some row =>
    by_cases hk : k = n
    · subst hk
      have hlink := linkColor?_of_row? hrow
      cases hc : row.linkColor with
      | none =>
        rw [requestColor_of_none hn (hlink.trans hc), row?_handOut, hrow]
        simp [hc]
      | some c =>
        rw [requestColor_of_linkColor? hn (hlink.trans hc), hrow]
        simp [hc]
    · rcases requestColor_cases v n with heq | ⟨-, -, heq⟩
      · rw [heq, hrow]
        simp [hk]
      · rw [heq, row?_handOut, if_neg hk, hrow]
        simp [hk]

theorem wheel_requestColor (hn : v.thread.contains n = true) :
    (v.requestColor n).1.wheel = if v.linkColor? n = none then v.wheel.advance else v.wheel := by
  cases hc : v.linkColor? n with
  | none =>
    rw [requestColor_of_none hn hc]
    rfl
  | some c =>
    rw [requestColor_of_linkColor? hn hc]
    rfl

/-! ## Decoration -/

/-- The row of `n` once it is bound, and the link to its target is colored. -/
def boundRow (v : View) (n : PostNumber) (row : Row) : Row :=
  { row with
    bound := true
    highlight := match v.thread.target? n with
      | none => row.highlight
      | some m => row.highlight.colorize .target (v.colorFor m) }

/-- The view once the target of `n`, if there is one, has been asked for its color. -/
def requestTarget (v : View) (n : PostNumber) : View :=
  match v.thread.target? n with
  | none => v
  | some m => (v.requestColor m).1

theorem decorate_of_left (he : v.thread.get? n = some e)
    (h : v.isBound n = true ∨ e.post.omission = true) : v.decorate n = v := by
  rw [decorate, he]
  dsimp only
  rw [if_pos (by simpa using h)]

/-- Decorating a bare row asks for the color of the target and binds the row. -/
theorem decorate_of_bare (hindexed : v.thread.Indexed) (he : v.thread.get? n = some e)
    (hbound : v.isBound n = false) (homission : e.post.omission = false) :
    v.decorate n = (v.requestTarget n).modifyRow n (v.boundRow n) := by
  rw [decorate, he]
  dsimp only
  rw [if_neg (by simp [hbound, homission]), requestTarget]
  unfold boundRow
  cases htarget : v.thread.target? n with
  | none => rw [show (v.modifyRow n _).thread.target? n = none from htarget]
  | some m =>
    have hne : m ≠ n := hindexed.target?_ne htarget
    have hm : v.thread.contains m = true :=
      hindexed.contains_iff.mpr (hindexed.target?_mem htarget)
    have hlink : (v.modifyRow n fun row => { row with bound := true }).linkColor? m =
        v.linkColor? m := by
      rw [linkColor?, linkColor?, row?_modifyRow, if_neg hne]
    have hbefore : (v.modifyRow n fun row => { row with bound := true }).thread.contains m =
        true := hm
    rw [show (v.modifyRow n _).thread.target? n = some m from htarget]
    dsimp only
    cases hc : v.linkColor? m with
    | none =>
      rw [requestColor_of_none hbefore (hlink.trans hc), requestColor_of_none hm hc]
      simp only [colorFor, hc, handOut, modifyRow, PostMap.modify_comm hne.symm,
        PostMap.modify_modify]
      rfl
    | some c =>
      rw [requestColor_of_linkColor? hbefore (hlink.trans hc), requestColor_of_linkColor? hm hc]
      simp only [colorFor, hc, modifyRow, PostMap.modify_modify]
      rfl

theorem requestTarget_cases (v : View) (n : PostNumber) :
    v.requestTarget n = v ∨
      ∃ m, v.thread.target? n = some m ∧ v.linkColor? m = none ∧
        v.requestTarget n = v.handOut m := by
  rw [requestTarget]
  cases v.thread.target? n with
  | none => exact Or.inl rfl
  | some m =>
    rcases requestColor_cases v m with heq | ⟨-, hc, heq⟩
    · exact Or.inl heq
    · exact Or.inr ⟨m, rfl, hc, heq⟩

/-- Decoration leaves a view as it is, or it finds a bare row. -/
theorem decorate_cases (v : View) (n : PostNumber) :
    v.decorate n = v ∨
      ∃ e, v.thread.get? n = some e ∧ v.isBound n = false ∧ e.post.omission = false := by
  cases he : v.thread.get? n with
  | none => exact Or.inl (by rw [decorate, he])
  | some e =>
    by_cases hleft : v.isBound n = true ∨ e.post.omission = true
    · exact Or.inl (decorate_of_left he hleft)
    · rw [not_or, Bool.not_eq_true, Bool.not_eq_true] at hleft
      exact Or.inr ⟨e, rfl, hleft.1, hleft.2⟩

theorem settings_decorate (hindexed : v.thread.Indexed) (n : PostNumber) :
    (v.decorate n).settings = v.settings := by
  rcases decorate_cases v n with heq | ⟨e, he, hbound, homission⟩
  · rw [heq]
  · rw [decorate_of_bare hindexed he hbound homission]
    change (v.requestTarget n).settings = v.settings
    rcases requestTarget_cases v n with heq | ⟨m, -, -, heq⟩
    · rw [heq]
    · rw [heq]
      rfl

theorem identity_decorate (hindexed : v.thread.Indexed) (n : PostNumber) :
    (v.decorate n).identity = v.identity := by
  rcases decorate_cases v n with heq | ⟨e, he, hbound, homission⟩
  · rw [heq]
  · rw [decorate_of_bare hindexed he hbound homission]
    change (v.requestTarget n).identity = v.identity
    rcases requestTarget_cases v n with heq | ⟨m, -, -, heq⟩
    · rw [heq]
    · rw [heq]
      rfl

theorem row?_requestTarget (hindexed : v.thread.Indexed) (n k : PostNumber) :
    (v.requestTarget n).row? k = (v.row? k).map fun row =>
      if v.thread.target? n = some k ∧ row.linkColor = none then row.tint v.wheel.next
      else row := by
  rw [requestTarget]
  cases htarget : v.thread.target? n with
  | none => simp
  | some m =>
    have hm := hindexed.contains_iff.mpr (hindexed.target?_mem htarget)
    dsimp only
    rw [row?_requestColor hm]
    simp only [Option.some.injEq, eq_comm]

/-- Decoration binds its own row; of the others, it gives the target a color. -/
theorem row?_decorate_of_bare (hindexed : v.thread.Indexed) (he : v.thread.get? n = some e)
    (hbound : v.isBound n = false) (homission : e.post.omission = false) (k : PostNumber) :
    (v.decorate n).row? k = (v.row? k).map fun row =>
      if k = n then v.boundRow n row
      else if v.thread.target? n = some k ∧ row.linkColor = none then row.tint v.wheel.next
      else row := by
  rw [decorate_of_bare hindexed he hbound homission, row?_modifyRow,
    row?_requestTarget hindexed]
  by_cases hk : k = n
  · subst hk
    have hself : v.thread.target? k ≠ some k := fun htarget => hindexed.target?_ne htarget rfl
    simp [hself]
  · simp [hk]

/-- Decoration gives the target a color if it had none, and no other post. -/
theorem linkColor?_decorate_of_bare (hv : v.Aligned) (he : v.thread.get? n = some e)
    (hbound : v.isBound n = false) (homission : e.post.omission = false) (k : PostNumber) :
    (v.decorate n).linkColor? k =
      if v.thread.target? n = some k ∧ v.linkColor? k = none then some v.wheel.next
      else v.linkColor? k := by
  have hrow : v.thread.target? n = some k → v.row? k ≠ none := by
    intro htarget
    obtain ⟨row, hsome⟩ := hv.exists_row (hv.indexed.target?_mem htarget)
    simp [hsome]
  refine linkColor?_eq_ite (row?_decorate_of_bare hv.indexed he hbound homission k) ?_ hrow
  intro row
  by_cases hk : k = n
  · have hself : v.thread.target? k ≠ some k := fun htarget =>
      hv.indexed.target?_ne htarget rfl
    subst hk
    rw [if_pos rfl, if_neg (fun h => hself h.1)]
    rfl
  · rw [if_neg hk]
    split <;> rfl

theorem wheel_decorate_of_bare (hindexed : v.thread.Indexed) (he : v.thread.get? n = some e)
    (hbound : v.isBound n = false) (homission : e.post.omission = false) :
    (v.decorate n).wheel =
      if ∃ m, v.thread.target? n = some m ∧ v.linkColor? m = none then v.wheel.advance
      else v.wheel := by
  rw [decorate_of_bare hindexed he hbound homission]
  change (v.requestTarget n).wheel = _
  rw [requestTarget]
  cases htarget : v.thread.target? n with
  | none => simp
  | some m =>
    dsimp only
    rw [wheel_requestColor (hindexed.contains_iff.mpr (hindexed.target?_mem htarget))]
    simp

/-- Decoration binds its row unless the post is a placeholder. -/
theorem isBound_decorate (hindexed : v.thread.Indexed) (he : v.thread.get? n = some e)
    (hrow : v.row? n = some row) (k : PostNumber) :
    (v.decorate n).isBound k =
      if k = n then row.bound || !e.post.omission else v.isBound k := by
  have hbound := isBound_of_row? hrow
  by_cases hleft : v.isBound n = true ∨ e.post.omission = true
  · rw [decorate_of_left he hleft]
    split
    · rename_i hk
      rw [hk, hbound]
      rcases hleft with h | h
      · simp [← hbound, h]
      · simp [h]
    · rfl
  · rw [not_or, Bool.not_eq_true, Bool.not_eq_true] at hleft
    rw [isBound, row?_decorate_of_bare hindexed he hleft.1 hleft.2]
    split
    · rename_i hk
      simp [hk, hrow, boundRow, hleft.2]
    · rename_i hk
      cases hget : v.row? k with
      | none => simp [isBound, hget]
      | some other =>
        simp only [Option.map_some, Option.any_some, isBound, hget]
        split <;> rfl

/-! ## Changes that leave the colors alone -/

/-- The view `w` has the thread and the colors of `v`, and the same rows are bound. -/
structure SameColors (v w : View) : Prop where
  thread : w.thread = v.thread
  settings : w.settings = v.settings
  wheel : w.wheel = v.wheel
  rows : ∃ f : PostNumber → Row → Row,
    (∀ n, w.row? n = (v.row? n).map (f n)) ∧ ∀ n (row : Row), row.SameColors (f n row)

namespace SameColors

theorem of_mapRows {f : PostNumber → Row → Row}
    (hf : ∀ n (row : Row), row.SameColors (f n row)) : v.SameColors (v.mapRows f) :=
  ⟨rfl, rfl, rfl, f, row?_mapRows v f, hf⟩

theorem of_modifyRow {f : Row → Row} (hf : ∀ row : Row, row.SameColors (f row)) (n : PostNumber) :
    v.SameColors (v.modifyRow n f) := by
  apply of_mapRows
  intro k row
  split
  · exact hf row
  · exact (Row.Repainted.refl row).sameColors

/-- A row of `w` has the colors of the row of `v`. -/
theorem exists_row (h : v.SameColors w) (hrow : w.row? n = some row) :
    ∃ old, v.row? n = some old ∧ old.SameColors row := by
  obtain ⟨f, hrows, hf⟩ := h.rows
  rw [hrows, Option.map_eq_some_iff] at hrow
  obtain ⟨old, hold, rfl⟩ := hrow
  exact ⟨old, hold, hf n old⟩

theorem row?_eq_none (h : v.SameColors w) (hrow : w.row? n = none) : v.row? n = none := by
  obtain ⟨f, hrows, -⟩ := h.rows
  rwa [hrows, Option.map_eq_none_iff] at hrow

theorem linkColor? (h : v.SameColors w) (n : PostNumber) : w.linkColor? n = v.linkColor? n := by
  cases hrow : w.row? n with
  | none => rw [View.linkColor?, View.linkColor?, hrow, h.row?_eq_none hrow]
  | some row =>
    obtain ⟨old, hold, hcolors⟩ := h.exists_row hrow
    rw [linkColor?_of_row? hrow, linkColor?_of_row? hold, hcolors.linkColor]

theorem isBound (h : v.SameColors w) (n : PostNumber) : w.isBound n = v.isBound n := by
  cases hrow : w.row? n with
  | none => rw [View.isBound, View.isBound, hrow, h.row?_eq_none hrow]
  | some row =>
    obtain ⟨old, hold, hcolors⟩ := h.exists_row hrow
    rw [isBound_of_row? hrow, isBound_of_row? hold, hcolors.bound]

end SameColors

theorem Retouched.sameColors (h : v.Retouched w) : v.SameColors w := by
  obtain ⟨f, identity, hf, rfl⟩ := h
  have hrows : v.SameColors (v.mapRows f) := .of_mapRows fun n row => (hf n row).sameColors
  exact ⟨hrows.thread, hrows.settings, hrows.wheel, hrows.rows⟩

theorem sameColors_unfold (v : View) : v.SameColors v.unfold := by
  have hrows : v.SameColors (v.mapRows fun _ row => { row with hidden := false, mark := {} }) :=
    .of_mapRows fun _ row => ⟨rfl, rfl, .refl row.highlight⟩
  exact ⟨hrows.thread, hrows.settings, hrows.wheel, hrows.rows⟩

theorem sameColors_foldAround (v : View) (n : PostNumber) : v.SameColors (v.foldAround n).1 := by
  rw [foldAround]
  split
  · have hrows : v.SameColors (v.mapRows fun k row =>
        { row with
          mark := ⟨k ∈ v.thread.conversation n, k = n⟩
          hidden := k ∉ v.thread.conversation n }) :=
      .of_mapRows fun _ row => ⟨rfl, rfl, .refl row.highlight⟩
    exact ⟨hrows.thread, hrows.settings, hrows.wheel, hrows.rows⟩
  · exact (Retouched.refl v).sameColors

/-- A change leaves the colors alone, merges a post, or hands out a color. -/
theorem Change.color_cases (h : Change v w) :
    v.SameColors w ∨
    (∃ p, v.thread.contains p.number = false ∧ w = v.merge p) ∨
    (∃ n, v.thread.contains n = true ∧ v.linkColor? n = none ∧ w = v.handOut n) := by
  cases h with
  | retouch hr => exact Or.inl hr.sameColors
  | merge p hp => exact Or.inr (Or.inl ⟨p, hp, rfl⟩)
  | fold n => exact Or.inl (sameColors_foldAround v n)
  | unfold => exact Or.inl (sameColors_unfold v)
  | color n =>
    rcases requestColor_cases v n with heq | ⟨hn, hc, heq⟩
    · rw [heq]
      exact Or.inl (Retouched.refl v).sameColors
    · exact Or.inr (Or.inr ⟨n, hn, hc, heq⟩)

end View

end Discussion
