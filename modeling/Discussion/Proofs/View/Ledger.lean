import Discussion.Proofs.View.Footprint
import Discussion.Proofs.Wheel.Sequence

/-!
# The account of link colors

Link colors are handed out on opening, when live posts are merged, and when a
host asks for one. All of them come from one sequence, and each change of a view
takes at most one. So the posts with a color, in the order in which they got it,
have the first colors of the sequence, and the sequence stands right after them.
-/

namespace Discussion

namespace View

variable {v w x : View} {p : Post} {n k : PostNumber} {c : Color} {settings : Settings}
  {s : Snapshot} {palette : Palette} {order : List PostNumber}

/-! ## One change -/

/-- The views `v` and `w` agree on the colors and on the rest of the sequence. -/
structure KeepsColors (v w : View) : Prop where
  wheel : w.wheel = v.wheel
  linkColor? : ∀ k, w.linkColor? k = v.linkColor? k

/-- In `w`, the post `n` has the next color of `v`, in which it had none. -/
structure Awards (v : View) (n : PostNumber) (w : View) : Prop where
  uncolored : v.linkColor? n = none
  wheel : w.wheel = v.wheel.advance
  linkColor? : ∀ k, w.linkColor? k = if k = n then some v.wheel.next else v.linkColor? k

/-- At most one color is taken from `v` to `w`. -/
def ColorStep (v w : View) : Prop := v.KeepsColors w ∨ ∃ n, v.Awards n w

theorem KeepsColors.refl (v : View) : v.KeepsColors v := ⟨rfl, fun _ => rfl⟩

theorem SameColors.keepsColors (h : v.SameColors w) : v.KeepsColors w := ⟨h.wheel, h.linkColor?⟩

theorem ColorStep.trans_keepsColors (h : v.ColorStep w) (hwx : w.KeepsColors x) :
    v.ColorStep x := by
  rcases h with hkeep | ⟨n, haward⟩
  · exact Or.inl ⟨hwx.wheel.trans hkeep.wheel,
      fun k => (hwx.linkColor? k).trans (hkeep.linkColor? k)⟩
  · exact Or.inr ⟨n, haward.uncolored, hwx.wheel.trans haward.wheel,
      fun k => (hwx.linkColor? k).trans (haward.linkColor? k)⟩

/-- A color that has been given stays. -/
theorem ColorStep.linkColor?_eq_some (h : v.ColorStep w) (hc : v.linkColor? n = some c) :
    w.linkColor? n = some c := by
  rcases h with hkeep | ⟨m, haward⟩
  · rw [hkeep.linkColor?, hc]
  · have hne : n ≠ m := by
      rintro rfl
      rw [haward.uncolored] at hc
      cases hc
    rw [haward.linkColor?, if_neg hne, hc]

theorem awards_handOut (hv : v.Aligned) (hn : n ∈ v.thread.numbers)
    (hc : v.linkColor? n = none) : v.Awards n (v.handOut n) := by
  obtain ⟨row, hrow⟩ := hv.exists_row hn
  exact ⟨hc, rfl, linkColor?_handOut hrow⟩

theorem colorStep_decorate (hv : v.Aligned) (n : PostNumber) : v.ColorStep (v.decorate n) := by
  rcases decorate_cases v n with heq | ⟨e, he, hbound, homission⟩
  · rw [heq]
    exact Or.inl (.refl v)
  · have hrequest : v.ColorStep (v.requestTarget n) := by
      rcases requestTarget_cases v n with heq | ⟨m, htarget, hc, heq⟩
      · rw [heq]
        exact Or.inl (.refl v)
      · rw [heq]
        exact Or.inr ⟨m, awards_handOut hv (hv.indexed.target?_mem htarget) hc⟩
    rw [decorate_of_bare hv.indexed he hbound homission]
    apply hrequest.trans_keepsColors
    refine ⟨rfl, ?_⟩
    apply linkColor?_modifyRow
    exact fun _ => rfl

theorem colorStep_merge (hv : v.Aligned) (hp : p.number ∉ v.thread.numbers) :
    v.ColorStep (v.merge p) := by
  have hwheel : (v.merge p).wheel = _ := wheel_seat hv.indexed hp
  have hlink := linkColor?_merge hv hp
  by_cases htaken : p.omission = false ∧
      ∃ m, (v.settle p).parent = some m ∧ v.linkColor? m = none
  · obtain ⟨homission, m, hparent, hc⟩ := htaken
    rw [if_pos ⟨homission, m, hparent, hc⟩] at hwheel
    refine Or.inr ⟨m, hc, hwheel, ?_⟩
    intro k
    rw [hlink, homission, hparent]
    by_cases hk : k = m
    · simp [hk, hc]
    · simp [hk, Ne.symm hk]
  · rw [if_neg htaken] at hwheel
    refine Or.inl ⟨hwheel, ?_⟩
    intro k
    rw [hlink, if_neg]
    rintro ⟨homission, hparent, hc⟩
    exact htaken ⟨homission, k, hparent, hc⟩

/-- Every change takes at most one color. -/
theorem Change.colorStep (hv : v.Aligned) (h : Change v w) : v.ColorStep w := by
  rcases h.color_cases with hsame | ⟨p, hp, rfl⟩ | ⟨n, hn, hc, rfl⟩
  · exact Or.inl hsame.keepsColors
  · exact colorStep_merge hv (hv.indexed.contains_eq_false_iff.mp hp)
  · exact Or.inr ⟨n, awards_handOut hv (hv.indexed.contains_iff.mp hn) hc⟩

/-! ## The account -/

/-- The posts with a color are those of `order`, and in this order they have the
first colors of the sequence, which stands right after them. -/
structure Ledger (palette : Palette) (order : List PostNumber) (v : View) : Prop where
  nodup : order.Nodup
  mem_iff : ∀ n, n ∈ order ↔ (v.linkColor? n).isSome
  colors : order.map v.linkColor? = ((Wheel.ofPalette palette).take order.length).map some
  wheel : v.wheel = Wheel.advance^[order.length] (Wheel.ofPalette palette)

namespace Ledger

theorem keepsColors (h : Ledger palette order v) (hvw : v.KeepsColors w) :
    Ledger palette order w := by
  have hlink : w.linkColor? = v.linkColor? := funext hvw.linkColor?
  refine ⟨h.nodup, ?_, ?_, hvw.wheel.trans h.wheel⟩
  · rw [hlink]
    exact h.mem_iff
  · rw [hlink]
    exact h.colors

/-- A post that is awarded a color comes last in the account. -/
theorem awards (h : Ledger palette order v) (hvw : v.Awards n w) :
    Ledger palette (order ++ [n]) w := by
  have hn : n ∉ order := by
    rw [h.mem_iff, hvw.uncolored]
    exact Bool.false_ne_true
  have hlast : w.linkColor? n = some v.wheel.next := by rw [hvw.linkColor?, if_pos rfl]
  have hothers : ∀ k, k ≠ n → w.linkColor? k = v.linkColor? k :=
    fun k hk => by rw [hvw.linkColor?, if_neg hk]
  refine ⟨?_, ?_, ?_, ?_⟩
  · exact List.nodup_append.mpr ⟨h.nodup, List.nodup_singleton n, by
      rintro k hk j hj rfl
      exact hn (List.mem_singleton.mp hj ▸ hk)⟩
  · intro k
    rw [List.mem_append, List.mem_singleton]
    by_cases hk : k = n
    · simp [hk, hlast]
    · simp [hk, hothers k hk, h.mem_iff]
  · have hbefore : order.map w.linkColor? = order.map v.linkColor? := by
      apply List.map_congr_left
      intro k hk
      exact hothers k fun heq => hn (heq ▸ hk)
    rw [List.map_append, List.map_singleton, hbefore, h.colors, hlast, h.wheel,
      List.length_append, List.length_singleton, Wheel.take_succ_eq_append, List.map_append,
      List.map_singleton]
  · rw [hvw.wheel, h.wheel, List.length_append, List.length_singleton,
      Function.iterate_succ_apply']

theorem step (h : Ledger palette order v) (hvw : v.ColorStep w) :
    ∃ order', Ledger palette order' w := by
  rcases hvw with hkeep | ⟨n, haward⟩
  · exact ⟨order, h.keepsColors hkeep⟩
  · exact ⟨order ++ [n], h.awards haward⟩

end Ledger

theorem linkColor?_bare (settings : Settings) (s : Snapshot) (n : PostNumber) :
    (bare settings s).linkColor? n = none := by
  rw [linkColor?, Option.bind_eq_none_iff]
  intro row hrow
  rw [row?_bare hrow]

theorem ledger_bare (settings : Settings) (s : Snapshot) :
    Ledger settings.palette [] (bare settings s) := by
  refine ⟨List.nodup_nil, ?_, rfl, rfl⟩
  intro n
  rw [linkColor?_bare]
  simp

theorem ledger_opened (h : View.ofSnapshot settings s = .ok v) :
    ∃ order, Ledger settings.palette order v := by
  obtain ⟨hnodup, rfl⟩ := ofSnapshot_eq_ok_iff.mp h
  apply opened_invariant (P := fun v => ∃ order, Ledger settings.palette order v) hnodup
  · exact ⟨[], ledger_bare settings s⟩
  · rintro v n hv - ⟨order, hledger⟩
    exact hledger.step (colorStep_decorate hv n)

/-! ## Runs of calls -/

/-- The view after a run of calls. -/
def callAll (v : View) (cs : List Call) : View := cs.foldl call v

/-- The colors that the rows have, from the first row to the last. -/
def linkColors (v : View) : List Color := v.rows.entries.filterMap (·.2.linkColor)

theorem callAll_invariant {P : View → Prop} (hchange : ∀ v w, P v → Change v w → P w)
    (h : P v) (cs : List Call) : P (v.callAll cs) := by
  induction cs generalizing v with
  | nil => exact h
  | cons c rest ih => exact ih (hchange v _ h (change_call v c))

theorem aligned_callAll (hv : v.Aligned) (cs : List Call) : (v.callAll cs).Aligned :=
  callAll_invariant (fun _ _ hv hvw => hv.change hvw) hv cs

theorem ledger_callAll (hv : v.Aligned) (h : Ledger palette order v) (cs : List Call) :
    ∃ order', Ledger palette order' (v.callAll cs) := by
  have hrun : (v.callAll cs).Aligned ∧ ∃ order', Ledger palette order' (v.callAll cs) := by
    apply callAll_invariant (P := fun v => v.Aligned ∧ ∃ order', Ledger palette order' v)
    · rintro v w ⟨hv, order, hledger⟩ hvw
      exact ⟨hv.change hvw, hledger.step (hvw.colorStep hv)⟩
    · exact ⟨hv, order, h⟩
  exact hrun.2

theorem linkColor?_callAll (hv : v.Aligned) (hc : v.linkColor? n = some c) (cs : List Call) :
    (v.callAll cs).linkColor? n = some c := by
  have hrun : (v.callAll cs).Aligned ∧ (v.callAll cs).linkColor? n = some c := by
    apply callAll_invariant (P := fun v => v.Aligned ∧ v.linkColor? n = some c)
    · rintro v w ⟨hv, hc⟩ hvw
      exact ⟨hv.change hvw, (hvw.colorStep hv).linkColor?_eq_some hc⟩
    · exact ⟨hv, hc⟩
  exact hrun.2

theorem linkColors_eq_filterMap_keys (hv : v.Aligned) :
    v.linkColors = v.rows.keys.filterMap v.linkColor? := by
  have hnodup : v.rows.keys.Nodup := hv.keys ▸ hv.indexed.nodup
  rw [linkColors, PostMap.keys, List.filterMap_map]
  apply List.filterMap_congr
  rintro ⟨n, row⟩ hrow
  exact (linkColor?_of_row? (PostMap.get?_eq_some_of_mem hnodup hrow)).symm

/-- The colors of the rows are those of the account, in another order. -/
theorem Ledger.perm_linkColors (h : Ledger palette order v) (hv : v.Aligned) :
    v.linkColors.Perm ((Wheel.ofPalette palette).take order.length) := by
  have hcolors : order.filterMap v.linkColor? = (Wheel.ofPalette palette).take order.length := by
    have hid : order.filterMap v.linkColor? = (order.map v.linkColor?).filterMap id := by
      rw [List.filterMap_map, Function.id_comp]
    rw [hid, h.colors, List.filterMap_map]
    exact List.filterMap_some
  have hcolored : v.rows.keys.filterMap v.linkColor? =
      (v.rows.keys.filter fun n => (v.linkColor? n).isSome).filterMap v.linkColor? := by
    rw [List.filterMap_filter]
    apply List.filterMap_congr
    intro n _
    cases v.linkColor? n <;> rfl
  have hnodup : v.rows.keys.Nodup := hv.keys ▸ hv.indexed.nodup
  have hposts : (v.rows.keys.filter fun n => (v.linkColor? n).isSome).Perm order := by
    rw [List.perm_ext_iff_of_nodup (hnodup.filter _) h.nodup]
    intro n
    rw [List.mem_filter, h.mem_iff, and_iff_right_iff_imp]
    intro hc
    obtain ⟨c, hc⟩ := Option.isSome_iff_exists.mp hc
    obtain ⟨row, hrow, -⟩ := Option.bind_eq_some_iff.mp hc
    exact hv.keys ▸ hv.mem_of_row? hrow
  rw [linkColors_eq_filterMap_keys hv, hcolored, ← hcolors]
  exact hposts.filterMap _

/-- However commands, direct calls and requests for colors follow each other, if
`k` rows have a color then the sequence of the palette has moved on by `k`, and
these are its first `k` colors, each given to one post. A request for a post
outside the thread gives no color, and a request for a post with a color gives
that color; neither changes the view. A color that has been given stays. -/
theorem linkColors_callAll {start : View} (hstart : View.ofSnapshot settings s = .ok start)
    (cs : List Call) :
    ((start.callAll cs).wheel =
      Wheel.advance^[(start.callAll cs).linkColors.length] (Wheel.ofPalette settings.palette)) ∧
    ((start.callAll cs).linkColors.Perm
      ((Wheel.ofPalette settings.palette).take (start.callAll cs).linkColors.length)) ∧
    (∃ order : List PostNumber, order.Nodup ∧
      (∀ n, n ∈ order ↔ ((start.callAll cs).linkColor? n).isSome) ∧
      order.map (start.callAll cs).linkColor? =
        ((Wheel.ofPalette settings.palette).take
          (start.callAll cs).linkColors.length).map some) ∧
    (∀ n, n ∉ (start.callAll cs).thread.numbers →
      (start.callAll cs).requestColor n = (start.callAll cs, none)) ∧
    (∀ n c, (start.callAll cs).linkColor? n = some c →
      (start.callAll cs).requestColor n = (start.callAll cs, some c) ∧
      ∀ later, ((start.callAll cs).callAll later).linkColor? n = some c) := by
  obtain ⟨first, hfirst⟩ := ledger_opened hstart
  have hv := aligned_callAll (aligned_opened hstart) cs
  obtain ⟨order, hledger⟩ := ledger_callAll (aligned_opened hstart) hfirst cs
  have hperm := hledger.perm_linkColors hv
  have hlength : (start.callAll cs).linkColors.length = order.length :=
    hperm.length_eq.trans (Wheel.length_take _ _)
  refine ⟨?_, ?_, ?_, ?_, ?_⟩
  · rw [hlength, hledger.wheel]
  · rwa [hlength]
  · rw [hlength]
    exact ⟨order, hledger.nodup, hledger.mem_iff, hledger.colors⟩
  · intro n hn
    exact requestColor_of_not_contains (hv.indexed.contains_eq_false_iff.mpr hn)
  · intro n c hc
    obtain ⟨row, hrow, -⟩ := Option.bind_eq_some_iff.mp hc
    have hn := hv.indexed.contains_iff.mpr (hv.mem_of_row? hrow)
    exact ⟨requestColor_of_linkColor? hn hc, linkColor?_callAll hv hc⟩

section

open Sample

/-- A request before a reply comes, the reply, and a request for the reply. -/
def requestsAround : List Call :=
  [.requestColor one, .insert ⟨two, post two (some one)⟩ true, .requestColor two]

/-- The post that is asked for gets the first color and keeps it when a reply
comes; the reply gets the second. -/
theorem linkColors_callAll_single :
    View.ofSnapshot {} single = .ok (opened {} single) ∧
    ((opened {} single).callAll requestsAround).linkColors.length = 2 ∧
    ((opened {} single).callAll requestsAround).wheel =
      Wheel.advance^[2] (Wheel.ofPalette {}) ∧
    ((opened {} single).callAll requestsAround).linkColors.Perm
      ((Wheel.ofPalette {}).take 2) ∧
    ((opened {} single).callAll requestsAround).requestColor three =
      ((opened {} single).callAll requestsAround, none) := by
  have hstart : View.ofSnapshot {} single = .ok (opened {} single) :=
    ofSnapshot_eq_ok_iff.mpr ⟨by decide, rfl⟩
  have hlength : ((opened {} single).callAll requestsAround).linkColors.length = 2 := by decide
  obtain ⟨hwheel, hperm, -, hmissing, -⟩ := linkColors_callAll hstart requestsAround
  rw [hlength] at hwheel hperm
  exact ⟨hstart, hlength, hwheel, hperm, hmissing three (by decide)⟩

end

end View

end Discussion
