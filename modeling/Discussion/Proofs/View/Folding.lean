import Discussion.Proofs.View.Reach

/-!
# Folds over runs

A fold marks the rows of one conversation and then judges every arrival by the
row of its parent alone. Over any run of other commands, what it keeps is the
conversation of the moment in which it was made, and the arrivals whose targets
lead into it. This need not be the present conversation of the pivot: a post may
have named a missing parent, and the arrival of that parent joins conversations
that were apart.
-/

namespace Discussion

namespace View

open Relation (ReflTransGen TransGen)

variable {v w x : View} {p n m q : PostNumber} {settings : Settings} {s : Snapshot}

/-- The row of a post is visible and kept by the fold. -/
def Shows (v : View) (n : PostNumber) : Prop :=
  ∃ row, v.row? n = some row ∧ row.hidden = false ∧ row.mark.kept = true

theorem keeps_eq_true_iff : v.keeps n = true ↔ v.Shows n := by
  rw [keeps, place?, Shows]
  cases hrow : v.row? n with
  | none => simp
  | some row => simp [Row.place]

/-- The targets of `n` lead through arrivals since `w` into the conversation that
`p` had in `w`. -/
def LeadsInto (w v : View) (p n : PostNumber) : Prop :=
  ∃ m ∈ w.thread.conversation p, ReflTransGen (Thread.ArrivedReply w.thread v.thread) n m

/-- The fold on `p` that was made in `w` still stands in `v`. -/
structure FoldHeld (w : View) (p : PostNumber) (v : View) : Prop where
  base : w.thread.Indexed
  pivot : p ∈ w.thread.numbers
  aligned : v.Aligned
  fold : v.fold = some p
  grown : Thread.GrownFrom w.thread v.thread
  hidden : ∀ n a, v.place? n = some a → a.hidden = !a.mark.kept
  kept : ∀ n a, v.place? n = some a → (a.mark.kept = true ↔ LeadsInto w v p n)

theorem leadsInto_iff_of_mem (hn : n ∈ w.thread.numbers) :
    LeadsInto w v p n ↔ n ∈ w.thread.conversation p := by
  constructor
  · rintro ⟨m, hm, hpath⟩
    rw [Thread.eq_of_arrivedPath hn hpath]
    exact hm
  · intro hmem
    exact ⟨n, hmem, .refl⟩

/-- A fold stands once it is made. -/
theorem foldHeld_foldAround (h : v.Aligned) (hp : v.thread.contains p = true) :
    FoldHeld (v.foldAround p).1 p (v.foldAround p).1 := by
  have haligned := h.foldAround p
  have hthread := thread_foldAround v p
  have hplace : ∀ n a, (v.foldAround p).1.place? n = some a →
      a.mark.kept = decide (n ∈ v.thread.conversation p) ∧
        a.hidden = !decide (n ∈ v.thread.conversation p) := by
    intro n a ha
    rw [place?_foldAround hp, Option.map_eq_some_iff] at ha
    obtain ⟨-, -, rfl⟩ := ha
    simp
  refine ⟨haligned.indexed, hthread ▸ h.indexed.contains_iff.mp hp, haligned,
    fold_foldAround hp, .refl haligned.indexed, ?_, ?_⟩
  · intro n a ha
    rw [(hplace n a ha).1, (hplace n a ha).2]
  · intro n a ha
    rw [leadsInto_iff_of_mem (haligned.mem_of_place ha), hthread, (hplace n a ha).1,
      decide_eq_true_iff]

namespace FoldHeld

/-- What keeps the layout keeps the fold. -/
theorem of_sameLayout (h : FoldHeld w p v) (hvx : v.SameLayout x) : FoldHeld w p x where
  base := h.base
  pivot := h.pivot
  aligned := h.aligned.of_sameLayout hvx
  fold := hvx.fold.trans h.fold
  grown := by
    rw [hvx.thread]
    exact h.grown
  hidden n a ha := h.hidden n a (hvx.place n ▸ ha)
  kept n a ha := by
    rw [LeadsInto, hvx.thread]
    exact h.kept n a (hvx.place n ▸ ha)

/-- The fold keeps a post of the thread exactly if it leads into the conversation. -/
theorem keeps_iff (h : FoldHeld w p v) (hn : n ∈ v.thread.numbers) :
    v.keeps n = true ↔ LeadsInto w v p n := by
  obtain ⟨a, ha⟩ := h.aligned.exists_place hn
  rw [keeps, ha, Option.any_some, h.hidden n a ha, Bool.not_not, Bool.and_self]
  exact h.kept n a ha

/-- A merged post leads into the conversation if its parent is kept. -/
theorem leadsInto_merge_self (h : FoldHeld w p v) {post : Post}
    (hpost : post.number ∉ v.thread.numbers) :
    LeadsInto w (v.merge post) p post.number ↔ (v.settle post).parent.any v.keeps = true := by
  have hs := settled_settle h.aligned.indexed post
  have hpost' : (v.settle post).number ∉ v.thread.numbers := by rwa [settle_number]
  have hpath := fun m => h.grown.path_receive_self (m := m) hpost' hs
  simp only [settle_number] at hpath
  rw [LeadsInto, thread_merge]
  simp only [hpath]
  constructor
  · rintro ⟨m, hm, rfl | ⟨k, hk, hkm⟩⟩
    · exact absurd (h.grown.present _ (h.base.mem_of_mem_conversation h.pivot hm)) hpost
    · rw [hk, Option.any_some, h.keeps_iff (hs k hk).2]
      exact ⟨m, hm, hkm⟩
  · intro hany
    cases hparent : (v.settle post).parent with
    | none => simp [hparent] at hany
    | some k =>
      rw [hparent, Option.any_some, h.keeps_iff (hs k hparent).2] at hany
      obtain ⟨m, hm, hkm⟩ := hany
      exact ⟨m, hm, Or.inr ⟨k, rfl, hkm⟩⟩

/-- A merged post does not change where other posts lead. -/
theorem leadsInto_merge (h : FoldHeld w p v) {post : Post}
    (hpost : post.number ∉ v.thread.numbers) (hn : n ∈ v.thread.numbers) :
    LeadsInto w (v.merge post) p n ↔ LeadsInto w v p n := by
  have hpost' : (v.settle post).number ∉ v.thread.numbers := by rwa [settle_number]
  rw [LeadsInto, thread_merge]
  simp only [h.grown.path_receive hpost' hn]
  rfl

/-- A merge keeps the fold. -/
theorem merge (h : FoldHeld w p v) {post : Post}
    (hpost : v.thread.contains post.number = false) : FoldHeld w p (v.merge post) := by
  have hmem := h.aligned.indexed.contains_eq_false_iff.mp hpost
  have haligned := h.aligned.merge hpost
  have hself : (v.merge post).place? post.number =
      some ⟨⟨(v.settle post).parent.any v.keeps, false⟩,
        !(v.settle post).parent.any v.keeps⟩ := by
    rw [place?_merge_self h.aligned.indexed hmem, h.fold]
    rfl
  refine ⟨h.base, h.pivot, haligned, (fold_merge v post).trans h.fold, ?_, ?_, ?_⟩
  · rw [thread_merge]
    apply h.grown.receive
    · rwa [settle_number]
    · exact settled_settle h.aligned.indexed post
  · intro n a ha
    by_cases hn : n = post.number
    · subst hn
      rw [hself] at ha
      cases ha
      rfl
    · exact h.hidden n a (place?_merge_of_ne hn ▸ ha)
  · intro n a ha
    by_cases hn : n = post.number
    · subst hn
      rw [hself] at ha
      cases ha
      exact (h.leadsInto_merge_self hmem).symm
    · rw [place?_merge_of_ne hn] at ha
      rw [h.leadsInto_merge hmem (h.aligned.mem_of_place ha)]
      exact h.kept n a ha

end FoldHeld

/-! ## What a fold keeps -/

/-- The host has just folded `v` on `p`, and `w` is the view after it. -/
def FoldsInto (v : View) (p : PostNumber) (w : View) : Prop :=
  v.toggleFold p = (w, [.scrollTo (.post p)]) ∨ v.foldOn p = (w, [.scrollTo (.post p)])

theorem foldAround_of_effect {effects : List Effect}
    (h : v.foldAround p = (w, effects)) (heffects : effects ≠ []) :
    v.thread.contains p = true ∧ w = (v.foldAround p).1 := by
  cases hp : v.thread.contains p with
  | true => exact ⟨rfl, by rw [h]⟩
  | false =>
    rw [foldAround, if_neg (by simp [hp])] at h
    cases h
    exact absurd rfl heffects

theorem FoldsInto.spec (h : v.FoldsInto p w) :
    v.thread.contains p = true ∧ w = (v.foldAround p).1 := by
  have hne : [Effect.scrollTo (.post p)] ≠ [] := List.cons_ne_nil _ _
  rcases h with h | h
  · rw [toggleFold] at h
    split at h
    · split at h
      · cases h
      · have hspec := foldAround_of_effect h hne
        have hp : v.thread.contains p = true := hspec.1
        rw [unfold_foldAround hp] at hspec
        exact hspec
    · cases h
  · rw [foldOn] at h
    split at h
    · exact foldAround_of_effect h hne
    · cases h

theorem FoldsInto.foldHeld (hv : v.Aligned) (h : v.FoldsInto p w) : FoldHeld w p w := by
  obtain ⟨hp, rfl⟩ := h.spec
  exact foldHeld_foldAround hv hp

/-- Every command but a fold control keeps the fold. -/
theorem FoldHeld.dispatch (h : FoldHeld w p v) {c : Command} (hc : ∀ n, c ≠ .toggleFold n) :
    FoldHeld w p (v.dispatch c).view := by
  rcases dispatch_cases v c with hr | ⟨a, footer, -, hnum, hnew, heq⟩ | ⟨n, htoggle, -⟩
  · exact h.of_sameLayout hr.sameLayout
  · rw [heq]
    exact h.merge (hnum ▸ hnew)
  · exact absurd htoggle (hc n)

theorem FoldHeld.run (h : FoldHeld w p v) {cs : List Command}
    (hcs : ∀ n, .toggleFold n ∉ cs) : FoldHeld w p (v.run cs).1 := by
  induction cs generalizing v with
  | nil => exact h
  | cons c rest ih =>
    rw [run_cons]
    apply ih
    · exact h.dispatch fun n hn => hcs n (hn ▸ List.mem_cons_self)
    · intro n hn
      exact hcs n (List.mem_cons_of_mem _ hn)

/-- After a fold on `p`, and whatever commands follow but fold controls, the view
is folded on `p` still. A row is visible exactly if it is kept. Of the posts that
were there the conversation of `p` is kept; of those that arrived since, the ones
whose targets lead through arrivals into that conversation. An arrival without a
target is hidden. -/
theorem run_shows_iff (hv : Reachable v) (hfold : v.FoldsInto p w) {cs : List Command}
    (hcs : ∀ n, .toggleFold n ∉ cs) :
    (w.run cs).1.fold = some p ∧
    ∀ n ∈ (w.run cs).1.thread.numbers, ∃ row, (w.run cs).1.row? n = some row ∧
      (row.hidden = false ↔ row.mark.kept = true) ∧
      (row.mark.kept = true ↔
        (n ∈ w.thread.numbers ∧ n ∈ w.thread.conversation p) ∨
        (n ∉ w.thread.numbers ∧ ∃ m ∈ w.thread.numbers, m ∈ w.thread.conversation p ∧
          TransGen (Thread.ArrivedReply w.thread (w.run cs).1.thread) n m)) ∧
      (n ∉ w.thread.numbers → (w.run cs).1.thread.target? n = none → row.hidden = true) := by
  have h := (hfold.foldHeld hv.aligned).run hcs
  refine ⟨h.fold, ?_⟩
  intro n hn
  obtain ⟨a, ha⟩ := h.aligned.exists_place hn
  obtain ⟨row, hrow, rfl⟩ := place?_eq_some_iff.mp ha
  have hhidden : row.hidden = !row.mark.kept := h.hidden n row.place ha
  have hkept : row.mark.kept = true ↔ LeadsInto w (w.run cs).1 p n := h.kept n row.place ha
  refine ⟨row, hrow, ?_, ?_, ?_⟩
  · rw [hhidden, Bool.not_eq_false']
  · rw [hkept]
    by_cases hold : n ∈ w.thread.numbers
    · simp [leadsInto_iff_of_mem hold, hold]
    · simp only [hold, false_and, not_false_eq_true, true_and, false_or]
      constructor
      · rintro ⟨m, hm, hpath⟩
        have hmold := h.base.mem_of_mem_conversation h.pivot hm
        refine ⟨m, hmold, hm, ?_⟩
        rcases Relation.reflTransGen_iff_eq_or_transGen.mp hpath with rfl | hpath
        · exact absurd hmold hold
        · exact hpath
      · rintro ⟨m, -, hm, hpath⟩
        exact ⟨m, hm, hpath.to_reflTransGen⟩
  · intro hold htarget
    rw [hhidden, Bool.not_eq_true', ← Bool.not_eq_true, hkept]
    rintro ⟨m, hm, hpath⟩
    rcases ReflTransGen.cases_head hpath with rfl | ⟨k, hk, -⟩
    · exact hold (h.base.mem_of_mem_conversation h.pivot hm)
    · have hsome : (w.run cs).1.thread.target? n = some k := hk.2
      simp [htarget] at hsome

section

open Sample

/-- A post and a reply to it. -/
def pair : Snapshot := snapshot [post one none, post two (some one)]

/-- After a fold on the post, a reply to the reply arrives, and a post of its own
is dropped for its number. -/
def laterReply : List Command :=
  [.insert ⟨three, post three (some two)⟩ none, .insert ⟨two, post two none⟩ none,
    .setIdentity none]

/-- The later reply is kept, for it leads to a reply that the fold found. -/
theorem run_shows_iff_pair :
    Reachable (opened {} pair) ∧
    (opened {} pair).FoldsInto one ((opened {} pair).toggleFold one).1 ∧
    (∀ n, .toggleFold n ∉ laterReply) ∧
    (((opened {} pair).toggleFold one).1.run laterReply).1.fold = some one ∧
    ∃ row, (((opened {} pair).toggleFold one).1.run laterReply).1.row? three = some row ∧
      row.hidden = false ∧ row.mark.kept = true := by
  have hopened : View.ofSnapshot {} pair = .ok (opened {} pair) :=
    ofSnapshot_eq_ok_iff.mpr ⟨by decide, rfl⟩
  have hfolds : (opened {} pair).FoldsInto one ((opened {} pair).toggleFold one).1 :=
    Or.inl (Prod.ext rfl (by decide))
  have hcs : ∀ n, Command.toggleFold n ∉ laterReply := by simp [laterReply]
  have hindexed : ((opened {} pair).toggleFold one).1.thread.Indexed :=
    (hfolds.foldHeld (aligned_opened hopened)).base
  have hreply : ((opened {} pair).toggleFold one).1.thread.target? two = some one := by decide
  have htwo : two ∈ ((opened {} pair).toggleFold one).1.thread.conversation one :=
    List.mem_append_right _ (hindexed.mem_descendants_of_replies hreply)
  have hlater : (((opened {} pair).toggleFold one).1.run laterReply).1.thread.target? three =
      some two := by decide
  obtain ⟨hfold, hrows⟩ := run_shows_iff (.opened hopened) hfolds hcs
  obtain ⟨row, hrow, hvisible, hkept, -⟩ := hrows three (by decide)
  have hrowkept : row.mark.kept = true :=
    hkept.mpr (Or.inr ⟨by decide, two, by decide, htwo, .single ⟨by decide, hlater⟩⟩)
  exact ⟨.opened hopened, hfolds, hcs, hfold, row, hrow, hvisible.mpr hrowkept, hrowkept⟩

end

end View

end Discussion
