import Discussion.Proofs.View.Erasing

/-!
# Views only grow

Whatever a view is asked to do, nothing that it has about a post is taken back:
the posts stay where they are with what they say, their links and targets stay,
and so do the colors that were handed out. A merge adds to a view, and every
other change leaves all of this alone.
-/

namespace Discussion

namespace Thread

variable {t u x : Thread} {p : Post} {n : PostNumber} {e : Entry}

/-- The thread `u` begins with the posts of `t`. Each of them has the links and the
target that it has in `t`, and perhaps further links. -/
structure Extends (t u : Thread) : Prop where
  posts : t.posts <+: u.posts
  entries : ∀ n e, t.get? n = some e →
    ∃ e', u.get? n = some e' ∧ e'.post = e.post ∧ e.links <+: e'.links
  targets : ∀ n m, t.target? n = some m → u.target? n = some m

theorem Extends.refl (t : Thread) : t.Extends t :=
  ⟨List.prefix_refl _, fun _ e he => ⟨e, he, rfl, List.prefix_refl _⟩, fun _ _ hm => hm⟩

theorem Extends.trans (htu : t.Extends u) (hux : u.Extends x) : t.Extends x where
  posts := htu.posts.trans hux.posts
  entries n e he := by
    obtain ⟨e', he', hpost, hlinks⟩ := htu.entries n e he
    obtain ⟨e'', he'', hpost', hlinks'⟩ := hux.entries n e' he'
    exact ⟨e'', he'', hpost'.trans hpost, hlinks.trans hlinks'⟩
  targets n m hm := hux.targets n m (htu.targets n m hm)

theorem Extends.numbers (h : t.Extends u) : t.numbers <+: u.numbers := by
  rw [numbers_eq, numbers_eq]
  exact h.posts.map _

theorem links_prefix_link (e : Entry) (r : PostNumber) : e.links <+: (e.link r).links := by
  rw [Entry.link]
  split
  · exact List.prefix_refl _
  · exact List.prefix_append _ _

/-- Receiving a post links it into the entry of its parent, and leaves every other
entry as it is. -/
theorem Indexed.get?_receive_of_ne (h : t.Indexed) (hp : p.number ∉ t.numbers)
    (hn : n ≠ p.number) :
    (t.receive p).get? n = (t.get? n).map fun e =>
      if (t.extend p).target? p.number = some n then e.link p.number else e := by
  rw [Thread.receive, (h.extend hp).get?_bind, h.get?_extend hp, if_neg hn]

theorem Indexed.extends_receive (h : t.Indexed) (hp : p.number ∉ t.numbers) :
    t.Extends (t.receive p) where
  posts := by
    rw [posts_receive]
    exact List.prefix_append _ _
  entries n e he := by
    have hn : n ≠ p.number := fun heq => hp (heq ▸ h.mem_of_get? he)
    rw [h.get?_receive_of_ne hp hn, he]
    refine ⟨_, rfl, ?_⟩
    dsimp only
    split
    · exact ⟨post_link e p.number, links_prefix_link e p.number⟩
    · exact ⟨rfl, List.prefix_refl _⟩
  targets n m hm := (h.replies_receive_iff hp (h.mem_of_target? hm)).mpr (Or.inl hm)

end Thread

namespace View

variable {v w x : View} {p : Post} {n : PostNumber} {c : Command} {b : Badge}

/-- The view `w` has all that `v` has about its posts: what they say, their links and
targets, the colors handed out, and which rows are bound and which links colored. -/
structure Extends (v w : View) : Prop where
  thread : v.thread.Extends w.thread
  colors : ∀ n c, v.linkColor? n = some c → w.linkColor? n = some c
  rows : ∀ n row, v.row? n = some row → ∃ row', w.row? n = some row' ∧
    row'.bound = row.bound ∧ row'.highlight.target.accent = row.highlight.target.accent

theorem Extends.refl (v : View) : v.Extends v :=
  ⟨.refl _, fun _ _ hc => hc, fun _ row hrow => ⟨row, hrow, rfl, rfl⟩⟩

theorem Extends.trans (hvw : v.Extends w) (hwx : w.Extends x) : v.Extends x where
  thread := hvw.thread.trans hwx.thread
  colors n c hc := hwx.colors n c (hvw.colors n c hc)
  rows n row hrow := by
    obtain ⟨row', hrow', hbound, haccent⟩ := hvw.rows n row hrow
    obtain ⟨row'', hrow'', hbound', haccent'⟩ := hwx.rows n row' hrow'
    exact ⟨row'', hrow'', hbound'.trans hbound, haccent'.trans haccent⟩

theorem SameColors.extends (h : v.SameColors w) : v.Extends w where
  thread := by
    rw [h.thread]
    exact .refl v.thread
  colors n c hc := (h.linkColor? n).trans hc
  rows n row hrow := by
    obtain ⟨f, hrows, hf⟩ := h.rows
    have hsame := hf n row
    exact ⟨f n row, by rw [hrows, hrow, Option.map_some], hsame.bound, (hsame.base .target).1⟩

/-- A merge tints at most the row of the parent. -/
theorem extends_merge (hv : v.Aligned) (hp : p.number ∉ v.thread.numbers) :
    v.Extends (v.merge p) where
  thread := by
    rw [thread_merge]
    exact hv.indexed.extends_receive (by rwa [settle_number])
  colors n c hc := (colorStep_merge hv hp).linkColor?_eq_some hc
  rows n row hrow := by
    have hn : n ≠ p.number := by
      rintro rfl
      exact hp (hv.mem_of_row? hrow)
    rw [row?_merge_of_ne hv.indexed hp hn, hrow]
    refine ⟨_, rfl, ?_⟩
    dsimp only
    split <;> exact ⟨rfl, rfl⟩

theorem extends_handOut (hc : v.linkColor? n = none) : v.Extends (v.handOut n) where
  thread := .refl v.thread
  colors k c hk := by
    have hne : k ≠ n := by
      rintro rfl
      simp [hk] at hc
    rwa [linkColor?, row?_handOut, if_neg hne]
  rows k row hrow := by
    rw [row?_handOut, hrow]
    split
    · exact ⟨_, rfl, rfl, rfl⟩
    · exact ⟨row, rfl, rfl, rfl⟩

theorem Change.extends (hv : v.Aligned) (h : Change v w) : v.Extends w := by
  rcases h.color_cases with hsame | ⟨p, hp, rfl⟩ | ⟨n, -, hc, rfl⟩
  · exact hsame.extends
  · exact extends_merge hv (hv.indexed.contains_eq_false_iff.mp hp)
  · exact extends_handOut hc

theorem extends_run (hv : v.Aligned) (cs : List Command) : v.Extends (v.run cs).1 := by
  induction cs generalizing v with
  | nil => exact .refl v
  | cons c rest ih =>
    have hstep := change_dispatch v c
    rw [run_cons]
    exact (hstep.extends hv).trans (ih (hv.change hstep))

/-! ## The reader -/

theorem identity_toggleFold (v : View) (n : PostNumber) :
    (v.toggleFold n).1.identity = v.identity := by
  obtain ⟨f, fold, -, heq⟩ := toggleFold_eq_mapRows v n
  rw [heq]
  rfl

/-- The reader stays who it is until the host names another. -/
theorem identity_dispatch (hv : v.Aligned) (hc : ∀ i, c ≠ .setIdentity i) :
    (v.dispatch c).view.identity = v.identity := by
  cases hpointer : c.isPointer with
  | true => exact (repainted_dispatch hpointer).2
  | false =>
    cases c with
    | setIdentity i => exact absurd rfl (hc i)
    | toggleFold n =>
      rcases dispatch_eq_perform_or_ignored v (.toggleFold n) with heq | heq
      · rw [heq]
        exact identity_toggleFold v n
      · rw [heq]
    | insert a footer =>
      by_cases hdropped : a.post.number ≠ a.number ∨ v.thread.contains a.number = true
      · rw [dispatch_insert_of_dropped hdropped]
      · rw [not_or, not_not, Bool.not_eq_true] at hdropped
        rw [dispatch_insert hdropped.1 hdropped.2]
        apply identity_merge hv.indexed
        rw [hdropped.1]
        exact hv.indexed.contains_eq_false_iff.mp hdropped.2
    | _ => cases hpointer

theorem identity_run (hv : v.Aligned) {cs : List Command}
    (hcs : ∀ c ∈ cs, ∀ i, c ≠ .setIdentity i) : (v.run cs).1.identity = v.identity := by
  induction cs generalizing v with
  | nil => rfl
  | cons c rest ih =>
    rw [List.forall_mem_cons] at hcs
    rw [run_cons]
    exact (ih (hv.change (change_dispatch v c)) hcs.2).trans (identity_dispatch hv hcs.1)

/-- The badge is that of the first post of the reader. -/
theorem badge_eq (v : View) :
    v.badge = v.identity.bind fun i =>
      (v.thread.posts.find? (·.author = i)).map fun q => ⟨q.marker, q.seed⟩ := by
  rw [badge]
  cases v.identity with
  | none => rfl
  | some i =>
    rw [Option.bind_some, Thread.posts, List.find?_map, Option.map_map]
    exact Option.map_eq_bind.symm

/-- Posts that come later do not change a badge that is shown. -/
theorem Extends.badge (h : v.Extends w) (hidentity : w.identity = v.identity)
    (hb : v.badge = some b) : w.badge = some b := by
  obtain ⟨later, hposts⟩ := h.thread.posts
  rw [badge_eq, Option.bind_eq_some_iff] at hb
  obtain ⟨i, hi, hfirst⟩ := hb
  obtain ⟨q, hq, hbadge⟩ := Option.map_eq_some_iff.mp hfirst
  rw [badge_eq, hidentity, hi, Option.bind_some, ← hposts, List.find?_append, hq, Option.some_or,
    Option.map_some, hbadge]

/-- However a view goes on, its posts come first and in the same order, each as it was
but for further links at the end; a target stays the target, a color stays the color,
and a row stays bound or not, and its link colored as it was. As long as the host does
not name another reader, a badge that is shown stays. -/
theorem Reachable.only_grows (h : Reachable v) (cs : List Command) :
    v.thread.numbers <+: (v.run cs).1.thread.numbers ∧
    (∀ n e, v.thread.get? n = some e → ∃ e', (v.run cs).1.thread.get? n = some e' ∧
      e'.post = e.post ∧ e.links <+: e'.links) ∧
    (∀ n m, v.thread.target? n = some m → (v.run cs).1.thread.target? n = some m) ∧
    (∀ n c, v.linkColor? n = some c → (v.run cs).1.linkColor? n = some c) ∧
    (∀ n row, v.row? n = some row → ∃ row', (v.run cs).1.row? n = some row' ∧
      row'.bound = row.bound ∧ row'.highlight.target.accent = row.highlight.target.accent) ∧
    ((∀ c ∈ cs, ∀ i, c ≠ .setIdentity i) →
      ∀ b, v.badge = some b → (v.run cs).1.badge = some b) := by
  have hextends := extends_run h.aligned cs
  refine ⟨hextends.thread.numbers, hextends.thread.entries, hextends.thread.targets,
    hextends.colors, hextends.rows, ?_⟩
  intro hcs b hb
  exact hextends.badge (identity_run h.aligned hcs) hb

section

open Sample

/-- The view of a post with a reply, for a reader who wrote both. -/
def ownReply : View :=
  ((opened {} single).call (.insert ⟨two, post two (some one)⟩ true)).call
    (.dispatch (.setIdentity (some (post two (some one)).author)))

/-- A second reply, a quote, a fold, and a post that is in the thread already. -/
def goingOn : List Command :=
  [.insert ⟨three, post three (some one)⟩ none, .quote two, .toggleFold three,
    .insert ⟨two, post two none⟩ none]

/-- The first post gains a link, and keeps its color; the link of the first reply keeps
leading to it, and the badge stays. -/
theorem only_grows_ownReply :
    Reachable ownReply ∧ (∀ c ∈ goingOn, ∀ i, c ≠ .setIdentity i) ∧
    [one, two] <+: (ownReply.run goingOn).1.thread.numbers ∧
    (∃ e, (ownReply.run goingOn).1.thread.get? one = some e ∧ [two] <+: e.links) ∧
    (ownReply.run goingOn).1.thread.target? two = some one ∧
    (ownReply.run goingOn).1.linkColor? one = some (Wheel.ofPalette {}).next ∧
    (ownReply.run goingOn).1.badge = some ⟨none, (post two none).seed⟩ := by
  have hopened : Reachable (opened {} single) :=
    .opened (ofSnapshot_eq_ok_iff.mpr ⟨by decide, rfl⟩)
  have hreachable : Reachable ownReply := (hopened.call _).call _
  have hcs : ∀ c ∈ goingOn, ∀ i, c ≠ .setIdentity i := by
    rintro c hc i rfl
    simp [goingOn] at hc
  obtain ⟨hnumbers, hentries, htargets, hcolors, -, hbadge⟩ := hreachable.only_grows goingOn
  refine ⟨hreachable, hcs, hnumbers, ?_, htargets two one (by decide),
    hcolors one _ (by decide), hbadge hcs _ (by decide)⟩
  obtain ⟨e, he⟩ := Option.isSome_iff_exists.mp
    (by decide : (ownReply.thread.get? one).isSome = true)
  obtain ⟨e', he', -, hlinks⟩ := hentries one e he
  have htwo : ownReply.thread.linksOf one = [two] := by decide
  rw [Thread.linksOf_of_get? he] at htwo
  exact ⟨e', he', htwo ▸ hlinks⟩

end

end View

end Discussion
