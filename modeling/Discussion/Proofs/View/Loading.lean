import Discussion.Proofs.Thread.Loading
import Discussion.Proofs.View.Reach

/-!
# Loading a view post by post

Opening a view decorates its rows after the whole thread is built; a live post is
bound and decorated on arrival. Decorating an older row neither reads nor writes
what a new post adds, as long as nobody had named it. So a view that opens on a
part of the posts and inserts the rest is the view that opens on all of them.
-/

namespace Discussion

namespace PostMap

variable {α : Type} {m : PostMap α} {n q : PostNumber} {a : α} {f : α → α}

theorem modify_insert_of_ne (hq : m.contains q = false) (hne : q ≠ n) :
    (m.insert q a).modify n f = (m.modify n f).insert q a := by
  have hmodify : (m.modify n f).contains q = false := by
    rw [← Bool.not_eq_true, contains_iff, keys_modify, ← contains_iff, Bool.not_eq_true]
    exact hq
  rw [insert, insert, if_neg (by simp [hq]), if_neg (by simp [hmodify])]
  simp [modify, map, hne]

theorem get?_eq_some_of_mem (hnodup : m.keys.Nodup) (he : (n, a) ∈ m.entries) :
    m.get? n = some a := by
  obtain ⟨entries⟩ := m
  simp only [keys, get?] at hnodup he ⊢
  induction entries with
  | nil => simp at he
  | cons e rest ih =>
    rw [List.map_cons, List.nodup_cons] at hnodup
    rcases List.mem_cons.mp he with rfl | he
    · simp
    · have hne : n ≠ e.1 := by
        rintro rfl
        exact hnodup.1 (List.mem_map.mpr ⟨(e.1, a), he, rfl⟩)
      rw [List.lookup_cons, beq_false_of_ne hne]
      exact ih hnodup.2 he

/-- A change that leaves the value under its key alone changes nothing. -/
theorem modify_eq_self (hnodup : m.keys.Nodup) (h : ∀ a, m.get? n = some a → f a = a) :
    m.modify n f = m := by
  have hentries : m.entries.map (fun e => (e.1, if e.1 = n then f e.2 else e.2)) = m.entries := by
    rw [List.map_congr_left (g := id), List.map_id]
    rintro ⟨k, a⟩ he
    dsimp only
    split
    · rename_i hk
      rw [h a (hk ▸ get?_eq_some_of_mem hnodup he)]
      rfl
    · rfl
  rw [modify, map, hentries]

end PostMap

namespace View

variable {v w : View} {p : Post} {n m : PostNumber} {settings : Settings} {s : Snapshot}

/-- The view with one more post and its bare row. -/
def grow (v : View) (p : Post) : View :=
  { v with
    thread := v.thread.receive p
    rows := v.rows.insert p.number {} }

/-- The post is new to the view, and no post of the view names it. -/
structure Fresh (v : View) (p : Post) : Prop where
  aligned : v.Aligned
  new : p.number ∉ v.thread.numbers
  unnamed : ∀ n, ¬ v.thread.Names n p.number

theorem row?_grow (hn : n ≠ p.number) : (v.grow p).row? n = v.row? n := by
  rw [row?, grow, PostMap.get?_insert, if_neg hn]
  rfl

theorem row?_grow_self (v : View) (p : Post) : (v.grow p).row? p.number = some {} := by
  rw [row?, grow, PostMap.get?_insert, if_pos rfl]

theorem linkColor?_grow (hn : n ≠ p.number) : (v.grow p).linkColor? n = v.linkColor? n := by
  rw [linkColor?, linkColor?, row?_grow hn]

theorem Aligned.grow (h : v.Aligned) (hp : p.number ∉ v.thread.numbers) :
    (v.grow p).Aligned where
  indexed := h.indexed.receive hp
  keys := by
    have hnew : v.rows.contains p.number = false := by
      rw [← Bool.not_eq_true, PostMap.contains_iff, h.keys]
      exact hp
    rw [View.grow, PostMap.keys_insert_of_not_contains hnew, h.keys, Thread.numbers_receive]

namespace Fresh

theorem of_sameLayout (h : v.Fresh p) (hvw : v.SameLayout w) : w.Fresh p where
  aligned := h.aligned.of_sameLayout hvw
  new := by
    rw [hvw.thread]
    exact h.new
  unnamed := by
    rw [hvw.thread]
    exact h.unnamed

theorem rows_contains (h : v.Fresh p) : v.rows.contains p.number = false := by
  rw [← Bool.not_eq_true, PostMap.contains_iff, h.aligned.keys]
  exact h.new

theorem contains_grow (h : v.Fresh p) (hn : n ≠ p.number) :
    (v.grow p).thread.contains n = v.thread.contains n := by
  have hindexed := h.aligned.indexed.receive h.new
  rw [Bool.eq_iff_iff, h.aligned.indexed.contains_iff]
  refine hindexed.contains_iff.trans ?_
  simp [hn]

theorem target?_grow (h : v.Fresh p) (hn : n ≠ p.number) :
    (v.grow p).thread.target? n = v.thread.target? n := by
  have hextend := h.aligned.indexed.extend h.new
  rw [grow, Thread.receive, hextend.target?_bind,
    h.aligned.indexed.target?_extend h.new hn (h.unnamed n)]

/-- The entry of an older post has the same post as before. -/
theorem get?_grow (h : v.Fresh p) (hn : n ≠ p.number) :
    ((v.grow p).thread.get? n).map (·.post) = (v.thread.get? n).map (·.post) := by
  have hextend := h.aligned.indexed.extend h.new
  rw [grow, Thread.receive, hextend.get?_bind, h.aligned.indexed.get?_extend h.new, if_neg hn,
    Option.map_map]
  congr 1
  funext e
  rw [Function.comp_apply]
  split
  · exact Thread.post_link e p.number
  · rfl

/-! ## Decorating older rows -/

theorem modifyRow_grow (h : v.Fresh p) (hn : n ≠ p.number) (f : Row → Row) :
    (v.grow p).modifyRow n f = (v.modifyRow n f).grow p := by
  simp only [grow, modifyRow, PostMap.modify_insert_of_ne h.rows_contains (Ne.symm hn)]

theorem requestColor_grow (h : v.Fresh p) (hn : n ≠ p.number) :
    (v.grow p).requestColor n = ((v.requestColor n).1.grow p, (v.requestColor n).2) := by
  rw [requestColor, requestColor, h.contains_grow hn, linkColor?_grow hn]
  split
  · cases v.linkColor? n with
    | none =>
      dsimp only
      rw [h.modifyRow_grow hn]
      rfl
    | some c => rfl
  · rfl

theorem decorate_grow (h : v.Fresh p) (hn : n ≠ p.number) :
    (v.grow p).decorate n = (v.decorate n).grow p := by
  have hget := h.get?_grow hn
  rw [decorate, decorate]
  cases he : v.thread.get? n with
  | none =>
    rw [he, Option.map_none, Option.map_eq_none_iff] at hget
    rw [hget]
  | some e =>
    rw [he, Option.map_some, Option.map_eq_some_iff] at hget
    obtain ⟨e', he', hpost⟩ := hget
    have hbound : (v.grow p).isBound n = v.isBound n := by rw [isBound, isBound, row?_grow hn]
    rw [he']
    dsimp only
    rw [hbound, hpost]
    split
    · rfl
    · have hfresh : (v.modifyRow n fun row => { row with bound := true }).Fresh p := by
        apply h.of_sameLayout
        apply SameLayout.of_modifyRow
        exact fun _ => rfl
      rw [h.modifyRow_grow hn, hfresh.target?_grow hn]
      cases htarget : (v.modifyRow n fun row => { row with bound := true }).thread.target? n with
      | none => rfl
      | some target =>
        have htargetne : target ≠ p.number := by
          rintro rfl
          exact hfresh.new (hfresh.aligned.indexed.target?_mem htarget)
        have hcolored := hfresh.of_sameLayout (sameLayout_requestColor _ target)
        dsimp only
        rw [hfresh.requestColor_grow htargetne]
        generalize (v.modifyRow n fun row => { row with bound := true }).requestColor target = r
          at hcolored ⊢
        obtain ⟨x, c⟩ := r
        cases c with
        | none => rfl
        | some c => exact hcolored.modifyRow_grow hn _

theorem foldl_decorate_grow (h : v.Fresh p) {ns : List PostNumber} (hns : p.number ∉ ns) :
    ns.foldl decorate (v.grow p) = (ns.foldl decorate v).grow p := by
  induction ns generalizing v with
  | nil => rfl
  | cons n rest ih =>
    rw [List.mem_cons, not_or] at hns
    rw [List.foldl_cons, List.foldl_cons, h.decorate_grow (Ne.symm hns.1)]
    exact ih (h.of_sameLayout (sameLayout_decorate v n)) hns.2

end Fresh

/-! ## One post more -/

/-- A post whose parent is another post of the view enters as it is. -/
theorem settle_eq_self (h : v.thread.Indexed) (hs : v.thread.Settled p) : v.settle p = p := by
  rw [settle]
  cases hparent : p.parent with
  | none => rfl
  | some m =>
    have hm := hs m hparent
    have hcond : ¬ (m = p.number ∨ v.thread.contains m = false) := by
      rw [not_or, Bool.not_eq_false]
      exact ⟨hm.1, h.contains_iff.mpr hm.2⟩
    exact if_neg hcond

/-- Without a fold, a merged post is left as it is seated. -/
theorem merge_eq_seat (hv : v.Aligned) (hp : p.number ∉ v.thread.numbers)
    (hfold : v.fold = none) : v.merge p = v.seat p := by
  have hkeys : (v.seat p).rows.keys.Nodup := by
    have hmerge := hv.merge (hv.indexed.contains_eq_false_iff.mpr hp)
    have hrows : (v.merge p).rows.keys = (v.seat p).rows.keys := PostMap.keys_modify _ _ _
    rw [← hrows, hmerge.keys]
    exact hmerge.indexed.nodup
  have hhidden : (v.seat p).hidesArrival p.number = false := by
    rw [hidesArrival_seat hv.indexed hp, hfold]
    rfl
  have hseat : (v.seat p).place? p.number = some ⟨{}, false⟩ := by
    rw [place?_seat, if_pos rfl]
  have hrows : (v.seat p).rows.modify p.number (fun row =>
      { row with hidden := false, mark := { row.mark with kept := false } }) =
        (v.seat p).rows := by
    apply PostMap.modify_eq_self hkeys
    intro row hrow
    rw [place?, row?, hrow, Option.map_some] at hseat
    obtain ⟨highlight, mark, hidden, linkColor, bound⟩ := row
    cases hseat
    rfl
  rw [merge]
  dsimp only
  rw [hhidden, hfold, modifyRow]
  exact congrArg (fun rows => { v.seat p with rows }) hrows

/-- The bare view of one post more has its row at the end. -/
theorem bare_append (hnodup : ((s.posts ++ [p]).map (·.number)).Nodup)
    (hparent : ∀ q ∈ s.posts, q.parent ≠ some p.number) :
    bare settings { s with posts := s.posts ++ [p] } = (bare settings s).grow p := by
  have hp := (nodup_numbers_append_iff.mp hnodup).2
  have hrows : (bare settings s).rows.contains p.number = false := by
    rw [← Bool.not_eq_true, PostMap.contains_iff]
    simpa [bare, PostMap.keys, Function.comp_def, Thread.numbers_opened] using hp
  have hthread := Thread.opened_append hnodup hparent
  have hnumbers := Thread.numbers_opened_append s p
  simp only [bare, grow] at hrows ⊢
  rw [hnumbers, hthread, PostMap.insert, if_neg (by simp [hrows]), List.map_append]
  rfl

theorem fresh_bare (hnodup : (s.posts.map (·.number)).Nodup)
    (hp : p.number ∉ s.posts.map (·.number))
    (hparent : ∀ q ∈ s.posts, q.parent ≠ some p.number) : (bare settings s).Fresh p where
  aligned := aligned_bare hnodup
  new := by rwa [bare, Thread.numbers_opened]
  unnamed := by
    rintro n ⟨q, hq, -, hqp⟩
    rw [bare, Thread.posts_opened] at hq
    exact hparent q hq hqp

/-- A view that opens on one post more is the view that merges this post. -/
theorem merge_opened (hnodup : ((s.posts ++ [p]).map (·.number)).Nodup)
    (hfirst : ParentsFirst (s.posts ++ [p])) :
    (opened settings s).merge p = opened settings { s with posts := s.posts ++ [p] } := by
  obtain ⟨hstart, hp⟩ := nodup_numbers_append_iff.mp hnodup
  have hparent : ∀ q ∈ s.posts, q.parent ≠ some p.number := fun q hq heq =>
    hp (hfirst.of_append.mem_of_parent hq heq)
  have hopened : (opened settings s).Aligned :=
    aligned_opened (ofSnapshot_eq_ok_iff.mpr ⟨hstart, rfl⟩)
  have hnew : p.number ∉ (opened settings s).thread.numbers := by rwa [numbers_opened]
  have hsettled : (opened settings s).thread.Settled p := by
    intro m hm
    have hmem := hfirst.parent_mem hm
    rw [numbers_opened]
    refine ⟨?_, hmem⟩
    rintro rfl
    exact hp hmem
  rw [merge_eq_seat hopened hnew (fold_opened settings s), seat,
    settle_eq_self hopened.indexed hsettled]
  have hns : p.number ∉ (Thread.opened s).numbers := by rwa [Thread.numbers_opened]
  have hfresh : (bare settings s).Fresh p := fresh_bare hstart hp hparent
  have hdecorated := hfresh.foldl_decorate_grow hns
  calc decorate ((opened settings s).grow p) p.number
      = decorate ((Thread.opened s).numbers.foldl decorate ((bare settings s).grow p))
          p.number := by rw [hdecorated, opened]
    _ = ((Thread.opened s).numbers ++ [p.number]).foldl decorate ((bare settings s).grow p) := by
        rw [List.foldl_append, List.foldl_cons, List.foldl_nil]
    _ = opened settings { s with posts := s.posts ++ [p] } := by
        rw [opened, Thread.numbers_opened_append, bare_append hnodup hparent]

/-! ## All posts -/

/-- Inserts live posts in order. Each comes with whether the page was scrolled to
its end just before. -/
def insertAll (v : View) : List (Post × Bool) → Except Rejection View
  | [] => .ok v
  | (p, atBottom) :: rest => v.insert ⟨p.number, p⟩ atBottom >>= fun r => r.1.insertAll rest

theorem insertAll_opened {rest : List (Post × Bool)}
    (hnodup : ((s.posts ++ rest.map (·.1)).map (·.number)).Nodup)
    (hfirst : ParentsFirst (s.posts ++ rest.map (·.1))) :
    (opened settings s).insertAll rest =
      .ok (opened settings { s with posts := s.posts ++ rest.map (·.1) }) := by
  induction rest generalizing s with
  | nil => simp [insertAll]
  | cons r rest ih =>
    obtain ⟨p, atBottom⟩ := r
    rw [List.map_cons, List.append_cons] at hnodup hfirst ⊢
    have hnext : ((s.posts ++ [p]).map (·.number)).Nodup := by
      rw [List.map_append] at hnodup
      exact (List.nodup_append.mp hnodup).1
    obtain ⟨hstart, hp⟩ := nodup_numbers_append_iff.mp hnext
    have hmerge : (opened settings s).merge p =
        opened settings { s with posts := s.posts ++ [p] } :=
      merge_opened hnext hfirst.of_append
    have hopened : (opened settings s).Aligned :=
      aligned_opened (ofSnapshot_eq_ok_iff.mpr ⟨hstart, rfl⟩)
    have hnew : (opened settings s).thread.contains p.number = false := by
      rw [hopened.indexed.contains_eq_false_iff, numbers_opened]
      exact hp
    rw [insertAll, insert_eq, if_neg (not_not_intro rfl), if_neg (by simp [hnew]), hmerge]
    exact ih (s := { s with posts := s.posts ++ [p] }) hnodup hfirst

/-- Posts with distinct numbers, each of them after its parent, can be loaded at
once or inserted in part: both succeed, and the two views are the same. -/
theorem insertAll_eq_ofSnapshot (settings : Settings) (s : Snapshot) (rest : List (Post × Bool))
    (hnodup : ((s.posts ++ rest.map (·.1)).map (·.number)).Nodup)
    (hfirst : ParentsFirst (s.posts ++ rest.map (·.1))) :
    ∃ start whole, View.ofSnapshot settings s = .ok start ∧
      View.ofSnapshot settings { s with posts := s.posts ++ rest.map (·.1) } = .ok whole ∧
      start.insertAll rest = .ok whole := by
  have hstart : (s.posts.map (·.number)).Nodup := by
    rw [List.map_append] at hnodup
    exact (List.nodup_append.mp hnodup).1
  exact ⟨_, _, ofSnapshot_eq_ok_iff.mpr ⟨hstart, rfl⟩, ofSnapshot_eq_ok_iff.mpr ⟨hnodup, rfl⟩,
    insertAll_opened hnodup hfirst⟩

section

open Sample

/-- A thread of one post. -/
def single : Snapshot := snapshot [post one none]

/-- Two posts that arrive, each a reply to the one before. -/
def replies : List (Post × Bool) :=
  [(post two (some one), true), (post three (some two), false)]

theorem insertAll_eq_ofSnapshot_single :
    ((single.posts ++ replies.map (·.1)).map (·.number)).Nodup ∧
    ParentsFirst (single.posts ++ replies.map (·.1)) ∧
    ∃ start whole, View.ofSnapshot {} single = .ok start ∧
      View.ofSnapshot {} { single with posts := single.posts ++ replies.map (·.1) } = .ok whole ∧
      start.insertAll replies = .ok whole :=
  ⟨by decide, by decide, insertAll_eq_ofSnapshot {} single replies (by decide) (by decide)⟩

end

end View

end Discussion
