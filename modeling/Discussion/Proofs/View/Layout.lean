import Discussion.Proofs.Thread.Arrival
import Discussion.Proofs.View.Retouch

/-!
# The layout of a view

The layout of a view is its thread, its fold, and for each row the mark of the
fold and whether the row is hidden. Retouching, link colors and decoration keep
it; folding, unfolding and merging a post are what changes it.
-/

namespace Discussion

namespace PostMap

variable {α : Type}

theorem contains_iff (m : PostMap α) (n : PostNumber) : m.contains n = true ↔ n ∈ m.keys := by
  obtain ⟨entries⟩ := m
  simp only [contains, get?, keys]
  induction entries with
  | nil => simp
  | cons e rest ih =>
    rw [List.lookup_cons, List.map_cons, List.mem_cons]
    by_cases h : n = e.1
    · simp [h]
    · simp [h, beq_false_of_ne h, ih]

theorem exists_of_mem_keys {m : PostMap α} {n : PostNumber} (h : n ∈ m.keys) :
    ∃ a, m.get? n = some a :=
  Option.isSome_iff_exists.mp ((contains_iff m n).mpr h)

theorem mem_of_get? {m : PostMap α} {n : PostNumber} {a : α} (h : m.get? n = some a) :
    (n, a) ∈ m.entries := by
  obtain ⟨before, after, heq, -⟩ := List.lookup_eq_some_iff.mp h
  rw [heq]
  exact List.mem_append_right _ List.mem_cons_self

end PostMap

/-- The mark of the fold on a row, and whether the row is hidden. -/
structure Place where
  mark : FoldMark
  hidden : Bool
deriving DecidableEq

/-- Where the fold has put a row. -/
def Row.place (row : Row) : Place := ⟨row.mark, row.hidden⟩

namespace View

variable {v w x : View} {n k : PostNumber} {p : Post}

/-- Where the fold has put the row of a post. -/
def place? (v : View) (n : PostNumber) : Option Place := (v.row? n).map Row.place

theorem place?_eq_some_iff {a : Place} :
    v.place? n = some a ↔ ∃ row, v.row? n = some row ∧ row.place = a := by
  rw [place?, Option.map_eq_some_iff]

/-- The views `v` and `w` differ in highlights, colors and the reader only. -/
structure SameLayout (v w : View) : Prop where
  thread : w.thread = v.thread
  fold : w.fold = v.fold
  page : w.page = v.page
  keys : w.rows.keys = v.rows.keys
  place : ∀ n, w.place? n = v.place? n

namespace SameLayout

theorem refl (v : View) : v.SameLayout v := ⟨rfl, rfl, rfl, rfl, fun _ => rfl⟩

theorem trans (hvw : v.SameLayout w) (hwx : w.SameLayout x) : v.SameLayout x where
  thread := hwx.thread.trans hvw.thread
  fold := hwx.fold.trans hvw.fold
  page := hwx.page.trans hvw.page
  keys := hwx.keys.trans hvw.keys
  place n := (hwx.place n).trans (hvw.place n)

/-- A change of rows that leaves each of them in its place. -/
theorem of_mapRows {f : PostNumber → Row → Row} (hf : ∀ n row, (f n row).place = row.place) :
    v.SameLayout (v.mapRows f) where
  thread := rfl
  fold := rfl
  page := rfl
  keys := PostMap.keys_map _ _
  place n := by
    rw [place?, place?, row?, row?, mapRows, PostMap.get?_map, Option.map_map]
    congr 1
    exact funext fun row => hf n row

theorem of_modifyRow {f : Row → Row} (hf : ∀ row, (f row).place = row.place)
    (n : PostNumber) : v.SameLayout (v.modifyRow n f) := by
  apply of_mapRows
  intro k row
  split
  · exact hf row
  · rfl

end SameLayout

theorem Retouched.sameLayout (h : v.Retouched w) : v.SameLayout w := by
  obtain ⟨f, identity, hf, rfl⟩ := h
  have hrows : v.SameLayout (v.mapRows f) := by
    apply SameLayout.of_mapRows
    intro n row
    rw [(hf n row).1]
    rfl
  exact ⟨hrows.thread, hrows.fold, hrows.page, hrows.keys, hrows.place⟩

theorem sameLayout_requestColor (v : View) (n : PostNumber) :
    v.SameLayout (v.requestColor n).1 := by
  rw [requestColor]
  split
  · split
    · exact .refl v
    · have hrow : v.SameLayout (v.modifyRow n fun row =>
          { row with
            linkColor := some v.wheel.next
            highlight := row.highlight.colorize .number v.wheel.next }) := by
        apply SameLayout.of_modifyRow
        exact fun _ => rfl
      exact ⟨hrow.thread, hrow.fold, hrow.page, hrow.keys, hrow.place⟩
  · exact .refl v

/-- Decoration leaves every row in its place. -/
theorem sameLayout_decorate (v : View) (n : PostNumber) : v.SameLayout (v.decorate n) := by
  rw [decorate]
  split
  · exact .refl v
  · split
    · exact .refl v
    · have hbound : v.SameLayout (v.modifyRow n fun row => { row with bound := true }) := by
        apply SameLayout.of_modifyRow
        exact fun _ => rfl
      dsimp only
      split
      · exact hbound
      · rename_i target _
        have hcolor := hbound.trans (sameLayout_requestColor _ target)
        split
        · rename_i heq
          rw [heq] at hcolor
          exact hcolor
        · rename_i heq
          rw [heq] at hcolor
          apply hcolor.trans
          apply SameLayout.of_modifyRow
          exact fun _ => rfl

/-! ## Folding -/

@[simp]
theorem thread_foldAround (v : View) (n : PostNumber) : (v.foldAround n).1.thread = v.thread := by
  rw [foldAround]
  split <;> rfl

theorem fold_foldAround (hn : v.thread.contains n = true) :
    (v.foldAround n).1.fold = some n := by
  rw [foldAround, if_pos hn]

theorem place?_foldAround (hn : v.thread.contains n = true) (k : PostNumber) :
    (v.foldAround n).1.place? k =
      (v.place? k).map fun _ =>
        ⟨⟨k ∈ v.thread.conversation n, k = n⟩, k ∉ v.thread.conversation n⟩ := by
  rw [foldAround, if_pos hn]
  simp only [place?, row?, mapRows, PostMap.get?_map, Option.map_map]
  rfl

theorem place?_unfold (v : View) (k : PostNumber) :
    v.unfold.place? k = (v.place? k).map fun _ => ⟨{}, false⟩ := by
  simp only [unfold, place?, row?, mapRows, PostMap.get?_map, Option.map_map]
  rfl

/-- Unfolding first makes no difference to a fold. -/
theorem unfold_foldAround (hn : v.thread.contains n = true) :
    v.unfold.foldAround n = v.foldAround n := by
  have hn' : v.unfold.thread.contains n = true := hn
  rw [foldAround, foldAround, if_pos hn, if_pos hn']
  simp only [unfold, mapRows, PostMap.map_map]
  rfl

/-! ## Merging a post -/

theorem settle_number (v : View) (p : Post) : (v.settle p).number = p.number := by
  rw [settle]
  split
  · rfl
  · split <;> rfl

/-- What is left of a post's parent is another post of the thread. -/
theorem settled_settle (h : v.thread.Indexed) (p : Post) : v.thread.Settled (v.settle p) := by
  intro m hm
  rw [settle_number]
  rw [settle] at hm
  split at hm
  · rename_i hparent
    simp [hparent] at hm
  · rename_i parent hparent
    split at hm
    · simp at hm
    · rename_i hcond
      rw [hparent] at hm
      obtain rfl := Option.some.inj hm
      rw [not_or, Bool.not_eq_false] at hcond
      exact ⟨hcond.1, h.contains_iff.mp hcond.2⟩

/-- The view once a post has its entry and its decorated row. -/
def seat (v : View) (p : Post) : View :=
  View.decorate
    { v with
      thread := v.thread.receive (v.settle p)
      rows := v.rows.insert p.number {} }
    p.number

/-- The view after a post has been merged: the fold decides about its row. -/
def merge (v : View) (p : Post) : View :=
  let hidden := (v.seat p).hidesArrival p.number
  (v.seat p).modifyRow p.number fun row =>
    { row with hidden, mark := { row.mark with kept := v.fold.isSome && !hidden } }

/-- A live post is dropped, or it is merged. -/
theorem insert_eq (v : View) (a : Arrival) (atBottom : Bool) :
    v.insert a atBottom =
      if a.post.number ≠ a.number then .error (.misplaced a.number a.post.number)
      else if v.thread.contains a.number then .error (.refused (.duplicate a.number))
      else .ok (v.merge a.post,
        [.announce (.insertedPost a.number), .badge (v.seat a.post).badge] ++
          if atBottom then [.scrollTo .composer] else []) := by
  rw [insert]
  split
  · rfl
  · rename_i hnum
    rw [not_not] at hnum
    cases hc : v.thread.contains a.number with
    | true =>
      have hc' : v.thread.contains (v.settle a.post).number = true := by
        rw [settle_number, hnum, hc]
      rw [Thread.push_of_contains hc', settle_number, hnum]
      rfl
    | false =>
      have hc' : v.thread.contains (v.settle a.post).number = false := by
        rw [settle_number, hnum, hc]
      have hfold := (sameLayout_decorate
        { v with
          thread := v.thread.receive (v.settle a.post)
          rows := v.rows.insert a.number {} } a.number).fold
      rw [Thread.push_of_not_contains hc', if_neg Bool.false_ne_true]
      simp only [merge, seat, Thread.receive, settle_number, hnum] at hfold ⊢
      rw [hfold]

/-- The entry and the bare row that a post gets when it is merged. -/
theorem sameLayout_seat (v : View) (p : Post) :
    SameLayout { v with
      thread := v.thread.receive (v.settle p)
      rows := v.rows.insert p.number {} } (v.seat p) :=
  sameLayout_decorate _ p.number

theorem thread_merge (v : View) (p : Post) :
    (v.merge p).thread = v.thread.receive (v.settle p) :=
  (sameLayout_seat v p).thread

theorem fold_merge (v : View) (p : Post) : (v.merge p).fold = v.fold :=
  (sameLayout_seat v p).fold

theorem page_merge (v : View) (p : Post) : (v.merge p).page = v.page :=
  (sameLayout_seat v p).page

theorem keys_merge (hp : p.number ∉ v.rows.keys) :
    (v.merge p).rows.keys = v.rows.keys ++ [p.number] := by
  have hnew : v.rows.contains p.number = false := by
    rw [← Bool.not_eq_true, PostMap.contains_iff]
    exact hp
  calc (v.merge p).rows.keys = (v.seat p).rows.keys := PostMap.keys_modify _ _ _
    _ = (v.rows.insert p.number {}).keys := (sameLayout_seat v p).keys
    _ = v.rows.keys ++ [p.number] := PostMap.keys_insert_of_not_contains hnew _

theorem place?_seat (v : View) (p : Post) (k : PostNumber) :
    (v.seat p).place? k = if k = p.number then some ⟨{}, false⟩ else v.place? k := by
  rw [(sameLayout_seat v p).place]
  simp only [place?, row?, PostMap.get?_insert]
  split <;> rfl

/-- A merged post leaves the other rows in their places. -/
theorem place?_merge_of_ne (hk : k ≠ p.number) : (v.merge p).place? k = v.place? k := by
  have hseat : (v.seat p).place? k = v.place? k := by rw [place?_seat, if_neg hk]
  rw [← hseat, merge, place?, row?, modifyRow, PostMap.get?_modify, if_neg hk]
  rfl

/-- Whether the row of a post is visible and kept by the fold. -/
def keeps (v : View) (n : PostNumber) : Bool :=
  (v.place? n).any fun a => !a.hidden && a.mark.kept

/-- A fold hides an arrival unless it keeps the target. -/
theorem hidesArrival_eq (v : View) (n : PostNumber) :
    v.hidesArrival n = (v.fold.isSome && !(v.thread.target? n).any v.keeps) := by
  rw [hidesArrival]
  cases v.fold with
  | none => rfl
  | some pivot =>
    cases v.thread.target? n with
    | none => rfl
    | some m =>
      rw [Option.bind_some, Option.any_some, keeps, place?]
      cases v.row? m with
      | none => rfl
      | some row => simp [Row.place]

theorem hidesArrival_seat (h : v.thread.Indexed) (hp : p.number ∉ v.thread.numbers) :
    (v.seat p).hidesArrival p.number =
      (v.fold.isSome && !(v.settle p).parent.any v.keeps) := by
  have hp' : (v.settle p).number ∉ v.thread.numbers := by rwa [settle_number]
  have htarget : (v.seat p).thread.target? p.number = (v.settle p).parent := by
    rw [(sameLayout_seat v p).thread, ← settle_number v p]
    exact h.target?_receive_self hp' (settled_settle h p)
  rw [hidesArrival_eq, (sameLayout_seat v p).fold, htarget]
  cases hparent : (v.settle p).parent with
  | none => rfl
  | some m =>
    have hm : m ≠ p.number := settle_number v p ▸ (settled_settle h p m hparent).1
    have hkeeps : (v.seat p).keeps m = v.keeps m := by
      rw [keeps, keeps, place?_seat, if_neg hm]
    rw [Option.any_some, Option.any_some, hkeeps]

/-- A fold keeps a merged post if it keeps the parent; without a fold nothing is
hidden. -/
theorem place?_merge_self (h : v.thread.Indexed) (hp : p.number ∉ v.thread.numbers) :
    (v.merge p).place? p.number =
      some (if v.fold.isSome then
        ⟨⟨(v.settle p).parent.any v.keeps, false⟩, !(v.settle p).parent.any v.keeps⟩
      else ⟨{}, false⟩) := by
  have hrow : (v.seat p).place? p.number = some ⟨{}, false⟩ := by
    rw [place?_seat, if_pos rfl]
  obtain ⟨row, hget, hplace⟩ := place?_eq_some_iff.mp hrow
  have hmark : row.mark = {} := congrArg Place.mark hplace
  rw [merge, place?, row?, modifyRow, PostMap.get?_modify, if_pos rfl,
    show (v.seat p).rows.get? p.number = some row from hget, hidesArrival_seat h hp]
  cases v.fold with
  | none => simp [Row.place, hmark]
  | some pivot => simp [Row.place, hmark]

end View

end Discussion
