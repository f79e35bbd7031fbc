import Discussion.Proofs.Thread.Conversation
import Discussion.Proofs.Thread.Growth

/-!
# Arrivals

A thread receives a post by adding it at the end and binding it. The parent of
such a post, if it has one, is another post that is there already. A thread
that grew by arrivals therefore keeps the replies among its old posts, and the
targets of what arrived lead to an old post or to an arrival without a target.
-/

namespace Discussion

namespace Thread

open Relation (ReflTransGen)

variable {t old : Thread} {p : Post} {n m k : PostNumber}

/-- The thread after a post has been added and bound. -/
def receive (t : Thread) (p : Post) : Thread := (t.extend p).bind p.number

/-- The parent of `p`, if it names one, is another post of the thread. -/
def Settled (t : Thread) (p : Post) : Prop :=
  ∀ m, p.parent = some m → m ≠ p.number ∧ m ∈ t.numbers

@[simp]
theorem posts_receive (t : Thread) (p : Post) : (t.receive p).posts = t.posts ++ [p] := by
  rw [receive, posts_bind, posts_extend]

@[simp]
theorem numbers_receive (t : Thread) (p : Post) :
    (t.receive p).numbers = t.numbers ++ [p.number] := by
  rw [receive, numbers_bind, numbers_extend]

theorem mem_numbers_receive : n ∈ (t.receive p).numbers ↔ n ∈ t.numbers ∨ n = p.number := by
  simp

theorem names_receive :
    (t.receive p).Names n m ↔ t.Names n m ∨ (p.number = n ∧ p.parent = some m) := by
  rw [receive, names_bind, names_extend]

theorem Indexed.receive (h : t.Indexed) (hp : p.number ∉ t.numbers) :
    (t.receive p).Indexed :=
  (h.extend hp).bind p.number

/-- A new post has an entry without links. -/
theorem Indexed.get?_receive_self (h : t.Indexed) (hp : p.number ∉ t.numbers) :
    (t.receive p).get? p.number = some { post := p } := by
  have hextend := h.extend hp
  have hself : (t.extend p).target? p.number ≠ some p.number :=
    fun htarget => hextend.target?_ne htarget rfl
  rw [Thread.receive, hextend.get?_bind, h.get?_extend hp, if_pos rfl, Option.map_some,
    if_neg hself]

theorem names_receive_self (hp : p.number ∉ t.numbers) :
    (t.receive p).Names p.number m ↔ p.parent = some m := by
  rw [names_receive]
  constructor
  · rintro (hnames | ⟨-, hparent⟩)
    · exact absurd hnames.mem hp
    · exact hparent
  · intro hparent
    exact Or.inr ⟨rfl, hparent⟩

theorem names_receive_of_mem (hp : p.number ∉ t.numbers) (hn : n ∈ t.numbers) :
    (t.receive p).Names n m ↔ t.Names n m := by
  rw [names_receive]
  constructor
  · rintro (hnames | ⟨rfl, -⟩)
    · exact hnames
    · exact absurd hn hp
  · exact Or.inl

/-- A new post replies to its parent. -/
theorem Indexed.target?_receive_self (h : t.Indexed) (hp : p.number ∉ t.numbers)
    (hs : t.Settled p) : (t.receive p).target? p.number = p.parent := by
  apply Option.ext
  intro m
  rw [(h.receive hp).target?_eq_some_iff, names_receive_self hp]
  constructor
  · exact fun hm => hm.1
  · intro hm
    exact ⟨hm, (hs m hm).1, mem_numbers_receive.mpr (Or.inl (hs m hm).2)⟩

/-- A post that was there replies to the post it replied to, unless it named
the new post as its parent. -/
theorem Indexed.replies_receive_iff (h : t.Indexed) (hp : p.number ∉ t.numbers)
    (hn : n ∈ t.numbers) :
    (t.receive p).Replies n m ↔ t.Replies n m ∨ (m = p.number ∧ t.Names n m) := by
  rw [Replies, (h.receive hp).target?_eq_some_iff, names_receive_of_mem hp hn, Replies,
    h.target?_eq_some_iff, mem_numbers_receive]
  constructor
  · rintro ⟨hnames, hne, hm | rfl⟩
    · exact Or.inl ⟨hnames, hne, hm⟩
    · exact Or.inr ⟨rfl, hnames⟩
  · rintro (⟨hnames, hne, hm⟩ | ⟨rfl, hnames⟩)
    · exact ⟨hnames, hne, Or.inl hm⟩
    · refine ⟨hnames, ?_, Or.inr rfl⟩
      rintro rfl
      exact hp hn

/-! ## Growth by arrivals -/

/-- The post `n` has arrived since `old`, and replies to `m`. -/
def ArrivedReply (old t : Thread) (n m : PostNumber) : Prop :=
  n ∉ old.numbers ∧ t.Replies n m

/-- A post that was there leads through arrivals to itself only. -/
theorem eq_of_arrivedPath (hn : n ∈ old.numbers)
    (hpath : ReflTransGen (ArrivedReply old t) n m) : n = m := by
  rcases ReflTransGen.cases_head hpath with heq | ⟨k, hk, -⟩
  · exact heq
  · exact absurd hn hk.1

theorem Indexed.mem_conversation_of_arrivedPath (h : t.Indexed) (hk : k ∈ t.numbers)
    (hn : n ∈ t.conversation k) (hpath : ReflTransGen (ArrivedReply old t) n m) :
    m ∈ t.conversation k := by
  induction hpath with
  | refl => exact hn
  | tail _ hstep ih => exact h.mem_conversation_of_replies hk ih hstep.2

/-- The thread `t` has grown from `old` by arrivals. -/
structure GrownFrom (old t : Thread) : Prop where
  indexed : t.Indexed
  present : ∀ n ∈ old.numbers, n ∈ t.numbers
  names : ∀ n ∈ old.numbers, ∀ m, t.Names n m ↔ old.Names n m
  settled : ∀ n m, n ∉ old.numbers → t.Names n m → m ≠ n ∧ m ∈ t.numbers
  ends : ∀ n ∈ t.numbers, ∃ m, ReflTransGen (ArrivedReply old t) n m ∧
    (m ∈ old.numbers ∨ t.target? m = none)

namespace GrownFrom

theorem refl (h : t.Indexed) : GrownFrom t t where
  indexed := h
  present _ hn := hn
  names _ _ _ := Iff.rfl
  settled _ _ hn hnames := absurd hnames.mem hn
  ends n hn := ⟨n, .refl, Or.inl hn⟩

/-- Among old posts, the replies are the old ones. -/
theorem replies_iff (g : GrownFrom old t) (hold : old.Indexed) (hn : n ∈ old.numbers)
    (hm : m ∈ old.numbers) : t.Replies n m ↔ old.Replies n m := by
  rw [Replies, g.indexed.target?_eq_some_iff, Replies, hold.target?_eq_some_iff,
    g.names n hn m]
  simp [hm, g.present m hm]

/-- What arrived before `p` replies to what it replied to before `p` came. -/
theorem arrivedReply_receive (g : GrownFrom old t) (hp : p.number ∉ t.numbers)
    (hn : n ∈ t.numbers) :
    ArrivedReply old (t.receive p) n m ↔ ArrivedReply old t n m := by
  rw [ArrivedReply, ArrivedReply, g.indexed.replies_receive_iff hp hn]
  constructor
  · rintro ⟨hnew, hreply | ⟨rfl, hnames⟩⟩
    · exact ⟨hnew, hreply⟩
    · exact absurd (g.settled n p.number hnew hnames).2 hp
  · rintro ⟨hnew, hreply⟩
    exact ⟨hnew, Or.inl hreply⟩

theorem path_receive (g : GrownFrom old t) (hp : p.number ∉ t.numbers) (hn : n ∈ t.numbers) :
    ReflTransGen (ArrivedReply old (t.receive p)) n m ↔
      ReflTransGen (ArrivedReply old t) n m := by
  constructor
  · intro hpath
    induction hpath using ReflTransGen.head_induction_on with
    | refl => exact .refl
    | head hstep _ ih =>
      have hstep := (g.arrivedReply_receive hp hn).mp hstep
      exact .head hstep (ih (g.indexed.target?_mem hstep.2))
  · intro hpath
    induction hpath using ReflTransGen.head_induction_on with
    | refl => exact .refl
    | head hstep _ ih =>
      exact .head ((g.arrivedReply_receive hp hn).mpr hstep)
        (ih (g.indexed.target?_mem hstep.2))

/-- The new post leads to what its parent leads to, and to itself. -/
theorem path_receive_self (g : GrownFrom old t) (hp : p.number ∉ t.numbers)
    (hs : t.Settled p) :
    ReflTransGen (ArrivedReply old (t.receive p)) p.number m ↔
      m = p.number ∨ ∃ k, p.parent = some k ∧ ReflTransGen (ArrivedReply old t) k m := by
  have htarget := g.indexed.target?_receive_self hp hs
  have hnew : p.number ∉ old.numbers := fun h => hp (g.present _ h)
  rw [ReflTransGen.cases_head_iff]
  constructor
  · rintro (rfl | ⟨k, hk, hpath⟩)
    · exact Or.inl rfl
    · have hparent : p.parent = some k := htarget.symm.trans hk.2
      exact Or.inr ⟨k, hparent, (g.path_receive hp (hs k hparent).2).mp hpath⟩
  · rintro (rfl | ⟨k, hk, hpath⟩)
    · exact Or.inl rfl
    · exact Or.inr ⟨k, ⟨hnew, htarget.trans hk⟩, (g.path_receive hp (hs k hk).2).mpr hpath⟩

/-- Receiving a settled post is growth by an arrival. -/
theorem receive (g : GrownFrom old t) (hp : p.number ∉ t.numbers) (hs : t.Settled p) :
    GrownFrom old (t.receive p) where
  indexed := g.indexed.receive hp
  present n hn := mem_numbers_receive.mpr (Or.inl (g.present n hn))
  names n hn m := (names_receive_of_mem hp (g.present n hn)).trans (g.names n hn m)
  settled n m hn hnames := by
    rw [mem_numbers_receive]
    rcases names_receive.mp hnames with hnames | ⟨rfl, hparent⟩
    · have hm := g.settled n m hn hnames
      exact ⟨hm.1, Or.inl hm.2⟩
    · exact ⟨(hs m hparent).1, Or.inl (hs m hparent).2⟩
  ends n hn := by
    have hends : ∀ k ∈ t.numbers, ∃ m, ReflTransGen (ArrivedReply old (t.receive p)) k m ∧
        (m ∈ old.numbers ∨ (t.receive p).target? m = none) := by
      intro k hk
      obtain ⟨m, hpath, hm⟩ := g.ends k hk
      refine ⟨m, (g.path_receive hp hk).mpr hpath, ?_⟩
      by_cases hmold : m ∈ old.numbers
      · exact Or.inl hmold
      · -- an arrival without a target named no parent, so `p` gives it none
        have hnone := hm.resolve_left hmold
        refine Or.inr (Option.eq_none_iff_forall_ne_some.mpr ?_)
        intro j hj
        have hnames := ((g.indexed.receive hp).target?_eq_some_iff.mp hj).1
        rcases names_receive.mp hnames with hnames | ⟨rfl, hparent⟩
        · have hj' := g.settled m j hmold hnames
          have := g.indexed.target?_eq_some_iff.mpr ⟨hnames, hj'.1, hj'.2⟩
          simp [hnone] at this
        · have hmem : p.number ∈ t.numbers := by
            rcases ReflTransGen.cases_tail hpath with heq | ⟨i, -, hi⟩
            · exact heq ▸ hk
            · exact g.indexed.target?_mem hi.2
          exact hp hmem
    rcases mem_numbers_receive.mp hn with hn | rfl
    · exact hends n hn
    · cases hparent : p.parent with
      | none =>
        refine ⟨p.number, .refl, Or.inr ?_⟩
        rw [g.indexed.target?_receive_self hp hs, hparent]
      | some k =>
        obtain ⟨m, hpath, hm⟩ := hends k (hs k hparent).2
        have hnew : p.number ∉ old.numbers := fun h => hp (g.present _ h)
        have htarget := (g.indexed.target?_receive_self hp hs).trans hparent
        exact ⟨m, .head ⟨hnew, htarget⟩ hpath, hm⟩

end GrownFrom

end Thread

end Discussion
