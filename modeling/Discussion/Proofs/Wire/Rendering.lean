import Discussion.Proofs.Wire.Record
import Discussion.Proofs.Wire.Reference

/-!
# Renderings of a post

A template may write a post in many ways: the members in any order, some of them under one of two
names, numbers as numbers or as strings, and what is at its default not at all. Each field goes by
the one member that it has under its names. As the fields are separate, the post is settled once
each field is.
-/

namespace Discussion.Wire

open Json (IsDocument IsText Key Reading Value)

variable {δ α : Type} {s : Source} {ms : List (Key × Reading)} {room : Nat} {p : Post} {c : Color}

/-! ## What a field is given -/

/-- There is one value under some names, and it is as it should be. -/
def Gives (names : List String) (ms : List (Key × Reading)) (Says : Reading → Prop) : Prop :=
  ∃ r, under names ms = [r] ∧ Says r

/-- There is one value under some names, or none where there may be none. -/
def MayGive (names : List String) (ms : List (Key × Reading)) (omissible : Prop)
    (Says : Reading → Prop) : Prop :=
  (under names ms = [] ∧ omissible) ∨ Gives names ms Says

/-- What a field is set to by an object that means `a`: nothing if it is left out. -/
def given? (names : List String) (ms : List (Key × Reading)) (a : α) : Option α :=
  if (under names ms).isEmpty then none else some a

section

variable {name : String} {dec : Decoder α} {get : δ → Option α} {set : α → δ → δ}
  {alias? : Option String} {leniency : Json.Leniency} {a default : α} {Says : Reading → Prop}

theorem Gives.fills (h : Gives (name :: alias?.toList) ms Says)
    (hdec : ∀ r, Says r → dec s r = .ok a) :
    (Field.of name dec get set alias? leniency).Fills s ms (set a) := by
  obtain ⟨r, hr, hmeans⟩ := h
  exact .inr ⟨r, hr, Field.sets_of (hdec r hmeans)⟩

theorem MayGive.fills {names : List String} (h : MayGive names ms (a = default) Says)
    (hnames : names = name :: alias?.toList) (hdec : ∀ r, Says r → dec s r = .ok a) :
    (Field.of name dec get set alias? leniency).Fills s ms
      ((given? names ms a).elim id set) := by
  subst hnames
  rcases h with ⟨hnone, -⟩ | h
  · exact .inl ⟨hnone, by rw [given?, hnone]; rfl⟩
  · obtain ⟨r, hr, -⟩ := id h
    rw [given?, hr]
    exact h.fills hdec

theorem MayGive.getD_given? {names : List String} (h : MayGive names ms (a = default) Says) :
    (given? names ms a).getD default = a := by
  rcases h with ⟨hnone, rfl⟩ | ⟨r, hr, -⟩
  · rw [given?, hnone]
    rfl
  · rw [given?, hr]
    rfl

end

/-! ## Whole numbers -/

/-- A value says a whole number. -/
def SaysInteger (n : Int) (r : Reading) : Prop := r = .number (.integer n)

section

variable {β : Type} {r : Reading}

theorem map_eq_ok_iff {ε : Type} {e : Except ε α} {f : α → β} {b : β} :
    e.map f = .ok b ↔ ∃ a, e = .ok a ∧ f a = b := by
  cases e <;> simp [Except.map]

theorem integer_eq_ok_iff {expected : String} {low high n : Int} :
    integer expected low high s r = .ok n ↔ SaysInteger n r ∧ low ≤ n ∧ n < high := by
  constructor
  · intro h
    unfold integer at h
    split at h
    · rename_i m
      split at h
      · rename_i hrange
        obtain rfl : m = n := Except.ok.inj h
        exact ⟨rfl, hrange⟩
      · cases h
    · cases h
  · rintro ⟨rfl, hrange⟩
    exact if_pos hrange

/-- A word is read from the whole number that it stands for. -/
theorem map_integer_eq_ok_iff {expected : String} {low high : Int} {ofInt : Int → α}
    (toInt : α → Int) {a : α} (hrange : low ≤ toInt a ∧ toInt a < high)
    (hleft : ofInt (toInt a) = a) (hright : ∀ m, low ≤ m → m < high → toInt (ofInt m) = m) :
    (integer expected low high s r).map ofInt = .ok a ↔ SaysInteger (toInt a) r := by
  rw [map_eq_ok_iff]
  constructor
  · rintro ⟨m, hm, rfl⟩
    obtain ⟨hword, hlow, hhigh⟩ := integer_eq_ok_iff.mp hm
    rwa [hright m hlow hhigh]
  · exact fun h => ⟨_, integer_eq_ok_iff.mpr ⟨h, hrange⟩, hleft⟩

/-- A word without a sign is read from the number that it is. -/
theorem unsigned_eq_ok_iff {expected : String} {size : Nat} {ofNat : Nat → α} {toNat : α → Nat}
    {a : α} (hlt : ∀ a, toNat a < size) (hleft : ∀ a, ofNat (toNat a) = a)
    (hright : ∀ n < size, toNat (ofNat n) = n) :
    (integer expected 0 size s r).map (fun n => ofNat n.toNat) = .ok a ↔
      SaysInteger (toNat a) r := by
  refine map_integer_eq_ok_iff (fun a => toNat a)
    ⟨Int.natCast_nonneg _, Int.ofNat_lt.mpr (hlt a)⟩ (hleft a) fun m hlow hhigh => ?_
  have hsmall : m.toNat < size := by omega
  rw [hright _ hsmall, Int.toNat_of_nonneg hlow]

theorem word8_eq_ok_iff {n : UInt8} : word8 s r = .ok n ↔ SaysInteger n.toNat r :=
  unsigned_eq_ok_iff UInt8.toNat_lt (fun _ => UInt8.ofNat_toNat) fun _ => UInt8.toNat_ofNat_of_lt'

theorem word16_eq_ok_iff {n : UInt16} : word16 s r = .ok n ↔ SaysInteger n.toNat r :=
  unsigned_eq_ok_iff UInt16.toNat_lt (fun _ => UInt16.ofNat_toNat)
    fun _ => UInt16.toNat_ofNat_of_lt'

theorem word64_eq_ok_iff {n : UInt64} : word64 s r = .ok n ↔ SaysInteger n.toNat r :=
  unsigned_eq_ok_iff UInt64.toNat_lt (fun _ => UInt64.ofNat_toNat)
    fun _ => UInt64.toNat_ofNat_of_lt'

theorem signed32_eq_ok_iff {n : Int32} : signed32 s r = .ok n ↔ SaysInteger n.toInt r :=
  map_integer_eq_ok_iff Int32.toInt ⟨n.le_toInt, n.toInt_lt⟩ (Int32.ofInt_toInt n)
    fun _ hlow hhigh => Int32.toInt_ofInt_of_le hlow hhigh

end

/-! ## Colors -/

/-- An object renders a color. -/
structure RendersColor (c : Color) (ms : List (Key × Reading)) : Prop where
  names : ∀ m ∈ ms, m.1 ≠ .unpaired
  hue : Gives ["hue"] ms (· = .number (.integer c.hue.toNat))
  saturation : Gives ["saturation"] ms (· = .number (.integer c.saturation.toNat))
  lightness : Gives ["lightness"] ms (· = .number (.integer c.lightness.toNat))

theorem channelRecord_separate {β γ : Type} {name : String} {hue : Decoder α}
    {percentage : Decoder β} {mk : α → β → β → γ} :
    Separate (channelRecord name hue percentage mk).fields :=
  ⟨by simp [channelRecord, Field.names, Field.of], by simp [channelRecord]⟩

theorem RendersColor.color_eq (h : RendersColor c ms) (hwhole : ∀ m ∈ ms, m.2.isWhole = true)
    (s : Source) : color s (.object ms true) = .ok c :=
  Record.decode_eq_ofMembers channelRecord_separate (by simp [channelRecord, Field.of])
    (.cons (h.hue.fills fun _ => word16_eq_ok_iff.mpr) <|
      .cons (h.saturation.fills fun _ => word8_eq_ok_iff.mpr) <|
      .cons (h.lightness.fills fun _ => word8_eq_ok_iff.mpr) .nil) h.names hwhole

/-! ## Posts -/

/-- A part says which post is replied to, if any. -/
def SaysParent : Option PostNumber → Reading → Prop
  | none, r => SaysNoParent r
  | some n, r => SaysNumber r n.value

/-- An object renders a post: it has each field of the post once, under its name or another name
that the field goes by. A parent, marker, comment or omission at its default may be left out, and
there may be members of other names. -/
structure RendersPost (p : Post) (ms : List (Key × Reading)) : Prop where
  names : ∀ m ∈ ms, m.1 ≠ .unpaired
  number : Gives ["local_id", "post_lid"] ms (SaysNumber · p.number.value)
  site : Gives ["global_id", "post_gid"] ms (SaysNumber · p.site.value)
  parent : MayGive ["reply_target", "target"] ms (p.parent = none) (SaysParent p.parent)
  author : Gives ["identity", "user"] ms (· = .string (some p.author.text))
  seed : Gives ["color"] ms fun r => ∃ channels, r = .object channels true ∧
    RendersColor p.seed channels
  marker : MayGive ["marker"] ms (p.marker = none) (· = (Value.ofText? p.marker).reading)
  comment : MayGive ["comment"] ms (p.comment = "") (· = .string (some p.comment))
  omission : MayGive ["omission"] ms (p.omission = false) (· = .bool p.omission)

theorem postRecord_separate : Separate postRecord.fields :=
  ⟨by decide, by simp [postRecord, parentField, markerField]⟩

theorem authorKey_eq (s : Source) (k : AuthorKey) :
    authorKey s (.string (some k.text)) = .ok k := by
  rw [authorKey, rawReference_string]
  exact refer_eq_ok_iff.mpr (dif_pos k.valid)

theorem SaysParent.isSound {n : Option PostNumber} {r : Reading} (h : SaysParent n r) :
    r.isSound room = true := by
  cases n with
  | none => rcases h with rfl | rfl | ⟨t, rfl, -⟩ <;> rfl
  | some n => rcases h with rfl | ⟨t, rfl, -⟩ <;> rfl

theorem SaysParent.parent_eq {n : Option PostNumber} {r : Reading} (h : SaysParent n r) :
    parent s r = .ok n := by
  cases n with
  | none => exact parent_eq_none_of h
  | some n => exact parent_eq_some_iff.mpr h

theorem take_eq_ok {r : Reading} (h : ∀ room, r.isSound room = true) (s : Source) :
    take s r = .ok () := by
  cases s with
  | text room => exact if_pos (h room)
  | taken => rfl

theorem orDefault_eq {d : Decoder α} {default a : α} {r : Reading}
    (hsound : ∀ room, r.isSound room = true) (h : d .taken r = .ok a) :
    orDefault default d s r = .ok a := by
  rw [orDefault, take_eq_ok hsound, h]

theorem isSound_ofText? (m : Option String) (room : Nat) :
    (Value.ofText? m).reading.isSound room = true := by
  cases m <;> rfl

theorem optional_text_eq (s : Source) (m : Option String) :
    optional text s (Value.ofText? m).reading = .ok m := by
  cases m <;> rfl

/-- A draft with all that a post needs makes the post. -/
theorem ofMembers_eq_ok {parent? : Option (Option PostNumber)} {marker? : Option (Option String)}
    {comment? : Option String} {omission? : Option Bool} (hparent : parent?.getD none = p.parent)
    (hmarker : marker?.getD none = p.marker) (hcomment : comment?.getD "" = p.comment)
    (homission : omission?.getD false = p.omission) :
    postRecord.ofMembers
      { number := p.number, site := p.site, parent := parent?, author := p.author, seed := p.seed
        marker := marker?, comment := comment?, omission := omission? } = .ok p := by
  simp only [Record.ofMembers, postRecord, require, hparent, hmarker, hcomment, homission]
  rfl

theorem post_eq_of_renders (h : RendersPost p ms) (hwhole : ∀ m ∈ ms, m.2.isWhole = true)
    (s : Source) : post s (.object ms true) = .ok p := by
  have hparent : ∀ r, SaysParent p.parent r → orDefault none parent s.inner r = .ok p.parent :=
    fun r hr => orDefault_eq (fun _ => hr.isSound) hr.parent_eq
  have hmarker : ∀ r, r = (Value.ofText? p.marker).reading →
      orDefault none (optional text) s.inner r = .ok p.marker := by
    rintro r rfl
    exact orDefault_eq (isSound_ofText? _) (optional_text_eq _ _)
  have hseed : Gives ["color"] ms (color s.inner · = .ok p.seed) := by
    obtain ⟨_, hunder, channels, rfl, hcolor⟩ := h.seed
    obtain ⟨key, hmem⟩ := exists_mem_of_mem_under (hunder ▸ List.mem_singleton_self _)
    have hchannels : (Reading.object channels true).isWhole = true := hwhole _ hmem
    rw [Reading.isWhole, Bool.and_true, Reading.allMembersWhole_iff] at hchannels
    exact ⟨_, hunder, hcolor.color_eq hchannels _⟩
  have hdraft := Record.decode_eq_ofMembers (s := s) postRecord_separate
    (by simp [postRecord, parentField, markerField, Field.of])
    (.cons (h.number.fills fun _ hr => postNumber_eq_ok_iff.mpr hr) <|
      .cons (h.site.fills fun _ hr => siteNumber_eq_ok_iff.mpr hr) <|
      .cons (h.parent.fills rfl hparent) <|
      .cons (h.author.fills fun _ hr => hr ▸ authorKey_eq _ _) <|
      .cons (hseed.fills fun _ hr => hr) <|
      .cons (h.marker.fills rfl hmarker) <|
      .cons (h.comment.fills rfl fun _ hr => hr ▸ rfl) <|
      .cons (h.omission.fills rfl fun _ hr => hr ▸ rfl) .nil) h.names hwhole
  rw [post, hdraft]
  refine (congrArg postRecord.ofMembers ?_).trans (ofMembers_eq_ok h.parent.getD_given?
    h.marker.getD_given? h.comment.getD_given? h.omission.getD_given?)
  generalize given? _ ms p.parent = parent?
  generalize given? _ ms p.marker = marker?
  generalize given? _ ms p.comment = comment?
  generalize given? _ ms p.omission = omission?
  cases parent? <;> cases marker? <;> cases comment? <;> cases omission? <;> rfl

/-! ## Texts -/

/-- A post is read to the end if its parent and its marker are sound, fit or not. -/
theorem post_spares {closed : Bool}
    (hparent : ∀ r ∈ under ["reply_target", "target"] ms, r.isSound (room - 1) = true)
    (hmarker : ∀ r ∈ under ["marker"] ms, r.isSound (room - 1) = true) :
    postRecord.leniency.Spares room (.object ms closed) := by
  refine Record.spares_object ?_
  simp only [postRecord, List.forall_mem_cons, List.not_mem_nil, false_imp_iff, implies_true,
    and_true]
  exact ⟨.inl rfl, .inl rfl, .inr hparent, .inl rfl, .inl rfl, .inr hmarker, .inl rfl, .inl rfl⟩

theorem isSound_of_mayGive {names : List String} {omissible : Prop} {Says : Reading → Prop}
    (h : MayGive names ms omissible Says) (hmeans : ∀ r, Says r → r.isSound room = true) :
    ∀ r ∈ under names ms, r.isSound room = true := by
  rcases h with ⟨hnone, -⟩ | ⟨r, hr, hr'⟩
  · simp [hnone]
  · simpa [hr] using hmeans r hr'

/-- Every rendering of a post is read as the post. -/
theorem ofText_of_rendering {text : String} (htext : IsDocument text (.object ms true))
    (h : RendersPost p ms) : Post.ofText text = .ok p := by
  have hspares : postRecord.leniency.Spares Json.depthLimit (.object ms true) :=
    post_spares (isSound_of_mayGive h.parent fun _ hr => hr.isSound)
      (isSound_of_mayGive h.marker fun _ hr => hr ▸ isSound_ofText? _ _)
  have hwhole := htext.isWhole
  rw [Reading.isWhole, Bool.and_true, Reading.allMembersWhole_iff] at hwhole
  rw [Post.ofText, Record.ofText, ofText_eq htext hspares]
  exact post_eq_of_renders h hwhole _

/-- The members of a post with aliases, numbers in strings and other members, out of order. -/
def strayMembers : List (String × Value) :=
  [("user", .string "k1"), ("target", .string " none "), ("more", .array [.number (-1)]),
    ("color", .object [("lightness", .number 40), ("name", .null), ("hue", .number 7),
      ("saturation", .number 200)]),
    ("post_gid", .string "\t007 "), ("local_id", .number 12), ("marker", .string "\"*\"")]

/-- The post that they render. -/
def strayPost : Post where
  number := ⟨12, by decide, by decide⟩
  site := ⟨7, by decide⟩
  author := ⟨"k1", by decide⟩
  seed := ⟨7, 200, 40⟩
  marker := some "\"*\""

theorem ofText_strayMembers :
    IsDocument (Value.object strayMembers).text (Value.object strayMembers).reading ∧
      RendersPost strayPost (Value.memberReadings strayMembers) ∧
      Post.ofText (Value.object strayMembers).text = .ok strayPost := by
  have hfits : (Value.object strayMembers).Fits := by
    simp only [strayMembers, Value.fits_object_iff, Value.fits_array_iff, List.forall_mem_cons,
      Value.fits_number_iff, Value.fits_string, Value.fits_null, List.not_mem_nil, false_imp_iff,
      implies_true, and_true, true_and]
    decide
  have hseven : Denotes (Text.trimBlanks "\t007 ".toList) 7 := by
    have htext : "\t007 ".toList =
        ['\t'] ++ ((List.replicate 2 '0' ++ Nat.toDigits 10 7) ++ [' ']) := by decide
    exact denotes_padded 2 7 (by simp [Text.isBlank]) (by simp [Text.isBlank]) htext
  have hrenders : RendersPost strayPost (Value.memberReadings strayMembers) := {
    names := by decide
    number := ⟨_, rfl, .inl rfl⟩
    site := ⟨_, rfl, .inr ⟨_, rfl, hseven⟩⟩
    parent := .inr ⟨.string (some " none "), rfl,
      .inr (.inr ⟨" none ", rfl, .inr (.inr (by decide))⟩)⟩
    author := ⟨_, rfl, rfl⟩
    seed := ⟨_, rfl, _, rfl, by decide, ⟨_, rfl, rfl⟩, ⟨_, rfl, rfl⟩, ⟨_, rfl, rfl⟩⟩
    marker := .inr ⟨_, rfl, rfl⟩
    comment := .inl ⟨rfl, rfl⟩
    omission := .inl ⟨rfl, rfl⟩ }
  exact ⟨hfits.isDocument, hrenders, ofText_of_rendering hfits.isDocument hrenders⟩

end Discussion.Wire
