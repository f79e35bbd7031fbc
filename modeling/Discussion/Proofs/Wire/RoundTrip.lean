import Discussion.Proofs.Wire.Rendering

/-!
# What is written is read again

Each kind of data has a writer and a decoder. The laws of such a pair are that the written value
fits in a text, that it is not too deep to be read, and that the decoder makes the same thing of
it. The laws of a container follow from those of its parts, and with the laws a text is read back
as what it was written from.
-/

namespace Discussion.Wire

open Json (IsDocument Key Reading Value)

variable {α : Type}

/-- `d` reads what `write` writes, which has at most `depth` containers inside one another. -/
structure Codec (write : α → Value) (d : Decoder α) (depth : Nat) : Prop where
  fits (a : α) : (write a).Fits
  isSound (a : α) {room : Nat} (h : depth ≤ room) : (write a).reading.isSound room = true
  decode (s : Source) (a : α) : d s (write a).reading = .ok a

theorem Codec.ofText_eq {write : α → Value} {d : Decoder α} {depth : Nat}
    (h : Codec write d depth) (hdepth : depth ≤ Json.depthLimit) (leniency : Json.Leniency)
    (a : α) : ofText d (write a).text leniency = .ok a := by
  have hspares := leniency.spares_of_isSound (h.isSound a hdepth)
  rw [Wire.ofText_eq (h.fits a).isDocument hspares]
  exact h.decode _ a

/-! ## Sequences -/

theorem items_itemReadings {write : α → Value} {d : Decoder α} {s : Source}
    (h : ∀ a, d s (write a).reading = .ok a) (as : List α) :
    items d s (Value.itemReadings (as.map write)) = .ok as := by
  induction as with
  | nil => rfl
  | cons a as ih =>
    rw [List.map_cons, Value.itemReadings, items, h, ih]
    rfl

theorem Codec.sequence {write : α → Value} {d : Decoder α} {depth : Nat}
    (h : Codec write d depth) :
    Codec (fun as : List α => .array (as.map write)) (sequence d) (depth + 1) where
  fits as := Value.fits_array_iff.mpr (List.forall_mem_map.mpr fun a _ => h.fits a)
  isSound as {room} hroom := by
    rw [Value.isSound_array_iff, List.forall_mem_map]
    exact ⟨by omega, fun a _ => h.isSound a (by omega)⟩
  decode s as := by
    rw [Value.reading, Wire.sequence, items_itemReadings (h.decode s.inner)]
    rfl

/-! ## Posts -/

theorem fitsWord_natCast {n : Nat} (h : n < UInt64.size) : Json.FitsWord n :=
  ⟨by omega, Int.ofNat_lt.mpr h⟩

theorem isWhole_of_fits {v : Value} {ms : List (Key × Reading)} (h : v.Fits)
    (hms : v.reading = .object ms true) : ∀ m ∈ ms, m.2.isWhole = true := by
  have hwhole := h.isWhole
  rwa [hms, Reading.isWhole, Bool.and_true, Reading.allMembersWhole_iff] at hwhole

theorem fits_ofColor (c : Color) : (ofColor c).Fits := by
  simp only [ofColor, Value.fits_object_iff, List.forall_mem_cons, Value.fits_number_iff,
    List.not_mem_nil, false_imp_iff, implies_true, and_true]
  refine ⟨fitsWord_natCast ?_, fitsWord_natCast ?_, fitsWord_natCast ?_⟩
  · exact Nat.lt_trans c.hue.toNat_lt (by decide)
  · exact Nat.lt_trans c.saturation.toNat_lt (by decide)
  · exact Nat.lt_trans c.lightness.toNat_lt (by decide)

theorem renders_ofColor (c : Color) : ∃ ms, (ofColor c).reading = .object ms true ∧
    RendersColor c ms :=
  ⟨_, rfl, Value.memberReadings_ne_unpaired _, ⟨_, rfl, rfl⟩, ⟨_, rfl, rfl⟩, ⟨_, rfl, rfl⟩⟩

theorem codec_color : Codec ofColor color 1 where
  fits := fits_ofColor
  isSound c {room} hroom := by
    rw [ofColor, Value.isSound_object_iff]
    exact ⟨by omega, by simp [Value.reading, Reading.isSound]⟩
  decode s c := by
    obtain ⟨ms, hms, hrenders⟩ := renders_ofColor c
    rw [hms]
    exact hrenders.color_eq (isWhole_of_fits (fits_ofColor c) hms) s

theorem fits_ofPost (p : Post) : (ofPost p).Fits := by
  have hparent : (ofNumber? p.parent).Fits := by
    cases p.parent with
    | none => exact .null
    | some n => exact .number (fitsWord_natCast n.lt)
  have hmarker : (Value.ofText? p.marker).Fits := by
    cases p.marker with
    | none => exact .null
    | some t => exact .string t
  simp only [ofPost, Value.fits_object_iff, List.forall_mem_cons, Value.fits_number_iff,
    Value.fits_string, Value.fits_bool, List.not_mem_nil, false_imp_iff, implies_true, and_true,
    true_and]
  exact ⟨fitsWord_natCast p.number.lt, fitsWord_natCast p.site.lt, hparent, fits_ofColor p.seed,
    hmarker⟩

theorem saysParent_ofNumber? (n : Option PostNumber) : SaysParent n (ofNumber? n).reading := by
  cases n with
  | none => exact .inl rfl
  | some n => exact .inl rfl

/-- A post is written as one of its renderings. -/
theorem renders_ofPost (p : Post) : ∃ ms, (ofPost p).reading = .object ms true ∧
    RendersPost p ms := by
  obtain ⟨channels, hchannels, hcolor⟩ := renders_ofColor p.seed
  exact ⟨_, rfl, {
    names := Value.memberReadings_ne_unpaired _
    number := ⟨_, rfl, .inl rfl⟩
    site := ⟨_, rfl, .inl rfl⟩
    parent := .inr ⟨_, rfl, saysParent_ofNumber? p.parent⟩
    author := ⟨_, rfl, rfl⟩
    seed := ⟨_, rfl, channels, hchannels, hcolor⟩
    marker := .inr ⟨_, rfl, rfl⟩
    comment := .inr ⟨_, rfl, rfl⟩
    omission := .inr ⟨_, rfl, rfl⟩ }⟩

theorem codec_post : Codec ofPost post 2 where
  fits := fits_ofPost
  isSound p {room} hroom := by
    have hcolor := codec_color.isSound p.seed (show 1 ≤ room - 1 by omega)
    rw [ofPost, Value.isSound_object_iff]
    simp only [List.forall_mem_cons, List.not_mem_nil, false_imp_iff, implies_true, and_true]
    exact ⟨by omega, rfl, rfl, (saysParent_ofNumber? p.parent).isSound, rfl, hcolor,
      isSound_ofText? _ _, rfl, rfl⟩
  decode s p := by
    obtain ⟨ms, hms, hrenders⟩ := renders_ofPost p
    rw [hms]
    exact post_eq_of_renders hrenders (isWhole_of_fits (fits_ofPost p) hms) s

/-! ## Snapshots -/

theorem snapshotRecord_separate : Separate snapshotRecord.fields :=
  ⟨by decide, by simp [snapshotRecord]⟩

theorem slug_eq (s : Source) (t : Slug) : slug s (.string (some t.text)) = .ok t :=
  refer_eq_ok_iff.mpr (dif_pos t.valid)

theorem pageKind_eq (s : Source) (k : PageKind) :
    pageKind s (.string (some (pageName k))) = .ok k := by
  cases s <;> cases k <;> rfl

theorem fits_ofSnapshot (s : Snapshot) : (ofSnapshot s).Fits := by
  have hposts := codec_post.sequence.fits s.posts
  simp only [ofSnapshot, Value.fits_object_iff, List.forall_mem_cons, Value.fits_number_iff,
    Value.fits_string, Value.fits_bool, List.not_mem_nil, false_imp_iff, implies_true, and_true,
    true_and]
  exact ⟨fitsWord_natCast s.viewMarker.toNat_lt, hposts⟩

theorem codec_snapshot : Codec ofSnapshot snapshot 4 where
  fits := fits_ofSnapshot
  isSound s {room} hroom := by
    have hposts := codec_post.sequence.isSound s.posts (show 3 ≤ room - 1 by omega)
    rw [ofSnapshot, Value.isSound_object_iff]
    simp only [List.forall_mem_cons, List.not_mem_nil, false_imp_iff, implies_true, and_true]
    exact ⟨by omega, rfl, rfl, rfl, rfl, hposts⟩
  decode source s := by
    have hposts := codec_post.sequence.decode source.inner s.posts
    exact Record.decode_eq_ofMembers snapshotRecord_separate (by simp [snapshotRecord, Field.of])
      (.cons (.inr ⟨_, rfl, Field.sets_of (slug_eq _ s.slug)⟩) <|
        .cons (.inr ⟨_, rfl, Field.sets_of (a := s.locked) rfl⟩) <|
        .cons (.inr ⟨_, rfl, Field.sets_of (word64_eq_ok_iff.mpr rfl)⟩) <|
        .cons (.inr ⟨_, rfl, Field.sets_of (pageKind_eq _ s.page)⟩) <|
        .cons (.inr ⟨_, rfl, Field.sets_of hposts⟩) .nil)
      (Value.memberReadings_ne_unpaired _) (isWhole_of_fits (fits_ofSnapshot s) rfl)

/-! ## Arrivals and broadcasts -/

theorem arrivalRecord_separate : Separate arrivalRecord.fields :=
  ⟨by decide, by simp [arrivalRecord]⟩

theorem postNumber_eq (s : Source) (n : PostNumber) :
    postNumber s (.number (.integer n.value)) = .ok n :=
  postNumber_eq_ok_iff.mpr (.inl rfl)

theorem fits_ofArrival (a : Arrival) : (ofArrival a).Fits := by
  simp only [ofArrival, Value.fits_object_iff, List.forall_mem_cons, Value.fits_number_iff,
    List.not_mem_nil, false_imp_iff, implies_true, and_true]
  exact ⟨fitsWord_natCast a.number.lt, fits_ofPost a.post⟩

theorem codec_arrival : Codec ofArrival arrival 3 where
  fits := fits_ofArrival
  isSound a {room} hroom := by
    have hpost := codec_post.isSound a.post (show 2 ≤ room - 1 by omega)
    rw [ofArrival, Value.isSound_object_iff]
    simp only [List.forall_mem_cons, List.not_mem_nil, false_imp_iff, implies_true, and_true]
    exact ⟨by omega, rfl, hpost⟩
  decode s a :=
    Record.decode_eq_ofMembers arrivalRecord_separate (by simp [arrivalRecord, Field.of])
      (.cons (.inr ⟨_, rfl, Field.sets_of (postNumber_eq _ a.number)⟩) <|
        .cons (.inr ⟨_, rfl, Field.sets_of (codec_post.decode _ a.post)⟩) .nil)
      (Value.memberReadings_ne_unpaired _) (isWhole_of_fits (fits_ofArrival a) rfl)

theorem insertedRecord_separate : Separate insertedRecord.fields :=
  ⟨by decide, by simp [insertedRecord]⟩

theorem codec_broadcast : Codec ofBroadcast broadcast 2 where
  fits := by
    rintro ⟨n⟩
    simp only [ofBroadcast, Value.fits_object_iff, List.forall_mem_cons, Value.fits_number_iff,
      Value.fits_string, List.not_mem_nil, false_imp_iff, implies_true, and_true, true_and]
    exact fitsWord_natCast n.lt
  isSound := by
    rintro ⟨n⟩ room hroom
    simp only [ofBroadcast, Value.isSound_object_iff, List.forall_mem_cons, List.not_mem_nil,
      false_imp_iff, implies_true, and_true]
    exact ⟨by omega, rfl, by omega, rfl⟩
  decode := by
    rintro s ⟨n⟩
    have hkind : variant broadcastKinds s.inner (.string (some "insertedPost")) =
        .ok insertedDetail := by
      cases s <;> rfl
    have hdetail : insertedDetail s.inner (Value.object [("id", .number n.value)]).reading =
        .ok (.insertedPost n) :=
      Record.decode_eq_ofMembers insertedRecord_separate (by simp [insertedRecord, Field.of])
        (.cons (.inr ⟨_, rfl, Field.sets_of (postNumber_eq _ n)⟩) .nil)
        (Value.memberReadings_ne_unpaired _)
        (by simp [Value.memberReadings, Value.reading, Reading.isWhole])
    change (variant broadcastKinds s.inner (.string (some "insertedPost")) >>= fun detail =>
      detail s.inner (Value.object [("id", .number n.value)]).reading >>= fun b =>
        noMore s.inner true [] >>= fun _ => pure b) = .ok (.insertedPost n)
    rw [hkind]
    simp only [bind, Except.bind, hdetail]
    rfl

/-- Snapshots, arrivals and broadcasts are read back from their texts as they were. -/
theorem wire_round_trip :
    (∀ s : Snapshot, Snapshot.ofText (ofSnapshot s).text = .ok s) ∧
      (∀ a : Arrival, Arrival.ofText (ofArrival a).text = .ok a) ∧
      ∀ b : Broadcast, ofText broadcast (ofBroadcast b).text = .ok b :=
  ⟨codec_snapshot.ofText_eq (by decide) _, codec_arrival.ofText_eq (by decide) _,
    codec_broadcast.ofText_eq (by decide) _⟩

end Discussion.Wire
