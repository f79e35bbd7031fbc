import Discussion.Proofs.Wire.Parts

/-!
# Which texts are settings

A text gives settings exactly when it is JSON and says them. Palettes and settings may leave out
any of their fields, colors and shifts none. A field that is left out has its default.
-/

namespace Discussion.Wire

open Json (IsDocument Reading)

variable {δ α β : Type} {s : Source} {r : Reading} {x : Float} {c : Color} {p : Palette}

/-! ## What is said -/

/-- A part that has to be given. -/
def Given (Says : Reading → Prop) : Option Reading → Prop
  | some r => Says r
  | none => False

/-- A part that may be left out for a default. -/
def GivenOr (isDefault : Prop) (Says : Reading → Prop) : Option Reading → Prop
  | some r => Says r
  | none => isDefault

/-- A value gives fields of some names the parts that they want. -/
def SaysFields (fields : List (String × (Option Reading → Prop))) (r : Reading) : Prop :=
  ∃ parts, GivesParts (fields.map fun f => [f.1]) r parts ∧
    List.Forall₂ (fun f part => f.2 part) fields parts

/-- A value says a number that need not be whole. -/
def SaysFloat (x : Float) (r : Reading) : Prop :=
  r = .number (.float x) ∨ ∃ n : Int, r = .number (.integer n) ∧ x = Float.ofInt n

/-- A value says three channels. -/
def SaysChannels (hue saturation lightness : Int) : Reading → Prop :=
  SaysFields [
    ("hue", Given (SaysInteger hue)),
    ("saturation", Given (SaysInteger saturation)),
    ("lightness", Given (SaysInteger lightness))]

/-- A value says a color. -/
def SaysColor (c : Color) : Reading → Prop :=
  SaysChannels c.hue.toNat c.saturation.toNat c.lightness.toNat

/-- A value says a color shift. -/
def SaysShift (c : ColorShift) : Reading → Prop :=
  SaysChannels c.hue.toInt c.saturation.toInt c.lightness.toInt

/-- A value says a palette. -/
def SaysPalette (p : Palette) : Reading → Prop :=
  SaysFields [
    ("start", GivenOr (p.start = ⟨0, 70, 80⟩) (SaysColor p.start)),
    ("hue_step", GivenOr (p.hueStep = 113) (SaysInteger p.hueStep.toNat)),
    ("lightness_step", GivenOr (p.lightnessStep = 89) (SaysInteger p.lightnessStep.toNat)),
    ("lightness_span", GivenOr (p.lightnessSpan = 20) (SaysInteger p.lightnessSpan.toNat)),
    ("lightness_floor", GivenOr (p.lightnessFloor = 65) (SaysInteger p.lightnessFloor.toNat)),
    ("dark_mask", GivenOr (p.darkShift = ⟨0, -40, -5⟩) (SaysShift p.darkShift)),
    ("pale_lightness", GivenOr (p.paleLightness = 90) (SaysInteger p.paleLightness.toNat)),
    ("quote", GivenOr (p.quote = ⟨46, 17, 76⟩) (SaysColor p.quote))]

/-- A value says settings. -/
def SaysSettings (settings : Settings) : Reading → Prop :=
  SaysFields [
    ("palette", GivenOr (settings.palette = {}) (SaysPalette settings.palette)),
    ("stay_down_margin", GivenOr (settings.stayDownMargin = 200)
      (SaysFloat settings.stayDownMargin))]

/-- A text is JSON and says settings. -/
def WritesSettings (text : String) (settings : Settings) : Prop :=
  ∃ r, IsDocument text r ∧ SaysSettings settings r

/-! ## Parts -/

/-- A part is read as a value if it is given. -/
def ReadsPart (dec : Decoder β) (s : Source) : Option Reading → Option β → Prop :=
  Option.Rel fun r b => dec s r = .ok b

section

variable {name : String} {dec : Decoder β} {get : δ → Option β} {set : β → δ → δ}
  {alias? : Option String} {leniency : Json.Leniency} {part : Option Reading}
  {fields : List (Field δ)} {parts : List (Option Reading)} {d d' : δ} {Q : δ → Prop}
  {Rest : Option β → Prop}

theorem fillParts_cons_eq_ok_iff (put : Option β → δ) (hnone : put none = d)
    (hsome : ∀ b, put (some b) = set b d) :
    fillParts s d (.of name dec get set alias? leniency :: fields) (part :: parts) = .ok d' ↔
      ∃ b?, ReadsPart dec s part b? ∧ fillParts s (put b?) fields parts = .ok d' := by
  subst hnone
  cases part with
  | none =>
    constructor
    · exact fun h => ⟨none, .none, h⟩
    · rintro ⟨_, ⟨⟩, h⟩
      exact h
  | some r =>
    rw [fillParts]
    cases hdec : dec s r with
    | error fault =>
      constructor
      · simp [Field.of, hdec, Except.map, bind, Except.bind]
      · rintro ⟨_, hpart, -⟩
        cases hpart with
        | some h => rw [hdec] at h; cases h
    | ok b =>
      have hfill : (Field.of name dec get set alias? leniency).fill s r (put none) =
          .ok (put (some b)) := by simp [Field.of, hdec, Except.map, hsome]
      rw [hfill]
      constructor
      · exact fun h => ⟨some b, .some hdec, h⟩
      · rintro ⟨_, hpart, h⟩
        cases hpart with
        | some h' =>
          obtain rfl := Except.ok.inj (hdec.symm.trans h')
          exact h

theorem exists_fillParts_nil_iff : (∃ d', fillParts s d [] [] = .ok d' ∧ Q d') ↔ Q d := by
  simp [fillParts]

/-- The first of the fields goes into the draft, and then the others. -/
theorem exists_fillParts_cons_iff (put : Option β → δ) (hnone : put none = d)
    (hsome : ∀ b, put (some b) = set b d)
    (hrest : ∀ b?, (∃ d', fillParts s (put b?) fields parts = .ok d' ∧ Q d') ↔ Rest b?) :
    (∃ d', fillParts s d (.of name dec get set alias? leniency :: fields) (part :: parts) =
      .ok d' ∧ Q d') ↔ ∃ b?, ReadsPart dec s part b? ∧ Rest b? := by
  simp only [fillParts_cons_eq_ok_iff put hnone hsome, ← hrest]
  constructor
  · rintro ⟨d', ⟨b?, hpart, h⟩, hd'⟩
    exact ⟨b?, hpart, d', h, hd'⟩
  · rintro ⟨b?, hpart, d', h, hd'⟩
    exact ⟨d', ⟨b?, hpart, h⟩, hd'⟩

end

section

variable {dec : Decoder β} {Says : Reading → Prop} {default b : β} {part : Option Reading}

theorem readsPart_some_iff (hdec : ∀ r ∈ part, dec s r = .ok b ↔ Says r) :
    ReadsPart dec s part (some b) ↔ Given Says part := by
  cases part with
  | none => exact ⟨nofun, nofun⟩
  | some r => exact Option.rel_some_some.trans (hdec r rfl)

theorem exists_readsPart_iff (hdec : ∀ r ∈ part, dec s r = .ok b ↔ Says r) :
    (∃ b?, ReadsPart dec s part b? ∧ b?.getD default = b) ↔ GivenOr (b = default) Says part := by
  cases part with
  | none =>
    constructor
    · rintro ⟨_, ⟨⟩, rfl⟩
      rfl
    · rintro rfl
      exact ⟨none, .none, rfl⟩
  | some r =>
    rw [GivenOr, ← hdec r rfl]
    constructor
    · rintro ⟨_, ⟨h⟩, rfl⟩
      exact h
    · exact fun h => ⟨some b, .some h, rfl⟩

end

/-- A record is read from what says it, if what its parts say is what they are read as. -/
theorem decode_eq_ok_iff_saysFields {record : Record δ α} {a : α}
    {wants : List (String × (Option Reading → Prop))} (hrecord : record.Regular)
    (hfinish : ∀ form, record.finish form = record.finish .object)
    (hnames : record.fields.map Field.names = wants.map fun f => [f.1])
    (hfill : ∀ parts, parts.length = wants.length → (∀ r, some r ∈ parts → r.isWhole = true) →
      ((∃ d, fillParts s.inner record.blank record.fields parts = .ok d ∧
        record.finish .object d = .ok a) ↔ List.Forall₂ (fun f part => f.2 part) wants parts))
    (hwhole : r.isWhole = true) : record.decode s r = .ok a ↔ SaysFields wants r := by
  rw [Record.decode_eq_ok_iff hrecord hfinish hwhole, hnames, SaysFields]
  refine exists_congr fun parts => ?_
  rw [exists_and_left]
  refine and_congr_right fun hparts => hfill parts ?_ fun _ => hparts.isWhole hwhole
  rw [hparts.length_eq, List.length_map]

/-! ## Channels -/

section

variable {γ : Type} {name : String} {hue : Decoder α} {percentage : Decoder β}
  {mk : α → β → β → γ}

theorem channelRecord_regular : (channelRecord name hue percentage mk).Regular where
  separate := channelRecord_separate
  plain := by simp [channelRecord]
  unset := by simp [channelRecord, Field.of]

theorem exists_fillParts_channelRecord_iff {p₁ p₂ p₃ : Option Reading}
    {Q : ChannelDraft α β → Prop} :
    (∃ d, fillParts s {} (channelRecord name hue percentage mk).fields [p₁, p₂, p₃] = .ok d ∧
      Q d) ↔
      ∃ h, ReadsPart hue s p₁ h ∧
      ∃ saturation, ReadsPart percentage s p₂ saturation ∧
      ∃ lightness, ReadsPart percentage s p₃ lightness ∧ Q ⟨h, saturation, lightness⟩ := by
  refine exists_fillParts_cons_iff (fun hue => { hue }) rfl (fun _ => rfl) fun hue => ?_
  refine exists_fillParts_cons_iff (fun saturation => { hue, saturation }) rfl (fun _ => rfl)
    fun saturation => ?_
  refine exists_fillParts_cons_iff (fun lightness => { hue, saturation, lightness }) rfl
    (fun _ => rfl) fun lightness => ?_
  exact exists_fillParts_nil_iff

theorem finish_channelRecord_eq_ok_iff {form : Form} {d : ChannelDraft α β} {a : γ} :
    (channelRecord name hue percentage mk).finish form d = .ok a ↔
      ∃ h saturation lightness, d = ⟨some h, some saturation, some lightness⟩ ∧
        mk h saturation lightness = a := by
  obtain ⟨hue, saturation, lightness⟩ := d
  cases hue <;> cases saturation <;> cases lightness <;>
    simp [channelRecord, require, bind, Except.bind, pure, Except.pure]

/-- Three channels are read from what says them. -/
theorem decode_channelRecord_eq_ok_iff {a : γ} {h : α} {sat light : β} {m n k : Int}
    (hmk : ∀ h' sat' light', mk h' sat' light' = a ↔ h' = h ∧ sat' = sat ∧ light' = light)
    (hhue : ∀ r, hue s.inner r = .ok h ↔ SaysInteger m r)
    (hsaturation : ∀ r, percentage s.inner r = .ok sat ↔ SaysInteger n r)
    (hlightness : ∀ r, percentage s.inner r = .ok light ↔ SaysInteger k r)
    (hwhole : r.isWhole = true) :
    (channelRecord name hue percentage mk).decode s r = .ok a ↔ SaysChannels m n k r := by
  refine decode_eq_ok_iff_saysFields channelRecord_regular (fun _ => rfl) rfl ?_ hwhole
  intro parts hlength _
  match parts, hlength with
  | [p₁, p₂, p₃], _ =>
    refine exists_fillParts_channelRecord_iff.trans ?_
    simp only [List.forall₂_cons, List.forall₂_nil_left_iff, and_true,
      ← readsPart_some_iff fun r _ => hhue r, ← readsPart_some_iff fun r _ => hsaturation r,
      ← readsPart_some_iff fun r _ => hlightness r]
    constructor
    · rintro ⟨_, hp₁, _, hp₂, _, hp₃, hfinish⟩
      obtain ⟨_, _, _, hd, ha⟩ := finish_channelRecord_eq_ok_iff.mp hfinish
      obtain ⟨rfl, rfl, rfl⟩ := (ChannelDraft.mk.injEq ..).mp hd
      obtain ⟨rfl, rfl, rfl⟩ := (hmk _ _ _).mp ha
      exact ⟨hp₁, hp₂, hp₃⟩
    · rintro ⟨hp₁, hp₂, hp₃⟩
      exact ⟨_, hp₁, _, hp₂, _, hp₃, finish_channelRecord_eq_ok_iff.mpr
        ⟨_, _, _, rfl, (hmk _ _ _).mpr ⟨rfl, rfl, rfl⟩⟩⟩

end

theorem color_eq_ok_iff (hwhole : r.isWhole = true) : color s r = .ok c ↔ SaysColor c r :=
  decode_channelRecord_eq_ok_iff (by cases c; simp) (fun _ => word16_eq_ok_iff)
    (fun _ => word8_eq_ok_iff) (fun _ => word8_eq_ok_iff) hwhole

theorem colorShift_eq_ok_iff {c : ColorShift} (hwhole : r.isWhole = true) :
    colorShift s r = .ok c ↔ SaysShift c r :=
  decode_channelRecord_eq_ok_iff (by cases c; simp) (fun _ => signed32_eq_ok_iff)
    (fun _ => signed32_eq_ok_iff) (fun _ => signed32_eq_ok_iff) hwhole

/-! ## Palettes -/

theorem paletteRecord_regular : paletteRecord.Regular where
  separate := ⟨by decide, by simp [paletteRecord]⟩
  plain := by simp [paletteRecord]
  unset := by simp [paletteRecord, Field.of]

theorem exists_fillParts_paletteRecord_iff {p₁ p₂ p₃ p₄ p₅ p₆ p₇ p₈ : Option Reading}
    {Q : PaletteDraft → Prop} :
    (∃ d, fillParts s {} paletteRecord.fields [p₁, p₂, p₃, p₄, p₅, p₆, p₇, p₈] = .ok d ∧ Q d) ↔
      ∃ start, ReadsPart color s p₁ start ∧
      ∃ hueStep, ReadsPart word16 s p₂ hueStep ∧
      ∃ lightnessStep, ReadsPart word8 s p₃ lightnessStep ∧
      ∃ lightnessSpan, ReadsPart word8 s p₄ lightnessSpan ∧
      ∃ lightnessFloor, ReadsPart word8 s p₅ lightnessFloor ∧
      ∃ darkShift, ReadsPart colorShift s p₆ darkShift ∧
      ∃ paleLightness, ReadsPart word8 s p₇ paleLightness ∧
      ∃ quote, ReadsPart color s p₈ quote ∧
        Q { start, hueStep, lightnessStep, lightnessSpan, lightnessFloor, darkShift,
            paleLightness, quote } := by
  -- each field goes into the draft that the fields before it have left
  refine exists_fillParts_cons_iff (fun start => { start }) rfl (fun _ => rfl) fun start => ?_
  refine exists_fillParts_cons_iff (fun hueStep => { start, hueStep }) rfl (fun _ => rfl)
    fun hueStep => ?_
  refine exists_fillParts_cons_iff (fun lightnessStep => { start, hueStep, lightnessStep }) rfl
    (fun _ => rfl) fun lightnessStep => ?_
  refine exists_fillParts_cons_iff
    (fun lightnessSpan => { start, hueStep, lightnessStep, lightnessSpan }) rfl
    (fun _ => rfl) fun lightnessSpan => ?_
  refine exists_fillParts_cons_iff
    (fun lightnessFloor => { start, hueStep, lightnessStep, lightnessSpan, lightnessFloor }) rfl
    (fun _ => rfl) fun lightnessFloor => ?_
  refine exists_fillParts_cons_iff (fun darkShift =>
    { start, hueStep, lightnessStep, lightnessSpan, lightnessFloor, darkShift }) rfl
    (fun _ => rfl) fun darkShift => ?_
  refine exists_fillParts_cons_iff (fun paleLightness =>
    { start, hueStep, lightnessStep, lightnessSpan, lightnessFloor, darkShift, paleLightness })
    rfl (fun _ => rfl) fun paleLightness => ?_
  refine exists_fillParts_cons_iff (fun quote =>
    { start, hueStep, lightnessStep, lightnessSpan, lightnessFloor, darkShift, paleLightness,
      quote }) rfl (fun _ => rfl) fun quote => ?_
  exact exists_fillParts_nil_iff

/-- A palette is read from what says it. -/
theorem palette_eq_ok_iff (hwhole : r.isWhole = true) : palette s r = .ok p ↔ SaysPalette p r := by
  refine decode_eq_ok_iff_saysFields paletteRecord_regular (fun _ => rfl) rfl ?_ hwhole
  intro parts hlength hwhole
  match parts, hlength with
  | [p₁, p₂, p₃, p₄, p₅, p₆, p₇, p₈], _ =>
    refine exists_fillParts_paletteRecord_iff.trans ?_
    simp only [List.forall₂_cons, List.forall₂_nil_left_iff, and_true]
    have hstart : ∀ r ∈ p₁, color s.inner r = .ok p.start ↔ SaysColor p.start r := by
      rintro r rfl
      exact color_eq_ok_iff (hwhole r (by simp))
    have hshift : ∀ r ∈ p₆, colorShift s.inner r = .ok p.darkShift ↔ SaysShift p.darkShift r := by
      rintro r rfl
      exact colorShift_eq_ok_iff (hwhole r (by simp))
    have hquote : ∀ r ∈ p₈, color s.inner r = .ok p.quote ↔ SaysColor p.quote r := by
      rintro r rfl
      exact color_eq_ok_iff (hwhole r (by simp))
    simp only [← exists_readsPart_iff hstart, ← exists_readsPart_iff hshift,
      ← exists_readsPart_iff hquote,
      ← exists_readsPart_iff fun _ _ => word16_eq_ok_iff (s := s.inner),
      ← exists_readsPart_iff fun _ _ => word8_eq_ok_iff (s := s.inner)]
    constructor
    · rintro ⟨_, h₁, _, h₂, _, h₃, _, h₄, _, h₅, _, h₆, _, h₇, _, h₈, hfinish⟩
      obtain rfl := Except.ok.inj hfinish
      exact ⟨⟨_, h₁, rfl⟩, ⟨_, h₂, rfl⟩, ⟨_, h₃, rfl⟩, ⟨_, h₄, rfl⟩, ⟨_, h₅, rfl⟩,
        ⟨_, h₆, rfl⟩, ⟨_, h₇, rfl⟩, _, h₈, rfl⟩
    · rintro ⟨⟨_, h₁, e₁⟩, ⟨_, h₂, e₂⟩, ⟨_, h₃, e₃⟩, ⟨_, h₄, e₄⟩, ⟨_, h₅, e₅⟩, ⟨_, h₆, e₆⟩,
        ⟨_, h₇, e₇⟩, _, h₈, e₈⟩
      refine ⟨_, h₁, _, h₂, _, h₃, _, h₄, _, h₅, _, h₆, _, h₇, _, h₈, congrArg Except.ok ?_⟩
      exact Palette.ext e₁ e₂ e₃ e₄ e₅ e₆ e₇ e₈

/-! ## Settings -/

theorem float_eq_ok_iff : float s r = .ok x ↔ SaysFloat x r := by
  rw [SaysFloat]
  cases r with
  | number n => cases n <;> simp [float, eq_comm]
  | _ => simp [float]

theorem settingsRecord_regular : settingsRecord.Regular where
  separate := ⟨by decide, by simp [settingsRecord]⟩
  plain := by simp [settingsRecord]
  unset := by simp [settingsRecord, Field.of]

theorem exists_fillParts_settingsRecord_iff {p₁ p₂ : Option Reading} {Q : SettingsDraft → Prop} :
    (∃ d, fillParts s {} settingsRecord.fields [p₁, p₂] = .ok d ∧ Q d) ↔
      ∃ palette, ReadsPart Wire.palette s p₁ palette ∧
      ∃ stayDownMargin, ReadsPart float s p₂ stayDownMargin ∧ Q { palette, stayDownMargin } := by
  refine exists_fillParts_cons_iff (fun palette => { palette }) rfl (fun _ => rfl)
    fun palette => ?_
  refine exists_fillParts_cons_iff (fun stayDownMargin => { palette, stayDownMargin }) rfl
    (fun _ => rfl) fun stayDownMargin => ?_
  exact exists_fillParts_nil_iff

/-- Settings are read from what says them. -/
theorem settings_eq_ok_iff {a : Settings} (hwhole : r.isWhole = true) :
    settings s r = .ok a ↔ SaysSettings a r := by
  refine decode_eq_ok_iff_saysFields settingsRecord_regular (fun _ => rfl) rfl ?_ hwhole
  intro parts hlength hwhole
  match parts, hlength with
  | [p₁, p₂], _ =>
    refine exists_fillParts_settingsRecord_iff.trans ?_
    have hpalette : ∀ r, p₁ = some r → (palette s.inner r = .ok a.palette ↔
        SaysPalette a.palette r) := by
      rintro r rfl
      exact palette_eq_ok_iff (hwhole r (by simp))
    have hmargin : ∀ r, p₂ = some r → (float s.inner r = .ok a.stayDownMargin ↔
        SaysFloat a.stayDownMargin r) := fun _ _ => float_eq_ok_iff
    simp only [List.forall₂_cons, List.forall₂_nil_left_iff, and_true]
    rw [← exists_readsPart_iff hpalette, ← exists_readsPart_iff hmargin]
    constructor
    · rintro ⟨_, h₁, _, h₂, hfinish⟩
      obtain rfl := Except.ok.inj hfinish
      exact ⟨⟨_, h₁, rfl⟩, _, h₂, rfl⟩
    · rintro ⟨⟨_, h₁, e₁⟩, _, h₂, e₂⟩
      exact ⟨_, h₁, _, h₂, congrArg _ (congrArg₂ Settings.mk e₁ e₂)⟩

/-- A text is read as settings exactly when it is JSON and says them. -/
theorem settings_ofText_eq_ok_iff {text : String} {a : Settings} :
    Settings.ofText text = .ok a ↔ WritesSettings text a := by
  rw [Settings.ofText, ofText_strict_eq_ok_iff, WritesSettings]
  exact exists_congr fun r => and_congr_right fun htext => settings_eq_ok_iff htext.isWhole

end Discussion.Wire
