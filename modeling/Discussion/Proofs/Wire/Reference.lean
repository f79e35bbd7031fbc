import Discussion.Proofs.Json.Writing
import Discussion.Proofs.Reference.Numeral
import Discussion.Wire.Text

/-!
# References in data

A reference may stand in the data as a number or as a string. Every decoder of references goes
by the text of what it meets, and the text of a number is its digits. So a number and the string
of its digits decode alike, and a string may have zeros and blanks besides.
-/

namespace Discussion.Wire

open Json (IsDocument Reading Value)

variable {s : Source} {r : Reading} {raw : RawReference} {v : Nat}

/-! ## Raw references -/

theorem rawReference_number (s : Source) (n : Nat) :
    rawReference s (.number (.integer n)) = .ok (.number n) := by
  cases s <;> rfl

theorem rawReference_string (s : Source) (t : String) :
    rawReference s (.string (some t)) = .ok (.text t) := by
  cases s <;> rfl

theorem eq_of_rawReference_eq_ok (h : rawReference s r = .ok raw) :
    (∃ n : Nat, r = .number (.integer n) ∧ raw = .number n) ∨
      ∃ t, r = .string (some t) ∧ raw = .text t := by
  unfold rawReference at h
  split at h
  · cases h
  · split at h
    · exact .inl ⟨_, rfl, (Except.ok.inj h).symm⟩
    · exact .inr ⟨_, rfl, (Except.ok.inj h).symm⟩
    · cases h

/-- A part says a number: it is the number, or a string that denotes it. -/
def SaysNumber (r : Reading) (v : Nat) : Prop :=
  r = .number (.integer v) ∨
    ∃ t, r = .string (some t) ∧ Denotes (Text.trimBlanks t.toList) v

theorem saysNumber_iff : SaysNumber r v ↔
    ∃ raw, rawReference s r = .ok raw ∧ Denotes (Text.trimBlanks raw.toText.toList) v := by
  constructor
  · rintro (rfl | ⟨t, rfl, ht⟩)
    · exact ⟨_, rawReference_number s v, denotes_toString v⟩
    · exact ⟨_, rawReference_string s t, ht⟩
  · rintro ⟨raw, hraw, hdenotes⟩
    rcases eq_of_rawReference_eq_ok hraw with ⟨n, rfl, rfl⟩ | ⟨t, rfl, rfl⟩
    · obtain rfl := hdenotes.unique (denotes_toString n)
      exact .inl rfl
    · exact .inr ⟨t, rfl, hdenotes⟩

/-- A decoder that goes by the text of a reference. -/
def byText {α : Type} (parse : String → Except ReferenceError α) : Decoder α := fun s r =>
  rawReference s r >>= fun raw => refer (parse raw.toText)

theorem refer_eq_ok_iff {α : Type} {e : Except ReferenceError α} {a : α} :
    refer e = .ok a ↔ e = .ok a := by
  cases e <;> simp [refer, Except.mapError]

theorem byText_eq_ok_iff {α : Type} {parse : String → Except ReferenceError α} {a : α} :
    byText parse s r = .ok a ↔
      ∃ raw, rawReference s r = .ok raw ∧ parse raw.toText = .ok a := by
  unfold byText
  cases rawReference s r with
  | error fault => simp [bind, Except.bind]
  | ok raw => simp [bind, Except.bind, refer_eq_ok_iff]

theorem ofNat_eq_parse (n : Nat) : PostNumber.ofNat n = PostNumber.parse (toString n) := by
  have hdenotes := denotes_toString n
  rw [PostNumber.parse, numeral?_of_denotes hdenotes]
  simp only [hdenotes.value]

theorem postNumber_eq_byText : postNumber = byText PostNumber.parse := by
  funext s r
  unfold postNumber byText
  congr 1
  funext raw
  cases raw with
  | number n => simp only [ofNat_eq_parse, RawReference.toText]
  | text t => rfl

theorem postNumber_eq_ok_iff {n : PostNumber} :
    postNumber s r = .ok n ↔ SaysNumber r n.value := by
  rw [postNumber_eq_byText, byText_eq_ok_iff, saysNumber_iff (s := s)]
  simp only [PostNumber.parse_eq_ok_iff]

theorem siteNumber_eq_byText : siteNumber = byText SiteNumber.parse := rfl

theorem siteNumber_eq_ok_iff {n : SiteNumber} :
    siteNumber s r = .ok n ↔ SaysNumber r n.value := by
  rw [siteNumber_eq_byText, byText_eq_ok_iff, saysNumber_iff (s := s)]
  simp only [SiteNumber.parse_eq_ok_iff]

/-! ## Parents -/

/-- A part says that a post starts a conversation. -/
def SaysNoParent (r : Reading) : Prop :=
  r = .null ∨ r = .number (.integer 0) ∨
    ∃ t, r = .string (some t) ∧ SaysRoot (Text.trimBlanks t.toList)

theorem parent_eq_byText (h : r ≠ .null) : parent s r = byText PostNumber.parseParent s r := by
  have hoptional : optional rawReference s r = (rawReference s r).map some := by
    cases r <;> first | rfl | exact absurd rfl h
  unfold parent byText
  rw [hoptional]
  cases rawReference s r <;> rfl

theorem parent_eq_some_iff {n : PostNumber} :
    parent s r = .ok (some n) ↔ SaysNumber r n.value := by
  by_cases hr : r = .null
  · subst hr
    simp [SaysNumber, parent, optional, bind, Except.bind, pure, Except.pure]
  · rw [parent_eq_byText hr, byText_eq_ok_iff, saysNumber_iff (s := s)]
    simp only [PostNumber.parseParent_eq_some_iff]

theorem parent_eq_none_of (h : SaysNoParent r) : parent s r = .ok none := by
  rcases h with rfl | rfl | ⟨t, rfl, ht⟩
  · rfl
  · cases s <;> rfl
  · rw [parent_eq_byText (by simp), byText_eq_ok_iff]
    exact ⟨_, rawReference_string s t, PostNumber.parseParent_of_root ht⟩

/-! ## Numbers and their digits -/

/-- `d` decodes the number `n` and the string of its digits alike, inside of any data and as a
text of their own. -/
structure Agrees {α : Type} (d : Decoder α) (n : Nat) : Prop where
  reading (s : Source) : d s (.number (.integer n)) = d s (.string (some (toString n)))
  text : ofText d (Value.number n).text = ofText d (Value.string (toString n)).text

theorem byText_number_eq {α : Type} (parse : String → Except ReferenceError α) (s : Source)
    (n : Nat) :
    byText parse s (.number (.integer n)) = byText parse s (.string (some (toString n))) := by
  rw [byText, byText, rawReference_number, rawReference_string]
  rfl

theorem ofText_eq {α : Type} {d : Decoder α} {text : String} {leniency : Json.Leniency}
    (h : IsDocument text r) (hspares : leniency.Spares Json.depthLimit r) :
    ofText d text leniency = d (.text Json.depthLimit) r := by
  rw [ofText, h.read_eq hspares]
  cases d (.text Json.depthLimit) r <;> rfl

theorem ofText_strict_eq {α : Type} {d : Decoder α} {text : String} (h : IsDocument text r) :
    ofText d text = d (.text Json.depthLimit) r :=
  ofText_eq h trivial

theorem Agrees.of_reading {α : Type} {d : Decoder α} {n : Nat} (hn : n < UInt64.size)
    (h : ∀ s, d s (.number (.integer n)) = d s (.string (some (toString n)))) : Agrees d n where
  reading := h
  text := by
    have hfits : Json.FitsWord n := ⟨by omega, by omega⟩
    rw [ofText_strict_eq (Value.Fits.number hfits).isDocument,
      ofText_strict_eq (Value.Fits.string (toString n)).isDocument]
    exact h _

/-- The parsers of numbers accept what denotes a number in range once it is trimmed, and refuse
everything else at the first step that fails. A parent is missing where the text says so, and
otherwise follows the parser of post numbers. A number and the string of its digits decode alike,
and a number that is shown is read again. -/
theorem numbers_read_exactly :
    (∀ cs t, Text.Trims cs t ↔ Text.trimBlanks cs = t) ∧
      ReadsNumerals .post 1 PostNumber.value PostNumber.parse ∧
      ReadsNumerals .site 0 SiteNumber.value SiteNumber.parse ∧
      (∀ text : String,
        (PostNumber.parseParent text = .ok none ↔ SaysRoot (Text.trimBlanks text.toList)) ∧
          (¬ SaysRoot (Text.trimBlanks text.toList) →
            PostNumber.parseParent text = (PostNumber.parse text).map some)) ∧
      (∀ n < UInt64.size, Agrees postNumber n ∧ Agrees siteNumber n ∧ Agrees parent n ∧
        Agrees authorKey n) ∧
      (∀ n : PostNumber, PostNumber.parse (toString n) = .ok n) ∧
      ∀ n : SiteNumber, SiteNumber.parse (toString n) = .ok n := by
  refine ⟨fun _ _ => Text.trims_iff, PostNumber.readsNumerals, SiteNumber.readsNumerals,
    fun text => ?_, fun n hn => ?_, PostNumber.parse_toString, SiteNumber.parse_toString⟩
  · exact ⟨PostNumber.parseParent_eq_none_iff, PostNumber.parseParent_of_not_root⟩
  · refine ⟨.of_reading hn fun s => ?_, .of_reading hn fun s => ?_, .of_reading hn fun s => ?_,
      .of_reading hn fun s => ?_⟩
    · rw [postNumber_eq_byText]
      exact byText_number_eq _ s n
    · exact byText_number_eq _ s n
    · rw [parent_eq_byText (by simp), parent_eq_byText (by simp)]
      exact byText_number_eq _ s n
    · exact byText_number_eq AuthorKey.parse s n

end Discussion.Wire
