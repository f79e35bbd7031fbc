import Discussion.Proofs.Wire.Rendering

/-!
# Parents and markers that make no sense

A parent or a marker never costs a post: what does not fit counts as none. So an object with a
parent and a marker, whatever they are, decodes just like the object without them, up to the two
fields that they fill.
-/

namespace Discussion.Wire

open Json (IsDocument Key Reading Value)

variable {α : Type} {s : Source} {r x y : Reading} {ms ms' : List (Key × Reading)} {room : Nat}

/-- What does not fit counts as nothing. -/
theorem exists_orDefault_none_eq {d : Decoder (Option α)} (htake : take s r = .ok ()) :
    ∃ v, orDefault none d s r = .ok v ∧ ∀ a, v = some a ↔ d .taken r = .ok (some a) := by
  rw [orDefault, htake]
  cases d .taken r with
  | error fault => exact ⟨none, rfl, by simp⟩
  | ok v => exact ⟨v, rfl, by simp⟩

theorem optional_text_eq_some_iff {t : String} :
    optional text s r = .ok (some t) ↔ r = .string (some t) := by
  cases r with
  | string t? => cases t? <;> simp [optional, text, wrongType, found?, Except.map]
  | number n => cases n <;> simp [optional, text, wrongType, found?, Except.map]
  | _ => simp [optional, text, wrongType, found?, Except.map]

/-- The rest of a post does not depend on its parent and its marker. -/
theorem ofMembers_parent_marker (parent : Option PostNumber) (marker : Option String)
    (d : PostDraft) :
    postRecord.ofMembers { d with parent := some parent, marker := some marker } =
      (postRecord.ofMembers d).map fun p => { p with parent, marker } := by
  obtain ⟨number, site, _, author, seed, _, _, _⟩ := d
  cases number <;> cases site <;> cases author <;> cases seed <;> rfl

/-- The names under which a parent or a marker may stand. -/
def recoverableNames : List String := ["reply_target", "target", "marker"]

theorem fillMembers_eq_of_marker {marker : Option String} {d : PostDraft}
    (hmarker : orDefault none (optional text) s y = .ok marker) (hy : under ["marker"] ms = [y])
    (hunset : d.marker = none) :
    fillMembers postRecord.fields s d ms =
      (fillMembers postRecord.fields s d (without ["marker"] ms)).map
        fun d => { d with marker := some marker } := by
  have hfield : markerField ∈ postRecord.fields := by simp [postRecord]
  have hisSet : markerField.isSet d = false := by simp [markerField, Field.of, hunset]
  exact fillMembers_eq_without postRecord_separate hfield (Field.sets_of hmarker) hy hisSet

theorem fillMembers_eq_of_parent {parent? : Option PostNumber} {d : PostDraft}
    (hparent : orDefault none parent s x = .ok parent?)
    (hx : under ["reply_target", "target"] ms = [x]) (hunset : d.parent = none) :
    fillMembers postRecord.fields s d ms =
      (fillMembers postRecord.fields s d (without ["reply_target", "target"] ms)).map
        fun d => { d with parent := some parent? } := by
  have hfield : parentField ∈ postRecord.fields := by simp [postRecord]
  have hisSet : parentField.isSet d = false := by simp [parentField, Field.of, hunset]
  exact fillMembers_eq_without postRecord_separate hfield (Field.sets_of hparent) hx hisSet

/-- A parent and a marker can be taken out of a post. -/
theorem exists_post_eq_without (hx : under ["reply_target", "target"] ms = [x])
    (hy : under ["marker"] ms = [y]) (hxtake : take s.inner x = .ok ())
    (hytake : take s.inner y = .ok ()) :
    ∃ parent marker, (∀ n, parent = some n ↔ SaysNumber x n.value) ∧
      (∀ t, marker = some t ↔ y = .string (some t)) ∧
      post s (.object ms true) =
        (post s (.object (without recoverableNames ms) true)).map
          fun p => { p with parent, marker } := by
  obtain ⟨parent?, hparent, hparent_iff⟩ := exists_orDefault_none_eq hxtake
  obtain ⟨marker?, hmarker, hmarker_iff⟩ := exists_orDefault_none_eq hytake
  refine ⟨parent?, marker?, fun n => (hparent_iff n).trans parent_eq_some_iff,
    fun t => (hmarker_iff t).trans optional_text_eq_some_iff, ?_⟩
  have hdisjoint : List.Disjoint ["reply_target", "target"] ["marker"] := by simp
  have hnames : without recoverableNames ms =
      without ["reply_target", "target"] (without ["marker"] ms) :=
    without_append ["reply_target", "target"] ["marker"] ms
  rw [post, Record.decode_object, Record.decode_object, hnames,
    fillMembers_eq_of_marker hmarker hy rfl,
    fillMembers_eq_of_parent hparent ((under_without hdisjoint).trans hx) rfl]
  cases fillMembers postRecord.fields s.inner postRecord.blank
      (without ["reply_target", "target"] (without ["marker"] ms)) with
  | error fault => rfl
  | ok d => exact ofMembers_parent_marker parent? marker? d

/-- A post with any parent and marker that can be read at all is read as the post without them. The
parent is a post number if it says one, and the marker is a text if it is one. Either is none in
every other case. -/
theorem ofText_of_extended {o o' : String} (ho : IsDocument o (.object ms true))
    (ho' : IsDocument o' (.object ms' true)) (hms : without recoverableNames ms' = ms)
    (hx : under ["reply_target", "target"] ms' = [x]) (hy : under ["marker"] ms' = [y])
    (hxsound : x.isSound (Json.depthLimit - 1) = true)
    (hysound : y.isSound (Json.depthLimit - 1) = true) :
    ∃ parent marker, (∀ n, parent = some n ↔ SaysNumber x n.value) ∧
      (∀ t, marker = some t ↔ y = .string (some t)) ∧
      Post.ofText o' = (Post.ofText o).map fun p => { p with parent, marker } := by
  subst hms
  have hspares : postRecord.leniency.Spares Json.depthLimit
      (.object (without recoverableNames ms') true) := by
    refine post_spares ?_ ?_ <;> rw [under_without_eq_nil (by simp [recoverableNames])] <;> simp
  have hspares' : postRecord.leniency.Spares Json.depthLimit (.object ms' true) :=
    post_spares (by simpa [hx] using hxsound) (by simpa [hy] using hysound)
  obtain ⟨parent, marker, hparent, hmarker, hpost⟩ :=
    exists_post_eq_without (s := .text Json.depthLimit) hx hy (if_pos hxsound) (if_pos hysound)
  refine ⟨parent, marker, hparent, hmarker, ?_⟩
  rw [Post.ofText, Post.ofText, Record.ofText, Record.ofText, ofText_eq ho hspares,
    ofText_eq ho' hspares']
  exact hpost

/-- The members of a post with neither a parent nor a marker. -/
def plainMembers : List (String × Value) :=
  [("local_id", .number 3), ("global_id", .number 7), ("identity", .string "k1"),
    ("color", .object [("hue", .number 7), ("saturation", .number 200), ("lightness", .number 40)])]

/-- A parent and a marker that make no sense. -/
def senselessMembers : List (String × Value) :=
  [("target", .array [.bool true]), ("marker", .number 5)]

theorem ofText_senselessMembers :
    ∃ parent marker,
      (∀ n, parent = some n ↔ SaysNumber (.array [.bool true] true) n.value) ∧
        (∀ t, marker = some t ↔ Reading.number (.integer 5) = .string (some t)) ∧
        Post.ofText (Value.object (senselessMembers ++ plainMembers)).text =
          (Post.ofText (Value.object plainMembers).text).map fun p =>
            { p with parent, marker } := by
  have hplain : (Value.object plainMembers).Fits := by
    simp only [plainMembers, Value.fits_object_iff, List.forall_mem_cons, Value.fits_number_iff,
      Value.fits_string, List.not_mem_nil, false_imp_iff, implies_true, and_true, true_and]
    decide
  have hextended : (Value.object (senselessMembers ++ plainMembers)).Fits := by
    rw [Value.fits_object_iff, List.forall_mem_append]
    refine ⟨?_, Value.fits_object_iff.mp hplain⟩
    simp only [senselessMembers, List.forall_mem_cons, Value.fits_array_iff, Value.fits_bool,
      Value.fits_number_iff, List.not_mem_nil, false_imp_iff, implies_true, and_true, true_and]
    decide
  exact ofText_of_extended hplain.isDocument hextended.isDocument rfl rfl rfl rfl rfl

end Discussion.Wire
