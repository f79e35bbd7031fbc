import Discussion.Proofs.Reference.Numeral
import Discussion.Session.Replay

/-!
# Lines of events

The bytes of a text are cut at the same places as its characters, so that events may be read from
either. What the lines of a text say does not depend on the blanks around them: a carriage return
at the end of a line, a margin, or a line of blanks changes nothing.
-/

namespace Discussion.Session

variable {cs ds line before after : List Char} {c : Char}

/-! ## Lines -/

theorem cutLines_eq_splitOnPPrepend (line cs : List Char) :
    cutLines line cs = cs.splitOnPPrepend (· == '\n') line := by
  induction cs generalizing line with
  | nil => rfl
  | cons c cs ih =>
    rw [cutLines, ih, ih, List.splitOnPPrepend_cons_eq_if]
    simp only [beq_iff_eq]
    rfl

theorem cutLines_eq_splitOn (cs : List Char) : cutLines [] cs = cs.splitOn '\n' :=
  cutLines_eq_splitOnPPrepend [] cs

theorem cutLines_append_cons (cs ds : List Char) :
    cutLines [] (cs ++ '\n' :: ds) = cutLines [] cs ++ cutLines [] ds := by
  simp only [cutLines_eq_splitOn]
  exact List.splitOnP_append_cons cs ds rfl

theorem lines_append (a b : String) : lines (a ++ "\n" ++ b) = lines a ++ lines b := by
  have htext : (a ++ "\n" ++ b).toList = a.toList ++ '\n' :: b.toList := by simp
  rw [lines, htext, cutLines_append_cons, List.map_append]
  rfl

/-! ## Bytes -/

/-- The bytes of characters. -/
def encoded (cs : List Char) : List UInt8 := cs.flatMap String.utf8EncodeChar

theorem toNat_mem_utf8EncodeChar {b : UInt8} (hb : b ∈ String.utf8EncodeChar c) :
    b.toNat = c.toNat ∨ 128 ≤ b.toNat := by
  rw [String.utf8EncodeChar] at hb
  split at hb
  case isTrue hle =>
    rw [List.mem_singleton] at hb
    subst hb
    exact Or.inl (UInt8.toNat_ofNat_of_lt' (Nat.lt_of_le_of_lt hle (by decide)))
  case isFalse =>
    right
    split at hb
    · simp only [List.mem_cons, List.not_mem_nil, or_false] at hb
      rcases hb with rfl | rfl <;> simp <;> omega
    · split at hb
      · simp only [List.mem_cons, List.not_mem_nil, or_false] at hb
        rcases hb with rfl | rfl | rfl <;> simp <;> omega
      · simp only [List.mem_cons, List.not_mem_nil, or_false] at hb
        rcases hb with rfl | rfl | rfl | rfl <;> simp <;> omega

/-- A line feed in the bytes of a character is the character. -/
theorem ne_lineFeed_of_mem_utf8EncodeChar (hc : c ≠ '\n') :
    ∀ b ∈ String.utf8EncodeChar c, b ≠ 10 := by
  rintro b hb rfl
  rcases toNat_mem_utf8EncodeChar hb with h | h
  · exact hc (Char.toNat_inj.mp h.symm)
  · exact absurd h (by decide)

theorem cutBytes_append {acc bs rest : List UInt8} (hbs : ∀ b ∈ bs, b ≠ 10) :
    Events.cutBytes acc (bs ++ rest) = Events.cutBytes (bs.reverse ++ acc) rest := by
  induction bs generalizing acc with
  | nil => rfl
  | cons b bs ih =>
    obtain ⟨hb, hbs⟩ := List.forall_mem_cons.mp hbs
    rw [List.cons_append, Events.cutBytes, if_neg hb, ih hbs]
    simp

theorem cutBytes_encoded (line cs : List Char) :
    Events.cutBytes (encoded line.reverse).reverse (encoded cs) =
      (cutLines line cs).map encoded := by
  induction cs generalizing line with
  | nil => simp [cutLines, encoded, Events.cutBytes]
  | cons c cs ih =>
    by_cases hc : c = '\n'
    · subst hc
      have hbytes : encoded ('\n' :: cs) = 10 :: encoded cs := rfl
      rw [hbytes, Events.cutBytes, if_pos rfl, List.reverse_reverse, cutLines, if_pos rfl,
        List.map_cons, ← ih []]
      rfl
    · have hbytes : encoded (c :: cs) = String.utf8EncodeChar c ++ encoded cs := rfl
      rw [hbytes, cutBytes_append (ne_lineFeed_of_mem_utf8EncodeChar hc), cutLines, if_neg hc, ← ih]
      congr 1
      simp [encoded]

theorem data_toUTF8 (text : String) : text.toUTF8.data = (encoded text.toList).toArray := by
  rw [String.toUTF8_eq_toByteArray, ← String.utf8Encode_toList]
  exact List.data_toByteArray

theorem fromUTF8?_encoded (cs : List Char) :
    String.fromUTF8? ⟨(encoded cs).toArray⟩ = some (String.ofList cs) := by
  have hbytes : ⟨(encoded cs).toArray⟩ = (String.ofList cs).toUTF8 :=
    ByteArray.ext (by rw [data_toUTF8, String.toList_ofList])
  rw [hbytes, String.fromUTF8?, String.toUTF8_eq_toByteArray,
    dif_pos (String.ofList cs).isValidUTF8]
  rfl

theorem readLines_encoded (ls : List (List Char)) :
    Events.readLines (ls.map encoded) = { lines := ls.map Line.read } := by
  induction ls with
  | nil => rfl
  | cons cs ls ih =>
    rw [List.map_cons, Events.readLines, fromUTF8?_encoded]
    simp [ih]

/-- A text has the same events, whether its characters or its bytes are read. -/
theorem Events.ofBytes_toUTF8 (text : String) : Events.ofBytes text.toUTF8 = Events.ofText text := by
  have hcut : cutBytes [] (encoded text.toList) = (cutLines [] text.toList).map encoded :=
    cutBytes_encoded [] text.toList
  rw [ofBytes, data_toUTF8, List.toList_toArray, hcut, readLines_encoded]
  rfl

/-! ## Blanks -/

/-- A text with blanks added to it, each at the start or at the end of a line. A line feed is a
blank, too, so there may be more lines. -/
inductive Spaced (cs : List Char) : List Char → Prop
  | refl : Spaced cs cs
  | atStart {before after : List Char} {c : Char} (h : Spaced cs (before ++ after))
      (hc : Text.isBlank c = true) (hstart : before = [] ∨ before.getLast? = some '\n') :
      Spaced cs (before ++ c :: after)
  | atEnd {before after : List Char} {c : Char} (h : Spaced cs (before ++ after))
      (hc : Text.isBlank c = true) (hend : after = [] ∨ after.head? = some '\n') :
      Spaced cs (before ++ c :: after)

/-- A carriage return before every line feed. -/
def withReturns (cs : List Char) : List Char :=
  cs.flatMap fun c => if c = '\n' then ['\r', '\n'] else [c]

theorem spaced_withReturns_append (cs ds : List Char) :
    Spaced (cs ++ ds) (withReturns cs ++ ds) := by
  -- from the last character on, so that what comes before a line feed is still as it was
  induction cs using List.reverseRecOn generalizing ds with
  | nil => exact .refl
  | append_singleton cs c ih =>
    rw [List.append_assoc, withReturns, List.flatMap_append, List.flatMap_singleton,
      List.append_assoc]
    split
    case isTrue hc =>
      subst hc
      exact .atEnd (ih ('\n' :: ds)) rfl (.inr rfl)
    case isFalse => exact ih (c :: ds)

theorem spaced_withReturns (cs : List Char) : Spaced cs (withReturns cs) := by
  simpa using spaced_withReturns_append cs []

theorem Line.read_congr {line line' : List Char}
    (h : Text.trimBlanks line = Text.trimBlanks line') : Line.read line = Line.read line' := by
  rw [Line.read, h, Line.read]

theorem Line.read_cons (hc : Text.isBlank c = true) (line : List Char) :
    Line.read (c :: line) = Line.read line :=
  Line.read_congr (by simp [Text.trimBlanks, hc])

theorem Line.read_concat (hc : Text.isBlank c = true) (line : List Char) :
    Line.read (line ++ [c]) = Line.read line := by
  obtain ⟨⟨before, after, hbefore, hafter, htext⟩, hhead, hlast⟩ := Text.trims_trimBlanks line
  have htrims : Text.Trims (line ++ [c]) (Text.trimBlanks line) := by
    refine ⟨⟨before, after ++ [c], hbefore, ?_, ?_⟩, hhead, hlast⟩
    · simpa [or_imp, forall_and] using ⟨hafter, hc⟩
    · conv_lhs => rw [htext]
      simp
  exact Line.read_congr htrims.eq

theorem map_read_cutLines_concat (hc : Text.isBlank c = true) (line cs : List Char) :
    (cutLines (line ++ [c]) cs).map Line.read = (cutLines line cs).map Line.read := by
  induction cs generalizing line with
  | nil => simp [cutLines, Line.read_cons hc]
  | cons d cs ih =>
    rw [cutLines, cutLines]
    split
    · simp [Line.read_cons hc]
    · exact ih (d :: line)

theorem map_read_cutLines_append (hc : Text.isBlank c = true) (hne : c ≠ '\n')
    (line cs : List Char) :
    (cutLines line (cs ++ [c])).map Line.read = (cutLines line cs).map Line.read := by
  induction cs generalizing line with
  | nil => simp [cutLines, hne, Line.read_concat hc]
  | cons d cs ih =>
    rw [List.cons_append, cutLines, cutLines]
    split
    · rw [List.map_cons, List.map_cons, ih]
    · exact ih (d :: line)

/-- Whether a line is not blank. -/
def Line.isFilled : Line → Bool
  | .blank => false
  | _ => true

/-- What the lines of a text say. -/
def filledLines (cs : List Char) : List Line :=
  ((cutLines [] cs).map Line.read).filter Line.isFilled

theorem filledLines_append_cons (cs ds : List Char) :
    filledLines (cs ++ '\n' :: ds) = filledLines cs ++ filledLines ds := by
  rw [filledLines, cutLines_append_cons, List.map_append, List.filter_append]
  rfl

theorem filledLines_cons (hc : Text.isBlank c = true) (cs : List Char) :
    filledLines (c :: cs) = filledLines cs := by
  by_cases hne : c = '\n'
  · subst hne
    exact filledLines_append_cons [] cs
  · rw [filledLines, cutLines, if_neg hne]
    exact congrArg _ (map_read_cutLines_concat hc [] cs)

theorem filledLines_concat (hc : Text.isBlank c = true) (cs : List Char) :
    filledLines (cs ++ [c]) = filledLines cs := by
  by_cases hne : c = '\n'
  · subst hne
    rw [filledLines_append_cons]
    exact List.append_nil _
  · rw [filledLines, map_read_cutLines_append hc hne]
    rfl

/-- Blanks around lines do not change what the lines say. -/
theorem Spaced.filledLines_eq (h : Spaced cs ds) : filledLines ds = filledLines cs := by
  induction h with
  | refl => rfl
  | @atStart before after c _ hc hstart ih =>
    rw [← ih]
    rcases hstart with rfl | hstart
    · exact filledLines_cons hc after
    · obtain ⟨before, rfl⟩ := List.getLast?_eq_some_iff.mp hstart
      simp only [List.append_assoc, List.singleton_append, filledLines_append_cons,
        filledLines_cons hc]
  | @atEnd before after c _ hc hend ih =>
    rw [← ih]
    rcases hend with rfl | hend
    · simpa using filledLines_concat hc before
    · obtain ⟨after, rfl⟩ := List.head?_eq_some_iff.mp hend
      rw [List.append_cons, filledLines_append_cons, filledLines_append_cons,
        filledLines_concat hc]

end Discussion.Session
