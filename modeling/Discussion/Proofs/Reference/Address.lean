import Discussion.Reference.Key
import Mathlib.Data.List.Basic

/-!
# Scopes and addresses

The scope of a reader's identity and the address of a post are texts put together from a slug and
a number. Each can be taken apart again: what follows the last `_` of a scope and the last `#` of
an address are digits, and a slug stands in an address as it is.
-/

namespace Discussion

/-! ## Encoded texts -/

namespace Text

variable {c : Char}

theorem toNat_lt_of_isAlphanum (h : c.isAlphanum = true) : c.toNat < 128 := by
  have hcases : c.isAlphanum = (c.isUpper || c.isLower || c.isDigit) := rfl
  have hupper : c.isUpper = decide ('A'.val ≤ c.val ∧ c.val ≤ 'Z'.val) := rfl
  have hlower : c.isLower = (decide ('a'.val ≤ c.val) && decide (c.val ≤ 'z'.val)) := rfl
  have hdigit : c.isDigit = (decide ('0'.val ≤ c.val) && decide (c.val ≤ '9'.val)) := rfl
  simp only [hcases, hupper, hlower, hdigit, Bool.or_eq_true, Bool.and_eq_true,
    decide_eq_true_eq] at h
  rcases h with (⟨-, h⟩ | ⟨-, h⟩) | ⟨-, h⟩ <;> exact Nat.lt_of_le_of_lt h (by decide)

theorem toNat_lt_of_isUnreserved (h : isUnreserved c = true) : c.toNat < 128 := by
  simp only [isUnreserved, Bool.or_eq_true, beq_iff_eq] at h
  rcases h with (((h | rfl) | rfl) | rfl) | rfl
  · exact toNat_lt_of_isAlphanum h
  all_goals decide

theorem percentByte_of_isUnreserved (h : isUnreserved c = true) :
    (String.utf8EncodeChar c).flatMap percentByte = [c] := by
  have hlt : c.val.toNat < 128 := toNat_lt_of_isUnreserved h
  have hbyte : String.utf8EncodeChar c = [UInt8.ofNat c.val.toNat] :=
    if_pos (Nat.le_of_lt_succ hlt)
  have hchar : Char.ofNat (UInt8.ofNat c.val.toNat).toNat = c := by
    rw [UInt8.toNat_ofNat_of_lt' (Nat.lt_trans hlt (by decide))]
    exact Char.ofNat_toNat c
  rw [hbyte, List.flatMap_singleton, percentByte]
  simp only [hchar, h, if_true]

/-- A text of unreserved characters needs no encoding. -/
theorem percentEncode_eq_self {s : String} (h : ∀ c ∈ s.toList, isUnreserved c = true) :
    percentEncode s = s := by
  rw [percentEncode, List.flatMap_assoc,
    List.flatMap_congr fun c hc => percentByte_of_isUnreserved (h c hc), List.flatMap_singleton',
    String.ofList_toList]

end Text

/-! ## Slugs -/

namespace Slug

theorem isSlugChar_of_mem (a : Slug) {c : Char} (hc : c ∈ a.text.toList) :
    isSlugChar c = true := by
  have hvalid := a.valid
  simp only [isSlug, Bool.and_eq_true, List.all_eq_true] at hvalid
  exact hvalid.2 c hc

theorem text_inj {a b : Slug} : a.text = b.text ↔ a = b := by
  refine ⟨fun h => ?_, congrArg text⟩
  cases a
  cases b
  simp_all

theorem parse_eq_ok_iff {text : String} {a : Slug} : parse text = .ok a ↔ a.text = text := by
  rw [parse]
  constructor
  · intro h
    split at h
    · rw [← Except.ok.inj h]
    · cases h
  · rintro rfl
    rw [dif_pos a.valid]

theorem address_eq (a : Slug) : a.address = "/t/" ++ a.text := by
  rw [address, Text.percentEncode_eq_self]
  intro c hc
  have hslug := a.isSlugChar_of_mem hc
  simp only [isSlugChar, Bool.or_eq_true, beq_iff_eq] at hslug
  rcases hslug with (h | rfl) | rfl
  · simp [Text.isUnreserved, h]
  all_goals rfl

end Slug

/-! ## Texts that end in a number -/

theorem not_mem_digits {c : Char} (hc : c.isDigit = false) (n : Nat) : c ∉ Nat.toDigits 10 n := by
  intro hmem
  rw [Nat.isDigit_of_mem_toDigits (by decide) (by decide) hmem] at hc
  exact Bool.noConfusion hc

/-- What stands before and after the last separator is settled by a text. -/
theorem append_cons_inj_of_not_mem_right {sep : Char} {xs ys ds es : List Char} (hds : sep ∉ ds)
    (hes : sep ∉ es) : xs ++ sep :: ds = ys ++ sep :: es ↔ xs = ys ∧ ds = es := by
  constructor
  · intro h
    rcases List.append_eq_append_iff.mp h with ⟨cs, rfl, hcs⟩ | ⟨cs, rfl, hcs⟩
    · cases cs with
      | nil => exact ⟨(List.append_nil _).symm, (List.cons.inj hcs).2⟩
      | cons c cs => exact absurd (by simp [(List.cons.inj hcs).2]) hds
    · cases cs with
      | nil => exact ⟨List.append_nil _, (List.cons.inj hcs).2.symm⟩
      | cons c cs => exact absurd (by simp [(List.cons.inj hcs).2]) hes
  · rintro ⟨rfl, rfl⟩
    rfl

theorem toDigits_inj {m n : Nat} : Nat.toDigits 10 m = Nat.toDigits 10 n ↔ m = n := by
  refine ⟨fun h => ?_, congrArg _⟩
  have hvalue := congrArg (Nat.ofDigitChars 10 · 0) h
  simpa only [Nat.ofDigitChars_ten_toDigits] using hvalue

/-- A text that ends in a separator and a number settles the number and what comes before it. -/
theorem append_number_inj {sep : Char} (hsep : sep.isDigit = false) {s t : String} {m n : Nat} :
    s.toList ++ sep :: Nat.toDigits 10 m = t.toList ++ sep :: Nat.toDigits 10 n ↔
      s = t ∧ m = n := by
  rw [append_cons_inj_of_not_mem_right (not_mem_digits hsep m) (not_mem_digits hsep n),
    String.toList_inj, toDigits_inj]

namespace Slug

theorem toList_identityScope (a : Slug) (m : UInt64) :
    (a.identityScope m).toList =
      "thread_".toList ++ (a.text.toList ++ '_' :: Nat.toDigits 10 m.toNat) := by
  simp [identityScope]

theorem toList_postAddress (a : Slug) (p : PostNumber) :
    (a.postAddress p).toList =
      "/t/".toList ++ (a.text.toList ++ '#' :: Nat.toDigits 10 p.value) := by
  simp [postAddress, address_eq, PostNumber.anchor, PostNumber.digits]

theorem identityScope_inj {a b : Slug} {m n : UInt64} :
    a.identityScope m = b.identityScope n ↔ a = b ∧ m = n := by
  rw [← String.toList_inj, toList_identityScope, toList_identityScope,
    List.append_cancel_left_eq, append_number_inj rfl, text_inj, UInt64.toNat_inj]

theorem postAddress_inj {a b : Slug} {p q : PostNumber} :
    a.postAddress p = b.postAddress q ↔ p = q ∧ a = b := by
  rw [← String.toList_inj, toList_postAddress, toList_postAddress,
    List.append_cancel_left_eq, append_number_inj rfl, text_inj, and_comm]
  exact and_congr_left' ⟨PostNumber.ext, congrArg PostNumber.value⟩

/-- The scopes of two loads of threads are the same only if the threads and their view markers are,
and the addresses of two posts only if the posts and their threads are. -/
theorem scope_and_address_inj {s t : String} {a b : Slug} (ha : parse s = .ok a)
    (hb : parse t = .ok b) :
    (∀ m n, a.identityScope m = b.identityScope n ↔ s = t ∧ m = n) ∧
      ∀ p q, a.postAddress p = b.postAddress q ↔ p = q ∧ s = t := by
  have htext : s = t ↔ a = b := by
    rw [← parse_eq_ok_iff.mp ha, ← parse_eq_ok_iff.mp hb, text_inj]
  exact ⟨fun m n => by rw [htext, identityScope_inj], fun p q => by rw [htext, postAddress_inj]⟩

/-- A slug may end in what looks like a view marker. -/
theorem scope_and_address_inj_numbered :
    ∃ a b, parse "a_1" = .ok a ∧ parse "a" = .ok b ∧
      (∀ m n, a.identityScope m = b.identityScope n ↔ "a_1" = "a" ∧ m = n) ∧
        ∀ p q, a.postAddress p = b.postAddress q ↔ p = q ∧ "a_1" = "a" :=
  ⟨⟨"a_1", rfl⟩, ⟨"a", rfl⟩, rfl, rfl, scope_and_address_inj rfl rfl⟩

end Slug

end Discussion
