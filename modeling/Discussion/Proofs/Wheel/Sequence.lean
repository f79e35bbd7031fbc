import Discussion.Wheel
import Mathlib.Data.Int.GCD
import Mathlib.Data.List.Nodup
import Mathlib.Data.Nat.ModEq
import Mathlib.Logic.Function.Iterate
import Mathlib.Tactic.Ring

/-!
# The sequence of link colors in closed form

Each color of the sequence is made from the color before it. The saturation is brought
into its range by the first step, and the lightness is thrown back into its band by every
step. The hue goes around the circle by equal steps, so after `n` of them it stands where
one long step would have led; a start outside the circle makes no difference, nor does
the word in which a step is counted.
-/

namespace Discussion

namespace Wheel

variable {w : Wheel} {p : Palette}

/-- The color that is taken `n`-th. Before the first there is the one to start from. -/
def nth (w : Wheel) (n : Nat) : Color := (advance^[n] w).current

theorem nth_succ (w : Wheel) (n : Nat) : w.nth (n + 1) = (advance^[n] w).next := by
  rw [nth, Function.iterate_succ_apply', current_advance]

theorem nth_iterate (w : Wheel) (k n : Nat) : (advance^[k] w).nth n = w.nth (n + k) := by
  rw [nth, nth, Function.iterate_add_apply]

theorem take_eq_map (w : Wheel) (k : Nat) :
    w.take k = (List.range k).map fun i => w.nth (i + 1) := by
  induction k generalizing w with
  | zero => rfl
  | succ k ih =>
    rw [take, ih, List.range_succ_eq_map, List.map_cons, List.map_map]
    rfl

theorem length_take (w : Wheel) (k : Nat) : (w.take k).length = k := by
  rw [take_eq_map, List.length_map, List.length_range]

/-- The last of the first colors is the next color of the sequence so far. -/
theorem take_succ_eq_append (w : Wheel) (k : Nat) :
    w.take (k + 1) = w.take k ++ [(advance^[k] w).next] := by
  rw [take_eq_map, take_eq_map, List.range_succ, List.map_append, List.map_singleton, nth_succ]

/-- Along the sequence, nothing but the current color changes. -/
theorem iterate_advance (w : Wheel) (n : Nat) : advance^[n] w = { w with current := w.nth n } := by
  induction n with
  | zero => rfl
  | succ n ih =>
    rw [nth_succ, Function.iterate_succ_apply', ih]
    rfl

/-! ## One step -/

/-- The words of a step are wide enough: neither sum leaves its word, the span divides,
and the new lightness is a signed word as well. -/
structure Fits (w : Wheel) : Prop where
  hue : w.current.hue.toNat + w.hueStep.toNat < UInt32.size
  span : w.lightnessSpan ≠ 0
  lightness : w.current.lightness.toNat + w.lightnessStep.toNat < UInt32.size
  level : (w.current.lightness.toNat + w.lightnessStep.toNat) % w.lightnessSpan.toNat +
    w.lightnessFloor.toNat < 2 ^ 31

theorem Fits.hue_next (h : w.Fits) :
    w.next.hue.toNat = (w.current.hue.toNat + w.hueStep.toNat) % 360 := by
  have hsum : (w.current.hue.toUInt32 + w.hueStep).toNat =
      w.current.hue.toNat + w.hueStep.toNat := by
    rw [UInt32.toNat_add, UInt16.toNat_toUInt32]
    exact Nat.mod_eq_of_lt h.hue
  have hhue : ((w.current.hue.toUInt32 + w.hueStep) % 360).toNat =
      (w.current.hue.toNat + w.hueStep.toNat) % 360 := by
    rw [UInt32.toNat_mod, hsum]
    rfl
  have hchannel : (w.next.hue.toNat : Int) = _ := Color.hue_ofChannels _ _ _
  rw [hhue] at hchannel
  omega

theorem saturation_next (w : Wheel) :
    w.next.saturation.toNat = min w.current.saturation.toNat 100 := by
  have hchannel : (w.next.saturation.toNat : Int) = _ := Color.saturation_ofChannels _ _ _
  omega

theorem Fits.lightness_next (h : w.Fits) :
    w.next.lightness.toNat =
      min ((w.current.lightness.toNat + w.lightnessStep.toNat) % w.lightnessSpan.toNat +
        w.lightnessFloor.toNat) 100 := by
  have hsum : (w.current.lightness.toUInt32 + w.lightnessStep).toNat =
      w.current.lightness.toNat + w.lightnessStep.toNat := by
    rw [UInt32.toNat_add, UInt8.toNat_toUInt32]
    exact Nat.mod_eq_of_lt h.lightness
  have hchannel : (w.next.lightness.toNat : Int) = _ := Color.lightness_ofChannels _ _ _
  rw [UInt32.toNat_add, UInt32.toNat_mod, hsum,
    Nat.mod_eq_of_lt (Nat.lt_trans h.level (by decide))] at hchannel
  omega

/-! ## The sequence of a palette -/

/-- A span of zero counts as one. -/
theorem toNat_lightnessSpan_ofPalette (p : Palette) :
    (ofPalette p).lightnessSpan.toNat = max p.lightnessSpan.toNat 1 := by
  change (if p.lightnessSpan.toUInt32 ≤ 1 then 1 else p.lightnessSpan.toUInt32).toNat = _
  simp only [UInt32.le_iff_toNat_le, UInt8.toNat_toUInt32, UInt32.toNat_one]
  split
  · rename_i hle
    rw [UInt32.toNat_one, Nat.max_eq_right hle]
  · rename_i hlt
    rw [UInt8.toNat_toUInt32, Nat.max_eq_left (Nat.le_of_not_le hlt)]

theorem toNat_hueStep_ofPalette (p : Palette) :
    (ofPalette p).hueStep.toNat = p.hueStep.toNat :=
  UInt16.toNat_toUInt32 _

theorem toNat_lightnessStep_ofPalette (p : Palette) :
    (ofPalette p).lightnessStep.toNat = p.lightnessStep.toNat :=
  UInt8.toNat_toUInt32 _

theorem toNat_lightnessFloor_ofPalette (p : Palette) :
    (ofPalette p).lightnessFloor.toNat = p.lightnessFloor.toNat :=
  UInt8.toNat_toUInt32 _

/-- Whatever color stands before it, a step in the sequence of a palette fits. -/
theorem fits_ofPalette (p : Palette) (c : Color) : Fits { ofPalette p with current := c } := by
  have hspan := toNat_lightnessSpan_ofPalette p
  have hfloor := toNat_lightnessFloor_ofPalette p
  have hhue : c.hue.toNat + (ofPalette p).hueStep.toNat < 2 ^ 17 := by
    have := c.hue.toNat_lt
    have := p.hueStep.toNat_lt
    rw [toNat_hueStep_ofPalette]
    omega
  have hlightness : c.lightness.toNat + (ofPalette p).lightnessStep.toNat < 2 ^ 9 := by
    have := c.lightness.toNat_lt
    have := p.lightnessStep.toNat_lt
    rw [toNat_lightnessStep_ofPalette]
    omega
  constructor
  case hue =>
    exact Nat.lt_trans hhue (by decide)
  case span =>
    intro hzero
    rw [show (ofPalette p).lightnessSpan = 0 from hzero, UInt32.toNat_zero] at hspan
    omega
  case lightness =>
    exact Nat.lt_trans hlightness (by decide)
  case level =>
    change (c.lightness.toNat + (ofPalette p).lightnessStep.toNat) %
      (ofPalette p).lightnessSpan.toNat + (ofPalette p).lightnessFloor.toNat < 2 ^ 31
    have hmod := Nat.mod_le (c.lightness.toNat + (ofPalette p).lightnessStep.toNat)
      (ofPalette p).lightnessSpan.toNat
    have := p.lightnessFloor.toNat_lt
    omega

/-- Every step of the sequence fits. -/
theorem fits_iterate_ofPalette (p : Palette) (n : Nat) : Fits (advance^[n] (ofPalette p)) := by
  rw [iterate_advance]
  exact fits_ofPalette p _

theorem hue_nth_ofPalette (p : Palette) (n : Nat) :
    ((ofPalette p).nth (n + 1)).hue.toNat =
      (p.start.hue.toNat + (n + 1) * p.hueStep.toNat) % 360 := by
  have hstep : ∀ n, ((ofPalette p).nth (n + 1)).hue.toNat =
      (((ofPalette p).nth n).hue.toNat + p.hueStep.toNat) % 360 := by
    intro n
    rw [nth_succ, (fits_iterate_ofPalette p n).hue_next, iterate_advance]
    rfl
  induction n with
  | zero =>
    rw [hstep, Nat.zero_add, Nat.one_mul]
    rfl
  | succ n ih => rw [hstep, ih, Nat.mod_add_mod, Nat.add_assoc, ← Nat.succ_mul]

theorem saturation_nth_ofPalette (p : Palette) (n : Nat) :
    ((ofPalette p).nth (n + 1)).saturation.toNat = min p.start.saturation.toNat 100 := by
  induction n with
  | zero =>
    rw [nth_succ, saturation_next]
    rfl
  | succ n ih =>
    rw [nth_succ, saturation_next]
    change min ((ofPalette p).nth (n + 1)).saturation.toNat 100 = _
    rw [ih, Nat.min_assoc, Nat.min_self]

/-- The lightness lies in the band above the floor, as far as that is a percentage. -/
theorem lightness_nth_ofPalette (p : Palette) (n : Nat) :
    min p.lightnessFloor.toNat 100 ≤ ((ofPalette p).nth (n + 1)).lightness.toNat ∧
    ((ofPalette p).nth (n + 1)).lightness.toNat ≤
      min (p.lightnessFloor.toNat + max p.lightnessSpan.toNat 1 - 1) 100 := by
  rw [nth_succ, (fits_iterate_ofPalette p n).lightness_next, iterate_advance]
  dsimp only
  rw [toNat_lightnessSpan_ofPalette, toNat_lightnessFloor_ofPalette]
  have hlt := Nat.mod_lt (((ofPalette p).nth n).lightness.toNat +
    (ofPalette p).lightnessStep.toNat) (show 0 < max p.lightnessSpan.toNat 1 by omega)
  omega

/-! ## Hues that repeat -/

/-- Two colors have one hue exactly if the steps between them make up whole circles. -/
theorem hue_nth_eq_iff (p : Palette) (i j : Nat) :
    ((ofPalette p).nth (i + 1)).hue = ((ofPalette p).nth (j + 1)).hue ↔
      (360 : ℤ) ∣ ((i : ℤ) - j) * p.hueStep.toNat := by
  have hmod : ((ofPalette p).nth (i + 1)).hue = ((ofPalette p).nth (j + 1)).hue ↔
      p.start.hue.toNat + (j + 1) * p.hueStep.toNat ≡
        p.start.hue.toNat + (i + 1) * p.hueStep.toNat [MOD 360] := by
    rw [← UInt16.toNat_inj, hue_nth_ofPalette, hue_nth_ofPalette, eq_comm]
    rfl
  rw [hmod, Nat.modEq_iff_dvd]
  push_cast
  ring_nf

/-- With a step that is prime to the circle, the next 360 colors have distinct hues. -/
theorem nodup_hue_take (p : Palette) (hstep : Nat.Coprime p.hueStep.toNat 360) (k : Nat) :
    (((advance^[k] (ofPalette p)).take 360).map (·.hue)).Nodup := by
  rw [take_eq_map, List.map_map]
  refine List.Nodup.map_on ?_ List.nodup_range
  intro i hi j hj heq
  simp only [Function.comp_apply, nth_iterate, Nat.add_right_comm _ 1] at heq
  have hdvd := (hue_nth_eq_iff p (i + k) (j + k)).mp heq
  have hgcd : Int.gcd 360 p.hueStep.toNat = 1 := hstep.symm
  obtain ⟨c, hc⟩ := Int.dvd_of_dvd_mul_left_of_gcd_one hdvd hgcd
  push_cast at hc
  rw [List.mem_range] at hi hj
  omega

/-- The sequence of a palette, whatever its rules are. The colors that are taken from it
are numbered from one. No step leaves the words it is made in. The hue has gone as many
equal steps around the circle as colors have been taken, the saturation is that of the
start as a percentage, and the lightness lies in a band above the floor. So two hues are
equal exactly if the steps between them make up whole circles, and if the step is prime to
the circle, no 360 colors in a row have a hue twice. -/
theorem sequence_ofPalette (p : Palette) :
    (∀ k, (ofPalette p).take k = (List.range k).map fun i => (ofPalette p).nth (i + 1)) ∧
    (∀ n, Fits (advance^[n] (ofPalette p))) ∧
    (∀ n, 0 < n →
      ((ofPalette p).nth n).hue.toNat =
        (p.start.hue.toNat + n * p.hueStep.toNat) % 360 ∧
      ((ofPalette p).nth n).saturation.toNat = min p.start.saturation.toNat 100 ∧
      min p.lightnessFloor.toNat 100 ≤ ((ofPalette p).nth n).lightness.toNat ∧
      ((ofPalette p).nth n).lightness.toNat ≤
        min (p.lightnessFloor.toNat + max p.lightnessSpan.toNat 1 - 1) 100) ∧
    (∀ i j, 0 < i → 0 < j →
      (((ofPalette p).nth i).hue = ((ofPalette p).nth j).hue ↔
        (360 : ℤ) ∣ ((i : ℤ) - j) * p.hueStep.toNat)) ∧
    (Nat.Coprime p.hueStep.toNat 360 →
      ∀ k, (((advance^[k] (ofPalette p)).take 360).map (·.hue)).Nodup) := by
  refine ⟨take_eq_map _, fits_iterate_ofPalette p, ?_, ?_, nodup_hue_take p⟩
  · intro n hn
    obtain ⟨n, rfl⟩ := Nat.exists_eq_add_one_of_ne_zero (Nat.ne_of_gt hn)
    exact ⟨hue_nth_ofPalette p n, saturation_nth_ofPalette p n, lightness_nth_ofPalette p n⟩
  · intro i j hi hj
    obtain ⟨i, rfl⟩ := Nat.exists_eq_add_one_of_ne_zero (Nat.ne_of_gt hi)
    obtain ⟨j, rfl⟩ := Nat.exists_eq_add_one_of_ne_zero (Nat.ne_of_gt hj)
    rw [hue_nth_eq_iff]
    push_cast
    rw [add_sub_add_right_eq_sub]

/-- A palette with its start outside all ranges, the longest step that is prime to the
circle, no band, and a floor above all lightness. -/
def extreme : Palette where
  start := ⟨65535, 255, 255⟩
  hueStep := 65533
  lightnessStep := 255
  lightnessSpan := 0
  lightnessFloor := 200

/-- Its first color has taken one step, after a whole circle the hue is back, and in
between no hue comes twice. -/
theorem sequence_ofPalette_extreme :
    ((ofPalette extreme).nth 1).hue.toNat = 28 ∧
    ((ofPalette extreme).nth 1).saturation.toNat = 100 ∧
    ((ofPalette extreme).nth 1).lightness.toNat = 100 ∧
    ((ofPalette extreme).nth 361).hue = ((ofPalette extreme).nth 1).hue ∧
    (((ofPalette extreme).take 360).map (·.hue)).Nodup := by
  obtain ⟨-, -, hcolor, hrepeat, hdistinct⟩ := sequence_ofPalette extreme
  obtain ⟨hhue, hsaturation, hlow, hhigh⟩ := hcolor 1 (by decide)
  exact ⟨hhue, hsaturation, Nat.le_antisymm hhigh hlow,
    (hrepeat 361 1 (by decide) (by decide)).mpr (by decide), hdistinct (by decide) 0⟩

end Wheel

end Discussion
