import HostBridge.Number.Binary64
import Mathlib.Algebra.Group.Nat.Defs
import Mathlib.Tactic.ByContra

/-! # Whole numbers that have a binary64 number of their own

Up to 2 ^ 53 rounding changes no whole number: the bits can be told outright, and different numbers
get different bits. The next number, 2 ^ 53 + 1, is rounded to 2 ^ 53.
-/
namespace HostBridge.Binary64

/-- The largest number up to which no whole number is rounded. -/
def exactLimit : Nat := 0x20000000000000

/-- The bits of a whole number up to the limit, without its sign. -/
def wholeMagnitude (n : Nat) : Nat :=
  if n = 0 then 0
  else if n = exactLimit then 1076 * exponentWeight
  else (n.log2 + 1022) * exponentWeight + n * 2 ^ (52 - n.log2)

theorem log2_le_of_lt {n : Nat} (hn : n < exactLimit) : n.log2 ≤ 52 := by
  by_cases h0 : n = 0
  · rw [h0]
    decide
  · have hlog : n.log2 < 53 := (Nat.log2_lt h0).mpr hn
    omega

/-- A number that is shifted to have 53 bits. -/
theorem shifted_bounds {n : Nat} (h0 : n ≠ 0) (hn : n < exactLimit) :
    exponentWeight ≤ n * 2 ^ (52 - n.log2) ∧ n * 2 ^ (52 - n.log2) < 2 * exponentWeight := by
  have hlog := log2_le_of_lt hn
  have hlow : 2 ^ n.log2 * 2 ^ (52 - n.log2) = exponentWeight := by
    rw [← Nat.pow_add, Nat.add_sub_cancel' hlog]
    rfl
  have hhigh : 2 ^ (n.log2 + 1) * 2 ^ (52 - n.log2) = 2 * exponentWeight := by
    rw [Nat.pow_succ', Nat.mul_assoc, hlow]
  constructor
  · rw [← hlow]
    exact Nat.mul_le_mul_right _ (Nat.log2_self_le h0)
  · rw [← hhigh]
    exact Nat.mul_lt_mul_of_pos_right Nat.lt_log2_self (Nat.two_pow_pos _)

theorem wholeMagnitude_of_lt {n : Nat} (h0 : n ≠ 0) (hn : n < exactLimit) :
    wholeMagnitude n = (n.log2 + 1022) * exponentWeight + n * 2 ^ (52 - n.log2) := by
  rw [wholeMagnitude, if_neg h0, if_neg (Nat.ne_of_lt hn)]

theorem lastPlace_of_lt {n : Nat} (h0 : n ≠ 0) (hn : n < exactLimit) :
    lastPlace n 1 = (n.log2 : Int) - 52 := by
  have hlog := log2_le_of_lt hn
  have hguess : (n.log2 : Int) - (Nat.log2 1 : Nat) - 52 = (n.log2 : Int) - 52 := by
    rw [show Nat.log2 1 = 0 by decide]
    omega
  have hneg : (-((n.log2 : Int) - 52)).toNat = 52 - n.log2 := by omega
  have hpos : ((n.log2 : Int) - 52).toNat = 0 := by omega
  have hlong : ¬ n * Nat.pow 2 (52 - n.log2) < 1 * Nat.pow 2 0 * exponentWeight := by
    have hlow : exponentWeight ≤ n * Nat.pow 2 (52 - n.log2) := (shifted_bounds h0 hn).1
    have hone : 1 * Nat.pow 2 0 * exponentWeight = exponentWeight := rfl
    omega
  have hplace : max ((n.log2 : Int) - 52) (-1074) = (n.log2 : Int) - 52 := by omega
  simp only [lastPlace, hguess, hneg, hpos, hlong, decide_false, Bool.false_eq_true, if_false,
    hplace]

theorem roundQuotient_one (n : Nat) : roundQuotient n 1 = n := by
  simp [roundQuotient, Nat.mod_one]

theorem nearest_whole (negative : Bool) {n : Nat} (hn : n ≤ exactLimit) :
    nearest negative n 1 = ofMagnitude negative (wholeMagnitude n) := by
  by_cases h0 : n = 0
  · rw [nearest, if_pos h0, wholeMagnitude, if_pos h0]
  by_cases hlimit : n = exactLimit
  · rw [hlimit]
    cases negative <;> rfl
  · have hlt : n < exactLimit := by omega
    have hlog := log2_le_of_lt hlt
    have hneg : (-((n.log2 : Int) - 52)).toNat = 52 - n.log2 := by omega
    have hpos : ((n.log2 : Int) - 52).toNat = 0 := by omega
    have hfield : ((n.log2 : Int) - 52 + 1074).toNat = n.log2 + 1022 := by omega
    have hcount : roundQuotient (n * Nat.pow 2 (52 - n.log2)) (1 * Nat.pow 2 0) =
        n * 2 ^ (52 - n.log2) := roundQuotient_one _
    have hle : (n.log2 + 1022) * exponentWeight + n * 2 ^ (52 - n.log2) ≤ infinityMagnitude := by
      have hhigh := (shifted_bounds h0 hlt).2
      simp only [exponentWeight, infinityMagnitude] at *
      omega
    simp only [nearest, if_neg h0, lastPlace_of_lt h0 hlt, hneg, hpos, hfield, hcount,
      wholeMagnitude_of_lt h0 hlt, Nat.min_eq_left hle]

/-- The field of the exponent and the bits behind it. -/
theorem wholeMagnitude_bounds {n : Nat} (h0 : n ≠ 0) (hn : n < exactLimit) :
    (n.log2 + 1023) * exponentWeight ≤ wholeMagnitude n ∧
      wholeMagnitude n < (n.log2 + 1024) * exponentWeight := by
  obtain ⟨hlow, hhigh⟩ := shifted_bounds h0 hn
  have hfirst : (n.log2 + 1023) * exponentWeight =
      (n.log2 + 1022) * exponentWeight + exponentWeight := Nat.succ_mul _ _
  have hsecond : (n.log2 + 1024) * exponentWeight =
      (n.log2 + 1023) * exponentWeight + exponentWeight := Nat.succ_mul _ _
  rw [wholeMagnitude_of_lt h0 hn]
  constructor <;> omega

theorem wholeMagnitude_lt_limit {n : Nat} (h0 : n ≠ 0) (hn : n < exactLimit) :
    wholeMagnitude n < wholeMagnitude exactLimit := by
  have hlog := log2_le_of_lt hn
  have hlimit : wholeMagnitude exactLimit = 1076 * exponentWeight := rfl
  calc wholeMagnitude n
    _ < (n.log2 + 1024) * exponentWeight := (wholeMagnitude_bounds h0 hn).2
    _ ≤ 1076 * exponentWeight := Nat.mul_le_mul_right _ (by omega)
    _ = wholeMagnitude exactLimit := hlimit.symm

theorem wholeMagnitude_lt {n : Nat} (hn : n ≤ exactLimit) : wholeMagnitude n < signWeight := by
  have hlimit : wholeMagnitude exactLimit < signWeight := by decide
  by_cases h0 : n = 0
  · rw [h0]
    decide
  by_cases hlast : n = exactLimit
  · rwa [hlast]
  · have hlt := wholeMagnitude_lt_limit h0 (by omega)
    omega

theorem wholeMagnitude_eq_zero {n : Nat} (hn : n ≤ exactLimit) (h : wholeMagnitude n = 0) :
    n = 0 := by
  by_contra h0
  by_cases hlimit : n = exactLimit
  · rw [hlimit] at h
    exact absurd h (by decide)
  · have hlow := (wholeMagnitude_bounds h0 (by omega)).1
    simp only [exponentWeight] at hlow
    omega

/-- Numbers below the limit with the same bits have the same exponent, hence the same fraction. -/
theorem eq_of_wholeMagnitude_eq {n k : Nat} (hn0 : n ≠ 0) (hk0 : k ≠ 0) (hn : n < exactLimit)
    (hk : k < exactLimit) (h : wholeMagnitude n = wholeMagnitude k) : n = k := by
  have hnb := wholeMagnitude_bounds hn0 hn
  have hkb := wholeMagnitude_bounds hk0 hk
  have hlog : n.log2 = k.log2 := by
    simp only [exponentWeight] at hnb hkb
    omega
  rw [wholeMagnitude_of_lt hn0 hn, wholeMagnitude_of_lt hk0 hk, hlog] at h
  exact Nat.eq_of_mul_eq_mul_right (Nat.two_pow_pos _) (Nat.add_left_cancel h)

theorem wholeMagnitude_injective {n k : Nat} (hn : n ≤ exactLimit) (hk : k ≤ exactLimit)
    (h : wholeMagnitude n = wholeMagnitude k) : n = k := by
  by_cases hn0 : n = 0
  · rw [hn0] at h
    exact hn0.trans (wholeMagnitude_eq_zero hk h.symm).symm
  by_cases hk0 : k = 0
  · rw [hk0] at h
    exact (wholeMagnitude_eq_zero hn h).trans hk0.symm
  rcases Nat.lt_or_eq_of_le hn with hn | rfl
  · rcases Nat.lt_or_eq_of_le hk with hk | rfl
    · exact eq_of_wholeMagnitude_eq hn0 hk0 hn hk h
    · exact absurd h (Nat.ne_of_lt (wholeMagnitude_lt_limit hn0 hn))
  · rcases Nat.lt_or_eq_of_le hk with hk | rfl
    · exact absurd h.symm (Nat.ne_of_lt (wholeMagnitude_lt_limit hk0 hk))
    · rfl

/-! ## From the bits to the numbers -/

theorem toNat_ofMagnitude {negative : Bool} {m : Nat} (hm : m < signWeight) :
    (ofMagnitude negative m).bits.toNat = (if negative then signWeight else 0) + m := by
  have hlt : (if negative then signWeight else 0) + m < 2 ^ 64 := by
    simp only [signWeight] at *
    split <;> omega
  exact Nat.mod_eq_of_lt hlt

theorem ofMagnitude_injective {a b : Bool} {m k : Nat} (hm : m < signWeight) (hk : k < signWeight)
    (h : ofMagnitude a m = ofMagnitude b k) : a = b ∧ m = k := by
  have hbits := congrArg (fun x : Binary64 => x.bits.toNat) h
  simp only [toNat_ofMagnitude hm, toNat_ofMagnitude hk] at hbits
  cases a <;> cases b <;> simp at hbits ⊢ <;> omega

theorem isZero_ofMagnitude {negative : Bool} {m : Nat} (hm : m < signWeight)
    (h : (ofMagnitude negative m).isZero = true) : m = 0 := by
  simp only [isZero, exponentField, fraction, toNat_ofMagnitude hm, decide_eq_true_eq] at h
  simp only [signWeight, exponentWeight] at *
  split at h <;> omega

/-- Up to the limit, whole numbers that are equal as binary64 numbers are the same. -/
theorem ofInt_injective {i j : Int} (hi : i.natAbs ≤ exactLimit) (hj : j.natAbs ≤ exactLimit)
    (h : (ofInt i).eq (ofInt j) = true) : i = j := by
  have hmi := wholeMagnitude_lt hi
  have hmj := wholeMagnitude_lt hj
  simp only [eq, ofInt, nearest_whole _ hi, nearest_whole _ hj, Bool.and_eq_true, Bool.or_eq_true,
    decide_eq_true_eq] at h
  rcases h.2 with hsame | ⟨hzi, hzj⟩
  · obtain ⟨hsign, hmagnitude⟩ := ofMagnitude_injective hmi hmj hsame
    have habs := wholeMagnitude_injective hi hj hmagnitude
    have hneg : i < 0 ↔ j < 0 := by simpa using hsign
    omega
  · have hi0 := wholeMagnitude_eq_zero hi (isZero_ofMagnitude hmi hzi)
    have hj0 := wholeMagnitude_eq_zero hj (isZero_ofMagnitude hmj hzj)
    omega

end HostBridge.Binary64
