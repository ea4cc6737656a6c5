import PatchSearch.Proofs.Numbers.FloatBounds
import PatchSearch.Proofs.Numbers.FloatZero

/-!
Positive floats. The model takes the whole root of a mantissa and says on which side of the middle
the rest lies, so a square root rounds some value of the same binary order as the root. Together
with bounds that are kept through sums, products and quotients this places results away from zero.
A positive float is determined by its value, so the total order of positive floats is that of their
values, and of all numbers it is the order that they have as numbers.
-/
namespace PatchSearch.Rounding

open Float.Model (UnpackedFloat Format totalExponent)
open Float.Model.UnpackedFloat

/-- A rational that lies in the same half of a unit as the root of `n`. -/
def rootStandIn (n : ℕ) : ℚ :=
  if n - n.sqrt * n.sqrt = 0 then n.sqrt
  else if n - n.sqrt * n.sqrt ≤ n.sqrt then n.sqrt + 1 / 4
  else n.sqrt + 3 / 4

theorem rootStandIn_bounds (n : ℕ) : n.sqrt ≤ rootStandIn n ∧ rootStandIn n < n.sqrt + 1 := by
  unfold rootStandIn
  split
  · constructor <;> linarith
  · split <;> constructor <;> linarith

theorem represents_rootStandIn (n : ℕ) :
    Represents (ExtendedMantissa.ofMantissaAndAccuracy n.sqrt
      (if n - n.sqrt * n.sqrt = 0 then .exact
        else .inexact (if n - n.sqrt * n.sqrt ≤ n.sqrt then .lt else .gt))) (rootStandIn n) := by
  unfold rootStandIn
  by_cases hexact : n - n.sqrt * n.sqrt = 0
  · rw [if_pos hexact, if_pos hexact]
    exact represents_exact _
  · rw [if_neg hexact, if_neg hexact]
    by_cases hlow : n - n.sqrt * n.sqrt ≤ n.sqrt
    · rw [if_pos hlow, if_pos hlow]
      change (n.sqrt : ℚ) < n.sqrt + 1 / 4 ∧ (n.sqrt : ℚ) + 1 / 4 < n.sqrt + 1 / 2
      constructor <;> linarith
    · rw [if_neg hlow, if_neg hlow]
      change (n.sqrt : ℚ) + 1 / 2 < n.sqrt + 3 / 4 ∧ (n.sqrt : ℚ) + 3 / 4 < n.sqrt + 1
      constructor <;> linarith

/-- The stand-in is off from the root by less than a factor of two. -/
theorem rootStandIn_sq {n : ℕ} (hn : 0 < n) :
    rootStandIn n ^ 2 ≤ 4 * n ∧ (n : ℚ) ≤ 4 * rootStandIn n ^ 2 := by
  obtain ⟨hlow, hhigh⟩ := rootStandIn_bounds n
  have hone : (1 : ℚ) ≤ n.sqrt := by exact_mod_cast Nat.sqrt_pos.mpr hn
  have hfloor : (n.sqrt : ℚ) * n.sqrt ≤ n := by exact_mod_cast Nat.sqrt_le n
  have hnext : (n : ℚ) < (n.sqrt + 1) * (n.sqrt + 1) := by exact_mod_cast Nat.lt_succ_sqrt n
  constructor <;> nlinarith

/-- The binary order of a whole root is half that of its square. -/
theorem log2_le_sqrt {n : ℕ} (hn : 0 < n) : n.log2 ≤ 2 * n.sqrt.log2 + 1 := by
  have hroot : n.sqrt < 2 ^ (n.sqrt.log2 + 1) := Nat.lt_log2_self
  have hlt : n < 2 ^ (2 * n.sqrt.log2 + 2) := by
    calc n < (n.sqrt + 1) * (n.sqrt + 1) := Nat.lt_succ_sqrt n
      _ ≤ 2 ^ (n.sqrt.log2 + 1) * 2 ^ (n.sqrt.log2 + 1) := Nat.mul_le_mul hroot hroot
      _ = 2 ^ (2 * n.sqrt.log2 + 2) := by rw [← pow_add]; congr 1; omega
  have := (Nat.log2_lt hn.ne').mpr hlt
  omega

/-- The model rounds a value near the root of a mantissa with its exponent. -/
theorem sqrtCore_denotes {m : ℕ} (hm : 0 < m) (e : ℤ) :
    let core := sqrtCore .binary64 m e
    ∃ q r : ℚ, 0 < q ∧ q ^ 2 ≤ 4 * (m * 2 ^ e) ∧ (m * 2 ^ e : ℚ) ≤ 4 * q ^ 2 ∧ Rounds q r ∧
      Denotes (roundWithAccuracy .binary64 .positive core.1 core.2.1 core.2.2) r := by
  unfold sqrtCore
  dsimp only
  have hhalf : min (e.ediv 2) (Format.binary64.targetExponent ((totalExponent m e + 1).ediv 2)) ≤
      e / 2 := min_le_left _ _
  have htarget : min (e.ediv 2)
      (Format.binary64.targetExponent ((totalExponent m e + 1).ediv 2)) ≤
        max ((totalExponent m e + 1) / 2 - 53) (-1074) := min_le_right _ _
  generalize min (e.ediv 2)
    (Format.binary64.targetExponent ((totalExponent m e + 1).ediv 2)) = t at *
  -- The root has the exponent `t`, so the mantissa is shifted by the rest `n` of the exponent.
  obtain ⟨n, hn⟩ := Int.eq_ofNat_of_zero_le (show 0 ≤ e - 2 * t by omega)
  rw [hn, Int.toNat_natCast, Nat.shiftLeft_eq]
  have hpos : 0 < m * 2 ^ n := by positivity
  have hlog : (m * 2 ^ n).log2 = m.log2 + n := by
    rw [Nat.log2_eq_iff hpos.ne', add_right_comm, pow_add, pow_add]
    exact ⟨Nat.mul_le_mul_right _ (Nat.log2_self_le hm.ne'),
      Nat.mul_lt_mul_of_pos_right Nat.lt_log2_self (by positivity)⟩
  have hvalue : (m * 2 ^ e : ℚ) = (m * 2 ^ n : ℕ) * (2 ^ t) ^ 2 := by
    have hexponent : e = n + t + t := by omega
    rw [hexponent, two_zpow_add, two_zpow_add, zpow_natCast]
    push_cast
    ring
  have hbinary := log2_le_sqrt hpos
  obtain ⟨hlow, hhigh⟩ := rootStandIn_bounds (m * 2 ^ n)
  obtain ⟨hsquare, hsquare'⟩ := rootStandIn_sq hpos
  have hrepresents := represents_rootStandIn (m * 2 ^ n)
  have hroot : 0 < (m * 2 ^ n).sqrt := Nat.sqrt_pos.mpr hpos
  generalize rootStandIn (m * 2 ^ n) = p at *
  have hp : 0 < p := (Nat.cast_pos.mpr hroot).trans_le hlow
  have hunit : (0 : ℚ) < (2 ^ t) ^ 2 := pow_pos (two_zpow_pos t) 2
  have hplace : t ≤ lastPlace (p * 2 ^ t) := by
    have hmono : Int.log 2 ((m * 2 ^ n).sqrt * 2 ^ t : ℚ) ≤ Int.log 2 (p * 2 ^ t) :=
      Int.log_mono_right (mul_zpow_pos hroot)
        (mul_le_mul_of_nonneg_right hlow (two_zpow_pos t).le)
    rw [log_mul_zpow hroot] at hmono
    unfold lastPlace
    unfold totalExponent at htarget
    omega
  obtain ⟨r, hr, hdenotes⟩ := roundWithAccuracy_denotes hrepresents hp hplace
  refine ⟨p * 2 ^ t, r, mul_pos hp (two_zpow_pos t), ?_, ?_, hr, hdenotes⟩
  · rw [hvalue, mul_pow, ← mul_assoc]
    exact mul_le_mul_of_nonneg_right hsquare hunit.le
  · rw [hvalue, mul_pow, ← mul_assoc]
    exact mul_le_mul_of_nonneg_right hsquare' hunit.le

end PatchSearch.Rounding

namespace PatchSearch.FloatOrder

open Float.Model (UnpackedFloat Format)
open Float.Model.UnpackedFloat Rounding

section Bounds

variable {x y : Float}

/-- The square root of a positive float rounds a value near the root. -/
theorem sqrt_holds (hx : x.isFinite = true) (hpos : 0 < value x) :
    ∃ q r : ℚ, 0 < q ∧ q ^ 2 ≤ 4 * value x ∧ value x ≤ 4 * q ^ 2 ∧ Rounds q r ∧
      Holds x.sqrt r := by
  have hdenotes := (stored hx).denotes hpos.le
  obtain ⟨-, hzero⟩ | ⟨m, e, hm, hunpack, -, hvalue⟩ := hdenotes
  · exact absurd hzero hpos.ne'
  have hroot : x.sqrt.toModel.unpack = UnpackedFloat.unpack .binary64 (UnpackedFloat.pack .binary64
      (UnpackedFloat.sqrt .binary64 x.toModel.unpack)) := rfl
  obtain ⟨q, r, hq, hlow, hhigh, hr, hcore⟩ := sqrtCore_denotes hm e
  rw [← hvalue] at hlow hhigh
  rw [hunpack] at hroot
  exact ⟨q, r, hq, hlow, hhigh, hr, holds_of_denotes hroot hcore⟩

/-- A finite float between two powers of two. -/
structure Between (i j : ℤ) (x : Float) : Prop where
  finite : x.isFinite = true
  low : 2 ^ i ≤ value x
  high : value x ≤ 2 ^ j

variable {i j k l : ℤ}

theorem Between.pos (h : Between i j x) : 0 < value x :=
  (two_zpow_pos i).trans_le h.low

/-- The powers of two that floats have in full precision. -/
theorem rounds_two_zpow (h : -1022 ≤ i) : Rounds (2 ^ i) (2 ^ i) := by
  have hcanonical : Canonical (2 ^ 52) (i - 52) :=
    ⟨by decide, by decide, by omega, Or.inl le_rfl⟩
  have hvalue : ((2 ^ 52 : ℕ) : ℚ) * 2 ^ (i - 52) = 2 ^ i := by
    rw [zpow_sub₀ two_ne_zero]
    norm_num
    ring
  exact hvalue ▸ hcanonical.rounds

theorem two_zpow_le_limit (h : j ≤ 971) : (2 : ℚ) ^ j ≤ limit := by
  have hone : (1 : ℚ) ≤ (2 ^ 53 - 1 : ℕ) := by norm_num
  exact (zpow_le_zpow_right₀ one_le_two h).trans (le_mul_of_one_le_left (two_zpow_pos _).le hone)

/-- Rounding keeps a value between powers of two. -/
theorem Between.of_holds {q r : ℚ} (hi : -1022 ≤ i) (hj : j ≤ 971) (hlow : 2 ^ i ≤ q)
    (hhigh : q ≤ 2 ^ j) (hr : Rounds q r) (hx : Holds x r) : Between i j x := by
  have hij : i ≤ j := (zpow_le_zpow_iff_right₀ one_lt_two).mp (hlow.trans hhigh)
  have hle : r ≤ 2 ^ j :=
    hr.mono (rounds_two_zpow (hi.trans hij)) ((two_zpow_pos i).le.trans hlow) hhigh
  have hge : 2 ^ i ≤ r := (rounds_two_zpow hi).mono hr (two_zpow_pos i).le hlow
  obtain ⟨hfinite, hvalue⟩ := hx.1 (hle.trans (two_zpow_le_limit hj))
  exact ⟨hfinite, hvalue ▸ hge, hvalue ▸ hle⟩

theorem Between.add (hx : Between i j x) (hy : y.isFinite = true) (hnonneg : 0 ≤ value y)
    (hle : value y ≤ 2 ^ j) (hi : -1022 ≤ i) (hj : j < 971) : Between i (j + 1) (x + y) := by
  obtain ⟨r, hr, hholds⟩ := add_holds hx.finite hy (add_nonneg hx.pos.le hnonneg)
  refine Between.of_holds hi hj ?_ ?_ hr hholds
  · exact hx.low.trans (le_add_of_nonneg_right hnonneg)
  · rw [zpow_add_one₀ two_ne_zero, mul_two]
    exact add_le_add hx.high hle

theorem Between.mul (hx : Between i j x) (hy : Between k l y) (hlow : -1022 ≤ i + k)
    (hhigh : j + l ≤ 971) : Between (i + k) (j + l) (x * y) := by
  obtain ⟨r, hr, hholds⟩ := mul_holds hx.finite hy.finite hx.pos.le hy.pos.le
  refine Between.of_holds hlow hhigh ?_ ?_ hr hholds
  · rw [two_zpow_add]
    exact mul_le_mul hx.low hy.low (two_zpow_pos k).le hx.pos.le
  · rw [two_zpow_add]
    exact mul_le_mul hx.high hy.high hy.pos.le (two_zpow_pos j).le

theorem Between.div (hx : Between i j x) (hy : Between k l y) (hlow : -1022 ≤ i - l)
    (hhigh : j - k ≤ 971) : Between (i - l) (j - k) (x / y) := by
  obtain ⟨r, hr, hholds⟩ := div_holds hx.finite hy.finite hx.pos.le hy.pos
  refine Between.of_holds hlow hhigh ?_ ?_ hr hholds
  · rw [zpow_sub₀ two_ne_zero]
    exact div_le_div₀ hx.pos.le hx.low hy.pos hy.high
  · rw [zpow_sub₀ two_ne_zero]
    exact div_le_div₀ (two_zpow_pos j).le hx.high (two_zpow_pos k) hy.low

/-- Half the order goes to the root, and one step for the rounding. -/
theorem Between.sqrt (hx : Between (2 * i) (2 * j) x) (hlow : -1021 ≤ i) (hhigh : j < 971) :
    Between (i - 1) (j + 1) x.sqrt := by
  obtain ⟨q, r, hq, hsquare, hsquare', hr, hholds⟩ := sqrt_holds hx.finite hx.pos
  have hdouble (e : ℤ) : (2 : ℚ) ^ (2 * e) = (2 ^ e) ^ 2 := by
    rw [mul_comm, zpow_mul]
    norm_cast
  refine Between.of_holds (by omega) hhigh ?_ ?_ hr hholds
  · have hle : ((2 : ℚ) ^ i) ^ 2 ≤ (2 * q) ^ 2 := by
      rw [← hdouble, mul_pow]
      linarith [hx.low]
    have hroot := (sq_le_sq₀ (two_zpow_pos i).le (mul_nonneg zero_le_two hq.le)).mp hle
    rw [zpow_sub_one₀ two_ne_zero]
    linarith
  · have hle : q ^ 2 ≤ (2 * 2 ^ j) ^ 2 := by
      rw [mul_pow, ← hdouble]
      linarith [hx.high]
    have hroot := (sq_le_sq₀ hq.le (mul_nonneg zero_le_two (two_zpow_pos j).le)).mp hle
    rw [zpow_add_one₀ two_ne_zero]
    linarith

theorem Between.lt (h : Between i j x) : 0.0 < x := by
  rw [lt_iff_value_lt isFinite_zero h.finite, value_zero]
  exact h.pos

/-- Counts from one on that fit into a word. -/
theorem between_ofNat {n : ℕ} (hpos : 0 < n) (h : n < wordCount) :
    Between 0 64 (Float.ofNat n) := by
  obtain ⟨r, hr, hholds, -⟩ := ofNat_spec n
  have hlow : (2 : ℚ) ^ (0 : ℤ) ≤ n := by
    rw [zpow_zero]
    exact_mod_cast hpos
  have hhigh : (n : ℚ) ≤ 2 ^ (64 : ℤ) := by
    have hcount : wordCount = 2 ^ 64 := by decide
    exact_mod_cast (hcount ▸ h).le
  exact .of_holds (by decide) (by decide) hlow hhigh hr hholds

/-- Counts that fit into a word. -/
theorem ofNat_bounds {n : ℕ} (h : n < wordCount) :
    (Float.ofNat n).isFinite = true ∧ 0 ≤ value (Float.ofNat n) ∧
      value (Float.ofNat n) ≤ 2 ^ (64 : ℤ) := by
  rcases Nat.eq_zero_or_pos n with rfl | hpos
  · obtain ⟨hfinite, hvalue⟩ := value_ofNat (n := 0) (by decide)
    rw [hvalue]
    exact ⟨hfinite, by simp, by positivity⟩
  · have hbetween := between_ofNat hpos h
    exact ⟨hbetween.finite, hbetween.pos.le, hbetween.high⟩

/-- A share of counts is the fraction, rounded. -/
theorem rounds_proportion {m n : ℕ} (hle : m ≤ n) (hpos : 0 < n) (h : n < 2 ^ 53) :
    Rounds (m / n) (value (proportion m n : Float)) := by
  obtain ⟨hfinite, hvalue⟩ := value_ofNat (hle.trans_lt h)
  obtain ⟨hfinite', hvalue'⟩ := value_ofNat h
  have hn : (0 : ℚ) < n := Nat.cast_pos.mpr hpos
  obtain ⟨r, hr, hholds⟩ := div_holds hfinite hfinite' (hvalue ▸ Nat.cast_nonneg m) (hvalue' ▸ hn)
  have hshare := within_proportion hle hpos (Or.inl hfinite')
  have hresult : value (proportion m n : Float) = r := (hholds.1 (hholds.2 hshare.1)).2
  rw [hvalue, hvalue'] at hr
  rwa [hresult]

/-- Only no part at all is a share of zero. -/
theorem value_proportion_eq_zero_iff {m n : ℕ} (hle : m ≤ n) (hpos : 0 < n) (h : n < 2 ^ 53) :
    value (proportion m n : Float) = 0 ↔ m = 0 := by
  have hr := rounds_proportion hle hpos h
  rcases Nat.eq_zero_or_pos m with rfl | hm
  · rw [Nat.cast_zero, zero_div] at hr
    exact iff_of_true (hr.unique rounds_zero le_rfl) rfl
  · have hword : n < wordCount := h.trans (by decide)
    have hshare : Between (-64) 64 (proportion m n : Float) :=
      (between_ofNat hm (hle.trans_lt hword)).div (between_ofNat hpos hword) (by decide)
        (by decide)
    exact iff_of_false hshare.pos.ne' hm.ne'

end Bounds

section Order

variable {x y : Float}

/-- What a float of a positive value unpacks to. -/
theorem unpack_of_value {m : ℕ} {e : ℤ} (hx : x.isFinite = true) (hc : Canonical m e) (hm : 0 < m)
    (h : value x = m * 2 ^ e) : x.toModel.unpack = .finite .positive m e hm := by
  have hpos : 0 < value x := h ▸ mul_zpow_pos hm
  obtain ⟨-, hzero⟩ | ⟨m', e', hm', hunpack, hc', hvalue⟩ := (stored hx).denotes hpos.le
  · exact absurd hzero hpos.ne'
  have heq : (m * 2 ^ e : ℚ) = m' * 2 ^ e' := h.symm.trans hvalue
  have hle := (hc.le_iff hc').mp heq.le
  have hge := (hc'.le_iff hc).mp heq.ge
  obtain rfl : e = e' := by omega
  obtain rfl : m = m' := by omega
  exact hunpack

theorem eq_of_value_eq (hx : x.isFinite = true) (hy : y.isFinite = true) (hpos : 0 < value x)
    (h : value x = value y) : x = y := by
  obtain ⟨-, hzero⟩ | ⟨m, e, hm, hunpack, hc, hvalue⟩ := (stored hx).denotes hpos.le
  · exact absurd hzero hpos.ne'
  · rw [← ofModel_pack_unpack x, ← ofModel_pack_unpack y, hunpack,
      unpack_of_value hy hc hm (h.symm.trans hvalue)]

/-- Positive floats are ordered as their values are. -/
theorem compareTotal_eq_compare (hx : x.isFinite = true) (hy : y.isFinite = true)
    (hpos : 0 < value x) : Scalar.compareTotal x y = compare (value x) (value y) := by
  change compare (floatPlace x) (floatPlace y) = _
  rcases lt_trichotomy (value x) (value y) with hlt | heq | hgt
  · have hplace : floatPlace x < floatPlace y :=
      lt_of_not_ge fun hle => (value_le_of_place_le hy hx hle).not_gt hlt
    rw [compare_lt_iff_lt.mpr hlt, compare_lt_iff_lt.mpr hplace]
  · rw [eq_of_value_eq hx hy hpos heq, compare_eq_iff_eq.mpr rfl, compare_eq_iff_eq.mpr rfl]
  · have hplace : floatPlace y < floatPlace x :=
      lt_of_not_ge fun hle => (value_le_of_place_le hx hy hle).not_gt hgt
    rw [compare_gt_iff_gt.mpr hgt, compare_gt_iff_gt.mpr hplace]

/-- Finite floats come after the negated infinite one in the total order. -/
theorem lt_floatPlace (hx : x.isFinite = true) : -1 - 2047 * 2 ^ 52 < floatPlace x := by
  have hfinite := (isFinite_unpack_iff _).mp hx
  have hbits : x.toModel.toBits.toBitVec.toNat < 2 ^ 64 := x.toModel.toBits.toBitVec.isLt
  rw [floatPlace_eq]
  split <;> omega

/-- What the bits of an infinite float are. -/
theorem bits_of_infinity {b : BitVec Format.binary64.numBits} {s : Sign}
    (h : UnpackedFloat.unpack .binary64 b = .infinity s) : b.toNat % 2 ^ 63 = 2047 * 2 ^ 52 ∧
      s = if b.toNat < 2 ^ 63 then .positive else .negative := by
  have hmantissa := toNat_unpackMantissa b
  rw [unpack_eq] at h
  split at h
  · next hexponent =>
    rw [exponent_eq_highest_iff] at hexponent
    split at h
    · next hzero =>
      rw [hzero, BitVec.toNat_ofNat, Nat.zero_mod] at hmantissa
      obtain rfl := UnpackedFloat.infinity.inj h
      exact ⟨by omega, sign_unpack b⟩
    · cases h
  · split at h
    · split at h <;> cases h
    · cases h

theorem place_of_infinity (h : x.toModel.unpack = .infinity .positive) :
    floatPlace x = 2047 * 2 ^ 52 := by
  obtain ⟨hbits, hsign⟩ := bits_of_infinity (b := x.toModel.toBits.toBitVec) h
  rw [floatPlace_eq]
  split at hsign
  · rw [if_pos ‹_›]
    omega
  · cases hsign

theorem place_of_neg_infinity (h : x.toModel.unpack = .infinity .negative) :
    floatPlace x = -1 - 2047 * 2 ^ 52 := by
  have hlt : x.toModel.toBits.toBitVec.toNat < 2 ^ 64 := x.toModel.toBits.toBitVec.isLt
  obtain ⟨hbits, hsign⟩ := bits_of_infinity (b := x.toModel.toBits.toBitVec) h
  rw [floatPlace_eq]
  split at hsign
  · cases hsign
  · rw [if_neg ‹_›]
    omega

/-- A number is finite or an infinity. -/
theorem finite_or_infinity (hx : x.isNaN = false) :
    x.isFinite = true ∨ ∃ s, x.toModel.unpack = .infinity s := by
  change x.toModel.unpack.isNaN = false at hx
  change x.toModel.unpack.isFinite = true ∨ _
  cases h : x.toModel.unpack with
  | notANumber =>
    rw [h] at hx
    cases hx
  | infinity s => exact Or.inr ⟨s, rfl⟩
  | zero s => exact Or.inl rfl
  | finite s m e hm => exact Or.inl rfl

/-- The total order agrees with the order of numbers. -/
theorem place_lt_of_lt (h : x < y) : floatPlace x < floatPlace y := by
  obtain ⟨hx, hy, hrank⟩ := (lt_iff x y).mp h
  unfold rank at hrank
  rcases finite_or_infinity hx with hx | ⟨s, hs⟩ <;> rcases finite_or_infinity hy with hy | ⟨t, ht⟩
  · by_contra hle
    exact (value_le_of_place_le hy hx (not_lt.mp hle)).not_gt ((lt_iff_value_lt hx hy).mp h)
  · cases t with
    | positive =>
      rw [place_of_infinity ht]
      exact floatPlace_lt hx
    | negative =>
      exfalso
      rw [ht] at hrank
      obtain ⟨s, hs⟩ | ⟨s, m, e, hm, hs, -⟩ := stored hx <;> rw [hs] at hrank <;>
        cases s <;> simp [unpackedRank, Prod.Lex.toLex_lt_toLex] at hrank
  · cases s with
    | positive =>
      exfalso
      rw [hs] at hrank
      obtain ⟨t, ht⟩ | ⟨t, m, e, hm, ht, -⟩ := stored hy <;> rw [ht] at hrank <;>
        cases t <;> simp [unpackedRank, Prod.Lex.toLex_lt_toLex] at hrank
    | negative =>
      rw [place_of_neg_infinity hs]
      exact lt_floatPlace hy
  · rw [hs, ht] at hrank
    cases s <;> cases t
    · simp [unpackedRank] at hrank
    · rw [place_of_neg_infinity hs, place_of_infinity ht]
      decide
    · simp [unpackedRank, Prod.Lex.toLex_lt_toLex] at hrank
    · simp [unpackedRank] at hrank

end Order

end PatchSearch.FloatOrder
