import PatchSearch.Json.Reader
import PatchSearch.Proofs.Numbers.Decimal
import PatchSearch.Proofs.Numbers.FloatRoot

/-!
The float nearest to a decimal. A decimal that is not far out of range is read as its value,
rounded; so a decimal of the value of the shortest digits of a float is read as the float with that
magnitude, and with the sign put back as the float itself.
-/
namespace PatchSearch.FloatOrder

open Float.Model (UnpackedFloat Format)
open Float.Model.UnpackedFloat Rounding Json.Reader

section Reading

/-- The powers of ten that are floats. -/
theorem powerOfTen_spec : ∀ e : Fin Float.exactlyRepresentablePowersOfTen.size,
    Float.exactlyRepresentablePowersOfTen[e].isFinite = true ∧
      value Float.exactlyRepresentablePowersOfTen[e] = 10 ^ e.val := by
  decide +kernel

/-- What a decimal with a long mantissa or a large exponent unpacks to. -/
theorem unpack_ofScientific {m e : ℕ} (hlarge : ¬ (m < 2 ^ 53 ∧ e ≤ 22)) (negative : Bool) :
    (Float.ofScientific m negative e).toModel.unpack =
      UnpackedFloat.unpack .binary64 (UnpackedFloat.pack .binary64
        (UnpackedFloat.ofScientific .binary64 m
          (if negative then Int.negOfNat e else Int.ofNat e))) := by
  unfold Float.ofScientific
  rw [dif_neg hlarge]
  rfl

/-- A decimal above the point is read as its value, rounded. -/
theorem ofScientific_mul_holds {m e : ℕ} (hm : 0 < m) (he : e ≤ 2000) :
    ∃ r, Rounds (m * 10 ^ e) r ∧ Holds (Float.ofScientific m false e) r := by
  by_cases hsmall : m < 2 ^ 53 ∧ e ≤ 22
  · have hbound : e < Float.exactlyRepresentablePowersOfTen.size := Nat.lt_succ_of_le hsmall.2
    obtain ⟨hten, hpower⟩ := powerOfTen_spec ⟨e, hbound⟩
    obtain ⟨hfinite, hvalue⟩ := (toFloat_holds hsmall.1).1 (natCast_le_limit hsmall.1)
    obtain ⟨r, hr, hholds⟩ := mul_holds hfinite hten (hvalue.symm ▸ m.cast_nonneg)
      (hpower.symm ▸ by positivity)
    rw [hvalue, hpower] at hr
    refine ⟨r, hr, ?_⟩
    unfold Float.ofScientific
    rw [dif_pos hsmall]
    exact hholds
  · have hten : 0 < 10 ^ e := by positivity
    have hcoefficient : 0 < m <<< 53 * 10 ^ e := by
      rw [Nat.shiftLeft_eq]
      positivity
    have hvalue : ((m <<< 53 * 10 ^ e : ℕ) : ℚ) * 2 ^ (-53 : ℤ) = m * 10 ^ e := by
      rw [Nat.shiftLeft_eq, zpow_neg]
      push_cast
      field_simp
    have hplace : (-53 : ℤ) ≤ lastPlace (((m <<< 53 * 10 ^ e : ℕ) : ℚ) * 2 ^ (-53 : ℤ)) := by
      have hlog := log_mul_zpow (e := 0) (Nat.mul_pos hm hten)
      rw [zpow_zero, mul_one] at hlog
      push_cast at hlog
      rw [hvalue]
      unfold lastPlace
      omega
    obtain ⟨r, hr, hdenotes⟩ :=
      roundWithAccuracy_denotes (represents_exact _) (Nat.cast_pos.mpr hcoefficient) hplace
    rw [hvalue] at hr
    refine ⟨r, hr, holds_of_denotes (unpack_ofScientific hsmall false) ?_⟩
    have hlow : ¬ (e : ℤ) < -(2 ^ Format.binary64.exponentBits + (m.log2 : ℤ)) := by
      have : (0 : ℤ) < 2 ^ Format.binary64.exponentBits := by positivity
      omega
    have hhigh : ¬ (e : ℤ) > 2 ^ Format.binary64.exponentBits := by
      have : (2 : ℤ) ^ Format.binary64.exponentBits = 2048 := by decide
      omega
    unfold UnpackedFloat.ofScientific
    rw [dif_neg hm.ne', if_neg Bool.false_ne_true, Int.ofNat_eq_natCast, if_neg hhigh, if_neg hlow,
      if_pos (Int.natCast_nonneg e)]
    exact hdenotes

/-- A decimal below the point is read as its value, rounded. -/
theorem ofScientific_div_holds {m e : ℕ} (hm : 0 < m) (he : e ≤ 2000) (hpos : 0 < e) :
    ∃ r, Rounds (m / 10 ^ e) r ∧ Holds (Float.ofScientific m true e) r := by
  by_cases hsmall : m < 2 ^ 53 ∧ e ≤ 22
  · have hbound : e < Float.exactlyRepresentablePowersOfTen.size := Nat.lt_succ_of_le hsmall.2
    obtain ⟨hten, hpower⟩ := powerOfTen_spec ⟨e, hbound⟩
    obtain ⟨hfinite, hvalue⟩ := (toFloat_holds hsmall.1).1 (natCast_le_limit hsmall.1)
    obtain ⟨r, hr, hholds⟩ := div_holds hfinite hten (hvalue.symm ▸ m.cast_nonneg)
      (hpower.symm ▸ by positivity)
    rw [hvalue, hpower] at hr
    refine ⟨r, hr, ?_⟩
    unfold Float.ofScientific
    rw [dif_pos hsmall]
    exact hholds
  · have hten : 0 < 10 ^ e := by positivity
    obtain ⟨r, hr, hdenotes⟩ := divCore_denotes hm hten 0 0
    rw [zpow_zero, mul_one, mul_one, Nat.cast_pow, Nat.cast_ofNat] at hr
    refine ⟨r, hr, holds_of_denotes (unpack_ofScientific hsmall true) ?_⟩
    have hnegative : Int.negOfNat e = -(e : ℤ) := by cases e <;> rfl
    have hbits : (2 : ℤ) ^ Format.binary64.exponentBits = 2048 := by decide
    unfold UnpackedFloat.ofScientific
    rw [dif_neg hm.ne', if_pos rfl, hnegative, if_neg (by omega), if_neg (by omega),
      if_neg (by omega)]
    simp only [neg_neg, Int.toNat_natCast]
    exact hdenotes

/-- A decimal that is not far out of range is read as its value, rounded. -/
theorem nearestFloat_holds {m : ℕ} {e : ℤ} (hm : 0 < m) (he : e.natAbs ≤ 2000)
    (hlow : -400 ≤ e + (Nat.toDigits 10 m).length)
    (hhigh : e + (Nat.toDigits 10 m).length ≤ 400) :
    ∃ r, Rounds (m * 10 ^ e) r ∧ Holds (nearestFloat m e) r := by
  unfold nearestFloat
  dsimp only
  rw [if_neg hm.ne', if_neg (by omega), if_neg (by omega)]
  split
  · next hneg =>
    obtain ⟨n, hn⟩ := Int.eq_ofNat_of_zero_le (neg_nonneg.mpr hneg.le)
    obtain rfl : e = -(n : ℤ) := by omega
    rw [Int.natAbs_neg, Int.natAbs_natCast] at he ⊢
    rw [zpow_neg, zpow_natCast, ← div_eq_mul_inv]
    exact ofScientific_div_holds hm he (by omega)
  · next hnonneg =>
    obtain ⟨n, rfl⟩ := Int.eq_ofNat_of_zero_le (not_lt.mp hnonneg)
    rw [Int.natAbs_natCast] at he ⊢
    rw [zpow_natCast]
    exact ofScientific_mul_holds hm he

end Reading

end PatchSearch.FloatOrder

namespace PatchSearch.Decimal

open Rounding FloatOrder Json.Reader

section Floats

variable {v : Magnitude} {x y : Float} {q : ℚ} {m : ℕ} {e : ℤ}

/-- A value that is read as the magnitude of a float is not far out of range. -/
theorem Magnitude.Stored.range (hv : v.Stored) (hexponent : v.exponent ≤ 971) (h : v.Covers q) :
    10 ^ (-400 : ℤ) < q ∧ q < 10 ^ (400 : ℤ) := by
  obtain ⟨hlow, hhigh, -⟩ := h.bounds
  have hunit := two_zpow_pos v.exponent
  have hleast : (2 : ℚ) ^ (-1074 : ℤ) ≤ 2 ^ v.exponent :=
    zpow_le_zpow_right₀ one_le_two hv.canonical.least
  have hmost : (2 : ℚ) ^ v.exponent ≤ 2 ^ (971 : ℤ) := zpow_le_zpow_right₀ one_le_two hexponent
  have hmantissa : (1 : ℚ) ≤ v.mantissa := by exact_mod_cast hv.canonical.pos
  have hmantissa' : (v.mantissa : ℚ) + 1 ≤ 2 ^ 53 := by exact_mod_cast hv.canonical.lt
  have hreach := v.reach_le
  have hten : (0 : ℚ) < tenTo 400 := Nat.cast_pos.mpr (by decide +kernel)
  rw [le_div_iff₀ hunit] at hlow
  rw [div_le_iff₀ hunit] at hhigh
  rw [zpow_neg, show (10 : ℚ) ^ (400 : ℤ) = tenTo 400 from (cast_tenTo 400).symm]
  constructor
  · have hsmall : (1 : ℚ) ≤ 2 ^ (-1076 : ℤ) * tenTo 400 :=
      one_le_zpow_mul_tenTo (k := 1076) (by decide +kernel)
    have hquarter : (2 : ℚ) ^ (-1076 : ℤ) = 2 ^ (-1074 : ℤ) / 4 := by
      rw [show (-1076 : ℤ) = -1074 + -2 from rfl, two_zpow_add,
        show (2 : ℚ) ^ (-2 : ℤ) = 1 / 4 by norm_num, mul_one_div]
    have hhalf : (2 : ℚ) ^ (-1074 : ℤ) / 2 ≤ q := by
      have : 1 / 2 * 2 ^ v.exponent ≤ (v.mantissa - v.reach) * 2 ^ v.exponent :=
        mul_le_mul_of_nonneg_right (by linarith) hunit.le
      linarith
    rw [inv_lt_iff_one_lt_mul₀ hten]
    refine hsmall.trans_lt (mul_lt_mul_of_pos_right ?_ hten)
    linarith [two_zpow_pos (-1074)]
  · have hlarge : (2 : ℚ) ^ (1024 : ℤ) ≤ tenTo 400 :=
      two_zpow_le_tenTo (k := 1024) (by decide +kernel)
    calc q ≤ (v.mantissa + 1 / 2) * 2 ^ v.exponent := hhigh
      _ < 2 ^ 53 * 2 ^ v.exponent := mul_lt_mul_of_pos_right (by linarith) hunit
      _ ≤ 2 ^ 53 * 2 ^ (971 : ℤ) := mul_le_mul_of_nonneg_left hmost (by norm_num)
      _ = 2 ^ (1024 : ℤ) := by rw [show (1024 : ℤ) = 53 + 971 from rfl, two_zpow_add]; rfl
      _ ≤ tenTo 400 := hlarge

/-- A decimal that is read as the magnitude of a float has few places. -/
theorem Magnitude.Stored.places (hv : v.Stored) (hexponent : v.exponent ≤ 971) (hm : 0 < m)
    (h : v.Covers (m * 10 ^ e)) : -400 < digitCount m + e ∧ digitCount m + e ≤ 400 := by
  obtain ⟨hlow, hhigh⟩ := hv.range hexponent h
  obtain ⟨hdigits, hdigits'⟩ := digits_bounds hm e
  have hten : (1 : ℚ) < 10 := by norm_num
  have hlower := hlow.trans hdigits'
  have hupper := hdigits.trans_lt hhigh
  rw [zpow_lt_zpow_iff_right₀ hten] at hlower hupper
  exact ⟨hlower, by omega⟩

theorem digits_pos_of_covers (hv : v.Stored) (h : v.Covers (m * 10 ^ e)) : 0 < m := by
  have hpos : (0 : ℚ) < m := (mul_pos_iff_of_pos_right (by positivity)).mp (h.pos hv)
  exact_mod_cast hpos

/-- A decimal that is read as the magnitude of a float is read as a float of that value. -/
theorem Magnitude.Stored.nearestFloat (hv : v.Stored) (hexponent : v.exponent ≤ 971)
    (h : v.Covers (m * 10 ^ e)) (he : e.natAbs ≤ 2000) :
    (nearestFloat m e).isFinite = true ∧ FloatOrder.value (nearestFloat m e) = v.value := by
  have hm := digits_pos_of_covers hv h
  obtain ⟨hlow, hhigh⟩ := hv.places hexponent hm h
  unfold digitCount at hlow hhigh
  obtain ⟨r, hr, hholds⟩ := nearestFloat_holds hm he (by omega) (by omega)
  -- reading rounds the value of the decimal, and so does the magnitude that covers it
  obtain rfl := hr.unique (hv.rounds h) (h.pos hv).le
  exact hholds.1 ((mul_zpow_le_limit_iff hv.canonical).mpr hexponent)

/-- The bits of a magnitude, without the sign. -/
def magnitudeBits (x : Float) : ℕ :=
  x.toModel.toBits.toBitVec.toNat % 2 ^ 63

theorem ofFloat_eq (x : Float) : Magnitude.ofFloat x =
    ⟨bitMantissa (magnitudeBits x), bitExponent (magnitudeBits x),
      decide (2 ^ 53 ≤ magnitudeBits x ∧ magnitudeBits x % 2 ^ 52 = 0)⟩ := by
  have hbits : x.toBits.toNat = x.toModel.toBits.toBitVec.toNat := rfl
  unfold Magnitude.ofFloat magnitudeBits bitMantissa bitExponent
  rw [hbits]
  generalize x.toModel.toBits.toBitVec.toNat = b
  dsimp only
  rw [Nat.shiftRight_eq_div_pow]
  have hfield : b / 2 ^ 52 % 0x800 = b % 2 ^ 63 / 2 ^ 52 := by omega
  have hfraction : b % 0x10000000000000 = b % 2 ^ 63 % 2 ^ 52 := by omega
  rw [hfield, hfraction]
  generalize b % 2 ^ 63 = n
  by_cases hsmall : n < 2 ^ 52
  · have hzero : n / 2 ^ 52 = 0 := Nat.div_eq_of_lt hsmall
    have hnarrow : ¬ (2 ^ 53 ≤ n ∧ n % 2 ^ 52 = 0) := by omega
    rw [if_pos hzero, if_pos hsmall, if_pos hsmall, decide_eq_false hnarrow,
      Nat.mod_eq_of_lt hsmall]
  · have hpos : n / 2 ^ 52 ≠ 0 := by omega
    rw [if_neg hpos, if_neg hsmall, if_neg hsmall, Magnitude.mk.injEq]
    refine ⟨Nat.add_comm _ _, rfl, ?_⟩
    rw [Bool.eq_iff_iff]
    simp
    omega

/-- The magnitude of a finite float that is not zero. -/
theorem stored_ofFloat (hx : x.isFinite = true) (hpos : magnitudeBits x ≠ 0) :
    (Magnitude.ofFloat x).Stored ∧ (Magnitude.ofFloat x).exponent ≤ 971 := by
  have hfinite : magnitudeBits x < 2047 * 2 ^ 52 := (isFinite_unpack_iff _).mp hx
  rw [ofFloat_eq]
  refine ⟨⟨canonical_bits hpos, ?_⟩, ?_⟩
  · dsimp only
    rw [decide_eq_true_iff]
    unfold bitMantissa bitExponent
    split <;> omega
  · dsimp only
    unfold bitExponent
    split <;> omega

theorem isNegative_eq (x : Float) :
    isNegative x = !decide (x.toModel.toBits.toBitVec.toNat < 2 ^ 63) := by
  have hbits : x.toBits.toNat = x.toModel.toBits.toBitVec.toNat := rfl
  have hlt : x.toModel.toBits.toBitVec.toNat < 2 ^ 64 := x.toModel.toBits.toBitVec.isLt
  unfold isNegative
  rw [hbits, Nat.shiftRight_eq_div_pow, Bool.eq_iff_iff]
  generalize x.toModel.toBits.toBitVec.toNat = b at *
  simp
  omega

/-- The float with a magnitude and a sign. -/
def signed (negative : Bool) (y : Float) : Float :=
  if negative then -y else y

/-- A finite float is its sign and its magnitude. -/
theorem signed_isNegative (hx : x.isFinite = true) (hzero : magnitudeBits x = 0 → y = 0.0)
    (hpos : magnitudeBits x ≠ 0 →
      y.isFinite = true ∧ FloatOrder.value y = (Magnitude.ofFloat x).value) :
    signed (isNegative x) y = x := by
  have hunpack : x.toModel.unpack = if x.toModel.toBits.toBitVec.toNat < 2 ^ 63
      then y.toModel.unpack else y.toModel.unpack.neg := by
    have hcases := unpack_of_isFinite _ hx
    dsimp only at hcases
    rw [← magnitudeBits] at hcases
    obtain ⟨hn, hunpack⟩ | ⟨hm, hunpack⟩ := hcases
    · obtain rfl := hzero hn
      refine Eq.trans hunpack ?_
      split <;> rfl
    · have hn : magnitudeBits x ≠ 0 := by
        intro hn
        rw [hn] at hm
        exact Nat.lt_irrefl 0 hm
      obtain ⟨hfinite, hvalue⟩ := hpos hn
      rw [ofFloat_eq] at hvalue
      rw [unpack_of_value hfinite (canonical_bits hn) hm hvalue]
      refine Eq.trans hunpack ?_
      split <;> rfl
  refine Eq.trans ?_ (ofModel_pack_unpack x)
  rw [hunpack, isNegative_eq]
  unfold signed
  by_cases hsign : x.toModel.toBits.toBitVec.toNat < 2 ^ 63
  · rw [if_pos hsign, decide_eq_true hsign]
    exact (ofModel_pack_unpack y).symm
  · rw [if_neg hsign, decide_eq_false hsign]
    rfl

/-- The leading digit of a float is not far behind the point. -/
theorem Magnitude.Stored.lt_point (hv : v.Stored) : -340 < v.point := by
  have hlow : (tenTo 340 : ℚ)⁻¹ ≤ v.value := by
    have hten : (0 : ℚ) < tenTo 340 := Nat.cast_pos.mpr (by decide +kernel)
    rw [inv_le_iff_one_le_mul₀ hten]
    exact one_le_least_mul_tenTo.trans (mul_le_mul_of_nonneg_right hv.least hten.le)
  rw [cast_tenTo, ← zpow_neg] at hlow
  exact (zpow_lt_zpow_iff_right₀ (by norm_num)).mp (hlow.trans_lt hv.point_spec.2)

theorem magnitudeBits_eq_zero (h : magnitudeBits x = 0) (tie : Tie) :
    (Magnitude.ofFloat x).shortest tie = ⟨0, 0⟩ := by
  rw [ofFloat_eq, h]
  rfl

/-- The shortest digits of a float have an exponent that is not far out of range. -/
theorem shortest_exponent (hx : x.isFinite = true) (tie : Tie) :
    (((Magnitude.ofFloat x).shortest tie).digits = 0 →
        ((Magnitude.ofFloat x).shortest tie).exponent = 0) ∧
      ((Magnitude.ofFloat x).shortest tie).exponent.natAbs ≤ 400 := by
  by_cases hzero : magnitudeBits x = 0
  · rw [magnitudeBits_eq_zero hzero]
    exact ⟨fun _ => rfl, Nat.zero_le _⟩
  · obtain ⟨hv, hexponent⟩ := stored_ofFloat hx hzero
    obtain ⟨hcovers, hle⟩ := hv.shortest tie
    have hpos := digits_pos_of_covers hv hcovers
    have hcount : 0 < digitCount ((Magnitude.ofFloat x).shortest tie).digits :=
      Nat.length_toDigits_pos
    have hplaces := (hv.places hexponent hpos hcovers).2
    have hpoint := hv.lt_point
    exact ⟨fun h => absurd h hpos.ne', by omega⟩

/-- A decimal of the value of the shortest digits of a float is read as the float. -/
theorem signed_nearestFloat (hx : x.isFinite = true) {tie : Tie}
    (hvalue : (m * 10 ^ e : ℚ) = ((Magnitude.ofFloat x).shortest tie).value)
    (he : e.natAbs ≤ 2000) : signed (isNegative x) (nearestFloat m e) = x := by
  refine signed_isNegative hx (fun hzero => ?_) fun hpos => ?_
  · have hm : m = 0 := by
      rw [magnitudeBits_eq_zero hzero, Digits.value, Nat.cast_zero, zero_mul] at hvalue
      exact_mod_cast (mul_eq_zero_iff_right (by positivity)).mp hvalue
    rw [hm]
    rfl
  · obtain ⟨hv, hexponent⟩ := stored_ofFloat hx hpos
    have hcovers := (hv.shortest tie).1
    rw [← hvalue] at hcovers
    exact hv.nearestFloat hexponent hcovers he

end Floats

end PatchSearch.Decimal
