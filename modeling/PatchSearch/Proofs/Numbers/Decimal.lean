import PatchSearch.Decimal
import PatchSearch.Proofs.Numbers.Rounding

/-!
The shortest digits of a magnitude are read as that magnitude. What is read as a magnitude lies
nearer to it than to its neighbours, and is rounded to it. Whether a point of a decimal grid does is
told in whole numbers; on a grid that is fine enough one of the two points around the magnitude
does, and with seventeen digits every grid is.
-/
namespace PatchSearch.Decimal

open Rounding

section Covering

variable {v : Magnitude} {y : ℚ}

/-- The value of a magnitude. -/
def Magnitude.value (v : Magnitude) : ℚ :=
  v.mantissa * 2 ^ v.exponent

/-- How far a magnitude reaches down, in units of its last place. -/
def Magnitude.reach (v : Magnitude) : ℚ :=
  if v.narrowBelow then 1 / 4 else 1 / 2

/-- A value that is read as a magnitude: it lies nearer to it than to its neighbours, or as near and
the mantissa is even. -/
def Magnitude.Covers (v : Magnitude) (y : ℚ) : Prop :=
  (v.mantissa - v.reach < y / 2 ^ v.exponent ∧ y / 2 ^ v.exponent < v.mantissa + 1 / 2) ∨
    Even v.mantissa ∧
      (y / 2 ^ v.exponent = v.mantissa - v.reach ∨ y / 2 ^ v.exponent = v.mantissa + 1 / 2)

/-- The magnitudes of floats. -/
structure Magnitude.Stored (v : Magnitude) : Prop where
  canonical : Canonical v.mantissa v.exponent
  narrowBelow : v.narrowBelow = true ↔ v.mantissa = 2 ^ 52 ∧ -1074 < v.exponent

theorem Magnitude.reach_pos (v : Magnitude) : 0 < v.reach := by
  unfold Magnitude.reach
  split <;> norm_num

theorem Magnitude.reach_le (v : Magnitude) : v.reach ≤ 1 / 2 := by
  unfold Magnitude.reach
  split <;> norm_num

/-- In units of its last place, a covered value is near the mantissa. -/
theorem Magnitude.Covers.bounds (h : v.Covers y) :
    v.mantissa - v.reach ≤ y / 2 ^ v.exponent ∧ y / 2 ^ v.exponent ≤ v.mantissa + 1 / 2 ∧
      (y / 2 ^ v.exponent = v.mantissa - v.reach ∨ y / 2 ^ v.exponent = v.mantissa + 1 / 2 →
        Even v.mantissa) := by
  have hreach := v.reach_pos
  obtain ⟨hlow, hhigh⟩ | ⟨heven, hlow | hhigh⟩ := h
  · exact ⟨hlow.le, hhigh.le, fun htie => by rcases htie with h | h <;> linarith⟩
  · exact ⟨hlow.ge, by linarith, fun _ => heven⟩
  · exact ⟨by linarith, hhigh.le, fun _ => heven⟩

theorem Magnitude.Covers.pos (hv : v.Stored) (h : v.Covers y) : 0 < y := by
  have hmantissa : (1 : ℚ) ≤ v.mantissa := by exact_mod_cast hv.canonical.pos
  have hunits : 0 < y / 2 ^ v.exponent := by linarith [h.bounds.1, v.reach_le]
  exact (div_pos_iff_of_pos_right (two_zpow_pos _)).mp hunits

/-- A magnitude reaches below the values of its exponent only where the places change. -/
theorem Magnitude.Stored.narrow_of_lt (hv : v.Stored) (hexponent : -1074 < v.exponent)
    (hlow : v.mantissa - v.reach < 2 ^ 52) : v.mantissa = 2 ^ 52 ∧ v.reach = 1 / 4 := by
  have hfull := hv.canonical.full.resolve_right hexponent.ne'
  have hmantissa : v.mantissa = 2 ^ 52 := by
    by_contra hne
    have hnext : (2 : ℚ) ^ 52 + 1 ≤ v.mantissa := by
      exact_mod_cast (show 2 ^ 52 + 1 ≤ v.mantissa by omega)
    linarith [v.reach_le]
  exact ⟨hmantissa, if_pos (hv.narrowBelow.mpr ⟨hmantissa, hexponent⟩)⟩

theorem log_two_lt_iff (hy : 0 < y) {e : ℤ} : Int.log 2 y < e ↔ y < 2 ^ e := by
  have hiff := Int.lt_zpow_iff_log_lt (R := ℚ) one_lt_two hy (x := e)
  rw [Nat.cast_ofNat] at hiff
  exact hiff.symm

/-- What is read as a magnitude is rounded to it. -/
theorem Magnitude.Stored.rounds (hv : v.Stored) (h : v.Covers y) : Rounds y v.value := by
  obtain ⟨hlow, hhigh, htie⟩ := h.bounds
  have hy := h.pos hv
  have hunit := two_zpow_pos v.exponent
  have hleast := hv.canonical.least
  have hlog : Int.log 2 y < 53 + v.exponent := by
    have hmantissa : (v.mantissa : ℚ) + 1 ≤ 2 ^ 53 := by exact_mod_cast hv.canonical.lt
    rw [log_two_lt_iff hy, two_zpow_add, ← div_lt_iff₀ hunit]
    exact lt_of_lt_of_le (b := (v.mantissa : ℚ) + 1) (by linarith) (hmantissa.trans (by norm_num))
  by_cases hplace : lastPlace y = v.exponent
  · have hreach := v.reach_le
    refine ⟨v.mantissa, ?_, by rw [hplace, Magnitude.value]⟩
    rw [hplace]
    refine ⟨by linarith, by linarith, fun hab => htie (Or.inr (by linarith)), fun hbe => ?_⟩
    exact htie (Or.inl (by linarith))
  · -- the value lies below the least mantissa with all places, so it has one more place
    have hexponent : -1074 < v.exponent := by
      unfold lastPlace at hplace
      omega
    have hsmall : Int.log 2 y < 52 + v.exponent := by
      unfold lastPlace at hplace
      omega
    have hunits : y / 2 ^ v.exponent < 2 ^ 52 := by
      rwa [log_two_lt_iff hy, two_zpow_add, ← div_lt_iff₀ hunit] at hsmall
    obtain ⟨hmantissa, hreach⟩ := hv.narrow_of_lt hexponent (hlow.trans_lt hunits)
    rw [hmantissa, hreach, Nat.cast_pow, Nat.cast_ofNat] at hlow
    have hlarge : ¬ Int.log 2 y < 51 + v.exponent := by
      rw [log_two_lt_iff hy, not_lt, two_zpow_add, ← le_div_iff₀ hunit]
      exact le_trans (by norm_num) hlow
    have hplace : lastPlace y = v.exponent - 1 := by
      unfold lastPlace
      omega
    have hdouble : y / 2 ^ lastPlace y = 2 * (y / 2 ^ v.exponent) := by
      rw [hplace, zpow_sub_one₀ two_ne_zero]
      field_simp
    refine ⟨2 ^ 53, ⟨?_, ?_, fun _ => by decide, fun _ => by decide⟩, ?_⟩
    · rw [hdouble]
      push_cast
      linarith
    · rw [hdouble]
      push_cast
      linarith
    · rw [hplace, Magnitude.value, hmantissa, zpow_sub_one₀ two_ne_zero]
      push_cast
      ring

end Covering

section Grids

variable {v : Magnitude} {n : ℕ} {g : ℤ}

theorem zpow_mul_toNat {b : ℚ} (hb : b ≠ 0) (g : ℤ) : b ^ g * b ^ (-g).toNat = b ^ g.toNat := by
  rcases le_total 0 g with h | h
  · obtain ⟨n, rfl⟩ := Int.eq_ofNat_of_zero_le h
    simp
  · obtain ⟨n, hn⟩ := Int.eq_ofNat_of_zero_le (neg_nonneg.mpr h)
    obtain rfl : g = -(n : ℤ) := by omega
    simp [hb]

/-- The scale turns steps of a grid into quarters of the last place. -/
theorem gridScale_spec (q g : ℤ) : 0 < (gridScale q g).1 ∧ 0 < (gridScale q g).2 ∧
    (10 ^ g / 2 ^ q : ℚ) = (gridScale q g).2 / (gridScale q g).1 / 4 := by
  have hten := zpow_mul_toNat (b := 10) (by norm_num) g
  have htwo := zpow_mul_toNat (b := 2) (by norm_num) (q - 2)
  rw [neg_sub, zpow_sub₀ two_ne_zero] at htwo
  unfold gridScale tenTo
  simp only [Nat.shiftLeft_eq, Nat.pow_eq]
  refine ⟨by positivity, by positivity, ?_⟩
  push_cast
  rw [← hten, ← htwo]
  field_simp
  norm_num

section Quarters

variable {num k p : ℕ} {x : ℚ}

theorem lt_quarters_iff (hnum : (0 : ℚ) < num) (hk : (k : ℚ) = 4 * x) :
    x < p / num / 4 ↔ k * num < p := by
  rw [lt_div_iff₀ (by norm_num), lt_div_iff₀ hnum, mul_comm x, ← hk]
  exact_mod_cast Iff.rfl

theorem quarters_lt_iff (hnum : (0 : ℚ) < num) (hk : (k : ℚ) = 4 * x) :
    p / num / 4 < x ↔ p < k * num := by
  rw [div_lt_iff₀ (by norm_num), div_lt_iff₀ hnum, mul_comm x, ← hk]
  exact_mod_cast Iff.rfl

theorem quarters_eq_iff (hnum : (0 : ℚ) < num) (hk : (k : ℚ) = 4 * x) :
    p / num / 4 = x ↔ p = k * num := by
  rw [div_eq_iff (by norm_num), div_eq_iff hnum.ne', mul_comm x, ← hk]
  exact_mod_cast Iff.rfl

end Quarters

/-- Whether a point of a grid is read as a magnitude is told in whole numbers. -/
theorem covers_iff (hv : 0 < v.mantissa) : v.Covers (n * 10 ^ g) ↔
    (4 * v.mantissa - if v.narrowBelow then 1 else 2) * (gridScale v.exponent g).1 <
        n * (gridScale v.exponent g).2 ∧
      n * (gridScale v.exponent g).2 < (4 * v.mantissa + 2) * (gridScale v.exponent g).1 ∨
    v.mantissa % 2 = 0 ∧
      ((4 * v.mantissa - if v.narrowBelow then 1 else 2) * (gridScale v.exponent g).1 =
          n * (gridScale v.exponent g).2 ∨
        n * (gridScale v.exponent g).2 = (4 * v.mantissa + 2) * (gridScale v.exponent g).1) := by
  obtain ⟨hnum, hden, hscale⟩ := gridScale_spec v.exponent g
  generalize (gridScale v.exponent g).1 = num at *
  generalize (gridScale v.exponent g).2 = den at *
  have hnum' : (0 : ℚ) < num := Nat.cast_pos.mpr hnum
  have hunits : (n * 10 ^ g / 2 ^ v.exponent : ℚ) = (n * den : ℕ) / num / 4 := by
    rw [mul_div_assoc, hscale]
    push_cast
    ring
  have hlow : ((4 * v.mantissa - if v.narrowBelow then 1 else 2 : ℕ) : ℚ) =
      4 * (v.mantissa - v.reach) := by
    unfold Magnitude.reach
    split
    all_goals
      rw [Nat.cast_sub (by omega)]
      push_cast
      ring
  have hhigh : ((4 * v.mantissa + 2 : ℕ) : ℚ) = 4 * (v.mantissa + 1 / 2) := by
    push_cast
    ring
  unfold Magnitude.Covers
  rw [hunits, Nat.even_iff, lt_quarters_iff hnum' hlow, quarters_lt_iff hnum' hhigh,
    quarters_eq_iff hnum' hlow, quarters_eq_iff hnum' hhigh, eq_comm (a := n * den)]

/-- A point that is found on a grid is read as the magnitude. -/
theorem covers_of_onGrid? {tie : Tie} (hv : 0 < v.mantissa) (h : v.onGrid? tie g = some n) :
    v.Covers (n * 10 ^ g) := by
  rw [covers_iff hv]
  unfold Magnitude.onGrid? at h
  dsimp only at h
  split at h
  · cases h
  · next hbelow _ =>
    cases h
    simpa using hbelow
  · next _ habove =>
    cases h
    simpa using habove
  · next hbelow habove =>
    split_ifs at h <;> cases h
    · simpa using hbelow
    · simpa using habove
    · simpa using hbelow
    · simpa using habove

/-- On a grid that is finer than what is read as a magnitude a point is found. -/
theorem onGrid?_ne_none {tie : Tie} (hv : 0 < v.mantissa)
    (hfine : (10 ^ g / 2 ^ v.exponent : ℚ) < v.reach + 1 / 2) : v.onGrid? tie g ≠ none := by
  intro h
  have hcovers (n : ℕ) := covers_iff (n := n) (g := g) hv
  have hnot (n : ℕ) (hn : ¬ v.Covers (n * 10 ^ g)) :
      n * (10 ^ g / 2 ^ v.exponent : ℚ) ≤ v.mantissa - v.reach ∨
        (v.mantissa + 1 / 2 : ℚ) ≤ n * (10 ^ g / 2 ^ v.exponent) := by
    by_contra hin
    rw [not_or, not_le, not_le, ← mul_div_assoc] at hin
    exact hn (Or.inl hin)
  obtain ⟨hnum, hden, hscale⟩ := gridScale_spec v.exponent g
  unfold Magnitude.onGrid? at h
  dsimp only at h
  generalize (gridScale v.exponent g).1 = num at *
  generalize (gridScale v.exponent g).2 = den at *
  have hnum' : (0 : ℚ) < num := Nat.cast_pos.mpr hnum
  split at h
  · next hbelow habove =>
    -- the two points nearest to the magnitude lie outside what is read as it
    have hlow : (4 * v.mantissa * num / den : ℕ) * (10 ^ g / 2 ^ v.exponent : ℚ) ≤ v.mantissa := by
      have hle : ((4 * v.mantissa * num / den * den : ℕ) : ℚ) ≤ (4 * v.mantissa * num : ℕ) :=
        Nat.cast_le.mpr (Nat.div_mul_le_self _ _)
      push_cast at hle
      rw [hscale, div_div, ← mul_div_assoc, div_le_iff₀ (by positivity)]
      linarith
    have hhigh : (v.mantissa : ℚ) <
        (4 * v.mantissa * num / den + 1 : ℕ) * (10 ^ g / 2 ^ v.exponent : ℚ) := by
      have hlt : ((4 * v.mantissa * num : ℕ) : ℚ) < ((4 * v.mantissa * num / den + 1) * den : ℕ) :=
        Nat.cast_lt.mpr (Nat.lt_mul_of_div_lt (Nat.lt_succ_self _) hden)
      push_cast at hlt
      rw [hscale, div_div, ← mul_div_assoc, lt_div_iff₀ (by positivity)]
      push_cast
      linarith
    have hbelow' := hnot _ (mt (hcovers _).mp (by simpa using hbelow))
    have habove' := hnot _ (mt (hcovers _).mp (by simpa using habove))
    have hreach := v.reach_pos
    push_cast at hlow hhigh hbelow' habove'
    rcases hbelow' with hbelow' | hbelow'
    · rcases habove' with habove' | habove'
      · linarith
      · linarith
    · linarith
  · cases h
  · cases h
  · split_ifs at h

end Grids

section Search

variable {v : Magnitude} {y : ℚ}

/-- A number has its digits between two powers of ten. -/
theorem digitCount_bounds {n : ℕ} (hn : 0 < n) :
    10 ^ (digitCount n - 1) ≤ n ∧ n < 10 ^ digitCount n := by
  unfold digitCount
  have hlength := Nat.length_toDigits_pos (b := 10) (n := n)
  refine ⟨?_, (Nat.length_toDigits_le_iff (by decide) hlength).mp le_rfl⟩
  by_contra hlt
  rw [not_le] at hlt
  rcases Nat.eq_zero_or_pos ((Nat.toDigits 10 n).length - 1) with hzero | hpos
  · rw [hzero] at hlt
    omega
  · have := (Nat.length_toDigits_le_iff (by decide) hpos).mpr hlt
    omega

/-- A decimal lies between two powers of ten. -/
theorem digits_bounds {n : ℕ} (hn : 0 < n) (e : ℤ) :
    (10 : ℚ) ^ ((digitCount n : ℤ) + e - 1) ≤ n * 10 ^ e ∧
      (n * 10 ^ e : ℚ) < 10 ^ ((digitCount n : ℤ) + e) := by
  obtain ⟨hlow, hhigh⟩ := digitCount_bounds hn
  have hcount : 0 < digitCount n := Nat.length_toDigits_pos
  have hten : (0 : ℚ) < 10 ^ e := by positivity
  have hlow' : ((10 ^ (digitCount n - 1) : ℕ) : ℚ) ≤ n := Nat.cast_le.mpr hlow
  have hhigh' : (n : ℚ) < (10 ^ digitCount n : ℕ) := Nat.cast_lt.mpr hhigh
  have hexponent : (digitCount n : ℤ) + e - 1 = (digitCount n - 1 : ℕ) + e := by omega
  rw [hexponent, zpow_add₀ (by norm_num), zpow_add₀ (by norm_num), zpow_natCast, zpow_natCast]
  push_cast at hlow' hhigh'
  exact ⟨mul_le_mul_of_nonneg_right hlow' hten.le, mul_lt_mul_of_pos_right hhigh' hten⟩

/-- Shifting to the left by the exponent and to the right by its opposite scales by its power. -/
theorem shift_bounds (n : ℕ) (q : ℤ) :
    ((n <<< q.toNat >>> (-q).toNat : ℕ) : ℚ) ≤ n * 2 ^ q ∧
      (n * 2 ^ q : ℚ) < (n <<< q.toNat >>> (-q).toNat : ℕ) + 1 := by
  have hscale : (n * 2 ^ q : ℚ) * 2 ^ (-q).toNat = (n * 2 ^ q.toNat : ℕ) := by
    push_cast
    rw [mul_assoc, zpow_mul_toNat two_ne_zero]
  rw [Nat.shiftLeft_eq, Nat.shiftRight_eq_div_pow]
  have hpos : (0 : ℚ) < 2 ^ (-q).toNat := by positivity
  have hlow : ((n * 2 ^ q.toNat / 2 ^ (-q).toNat * 2 ^ (-q).toNat : ℕ) : ℚ) ≤
      (n * 2 ^ q.toNat : ℕ) := Nat.cast_le.mpr (Nat.div_mul_le_self _ _)
  have hhigh : ((n * 2 ^ q.toNat : ℕ) : ℚ) <
      ((n * 2 ^ q.toNat / 2 ^ (-q).toNat + 1) * 2 ^ (-q).toNat : ℕ) :=
    Nat.cast_lt.mpr (Nat.lt_mul_of_div_lt (Nat.lt_succ_self _) (by positivity))
  rw [← hscale] at hlow hhigh
  push_cast at hlow hhigh ⊢
  exact ⟨le_of_mul_le_mul_right hlow hpos, lt_of_mul_lt_mul_right hhigh hpos.le⟩

theorem Magnitude.Stored.least (hv : v.Stored) : (2 : ℚ) ^ (-1074 : ℤ) ≤ v.value := by
  have hmantissa : (1 : ℚ) ≤ v.mantissa := by exact_mod_cast hv.canonical.pos
  have hexponent : (2 : ℚ) ^ (-1074 : ℤ) ≤ 2 ^ v.exponent :=
    zpow_le_zpow_right₀ one_le_two hv.canonical.least
  exact hexponent.trans (le_mul_of_one_le_left (two_zpow_pos _).le hmantissa)

theorem cast_tenTo (n : ℕ) : (tenTo n : ℚ) = 10 ^ (n : ℤ) := by
  unfold tenTo
  rw [Nat.pow_eq, Nat.cast_pow, Nat.cast_ofNat, zpow_natCast]

theorem two_zpow_le_tenTo {k n : ℕ} (h : 2 ^ k ≤ tenTo n) : (2 : ℚ) ^ (k : ℤ) ≤ tenTo n := by
  rw [zpow_natCast]
  exact_mod_cast h

theorem one_le_zpow_mul_tenTo {k n : ℕ} (h : 2 ^ k ≤ tenTo n) :
    (1 : ℚ) ≤ 2 ^ (-(k : ℤ)) * tenTo n := by
  rw [zpow_neg, inv_mul_eq_div, one_le_div (two_zpow_pos k)]
  exact two_zpow_le_tenTo h

/-- Scaled to three hundred and forty places, the least magnitude has digits before the point. -/
theorem one_le_least_mul_tenTo : (1 : ℚ) ≤ 2 ^ (-1074 : ℤ) * tenTo 340 :=
  one_le_zpow_mul_tenTo (k := 1074) (by decide +kernel)

/-- The place of the leading digit. -/
theorem Magnitude.Stored.point_spec (hv : v.Stored) :
    (10 : ℚ) ^ (v.point - 1) ≤ v.value ∧ v.value < 10 ^ v.point := by
  obtain ⟨hlow, hhigh⟩ := shift_bounds (v.mantissa * tenTo 340) v.exponent
  have hlarge : 1 ≤ v.value * tenTo 340 :=
    one_le_least_mul_tenTo.trans (mul_le_mul_of_nonneg_right hv.least (Nat.cast_nonneg _))
  have hten : (0 : ℚ) < 10 ^ ((340 : ℕ) : ℤ) := by positivity
  rw [Nat.cast_mul, mul_right_comm, ← Magnitude.value] at hlow hhigh
  unfold Magnitude.point
  dsimp only
  generalize (v.mantissa * tenTo 340) <<< v.exponent.toNat >>> (-v.exponent).toNat = scaled at *
  rw [cast_tenTo] at hlow hhigh hlarge
  have hpos : 0 < scaled := by
    have : (0 : ℚ) < scaled := by linarith
    exact_mod_cast this
  obtain ⟨hlow', hhigh'⟩ := digitCount_bounds hpos
  have hcount : 0 < digitCount scaled := Nat.length_toDigits_pos
  have hlower : (10 : ℚ) ^ ((digitCount scaled : ℤ) - 340 - 1 + (340 : ℕ)) ≤ scaled := by
    rw [show (digitCount scaled : ℤ) - 340 - 1 + (340 : ℕ) = (digitCount scaled - 1 : ℕ) by omega,
      zpow_natCast]
    exact_mod_cast hlow'
  have hupper : (scaled + 1 : ℚ) ≤ 10 ^ ((digitCount scaled : ℤ) - 340 + (340 : ℕ)) := by
    rw [show (digitCount scaled : ℤ) - 340 + (340 : ℕ) = digitCount scaled by omega, zpow_natCast]
    exact_mod_cast hhigh'
  rw [zpow_add₀ (by norm_num)] at hlower hupper
  exact ⟨le_of_mul_le_mul_right (hlower.trans hlow) hten,
    lt_of_mul_lt_mul_right (hhigh.trans_le hupper) hten.le⟩

/-- With seventeen digits the steps of a grid are small enough. -/
theorem Magnitude.Stored.fine (hv : v.Stored) :
    (10 ^ (v.point - 17) / 2 ^ v.exponent : ℚ) < v.reach + 1 / 2 := by
  have hpoint := hv.point_spec.1
  have hunit := two_zpow_pos v.exponent
  have hstep : (10 : ℚ) ^ (v.point - 17) = 10 ^ (v.point - 1) / 10 ^ 16 := by
    rw [eq_div_iff (by norm_num), ← zpow_natCast, ← zpow_add₀ (by norm_num)]
    congr 1
    omega
  have hunits : (10 ^ (v.point - 17) / 2 ^ v.exponent : ℚ) ≤ v.mantissa / 10 ^ 16 := by
    rw [div_le_iff₀ hunit, hstep, div_mul_eq_mul_div]
    exact div_le_div_of_nonneg_right hpoint (by norm_num)
  refine hunits.trans_lt ?_
  unfold Magnitude.reach
  split
  · next hnarrow =>
    rw [(hv.narrowBelow.mp hnarrow).1]
    norm_num
  · have hmantissa : (v.mantissa : ℚ) < 2 ^ 53 := by exact_mod_cast hv.canonical.lt
    rw [div_lt_iff₀ (by norm_num)]
    linarith

/-- The value of a decimal. -/
def Digits.value (d : Digits) : ℚ :=
  d.digits * 10 ^ d.exponent

/-- The search ends on a grid with at most seventeen digits at a point that is read as the
magnitude. -/
theorem Magnitude.Stored.search (hv : v.Stored) (tie : Tie) {fuel count : ℕ}
    (hfuel : count + fuel = 18) (hcount : count ≤ 17) :
    v.Covers (v.search tie v.point fuel count).value ∧
      v.point - 17 ≤ (v.search tie v.point fuel count).exponent := by
  induction fuel generalizing count with
  | zero => omega
  | succ fuel ih =>
    rw [Magnitude.search]
    split
    · next n hn => exact ⟨covers_of_onGrid? hv.canonical.pos hn, by dsimp only; omega⟩
    · next hnone =>
      -- with seventeen digits a point is found, so there are more grids to try
      have hmore : count ≠ 17 := by
        rintro rfl
        exact onGrid?_ne_none hv.canonical.pos hv.fine hnone
      exact ih (by omega) (by omega)

/-- Moving zeros into the exponent keeps the value. -/
theorem Digits.strip_spec (fuel : ℕ) (d : Digits) :
    (d.strip fuel).value = d.value ∧ d.exponent ≤ (d.strip fuel).exponent := by
  induction fuel generalizing d with
  | zero => exact ⟨rfl, le_rfl⟩
  | succ fuel ih =>
    rw [Digits.strip]
    split
    · next h =>
      have hten : d.digits % 10 = 0 := by simpa using (Bool.and_eq_true_iff.mp h).2
      obtain ⟨hvalue, hexponent⟩ := ih ⟨d.digits / 10, d.exponent + 1⟩
      refine ⟨hvalue.trans ?_, by dsimp only at hexponent; omega⟩
      have hdigits : (d.digits : ℚ) = (d.digits / 10 : ℕ) * 10 := by
        exact_mod_cast (Nat.div_mul_cancel (Nat.dvd_of_mod_eq_zero hten)).symm
      unfold Digits.value
      dsimp only
      rw [hdigits, zpow_add_one₀ (by norm_num)]
      ring
    · exact ⟨rfl, le_rfl⟩

/-- The shortest digits are read as the magnitude. -/
theorem Magnitude.Stored.shortest (hv : v.Stored) (tie : Tie) :
    v.Covers (v.shortest tie).value ∧ v.point - 17 ≤ (v.shortest tie).exponent := by
  obtain ⟨hcovers, hexponent⟩ := hv.search tie (show 1 + 17 = 18 from rfl) (by decide)
  obtain ⟨hvalue, hle⟩ := (v.search tie v.point 17 1).strip_spec 20
  unfold Magnitude.shortest
  rw [if_neg hv.canonical.pos.ne', hvalue]
  exact ⟨hcovers, hexponent.trans hle⟩

end Search

end PatchSearch.Decimal
