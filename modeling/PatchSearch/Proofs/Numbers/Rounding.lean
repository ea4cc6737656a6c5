import Mathlib

/-!
Rounding in the model of floats. An exact value that is not negative is measured in units of its
last place and rounded to a nearest whole number of them, the even one of two that are equally
near. Rounding in this sense keeps the order of values and leaves the values of floats alone. A
mantissa with its round and sticky bits says all of an exact value that rounding needs, also after
shifts, so the model's rounding after a subtraction, an addition, a multiplication or a division is
rounding of the exact result.
-/
namespace PatchSearch.Rounding

open Float.Model (UnpackedFloat Format totalExponent)
open Float.Model.UnpackedFloat

section Nearest

/-- A nearest whole number to a value, the even one of two that are equally near. -/
structure Nearest (x : ℚ) (k : ℕ) : Prop where
  le_half_above : 2 * x ≤ 2 * k + 1
  half_below_le : 2 * k ≤ 2 * x + 1
  even_above : 2 * x = 2 * k + 1 → Even k
  even_below : 2 * k = 2 * x + 1 → Even k

variable {x y : ℚ} {k l : ℕ}

theorem Nearest.mono (hx : Nearest x k) (hy : Nearest y l) (h : x ≤ y) : k ≤ l := by
  by_contra hlt
  have hle : (l : ℚ) + 1 ≤ k := by exact_mod_cast Nat.lt_of_not_le hlt
  have hhigh := hx.half_below_le
  have hlow := hy.le_half_above
  -- both are ties at the same place, between two neighbors that would both be even
  have hk : (k : ℚ) = l + 1 := by linarith
  have hkl : k = l + 1 := by exact_mod_cast hk
  have heven := hx.even_below (by linarith)
  rw [hkl, Nat.even_add_one] at heven
  exact heven (hy.even_above (by linarith))

theorem nearest_natCast (k : ℕ) : Nearest k k := by
  constructor
  · linarith
  · linarith
  · intro h
    linarith
  · intro h
    linarith

end Nearest

section Units

/-- The exponent of the last place of a value: a value has 53 binary places, fewer when it is very
small. -/
def lastPlace (q : ℚ) : ℤ :=
  max (Int.log 2 q - 52) (-1074)

/-- A value is rounded to a nearest multiple of the unit of its last place. -/
def Rounds (q r : ℚ) : Prop :=
  ∃ k : ℕ, Nearest (q / 2 ^ lastPlace q) k ∧ r = k * 2 ^ lastPlace q

variable {q q' r r' : ℚ}

theorem two_zpow_pos (e : ℤ) : (0 : ℚ) < 2 ^ e :=
  zpow_pos two_pos e

theorem two_zpow_add (d e : ℤ) : (2 : ℚ) ^ (d + e) = 2 ^ d * 2 ^ e :=
  zpow_add₀ two_ne_zero d e

theorem log_two_eq_iff (hq : 0 < q) {e : ℤ} :
    Int.log 2 q = e ↔ (2 : ℚ) ^ e ≤ q ∧ q < 2 ^ (e + 1) := by
  have hlow := Int.zpow_le_iff_le_log (R := ℚ) one_lt_two hq (x := e)
  have hhigh := Int.lt_zpow_iff_log_lt (R := ℚ) one_lt_two hq (x := e + 1)
  rw [Nat.cast_ofNat] at hlow hhigh
  rw [hlow, hhigh]
  omega

theorem zpow_log_two_le (hq : 0 < q) : (2 : ℚ) ^ Int.log 2 q ≤ q :=
  ((log_two_eq_iff hq).mp rfl).1

theorem lt_zpow_log_two (hq : 0 < q) : q < (2 : ℚ) ^ (Int.log 2 q + 1) :=
  ((log_two_eq_iff hq).mp rfl).2

/-- A quotient is large when its parts are far apart. -/
theorem log_div_ge (hq : 0 < q) (hq' : 0 < q') :
    Int.log 2 q - Int.log 2 q' - 1 ≤ Int.log 2 (q / q') := by
  have hle := Int.zpow_le_iff_le_log (R := ℚ) one_lt_two (div_pos hq hq')
    (x := Int.log 2 q - Int.log 2 q' - 1)
  rw [Nat.cast_ofNat] at hle
  rw [← hle, sub_sub, zpow_sub₀ two_ne_zero]
  exact div_le_div₀ hq.le (zpow_log_two_le hq) hq' (lt_zpow_log_two hq').le

theorem Rounds.nonneg (h : Rounds q r) : 0 ≤ r := by
  obtain ⟨k, -, rfl⟩ := h
  exact mul_nonneg k.cast_nonneg (two_zpow_pos _).le

/-- At most 53 places are left after rounding, or the next power of two is reached. -/
theorem le_of_nearest_lastPlace (hq : 0 < q) {k : ℕ} (hk : Nearest (q / 2 ^ lastPlace q) k) :
    k ≤ 2 ^ 53 := by
  refine hk.mono (nearest_natCast (2 ^ 53)) ?_
  rw [div_le_iff₀ (two_zpow_pos _)]
  have hle : (2 : ℚ) ^ (Int.log 2 q + 1) ≤ 2 ^ (53 + lastPlace q) :=
    zpow_le_zpow_right₀ one_le_two (by unfold lastPlace; omega)
  rw [two_zpow_add 53] at hle
  have hlt := (lt_zpow_log_two hq).trans_le hle
  exact_mod_cast hlt.le

/-- All 53 places are in use unless the value is very small. -/
theorem le_nearest_lastPlace (hq : 0 < q) (hplace : -1074 < lastPlace q) {k : ℕ}
    (hk : Nearest (q / 2 ^ lastPlace q) k) : 2 ^ 52 ≤ k := by
  refine (nearest_natCast (2 ^ 52)).mono hk ?_
  rw [le_div_iff₀ (two_zpow_pos _)]
  have hlog : 52 + lastPlace q = Int.log 2 q := by
    unfold lastPlace at hplace ⊢
    omega
  have hle := zpow_log_two_le hq
  rw [← hlog, two_zpow_add] at hle
  exact_mod_cast hle

/-- Rounding keeps the order of values. -/
theorem Rounds.mono (h : Rounds q r) (h' : Rounds q' r') (hq : 0 ≤ q) (hle : q ≤ q') : r ≤ r' := by
  obtain ⟨k, hk, rfl⟩ := h
  obtain ⟨k', hk', rfl⟩ := h'
  rcases hq.eq_or_lt with rfl | hq
  · rw [zero_div] at hk
    have hzero : k ≤ 0 := hk.mono (nearest_natCast 0) (by simp)
    rw [Nat.le_zero.mp hzero, Nat.cast_zero, zero_mul]
    exact mul_nonneg k'.cast_nonneg (two_zpow_pos _).le
  · have hlog : Int.log 2 q ≤ Int.log 2 q' := Int.log_mono_right hq hle
    have hplace : lastPlace q ≤ lastPlace q' := max_le_max_right _ (by omega)
    rcases hplace.eq_or_lt with heq | hlt
    · rw [← heq] at hk' ⊢
      have hkk : k ≤ k' := hk.mono hk' (div_le_div_of_nonneg_right hle (two_zpow_pos _).le)
      exact mul_le_mul_of_nonneg_right (Nat.cast_le.mpr hkk) (two_zpow_pos _).le
    · -- a power of two lies between the two
      have hbelow : (k : ℚ) ≤ 2 ^ (53 : ℤ) := by
        exact_mod_cast le_of_nearest_lastPlace hq hk
      have habove : (2 : ℚ) ^ (52 : ℤ) ≤ k' := by
        have hmin : -1074 < lastPlace q' := lt_of_le_of_lt (le_max_right _ _) hlt
        exact_mod_cast le_nearest_lastPlace (hq.trans_le hle) hmin hk'
      calc (k : ℚ) * 2 ^ lastPlace q
          ≤ 2 ^ (53 : ℤ) * 2 ^ lastPlace q :=
            mul_le_mul_of_nonneg_right hbelow (two_zpow_pos _).le
        _ = 2 ^ (53 + lastPlace q) := (two_zpow_add _ _).symm
        _ ≤ 2 ^ (52 + lastPlace q') := zpow_le_zpow_right₀ one_le_two (by omega)
        _ = 2 ^ (52 : ℤ) * 2 ^ lastPlace q' := two_zpow_add _ _
        _ ≤ k' * 2 ^ lastPlace q' := mul_le_mul_of_nonneg_right habove (two_zpow_pos _).le

theorem Rounds.unique (h : Rounds q r) (h' : Rounds q r') (hq : 0 ≤ q) : r = r' :=
  le_antisymm (h.mono h' hq le_rfl) (h'.mono h hq le_rfl)

/-- A mantissa and an exponent as floats have them: the exponent is that of the last place. -/
structure Canonical (m : ℕ) (e : ℤ) : Prop where
  pos : 0 < m
  lt : m < 2 ^ 53
  least : -1074 ≤ e
  full : 2 ^ 52 ≤ m ∨ e = -1074

variable {m : ℕ} {e : ℤ}

theorem mul_zpow_pos (hm : 0 < m) : (0 : ℚ) < m * 2 ^ e :=
  mul_pos (Nat.cast_pos.mpr hm) (two_zpow_pos e)

theorem log_mul_zpow (hm : 0 < m) : Int.log 2 (m * 2 ^ e : ℚ) = m.log2 + e := by
  rw [log_two_eq_iff (mul_zpow_pos hm), two_zpow_add, add_right_comm, two_zpow_add]
  have hlow : ((2 ^ m.log2 : ℕ) : ℚ) ≤ m := Nat.cast_le.mpr (Nat.log2_self_le hm.ne')
  have hhigh : (m : ℚ) < ((2 ^ (m.log2 + 1) : ℕ) : ℚ) := Nat.cast_lt.mpr Nat.lt_log2_self
  push_cast at hlow hhigh
  constructor
  · exact mul_le_mul_of_nonneg_right (by exact_mod_cast hlow) (two_zpow_pos e).le
  · exact mul_lt_mul_of_pos_right (by exact_mod_cast hhigh) (two_zpow_pos e)

theorem Canonical.lastPlace (h : Canonical m e) : lastPlace (m * 2 ^ e) = e := by
  unfold Rounding.lastPlace
  rw [log_mul_zpow h.pos]
  have hlog : m.log2 < 53 := (Nat.log2_lt h.pos.ne').mpr h.lt
  have hleast := h.least
  rcases h.full with hfull | rfl
  · have := (Nat.le_log2 h.pos.ne').mpr hfull
    omega
  · omega

/-- The value of a float is its own rounding. -/
theorem Canonical.rounds (h : Canonical m e) : Rounds (m * 2 ^ e) (m * 2 ^ e) := by
  refine ⟨m, ?_, by rw [h.lastPlace]⟩
  rw [h.lastPlace, mul_div_cancel_right₀ _ (two_zpow_pos e).ne']
  exact nearest_natCast m

theorem rounds_zero : Rounds 0 0 :=
  ⟨0, by simpa using nearest_natCast 0, by simp⟩

variable {m' : ℕ} {e' : ℤ}

/-- Whole numbers of 53 places are their own roundings. -/
theorem rounds_natCast {n : ℕ} (h : n < 2 ^ 53) : Rounds n n := by
  rcases Nat.eq_zero_or_pos n with rfl | hpos
  · exact_mod_cast rounds_zero
  · have hplace : Rounding.lastPlace n ≤ 0 := by
      have hlog := log_mul_zpow (e := 0) hpos
      have hlt : n.log2 < 53 := (Nat.log2_lt hpos.ne').mpr h
      rw [zpow_zero, mul_one] at hlog
      unfold Rounding.lastPlace
      omega
    obtain ⟨d, hd⟩ := Int.eq_ofNat_of_zero_le (neg_nonneg.mpr hplace)
    have hunits : (n : ℚ) = (n * 2 ^ d : ℕ) * 2 ^ Rounding.lastPlace n := by
      rw [← neg_eq_iff_eq_neg.mpr hd.symm, zpow_neg, zpow_natCast]
      push_cast
      field_simp
    refine ⟨n * 2 ^ d, ?_, hunits⟩
    rw [← (eq_div_iff (two_zpow_pos _).ne').mpr hunits.symm]
    exact nearest_natCast _

/-- A value with a lower exponent is smaller. -/
theorem Canonical.lt_of_exponent_lt (h : Canonical m e) (h' : Canonical m' e') (hlt : e < e') :
    (m * 2 ^ e : ℚ) < m' * 2 ^ e' := by
  have hm' : 2 ^ 52 ≤ m' := h'.full.resolve_right (by have := h.least; omega)
  have hbelow : (m : ℚ) < 2 ^ (53 : ℤ) := by exact_mod_cast h.lt
  have habove : (2 : ℚ) ^ (52 : ℤ) ≤ m' := by exact_mod_cast hm'
  calc (m * 2 ^ e : ℚ)
      < 2 ^ (53 : ℤ) * 2 ^ e := mul_lt_mul_of_pos_right hbelow (two_zpow_pos e)
    _ = 2 ^ (53 + e) := (two_zpow_add _ _).symm
    _ ≤ 2 ^ (52 + e') := zpow_le_zpow_right₀ one_le_two (by omega)
    _ = 2 ^ (52 : ℤ) * 2 ^ e' := two_zpow_add _ _
    _ ≤ m' * 2 ^ e' := mul_le_mul_of_nonneg_right habove (two_zpow_pos e').le

/-- Values compare as their exponents do, and with one exponent as their mantissas do. -/
theorem Canonical.le_iff (h : Canonical m e) (h' : Canonical m' e') :
    (m * 2 ^ e : ℚ) ≤ m' * 2 ^ e' ↔ e < e' ∨ e = e' ∧ m ≤ m' := by
  rcases lt_trichotomy e e' with hlt | rfl | hgt
  · simp [hlt, (h.lt_of_exponent_lt h' hlt).le]
  · simp [two_zpow_pos]
  · simp [hgt.not_gt, hgt.ne', (h'.lt_of_exponent_lt h hgt).not_ge]

end Units

section Mantissas

/-- What a mantissa with its round bit and its sticky bit says about a value. -/
def Represents (em : ExtendedMantissa) (x : ℚ) : Prop :=
  match em.roundBit, em.stickyBit with
  | false, false => x = em.mantissa
  | false, true => em.mantissa < x ∧ x < em.mantissa + 1 / 2
  | true, false => x = em.mantissa + 1 / 2
  | true, true => em.mantissa + 1 / 2 < x ∧ x < em.mantissa + 1

variable {em : ExtendedMantissa} {x : ℚ}

theorem Represents.bounds (h : Represents em x) : em.mantissa ≤ x ∧ x < em.mantissa + 1 := by
  obtain ⟨m, r, t⟩ := em
  cases r <;> cases t <;> simp only [Represents] at h ⊢ <;> constructor <;> linarith

/-- A shift halves the value: the last place of the mantissa becomes the round bit. -/
theorem Represents.shiftRightOne (h : Represents em x) : Represents em.shiftRightOne (x / 2) := by
  obtain ⟨m, r, t⟩ := em
  have hdiv : ((m % 2 : ℕ) : ℚ) + 2 * ((m / 2 : ℕ) : ℚ) = m := by
    exact_mod_cast Nat.mod_add_div m 2
  have hm : (m % 2 != 0) = false ∧ (m : ℚ) = 2 * (m / 2 : ℕ) ∨
      (m % 2 != 0) = true ∧ (m : ℚ) = 2 * (m / 2 : ℕ) + 1 := by
    rcases Nat.mod_two_eq_zero_or_one m with hbit | hbit <;> rw [hbit] at hdiv ⊢ <;>
      push_cast at hdiv
    · exact Or.inl ⟨rfl, by linarith⟩
    · exact Or.inr ⟨rfl, by linarith⟩
  rcases hm with ⟨hbit, hm⟩ | ⟨hbit, hm⟩ <;> cases r <;> cases t <;>
    simp only [Represents, ExtendedMantissa.shiftRightOne, hbit, Bool.or_self] at h ⊢ <;>
    first
      | linarith
      | exact ⟨by linarith, by linarith⟩

theorem Represents.shiftRight (h : Represents em x) (n : ℕ) :
    Represents (em >>> n) (x / 2 ^ n) := by
  change Represents (n.repeat ExtendedMantissa.shiftRightOne em) _
  induction n with
  | zero => simpa [Nat.repeat] using h
  | succ n ih =>
    rw [Nat.repeat, pow_succ, ← div_div]
    exact ih.shiftRightOne

/-- Rounding a mantissa by its two bits gives a nearest whole number. -/
theorem Represents.nearest (h : Represents em x) : Nearest x em.roundedMantissa := by
  obtain ⟨m, r, t⟩ := em
  cases r <;> cases t <;> simp only [Represents] at h
  · rw [h]
    exact nearest_natCast m
  · obtain ⟨hlow, hhigh⟩ := h
    change Nearest x m
    constructor <;> intros <;> linarith
  · change Nearest x (m + m % 2)
    have heven : Even (m + m % 2) := by
      rw [Nat.even_iff]
      omega
    have hbit : (0 : ℚ) ≤ (m % 2 : ℕ) ∧ ((m % 2 : ℕ) : ℚ) ≤ 1 := by
      refine ⟨Nat.cast_nonneg _, ?_⟩
      exact_mod_cast Nat.le_of_lt_succ (Nat.mod_lt m two_pos)
    refine ⟨?_, ?_, fun _ => heven, fun _ => heven⟩ <;> push_cast <;> linarith [hbit.1, hbit.2]
  · obtain ⟨hlow, hhigh⟩ := h
    change Nearest x (m + 1)
    constructor <;> push_cast <;> intros <;> linarith

end Mantissas

section Results

/-- A result that is not negative, with no limit to its exponent. -/
def Denotes (f : UnpackedFloat) (r : ℚ) : Prop :=
  (∃ s, f = .zero s) ∧ r = 0 ∨
    ∃ m e hm, f = .finite .positive m e hm ∧ Canonical m e ∧ r = m * 2 ^ e

variable {m k : ℕ} {e t : ℤ} {acc : Accuracy} {x : ℚ}

theorem targetExponent_eq (t : ℤ) : Format.binary64.targetExponent t = max (t - 53) (-1074) :=
  rfl

/-- A shift to an exponent keeps the value. -/
theorem shiftToExponent_represents
    (h : Represents (ExtendedMantissa.ofMantissaAndAccuracy m acc) x) (het : e ≤ t) :
    (shiftToExponent m e acc t).2 = t ∧
      Represents (shiftToExponent m e acc t).1 (x * 2 ^ e / 2 ^ t) := by
  obtain ⟨n, hn⟩ := Int.eq_ofNat_of_zero_le (sub_nonneg.mpr het)
  have hamount : (t - e).toNat = n := by omega
  have ht : t = n + e := by omega
  have hvalue : x * 2 ^ e / 2 ^ t = x / 2 ^ n := by
    rw [ht, two_zpow_add, mul_div_mul_right _ _ (two_zpow_pos e).ne', zpow_natCast]
  rw [hvalue]
  unfold shiftToExponent
  rw [hamount]
  exact ⟨show e + (n : ℤ) = t by omega, h.shiftRight n⟩

/-- The exponent that rounding aims at is that of the last place. -/
theorem targetExponent_eq_lastPlace
    (h : Represents (ExtendedMantissa.ofMantissaAndAccuracy m acc) x) (hx : 0 < x)
    (he : e ≤ lastPlace (x * 2 ^ e)) :
    Format.binary64.targetExponent (totalExponent m e) = lastPlace (x * 2 ^ e) := by
  have hmantissa : (ExtendedMantissa.ofMantissaAndAccuracy m acc).mantissa = m := by
    rcases acc with _ | (_ | _ | _) <;> rfl
  obtain ⟨hlow, hhigh⟩ := h.bounds
  rw [hmantissa] at hlow hhigh
  have hq : 0 < x * 2 ^ e := mul_pos hx (two_zpow_pos e)
  rw [targetExponent_eq]
  unfold totalExponent
  unfold lastPlace at he ⊢
  rcases Nat.eq_zero_or_pos m with rfl | hm
  · -- the value is below the unit of its exponent, so both exponents are the least one
    have hlt : x * 2 ^ e < (2 : ℚ) ^ e := by
      rw [Nat.cast_zero, zero_add] at hhigh
      exact mul_lt_of_lt_one_left (two_zpow_pos e) hhigh
    have hlog : Int.log 2 (x * 2 ^ e) < e := by
      have := (zpow_log_two_le hq).trans_lt hlt
      exact (zpow_lt_zpow_iff_right₀ one_lt_two).mp this
    rw [Nat.log2_zero]
    omega
  · have hlog : Int.log 2 (x * 2 ^ e) = m.log2 + e := by
      rw [log_two_eq_iff hq]
      have hstart := (log_two_eq_iff (mul_zpow_pos (e := e) hm)).mp (log_mul_zpow hm)
      refine ⟨hstart.1.trans (mul_le_mul_of_nonneg_right hlow (two_zpow_pos e).le), ?_⟩
      have hnext : (m : ℚ) + 1 ≤ 2 ^ (m.log2 + 1) := by
        exact_mod_cast Nat.lt_log2_self (n := m)
      rw [add_right_comm, two_zpow_add]
      refine mul_lt_mul_of_pos_right (hhigh.trans_le ?_) (two_zpow_pos e)
      exact_mod_cast hnext
    rw [hlog]
    omega

/-- The second shift does nothing unless rounding carried into a further place. -/
theorem shiftToTargetExponent_of_lt (hk : k < 2 ^ 53) (ht : -1074 ≤ t) :
    shiftToTargetExponent .binary64 k t .exact = (⟨k, false, false⟩, t) := by
  have hlog : k.log2 < 53 := by
    rcases Nat.eq_zero_or_pos k with rfl | hpos
    · decide
    · exact (Nat.log2_lt hpos.ne').mpr hk
  have hamount : (Format.binary64.targetExponent (totalExponent k t) - t).toNat = 0 := by
    rw [targetExponent_eq]
    unfold totalExponent
    omega
  unfold shiftToTargetExponent shiftToExponent
  dsimp only
  rw [hamount]
  exact Prod.ext rfl (by simp)

theorem shiftToTargetExponent_carry (ht : -1074 ≤ t) :
    shiftToTargetExponent .binary64 (2 ^ 53) t .exact = (⟨2 ^ 52, false, false⟩, t + 1) := by
  have hamount : (Format.binary64.targetExponent (totalExponent (2 ^ 53) t) - t).toNat = 1 := by
    rw [targetExponent_eq]
    unfold totalExponent
    rw [Nat.log2_two_pow]
    omega
  unfold shiftToTargetExponent shiftToExponent
  dsimp only
  rw [hamount]
  rfl

/-- The model rounds the value of a mantissa, an exponent and an accuracy. -/
theorem roundWithAccuracy_denotes
    (h : Represents (ExtendedMantissa.ofMantissaAndAccuracy m acc) x) (hx : 0 < x)
    (he : e ≤ lastPlace (x * 2 ^ e)) :
    ∃ r, Rounds (x * 2 ^ e) r ∧
      Denotes (roundWithAccuracy .binary64 .positive m e acc) r := by
  have hq : 0 < x * 2 ^ e := mul_pos hx (two_zpow_pos e)
  obtain ⟨hexponent, hrepresents⟩ := shiftToExponent_represents h he
  have hnearest := hrepresents.nearest
  refine ⟨_, ⟨_, hnearest, rfl⟩, ?_⟩
  have hbound := le_of_nearest_lastPlace hq hnearest
  have hfull (hplace : -1074 < lastPlace (x * 2 ^ e)) :=
    le_nearest_lastPlace hq hplace hnearest
  have hleast : -1074 ≤ lastPlace (x * 2 ^ e) := le_max_right _ _
  unfold roundWithAccuracy
  rw [shiftToTargetExponent, targetExponent_eq_lastPlace h hx he]
  dsimp only
  rw [hexponent]
  generalize (shiftToExponent m e acc (lastPlace (x * 2 ^ e))).1.roundedMantissa = k at *
  generalize lastPlace (x * 2 ^ e) = t at *
  rcases hbound.lt_or_eq with hlt | rfl
  · rw [shiftToTargetExponent_of_lt hlt hleast]
    dsimp only
    split
    · next hzero =>
      refine Or.inl ⟨⟨_, rfl⟩, ?_⟩
      rw [hzero, Nat.cast_zero, zero_mul]
    · next hpos =>
      refine Or.inr ⟨k, t, _, rfl, ⟨Nat.pos_of_ne_zero hpos, hlt, hleast, ?_⟩, rfl⟩
      rcases hleast.eq_or_lt with heq | hgt
      · exact Or.inr heq.symm
      · exact Or.inl (hfull hgt)
  · rw [shiftToTargetExponent_carry hleast]
    refine Or.inr ⟨2 ^ 52, t + 1, by decide, rfl,
      ⟨by decide, by decide, by omega, Or.inl le_rfl⟩, ?_⟩
    rw [add_comm t, two_zpow_add, ← mul_assoc]
    norm_num

theorem represents_exact (m : ℕ) :
    Represents (ExtendedMantissa.ofMantissaAndAccuracy m .exact) m :=
  rfl

theorem decreaseExponent_value (m : ℕ) (e t : ℤ) :
    ((decreaseExponent m e t).1 : ℚ) * 2 ^ (decreaseExponent m e t).2 = m * 2 ^ e := by
  unfold decreaseExponent
  dsimp only
  generalize (e - t).toNat = n
  rw [Nat.shiftLeft_eq, Nat.cast_mul, Nat.cast_pow, Nat.cast_ofNat, mul_assoc, ← zpow_natCast,
    ← two_zpow_add, add_sub_cancel]

theorem decreaseExponent_le (m : ℕ) (e t : ℤ) : (decreaseExponent m e t).2 ≤ t := by
  unfold decreaseExponent
  dsimp only
  omega

theorem decreaseExponent_pos (hm : 0 < m) : 0 < (decreaseExponent m e t).1 := by
  unfold decreaseExponent
  dsimp only
  rw [Nat.shiftLeft_eq]
  positivity

/-- The model rounds a mantissa with any exponent. -/
theorem round_denotes (hm : 0 < m) (e : ℤ) :
    ∃ r, Rounds (m * 2 ^ e) r ∧
      Denotes (UnpackedFloat.round .binary64 .positive m e) r := by
  have htarget : Format.binary64.targetExponent (totalExponent m e) = lastPlace (m * 2 ^ e) := by
    rw [targetExponent_eq, lastPlace, log_mul_zpow hm]
    unfold totalExponent
    omega
  unfold UnpackedFloat.round
  rw [htarget]
  have hvalue := decreaseExponent_value m e (lastPlace (m * 2 ^ e))
  have hle := decreaseExponent_le m e (lastPlace (m * 2 ^ e))
  have hpos := decreaseExponent_pos (e := e) (t := lastPlace (m * 2 ^ e)) hm
  have hrounded := roundWithAccuracy_denotes (represents_exact _) (Nat.cast_pos.mpr hpos)
    (hle.trans_eq (by rw [hvalue]))
  rwa [hvalue] at hrounded

/-- The model rounds a whole mantissa that is not negative with any exponent. -/
theorem normalize_denotes {z : ℤ} (hz : 0 ≤ z) (e : ℤ) (s : Sign) :
    ∃ r, Rounds (z * 2 ^ e) r ∧ Denotes (UnpackedFloat.normalize .binary64 z e s) r := by
  rcases hz.eq_or_lt with rfl | hpos
  · refine ⟨0, by simpa using rounds_zero, Or.inl ⟨⟨s, rfl⟩, rfl⟩⟩
  · obtain ⟨m, rfl⟩ := Int.eq_ofNat_of_zero_le hz
    have hm : 0 < m := by omega
    have hcompare : compare (m : ℤ) 0 = .gt := compare_gt_iff_gt.mpr hpos
    unfold UnpackedFloat.normalize
    rw [hcompare]
    exact_mod_cast round_denotes hm e

/-- The accuracy of a whole quotient says where the quotient lies. -/
theorem accuracyOfFraction_represents (num : ℕ) {den : ℕ} (hden : 0 < den) :
    Represents (ExtendedMantissa.ofMantissaAndAccuracy (num / den)
      (accuracyOfFraction (num % den) den)) (num / den : ℚ) := by
  have hpos : (0 : ℚ) < den := Nat.cast_pos.mpr hden
  have hvalue : (num / den : ℚ) = (num / den : ℕ) + ((num % den : ℕ) : ℚ) / den := by
    rw [← mul_right_inj' hpos.ne', mul_add, mul_div_cancel₀ _ hpos.ne', mul_div_cancel₀ _ hpos.ne']
    exact_mod_cast (Nat.div_add_mod num den).symm
  have hrest : num % den < den := Nat.mod_lt num hden
  generalize num / den = q at *
  generalize num % den = r at *
  rw [hvalue]
  unfold accuracyOfFraction
  split
  · next hzero =>
    change (q : ℚ) + (r : ℚ) / den = q
    rw [hzero, Nat.cast_zero, zero_div, add_zero]
  · next hzero =>
    have hrpos : (0 : ℚ) < (r : ℚ) / den :=
      div_pos (by exact_mod_cast Nat.pos_of_ne_zero hzero) hpos
    have hrlt : (r : ℚ) / den < 1 := (div_lt_one hpos).mpr (Nat.cast_lt.mpr hrest)
    rcases Nat.lt_trichotomy (2 * r) den with hlt | heq | hgt
    · rw [compare_lt_iff_lt.mpr hlt]
      have hhalf : (r : ℚ) / den < 1 / 2 := by
        rw [div_lt_iff₀ hpos]
        have : (2 * r : ℚ) < den := by exact_mod_cast hlt
        linarith
      change (q : ℚ) < q + r / den ∧ (q : ℚ) + r / den < q + 1 / 2
      exact ⟨by linarith, by linarith⟩
    · rw [compare_eq_iff_eq.mpr heq]
      have hhalf : (r : ℚ) / den = 1 / 2 := by
        rw [div_eq_iff hpos.ne']
        have : (2 * r : ℚ) = den := by exact_mod_cast heq
        linarith
      change (q : ℚ) + (r : ℚ) / den = q + 1 / 2
      rw [hhalf]
    · rw [compare_gt_iff_gt.mpr hgt]
      have hhalf : 1 / 2 < (r : ℚ) / den := by
        rw [lt_div_iff₀ hpos]
        have : (den : ℚ) < 2 * r := by exact_mod_cast hgt
        linarith
      change (q : ℚ) + 1 / 2 < q + r / den ∧ (q : ℚ) + r / den < q + 1
      exact ⟨by linarith, by linarith⟩

/-- The model rounds the quotient of two mantissas with their exponents. -/
theorem divCore_denotes {m₁ m₂ : ℕ} (hm₁ : 0 < m₁) (hm₂ : 0 < m₂) (e₁ e₂ : ℤ) :
    let core := divCore .binary64 m₁ e₁ m₂ e₂
    ∃ r, Rounds (m₁ * 2 ^ e₁ / (m₂ * 2 ^ e₂)) r ∧
      Denotes (roundWithAccuracy .binary64 .positive core.1 core.2.1 core.2.2) r := by
  unfold divCore
  dsimp only
  have hplace : min (e₁ - e₂)
      (Format.binary64.targetExponent (totalExponent m₁ e₁ - totalExponent m₂ e₂)) ≤
        lastPlace (m₁ * 2 ^ e₁ / (m₂ * 2 ^ e₂)) := by
    have hlog := log_div_ge (mul_zpow_pos (e := e₁) hm₁) (mul_zpow_pos (e := e₂) hm₂)
    rw [log_mul_zpow hm₁, log_mul_zpow hm₂] at hlog
    rw [targetExponent_eq]
    unfold lastPlace totalExponent
    omega
  generalize Format.binary64.targetExponent (totalExponent m₁ e₁ - totalExponent m₂ e₂) = d at *
  obtain ⟨n, hn⟩ := Int.eq_ofNat_of_zero_le (sub_nonneg.mpr (min_le_left (e₁ - e₂) d))
  rw [hn, Int.toNat_natCast, Nat.shiftLeft_eq]
  have hvalue : (m₁ * 2 ^ e₁ / (m₂ * 2 ^ e₂) : ℚ) =
      ((m₁ * 2 ^ n : ℕ) : ℚ) / m₂ * 2 ^ min (e₁ - e₂) d := by
    have hmin : min (e₁ - e₂) d = e₁ - e₂ - n := by omega
    have hpow := (two_zpow_pos e₂).ne'
    have hden : (m₂ : ℚ) ≠ 0 := Nat.cast_ne_zero.mpr hm₂.ne'
    rw [hmin, zpow_sub₀ two_ne_zero, zpow_sub₀ two_ne_zero, zpow_natCast]
    push_cast
    field_simp
  rw [hvalue] at hplace ⊢
  refine roundWithAccuracy_denotes (accuracyOfFraction_represents _ hm₂) ?_ hplace
  positivity

end Results

end PatchSearch.Rounding
