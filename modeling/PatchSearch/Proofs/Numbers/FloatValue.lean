import PatchSearch.Proofs.Numbers.FloatOrder
import PatchSearch.Proofs.Numbers.Rounding

/-!
The values of floats. A finite float holds a rational number, and comparisons, the total order of
floats and arithmetic are told by these numbers: a difference, sum, product or quotient that is not
negative holds its exact value, rounded, or is infinite when that is larger than any float.
-/
namespace PatchSearch.FloatOrder

open Float.Model (UnpackedFloat Format totalExponent)
open Float.Model.UnpackedFloat Rounding

section Values

/-- The value of an unpacked float; what is not finite counts as zero. -/
def unpackedValue : UnpackedFloat → ℚ
  | .finite s m e _ => (s.apply m : ℤ) * 2 ^ e
  | _ => 0

/-- The value of a float. -/
def value (x : Float) : ℚ :=
  unpackedValue x.toModel.unpack

/-- A finite unpacked float as it comes out of a packed one. -/
def Stored (f : UnpackedFloat) : Prop :=
  (∃ s, f = .zero s) ∨
    ∃ s m e hm, f = .finite s m e hm ∧ Canonical m e ∧ e ≤ 971

theorem unpackedValue_positive {m : ℕ} {e : ℤ} (hm : 0 < m) :
    unpackedValue (.finite .positive m e hm) = m * 2 ^ e := by
  simp [unpackedValue, Sign.apply]

theorem unpackedValue_negative {m : ℕ} {e : ℤ} (hm : 0 < m) :
    unpackedValue (.finite .negative m e hm) = -(m * 2 ^ e) := by
  simp [unpackedValue, Sign.apply]

end Values

section Bits

variable (b : BitVec Format.binary64.numBits)

theorem toNat_unpackExponent : (unpackExponent b).toNat = b.toNat / 2 ^ 52 % 2 ^ 11 := by
  simp [unpackExponent, Nat.shiftRight_eq_div_pow]

theorem toNat_unpackMantissa : (unpackMantissa b).toNat = b.toNat % 2 ^ 52 := by
  simp [unpackMantissa]

theorem toNat_unpackSign : (unpackSign b).toNat = b.toNat / 2 ^ 63 := by
  have hlt : b.toNat < 2 ^ 64 := b.isLt
  simp only [unpackSign, BitVec.toNat_cast, BitVec.extractLsb_toNat, Nat.shiftRight_eq_div_pow]
  omega

theorem unpackSign_packComponents (s : Sign) (E : BitVec Format.binary64.exponentBits)
    (M : BitVec Format.binary64.mantissaBitsWithoutImplicit) :
    unpackSign (packComponents .binary64 s E M) = s.toBitVec := by
  apply BitVec.eq_of_getLsbD_eq
  intro i hi
  obtain rfl : i = 0 := by omega
  have hbit : (s.toBitVec ++ E ++ M).getLsbD 63 = s.toBitVec.getLsbD 0 := by
    rw [BitVec.getLsbD_append, if_neg (by decide), BitVec.getLsbD_append, if_neg (by decide)]
    rfl
  unfold unpackSign packComponents
  rw [BitVec.getLsbD_cast, BitVec.getLsbD_extractLsb]
  exact hbit

theorem ofBitVec_toBitVec (s : Sign) : Sign.ofBitVec s.toBitVec = s := by
  cases s <;> rfl

theorem toNat_implicit (M : BitVec 52) : (1#1 ++ M).toNat = 2 ^ 52 + M.toNat := by
  rw [BitVec.toNat_append, ← Nat.shiftLeft_add_eq_or_of_lt M.isLt]
  rfl

/-- The mantissa that the bits of a finite magnitude stand for. -/
def bitMantissa (n : ℕ) : ℕ :=
  if n < 2 ^ 52 then n else 2 ^ 52 + n % 2 ^ 52

/-- The exponent that the bits of a finite magnitude stand for. -/
def bitExponent (n : ℕ) : ℤ :=
  if n < 2 ^ 52 then -1074 else (n / 2 ^ 52 : ℕ) - 1075

theorem sign_unpack : Sign.ofBitVec (unpackSign b) =
    if b.toNat < 2 ^ 63 then .positive else .negative := by
  have hzero : unpackSign b = 0#1 ↔ b.toNat < 2 ^ 63 := by
    rw [← BitVec.toNat_inj, toNat_unpackSign, BitVec.toNat_ofNat]
    omega
  unfold Sign.ofBitVec
  simp only [hzero]

/-- What bits stand for, by their exponent, their mantissa and their sign. -/
theorem unpack_eq : UnpackedFloat.unpack .binary64 b =
    if unpackExponent b = -1#11 then
      if unpackMantissa b = 0#52 then .infinity (.ofBitVec (unpackSign b)) else .notANumber
    else if unpackExponent b = 0#11 then
      if h : unpackMantissa b = 0#52 then .zero (.ofBitVec (unpackSign b))
      else .finite (.ofBitVec (unpackSign b)) (unpackMantissa b).toNat (-1074)
        (by simpa [BitVec.toNat_pos, BitVec.pos_iff_ne_zero] using h)
    else .finite (.ofBitVec (unpackSign b)) (1#1 ++ unpackMantissa b).toNat
      ((unpackExponent b).toNat - 1075) (by rw [toNat_implicit]; omega) := by
  have hbias : (Format.binary64.exponentBias + Format.binary64.mantissaBitsWithoutImplicit : ℤ) =
      1075 := rfl
  unfold UnpackedFloat.unpack
  dsimp only
  rw [hbias]
  split
  · rfl
  · split
    · next hzero =>
      simp only [hzero]
      rfl
    · rfl

theorem exponent_eq_highest_iff :
    unpackExponent b = -1#11 ↔ ¬ b.toNat % 2 ^ 63 < 2047 * 2 ^ 52 := by
  rw [← BitVec.toNat_inj, toNat_unpackExponent]
  simp
  omega

theorem exponent_eq_zero_iff (hfinite : b.toNat % 2 ^ 63 < 2047 * 2 ^ 52) :
    unpackExponent b = 0#11 ↔ b.toNat % 2 ^ 63 < 2 ^ 52 := by
  rw [← BitVec.toNat_inj, toNat_unpackExponent, BitVec.toNat_ofNat, Nat.zero_mod]
  omega

theorem isFinite_unpack_iff :
    (UnpackedFloat.unpack .binary64 b).isFinite = true ↔ b.toNat % 2 ^ 63 < 2047 * 2 ^ 52 := by
  rw [unpack_eq]
  split
  · next he =>
    rw [exponent_eq_highest_iff] at he
    split <;> simpa [UnpackedFloat.isFinite] using he
  · next he =>
    rw [exponent_eq_highest_iff, not_not] at he
    split
    · split <;> simpa [UnpackedFloat.isFinite] using he
    · simpa [UnpackedFloat.isFinite] using he

/-- What the bits of a finite float stand for: a sign, and a magnitude. -/
theorem unpack_of_isFinite (h : (UnpackedFloat.unpack .binary64 b).isFinite = true) :
    let n := b.toNat % 2 ^ 63
    let s : Sign := if b.toNat < 2 ^ 63 then .positive else .negative
    n = 0 ∧ UnpackedFloat.unpack .binary64 b = .zero s ∨
      ∃ hm, UnpackedFloat.unpack .binary64 b = .finite s (bitMantissa n) (bitExponent n) hm := by
  intro n s
  have hfinite := (isFinite_unpack_iff b).mp h
  have hmantissa := toNat_unpackMantissa b
  rw [unpack_eq, if_neg (by rwa [exponent_eq_highest_iff, not_not]), sign_unpack b]
  split
  · next hzero =>
    have hsmall : n < 2 ^ 52 := (exponent_eq_zero_iff b hfinite).mp hzero
    have hbits : bitMantissa n = (unpackMantissa b).toNat := by
      rw [hmantissa, bitMantissa, if_pos hsmall]
      omega
    have hexponent : bitExponent n = -1074 := if_pos hsmall
    split
    · next hm =>
      refine Or.inl ⟨?_, rfl⟩
      rw [← BitVec.toNat_inj, hmantissa, BitVec.toNat_ofNat, Nat.zero_mod] at hm
      omega
    · next hm =>
      rw [← BitVec.toNat_inj, BitVec.toNat_ofNat, Nat.zero_mod] at hm
      refine Or.inr ⟨by rw [hbits]; omega, ?_⟩
      rw [UnpackedFloat.finite.injEq]
      exact ⟨rfl, hbits.symm, hexponent.symm⟩
  · next hpos =>
    have hlarge : ¬ n < 2 ^ 52 := fun hsmall => hpos ((exponent_eq_zero_iff b hfinite).mpr hsmall)
    have hbits : bitMantissa n = (1#1 ++ unpackMantissa b).toNat := by
      rw [toNat_implicit, hmantissa, bitMantissa, if_neg hlarge]
      omega
    have hexponent : bitExponent n = (unpackExponent b).toNat - 1075 := by
      rw [toNat_unpackExponent, bitExponent, if_neg hlarge]
      omega
    refine Or.inr ⟨by rw [bitMantissa, if_neg hlarge]; omega, ?_⟩
    rw [UnpackedFloat.finite.injEq]
    exact ⟨rfl, hbits.symm, hexponent.symm⟩

theorem canonical_bits {n : ℕ} (hn : n ≠ 0) : Canonical (bitMantissa n) (bitExponent n) := by
  unfold bitMantissa bitExponent
  split
  · exact ⟨by omega, by omega, le_rfl, Or.inr rfl⟩
  · have hrest : n % 2 ^ 52 < 2 ^ 52 := Nat.mod_lt n (by positivity)
    exact ⟨by omega, by omega, by omega, Or.inl (by omega)⟩

theorem stored_unpack (h : (UnpackedFloat.unpack .binary64 b).isFinite = true) :
    Stored (UnpackedFloat.unpack .binary64 b) := by
  have hfinite := (isFinite_unpack_iff b).mp h
  obtain ⟨-, hb⟩ | ⟨hm, hb⟩ := unpack_of_isFinite b h
  · exact Or.inl ⟨_, hb⟩
  · refine Or.inr ⟨_, _, _, hm, hb, canonical_bits ?_, ?_⟩
    · intro hzero
      rw [hzero] at hm
      exact Nat.lt_irrefl 0 hm
    · unfold bitExponent
      split <;> omega

end Bits

section Packing

theorem unpack_packComponents (s : Sign) (E : BitVec 11) (M : BitVec 52) :
    UnpackedFloat.unpack .binary64 (packComponents .binary64 s E M) =
      if E = -1#11 then (if M = 0#52 then .infinity s else .notANumber)
      else if E = 0#11 then
        if h : M = 0#52 then .zero s
        else .finite s M.toNat (-1074) (by simpa [BitVec.toNat_pos, BitVec.pos_iff_ne_zero] using h)
      else .finite s (1#1 ++ M).toNat (E.toNat - 1075) (by rw [toNat_implicit]; omega) := by
  have hexponent : unpackExponent (packComponents .binary64 s E M) = E :=
    unpackExponent_packComponents
  have hmantissa : unpackMantissa (packComponents .binary64 s E M) = M :=
    unpackMantissa_packComponents
  have hsign : Sign.ofBitVec (unpackSign (packComponents .binary64 s E M)) = s := by
    rw [unpackSign_packComponents, ofBitVec_toBitVec]
  simp only [unpack_eq, hexponent, hmantissa, hsign]

/-- Packing a result and unpacking it again gives the result, or an infinity when it is larger
than any float. -/
theorem unpack_pack_finite (s : Sign) {m : ℕ} {e : ℤ} (hm : 0 < m) (h : Canonical m e) :
    UnpackedFloat.unpack .binary64 (UnpackedFloat.pack .binary64 (.finite s m e hm)) =
      if e ≤ 971 then .finite s m e hm else .infinity s := by
  have hleast := h.least
  have hbias : (Format.binary64.exponentBias + Format.binary64.mantissaBitsWithoutImplicit : ℤ) =
      1075 := rfl
  obtain ⟨n, hn⟩ : ∃ n : ℕ, e + 1075 = n := Int.eq_ofNat_of_zero_le (by omega)
  have hbiased : (e + Format.binary64.exponentBias +
      Format.binary64.mantissaBitsWithoutImplicit).toNat = n := by
    rw [add_assoc, hbias]
    omega
  have hbits : Format.binary64.mantissaBits = 53 := rfl
  unfold UnpackedFloat.pack
  dsimp only
  rw [hbiased, hbits]
  split
  · next hbig =>
    have hover : ¬ e ≤ 971 := by omega
    rw [if_neg hover, packedInfinity, unpack_packComponents]
    rfl
  · next hsmall =>
    have hunder : e ≤ 971 := by omega
    have hexponent : (BitVec.ofNat 11 n).toNat = n := by
      rw [BitVec.toNat_ofNat, Nat.mod_eq_of_lt (by omega)]
    rw [if_pos hunder]
    split
    · next hlog =>
      have hfull : 2 ^ 52 ≤ m := (Nat.le_log2 hm.ne').mp (by omega)
      have hlt := h.lt
      have hinner : BitVec.ofNat 11 n ≠ -1#11 ∧ BitVec.ofNat 11 n ≠ 0#11 := by
        rw [Ne, Ne, ← BitVec.toNat_inj, ← BitVec.toNat_inj, hexponent]
        simp
        omega
      rw [unpack_packComponents, if_neg hinner.1, if_neg hinner.2, UnpackedFloat.finite.injEq,
        toNat_implicit, hexponent, BitVec.toNat_ofNat]
      exact ⟨rfl, by omega, by omega⟩
    · next hlog =>
      have hlt : m < 2 ^ 52 := by
        have := (Nat.log2_lt hm.ne').mpr h.lt
        exact (Nat.log2_lt hm.ne').mp (by omega)
      have he : e = -1074 := h.full.resolve_left (by omega)
      have hmantissa : (BitVec.ofNat 52 m).toNat = m := by
        rw [BitVec.toNat_ofNat, Nat.mod_eq_of_lt hlt]
      have hpos : BitVec.ofNat 52 m ≠ 0#52 := by
        rw [Ne, ← BitVec.toNat_inj, hmantissa]
        simp
        omega
      rw [unpack_packComponents, if_neg (by decide), if_pos rfl, dif_neg hpos,
        UnpackedFloat.finite.injEq]
      exact ⟨rfl, hmantissa, he.symm⟩

end Packing

section Order

/-- The order of ranks is the order of values. -/
theorem unpackedRank_le_iff {f g : UnpackedFloat} (hf : Stored f) (hg : Stored g) :
    unpackedRank f ≤ unpackedRank g ↔ unpackedValue f ≤ unpackedValue g := by
  have hzero (s : Sign) : unpackedValue (.zero s) = 0 := rfl
  obtain ⟨s, rfl⟩ | ⟨s, m, e, hm, rfl, hc, -⟩ := hf <;>
    obtain ⟨s', rfl⟩ | ⟨s', m', e', hm', rfl, hc', -⟩ := hg
  · simp [unpackedRank, hzero]
  · have hpos : (0 : ℚ) < m' * 2 ^ e' := mul_zpow_pos hm'
    cases s' <;> rw [hzero]
    · rw [unpackedValue_negative]
      simp [unpackedRank, Prod.Lex.toLex_le_toLex, hpos]
    · rw [unpackedValue_positive]
      simp [unpackedRank, Prod.Lex.toLex_le_toLex, hpos.le]
  · have hpos : (0 : ℚ) < m * 2 ^ e := mul_zpow_pos hm
    cases s <;> rw [hzero]
    · rw [unpackedValue_negative]
      simp [unpackedRank, Prod.Lex.toLex_le_toLex, hpos.le]
    · rw [unpackedValue_positive]
      simp [unpackedRank, Prod.Lex.toLex_le_toLex, hpos]
  · have hpos : (0 : ℚ) < m * 2 ^ e := mul_zpow_pos hm
    have hpos' : (0 : ℚ) < m' * 2 ^ e' := mul_zpow_pos hm'
    cases s <;> cases s'
    · rw [unpackedValue_negative, unpackedValue_negative, neg_le_neg_iff, hc'.le_iff hc]
      simp [unpackedRank, Prod.Lex.toLex_le_toLex, eq_comm]
    · rw [unpackedValue_negative, unpackedValue_positive]
      simp [unpackedRank, Prod.Lex.toLex_le_toLex]
      linarith
    · rw [unpackedValue_positive, unpackedValue_negative]
      simp [unpackedRank, Prod.Lex.toLex_le_toLex]
      linarith
    · rw [unpackedValue_positive, unpackedValue_positive, hc.le_iff hc']
      simp [unpackedRank, Prod.Lex.toLex_le_toLex]

variable {x y : Float}

theorem stored (hx : x.isFinite = true) : Stored x.toModel.unpack :=
  stored_unpack _ hx

/-- Finite floats compare as their values do. -/
theorem le_iff_value_le (hx : x.isFinite = true) (hy : y.isFinite = true) :
    x ≤ y ↔ value x ≤ value y := by
  rw [le_iff, rank, rank, unpackedRank_le_iff (stored hx) (stored hy)]
  exact ⟨fun h => h.2.2, fun h => ⟨isNaN_of_isFinite x hx, isNaN_of_isFinite y hy, h⟩⟩

/-- The value of a magnitude. -/
theorem bitValue_mono {n n' : ℕ} (h : n ≤ n') :
    (bitMantissa n * 2 ^ bitExponent n : ℚ) ≤ bitMantissa n' * 2 ^ bitExponent n' := by
  rcases Nat.eq_zero_or_pos n with rfl | hpos
  · have hzero : bitMantissa 0 = 0 := rfl
    rw [hzero, Nat.cast_zero, zero_mul]
    exact mul_nonneg (Nat.cast_nonneg _) (two_zpow_pos _).le
  · rw [(canonical_bits hpos.ne').le_iff (canonical_bits (by omega))]
    unfold bitExponent bitMantissa
    split <;> split <;> omega

theorem floatPlace_eq (x : Float) :
    floatPlace x = if x.toModel.toBits.toBitVec.toNat < 2 ^ 63
      then (x.toModel.toBits.toBitVec.toNat : ℤ)
      else 2 ^ 63 - 1 - (x.toModel.toBits.toBitVec.toNat : ℤ) :=
  rfl

/-- The value of a finite float by its place in the total order. -/
theorem value_of_place (hx : x.isFinite = true) :
    (∃ n : ℕ, floatPlace x = n ∧ value x = bitMantissa n * 2 ^ bitExponent n) ∨
      ∃ n : ℕ, floatPlace x = -1 - n ∧ value x = -(bitMantissa n * 2 ^ bitExponent n) := by
  have hlt : x.toModel.toBits.toBitVec.toNat < 2 ^ 64 := x.toModel.toBits.toBitVec.isLt
  have hcases := unpack_of_isFinite _ hx
  have hvalue :
      value x = unpackedValue (UnpackedFloat.unpack .binary64 x.toModel.toBits.toBitVec) := rfl
  rw [floatPlace_eq, hvalue]
  generalize x.toModel.toBits.toBitVec = b at *
  have hzero : (bitMantissa 0 * 2 ^ bitExponent 0 : ℚ) = 0 := by
    rw [show bitMantissa 0 = 0 from rfl, Nat.cast_zero, zero_mul]
  by_cases hsign : b.toNat < 2 ^ 63
  · rw [if_pos hsign] at hcases ⊢
    refine Or.inl ⟨b.toNat % 2 ^ 63, by omega, ?_⟩
    obtain ⟨hn, hb⟩ | ⟨hm, hb⟩ := hcases
    · rw [hb, hn, hzero]
      rfl
    · rw [hb, unpackedValue_positive]
  · rw [if_neg hsign] at hcases ⊢
    refine Or.inr ⟨b.toNat % 2 ^ 63, by omega, ?_⟩
    obtain ⟨hn, hb⟩ | ⟨hm, hb⟩ := hcases
    · rw [hb, hn, hzero]
      rfl
    · rw [hb, unpackedValue_negative]

/-- Finite floats are ordered by value in the total order. -/
theorem value_le_of_place_le (hx : x.isFinite = true) (hy : y.isFinite = true)
    (h : floatPlace x ≤ floatPlace y) : value x ≤ value y := by
  have hnonneg (n : ℕ) : (0 : ℚ) ≤ bitMantissa n * 2 ^ bitExponent n :=
    mul_nonneg (Nat.cast_nonneg _) (two_zpow_pos _).le
  obtain ⟨n, hn, hvalue⟩ | ⟨n, hn, hvalue⟩ := value_of_place hx <;>
    obtain ⟨n', hn', hvalue'⟩ | ⟨n', hn', hvalue'⟩ := value_of_place hy <;>
    rw [hn, hn'] at h <;> rw [hvalue, hvalue']
  · exact bitValue_mono (by omega)
  · omega
  · linarith [hnonneg n, hnonneg n']
  · exact neg_le_neg (bitValue_mono (by omega))

/-- Finite floats come before the infinite one in the total order. -/
theorem floatPlace_lt (hx : x.isFinite = true) : floatPlace x < 2047 * 2 ^ 52 := by
  have hfinite := (isFinite_unpack_iff _).mp hx
  rw [floatPlace_eq]
  split <;> omega

theorem floatPlace_infinity : floatPlace Scalar.infinity = 2047 * 2 ^ 52 :=
  rfl

theorem unpack_largestFloat :
    largestFloat.toModel.unpack = .finite .positive (2 ^ 53 - 1) 971 (by decide) := by
  have hbits : largestFloat.toModel.toBits = 0x7FEFFFFFFFFFFFFF := by decide +kernel
  unfold Float.Model.unpack
  rw [hbits]
  rfl

theorem isFinite_largestFloat : largestFloat.isFinite = true := by
  change largestFloat.toModel.unpack.isFinite = true
  rw [unpack_largestFloat]
  rfl

/-- The largest value of a float. -/
def limit : ℚ :=
  (2 ^ 53 - 1 : ℕ) * 2 ^ (971 : ℤ)

theorem value_largestFloat : value largestFloat = limit := by
  rw [value, unpack_largestFloat, unpackedValue_positive, limit]

theorem canonical_limit : Canonical (2 ^ 53 - 1) 971 :=
  ⟨by decide, by decide, by decide, Or.inl (by decide)⟩

theorem mul_zpow_le_limit_iff {m : ℕ} {e : ℤ} (h : Canonical m e) :
    (m * 2 ^ e : ℚ) ≤ limit ↔ e ≤ 971 := by
  rw [limit, h.le_iff canonical_limit]
  have := h.lt
  omega

theorem natCast_le_limit {n : ℕ} (h : n < 2 ^ 53) : (n : ℚ) ≤ limit := by
  have hn : (n : ℚ) ≤ (2 ^ 53 - 1 : ℕ) := Nat.cast_le.mpr (by omega)
  exact hn.trans (le_mul_of_one_le_right (Nat.cast_nonneg _) (one_le_zpow₀ one_le_two (by decide)))

theorem value_le_limit (hx : x.isFinite = true) : value x ≤ limit := by
  have hlimit : (0 : ℚ) ≤ limit := mul_nonneg (Nat.cast_nonneg _) (two_zpow_pos _).le
  rw [value]
  obtain ⟨s, hs⟩ | ⟨s, m, e, hm, hs, hc, he⟩ := stored hx
  · rw [hs]
    exact hlimit
  · rw [hs]
    cases s
    · rw [unpackedValue_negative]
      have := mul_zpow_pos (e := e) hm
      linarith
    · rw [unpackedValue_positive]
      exact (mul_zpow_le_limit_iff hc).mpr he

/-- No finite float is above the largest one. -/
theorem le_largestFloat (hx : x.isFinite = true) : x ≤ largestFloat := by
  rw [le_iff_value_le hx isFinite_largestFloat, value_largestFloat]
  exact value_le_limit hx

end Order

section Operations

/-- A float that holds a number that is not negative, unless that is larger than any float. -/
def Holds (z : Float) (r : ℚ) : Prop :=
  (r ≤ limit → z.isFinite = true ∧ value z = r) ∧ (z.isFinite = true → r ≤ limit)

/-- A result of the model, packed, holds its value. -/
theorem holds_of_denotes {z : Float} {f : UnpackedFloat} {r : ℚ}
    (hz : z.toModel.unpack = UnpackedFloat.unpack .binary64 (UnpackedFloat.pack .binary64 f))
    (h : Denotes f r) : Holds z r := by
  unfold Holds Float.isFinite Float.Model.isFinite value
  rw [hz]
  obtain ⟨⟨s, rfl⟩, rfl⟩ | ⟨m, e, hm, rfl, hc, rfl⟩ := h
  · have hzero :
        UnpackedFloat.unpack .binary64 (UnpackedFloat.pack .binary64 (.zero s)) = .zero s :=
      (unpack_packComponents s 0#11 0#52).trans (by simp)
    have hlimit : (0 : ℚ) ≤ limit := mul_nonneg (Nat.cast_nonneg _) (two_zpow_pos _).le
    rw [hzero]
    exact ⟨fun _ => ⟨rfl, rfl⟩, fun _ => hlimit⟩
  · rw [unpack_pack_finite _ hm hc, mul_zpow_le_limit_iff hc]
    split
    · next he => exact ⟨fun _ => ⟨rfl, unpackedValue_positive hm⟩, fun _ => he⟩
    · next he => exact ⟨fun h => absurd h he, nofun⟩

variable {f g : UnpackedFloat}

/-- A stored float that is not negative denotes its value. -/
theorem Stored.denotes (hf : Stored f) (h : 0 ≤ unpackedValue f) : Denotes f (unpackedValue f) := by
  obtain ⟨s, rfl⟩ | ⟨s, m, e, hm, rfl, hc, -⟩ := hf
  · exact Or.inl ⟨⟨s, rfl⟩, rfl⟩
  · cases s
    · rw [unpackedValue_negative] at h
      have := mul_zpow_pos (e := e) hm
      linarith
    · exact Or.inr ⟨m, e, hm, rfl, hc, unpackedValue_positive hm⟩

theorem Stored.rounds (hf : Stored f) (h : 0 ≤ unpackedValue f) :
    Rounds (unpackedValue f) (unpackedValue f) := by
  obtain ⟨-, hzero⟩ | ⟨m, e, -, -, hc, hvalue⟩ := hf.denotes h
  · rw [hzero]
    exact rounds_zero
  · rw [hvalue]
    exact hc.rounds

/-- A mantissa brought down to a lower exponent, with its sign. -/
theorem apply_decreaseExponent (s : Sign) {m : ℕ} {e t : ℤ} (hm : 0 < m) (hle : t ≤ e) :
    ((s.apply (decreaseExponent m e t).1 : ℤ) : ℚ) * 2 ^ t = unpackedValue (.finite s m e hm) := by
  have hvalue := decreaseExponent_value m e t
  have hexponent : (decreaseExponent m e t).2 = t := by
    unfold decreaseExponent
    dsimp only
    omega
  rw [hexponent] at hvalue
  cases s
  · rw [unpackedValue_negative, ← hvalue]
    simp [Sign.apply]
  · rw [unpackedValue_positive, ← hvalue]
    simp [Sign.apply]

/-- A difference that is not negative is rounded. -/
theorem sub_denotes (hf : Stored f) (hg : Stored g) (h : unpackedValue g ≤ unpackedValue f) :
    ∃ r, Rounds (unpackedValue f - unpackedValue g) r ∧
      Denotes (UnpackedFloat.sub .binary64 f g) r := by
  obtain ⟨s, rfl⟩ | ⟨s, m, e, hm, rfl, -⟩ := id hf <;>
    obtain ⟨s', rfl⟩ | ⟨s', m', e', hm', rfl, hc', he'⟩ := id hg
  · refine ⟨0, by simpa [unpackedValue] using rounds_zero, Or.inl ⟨?_, rfl⟩⟩
    cases s <;> cases s' <;> exact ⟨_, rfl⟩
  · -- zero less a float is the float with the other sign
    have hneg :
        unpackedValue (.finite (-s') m' e' hm') = -unpackedValue (.finite s' m' e' hm') := by
      cases s'
      · exact (unpackedValue_positive hm').trans (by rw [unpackedValue_negative, neg_neg])
      · exact (unpackedValue_negative hm').trans (by rw [unpackedValue_positive])
    have hstored : Stored (.finite (-s') m' e' hm') := Or.inr ⟨_, _, _, hm', rfl, hc', he'⟩
    have hnonneg : 0 ≤ unpackedValue (.finite (-s') m' e' hm') := by
      rw [hneg]
      exact neg_nonneg.mpr h
    rw [show unpackedValue (.zero s) = 0 from rfl, zero_sub, ← hneg]
    exact ⟨_, hstored.rounds hnonneg, hstored.denotes hnonneg⟩
  · rw [show unpackedValue (.zero s') = 0 from rfl] at h ⊢
    rw [sub_zero]
    exact ⟨_, hf.rounds h, hf.denotes h⟩
  · rw [← apply_decreaseExponent s hm (min_le_left e e'),
      ← apply_decreaseExponent s' hm' (min_le_right e e')] at h ⊢
    rw [← sub_mul, ← Int.cast_sub]
    have hz : s'.apply (decreaseExponent m' e' (min e e')).1 ≤
        s.apply (decreaseExponent m e (min e e')).1 := by
      exact_mod_cast (mul_le_mul_iff_left₀ (two_zpow_pos (min e e'))).mp h
    exact normalize_denotes (sub_nonneg.mpr hz) _ _

/-- A sum that is not negative is rounded. -/
theorem add_denotes (hf : Stored f) (hg : Stored g) (h : 0 ≤ unpackedValue f + unpackedValue g) :
    ∃ r, Rounds (unpackedValue f + unpackedValue g) r ∧
      Denotes (UnpackedFloat.add .binary64 f g) r := by
  obtain ⟨s, rfl⟩ | ⟨s, m, e, hm, rfl, -⟩ := id hf <;>
    obtain ⟨s', rfl⟩ | ⟨s', m', e', hm', rfl, -⟩ := id hg
  · refine ⟨0, by simpa [unpackedValue] using rounds_zero, Or.inl ⟨?_, rfl⟩⟩
    cases s <;> cases s' <;> exact ⟨_, rfl⟩
  · rw [show unpackedValue (.zero s) = 0 from rfl, zero_add] at h ⊢
    exact ⟨_, hg.rounds h, hg.denotes h⟩
  · rw [show unpackedValue (.zero s') = 0 from rfl, add_zero] at h ⊢
    exact ⟨_, hf.rounds h, hf.denotes h⟩
  · rw [← apply_decreaseExponent s hm (min_le_left e e'),
      ← apply_decreaseExponent s' hm' (min_le_right e e')] at h ⊢
    rw [← add_mul, ← Int.cast_add] at h ⊢
    have hz : 0 ≤ s.apply (decreaseExponent m e (min e e')).1 +
        s'.apply (decreaseExponent m' e' (min e e')).1 := by
      exact_mod_cast nonneg_of_mul_nonneg_left h (two_zpow_pos (min e e'))
    exact normalize_denotes hz _ _

/-- A quotient that is not negative is rounded. -/
theorem div_denotes (hf : Stored f) (hg : Stored g) (h : 0 ≤ unpackedValue f)
    (hpos : 0 < unpackedValue g) :
    ∃ r, Rounds (unpackedValue f / unpackedValue g) r ∧
      Denotes (UnpackedFloat.div .binary64 f g) r := by
  obtain ⟨⟨s', rfl⟩, -⟩ | ⟨m', e', hm', rfl, -⟩ := hg.denotes hpos.le
  · exact absurd hpos (lt_irrefl 0)
  · obtain ⟨⟨s, rfl⟩, -⟩ | ⟨m, e, hm, rfl, -⟩ := hf.denotes h
    · rw [show unpackedValue (.zero s) = 0 from rfl, zero_div]
      exact ⟨0, rounds_zero, Or.inl ⟨⟨_, rfl⟩, rfl⟩⟩
    · rw [unpackedValue_positive, unpackedValue_positive]
      exact divCore_denotes hm hm' e e'

/-- A product of values that are not negative is rounded. -/
theorem mul_denotes (hf : Stored f) (hg : Stored g) (h : 0 ≤ unpackedValue f)
    (h' : 0 ≤ unpackedValue g) :
    ∃ r, Rounds (unpackedValue f * unpackedValue g) r ∧
      Denotes (UnpackedFloat.mul .binary64 f g) r := by
  obtain ⟨⟨s, rfl⟩, -⟩ | ⟨m, e, hm, rfl, hc, -⟩ := hf.denotes h
  · rw [show unpackedValue (.zero s) = 0 from rfl, zero_mul]
    obtain ⟨⟨s', rfl⟩, -⟩ | ⟨m', e', hm', rfl, -⟩ := hg.denotes h' <;>
      exact ⟨0, rounds_zero, Or.inl ⟨⟨_, rfl⟩, rfl⟩⟩
  · obtain ⟨⟨s', rfl⟩, -⟩ | ⟨m', e', hm', rfl, hc', -⟩ := hg.denotes h'
    · rw [show unpackedValue (.zero s') = 0 from rfl, mul_zero]
      exact ⟨0, rounds_zero, Or.inl ⟨⟨_, rfl⟩, rfl⟩⟩
    · have hpos : 0 < m * m' := Nat.mul_pos hm hm'
      have hvalue : (m * 2 ^ e * (m' * 2 ^ e') : ℚ) = (m * m' : ℕ) * 2 ^ (e + e') := by
        rw [two_zpow_add]
        push_cast
        ring
      -- one of the mantissas has all its places, or both exponents are the least one
      have hplace : e + e' ≤ lastPlace ((m * m' : ℕ) * 2 ^ (e + e') : ℚ) := by
        unfold lastPlace
        rw [log_mul_zpow hpos]
        have hfull (h : 2 ^ 52 ≤ m * m') : 52 ≤ (m * m').log2 := (Nat.le_log2 hpos.ne').mpr h
        rcases hc.full with hm52 | rfl
        · have := hfull (hm52.trans (Nat.le_mul_of_pos_right m hm'))
          omega
        · rcases hc'.full with hm52 | rfl
          · have := hfull (hm52.trans (Nat.le_mul_of_pos_left m' hm))
            omega
          · omega
      rw [unpackedValue_positive, unpackedValue_positive, hvalue]
      exact roundWithAccuracy_denotes (represents_exact _) (Nat.cast_pos.mpr hpos) hplace

variable {x y : Float}

/-- A difference of finite floats that is not negative holds its rounded value. -/
theorem sub_holds (hx : x.isFinite = true) (hy : y.isFinite = true) (h : value y ≤ value x) :
    ∃ r, Rounds (value x - value y) r ∧ Holds (x - y) r := by
  obtain ⟨r, hr, hdenotes⟩ := sub_denotes (stored hx) (stored hy) h
  exact ⟨r, hr, holds_of_denotes rfl hdenotes⟩

theorem add_holds (hx : x.isFinite = true) (hy : y.isFinite = true) (h : 0 ≤ value x + value y) :
    ∃ r, Rounds (value x + value y) r ∧ Holds (x + y) r := by
  obtain ⟨r, hr, hdenotes⟩ := add_denotes (stored hx) (stored hy) h
  exact ⟨r, hr, holds_of_denotes rfl hdenotes⟩

theorem div_holds (hx : x.isFinite = true) (hy : y.isFinite = true) (h : 0 ≤ value x)
    (hpos : 0 < value y) : ∃ r, Rounds (value x / value y) r ∧ Holds (x / y) r := by
  obtain ⟨r, hr, hdenotes⟩ := div_denotes (stored hx) (stored hy) h hpos
  exact ⟨r, hr, holds_of_denotes rfl hdenotes⟩

theorem mul_holds (hx : x.isFinite = true) (hy : y.isFinite = true) (h : 0 ≤ value x)
    (h' : 0 ≤ value y) : ∃ r, Rounds (value x * value y) r ∧ Holds (x * y) r := by
  obtain ⟨r, hr, hdenotes⟩ := mul_denotes (stored hx) (stored hy) h h'
  exact ⟨r, hr, holds_of_denotes rfl hdenotes⟩

/-- An infinity stays when a finite float or the same infinity is added. -/
theorem add_infinity (hx : x.isFinite = true ∨ x = Scalar.infinity) :
    x + Scalar.infinity = Scalar.infinity := by
  change Float.ofModel (Float.Model.pack
    (UnpackedFloat.add .binary64 x.toModel.unpack (.infinity .positive))) = Scalar.infinity
  rcases hx with hx | rfl
  · obtain ⟨s, hs⟩ | ⟨s, m, e, hm, hs, -⟩ := stored hx <;> rw [hs] <;> rfl
  · rfl

theorem infinity_add (hx : x.isFinite = true ∨ x = Scalar.infinity) :
    Scalar.infinity + x = Scalar.infinity := by
  change Float.ofModel (Float.Model.pack
    (UnpackedFloat.add .binary64 (.infinity .positive) x.toModel.unpack)) = Scalar.infinity
  rcases hx with hx | rfl
  · obtain ⟨s, hs⟩ | ⟨s, m, e, hm, hs, -⟩ := stored hx <;> rw [hs] <;> rfl
  · rfl

end Operations

end PatchSearch.FloatOrder
