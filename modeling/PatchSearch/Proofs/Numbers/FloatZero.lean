import PatchSearch.Proofs.Numbers.FloatBounds

/-!
Zeros. A float is what it unpacks to, so an operation that leaves an unpacked float as it is leaves
the float as it is. Taking away a zero is one of these, for every float but the negative zero; and a
sum is no negative zero unless its second term is one, as sums do not vanish by rounding.
-/
namespace PatchSearch.FloatOrder

open Float.Model (UnpackedFloat Format)
open Float.Model.UnpackedFloat Rounding

section Packing

/-- Packing a mantissa without the implicit bit. -/
theorem pack_small (s : Sign) (M : BitVec 52) (hm : 0 < M.toNat) :
    UnpackedFloat.pack .binary64 (.finite s M.toNat (-1074) hm) =
      packComponents .binary64 s 0#11 M := by
  have hlog : M.toNat.log2 < 52 := (Nat.log2_lt hm.ne').mpr M.isLt
  have hbits : Format.binary64.mantissaBits = 53 := rfl
  unfold UnpackedFloat.pack
  dsimp only
  rw [if_neg (by decide), if_neg (by rw [hbits]; omega)]
  change packComponents .binary64 s 0#11 (BitVec.ofNat 52 M.toNat) = _
  rw [BitVec.ofNat_toNat, BitVec.setWidth_eq]

/-- Packing a mantissa with the implicit bit. -/
theorem pack_large (s : Sign) (E : BitVec 11) (M : BitVec 52) (hE : E.toNat < 2047)
    (hm : 0 < (1#1 ++ M).toNat) :
    UnpackedFloat.pack .binary64 (.finite s (1#1 ++ M).toNat (E.toNat - 1075) hm) =
      packComponents .binary64 s E M := by
  have hM : M.toNat < 2 ^ 52 := M.isLt
  have hvalue := toNat_implicit M
  have hlog : (1#1 ++ M).toNat.log2 = 52 := by
    rw [Nat.log2_eq_iff hm.ne', hvalue]
    omega
  have hbits : Format.binary64.mantissaBits = 53 := rfl
  have hbiased : ((E.toNat : ℤ) - 1075 + Format.binary64.exponentBias +
      Format.binary64.mantissaBitsWithoutImplicit).toNat = E.toNat := by
    have hbias : (Format.binary64.exponentBias : ℤ) = 1023 := rfl
    have hplaces : (Format.binary64.mantissaBitsWithoutImplicit : ℤ) = 52 := rfl
    omega
  have hwidth : 2 ^ Format.binary64.exponentBits = 2048 := rfl
  unfold UnpackedFloat.pack
  dsimp only
  rw [hbiased, if_neg (by rw [hwidth]; omega), if_pos (by rw [hlog, hbits])]
  change packComponents .binary64 s (BitVec.ofNat 11 E.toNat)
    (BitVec.ofNat 52 (1#1 ++ M).toNat) = _
  have hmantissa : BitVec.ofNat 52 (1#1 ++ M).toNat = M := by
    apply BitVec.eq_of_toNat_eq
    rw [BitVec.toNat_ofNat, hvalue]
    omega
  rw [hmantissa, BitVec.ofNat_toNat, BitVec.setWidth_eq]

variable (b : BitVec Format.binary64.numBits)

/-- Bits are put together again from their parts. -/
theorem packComponents_unpack :
    packComponents .binary64 (.ofBitVec (unpackSign b)) (unpackExponent b) (unpackMantissa b) =
      b := by
  have hsign : (Sign.ofBitVec (unpackSign b)).toBitVec = unpackSign b := by
    have hbit : ∀ v : BitVec 1, (Sign.ofBitVec v).toBitVec = v := by decide
    exact hbit _
  have hlt : b.toNat < 2 ^ 64 := b.isLt
  have hexponent := toNat_unpackExponent b
  have hmantissa := toNat_unpackMantissa b
  have hbit := toNat_unpackSign b
  unfold packComponents
  rw [hsign]
  apply BitVec.eq_of_toNat_eq
  change (unpackSign b ++ unpackExponent b ++ unpackMantissa b).toNat = b.toNat
  rw [BitVec.toNat_append, BitVec.toNat_append,
    ← Nat.shiftLeft_add_eq_or_of_lt (unpackExponent b).isLt,
    ← Nat.shiftLeft_add_eq_or_of_lt (unpackMantissa b).isLt, Nat.shiftLeft_eq, Nat.shiftLeft_eq,
    hexponent, hmantissa, hbit]
  change (b.toNat / 2 ^ 63 * 2 ^ 11 + b.toNat / 2 ^ 52 % 2 ^ 11) * 2 ^ 52 + b.toNat % 2 ^ 52 = _
  omega

/-- Packing what valid bits stand for gives the bits. -/
theorem pack_unpack (h : Format.binary64.Valid b) :
    UnpackedFloat.pack .binary64 (UnpackedFloat.unpack .binary64 b) = b := by
  have hparts := packComponents_unpack b
  have hmantissa : (unpackMantissa b).toNat < 2 ^ 52 := (unpackMantissa b).isLt
  have hlargest : (unpackExponent b).toNat < 2 ^ 11 := (unpackExponent b).isLt
  rw [unpack_eq]
  split
  · next he =>
    split
    · next hm =>
      rw [he, hm] at hparts
      exact hparts
    · next hm => exact (h.eq_packedNaN he hm).symm
  · next he =>
    split
    · next hzero =>
      split
      · next hm =>
        rw [hzero, hm] at hparts
        exact hparts
      · next hm => exact (pack_small _ _ _).trans (by rwa [hzero] at hparts)
    · next hpos =>
      refine (pack_large _ _ _ ?_ _).trans hparts
      rw [toNat_unpackExponent]
      rw [exponent_eq_highest_iff, not_not] at he
      omega

end Packing

section Zeros

variable {x y z : Float}

/-- A float that is packed from what another one unpacks to is that float. -/
theorem ofModel_pack_unpack (x : Float) : Float.ofModel (.pack x.toModel.unpack) = x := by
  obtain ⟨⟨bits, hvalid⟩⟩ := x
  have hbits := pack_unpack bits.toBitVec hvalid
  unfold Float.Model.pack Float.Model.unpack
  simp only [hbits, UInt64.ofBitVec_toBitVec]

/-- A float is a zero. -/
def IsZero (z : Float) : Prop :=
  ∃ s, z.toModel.unpack = .zero s

/-- The float is not the negative zero. -/
def Unsunk (x : Float) : Prop :=
  x.toModel.unpack ≠ .zero .negative

/-- Taking away a zero changes nothing but the negative zero. -/
theorem Unsunk.sub_zero (hx : Unsunk x) (hz : IsZero z) : x - z = x := by
  obtain ⟨s', hz⟩ := hz
  have hsame : UnpackedFloat.sub .binary64 x.toModel.unpack z.toModel.unpack =
      x.toModel.unpack := by
    rw [hz]
    unfold Unsunk at hx
    cases hunpacked : x.toModel.unpack with
    | notANumber => rfl
    | infinity s => rfl
    | finite s m e hm => rfl
    | zero s =>
      cases s with
      | positive => cases s' <;> rfl
      | negative => exact absurd hunpacked hx
  change Float.ofModel (.pack (UnpackedFloat.sub .binary64 _ _)) = x
  rw [hsame, ofModel_pack_unpack]

/-- A finite float times a zero is a zero. -/
theorem isZero_mul (hx : x.isFinite = true) (hz : IsZero z) : IsZero (x * z) := by
  obtain ⟨s', hz⟩ := hz
  have hzero : ∃ s, UnpackedFloat.mul .binary64 x.toModel.unpack z.toModel.unpack = .zero s := by
    rw [hz]
    obtain ⟨s, hs⟩ | ⟨s, m, e, hm, hs, -⟩ := stored hx <;> rw [hs] <;> exact ⟨_, rfl⟩
  obtain ⟨s, hs⟩ := hzero
  refine ⟨s, ?_⟩
  change UnpackedFloat.unpack .binary64 (UnpackedFloat.pack .binary64
    (UnpackedFloat.mul .binary64 x.toModel.unpack z.toModel.unpack)) = _
  rw [hs]
  exact (unpack_packComponents s 0#11 0#52).trans (by simp)

theorem isZero_of_beq (h : (z == 0.0) = true) : IsZero z := by
  have hzero : (0.0 : Float).toModel.unpack = .zero .positive := rfl
  obtain ⟨-, -, hrank⟩ := (beq_iff z 0.0).mp h
  unfold rank at hrank
  rw [hzero] at hrank
  unfold IsZero
  generalize z.toModel.unpack = f at hrank
  rcases f with (_ | _) | _ | s | ⟨(_ | _), m, e, hm⟩ <;>
    simp [unpackedRank] at hrank ⊢

/-- What rounding makes of a mantissa that is not zero does not vanish, unless its exponent is
below all exponents of floats. -/
theorem round_finite {m : ℕ} (hm : 0 < m) {e : ℤ} (he : -1074 ≤ e) (s : Sign) :
    ∃ m' e' hm', UnpackedFloat.round .binary64 s m e = .finite s m' e' hm' ∧ Canonical m' e' := by
  have hpositive : ∃ m' e' hm', UnpackedFloat.round .binary64 .positive m e =
      .finite .positive m' e' hm' ∧ Canonical m' e' := by
    obtain ⟨r, hr, ⟨-, rfl⟩ | ⟨m', e', hm', hs, hc, -⟩⟩ := round_denotes hm e
    · -- the least positive float is rounded to itself
      have hleast : Canonical 1 (-1074) := ⟨by decide, by decide, by decide, Or.inr rfl⟩
      have hle : ((1 : ℕ) * 2 ^ (-1074 : ℤ) : ℚ) ≤ m * 2 ^ e :=
        mul_le_mul (Nat.cast_le.mpr hm) (zpow_le_zpow_right₀ (by norm_num) he)
          (two_zpow_pos _).le (Nat.cast_nonneg m)
      have hpos := mul_zpow_pos (m := 1) (e := -1074) one_pos
      exact absurd (hleast.rounds.mono hr hpos.le hle) hpos.not_ge
    · exact ⟨m', e', hm', hs, hc⟩
  obtain ⟨m', e', hm', hround, hc⟩ := hpositive
  cases s with
  | positive => exact ⟨m', e', hm', hround, hc⟩
  | negative => exact ⟨m', e', hm', by rw [round_negative, hround], hc⟩

/-- A result of the model that is no negative zero, and large enough for a float. -/
def Rises : UnpackedFloat → Prop
  | .zero s => s = .positive
  | .finite _ m e _ => Canonical m e
  | _ => True

theorem unsunk_of_rises {f : UnpackedFloat}
    (hx : x.toModel.unpack = UnpackedFloat.unpack .binary64 (UnpackedFloat.pack .binary64 f))
    (h : Rises f) : Unsunk x := by
  unfold Unsunk
  rw [hx]
  cases f with
  | notANumber => exact nofun
  | infinity s => cases s <;> exact nofun
  | zero s =>
    obtain rfl : s = .positive := h
    exact nofun
  | finite s m e hm =>
    rw [unpack_pack_finite s hm h]
    split <;> exact nofun

theorem rises_normalize (z : ℤ) {e : ℤ} (he : -1074 ≤ e) :
    Rises (UnpackedFloat.normalize .binary64 z e .positive) := by
  unfold UnpackedFloat.normalize
  split
  · next hlt =>
    have hneg : z < 0 := compare_lt_iff_lt.mp hlt
    obtain ⟨m', e', hm', hround, hc⟩ := round_finite (m := (-z).toNat) (by omega) he .negative
    rw [hround]
    exact hc
  · rfl
  · next hgt =>
    have hpos : 0 < z := compare_gt_iff_gt.mp hgt
    obtain ⟨m', e', hm', hround, hc⟩ := round_finite (m := z.toNat) (by omega) he .positive
    rw [hround]
    exact hc

/-- A sum is the negative zero only if its second term is. -/
theorem Unsunk.add (hy : Unsunk y) (x : Float) : Unsunk (x + y) := by
  refine unsunk_of_rises
    (f := UnpackedFloat.add .binary64 x.toModel.unpack y.toModel.unpack) rfl ?_
  have hstored (z : Float) {s m e hm} (hz : z.toModel.unpack = .finite s m e hm) :
      Canonical m e := by
    have hfinite : z.isFinite = true := by
      change z.toModel.unpack.isFinite = true
      rw [hz]
      rfl
    obtain ⟨s', h⟩ | ⟨s', m', e', hm', h, hc, -⟩ := stored hfinite
    · cases hz.symm.trans h
    · cases hz.symm.trans h
      exact hc
  unfold Unsunk at hy
  cases ha : x.toModel.unpack with
  | notANumber => trivial
  | infinity s =>
    cases hb : y.toModel.unpack with
    | infinity s' => cases s <;> cases s' <;> trivial
    | _ => trivial
  | zero s =>
    cases hb : y.toModel.unpack with
    | zero s' =>
      cases s' with
      | positive => cases s <;> rfl
      | negative => exact absurd hb hy
    | finite s' m' e' hm' => exact hstored y hb
    | _ => trivial
  | finite s m e hm =>
    cases hb : y.toModel.unpack with
    | zero s' => exact hstored x ha
    | finite s' m' e' hm' =>
      exact rises_normalize _ (le_min (hstored x ha).least (hstored y hb).least)
    | _ => trivial

end Zeros

section Signs

/-- An unpacked float without a minus sign. -/
def Upright : UnpackedFloat → Prop
  | .zero s => s = .positive
  | .finite s _ _ _ => s = .positive
  | .infinity s => s = .positive
  | .notANumber => True

/-- Packing adds no sign. -/
theorem Upright.unpack_pack {f : UnpackedFloat} (h : Upright f) :
    Upright (UnpackedFloat.unpack .binary64 (UnpackedFloat.pack .binary64 f)) := by
  have hparts (E : BitVec 11) (M : BitVec 52) :
      Upright (UnpackedFloat.unpack .binary64 (packComponents .binary64 .positive E M)) := by
    rw [unpack_packComponents]
    split
    · split
      · rfl
      · trivial
    · split
      · split <;> rfl
      · rfl
  cases f with
  | notANumber => exact hparts _ _
  | infinity s =>
    obtain rfl : s = .positive := h
    exact hparts _ _
  | zero s =>
    obtain rfl : s = .positive := h
    exact hparts _ _
  | finite s m e hm =>
    obtain rfl : s = .positive := h
    unfold UnpackedFloat.pack
    dsimp only
    split
    · exact hparts _ _
    · split
      · exact hparts _ _
      · exact hparts _ _

theorem upright_round (m : ℕ) (e : ℤ) (acc : Accuracy) :
    Upright (roundWithAccuracy .binary64 .positive m e acc) := by
  unfold roundWithAccuracy
  dsimp only
  split <;> rfl

theorem upright_normalize {z : ℤ} (hz : 0 ≤ z) (e : ℤ) :
    Upright (UnpackedFloat.normalize .binary64 z e .positive) := by
  unfold UnpackedFloat.normalize
  split
  · next hlt => exact absurd (compare_lt_iff_lt.mp hlt) hz.not_gt
  · rfl
  · exact upright_round ..

variable {f g : UnpackedFloat}

theorem Upright.mul (hf : Upright f) (hg : Upright g) :
    Upright (UnpackedFloat.mul .binary64 f g) := by
  cases f <;> cases g <;> unfold Upright at hf hg <;> first | trivial | subst hf hg
  all_goals first | rfl | exact upright_round ..

theorem Upright.div (hf : Upright f) (hg : Upright g) :
    Upright (UnpackedFloat.div .binary64 f g) := by
  cases f <;> cases g <;> unfold Upright at hf hg <;> first | trivial | subst hf hg
  all_goals first | rfl | exact upright_round ..

/-- Counts have no sign. -/
theorem upright_ofNat (n : ℕ) : Upright (Float.ofNat n).toModel.unpack := by
  by_cases h : n < 2 ^ 53
  · have hcount : Upright n.toUInt64.toFloat.toModel.unpack :=
      Upright.unpack_pack (upright_normalize (Int.natCast_nonneg _) 0)
    have hone : Upright (1.0 : Float).toModel.unpack := by
      have hunpack :
          (1.0 : Float).toModel.unpack = .finite .positive (2 ^ 52) (-52) (by decide) := rfl
      rw [hunpack]
      rfl
    rw [ofNat_eq_mul_one h]
    exact Upright.unpack_pack (hcount.mul hone)
  · rw [unpack_ofNat (not_lt.mp h)]
    exact (upright_round (n <<< 53 * 1) (-53) .exact).unpack_pack

/-- A share of counts is no negative zero. -/
theorem unsunk_proportion (m n : ℕ) : Unsunk (proportion m n : Float) := by
  have hshare : Upright (proportion m n : Float).toModel.unpack :=
    Upright.unpack_pack ((upright_ofNat m).div (upright_ofNat n))
  intro hzero
  rw [hzero] at hshare
  cases hshare

end Signs

end PatchSearch.FloatOrder
