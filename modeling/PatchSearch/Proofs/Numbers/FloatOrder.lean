import Mathlib
import PatchSearch.Proofs.SortedList
import PatchSearch.Scalar

/-!
The order of floats and the values that are no number. Comparisons unpack a float into its sign,
mantissa and exponent, so every number has a rank in a lexicographic order of integers, and two
floats compare as their ranks do unless one of them is no number. Packing rounds a number to a
number, so products of finite values and quotients of one are numbers too.
-/
namespace PatchSearch.FloatOrder

open Float.Model (UnpackedFloat Format)

/-- The rank of an unpacked number: its class, then its signed exponent, then its signed
mantissa. -/
def unpackedRank : UnpackedFloat → ℤ ×ₗ ℤ ×ₗ ℤ
  | .notANumber => toLex (3, toLex (0, 0))
  | .infinity .negative => toLex (-2, toLex (0, 0))
  | .infinity .positive => toLex (2, toLex (0, 0))
  | .zero _ => toLex (0, toLex (0, 0))
  | .finite .negative m e _ => toLex (-1, toLex (-e, -(m : ℤ)))
  | .finite .positive m e _ => toLex (1, toLex (e, (m : ℤ)))

private theorem lex_lt_iff (a b : ℤ ×ₗ ℤ ×ₗ ℤ) :
    a < b ↔ (ofLex a).1 < (ofLex b).1 ∨ (ofLex a).1 = (ofLex b).1 ∧
      ((ofLex (ofLex a).2).1 < (ofLex (ofLex b).2).1 ∨
        (ofLex (ofLex a).2).1 = (ofLex (ofLex b).2).1 ∧
          (ofLex (ofLex a).2).2 < (ofLex (ofLex b).2).2) := by
  rw [Prod.Lex.lt_iff, Prod.Lex.lt_iff]

theorem unpacked_lt_iff (a b : UnpackedFloat) :
    a.lt b = true ↔
      a.isNaN = false ∧ b.isNaN = false ∧ unpackedRank a < unpackedRank b := by
  rcases a with (_ | _) | _ | (_ | _) | ⟨(_ | _), m, e, h⟩ <;>
  rcases b with (_ | _) | _ | (_ | _) | ⟨(_ | _), m', e', h'⟩ <;>
  simp [UnpackedFloat.lt, UnpackedFloat.compare, UnpackedFloat.isNaN, unpackedRank, lex_lt_iff,
    Ordering.then_eq_lt, Ordering.then_eq_gt, compare_lt_iff_lt, compare_gt_iff_gt]
  rfl

theorem unpacked_beq_iff (a b : UnpackedFloat) :
    a.beq b = true ↔
      a.isNaN = false ∧ b.isNaN = false ∧ unpackedRank a = unpackedRank b := by
  rcases a with (_ | _) | _ | (_ | _) | ⟨(_ | _), m, e, h⟩ <;>
  rcases b with (_ | _) | _ | (_ | _) | ⟨(_ | _), m', e', h'⟩ <;>
  simp [UnpackedFloat.beq, UnpackedFloat.compare, UnpackedFloat.isNaN, unpackedRank,
    Ordering.then_eq_eq] <;> rfl

/-- `a ≤ b` means that `a < b` or that both have the same rank. -/
theorem unpacked_le_iff (a b : UnpackedFloat) :
    a.le b = true ↔ a.lt b = true ∨ a.beq b = true := by
  unfold UnpackedFloat.le UnpackedFloat.lt UnpackedFloat.beq
  cases a.compare b with
  | none => simp
  | some o => cases o <;> simp

/-- The rank of a float. -/
def rank (x : Float) : ℤ ×ₗ ℤ ×ₗ ℤ :=
  unpackedRank x.toModel.unpack

theorem lt_iff (x y : Float) :
    x < y ↔ x.isNaN = false ∧ y.isNaN = false ∧ rank x < rank y := by
  have hlt : x < y ↔ x.toModel.unpack.lt y.toModel.unpack = true := by
    change decide (_ = true) = true ↔ _
    rw [decide_eq_true_iff]
    rfl
  exact hlt.trans (unpacked_lt_iff x.toModel.unpack y.toModel.unpack)

theorem beq_iff (x y : Float) :
    (x == y) = true ↔ x.isNaN = false ∧ y.isNaN = false ∧ rank x = rank y :=
  unpacked_beq_iff x.toModel.unpack y.toModel.unpack

theorem le_iff (x y : Float) :
    x ≤ y ↔ x.isNaN = false ∧ y.isNaN = false ∧ rank x ≤ rank y := by
  have hle : x ≤ y ↔ x.toModel.unpack.le y.toModel.unpack = true := by
    change decide (_ = true) = true ↔ _
    rw [decide_eq_true_iff]
    rfl
  rw [hle, unpacked_le_iff, unpacked_lt_iff, unpacked_beq_iff, ← and_or_left, ← and_or_left,
    ← le_iff_lt_or_eq]
  rfl

theorem self_le (x : Float) (h : x.isNaN = false) : x ≤ x := by
  rw [le_iff]
  exact ⟨h, h, le_rfl⟩

theorem le_trans {x y z : Float} (hxy : x ≤ y) (hyz : y ≤ z) : x ≤ z := by
  rw [le_iff] at hxy hyz ⊢
  exact ⟨hxy.1, hyz.2.1, hxy.2.2.trans hyz.2.2⟩

theorem le_of_lt {x y : Float} (h : x < y) : x ≤ y := by
  rw [lt_iff] at h
  rw [le_iff]
  exact ⟨h.1, h.2.1, h.2.2.le⟩

theorem lt_irrefl (x : Float) : ¬ x < x := by
  rw [lt_iff]
  exact fun h => h.2.2.false

theorem lt_of_lt_of_le {x y z : Float} (hxy : x < y) (hyz : y ≤ z) : x < z := by
  rw [lt_iff] at hxy ⊢
  rw [le_iff] at hyz
  exact ⟨hxy.1, hyz.2.1, hxy.2.2.trans_le hyz.2.2⟩

/-- Two numbers that are not in order are in the opposite order. -/
theorem le_of_not_lt {x y : Float} (hx : x.isNaN = false) (hy : y.isNaN = false)
    (h : ¬ x < y) : y ≤ x := by
  rw [lt_iff] at h
  rw [le_iff]
  exact ⟨hy, hx, not_lt.mp fun hlt => h ⟨hx, hy, hlt⟩⟩

theorem beq_of_le_of_not_lt {x y : Float} (hle : x ≤ y) (hlt : ¬ x < y) : (x == y) = true := by
  rw [le_iff] at hle
  rw [lt_iff] at hlt
  rw [beq_iff]
  exact ⟨hle.1, hle.2.1, hle.2.2.eq_or_lt.resolve_right fun h => hlt ⟨hle.1, hle.2.1, h⟩⟩

/-- The total order is that of places. -/
theorem totalLE_iff (x y : Float) : Scalar.totalLE x y = true ↔ floatPlace x ≤ floatPlace y := by
  change (compare (floatPlace x) (floatPlace y)).isLE = true ↔ _
  rw [Int.isLE_compare]

/-- Every float has a place of its own. -/
theorem floatPlace_inj {x y : Float} : floatPlace x = floatPlace y ↔ x = y := by
  refine ⟨fun h => ?_, congrArg floatPlace⟩
  have hbits : x.toBits = y.toBits := by
    apply UInt64.toNat_inj.mp
    unfold floatPlace at h
    dsimp only at h
    split at h <;> split at h <;> omega
  obtain ⟨⟨bits, hvalid⟩⟩ := x
  obtain ⟨⟨bits', hvalid'⟩⟩ := y
  obtain rfl : bits = bits' := hbits
  rfl

/-- The total order of floats is linear: floats that come no later than each other are the same. -/
theorem orders_totalLE : Orders (Scalar.totalLE : Float → Float → Bool) :=
  .of_key (fun _ _ => floatPlace_inj.mp) totalLE_iff

section NumberFacts

private theorem isNaN_unpack_iff (b : BitVec Format.binary64.numBits) :
    (UnpackedFloat.unpack .binary64 b).isNaN = true ↔
      UnpackedFloat.unpackExponent b = -1#_ ∧ UnpackedFloat.unpackMantissa b ≠ 0#_ := by
  unfold UnpackedFloat.unpack
  dsimp only
  split
  · next he =>
    split
    · next hm => simp [he, hm, UnpackedFloat.isNaN]
    · next hm => simpa [he, UnpackedFloat.isNaN] using hm
  · next he =>
    split
    · next hz =>
      split
      · simpa [UnpackedFloat.isNaN] using fun h => absurd h he
      · simpa [UnpackedFloat.isNaN] using fun h => absurd h he
    · simpa [UnpackedFloat.isNaN] using fun h => absurd h he

/-- Packing a number and unpacking it again gives a number: rounding may end in an infinity but
not outside the numbers. -/
private theorem isNaN_unpack_pack (f : UnpackedFloat) (h : f.isNaN = false) :
    (UnpackedFloat.unpack .binary64 (UnpackedFloat.pack .binary64 f)).isNaN = false := by
  rw [Bool.eq_false_iff, Ne, isNaN_unpack_iff]
  rintro ⟨he, hm⟩
  cases f with
  | notANumber => cases h
  | infinity s => simp [UnpackedFloat.pack, UnpackedFloat.packedInfinity] at hm
  | zero s => simp [UnpackedFloat.pack, UnpackedFloat.packedZero] at hm
  | finite s m e hpos =>
    unfold UnpackedFloat.pack at he hm
    dsimp only at he hm
    split at he
    · next hbig =>
      rw [if_pos hbig] at hm
      simp [UnpackedFloat.packedInfinity] at hm
    · next hbig =>
      split at he
      · have hval := congrArg BitVec.toNat he
        simp at hval
        omega
      · have hval := congrArg BitVec.toNat he
        simp at hval

private theorem isNaN_round (spec : Format) (s : UnpackedFloat.Sign) (m : Nat) (e : Int)
    (acc : UnpackedFloat.Accuracy) :
    (UnpackedFloat.roundWithAccuracy spec s m e acc).isNaN = false := by
  unfold UnpackedFloat.roundWithAccuracy
  dsimp only
  split <;> rfl

private theorem zero_or_finite (a : UnpackedFloat) (h : a.isFinite = true) :
    (∃ s, a = .zero s) ∨ ∃ s m e hm, a = .finite s m e hm := by
  cases a with
  | infinity s => cases h
  | notANumber => cases h
  | zero s => exact Or.inl ⟨s, rfl⟩
  | finite s m e hm => exact Or.inr ⟨s, m, e, hm, rfl⟩

private theorem isNaN_mul_unpacked (spec : Format) (a b : UnpackedFloat)
    (ha : a.isFinite = true) (hb : b.isFinite = true) :
    (UnpackedFloat.mul spec a b).isNaN = false := by
  obtain ⟨s, rfl⟩ | ⟨s, m, e, hm, rfl⟩ := zero_or_finite a ha <;>
  obtain ⟨s', rfl⟩ | ⟨s', m', e', hm', rfl⟩ := zero_or_finite b hb
  · rfl
  · rfl
  · rfl
  · exact isNaN_round ..

/-- Any number times a number other than zero gives a number. -/
private theorem isNaN_mul_finite (spec : Format) (a : UnpackedFloat) (ha : a.isNaN = false)
    (s : UnpackedFloat.Sign) (m : Nat) (e : Int) (hm : 0 < m) :
    (UnpackedFloat.mul spec a (.finite s m e hm)).isNaN = false := by
  cases a with
  | infinity s' => rfl
  | notANumber => cases ha
  | zero s' => rfl
  | finite s' m' e' hm' => exact isNaN_round ..

/-- A number other than zero, divided by any number, gives a number. -/
private theorem isNaN_div_unpacked (spec : Format) (s : UnpackedFloat.Sign) (m : Nat) (e : Int)
    (hm : 0 < m) (b : UnpackedFloat) (hb : b.isNaN = false) :
    (UnpackedFloat.div spec (.finite s m e hm) b).isNaN = false := by
  cases b with
  | infinity s' => rfl
  | notANumber => cases hb
  | zero s' => rfl
  | finite s' m' e' hm' => exact isNaN_round ..

private theorem isNaN_ofScientific (spec : Format) (m : Nat) (e : Int) :
    (UnpackedFloat.ofScientific spec m e).isNaN = false := by
  unfold UnpackedFloat.ofScientific
  split
  · rfl
  · split
    · rfl
    · split
      · rfl
      · split
        · exact isNaN_mul_unpacked _ _ _ rfl rfl
        · exact isNaN_div_unpacked _ _ _ _ _ _ rfl

private theorem isNaN_ofNat_unpacked (spec : Format) (n : Nat) :
    (UnpackedFloat.ofNat spec n).isNaN = false := by
  unfold UnpackedFloat.ofNat UnpackedFloat.ofInt UnpackedFloat.normalize
  split
  · exact isNaN_round ..
  · rfl
  · exact isNaN_round ..

private theorem unpack_one :
    (1.0 : Float).toModel.unpack = .finite .positive (2 ^ 52) (-52) (by decide) := rfl

theorem isNaN_of_isFinite (x : Float) (h : x.isFinite = true) : x.isNaN = false := by
  change x.toModel.unpack.isFinite = true at h
  change x.toModel.unpack.isNaN = false
  obtain ⟨s, hx⟩ | ⟨s, m, e, hm, hx⟩ := zero_or_finite _ h
  · rw [hx]
    rfl
  · rw [hx]
    rfl

theorem isNaN_mul (x y : Float) (hx : x.isFinite = true) (hy : y.isFinite = true) :
    (x * y).isNaN = false :=
  isNaN_unpack_pack _ (isNaN_mul_unpacked _ _ _ hx hy)

theorem isNaN_one_div (y : Float) (hy : y.isNaN = false) : (1.0 / y).isNaN = false := by
  apply isNaN_unpack_pack
  rw [unpack_one]
  exact isNaN_div_unpacked _ _ _ _ _ _ hy

theorem isNaN_ofNat (n : Nat) : (Float.ofNat n).isNaN = false := by
  change (Float.ofScientific n false 0).isNaN = false
  unfold Float.ofScientific
  split
  · next h =>
    apply isNaN_unpack_pack
    change (UnpackedFloat.mul .binary64 _ (1.0 : Float).toModel.unpack).isNaN = false
    rw [unpack_one]
    exact isNaN_mul_finite _ _ (isNaN_unpack_pack _ (isNaN_ofNat_unpacked _ _)) _ _ _ _
  · exact isNaN_unpack_pack _ (isNaN_ofScientific _ _ _)

/-- A positive number up to one is finite and no zero. -/
private theorem finite_of_unit {x : Float} (hpos : 0.0 < x) (hone : x ≤ 1.0) :
    ∃ m e hm, x.toModel.unpack = .finite .positive m e hm := by
  obtain ⟨-, hx, hlow⟩ := (lt_iff _ _).mp hpos
  obtain ⟨-, -, hhigh⟩ := (le_iff _ _).mp hone
  unfold rank at hlow hhigh
  rw [show (0.0 : Float).toModel.unpack = .zero .positive from rfl] at hlow
  rw [unpack_one] at hhigh
  rw [lex_lt_iff] at hlow
  rw [← not_lt, lex_lt_iff] at hhigh
  cases h : x.toModel.unpack with
  | infinity s => cases s <;> simp [h, unpackedRank] at hlow hhigh
  | notANumber => simp [h, unpackedRank] at hhigh
  | zero s => simp [h, unpackedRank] at hlow
  | finite s m e hm =>
    cases s with
    | negative => simp [h, unpackedRank] at hlow
    | positive => exact ⟨m, e, hm, rfl⟩

/-- A positive number up to one, times any number, gives a number: none is only made of a zero
and an infinity. -/
theorem isNaN_mul_of_unit {x y : Float} (hpos : 0.0 < x) (hone : x ≤ 1.0)
    (hy : y.isNaN = false) : (x * y).isNaN = false := by
  obtain ⟨m, e, hm, hx⟩ := finite_of_unit hpos hone
  apply isNaN_unpack_pack
  rw [hx]
  cases h : y.toModel.unpack with
  | infinity s => rfl
  | notANumber =>
    rw [show y.isNaN = y.toModel.unpack.isNaN from rfl, h] at hy
    cases hy
  | zero s => rfl
  | finite s m' e' hm' => exact isNaN_round ..

/-- What is no number stays so under any factor. -/
theorem isNaN_mul_of_isNaN (x : Float) {y : Float} (hy : y.isNaN = true) :
    (x * y).isNaN = true := by
  have hunpack : y.toModel.unpack = .notANumber := by
    cases h : y.toModel.unpack with
    | notANumber => rfl
    | _ =>
      rw [show y.isNaN = y.toModel.unpack.isNaN from rfl, h] at hy
      cases hy
  change (UnpackedFloat.unpack .binary64 (UnpackedFloat.pack .binary64
    (UnpackedFloat.mul .binary64 x.toModel.unpack y.toModel.unpack))).isNaN = true
  rw [hunpack]
  have hmul : UnpackedFloat.mul .binary64 x.toModel.unpack .notANumber = .notANumber := by
    cases x.toModel.unpack <;> rfl
  rw [hmul]
  decide +kernel

end NumberFacts

/-- The smaller of two values is a number and no larger than the first, if that is a number. -/
theorem lesser_le (best x : Float) (h : best.isNaN = false) :
    (Scalar.lesser best x).isNaN = false ∧ Scalar.lesser best x ≤ best := by
  unfold Scalar.lesser
  split
  · next hlt =>
    have hlt : x < best := hlt
    exact ⟨((lt_iff x best).mp hlt).1, le_of_lt hlt⟩
  · exact ⟨h, self_le best h⟩

/-- The smaller of two numbers is no larger than the second. -/
theorem lesser_le_right {best x : Float} (hbest : best.isNaN = false) (hx : x.isNaN = false) :
    Scalar.lesser best x ≤ x := by
  unfold Scalar.lesser
  split
  · exact self_le x hx
  · next hlt => exact le_of_not_lt hx hbest hlt

/-- Numbers that are in order both ways are equal. -/
theorem beq_of_le_of_le {x y : Float} (hxy : x ≤ y) (hyx : y ≤ x) : (x == y) = true := by
  rw [le_iff] at hxy hyx
  rw [beq_iff]
  exact ⟨hxy.1, hxy.2.1, hxy.2.2.antisymm hyx.2.2⟩

end PatchSearch.FloatOrder
