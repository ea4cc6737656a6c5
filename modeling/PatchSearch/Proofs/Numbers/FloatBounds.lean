import PatchSearch.Proofs.Numbers.FloatValue
import PatchSearch.Fault

/-!
Bounds on the arithmetic of floats. Weighting a share, adding and taking away keep the results
within bounds that are rounded as they are, sums of shares stop growing at 2⁵³, and a share of
counts or a mean of shares lies between zero and one, unless it is no number because the counts
are larger than any float. An operation with an operand that is no number gives no number.
-/
namespace PatchSearch.FloatOrder

open Float.Model (UnpackedFloat Format)
open Float.Model.UnpackedFloat Rounding

section Counts

variable {n m : ℕ} {x : Float} {r : ℚ}

theorem limit_nonneg : 0 ≤ limit :=
  mul_nonneg (Nat.cast_nonneg _) (two_zpow_pos _).le

/-- A float above every finite one. -/
def Overflows (x : Float) : Prop :=
  x.toModel.unpack = .infinity .positive

theorem Overflows.isFinite (h : Overflows x) : x.isFinite = false := by
  change x.toModel.unpack.isFinite = false
  rw [h]
  rfl

theorem overflows_of_infinity {f : UnpackedFloat}
    (hx : x.toModel.unpack = UnpackedFloat.unpack .binary64 (UnpackedFloat.pack .binary64 f))
    (h : f = .infinity .positive) : Overflows x := by
  rw [Overflows, hx, h]
  rfl

/-- A result of the model that is too large for a finite float overflows. -/
theorem overflows_of_denotes {f : UnpackedFloat}
    (hx : x.toModel.unpack = UnpackedFloat.unpack .binary64 (UnpackedFloat.pack .binary64 f))
    (h : Denotes f r) (hr : limit < r) : Overflows x := by
  rw [Overflows, hx]
  obtain ⟨-, rfl⟩ | ⟨m, e, hm, rfl, hc, rfl⟩ := h
  · exact absurd hr limit_nonneg.not_gt
  · rw [unpack_pack_finite _ hm hc, if_neg]
    rw [← mul_zpow_le_limit_iff hc]
    exact hr.not_ge

theorem isFinite_one : (1.0 : Float).isFinite = true := rfl

theorem isFinite_zero : (0.0 : Float).isFinite = true := rfl

theorem value_zero : value 0.0 = 0 := by
  have hunpack : (0.0 : Float).toModel.unpack = .zero .positive := rfl
  rw [value, hunpack]
  rfl

theorem value_one : value 1.0 = 1 := by
  have hunpack : (1.0 : Float).toModel.unpack = .finite .positive (2 ^ 52) (-52) (by decide) := rfl
  rw [value, hunpack, unpackedValue_positive]
  norm_num

theorem toFloat_holds (h : n < 2 ^ 53) : Holds n.toUInt64.toFloat n := by
  have hword : n.toUInt64.toNat = n := by
    simp
    omega
  have hunpack : n.toUInt64.toFloat.toModel.unpack = UnpackedFloat.unpack .binary64
      (UnpackedFloat.pack .binary64 (UnpackedFloat.ofNat .binary64 n)) :=
    congrArg (fun k => UnpackedFloat.unpack .binary64 (UnpackedFloat.pack .binary64
      (UnpackedFloat.ofNat .binary64 k))) hword
  obtain ⟨r, hr, hdenotes⟩ := normalize_denotes (Int.natCast_nonneg n) 0 .positive
  rw [zpow_zero, mul_one, Int.cast_natCast] at hr
  rw [(rounds_natCast h).unique hr n.cast_nonneg]
  exact holds_of_denotes hunpack hdenotes

theorem ofNat_eq_mul_one (h : n < 2 ^ 53) : Float.ofNat n = n.toUInt64.toFloat * 1.0 := by
  change Float.ofScientific n false 0 = _
  unfold Float.ofScientific
  rw [dif_pos ⟨h, by omega⟩]
  rfl

/-- Counts of 53 binary places are floats. -/
theorem ofNat_holds (h : n < 2 ^ 53) : Holds (Float.ofNat n) n := by
  obtain ⟨hfinite, hvalue⟩ := (toFloat_holds h).1 (natCast_le_limit h)
  obtain ⟨r, hr, hholds⟩ := mul_holds hfinite isFinite_one (hvalue.symm ▸ n.cast_nonneg)
    (value_one.symm ▸ zero_le_one)
  rw [hvalue, value_one, mul_one] at hr
  rwa [ofNat_eq_mul_one h, (rounds_natCast h).unique hr n.cast_nonneg]

/-- What a larger count unpacks to. -/
theorem unpack_ofNat (h : 2 ^ 53 ≤ n) :
    (Float.ofNat n).toModel.unpack =
      UnpackedFloat.unpack .binary64 (UnpackedFloat.pack .binary64
        (roundWithAccuracy .binary64 .positive (n <<< 53 * 1) (-53) .exact)) := by
  have hpos : n ≠ 0 := by omega
  have hlow : ¬ (0 : ℤ) < -(2 ^ Format.binary64.exponentBits + (n.log2 : ℤ)) := by
    have : (0 : ℤ) < 2 ^ Format.binary64.exponentBits := by positivity
    omega
  change (Float.ofScientific n false 0).toModel.unpack = _
  unfold Float.ofScientific
  rw [dif_neg (by omega)]
  change UnpackedFloat.unpack .binary64 (UnpackedFloat.pack .binary64
    (UnpackedFloat.ofScientific .binary64 n 0)) = _
  unfold UnpackedFloat.ofScientific
  rw [dif_neg hpos, if_neg (by decide), if_neg hlow, if_pos le_rfl]
  rfl

/-- A larger count is rounded, and overflows when it is larger than any float. -/
theorem ofNat_rounds (h : 2 ^ 53 ≤ n) :
    ∃ r, Rounds n r ∧ Holds (Float.ofNat n) r ∧ (limit < r → Overflows (Float.ofNat n)) := by
  have hpos : 0 < n := by omega
  have hmantissa : 0 < n <<< 53 * 1 := by
    rw [Nat.shiftLeft_eq]
    omega
  have hvalue : ((n <<< 53 * 1 : ℕ) : ℚ) * 2 ^ (-53 : ℤ) = n := by
    rw [Nat.shiftLeft_eq, mul_one, zpow_neg]
    push_cast
    field_simp
  have hplace : (-53 : ℤ) ≤ lastPlace (((n <<< 53 * 1 : ℕ) : ℚ) * 2 ^ (-53 : ℤ)) := by
    have hlog := log_mul_zpow (e := 0) hpos
    rw [zpow_zero, mul_one] at hlog
    rw [hvalue]
    unfold lastPlace
    omega
  obtain ⟨r, hr, hdenotes⟩ :=
    roundWithAccuracy_denotes (represents_exact _) (Nat.cast_pos.mpr hmantissa) hplace
  rw [hvalue] at hr
  have hunpack := unpack_ofNat h
  exact ⟨r, hr, holds_of_denotes hunpack hdenotes, overflows_of_denotes hunpack hdenotes⟩

end Counts

section Ranges

variable {q q' r r' : ℚ} {x y a b : Float}

/-- A finite float whose value lies between zero and a bound. -/
def Within (q : ℚ) (x : Float) : Prop :=
  x.isFinite = true ∧ 0 ≤ value x ∧ value x ≤ q

theorem Within.mono (h : Within q x) (hle : q ≤ q') : Within q' x :=
  ⟨h.1, h.2.1, h.2.2.trans hle⟩

theorem Within.isNaN (h : Within q x) : x.isNaN = false :=
  isNaN_of_isFinite x h.1

/-- A result that is exactly no larger than another one is so when both are rounded. -/
theorem within_of_holds (hq : 0 ≤ q) (hle : q ≤ q') (hr : Rounds q r) (hr' : Rounds q' r')
    (hlimit : r' ≤ limit) (hx : Holds x r) : Within r' x := by
  have hrr : r ≤ r' := hr.mono hr' hq hle
  obtain ⟨hfinite, hvalue⟩ := hx.1 (hrr.trans hlimit)
  exact ⟨hfinite, hvalue ▸ hr.nonneg, hvalue ▸ hrr⟩

theorem rounds_value (hx : x.isFinite = true) (h : 0 ≤ value x) : Rounds (value x) (value x) :=
  (stored hx).rounds h

/-- A part of a weight is no larger than the weight. -/
theorem Within.mul (ha : a.isFinite = true) (hnonneg : 0 ≤ value a) (hx : Within 1 x) :
    Within (value a) (a * x) := by
  obtain ⟨r, hr, hholds⟩ := mul_holds ha hx.1 hnonneg hx.2.1
  exact within_of_holds (mul_nonneg hnonneg hx.2.1) (mul_le_of_le_one_right hnonneg hx.2.2) hr
    (rounds_value ha hnonneg) (value_le_limit ha) hholds

theorem Within.mul_weight (ha : a.isFinite = true) (hnonneg : 0 ≤ value a) (hx : Within 1 x) :
    Within (value a) (x * a) := by
  obtain ⟨r, hr, hholds⟩ := mul_holds hx.1 ha hx.2.1 hnonneg
  exact within_of_holds (mul_nonneg hx.2.1 hnonneg) (mul_le_of_le_one_left hnonneg hx.2.2) hr
    (rounds_value ha hnonneg) (value_le_limit ha) hholds

/-- Sums keep bounds, as long as the sum of the bounds is finite. -/
theorem Within.add (ha : a.isFinite = true) (hb : b.isFinite = true)
    (hab : (a + b).isFinite = true) (hx : Within (value a) x) (hy : Within (value b) y) :
    Within (value (a + b)) (x + y) := by
  have hxy : 0 ≤ value x + value y := add_nonneg hx.2.1 hy.2.1
  have hle : value x + value y ≤ value a + value b := add_le_add hx.2.2 hy.2.2
  obtain ⟨r, hr, hholds⟩ := add_holds hx.1 hy.1 hxy
  obtain ⟨r', hr', hholds'⟩ := add_holds ha hb (hxy.trans hle)
  have hlimit : r' ≤ limit := hholds'.2 hab
  rw [(hholds'.1 hlimit).2]
  exact within_of_holds hxy hle hr hr' hlimit hholds

/-- What is left of a float after a smaller one is taken away. -/
theorem Within.sub (hx : Within q x) (hy : y.isFinite = true) (hnonneg : 0 ≤ value y)
    (hle : value y ≤ value x) : Within q (x - y) := by
  obtain ⟨r, hr, hholds⟩ := sub_holds hx.1 hy hle
  exact (within_of_holds (sub_nonneg.mpr hle) (sub_le_self _ hnonneg) hr
    (rounds_value hx.1 hx.2.1) (value_le_limit hx.1) hholds).mono hx.2.2

/-- A part divided by the whole. -/
theorem Within.div (hx : Within (value y) x) (hy : y.isFinite = true) (hpos : 0 < value y) :
    Within 1 (x / y) := by
  obtain ⟨r, hr, hholds⟩ := div_holds hx.1 hy hx.2.1 hpos
  have hone : Rounds 1 1 := by exact_mod_cast rounds_natCast (n := 1) (by decide)
  have hlimit : (1 : ℚ) ≤ limit := by exact_mod_cast natCast_le_limit (n := 1) (by decide)
  exact within_of_holds (div_nonneg hx.2.1 hpos.le) ((div_le_one hpos).mpr hx.2.2) hr hone hlimit
    hholds

/-- A finite float divided by one that overflows is zero. -/
theorem Overflows.div (hy : Overflows y) (hx : x.isFinite = true) : Within 0 (x / y) := by
  have hunpack : (x / y).toModel.unpack = UnpackedFloat.unpack .binary64 (UnpackedFloat.pack
      .binary64 (UnpackedFloat.div .binary64 x.toModel.unpack y.toModel.unpack)) :=
    rfl
  have hzero : ∃ s, UnpackedFloat.div .binary64 x.toModel.unpack y.toModel.unpack = .zero s := by
    rw [hy]
    obtain ⟨s, hs⟩ | ⟨s, m, e, hm, hs, -⟩ := stored hx <;> rw [hs] <;> exact ⟨_, rfl⟩
  obtain ⟨hfinite, hvalue⟩ :=
    (holds_of_denotes hunpack (Or.inl ⟨hzero, rfl⟩)).1 limit_nonneg
  exact ⟨hfinite, hvalue.ge, hvalue.le⟩

end Ranges

section NoNumber

variable {x y z : Float}

theorem isNaN_iff (x : Float) : x.isNaN = true ↔ x.toModel.unpack = .notANumber := by
  change x.toModel.unpack.isNaN = true ↔ _
  cases x.toModel.unpack <;> simp [UnpackedFloat.isNaN]

theorem isNaN_of_notANumber {f : UnpackedFloat}
    (hz : z.toModel.unpack = UnpackedFloat.unpack .binary64 (UnpackedFloat.pack .binary64 f))
    (h : f = .notANumber) : z.isNaN = true := by
  rw [isNaN_iff, hz, h]
  rfl

/-- An operation that gives no number when an operand is none has numbers for operands when it
gives one. -/
theorem numbers_of_result {f : UnpackedFloat}
    (hz : z.toModel.unpack = UnpackedFloat.unpack .binary64 (UnpackedFloat.pack .binary64 f))
    (hf : x.toModel.unpack = .notANumber ∨ y.toModel.unpack = .notANumber → f = .notANumber)
    (h : z.isNaN = false) : x.isNaN = false ∧ y.isNaN = false := by
  have hnone (hop : x.isNaN = true ∨ y.isNaN = true) : z.isNaN = true := by
    rw [isNaN_iff, isNaN_iff] at hop
    exact isNaN_of_notANumber hz (hf hop)
  constructor
  · cases hx : x.isNaN with
    | false => rfl
    | true => exact (hnone (Or.inl hx)).symm.trans h
  · cases hy : y.isNaN with
    | false => rfl
    | true => exact (hnone (Or.inr hy)).symm.trans h

theorem numbers_of_add (h : (x + y).isNaN = false) : x.isNaN = false ∧ y.isNaN = false := by
  refine numbers_of_result (z := x + y)
    (f := UnpackedFloat.add .binary64 x.toModel.unpack y.toModel.unpack) rfl ?_ h
  rintro (hx | hy)
  · rw [hx]
    rfl
  · rw [hy]
    cases x.toModel.unpack <;> rfl

theorem numbers_of_sub (h : (x - y).isNaN = false) : x.isNaN = false ∧ y.isNaN = false := by
  refine numbers_of_result (z := x - y)
    (f := UnpackedFloat.sub .binary64 x.toModel.unpack y.toModel.unpack) rfl ?_ h
  rintro (hx | hy)
  · rw [hx]
    rfl
  · rw [hy]
    cases x.toModel.unpack <;> rfl

theorem numbers_of_mul (h : (x * y).isNaN = false) : x.isNaN = false ∧ y.isNaN = false := by
  refine numbers_of_result (z := x * y)
    (f := UnpackedFloat.mul .binary64 x.toModel.unpack y.toModel.unpack) rfl ?_ h
  rintro (hx | hy)
  · rw [hx]
    rfl
  · rw [hy]
    cases x.toModel.unpack <;> rfl

theorem numbers_of_div (h : (x / y).isNaN = false) : x.isNaN = false ∧ y.isNaN = false := by
  refine numbers_of_result (z := x / y)
    (f := UnpackedFloat.div .binary64 x.toModel.unpack y.toModel.unpack) rfl ?_ h
  rintro (hx | hy)
  · rw [hx]
    rfl
  · rw [hy]
    cases x.toModel.unpack <;> rfl

theorem number_of_neg (h : (-x).isNaN = false) : x.isNaN = false := by
  refine (numbers_of_result (x := x) (y := x) (z := -x)
    (f := UnpackedFloat.neg x.toModel.unpack) rfl ?_ h).1
  rintro (hx | hx) <;> rw [hx] <;> rfl

/-- A sum is a number only if all its summands are. -/
theorem numbers_of_foldl {xs : List Float} {start : Float}
    (h : (xs.foldl (· + ·) start).isNaN = false) :
    start.isNaN = false ∧ ∀ x ∈ xs, x.isNaN = false := by
  induction xs generalizing start with
  | nil => exact ⟨h, nofun⟩
  | cons x xs ih =>
    obtain ⟨hsum, hrest⟩ := ih h
    obtain ⟨hstart, hx⟩ := numbers_of_add hsum
    exact ⟨hstart, List.forall_mem_cons.mpr ⟨hx, hrest⟩⟩

end NoNumber

section Signs

variable {x y z : Float} {q : ℚ}

/-- A float that is not below zero is finite with a value that is not, or overflows. -/
theorem nonneg_or_overflows (hx : x.isNaN = false) (h : ¬ x < 0.0) :
    x.isFinite = true ∧ 0 ≤ value x ∨ Overflows x := by
  have hzero : (0.0 : Float).isFinite = true := rfl
  have hvalue : value 0.0 = 0 := rfl
  have hle : (0.0 : Float) ≤ x := le_of_not_lt hx rfl h
  cases hfinite : x.isFinite with
  | true =>
    refine Or.inl ⟨rfl, ?_⟩
    rwa [le_iff_value_le hzero hfinite, hvalue] at hle
  | false =>
    refine Or.inr ?_
    have hrank := ((le_iff _ _).mp hle).2.2
    unfold Overflows
    change x.toModel.unpack.isNaN = false at hx
    change x.toModel.unpack.isFinite = false at hfinite
    rw [rank, rank] at hrank
    generalize x.toModel.unpack = f at *
    rcases f with (_ | _) | _ | s | ⟨s, m, e, hm⟩
    · exact absurd hrank (by decide)
    · rfl
    · cases hx
    · cases hfinite
    · cases hfinite

theorem lt_iff_value_lt (hx : x.isFinite = true) (hy : y.isFinite = true) :
    x < y ↔ value x < value y := by
  rw [← not_le, ← le_iff_value_le hy hx]
  constructor
  · intro hlt hle
    exact lt_irrefl x (lt_of_lt_of_le hlt hle)
  · intro hnot
    by_contra hlt
    exact hnot (le_of_not_lt (isNaN_of_isFinite x hx) (isNaN_of_isFinite y hy) hlt)

/-- Zero, or an unpacked float below it. -/
def IsNonpositive (f : UnpackedFloat) : Prop :=
  (∃ s, f = .zero s) ∨ f = .infinity .negative ∨
    ∃ m e hm, f = .finite .negative m e hm ∧ Canonical m e

theorem unpackedRank_le_zero {f : UnpackedFloat} (h : IsNonpositive f) :
    f.isNaN = false ∧ unpackedRank f ≤ toLex (0, toLex (0, 0)) := by
  obtain ⟨s, rfl⟩ | rfl | ⟨m, e, hm, rfl, -⟩ := h
  · exact ⟨rfl, le_rfl⟩
  · exact ⟨rfl, by decide⟩
  · refine ⟨rfl, ?_⟩
    simp [unpackedRank, Prod.Lex.toLex_le_toLex]

/-- Packing keeps a float from going above zero. -/
theorem IsNonpositive.unpack_pack {f : UnpackedFloat} (h : IsNonpositive f) :
    IsNonpositive (UnpackedFloat.unpack .binary64 (UnpackedFloat.pack .binary64 f)) := by
  obtain ⟨s, rfl⟩ | rfl | ⟨m, e, hm, rfl, hc⟩ := h
  · exact Or.inl ⟨s, (unpack_packComponents s 0#11 0#52).trans (by simp)⟩
  · exact Or.inr (Or.inl rfl)
  · rw [unpack_pack_finite _ hm hc]
    split
    · exact Or.inr (Or.inr ⟨m, e, hm, rfl, hc⟩)
    · exact Or.inr (Or.inl rfl)

/-- A result of the model that is not above zero is below every positive float. -/
theorem lt_of_isNonpositive {f : UnpackedFloat}
    (hz : z.toModel.unpack = UnpackedFloat.unpack .binary64 (UnpackedFloat.pack .binary64 f))
    (h : IsNonpositive f) (hy : y.isFinite = true) (hpos : 0 < value y) : z < y := by
  obtain ⟨hnumber, hrank⟩ := unpackedRank_le_zero h.unpack_pack
  rw [← hz] at hnumber hrank
  have hzero : (0.0 : Float) < y := (lt_iff_value_lt rfl hy).mpr hpos
  rw [lt_iff] at hzero ⊢
  exact ⟨hnumber, hzero.2.1, hrank.trans_lt hzero.2.2⟩

/-- Rounding treats both signs alike. -/
theorem round_negative (m : ℕ) (e : ℤ) :
    UnpackedFloat.round .binary64 .negative m e =
      match UnpackedFloat.round .binary64 .positive m e with
      | .finite _ m e hm => .finite .negative m e hm
      | _ => .zero .negative := by
  unfold UnpackedFloat.round roundWithAccuracy
  dsimp only
  split <;> rfl

/-- Rounding keeps signs. -/
theorem isNonpositive_round {m : ℕ} (hm : 0 < m) (e : ℤ) :
    IsNonpositive (UnpackedFloat.round .binary64 .negative m e) := by
  obtain ⟨r, -, ⟨⟨s, hs⟩, -⟩ | ⟨m', e', hm', hs, hc, -⟩⟩ := round_denotes hm e
  · rw [round_negative, hs]
    exact Or.inl ⟨_, rfl⟩
  · rw [round_negative, hs]
    exact Or.inr (Or.inr ⟨m', e', hm', rfl, hc⟩)

theorem isNonpositive_sub {f g : UnpackedFloat} (hf : Stored f) (hg : Stored g)
    (h : unpackedValue f ≤ unpackedValue g) : IsNonpositive (UnpackedFloat.sub .binary64 f g) := by
  obtain ⟨s, rfl⟩ | ⟨s, m, e, hm, rfl, hc, -⟩ := id hf <;>
    obtain ⟨s', rfl⟩ | ⟨s', m', e', hm', rfl, hc', -⟩ := id hg
  · refine Or.inl ?_
    cases s <;> cases s' <;> exact ⟨_, rfl⟩
  · cases s'
    · rw [unpackedValue_negative, show unpackedValue (.zero s) = 0 from rfl] at h
      have := mul_zpow_pos (e := e') hm'
      linarith
    · exact Or.inr (Or.inr ⟨m', e', hm', rfl, hc'⟩)
  · cases s
    · exact Or.inr (Or.inr ⟨m, e, hm, rfl, hc⟩)
    · rw [unpackedValue_positive, show unpackedValue (.zero s') = 0 from rfl] at h
      have := mul_zpow_pos (e := e) hm
      linarith
  · rw [← apply_decreaseExponent s hm (min_le_left e e'),
      ← apply_decreaseExponent s' hm' (min_le_right e e')] at h
    have hz : s.apply (decreaseExponent m e (min e e')).1 ≤
        s'.apply (decreaseExponent m' e' (min e e')).1 := by
      exact_mod_cast (mul_le_mul_iff_left₀ (two_zpow_pos (min e e'))).mp h
    change IsNonpositive (UnpackedFloat.normalize .binary64
      (s.apply (decreaseExponent m e (min e e')).1 -
        s'.apply (decreaseExponent m' e' (min e e')).1) _ _)
    unfold UnpackedFloat.normalize
    rcases (sub_nonpos.mpr hz).lt_or_eq with hlt | heq
    · rw [compare_lt_iff_lt.mpr hlt]
      exact isNonpositive_round (by omega) _
    · rw [heq]
      exact Or.inl ⟨_, rfl⟩

/-- What is taken away from a float makes it no larger. -/
theorem Within.sub_lt (hx : Within q x) (hy : y.isFinite = true ∧ 0 ≤ value y ∨ Overflows y)
    (hz : z.isFinite = true) (hq : q < value z) : x - y < z := by
  have hpos : 0 < value z := (hx.2.1.trans hx.2.2).trans_lt hq
  rcases hy with ⟨hy, hnonneg⟩ | hy
  · rcases le_total (value y) (value x) with hle | hle
    · have hsub := hx.sub hy hnonneg hle
      exact (lt_iff_value_lt hsub.1 hz).mpr (hsub.2.2.trans_lt hq)
    · exact lt_of_isNonpositive rfl (isNonpositive_sub (stored hx.1) (stored hy) hle) hz hpos
  · refine lt_of_isNonpositive (f := UnpackedFloat.sub .binary64 x.toModel.unpack y.toModel.unpack)
      rfl ?_ hz hpos
    rw [hy]
    obtain ⟨s, hs⟩ | ⟨s, m, e, hm, hs, -⟩ := stored hx.1 <;> rw [hs] <;> exact Or.inr (Or.inl rfl)

theorem Within.neg_lt (hx : Within q x) (hz : z.isFinite = true) (hpos : 0 < value z) : -x < z := by
  refine lt_of_isNonpositive (f := UnpackedFloat.neg x.toModel.unpack) rfl ?_ hz hpos
  obtain ⟨⟨s, hs⟩, -⟩ | ⟨m, e, hm, hs, hc, -⟩ := (stored hx.1).denotes hx.2.1
  · rw [hs]
    exact Or.inl ⟨_, rfl⟩
  · rw [hs]
    exact Or.inr (Or.inr ⟨m, e, hm, rfl, hc⟩)

theorem Overflows.not_lt (hx : Overflows x) (hy : y.isFinite = true) : ¬ x < y := by
  intro h
  have hrank := ((lt_iff x y).mp h).2.2
  rw [rank, rank, hx] at hrank
  obtain ⟨s, hs⟩ | ⟨s, m, e, hm, hs, -⟩ := stored hy
  · rw [hs] at hrank
    simp [unpackedRank, Prod.Lex.toLex_lt_toLex] at hrank
  · rw [hs] at hrank
    cases s <;> simp [unpackedRank, Prod.Lex.toLex_lt_toLex] at hrank

/-- Nothing overflows in a sum below a finite float. -/
theorem isFinite_of_add_lt (hsign : ¬ x < 0.0) (hy : y.isFinite = true) (hnonneg : 0 ≤ value y)
    (hz : z.isFinite = true) (h : x + y < z) :
    (x.isFinite = true ∧ 0 ≤ value x) ∧ (x + y).isFinite = true := by
  have hnumber : x.isNaN = false := (numbers_of_add ((lt_iff _ _).mp h).1).1
  rcases nonneg_or_overflows hnumber hsign with ⟨hx, hpos⟩ | hover
  · obtain ⟨r, hr, hdenotes⟩ := add_denotes (stored hx) (stored hy) (add_nonneg hpos hnonneg)
    refine ⟨⟨hx, hpos⟩, ?_⟩
    rcases le_or_gt r limit with hle | hlt
    · exact ((holds_of_denotes (z := x + y) rfl hdenotes).1 hle).1
    · exact absurd h ((overflows_of_denotes (x := x + y) rfl hdenotes hlt).not_lt hz)
  · have hsum : UnpackedFloat.add .binary64 x.toModel.unpack y.toModel.unpack =
        .infinity .positive := by
      rw [hover]
      obtain ⟨s, hs⟩ | ⟨s, m, e, hm, hs, -⟩ := stored hy <;> rw [hs] <;> rfl
    have hinfinite : Overflows (x + y) := overflows_of_infinity rfl hsum
    exact absurd h (hinfinite.not_lt hz)

/-- A part of what overflows overflows too, unless it is no number. -/
theorem Overflows.mul (hy : Overflows y) (hx : Within q x) (hnumber : (x * y).isNaN = false) :
    Overflows (x * y) := by
  refine overflows_of_infinity (f := UnpackedFloat.mul .binary64 x.toModel.unpack y.toModel.unpack)
    rfl ?_
  obtain ⟨⟨s, hs⟩, -⟩ | ⟨m, e, hm, hs, -⟩ := (stored hx.1).denotes hx.2.1
  · have hnone : UnpackedFloat.mul .binary64 x.toModel.unpack y.toModel.unpack = .notANumber := by
      rw [hs, hy]
      rfl
    have hresult : (x * y).isNaN = true := isNaN_of_notANumber rfl hnone
    rw [hresult] at hnumber
    cases hnumber
  · rw [hs, hy]
    rfl

theorem one_lt_limit : 1 < limit := by
  have htwo : ((2 : ℕ) : ℚ) ≤ limit := natCast_le_limit (by decide)
  exact one_lt_two.trans_le (by exact_mod_cast htwo)

theorem Within.lt_largestFloat (hx : Within q x) (hq : q < limit) : x < largestFloat := by
  rw [lt_iff_value_lt hx.1 isFinite_largestFloat, value_largestFloat]
  exact hx.2.2.trans_lt hq

theorem Within.sub_lt_largestFloat (hx : Within q x)
    (hy : y.isFinite = true ∧ 0 ≤ value y ∨ Overflows y) (hq : q < limit) :
    x - y < largestFloat := by
  refine hx.sub_lt hy isFinite_largestFloat ?_
  rwa [value_largestFloat]

theorem Within.neg_lt_largestFloat (hx : Within q x) : -x < largestFloat := by
  refine hx.neg_lt isFinite_largestFloat ?_
  rw [value_largestFloat]
  exact one_pos.trans one_lt_limit

end Signs

section Shares

variable {m n : ℕ} {a x : Float}

/-- A count is rounded, and overflows when it is larger than any float. -/
theorem ofNat_spec (n : ℕ) :
    ∃ r, Rounds n r ∧ Holds (Float.ofNat n) r ∧ (limit < r → Overflows (Float.ofNat n)) := by
  by_cases h : n < 2 ^ 53
  · exact ⟨n, rounds_natCast h, ofNat_holds h, fun hr => absurd hr (natCast_le_limit h).not_gt⟩
  · exact ofNat_rounds (not_lt.mp h)

theorem rounds_natCast_le {n : ℕ} (h : n ≤ 2 ^ 53) : Rounds n n := by
  rcases h.lt_or_eq with hlt | rfl
  · exact rounds_natCast hlt
  · have hpower : Canonical (2 ^ 52) 1 := ⟨by decide, by decide, by decide, Or.inl le_rfl⟩
    have hvalue : ((2 ^ 53 : ℕ) : ℚ) = (2 ^ 52 : ℕ) * 2 ^ (1 : ℤ) := by norm_num
    rw [hvalue]
    exact hpower.rounds

theorem value_ofNat (h : n < 2 ^ 53) :
    (Float.ofNat n).isFinite = true ∧ value (Float.ofNat n) = n :=
  (ofNat_holds h).1 (natCast_le_limit h)

theorem ofNat_finite_or_overflows (n : ℕ) :
    (Float.ofNat n).isFinite = true ∨ Overflows (Float.ofNat n) := by
  obtain ⟨r, -, hholds, hover⟩ := ofNat_spec n
  rcases le_or_gt r limit with hle | hlt
  · exact Or.inl (hholds.1 hle).1
  · exact Or.inr (hover hlt)

/-- A smaller count is no larger a float. -/
theorem within_ofNat (h : m ≤ n) (hn : (Float.ofNat n).isFinite = true) :
    Within (value (Float.ofNat n)) (Float.ofNat m) := by
  obtain ⟨r, hr, hholds, -⟩ := ofNat_spec m
  obtain ⟨r', hr', hholds', -⟩ := ofNat_spec n
  have hlimit : r' ≤ limit := hholds'.2 hn
  rw [(hholds'.1 hlimit).2]
  exact within_of_holds m.cast_nonneg (Nat.cast_le.mpr h) hr hr' hlimit hholds

/-- Whole numbers up to 2⁵³ are not lost in the rounding of larger ones. -/
theorem natCast_le_value (hm : m ≤ 2 ^ 53) (h : m ≤ n) (hn : (Float.ofNat n).isFinite = true) :
    (m : ℚ) ≤ value (Float.ofNat n) := by
  obtain ⟨r, hr, hholds, -⟩ := ofNat_spec n
  rw [(hholds.1 (hholds.2 hn)).2]
  exact (rounds_natCast_le hm).mono hr m.cast_nonneg (Nat.cast_le.mpr h)

theorem value_ofNat_pos (hpos : 0 < n) (hn : (Float.ofNat n).isFinite = true) :
    0 < value (Float.ofNat n) := by
  have hone : ((1 : ℕ) : ℚ) ≤ value (Float.ofNat n) := natCast_le_value (by decide) hpos hn
  rw [Nat.cast_one] at hone
  exact one_pos.trans_le hone

/-- Counts that fit into a word are finite. -/
theorem isFinite_ofNat (h : n < wordCount) : (Float.ofNat n).isFinite = true := by
  obtain ⟨r, hr, hholds, -⟩ := ofNat_spec n
  have hword : Canonical (2 ^ 52) 12 := ⟨by decide, by decide, by decide, Or.inl le_rfl⟩
  have hle : (n : ℚ) ≤ (2 ^ 52 : ℕ) * 2 ^ (12 : ℤ) := by
    have hcount : wordCount = 2 ^ 52 * 2 ^ 12 := by decide
    rw [hcount] at h
    exact_mod_cast h.le
  exact (hholds.1 ((hr.mono hword.rounds n.cast_nonneg hle).trans
    ((mul_zpow_le_limit_iff hword).mpr (by decide)))).1

/-- A share of counts, if they are finite floats or the share is a number. -/
theorem within_proportion (hmn : m ≤ n) (hpos : 0 < n)
    (h : (Float.ofNat n).isFinite = true ∨ (proportion m n : Float).isNaN = false) :
    Within 1 (proportion m n : Float) := by
  rcases ofNat_finite_or_overflows n with hn | hn
  · exact (within_ofNat hmn hn).div hn (value_ofNat_pos hpos hn)
  · rcases ofNat_finite_or_overflows m with hm | hm
    · exact (hn.div hm).mono zero_le_one
    · -- an infinity is no share of an infinity
      have hnone : UnpackedFloat.div .binary64 (Float.ofNat m).toModel.unpack
          (Float.ofNat n).toModel.unpack = .notANumber := by
        rw [hm, hn]
        rfl
      have hresult : (proportion m n : Float).isNaN = true := isNaN_of_notANumber rfl hnone
      rw [hresult, hn.isFinite] at h
      rcases h with h | h <;> cases h

end Shares

section Sums

variable {xs : List Float} {a x : Float} {i k : ℕ}

/-- One more than the largest run of whole numbers is a tie, and goes back to its end. -/
theorem rounds_saturated : Rounds (2 ^ 53 + 1) (2 ^ 53) := by
  have hlog : Int.log 2 (2 ^ 53 + 1 : ℚ) = 53 := by
    rw [log_two_eq_iff (by norm_num)]
    norm_num
  have hplace : lastPlace (2 ^ 53 + 1) = 1 := by
    unfold lastPlace
    rw [hlog]
    rfl
  refine ⟨2 ^ 52, ⟨?_, ?_, ?_, ?_⟩, ?_⟩
  all_goals rw [hplace]
  · norm_num
  · norm_num
  · intro
    decide
  · intro
    decide
  · norm_num

/-- Adding a share to a sum of so many shares: from 2⁵³ on the sum no longer grows. -/
theorem Within.add_share (ha : Within (min i (2 ^ 53) : ℕ) a) (hx : Within 1 x) :
    Within (min (i + 1) (2 ^ 53) : ℕ) (a + x) := by
  have hnonneg : 0 ≤ value a + value x := add_nonneg ha.2.1 hx.2.1
  have hle : value a + value x ≤ (min i (2 ^ 53) : ℕ) + 1 := add_le_add ha.2.2 hx.2.2
  have hlimit : ((2 ^ 53 : ℕ) : ℚ) ≤ limit := by
    have hpower : Canonical (2 ^ 52) 1 := ⟨by decide, by decide, by decide, Or.inl le_rfl⟩
    have hvalue : ((2 ^ 53 : ℕ) : ℚ) = (2 ^ 52 : ℕ) * 2 ^ (1 : ℤ) := by norm_num
    rw [hvalue, mul_zpow_le_limit_iff hpower]
    decide
  obtain ⟨r, hr, hholds⟩ := add_holds ha.1 hx.1 hnonneg
  rcases Nat.lt_or_ge i (2 ^ 53) with hi | hi
  · rw [Nat.min_eq_left hi.le] at hle
    rw [Nat.min_eq_left hi]
    have hcast : ((i + 1 : ℕ) : ℚ) ≤ (2 ^ 53 : ℕ) := Nat.cast_le.mpr hi
    exact within_of_holds hnonneg (by exact_mod_cast hle) hr (rounds_natCast_le hi)
      (hcast.trans hlimit) hholds
  · rw [Nat.min_eq_right hi] at hle
    rw [Nat.min_eq_right (Nat.le_succ_of_le hi)]
    exact_mod_cast within_of_holds hnonneg (by exact_mod_cast hle) hr rounds_saturated
      (by exact_mod_cast hlimit) hholds

theorem within_foldl (ha : Within (min i (2 ^ 53) : ℕ) a) (hxs : ∀ x ∈ xs, Within 1 x) :
    Within (min (i + xs.length) (2 ^ 53) : ℕ) (xs.foldl (· + ·) a) := by
  induction xs generalizing i a with
  | nil => exact ha
  | cons x xs ih =>
    obtain ⟨hx, hrest⟩ := List.forall_mem_cons.mp hxs
    rw [List.length_cons, ← Nat.add_assoc, Nat.add_right_comm]
    exact ih (ha.add_share hx) hrest

/-- A sum of so many shares. -/
theorem within_total (hxs : ∀ x ∈ xs, Within 1 x) :
    Within (min xs.length (2 ^ 53) : ℕ) (total xs) := by
  have hstart : Within (min 0 (2 ^ 53) : ℕ) (-Arithmetic.ofNat 0) := by
    have hvalue : value (-Arithmetic.ofNat 0) = 0 := rfl
    exact ⟨rfl, hvalue.ge, by simp [hvalue]⟩
  have hsum := within_foldl hstart hxs
  rwa [Nat.zero_add] at hsum

/-- The mean of so many shares is a share. -/
theorem within_mean (hxs : ∀ x ∈ xs, Within 1 x) (hpos : 0 < xs.length) :
    Within 1 (total xs / Arithmetic.ofNat xs.length) := by
  have hsum := within_total hxs
  rcases ofNat_finite_or_overflows xs.length with hn | hn
  · have hle : ((min xs.length (2 ^ 53) : ℕ) : ℚ) ≤ value (Float.ofNat xs.length) :=
      natCast_le_value (Nat.min_le_right _ _) (Nat.min_le_left _ _) hn
    exact (hsum.mono hle).div hn (value_ofNat_pos hpos hn)
  · exact (hn.div hsum.1).mono zero_le_one

end Sums

end PatchSearch.FloatOrder
