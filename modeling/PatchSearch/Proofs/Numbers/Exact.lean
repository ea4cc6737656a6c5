import Mathlib.Data.Prod.Lex
import Mathlib.Data.Rat.Floor
import PatchSearch.Proofs.Numbers.FloatValue
import PatchSearch.Fault

/-!
Computing without rounding. A scalar is exact when every rational has its number among its values,
and numbers are added, multiplied and compared as the rationals are; a finite float then stands for
its value. What holds of every exact scalar holds of the formulas as they are written down, before
floats round their results. The rationals with two infinities and a value that is no number are
such a scalar. What needs no more than bounds of sums and ratios holds of floats as well; a scalar
that keeps these bounds is a gauge.
-/
namespace PatchSearch

/-- A scalar that computes with rationals and does not round. Nothing is said about its other
values, about division by zero, or about which whole number is taken for the floor of a value. -/
class ExactScalar (α : Type) extends Scalar α where
  number : ℚ → α
  ofNat_eq (n : ℕ) : Arithmetic.ofNat n = number n
  ofFloat_eq {x : Float} : x.isFinite = true → Scalar.ofFloat x = number (FloatOrder.value x)
  add_eq (p q : ℚ) : number p + number q = number (p + q)
  sub_eq (p q : ℚ) : number p - number q = number (p - q)
  mul_eq (p q : ℚ) : number p * number q = number (p * q)
  div_eq (p : ℚ) {q : ℚ} : q ≠ 0 → number p / number q = number (p / q)
  neg_eq (p : ℚ) : -number p = number (-p)
  lt_iff (p q : ℚ) : number p < number q ↔ p < q
  le_iff (p q : ℚ) : number p ≤ number q ↔ p ≤ q
  beq_iff (p q : ℚ) : (number p == number q) = true ↔ p = q
  compareTotal_eq (p q : ℚ) : compareTotal (number p) (number q) = compare p q
  isFinite_number (p : ℚ) : isFinite (number p) = true

/-- An exact scalar that does not round the floor of a number either, as long as a machine word can
hold it. -/
class ExactFloor (α : Type) extends ExactScalar α where
  floor_eq {q : ℚ} : ⌊q⌋₊ < wordCount → Scalar.floor (number q) = ⌊q⌋₊

namespace ExactScalar

variable {α : Type} [ExactScalar α]

theorem number_inj {p q : ℚ} : (number p : α) = number q ↔ p = q := by
  constructor
  · intro h
    have hlt : ¬ p < q := by
      rw [← lt_iff (α := α), h, lt_iff]
      exact lt_irrefl q
    have hgt : ¬ q < p := by
      rw [← lt_iff (α := α), h, lt_iff]
      exact lt_irrefl q
    exact le_antisymm (not_lt.mp hgt) (not_lt.mp hlt)
  · exact congrArg number

theorem sentinel_eq : (Scalar.sentinel : α) = number FloatOrder.limit := by
  unfold Scalar.sentinel
  rw [ofFloat_eq FloatOrder.isFinite_largestFloat, FloatOrder.value_largestFloat]

theorem lesser_eq (p q : ℚ) : Scalar.lesser (number p : α) (number q) = number (min p q) := by
  unfold Scalar.lesser
  by_cases h : q < p
  · rw [if_pos ((lt_iff q p).mpr h), min_eq_right h.le]
  · rw [if_neg (mt (lt_iff q p).mp h), min_eq_left (not_lt.mp h)]

theorem proportion_eq (part : ℕ) {whole : ℕ} (h : whole ≠ 0) :
    (proportion part whole : α) = number (part / whole) := by
  unfold proportion
  rw [ofNat_eq, ofNat_eq, div_eq _ (Nat.cast_ne_zero.mpr h)]

theorem total_eq (qs : List ℚ) : total (qs.map (number : ℚ → α)) = number qs.sum := by
  have hfrom (q : ℚ) :
      (qs.map (number : ℚ → α)).foldl (· + ·) (number q) = number (q + qs.sum) := by
    induction qs generalizing q with
    | nil => simp
    | cons p qs ih => rw [List.map_cons, List.foldl_cons, add_eq, ih, List.sum_cons, add_assoc]
  unfold total
  rw [ofNat_eq, neg_eq, hfrom]
  simp

end ExactScalar

/-- The rationals with two infinities and a value that is no number. -/
inductive ExtendedRational where
  | number (q : ℚ)
  | infinite (negative : Bool)
  | notANumber
  deriving DecidableEq

namespace ExtendedRational

def add : ExtendedRational → ExtendedRational → ExtendedRational
  | number p, number q => number (p + q)
  | number _, infinite n => infinite n
  | infinite m, number _ => infinite m
  | infinite m, infinite n => if m = n then infinite m else notANumber
  | _, _ => notANumber

def neg : ExtendedRational → ExtendedRational
  | number p => number (-p)
  | infinite m => infinite !m
  | notANumber => notANumber

def mul : ExtendedRational → ExtendedRational → ExtendedRational
  | number p, number q => number (p * q)
  | number p, infinite n => if p = 0 then notANumber else infinite (decide (p < 0) ^^ n)
  | infinite m, number q => if q = 0 then notANumber else infinite (m ^^ decide (q < 0))
  | infinite m, infinite n => infinite (m ^^ n)
  | _, _ => notANumber

/-- One part in so many. There is one zero, and it counts as positive. -/
def reciprocal : ExtendedRational → ExtendedRational
  | number q => if q = 0 then infinite false else number q⁻¹
  | infinite _ => number 0
  | notANumber => notANumber

/-- The place in the total order, in which the value that is no number comes last. -/
def place : ExtendedRational → ℤ ×ₗ ℚ
  | infinite true => toLex (-1, 0)
  | number q => toLex (0, q)
  | infinite false => toLex (1, 0)
  | notANumber => toLex (2, 0)

def ofFloat (x : Float) : ExtendedRational :=
  if x.isFinite then number (FloatOrder.value x)
  else if x.isNaN then notANumber
  else infinite (decide (x < 0.0))

def floor : ExtendedRational → ℕ
  | number q => min ⌊q⌋₊ (wordCount - 1)
  | infinite false => wordCount - 1
  | _ => 0

instance : Arithmetic ExtendedRational where
  add := add
  sub a b := add a (neg b)
  mul := mul
  div a b := mul a (reciprocal b)
  neg := neg
  ofNat n := number n

instance : Scalar ExtendedRational where
  le a b := a ≠ notANumber ∧ b ≠ notANumber ∧ place a ≤ place b
  lt a b := a ≠ notANumber ∧ b ≠ notANumber ∧ place a < place b
  beq a b := a ≠ notANumber ∧ a = b
  decidableLE _ _ := inferInstanceAs (Decidable (_ ∧ _ ∧ _))
  decidableLT _ _ := inferInstanceAs (Decidable (_ ∧ _ ∧ _))
  compareTotal a b := compare (place a) (place b)
  ofFloat := ofFloat
  infinity := infinite false
  isFinite a := a matches number _
  floor := floor

theorem place_number_lt_iff (p q : ℚ) : place (number p) < place (number q) ↔ p < q := by
  simp [place, Prod.Lex.toLex_lt_toLex]

theorem place_number_le_iff (p q : ℚ) : place (number p) ≤ place (number q) ↔ p ≤ q := by
  simp [place, Prod.Lex.toLex_le_toLex]

instance : ExactScalar ExtendedRational where
  number := number
  ofNat_eq _ := rfl
  ofFloat_eq h := if_pos h
  add_eq _ _ := rfl
  sub_eq p q := congrArg number (sub_eq_add_neg p q).symm
  mul_eq _ _ := rfl
  div_eq p q h := by
    change mul (number p) (reciprocal (number q)) = number (p / q)
    rw [reciprocal, if_neg h, div_eq_mul_inv]
    rfl
  neg_eq _ := rfl
  lt_iff p q := by
    change (number p ≠ notANumber ∧ number q ≠ notANumber ∧ _) ↔ _
    simp [place_number_lt_iff]
  le_iff p q := by
    change (number p ≠ notANumber ∧ number q ≠ notANumber ∧ _) ↔ _
    simp [place_number_le_iff]
  beq_iff p q := by
    change decide (number p ≠ notANumber ∧ number p = number q) = true ↔ _
    simp
  compareTotal_eq p q := by
    change compare (place (number p)) (place (number q)) = compare p q
    rw [LinearOrder.compare_eq_compareOfLessAndEq, LinearOrder.compare_eq_compareOfLessAndEq]
    simp only [compareOfLessAndEq, place_number_lt_iff]
    simp [place]
  isFinite_number _ := rfl

instance : ExactFloor ExtendedRational where
  floor_eq {q} h := by
    change min ⌊q⌋₊ (wordCount - 1) = ⌊q⌋₊
    omega

end ExtendedRational

/-- A scalar whose finite values stand for rationals. Sums and ratios may be rounded, but not past a
whole number that bounds them, and an infinity stays when something is added. -/
class Gauge (α : Type) extends Scalar α where
  /-- What a finite value stands for. -/
  measure : α → ℚ
  orders : Orders (Scalar.totalLE : α → α → Bool)
  measure_le {x y : α} : isFinite x = true → isFinite y = true → Scalar.totalLE x y = true →
    measure x ≤ measure y
  isFinite_zero : isFinite (ofNat 0) = true
  measure_zero : measure (ofNat 0) = 0
  isFinite_infinity : isFinite infinity = false
  add_infinity {x : α} : isFinite x = true ∨ x = infinity → x + infinity = infinity
  infinity_add {x : α} : isFinite x = true ∨ x = infinity → infinity + x = infinity
  add_bounds {x y : α} {n : ℕ} : isFinite x = true → isFinite y = true → 0 ≤ measure x →
    0 ≤ measure y → measure x + measure y ≤ n → n < 2 ^ 53 →
    isFinite (x + y) = true ∧ 0 ≤ measure (x + y) ∧ measure (x + y) ≤ n
  ratio_bounds {low a c high : α} : isFinite low = true → isFinite a = true → isFinite c = true →
    isFinite high = true → measure low ≤ measure a → measure a ≤ measure c →
    measure c ≤ measure high → isFinite (high - low) = true → ¬ high - low ≤ ofNat 0 →
    isFinite ((c - a) / (high - low)) = true ∧ 0 ≤ measure ((c - a) / (high - low)) ∧
      measure ((c - a) / (high - low)) ≤ 1

namespace FloatOrder

open Rounding

/-- What is rounded stays between zero and a whole number. -/
theorem bounds_of_holds {z : Float} {q r : ℚ} {n : ℕ} (hq : 0 ≤ q) (hn : q ≤ n)
    (hbound : n < 2 ^ 53) (hr : Rounds q r) (hz : Holds z r) :
    z.isFinite = true ∧ 0 ≤ value z ∧ value z ≤ n := by
  have hle : r ≤ n := hr.mono (rounds_natCast hbound) hq hn
  obtain ⟨hfinite, hvalue⟩ := hz.1 (hle.trans (natCast_le_limit hbound))
  rw [hvalue]
  exact ⟨hfinite, hr.nonneg, hle⟩

theorem value_ofNat_zero : value (Arithmetic.ofNat 0) = 0 :=
  rfl

instance : Gauge Float where
  measure := value
  orders := orders_totalLE
  measure_le hx hy h := value_le_of_place_le hx hy ((totalLE_iff _ _).mp h)
  isFinite_zero := rfl
  measure_zero := value_ofNat_zero
  isFinite_infinity := by
    rw [← Bool.not_eq_true]
    intro h
    exact (floatPlace_lt h).ne floatPlace_infinity
  add_infinity := FloatOrder.add_infinity
  infinity_add := FloatOrder.infinity_add
  add_bounds hx hy hx' hy' hn hbound := by
    have hnonneg := add_nonneg hx' hy'
    obtain ⟨r, hr, hholds⟩ := add_holds hx hy hnonneg
    exact bounds_of_holds hnonneg hn hbound hr hholds
  ratio_bounds {low a c high} hlow ha hc hhigh hla hac hch hfinite hflat := by
    obtain ⟨r, hr, hrange⟩ := sub_holds hhigh hlow (hla.trans (hac.trans hch))
    obtain ⟨g, hg, hgap⟩ := sub_holds hc ha hac
    have hgr : g ≤ r := hg.mono hr (by linarith) (by linarith)
    have hrlimit := hrange.2 hfinite
    obtain ⟨-, hvrange⟩ := hrange.1 hrlimit
    obtain ⟨hgfinite, hvgap⟩ := hgap.1 (hgr.trans hrlimit)
    have hpos : 0 < value (high - low) := by
      rw [le_iff_value_le hfinite rfl, not_le, value_ofNat_zero] at hflat
      exact hflat
    have hnonneg : 0 ≤ value (c - a) := hvgap ▸ hg.nonneg
    obtain ⟨s, hs, hratio⟩ := div_holds hgfinite hfinite hnonneg hpos
    have hone : value (c - a) / value (high - low) ≤ (1 : ℕ) := by
      rw [Nat.cast_one, div_le_one hpos, hvgap, hvrange]
      exact hgr
    exact_mod_cast bounds_of_holds (div_nonneg hnonneg hpos.le) hone (by decide) hs hratio

end FloatOrder

namespace ExtendedRational

/-- The rational that a number is. -/
def measure : ExtendedRational → ℚ
  | number q => q
  | _ => 0

theorem exists_number {x : ExtendedRational} (h : Scalar.isFinite x = true) :
    ∃ q, x = number q := by
  cases x with
  | number q => exact ⟨q, rfl⟩
  | infinite negative => cases h
  | notANumber => cases h

theorem place_inj {x y : ExtendedRational} (h : place x = place y) : x = y := by
  rcases x with q | (_ | _) | _ <;> rcases y with q' | (_ | _) | _ <;> simp [place] at h ⊢
  exact h

theorem totalLE_iff (x y : ExtendedRational) :
    Scalar.totalLE x y = true ↔ place x ≤ place y := by
  change (compare (place x) (place y)).isLE = true ↔ _
  rw [Ordering.isLE_iff_ne_gt, ← compare_le_iff_le, Ne]

theorem orders_totalLE : Orders (Scalar.totalLE : ExtendedRational → ExtendedRational → Bool) :=
  .of_key (fun _ _ => place_inj) totalLE_iff

instance : Gauge ExtendedRational where
  measure := measure
  orders := orders_totalLE
  measure_le hx hy h := by
    obtain ⟨p, rfl⟩ := exists_number hx
    obtain ⟨q, rfl⟩ := exists_number hy
    rwa [totalLE_iff, place_number_le_iff] at h
  isFinite_zero := rfl
  measure_zero := Nat.cast_zero
  isFinite_infinity := rfl
  add_infinity hx := by
    rcases hx with hx | rfl
    · obtain ⟨q, rfl⟩ := exists_number hx
      rfl
    · rfl
  infinity_add hx := by
    rcases hx with hx | rfl
    · obtain ⟨q, rfl⟩ := exists_number hx
      rfl
    · rfl
  add_bounds hx hy hx' hy' hn _ := by
    obtain ⟨p, rfl⟩ := exists_number hx
    obtain ⟨q, rfl⟩ := exists_number hy
    exact ⟨rfl, add_nonneg hx' hy', hn⟩
  ratio_bounds {low a c high} hlow ha hc hhigh hla hac hch _ hflat := by
    obtain ⟨l, rfl⟩ := exists_number hlow
    obtain ⟨p, rfl⟩ := exists_number ha
    obtain ⟨q, rfl⟩ := exists_number hc
    obtain ⟨h, rfl⟩ := exists_number hhigh
    have hrange : (number h - number l : ExtendedRational) = number (h - l) :=
      ExactScalar.sub_eq h l
    have hgap : (number q - number p : ExtendedRational) = number (q - p) :=
      ExactScalar.sub_eq q p
    rw [hrange] at hflat ⊢
    have hpos : 0 < h - l := by
      by_contra hle
      exact hflat ((ExactScalar.le_iff (h - l) 0).mpr (not_lt.mp hle))
    have hratio : (number (q - p) / number (h - l) : ExtendedRational) =
        number ((q - p) / (h - l)) :=
      ExactScalar.div_eq (q - p) hpos.ne'
    rw [hgap, hratio]
    change l ≤ p at hla
    change p ≤ q at hac
    change q ≤ h at hch
    exact ⟨rfl, div_nonneg (by linarith) hpos.le, (div_le_one hpos).mpr (by linarith)⟩

end ExtendedRational

end PatchSearch
