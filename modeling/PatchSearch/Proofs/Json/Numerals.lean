import PatchSearch.Proofs.Json
import PatchSearch.Proofs.Numbers.NearestFloat

/-!
Finite floats are read back from their text. However a decimal is written, with the point behind,
between or in front of its digits or with an exponent, its text is read as the float nearest to its
value; the text of a float is its sign and a decimal that is read as its magnitude.
-/
namespace PatchSearch.Json

open Reader Decimal

section Numerals

variable {rest : List Char} {n : ℕ} {e : ℤ}

/-- The text of a number by its digits before and behind the point and its exponent. -/
def written (whole part : List Char) (exponent : Option ℤ) : List Char :=
  whole ++ ((if part = [] then [] else '.' :: part) ++
    exponent.elim [] fun e => 'e' :: (toString e).toList)

theorem toList_toString_natCast (n : ℕ) : (toString (n : ℤ)).toList = Nat.toDigits 10 n := by
  change (Nat.repr n).toList = _
  rw [Nat.repr_eq_ofList_toDigits, String.toList_ofList]

theorem toList_toString_negSucc (n : ℕ) :
    (toString (Int.negSucc n)).toList = '-' :: Nat.toDigits 10 (n + 1) := by
  change ("-" ++ Nat.repr (n + 1)).toList = _
  rw [String.toList_append, Nat.repr_eq_ofList_toDigits, String.toList_ofList,
    String.toList_ofList, List.singleton_append]

theorem digits_ne_cons {c : Char} (h : c.isDigit = false) (n : ℕ) (cs : List Char) :
    Nat.toDigits 10 n ++ rest ≠ c :: cs := by
  intro heq
  obtain ⟨d, ds, hds⟩ := List.exists_cons_of_ne_nil (toDigits_ne_nil n)
  have hdigit := isDigit_digits n d (hds ▸ List.mem_cons_self)
  rw [hds] at heq
  obtain ⟨rfl, -⟩ := List.cons_eq_cons.mp heq
  rw [h] at hdigit
  cases hdigit

theorem digitsFrom_toDigits (n : ℕ) (hrest : EndsNumber rest) :
    digitsFrom 0 0 (Nat.toDigits 10 n ++ rest) = (n, (Nat.toDigits 10 n).length, rest) := by
  rw [digitsFrom_append (isDigit_digits n) fun c hc => (hrest c hc).1,
    Nat.ofDigitChars_ten_toDigits, Nat.zero_add]

theorem exponent?_minus (cs : List Char) :
    exponent? ('e' :: '-' :: cs) = match digitsFrom 0 0 cs with
      | (value, count, rest) => if count = 0 then none else some (some (-(value : ℤ)), rest) :=
  rfl

/-- An exponent is read up to what ends the number. -/
theorem exponent?_toString (e : ℤ) (hrest : EndsNumber rest) :
    exponent? ('e' :: ((toString e).toList ++ rest)) = some (some e, rest) := by
  have hcount (n : ℕ) : (Nat.toDigits 10 n).length ≠ 0 := Nat.length_toDigits_pos.ne'
  cases e with
  | ofNat n =>
    rw [Int.ofNat_eq_natCast, toList_toString_natCast]
    unfold exponent?
    dsimp only
    rw [if_pos (Or.inl rfl)]
    split
    · next hplus => exact absurd hplus (digits_ne_cons rfl n _)
    · next hminus => exact absurd hminus (digits_ne_cons rfl n _)
    · rw [digitsFrom_toDigits n hrest]
      simp [hcount n]
  | negSucc n =>
    rw [toList_toString_negSucc, List.cons_append, exponent?_minus,
      digitsFrom_toDigits (n + 1) hrest]
    exact if_neg (hcount (n + 1))

/-- The text of an exponent, if there is one. -/
def exponentText (exponent : Option ℤ) : List Char :=
  exponent.elim [] fun e => 'e' :: (toString e).toList

theorem exponent?_exponentText (exponent : Option ℤ) (hrest : EndsNumber rest) :
    exponent? (exponentText exponent ++ rest) = some (exponent, rest) := by
  cases exponent with
  | none => exact hrest.exponent?
  | some e => exact exponent?_toString e hrest

/-- The text of the digits behind the point, if there are any. -/
def fractionText (part : List Char) : List Char :=
  if part = [] then [] else '.' :: part

/-- A fraction is read up to the exponent behind it. -/
theorem fraction?_fractionText (value : ℕ) {part : List Char}
    (hpart : ∀ c ∈ part, c.isDigit = true) (exponent : Option ℤ) (hrest : EndsNumber rest) :
    fraction? value (fractionText part ++ (exponentText exponent ++ rest)) =
      some (Nat.ofDigitChars 10 part value, part.length, exponentText exponent ++ rest) := by
  have hbehind : ∀ c ∈ (exponentText exponent ++ rest).head?, c.isDigit = false := by
    cases exponent with
    | none => exact fun c hc => (hrest c hc).1
    | some e =>
      intro c hc
      obtain rfl : 'e' = c := Option.some_injective _ hc
      rfl
  unfold fractionText
  split
  · next hnil =>
    subst hnil
    cases exponent with
    | none => exact hrest.fraction? value
    | some e => rfl
  · next hne =>
    rw [List.cons_append, Reader.fraction?, digitsFrom_append hpart hbehind]
    simp [hne]

/-- The text of a number by its digits before and behind the point and its exponent. -/
def numeralText (whole part : List Char) (exponent : Option ℤ) : List Char :=
  whole ++ (fractionText part ++ exponentText exponent)

/-- A number that is written with a point or an exponent is read as the nearest float. -/
theorem number?_numeralText {whole part : List Char} {exponent : Option ℤ}
    (hwhole : ∀ c ∈ whole, c.isDigit = true) (hne : whole ≠ [])
    (hzero : whole.head? = some '0' → whole.length = 1)
    (hpart : ∀ c ∈ part, c.isDigit = true) (hreal : part ≠ [] ∨ exponent ≠ none)
    (hrest : EndsNumber rest) (negative : Bool) :
    number? negative (numeralText whole part exponent ++ rest) =
      some (.real (signed negative (nearestFloat (Nat.ofDigitChars 10 (whole ++ part) 0)
        (exponent.getD 0 - part.length))), rest) := by
  have hbehind : ∀ c ∈ (fractionText part ++ (exponentText exponent ++ rest)).head?,
      c.isDigit = false := by
    unfold fractionText
    split
    · cases exponent with
      | none => exact fun c hc => (hrest c hc).1
      | some e =>
        intro c hc
        obtain rfl : 'e' = c := Option.some_injective _ hc
        rfl
    · intro c hc
      obtain rfl : '.' = c := Option.some_injective _ hc
      rfl
  have hguard : (part.length == 0 && exponent.isNone) = false := by
    rcases hreal with h | h
    · simp [h]
    · obtain ⟨e, rfl⟩ := Option.ne_none_iff_exists'.mp h
      exact Bool.and_false _
  unfold numeralText
  rw [List.append_assoc, List.append_assoc, Nat.ofDigitChars_append,
    number?_append hwhole hne hzero hbehind (fraction?_fractionText _ hpart exponent hrest)
      (exponent?_exponentText exponent hrest), Bool.and_assoc, Bool.and_assoc, hguard]
  cases negative <;> simp [signed]

end Numerals

section Spelling

variable {rest text : List Char} {d : Digits} {m : ℕ} {e : ℤ} {x : Float}

/-- A text that is read as the float nearest to a decimal. -/
structure Spells (text : List Char) (m : ℕ) (e : ℤ) : Prop where
  begins : ∃ c cs, text = c :: cs ∧ c.isDigit = true
  number? : ∀ (negative : Bool) ⦃rest : List Char⦄, EndsNumber rest →
    number? negative (text ++ rest) = some (.real (signed negative (nearestFloat m e)), rest)

theorem spells_numeralText {whole part : List Char} {exponent : Option ℤ}
    (hwhole : ∀ c ∈ whole, c.isDigit = true) (hne : whole ≠ [])
    (hzero : whole.head? = some '0' → whole.length = 1)
    (hpart : ∀ c ∈ part, c.isDigit = true) (hreal : part ≠ [] ∨ exponent ≠ none)
    (hm : Nat.ofDigitChars 10 (whole ++ part) 0 = m) (he : exponent.getD 0 - part.length = e) :
    Spells (numeralText whole part exponent) m e := by
  subst hm he
  refine ⟨?_, fun negative rest hrest =>
    number?_numeralText hwhole hne hzero hpart hreal hrest negative⟩
  obtain ⟨c, cs, rfl⟩ := List.exists_cons_of_ne_nil hne
  exact ⟨c, _, rfl, hwhole c List.mem_cons_self⟩

theorem toList_digitText (n : ℕ) : (digitText n).toList = Nat.toDigits 10 n :=
  String.toList_ofList

theorem toList_zeros (n : ℕ) : (zeros n).toList = List.replicate n '0' :=
  String.toList_ofList

theorem length_digitText (n : ℕ) : (digitText n).length = digitCount n := by
  rw [← String.length_toList, toList_digitText, digitCount]

theorem isDigit_zeros (n : ℕ) : ∀ c ∈ List.replicate n '0', c.isDigit = true := by
  rintro c hc
  rw [List.eq_of_mem_replicate hc]
  rfl

/-- Digits and zeros in front of the point. -/
theorem spells_whole (hd : d.digits = 0 → d.exponent = 0) (he : 0 ≤ d.exponent) :
    Spells (d.positional true).toList (d.digits * 10 ^ (d.exponent.toNat + 1)) (-1) := by
  have htext : (d.positional true).toList =
      numeralText (Nat.toDigits 10 d.digits ++ List.replicate d.exponent.toNat '0') ['0'] none := by
    unfold Digits.positional
    dsimp only
    rw [if_pos he]
    simp [numeralText, fractionText, exponentText, toList_digitText, toList_zeros]
  rw [htext]
  refine spells_numeralText ?_ ?_ ?_ (List.forall_mem_singleton.mpr rfl)
    (Or.inl (List.cons_ne_nil _ _)) ?_ rfl
  · intro c hc
    exact (List.mem_append.mp hc).elim (isDigit_digits _ c) (isDigit_zeros _ c)
  · exact List.append_ne_nil_of_left_ne_nil (toDigits_ne_nil _) _
  · rw [List.head?_append_of_ne_nil _ (toDigits_ne_nil _)]
    intro hhead
    rcases Nat.eq_zero_or_pos d.digits with hzero | hpos
    · rw [hzero, hd hzero]
      rfl
    · exact absurd hhead (head_digits hpos)
  · rw [Nat.ofDigitChars_append, Nat.ofDigitChars_append, Nat.ofDigitChars_ten_toDigits,
      Nat.ofDigitChars_replicate_zero, Nat.ofDigitChars_cons, Nat.ofDigitChars_nil, Nat.pow_succ]
    change 10 * (10 ^ d.exponent.toNat * d.digits) + 0 = _
    ring

/-- The point between digits. -/
theorem spells_inside (hd : 0 < d.digits) (he : d.exponent < 0)
    (hpoint : 0 < (digitCount d.digits : ℤ) + d.exponent) :
    Spells (d.positional true).toList d.digits d.exponent := by
  obtain ⟨k, hk⟩ := Int.eq_ofNat_of_zero_le hpoint.le
  have hlength : (Nat.toDigits 10 d.digits).length = digitCount d.digits := rfl
  have hpart : (Nat.toDigits 10 d.digits).drop k ≠ [] :=
    List.ne_nil_of_length_pos (by rw [List.length_drop]; omega)
  have htext : (d.positional true).toList = numeralText
      ((Nat.toDigits 10 d.digits).take k) ((Nat.toDigits 10 d.digits).drop k) none := by
    unfold Digits.positional numeralText fractionText
    dsimp only
    rw [length_digitText, if_neg (not_le.mpr he), if_pos hpoint, if_neg hpart, hk]
    simp [exponentText, toList_digitText]
  rw [htext]
  refine spells_numeralText (fun c hc => isDigit_digits _ c (List.mem_of_mem_take hc)) ?_ ?_
    (fun c hc => isDigit_digits _ c (List.mem_of_mem_drop hc)) (Or.inl hpart) ?_ ?_
  · exact List.ne_nil_of_length_pos (by rw [List.length_take]; omega)
  · rw [List.head?_take, if_neg (by omega)]
    exact fun hhead => absurd hhead (head_digits hd)
  · rw [List.take_append_drop, Nat.ofDigitChars_ten_toDigits]
  · rw [List.length_drop, Option.getD_none]
    omega

/-- Zeros between the point and the digits. -/
theorem spells_below (he : d.exponent < 0)
    (hpoint : ¬ 0 < (digitCount d.digits : ℤ) + d.exponent) :
    Spells (d.positional true).toList d.digits d.exponent := by
  obtain ⟨k, hk⟩ := Int.eq_ofNat_of_zero_le (neg_nonneg.mpr (not_lt.mp hpoint))
  have hpart : List.replicate k '0' ++ Nat.toDigits 10 d.digits ≠ [] :=
    List.append_ne_nil_of_right_ne_nil _ (toDigits_ne_nil _)
  have htext : (d.positional true).toList =
      numeralText ['0'] (List.replicate k '0' ++ Nat.toDigits 10 d.digits) none := by
    unfold Digits.positional numeralText fractionText
    dsimp only
    rw [length_digitText, if_neg (not_le.mpr he), if_neg hpoint, if_neg hpart, hk]
    simp [exponentText, toList_digitText, toList_zeros]
  rw [htext]
  refine spells_numeralText (List.forall_mem_singleton.mpr rfl) (List.cons_ne_nil _ _)
    (fun _ => rfl) ?_ (Or.inl hpart) ?_ ?_
  · intro c hc
    exact (List.mem_append.mp hc).elim (isDigit_zeros _ c) (isDigit_digits _ c)
  · rw [List.singleton_append, Nat.ofDigitChars_cons, Nat.ofDigitChars_append,
      Nat.ofDigitChars_replicate_zero]
    exact Nat.ofDigitChars_ten_toDigits
  · have hlength : (Nat.toDigits 10 d.digits).length = digitCount d.digits := rfl
    rw [List.length_append, List.length_replicate, Option.getD_none]
    omega

/-- One digit in front of the point, and an exponent. -/
theorem spells_scientific (d : Digits) : Spells d.scientific.toList d.digits d.exponent := by
  obtain ⟨c, cs, hcs⟩ := List.exists_cons_of_ne_nil (toDigits_ne_nil d.digits)
  have hlength : digitCount d.digits = cs.length + 1 := congrArg List.length hcs
  have htext : d.scientific.toList =
      numeralText [c] cs (some ((digitCount d.digits : ℤ) + d.exponent - 1)) := by
    unfold Digits.scientific numeralText fractionText exponentText
    dsimp only
    rw [length_digitText, toList_digitText, hcs]
    cases cs <;> simp
  have hdigits := isDigit_digits d.digits
  rw [hcs, List.forall_mem_cons] at hdigits
  rw [htext]
  refine spells_numeralText (List.forall_mem_singleton.mpr hdigits.1) (List.cons_ne_nil _ _)
    (fun _ => rfl) hdigits.2 (Or.inr (Option.some_ne_none _)) ?_ ?_
  · rw [List.singleton_append, ← hcs, Nat.ofDigitChars_ten_toDigits]
  · rw [Option.getD_some]
    omega

/-- However a decimal is written, it is read by a decimal of its value. -/
theorem exists_spells (hd : d.digits = 0 → d.exponent = 0) {positional : Bool}
    (hzero : d.digits = 0 → positional = true) :
    ∃ m e, Spells (if positional then d.positional true else d.scientific).toList m e ∧
      (m * 10 ^ e : ℚ) = d.value ∧ e.natAbs ≤ d.exponent.natAbs + 1 := by
  have hself : (d.digits * 10 ^ d.exponent : ℚ) = d.value := rfl
  cases positional with
  | false => exact ⟨_, _, spells_scientific d, hself, Nat.le_succ _⟩
  | true =>
    rcases le_or_gt 0 d.exponent with he | he
    · refine ⟨_, _, spells_whole hd he, ?_, Nat.le_add_left 1 _⟩
      obtain ⟨k, hk⟩ := Int.eq_ofNat_of_zero_le he
      rw [← hself, hk, Int.toNat_natCast, zpow_natCast, pow_succ]
      push_cast
      rw [zpow_neg_one]
      ring
    · have hpos : 0 < d.digits := by
        rcases Nat.eq_zero_or_pos d.digits with h | h
        · exact absurd (hd h) he.ne
        · exact h
      by_cases hpoint : 0 < (digitCount d.digits : ℤ) + d.exponent
      · exact ⟨_, _, spells_inside hpos he hpoint, hself, Nat.le_succ _⟩
      · exact ⟨_, _, spells_below he hpoint, hself, Nat.le_succ _⟩

end Spelling

section Legible

variable {x : Float}

/-- The text of a finite float is its sign and the text of its magnitude. -/
theorem exists_render (hx : x.isFinite = true) :
    ∃ positional, (((Magnitude.ofFloat x).shortest .toEven).digits = 0 → positional = true) ∧
      (numeral.render x).toList = (if isNegative x then ['-'] else []) ++
        (if positional then ((Magnitude.ofFloat x).shortest .toEven).positional true
          else ((Magnitude.ofFloat x).shortest .toEven).scientific).toList := by
  generalize hd : (Magnitude.ofFloat x).shortest .toEven = d
  have htie : numeral.tie = .toEven := rfl
  refine ⟨decide (d.digits = 0) ||
    (numeral.positionalAbove.all (· < (digitCount d.digits : ℤ) + d.exponent) &&
      numeral.positionalTo.all ((digitCount d.digits : ℤ) + d.exponent ≤ ·)),
    fun h => Bool.or_eq_true_iff.mpr (Or.inl (decide_eq_true h)), ?_⟩
  unfold Notation.render
  rw [FloatOrder.isNaN_of_isFinite x hx, if_neg Bool.false_ne_true, if_pos hx, htie, hd,
    String.toList_append]
  cases isNegative x <;> rfl

/-- A finite float is read back from its text. -/
theorem legible_of_isFinite (hx : x.isFinite = true) : Legible x := by
  refine ⟨hx, fun fuel rest hrest => ?_⟩
  obtain ⟨hzero, hexponent⟩ := shortest_exponent hx .toEven
  obtain ⟨positional, hpositional, htext⟩ := exists_render hx
  obtain ⟨m, e, hspells, hvalue, he⟩ := exists_spells hzero hpositional
  have hfloat := signed_nearestFloat hx hvalue (by omega)
  rw [htext]
  generalize (ite (positional = true) _ _ : String).toList = body at hspells ⊢
  cases hsign : isNegative x with
  | true =>
    rw [hsign] at hfloat
    have hread := hspells.number? true hrest
    rw [hfloat] at hread
    exact (value?_minus fuel _).trans hread
  | false =>
    rw [hsign] at hfloat
    have hread := hspells.number? false hrest
    rw [hfloat] at hread
    obtain ⟨c, cs, rfl, hdigit⟩ := hspells.begins
    exact (value?_digit hdigit fuel _).trans hread

end Legible

end PatchSearch.Json
