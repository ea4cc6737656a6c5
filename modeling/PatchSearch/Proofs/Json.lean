import Mathlib.Data.List.DropRight
import PatchSearch.Json.Reader

/-!
JSON text that is written is read back. Blanks in front of a value are skipped, an escaped character
is read as itself, and a run of digits as its number, so the text of a value is read as that value
and the rest is left, whatever the level of indentation. Only a number needs what stands behind it
not to go on with it.
-/
namespace PatchSearch.Json

open Reader

variable {cs rest : List Char} {j : Json}

section Blanks

theorem skipSpace_newLine (level : ℕ) (cs : List Char) :
    skipSpace ((newLine level).toList ++ cs) = skipSpace cs := by
  refine List.dropWhile_append_of_pos fun c hc => ?_
  simp only [newLine, String.toList_append, String.toList_ofList, List.mem_append] at hc
  obtain hc | hc := hc
  · obtain rfl : c = '\n' := by simpa using hc
    rfl
  · obtain rfl : c = ' ' := List.eq_of_mem_replicate hc
    rfl

theorem skipSpace_cons {c : Char} (h : isSpace c = false) (cs : List Char) :
    skipSpace (c :: cs) = c :: cs :=
  List.dropWhile_cons_of_neg (by simp [h])

theorem skipSpace_skipSpace (cs : List Char) : skipSpace (skipSpace cs) = skipSpace cs :=
  List.dropWhile_idempotent isSpace cs

/-- A value is read behind blanks as it is without them. -/
theorem value?_skipSpace (fuel : ℕ) (cs : List Char) :
    value? fuel (skipSpace cs) = value? fuel cs := by
  cases fuel with
  | zero => rfl
  | succ fuel => rw [value?, value?, skipSpace_skipSpace]

theorem value?_blank (fuel : ℕ) (cs : List Char) : value? fuel (' ' :: cs) = value? fuel cs :=
  (value?_skipSpace fuel (' ' :: cs)).symm.trans (value?_skipSpace fuel cs)

theorem items?_skipSpace (fuel : ℕ) (cs : List Char) :
    items? fuel (skipSpace cs) = items? fuel cs := by
  cases fuel with
  | zero => rfl
  | succ fuel => rw [items?, items?, value?_skipSpace]

theorem members?_skipSpace (fuel : ℕ) (cs : List Char) :
    members? fuel (skipSpace cs) = members? fuel cs := by
  cases fuel with
  | zero => rfl
  | succ fuel => rw [members?, members?, skipSpace_skipSpace]

end Blanks

section Strings

theorem hexValue?_hexDigit {n : ℕ} (h : n < 16) : hexValue? (hexDigit n) = some n := by
  revert n
  decide

/-- An escaped character is read as itself. -/
theorem stringFrom_escapedChar (c : Char) (cs : List Char) :
    stringFrom none (escapedChar c ++ cs) = (stringFrom none cs).map (literalCons c) := by
  unfold escapedChar
  split_ifs with hquote hslash hfeed hreturn htab hback hform hcontrol
  iterate 7
    subst c
    exact Option.map_eq_bind.symm
  · have hhigh : c.toNat / 16 < 16 := by omega
    have hunit : codeUnit? '0' '0' (hexDigit (c.toNat / 16)) (hexDigit (c.toNat % 16)) =
        some c.toNat := by
      rw [codeUnit?, hexValue?_hexDigit hhigh, hexValue?_hexDigit (Nat.mod_lt _ (by decide))]
      have hsum : c.toNat / 16 * 16 + c.toNat % 16 = c.toNat := Nat.div_add_mod' c.toNat 16
      exact congrArg some ((Nat.zero_add _).symm ▸ hsum)
    have hlow : isLowSurrogate c.toNat = false := by simp [isLowSurrogate]; omega
    have hsurrogate : isHighSurrogate c.toNat = false := by simp [isHighSurrogate]; omega
    simp only [List.cons_append, List.nil_append, stringFrom, hunit]
    rw [Option.bind_eq_bind, Option.bind_some, hlow, hsurrogate, Char.ofNat_toNat]
    rfl
  · rw [List.singleton_append, stringFrom, if_neg hcontrol]
    · exact Option.map_eq_bind.symm
    · exact fun _ _ _ _ _ h => absurd h hslash
    · exact fun _ _ h => absurd h hslash
    · exact hquote

/-- A string literal is read up to its closing quote. -/
theorem stringFrom_flatMap (s cs : List Char) :
    stringFrom none (s.flatMap escapedChar ++ '"' :: cs) = some (some s, cs) := by
  induction s with
  | nil => rw [List.flatMap_nil, List.nil_append, stringFrom]; rfl
  | cons c s ih =>
    rw [List.flatMap_cons, List.append_assoc, stringFrom_escapedChar, ih]
    rfl

end Strings

section Numbers

/-- What stands behind a number and does not go on with it. -/
def EndsNumber (rest : List Char) : Prop :=
  ∀ c ∈ rest.head?, c.isDigit = false ∧ c ≠ '.' ∧ c ≠ 'e' ∧ c ≠ 'E'

/-- A run of digits is read as the number that they write behind those read before. -/
theorem digitsFrom_append {digits : List Char} (h : ∀ c ∈ digits, c.isDigit = true)
    (hrest : ∀ c ∈ rest.head?, c.isDigit = false) (value count : ℕ) :
    digitsFrom value count (digits ++ rest) =
      (Nat.ofDigitChars 10 digits value, count + digits.length, rest) := by
  induction digits generalizing value count with
  | nil =>
    cases rest with
    | nil => rfl
    | cons c rest =>
      rw [List.nil_append, digitsFrom, hrest c rfl]
      rfl
  | cons c digits ih =>
    rw [List.cons_append, digitsFrom, h c List.mem_cons_self, if_pos rfl,
      ih fun d hd => h d (List.mem_cons_of_mem c hd), Nat.mul_comm, List.length_cons,
      Nat.add_right_comm]
    rfl

theorem isDigit_digits (n : ℕ) : ∀ c ∈ Nat.toDigits 10 n, c.isDigit = true :=
  fun _ => Nat.isDigit_of_mem_toDigits (by decide) (by decide)

theorem toDigits_ne_nil (n : ℕ) : Nat.toDigits 10 n ≠ [] :=
  List.ne_nil_of_length_pos Nat.length_toDigits_pos

/-- The digits of a positive number do not begin with a zero. -/
theorem head_digits {n : ℕ} (h : 0 < n) : (Nat.toDigits 10 n).head? ≠ some '0' := by
  induction n using Nat.strong_induction_on with
  | _ n ih =>
    by_cases hlt : n < 10
    · have hdigit : ∀ k < 10, 0 < k → [k.digitChar].head? ≠ some '0' := by decide
      rw [Nat.toDigits_of_lt_base hlt]
      exact hdigit n hlt h
    · rw [Nat.toDigits_of_base_le (by decide) (Nat.le_of_not_lt hlt),
        List.head?_append_of_ne_nil _ (toDigits_ne_nil _)]
      exact ih (n / 10) (by omega) (by omega)

/-- What follows a number is no fraction and no exponent of it. -/
theorem EndsNumber.fraction? (hrest : EndsNumber rest) (value : ℕ) :
    fraction? value rest = some (value, 0, rest) := by
  cases rest with
  | nil => rfl
  | cons c rest =>
    unfold Reader.fraction?
    split
    · next heq => exact absurd (List.cons_eq_cons.mp heq).1 (hrest c rfl).2.1
    · rfl

theorem EndsNumber.exponent? (hrest : EndsNumber rest) : exponent? rest = some (none, rest) := by
  cases rest with
  | nil => rfl
  | cons c rest => exact if_neg (not_or.mpr (hrest c rfl).2.2)

/-- A number is read by its digits, its fraction and its exponent. -/
theorem number?_append {digits rest' rest'' : List Char} {value places : ℕ} {exponent : Option ℤ}
    (hdigits : ∀ c ∈ digits, c.isDigit = true) (hne : digits ≠ [])
    (hzero : digits.head? = some '0' → digits.length = 1)
    (hrest : ∀ c ∈ rest.head?, c.isDigit = false)
    (hfraction : fraction? (Nat.ofDigitChars 10 digits 0) rest = some (value, places, rest'))
    (hexponent : exponent? rest' = some (exponent, rest'')) (negative : Bool) :
    number? negative (digits ++ rest) =
      some (if !negative && places == 0 && exponent.isNone then .nat value
        else if negative && value != 0 && places == 0 && exponent.isNone then .minus value
        else .real (if negative then -nearestFloat value (exponent.getD 0 - places)
          else nearestFloat value (exponent.getD 0 - places)), rest'') := by
  have hguard : (0 + digits.length = 0 ||
      (0 + digits.length > 1 && (digits ++ rest).head? == some '0')) = false := by
    have hlength := List.length_pos_iff.mpr hne
    rw [List.head?_append_of_ne_nil _ hne]
    by_cases h : digits.head? = some '0'
    · simp [h, hzero h]
    · simp [h, hne]
  unfold number?
  rw [digitsFrom_append hdigits hrest]
  dsimp only
  rw [hguard]
  rw [if_neg Bool.false_ne_true, hfraction, Option.bind_eq_bind, Option.bind_some]
  dsimp only
  rw [hexponent, Option.bind_eq_bind, Option.bind_some]
  dsimp only
  split_ifs <;> rfl

theorem number?_digits (n : ℕ) (hrest : EndsNumber rest) (negative : Bool)
    (hn : negative = true → n ≠ 0) :
    number? negative (Nat.toDigits 10 n ++ rest) =
      some (if negative then .minus n else .nat n, rest) := by
  have hzero (h : (Nat.toDigits 10 n).head? = some '0') : (Nat.toDigits 10 n).length = 1 := by
    rcases Nat.eq_zero_or_pos n with rfl | hpos
    · rfl
    · exact absurd h (head_digits hpos)
  rw [number?_append (isDigit_digits n) (toDigits_ne_nil n) hzero
    (fun c hc => (hrest c hc).1) (hrest.fraction? _) hrest.exponent? negative,
    Nat.ofDigitChars_ten_toDigits]
  cases negative with
  | false => rfl
  | true => simp [hn rfl]

/-- A value that begins with a digit is a number. -/
theorem value?_digit {c : Char} (h : c.isDigit = true) (fuel : ℕ) (cs : List Char) :
    value? (fuel + 1) (c :: cs) = number? false (c :: cs) := by
  have hspace : isSpace c = false := by
    by_contra hblank
    simp only [isSpace, Bool.not_eq_false, Bool.or_eq_true, beq_iff_eq] at hblank
    rcases hblank with ((rfl | rfl) | rfl) | rfl <;> cases h
  rw [value?, skipSpace_cons hspace]
  split
  all_goals first
    | rfl
    | next heq =>
      obtain ⟨rfl, -⟩ := List.cons_eq_cons.mp heq
      cases h

theorem value?_minus (fuel : ℕ) (cs : List Char) :
    value? (fuel + 1) ('-' :: cs) = number? true cs :=
  rfl

end Numbers

section Lists

variable {fuel : ℕ} {cs' : List Char} {js : List Json}

theorem items?_bracket (h : skipSpace cs = ']' :: cs') : items? fuel cs = none := by
  cases fuel with
  | zero => rfl
  | succ fuel =>
    cases fuel with
    | zero => rfl
    | succ fuel => rw [items?, value?, h]; rfl

theorem members?_brace (h : skipSpace cs = '\x7d' :: cs') : members? fuel cs = none := by
  cases fuel with
  | zero => rfl
  | succ fuel => rw [members?, h]; rfl

theorem value?_array (h : items? fuel cs = some (js, rest)) :
    value? (fuel + 1) ('[' :: cs) = some (.array js, rest) := by
  rw [value?, skipSpace_cons rfl]
  simp only
  split
  · next heq =>
    rw [items?_bracket heq] at h
    cases h
  · rw [items?_skipSpace, h]
    rfl

theorem value?_object {members : List (String × Json)}
    (h : members? fuel cs = some (some members, rest)) :
    value? (fuel + 1) ('\x7b' :: cs) = some (.object members, rest) := by
  rw [value?, skipSpace_cons rfl]
  simp only
  split
  · next heq =>
    rw [members?_brace heq] at h
    cases h
  · rw [members?_skipSpace, h]
    rfl

theorem items?_last (h : value? fuel cs = some (j, cs')) (hclose : skipSpace cs' = ']' :: rest) :
    items? (fuel + 1) cs = some ([j], rest) := by
  simp [items?, h, hclose]

theorem items?_more {more : List Char} (h : value? fuel cs = some (j, cs'))
    (hcomma : skipSpace cs' = ',' :: more) (hmore : items? fuel more = some (js, rest)) :
    items? (fuel + 1) cs = some (j :: js, rest) := by
  simp [items?, h, hcomma, hmore]

theorem toList_quoted_append (name : String) (cs : List Char) :
    (quoted name).toList ++ cs = '"' :: (name.toList.flatMap escapedChar ++ '"' :: cs) := by
  simp [quoted]

/-- The last member is read by its name, a colon, its value and the brace behind it. -/
theorem members?_last (name : String) (h : value? fuel cs = some (j, cs'))
    (hclose : skipSpace cs' = '\x7d' :: rest) :
    members? (fuel + 1) ((quoted name).toList ++ ':' :: cs) = some (some [(name, j)], rest) := by
  rw [toList_quoted_append, members?, skipSpace_cons rfl]
  simp only [stringFrom_flatMap]
  rw [skipSpace_cons rfl]
  simp [h, hclose, memberCons]

theorem members?_more (name : String) {more : List Char} {ms : List (String × Json)}
    (h : value? fuel cs = some (j, cs')) (hcomma : skipSpace cs' = ',' :: more)
    (hmore : members? fuel more = some (some ms, rest)) :
    members? (fuel + 1) ((quoted name).toList ++ ':' :: cs) =
      some (some ((name, j) :: ms), rest) := by
  rw [toList_quoted_append, members?, skipSpace_cons rfl]
  simp only [stringFrom_flatMap]
  rw [skipSpace_cons rfl]
  simp [h, hcomma, hmore, memberCons]

end Lists

section Values

/-- A value whose text is read as that value, whatever stands behind it. -/
def ReadBack (j : Json) : Prop :=
  ∀ ⦃level fuel : ℕ⦄ ⦃rest : List Char⦄, 2 * (prettyAt level j).toList.length ≤ fuel →
    EndsNumber rest → value? fuel ((prettyAt level j).toList ++ rest) = some (j, rest)

/-- A finite float whose text is read as that float. -/
structure Legible (x : Float) : Prop where
  isFinite : x.isFinite = true
  value? : ∀ ⦃fuel : ℕ⦄ ⦃rest : List Char⦄, EndsNumber rest →
    Reader.value? (fuel + 1) ((Decimal.numeral.render x).toList ++ rest) = some (.real x, rest)

/-- The values that have a text of their own. -/
inductive Printable : Json → Prop
  | null : Printable .null
  | bool (b : Bool) : Printable (.bool b)
  | nat (n : ℕ) : Printable (.nat n)
  | minus {n : ℕ} (h : n ≠ 0) : Printable (.minus n)
  | real {x : Float} (h : Legible x) : Printable (.real x)
  | text (s : String) : Printable (.text s)
  | array {items : List Json} (h : ∀ j ∈ items, Printable j) : Printable (.array items)
  | object {members : List (String × Json)} (h : ∀ m ∈ members, Printable m.2) :
    Printable (.object members)

theorem endsNumber_newLine (level : ℕ) (cs : List Char) :
    EndsNumber ((newLine level).toList ++ cs) := by
  rintro c hc
  obtain rfl : '\n' = c := by simpa [newLine] using hc
  decide

theorem endsNumber_cons {c : Char} (h : c.isDigit = false ∧ c ≠ '.' ∧ c ≠ 'e' ∧ c ≠ 'E')
    (cs : List Char) : EndsNumber (c :: cs) := by
  rintro d hd
  obtain rfl : c = d := by simpa using hd
  exact h

theorem toList_prettyItems_cons (level : ℕ) (j : Json) (js : List Json) :
    (prettyItems level (j :: js)).toList = ',' :: ((newLine level).toList ++
      ((prettyAt level j).toList ++ (prettyItems level js).toList)) := by
  simp [prettyItems]

/-- Items are read back up to the bracket behind them. -/
theorem items?_prettyItems {fuel : ℕ} {js : List Json} (level level' : ℕ)
    (h : ∀ i ∈ j :: js, ReadBack i)
    (hfuel : 2 * ((prettyAt level j).toList.length + (prettyItems level js).toList.length) <
      fuel) :
    items? fuel ((prettyAt level j).toList ++ ((prettyItems level js).toList ++
      ((newLine level').toList ++ ']' :: rest))) = some (j :: js, rest) := by
  induction js generalizing j fuel with
  | nil =>
    obtain ⟨fuel, rfl⟩ := Nat.exists_eq_add_one_of_ne_zero (Nat.ne_zero_of_lt hfuel)
    have hj : 2 * (prettyAt level j).toList.length ≤ fuel := by omega
    have hread := h j List.mem_cons_self hj (endsNumber_newLine level' (']' :: rest))
    rw [show (prettyItems level []).toList = [] from String.toList_empty, List.nil_append]
    exact items?_last hread ((skipSpace_newLine level' _).trans (skipSpace_cons rfl rest))
  | cons i js ih =>
    obtain ⟨fuel, rfl⟩ := Nat.exists_eq_add_one_of_ne_zero (Nat.ne_zero_of_lt hfuel)
    rw [toList_prettyItems_cons] at hfuel ⊢
    simp only [List.length_cons, List.length_append] at hfuel
    have hj : 2 * (prettyAt level j).toList.length ≤ fuel := by omega
    have hmore : items? fuel _ = some (i :: js, rest) :=
      ih (fun k hk => h k (List.mem_cons_of_mem j hk)) (by omega)
    rw [← items?_skipSpace, ← skipSpace_newLine level, items?_skipSpace] at hmore
    refine items?_more (h j List.mem_cons_self hj (endsNumber_cons (by decide) _))
      (skipSpace_cons rfl _) ?_
    simpa using hmore

theorem toList_prettyMembers_cons (level : ℕ) (m : String × Json) (ms : List (String × Json)) :
    (prettyMembers level (m :: ms)).toList = ',' :: ((newLine level).toList ++
      ((quoted m.1).toList ++ ':' :: ' ' :: ((prettyAt level m.2).toList ++
        (prettyMembers level ms).toList))) := by
  simp [prettyMembers]

/-- Members are read back up to the brace behind them. -/
theorem members?_prettyMembers {fuel : ℕ} {m : String × Json} {ms : List (String × Json)}
    (level level' : ℕ) (h : ∀ n ∈ m :: ms, ReadBack n.2)
    (hfuel : 2 * ((prettyAt level m.2).toList.length + (prettyMembers level ms).toList.length) <
      fuel) :
    members? fuel ((quoted m.1).toList ++ ':' :: ' ' :: ((prettyAt level m.2).toList ++
      ((prettyMembers level ms).toList ++ ((newLine level').toList ++ '\x7d' :: rest)))) =
        some (some (m :: ms), rest) := by
  induction ms generalizing m fuel with
  | nil =>
    obtain ⟨fuel, rfl⟩ := Nat.exists_eq_add_one_of_ne_zero (Nat.ne_zero_of_lt hfuel)
    have hm : 2 * (prettyAt level m.2).toList.length ≤ fuel := by omega
    have hread := h m List.mem_cons_self hm (endsNumber_newLine level' ('\x7d' :: rest))
    rw [← value?_blank] at hread
    rw [show (prettyMembers level []).toList = [] from String.toList_empty, List.nil_append]
    exact members?_last m.1 hread ((skipSpace_newLine level' _).trans (skipSpace_cons rfl rest))
  | cons n ms ih =>
    obtain ⟨fuel, rfl⟩ := Nat.exists_eq_add_one_of_ne_zero (Nat.ne_zero_of_lt hfuel)
    rw [toList_prettyMembers_cons] at hfuel ⊢
    simp only [List.length_cons, List.length_append] at hfuel
    have hm : 2 * (prettyAt level m.2).toList.length ≤ fuel := by omega
    have hmore : members? fuel _ = some (some (n :: ms), rest) :=
      ih (fun k hk => h k (List.mem_cons_of_mem m hk)) (by omega)
    rw [← members?_skipSpace, ← skipSpace_newLine level, members?_skipSpace] at hmore
    have hread (tail : List Char) : value? fuel (' ' :: ((prettyAt level m.2).toList ++
        ',' :: tail)) = some (m.2, ',' :: tail) :=
      (value?_blank fuel _).trans (h m List.mem_cons_self hm (endsNumber_cons (by decide) tail))
    refine members?_more m.1 (hread _) (skipSpace_cons rfl _) ?_
    simpa using hmore

theorem ReadBack.of_text (text : List Char) (htext : ∀ level, (prettyAt level j).toList = text)
    (hne : text ≠ []) (h : ∀ ⦃fuel : ℕ⦄ ⦃rest : List Char⦄, EndsNumber rest →
      value? (fuel + 1) (text ++ rest) = some (j, rest)) : ReadBack j := by
  intro level fuel rest hfuel hrest
  rw [htext] at hfuel ⊢
  have hlength := List.length_pos_iff.mpr hne
  obtain ⟨fuel, rfl⟩ := Nat.exists_eq_add_one_of_ne_zero (n := fuel) (by omega)
  exact h hrest

theorem readBack_nat (n : ℕ) : ReadBack (.nat n) := by
  have hne : Nat.toDigits 10 n ≠ [] := toDigits_ne_nil n
  refine ReadBack.of_text (Nat.toDigits 10 n) (fun level => ?_) hne ?_
  · rw [prettyAt, Decimal.digitText, String.toList_ofList]
  · intro fuel rest hrest
    have hread := number?_digits n hrest false nofun
    obtain ⟨c, cs, hdigits⟩ := List.exists_cons_of_ne_nil hne
    have hdigit := isDigit_digits n c (hdigits ▸ List.mem_cons_self)
    rw [hdigits] at hread ⊢
    exact (value?_digit hdigit fuel _).trans hread

theorem readBack_array {items : List Json} (h : ∀ j ∈ items, ReadBack j) :
    ReadBack (.array items) := by
  cases items with
  | nil =>
    exact ReadBack.of_text ['[', ']'] (fun _ => by simp [prettyAt]) (List.cons_ne_nil _ _)
      fun _ _ _ => rfl
  | cons j js =>
    intro level fuel rest hfuel hrest
    have htext : (prettyAt level (.array (j :: js))).toList =
        '[' :: ((newLine (level + 1)).toList ++ ((prettyAt (level + 1) j).toList ++
          ((prettyItems (level + 1) js).toList ++ ((newLine level).toList ++ [']'])))) := by
      simp [prettyAt]
    rw [htext] at hfuel ⊢
    simp only [List.length_cons, List.length_append] at hfuel
    obtain ⟨fuel, rfl⟩ := Nat.exists_eq_add_one_of_ne_zero (n := fuel) (by omega)
    have hitems : items? fuel _ = some (j :: js, rest) :=
      items?_prettyItems (level + 1) level h (by omega)
    rw [← items?_skipSpace, ← skipSpace_newLine (level + 1), items?_skipSpace] at hitems
    refine value?_array ?_
    simpa using hitems

theorem readBack_object {members : List (String × Json)} (h : ∀ m ∈ members, ReadBack m.2) :
    ReadBack (.object members) := by
  cases members with
  | nil =>
    exact ReadBack.of_text ['\x7b', '\x7d'] (fun _ => by simp [prettyAt]) (List.cons_ne_nil _ _)
      fun _ _ _ => rfl
  | cons m ms =>
    intro level fuel rest hfuel hrest
    have htext : (prettyAt level (.object (m :: ms))).toList =
        '\x7b' :: ((newLine (level + 1)).toList ++ ((quoted m.1).toList ++ ':' :: ' ' ::
          ((prettyAt (level + 1) m.2).toList ++ ((prettyMembers (level + 1) ms).toList ++
            ((newLine level).toList ++ ['\x7d']))))) := by
      simp [prettyAt]
    rw [htext] at hfuel ⊢
    simp only [List.length_cons, List.length_append] at hfuel
    obtain ⟨fuel, rfl⟩ := Nat.exists_eq_add_one_of_ne_zero (n := fuel) (by omega)
    have hmembers : members? fuel _ = some (some (m :: ms), rest) :=
      members?_prettyMembers (level + 1) level h (by omega)
    rw [← members?_skipSpace, ← skipSpace_newLine (level + 1), members?_skipSpace] at hmembers
    refine value?_object ?_
    simpa using hmembers

/-- The text of a value is read as that value. -/
theorem Printable.readBack (h : Printable j) : ReadBack j := by
  induction h with
  | null =>
    exact ReadBack.of_text ['n', 'u', 'l', 'l'] (fun _ => by simp [prettyAt])
      (List.cons_ne_nil _ _) fun _ _ _ => rfl
  | bool b =>
    cases b with
    | false =>
      exact ReadBack.of_text ['f', 'a', 'l', 's', 'e'] (fun _ => by simp [prettyAt])
        (List.cons_ne_nil _ _) fun _ _ _ => rfl
    | true =>
      exact ReadBack.of_text ['t', 'r', 'u', 'e'] (fun _ => by simp [prettyAt])
        (List.cons_ne_nil _ _) fun _ _ _ => rfl
  | nat n => exact readBack_nat n
  | @minus n h =>
    refine ReadBack.of_text ('-' :: Nat.toDigits 10 n) (fun level => ?_)
      (List.cons_ne_nil _ _) fun fuel rest hrest => ?_
    · simp [prettyAt, Decimal.digitText]
    · exact (value?_minus fuel _).trans (number?_digits n hrest true fun _ => h)
  | @real x h =>
    have htext : ∀ level, (prettyAt level (.real x)).toList =
        (Decimal.numeral.render x).toList := fun level => by
      rw [prettyAt, if_pos h.isFinite]
    refine ReadBack.of_text _ htext (fun hnil => ?_) fun fuel rest hrest => h.value? hrest
    have hread : value? 1 ((Decimal.numeral.render x).toList ++ []) = some (.real x, []) :=
      h.value? nofun
    rw [hnil] at hread
    cases hread
  | text s =>
    refine ReadBack.of_text ('"' :: (s.toList.flatMap escapedChar ++ ['"']))
      (fun _ => by simp [prettyAt, quoted]) (List.cons_ne_nil _ _) fun fuel rest _ => ?_
    rw [List.cons_append, List.append_assoc, value?, skipSpace_cons rfl]
    simp [stringFrom_flatMap]
  | array h ih => exact readBack_array ih
  | object h ih => exact readBack_object ih

/-- Reading undoes writing. -/
theorem parse?_pretty (h : Printable j) : parse? j.pretty = some j := by
  have hread : value? (2 * (prettyAt 0 j).toList.length + 2) ((prettyAt 0 j).toList ++ []) =
      some (j, []) := h.readBack (Nat.le_add_right _ 2) nofun
  rw [List.append_nil] at hread
  unfold parse? pretty
  dsimp only
  rw [hread]
  rfl

end Values

end PatchSearch.Json
