import Mathlib.Data.List.Infix
import PatchSearch.Text.Substitution

/-!
Placeholders put in one after the other, and all at once. A single pass reads a text and writes a
value for each placeholder in it, whatever the values hold. Substitutions one after the other read
the values of the earlier ones again. They come to the same as the single pass if no value takes
part in a later placeholder: none starts in it, and none that the text before begins is ended by it.
-/
namespace PatchSearch.Text

/-- Skips `skip` characters, then writes a value for each pattern that the text goes on with. -/
def substituteAllFrom (values : List (List Char × List Char)) : ℕ → List Char → List Char
  | _, [] => []
  | skip + 1, _ :: cs => substituteAllFrom values skip cs
  | 0, c :: cs =>
    match values.find? fun v => v.1.isPrefixOf (c :: cs) with
    | some v => v.2 ++ substituteAllFrom values (v.1.length - 1) cs
    | none => c :: substituteAllFrom values 0 cs

/-- The text with its value for each occurrence of a pattern, all occurrences being those in the
text itself. -/
def substituteAll (values : List (List Char × List Char)) (text : List Char) : List Char :=
  substituteAllFrom values 0 text

section Passes

variable {values : List (List Char × List Char)} {p v w cs s : List Char} {c : Char}

theorem substituteAllFrom_eq (values : List (List Char × List Char)) (skip : ℕ) (cs : List Char) :
    substituteAllFrom values skip cs = substituteAll values (cs.drop skip) := by
  induction cs generalizing skip with
  | nil => cases skip <;> rfl
  | cons c cs ih =>
    cases skip with
    | zero => rfl
    | succ skip => exact ih skip

theorem substituteAll_of_find?_eq_some {q : List Char × List Char}
    (h : values.find? (fun v => v.1.isPrefixOf (c :: cs)) = some q) :
    substituteAll values (c :: cs) = q.2 ++ substituteAll values (cs.drop (q.1.length - 1)) := by
  rw [substituteAll, substituteAllFrom, h]
  exact congrArg (q.2 ++ ·) (substituteAllFrom_eq values _ cs)

theorem substituteAll_of_find?_eq_none
    (h : values.find? (fun v => v.1.isPrefixOf (c :: cs)) = none) :
    substituteAll values (c :: cs) = c :: substituteAll values cs := by
  rw [substituteAll, substituteAllFrom, h]
  rfl

theorem substituteAll_nil_values (cs : List Char) : substituteAll [] cs = cs := by
  induction cs with
  | nil => rfl
  | cons c cs ih => rw [substituteAll_of_find?_eq_none rfl, ih]

/-- Substituting one pattern is a pass with that pattern alone. -/
theorem substitute_eq_substituteAll (p v cs : List Char) :
    substitute p v cs = substituteAll [(p, v)] cs := by
  have hfrom (skip : ℕ) : substituteFrom p v skip cs = substituteAllFrom [(p, v)] skip cs := by
    induction cs generalizing skip with
    | nil => cases skip <;> rfl
    | cons c cs ih =>
      cases skip with
      | zero =>
        rw [substituteFrom, substituteAllFrom, List.find?_singleton, ih, ih]
        split <;> rfl
      | succ skip => exact ih skip
  exact hfrom 0

theorem substitute_of_isPrefix (h : p <+: c :: cs) :
    substitute p v (c :: cs) = v ++ substitute p v (cs.drop (p.length - 1)) := by
  have hfind : [(p, v)].find? (fun q => q.1.isPrefixOf (c :: cs)) = some (p, v) := by simpa using h
  rw [substitute_eq_substituteAll, substitute_eq_substituteAll]
  exact substituteAll_of_find?_eq_some hfind

theorem substitute_of_not_isPrefix (h : ¬ p <+: c :: cs) :
    substitute p v (c :: cs) = c :: substitute p v cs := by
  have hfind : [(p, v)].find? (fun q => q.1.isPrefixOf (c :: cs)) = none := by simpa using h
  rw [substitute_eq_substituteAll, substitute_eq_substituteAll]
  exact substituteAll_of_find?_eq_none hfind

/-- How often each character occurs after a substitution: every occurrence of the pattern takes its
characters away and brings those of the value. -/
theorem count_substitute (hp : p ≠ []) (v cs : List Char) :
    ∃ n, (p <:+: cs → 0 < n) ∧
      ∀ c, (substitute p v cs).count c + n * p.count c = cs.count c + n * v.count c := by
  induction hlength : cs.length using Nat.strong_induction_on generalizing cs with
  | _ length ih =>
    cases cs with
    | nil => exact ⟨0, fun h => absurd (List.infix_nil.mp h) hp, fun c => by simp [substitute_nil]⟩
    | cons a cs =>
      by_cases h : p <+: a :: cs
      · obtain ⟨n, -, hcount⟩ := ih (cs.drop (p.length - 1)).length
          (by rw [← hlength, List.length_drop, List.length_cons]; omega) _ rfl
        refine ⟨n + 1, fun _ => Nat.succ_pos n, fun c => ?_⟩
        have htail : a :: cs = p ++ cs.drop (p.length - 1) := by
          obtain ⟨rest, hrest⟩ := h
          obtain ⟨b, p', rfl⟩ := List.exists_cons_of_ne_nil hp
          obtain ⟨rfl, rfl⟩ := List.cons_eq_cons.mp hrest
          simp
        rw [substitute_of_isPrefix h, List.count_append, Nat.succ_mul, Nat.succ_mul]
        have hall := congrArg (List.count c) htail
        rw [List.count_append] at hall
        have hlater := hcount c
        omega
      · obtain ⟨n, hn, hcount⟩ := ih cs.length (by simp [← hlength]) cs rfl
        refine ⟨n, fun hinfix => hn ?_, fun c => ?_⟩
        · exact (List.infix_cons_iff.mp hinfix).resolve_left h
        · rw [substitute_of_not_isPrefix h, List.count_cons, List.count_cons]
          have hlater := hcount c
          omega

/-- A placeholder: a name in braces. -/
def IsPlaceholder (p : List Char) : Prop :=
  ∃ name, p = '{' :: (name ++ ['}']) ∧ '{' ∉ name ∧ '}' ∉ name ∧ '/' ∉ name

/-- A value that takes no part in occurrences of a pattern: none starts in it, and none is ended by
it. -/
structure Inert (p w : List Char) : Prop where
  inside : ∀ s, s ≠ [] → s <:+ w → ∀ rest, ¬ p <+: s ++ rest
  start : ∀ s, s ≠ [] → s <:+ p → ∀ rest, ¬ s <+: w ++ rest

theorem Inert.substitute_append (h : Inert p w) (v rest : List Char) :
    substitute p v (w ++ rest) = w ++ substitute p v rest := by
  have hinside := h.inside
  clear h
  induction w with
  | nil => rfl
  | cons c w ih =>
    have hfirst : ¬ p <+: c :: (w ++ rest) :=
      hinside (c :: w) (List.cons_ne_nil c w) List.suffix_rfl rest
    rw [List.cons_append, substitute_of_not_isPrefix hfirst,
      ih fun s hne hs => hinside s hne (hs.trans (List.suffix_cons c w)), List.cons_append]

theorem IsPlaceholder.head (h : IsPlaceholder p) (hleads : p <+: c :: cs) : c = '{' := by
  obtain ⟨name, rfl, -⟩ := h
  obtain ⟨rest, hrest⟩ := hleads
  exact (List.cons_eq_cons.mp hrest).1.symm

theorem find?_eq_none_of_ne (hvalues : ∀ q ∈ values, IsPlaceholder q.1) (hc : c ≠ '{') :
    values.find? (fun v => v.1.isPrefixOf (c :: cs)) = none := by
  rw [List.find?_eq_none]
  intro q hq hleads
  exact hc ((hvalues q hq).head (by simpa using hleads))

/-- Characters that begin no placeholder stay. -/
theorem substituteAll_of_isPrefix (hvalues : ∀ q ∈ values, IsPlaceholder q.1) (hs : '{' ∉ s)
    (hleads : s <+: cs) :
    substituteAll values cs = s ++ substituteAll values (cs.drop s.length) := by
  induction s generalizing cs with
  | nil => rfl
  | cons a s ih =>
    obtain ⟨rest, rfl⟩ := hleads
    have ha : a ≠ '{' := (List.ne_of_not_mem_cons hs).symm
    rw [List.cons_append, substituteAll_of_find?_eq_none (find?_eq_none_of_ne hvalues ha),
      ih (List.not_mem_of_not_mem_cons hs) (List.prefix_append s rest)]
    rfl

/-- After a pass a text goes on with what it went on with before, unless a value does. -/
theorem prefix_substituteAll_iff (hvalues : ∀ q ∈ values, IsPlaceholder q.1) (hs : '{' ∉ s)
    (hstart : ∀ q ∈ values, ∀ s', s' ≠ [] → s' <:+ s → ∀ rest, ¬ s' <+: q.2 ++ rest) :
    s <+: substituteAll values cs ↔ s <+: cs := by
  induction s generalizing cs with
  | nil => exact iff_of_true List.nil_prefix List.nil_prefix
  | cons a s ih =>
    have ha : a ≠ '{' := (List.ne_of_not_mem_cons hs).symm
    cases cs with
    | nil => rfl
    | cons c cs =>
      cases hfind : values.find? fun v => v.1.isPrefixOf (c :: cs) with
      | some q =>
        have hq := List.mem_of_find?_eq_some hfind
        have hc : c = '{' := (hvalues q hq).head (by simpa using List.find?_some hfind)
        rw [substituteAll_of_find?_eq_some hfind]
        refine iff_of_false (hstart q hq _ (List.cons_ne_nil a s) List.suffix_rfl _) ?_
        rw [List.cons_prefix_cons, hc]
        exact fun h => ha h.1
      | none =>
        rw [substituteAll_of_find?_eq_none hfind, List.cons_prefix_cons, List.cons_prefix_cons,
          ih (List.not_mem_of_not_mem_cons hs)
            fun q hq s' hne hs' => hstart q hq s' hne (hs'.trans (List.suffix_cons a s))]

/-- A substitution after a pass is one more pattern in the pass, if the values of the others take no
part in it. -/
theorem substitute_substituteAll (hvalues : ∀ q ∈ values, IsPlaceholder q.1)
    (hp : IsPlaceholder p) (hinert : ∀ q ∈ values, Inert p q.2) (v cs : List Char) :
    substitute p v (substituteAll values cs) = substituteAll (values ++ [(p, v)]) cs := by
  induction hlength : cs.length using Nat.strong_induction_on generalizing cs with
  | _ length ih =>
    cases cs with
    | nil => rfl
    | cons c cs =>
      cases hfind : values.find? fun v => v.1.isPrefixOf (c :: cs) with
      | some q =>
        have hboth : (values ++ [(p, v)]).find? (fun v => v.1.isPrefixOf (c :: cs)) = some q := by
          rw [List.find?_append, hfind, Option.some_or]
        rw [substituteAll_of_find?_eq_some hfind, substituteAll_of_find?_eq_some hboth,
          (hinert q (List.mem_of_find?_eq_some hfind)).substitute_append,
          ih _ (by rw [← hlength, List.length_drop, List.length_cons]; omega) _ rfl]
      | none =>
        obtain ⟨name, rfl, hname, -⟩ := hp
        have hbody : '{' ∉ name ++ ['}'] := by simp [hname]
        have hstarts : name ++ ['}'] <+: substituteAll values cs ↔ name ++ ['}'] <+: cs :=
          prefix_substituteAll_iff hvalues hbody fun q hq s' hne hs' =>
            (hinert q hq).start s' hne (hs'.trans (List.suffix_cons _ _))
        rw [substituteAll_of_find?_eq_none hfind]
        by_cases hleads : '{' :: (name ++ ['}']) <+: c :: cs
        · have hboth : (values ++ [('{' :: (name ++ ['}']), v)]).find?
              (fun v => v.1.isPrefixOf (c :: cs)) = some ('{' :: (name ++ ['}']), v) := by
            rw [List.find?_append, hfind, Option.none_or]
            simpa using hleads
          obtain ⟨rfl, htail⟩ := List.cons_prefix_cons.mp hleads
          rw [substituteAll_of_find?_eq_some hboth,
            substitute_of_isPrefix (List.cons_prefix_cons.mpr ⟨rfl, hstarts.mpr htail⟩),
            substituteAll_of_isPrefix hvalues hbody htail]
          have hdrop : (name ++ ['}'] ++
              substituteAll values (cs.drop (name ++ ['}']).length)).drop
                (('{' :: (name ++ ['}'])).length - 1) =
              substituteAll values (cs.drop (name ++ ['}']).length) := by
            rw [List.length_cons, Nat.add_sub_cancel, List.drop_left]
          have hless : (cs.drop (name ++ ['}']).length).length < length := by
            rw [← hlength, List.length_drop, List.length_cons]
            omega
          rw [hdrop, ih _ hless _ rfl]
          rfl
        · have hboth : (values ++ [('{' :: (name ++ ['}']), v)]).find?
              (fun v => v.1.isPrefixOf (c :: cs)) = none := by
            rw [List.find?_append, hfind, Option.none_or]
            simpa using hleads
          have hnot : ¬ '{' :: (name ++ ['}']) <+: c :: substituteAll values cs := by
            rw [List.cons_prefix_cons, hstarts, ← List.cons_prefix_cons]
            exact hleads
          rw [substituteAll_of_find?_eq_none hboth, substitute_of_not_isPrefix hnot,
            ih _ (by simp [← hlength]) _ rfl]

/-- Substitutions one after the other are a single pass, if no value takes part in a later one. -/
theorem foldl_substitute (values : List (List Char × List Char))
    (hvalues : ∀ q ∈ values, IsPlaceholder q.1)
    (hinert : values.Pairwise fun q r => Inert r.1 q.2) (cs : List Char) :
    values.foldl (fun text q => substitute q.1 q.2 text) cs = substituteAll values cs := by
  induction values using List.reverseRecOn with
  | nil => exact (substituteAll_nil_values cs).symm
  | append_singleton values q ih =>
    obtain ⟨hearlier, -, hlast⟩ := List.pairwise_append.mp hinert
    rw [List.foldl_append, ih (fun r hr => hvalues r (by simp [hr])) hearlier]
    exact substitute_substituteAll (fun r hr => hvalues r (by simp [hr]))
      (hvalues q (by simp)) (fun r hr => hlast r hr q (by simp)) q.2 cs

end Passes

/-- A text that holds no occurrence of a pattern and does not start with the end of one. -/
structure Clear (p text : List Char) : Prop where
  inside : ¬ p <:+: text
  start : ∀ s, s ≠ [] → s <:+ p → ¬ s <+: text

section Values

variable {p text tail : List Char}

theorem IsPlaceholder.ne_nil (h : IsPlaceholder p) : p ≠ [] := by
  obtain ⟨name, rfl, -⟩ := h
  exact List.cons_ne_nil _ _

theorem IsPlaceholder.slash (h : IsPlaceholder p) : '/' ∉ p := by
  obtain ⟨name, rfl, -, -, hslash⟩ := h
  simp [hslash]

/-- Every end of a placeholder ends with its closing brace. -/
theorem IsPlaceholder.getLast? {s : List Char} (h : IsPlaceholder p) (hne : s ≠ [])
    (hs : s <:+ p) : s.getLast? = some '}' := by
  obtain ⟨name, rfl, -⟩ := h
  obtain ⟨front, hfront⟩ := hs
  rw [← List.getLast?_append_of_ne_nil front hne, hfront, ← List.cons_append,
    List.getLast?_concat]

/-- Where a text goes on with characters other than braces, it starts with the end of a placeholder
only by itself. -/
theorem prefix_of_prefix_append {s rest : List Char} (hlast : s.getLast? = some '}')
    (hslash : '/' ∉ s) (hclose : '}' ∉ tail) (hsep : '/' ∈ tail)
    (h : s <+: text ++ tail ++ rest) : s <+: text := by
  have hin : s <+: text ++ tail := by
    refine (List.prefix_or_prefix_of_prefix h (List.prefix_append _ rest)).resolve_right ?_
    exact fun hall => hslash (hall.subset (List.mem_append_right text hsep))
  rcases List.prefix_or_prefix_of_prefix hin (List.prefix_append text tail) with hs | ⟨more, rfl⟩
  · exact hs
  · have hmore : more <+: tail := (List.prefix_append_right_inj text).mp hin
    by_cases hnil : more = []
    · simp [hnil]
    · rw [List.getLast?_append_of_ne_nil text hnil] at hlast
      exact absurd (hmore.subset (List.mem_of_getLast? hlast)) hclose

theorem Clear.inert (hp : IsPlaceholder p) (h : Clear p text) (hopen : '{' ∉ tail)
    (hclose : '}' ∉ tail) (hsep : '/' ∈ tail) : Inert p (text ++ tail) := by
  refine ⟨fun s hne hs rest hleads => ?_, fun s hne hs rest hleads => ?_⟩
  · rcases List.suffix_or_suffix_of_suffix hs (List.suffix_append text tail) with hs' | ⟨s', rfl⟩
    · obtain ⟨c, cs, rfl⟩ := List.exists_cons_of_ne_nil hne
      exact hopen (hp.head hleads ▸ hs'.subset List.mem_cons_self)
    · obtain ⟨front, hfront⟩ := hs
      rw [← List.append_assoc, List.append_left_inj] at hfront
      have hin : p <+: s' := prefix_of_prefix_append (hp.getLast? hp.ne_nil List.suffix_rfl)
        hp.slash hclose hsep hleads
      exact h.inside (hin.isInfix.trans ⟨front, [], by rw [List.append_nil, hfront]⟩)
  · have hslash : '/' ∉ s := fun hmem => hp.slash (hs.subset hmem)
    exact h.start s hne hs (prefix_of_prefix_append (hp.getLast? hne hs) hslash hclose hsep hleads)

/-- A text that is not clear of a placeholder makes one when it stands behind a beginning of it. -/
theorem exists_infix_of_not_clear (hp : p ≠ []) (h : ¬ Clear p text) (rest : List Char) :
    ∃ k < p.length, p <:+: p.take k ++ (text ++ rest) := by
  by_cases hinside : p <:+: text
  · refine ⟨0, List.length_pos_iff.mpr hp, ?_⟩
    rw [List.take_zero, List.nil_append]
    exact hinside.trans (List.prefix_append text rest).isInfix
  · obtain ⟨s, hne, hs, hleads⟩ : ∃ s, s ≠ [] ∧ s <:+ p ∧ s <+: text := by
      by_contra hnone
      exact h ⟨hinside, fun s hne hs hleads => hnone ⟨s, hne, hs, hleads⟩⟩
    obtain ⟨front, rfl⟩ := hs
    refine ⟨front.length, ?_, ?_⟩
    · have := List.length_pos_iff.mpr hne
      simpa using this
    · rw [List.take_left]
      exact ((List.prefix_append_right_inj front).mpr
        (hleads.trans (List.prefix_append text rest))).isInfix

section Beginnings

variable {values : List (List Char × List Char)} {q w cs : List Char} {k : ℕ}

/-- A beginning of a placeholder stays where another one follows. -/
theorem substituteAll_take_append (hvalues : ∀ v ∈ values, IsPlaceholder v.1)
    (hp : IsPlaceholder p) (hk : k < p.length) :
    substituteAll values (p.take k ++ '{' :: cs) =
      p.take k ++ substituteAll values ('{' :: cs) := by
  obtain ⟨name, rfl, hopen, hclose, -⟩ := hp
  cases k with
  | zero => rfl
  | succ k =>
    have htake : (name ++ ['}']).take k = name.take k :=
      List.take_append_of_le_length (by simp at hk; omega)
    have hopen' : '{' ∉ name.take k := fun h => hopen (List.mem_of_mem_take h)
    have hfind : values.find? (fun v => v.1.isPrefixOf ('{' :: (name.take k ++ '{' :: cs))) =
        none := by
      rw [List.find?_eq_none]
      intro v hv hleads
      obtain ⟨name', hname', hopen'', -⟩ := hvalues v hv
      rw [hname', List.isPrefixOf_iff_prefix, List.cons_prefix_cons] at hleads
      rcases List.prefix_or_prefix_of_prefix hleads.2 (List.prefix_append _ _) with h | ⟨r, hr⟩
      · exact hclose (List.mem_of_mem_take (h.subset (by simp)))
      · have hmore : r <+: '{' :: cs := by
          rw [← hr, List.prefix_append_right_inj] at hleads
          exact hleads.2
        cases r with
        | nil =>
          rw [List.append_nil] at hr
          have hmem : '}' ∈ name.take k := by simp [hr]
          exact hclose (List.mem_of_mem_take hmem)
        | cons d r =>
          obtain ⟨rfl, -⟩ := List.cons_prefix_cons.mp hmore
          have hmem : '{' ∈ name' ++ ['}'] := hr ▸ by simp
          exact hopen'' (by simpa using hmem)
    rw [List.take_succ_cons, htake, List.cons_append, substituteAll_of_find?_eq_none hfind,
      substituteAll_of_isPrefix hvalues hopen' (List.prefix_append _ _), List.drop_left]
    rfl

/-- A placeholder alone gives way to its value. -/
theorem substituteAll_self (hq : IsPlaceholder q)
    (hfind : values.find? (fun v => v.1.isPrefixOf q) = some (q, w)) :
    substituteAll values q = w := by
  obtain ⟨c, cs, rfl⟩ := List.exists_cons_of_ne_nil hq.ne_nil
  rw [substituteAll_of_find?_eq_some hfind, List.length_cons, Nat.add_sub_cancel, List.drop_length]
  exact List.append_nil w

/-- It stays if it is none of the patterns. -/
theorem substituteAll_of_not_isPrefix (hvalues : ∀ v ∈ values, IsPlaceholder v.1)
    (hq : IsPlaceholder q) (hother : ∀ v ∈ values, ¬ v.1 <+: q) : substituteAll values q = q := by
  obtain ⟨name, rfl, hopen, -⟩ := hq
  have hfind : values.find? (fun v => v.1.isPrefixOf ('{' :: (name ++ ['}']))) = none := by
    rw [List.find?_eq_none]
    intro v hv
    simpa using hother v hv
  have hbody : '{' ∉ name ++ ['}'] := by simp [hopen]
  rw [substituteAll_of_find?_eq_none hfind,
    substituteAll_of_isPrefix hvalues hbody List.prefix_rfl, List.drop_length]
  exact congrArg _ (List.append_nil _)

/-- Behind a beginning of any placeholder another one gives way to its value when its turn comes,
and so it does in a single pass. -/
theorem foldl_take_append (before : List (List Char × List Char))
    {after : List (List Char × List Char)}
    (hvalues : ∀ v ∈ before ++ (q, w) :: after, IsPlaceholder v.1)
    (hother : ∀ v ∈ before, ¬ v.1 <+: q) (hp : IsPlaceholder p) (hk : k < p.length) :
    (before ++ (q, w) :: after).foldl (fun text v => substitute v.1 v.2 text) (p.take k ++ q) =
        after.foldl (fun text v => substitute v.1 v.2 text) (p.take k ++ w) ∧
      substituteAll (before ++ (q, w) :: after) (p.take k ++ q) = p.take k ++ w := by
  have hq : IsPlaceholder q := hvalues (q, w) (by simp)
  have hpass {values : List (List Char × List Char)} (h : ∀ v ∈ values, IsPlaceholder v.1) :
      substituteAll values (p.take k ++ q) = p.take k ++ substituteAll values q := by
    obtain ⟨name, rfl, -⟩ := hq
    exact substituteAll_take_append h hp hk
  have hone {v : List Char × List Char} (hv : v ∈ before ++ (q, w) :: after) :
      substitute v.1 v.2 (p.take k ++ q) = p.take k ++ substitute v.1 v.2 q := by
    rw [substitute_eq_substituteAll, substitute_eq_substituteAll]
    exact hpass (List.forall_mem_singleton.mpr (hvalues v hv))
  have hbefore : before.foldl (fun text v => substitute v.1 v.2 text) (p.take k ++ q) =
      p.take k ++ q := by
    refine List.foldlRecOn before _ (motive := (· = p.take k ++ q)) rfl fun text htext v hv => ?_
    have hstays : substitute v.1 v.2 q = q := by
      rw [substitute_eq_substituteAll]
      exact substituteAll_of_not_isPrefix
        (List.forall_mem_singleton.mpr (hvalues v (List.mem_append_left _ hv))) hq
        (List.forall_mem_singleton.mpr (hother v hv))
    rw [htext, hone (List.mem_append_left _ hv), hstays]
  refine ⟨?_, ?_⟩
  · have hself : substitute q w q = w := by
      rw [substitute_eq_substituteAll]
      exact substituteAll_self hq (by simp)
    rw [List.foldl_append, hbefore, List.foldl_cons, hone (by simp), hself]
  · have hfind : (before ++ (q, w) :: after).find? (fun v => v.1.isPrefixOf q) = some (q, w) := by
      have hnone : before.find? (fun v => v.1.isPrefixOf q) = none := by
        rw [List.find?_eq_none]
        intro v hv
        simpa using hother v hv
      rw [List.find?_append, hnone, Option.none_or]
      simp
    rw [hpass hvalues, substituteAll_self hq hfind]

end Beginnings

/-- A pattern with a brace gives way to a value without one, so a text with the pattern changes. -/
theorem substitute_ne_of_infix {value : List Char} (hp : IsPlaceholder p) (h : p <:+: text)
    (hvalue : '{' ∉ value) : substitute p value text ≠ text := by
  intro heq
  obtain ⟨n, hn, hcount⟩ := count_substitute hp.ne_nil value text
  have hbrace := hcount '{'
  rw [heq, List.count_eq_zero.mpr hvalue] at hbrace
  have hpos : 0 < p.count '{' := by
    obtain ⟨name, rfl, -⟩ := hp
    simp
  have := Nat.mul_pos (hn h) hpos
  omega

/-- A placeholder that gives way to a path leaves the text with more separators, and further
placeholders leave all of them. -/
theorem substitute_substitute_ne_of_infix {q value later : List Char} (hp : IsPlaceholder p)
    (hq : IsPlaceholder q) (h : p <:+: text) (hvalue : '/' ∈ value) :
    substitute q later (substitute p value text) ≠ text := by
  intro heq
  obtain ⟨n, hn, hcount⟩ := count_substitute hp.ne_nil value text
  obtain ⟨m, -, hcount'⟩ := count_substitute hq.ne_nil later (substitute p value text)
  have hfirst := hcount '/'
  have hsecond := hcount' '/'
  rw [heq, List.count_eq_zero.mpr hq.slash] at hsecond
  rw [List.count_eq_zero.mpr hp.slash] at hfirst
  have := Nat.mul_pos (hn h) (List.count_pos_iff.mpr hvalue)
  omega

end Values

end PatchSearch.Text
