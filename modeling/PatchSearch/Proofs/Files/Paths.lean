import Mathlib.Data.List.Infix
import Mathlib.Data.List.TakeWhile
import PatchSearch.Files.Tree

/-!
Paths as ways through a tree. The steps of a joined path are the steps of the base and then those
of the path, and all steps together lead so many directories up and then down along some names. So
where a path leads to, as long as no link stands on its way, is told by these two alone.
-/
namespace PatchSearch

section Steps

theorem slashParts_append (pending before after : List Char) :
    slashParts pending (before ++ '/' :: after) =
      slashParts pending before ++ slashParts [] after := by
  induction before generalizing pending with
  | nil => simp [slashParts]
  | cons c cs ih =>
    by_cases hc : c = '/'
    · simp [slashParts, hc, ih]
    · simp [slashParts, hc, ih]

theorem slashParts_of_not_mem {pending cs : List Char} (h : '/' ∉ cs) :
    slashParts pending cs = [String.ofList (pending.reverse ++ cs)] := by
  induction cs generalizing pending with
  | nil => simp [slashParts]
  | cons c cs ih =>
    rw [List.mem_cons, not_or] at h
    simp [slashParts, Ne.symm h.1, ih h.2]

/-- A text without a separator is one step. -/
theorem pathSteps_of_not_mem {name : String} (h : '/' ∉ name.toList) (hne : name ≠ "") :
    pathSteps name = [name] := by
  unfold pathSteps
  rw [slashParts_of_not_mem h]
  simp [hne]

theorem pathSteps_append_slash (base path : String) :
    pathSteps (base ++ "/" ++ path) = pathSteps base ++ pathSteps path := by
  have htext : (base ++ "/" ++ path).toList = base.toList ++ '/' :: path.toList := by simp
  unfold pathSteps
  rw [htext, slashParts_append, List.filter_append]

/-- A relative path adds its steps to those of the base. -/
theorem pathSteps_joinPath (base : String) {path : String} (h : isAbsolutePath path = false) :
    pathSteps (joinPath base path) = pathSteps base ++ pathSteps path := by
  unfold joinPath
  rw [h, if_neg Bool.false_ne_true]
  split
  · next hplain =>
    rw [Bool.or_eq_true, String.isEmpty_iff, beq_iff_eq] at hplain
    obtain rfl | hslash := hplain
    · simp [pathSteps, slashParts]
    · obtain ⟨cs, hcs⟩ := List.getLast?_eq_some_iff.mp hslash
      have hbase : base = String.ofList cs ++ "/" := by
        rw [← String.toList_inj, hcs]
        simp
      rw [hbase, pathSteps_append_slash, ← String.append_empty (s := String.ofList cs ++ "/"),
        pathSteps_append_slash]
      simp [pathSteps, slashParts]
  · exact pathSteps_append_slash base path

theorem isAbsolutePath_joinPath (base path : String) :
    isAbsolutePath (joinPath base path) = (isAbsolutePath path || isAbsolutePath base) := by
  unfold joinPath
  split
  · next h => simp [h]
  · next hrelative =>
    rw [Bool.not_eq_true] at hrelative
    rw [hrelative, Bool.false_or]
    by_cases hbase : base = ""
    · rw [hbase, if_pos (by simp), String.empty_append, hrelative]
      rfl
    · have hhead (rest : String) : isAbsolutePath (base ++ rest) = isAbsolutePath base := by
        obtain ⟨c, cs, hcs⟩ := List.exists_cons_of_ne_nil
          (mt String.toList_eq_nil_iff.mp hbase)
        simp [isAbsolutePath, hcs]
      split
      · exact hhead path
      · rw [String.append_assoc]
        exact hhead _

theorem joinPath_eq_append (base : String) {path : String} (h : isAbsolutePath path = false) :
    ∃ rest, joinPath base path = base ++ rest := by
  unfold joinPath
  rw [h, if_neg Bool.false_ne_true]
  split
  · exact ⟨path, rfl⟩
  · exact ⟨"/" ++ path, String.append_assoc⟩

end Steps

namespace FileTree

/-- Where steps lead to from a position when no link stands on the way. -/
def walk (p : Position) (steps : List String) : Position :=
  steps.foldl stepFrom p

/-- The position that a path is written for, seen from a directory: where it leads to when no link
stands on the way. -/
def spot (here : Position) (path : String) : Position :=
  walk (startFrom here path) (pathSteps path)

theorem walk_append (p : Position) (steps steps' : List String) :
    walk p (steps ++ steps') = walk (walk p steps) steps' :=
  List.foldl_append

/-- A path that is taken from a base is seen from the position of the base. -/
theorem spot_joinPath (here : Position) (base path : String) :
    spot here (joinPath base path) = spot (spot here base) path := by
  unfold spot startFrom
  rw [isAbsolutePath_joinPath]
  cases h : isAbsolutePath path with
  | true =>
    rw [joinPath_of_isAbsolutePath base path h]
    rfl
  | false =>
    rw [pathSteps_joinPath base h, walk_append]
    rfl

end FileTree

open FileTree

/-- A way through a tree: so many directories up, and then down along names. -/
structure Route where
  up : ℕ
  down : Position

namespace Route

/-- A way with one more step. -/
def step (r : Route) (name : String) : Route :=
  if name = "." then r
  else if name = ".." then
    if r.down = [] then ⟨r.up + 1, []⟩ else ⟨r.up, r.down.dropLast⟩
  else ⟨r.up, r.down ++ [name]⟩

/-- The way of steps. -/
def ofSteps (steps : List String) : Route :=
  steps.foldl step ⟨0, []⟩

/-- The way of a path, from where it starts. -/
def ofPath (path : String) : Route :=
  ofSteps (pathSteps path)

/-- Where a way leads to from a position; at the root it stays there. -/
def leads (r : Route) (p : Position) : Position :=
  p.take (p.length - r.up) ++ r.down

theorem leads_step (r : Route) (name : String) (p : Position) :
    (r.step name).leads p = stepFrom (r.leads p) name := by
  unfold step stepFrom
  split
  · rfl
  · split
    · split
      · next hdown =>
        unfold leads
        rw [hdown, List.append_nil, List.append_nil, List.dropLast_eq_take, List.take_take,
          List.length_take]
        congr 1
        dsimp only
        omega
      · next hdown =>
        unfold leads
        rw [List.dropLast_append_of_ne_nil hdown]
    · exact (List.append_assoc _ _ _).symm

theorem leads_foldl (r : Route) (steps : List String) (p : Position) :
    (steps.foldl step r).leads p = walk (r.leads p) steps := by
  induction steps generalizing r with
  | nil => rfl
  | cons name steps ih =>
    rw [List.foldl_cons, ih, leads_step]
    rfl

/-- Steps lead where their way leads. -/
theorem leads_ofSteps (steps : List String) (p : Position) :
    (ofSteps steps).leads p = walk p steps := by
  have hstart : leads ⟨0, []⟩ p = p := by simp [leads]
  rw [ofSteps, leads_foldl, hstart]

/-- A relative path is written for the place that its way leads to. -/
theorem leads_ofPath {path : String} (h : isAbsolutePath path = false) (here : Position) :
    (ofPath path).leads here = spot here path := by
  unfold spot startFrom
  rw [h, if_neg Bool.false_ne_true]
  exact leads_ofSteps _ _

theorem up_le_step (r : Route) (name : String) : r.up ≤ (r.step name).up := by
  unfold step
  split
  · exact le_rfl
  · split
    · split
      · exact Nat.le_succ _
      · exact le_rfl
    · exact le_rfl

/-- Further steps never take back a step up. -/
theorem up_le_foldl (r : Route) (steps : List String) : r.up ≤ (steps.foldl step r).up := by
  induction steps generalizing r with
  | nil => exact le_rfl
  | cons name steps ih => exact (r.up_le_step name).trans (ih _)

theorem up_ofSteps_append (steps steps' : List String) :
    (ofSteps steps).up ≤ (ofSteps (steps ++ steps')).up := by
  unfold ofSteps
  rw [List.foldl_append]
  exact up_le_foldl _ steps'

/-- A name at the end of a way is one step further down. -/
theorem ofSteps_append_name (steps : List String) {name : String} (hdot : name ≠ ".")
    (hdots : name ≠ "..") :
    ofSteps (steps ++ [name]) = ⟨(ofSteps steps).up, (ofSteps steps).down ++ [name]⟩ := by
  unfold ofSteps
  rw [List.foldl_append, List.foldl_cons, List.foldl_nil]
  simp [step, hdot, hdots]

end Route

section Parents

theorem dropEnd_isSuffix (cs : List Char) : dropEnd cs <:+ cs := by
  fun_induction dropEnd cs with
  | case1 cs ih => exact ih.trans (List.suffix_cons '/' cs)
  | case2 cs ih => exact ih.trans (List.suffix_cons '.' _)
  | case3 cs => exact List.suffix_refl cs

/-- What is dropped as a whole is nothing or begins with a separator. -/
theorem getLast?_of_dropEnd {cs : List Char} (h : dropEnd cs = []) (hne : cs ≠ []) :
    cs.getLast? = some '/' := by
  fun_induction dropEnd cs with
  | case1 cs ih =>
    cases cs with
    | nil => rfl
    | cons c cs => rw [List.getLast?_cons_cons, ih h (List.cons_ne_nil c cs)]
  | case2 cs ih => rw [List.getLast?_cons_cons, ih h (List.cons_ne_nil '/' cs)]
  | case3 cs => exact absurd h hne

/-- The directory that a path lies in is absolute exactly when the path is. -/
theorem isAbsolutePath_parentPath {path base : String} (h : parentPath path = some base) :
    isAbsolutePath base = isAbsolutePath path := by
  have hlast {cs : List Char} (hsuffix : cs <:+ path.toList.reverse) (hne : cs ≠ []) :
      cs.getLast? = path.toList.head? := by
    rw [← List.getLast?_reverse]
    obtain ⟨front, hfront⟩ := hsuffix
    rw [← hfront, List.getLast?_append_of_ne_nil _ hne]
  unfold parentPath at h
  dsimp only at h
  split at h
  · cases h
  · next hrest =>
    obtain rfl := Option.some.inj h
    generalize hstripped : dropEnd path.toList.reverse = rest at hrest
    have hsuffix : rest <:+ path.toList.reverse := hstripped ▸ dropEnd_isSuffix _
    have habove : rest.dropWhile (· != '/') <:+ path.toList.reverse :=
      (List.dropWhile_suffix _).trans hsuffix
    by_cases hkept : dropEnd (rest.dropWhile (· != '/')) = []
    · by_cases hnone : rest.dropWhile (· != '/') = []
      · have hno : path.toList.head? ≠ some '/' := by
          rw [← hlast hsuffix hrest]
          intro hslash
          have hmem := List.mem_of_getLast? hslash
          rw [List.dropWhile_eq_nil_iff] at hnone
          simpa using hnone _ hmem
        simp [hnone, dropEnd, isAbsolutePath, hno]
      · have hslash := getLast?_of_dropEnd hkept hnone
        rw [hlast habove hnone] at hslash
        simp [hkept, hnone, isAbsolutePath, hslash]
    · have hhead := hlast ((dropEnd_isSuffix _).trans habove) hkept
      simp [hkept, isAbsolutePath, hhead]

end Parents

section Links

variable {t : FileTree} {p q : Position} {steps : List String}

namespace FileTree

/-- Steps that end at something other than a link lead there also when links at the end are
followed. -/
theorem followSteps_through {jump jump' : Position → List String → Except FileError Position}
    (hjump : ∀ p steps q, jump p steps = .ok q → (∀ target, t.entry? q ≠ some (.link target)) →
      jump' p steps = .ok q)
    (hq : t.followSteps false jump p steps = .ok q)
    (hend : ∀ target, t.entry? q ≠ some (.link target)) :
    t.followSteps true jump' p steps = .ok q := by
  induction steps generalizing p with
  | nil => exact hq
  | cons name rest ih =>
    unfold FileTree.followSteps at hq ⊢
    split at hq
    · cases hq
    · next hsize =>
      rw [if_neg hsize]
      split at hq
      · exact ih hq
      · next target hlink =>
        split at hq
        · cases hq
          exact absurd hlink (hend target)
        · rw [if_neg (by simp)]
          exact hjump _ _ _ hq hend
      · exact hq
      · exact hq

theorem followLinks_through {n : ℕ} (hq : t.followLinks false n p steps = .ok q)
    (hend : ∀ target, t.entry? q ≠ some (.link target)) :
    t.followLinks true n p steps = .ok q := by
  induction n generalizing p steps q with
  | zero => exact followSteps_through (fun _ _ _ h _ => h) hq hend
  | succ n ih => exact followSteps_through (fun _ _ _ h hend => ih h hend) hq hend

theorem locate_of_resolve {path : String} {through : Bool} (hq : t.resolve through path = .ok q)
    (hend : ∀ target, t.entry? q ≠ some (.link target)) : t.locate path = .ok q := by
  cases through with
  | true => exact hq
  | false =>
    unfold locate resolve at *
    split at hq
    · cases hq
    · next hempty =>
      rw [if_neg hempty]
      split at hq
      · cases hq
      · next hname =>
        rw [if_neg hname]
        split at hq
        · cases hq
        · next hsize =>
          rw [if_neg hsize]
          cases hslash : endsInSlash path with
          | true => rwa [hslash] at hq
          | false =>
            rw [hslash] at hq
            exact followLinks_through hq hend

/-- Steps that lead through a position lead on from there. -/
theorem followLinks_append {through : Bool} {n : ℕ} {steps' : List String} (hne : steps' ≠ [])
    (hq : t.followLinks through n p (steps ++ steps') = .ok q) :
    ∃ d m, t.followLinks true n p steps = .ok d ∧ t.followLinks through m d steps' = .ok q := by
  -- one level of links at a time; behind a link the level below takes over
  have hlevel {m : ℕ} {jump jump' : Position → List String → Except FileError Position}
      (hsame : t.followLinks through m = t.followSteps through jump)
      (hjump : ∀ p steps, jump p (steps ++ steps') = .ok q →
        ∃ d m, jump' p steps = .ok d ∧ t.followLinks through m d steps' = .ok q) (p : Position)
      (steps : List String) (hq : t.followSteps through jump p (steps ++ steps') = .ok q) :
      ∃ d m, t.followSteps true jump' p steps = .ok d ∧
        t.followLinks through m d steps' = .ok q := by
    induction steps generalizing p with
    | nil => exact ⟨p, m, rfl, by rw [hsame]; exact hq⟩
    | cons name rest ih =>
      have hmore : (rest ++ steps').isEmpty = false := by simp [hne]
      rw [List.cons_append] at hq
      unfold FileTree.followSteps at hq ⊢
      rw [hmore] at hq
      split at hq
      · cases hq
      · next hsize =>
        rw [if_neg hsize]
        split at hq
        · exact ih _ hq
        · next target hlink =>
          rw [if_neg (by simp), ← List.append_assoc] at hq
          rw [if_neg (by simp)]
          exact hjump _ _ hq
        · cases hq
        · cases hq
  induction n generalizing p steps with
  | zero =>
    have hnever (p : Position) (steps : List String)
        (h : (.error .tooManyLinks : Except FileError Position) = .ok q) :
        ∃ d m, (.error .tooManyLinks : Except FileError Position) = .ok d ∧
          t.followLinks through m d steps' = .ok q := by
      cases h
    exact hlevel (m := 0) rfl hnever p steps hq
  | succ n ih => exact hlevel (m := n + 1) rfl (fun _ _ h => ih h) p steps hq

/-- Where no link stands at a position or below it, steps that stay there lead as they say. -/
theorem followSteps_eq_walk {d : Position}
    (hlinks : ∀ p, d <+: p → ∀ target, t.entry? p ≠ some (.link target)) {through : Bool}
    {jump : Position → List String → Except FileError Position}
    (hin : ∀ s, s <+: steps → s ≠ [] → d <+: walk p s)
    (hq : t.followSteps through jump p steps = .ok q) : q = walk p steps := by
  induction steps generalizing p with
  | nil => exact (Except.ok.inj hq).symm
  | cons name rest ih =>
    have hlast (hrest : rest.isEmpty = true) : stepFrom p name = walk p (name :: rest) := by
      rw [List.isEmpty_iff.mp hrest]
      rfl
    have hhere : d <+: stepFrom p name :=
      hin [name] (List.cons_prefix_cons.mpr ⟨rfl, List.nil_prefix⟩) (List.cons_ne_nil name [])
    unfold FileTree.followSteps at hq
    split at hq
    · cases hq
    · split at hq
      · refine ih (fun s hs _ => ?_) hq
        exact hin (name :: s) (List.cons_prefix_cons.mpr ⟨rfl, hs⟩) (List.cons_ne_nil name s)
      · next target hlink => exact absurd hlink (hlinks _ hhere target)
      · split at hq
        · next hrest => exact (Except.ok.inj hq).symm.trans (hlast hrest)
        · cases hq
      · split at hq
        · next hrest => exact (Except.ok.inj hq).symm.trans (hlast hrest)
        · cases hq

theorem followLinks_eq_walk {d : Position}
    (hlinks : ∀ p, d <+: p → ∀ target, t.entry? p ≠ some (.link target)) {through : Bool} {n : ℕ}
    (hin : ∀ s, s <+: steps → s ≠ [] → d <+: walk p s)
    (hq : t.followLinks through n p steps = .ok q) : q = walk p steps := by
  cases n with
  | zero => exact followSteps_eq_walk hlinks hin hq
  | succ n => exact followSteps_eq_walk hlinks hin hq

theorem resolve_eq_ok {path : String} {through : Bool} (hq : t.resolve through path = .ok q) :
    ∃ through', t.followLinks through' maxLinks (startFrom t.here path) (pathSteps path) =
      .ok q := by
  unfold FileTree.resolve at hq
  split at hq
  · cases hq
  · split at hq
    · cases hq
    · split at hq
      · cases hq
      · exact ⟨_, hq⟩

/-- In a tree without links a path leads to the position that it is written for. -/
theorem locate_eq_spot (hlinks : ∀ p target, t.entry? p ≠ some (.link target)) {path : String}
    (hq : t.locate path = .ok q) : q = spot t.here path := by
  obtain ⟨through, hq⟩ := resolve_eq_ok hq
  exact followLinks_eq_walk (d := []) (fun p _ => hlinks p) (fun _ _ _ => List.nil_prefix) hq

/-- What a path leads to, a path that it continues leads to on the way. -/
theorem locate_of_append {t : FileTree} {base path : String} {steps : List String} {q : Position}
    (hbase : base ≠ "") (htext : ∃ rest, path = base ++ rest)
    (hsteps : pathSteps path = pathSteps base ++ steps) (hne : steps ≠ [])
    (hq : t.locate path = .ok q) :
    ∃ d, t.locate base = .ok d ∧ ∃ through m, t.followLinks through m d steps = .ok q := by
  obtain ⟨rest, rfl⟩ := htext
  have hstart : startFrom t.here (base ++ rest) = startFrom t.here base := by
    obtain ⟨c, cs, hcs⟩ := List.exists_cons_of_ne_nil (mt String.toList_eq_nil_iff.mp hbase)
    simp [startFrom, isAbsolutePath, hcs]
  unfold locate resolve at hq ⊢
  split at hq
  · cases hq
  · split at hq
    · cases hq
    · next hname =>
      split at hq
      · cases hq
      · next hsize =>
        rw [hsteps, hstart] at hq
        obtain ⟨d, m, hd, hq⟩ := followLinks_append hne hq
        refine ⟨d, ?_, _, m, hq⟩
        have hname' : ¬ base.toList.contains '\x00' = true := by
          simp only [String.toList_append, List.contains_eq_mem, List.mem_append,
            decide_eq_true_eq, not_or] at hname ⊢
          exact hname.1
        have hsize' : ¬ maxPathSize < base.utf8ByteSize := by
          rw [String.utf8ByteSize_append] at hsize
          omega
        rw [if_neg (by simpa using hbase), if_neg hname', if_neg hsize', Bool.true_or]
        exact hd

end FileTree

end Links

section Names

/-- A single name. -/
structure IsName (name : String) : Prop where
  separator : '/' ∉ name.toList
  some : name ≠ ""
  dot : name ≠ "."
  dots : name ≠ ".."

theorem IsName.relative {name : String} (h : IsName name) : isAbsolutePath name = false := by
  refine beq_eq_false_iff_ne.mpr fun hhead => h.separator ?_
  exact List.mem_of_head? hhead

theorem IsName.spot {name : String} (h : IsName name) (p : Position) :
    FileTree.spot p name = p ++ [name] := by
  unfold FileTree.spot startFrom
  rw [h.relative, if_neg Bool.false_ne_true, pathSteps_of_not_mem h.separator h.some]
  simp [walk, stepFrom, h.dot, h.dots]

/-- A name after a path is one step further down. -/
theorem Route.ofPath_joinPath_name (base : String) {name : String} (h : IsName name) :
    ofPath (joinPath base name) = ⟨(ofPath base).up, (ofPath base).down ++ [name]⟩ := by
  unfold ofPath
  rw [pathSteps_joinPath base h.relative, pathSteps_of_not_mem h.separator h.some]
  exact ofSteps_append_name _ h.dot h.dots

theorem toList_joinPath_name (base : String) {name : String} (h : IsName name) :
    ∃ sep, (joinPath base name).toList = base.toList ++ (sep ++ name.toList) ∧
      (sep = [] ∨ sep = ['/']) ∧
      (base.toList.getLast? ≠ none → base.toList.getLast? ≠ some '/' → sep = ['/']) := by
  unfold joinPath
  rw [h.relative, if_neg Bool.false_ne_true]
  split
  · next hplain =>
    refine ⟨[], by simp, Or.inl rfl, fun hsome hlast => ?_⟩
    rw [Bool.or_eq_true, String.isEmpty_iff, beq_iff_eq] at hplain
    obtain rfl | hslash := hplain
    · exact absurd rfl hsome
    · exact absurd hslash hlast
  · exact ⟨['/'], by simp, Or.inr rfl, fun _ _ => rfl⟩

section Numbers

variable (stem tail : String)

theorem toList_numbered (n : ℕ) :
    (stem ++ toString n ++ tail).toList = stem.toList ++ (Nat.toDigits 10 n ++ tail.toList) := by
  simp [Nat.toString_eq_repr]

/-- Names with a number in one place tell the number. -/
theorem numbered_injective : Function.Injective fun n : ℕ => stem ++ toString n ++ tail := by
  intro n n' h
  have htext := congrArg String.toList h
  dsimp only at htext
  rw [toList_numbered, toList_numbered, List.append_cancel_left_eq,
    List.append_cancel_right_eq] at htext
  calc
    n = Nat.ofDigitChars 10 (Nat.toDigits 10 n) 0 := Nat.ofDigitChars_ten_toDigits.symm
    _ = Nat.ofDigitChars 10 (Nat.toDigits 10 n') 0 := by rw [htext]
    _ = n' := Nat.ofDigitChars_ten_toDigits

theorem isName_numbered {c : Char} (hc : c ∈ stem.toList) (hdot : c ≠ '.')
    (hstem : '/' ∉ stem.toList) (htail : '/' ∉ tail.toList) (n : ℕ) :
    IsName (stem ++ toString n ++ tail) := by
  have hmem : c ∈ (stem ++ toString n ++ tail).toList := by simp [hc]
  refine ⟨fun hslash => ?_, ?_, ?_, ?_⟩
  · rw [toList_numbered, List.mem_append, List.mem_append] at hslash
    obtain hslash | hslash | hslash := hslash
    · exact hstem hslash
    · cases Nat.isDigit_of_mem_toDigits (by decide) (by decide) hslash
    · exact htail hslash
  all_goals
    intro heq
    rw [heq] at hmem
    simp [hdot] at hmem

end Numbers

end Names

end PatchSearch
