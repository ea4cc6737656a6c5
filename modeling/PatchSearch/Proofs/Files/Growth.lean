import Mathlib.Data.List.Nodup
import PatchSearch.Files.Storage
import PatchSearch.Proofs.Files.Paths
import PatchSearch.Proofs.Yields

/-!
How a file tree grows. Writing files and making directories takes nothing away: what stands
somewhere stays there under its number, only the content of files changes, and what is new has a
number of its own and is no link. So a path that leads somewhere leads there ever after, and the
effect of a step is told by the position that its path leads to.
-/
namespace PatchSearch.FileTree

section Standing

variable {t : FileTree} {p q : Position}

/-- What stands at a position, and under which number. -/
def stands (t : FileTree) (p : Position) : Option (Entry × ℕ) :=
  (t.item? p).map fun x => (x.entry, x.number)

theorem entry?_eq_stands (t : FileTree) (p : Position) :
    t.entry? p = (t.stands p).map Prod.fst := by
  unfold entry? stands
  rw [Option.map_map]
  rfl

theorem entry?_eq_some_iff {e : Entry} : t.entry? p = some e ↔ ∃ n, t.stands p = some (e, n) := by
  rw [entry?_eq_stands]
  simp

theorem entry?_eq_none_iff : t.entry? p = none ↔ t.stands p = none := by
  rw [entry?_eq_stands, Option.map_eq_none_iff]

theorem stands_root (t : FileTree) : t.stands [] = some (.directory, 0) := rfl

theorem item?_of_ne_nil (t : FileTree) (hp : p ≠ []) : t.item? p = t.items.lookup p := by
  simp [item?, hp]

/-- Two positions are names of one file. -/
def Shares (t : FileTree) (p q : Position) : Prop :=
  ∃ e e' n, t.stands p = some (e, n) ∧ t.stands q = some (e', n)

theorem shares_self {s : Entry × ℕ} (h : t.stands p = some s) : t.Shares p p :=
  ⟨s.1, s.1, s.2, h, h⟩

/-- Numbers are given out one after the other, and names with one number stand for one thing. -/
structure Numbered (t : FileTree) : Prop where
  given : ∀ p e n, t.stands p = some (e, n) → n < t.nextNumber
  alike : ∀ p q e e' n, t.stands p = some (e, n) → t.stands q = some (e', n) → e = e'

theorem mem_items_of_stands {e : Entry} {n : ℕ} (h : t.stands p = some (e, n)) (hp : p ≠ []) :
    ∃ x, (p, x) ∈ t.items ∧ x.entry = e ∧ x.number = n := by
  obtain ⟨x, hx, heq⟩ := Option.map_eq_some_iff.mp h
  cases heq
  rw [item?_of_ne_nil t hp, List.lookup_eq_some_iff] at hx
  obtain ⟨before, after, hsplit, -⟩ := hx
  exact ⟨x, by rw [hsplit]; simp, rfl, rfl⟩

/-- Where every item has a number to itself, numbers are as they should be. -/
theorem numbered_of_nodup (hroot : 0 < t.nextNumber)
    (hgiven : ∀ x ∈ t.items, 0 < x.2.number ∧ x.2.number < t.nextNumber)
    (hnodup : (t.items.map (·.2.number)).Nodup) : t.Numbered := by
  have hitem {p : Position} {e : Entry} {n : ℕ} (h : t.stands p = some (e, n)) :
      (p = [] ∧ e = .directory ∧ n = 0) ∨
        ∃ x, (p, x) ∈ t.items ∧ x.entry = e ∧ x.number = n := by
    by_cases hp : p = []
    · rw [hp, stands_root] at h
      cases h
      exact Or.inl ⟨hp, rfl, rfl⟩
    · exact Or.inr (mem_items_of_stands h hp)
  refine ⟨fun p e n hp => ?_, fun p q e e' n hp hq => ?_⟩
  · obtain ⟨-, -, rfl⟩ | ⟨x, hx, -, rfl⟩ := hitem hp
    · exact hroot
    · exact (hgiven _ hx).2
  · obtain ⟨-, rfl, rfl⟩ | ⟨x, hx, rfl, rfl⟩ := hitem hp
    · obtain ⟨-, rfl, -⟩ | ⟨y, hy, -, hzero⟩ := hitem hq
      · rfl
      · exact absurd hzero (hgiven _ hy).1.ne'
    · obtain ⟨-, -, hzero⟩ | ⟨y, hy, rfl, hnumber⟩ := hitem hq
      · exact absurd hzero (hgiven _ hx).1.ne'
      · cases List.inj_on_of_nodup_map hnodup hx hy hnumber.symm
        rfl

end Standing

section Changes

variable {t : FileTree} {p q : Position}

theorem item?_change (t : FileTree) (number : ℕ) (f : Item → Item) (hq : q ≠ []) :
    (t.change number f).item? q =
      (t.item? q).map fun x => if x.number == number then f x else x := by
  rw [item?_of_ne_nil _ hq, item?_of_ne_nil _ hq]
  change (t.items.map _).lookup q = _
  induction t.items with
  | nil => rfl
  | cons x xs ih =>
    obtain ⟨k, x⟩ := x
    rw [List.map_cons, apply_ite (fun y : Position × Item => List.lookup q (y :: _)),
      List.lookup_cons, List.lookup_cons, List.lookup_cons, ih]
    cases q == k with
    | true =>
      dsimp only [Option.map_some]
      split <;> rfl
    | false => simp

/-- A change that keeps entry and number is not seen. -/
theorem stands_change_of_eq {number : ℕ} {f : Item → Item}
    (hf : ∀ x, (f x).entry = x.entry ∧ (f x).number = x.number) :
    (t.change number f).stands q = t.stands q := by
  by_cases hq : q = []
  · rw [hq]
    rfl
  · unfold stands
    rw [item?_change t number f hq, Option.map_map]
    refine congrArg (fun g => Option.map g (t.item? q)) (funext fun x => ?_)
    dsimp only [Function.comp]
    split
    · rw [(hf x).1, (hf x).2]
    · rfl

theorem stands_note (t : FileTree) (p q : Position) : (t.note p).stands q = t.stands q := by
  unfold note changeAt
  split
  · exact stands_change_of_eq fun x => ⟨rfl, rfl⟩
  · rfl

@[simp]
theorem nextNumber_note (t : FileTree) (p : Position) : (t.note p).nextNumber = t.nextNumber := by
  unfold note changeAt
  split <;> rfl

@[simp]
theorem here_note (t : FileTree) (p : Position) : (t.note p).here = t.here := by
  unfold note changeAt
  split <;> rfl

theorem lookup_filter_of_ne {xs : List (Position × Item)} (h : q ≠ p) :
    (xs.filter (·.1 != p)).lookup q = xs.lookup q := by
  induction xs with
  | nil => rfl
  | cons x xs ih =>
    obtain ⟨k, x⟩ := x
    by_cases hk : k = p
    · have hother : (q == k) = false := beq_eq_false_iff_ne.mpr (hk ▸ h)
      simp [hk, ih, List.lookup_cons, hk ▸ hother]
    · simp [hk, ih, List.lookup_cons]

theorem stands_place (t : FileTree) (x : Item) (hp : p ≠ []) (q : Position) :
    (t.place p x).stands q = if q = p then some (x.entry, x.number) else t.stands q := by
  unfold place
  rw [stands_note]
  split
  · next h =>
    rw [h]
    unfold stands
    rw [item?_of_ne_nil _ hp]
    simp [keep]
  · next h =>
    by_cases hq : q = []
    · rw [hq]
      rfl
    · unfold stands
      rw [item?_of_ne_nil _ hq, item?_of_ne_nil _ hq]
      have hkey : (q == p) = false := beq_eq_false_iff_ne.mpr h
      simp [keep, List.lookup_cons, hkey, lookup_filter_of_ne h]

theorem stands_put (t : FileTree) (e : Entry) (hp : p ≠ []) (q : Position) :
    (t.put p e).stands q = if q = p then some (e, t.nextNumber) else t.stands q :=
  stands_place _ _ hp q

@[simp]
theorem nextNumber_put (t : FileTree) (p : Position) (e : Entry) :
    (t.put p e).nextNumber = t.nextNumber + 1 := by
  unfold put place
  rw [nextNumber_note]
  rfl

@[simp]
theorem here_put (t : FileTree) (p : Position) (e : Entry) : (t.put p e).here = t.here := by
  unfold put place
  rw [here_note]
  rfl

/-- Content that is given to a file stands under all its names. -/
theorem stands_fill (hn : t.Numbered) {n : ℕ} {content content' : ByteArray}
    (hp : t.stands p = some (.file content', n)) (q : Position) :
    (t.fill n content).stands q =
      (t.stands q).map fun s => if s.2 = n then (.file content, s.2) else s := by
  by_cases hq : q = []
  · have hroot : 0 ≠ n := by
      rintro rfl
      cases hn.alike _ _ _ _ _ hp t.stands_root
    rw [hq, stands_root, stands_root]
    simp [hroot]
  · unfold fill stands
    rw [item?_change t n _ hq, Option.map_map, Option.map_map]
    refine congrArg (fun g => Option.map g (t.item? q)) (funext fun x => ?_)
    dsimp only [Function.comp]
    by_cases h : x.number = n <;> simp [h]

end Changes

/-- What stands in a tree stays in another under its number, as a file where it was one and as it
was elsewhere; what is new there has a new number to itself and is no link. -/
structure Grows (t t' : FileTree) : Prop where
  kept : ∀ p e n, t.stands p = some (e, n) → ∃ e', t'.stands p = some (e', n) ∧
    (e' = e ∨ e.isFile = true ∧ e'.isFile = true)
  made : ∀ p e n, t.stands p = none → t'.stands p = some (e, n) → t.nextNumber ≤ n ∧
    (∀ target, e ≠ .link target) ∧ ∀ q e', t'.stands q = some (e', n) → q = p
  later : t.nextNumber ≤ t'.nextNumber
  here : t'.here = t.here
  numbered : t'.Numbered

namespace Grows

variable {t t' t'' : FileTree} {p q : Position}

theorem of_stands_eq (hn : t.Numbered) (hstands : ∀ p, t'.stands p = t.stands p)
    (hnext : t'.nextNumber = t.nextNumber) (hhere : t'.here = t.here) : Grows t t' where
  kept p e n hp := ⟨e, (hstands p).trans hp, Or.inl rfl⟩
  made p e n hnone hsome := by
    rw [hstands, hnone] at hsome
    cases hsome
  later := hnext.ge
  here := hhere
  numbered := by
    refine ⟨fun p e n hp => ?_, fun p q e e' n hp hq => ?_⟩
    · rw [hnext]
      exact hn.given p e n (hstands p ▸ hp)
    · exact hn.alike p q e e' n (hstands p ▸ hp) (hstands q ▸ hq)

protected theorem refl (hn : t.Numbered) : Grows t t :=
  of_stands_eq hn (fun _ => rfl) rfl rfl

theorem at_time (hn : t.Numbered) (now : ℕ) : Grows t { t with now } :=
  of_stands_eq hn (fun _ => rfl) rfl rfl

protected theorem trans (h : Grows t t') (h' : Grows t' t'') : Grows t t'' where
  kept p e n hp := by
    obtain ⟨e', hp', hsame⟩ := h.kept p e n hp
    obtain ⟨e'', hp'', hsame'⟩ := h'.kept p e' n hp'
    refine ⟨e'', hp'', ?_⟩
    obtain rfl | ⟨hfile', hfile''⟩ := hsame'
    · exact hsame
    · obtain rfl | ⟨hfile, -⟩ := hsame
      · exact Or.inr ⟨hfile', hfile''⟩
      · exact Or.inr ⟨hfile, hfile''⟩
  made p e'' n hnone hsome := by
    rcases hp : t'.stands p with _ | ⟨e', n'⟩
    · obtain ⟨hnew, hlink, hown⟩ := h'.made p e'' n hp hsome
      exact ⟨h.later.trans hnew, hlink, hown⟩
    · obtain ⟨hnew, hlink, hown⟩ := h.made p e' n' hnone hp
      obtain ⟨_, hkept, hsame⟩ := h'.kept p e' n' hp
      cases hsome.symm.trans hkept
      refine ⟨hnew, fun target => ?_, fun q e hq => ?_⟩
      · rintro rfl
        obtain hsame | ⟨-, hfile⟩ := hsame
        · exact hlink target hsame.symm
        · cases hfile
      · rcases hq' : t'.stands q with _ | ⟨e₁, m⟩
        · have hlate := (h'.made q e n hq' hq).1
          have hearly := h.numbered.given p e' n hp
          omega
        · obtain ⟨_, hkept', -⟩ := h'.kept q e₁ m hq'
          cases hq.symm.trans hkept'
          exact hown q e₁ hq'
  later := h.later.trans h'.later
  here := h'.here.trans h.here
  numbered := h'.numbered

/-- A directory or a file that is made where nothing stood. -/
theorem of_put (hn : t.Numbered) {e : Entry} (hp : t.entry? p = none)
    (he : ∀ target, e ≠ .link target) : Grows t (t.put p e) := by
  have hne : p ≠ [] := by
    rintro rfl
    cases hp
  have hput := stands_put t e hne
  rw [entry?_eq_none_iff] at hp
  have hother {q : Position} {s : Entry × ℕ} (hq : t.stands q = some s) :
      (t.put p e).stands q = some s := by
    rw [hput, if_neg, hq]
    rintro rfl
    rw [hp] at hq
    cases hq
  have hnew {q : Position} {e' : Entry} {n : ℕ} (hq : (t.put p e).stands q = some (e', n)) :
      q = p ∧ e' = e ∧ n = t.nextNumber ∨ t.stands q = some (e', n) := by
    rw [hput] at hq
    split at hq
    · cases hq
      exact Or.inl ⟨‹_›, rfl, rfl⟩
    · exact Or.inr hq
  refine ⟨fun q e' n hq => ⟨e', hother hq, Or.inl rfl⟩, fun q e' n hnone hq => ?_,
    by simp, here_put t p e, ⟨fun q e' n hq => ?_, fun q q' e₁ e₂ n hq hq' => ?_⟩⟩
  · obtain ⟨rfl, rfl, rfl⟩ | hold := hnew hq
    · refine ⟨le_rfl, he, fun q e'' hq => ?_⟩
      obtain ⟨rfl, -, -⟩ | hold := hnew hq
      · rfl
      · exact absurd (hn.given _ _ _ hold) (Nat.lt_irrefl _)
    · rw [hnone] at hold
      cases hold
  · rw [nextNumber_put]
    obtain ⟨-, -, rfl⟩ | hold := hnew hq
    · exact Nat.lt_succ_self _
    · exact (hn.given _ _ _ hold).trans (Nat.lt_succ_self _)
  · obtain ⟨-, rfl, rfl⟩ | hold := hnew hq
    · obtain ⟨-, rfl, -⟩ | hold' := hnew hq'
      · rfl
      · exact absurd (hn.given _ _ _ hold') (Nat.lt_irrefl _)
    · obtain ⟨-, -, rfl⟩ | hold' := hnew hq'
      · exact absurd (hn.given _ _ _ hold) (Nat.lt_irrefl _)
      · exact hn.alike _ _ _ _ _ hold hold'

/-- Content that is given to a file. -/
theorem of_fill (hn : t.Numbered) {content content' : ByteArray} {n : ℕ}
    (hp : t.stands p = some (.file content', n)) : Grows t (t.fill n content) := by
  have hback {q : Position} {e : Entry} {m : ℕ} (hq : (t.fill n content).stands q = some (e, m)) :
      ∃ e', t.stands q = some (e', m) ∧ e = if m = n then .file content else e' := by
    rw [stands_fill hn hp, Option.map_eq_some_iff] at hq
    obtain ⟨⟨e', m'⟩, hq', heq⟩ := hq
    split at heq
    · cases heq
      exact ⟨e', hq', (if_pos ‹_›).symm⟩
    · cases heq
      exact ⟨_, hq', (if_neg ‹_›).symm⟩
  refine ⟨fun q e m hq => ?_, fun q e m hnone hq => ?_, le_rfl, rfl,
    ⟨fun q e m hq => ?_, fun q q' e₁ e₂ m hq hq' => ?_⟩⟩
  · rw [stands_fill hn hp, hq, Option.map_some]
    dsimp only
    split
    · next hm =>
      cases hn.alike _ _ _ _ _ hp (hm ▸ hq)
      exact ⟨_, rfl, Or.inr ⟨rfl, rfl⟩⟩
    · exact ⟨_, rfl, Or.inl rfl⟩
  · obtain ⟨e', hq', -⟩ := hback hq
    rw [hnone] at hq'
    cases hq'
  · obtain ⟨e', hq', -⟩ := hback hq
    exact hn.given _ _ _ hq'
  · obtain ⟨e, hold, rfl⟩ := hback hq
    obtain ⟨e', hold', rfl⟩ := hback hq'
    rw [hn.alike _ _ _ _ _ hold hold']

/-- A position shares its file in a grown tree only with one that it shared it with before. -/
theorem shares_iff (h : Grows t t') (hp : (t.stands p).isSome) :
    t'.Shares p q ↔ t.Shares p q := by
  obtain ⟨⟨e, n⟩, hp⟩ := Option.isSome_iff_exists.mp hp
  obtain ⟨e', hp', -⟩ := h.kept p e n hp
  constructor
  · rintro ⟨_, d', _, hshare, hq'⟩
    cases hshare.symm.trans hp'
    rcases hq : t.stands q with _ | ⟨d, m⟩
    · rw [(h.made q d' n hq hq').2.2 p e' hp'] at hp
      rw [hp] at hq
      cases hq
    · obtain ⟨_, hkept, -⟩ := h.kept q d m hq
      cases hkept.symm.trans hq'
      exact ⟨e, d, n, hp, hq⟩
  · rintro ⟨_, d, _, hshare, hq⟩
    cases hshare.symm.trans hp
    obtain ⟨d', hq', -⟩ := h.kept q d n hq
    exact ⟨e', d', n, hp', hq'⟩

/-- What stands somewhere stands there still: a directory or a link as it is, a file with some
content. -/
theorem entry?_cases (h : Grows t t') (p : Position) :
    match t.entry? p with
    | some .directory => t'.entry? p = some .directory
    | some (.link target) => t'.entry? p = some (.link target)
    | some (.file _) => ∃ content, t'.entry? p = some (.file content)
    | none => ∀ target, t'.entry? p ≠ some (.link target) := by
  split
  · next hp =>
    obtain ⟨n, hp⟩ := entry?_eq_some_iff.mp hp
    obtain ⟨e', hp', rfl | ⟨hfile, -⟩⟩ := h.kept _ _ _ hp
    · exact entry?_eq_some_iff.mpr ⟨n, hp'⟩
    · cases hfile
  · next hp =>
    obtain ⟨n, hp⟩ := entry?_eq_some_iff.mp hp
    obtain ⟨e', hp', rfl | ⟨hfile, -⟩⟩ := h.kept _ _ _ hp
    · exact entry?_eq_some_iff.mpr ⟨n, hp'⟩
    · cases hfile
  · next content hp =>
    obtain ⟨n, hp⟩ := entry?_eq_some_iff.mp hp
    obtain ⟨e', hp', hsame⟩ := h.kept _ _ _ hp
    cases e' with
    | file content' => exact ⟨content', entry?_eq_some_iff.mpr ⟨n, hp'⟩⟩
    | directory => obtain hsame | ⟨-, hfile⟩ := hsame <;> cases ‹_›
    | link target => obtain hsame | ⟨-, hfile⟩ := hsame <;> cases ‹_›
  · next hp =>
    intro target htarget
    obtain ⟨n, htarget⟩ := entry?_eq_some_iff.mp htarget
    exact (h.made _ _ _ (entry?_eq_none_iff.mp hp) htarget).2.1 target rfl

theorem entry?_link (h : Grows t t') {target : String} (hp : t'.entry? p = some (.link target)) :
    t.entry? p = some (.link target) := by
  have hcases := h.entry?_cases p
  split at hcases
  · rw [hcases] at hp
    cases hp
  · next hold => rwa [← hcases.symm.trans hp]
  · obtain ⟨_, hfile⟩ := hcases
    rw [hfile] at hp
    cases hp
  · exact absurd hp (hcases target)

end Grows

section Ways

variable {t t' : FileTree} {p q : Position} {steps : List String}

/-- Where steps lead, they lead in a grown tree too. -/
theorem Grows.followSteps (h : Grows t t') {through : Bool}
    {jump jump' : Position → List String → Except FileError Position}
    (hjump : ∀ p steps q, jump p steps = .ok q → jump' p steps = .ok q)
    (hq : t.followSteps through jump p steps = .ok q) :
    t'.followSteps through jump' p steps = .ok q := by
  induction steps generalizing p with
  | nil => exact hq
  | cons name rest ih =>
    have hcases := h.entry?_cases (stepFrom p name)
    unfold FileTree.followSteps at hq ⊢
    split at hq
    · cases hq
    · next hsize =>
      rw [if_neg hsize]
      split at hq
      · next hdir =>
        rw [hdir] at hcases
        rw [hcases]
        exact ih hq
      · next hlink =>
        rw [hlink] at hcases
        rw [hcases]
        dsimp only
        split at hq
        · next hlast => rwa [if_pos hlast]
        · next hnext =>
          rw [if_neg hnext]
          exact hjump _ _ _ hq
      · next hfile =>
        rw [hfile] at hcases
        obtain ⟨content, hfile'⟩ := hcases
        rw [hfile']
        exact hq
      · next hnone =>
        rw [hnone] at hcases
        split at hq
        · next hlast =>
          rw [List.isEmpty_iff] at hlast
          subst hlast
          split
          · exact hq
          · next target hlink => exact absurd hlink (hcases target)
          · exact hq
          · exact hq
        · cases hq

theorem Grows.followLinks (h : Grows t t') {through : Bool} {n : ℕ}
    (hq : t.followLinks through n p steps = .ok q) :
    t'.followLinks through n p steps = .ok q := by
  induction n generalizing p steps q with
  | zero => exact h.followSteps (fun _ _ _ => id) hq
  | succ n ih => exact h.followSteps (fun _ _ _ => ih) hq

/-- A path that leads somewhere leads there in a grown tree too. -/
theorem Grows.resolve (h : Grows t t') {through : Bool} {path : String}
    (hq : t.resolve through path = .ok q) : t'.resolve through path = .ok q := by
  unfold FileTree.resolve at hq ⊢
  split at hq
  · cases hq
  · next hempty =>
    rw [if_neg hempty]
    split at hq
    · cases hq
    · next hname =>
      rw [if_neg hname]
      split at hq
      · cases hq
      · next hsize =>
        rw [if_neg hsize, h.here]
        exact h.followLinks hq

theorem Grows.locate (h : Grows t t') {path : String} (hq : t.locate path = .ok q) :
    t'.locate path = .ok q :=
  h.resolve hq

end Ways

section Steps

variable {t t' : FileTree} {p q : Position} {path : String} {content : ByteArray}

/-- What stands at a position is as it was, or a directory was made there. -/
def Spared (t t' : FileTree) (q : Position) : Prop :=
  t'.entry? q = t.entry? q ∨ t.entry? q = none ∧ t'.entry? q = some .directory

theorem Spared.trans {t'' : FileTree} (h : Spared t t' q) (h' : Spared t' t'' q) :
    Spared t t'' q := by
  obtain heq | ⟨hnone, hdir⟩ := h
  · obtain heq' | ⟨hnone', hdir'⟩ := h'
    · exact Or.inl (heq'.trans heq)
    · exact Or.inr ⟨heq ▸ hnone', hdir'⟩
  · obtain heq' | ⟨hnone', -⟩ := h'
    · exact Or.inr ⟨hnone, heq'.trans hdir⟩
    · rw [hdir] at hnone'
      cases hnone'

/-- Content was written at a position: it stands under all names of the file there, and everything
else is as it was. -/
structure Wrote (t t' : FileTree) (p : Position) (content : ByteArray) : Prop where
  grows : Grows t t'
  there : (t'.stands p).isSome
  shared : ∀ q, t'.Shares p q → t'.entry? q = some (.file content)
  apart : ∀ q, ¬ t'.Shares p q → t'.entry? q = t.entry? q

theorem wrote_putContent (hn : t.Numbered)
    (hp : (∃ old, t.entry? p = some (.file old)) ∨ t.entry? p = none) :
    Wrote t (t.putContent p content) p content := by
  obtain ⟨old, hp⟩ | hp := hp
  · obtain ⟨n, hp⟩ := entry?_eq_some_iff.mp hp
    have hput : t.putContent p content = t.fill n content := by
      unfold stands at hp
      obtain ⟨⟨entry, number, rights, changed⟩, hx, heq⟩ := Option.map_eq_some_iff.mp hp
      cases heq
      unfold putContent
      rw [hx]
    rw [hput]
    have hfill (q : Position) : (t.fill n content).stands q =
        (t.stands q).map fun s => if s.2 = n then (.file content, s.2) else s :=
      stands_fill hn hp q
    have hthere : (t.fill n content).stands p = some (.file content, n) := by
      rw [hfill, hp, Option.map_some, if_pos rfl]
    refine ⟨.of_fill hn hp, by rw [hthere]; rfl, fun q => ?_, fun q hq => ?_⟩
    · rintro ⟨_, e, _, hshare, hq⟩
      cases hshare.symm.trans hthere
      rw [(Grows.of_fill hn hp).numbered.alike _ _ _ _ _ hq hthere] at hq
      exact entry?_eq_some_iff.mpr ⟨n, hq⟩
    · rw [entry?_eq_stands, entry?_eq_stands, hfill]
      rcases hold : t.stands q with _ | ⟨e, m⟩
      · rfl
      · rw [Option.map_some]
        split
        · next hm =>
          refine absurd ⟨_, .file content, n, hthere, ?_⟩ hq
          rw [hfill, hold, Option.map_some, if_pos hm, show m = n from hm]
        · rfl
  · have hne : p ≠ [] := by
      rintro rfl
      cases hp
    have hput : t.putContent p content = t.put p (.file content) := by
      unfold putContent
      rw [Option.map_eq_none_iff.mp hp]
    rw [hput]
    have hstands := stands_put t (.file content) hne
    have hthere : (t.put p (.file content)).stands p = some (.file content, t.nextNumber) := by
      rw [hstands, if_pos rfl]
    have hgrows : Grows t (t.put p (.file content)) := .of_put hn hp fun _ => nofun
    refine ⟨hgrows, by rw [hthere]; rfl, fun q => ?_, fun q hq => ?_⟩
    · rintro ⟨_, e, _, hshare, hq⟩
      cases hshare.symm.trans hthere
      rw [hgrows.numbered.alike _ _ _ _ _ hq hthere] at hq
      exact entry?_eq_some_iff.mpr ⟨_, hq⟩
    · rw [entry?_eq_stands, entry?_eq_stands, hstands, if_neg]
      rintro rfl
      exact hq ⟨_, _, _, hthere, hthere⟩

theorem write_eq_ok (h : t.write path content = .ok t') :
    ∃ p, t.locate path = .ok p ∧
      ((∃ old, t.entry? p = some (.file old)) ∨ t.entry? p = none) ∧
        t.putContent p content = t' := by
  obtain ⟨p, hp, h⟩ := bind_eq_ok_iff.mp h
  refine ⟨p, hp, ?_⟩
  split at h
  · cases h
  · split at h
    · cases h
    · cases h
    · next old hold => exact ⟨Or.inl ⟨old, hold⟩, Except.ok.inj h⟩
    · next hnone =>
      split at h
      · exact ⟨Or.inr hnone, Except.ok.inj h⟩
      · cases h

/-- A file is written where its path leads. -/
theorem wrote_of_write (hn : t.Numbered) (h : t.write path content = .ok t') :
    ∃ p, t'.locate path = .ok p ∧ Wrote t t' p content := by
  obtain ⟨p, hp, hfree, rfl⟩ := write_eq_ok h
  have hwrote : Wrote t (t.putContent p content) p content := wrote_putContent hn hfree
  exact ⟨p, hwrote.grows.locate hp, hwrote⟩

/-- A directory is made where its path leads, and nothing else changes. -/
theorem makeDir_spec (hn : t.Numbered) (h : t.makeDir path = .ok t') :
    Grows t t' ∧ (∀ q, Spared t t' q) ∧
      ∃ p, t'.locate path = .ok p ∧ t'.entry? p = some .directory := by
  obtain ⟨p, hp, h⟩ := bind_eq_ok_iff.mp h
  split at h
  · cases h
  · next hnone =>
    split at h
    · cases h
      have hne : p ≠ [] := by
        rintro rfl
        cases hnone
      have hgrows : Grows t (t.put p .directory) := .of_put hn hnone fun _ => nofun
      have hentry (q : Position) : FileTree.entry? (t.put p .directory) q =
          if q = p then some .directory else t.entry? q := by
        rw [entry?_eq_stands, stands_put t .directory hne]
        split
        · rfl
        · exact (entry?_eq_stands t q).symm
      refine ⟨hgrows, fun q => ?_, p, ?_, by rw [hentry, if_pos rfl]⟩
      · unfold Spared
        rw [hentry]
        split
        · next h => exact Or.inr ⟨h ▸ hnone, rfl⟩
        · exact Or.inl rfl
      · exact hgrows.locate (locate_of_resolve hp (by rw [hnone]; nofun))
    · cases h

theorem isDirectory_iff : t.isDirectory path = true ↔
    ∃ p, t.locate path = .ok p ∧ t.entry? p = some .directory := by
  unfold isDirectory find at?
  cases hp : t.locate path with
  | error e => simp [bind, Except.bind]
  | ok p =>
    simp only [bind, Except.bind, Except.ok.injEq, exists_eq_left']
    cases t.entry? p with
    | none => simp
    | some e =>
      cases e with
      | directory => simp
      | file content => cases endsInSlash path <;> simp
      | link target => cases endsInSlash path <;> simp

/-- Making directories makes nothing but directories, whether or not it succeeds; if it does, the
first of them is there. -/
theorem makeDirsAlong_spec (hn : t.Numbered) (paths : List String) :
    Grows t (makeDirsAlong paths t).2 ∧ (∀ q, Spared t (makeDirsAlong paths t).2 q) ∧
      ((makeDirsAlong paths t).1 = .ok () → ∀ path, paths.head? = some path → path ≠ "" →
        (makeDirsAlong paths t).2.isDirectory path = true) := by
  induction paths with
  | nil => exact ⟨.refl hn, fun _ => Or.inl rfl, fun _ _ h => nomatch h⟩
  | cons path above ih =>
    have hstay : Grows t t ∧ ∀ q, Spared t t q := ⟨.refl hn, fun _ => Or.inl rfl⟩
    unfold makeDirsAlong
    split
    · next hempty =>
      refine ⟨hstay.1, hstay.2, fun _ path' hpath hne => ?_⟩
      cases hpath
      exact absurd (String.isEmpty_iff.mp hempty) hne
    · split
      · next t₁ hmade =>
        obtain ⟨hgrows, hspared, hthere⟩ := makeDir_spec hn hmade
        refine ⟨hgrows, hspared, fun _ path' hpath _ => ?_⟩
        cases hpath
        exact isDirectory_iff.mpr hthere
      · split
        · next e t₁ habove =>
          rw [habove] at ih
          exact ⟨ih.1, ih.2.1, nofun⟩
        · next t₁ habove =>
          rw [habove] at ih
          obtain ⟨hgrows, hspared, -⟩ := ih
          split
          · next t₂ hmade =>
            obtain ⟨hgrows', hspared', hthere⟩ := makeDir_spec hgrows.numbered hmade
            refine ⟨hgrows.trans hgrows', fun q => (hspared q).trans (hspared' q),
              fun _ path' hpath _ => ?_⟩
            cases hpath
            exact isDirectory_iff.mpr hthere
          · split
            · next hdir =>
              refine ⟨hgrows, hspared, fun _ path' hpath _ => ?_⟩
              cases hpath
              exact hdir
            · exact ⟨hgrows, hspared, nofun⟩
      · split
        · next hdir =>
          refine ⟨hstay.1, hstay.2, fun _ path' hpath _ => ?_⟩
          cases hpath
          exact hdir
        · exact ⟨hstay.1, hstay.2, nofun⟩

theorem makeDirs_spec (hn : t.Numbered) (path : String) :
    Grows t (t.makeDirs path).2 ∧ (∀ q, Spared t (t.makeDirs path).2 q) ∧
      ((t.makeDirs path).1 = .ok () → path ≠ "" →
        (t.makeDirs path).2.isDirectory path = true) := by
  obtain ⟨hgrows, hspared, hthere⟩ := makeDirsAlong_spec hn (ancestorPaths path)
  exact ⟨hgrows, hspared, fun hok hne => hthere hok path rfl hne⟩

theorem read_eq_ok (h : t.read path = .ok content) :
    ∃ p, t.locate path = .ok p ∧ t.entry? p = some (.file content) := by
  obtain ⟨⟨p, e⟩, hfind, h⟩ := bind_eq_ok_iff.mp h
  obtain ⟨p', hp, hat⟩ := bind_eq_ok_iff.mp hfind
  have hfile : e = .file content := by
    split at h
    · next heq =>
      cases h
      exact congrArg Prod.snd heq
    · cases h
    · cases h
  subst hfile
  refine ⟨p', hp, ?_⟩
  unfold at? at hat
  split at hat
  · cases hat
  · cases hat
  · next e' _ hentry =>
    split at hat
    · cases hat
    · cases hat
      exact hentry

/-- What was read from a file can be read again where the file is as it was. -/
theorem read_of_grows (h : Grows t t') (hread : t.read path = .ok content)
    (hsame : ∀ p, t.locate path = .ok p → t.entry? p = some (.file content) →
      t'.entry? p = t.entry? p) :
    t'.read path = .ok content := by
  obtain ⟨p, hp, hfile⟩ := read_eq_ok hread
  obtain ⟨⟨p₁, e⟩, hfind, hread⟩ := bind_eq_ok_iff.mp hread
  obtain ⟨p₂, hp₂, hat⟩ := bind_eq_ok_iff.mp hfind
  cases hp.symm.trans hp₂
  refine bind_eq_ok_iff.mpr ⟨(p₁, e), bind_eq_ok_iff.mpr ⟨p, h.locate hp, ?_⟩, hread⟩
  unfold at? at hat ⊢
  rw [hsame p hp hfile]
  exact hat

end Steps

end PatchSearch.FileTree

namespace PatchSearch

/-- Files are kept in a tree when the access to them is that to the tree, at whatever time. -/
structure Storage.KeptIn {σ : Type} (files : Storage σ) (view : σ → FileTree) : Prop where
  read : ∀ path world, ∃ now,
    files.read path world = FileTree.read { view world with now } path
  write : ∀ path content world, ∃ now,
    ((files.write path content world).1, view (files.write path content world).2) =
      FileTree.storage.write path content { view world with now }
  makeDirs : ∀ path world, ∃ now,
    ((files.makeDirs path world).1, view (files.makeDirs path world).2) =
      FileTree.makeDirs { view world with now } path

namespace Storage.KeptIn

open FileTree

variable {σ : Type} {files : Storage σ} {view : σ → FileTree} {path : String} {world : σ}

/-- Directories are made along a path, and nothing else changes; if all goes well, the last of them
is there. -/
theorem makeDirs_spec (h : files.KeptIn view) (hn : (view world).Numbered)
    {answer : Except FileError Unit} {world' : σ}
    (hmade : files.makeDirs path world = (answer, world')) :
    Grows (view world) (view world') ∧ (∀ q, Spared (view world) (view world') q) ∧
      (answer = .ok () → path ≠ "" →
        ∃ p, (view world').locate path = .ok p ∧
          FileTree.entry? (view world') p = some .directory) := by
  obtain ⟨now, hsame⟩ := h.makeDirs path world
  have hstart := Grows.at_time hn now
  have hspec := FileTree.makeDirs_spec hstart.numbered path
  rw [← hsame, hmade] at hspec
  obtain ⟨hgrows, hspared, hthere⟩ := hspec
  exact ⟨hstart.trans hgrows, hspared, fun hok hne => isDirectory_iff.mp (hthere hok hne)⟩

/-- A file is written where its path leads, or nothing changes. -/
theorem write_spec (h : files.KeptIn view) (hn : (view world).Numbered) {content : ByteArray}
    {answer : Except FileError Unit} {world' : σ}
    (hwritten : files.write path content world = (answer, world')) :
    (answer = .ok () ∧ ∃ p, (view world').locate path = .ok p ∧
        Wrote (view world) (view world') p content) ∨
      (∃ e, answer = .error e) ∧ Grows (view world) (view world') ∧
        ∀ q, FileTree.entry? (view world') q = FileTree.entry? (view world) q := by
  obtain ⟨now, hsame⟩ := h.write path content world
  rw [hwritten] at hsame
  have hstart := Grows.at_time hn now
  unfold FileTree.storage at hsame
  dsimp only at hsame
  split at hsame
  · next t' ht' =>
    obtain ⟨rfl, rfl⟩ := Prod.mk.inj hsame
    obtain ⟨p, hp, hwrote⟩ := wrote_of_write hstart.numbered ht'
    exact Or.inl ⟨rfl, p, hp, hstart.trans hwrote.grows, hwrote.there, hwrote.shared, hwrote.apart⟩
  · next e he =>
    obtain ⟨rfl, hview⟩ := Prod.mk.inj hsame
    refine Or.inr ⟨⟨e, rfl⟩, ?_⟩
    rw [hview]
    exact ⟨hstart, fun _ => rfl⟩

/-- What was read from a file can be read again where the file is as it was. -/
theorem read_of_grows (h : files.KeptIn view) {world' : σ} (hn : (view world).Numbered)
    (hgrows : Grows (view world) (view world')) {content : ByteArray}
    (hread : files.read path world = .ok content)
    (hsame : ∀ p, (view world).locate path = .ok p →
      FileTree.entry? (view world) p = some (.file content) →
        FileTree.entry? (view world') p = FileTree.entry? (view world) p) :
    files.read path world' = .ok content := by
  obtain ⟨now, hnow⟩ := h.read path world
  obtain ⟨now', hnow'⟩ := h.read path world'
  rw [hnow] at hread
  rw [hnow']
  have hback : Grows { view world with now } (view world) :=
    .of_stands_eq (Grows.at_time hn now).numbered (fun _ => rfl) rfl rfl
  refine FileTree.read_of_grows (hback.trans (hgrows.trans (.at_time hgrows.numbered now'))) hread
    fun p hp => ?_
  exact hsame p (hback.locate hp)

end Storage.KeptIn

end PatchSearch
