import PatchSearch.Fault

/-!
Computations that come to no fault. `Yields x P` says that `x` has a value and that its value has
the property `P`, so a chain of steps is followed from one value to the next without a look at
how the chain is written. `SameCourse P x y` says that `x` and `y` come to the same fault or to
values that `P` relates. `FaultsOnly F x` says that `F` holds of the fault that `x` comes to, if it
comes to one.
-/
namespace PatchSearch

/-- A chain has a value when its first step has one and the rest has one from there. -/
theorem bind_eq_ok_iff {ε β γ : Type} {x : Except ε β} {f : β → Except ε γ} {c : γ} :
    x >>= f = .ok c ↔ ∃ b, x = .ok b ∧ f b = .ok c := by
  cases x with
  | error e => exact ⟨nofun, nofun⟩
  | ok b => exact ⟨fun h => ⟨b, rfl, h⟩, fun ⟨_, hb, h⟩ => Except.ok.inj hb ▸ h⟩

/-- A computation whose value is changed has a value when it had one before. -/
theorem map_eq_ok_iff {ε β γ : Type} {x : Except ε β} {f : β → γ} {c : γ} :
    x.map f = .ok c ↔ ∃ b, x = .ok b ∧ f b = c := by
  cases x with
  | error e => exact ⟨nofun, nofun⟩
  | ok b => exact ⟨fun h => ⟨b, rfl, Except.ok.inj h⟩, fun ⟨_, hb, h⟩ => by cases hb; cases h; rfl⟩

/-- Naming the cause of a failure in another way changes no values. -/
theorem mapError_eq_ok_iff {ε ε' β : Type} {f : ε → ε'} {x : Except ε β} {b : β} :
    x.mapError f = .ok b ↔ x = .ok b := by
  cases x with
  | error e => exact ⟨nofun, nofun⟩
  | ok b' => exact ⟨fun h => congrArg _ (Except.ok.inj h), fun h => congrArg _ (Except.ok.inj h)⟩

theorem toOption_map_eq_some_iff {ε β γ : Type} {x : Except ε β} {f : β → γ} {c : γ} :
    x.toOption.map f = some c ↔ ∃ b, x = .ok b ∧ f b = c := by
  rw [← map_eq_ok_iff]
  cases x with
  | error e => exact ⟨nofun, nofun⟩
  | ok b => exact ⟨fun h => congrArg Except.ok (Option.some.inj h),
      fun h => congrArg some (Except.ok.inj h)⟩

/-- A computation has a value, and its value has a property. -/
def Yields {ε β : Type} (x : Except ε β) (P : β → Prop) : Prop :=
  ∃ b, x = .ok b ∧ P b

namespace Yields

variable {ε β γ : Type} {P : β → Prop} {Q : γ → Prop}

theorem ok {b : β} (h : P b) : Yields (.ok b : Except ε β) P :=
  ⟨b, rfl, h⟩

theorem pure {b : β} (h : P b) : Yields (Pure.pure b : Except ε β) P :=
  ⟨b, rfl, h⟩

/-- The value that a computation came to has the property. -/
theorem of_eq {x : Except ε β} {b : β} (hx : Yields x P) (h : x = .ok b) : P b := by
  obtain ⟨b', rfl, hp⟩ := hx
  exact Except.ok.inj h ▸ hp

theorem mono {P' : β → Prop} {x : Except ε β} (hx : Yields x P) (h : ∀ b, P b → P' b) :
    Yields x P' := by
  obtain ⟨b, hb, hp⟩ := hx
  exact ⟨b, hb, h b hp⟩

/-- What holds of any value there may be holds of the value there is. -/
theorem and_of_ok {P' : β → Prop} {x : Except ε β} (hx : Yields x P)
    (h : ∀ b, x = .ok b → P' b) : Yields x fun b => P b ∧ P' b := by
  obtain ⟨b, hb, hp⟩ := hx
  exact ⟨b, hb, hp, h b hb⟩

theorem bind {x : Except ε β} {f : β → Except ε γ} (hx : Yields x P)
    (hf : ∀ b, P b → Yields (f b) Q) : Yields (x >>= f) Q := by
  obtain ⟨b, rfl, hp⟩ := hx
  exact hf b hp

/-- A step over every member of a list gives a value for each of them. -/
theorem mapM {f : β → Except ε γ} {xs : List β} (h : ∀ x ∈ xs, Yields (f x) Q) :
    Yields (xs.mapM f) fun ys => ys.length = xs.length ∧ ∀ y ∈ ys, Q y := by
  induction xs with
  | nil => exact ⟨[], rfl, by simp, by simp⟩
  | cons x xs ih =>
    rw [List.mapM_cons]
    refine bind (h x (by simp)) fun y hy => ?_
    refine bind (ih fun x hx => h x (by simp [hx])) fun ys hys => ?_
    refine pure ⟨by simp [hys.1], ?_⟩
    intro z hz
    rcases List.mem_cons.mp hz with rfl | hz
    · exact hy
    · exact hys.2 z hz

end Yields

/-- Two computations come to the same fault or to related values. -/
def SameCourse {ε β γ : Type} (P : β → γ → Prop) (x : Except ε β) (y : Except ε γ) : Prop :=
  (∃ fault, x = .error fault ∧ y = .error fault) ∨ ∃ b c, x = .ok b ∧ y = .ok c ∧ P b c

namespace SameCourse

variable {ε β γ β' γ' : Type} {P : β → γ → Prop} {P' : β' → γ' → Prop}

theorem ok {b : β} {c : γ} (h : P b c) : SameCourse P (.ok b : Except ε β) (.ok c) :=
  Or.inr ⟨b, c, rfl, rfl, h⟩

theorem error (fault : ε) : SameCourse P (.error fault : Except ε β) (.error fault) :=
  Or.inl ⟨fault, rfl, rfl⟩

theorem pure {b : β} {c : γ} (h : P b c) :
    SameCourse P (Pure.pure b : Except ε β) (Pure.pure c) :=
  ok h

theorem refl (x : Except ε β) : SameCourse (· = ·) x x := by
  cases x with
  | error fault => exact error fault
  | ok b => exact ok rfl

theorem eq {x y : Except ε β} (h : SameCourse (· = ·) x y) : x = y := by
  obtain ⟨fault, rfl, rfl⟩ | ⟨b, c, rfl, rfl, rfl⟩ := h <;> rfl

theorem mono {P' : β → γ → Prop} {x : Except ε β} {y : Except ε γ} (h : SameCourse P x y)
    (hp : ∀ b c, P b c → P' b c) : SameCourse P' x y := by
  obtain hfault | ⟨b, c, rfl, rfl, h⟩ := h
  · exact Or.inl hfault
  · exact ok (hp b c h)

theorem symm {x : Except ε β} {y : Except ε γ} (h : SameCourse P x y) :
    SameCourse (fun c b => P b c) y x := by
  obtain ⟨fault, rfl, rfl⟩ | ⟨b, c, rfl, rfl, h⟩ := h
  · exact error fault
  · exact ok h

/-- If one came to a value, the other one came to a related value. -/
theorem exists_ok {x : Except ε β} {y : Except ε γ} (h : SameCourse P x y) {b : β}
    (hx : x = .ok b) : ∃ c, y = .ok c ∧ P b c := by
  obtain ⟨fault, rfl, -⟩ | ⟨b', c, rfl, rfl, hp⟩ := h
  · cases hx
  · cases hx
    exact ⟨c, rfl, hp⟩

/-- The values that both came to are related. -/
theorem of_ok {x : Except ε β} {y : Except ε γ} (h : SameCourse P x y) {b : β} {c : γ}
    (hx : x = .ok b) (hy : y = .ok c) : P b c := by
  obtain ⟨c', hy', hp⟩ := h.exists_ok hx
  cases hy.symm.trans hy'
  exact hp

theorem map {x : Except ε β} {y : Except ε γ} {f : β → β'} {g : γ → γ'} (h : SameCourse P x y)
    (hfg : ∀ b c, P b c → P' (f b) (g c)) : SameCourse P' (x.map f) (y.map g) := by
  obtain ⟨fault, rfl, rfl⟩ | ⟨b, c, rfl, rfl, hp⟩ := h
  · exact error fault
  · exact ok (hfg b c hp)

theorem bind {x : Except ε β} {y : Except ε γ} {f : β → Except ε β'} {g : γ → Except ε γ'}
    (h : SameCourse P x y) (hfg : ∀ b c, P b c → SameCourse P' (f b) (g c)) :
    SameCourse P' (x >>= f) (y >>= g) := by
  obtain ⟨fault, rfl, rfl⟩ | ⟨b, c, rfl, rfl, hp⟩ := h
  · exact error fault
  · exact hfg b c hp

/-- The same step first, then steps that take the same course from its value on. -/
theorem step {x : Except ε β} {f : β → Except ε β'} {g : β → Except ε γ'}
    (h : ∀ b, SameCourse P' (f b) (g b)) : SameCourse P' (x >>= f) (x >>= g) :=
  bind (refl x) fun b _ heq => heq ▸ h b

end SameCourse

/-- A step that succeeds for every member of a list gives their values in order. -/
theorem mapM_eq_ok_map {ε β γ : Type} {f : β → Except ε γ} {g : β → γ} {xs : List β}
    (h : ∀ x ∈ xs, f x = .ok (g x)) : xs.mapM f = .ok (xs.map g) := by
  induction xs with
  | nil => rfl
  | cons x xs ih =>
    obtain ⟨hx, hxs⟩ := List.forall_mem_cons.mp h
    rw [List.mapM_cons, hx, ih hxs]
    rfl

/-- A step over the members of a list gives their values in order. -/
theorem getElem?_of_mapM {ε β γ : Type} {f : β → Except ε γ} {xs : List β} {ys : List γ}
    (h : xs.mapM f = .ok ys) : ys.length = xs.length ∧
      ∀ (i : Nat) x, xs[i]? = some x → ∃ y, ys[i]? = some y ∧ f x = .ok y := by
  induction xs generalizing ys with
  | nil =>
    cases h
    exact ⟨rfl, nofun⟩
  | cons x xs ih =>
    rw [List.mapM_cons] at h
    obtain ⟨y, hy, h⟩ := bind_eq_ok_iff.mp h
    obtain ⟨rest, hrest, h⟩ := bind_eq_ok_iff.mp h
    cases h
    obtain ⟨hlength, hvalues⟩ := ih hrest
    refine ⟨congrArg (· + 1) hlength, fun i x' hi => ?_⟩
    cases i with
    | zero =>
      cases hi
      exact ⟨y, rfl, hy⟩
    | succ i => exact hvalues i x' hi

theorem yields_itemAt {α : Type} {xs : List α} {i : Nat} (h : i < xs.length) :
    Yields (itemAt xs i) fun a => a ∈ xs ∧ xs[i]? = some a :=
  ⟨xs[i], itemAt_of_lt xs i h, List.getElem_mem h, List.getElem?_eq_getElem h⟩

theorem itemAt_eq_ok_iff {α : Type} {xs : List α} {i : Nat} {a : α} :
    itemAt xs i = .ok a ↔ xs[i]? = some a := by
  unfold itemAt
  cases xs[i]? <;> simp

theorem getElem?_of_itemAt {α : Type} {xs : List α} {i : Nat} {a : α}
    (h : itemAt xs i = .ok a) : xs[i]? = some a :=
  itemAt_eq_ok_iff.mp h

/-- A computation that comes to a fault comes to one of a kind. -/
def FaultsOnly {β : Type} (F : Fault → Prop) (x : Except Fault β) : Prop :=
  ∀ fault, x = .error fault → F fault

namespace FaultsOnly

variable {β γ : Type} {F : Fault → Prop} {x : Except Fault β}

theorem ok (b : β) : FaultsOnly F (.ok b) :=
  nofun

theorem pure (b : β) : FaultsOnly F (Pure.pure b) :=
  nofun

theorem error {fault : Fault} (h : F fault) : FaultsOnly F (.error fault : Except Fault β) :=
  fun _ heq => Except.error.inj heq ▸ h

theorem of_yields {P : β → Prop} (h : Yields x P) : FaultsOnly F x := by
  obtain ⟨b, rfl, -⟩ := h
  exact ok b

theorem bind {f : β → Except Fault γ} (hx : FaultsOnly F x)
    (hf : ∀ b, x = .ok b → FaultsOnly F (f b)) : FaultsOnly F (x >>= f) := by
  cases x with
  | error fault => exact fun _ heq => hx _ (congrArg _ (Except.error.inj heq))
  | ok b => exact hf b rfl

theorem map (hx : FaultsOnly F x) (f : β → γ) : FaultsOnly F (x.map f) := by
  cases x with
  | error fault => exact fun _ heq => hx _ (congrArg _ (Except.error.inj heq))
  | ok b => exact ok (f b)

theorem mapM {f : β → Except Fault γ} {xs : List β} (h : ∀ x ∈ xs, FaultsOnly F (f x)) :
    FaultsOnly F (xs.mapM f) := by
  induction xs with
  | nil => exact ok []
  | cons x xs ih =>
    rw [List.mapM_cons]
    refine bind (h x (by simp)) fun y _ => ?_
    refine bind (ih fun x hx => h x (by simp [hx])) fun ys _ => ?_
    exact pure _

end FaultsOnly

theorem faultsOnly_itemAt {F : Fault → Prop} {β : Type} (hindex : F .indexOutOfRange) (xs : List β)
    (i : Nat) : FaultsOnly F (itemAt xs i) := by
  unfold itemAt
  split
  · exact .ok _
  · exact .error hindex

theorem yields_fitting {bound n : Nat} (h : n < bound) :
    Yields (fitting bound n) fun m => m = n :=
  ⟨n, by simp [fitting, h], rfl⟩

end PatchSearch
