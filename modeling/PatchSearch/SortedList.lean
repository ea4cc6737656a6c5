/-!
Finite sets and maps as ascending lists. `sortedSet` sorts a list and keeps one member of each
run of equal ones, so lists with the same members give the same set. A map from texts is a list
of pairs with ascending keys; `insertEntry` puts a value under a key, in place of an earlier one.
-/
namespace PatchSearch

/-- Keeps one of each run of equal neighbours. -/
def dropRepeats {α : Type} [DecidableEq α] : List α → List α
  | [] => []
  | [a] => [a]
  | a :: b :: xs => if a = b then dropRepeats (b :: xs) else a :: dropRepeats (b :: xs)

theorem mem_dropRepeats {α : Type} [DecidableEq α] (x : α) (xs : List α) :
    x ∈ dropRepeats xs ↔ x ∈ xs := by
  fun_induction dropRepeats xs with
  | case1 => simp
  | case2 => simp
  | case3 b xs ih => simp [ih]
  | case4 a b xs h ih => simp [ih]

theorem length_dropRepeats_le {α : Type} [DecidableEq α] (xs : List α) :
    (dropRepeats xs).length ≤ xs.length := by
  fun_induction dropRepeats xs with
  | case1 => exact Nat.le_refl _
  | case2 => exact Nat.le_refl _
  | case3 b xs ih => exact Nat.le_succ_of_le ih
  | case4 a b xs h ih => exact Nat.succ_le_succ ih

/-- The members of a list as an ascending list. -/
def sortedSet {α : Type} [DecidableEq α] (le : α → α → Bool) (xs : List α) : List α :=
  dropRepeats (xs.mergeSort le)

theorem mem_sortedSet {α : Type} [DecidableEq α] (le : α → α → Bool) (x : α) (xs : List α) :
    x ∈ sortedSet le xs ↔ x ∈ xs := by
  simp [sortedSet, mem_dropRepeats, List.mem_mergeSort]

/-- Texts in the order of their characters. -/
def textLE (a b : String) : Bool :=
  decide (a ≤ b)

/-- The members of a list of texts as an ascending list. -/
def textSet (xs : List String) : List String :=
  sortedSet textLE xs

theorem mem_textSet (x : String) (xs : List String) : x ∈ textSet xs ↔ x ∈ xs :=
  mem_sortedSet textLE x xs

theorem length_textSet_le (xs : List String) : (textSet xs).length ≤ xs.length := by
  unfold textSet sortedSet
  have hle := length_dropRepeats_le (xs.mergeSort textLE)
  rwa [List.length_mergeSort] at hle

/-- A map from texts, its keys ascending. -/
abbrev TextMap (β : Type) := List (String × β)

namespace TextMap

variable {β : Type}

/-- Puts a value under a key. -/
def insertEntry (key : String) (value : β) : TextMap β → TextMap β
  | [] => [(key, value)]
  | (k, v) :: m =>
    if key < k then (key, value) :: (k, v) :: m
    else if key = k then (key, value) :: m
    else (k, v) :: insertEntry key value m

/-- The map of a list of entries, of which later ones win. -/
def ofEntries (entries : List (String × β)) : TextMap β :=
  entries.foldl (fun m e => insertEntry e.1 e.2 m) []

theorem lookup_insertEntry (key : String) (value : β) (m : TextMap β) :
    (insertEntry key value m).lookup key = some value := by
  induction m with
  | nil => simp [insertEntry]
  | cons e m ih =>
    obtain ⟨k, v⟩ := e
    simp only [insertEntry]
    split
    · simp
    · split
      · simp
      · next h => simp [List.lookup_cons, beq_eq_false_iff_ne.mpr h, ih]

end TextMap

end PatchSearch
