import PatchSearch.Proofs.Novelty
import PatchSearch.Proofs.Random.Draws

/-!
The archive as a bounded sample of the descriptors inserted into it. An insertion into an archive
with any capacity writes one slot, a new one below capacity and an old one at capacity, and draws a
number only for an old one. So after a stream of insertions the slots hold descriptors of different
insertions, as many as fit.
-/
namespace PatchSearch.Archive

variable {a : Archive} {d : Descriptor} {g : Random}

theorem capacity_insert (a : Archive) (d : Descriptor) (g : Random) :
    (a.insert d g).1.capacity = a.capacity := by
  unfold insert
  split
  · rfl
  · split <;> rfl

/-- An insertion adds an entry unless the archive is full. -/
theorem length_insert {a : Archive} (h : a.entries.length ≤ a.capacity) (d : Descriptor)
    (g : Random) : (a.insert d g).1.entries.length = min a.capacity (a.entries.length + 1) := by
  unfold insert
  split
  · dsimp only
    omega
  · split
    · rw [List.length_append, List.length_singleton]
      omega
    · rw [List.length_set]
      omega

/-- What an insertion makes of an archive and a random source. An archive without capacity refuses
the descriptor, one with room appends it, and a full one puts it into the slot that is drawn. -/
inductive Inserted (a : Archive) (d : Descriptor) (g : Random) : Archive × Random → Prop
  | refused (closed : a.capacity = 0) : Inserted a d g (a, g)
  | appended (room : a.entries.length < a.capacity) :
      Inserted a d g ({ a with entries := a.entries ++ [d] }, g)
  | replaced {slot : ℕ} {g' : Random} (kept : 0 < a.capacity)
      (full : a.capacity ≤ a.entries.length) (drawn : g.below a.entries.length = (slot, g'))
      (within : slot < a.entries.length) :
      Inserted a d g ({ a with entries := a.entries.set slot d }, g')

theorem inserted_insert (a : Archive) (d : Descriptor) (g : Random) :
    a.Inserted d g (a.insert d g) := by
  unfold insert
  by_cases hclosed : a.capacity = 0
  · rw [if_pos hclosed]
    exact .refused hclosed
  rw [if_neg hclosed]
  by_cases hroom : a.entries.length < a.capacity
  · rw [if_pos hroom]
    exact .appended hroom
  rw [if_neg hroom]
  have hslot := Random.below_lt a.entries.length (by omega) g
  rcases hdrawn : g.below a.entries.length with ⟨slot, g'⟩
  rw [hdrawn] at hslot
  exact .replaced (by omega) (by omega) hdrawn hslot

/-- One slot of some entries is written and all others are as before. -/
def Writes (entries : List Descriptor) (slot : ℕ) (d : Descriptor) (written : List Descriptor) :
    Prop :=
  written[slot]? = some d ∧ ∀ i, i ≠ slot → written[i]? = entries[i]?

/-- An archive that keeps anything writes the descriptor into one slot, which is the next free one
as long as there is one. -/
theorem exists_writes (hkept : 0 < a.capacity) (d : Descriptor) (g : Random) :
    ∃ slot, Writes a.entries slot d (a.insert d g).1.entries ∧
      (a.entries.length < a.capacity → slot = a.entries.length) := by
  have hinserted := a.inserted_insert d g
  generalize a.insert d g = result at hinserted
  cases hinserted with
  | refused closed => omega
  | appended room =>
    refine ⟨a.entries.length, ⟨by simp, fun i hi => ?_⟩, fun _ => rfl⟩
    rcases lt_or_gt_of_ne hi with hlt | hgt
    · exact List.getElem?_append_left hlt
    · have hnext : (a.entries ++ [d]).length ≤ i := by
        rw [List.length_append, List.length_singleton]
        omega
      rw [List.getElem?_eq_none hnext, List.getElem?_eq_none hgt.le]
  | @replaced slot g' _ full _ within =>
    refine ⟨slot, ⟨List.getElem?_set_self within, fun i hi => ?_⟩, fun room => ?_⟩
    · exact List.getElem?_set_ne hi.symm
    · omega

/-- A random number is drawn exactly by a full archive with a capacity. -/
theorem draws_insert (h : a.entries.length ≤ a.capacity) (d : Descriptor) (g : Random) :
    (a.insert d g).2 =
      if 0 < a.capacity ∧ a.entries.length = a.capacity then (g.below a.capacity).2 else g := by
  have hinserted := a.inserted_insert d g
  generalize a.insert d g = result at hinserted
  cases hinserted with
  | refused closed => rw [if_neg (by omega)]
  | appended room => rw [if_neg (by omega)]
  | replaced kept full drawn =>
    have hfull : a.entries.length = a.capacity := by omega
    rw [if_pos ⟨kept, hfull⟩, ← hfull, drawn]

/-- The archive after insertions one after the other, each with the random source that there is by
then. -/
def insertEach (a : Archive) (stream : List (Descriptor × Random)) : Archive :=
  stream.foldl (fun a (d, g) => (a.insert d g).1) a

theorem insertEach_append (a : Archive) (stream : List (Descriptor × Random)) (d : Descriptor)
    (g : Random) : a.insertEach (stream ++ [(d, g)]) = ((a.insertEach stream).insert d g).1 := by
  simp [insertEach]

theorem capacity_insertEach (a : Archive) (stream : List (Descriptor × Random)) :
    (a.insertEach stream).capacity = a.capacity := by
  induction stream using List.reverseRecOn with
  | nil => rfl
  | append_singleton stream insertion ih =>
    rw [insertEach_append, capacity_insert, ih]

theorem length_insertEach (capacity : ℕ) (stream : List (Descriptor × Random)) :
    ((empty capacity).insertEach stream).entries.length = min capacity stream.length := by
  induction stream using List.reverseRecOn with
  | nil => simp [insertEach, empty]
  | append_singleton stream insertion ih =>
    have hcapacity : ((empty capacity).insertEach stream).capacity = capacity :=
      capacity_insertEach _ stream
    rw [insertEach_append, length_insert (by omega), List.length_append, List.length_singleton]
    omega

/-- Entries come from different insertions of a stream: each slot has an insertion of its own, whose
descriptor it holds. -/
def Samples (stream : List (Descriptor × Random)) (entries : List Descriptor) : Prop :=
  ∃ origin : ℕ → ℕ, Set.InjOn origin (Set.Iio entries.length) ∧
    ∀ slot, slot < entries.length → (stream[origin slot]?).map Prod.fst = entries[slot]?

/-- A slot that is written comes from the insertion that is added to the stream. -/
theorem Samples.writes {stream : List (Descriptor × Random)} {entries written : List Descriptor}
    {slot : ℕ} (h : Samples stream entries) (hwrites : Writes entries slot d written) :
    Samples (stream ++ [(d, g)]) written := by
  obtain ⟨origin, hinjective, hholds⟩ := h
  obtain ⟨hslot, hothers⟩ := hwrites
  have hbelow (i : ℕ) (hi : i < written.length) (hne : i ≠ slot) : i < entries.length := by
    have hthere := hothers i hne
    rw [List.getElem?_eq_getElem hi] at hthere
    exact (List.getElem?_eq_some_iff.mp hthere.symm).1
  have hearlier (i : ℕ) (hi : i < entries.length) : origin i < stream.length := by
    have hheld := hholds i hi
    rw [List.getElem?_eq_getElem hi] at hheld
    obtain ⟨insertion, hinsertion, -⟩ := Option.map_eq_some_iff.mp hheld
    exact (List.getElem?_eq_some_iff.mp hinsertion).1
  refine ⟨Function.update origin slot stream.length, ?_, ?_⟩
  · intro i hi j hj hsame
    have hi : i < written.length := hi
    have hj : j < written.length := hj
    by_cases hislot : i = slot <;> by_cases hjslot : j = slot
    · rw [hislot, hjslot]
    · subst hislot
      rw [Function.update_self, Function.update_of_ne hjslot] at hsame
      have hlt := hearlier j (hbelow j hj hjslot)
      omega
    · subst hjslot
      rw [Function.update_self, Function.update_of_ne hislot] at hsame
      have hlt := hearlier i (hbelow i hi hislot)
      omega
    · rw [Function.update_of_ne hislot, Function.update_of_ne hjslot] at hsame
      exact hinjective (hbelow i hi hislot) (hbelow j hj hjslot) hsame
  · intro i hi
    by_cases hislot : i = slot
    · subst hislot
      rw [Function.update_self, hslot]
      simp
    · have hbefore := hbelow i hi hislot
      rw [Function.update_of_ne hislot, hothers i hislot, ← hholds i hbefore,
        List.getElem?_append_left (hearlier i hbefore)]

theorem samples_insertEach (capacity : ℕ) (stream : List (Descriptor × Random)) :
    Samples stream ((empty capacity).insertEach stream).entries := by
  induction stream using List.reverseRecOn with
  | nil => exact ⟨id, Function.injective_id.injOn, by simp [insertEach, empty]⟩
  | append_singleton stream insertion ih =>
    obtain ⟨d, g⟩ := insertion
    by_cases hkept : 0 < capacity
    · have hopen : 0 < ((empty capacity).insertEach stream).capacity := by
        rwa [capacity_insertEach]
      obtain ⟨slot, hwrites, -⟩ := exists_writes hopen d g
      rw [insertEach_append]
      exact ih.writes hwrites
    · have hnone := length_insertEach capacity (stream ++ [(d, g)])
      have hnil := List.eq_nil_of_length_eq_zero (hnone.trans (by omega))
      rw [hnil]
      exact ⟨id, Function.injective_id.injOn, nofun⟩

/-- What holds of an insertion. The archive has the descriptor if it has a capacity, at most one slot
that was there is written and none below capacity, and the random source gives a number exactly if
the archive has a capacity and is full. -/
structure Sampled (a : Archive) (d : Descriptor) (g : Random) (after : Archive × Random) : Prop where
  latest : 0 < a.capacity → d ∈ after.1.entries
  others : ∃ slot, ∀ i, i < a.entries.length → i ≠ slot → after.1.entries[i]? = a.entries[i]?
  below : a.entries.length < a.capacity →
    ∀ i, i < a.entries.length → after.1.entries[i]? = a.entries[i]?
  draws : after.2 ≠ g ↔ 0 < a.capacity ∧ a.entries.length = a.capacity
  drawn : after.2 ≠ g → after.2 = (g.below a.capacity).2

theorem sampled_insert (h : a.entries.length ≤ a.capacity) (d : Descriptor) (g : Random) :
    a.Sampled d g (a.insert d g) := by
  have hdraws := draws_insert h d g
  have hmoved : (g.below a.capacity).2 ≠ g := Random.below_ne_self a.capacity g
  have hdraw : (a.insert d g).2 ≠ g ↔ 0 < a.capacity ∧ a.entries.length = a.capacity := by
    rw [hdraws]
    split
    · next hfull => exact iff_of_true hmoved hfull
    · next hroom => exact iff_of_false (not_not.mpr rfl) hroom
  have hdrawn (hne : (a.insert d g).2 ≠ g) : (a.insert d g).2 = (g.below a.capacity).2 := by
    rw [hdraws, if_pos (hdraw.mp hne)]
  by_cases hkept : 0 < a.capacity
  · obtain ⟨slot, ⟨hslot, hothers⟩, hnext⟩ := exists_writes hkept d g
    refine ⟨fun _ => List.mem_of_getElem? hslot, ⟨slot, fun i _ hi => hothers i hi⟩,
      fun hroom i hi => ?_, hdraw, hdrawn⟩
    apply hothers
    have hfree := hnext hroom
    omega
  · have hsame : (a.insert d g).1 = a := by
      unfold insert
      rw [if_pos (by omega)]
    rw [← Prod.mk.eta (p := a.insert d g), hsame]
    exact ⟨fun hpos => absurd hpos hkept, ⟨0, fun _ _ _ => rfl⟩, fun _ _ _ => rfl, hdraw, hdrawn⟩

/-- An archive keeps a bounded sample. For every capacity and every stream of insertions into an
empty archive, with any random sources, there are as many entries as insertions, up to the capacity,
and the entries come from different insertions. The next insertion leaves its descriptor in the
archive unless that has no capacity, writes at most one of the slots that are there and none below
capacity, and draws a random number exactly if the archive has a capacity and is full. -/
theorem bounded_sample (capacity : ℕ) (stream : List (Descriptor × Random)) :
    let a := (empty capacity).insertEach stream
    a.capacity = capacity ∧ a.entries.length = min capacity stream.length ∧
      Samples stream a.entries ∧ ∀ d g, a.Sampled d g (a.insert d g) := by
  intro a
  have hcapacity : a.capacity = capacity := capacity_insertEach _ stream
  have hlength : a.entries.length = min capacity stream.length :=
    length_insertEach capacity stream
  refine ⟨hcapacity, hlength, samples_insertEach capacity stream, fun d g => ?_⟩
  exact sampled_insert (by omega) d g

end PatchSearch.Archive
