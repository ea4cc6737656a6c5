import PatchSearch.Proofs.Search.Course

/-!
Candidates over a run. New candidates are numbered in turn, so no two of those that a run has
evaluated or holds for their evaluation have the same number. The survivors of a selection are, up
to their ranks, candidates that were evaluated, and between two generations they are the
population.
-/
namespace PatchSearch

variable {α σ : Type} [Scalar α]

/-- Candidates and where those of a run come from. -/
structure Course.Numbered (c : Course α σ) : Prop where
  distinct : ((c.seen ++ c.waiting).map (·.id)).Nodup
  below : ∀ d ∈ c.seen ++ c.waiting, d.id < c.engine.nextId
  parents : ∀ d ∈ c.parents, ∃ d' ∈ c.seen, d.unranked = d'.unranked
  population : c.engine.population = c.parents ∨ c.parents = [] ∧ c.earlier = []

namespace Search

variable {s : Search α σ}

theorem randomCandidates_ids {n : Nat} {e e' : Engine α σ} {cs : List (Candidate α)}
    (h : s.randomCandidates n e = .ok (cs, e')) :
    cs.map (·.id) = List.range' e.nextId n ∧ e'.nextId = e.nextId + n := by
  induction n generalizing e e' cs with
  | zero =>
    cases h
    exact ⟨rfl, rfl⟩
  | succ n ih =>
    obtain ⟨⟨c, random⟩, -, h⟩ := bind_eq_ok_iff.mp h
    obtain ⟨⟨rest, e₁⟩, hrest, h⟩ := bind_eq_ok_iff.mp h
    cases h
    obtain ⟨hids, hnext⟩ := ih hrest
    exact ⟨congrArg (e.nextId :: ·) hids, by dsimp only at hnext; omega⟩

theorem offspring_ids {n : Nat} {e e' : Engine α σ} {cs : List (Candidate α)}
    (h : s.offspring n e = .ok (cs, e')) :
    cs.map (·.id) = List.range' e.nextId n ∧ e'.nextId = e.nextId + n := by
  induction n using Nat.strongRecOn generalizing e e' cs with
  | ind n ih =>
    match n with
    | 0 =>
      cases h
      exact ⟨rfl, rfl⟩
    | 1 =>
      obtain ⟨⟨⟨a, b⟩, parents, e₁⟩, hmate, h⟩ := bind_eq_ok_iff.mp h
      obtain ⟨random, rfl⟩ := mate_engine hmate
      cases h
      exact ⟨rfl, rfl⟩
    | n + 2 =>
      obtain ⟨⟨⟨a, b⟩, parents, e₁⟩, hmate, h⟩ := bind_eq_ok_iff.mp h
      obtain ⟨⟨rest, e₂⟩, hrest, h⟩ := bind_eq_ok_iff.mp h
      obtain ⟨random, rfl⟩ := mate_engine hmate
      cases h
      obtain ⟨hids, hnext⟩ := ih n (by omega) hrest
      refine ⟨congrArg (fun ids => e.nextId :: (e.nextId + 1) :: ids) hids, ?_⟩
      dsimp only at hnext
      omega

omit [Scalar α] in
/-- Candidates that are numbered from the next number on join those with smaller numbers. -/
theorem numbered_append {n next : Nat} (seen : List (Candidate α)) {children : List (Candidate α)}
    (hdistinct : (seen.map (·.id)).Nodup) (hbelow : ∀ d ∈ seen, d.id < next)
    (hids : children.map (·.id) = List.range' next n) :
    ((seen ++ children).map (·.id)).Nodup ∧ ∀ d ∈ seen ++ children, d.id < next + n := by
  have hchild (d : Candidate α) (hd : d ∈ children) : next ≤ d.id ∧ d.id < next + n := by
    have hmem : d.id ∈ children.map (·.id) := List.mem_map_of_mem hd
    rw [hids] at hmem
    exact List.mem_range'_1.mp hmem
  refine ⟨?_, fun d hd => ?_⟩
  · rw [List.map_append, List.nodup_append]
    refine ⟨hdistinct, hids ▸ List.nodup_range', ?_⟩
    intro i hi i' hi'
    obtain ⟨d, hd, rfl⟩ := List.mem_map.mp hi
    obtain ⟨d', hd', rfl⟩ := List.mem_map.mp hi'
    exact Nat.ne_of_lt (Nat.lt_of_lt_of_le (hbelow d hd) (hchild d' hd').1)
  · rcases List.mem_append.mp hd with hd | hd
    · exact Nat.lt_of_lt_of_le (hbelow d hd) (Nat.le_add_right next n)
    · exact (hchild d hd).2

theorem numbered_step {c c' : Course α σ} (hc : c.Numbered) (hstep : s.Step c c') :
    c'.Numbered := by
  obtain ⟨hdistinct, hbelow, hparents, hpopulation⟩ := hc
  cases hstep with
  | look => exact ⟨hdistinct, hbelow, hparents, hpopulation⟩
  | tell ht =>
    obtain ⟨world, rfl⟩ := tell_engine ht
    exact ⟨hdistinct, hbelow, hparents, hpopulation⟩
  | record hr =>
    obtain ⟨history, rfl⟩ := recordHistory_engine hr
    exact ⟨hdistinct, hbelow, hparents, hpopulation⟩
  | @evaluate d d' rest e e' hwaiting hgo he =>
    obtain rfl := stopReason?_engine hgo
    obtain ⟨evaluation, chromosome, bench, -, rfl, rfl⟩ := evaluateCandidate_engine he
    rw [hwaiting] at hdistinct hbelow
    refine ⟨?_, ?_, fun x hx => ?_, hpopulation⟩
    · simpa [Course.seen] using hdistinct
    · intro x hx
      simp only [Course.seen, List.mem_append, List.mem_cons, List.not_mem_nil, or_false]
        at hx hbelow
      obtain (hx | hx | rfl) | hx := hx
      · exact hbelow x (Or.inl (Or.inl hx))
      · exact hbelow x (Or.inl (Or.inr hx))
      · exact hbelow d (Or.inr (Or.inl rfl))
      · exact hbelow x (Or.inr (Or.inr hx))
    · obtain ⟨x', hx', heq⟩ := hparents x hx
      refine ⟨x', ?_, heq⟩
      simp only [Course.seen, List.mem_append] at hx' ⊢
      exact hx'.imp id Or.inl
  | leave hl =>
    obtain rfl := stopReason?_engine hl
    refine ⟨?_, fun d hd => hbelow d ?_, hparents, hpopulation⟩
    · rw [List.append_nil]
      rw [List.map_append] at hdistinct
      exact (List.nodup_append.mp hdistinct).1
    · exact List.mem_append_left _ (by simpa [Course.seen] using hd)
  | survive hwaiting hs =>
    obtain ⟨population, hsurvivors, rfl⟩ := survive_engine hs
    rw [hwaiting] at hdistinct hbelow
    refine ⟨by simpa [Course.seen] using hdistinct, by simpa [Course.seen] using hbelow, ?_,
      Or.inl rfl⟩
    intro x hx
    obtain ⟨d, hd, heq⟩ := mem_survivors hsurvivors hx
    have hseen : ∃ d' ∈ c.seen, d.unranked = d'.unranked := by
      rcases List.mem_append.mp hd with hd | hd
      · exact hparents d hd
      · exact ⟨d, List.mem_append_right _ hd, rfl⟩
    obtain ⟨d', hd', heq'⟩ := hseen
    exact ⟨d', by simpa [Course.seen] using hd', heq.trans heq'⟩
  | breed hrest hb =>
    obtain ⟨hids, hnext⟩ := offspring_ids hb
    obtain ⟨random, nextId, rfl⟩ := offspring_engine hb
    rw [hrest.waiting, List.append_nil] at hdistinct hbelow
    obtain ⟨hdistinct, hbelow⟩ := numbered_append c.seen hdistinct hbelow hids
    refine ⟨hdistinct, fun d hd => ?_, hparents, hpopulation⟩
    have hlt := hbelow d hd
    dsimp only at hnext ⊢
    omega

/-- In every course of a run the candidates are numbered and the survivors were evaluated. -/
theorem Reaches.numbered {e₀ : Engine α σ} {c : Course α σ} (h : s.Reaches e₀ c) :
    c.Numbered := by
  induction h with
  | populate hp =>
    obtain ⟨⟨population, e₁⟩, hdrawn, hp⟩ := bind_eq_ok_iff.mp hp
    cases hp
    obtain ⟨hids, hnext⟩ := randomCandidates_ids hdrawn
    obtain ⟨hdistinct, hbelow⟩ :=
      numbered_append [] List.nodup_nil (by simp) hids
    refine ⟨hdistinct, fun d hd => ?_, by simp, Or.inr ⟨rfl, rfl⟩⟩
    have hlt := hbelow d hd
    change e₁.nextId = e₀.nextId + s.config.populationSize at hnext
    exact hnext ▸ hlt
  | step _ hstep ih => exact numbered_step ih hstep

end Search

end PatchSearch
