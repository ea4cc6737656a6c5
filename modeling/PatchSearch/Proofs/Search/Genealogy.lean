import PatchSearch.Proofs.Search.Front
import PatchSearch.Proofs.Search.Prefix

/-!
Numbers and descent of candidates. A fresh run gives a number to every candidate that it makes and
one to every evaluation that it begins. Children are bred when nobody waits any more and the run
need not stop, so no number is lost before them, and evaluation `k` is that of candidate `k`. Only
a run that has to stop gives up candidates without an evaluation, and then it makes no others. The
first candidates descend from nobody, all others from two members of the population that they were
bred from.
-/
namespace PatchSearch

section Births

variable {α σ : Type} [Scalar α] {s : Search α σ} {e e' : Engine α σ}

/-- What a candidate keeps from when it was made. -/
structure Candidate.SameBirth (d d' : Candidate α) : Prop where
  id : d.id = d'.id
  generation : d.generation = d'.generation
  parents : d.parents = d'.parents

theorem Candidate.sameBirth_of_unranked_eq {d d' : Candidate α} (h : d.unranked = d'.unranked) :
    d.SameBirth d' := by
  rw [Candidate.eq_of_unranked_eq h]
  exact ⟨rfl, rfl, rfl⟩

omit [Scalar α] in
theorem Course.mem_held {c : Course α σ} {d : Candidate α} :
    d ∈ c.held ↔ d ∈ c.engine.population ∨ d ∈ c.parents ∨ d ∈ c.waiting ∨ d ∈ c.seen := by
  simp only [held, List.mem_append, or_assoc]

namespace Search

theorem randomCandidates_born {n : ℕ} {cs : List (Candidate α)}
    (h : s.randomCandidates n e = .ok (cs, e')) :
    ∀ d ∈ cs, d.generation = e.generation ∧ d.parents = [] := by
  induction n generalizing e cs with
  | zero =>
    cases h
    exact nofun
  | succ n ih =>
    obtain ⟨⟨c, random⟩, -, h⟩ := bind_eq_ok_iff.mp h
    obtain ⟨⟨rest, e₁⟩, hrest, h⟩ := bind_eq_ok_iff.mp h
    cases h
    have hborn := ih hrest
    exact List.forall_mem_cons.mpr ⟨⟨rfl, rfl⟩, hborn⟩

/-- Children are of the generation of the engine and have two members of its population as
parents. -/
theorem offspring_born {n : ℕ} {cs : List (Candidate α)} (h : s.offspring n e = .ok (cs, e')) :
    ∀ d ∈ cs, d.generation = e.generation ∧
      ∃ p ∈ e.population, ∃ q ∈ e.population, d.parents = [p.id, q.id] := by
  have hborn {pair : Chromosome × Chromosome} {parents : List ℕ} {e e₁ : Engine α σ}
      (hmate : s.mate e = .ok (pair, parents, e₁)) :
      ∃ p ∈ e.population, ∃ q ∈ e.population, parents = [p.id, q.id] := by
    obtain ⟨p, hp, q, hq, crossed, g, g₁, g₂, -, -, -, hparents, -⟩ := mate_spec hmate
    exact ⟨p, hp, q, hq, hparents⟩
  induction n using Nat.strongRecOn generalizing e e' cs with
  | ind n ih =>
    match n with
    | 0 =>
      cases h
      exact nofun
    | 1 =>
      obtain ⟨⟨⟨a, b⟩, parents, e₁⟩, hmate, h⟩ := bind_eq_ok_iff.mp h
      have hparents := hborn hmate
      obtain ⟨random, rfl⟩ := mate_engine hmate
      cases h
      exact List.forall_mem_singleton.mpr ⟨rfl, hparents⟩
    | n + 2 =>
      obtain ⟨⟨⟨a, b⟩, parents, e₁⟩, hmate, h⟩ := bind_eq_ok_iff.mp h
      obtain ⟨⟨rest, e₂⟩, hrest, h⟩ := bind_eq_ok_iff.mp h
      have hparents := hborn hmate
      obtain ⟨random, rfl⟩ := mate_engine hmate
      cases h
      have hothers := ih n (by omega) hrest
      exact List.forall_mem_cons.mpr
        ⟨⟨rfl, hparents⟩, List.forall_mem_cons.mpr ⟨⟨rfl, hparents⟩, hothers⟩⟩

theorem offspring_generation {n : ℕ} {cs : List (Candidate α)}
    (h : s.offspring n e = .ok (cs, e')) : e'.generation = e.generation := by
  obtain ⟨random, nextId, rfl⟩ := offspring_engine h
  rfl

/-- A step within a generation makes no candidate. -/
theorem Step.held_sameBirth {c c' : Course α σ} (h : s.Step c c')
    (hsame : c'.engine.generation = c.engine.generation) :
    ∀ d ∈ c'.held, ∃ d' ∈ c.held, d.SameBirth d' := by
  have hkeep {d : Candidate α} (hd : d ∈ c.held) : ∃ d' ∈ c.held, d.SameBirth d' :=
    ⟨d, hd, rfl, rfl, rfl⟩
  cases h with
  | look => exact fun d hd => hkeep hd
  | tell ht =>
    obtain ⟨world, rfl⟩ := tell_engine ht
    exact fun d hd => hkeep hd
  | record hr =>
    obtain ⟨history, rfl⟩ := recordHistory_engine hr
    exact fun d hd => hkeep hd
  | @evaluate d d' rest e e' hwaiting hgo he =>
    obtain rfl := stopReason?_engine hgo
    obtain ⟨evaluation, chromosome, bench, -, rfl, rfl⟩ := evaluateCandidate_engine he
    intro x hx
    rw [Course.mem_held, Course.seen, ← List.append_assoc, List.mem_append,
      List.mem_singleton] at hx
    obtain hx | hx | hx | hx | rfl := hx
    · exact hkeep (Course.mem_held.mpr (Or.inl hx))
    · exact hkeep (Course.mem_held.mpr (Or.inr (Or.inl hx)))
    · have hwaits : x ∈ c.waiting := hwaiting ▸ List.mem_cons_of_mem d hx
      exact hkeep (Course.mem_held.mpr (Or.inr (Or.inr (Or.inl hwaits))))
    · exact hkeep (Course.mem_held.mpr (Or.inr (Or.inr (Or.inr hx))))
    · have hwaits : d ∈ c.waiting := hwaiting ▸ List.mem_cons_self
      exact ⟨d, Course.mem_held.mpr (Or.inr (Or.inr (Or.inl hwaits))), rfl, rfl, rfl⟩
  | leave hl =>
    obtain rfl := stopReason?_engine hl
    intro d hd
    obtain hd | hd | hd | hd := Course.mem_held.mp hd
    · exact hkeep (Course.mem_held.mpr (Or.inl hd))
    · exact hkeep (Course.mem_held.mpr (Or.inr (Or.inl hd)))
    · cases hd
    · exact hkeep (Course.mem_held.mpr (Or.inr (Or.inr (Or.inr hd))))
  | survive hwaiting hs =>
    obtain ⟨population, hsurvivors, rfl⟩ := survive_engine hs
    have hsurvivor {d : Candidate α} (hd : d ∈ population) : ∃ d' ∈ c.held, d.SameBirth d' := by
      obtain ⟨d', hd', heq⟩ := mem_survivors hsurvivors hd
      refine ⟨d', Course.mem_held.mpr ?_, Candidate.sameBirth_of_unranked_eq heq⟩
      rcases List.mem_append.mp hd' with hd' | hd'
      · exact Or.inr (Or.inl hd')
      · exact Or.inr (Or.inr (Or.inr (List.mem_append_right _ hd')))
    intro d hd
    obtain hd | hd | hd | hd := Course.mem_held.mp hd
    · exact hsurvivor hd
    · exact hsurvivor hd
    · cases hd
    · rw [Course.seen, List.append_nil] at hd
      exact hkeep (Course.mem_held.mpr (Or.inr (Or.inr (Or.inr hd))))
  | breed hrest hb =>
    have hnext := offspring_generation hb
    dsimp only at hnext hsame
    omega

end Search

end Births

section Selections

variable {α σ : Type} [Scalar α]

/-- The survivors of a run are different candidates, each of them evaluated before the present
generation, and so is the population. -/
structure Course.Sifted (c : Course α σ) : Prop where
  parents : ∀ d ∈ c.parents, ∃ d' ∈ c.earlier, d.unranked = d'.unranked
  distinct : (c.parents.map (·.id)).Nodup
  population : (c.engine.population.map (·.id)).Nodup

namespace Search

variable {s : Search α σ}

theorem sifted_step {c c' : Course α σ} (hc : c.Sifted) (hnumbered : c.Numbered)
    (hstep : s.Step c c') : c'.Sifted := by
  obtain ⟨hparents, hdistinct, hpopulation⟩ := hc
  cases hstep with
  | look => exact ⟨hparents, hdistinct, hpopulation⟩
  | tell ht =>
    obtain ⟨world, rfl⟩ := tell_engine ht
    exact ⟨hparents, hdistinct, hpopulation⟩
  | record hr =>
    obtain ⟨history, rfl⟩ := recordHistory_engine hr
    exact ⟨hparents, hdistinct, hpopulation⟩
  | evaluate hwaiting hgo he =>
    obtain rfl := stopReason?_engine hgo
    obtain ⟨evaluation, chromosome, bench, -, rfl, rfl⟩ := evaluateCandidate_engine he
    exact ⟨hparents, hdistinct, hpopulation⟩
  | leave hl =>
    obtain rfl := stopReason?_engine hl
    exact ⟨hparents, hdistinct, hpopulation⟩
  | survive hwaiting hs =>
    obtain ⟨population, hsurvivors, rfl⟩ := survive_engine hs
    -- a parent has the number of a candidate of an earlier generation, and nobody else has it
    have hids := hnumbered.distinct
    rw [hwaiting, List.append_nil, Course.seen, List.map_append] at hids
    obtain ⟨-, hevaluated, hapart⟩ := List.nodup_append.mp hids
    have hpool : ((c.parents ++ c.evaluated).map (·.id)).Nodup := by
      rw [List.map_append, List.nodup_append]
      refine ⟨hdistinct, hevaluated, fun i hi j hj => ?_⟩
      obtain ⟨d, hd, rfl⟩ := List.mem_map.mp hi
      obtain ⟨d', hd', heq⟩ := hparents d hd
      rw [(Candidate.sameBirth_of_unranked_eq heq).id]
      exact hapart _ (List.mem_map_of_mem hd') j hj
    have hnodup := nodup_survivors hpool hsurvivors
    refine ⟨fun d hd => ?_, hnodup, hnodup⟩
    obtain ⟨d', hd', heq⟩ := mem_survivors hsurvivors hd
    rcases List.mem_append.mp hd' with hd' | hd'
    · obtain ⟨d'', hd'', heq'⟩ := hparents d' hd'
      exact ⟨d'', List.mem_append_left _ hd'', heq.trans heq'⟩
    · exact ⟨d', List.mem_append_right _ hd', heq⟩
  | breed hrest hb =>
    obtain ⟨random, nextId, rfl⟩ := offspring_engine hb
    exact ⟨hparents, hdistinct, hpopulation⟩

theorem Reaches.sifted {e₀ : Engine α σ} {c : Course α σ} (h : s.Reaches e₀ c) : c.Sifted := by
  induction h with
  | populate hp =>
    obtain ⟨⟨population, e₁⟩, hdrawn, hp⟩ := bind_eq_ok_iff.mp hp
    cases hp
    refine ⟨nofun, List.nodup_nil, ?_⟩
    dsimp only
    rw [(randomCandidates_ids hdrawn).1]
    exact List.nodup_range'
  | step hc hstep ih => exact sifted_step ih hc.numbered hstep

end Search

end Selections

section Books

variable {σ : Type} {s : Search Float σ} {e₀ : Engine Float σ} {c c' : Course Float σ}

/-- The books of a run agree with its candidates. Those that were evaluated have the first numbers,
in the order of their evaluations, and those that wait have the next ones; every evaluation was
counted; and no other number was given away, unless the run has to stop. -/
structure Course.Filed (s : Search Float σ) (c : Course Float σ) : Prop where
  seen : c.seen.map (·.id) = List.range c.seen.length
  waiting : c.waiting.map (·.id) = List.range' c.seen.length c.waiting.length
  evaluations : c.engine.bench.ledger.evaluations = c.seen.length
  spent : c.engine.nextId = c.seen.length + c.waiting.length ∨ s.Over c.engine

/-- What neither evaluates nor makes a candidate leaves the books in order. -/
theorem Course.Filed.congr (h : c.Filed s) (hseen : c'.seen = c.seen)
    (hwaiting : c'.waiting = c.waiting)
    (hcount : c'.engine.bench.ledger.evaluations = c.engine.bench.ledger.evaluations)
    (hnext : c'.engine.nextId = c.engine.nextId) (hover : s.Over c.engine → s.Over c'.engine) :
    c'.Filed s := by
  refine ⟨?_, ?_, ?_, ?_⟩
  · rw [hseen]
    exact h.seen
  · rw [hseen, hwaiting]
    exact h.waiting
  · rw [hseen, hcount]
    exact h.evaluations
  · rw [hseen, hwaiting, hnext]
    exact h.spent.imp id hover

/-- The candidate that is evaluated next has the number of its evaluation. -/
theorem Course.Filed.next (h : c.Filed s) {d : Candidate Float} {rest : List (Candidate Float)}
    (hwaiting : c.waiting = d :: rest) : d.id = c.seen.length ∧
      rest.map (·.id) = List.range' (c.seen.length + 1) rest.length := by
  have hids := h.waiting
  rw [hwaiting, List.map_cons, List.length_cons, List.range'_succ] at hids
  exact List.cons.inj hids

/-- A candidate that was evaluated is found under its number. -/
theorem Course.Filed.getElem?_id (h : c.Filed s) {d : Candidate Float} (hd : d ∈ c.seen) :
    c.seen[d.id]? = some d := by
  obtain ⟨k, hk⟩ := List.getElem?_of_mem hd
  have hlt := (List.getElem?_eq_some_iff.mp hk).1
  have hid := congrArg (·[k]?) h.seen
  rw [List.getElem?_map, hk, List.getElem?_range hlt] at hid
  have hnumber : d.id = k := Option.some.inj hid
  rwa [hnumber]

namespace Search

theorem over_tell (hs : s.Insists) {e e' : Engine Float σ} (h : s.Over e)
    (he : s.tell e = .ok e') : s.Over e' := by
  refine h.imp (fun hasked => asked_tell hs hasked he) fun hused => ?_
  obtain ⟨world, rfl⟩ := tell_engine he
  exact hused

/-- A run that goes on has to go on. -/
theorem not_over_of_going {e e' : Engine Float σ} (h : s.stopReason? e = .ok (none, e')) :
    ¬ s.Over e := by
  intro hover
  have hstops := (stopReason?_isSome_iff h).mpr hover
  cases hstops

theorem filed_step (hs : s.Insists) (hc : c.Filed s) (hstep : s.Takes c c') : c'.Filed s := by
  cases hstep with
  | within hstep hsame =>
    cases hstep with
    | look => exact hc.congr rfl rfl rfl rfl (over_look hs)
    | tell ht =>
      have hover (h : s.Over c.engine) := over_tell hs h ht
      obtain ⟨world, rfl⟩ := tell_engine ht
      exact hc.congr rfl rfl rfl rfl hover
    | record hr =>
      obtain ⟨history, rfl⟩ := recordHistory_engine hr
      exact hc.congr rfl rfl rfl rfl id
    | @evaluate d d' rest e e' hfront hgo he =>
      have hspent := hc.spent.resolve_right (not_over_of_going hgo)
      obtain ⟨hid, hrest⟩ := hc.next hfront
      obtain rfl := stopReason?_engine hgo
      have hcount : e'.bench.ledger.evaluations = c.seen.length + 1 :=
        (evaluateCandidate_adds he).2.trans (congrArg (· + 1) hc.evaluations)
      obtain ⟨evaluation, chromosome, bench, -, hd', rfl⟩ := evaluateCandidate_engine he
      have hid' : d'.id = c.seen.length := by rw [hd', ← hid]
      have hseen : c.earlier ++ (c.evaluated ++ [d']) = c.seen ++ [d'] :=
        (List.append_assoc _ _ _).symm
      have hlength : (c.seen ++ [d']).length = c.seen.length + 1 := List.length_append
      refine ⟨?_, ?_, ?_, Or.inl ?_⟩
      · rw [Course.seen, hseen, List.map_append, hc.seen, hlength, List.range_succ,
          List.map_singleton, hid']
      · rw [Course.seen, hseen, hlength]
        exact hrest
      · rw [Course.seen, hseen, hlength]
        exact hcount
      · rw [Course.seen, hseen, hlength]
        rw [hfront, List.length_cons] at hspent
        dsimp only [look]
        omega
    | leave hl =>
      have hover := (stopReason?_isSome_iff hl).mp rfl
      obtain rfl := stopReason?_engine hl
      exact ⟨hc.seen, rfl, hc.evaluations, Or.inr (over_look hs hover)⟩
    | survive hnone hsurvive =>
      obtain ⟨population, -, rfl⟩ := survive_engine hsurvive
      exact hc.congr (List.append_nil c.seen) hnone.symm rfl rfl id
    | breed hrest hb =>
      have hnext := offspring_generation hb
      dsimp only at hnext hsame
      omega
  | turn hrest hgo hb =>
    have hspent := hc.spent.resolve_right (not_over_of_going hgo)
    rw [hrest.waiting, List.length_nil, Nat.add_zero] at hspent
    obtain rfl := stopReason?_engine hgo
    obtain ⟨hids, hnext⟩ := offspring_ids hb
    have hlength := congrArg List.length hids
    rw [List.length_map, List.length_range'] at hlength
    obtain ⟨random, nextId, rfl⟩ := offspring_engine hb
    dsimp only [look] at hids hnext
    rw [hspent, ← hlength] at hids
    refine ⟨hc.seen, hids, hc.evaluations, Or.inl ?_⟩
    rw [hnext, hspent, hlength]
    rfl

/-- The books of a fresh run agree with its candidates at every moment. -/
theorem Visits.filed (hs : s.Insists) {bench : Bench σ} {seed : UInt64}
    (hfresh : bench.ledger.evaluations = 0) (h : s.Visits (Search.engine bench seed) c) :
    c.Filed s := by
  induction h with
  | populate hp =>
    obtain ⟨⟨population, e₁⟩, hdrawn, hp⟩ := bind_eq_ok_iff.mp hp
    cases hp
    obtain ⟨hids, hnext⟩ := randomCandidates_ids hdrawn
    have hlength := congrArg List.length hids
    rw [List.length_map, List.length_range'] at hlength
    obtain ⟨random, nextId, rfl⟩ := randomCandidates_engine hdrawn
    refine ⟨rfl, ?_, hfresh, Or.inl ?_⟩
    · rw [hids, hlength]
      rfl
    · rw [hlength]
      exact hnext
  | step _ hstep ih => exact filed_step hs ih hstep

end Search

end Books

section Trials

variable {σ : Type} {s : Search Float σ} {e₀ : Engine Float σ} {c c' : Course Float σ}

namespace Search

/-- The evaluation of a candidate has the number of evaluations that began before. -/
theorem evaluate_id {setup : Setup} {tools : Toolchain σ} {a b : Chromosome}
    {bench bench' : Bench σ} {evaluation : Evaluation Float}
    (h : evaluate setup tools a bench = (.ok (evaluation, b), bench')) :
    evaluation.id = bench.ledger.evaluations := by
  obtain ⟨edits, -, hanswer⟩ := evaluate_eq_ok (congrArg Prod.fst h)
  obtain ⟨status, rfl⟩ | ⟨-, outcome, b', -, rfl⟩ := evaluateEdits_cases hanswer
  · rfl
  · rfl

/-- A run has made the evaluation of a number, that of the candidate of this number, and the
answer is what became of the candidate. -/
inductive Tried (s : Search Float σ) (e₀ : Engine Float σ) (c : Course Float σ) (k : ℕ)
    (d' : Candidate Float) : Prop
  | intro {c₁ c₂ : Course Float σ} {d : Candidate Float} {rest : List (Candidate Float)}
      {e : Engine Float σ} {evaluation : Evaluation Float} {chromosome : Chromosome}
      {bench : Bench σ} (visited : s.Visits e₀ c₁) (took : s.Takes c₁ c₂)
      (later : Relation.ReflTransGen s.Takes c₂ c) (waiting : c₁.waiting = d :: rest)
      (goes : s.stopReason? c₁.engine = .ok (none, e))
      (answer : evaluate s.setup s.tools d.chromosome e.bench =
        (.ok (evaluation, chromosome), bench))
      (became : d' = { d with
        chromosome, objectives := evaluation.objectives, status := evaluation.status })
      (before : c₁.seen.length = k) (after : c₂.seen = c₁.seen ++ [d'])
      (candidate : d.id = k) (number : evaluation.id = k)

theorem Tried.takes {k : ℕ} {d : Candidate Float} (h : Tried s e₀ c k d) (hstep : s.Takes c c') :
    Tried s e₀ c' k d := by
  cases h with
  | intro visited took later waiting goes answer became before after candidate number =>
    exact .intro visited took (later.tail hstep) waiting goes answer became before after candidate
      number

/-- What a step adds to the candidates that were evaluated is the first of those that waited. -/
theorem Takes.seen (h : s.Takes c c') : c'.seen = c.seen ∨
    ∃ (d d' : Candidate Float) (rest : List (Candidate Float)) (e e' : Engine Float σ),
      c.waiting = d :: rest ∧ s.stopReason? c.engine = .ok (none, e) ∧
        s.evaluateCandidate d e = .ok (d', e') ∧ c'.seen = c.seen ++ [d'] := by
  cases h with
  | turn => exact Or.inl rfl
  | within h =>
    cases h with
    | @evaluate d d' rest e e' hwaiting hgo he =>
      exact Or.inr ⟨d, d', rest, e, e', hwaiting, hgo, he, (List.append_assoc _ _ _).symm⟩
    | survive => exact Or.inl (List.append_nil c.seen)
    | _ => exact Or.inl rfl

/-- The evaluation that begins next has the number of those before it, and so has its
candidate. -/
theorem Visits.due (hs : s.Insists) {bench : Bench σ} {seed : UInt64}
    (hfresh : bench.ledger.evaluations = 0) (h : s.Visits (Search.engine bench seed) c)
    {d : Candidate Float} {rest : List (Candidate Float)} {e : Engine Float σ}
    (hwaiting : c.waiting = d :: rest) (hgo : s.stopReason? c.engine = .ok (none, e)) :
    d.id = c.seen.length ∧ e.bench.ledger.evaluations = c.seen.length := by
  have hfiled := h.filed hs hfresh
  refine ⟨(hfiled.next hwaiting).1, ?_⟩
  obtain rfl := stopReason?_engine hgo
  exact hfiled.evaluations

/-- Every candidate that a fresh run has evaluated was so in the evaluation of its number. -/
theorem Visits.tried (hs : s.Insists) {bench : Bench σ} {seed : UInt64}
    (hfresh : bench.ledger.evaluations = 0) (h : s.Visits (Search.engine bench seed) c) :
    ∀ (k : ℕ) d, c.seen[k]? = some d → Tried s (Search.engine bench seed) c k d := by
  induction h with
  | populate => exact nofun
  | @step c c' hc hstep ih =>
    intro k d' hd'
    obtain hsame | ⟨d, d₁, rest, e, e', hwaiting, hgo, he, hmore⟩ := hstep.seen
    · rw [hsame] at hd'
      exact (ih k d' hd').takes hstep
    · rw [hmore, List.getElem?_append] at hd'
      split at hd'
      · exact (ih k d' hd').takes hstep
      · next hlt =>
        obtain ⟨hk, rfl⟩ := List.getElem?_eq_some_iff.mp hd'
        have hlength : c.seen.length = k := by
          rw [List.length_singleton] at hk
          omega
        rw [List.getElem_singleton]
        obtain ⟨hid, hcount⟩ := hc.due hs hfresh hwaiting hgo
        obtain ⟨evaluation, chromosome, bench', hanswer, hbecame, -⟩ :=
          evaluateCandidate_engine he
        exact .intro hc hstep .refl hwaiting hgo hanswer hbecame hlength hmore
          (hid.trans hlength) ((evaluate_id hanswer).trans (hcount.trans hlength))

end Search

end Trials

section Descent

variable {σ : Type} {s : Search Float σ} {e₀ : Engine Float σ} {c c' : Course Float σ}

namespace Search

/-- Where a candidate of a run comes from. It was drawn for the first population and has no
parents, or it was bred from two members of the population between two generations, with smaller
numbers and of earlier generations than its own. -/
inductive Descends (s : Search Float σ) (e₀ : Engine Float σ) (c : Course Float σ)
    (d : Candidate Float) : Prop
  | drawn (generation : d.generation = 0) (parents : d.parents = [])
  | bred {c₁ c₂ : Course Float σ} {d₁ p q : Candidate Float} (visited : s.Visits e₀ c₁)
      (rested : c₁.Rested) (turned : s.Takes c₁ c₂)
      (later : Relation.ReflTransGen s.Takes c₂ c) (waited : d₁ ∈ c₂.waiting)
      (born : d.SameBirth d₁) (generation : d.generation = c₁.engine.generation + 1)
      (parents : d.parents = [p.id, q.id])
      (members : ∀ x ∈ [p, q], x ∈ c₁.engine.population ∧ x.id < d.id ∧
        x.generation < d.generation)

theorem Descends.takes {d : Candidate Float} (h : Descends s e₀ c d) (hstep : s.Takes c c') :
    Descends s e₀ c' d := by
  cases h with
  | drawn generation parents => exact .drawn generation parents
  | bred visited rested turned later waited born generation parents members =>
    exact .bred visited rested turned (later.tail hstep) waited born generation parents members

/-- Descent is a matter of birth. -/
theorem Descends.congr {d d' : Candidate Float} (h : Descends s e₀ c d') (hsame : d.SameBirth d') :
    Descends s e₀ c d := by
  obtain ⟨hid, hgeneration, hparents⟩ := hsame
  cases h with
  | drawn generation parents => exact .drawn (hgeneration.trans generation) (hparents.trans parents)
  | bred visited rested turned later waited born generation parents members =>
    refine .bred visited rested turned later waited
      ⟨hid.trans born.id, hgeneration.trans born.generation, hparents.trans born.parents⟩
      (hgeneration.trans generation) (hparents.trans parents) ?_
    rw [hid, hgeneration]
    exact members

/-- All candidates descend, and none is of a later generation than the present one. -/
theorem Visits.descends (h : s.Visits e₀ c) :
    ∀ d ∈ c.held, Descends s e₀ c d ∧ d.generation ≤ c.engine.generation := by
  induction h with
  | populate hp =>
    obtain ⟨⟨population, e₁⟩, hdrawn, hp⟩ := bind_eq_ok_iff.mp hp
    cases hp
    have hborn (d : Candidate Float) (hd : d ∈ population) :
        d.generation = 0 ∧ d.parents = [] := randomCandidates_born hdrawn d hd
    intro d hd
    have hmember : d ∈ population := by
      obtain hd | hd | hd | hd := Course.mem_held.mp hd
      · exact hd
      · cases hd
      · exact hd
      · cases hd
    obtain ⟨hgeneration, hparents⟩ := hborn d hmember
    exact ⟨.drawn hgeneration hparents, hgeneration.trans_le (Nat.zero_le _)⟩
  | @step c c' hc hstep ih =>
    have hkept {d d' : Candidate Float} (hd' : d' ∈ c.held) (hsame : d.SameBirth d') :
        Descends s e₀ c' d ∧ d.generation ≤ c.engine.generation :=
      ⟨((ih d' hd').1.congr hsame).takes hstep, hsame.generation.trans_le (ih d' hd').2⟩
    cases hstep with
    | within h hsame =>
      intro d hd
      obtain ⟨d', hd', hbirth⟩ := h.held_sameBirth hsame d hd
      rw [hsame]
      exact hkept hd' hbirth
    | @turn children e e' hrest hgo hb =>
      have hturned : s.Takes c { c with engine := e', waiting := children } := .turn hrest hgo hb
      obtain rfl := stopReason?_engine hgo
      obtain ⟨hids, -⟩ := offspring_ids hb
      have hborn := offspring_born hb
      obtain ⟨random, nextId, rfl⟩ := offspring_engine hb
      have hold {d : Candidate Float} (hd : d ∈ c.held) :=
        (hkept hd ⟨rfl, rfl, rfl⟩).imp_right Nat.le_succ_of_le
      -- members were evaluated, so they have numbers that were given away before
      have hmember {x d : Candidate Float} (hx : x ∈ c.engine.population) (hd : d ∈ children) :
          x ∈ c.engine.population ∧ x.id < d.id ∧ x.generation < d.generation := by
        have hnumbered := hc.reaches.numbered
        obtain ⟨x', hx', heq⟩ := hnumbered.parents x (hrest.population ▸ hx)
        have hgiven := hnumbered.below x' (List.mem_append_left _ hx')
        rw [← (Candidate.sameBirth_of_unranked_eq heq).id] at hgiven
        have hgave : d.id ∈ children.map (·.id) := List.mem_map_of_mem hd
        rw [hids] at hgave
        have hnext := (List.mem_range'_1.mp hgave).1
        have hgeneration := (ih x (Course.mem_held.mpr (Or.inl hx))).2
        refine ⟨hx, hgiven.trans_le hnext, ?_⟩
        rw [(hborn d hd).1]
        exact Nat.lt_succ_of_le hgeneration
      intro d hd
      obtain hd | hd | hd | hd := Course.mem_held.mp hd
      · exact hold (Course.mem_held.mpr (Or.inl hd))
      · exact hold (Course.mem_held.mpr (Or.inr (Or.inl hd)))
      · obtain ⟨hgeneration, p, hp, q, hq, hparents⟩ := hborn d hd
        refine ⟨.bred hc hrest hturned .refl hd ⟨rfl, rfl, rfl⟩ hgeneration hparents ?_,
          hgeneration.le⟩
        exact List.forall_mem_cons.mpr
          ⟨hmember hp hd, List.forall_mem_singleton.mpr (hmember hq hd)⟩
      · exact hold (Course.mem_held.mpr (Or.inr (Or.inr (Or.inr hd))))

end Search

end Descent

section Genealogies

variable {σ : Type}

/-- Who the candidates of a run are and where they come from. Evaluations and candidates have the
same numbers, no number comes twice, survivors were evaluated and are ranked, and everyone
descends. -/
structure Course.Traceable (s : Search Float σ) (e₀ : Engine Float σ) (c : Course Float σ) :
    Prop where
  numbers : c.seen.map (·.id) = List.range c.engine.bench.ledger.evaluations
  due : ∀ d rest e, c.waiting = d :: rest → s.stopReason? c.engine = .ok (none, e) →
    d.id = c.seen.length ∧ e.bench.ledger.evaluations = c.seen.length
  tried : ∀ (k : ℕ) d, c.seen[k]? = some d → Search.Tried s e₀ c k d
  distinct : (c.engine.population.map (·.id)).Nodup
  population : c.engine.population = c.parents ∨ c.parents = [] ∧ c.earlier = []
  evaluated : ∀ d ∈ c.parents, ∃ d', c.seen[d.id]? = some d' ∧ d.unranked = d'.unranked
  ranked : ∀ d ∈ c.parents, ∃ r, d.rank = some r ∧ r < c.parents.length
  descent : ∀ d ∈ c.held, Search.Descends s e₀ c d

theorem Search.Visits.traceable {s : Search Float σ} (hs : s.Insists) {bench : Bench σ}
    {seed : UInt64} {c : Course Float σ} (hfresh : bench.ledger.evaluations = 0)
    (h : s.Visits (Search.engine bench seed) c) :
    c.Traceable s (Search.engine bench seed) where
  numbers := by
    rw [(h.filed hs hfresh).evaluations]
    exact (h.filed hs hfresh).seen
  due _ _ _ hwaiting hgo := h.due hs hfresh hwaiting hgo
  tried := h.tried hs hfresh
  distinct := h.reaches.sifted.population
  population := h.reaches.numbered.population
  evaluated d hd := by
    obtain ⟨d', hd', heq⟩ := h.reaches.numbered.parents d hd
    refine ⟨d', ?_, heq⟩
    rw [(Candidate.sameBirth_of_unranked_eq heq).id]
    exact (h.filed hs hfresh).getElem?_id hd'
  ranked d hd := by
    obtain ⟨r, hr⟩ := h.reaches.rankedByFront.ranked d hd
    exact ⟨r, hr, h.reaches.rankedByFront.rank_lt_length hd hr⟩
  descent d hd := (h.descends d hd).1

/-- At every moment of the run of a fresh engine, also of one that is asked to stop and stays so,
evaluation `k` is that of candidate `k`, no candidate is evaluated or held in the population twice,
each survivor was evaluated in the run, has the vector and the status of its evaluation and a rank,
and whoever was not drawn for the first population has two parents of an earlier one. A run ends at
such a moment, with the survivors as its population. -/
theorem genealogy (s : Search Float σ) (hinsists : s.Insists) (bench : Bench σ) (seed : UInt64)
    (hfresh : bench.ledger.evaluations = 0) :
    (∀ c, s.Visits (Search.engine bench seed) c → c.Traceable s (Search.engine bench seed)) ∧
    ∀ r t, s.run (Search.engine bench seed) = .ok (r, t) →
      ∃ c, s.Visits (Search.engine bench seed) c ∧ c.Rested ∧ c.engine = t := by
  refine ⟨fun c hc => hc.traceable hinsists hfresh, fun r t hrun => ?_⟩
  obtain ⟨c, hc, hrest, hengine, -⟩ := Search.visits_run hrun
  exact ⟨c, hc, hrest, hengine⟩

/-- The run over the two lines ends with members that were evaluated under their numbers. -/
theorem genealogy_of_twoLines :
    twoLineSearch.Insists ∧ twoLineEngine.bench.ledger.evaluations = 0 ∧
      ∃ r t c, twoLineSearch.run twoLineEngine = .ok (r, t) ∧
        twoLineSearch.Visits twoLineEngine c ∧ c.engine = t ∧
        c.seen.map (·.id) = List.range t.bench.ledger.evaluations ∧
        ∀ d ∈ t.population, ∃ d', d.unranked = d'.unranked ∧
          Search.Tried twoLineSearch twoLineEngine c d.id d' := by
  have hinsists : twoLineSearch.Insists := ⟨fun _ h => h, fun _ _ h => h⟩
  obtain ⟨hvisits, hends⟩ :=
    genealogy twoLineSearch hinsists (.start 200 0 (.start .empty 0) ()) 0 rfl
  obtain ⟨r, t, hrun⟩ := twoLineSearch_run
  obtain ⟨c, hc, hrest, rfl⟩ := hends r t hrun
  have htraceable := hvisits c hc
  refine ⟨hinsists, rfl, r, c.engine, c, hrun, hc, rfl, htraceable.numbers, fun d hd => ?_⟩
  obtain ⟨d', hd', heq⟩ := htraceable.evaluated d (hrest.population ▸ hd)
  exact ⟨d', heq, htraceable.tried d.id d' hd'⟩

end Genealogies

end PatchSearch
