import WordAutomata.Proofs.Description.Resolve
import WordAutomata.Proofs.Difference
import WordAutomata.Proofs.Dfa.Totalized
import WordAutomata.Proofs.SubsetConstruction.WellFormed
import WordAutomata.Random.Automaton
import WordAutomata.ReadyMade

/-!
# What every way of building a machine keeps

Machines are built from descriptions, drawn at random or taken ready-made, and
then compiled, totalized, described and resolved again, viewed as
nondeterministic and checked for determinism, in any order and as often as
desired.  This file proves by induction on the construction that every machine
is well-formed, and draws the consequences for its table, its names and its
states.
-/

namespace WordAutomata

namespace Machine

/-- The machines that can be built. -/
inductive Constructible : {α : Type} → [DecidableEq α] → Machine α → Prop where
  | resolved {α : Type} [DecidableEq α] {description : Description α} {automaton : Automaton α}
      (resolved : description.resolve = .ok automaton) :
      Constructible (.nondeterministic automaton)
  | resolvedDfa {α : Type} [DecidableEq α] {description : Description α} {dfa : Dfa α}
      (resolved : description.resolveDfa = .ok dfa) :
      Constructible (.deterministic dfa)
  | readyMade {ready : ReadyMade} {machine : Machine Char}
      (built : ready.machine = .ok machine) :
      Constructible machine
  | nthFromLast {position : Nat} {automaton : Automaton Char}
      (built : Family.nthFromLastIsOne position = .ok automaton) :
      Constructible (.nondeterministic automaton)
  /-- Random values may be drawn from any source. -/
  | drawn {σ : Type} [Random.Source σ] {symbolCount size : Nat} {density : Random.Density}
      {source rest : σ} {automaton : Automaton Char}
      (drawn : Random.drawAutomaton symbolCount size density source = .ok (automaton, rest)) :
      Constructible (.nondeterministic automaton)
  /-- Any machine can be run nondeterministically. -/
  | viewed {α : Type} [DecidableEq α] {machine : Machine α}
      (built : Constructible machine) :
      Constructible (.nondeterministic machine.automaton)
  | checked {α : Type} [DecidableEq α] {machine : Machine α} {dfa : Dfa α}
      (built : Constructible machine)
      (accepted : Dfa.ofAutomaton machine.automaton = .ok dfa) :
      Constructible (.deterministic dfa)
  | determinized {α : Type} [DecidableEq α] {machine : Machine α} {dfa : Dfa α}
      (built : Constructible machine)
      (compiled : machine.automaton.determinize = .ok dfa) :
      Constructible (.deterministic dfa)
  | totalized {α : Type} [DecidableEq α] {dfa : Dfa α}
      (built : Constructible (.deterministic dfa)) :
      Constructible (.deterministic dfa.totalized)
  | redescribed {α : Type} [DecidableEq α] {machine : Machine α} {automaton : Automaton α}
      (built : Constructible machine)
      (resolved : machine.automaton.toDescription.resolve = .ok automaton) :
      Constructible (.nondeterministic automaton)

/-- The well-formedness that goes with the way in which a machine is run. -/
def WellFormed {α : Type} [DecidableEq α] : Machine α → Prop
  | deterministic dfa => dfa.WellFormed
  | nondeterministic nfa => nfa.WellFormed

theorem WellFormed.wellFormed_automaton {α : Type} [DecidableEq α] {machine : Machine α}
    (wellFormed : machine.WellFormed) :
    machine.automaton.WellFormed := by
  cases machine with
  | deterministic dfa => exact Dfa.WellFormed.automaton wellFormed
  | nondeterministic nfa => exact wellFormed

end Machine

/-! ## Single ways of building -/

theorem Description.wellFormed_of_resolveDfa {α : Type} [DecidableEq α]
    {description : Description α} {dfa : Dfa α} (resolved : description.resolveDfa = .ok dfa) :
    dfa.WellFormed := by
  rw [resolveDfa] at resolved
  cases described : description.resolve with
  | error flaw =>
      rw [described] at resolved
      cases resolved
  | ok automaton =>
      rw [described] at resolved
      exact Dfa.wellFormed_of_ofAutomaton (wellFormed_of_resolve described) resolved

theorem exists_of_map_eq_ok {ε β γ : Type} {result : Except ε β} {function : β → γ} {value : γ}
    (mapped : result.map function = .ok value) :
    ∃ before, result = .ok before ∧ function before = value := by
  cases result with
  | error failure => cases mapped
  | ok before => exact ⟨before, rfl, Except.ok.inj mapped⟩

theorem ReadyMade.wellFormed_machine {ready : ReadyMade} {machine : Machine Char}
    (built : ready.machine = .ok machine) :
    machine.WellFormed := by
  rw [ReadyMade.machine.eq_def] at built
  split at built
  · rcases exists_of_map_eq_ok built with ⟨dfa, resolved, rfl⟩
    exact Description.wellFormed_of_resolveDfa resolved
  · rcases exists_of_map_eq_ok built with ⟨automaton, resolved, rfl⟩
    exact Description.wellFormed_of_resolve resolved

theorem Family.wellFormed_of_member {description : Description Char} {automaton : Automaton Char}
    (built : Family.member description = .ok automaton) :
    automaton.WellFormed := by
  rw [Family.member] at built
  cases resolved : description.resolve with
  | error flaw =>
      rw [resolved] at built
      cases built
  | ok found =>
      rw [resolved] at built
      rw [← Except.ok.inj built]
      exact Description.wellFormed_of_resolve resolved

theorem Family.wellFormed_nthFromLastIsOne {position : Nat} {automaton : Automaton Char}
    (built : Family.nthFromLastIsOne position = .ok automaton) :
    automaton.WellFormed := by
  rw [nthFromLastIsOne] at built
  split at built
  · cases built
  · exact wellFormed_of_member built

theorem Random.wellFormed_drawAutomaton {σ : Type} [Source σ] {symbolCount size : Nat}
    {density : Density} {source rest : σ} {automaton : Automaton Char}
    (drawn : drawAutomaton symbolCount size density source = .ok (automaton, rest)) :
    automaton.WellFormed := by
  rw [drawAutomaton] at drawn
  split at drawn
  · cases drawn
  · split at drawn
    · cases drawn
    · rcases exists_of_map_eq_ok drawn with ⟨found, built, same⟩
      rcases Prod.mk.inj same with ⟨rfl, _⟩
      exact Family.wellFormed_of_member built

/-! ## All compositions of them -/

theorem Machine.Constructible.wellFormed {α : Type} [DecidableEq α] {machine : Machine α}
    (constructible : machine.Constructible) :
    machine.WellFormed := by
  induction constructible with
  | resolved resolved => exact Description.wellFormed_of_resolve resolved
  | resolvedDfa resolved => exact Description.wellFormed_of_resolveDfa resolved
  | readyMade built => exact ReadyMade.wellFormed_machine built
  | nthFromLast built => exact Family.wellFormed_nthFromLastIsOne built
  | drawn drawn => exact Random.wellFormed_drawAutomaton drawn
  | viewed _ inductionHypothesis => exact inductionHypothesis.wellFormed_automaton
  | checked _ accepted inductionHypothesis =>
      exact Dfa.wellFormed_of_ofAutomaton inductionHypothesis.wellFormed_automaton accepted
  | determinized _ compiled inductionHypothesis =>
      exact inductionHypothesis.wellFormed_automaton.wellFormed_of_determinize compiled
  | totalized _ inductionHypothesis => exact Dfa.WellFormed.wellFormed_totalized inductionHypothesis
  | redescribed _ resolved _ => exact Description.wellFormed_of_resolve resolved

/-! ## Coherence -/

variable {α : Type} [DecidableEq α]

/-- The table, the names and the states of an automaton fit together. -/
structure Automaton.Coherent (automaton : Automaton α) : Prop where
  length_cells : automaton.cells.length = automaton.size * (automaton.alphabet.size + 1)
  getElem?_cells : ∀ state < automaton.size, ∀ column label,
    automaton.alphabet.labels[column]? = some label →
      automaton.cells[state * (automaton.alphabet.size + 1) + column]? =
        some (automaton.targets state label)
  length_names : automaton.names.length = automaton.size
  names_nodup : automaton.names.Nodup
  /-- No name was lost: looking up the name of a state gives the state back. -/
  index?_name? : ∀ state < automaton.size, ∃ name,
    automaton.name? state = some name ∧ automaton.index? name = some state
  symbols_nodup : automaton.alphabet.symbols.Nodup
  initial_lt : ∀ state, state ∈ automaton.initial → state < automaton.size
  accepting_lt : ∀ state, state ∈ automaton.accepting → state < automaton.size
  edges_lt : ∀ edge ∈ automaton.edges,
    edge.source < automaton.size ∧ edge.target < automaton.size

/-- The automaton of a deterministic automaton is coherent, and deterministic. -/
structure Dfa.Coherent (dfa : Dfa α) : Prop where
  automaton : dfa.automaton.Coherent
  mem_initial_iff : ∀ state, state ∈ dfa.automaton.initial ↔ state = dfa.initial
  reading : ∀ edge ∈ dfa.automaton.edges, edge.label ≠ .epsilon
  functional : ∀ source value first second,
    ⟨source, .symbol value, first⟩ ∈ dfa.automaton.edges →
      ⟨source, .symbol value, second⟩ ∈ dfa.automaton.edges → first = second
  subsets_total : ∀ subsets, dfa.subsets = some subsets →
    subsets.length = dfa.automaton.size ∧ dfa.isTotal = true
  /-- The check for determinism succeeds, and only forgets the sets. -/
  ofAutomaton_eq : Dfa.ofAutomaton dfa.automaton = .ok { dfa with subsets := none }

theorem Automaton.WellFormed.coherent {automaton : Automaton α}
    (wellFormed : automaton.WellFormed) :
    automaton.Coherent where
  length_cells := wellFormed.length_cells
  getElem?_cells := fun _ present _ _ labelled => wellFormed.getElem?_cells present labelled
  length_names := automaton.length_names
  names_nodup := wellFormed.names_nodup
  index?_name? := by
    intro state present
    have named := name?_eq_some_nameOf present
    exact ⟨automaton.nameOf state, named, (wellFormed.index?_eq_some_iff _ state).2 named⟩
  symbols_nodup := automaton.alphabet.nodup
  initial_lt := wellFormed.initial_lt
  accepting_lt := wellFormed.accepting_lt
  edges_lt := fun _ => wellFormed.edge_lt

theorem StateSet.eq_of_size_le_one {set : StateSet} (single : set.size ≤ 1) {first second : Nat}
    (left : first ∈ set) (right : second ∈ set) :
    first = second := by
  rw [mem_def] at left right
  rw [size] at single
  cases members : set.members with
  | nil => simp [members] at left
  | cons member rest =>
      cases rest with
      | nil =>
          rw [members, List.mem_singleton] at left right
          rw [left, right]
      | cons other rest => simp [members] at single

theorem Dfa.WellFormed.coherent {dfa : Dfa α} (wellFormed : dfa.WellFormed) :
    dfa.Coherent where
  automaton := wellFormed.automaton.coherent
  mem_initial_iff := by
    intro state
    rw [wellFormed.initial_eq, StateSet.mem_singleton]
  reading := wellFormed.edges_reading
  functional := by
    intro source value first second left right
    rw [Automaton.mem_edges_iff] at left right
    have present := List.mem_range.2 (Automaton.lt_size_of_mem_targets left)
    have known := (Alphabet.mem_labels _ _).1 (Automaton.mem_labels_of_mem_targets left) value rfl
    exact StateSet.eq_of_size_le_one (wellFormed.targets_size_le source present value known)
      left right
  subsets_total := wellFormed.subsets_total
  ofAutomaton_eq := wellFormed.ofAutomaton_eq

/--
Every machine that can be built has a coherent automaton, and one that is run
deterministically is deterministic.
-/
theorem constructible_coherent {machine : Machine α} (constructible : machine.Constructible) :
    machine.automaton.Coherent ∧
      ∀ dfa, machine = .deterministic dfa → dfa.Coherent := by
  constructor
  · exact constructible.wellFormed.wellFormed_automaton.coherent
  · rintro dfa rfl
    exact Dfa.WellFormed.coherent constructible.wellFormed

/-- A described partial automaton is totalized, viewed as any automaton, and then compiled. -/
theorem constructible_coherent_undoable :
    (Machine.deterministic Dfa.undoable.totalized.automaton.subsetAutomaton).Constructible ∧
      Dfa.undoable.totalized.automaton.subsetAutomaton.Coherent := by
  have described : Dfa.undoable.automaton.toDescription.resolveDfa = .ok Dfa.undoable := by rfl
  have totalized := Machine.Constructible.totalized (.resolvedDfa described)
  have compiled : Dfa.undoable.totalized.automaton.determinize =
      .ok Dfa.undoable.totalized.automaton.subsetAutomaton := by rfl
  have constructible := Machine.Constructible.determinized (.viewed totalized) compiled
  exact ⟨constructible, (constructible_coherent constructible).2 _ rfl⟩

end WordAutomata
