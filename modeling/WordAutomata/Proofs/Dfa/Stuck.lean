import WordAutomata.Proofs.Dfa.Reachable
import WordAutomata.Proofs.Names
import WordAutomata.Proofs.Search.Ending

/-!
# Where runs end, and where they get stuck

The reachable states are exactly those in which some run ends.  A shortest word
that leads to a state never comes back to a state where it has been, so it is
shorter than the number of reachable states.  A run on a word over the alphabet
gets stuck exactly where an edge is missing at a reachable state; what is missing
at other states never shows.
-/

namespace WordAutomata.Dfa

variable {α : Type} [DecidableEq α] {dfa : Dfa α}

/-- Some run on a word over the alphabet gets stuck in the named state at the symbol. -/
def GetsStuck (dfa : Dfa α) (name : String) (value : α) : Prop :=
  ∃ word position, dfa.automaton.alphabet.IsWord word ∧
    dfa.run word = .error (.undefinedTransition name value position)

/-- No word that leads to the state is shorter. -/
def IsShortestTo (dfa : Dfa α) (word : List α) (state : Nat) : Prop :=
  dfa.stateAfter word = some state ∧
    ∀ other, dfa.stateAfter other = some state → word.length ≤ other.length

/-! ## Shortest words -/

theorem exists_isShortestTo {word : List α} {state : Nat}
    (reached : dfa.stateAfter word = some state) :
    ∃ shortest, dfa.IsShortestTo shortest state := by
  have ordered := (measure (List.length (α := α))).wf
  rcases ordered.has_min {word | dfa.stateAfter word = some state} ⟨word, reached⟩ with
    ⟨shortest, reached', least⟩
  exact ⟨shortest, reached', fun other leads => Nat.le_of_not_lt (least other leads)⟩

/-- Of two beginnings of a shortest word that lead to one place, none could be left out. -/
theorem IsShortestTo.le_of_stateAfter_take_eq {word : List α} {state : Nat}
    (shortest : dfa.IsShortestTo word state) {first second : Nat}
    (within : second ≤ word.length)
    (together : dfa.stateAfter (word.take first) = dfa.stateAfter (word.take second)) :
    second ≤ first := by
  -- The word without what stands between the two beginnings leads to the state as well.
  have leads : dfa.stateAfter (word.take first ++ word.drop second) = some state := by
    rw [stateAfter_append_congr dfa together, List.take_append_drop]
    exact shortest.1
  have counted := shortest.2 _ leads
  rw [List.length_append, List.length_take, List.length_drop] at counted
  omega

/-- The beginnings of a shortest word lead to different reachable states. -/
theorem WellFormed.length_lt_of_isShortestTo (wellFormed : dfa.WellFormed) {word : List α}
    {state : Nat} (shortest : dfa.IsShortestTo word state) :
    word.length < dfa.reachableStates.size := by
  have beginnings : ((List.range (word.length + 1)).map word.take).length ≤
      dfa.reachableStates.size := by
    apply wellFormed.length_le_size_reachableStates
    · apply List.Nodup.map_on _ List.nodup_range
      intro first firstListed second secondListed same
      rw [List.mem_range] at firstListed secondListed
      have counted := congrArg List.length same
      rw [List.length_take, List.length_take] at counted
      omega
    · intro beginning listed lost
      rcases List.mem_map.1 listed with ⟨count, _, rfl⟩
      have gone := stateAfter_append_eq_none lost (word.drop count)
      rw [List.take_append_drop, shortest.1] at gone
      cases gone
    · intro beginning listed beginning' listed' together
      rcases List.mem_map.1 listed with ⟨first, firstListed, rfl⟩
      rcases List.mem_map.1 listed' with ⟨second, secondListed, rfl⟩
      have firstWithin := Nat.le_of_lt_succ (List.mem_range.1 firstListed)
      have secondWithin := Nat.le_of_lt_succ (List.mem_range.1 secondListed)
      rw [Nat.le_antisymm (shortest.le_of_stateAfter_take_eq firstWithin together.symm)
        (shortest.le_of_stateAfter_take_eq secondWithin together)]
  rwa [List.length_map, List.length_range] at beginnings

/-! ## The search for reachable states -/

/-- The search ends by itself, with one expansion for each reachable state. -/
theorem WellFormed.endsAfter_graph (wellFormed : dfa.WellFormed) :
    Search.EndsAfter dfa.graph [dfa.initial] dfa.reachableStates.size
      (dfa.graph.explore (fun _ => false) dfa.automaton.size [dfa.initial]) := by
  have enough : dfa.automaton.ids.length ≤ dfa.automaton.size :=
    Nat.le_of_eq List.length_range
  rcases Search.exists_complete_explore (List.nodup_singleton _) wellFormed.confined_graph enough
    with ⟨finished, invariant, done⟩
  have popped : (dfa.graph.explore (fun _ => false) dfa.automaton.size [dfa.initial]).popped =
      (dfa.graph.explore (fun _ => false) dfa.automaton.size [dfa.initial]).nodes := by
    rw [invariant.popped_eq_filter done]
    exact List.filter_eq_self.2 fun _ _ => rfl
  have listed : (dfa.graph.explore (fun _ => false) dfa.automaton.size [dfa.initial]).nodes.Perm
      dfa.reachableStates.members := by
    refine (List.perm_ext_iff_of_nodup invariant.distinct (StateSet.nodup _)).2 ?_
    intro state
    exact (StateSet.mem_ofList _ state).symm
  rw [StateSet.size, ← listed.length_eq, ← popped]
  exact Search.endsAfter_explore done

/-! ## Runs -/

theorem WellFormed.mem_reachableStates_iff_run (wellFormed : dfa.WellFormed) (state : Nat) :
    state ∈ dfa.reachableStates ↔
      ∃ word outcome, dfa.run word = .ok outcome ∧ outcome.reached = state := by
  simp only [exists_run_reaching_iff, wellFormed.mem_reachableStates_iff]

/-- Runs over the alphabet get stuck exactly where an edge is missing at a reachable state. -/
theorem WellFormed.getsStuck_iff (wellFormed : dfa.WellFormed) (name : String) (value : α) :
    dfa.GetsStuck name value ↔
      ∃ state, state ∈ dfa.reachableStates ∧ dfa.automaton.name? state = some name ∧
        value ∈ dfa.automaton.alphabet.symbols ∧ dfa.successor? state value = none := by
  constructor
  · rintro ⟨word, position, _, stuck⟩
    rcases (dfa.run_eq_error_iff word _).1 stuck with
      ⟨known, symbol, rest, state, _, reached, unread⟩
    rcases (dfa.read_eq_error_iff _ state symbol _).1 unread with
      ⟨_, unknown⟩ | ⟨belongs, missing, gap⟩
    · cases unknown
    · rcases RunError.undefinedTransition.inj gap with ⟨rfl, rfl, _⟩
      have present := wellFormed.stateAfter_lt reached
      exact ⟨state, (wellFormed.mem_reachableStates_iff state).2 ⟨known, reached⟩,
        Automaton.name?_eq_some_nameOf present, belongs, missing⟩
  · rintro ⟨state, reachable, named, belongs, missing⟩
    rcases (wellFormed.mem_reachableStates_iff state).1 reachable with ⟨word, reached⟩
    have present := wellFormed.stateAfter_lt reached
    rw [Automaton.name?_eq_some_nameOf present, Option.some.injEq] at named
    refine ⟨word ++ [value], word.length, ?_, ?_⟩
    · exact (dfa.automaton.alphabet.isWord_append_singleton word value).2
        ⟨isWord_of_stateAfter reached, belongs⟩
    · refine (dfa.run_eq_error_iff _ _).2 ⟨word, value, [], state, rfl, reached, ?_⟩
      exact (dfa.read_eq_error_iff _ _ _ _).2 (Or.inr ⟨belongs, missing, named ▸ rfl⟩)

/-- No run over the alphabet gets stuck exactly if no edge is missing at a reachable state. -/
theorem WellFormed.never_getsStuck_iff (wellFormed : dfa.WellFormed) :
    (∀ name value, ¬ dfa.GetsStuck name value) ↔
      ∀ state, state ∈ dfa.reachableStates → ∀ value ∈ dfa.automaton.alphabet.symbols,
        ∃ target, dfa.successor? state value = some target := by
  constructor
  · intro never state reachable value belongs
    have named := Automaton.name?_eq_some_nameOf (wellFormed.reachableStates_lt reachable)
    apply Option.ne_none_iff_exists'.1
    intro missing
    exact never _ value ((wellFormed.getsStuck_iff _ value).2
      ⟨state, reachable, named, belongs, missing⟩)
  · rintro complete name value stuck
    rcases (wellFormed.getsStuck_iff name value).1 stuck with
      ⟨state, reachable, _, belongs, missing⟩
    rcases complete state reachable value belongs with ⟨target, found⟩
    rw [missing] at found
    cases found

/--
The search for the reachable states ends by itself, after one expansion for each
of them.  They are the states in which some run ends, for each of them there is
such a run on a word that is shorter than their number, and runs over the
alphabet get stuck exactly where an edge is missing at one of them.
-/
theorem reachableStates_are_ends_of_runs (dfa : Dfa α) (wellFormed : dfa.WellFormed) :
    Search.EndsAfter dfa.graph [dfa.initial] dfa.reachableStates.size
        (dfa.graph.explore (fun _ => false) dfa.automaton.size [dfa.initial]) ∧
      (∀ state, state ∈ dfa.reachableStates ↔
        ∃ word outcome, dfa.run word = .ok outcome ∧ outcome.reached = state) ∧
      (∀ state, state ∈ dfa.reachableStates →
        ∃ word outcome, dfa.run word = .ok outcome ∧ outcome.reached = state ∧
          word.length < dfa.reachableStates.size) ∧
      (∀ name value, dfa.GetsStuck name value ↔
        ∃ state, state ∈ dfa.reachableStates ∧ dfa.automaton.name? state = some name ∧
          value ∈ dfa.automaton.alphabet.symbols ∧ dfa.successor? state value = none) ∧
      ((∀ name value, ¬ dfa.GetsStuck name value) ↔
        ∀ state, state ∈ dfa.reachableStates → ∀ value ∈ dfa.automaton.alphabet.symbols,
          ∃ target, dfa.successor? state value = some target) := by
  refine ⟨wellFormed.endsAfter_graph, wellFormed.mem_reachableStates_iff_run, ?_,
    wellFormed.getsStuck_iff, wellFormed.never_getsStuck_iff⟩
  intro state reachable
  rcases (wellFormed.mem_reachableStates_iff state).1 reachable with ⟨word, reached⟩
  rcases exists_isShortestTo reached with ⟨shortest, least⟩
  rcases (dfa.exists_run_reaching_iff shortest state).2 least.1 with ⟨outcome, ran, ends⟩
  exact ⟨shortest, outcome, ran, ends, wellFormed.length_lt_of_isShortestTo least⟩

/-- Two states lack an edge, but the last one of them is never reached. -/
def detached : Dfa Char where
  automaton :=
    { alphabet := ⟨['x', 'y'], by decide⟩
      states :=
        [⟨"p", [.singleton 1, .singleton 0], ∅⟩, ⟨"q", [.singleton 0, ∅], ∅⟩,
          ⟨"r", [∅, .singleton 1], ∅⟩]
      initial := .singleton 0
      accepting := .singleton 2 }
  initial := 0
  subsets := none

theorem reachableStates_are_ends_of_runs_detached :
    detached.WellFormed ∧ detached.reachableStates = .ofList [0, 1] ∧
      detached.GetsStuck "q" 'y' ∧ ¬ detached.GetsStuck "r" 'x' ∧
      ∃ word outcome, detached.run word = .ok outcome ∧ outcome.reached = 1 ∧
        word.length < 2 := by
  have wellFormed : detached.WellFormed := by decide
  have computed : detached.reachableStates = .ofList [0, 1] := by decide +kernel
  rcases reachableStates_are_ends_of_runs detached wellFormed with
    ⟨_, _, short, stuck, _⟩
  rw [computed] at short
  refine ⟨wellFormed, computed, ?_, ?_, short 1 (by decide)⟩
  · exact (stuck "q" 'y').2 ⟨1, by rw [computed]; decide, rfl, by decide, rfl⟩
  · rw [stuck "r" 'x', computed]
    decide

end WordAutomata.Dfa
