import WordAutomata.Proofs.Braces
import WordAutomata.Proofs.Names
import WordAutomata.Proofs.Run.Viewed
import WordAutomata.Proofs.SubsetConstruction.Numbering
import WordAutomata.Proofs.SubsetConstruction.Runs

/-!
# Compiling a compiled automaton

A compiled automaton that is run nondeterministically has one active state at a
time, the state of the set that is active in the automaton that it was compiled
from.  The two automata therefore lead the same words to a common set and accept
the same words, so compiling once more does not change the numbering.  Each
state then stands for itself alone, and its name is put between braces.
-/

namespace WordAutomata

namespace Automaton

variable {α : Type} [DecidableEq α] {automaton : Automaton α}

/-- Some state of the compiled automaton is the only one that is active after a word. -/
theorem WellFormed.exists_active_subsetAutomaton (wellFormed : automaton.WellFormed)
    {word : List α} (isWord : automaton.alphabet.IsWord word) :
    ∃ state, automaton.subsetAutomaton.automaton.active word = .singleton state ∧
      automaton.subsetAutomaton.subsetOf? state = some (automaton.active word) := by
  rcases wellFormed.exists_stateAfter_subsetAutomaton isWord with ⟨state, reached, stands⟩
  refine ⟨state, ?_, stands⟩
  rw [wellFormed.wellFormed_subsetAutomaton.active_eq_ofPlace, reached]
  rfl

theorem WellFormed.sameFibres_subsetAutomaton (wellFormed : automaton.WellFormed) :
    automaton.alphabet.SameFibres automaton.active
      automaton.subsetAutomaton.automaton.active := by
  intro first second isWord isWord'
  rcases wellFormed.exists_active_subsetAutomaton isWord with ⟨state, active, stands⟩
  rcases wellFormed.exists_active_subsetAutomaton isWord' with ⟨state', active', stands'⟩
  rw [active, active']
  constructor
  · intro same
    rw [same] at stands
    rw [wellFormed.subsetOf?_injective stands stands']
  · intro same
    rw [StateSet.singleton_injective same, stands', Option.some.injEq] at stands
    exact stands.symm

theorem WellFormed.intersects_accepting_subsetAutomaton (wellFormed : automaton.WellFormed)
    {word : List α} (isWord : automaton.alphabet.IsWord word) :
    (automaton.active word).intersects automaton.accepting =
      (automaton.subsetAutomaton.automaton.active word).intersects
        automaton.subsetAutomaton.automaton.accepting := by
  rcases wellFormed.exists_stateAfter_subsetAutomaton isWord with ⟨state, reached, stands⟩
  rw [wellFormed.wellFormed_subsetAutomaton.intersects_active, reached]
  exact (isAccepting_subsetAutomaton stands).symm

theorem WellFormed.sameNumbering_recompiled (wellFormed : automaton.WellFormed) :
    automaton.subsetAutomaton.SameNumbering
      automaton.subsetAutomaton.automaton.subsetAutomaton :=
  sameNumbering_subsetAutomaton wellFormed wellFormed.wellFormed_automaton_subsetAutomaton
    automaton.alphabet_subsetAutomaton.symm wellFormed.sameFibres_subsetAutomaton
    (fun _ => wellFormed.intersects_accepting_subsetAutomaton)

/-! ## What the states stand for, and their names -/

/-- The states stand for themselves. -/
theorem WellFormed.subsetOf?_recompiled (wellFormed : automaton.WellFormed) {state : Nat}
    (present : state < automaton.subsetAutomaton.automaton.size) :
    automaton.subsetAutomaton.automaton.subsetAutomaton.subsetOf? state =
      some (.singleton state) := by
  rcases exists_common_stateWord wellFormed wellFormed.wellFormed_automaton_subsetAutomaton
      automaton.alphabet_subsetAutomaton.symm wellFormed.sameFibres_subsetAutomaton present with
    ⟨word, isWord, stands, standsTwice⟩
  rcases wellFormed.exists_active_subsetAutomaton isWord with ⟨state', active, stands'⟩
  rw [standsTwice, active, wellFormed.subsetOf?_injective stands' stands]

theorem WellFormed.subsets_recompiled (wellFormed : automaton.WellFormed) :
    automaton.subsetAutomaton.automaton.subsetSearch.nodes =
      automaton.subsetAutomaton.automaton.ids.map .singleton := by
  have sizes := wellFormed.sameNumbering_recompiled.size_eq
  rw [size_subsetAutomaton automaton.subsetAutomaton.automaton] at sizes
  apply List.ext_getElem?
  intro state
  rw [List.getElem?_map, ids]
  rcases Nat.lt_or_ge state automaton.subsetAutomaton.automaton.size with present | missing
  · rw [List.getElem?_range present]
    exact wellFormed.subsetOf?_recompiled present
  · rw [List.getElem?_eq_none (sizes ▸ missing), List.getElem?_eq_none]
    · rfl
    · rwa [List.length_range]

/-- The names stay different between braces, so that no primes are added. -/
theorem WellFormed.names_recompiled (wellFormed : automaton.WellFormed) :
    automaton.subsetAutomaton.automaton.subsetAutomaton.automaton.names =
      automaton.subsetAutomaton.automaton.names.map braced := by
  have named : automaton.subsetAutomaton.automaton.subsetSearch.nodes.map
        automaton.subsetAutomaton.automaton.subsetName =
      automaton.subsetAutomaton.automaton.names.map braced := by
    rw [wellFormed.subsets_recompiled, ← map_nameOf_ids, List.map_map, List.map_map]
    rfl
  have distinct : (automaton.subsetAutomaton.automaton.names.map braced).Nodup :=
    wellFormed.wellFormed_automaton_subsetAutomaton.names_nodup.map braced_injective
  rw [names_subsetAutomaton automaton.subsetAutomaton.automaton, named,
    distinctNames_eq_self distinct]

/--
Compiling a compiled automaton changes nothing but what its states stand for,
which is each state itself, and their names, which are put between braces.
-/
theorem determinize_determinized (automaton : Automaton α) (wellFormed : automaton.WellFormed)
    (something : automaton.initial ≠ ∅) :
    ∃ once twice, automaton.determinize = .ok once ∧ once.automaton.determinize = .ok twice ∧
      once.SameNumbering twice ∧ once.initial = 0 ∧
      (∀ state < once.automaton.size, twice.subsetOf? state = some (.singleton state)) ∧
      twice.automaton.names = once.automaton.names.map braced := by
  have initial : automaton.subsetAutomaton.automaton.initial ≠ ∅ := by
    rw [automaton.initial_subsetAutomaton.2]
    decide
  exact ⟨automaton.subsetAutomaton, automaton.subsetAutomaton.automaton.subsetAutomaton,
    automaton.determinize_of_initial_ne_empty something,
    automaton.subsetAutomaton.automaton.determinize_of_initial_ne_empty initial,
    wellFormed.sameNumbering_recompiled, automaton.initial_subsetAutomaton.1,
    fun _ => wellFormed.subsetOf?_recompiled, wellFormed.names_recompiled⟩

/-- The set of the first two states is written like the set of the last one alone. -/
def ambiguousNames : Automaton Char where
  alphabet := ⟨['x'], by decide⟩
  states := [⟨"a", [.singleton 2], ∅⟩, ⟨"b", [∅], ∅⟩, ⟨"a, b", [∅], ∅⟩]
  initial := .ofList [0, 1]
  accepting := .singleton 2

/-- A name with a prime, and the name of the empty set, are put between braces like any other. -/
theorem determinize_determinized_ambiguousNames :
    ambiguousNames.WellFormed ∧ ambiguousNames.initial ≠ ∅ ∧
      ∃ once twice, ambiguousNames.determinize = .ok once ∧
        once.automaton.determinize = .ok twice ∧ once.SameNumbering twice ∧
        once.automaton.names = [braced "a, b", braced "a, b" ++ "'", "∅"] ∧
        twice.automaton.names =
          [braced (braced "a, b"), braced (braced "a, b" ++ "'"), braced "∅"] ∧
        twice.subsetOf? 2 = some (.singleton 2) := by
  have wellFormed : ambiguousNames.WellFormed := by decide
  have something : ambiguousNames.initial ≠ ∅ := by decide
  rcases determinize_determinized ambiguousNames wellFormed something with
    ⟨once, twice, compiled, recompiled, same, _, stands, names⟩
  have named : once.automaton.names = [braced "a, b", braced "a, b" ++ "'", "∅"] := by
    have computed : ambiguousNames.determinize.map (fun dfa => dfa.automaton.names) =
        .ok [braced "a, b", braced "a, b" ++ "'", "∅"] := by decide +kernel
    rw [compiled] at computed
    exact Except.ok.inj computed
  have size : once.automaton.size = 3 := by
    rw [← length_names, named]
    rfl
  refine ⟨wellFormed, something, once, twice, compiled, recompiled, same, named, ?_,
    stands 2 (by rw [size]; decide)⟩
  rw [names, named]
  rfl

end Automaton

end WordAutomata
