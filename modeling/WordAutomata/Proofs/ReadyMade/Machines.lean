import WordAutomata.Proofs.Construction
import WordAutomata.Proofs.Dfa.Sink
import WordAutomata.Proofs.SubsetConstruction.Runs

/-!
# What the ready-made machines are

The descriptions of the ready-made machines resolve.  Each machine has an
initial state, so it can be compiled, and the only one that is run
deterministically is total.  So every machine reads every word over its
alphabet, before and after it is compiled, and its verdict tells whether some
active state is accepting.
-/

namespace WordAutomata

namespace Machine

variable {α : Type} [DecidableEq α]

/-- Whether a word is accepted in the way in which the machine is run. -/
def decides : Machine α → List α → Except (RunError α) Bool
  | deterministic dfa, word => dfa.decides word
  | nondeterministic nfa, word => nfa.decides word

/-- A machine that is run deterministically never gets stuck. -/
def IsTotal : Machine α → Prop
  | deterministic dfa => dfa.isTotal = true
  | nondeterministic _ => True

/-- The verdict on a word over the alphabet is whether some active state is accepting. -/
theorem decides_of_isWord {machine : Machine α} (wellFormed : machine.WellFormed)
    (total : machine.IsTotal) {word : List α} (isWord : machine.automaton.alphabet.IsWord word) :
    machine.decides word =
      .ok ((machine.automaton.active word).intersects machine.automaton.accepting) := by
  cases machine with
  | nondeterministic nfa => exact nfa.decides_of_isWord isWord
  | deterministic dfa =>
      have formed : dfa.WellFormed := wellFormed
      rcases formed.exists_stateAfter_of_isTotal total isWord with ⟨state, reached⟩
      apply (dfa.decides_eq_ok_iff word _).2 ⟨state, reached, ?_⟩
      rw [automaton, formed.intersects_active, reached]
      rfl

end Machine

namespace ReadyMade

/-- The alphabet of zeros and ones. -/
def binary : Alphabet Char :=
  ⟨['0', '1'], by decide⟩

theorem nodup_letters : ['a', 'b'].Nodup := by
  decide

/-- The machine that a ready-made description resolves to. -/
def resolved : ReadyMade → Machine Char
  | endsInOne =>
      .deterministic
        { automaton :=
            { alphabet := binary
              states :=
                [⟨"q0", [.singleton 1, .singleton 0], ∅⟩,
                  ⟨"q1", [.singleton 1, .singleton 0], ∅⟩]
              initial := .singleton 0
              accepting := .singleton 0 }
          initial := 0
          subsets := none }
  | zerosThenOnes =>
      .nondeterministic
        { alphabet := binary
          states :=
            [⟨"s0", [.singleton 0, ∅], .singleton 1⟩,
              ⟨"s1", [∅, .singleton 1], ∅⟩]
          initial := .singleton 0
          accepting := .singleton 1 }
  | containsOneZeroOne =>
      .nondeterministic
        { alphabet := binary
          states :=
            [⟨"a", [.singleton 0, .ofList [0, 1]], ∅⟩,
              ⟨"b", [.singleton 2, ∅], ∅⟩,
              ⟨"c", [∅, .singleton 3], ∅⟩,
              ⟨"d", [.singleton 3, .singleton 3], ∅⟩]
          initial := .singleton 0
          accepting := .singleton 3 }
  | epsilonCycle =>
      .nondeterministic
        { alphabet := ⟨['a', 'b'], nodup_letters⟩
          states :=
            [⟨"p", [∅, ∅], .singleton 1⟩,
              ⟨"q", [.singleton 1, ∅], .singleton 2⟩,
              ⟨"r", [∅, .singleton 3], .singleton 0⟩,
              ⟨"s", [∅, ∅], ∅⟩]
          initial := .singleton 0
          accepting := .singleton 3 }
  | thirdFromLast =>
      .nondeterministic
        { alphabet := binary
          states :=
            [⟨"q0", [.singleton 0, .ofList [0, 1]], ∅⟩,
              ⟨"q1", [.singleton 2, .singleton 2], ∅⟩,
              ⟨"q2", [.singleton 3, .singleton 3], ∅⟩,
              ⟨"q3", [∅, ∅], ∅⟩]
          initial := .singleton 0
          accepting := .singleton 3 }

theorem machine_eq (ready : ReadyMade) : ready.machine = .ok ready.resolved := by
  cases ready <;> rfl

theorem symbols_resolved (ready : ReadyMade) :
    ready.resolved.automaton.alphabet.symbols = ready.description.alphabet := by
  cases ready <;> rfl

theorem wellFormed_resolved (ready : ReadyMade) : ready.resolved.WellFormed :=
  wellFormed_machine ready.machine_eq

theorem wellFormed_automaton_resolved (ready : ReadyMade) :
    ready.resolved.automaton.WellFormed :=
  ready.wellFormed_resolved.wellFormed_automaton

theorem isTotal_resolved (ready : ReadyMade) : ready.resolved.IsTotal := by
  cases ready with
  | endsInOne => rfl
  | _ => trivial

/-- Every ready-made machine can be compiled. -/
theorem determinize_resolved (ready : ReadyMade) :
    ready.resolved.automaton.determinize = .ok ready.resolved.automaton.subsetAutomaton := by
  have something : ready.resolved.automaton.initial ≠ ∅ := by
    cases ready <;> decide
  exact Automaton.determinize_of_initial_ne_empty _ something

theorem isWord_resolved_iff (ready : ReadyMade) (word : List Char) :
    ready.resolved.automaton.alphabet.IsWord word ↔
      ∀ value ∈ word, value ∈ ready.description.alphabet := by
  rw [Alphabet.IsWord, symbols_resolved]

end ReadyMade

end WordAutomata
