import WordAutomata.Render

/-!
# Malformed automata

What can be wrong with the description of an automaton, or with an automaton
that should be deterministic.
-/

namespace WordAutomata

/-- The ways in which a description fails to describe the required automaton. -/
inductive Malformed (α : Type) where
  | duplicateSymbol (value : α)
  /-- Two rows belong to the same state. -/
  | duplicateState (name : String)
  /-- A state is referred to but has no row. -/
  | danglingState (name : String)
  /-- An edge reads a symbol that is not in the alphabet. -/
  | unknownSymbol (source : String) (value : α)
  | noInitialState
  | multipleInitialStates (count : Nat)
  /-- A deterministic automaton has an edge that reads nothing. -/
  | epsilonTransition (source : String)
  /-- A deterministic automaton has several edges for a state and a symbol. -/
  | nondeterministic (source : String) (value : α) (count : Nat)
  deriving DecidableEq

def Malformed.message {α : Type} [Render α] : Malformed α → String
  | duplicateSymbol value =>
      "symbol `" ++ render value ++ "` occurs more than once in the alphabet"
  | duplicateState name => "state `" ++ name ++ "` is declared more than once"
  | danglingState name => "state `" ++ name ++ "` is referenced but never declared"
  | unknownSymbol source value =>
      "edge from `" ++ source ++ "` is labeled with `" ++ render value ++
        "`, which is not in the alphabet"
  | noInitialState => "no initial state given"
  | multipleInitialStates count =>
      "a deterministic automaton has exactly one initial state, but " ++ render count ++
        " are given"
  | epsilonTransition source =>
      "deterministic automaton has an epsilon edge leaving `" ++ source ++ "`"
  | nondeterministic source value count =>
      "state `" ++ source ++ "` has " ++ render count ++ " successors on symbol `" ++
        render value ++ "`"

end WordAutomata
