import WordAutomata.Machine
import WordAutomata.Text.BoxedTable

/-!
# Transition tables

The transition table of an automaton has one row for each state and one column
for each symbol, and a further column for edges that read nothing if there are
any.  Initial states are marked with an arrow and accepting states are shown in
bold green.
-/

namespace WordAutomata

namespace Automaton

variable {α : Type} [DecidableEq α]

/-- The labels that have a column: all symbols, and the empty label if some edge has it. -/
def columnLabels (automaton : Automaton α) : List (Label α) :=
  automaton.alphabet.symbols.map .symbol ++
    if automaton.hasEpsilonEdges then [.epsilon] else []

def highlighted (text : String) : String :=
  "\x1b[32m\x1b[1m" ++ text ++ "\x1b[0m\x1b[39m"

def stateCell (automaton : Automaton α) (state : Nat) : String :=
  let name := automaton.nameOf state
  let shown := if automaton.isAccepting state then highlighted name else name
  if state ∈ automaton.initial then "→ " ++ shown else shown

/-- A cell with targets: a dash for none, a name for one, and otherwise names in braces. -/
def targetsCell (automaton : Automaton α) (targets : StateSet) : String :=
  match targets.members with
  | [] => "-"
  | [target] => automaton.nameOf target
  | _ => automaton.renderStates targets

def headerCells [Render α] (automaton : Automaton α) : List String :=
  "State" :: automaton.columnLabels.map render

def stateCells (automaton : Automaton α) (state : Nat) : List String :=
  automaton.stateCell state ::
    automaton.columnLabels.map fun label =>
      automaton.targetsCell (automaton.targets state label)

/-- All cells of the transition table, the header first. -/
def grid [Render α] (automaton : Automaton α) : List (List String) :=
  automaton.headerCells :: automaton.ids.map automaton.stateCells

/-- The drawing of the transition table, provided that its texts can be laid out. -/
def transitionTable? [Render α] (automaton : Automaton α) : Option String :=
  Text.boxedTable? automaton.grid

/-- The initial states, the accepting states and the transition table. -/
def summary? [Render α] (automaton : Automaton α) : Option String :=
  automaton.transitionTable?.map fun table =>
    "initial " ++ automaton.renderStates automaton.initial ++
      " accepting " ++ automaton.renderStates automaton.accepting ++ "\n" ++ table

end Automaton

namespace Machine

variable {α : Type} [DecidableEq α] [Render α]

/-- How a machine is run, followed by the summary of its automaton. -/
def summary? : Machine α → Option String
  | deterministic dfa => dfa.automaton.summary?.map ("DFA " ++ ·)
  | nondeterministic nfa => nfa.summary?.map ("NFA " ++ ·)

end Machine

end WordAutomata
