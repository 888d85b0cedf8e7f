import WordAutomata.Alphabet
import WordAutomata.StateSet.Basic

/-!
# Automata

An automaton has an alphabet, a list of named states, initial and accepting
states, and for each state the sets of states that its edges lead to: one set
for each symbol of the alphabet, and one for the edges that read nothing.
States are numbered by their places in the list.

Any automaton can be run as a nondeterministic one.  Look-ups are total: a
state that does not exist has no edges.  Where a missing state has to be told
from a state without edges, the look-up has an optional result.

All sets together fill a table with one row for each state.  Some look-ups go
straight to a place of this table, without asking whether the state exists.
-/

namespace WordAutomata

/-- A named state with the edges that leave it. -/
structure State where
  name : String
  /-- Where the symbols lead, in the order of the alphabet. -/
  moves : List StateSet
  /-- Where the edges that read nothing lead. -/
  silent : StateSet
  deriving DecidableEq

/-- Where the edges with the given label lead from a state. -/
def State.targets {α : Type} [DecidableEq α] (state : State) (alphabet : Alphabet α) :
    Label α → StateSet
  | .symbol value => ((alphabet.position? value).bind (state.moves[·]?)).getD ∅
  | .epsilon => state.silent

structure Automaton (α : Type) where
  alphabet : Alphabet α
  /-- All states; a state is identified by its place. -/
  states : List State
  initial : StateSet
  accepting : StateSet
  deriving DecidableEq

structure Edge (α : Type) where
  source : Nat
  label : Label α
  target : Nat
  deriving DecidableEq

namespace Automaton

variable {α : Type}

def size (automaton : Automaton α) : Nat :=
  automaton.states.length

/-- All state numbers in ascending order. -/
def ids (automaton : Automaton α) : List Nat :=
  List.range automaton.size

def names (automaton : Automaton α) : List String :=
  automaton.states.map State.name

def isAccepting (automaton : Automaton α) (state : Nat) : Bool :=
  state ∈ automaton.accepting

def name? (automaton : Automaton α) (state : Nat) : Option String :=
  automaton.names[state]?

/-- The name of a state; a state that does not exist is shown by its number. -/
def nameOf (automaton : Automaton α) (state : Nat) : String :=
  (automaton.name? state).getD ("#" ++ render state)

def index? (automaton : Automaton α) (name : String) : Option Nat :=
  automaton.names.idxOf? name

/-- A set of states written through their names. -/
def renderStates (automaton : Automaton α) (states : StateSet) : String :=
  renderBraced (states.members.map automaton.nameOf)

/-! ## Cells -/

/-- All cells of the table, row by row, with the cell of the empty label last in each row. -/
def cells (automaton : Automaton α) : List StateSet :=
  automaton.states.flatMap fun state => state.moves ++ [state.silent]

/-- Where the cell of a row and a column stands in a flat table over the alphabet. -/
def cellPlace (automaton : Automaton α) (row column : Nat) : Nat :=
  row * (automaton.alphabet.size + 1) + column

/--
The cell to which a row and a column lead.  Its place is computed with machine
words, so for a row far behind the end of the table it wraps around and can be
the place of a cell in some other row.
-/
def cell? (automaton : Automaton α) (row column : Nat) : Option StateSet :=
  automaton.cells[automaton.cellPlace row column % UInt64.size]?

/-! ## Edges -/

section Edges

variable [DecidableEq α]

/--
Where the edges with the given label lead from a state.  There are none if the
state does not exist or the label is not over the alphabet.
-/
def targets (automaton : Automaton α) (state : Nat) (label : Label α) : StateSet :=
  (automaton.states[state]?.map (·.targets automaton.alphabet label)).getD ∅

/-- Where a symbol leads from a state; nothing if the state or the symbol is unknown. -/
def transitions? (automaton : Automaton α) (state : Nat) (value : α) : Option StateSet :=
  if state < automaton.size ∧ value ∈ automaton.alphabet.symbols then
    some (automaton.targets state (.symbol value))
  else
    none

/--
Where a look-up by the number of a state finds the edges that read nothing.  The
number is not compared with the number of states.  A number without a state may
come to a cell of some other state, and only behind the table there is nothing.
-/
def epsilonTargets? (automaton : Automaton α) (state : Nat) : Option StateSet :=
  if state < automaton.size then
    -- The table stands in memory, so the places of its own cells do not wrap around.
    some (automaton.targets state .epsilon)
  else
    automaton.cell? state automaton.alphabet.size

def hasEpsilonEdges (automaton : Automaton α) : Bool :=
  automaton.states.any fun state => !state.silent.isEmpty

/--
All edges, ordered by source, then by label with the empty label last, and then
by target.
-/
def edges (automaton : Automaton α) : List (Edge α) :=
  automaton.ids.flatMap fun source =>
    automaton.alphabet.labels.flatMap fun label =>
      (automaton.targets source label).members.map fun target => ⟨source, label, target⟩

end Edges

/--
The automaton with the given state names whose edges are given as a function of
their source and label.
-/
def tabulate (alphabet : Alphabet α) (names : List String)
    (targets : Nat → Label α → StateSet) (initial accepting : StateSet) : Automaton α where
  alphabet := alphabet
  states := names.zipIdx.map fun (name, state) =>
    { name := name
      moves := alphabet.symbols.map fun value => targets state (.symbol value)
      silent := targets state .epsilon }
  initial := initial
  accepting := accepting

section Tabulate

variable (alphabet : Alphabet α) (names : List String)
  (targets : Nat → Label α → StateSet) (initial accepting : StateSet)

@[simp]
theorem names_tabulate :
    (tabulate alphabet names targets initial accepting).names = names := by
  simp [tabulate, Automaton.names, Function.comp_def]

@[simp]
theorem size_tabulate :
    (tabulate alphabet names targets initial accepting).size = names.length := by
  simp [tabulate, Automaton.size]

/-- A tabulated automaton has exactly the edges that it was tabulated from. -/
theorem targets_tabulate [DecidableEq α] (state : Nat) (label : Label α) :
    (tabulate alphabet names targets initial accepting).targets state label =
      if state < names.length ∧ label ∈ alphabet.labels then targets state label else ∅ := by
  by_cases present : state < names.length
  · cases label with
    | epsilon => simp [tabulate, Automaton.targets, State.targets, present, Alphabet.labels]
    | symbol value =>
        by_cases member : value ∈ alphabet.symbols
        · obtain ⟨position, located⟩ := alphabet.exists_position? member
          have standing := alphabet.symbols_getElem?_position? located
          simp [tabulate, Automaton.targets, State.targets, present, Alphabet.labels, member,
            located, standing]
        · have missing := (alphabet.position?_eq_none_iff value).2 member
          simp [tabulate, Automaton.targets, State.targets, present, Alphabet.labels, member,
            missing]
  · simp [tabulate, Automaton.targets, present]

end Tabulate

end Automaton

end WordAutomata
