import WordAutomata.Automaton.Basic
import WordAutomata.Description.Basic
import WordAutomata.Malformed

/-!
# Resolving descriptions

Resolving replaces the names of a description by state numbers, in the order
of the rows.  A description resolves when its alphabet repeats no symbol, no
two rows have the same name, every label is over the alphabet, and every state
that is referred to has a row.  Otherwise the first flaw is reported: flaws of
the alphabet come before flaws of the row names, then the rows are read in
order, and the initial and accepting states come last.
-/

namespace WordAutomata.Description

variable {α : Type}

def names (description : Description α) : List String :=
  description.rows.map Row.name

/-- The flaws of a list of state names: those that have no row. -/
def danglingStates (description : Description α) (referred : List String) :
    List (Malformed α) :=
  (referred.filter (· ∉ description.names)).map .danglingState

variable [DecidableEq α]

/-- The flaws of an entry: its label comes before its targets. -/
def entryFlaws (description : Description α) (source : String) (entry : Entry α) :
    List (Malformed α) :=
  let labelFlaws :=
    match entry.label with
    | .symbol value =>
        if value ∈ description.alphabet then [] else [.unknownSymbol source value]
    | .epsilon => []
  labelFlaws ++ description.danglingStates entry.targets

/-- All flaws of a description whose alphabet repeats no symbol, in the order of reading. -/
def flaws (description : Description α) : List (Malformed α) :=
  (repetitions description.names).map .duplicateState ++
    (description.rows.flatMap fun row => row.entries.flatMap (description.entryFlaws row.name)) ++
    description.danglingStates description.start ++
    description.danglingStates description.accept

/-- The numbers of the named states; names without a row are left out. -/
def statesNamed (description : Description α) (referred : List String) : StateSet :=
  .ofList (referred.filterMap description.names.idxOf?)

/-- Where the edges with the given label lead from the state of a row. -/
def rowTargets (description : Description α) (state : Nat) (label : Label α) : StateSet :=
  match description.rows[state]? with
  | none => ∅
  | some row =>
      description.statesNamed
        ((row.entries.filter (·.label = label)).flatMap Entry.targets)

/-- The automaton that is described, over an alphabet that is known to repeat no symbol. -/
def automatonOver (description : Description α) (alphabet : Alphabet α) : Automaton α :=
  .tabulate alphabet description.names description.rowTargets
    (description.statesNamed description.start) (description.statesNamed description.accept)

/-- The described automaton, or the first flaw of the description. -/
def resolve (description : Description α) : Except (Malformed α) (Automaton α) :=
  match Alphabet.ofList description.alphabet with
  | .error repeated => .error (.duplicateSymbol repeated)
  | .ok alphabet =>
      match description.flaws with
      | [] => .ok (description.automatonOver alphabet)
      | flaw :: _ => .error flaw

end WordAutomata.Description

namespace WordAutomata.Automaton

variable {α : Type} [DecidableEq α]

/--
The description of an automaton in normal form.  There is one row for each
state in the order of their numbers, one entry for each label that some edge of
the state carries, with the labels in the order of the alphabet and the empty
label last, and all lists of states are ascending.
-/
def toDescription (automaton : Automaton α) : Description α where
  alphabet := automaton.alphabet.symbols
  start := automaton.initial.members.map automaton.nameOf
  accept := automaton.accepting.members.map automaton.nameOf
  rows := automaton.ids.map fun state =>
    { name := automaton.nameOf state
      entries := automaton.alphabet.labels.filterMap fun label =>
        let targets := automaton.targets state label
        if targets.isEmpty then
          none
        else
          some ⟨label, targets.members.map automaton.nameOf⟩ }

end WordAutomata.Automaton
