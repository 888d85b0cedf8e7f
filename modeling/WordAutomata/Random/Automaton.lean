import WordAutomata.Family
import WordAutomata.Random.Generator

/-!
# Random automata and words

A random automaton has states named by their numbers over the first lowercase
letters.  First it is drawn for each state whether it is initial and whether it
is accepting; the first state is always initial.  Then one number is drawn for
each edge that the automaton may have, and the edge is kept if the number is
less than the density, or less than half of it for an edge that reads nothing.
What is drawn does not depend on the density.
-/

namespace WordAutomata.Random

structure StateDraw where
  state : Nat
  isInitial : Bool
  isAccepting : Bool

variable {σ : Type} [Source σ]

/--
Draws whether a state is initial and whether it is accepting.  The first state
is initial without a draw, any other one with probability one over the number
of states.
-/
def drawState (size state : Nat) (generator : σ) : StateDraw × σ :=
  let (isInitial, rest) :=
    if state = 0 then
      (true, generator)
    else
      let (drawn, rest) := Source.below size generator
      (decide (drawn = 0), rest)
  let (isAccepting, rest) := Source.flip rest
  (⟨state, isInitial, isAccepting⟩, rest)

/--
All edges that a random automaton may have, in the order in which they are
drawn: by source, then by target, then by label with the empty label last.  No
state has a silent edge to itself.
-/
def candidates (alphabet : Alphabet Char) (size : Nat) : List (Edge Char) :=
  (List.range size).flatMap fun source =>
    (List.range size).flatMap fun target =>
      let reading := alphabet.symbols.map fun value => (⟨source, .symbol value, target⟩ : Edge Char)
      if source = target then reading else reading ++ [⟨source, .epsilon, target⟩]

/-- Whether an edge for which the given number was drawn is kept. -/
def keeps (density : Density) (edge : Edge Char) (drawn : Double) : Bool :=
  match edge.label with
  | .symbol _ => drawn.less density
  | .epsilon => drawn.less density.halved

def keptEdges (density : Density) (edges : List (Edge Char)) (drawn : List Double) :
    List (Edge Char) :=
  ((edges.zip drawn).filter fun (edge, number) => keeps density edge number).map Prod.fst

/-- The steps that declare a state as it was drawn. -/
def stateSteps (draw : StateDraw) : List (Description.Step Char) :=
  let name := Family.stateName draw.state
  [.state name] ++ (if draw.isInitial then [.initial name] else []) ++
    (if draw.isAccepting then [.accepting [name]] else [])

def edgeStep (edge : Edge Char) : Description.Step Char :=
  .edge (Family.stateName edge.source) edge.label (Family.stateName edge.target)

/-- The description of the automaton with the given states and edges. -/
def describe (alphabet : Alphabet Char) (states : List StateDraw) (edges : List (Edge Char)) :
    Description Char :=
  ({ alphabet := alphabet.symbols } : Description Char).growAll
    (states.flatMap stateSteps ++ edges.map edgeStep)

def drawDescription (alphabet : Alphabet Char) (size : Nat) (density : Density)
    (generator : σ) : Description Char × σ :=
  let (states, afterStates) := Generator.each (drawState size) (List.range size) generator
  let edges := candidates alphabet size
  let (numbers, afterEdges) :=
    Generator.each (fun _ current => Source.unit current) edges afterStates
  (describe alphabet states (keptEdges density edges numbers), afterEdges)

/--
Draws an automaton with the given numbers of symbols and states.  There must be
at least one state, and there must be enough letters.
-/
def drawAutomaton (symbolCount size : Nat) (density : Density) (generator : σ) :
    Except Family.Error (Automaton Char × σ) :=
  if size = 0 then
    .error (.refused .noStates)
  else
    match Alphabet.ofSize symbolCount with
    | .error reason => .error (.refused reason)
    | .ok alphabet =>
        let (description, rest) := drawDescription alphabet size density generator
        (Family.member description).map fun automaton => (automaton, rest)

/-- Draws one symbol of an alphabet; there is none if the alphabet is empty. -/
def drawSymbol {α : Type} (alphabet : Alphabet α) (generator : σ) : Option α × σ :=
  let (position, rest) := Source.below alphabet.size generator
  (alphabet.symbolAt? position, rest)

/--
Draws a word whose length is at most `longest`, each length being equally
likely.  Over the empty alphabet the word is empty and nothing is drawn.
-/
def drawWord {α : Type} (alphabet : Alphabet α) (longest : Nat) (generator : σ) :
    List α × σ :=
  if alphabet.symbols.isEmpty then
    ([], generator)
  else
    let (length, rest) := Source.below (longest + 1) generator
    let (symbols, afterAll) :=
      Generator.each (fun _ current => drawSymbol alphabet current) (List.range length) rest
    (symbols.filterMap id, afterAll)

end WordAutomata.Random
