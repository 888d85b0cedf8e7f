import WordAutomata.Label

/-!
# Descriptions of automata

A description refers to states by name.  It lists the symbols of the alphabet,
the names of the initial and accepting states, and one row of labelled edges
for each state.  A description may be written down as a whole or be grown step
by step; nothing is checked before it is resolved.
-/

namespace WordAutomata

/-- The names of the states to which the edges with one label lead. -/
structure Entry (α : Type) where
  label : Label α
  targets : List String
  deriving DecidableEq

/-- The edges that leave one state. -/
structure Row (α : Type) where
  name : String
  entries : List (Entry α)
  deriving DecidableEq

/-- An automaton as it is written down, with states referred to by name. -/
structure Description (α : Type) where
  alphabet : List α
  start : List String := []
  accept : List String := []
  rows : List (Row α) := []
  deriving DecidableEq

namespace Description

variable {α : Type}

def initial (description : Description α) (name : String) : Description α :=
  { description with start := description.start ++ [name] }

def accepting (description : Description α) (names : List String) : Description α :=
  { description with accept := description.accept ++ names }

/--
Adds a complete row.  A row that is already there for the state is not merged
with it, so the description becomes malformed.
-/
def row (description : Description α) (name : String) (entries : List (Entry α)) :
    Description α :=
  { description with rows := description.rows ++ [⟨name, entries⟩] }

/-- Adds an empty row at the end, unless there is a row with the name. -/
def declare (name : String) (rows : List (Row α)) : List (Row α) :=
  if name ∈ rows.map Row.name then rows else rows ++ [⟨name, []⟩]

/-- Makes sure that a state has a row. -/
def state (description : Description α) (name : String) : Description α :=
  { description with rows := declare name description.rows }

section Edges

variable [DecidableEq α]

/-- Adds a target to the first entry with the label, or as a new entry at the end. -/
def addTarget (label : Label α) (target : String) : List (Entry α) → List (Entry α)
  | [] => [⟨label, [target]⟩]
  | entry :: rest =>
      if entry.label = label then
        { entry with targets := entry.targets ++ [target] } :: rest
      else
        entry :: addTarget label target rest

/-- Adds an edge to the first row with the name of its source, or as a new row at the end. -/
def addEdge (source : String) (label : Label α) (target : String) : List (Row α) → List (Row α)
  | [] => [⟨source, [⟨label, [target]⟩]⟩]
  | row :: rest =>
      if row.name = source then
        { row with entries := addTarget label target row.entries } :: rest
      else
        row :: addEdge source label target rest

/-- Adds an edge, and makes sure that both of its states have rows. -/
def labeledEdge (description : Description α) (source : String) (label : Label α)
    (target : String) : Description α :=
  { description with rows := declare target (addEdge source label target description.rows) }

def edge (description : Description α) (source : String) (value : α) (target : String) :
    Description α :=
  description.labeledEdge source (.symbol value) target

def epsilonEdge (description : Description α) (source target : String) : Description α :=
  description.labeledEdge source .epsilon target

end Edges

inductive Step (α : Type) where
  | initial (name : String)
  | accepting (names : List String)
  /-- Makes sure that a state has a row. -/
  | state (name : String)
  | row (name : String) (entries : List (Entry α))
  | edge (source : String) (label : Label α) (target : String)

variable [DecidableEq α]

def grow (description : Description α) : Step α → Description α
  | .initial name => description.initial name
  | .accepting names => description.accepting names
  | .state name => description.state name
  | .row name entries => description.row name entries
  | .edge source label target => description.labeledEdge source label target

def growAll (description : Description α) (steps : List (Step α)) : Description α :=
  steps.foldl grow description

end Description

end WordAutomata
