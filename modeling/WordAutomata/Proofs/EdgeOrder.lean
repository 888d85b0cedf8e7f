import WordAutomata.Proofs.Checked.Cells
import WordAutomata.Proofs.TransitionTable

/-!
# The list of edges

The edges of an automaton are listed by a walk over its table: row by row, in
each row column by column, and in each cell in ascending order of the targets.
Only the position of a column tells its label: it is the symbol at this
position, and the empty label where the alphabet has no symbol any more.

This file proves that the list is strictly ordered by source, column and target,
that it has exactly the edges that the look-ups of a symbol and of the empty
label find, and that it determines the transition relation.
-/

namespace WordAutomata

variable {α : Type}

namespace Alphabet

/-- The label of a column: the symbol at its position, or the empty label if there is none. -/
def labelAt (alphabet : Alphabet α) (column : Nat) : Label α :=
  match alphabet.symbolAt? column with
  | some value => .symbol value
  | none => .epsilon

/-- The column of a label; that of the empty label is behind those of the symbols. -/
def column [DecidableEq α] (alphabet : Alphabet α) : Label α → Nat
  | .symbol value => alphabet.symbols.idxOf value
  | .epsilon => alphabet.size

/-- The labels of the columns are all labels over the alphabet. -/
theorem labels_eq_map_labelAt (alphabet : Alphabet α) :
    alphabet.labels = (List.range (alphabet.size + 1)).map alphabet.labelAt := by
  have symbols : alphabet.symbols.map Label.symbol =
      (List.range alphabet.size).map alphabet.labelAt := by
    apply List.ext_getElem
    · simp [size]
    · intro column within _
      rw [List.length_map] at within
      simp [labelAt, symbolAt?, within]
  have last : alphabet.labelAt alphabet.size = .epsilon := by
    simp [labelAt, symbolAt?, size]
  rw [labels, symbols, List.range_succ, List.map_append, List.map_singleton, last]

theorem getElem?_labels_labelAt (alphabet : Alphabet α) {column : Nat}
    (within : column ∈ List.range (alphabet.size + 1)) :
    alphabet.labels[column]? = some (alphabet.labelAt column) := by
  rw [labels_eq_map_labelAt, List.getElem?_map, List.getElem?_range (List.mem_range.1 within)]
  rfl

variable [DecidableEq α]

/-- A label stands in its own column, since no symbol is listed twice. -/
theorem column_labelAt (alphabet : Alphabet α) {column : Nat}
    (within : column ∈ List.range (alphabet.size + 1)) :
    alphabet.column (alphabet.labelAt column) = column := by
  rcases alphabet.getElem?_labels_eq_some (alphabet.getElem?_labels_labelAt within) with
    ⟨value, standing, label⟩ | ⟨last, label⟩
  · rcases List.getElem?_eq_some_iff.1 standing with ⟨bound, rfl⟩
    rw [label]
    exact alphabet.nodup.idxOf_getElem column bound
  · rw [label, last]
    rfl

/-- The labels are in the order of their columns. -/
theorem labels_ordered (alphabet : Alphabet α) :
    alphabet.labels.Pairwise fun first second =>
      alphabet.column first < alphabet.column second := by
  rw [labels_eq_map_labelAt, List.pairwise_map]
  refine List.pairwise_lt_range.imp_of_mem fun inFirst inSecond before => ?_
  rwa [alphabet.column_labelAt inFirst, alphabet.column_labelAt inSecond]

end Alphabet

/-- Whether an edge stands before another one: by source, then by column, then by target. -/
def Edge.Precedes [DecidableEq α] (alphabet : Alphabet α) (first second : Edge α) : Prop :=
  first.source < second.source ∨
    first.source = second.source ∧
      (alphabet.column first.label < alphabet.column second.label ∨
        alphabet.column first.label = alphabet.column second.label ∧
          first.target < second.target)

theorem Edge.Precedes.ne [DecidableEq α] {alphabet : Alphabet α} {first second : Edge α}
    (before : first.Precedes alphabet second) :
    first ≠ second := by
  rintro rfl
  rcases before with source | ⟨-, column | ⟨-, target⟩⟩
  · exact Nat.lt_irrefl _ source
  · exact Nat.lt_irrefl _ column
  · exact Nat.lt_irrefl _ target

namespace Automaton

variable [DecidableEq α]

/-! ## Order -/

theorem edges_ordered (automaton : Automaton α) :
    automaton.edges.Pairwise (Edge.Precedes automaton.alphabet) := by
  rw [edges, List.pairwise_flatMap]
  constructor
  -- In one row the columns decide, and in one cell the targets.
  · intro source _
    rw [List.pairwise_flatMap]
    constructor
    · intro label _
      rw [List.pairwise_map]
      exact (automaton.targets source label).ascending.imp fun before =>
        Or.inr ⟨rfl, Or.inr ⟨rfl, before⟩⟩
    · refine automaton.alphabet.labels_ordered.imp fun before first inFirst second inSecond => ?_
      rcases List.mem_map.1 inFirst with ⟨_, _, rfl⟩
      rcases List.mem_map.1 inSecond with ⟨_, _, rfl⟩
      exact Or.inr ⟨rfl, Or.inl before⟩
  · refine List.pairwise_lt_range.imp fun before first inFirst second inSecond => ?_
    rcases List.mem_flatMap.1 inFirst with ⟨_, _, inFirst⟩
    rcases List.mem_flatMap.1 inSecond with ⟨_, _, inSecond⟩
    rcases List.mem_map.1 inFirst with ⟨_, _, rfl⟩
    rcases List.mem_map.1 inSecond with ⟨_, _, rfl⟩
    exact Or.inl before

/-! ## Look-ups -/

theorem mem_edges_symbol_iff (automaton : Automaton α) (source target : Nat) (value : α) :
    ⟨source, .symbol value, target⟩ ∈ automaton.edges ↔
      ∃ targets, automaton.transitions? source value = some targets ∧ target ∈ targets := by
  rw [mem_edges_iff, transitions?]
  constructor
  · intro member
    have known := (Alphabet.mem_labels _ _).1 (mem_labels_of_mem_targets member) value rfl
    exact ⟨_, if_pos ⟨lt_size_of_mem_targets member, known⟩, member⟩
  · rintro ⟨targets, found, member⟩
    rw [← (Option.ite_some_none_eq_some.1 found).2] at member
    exact member

theorem mem_edges_epsilon_iff (automaton : Automaton α) (source target : Nat) :
    ⟨source, .epsilon, target⟩ ∈ automaton.edges ↔
      source < automaton.size ∧
        ∃ targets, automaton.epsilonTargets? source = some targets ∧ target ∈ targets := by
  rw [mem_edges_iff]
  exact automaton.mem_targets_epsilon_iff source target

/-! ## The walk over the table -/

/-- The edges as a walk over the flat table finds them, with the labels of the columns. -/
def tableEdges (automaton : Automaton α) : List (Edge α) :=
  automaton.ids.flatMap fun source =>
    (List.range (automaton.alphabet.size + 1)).flatMap fun column =>
      (automaton.cells[source * (automaton.alphabet.size + 1) + column]?.getD ∅).members.map
        fun target => ⟨source, automaton.alphabet.labelAt column, target⟩

theorem WellFormed.edges_eq_tableEdges {automaton : Automaton α}
    (wellFormed : automaton.WellFormed) :
    automaton.edges = automaton.tableEdges := by
  rw [edges, tableEdges]
  refine List.flatMap_congr fun source present => ?_
  rw [Alphabet.labels_eq_map_labelAt, List.flatMap_map]
  refine List.flatMap_congr fun column within => ?_
  rw [wellFormed.getElem?_cells (List.mem_range.1 present)
    (automaton.alphabet.getElem?_labels_labelAt within)]
  rfl

/--
The three ways into the table: the walk over all cells, a symbol by its position
in the alphabet, and the empty label by the number of symbols.
-/
structure ReadsTable (automaton : Automaton α) : Prop where
  edges_eq : automaton.edges = automaton.tableEdges
  transitions?_eq : ∀ state < automaton.size, ∀ value column,
    automaton.alphabet.position? value = some column →
      automaton.transitions? state value =
        automaton.cells[state * (automaton.alphabet.size + 1) + column]?
  epsilonTargets?_eq : ∀ state < automaton.size,
    automaton.epsilonTargets? state =
      automaton.cells[state * (automaton.alphabet.size + 1) + automaton.alphabet.size]?

theorem WellFormed.readsTable {automaton : Automaton α} (wellFormed : automaton.WellFormed) :
    automaton.ReadsTable where
  edges_eq := wellFormed.edges_eq_tableEdges
  transitions?_eq := by
    intro state present value column located
    have standing := automaton.alphabet.symbols_getElem?_position? located
    have known := List.mem_of_getElem? standing
    rw [transitions?, if_pos ⟨present, known⟩,
      wellFormed.getElem?_cells present (getElem?_labels_symbol standing)]
  epsilonTargets?_eq := by
    intro state present
    rw [epsilonTargets?_of_lt present,
      wellFormed.getElem?_cells present (getElem?_labels_epsilon _)]

/-! ## The transition relation -/

/-- The list of edges is the transition relation, each edge once and in order. -/
structure ListsTransitions (automaton : Automaton α) : Prop where
  ordered : automaton.edges.Pairwise (Edge.Precedes automaton.alphabet)
  nodup : automaton.edges.Nodup
  source_lt : ∀ edge ∈ automaton.edges, edge.source < automaton.size
  mem_symbol_iff : ∀ source value target,
    ⟨source, .symbol value, target⟩ ∈ automaton.edges ↔
      ∃ targets, automaton.transitions? source value = some targets ∧ target ∈ targets
  mem_epsilon_iff : ∀ source target,
    ⟨source, .epsilon, target⟩ ∈ automaton.edges ↔
      source < automaton.size ∧
        ∃ targets, automaton.epsilonTargets? source = some targets ∧ target ∈ targets
  hasEpsilonEdges_iff : automaton.hasEpsilonEdges = true ↔
    ∃ edge ∈ automaton.edges, edge.label = .epsilon

theorem listsTransitions (automaton : Automaton α) : automaton.ListsTransitions where
  ordered := automaton.edges_ordered
  nodup := automaton.edges_ordered.imp Edge.Precedes.ne
  source_lt edge listed := lt_size_of_mem_targets ((automaton.mem_edges_iff edge).1 listed)
  mem_symbol_iff source value target := automaton.mem_edges_symbol_iff source target value
  mem_epsilon_iff := automaton.mem_edges_epsilon_iff
  hasEpsilonEdges_iff := automaton.hasEpsilonEdges_iff

/-- Equal lists of edges come from equal look-ups. -/
theorem targets_eq_of_edges_eq {left right : Automaton α} (same : left.edges = right.edges)
    (state : Nat) (label : Label α) :
    left.targets state label = right.targets state label := by
  ext target
  have inLeft := left.mem_edges_iff ⟨state, label, target⟩
  have inRight := right.mem_edges_iff ⟨state, label, target⟩
  rw [same] at inLeft
  exact inLeft.symm.trans inRight

/--
The edges of an automaton are listed once and in the order of its table, and
every look-up agrees with the list.  Automata that agree in everything else are
equal exactly if their lists of edges are.
-/
theorem edges_determine_automaton (left : Automaton α) :
    left.ListsTransitions ∧
      (left.WellFormed → left.ReadsTable ∧
        ∀ right : Automaton α, right.WellFormed → left.alphabet = right.alphabet →
          left.names = right.names → left.initial = right.initial →
          left.accepting = right.accepting → (left = right ↔ left.edges = right.edges)) := by
  refine ⟨left.listsTransitions, fun leftWellFormed => ⟨leftWellFormed.readsTable, ?_⟩⟩
  intro right rightWellFormed alphabet names initial accepting
  constructor
  · rintro rfl
    rfl
  · intro same
    exact leftWellFormed.ext_targets rightWellFormed alphabet names initial accepting
      (targets_eq_of_edges_eq same)

/-- The silent edges of a row stand behind its other edges, and a missing one is noticed. -/
theorem edges_determine_automaton_brokenCycle :
    brokenCycle.WellFormed ∧ silentCycle.WellFormed ∧ brokenCycle.ReadsTable ∧
      brokenCycle.edges = [⟨0, .symbol 'a', 0⟩, ⟨1, .symbol 'b', 2⟩, ⟨1, .epsilon, 0⟩,
        ⟨1, .epsilon, 1⟩] ∧
      brokenCycle.edges ≠ silentCycle.edges := by
  have brokenWellFormed : brokenCycle.WellFormed := by decide
  have wellFormed : silentCycle.WellFormed := by decide
  rcases (edges_determine_automaton brokenCycle).2 brokenWellFormed with ⟨reads, determined⟩
  have different := (determined silentCycle wellFormed rfl rfl rfl rfl).not.1 (by decide)
  exact ⟨brokenWellFormed, wellFormed, reads, by decide, different⟩

end Automaton

end WordAutomata
