import WordAutomata.Proofs.Lists
import WordAutomata.Proofs.WellFormed

/-!
# Automata as tables

The transition relation of an automaton fills a table with one row for each
state and one column for each label.  A well-formed automaton is determined by
its alphabet, its names, its initial and accepting states and what its look-ups
give, since every cell of its table is found by some look-up.  Tabulating
look-ups that stay within the table gives a well-formed automaton.
-/

namespace WordAutomata

variable {α : Type} [DecidableEq α]

theorem Alphabet.position?_of_getElem? (alphabet : Alphabet α) {value : α} {position : Nat}
    (standing : alphabet.symbols[position]? = some value) :
    alphabet.position? value = some position := by
  rcases alphabet.exists_position? (List.mem_of_getElem? standing) with ⟨first, located⟩
  have within := (List.getElem?_eq_some_iff.1 standing).1
  have same := alphabet.symbols_getElem?_position? located
  rw [located, (List.getElem?_inj within alphabet.nodup).1 (standing.trans same.symm)]

omit [DecidableEq α] in
/-- The columns of the table are those of the symbols, and one more for the empty label. -/
theorem Alphabet.getElem?_labels_eq_some (alphabet : Alphabet α) {column : Nat} {label : Label α}
    (labelled : alphabet.labels[column]? = some label) :
    (∃ value, alphabet.symbols[column]? = some value ∧ label = .symbol value) ∨
      (column = alphabet.size ∧ label = .epsilon) := by
  rw [labels, List.getElem?_append, List.length_map, List.getElem?_map] at labelled
  split at labelled
  · rcases Option.map_eq_some_iff.1 labelled with ⟨value, standing, rfl⟩
    exact Or.inl ⟨value, standing, rfl⟩
  · next behind =>
      rcases List.getElem?_eq_some_iff.1 labelled with ⟨first, same⟩
      rw [List.length_singleton, Nat.lt_one_iff] at first
      refine Or.inr ⟨?_, by simpa [first] using same.symm⟩
      rw [size]
      omega

namespace Automaton

/-! ## Look-ups and cells -/

theorem targets_symbol_of_getElem? {automaton : Automaton α} {state position : Nat}
    {row : State} {value : α} (located : automaton.states[state]? = some row)
    (standing : automaton.alphabet.symbols[position]? = some value) :
    automaton.targets state (.symbol value) = (row.moves[position]?).getD ∅ := by
  have placed := automaton.alphabet.position?_of_getElem? standing
  simp [targets, located, State.targets, placed]

theorem targets_epsilon_of_getElem? {automaton : Automaton α} {state : Nat} {row : State}
    (located : automaton.states[state]? = some row) :
    automaton.targets state .epsilon = row.silent := by
  simp [targets, located, State.targets]

theorem WellFormed.length_cells_row {automaton : Automaton α}
    (wellFormed : automaton.WellFormed) (row : State) (member : row ∈ automaton.states) :
    (row.moves ++ [row.silent]).length = automaton.alphabet.size + 1 := by
  rw [List.length_append, wellFormed.moves_length row member, List.length_singleton]

theorem WellFormed.length_cells {automaton : Automaton α} (wellFormed : automaton.WellFormed) :
    automaton.cells.length = automaton.size * (automaton.alphabet.size + 1) := by
  rw [cells, List.length_flatMap, List.map_congr_left wellFormed.length_cells_row,
    List.map_const', List.sum_replicate_nat]
  rfl

/-- A look-up finds the cell in the row of its state and in the column of its label. -/
theorem WellFormed.getElem?_cells {automaton : Automaton α} (wellFormed : automaton.WellFormed)
    {state column : Nat} {label : Label α} (present : state < automaton.size)
    (labelled : automaton.alphabet.labels[column]? = some label) :
    automaton.cells[state * (automaton.alphabet.size + 1) + column]? =
      some (automaton.targets state label) := by
  obtain ⟨row, located⟩ : ∃ row, automaton.states[state]? = some row :=
    ⟨_, List.getElem?_eq_getElem present⟩
  have width := wellFormed.moves_length row (List.mem_of_getElem? located)
  have cell : column < automaton.alphabet.size + 1 →
      automaton.cells[state * (automaton.alphabet.size + 1) + column]? =
        (row.moves ++ [row.silent])[column]? := by
    intro within
    rw [cells, getElem?_flatMap_of_width wellFormed.length_cells_row state within, located]
    rfl
  rcases automaton.alphabet.getElem?_labels_eq_some labelled with
    ⟨value, standing, rfl⟩ | ⟨rfl, rfl⟩
  -- The columns of symbols are found among the moves, and the last one behind them.
  · have reading : column < row.moves.length :=
      width ▸ (List.getElem?_eq_some_iff.1 standing).1
    rw [cell (by omega), targets_symbol_of_getElem? located standing,
      List.getElem?_append_left reading, List.getElem?_eq_getElem reading]
    rfl
  · rw [cell (Nat.lt_succ_self _), targets_epsilon_of_getElem? located, ← width]
    exact List.getElem?_concat_length

/-- Every cell is found by a look-up of some state. -/
theorem WellFormed.exists_of_mem_cells {automaton : Automaton α}
    (wellFormed : automaton.WellFormed) {cell : StateSet} (member : cell ∈ automaton.cells) :
    ∃ state < automaton.size, ∃ label ∈ automaton.alphabet.labels,
      cell = automaton.targets state label := by
  rcases List.mem_iff_getElem?.1 member with ⟨place, located⟩
  have within := (List.getElem?_eq_some_iff.1 located).1
  rw [wellFormed.length_cells] at within
  have present : place / (automaton.alphabet.size + 1) < automaton.size :=
    Nat.div_lt_of_lt_mul (Nat.mul_comm _ _ ▸ within)
  have column : place % (automaton.alphabet.size + 1) < automaton.alphabet.labels.length := by
    rw [Alphabet.length_labels]
    exact Nat.mod_lt place (Nat.succ_pos _)
  have labelled := List.getElem?_eq_getElem column
  have found := wellFormed.getElem?_cells present labelled
  rw [Nat.mul_comm, Nat.div_add_mod, located, Option.some_inj] at found
  exact ⟨_, present, _, List.getElem_mem column, found⟩

/-- Two rows of equal look-ups are equal. -/
theorem WellFormed.row_eq {left right : Automaton α} (leftWellFormed : left.WellFormed)
    (rightWellFormed : right.WellFormed) (alphabet : left.alphabet = right.alphabet)
    (names : left.names = right.names)
    (targets : ∀ state label, left.targets state label = right.targets state label)
    {state : Nat} {leftRow rightRow : State} (inLeft : left.states[state]? = some leftRow)
    (inRight : right.states[state]? = some rightRow) :
    leftRow = rightRow := by
  have name : leftRow.name = rightRow.name := by
    have same := congrArg (·[state]?) names
    simpa [Automaton.names, inLeft, inRight] using same
  have silent : leftRow.silent = rightRow.silent := by
    rw [← targets_epsilon_of_getElem? inLeft, ← targets_epsilon_of_getElem? inRight]
    exact targets state .epsilon
  have moves : leftRow.moves = rightRow.moves := by
    have leftLength := leftWellFormed.moves_length leftRow (List.mem_of_getElem? inLeft)
    have rightLength := rightWellFormed.moves_length rightRow (List.mem_of_getElem? inRight)
    apply List.ext_getElem
    · rw [leftLength, rightLength, alphabet]
    · intro position withinLeft withinRight
      have within : position < left.alphabet.symbols.length :=
        Nat.lt_of_lt_of_eq withinLeft leftLength
      obtain ⟨value, standing⟩ : ∃ value, left.alphabet.symbols[position]? = some value :=
        ⟨_, List.getElem?_eq_getElem within⟩
      have same := targets state (.symbol value)
      rw [targets_symbol_of_getElem? inLeft standing,
        targets_symbol_of_getElem? inRight (by rwa [← alphabet]),
        List.getElem?_eq_getElem withinLeft, List.getElem?_eq_getElem withinRight] at same
      exact same
  cases leftRow
  cases rightRow
  simp_all

/-- A well-formed automaton is determined by what can be looked up in it. -/
theorem WellFormed.ext_targets {left right : Automaton α} (leftWellFormed : left.WellFormed)
    (rightWellFormed : right.WellFormed) (alphabet : left.alphabet = right.alphabet)
    (names : left.names = right.names) (initial : left.initial = right.initial)
    (accepting : left.accepting = right.accepting)
    (targets : ∀ state label, left.targets state label = right.targets state label) :
    left = right := by
  have states : left.states = right.states := by
    have sizes : left.states.length = right.states.length := by
      simpa [Automaton.names] using congrArg List.length names
    apply List.ext_getElem sizes
    intro state withinLeft withinRight
    exact leftWellFormed.row_eq rightWellFormed alphabet names targets
      (List.getElem?_eq_getElem withinLeft) (List.getElem?_eq_getElem withinRight)
  cases left
  cases right
  simp_all

/-! ## Tabulating -/

theorem wellFormed_tabulate {alphabet : Alphabet α} {names : List String}
    {targets : Nat → Label α → StateSet} {initial accepting : StateSet}
    (distinct : names.Nodup)
    (targets_lt : ∀ state label target, state < names.length → label ∈ alphabet.labels →
      target ∈ targets state label → target < names.length)
    (initial_lt : ∀ state, state ∈ initial → state < names.length)
    (accepting_lt : ∀ state, state ∈ accepting → state < names.length) :
    (tabulate alphabet names targets initial accepting).WellFormed where
  names_nodup := by rwa [names_tabulate]
  moves_length := by
    intro row member
    rcases List.mem_map.1 member with ⟨_, _, rfl⟩
    exact List.length_map _
  edges_lt := by
    intro edge listed
    rw [mem_edges_iff, targets_tabulate] at listed
    rw [size_tabulate]
    split at listed
    · next within => exact targets_lt _ _ _ within.1 within.2 listed
    · exact absurd listed (StateSet.not_mem_empty edge.target)
  initial_lt := by
    rw [size_tabulate]
    exact initial_lt
  accepting_lt := by
    rw [size_tabulate]
    exact accepting_lt

end Automaton

end WordAutomata
