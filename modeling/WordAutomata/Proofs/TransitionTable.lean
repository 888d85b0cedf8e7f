import WordAutomata.Proofs.Run.Viewed
import WordAutomata.Proofs.SubsetConstruction.Names
import WordAutomata.Proofs.Tabulated
import WordAutomata.TransitionTable

/-!
# Transition tables can be read back

The cells of a transition table say everything about the automaton, provided
that no name can be mistaken for something else that is written into a cell: a
name is not a dash, does not begin with a brace and does not contain the
separator.  The decorations of the first cell of a row can always be told apart,
since they differ in length.  If there is no column for the empty label then
there is nothing to be read from it.
-/

namespace WordAutomata

namespace StateSet

/-- A set without members, with one member, or with several of them. -/
theorem eq_empty_or_singleton_or_two_le_size (set : StateSet) :
    set = ∅ ∨ (∃ state, set = .singleton state) ∨ 2 ≤ set.size := by
  rcases Nat.lt_or_ge set.size 2 with few | several
  · have placed := eq_ofPlace_least? (Nat.le_of_lt_succ few)
    cases found : set.least? with
    | none => exact Or.inl (placed.trans (congrArg ofPlace found))
    | some state =>
        exact Or.inr (Or.inl ⟨state, placed.trans (congrArg ofPlace found)⟩)
  · exact Or.inr (Or.inr several)

/-- Sets below a bound are equal if they agree below it. -/
theorem eq_of_mem_iff_of_lt {first second : StateSet} {size : Nat}
    (within : ∀ state, state ∈ first → state < size)
    (within' : ∀ state, state ∈ second → state < size)
    (same : ∀ state < size, (state ∈ first ↔ state ∈ second)) :
    first = second := by
  ext state
  constructor
  · intro member
    exact (same state (within state member)).1 member
  · intro member
    exact (same state (within' state member)).2 member

end StateSet

namespace Automaton

variable {α : Type}

/-- No name is taken for a cell without targets or with several of them. -/
structure Legible (automaton : Automaton α) : Prop where
  ne_dash : ∀ name ∈ automaton.names, name ≠ "-"
  not_braced : ∀ name ∈ automaton.names, name.toList.head? ≠ some openingBrace
  separatorFree : automaton.SeparatorFree

/-! ## The first cell of a row -/

/-- Each decoration makes a name longer, and no two of them by the same length. -/
theorem length_stateCell (automaton : Automaton α) (state : Nat) :
    (automaton.stateCell state).length =
      (automaton.nameOf state).length + (if state ∈ automaton.accepting then 18 else 0) +
        if state ∈ automaton.initial then 2 else 0 := by
  have arrow : "→ ".length = 2 := by decide
  have opening : "\x1b[32m\x1b[1m".length = 9 := by decide
  have closing : "\x1b[0m\x1b[39m".length = 9 := by decide
  by_cases accepting : state ∈ automaton.accepting <;>
    by_cases initial : state ∈ automaton.initial <;>
      simp [stateCell, isAccepting, highlighted, accepting, initial, arrow, opening, closing] <;>
        omega

/-- The first cell of a row tells whether the state is accepting, and whether it is initial. -/
theorem stateCell_inj {left right : Automaton α} {state : Nat}
    (name : left.nameOf state = right.nameOf state)
    (same : left.stateCell state = right.stateCell state) :
    (state ∈ left.accepting ↔ state ∈ right.accepting) ∧
      (state ∈ left.initial ↔ state ∈ right.initial) := by
  have lengths := congrArg String.length same
  rw [length_stateCell, length_stateCell, name] at lengths
  constructor <;> grind

/-! ## Cells of targets -/

theorem targetsCell_of_two_le_size (automaton : Automaton α) {targets : StateSet}
    (several : 2 ≤ targets.size) :
    automaton.targetsCell targets = automaton.renderStates targets := by
  obtain ⟨members, ascending⟩ := targets
  rcases members with _ | ⟨state, _ | ⟨other, rest⟩⟩
  · simp [StateSet.size] at several
  · simp [StateSet.size] at several
  · rfl

theorem head?_renderStates (automaton : Automaton α) (states : StateSet) :
    (automaton.renderStates states).toList.head? = some openingBrace := by
  rw [renderStates, toList_renderBraced]
  rfl

variable {automaton : Automaton α}

theorem nameOf_mem_names_of_singleton {state : Nat}
    (within : ∀ other, other ∈ StateSet.singleton state → other < automaton.size) :
    automaton.nameOf state ∈ automaton.names :=
  nameOf_mem_names (within state ((StateSet.mem_singleton state state).2 rfl))

/-- Only a cell without targets shows a dash. -/
theorem Legible.targetsCell_eq_dash_iff (legible : automaton.Legible) {targets : StateSet}
    (within : ∀ state, state ∈ targets → state < automaton.size) :
    automaton.targetsCell targets = "-" ↔ targets = ∅ := by
  constructor
  · intro dash
    rcases StateSet.eq_empty_or_singleton_or_two_le_size targets with rfl | ⟨state, rfl⟩ | several
    · rfl
    · exact absurd dash (legible.ne_dash _ (nameOf_mem_names_of_singleton within))
    · rw [automaton.targetsCell_of_two_le_size several] at dash
      have heads := automaton.head?_renderStates targets
      rw [dash] at heads
      exact absurd heads (by decide)
  · rintro rfl
    rfl

/-- Only a cell with several targets begins with a brace. -/
theorem Legible.braced_targetsCell_iff (legible : automaton.Legible) {targets : StateSet}
    (within : ∀ state, state ∈ targets → state < automaton.size) :
    (automaton.targetsCell targets).toList.head? = some openingBrace ↔ 2 ≤ targets.size := by
  constructor
  · intro braced
    rcases StateSet.eq_empty_or_singleton_or_two_le_size targets with rfl | ⟨state, rfl⟩ | several
    · have dash : automaton.targetsCell ∅ = "-" := rfl
      rw [dash] at braced
      exact absurd braced (by decide)
    · exact absurd braced (legible.not_braced _ (nameOf_mem_names_of_singleton within))
    · exact several
  · intro several
    rw [automaton.targetsCell_of_two_le_size several]
    exact automaton.head?_renderStates targets

variable [DecidableEq α]

/-- A cell of targets is read in one way. -/
theorem WellFormed.targetsCell_inj (wellFormed : automaton.WellFormed)
    (legible : automaton.Legible) {first second : StateSet}
    (within : ∀ state, state ∈ first → state < automaton.size)
    (within' : ∀ state, state ∈ second → state < automaton.size)
    (same : automaton.targetsCell first = automaton.targetsCell second) :
    first = second := by
  have dash := legible.targetsCell_eq_dash_iff within
  have braced := legible.braced_targetsCell_iff within
  rw [same, legible.targetsCell_eq_dash_iff within'] at dash
  rw [same, legible.braced_targetsCell_iff within'] at braced
  rcases StateSet.eq_empty_or_singleton_or_two_le_size first with nothing | ⟨state, rfl⟩ | several
  · rw [nothing, dash.2 nothing]
  · rcases StateSet.eq_empty_or_singleton_or_two_le_size second with
      nothing | ⟨state', rfl⟩ | several
    · rw [nothing, dash.1 nothing]
    · have name : automaton.nameOf state = automaton.nameOf state' := same
      have present := within state ((StateSet.mem_singleton state state).2 rfl)
      have present' := within' state' ((StateSet.mem_singleton state' state').2 rfl)
      rw [← wellFormed.idxOf_nameOf present, name, wellFormed.idxOf_nameOf present']
    · exact absurd (braced.1 several) (Nat.lt_irrefl 1)
  · have several' := braced.2 several
    have something : ∀ {set : StateSet}, 2 ≤ set.size → set ≠ ∅ := by
      rintro _ several rfl
      exact absurd several (by decide)
    rw [automaton.targetsCell_of_two_le_size several,
      automaton.targetsCell_of_two_le_size several',
      ← automaton.subsetName_of_ne_empty (something several),
      ← automaton.subsetName_of_ne_empty (something several')] at same
    exact wellFormed.subsetName_inj legible.separatorFree within within' same

/-! ## Columns -/

/-- There is a column for the empty label exactly if some edge carries it. -/
theorem hasEpsilonEdges_iff (automaton : Automaton α) :
    automaton.hasEpsilonEdges = true ↔ ∃ edge ∈ automaton.edges, edge.label = .epsilon := by
  rw [hasEpsilonEdges, List.any_eq_true]
  constructor
  · rintro ⟨row, member, something⟩
    rcases List.mem_iff_getElem?.1 member with ⟨state, located⟩
    have nonempty : row.silent.members ≠ [] := by simpa [StateSet.isEmpty] using something
    rcases List.exists_mem_of_ne_nil _ nonempty with ⟨target, listed⟩
    refine ⟨⟨state, .epsilon, target⟩, (automaton.mem_edges_iff _).2 ?_, rfl⟩
    rwa [targets_epsilon_of_getElem? located]
  · rintro ⟨⟨source, _, target⟩, listed, rfl⟩
    have member := (automaton.mem_edges_iff _).1 listed
    have present := lt_size_of_mem_targets member
    have located : automaton.states[source]? = some automaton.states[source] :=
      List.getElem?_eq_getElem present
    rw [targets_epsilon_of_getElem? located] at member
    refine ⟨_, List.mem_of_getElem? located, ?_⟩
    simpa [StateSet.isEmpty] using List.ne_nil_of_mem member

omit [DecidableEq α] in
theorem length_columnLabels (automaton : Automaton α) :
    automaton.columnLabels.length =
      automaton.alphabet.size + if automaton.hasEpsilonEdges then 1 else 0 := by
  rw [columnLabels, List.length_append, List.length_map]
  split <;> rfl

/-- Every edge is shown in some column. -/
theorem mem_columnLabels_of_mem_targets {state target : Nat} {label : Label α}
    (member : target ∈ automaton.targets state label) :
    label ∈ automaton.columnLabels := by
  rw [columnLabels, List.mem_append]
  cases label with
  | symbol value =>
      have known := (Alphabet.mem_labels _ _).1 (mem_labels_of_mem_targets member) value rfl
      exact Or.inl (List.mem_map_of_mem known)
  | epsilon =>
      have listed := (automaton.mem_edges_iff ⟨state, .epsilon, target⟩).2 member
      rw [if_pos (automaton.hasEpsilonEdges_iff.2 ⟨_, listed, rfl⟩)]
      exact Or.inr (List.mem_singleton_self _)

/-- A label without a column leads nowhere. -/
theorem targets_eq_empty_of_not_mem_columnLabels (state : Nat) {label : Label α}
    (hidden : label ∉ automaton.columnLabels) :
    automaton.targets state label = ∅ := by
  ext target
  constructor
  · intro member
    exact absurd (mem_columnLabels_of_mem_targets member) hidden
  · intro member
    exact absurd member (StateSet.not_mem_empty target)

/-! ## Reading the grid -/

/-- How many rows and cells a transition table has. -/
structure GridShape [Render α] (automaton : Automaton α) : Prop where
  length_grid : automaton.grid.length = 1 + automaton.size
  length_row : ∀ row ∈ automaton.grid, row.length =
    1 + automaton.alphabet.size + if automaton.hasEpsilonEdges then 1 else 0
  hasEpsilonEdges_iff : automaton.hasEpsilonEdges = true ↔
    ∃ edge ∈ automaton.edges, edge.label = .epsilon

theorem gridShape [Render α] (automaton : Automaton α) : automaton.GridShape where
  length_grid := by
    rw [grid, List.length_cons, List.length_map, ids, List.length_range, Nat.add_comm]
  length_row := by
    intro row member
    rw [Nat.add_assoc, ← length_columnLabels, Nat.add_comm]
    rcases List.mem_cons.1 member with rfl | member
    · rw [headerCells, List.length_cons, List.length_map]
    · rcases List.mem_map.1 member with ⟨state, _, rfl⟩
      rw [stateCells, List.length_cons, List.length_map]
  hasEpsilonEdges_iff := automaton.hasEpsilonEdges_iff

variable {left right : Automaton α}

omit [DecidableEq α] in
/-- Over one alphabet, the header tells which columns there are. -/
theorem columnLabels_eq_of_headerCells_eq [Render α] (alphabet : left.alphabet = right.alphabet)
    (same : left.headerCells = right.headerCells) :
    left.columnLabels = right.columnLabels := by
  have lengths := congrArg List.length same
  rw [headerCells, headerCells, List.length_cons, List.length_cons, List.length_map,
    List.length_map, length_columnLabels, length_columnLabels, alphabet] at lengths
  have epsilon : left.hasEpsilonEdges = right.hasEpsilonEdges := by
    cases inLeft : left.hasEpsilonEdges <;> cases inRight : right.hasEpsilonEdges <;>
      simp [inLeft, inRight] at lengths ⊢
  rw [columnLabels, columnLabels, alphabet, epsilon]

/-- The row of a state tells where its edges lead. -/
theorem WellFormed.targets_eq_of_stateCells_eq (leftWellFormed : left.WellFormed)
    (rightWellFormed : right.WellFormed) (names : left.names = right.names)
    (legible : left.Legible) (columns : left.columnLabels = right.columnLabels) {state : Nat}
    (same : left.stateCells state = right.stateCells state) (label : Label α) :
    left.targets state label = right.targets state label := by
  by_cases shown : label ∈ left.columnLabels
  · have cells := (List.cons.inj same).2
    rw [← columns] at cells
    have cell := List.map_inj_left.1 cells label shown
    have nameOf : right.nameOf = left.nameOf := by
      funext other
      rw [Automaton.nameOf, Automaton.nameOf, name?, name?, names]
    have size : right.size = left.size := by
      rw [← length_names, ← length_names, names]
    have alike : right.targetsCell = left.targetsCell := by
      funext targets
      rw [targetsCell, targetsCell, renderStates, renderStates, nameOf]
    rw [alike] at cell
    exact leftWellFormed.targetsCell_inj legible (fun _ => leftWellFormed.target_lt)
      (fun _ member => size ▸ rightWellFormed.target_lt member) cell
  · rw [left.targets_eq_empty_of_not_mem_columnLabels state shown,
      right.targets_eq_empty_of_not_mem_columnLabels state (columns ▸ shown)]

/--
The grid of a transition table has one row for each state below its header, and
a column for the empty label exactly if some edge carries it.  Automata over one
alphabet and with the same legible names have the same grid only if they are
equal.
-/
theorem grid_determines_automaton [Render α] (left right : Automaton α)
    (leftWellFormed : left.WellFormed) (rightWellFormed : right.WellFormed)
    (alphabet : left.alphabet = right.alphabet) (names : left.names = right.names)
    (legible : left.Legible) :
    left.GridShape ∧ (left.grid = right.grid ↔ left = right) := by
  refine ⟨left.gridShape, ?_, fun equal => by rw [equal]⟩
  intro same
  have size : left.size = right.size := by
    rw [← length_names, ← length_names, names]
  rcases List.cons.inj same with ⟨header, rows⟩
  have columns := columnLabels_eq_of_headerCells_eq alphabet header
  rw [ids, ids, ← size, List.map_inj_left] at rows
  have row : ∀ state < left.size, left.stateCells state = right.stateCells state :=
    fun state present => rows state (List.mem_range.2 present)
  have first : ∀ state < left.size, (state ∈ left.accepting ↔ state ∈ right.accepting) ∧
      (state ∈ left.initial ↔ state ∈ right.initial) := by
    intro state present
    apply stateCell_inj _ (List.cons.inj (row state present)).1
    rw [nameOf, nameOf, name?, name?, names]
  apply leftWellFormed.ext_targets rightWellFormed alphabet names
  · exact StateSet.eq_of_mem_iff_of_lt leftWellFormed.initial_lt (size ▸ rightWellFormed.initial_lt)
      fun state present => (first state present).2
  · exact StateSet.eq_of_mem_iff_of_lt leftWellFormed.accepting_lt
      (size ▸ rightWellFormed.accepting_lt) fun state present => (first state present).1
  · intro state label
    rcases Nat.lt_or_ge state left.size with present | missing
    · exact leftWellFormed.targets_eq_of_stateCells_eq rightWellFormed names legible columns
        (row state present) label
    · rw [left.targets_eq_empty_of_size_le label missing,
        right.targets_eq_empty_of_size_le label (size ▸ missing)]

/-- The silent cycle with one silent edge less, and with one that goes around at its own state. -/
def brokenCycle : Automaton Char :=
  { silentCycle with
    states :=
      [⟨"p", [.singleton 0, ∅], ∅⟩,
        ⟨"q", [∅, .singleton 2], .ofList [0, 1]⟩,
        ⟨"r", [∅, ∅], ∅⟩] }

/-- A cell with two targets and one with a dash tell the two automata apart. -/
theorem grid_determines_automaton_brokenCycle :
    brokenCycle.WellFormed ∧ silentCycle.WellFormed ∧ brokenCycle.Legible ∧
      brokenCycle.stateCells 0 = ["→ p", "p", "-", "-"] ∧
      brokenCycle.stateCells 1 = ["q", "-", "r", braced "p, q"] ∧
      brokenCycle.grid ≠ silentCycle.grid := by
  have brokenWellFormed : brokenCycle.WellFormed := by decide
  have wellFormed : silentCycle.WellFormed := by decide
  have legible : brokenCycle.Legible := by
    refine ⟨by decide, by decide, ?_⟩
    unfold SeparatorFree
    decide
  have determined := grid_determines_automaton brokenCycle silentCycle brokenWellFormed wellFormed
    rfl rfl legible
  exact ⟨brokenWellFormed, wellFormed, legible, by decide +kernel, by decide +kernel,
    determined.2.not.2 (by decide)⟩

end Automaton

end WordAutomata
