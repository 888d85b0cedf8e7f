import WordAutomata.Proofs.Lists
import WordAutomata.Proofs.SubsetConstruction.Filling
import WordAutomata.Proofs.Tabulated
import WordAutomata.TransitionTable

/-!
# Checked look-ups in the table

The cells of an automaton stand in one flat table, and an access behind its end
fails.  A look-up in the row of a state that exists never fails, and finds the
targets of this state.

The place of a cell is computed with machine words.  A number without a state
has a place behind the end of the table, so its look-up fails as long as this
place is a machine word.  Otherwise the place wraps around, and the look-up may
find a cell of some other state.

This file states the look-ups and the walks over the whole table with every
access checked, and shows that they give what the unchecked ones give.
-/

namespace WordAutomata

namespace Automaton

variable {α : Type}

/-- The places of the table are numbered by machine words, as of every table in a memory. -/
def Fits (automaton : Automaton α) : Prop :=
  automaton.cells.length ≤ UInt64.size

instance (automaton : Automaton α) : Decidable automaton.Fits :=
  inferInstanceAs (Decidable (_ ≤ _))

def checkedEpsilonTargets (automaton : Automaton α) (state : Nat) : Option StateSet :=
  automaton.cell? state automaton.alphabet.size

def checkedHasEpsilonEdges (automaton : Automaton α) : Option Bool :=
  automaton.ids.anyM fun state =>
    (automaton.checkedEpsilonTargets state).map fun targets => !targets.isEmpty

/-- The first cells of the row of a state, one for each of the keys. -/
def checkedRow {κ : Type} (automaton : Automaton α) (keys : List κ) (state : Nat) :
    Option (List (κ × StateSet)) :=
  keys.zipIdx.mapM fun cell => (automaton.cell? state cell.2).map (cell.1, ·)

def checkedEdges (automaton : Automaton α) : Option (List (Edge α)) := do
  let rows ← automaton.ids.mapM fun source =>
    (automaton.checkedRow automaton.alphabet.labels source).map fun row =>
      row.flatMap fun cell => cell.2.members.map fun target => Edge.mk source cell.1 target
  return rows.flatten

variable [DecidableEq α]

/--
What a symbol leads to from a state, with a guard for states and symbols that do
not exist.  The outer option tells whether all accesses are in range.
-/
def checkedTransitions (automaton : Automaton α) (state : Nat) (value : α) :
    Option (Option StateSet) :=
  if automaton.size ≤ state then
    some none
  else
    match automaton.alphabet.position? value with
    | none => some none
    | some column => (automaton.cell? state column).map some

/-- The cells of the transition table, with a last column if some edge reads nothing. -/
def checkedGrid [Render α] (automaton : Automaton α) : Option (List (List String)) := do
  let withEpsilon ← automaton.checkedHasEpsilonEdges
  let labels := automaton.alphabet.symbols.map Label.symbol ++
    if withEpsilon then [.epsilon] else []
  let rows ← automaton.ids.mapM fun state =>
    (automaton.checkedRow labels state).map fun row =>
      automaton.stateCell state :: row.map fun cell => automaton.targetsCell cell.2
  return ("State" :: labels.map render) :: rows

/-! ## Single look-ups -/

/-- The place of the last cell in the row of a state is a machine word. -/
def Addressable (automaton : Automaton α) (state : Nat) : Prop :=
  automaton.cellPlace state automaton.alphabet.size < UInt64.size

instance (automaton : Automaton α) (state : Nat) : Decidable (automaton.Addressable state) :=
  inferInstanceAs (Decidable (_ < _))

omit [DecidableEq α] in
theorem cell?_eq_none_iff (automaton : Automaton α) (row column : Nat) :
    automaton.cell? row column = none ↔
      automaton.cells.length ≤ automaton.cellPlace row column % UInt64.size :=
  List.getElem?_eq_none_iff

variable {automaton : Automaton α}

theorem WellFormed.addressable (wellFormed : automaton.WellFormed) (fits : automaton.Fits)
    {state : Nat} (present : state < automaton.size) :
    automaton.Addressable state := by
  have within := automaton.cellPlace_lt present (Nat.le_refl automaton.alphabet.size)
  have length : automaton.cells.length = automaton.cellPlace automaton.size 0 :=
    wellFormed.length_cells
  exact Nat.lt_of_lt_of_le (Nat.lt_of_lt_of_eq within length.symm) fits

/-- A look-up by an existing state finds what belongs to this state. -/
theorem WellFormed.cell?_eq_some (wellFormed : automaton.WellFormed) (fits : automaton.Fits)
    {column : Nat} {label : Label α} (labelled : automaton.alphabet.labels[column]? = some label)
    {state : Nat} (present : state < automaton.size) :
    automaton.cell? state column = some (automaton.targets state label) := by
  have narrow : column ≤ automaton.alphabet.size := by
    have within := (List.getElem?_eq_some_iff.1 labelled).1
    rw [Alphabet.length_labels] at within
    exact Nat.le_of_lt_succ within
  have reachable : automaton.cellPlace state column < UInt64.size :=
    Nat.lt_of_le_of_lt (Nat.add_le_add_left narrow _) (wellFormed.addressable fits present)
  rw [cell?, Nat.mod_eq_of_lt reachable]
  exact wellFormed.getElem?_cells present labelled

/-- The cells of a row are found in their columns, whatever the columns are known by. -/
theorem WellFormed.cell?_eq_some_of_prefix (wellFormed : automaton.WellFormed)
    (fits : automaton.Fits) {κ : Type} {label : κ → Label α} {keys : List κ}
    (columns : keys.map label <+: automaton.alphabet.labels) {cell : κ × Nat}
    (listed : cell ∈ keys.zipIdx) {state : Nat} (present : state ∈ automaton.ids) :
    automaton.cell? state cell.2 = some (automaton.targets state (label cell.1)) := by
  have standing := List.mk_mem_zipIdx_iff_getElem?.1 listed
  have labelled : automaton.alphabet.labels[cell.2]? = some (label cell.1) := by
    rcases columns with ⟨rest, same⟩
    have within : cell.2 < (keys.map label).length := by
      rw [List.length_map]
      exact (List.getElem?_eq_some_iff.1 standing).1
    rw [← same, List.getElem?_append_left within, List.getElem?_map, standing]
    rfl
  exact wellFormed.cell?_eq_some fits labelled (List.mem_range.1 present)

theorem WellFormed.checkedRow_eq (wellFormed : automaton.WellFormed) (fits : automaton.Fits)
    {κ : Type} {label : κ → Label α} {keys : List κ}
    (columns : keys.map label <+: automaton.alphabet.labels) {state : Nat}
    (present : state ∈ automaton.ids) :
    automaton.checkedRow keys state =
      some (keys.map fun key => (key, automaton.targets state (label key))) := by
  have cells : automaton.checkedRow keys state =
      some (keys.zipIdx.map fun cell => (cell.1, automaton.targets state (label cell.1))) := by
    apply mapM_eq_some_map
    intro cell listed
    rw [wellFormed.cell?_eq_some_of_prefix fits columns listed present]
    rfl
  rw [cells, ← List.zipIdx_map_fst 0 keys, List.map_map]
  simp only [List.zipIdx_map_fst, Function.comp_def]

omit [DecidableEq α] in
theorem getElem?_labels_symbol {alphabet : Alphabet α} {column : Nat} {value : α}
    (standing : alphabet.symbols[column]? = some value) :
    alphabet.labels[column]? = some (.symbol value) := by
  have within := (List.getElem?_eq_some_iff.1 standing).1
  rw [Alphabet.labels, List.getElem?_append_left (by rwa [List.length_map]), List.getElem?_map,
    standing]
  rfl

omit [DecidableEq α] in
theorem getElem?_labels_epsilon (alphabet : Alphabet α) :
    alphabet.labels[alphabet.size]? = some .epsilon := by
  simp [Alphabet.labels, Alphabet.size]

theorem WellFormed.checkedEpsilonTargets_eq (wellFormed : automaton.WellFormed)
    (fits : automaton.Fits) (state : Nat) :
    automaton.checkedEpsilonTargets state = automaton.epsilonTargets? state := by
  rw [checkedEpsilonTargets, epsilonTargets?]
  split
  · next present => exact wellFormed.cell?_eq_some fits (getElem?_labels_epsilon _) present
  · rfl

theorem WellFormed.checkedEpsilonTargets_of_lt (wellFormed : automaton.WellFormed)
    (fits : automaton.Fits) {state : Nat} (present : state < automaton.size) :
    automaton.checkedEpsilonTargets state = some (automaton.targets state .epsilon) :=
  wellFormed.cell?_eq_some fits (getElem?_labels_epsilon _) present

/-- Where no place wraps around, a look-up fails exactly if the state does not exist. -/
theorem WellFormed.checkedEpsilonTargets_eq_none_iff (wellFormed : automaton.WellFormed)
    {state : Nat} (addressable : automaton.Addressable state) :
    automaton.checkedEpsilonTargets state = none ↔ automaton.size ≤ state := by
  have length : automaton.cells.length = automaton.cellPlace automaton.size 0 :=
    wellFormed.length_cells
  rw [checkedEpsilonTargets, cell?_eq_none_iff, Nat.mod_eq_of_lt addressable, length]
  constructor
  · intro behind
    by_contra present
    have within := automaton.cellPlace_lt (Nat.lt_of_not_le present)
      (Nat.le_refl automaton.alphabet.size)
    exact Nat.not_lt_of_le behind within
  · intro missing
    exact Nat.add_le_add (Nat.mul_le_mul_right _ missing) (Nat.zero_le _)

/-- Whatever a look-up finds belongs to some state, though not always to the given one. -/
theorem WellFormed.exists_of_epsilonTargets? (wellFormed : automaton.WellFormed) {state : Nat}
    {found : StateSet} (looked : automaton.epsilonTargets? state = some found) :
    ∃ other < automaton.size, ∃ label ∈ automaton.alphabet.labels,
      found = automaton.targets other label := by
  rw [epsilonTargets?] at looked
  split at looked
  · next present =>
      exact ⟨state, present, .epsilon, List.mem_of_getElem? (getElem?_labels_epsilon _),
        (Option.some.inj looked).symm⟩
  · exact wellFormed.exists_of_mem_cells (List.mem_of_getElem? looked)

theorem WellFormed.checkedTransitions_eq (wellFormed : automaton.WellFormed)
    (fits : automaton.Fits) (state : Nat) (value : α) :
    automaton.checkedTransitions state value = some (automaton.transitions? state value) := by
  rw [checkedTransitions, transitions?]
  by_cases present : state < automaton.size
  · rw [if_neg (Nat.not_le_of_lt present)]
    cases located : automaton.alphabet.position? value with
    | none =>
        have unknown := (automaton.alphabet.position?_eq_none_iff value).1 located
        rw [if_neg fun known => unknown known.2]
    | some column =>
        have standing := automaton.alphabet.symbols_getElem?_position? located
        have known := List.mem_of_getElem? standing
        have cell := wellFormed.cell?_eq_some fits (getElem?_labels_symbol standing) present
        rw [if_pos ⟨present, known⟩]
        exact congrArg (Option.map some) cell
  · rw [if_pos (Nat.le_of_not_lt present), if_neg fun known => present known.1]

/-! ## Walks over the table -/

theorem map_silent_states (automaton : Automaton α) :
    automaton.states.map State.silent = automaton.ids.map (automaton.targets · .epsilon) := by
  apply List.ext_getElem
  · simp [ids, size]
  · intro state within within'
    rw [List.length_map] at within
    have located := List.getElem?_eq_getElem within
    simp [ids, targets_epsilon_of_getElem? located]

theorem hasEpsilonEdges_eq_any (automaton : Automaton α) :
    automaton.hasEpsilonEdges =
      automaton.ids.any fun state => !(automaton.targets state .epsilon).isEmpty := by
  have walked := congrArg (List.any · fun targets => !targets.isEmpty) automaton.map_silent_states
  simp only [List.any_map] at walked
  exact walked

theorem WellFormed.checkedHasEpsilonEdges_eq (wellFormed : automaton.WellFormed)
    (fits : automaton.Fits) :
    automaton.checkedHasEpsilonEdges = some automaton.hasEpsilonEdges := by
  rw [hasEpsilonEdges_eq_any]
  apply anyM_eq_some_any
  intro state present
  rw [wellFormed.checkedEpsilonTargets_of_lt fits (List.mem_range.1 present)]
  rfl

theorem WellFormed.checkedEdges_eq (wellFormed : automaton.WellFormed) (fits : automaton.Fits) :
    automaton.checkedEdges = some automaton.edges := by
  have columns : automaton.alphabet.labels.map id <+: automaton.alphabet.labels :=
    (List.map_id _).symm ▸ List.prefix_refl _
  have rows : (automaton.ids.mapM fun source =>
      (automaton.checkedRow automaton.alphabet.labels source).map fun row =>
        row.flatMap fun cell => cell.2.members.map fun target => Edge.mk source cell.1 target) =
      some (automaton.ids.map fun source =>
        automaton.alphabet.labels.flatMap fun label =>
          (automaton.targets source label).members.map fun target =>
            Edge.mk source label target) := by
    apply mapM_eq_some_map
    intro source present
    rw [wellFormed.checkedRow_eq fits columns present, Option.map_some, List.flatMap_map]
    rfl
  rw [checkedEdges, rows, edges, List.flatMap_def]
  rfl

omit [DecidableEq α] in
/-- The columns that are shown are the first ones, and possibly all of them. -/
theorem columnLabels_prefix (automaton : Automaton α) :
    automaton.columnLabels.map id <+: automaton.alphabet.labels := by
  rw [List.map_id, columnLabels, Alphabet.labels]
  split
  · exact List.prefix_refl _
  · rw [List.append_nil]
    exact List.prefix_append _ _

theorem WellFormed.checkedGrid_eq [Render α] (wellFormed : automaton.WellFormed)
    (fits : automaton.Fits) :
    automaton.checkedGrid = some automaton.grid := by
  have rows : (automaton.ids.mapM fun state =>
      (automaton.checkedRow automaton.columnLabels state).map fun row =>
        automaton.stateCell state :: row.map fun cell => automaton.targetsCell cell.2) =
      some (automaton.ids.map automaton.stateCells) := by
    apply mapM_eq_some_map
    intro state present
    rw [wellFormed.checkedRow_eq fits automaton.columnLabels_prefix present, Option.map_some,
      List.map_map]
    rfl
  rw [checkedGrid, wellFormed.checkedHasEpsilonEdges_eq fits]
  exact congrArg (Option.bind · fun rows => some (automaton.headerCells :: rows)) rows

end Automaton

end WordAutomata
