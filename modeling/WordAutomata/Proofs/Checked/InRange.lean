import WordAutomata.Proofs.Checked.Compiled
import WordAutomata.Proofs.Construction

/-!
# No access is out of range

The walks through deterministic automata look up the successors of the states
that they come to, or ask for successors with a guard.  With all look-ups
checked they never fail.  Together with the look-ups, closures, runs and the
subset construction this shows for every machine that can be built that an
access fails only if it is given the number of a state that does not exist.

Not every such number is refused.  If the place of its cell wraps around to a
place in the table then the look-up finds what stands there.
-/

namespace WordAutomata

namespace Automaton

variable {α : Type} [DecidableEq α]

omit [DecidableEq α] in
/-- The cells of a tabulated automaton are those that it was tabulated from. -/
theorem cells_tabulate (alphabet : Alphabet α) (names : List String)
    (targets : Nat → Label α → StateSet) (initial accepting : StateSet) :
    (tabulate alphabet names targets initial accepting).cells =
      (List.range names.length).flatMap fun state =>
        (alphabet.symbols.map fun value => targets state (.symbol value)) ++
          [targets state .epsilon] := by
  have places : names.zipIdx.map Prod.snd = List.range names.length := by
    rw [List.zipIdx_map_snd, List.range_eq_range']
  rw [cells, tabulate, List.flatMap_map, ← places, List.flatMap_map]

omit [DecidableEq α] in
theorem symbols_prefix (alphabet : Alphabet α) :
    alphabet.symbols.map .symbol <+: alphabet.labels :=
  List.prefix_append _ _

end Automaton

namespace Dfa

variable {α : Type} [DecidableEq α]

/-! ## Walks through deterministic automata -/

def checkedIsTotal (dfa : Dfa α) : Option Bool :=
  dfa.automaton.ids.allM fun state =>
    dfa.automaton.alphabet.symbols.zipIdx.allM fun cell =>
      (dfa.automaton.cell? state cell.2).map fun targets => targets.least?.isSome

/-- The table of the automaton after it was totalized. -/
def checkedTotalizedCells (dfa : Dfa α) : Option (List StateSet) := do
  if ← dfa.checkedIsTotal then return dfa.automaton.cells
  let sink := dfa.automaton.size
  let rows ← dfa.automaton.ids.mapM fun state =>
    (dfa.automaton.checkedRow dfa.automaton.alphabet.symbols state).map fun row =>
      (row.map fun cell => StateSet.singleton (cell.2.least?.getD sink)) ++ [∅]
  return rows.flatten ++ ((dfa.automaton.alphabet.symbols.map fun _ => .singleton sink) ++ [∅])

def checkedEdgesFrom (dfa : Dfa α) (state : Nat) : Option (List (α × Nat)) :=
  (dfa.automaton.checkedRow dfa.automaton.alphabet.symbols state).map fun row =>
    row.filterMap fun cell => cell.2.least?.map fun target => (cell.1, target)

def checkedReachableStates (dfa : Dfa α) : Option StateSet :=
  (dfa.graph.checkedExplore dfa.checkedEdgesFrom (fun _ => false) dfa.automaton.size
    [dfa.initial]).map fun search => .ofList search.nodes

/-- Where a symbol leads from a state or from nowhere, by a guarded look-up. -/
def checkedSuccessor (dfa : Dfa α) (place : Option Nat) (value : α) : Option (Option Nat) :=
  match place with
  | none => some none
  | some state =>
      (dfa.automaton.checkedTransitions state value).map (·.bind StateSet.least?)

def checkedPairEdges (left right : Dfa α) (pair : Option Nat × Option Nat) :
    Option (List (α × Option Nat × Option Nat)) :=
  left.automaton.alphabet.symbols.mapM fun value => do
    let first ← left.checkedSuccessor pair.1 value
    let second ← right.checkedSuccessor pair.2 value
    return (value, first, second)

/-- The least word that tells the automata apart; the outer option is for failing accesses. -/
def checkedDistinguishingWord (left right : Dfa α) : Option (Option (List α)) :=
  ((pairGraph left right).checkedExplore (checkedPairEdges left right)
    (fun pair => left.acceptsAt pair.1 != right.acceptsAt pair.2)
    ((left.automaton.size + 1) * (right.automaton.size + 1))
    [(some left.initial, some right.initial)]).map fun search =>
      search.queue.head?.map Visit.word

variable {dfa : Dfa α}

theorem WellFormed.checkedIsTotal_eq (wellFormed : dfa.WellFormed) (fits : dfa.automaton.Fits) :
    dfa.checkedIsTotal = some dfa.isTotal := by
  apply allM_eq_some_all
  intro state present
  rw [← List.zipIdx_map_fst 0 dfa.automaton.alphabet.symbols, List.all_map, List.zipIdx_map_fst]
  apply allM_eq_some_all
  intro cell listed
  rw [wellFormed.automaton.cell?_eq_some_of_prefix fits
    (Automaton.symbols_prefix dfa.automaton.alphabet) listed present]
  rfl

theorem WellFormed.checkedTotalizedCells_eq (wellFormed : dfa.WellFormed)
    (fits : dfa.automaton.Fits) :
    dfa.checkedTotalizedCells = some dfa.totalized.automaton.cells := by
  rw [checkedTotalizedCells, wellFormed.checkedIsTotal_eq fits, totalized]
  cases dfa.isTotal with
  | true => rfl
  | false =>
      have rows : (dfa.automaton.ids.mapM fun state =>
          (dfa.automaton.checkedRow dfa.automaton.alphabet.symbols state).map fun row =>
            (row.map fun cell =>
              StateSet.singleton (cell.2.least?.getD dfa.automaton.size)) ++ [∅]) =
          some (dfa.automaton.ids.map fun state =>
            (dfa.automaton.alphabet.symbols.map fun value =>
              StateSet.singleton ((dfa.successor? state value).getD dfa.automaton.size)) ++
                [∅]) := by
        apply mapM_eq_some_map
        intro state present
        rw [wellFormed.automaton.checkedRow_eq fits
          (Automaton.symbols_prefix dfa.automaton.alphabet) present, Option.map_some, List.map_map]
        rfl
      have lost : ∀ value, (dfa.successor? dfa.automaton.size value).getD dfa.automaton.size =
          dfa.automaton.size := by
        intro value
        rw [dfa.successor?_eq_none_of_size_le value (Nat.le_refl _)]
        rfl
      rw [if_neg Bool.false_ne_true, withSink, Automaton.cells_tabulate, List.length_append,
        List.length_singleton, Automaton.length_names, List.range_succ, List.flatMap_append,
        List.flatMap_singleton, List.flatMap_def]
      simp only [lost]
      exact congrArg (Option.bind · fun rows => some (rows.flatten ++ _)) rows

theorem WellFormed.checkedEdgesFrom_eq (wellFormed : dfa.WellFormed) (fits : dfa.automaton.Fits)
    {state : Nat} (present : state < dfa.automaton.size) :
    dfa.checkedEdgesFrom state = some (dfa.graph.edges state) := by
  rw [checkedEdgesFrom, wellFormed.automaton.checkedRow_eq fits
    (Automaton.symbols_prefix dfa.automaton.alphabet) (List.mem_range.2 present), Option.map_some,
    List.filterMap_map]
  rfl

theorem WellFormed.checkedReachableStates_eq (wellFormed : dfa.WellFormed)
    (fits : dfa.automaton.Fits) :
    dfa.checkedReachableStates = some dfa.reachableStates := by
  have lookups : Search.Safe dfa.graph dfa.checkedEdgesFrom (· < dfa.automaton.size) :=
    { look_eq := fun _ present => wellFormed.checkedEdgesFrom_eq fits present
      edges_safe := by
        intro state _ edge followed
        rcases List.mem_filterMap.1 followed with ⟨value, _, found⟩
        rcases Option.map_eq_some_iff.1 found with ⟨target, leads, rfl⟩
        exact wellFormed.successor?_lt leads }
  rw [checkedReachableStates,
    lookups.checkedExplore_eq _ _ (List.forall_mem_singleton.2 wellFormed.initial_lt)]
  rfl

theorem WellFormed.checkedSuccessor_eq (wellFormed : dfa.WellFormed) (fits : dfa.automaton.Fits)
    (place : Option Nat) (value : α) :
    dfa.checkedSuccessor place value = some (place.bind (dfa.successor? · value)) := by
  cases place with
  | none => rfl
  | some state =>
      rw [checkedSuccessor, wellFormed.automaton.checkedTransitions_eq fits, Option.map_some,
        Option.bind_some, Automaton.transitions?]
      split
      · rfl
      · next unknown =>
          have nowhere : dfa.successor? state value = none := by
            by_cases present : state < dfa.automaton.size
            · exact dfa.successor?_eq_none_of_not_mem state fun known => unknown ⟨present, known⟩
            · exact dfa.successor?_eq_none_of_size_le value (Nat.le_of_not_lt present)
          rw [nowhere]
          rfl

theorem checkedDistinguishingWord_eq {left right : Dfa α} (leftWellFormed : left.WellFormed)
    (rightWellFormed : right.WellFormed) (leftFits : left.automaton.Fits)
    (rightFits : right.automaton.Fits) :
    checkedDistinguishingWord left right = some (distinguishingWord? left right) := by
  have lookups : Search.Safe (pairGraph left right) (checkedPairEdges left right) fun _ => True :=
    { look_eq := by
        intro pair _
        apply mapM_eq_some_map
        intro value _
        rw [leftWellFormed.checkedSuccessor_eq leftFits,
          rightWellFormed.checkedSuccessor_eq rightFits]
        rfl
      edges_safe := fun _ _ _ _ => trivial }
  rw [checkedDistinguishingWord, lookups.checkedExplore_eq _ _ fun _ _ => trivial]
  rfl

end Dfa

variable {α : Type} [DecidableEq α]

/-! ## All accesses -/

/--
The accesses to the table of an automaton.  Those that it makes by itself never
fail.  A look-up by a number that is given fails if the number has no state and
its place does not wrap around; if its place wraps around then the place decides.
-/
structure Automaton.InRange (automaton : Automaton α) : Prop where
  closure_eq : ∀ states, automaton.checkedClosure states = automaton.closure? states
  closure_eq_none_iff : ∀ states, (∀ state, state ∈ states → automaton.Addressable state) →
    (automaton.checkedClosure states = none ↔
      ∃ state, state ∈ states ∧ automaton.size ≤ state)
  closure_fails_iff : ∀ states, automaton.checkedClosure states = none ↔
    ∃ state, state ∈ states ∧ automaton.cells.length ≤
      automaton.cellPlace state automaton.alphabet.size % UInt64.size
  closure_lt : ∀ states closed, (∀ state, state ∈ states → automaton.Addressable state) →
    automaton.checkedClosure states = some closed →
      ∀ state, state ∈ closed → state < automaton.size
  closureOf_eq : ∀ state, automaton.checkedClosureOf state = automaton.closureOf? state
  closureOf_eq_none_iff : ∀ state, automaton.Addressable state →
    (automaton.checkedClosureOf state = none ↔ automaton.size ≤ state)
  epsilonTargets_eq : ∀ state,
    automaton.checkedEpsilonTargets state = automaton.epsilonTargets? state
  epsilonTargets_eq_none_iff : ∀ state, automaton.Addressable state →
    (automaton.checkedEpsilonTargets state = none ↔ automaton.size ≤ state)
  epsilonTargets_fails_iff : ∀ state, automaton.checkedEpsilonTargets state = none ↔
    automaton.cells.length ≤ automaton.cellPlace state automaton.alphabet.size % UInt64.size
  /-- Without wrapping, what is found belongs to the state, and not to another one. -/
  eq_targets_epsilon : ∀ state targets, automaton.Addressable state →
    automaton.checkedEpsilonTargets state = some targets →
      targets = automaton.targets state .epsilon
  /-- Even with wrapping, what is found is a cell of some state. -/
  exists_of_epsilonTargets : ∀ state targets,
    automaton.checkedEpsilonTargets state = some targets →
      ∃ other < automaton.size, ∃ label ∈ automaton.alphabet.labels,
        targets = automaton.targets other label
  /-- All states that exist have places without wrapping. -/
  addressable : ∀ state < automaton.size, automaton.Addressable state
  transitions_eq : ∀ state value,
    automaton.checkedTransitions state value = some (automaton.transitions? state value)
  transitions_eq_none_iff : ∀ state value, automaton.transitions? state value = none ↔
    automaton.size ≤ state ∨ value ∉ automaton.alphabet.symbols
  edges_eq : automaton.checkedEdges = some automaton.edges
  grid_eq : ∀ [Render α], automaton.checkedGrid = some automaton.grid
  /-- The construction comes to its end, with the table and the sets of the compiled automaton. -/
  filling_eq : ∀ dfa, automaton.determinize = .ok dfa →
    (∀ bound, ∃ current, automaton.checkedFilling bound = some current) ∧
      ∃ final, automaton.checkedFilling (Nat.pow 2 automaton.size) = some final ∧
        final.queue = [] ∧ dfa.automaton.cells = final.table ∧ dfa.subsets = some final.subsets
  start_eq : automaton.checkedClosure automaton.initial = some automaton.engine.start
  advance_eq : ∀ session words, automaton.engine.History session words →
    ∀ runner ∈ session, ∀ word,
      Engine.checkedAdvance automaton.checkedRead runner word =
        some (automaton.engine.advance runner word)

/-- No access that a deterministic automaton makes by itself fails. -/
structure Dfa.InRange (dfa : Dfa α) : Prop where
  advance_eq : ∀ session words, dfa.engine.History session words →
    ∀ runner ∈ session, ∀ word,
      Engine.checkedAdvance dfa.checkedRead runner word = some (dfa.engine.advance runner word)
  totalizedCells_eq : dfa.checkedTotalizedCells = some dfa.totalized.automaton.cells
  reachableStates_eq : dfa.checkedReachableStates = some dfa.reachableStates

theorem Automaton.WellFormed.filling_of_determinize {automaton : Automaton α}
    (wellFormed : automaton.WellFormed) (fits : automaton.Fits) {dfa : Dfa α}
    (compiled : automaton.determinize = .ok dfa) :
    (∀ bound, ∃ current, automaton.checkedFilling bound = some current) ∧
      ∃ final, automaton.checkedFilling (Nat.pow 2 automaton.size) = some final ∧
        final.queue = [] ∧ dfa.automaton.cells = final.table ∧
          dfa.subsets = some final.subsets := by
  have something : automaton.initial ≠ ∅ := by
    intro nothing
    rw [automaton.determinize_of_initial_eq_empty nothing] at compiled
    cases compiled
  rw [automaton.determinize_of_initial_ne_empty something, Except.ok.injEq] at compiled
  rcases wellFormed.fillsWithinPowerset something with ⟨final, fills, _⟩
  simp only [wellFormed.checkedFilling_eq fits, ← compiled]
  constructor
  · intro bound
    rcases fills.in_range bound with ⟨current, filled, _⟩
    exact ⟨current, filled⟩
  · exact ⟨final, fills.fill_eq _ (Nat.le_trans fills.length_popped_le (Nat.sub_le _ _)),
      fills.queue_eq_nil, fills.table_eq, fills.subsets_eq⟩

theorem Automaton.WellFormed.inRange {automaton : Automaton α} (wellFormed : automaton.WellFormed)
    (fits : automaton.Fits) :
    automaton.InRange where
  closure_eq := wellFormed.checkedClosure_eq fits
  closure_eq_none_iff := wellFormed.checkedClosure_eq_none_iff_of_addressable fits
  closure_fails_iff := by
    intro states
    simp only [wellFormed.checkedClosure_eq_none_iff fits, checkedEpsilonTargets,
      cell?_eq_none_iff]
  closure_lt := by
    intro states closed addressable found state member
    have present : ∀ origin, origin ∈ states → origin < automaton.size := by
      by_contra missing
      push Not at missing
      rw [(wellFormed.checkedClosure_eq_none_iff_of_addressable fits states addressable).2
        missing] at found
      cases found
    rw [wellFormed.checkedClosure_of_lt fits present, Option.some_inj] at found
    rw [← found] at member
    exact wellFormed.closure_lt present member
  closureOf_eq := fun state => wellFormed.checkedClosure_eq fits (.singleton state)
  closureOf_eq_none_iff := by
    intro state addressable
    rw [checkedClosureOf, wellFormed.checkedClosure_eq_none_iff_of_addressable fits]
    · simp
    · intro member listed
      rwa [(StateSet.mem_singleton _ _).1 listed]
  epsilonTargets_eq := wellFormed.checkedEpsilonTargets_eq fits
  epsilonTargets_eq_none_iff := fun _ => wellFormed.checkedEpsilonTargets_eq_none_iff
  epsilonTargets_fails_iff := fun state => automaton.cell?_eq_none_iff state _
  eq_targets_epsilon := by
    intro state targets addressable found
    have present : state < automaton.size := by
      by_contra missing
      rw [(wellFormed.checkedEpsilonTargets_eq_none_iff addressable).2
        (Nat.le_of_not_lt missing)] at found
      cases found
    rw [wellFormed.checkedEpsilonTargets_of_lt fits present] at found
    exact (Option.some.inj found).symm
  exists_of_epsilonTargets := by
    intro state targets found
    rw [wellFormed.checkedEpsilonTargets_eq fits] at found
    exact wellFormed.exists_of_epsilonTargets? found
  addressable := fun _ => wellFormed.addressable fits
  transitions_eq := wellFormed.checkedTransitions_eq fits
  transitions_eq_none_iff := by
    intro state value
    rw [transitions?, ite_eq_right_iff, ← Nat.not_lt, ← not_and_or]
    simp
  edges_eq := wellFormed.checkedEdges_eq fits
  grid_eq := wellFormed.checkedGrid_eq fits
  filling_eq := fun _ compiled => wellFormed.filling_of_determinize fits compiled
  start_eq := wellFormed.checkedClosure_of_lt fits wellFormed.initial_lt
  advance_eq := by
    intro session words history runner member word
    have lookups := wellFormed.safe_engine fits
    exact (lookups.checkedAdvance_eq runner (lookups.of_history history member) word).1

theorem Dfa.WellFormed.inRange {dfa : Dfa α} (wellFormed : dfa.WellFormed)
    (fits : dfa.automaton.Fits) :
    dfa.InRange where
  advance_eq := by
    intro session words history runner member word
    have lookups := wellFormed.safe_engine fits
    exact (lookups.checkedAdvance_eq runner (lookups.of_history history member) word).1
  totalizedCells_eq := wellFormed.checkedTotalizedCells_eq fits
  reachableStates_eq := wellFormed.checkedReachableStates_eq fits

/--
Of the accesses to a machine that can be built, only those fail that are given
the number of a state that does not exist.
-/
theorem constructible_inRange {machine : Machine α} (constructible : machine.Constructible)
    (fits : machine.automaton.Fits) :
    machine.automaton.InRange ∧
      ∀ dfa, machine = .deterministic dfa → dfa.InRange ∧
        ∀ other, (Machine.deterministic other).Constructible → other.automaton.Fits →
          Dfa.checkedDistinguishingWord dfa other = some (Dfa.distinguishingWord? dfa other) := by
  have wellFormed := constructible.wellFormed
  refine ⟨wellFormed.wellFormed_automaton.inRange fits, ?_⟩
  rintro dfa rfl
  refine ⟨Dfa.WellFormed.inRange wellFormed fits, ?_⟩
  intro other built otherFits
  exact Dfa.checkedDistinguishingWord_eq wellFormed built.wellFormed fits otherFits

/-- The greatest number without wrapping is refused, and the two ways to compare agree. -/
theorem constructible_inRange_undoable :
    (Machine.deterministic Dfa.undoable).Constructible ∧ Dfa.undoable.automaton.Fits ∧
      Dfa.undoable.automaton.InRange ∧ Dfa.undoable.InRange ∧
      Dfa.undoable.automaton.Addressable 6148914691236517204 ∧
      Dfa.undoable.automaton.checkedEpsilonTargets 6148914691236517204 = none ∧
      Dfa.checkedDistinguishingWord Dfa.undoable Dfa.undoable.totalized = some none := by
  have described : Dfa.undoable.automaton.toDescription.resolveDfa = .ok Dfa.undoable := by rfl
  have constructible := Machine.Constructible.resolvedDfa described
  have fits : Dfa.undoable.automaton.Fits := by decide
  have addressable : Dfa.undoable.automaton.Addressable 6148914691236517204 := by decide
  rcases constructible_inRange constructible fits with ⟨inRange, deterministic⟩
  rcases deterministic Dfa.undoable rfl with ⟨inRange', distinguishes⟩
  have compared := distinguishes _ constructible.totalized (by decide)
  have equivalent : Dfa.distinguishingWord? Dfa.undoable Dfa.undoable.totalized = none := by
    decide +kernel
  rw [equivalent] at compared
  exact ⟨constructible, fits, inRange, inRange', addressable,
    (inRange.epsilonTargets_eq_none_iff _ addressable).2 (by decide), compared⟩

/-! ## Look-ups that wrap around -/

theorem nodup_letter : ['a'].Nodup :=
  List.nodup_singleton 'a'

/-- One silent edge, from the first state to the second one. -/
def Automaton.oneSilentEdge : Automaton Char where
  alphabet := ⟨['a'], nodup_letter⟩
  states := [⟨"p", [∅], .singleton 1⟩, ⟨"q", [∅], ∅⟩]
  initial := .singleton 0
  accepting := ∅

/-- A number without a state is looked up in the row of the first state. -/
theorem lookUp_finds_other_row :
    ¬ ∀ machine : Machine Char, machine.Constructible → machine.automaton.Fits →
      ∀ state < UInt64.size,
        (machine.automaton.epsilonTargets? state = none ↔ machine.automaton.size ≤ state) := by
  intro refused
  have described : Automaton.oneSilentEdge.toDescription.resolve =
      .ok Automaton.oneSilentEdge := by rfl
  have missing := (refused _ (.resolved described) (by decide) 9223372036854775808 (by decide)).2
    (by decide)
  have found : Automaton.oneSilentEdge.epsilonTargets? 9223372036854775808 =
      some (.singleton 1) := by rfl
  rw [Machine.automaton, found] at missing
  cases missing

end WordAutomata
