import Mathlib.Data.List.Dedup
import WordAutomata.Machine
import WordAutomata.Proofs.Description.FirstFlaw
import WordAutomata.Proofs.Dfa.Deterministic

/-!
# Which flaw keeps a description from being deterministic

What is wrong with the description itself comes first.  Then its different
initial states are counted, and at last the rows are read in order.  A row is
flawed if it has a silent edge, and otherwise if it has edges to several
different states for a symbol; of these symbols the first one of the alphabet
is reported.
-/

namespace WordAutomata

variable {α : Type} [DecidableEq α]

/-- The different states to which the edges of the row with the given label lead. -/
def Row.targetsOn (row : Row α) (label : Label α) : List String :=
  ((row.entries.filter (·.label = label)).flatMap Entry.targets).dedup

namespace Description

/-! ## The rules -/

/-- The flaw is the first one that keeps a row from being deterministic. -/
inductive RowFlaw (description : Description α) (row : Row α) : Malformed α → Prop where
  | silent (leaving : row.targetsOn .epsilon ≠ []) :
      RowFlaw description row (.epsilonTransition row.name)
  | branching {value : α} (reading : row.targetsOn .epsilon = [])
      (first : FirstWith (fun value => 1 < (row.targetsOn (.symbol value)).length)
        description.alphabet value) :
      RowFlaw description row
        (.nondeterministic row.name value (row.targetsOn (.symbol value)).length)

/-- The flaw is the first one that keeps a description from being deterministic. -/
inductive FirstDfaFlaw (description : Description α) : Malformed α → Prop where
  | described {flaw : Malformed α} (first : description.FirstFlaw flaw) :
      FirstDfaFlaw description flaw
  | noInitial (wellFormed : description.WellFormed) (nothing : description.start = []) :
      FirstDfaFlaw description .noInitialState
  | several (wellFormed : description.WellFormed)
      (several : 1 < description.start.dedup.length) :
      FirstDfaFlaw description (.multipleInitialStates description.start.dedup.length)
  | row {row : Row α} {flaw : Malformed α} (wellFormed : description.WellFormed)
      (single : description.start.dedup.length = 1)
      (first : FirstWith (fun row => ∃ flaw, description.RowFlaw row flaw) description.rows row)
      (flawed : description.RowFlaw row flaw) :
      FirstDfaFlaw description flaw

/-- The description is well-formed, and what it describes is deterministic. -/
structure Deterministic (description : Description α) : Prop where
  wellFormed : description.WellFormed
  single : description.start.dedup.length = 1
  reading : ∀ row ∈ description.rows, row.targetsOn .epsilon = []
  length_targetsOn_le : ∀ row ∈ description.rows, ∀ value ∈ description.alphabet,
    (row.targetsOn (.symbol value)).length ≤ 1

variable {description : Description α}

/-! ## Names and numbers -/

omit [DecidableEq α] in
theorem idxOf_eq_of_getElem? (distinct : description.names.Nodup) {state : Nat} {name : String}
    (located : description.names[state]? = some name) :
    description.names.idxOf name = state := by
  rcases List.getElem?_eq_some_iff.1 located with ⟨within, rfl⟩
  exact distinct.idxOf_getElem state within

omit [DecidableEq α] in
/-- As many states are referred to as different names. -/
theorem size_statesNamed (distinct : description.names.Nodup) {referred : List String}
    (declared : ∀ name ∈ referred, name ∈ description.names) :
    (description.statesNamed referred).size = referred.dedup.length := by
  have numbers : (description.statesNamed referred).members.Perm
      (referred.dedup.map description.names.idxOf) := by
    refine (List.perm_ext_iff_of_nodup (StateSet.nodup _) ?_).2 ?_
    · refine (List.nodup_dedup referred).map_on ?_
      intro first standing second _ same
      exact (List.idxOf_inj (declared first (List.mem_dedup.1 standing))).1 same
    · intro state
      change state ∈ description.statesNamed referred ↔ _
      rw [mem_statesNamed_iff distinct, List.mem_map]
      constructor
      · rintro ⟨name, standing, located⟩
        exact ⟨name, List.mem_dedup.2 standing, idxOf_eq_of_getElem? distinct located⟩
      · rintro ⟨name, standing, rfl⟩
        have standing := List.mem_dedup.1 standing
        exact ⟨name, standing, List.getElem?_idxOf (declared name standing)⟩
  rw [StateSet.size, numbers.length_eq, List.length_map]

omit [DecidableEq α] in
/-- The states are numbered in the order of their rows. -/
theorem map_idxOf_rows (distinct : description.names.Nodup) :
    (description.rows.map fun row => description.names.idxOf row.name) =
      List.range description.rows.length := by
  have numbers : description.names.map description.names.idxOf =
      List.range description.names.length := by
    apply List.ext_getElem
    · simp
    · intro state within _
      simp [distinct.idxOf_getElem]
  rw [names, List.length_map, List.map_map] at numbers
  exact numbers

omit [DecidableEq α] in
theorem getElem?_rows_idxOf (distinct : description.names.Nodup) {row : Row α}
    (listed : row ∈ description.rows) :
    description.rows[description.names.idxOf row.name]? = some row := by
  rcases List.mem_iff_getElem?.1 listed with ⟨state, located⟩
  have named : description.names[state]? = some row.name := by
    rw [names, List.getElem?_map, located, Option.map_some]
  rwa [idxOf_eq_of_getElem? distinct named]

/-- Each edge of a row leads to one state for each name that it mentions. -/
theorem WellFormed.size_targets (wellFormed : description.WellFormed) {alphabet : Alphabet α}
    {row : Row α} (listed : row ∈ description.rows) {label : Label α}
    (labelled : label ∈ alphabet.labels) :
    ((description.automatonOver alphabet).targets
        (description.names.idxOf row.name) label).size =
      (row.targetsOn label).length := by
  have located := getElem?_rows_idxOf wellFormed.names_nodup listed
  have within : description.names.idxOf row.name < description.names.length :=
    List.idxOf_lt_length_iff.2 (List.mem_map_of_mem listed)
  rw [automatonOver, Automaton.targets_tabulate, if_pos ⟨within, labelled⟩, rowTargets, located]
  apply size_statesNamed wellFormed.names_nodup
  intro name mentioned
  rcases List.mem_flatMap.1 mentioned with ⟨entry, kept, standing⟩
  exact wellFormed.targets_declared row listed entry (List.mem_of_mem_filter kept) name standing

/-! ## The check for determinism -/

theorem head?_branchings_eq_some_iff (automaton : Automaton α) (state : Nat)
    (flaw : Malformed α) :
    (Dfa.branchings automaton state).head? = some flaw ↔
      ∃ value, FirstWith (fun value => 1 < (automaton.targets state (.symbol value)).size)
          automaton.alphabet.symbols value ∧
        .nondeterministic (automaton.nameOf state) value
          (automaton.targets state (.symbol value)).size = flaw := by
  rw [Dfa.branchings, List.head?_filterMap, findSome?_eq_some_iff_firstWith
    (fun value flaw => 1 < (automaton.targets state (.symbol value)).size ∧
      .nondeterministic (automaton.nameOf state) value
        (automaton.targets state (.symbol value)).size = flaw)]
  · simp only [exists_and_left, exists_eq', and_true]
    constructor
    · rintro ⟨value, first, _, same⟩
      exact ⟨value, first, same⟩
    · rintro ⟨value, first, same⟩
      exact ⟨value, first, first.holds, same⟩
  · intro value _ flaw
    simp

theorem WellFormed.head?_flawsAt_eq_some_iff (wellFormed : description.WellFormed)
    {alphabet : Alphabet α} (symbols : alphabet.symbols = description.alphabet) {row : Row α}
    (listed : row ∈ description.rows) (flaw : Malformed α) :
    (Dfa.flawsAt (description.automatonOver alphabet)
        (description.names.idxOf row.name)).head? = some flaw ↔
      description.RowFlaw row flaw := by
  have located := getElem?_rows_idxOf wellFormed.names_nodup listed
  have named : (description.automatonOver alphabet).nameOf
      (description.names.idxOf row.name) = row.name := by
    rw [Automaton.nameOf, name?_automatonOver, names, List.getElem?_map, ← names, located]
    rfl
  have silent := wellFormed.size_targets listed ((alphabet.mem_labels .epsilon).2 (by simp))
  have reading : ∀ value ∈ alphabet.symbols,
      ((description.automatonOver alphabet).targets (description.names.idxOf row.name)
        (.symbol value)).size = (row.targetsOn (.symbol value)).length := by
    intro value known
    exact wellFormed.size_targets listed ((alphabet.mem_labels _).2 (by simpa using known))
  have branching : ∀ value, FirstWith (fun value =>
      1 < ((description.automatonOver alphabet).targets (description.names.idxOf row.name)
        (.symbol value)).size) alphabet.symbols value ↔
      FirstWith (fun value => 1 < (row.targetsOn (.symbol value)).length)
        description.alphabet value := by
    intro value
    rw [← symbols]
    exact firstWith_congr (fun value known => by rw [reading value known]) value
  have empty : ((description.automatonOver alphabet).targets
      (description.names.idxOf row.name) .epsilon).isEmpty = true ↔
        row.targetsOn .epsilon = [] := by
    rw [← List.length_eq_zero_iff, ← silent, StateSet.size, List.length_eq_zero_iff,
      StateSet.isEmpty, List.isEmpty_iff]
  rw [Dfa.flawsAt]
  by_cases leaving : row.targetsOn .epsilon = []
  · rw [if_pos (empty.2 leaving), head?_branchings_eq_some_iff]
    constructor
    · rintro ⟨value, first, rfl⟩
      rw [named, reading value first.mem]
      exact .branching leaving ((branching value).1 first)
    · rintro (leaving' | ⟨_, first⟩)
      · exact absurd leaving leaving'
      · have first := (branching _).2 first
        exact ⟨_, first, by rw [named, reading _ first.mem]⟩
  · rw [if_neg (mt empty.1 leaving), List.head?_cons, Option.some.injEq, named]
    constructor
    · rintro rfl
      exact .silent leaving
    · rintro (_ | ⟨reading, _⟩)
      · rfl
      · exact absurd reading leaving

theorem ofAutomaton_eq_error_iff (automaton : Automaton α) (flaw : Malformed α) :
    Dfa.ofAutomaton automaton = .error flaw ↔
      automaton.initial.size = 0 ∧ .noInitialState = flaw ∨
        1 < automaton.initial.size ∧
          .multipleInitialStates automaton.initial.size = flaw ∨
        automaton.initial.size = 1 ∧
          (automaton.ids.flatMap (Dfa.flawsAt automaton)).head? = some flaw := by
  rw [Dfa.ofAutomaton, StateSet.size]
  rcases automaton.initial.members with _ | ⟨first, _ | ⟨second, others⟩⟩
  · simp
  · cases automaton.ids.flatMap (Dfa.flawsAt automaton) <;> simp
  · simp

/-- The check for determinism reports the first flaw of the first row that has one. -/
theorem WellFormed.head?_flatMap_flawsAt_eq_some_iff (wellFormed : description.WellFormed)
    {alphabet : Alphabet α} (symbols : alphabet.symbols = description.alphabet)
    (flaw : Malformed α) :
    ((description.automatonOver alphabet).ids.flatMap
        (Dfa.flawsAt (description.automatonOver alphabet))).head? = some flaw ↔
      ∃ row, FirstWith (fun row => ∃ flaw, description.RowFlaw row flaw) description.rows row ∧
        description.RowFlaw row flaw := by
  have ids : (description.automatonOver alphabet).ids =
      description.rows.map fun row => description.names.idxOf row.name := by
    rw [map_idxOf_rows wellFormed.names_nodup, Automaton.ids,
      (wellFormed.describes_automatonOver symbols).size_eq]
  rw [ids, List.flatMap_map, List.head?_flatMap]
  exact findSome?_eq_some_iff_firstWith description.RowFlaw (fun row listed flaw =>
    wellFormed.head?_flawsAt_eq_some_iff symbols listed flaw) flaw

/-! ## The first flaw of a description of a deterministic automaton -/

theorem WellFormed.size_initial_automatonOver (wellFormed : description.WellFormed)
    (alphabet : Alphabet α) :
    (description.automatonOver alphabet).initial.size = description.start.dedup.length :=
  size_statesNamed wellFormed.names_nodup wellFormed.start_declared

theorem WellFormed.not_firstFlaw (wellFormed : description.WellFormed) (flaw : Malformed α) :
    ¬ description.FirstFlaw flaw := by
  intro first
  rcases wellFormed.exists_resolve with ⟨automaton, resolved⟩
  rw [(description.resolve_eq_error_iff flaw).2 first] at resolved
  cases resolved

/-- Resolving to a deterministic automaton fails with a flaw exactly if the rules name it. -/
theorem resolveDfa_eq_error_iff (description : Description α) (flaw : Malformed α) :
    description.resolveDfa = .error flaw ↔ description.FirstDfaFlaw flaw := by
  rw [resolveDfa]
  cases resolved : description.resolve with
  | error other =>
      have first := (description.resolve_eq_error_iff other).1 resolved
      simp only [Except.error.injEq]
      constructor
      · rintro rfl
        exact .described first
      · rintro (first' | ⟨wellFormed, _⟩ | ⟨wellFormed, _⟩ | ⟨wellFormed, _⟩)
        · rw [(description.resolve_eq_error_iff flaw).2 first', Except.error.injEq] at resolved
          exact resolved.symm
        all_goals exact absurd first (wellFormed.not_firstFlaw other)
  | ok automaton =>
      rcases (description.resolve_eq_ok_iff automaton).1 resolved with
        ⟨wellFormed, alphabet, symbols, rfl⟩
      simp only [ofAutomaton_eq_error_iff, wellFormed.size_initial_automatonOver,
        wellFormed.head?_flatMap_flawsAt_eq_some_iff symbols, List.length_eq_zero_iff,
        List.dedup_eq_nil]
      constructor
      · rintro (⟨nothing, rfl⟩ | ⟨several, rfl⟩ | ⟨single, row, first, flawed⟩)
        · exact .noInitial wellFormed nothing
        · exact .several wellFormed several
        · exact .row wellFormed single first flawed
      · rintro (first | ⟨_, nothing⟩ | ⟨_, several⟩ | ⟨_, single, first, flawed⟩)
        · exact absurd first (wellFormed.not_firstFlaw flaw)
        · exact Or.inl ⟨nothing, rfl⟩
        · exact Or.inr (Or.inl ⟨several, rfl⟩)
        · exact Or.inr (Or.inr ⟨single, _, first, flawed⟩)

/-- Nothing keeps a description from being deterministic exactly if it is. -/
theorem deterministic_iff_not_firstDfaFlaw (description : Description α) :
    description.Deterministic ↔ ∀ flaw, ¬ description.FirstDfaFlaw flaw := by
  constructor
  · rintro deterministic flaw (first | ⟨_, nothing⟩ | ⟨_, several⟩ | ⟨_, _, first, flawed⟩)
    · exact deterministic.wellFormed.not_firstFlaw flaw first
    · have single := deterministic.single
      rw [nothing] at single
      cases single
    · rw [deterministic.single] at several
      exact absurd several (Nat.lt_irrefl 1)
    · rcases flawed with leaving | ⟨_, branching⟩
      · exact leaving (deterministic.reading _ first.mem)
      · exact absurd branching.holds
          (Nat.not_lt.2 (deterministic.length_targetsOn_le _ first.mem _ branching.mem))
  · intro flawless
    have wellFormed : description.WellFormed := by
      rcases resolved : description.resolve with flaw | automaton
      · exact absurd (.described ((description.resolve_eq_error_iff flaw).1 resolved))
          (flawless flaw)
      · exact ((description.resolve_eq_ok_iff automaton).1 resolved).1
    have single : description.start.dedup.length = 1 := by
      rcases Nat.lt_trichotomy description.start.dedup.length 1 with none | single | several
      · rw [Nat.lt_one_iff, List.length_eq_zero_iff, List.dedup_eq_nil] at none
        exact absurd (.noInitial wellFormed none) (flawless _)
      · exact single
      · exact absurd (.several wellFormed several) (flawless _)
    -- The first flawed row would be reported.
    have rows : ∀ row ∈ description.rows, ∀ flaw, ¬ description.RowFlaw row flaw := by
      intro row listed flaw flawed
      rcases exists_firstWith (fun row => ∃ flaw, description.RowFlaw row flaw)
        listed ⟨flaw, flawed⟩ with ⟨row, first⟩
      rcases first.holds with ⟨flaw, flawed⟩
      exact flawless flaw (.row wellFormed single first flawed)
    have reading : ∀ row ∈ description.rows, row.targetsOn .epsilon = [] :=
      fun row listed => by_contra fun leaving => rows row listed _ (.silent leaving)
    refine ⟨wellFormed, single, reading, ?_⟩
    intro row listed value known
    by_contra several
    rcases exists_firstWith (fun value => 1 < (row.targetsOn (.symbol value)).length)
      known (Nat.lt_of_not_le several) with ⟨value, first⟩
    exact rows row listed _ (.branching (reading row listed) first)

/--
A description that does not resolve is refused with the flaw that the rules
name, and so is one that does not resolve to a deterministic automaton.  All
others resolve.
-/
theorem first_flaw_is_reported (description : Description α) :
    (∀ flaw, description.resolve = .error flaw ↔ description.FirstFlaw flaw) ∧
      ((∃ automaton, description.resolve = .ok automaton) ↔ description.WellFormed) ∧
      (∀ flaw, description.resolveDfa = .error flaw ↔ description.FirstDfaFlaw flaw) ∧
      ((∃ dfa, description.resolveDfa = .ok dfa) ↔ description.Deterministic) := by
  refine ⟨description.resolve_eq_error_iff, description.exists_resolve_iff,
    description.resolveDfa_eq_error_iff, ?_⟩
  rw [deterministic_iff_not_firstDfaFlaw]
  simp only [← resolveDfa_eq_error_iff]
  cases description.resolveDfa <;> simp

/-- The unknown label is reported before its target, and before the two initial states. -/
example : Description.resolveDfa
    { alphabet := ['a']
      start := ["p", "q"]
      rows := [⟨"p", [⟨.symbol 'b', ["r"]⟩]⟩, ⟨"q", []⟩] } =
    .error (.unknownSymbol "p" 'b') :=
  rfl

end Description

end WordAutomata
