import WordAutomata.Proofs.SubsetConstruction.Alongside
import WordAutomata.Proofs.SubsetConstruction.Subsets

/-!
# The subset construction ends within the powerset

The search for active sets pops each set that is not empty once, and never the
empty set.  So it ends by itself, and before as many expansions as there are
sets of states.  The construction that fills a table goes along with it to this
end: its table is then that of the compiled automaton.
-/

namespace WordAutomata

namespace StateSet

theorem lt_of_mem_below {bound : Nat} {set : StateSet} (member : set ∈ below bound) {state : Nat}
    (element : state ∈ set) :
    state < bound := by
  rcases List.mem_map.1 member with ⟨states, sublist, rfl⟩
  rw [mem_ofList] at element
  exact List.mem_range.1 ((List.mem_sublists.1 sublist).subset element)

end StateSet

namespace Automaton

variable {α : Type} [DecidableEq α] {automaton : Automaton α}

/-! ## The expansions of the search -/

theorem WellFormed.popped_subsetSearch (wellFormed : automaton.WellFormed) :
    automaton.subsetSearch.popped =
      automaton.subsetSearch.nodes.filter fun subset => !subset.isEmpty := by
  rcases wellFormed.exists_invariant_subsetSearch with ⟨finished, invariant, done⟩
  exact invariant.popped_eq_filter done

theorem WellFormed.mem_popped_subsetSearch (wellFormed : automaton.WellFormed)
    (subset : StateSet) :
    subset ∈ automaton.subsetSearch.popped ↔
      subset ∈ automaton.subsetSearch.nodes ∧ subset ≠ ∅ := by
  rw [wellFormed.popped_subsetSearch, List.mem_filter, Bool.not_eq_true', Bool.eq_false_iff,
    Ne, StateSet.isEmpty_iff]

theorem WellFormed.nodup_popped_subsetSearch (wellFormed : automaton.WellFormed) :
    automaton.subsetSearch.popped.Nodup := by
  rw [wellFormed.popped_subsetSearch]
  exact wellFormed.nodup_subsets.filter _

/-- Whatever the bound of the search is, it meets sets of states of the automaton only. -/
theorem WellFormed.nodes_explore_subset (wellFormed : automaton.WellFormed) (bound : Nat) :
    (automaton.subsetGraph.explore (fun _ => false) bound [automaton.start]).nodes ⊆
      StateSet.below automaton.size := by
  rcases (Search.invariant_start automaton.subsetGraph (fun _ => false)
      (List.nodup_singleton automaton.start)).run_induction
      (motive := fun _ _ => True) (fun _ _ _ _ _ _ _ => trivial) trivial bound with
    ⟨finished, invariant, _⟩
  intro subset met
  exact wellFormed.confined_subsetGraph.mem_of_reaches (invariant.reaches met)

/-- There are at most as many active sets as there are sets of states. -/
theorem WellFormed.length_subsets_le (wellFormed : automaton.WellFormed) :
    automaton.subsetSearch.nodes.length ≤ Nat.pow 2 automaton.size := by
  have inside := wellFormed.nodes_explore_subset (Nat.pow 2 automaton.size)
  exact Nat.le_trans (wellFormed.nodup_subsets.subperm inside).length_le
    (Nat.le_of_eq (StateSet.length_below automaton.size))

/-- The empty set is one of the sets of states, but it is not popped. -/
theorem WellFormed.length_popped_subsetSearch_lt (wellFormed : automaton.WellFormed) :
    automaton.subsetSearch.popped.length < Nat.pow 2 automaton.size := by
  have distinct : ((∅ : StateSet) :: automaton.subsetSearch.popped).Nodup := by
    refine List.nodup_cons.2 ⟨?_, wellFormed.nodup_popped_subsetSearch⟩
    intro popped
    exact ((wellFormed.mem_popped_subsetSearch ∅).1 popped).2 rfl
  have inside : (∅ : StateSet) :: automaton.subsetSearch.popped ⊆
      StateSet.below automaton.size := by
    refine List.cons_subset.2 ⟨StateSet.mem_below fun state member =>
      absurd member (StateSet.not_mem_empty state), ?_⟩
    intro subset popped
    exact wellFormed.nodes_explore_subset _ ((wellFormed.mem_popped_subsetSearch subset).1 popped).1
  have bounded := (distinct.subperm inside).length_le
  rw [StateSet.length_below] at bounded
  exact bounded

theorem WellFormed.endsAfter_subsetSearch (wellFormed : automaton.WellFormed) :
    Search.EndsAfter automaton.subsetGraph [automaton.start]
      automaton.subsetSearch.popped.length automaton.subsetSearch := by
  rcases wellFormed.exists_invariant_subsetSearch with ⟨_, _, done⟩
  exact Search.endsAfter_explore done

/-- Each expansion reads every symbol once. -/
theorem WellFormed.length_edges_subsetSearch (wellFormed : automaton.WellFormed) :
    (automaton.subsetSearch.expanded.flatMap Expansion.edges).length =
      automaton.subsetSearch.popped.length * automaton.alphabet.size := by
  rcases wellFormed.exists_invariant_subsetSearch with ⟨finished, invariant, _⟩
  have reads : ∀ expansion ∈ automaton.subsetSearch.expanded,
      expansion.edges.length = automaton.alphabet.size := by
    intro expansion member
    rw [invariant.expansions] at member
    rcases List.mem_map.1 member with ⟨visit, _, rfl⟩
    exact List.length_map _
  rw [List.length_flatMap, List.map_congr_left reads, List.map_const', List.sum_replicate_nat,
    Search.popped, List.length_map]

/-! ## The end of the filling -/

theorem fill?_of_queue_eq_nil (automaton : Automaton α) (bound : Nat) {filling : Filling}
    (done : filling.queue = []) :
    automaton.fill? bound filling = some filling := by
  cases bound with
  | zero => rfl
  | succ bound => rw [fill?, done]

/-- A filling that was cut off can be resumed. -/
theorem fill?_add (automaton : Automaton α) (bound more : Nat) (filling : Filling) :
    automaton.fill? (bound + more) filling =
      (automaton.fill? bound filling).bind (automaton.fill? more) := by
  induction bound generalizing filling with
  | zero => rw [Nat.zero_add, fill?, Option.bind_some]
  | succ bound inductionHypothesis =>
      rw [Nat.succ_add]
      cases queued : filling.queue with
      | nil =>
          rw [automaton.fill?_of_queue_eq_nil _ queued, automaton.fill?_of_queue_eq_nil _ queued,
            Option.bind_some, automaton.fill?_of_queue_eq_nil _ queued]
      | cons source rest =>
          simp only [fill?, queued, Option.bind_assoc]
          exact congrArg (Option.bind _) (funext inductionHypothesis)

variable {filling : Filling}

/-- Either both have something left to expand, or neither has. -/
theorem GoesAlong.queue_eq_nil_iff {search : Search α StateSet}
    (along : GoesAlong automaton search filling) :
    filling.queue = [] ↔ search.queue = [] := by
  have same := along.queued.length_eq
  rw [List.length_map] at same
  rw [← List.length_eq_zero_iff, ← List.length_eq_zero_iff, same]

omit [DecidableEq α] in
theorem map_getElem?_of_forall₂ {subsets : List StateSet} {numbers : List Nat}
    {nodes : List StateSet}
    (stand : List.Forall₂ (fun number node => subsets[number]? = some node) numbers nodes) :
    numbers.map (subsets[·]?) = nodes.map some := by
  induction stand with
  | nil => rfl
  | cons first _ inductionHypothesis =>
      rw [List.map_cons, List.map_cons, first, inductionHypothesis]

/-- The numbers of the popped sets are different, and they are those of the sets with members. -/
theorem GoesAlong.popped_spec (wellFormed : automaton.WellFormed)
    (along : GoesAlong automaton automaton.subsetSearch filling) :
    filling.popped.Nodup ∧ ∀ number, number ∈ filling.popped ↔
      ∃ subset, automaton.subsetSearch.nodes[number]? = some subset ∧ subset ≠ ∅ := by
  have same := map_getElem?_of_forall₂ along.popped
  constructor
  · apply List.Nodup.of_map (automaton.subsetSearch.nodes[·]?)
    rw [same]
    exact wellFormed.nodup_popped_subsetSearch.map (Option.some_injective _)
  · intro number
    constructor
    · intro member
      have listed := List.mem_map_of_mem (f := (automaton.subsetSearch.nodes[·]?)) member
      rw [same] at listed
      rcases List.mem_map.1 listed with ⟨subset, popped, located⟩
      exact ⟨subset, located.symm, ((wellFormed.mem_popped_subsetSearch subset).1 popped).2⟩
    · rintro ⟨subset, located, something⟩
      have popped := (wellFormed.mem_popped_subsetSearch subset).2
        ⟨List.mem_of_getElem? located, something⟩
      have listed := List.mem_map_of_mem (f := some) popped
      rw [← same] at listed
      rcases List.mem_map.1 listed with ⟨other, member, located'⟩
      rwa [wellFormed.subsetOf?_injective located located']

/-- Every cell of a symbol is written in the end. -/
theorem GoesAlong.cell_eq_targets (wellFormed : automaton.WellFormed)
    (along : GoesAlong automaton automaton.subsetSearch filling) {row column : Nat}
    {subset : StateSet} (stands : automaton.subsetAutomaton.subsetOf? row = some subset) {value : α}
    (standing : automaton.alphabet.symbols[column]? = some value) :
    filling.table[automaton.cellPlace row column]? =
      some (automaton.subsetAutomaton.automaton.targets row (.symbol value)) := by
  have narrow := (List.getElem?_eq_some_iff.1 standing).1
  have reason : (row ∈ filling.popped ∧ column < automaton.alphabet.size) ∨
      automaton.subsetSearch.nodes[row]? = some ∅ := by
    by_cases empty : subset = ∅
    · rw [← empty]
      exact Or.inr stands
    · exact Or.inl ⟨((along.popped_spec wellFormed).2 row).2 ⟨subset, stands, empty⟩, narrow⟩
  rcases along.leadsOn row column reason subset value stands standing with
    ⟨target, leads, cell⟩
  rcases wellFormed.exists_targets_subsetAutomaton stands (List.mem_of_getElem? standing) with
    ⟨next, targets, leads'⟩
  rw [cell, targets, wellFormed.subsetOf?_injective leads leads']

/-- The filled table is that of the compiled automaton. -/
theorem GoesAlong.table_eq_cells (wellFormed : automaton.WellFormed)
    (along : GoesAlong automaton automaton.subsetSearch filling) :
    filling.table = automaton.subsetAutomaton.automaton.cells := by
  have formed := wellFormed.wellFormed_automaton_subsetAutomaton
  have length : filling.table.length = automaton.subsetAutomaton.automaton.cells.length := by
    rw [along.length_table, formed.length_cells, size_subsetAutomaton]
    rfl
  apply List.ext_getElem?
  intro place
  by_cases within : place < filling.table.length
  · -- The place is that of some row and some column.
    obtain ⟨row, column, narrow, rfl⟩ : ∃ row column, column ≤ automaton.alphabet.size ∧
        automaton.cellPlace row column = place :=
      ⟨place / (automaton.alphabet.size + 1), place % (automaton.alphabet.size + 1),
        Nat.le_of_lt_succ (Nat.mod_lt _ (Nat.succ_pos _)), Nat.div_add_mod' _ _⟩
    have present : row < automaton.subsetAutomaton.automaton.size := by
      rw [along.length_table] at within
      rw [size_subsetAutomaton]
      by_contra beyond
      have := Nat.mul_le_mul_right (automaton.alphabet.size + 1) (Nat.le_of_not_lt beyond)
      simp only [cellPlace] at within
      omega
    rcases (automaton.exists_subsetOf?_iff row).2 present with ⟨subset, stands⟩
    rcases Nat.lt_or_eq_of_le narrow with reading | rfl
    · have standing := List.getElem?_eq_getElem reading
      rw [along.cell_eq_targets wellFormed stands standing]
      refine (formed.getElem?_cells present ?_).symm
      rw [alphabet_subsetAutomaton, Alphabet.labels,
        List.getElem?_append_left (by rwa [List.length_map]), List.getElem?_map, standing]
      rfl
    · rw [along.silent row (by rwa [← size_subsetAutomaton]),
        ← automaton.targets_epsilon_subsetAutomaton row]
      refine (formed.getElem?_cells present ?_).symm
      simp [Alphabet.labels, alphabet_subsetAutomaton, Alphabet.size]
  · rw [List.getElem?_eq_none (Nat.le_of_not_lt within),
      List.getElem?_eq_none (length ▸ Nat.le_of_not_lt within)]

/-- How the construction that fills a table runs, and what it has built in the end. -/
structure FillsWithinPowerset (automaton : Automaton α) (dfa : Dfa α) (final : Filling) :
    Prop where
  /-- No access is out of range at any time, and all sets are sets of states of the automaton. -/
  in_range : ∀ bound, ∃ current, automaton.fill? bound automaton.firstFilling = some current ∧
    ∀ subset ∈ current.subsets, ∀ state, state ∈ subset → state < automaton.size
  queue_eq_nil : final.queue = []
  /-- Every bound that allows for the popped numbers gives the same. -/
  fill_eq : ∀ bound, final.popped.length ≤ bound →
    automaton.fill? bound automaton.firstFilling = some final
  /-- With a smaller bound something is left to be popped. -/
  queue_ne_nil : ∀ bound current, bound < final.popped.length →
    automaton.fill? bound automaton.firstFilling = some current → current.queue ≠ []
  subsets_eq : dfa.subsets = some final.subsets
  table_eq : dfa.automaton.cells = final.table
  /-- No number is popped twice. -/
  popped_nodup : final.popped.Nodup
  /-- The popped numbers are those of the sets that are not empty. -/
  popped_iff : ∀ number, number ∈ final.popped ↔
    ∃ subset, dfa.subsetOf? number = some subset ∧ subset ≠ ∅
  length_popped : final.popped.length =
    (final.subsets.filter fun subset => !subset.isEmpty).length
  length_popped_le : final.popped.length ≤ Nat.pow 2 automaton.size - 1
  /-- Each popped set is read from once for each symbol. -/
  reads_eq : final.reads =
    (final.subsets.filter fun subset => !subset.isEmpty).length * automaton.alphabet.size
  size_le : dfa.automaton.size ≤ Nat.pow 2 automaton.size

theorem WellFormed.fillsWithinPowerset (wellFormed : automaton.WellFormed)
    (something : automaton.initial ≠ ∅) :
    ∃ final, automaton.FillsWithinPowerset automaton.subsetAutomaton final ∧
      final.popped.map automaton.subsetAutomaton.subsetOf? =
        automaton.subsetSearch.popped.map some := by
  have begun := goesAlong_firstFilling (wellFormed.start_ne_empty something)
  have ends := wellFormed.endsAfter_subsetSearch
  rcases begun.exists_fill? wellFormed automaton.subsetSearch.popped.length with
    ⟨final, filled, along⟩
  -- As many rows are filled as there are expansions, so both come to their end together.
  have whole := ends.explore_eq _ (Nat.le_refl _)
  rw [Graph.explore] at whole
  rw [whole] at along
  have done := along.queue_eq_nil_iff.2 ends.queue_eq_nil
  have count : final.popped.length = automaton.subsetSearch.popped.length :=
    along.popped.length_eq
  have inner : final.popped.length =
      (final.subsets.filter fun subset => !subset.isEmpty).length := by
    rw [count, wellFormed.popped_subsetSearch, along.subsets_eq]
  refine ⟨final,
    { in_range := ?_
      queue_eq_nil := done
      fill_eq := ?_
      queue_ne_nil := ?_
      subsets_eq := congrArg some along.subsets_eq.symm
      table_eq := (along.table_eq_cells wellFormed).symm
      popped_nodup := (along.popped_spec wellFormed).1
      popped_iff := (along.popped_spec wellFormed).2
      length_popped := inner
      length_popped_le := ?_
      reads_eq := by rw [along.reads_eq, inner]
      size_le := ?_ }, map_getElem?_of_forall₂ along.popped⟩
  · intro bound
    rcases begun.exists_fill? wellFormed bound with ⟨current, reached, along'⟩
    refine ⟨current, reached, ?_⟩
    rw [along'.subsets_eq]
    intro subset met state element
    exact StateSet.lt_of_mem_below (wellFormed.nodes_explore_subset bound met) element
  · intro bound enough
    rcases Nat.exists_eq_add_of_le (count ▸ enough) with ⟨more, rfl⟩
    rw [fill?_add, filled]
    exact automaton.fill?_of_queue_eq_nil more done
  · intro bound current early reached
    rcases begun.exists_fill? wellFormed bound with ⟨current', reached', along'⟩
    rw [reached, Option.some.injEq] at reached'
    rw [reached', Ne, along'.queue_eq_nil_iff]
    exact ends.queue_ne_nil bound (count ▸ early)
  · rw [count]
    exact Nat.le_sub_one_of_lt wellFormed.length_popped_subsetSearch_lt
  · rw [size_subsetAutomaton]
    exact wellFormed.length_subsets_le

/--
Compiling an automaton with an initial state ends by itself, since it pops each
set that is met once unless it is empty, and the empty set never.  The search
does so in the same order as the construction that fills a table, which gives
the same table and whose accesses are never out of range.
-/
theorem determinize_ends_within_powerset (automaton : Automaton α)
    (wellFormed : automaton.WellFormed) (something : automaton.initial ≠ ∅) :
    ∃ dfa final, automaton.determinize = .ok dfa ∧
      automaton.FillsWithinPowerset dfa final ∧
      Search.EndsAfter automaton.subsetGraph [automaton.start] final.popped.length
        automaton.subsetSearch ∧
      final.popped.map dfa.subsetOf? = automaton.subsetSearch.popped.map some ∧
      (automaton.subsetSearch.expanded.flatMap Expansion.edges).length = final.reads := by
  rcases wellFormed.fillsWithinPowerset something with ⟨final, fills, popped⟩
  have count : final.popped.length = automaton.subsetSearch.popped.length := by
    simpa using congrArg List.length popped
  refine ⟨_, final, automaton.determinize_of_initial_ne_empty something, fills, ?_, popped, ?_⟩
  · rw [count]
    exact wellFormed.endsAfter_subsetSearch
  · rw [wellFormed.length_edges_subsetSearch, fills.reads_eq, ← fills.length_popped, count]

/-- Two of the three sets are popped, and each of them is read from twice. -/
theorem determinize_ends_within_powerset_silentCycle :
    silentCycle.WellFormed ∧ silentCycle.initial ≠ ∅ ∧
      ∃ dfa final, silentCycle.determinize = .ok dfa ∧
        silentCycle.FillsWithinPowerset dfa final ∧ final.popped = [0, 1] ∧ final.reads = 4 := by
  have wellFormed : silentCycle.WellFormed := by decide
  have something : silentCycle.initial ≠ ∅ := by decide
  rcases determinize_ends_within_powerset silentCycle wellFormed something with
    ⟨dfa, final, compiled, fills, _⟩
  have filled := fills.fill_eq 7 fills.length_popped_le
  have computed : (silentCycle.fill? 7 silentCycle.firstFilling).map
      (fun filling => (filling.popped, filling.reads)) = some ([0, 1], 4) := by decide +kernel
  rw [filled, Option.map_some, Option.some.injEq, Prod.mk.injEq] at computed
  exact ⟨wellFormed, something, dfa, final, compiled, fills, computed⟩

end Automaton

end WordAutomata
