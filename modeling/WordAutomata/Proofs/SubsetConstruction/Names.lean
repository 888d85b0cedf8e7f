import WordAutomata.Proofs.Braces
import WordAutomata.Proofs.Names
import WordAutomata.Proofs.SubsetConstruction.Recompiled
import WordAutomata.Proofs.SubsetConstruction.Renumbering
import WordAutomata.Proofs.SubsetConstruction.WellFormed

/-!
# Names of the states of a compiled automaton

A state of a compiled automaton is named after the members of its set, with one
prime for each earlier state whose set is written in the same way.  The empty
set has a name of its own, which no other state can get.  Sets are written
differently as long as no name contains a comma that is followed by a blank, and
then there are no primes.
-/

namespace WordAutomata.Automaton

variable {α : Type}

/-- How many states before a state stand for a set that is written in the same way. -/
def earlierAlike (automaton : Automaton α) (dfa : Dfa α) (state : Nat) : Nat :=
  (List.range state).countP fun earlier =>
    (dfa.subsetOf? earlier).map automaton.subsetName =
      (dfa.subsetOf? state).map automaton.subsetName

/-- No name contains what separates the names of the members of a set. -/
def SeparatorFree (automaton : Automaton α) : Prop :=
  ∀ name ∈ automaton.names, ¬ [',', ' '] <:+: name.toList

/-! ## How sets are written -/

theorem subsetName_empty (automaton : Automaton α) : automaton.subsetName ∅ = deadName :=
  rfl

theorem subsetName_of_ne_empty (automaton : Automaton α) {subset : StateSet}
    (something : subset ≠ ∅) :
    automaton.subsetName subset = automaton.renderStates subset := by
  rw [subsetName, if_neg fun empty => something ((StateSet.isEmpty_iff subset).1 empty)]

/-- What is written between braces is not the name of the empty set, with or without primes. -/
theorem deadName_ne_primed_renderStates (automaton : Automaton α) (subset : StateSet)
    (primes : Nat) :
    primed (automaton.renderStates subset) primes ≠ deadName := by
  intro same
  have characters := congrArg String.toList same
  rw [toList_primed, renderStates, toList_renderBraced] at characters
  simp only [List.cons_append, List.nil_append] at characters
  exact absurd (List.head_eq_of_cons_eq characters) (by decide)

theorem unprimed_subsetName (automaton : Automaton α) (subset : StateSet) :
    Unprimed (automaton.subsetName subset) := by
  rw [subsetName]
  split
  · rw [Unprimed]
    decide
  · exact unprimed_renderBraced _

theorem subsetName_eq_deadName_iff (automaton : Automaton α) (subset : StateSet) :
    automaton.subsetName subset = deadName ↔ subset = ∅ := by
  constructor
  · intro dead
    by_contra something
    rw [automaton.subsetName_of_ne_empty something] at dead
    apply automaton.deadName_ne_primed_renderStates subset 0
    rw [primed_zero, dead]
  · rintro rfl
    rfl

variable [DecidableEq α] {automaton : Automaton α}

/-- Sets are written differently if no name contains the separator. -/
theorem WellFormed.subsetName_inj (wellFormed : automaton.WellFormed)
    (free : automaton.SeparatorFree) {first second : StateSet}
    (within : ∀ state, state ∈ first → state < automaton.size)
    (within' : ∀ state, state ∈ second → state < automaton.size)
    (same : automaton.subsetName first = automaton.subsetName second) :
    first = second := by
  by_cases something : first = ∅
  · rw [something, subsetName_empty] at same
    rw [something, (automaton.subsetName_eq_deadName_iff second).1 same.symm]
  by_cases something' : second = ∅
  · rw [something', subsetName_empty, subsetName_eq_deadName_iff] at same
    exact absurd same something
  rw [automaton.subsetName_of_ne_empty something, automaton.subsetName_of_ne_empty something',
    renderStates, renderStates] at same
  have listed : ∀ {set : StateSet}, (∀ state, state ∈ set → state < automaton.size) →
      ∀ name ∈ set.members.map automaton.nameOf, ¬ [',', ' '] <:+: name.toList := by
    intro set within name member
    rcases List.mem_map.1 member with ⟨state, element, rfl⟩
    exact free _ (nameOf_mem_names (within state element))
  have elements : ∀ {set : StateSet}, set ≠ ∅ → set.members.map automaton.nameOf ≠ [] := by
    intro set something nothing
    have none := List.isEmpty_iff.2 (List.map_eq_nil_iff.1 nothing)
    exact something ((StateSet.isEmpty_iff set).1 none)
  have names := renderBraced_inj (listed within) (listed within') (elements something)
    (elements something') same
  ext state
  rw [← wellFormed.mem_map_nameOf_iff within, names, wellFormed.mem_map_nameOf_iff within']

/-! ## How many primes a state gets -/

omit [DecidableEq α] in
theorem earlierAlike_eq_zero (automaton : Automaton α) {dfa : Dfa α} {state : Nat}
    {subset : StateSet}
    (stands : dfa.subsetOf? state = some subset)
    (alone : ∀ earlier other, dfa.subsetOf? earlier = some other →
      automaton.subsetName other = automaton.subsetName subset → earlier = state) :
    automaton.earlierAlike dfa state = 0 := by
  rw [earlierAlike, List.countP_eq_zero]
  intro earlier before alike
  rw [stands, Option.map_some, decide_eq_true_eq, Option.map_eq_some_iff] at alike
  rcases alike with ⟨other, stands', same⟩
  exact absurd (alone earlier other stands' same) (Nat.ne_of_lt (List.mem_range.1 before))

theorem unprimed_of_mem_subsetNames (automaton : Automaton α) (base : String)
    (member : base ∈ automaton.subsetSearch.nodes.map automaton.subsetName) :
    Unprimed base := by
  rcases List.mem_map.1 member with ⟨subset, _, rfl⟩
  exact automaton.unprimed_subsetName subset

theorem count_take_subsetNames (automaton : Automaton α) {state : Nat} {subset : StateSet}
    (stands : automaton.subsetAutomaton.subsetOf? state = some subset) :
    ((automaton.subsetSearch.nodes.map automaton.subsetName).take state).count
        (automaton.subsetName subset) =
      automaton.earlierAlike automaton.subsetAutomaton state := by
  rw [count_take, earlierAlike]
  apply List.countP_congr
  intro earlier _
  rw [stands, List.getElem?_map, ← subsetOf?_subsetAutomaton, Option.map_some]

/-- A state gets as many primes as there are earlier states that are written in the same way. -/
theorem name?_subsetAutomaton (automaton : Automaton α) {state : Nat} {subset : StateSet}
    (stands : automaton.subsetAutomaton.subsetOf? state = some subset) :
    automaton.subsetAutomaton.automaton.name? state =
      some (primed (automaton.subsetName subset)
        (automaton.earlierAlike automaton.subsetAutomaton state)) := by
  rw [name?, names_subsetAutomaton,
    getElem?_distinctNames automaton.unprimed_of_mem_subsetNames, List.getElem?_map,
    ← subsetOf?_subsetAutomaton, stands, Option.map_some, Option.map_some,
    automaton.count_take_subsetNames stands]

/-- With fewer primes the name is that of an earlier state. -/
theorem exists_earlier_name? (automaton : Automaton α) {state : Nat} {subset : StateSet}
    (stands : automaton.subsetAutomaton.subsetOf? state = some subset) {fewer : Nat}
    (less : fewer < automaton.earlierAlike automaton.subsetAutomaton state) :
    ∃ earlier < state, automaton.subsetAutomaton.automaton.name? earlier =
      some (primed (automaton.subsetName subset) fewer) := by
  rw [← automaton.count_take_subsetNames stands] at less
  have used := (primed_mem_distinctNames_iff (fun base member =>
    automaton.unprimed_of_mem_subsetNames base (List.mem_of_mem_take member))
    (automaton.unprimed_subsetName subset) fewer).2 less
  rw [← take_distinctNames, ← names_subsetAutomaton] at used
  rcases List.mem_iff_getElem?.1 used with ⟨earlier, located⟩
  rw [List.getElem?_take] at located
  split at located
  · next before => exact ⟨earlier, before, located⟩
  · cases located

/-! ## The names of a compiled automaton -/

/-- What it means that a deterministic automaton is named after the sets of its states. -/
structure NamedCanonically (automaton : Automaton α) (dfa : Dfa α) : Prop where
  names_nodup : dfa.automaton.names.Nodup
  /-- A set is written as its members between braces, with a prime for each earlier state alike. -/
  name?_eq : ∀ state subset, dfa.subsetOf? state = some subset → subset ≠ ∅ →
    dfa.automaton.name? state =
      some (primed (automaton.renderStates subset) (automaton.earlierAlike dfa state))
  /-- With fewer primes the name would be in use already. -/
  primes_needed : ∀ state subset, dfa.subsetOf? state = some subset → subset ≠ ∅ →
    ∀ fewer < automaton.earlierAlike dfa state, ∃ earlier < state,
      dfa.automaton.name? earlier = some (primed (automaton.renderStates subset) fewer)
  /-- The empty set has a name that no other set is written as. -/
  written : automaton.subsetName ∅ = deadName ∧ ∀ subset, subset ≠ ∅ →
    automaton.subsetName subset = automaton.renderStates subset ∧
      automaton.renderStates subset ≠ deadName
  dead_name : ∀ state, dfa.subsetOf? state = some ∅ →
    dfa.automaton.name? state = some deadName
  index?_deadName : ∀ state,
    dfa.automaton.index? deadName = some state ↔ dfa.subsetOf? state = some ∅
  index?_deadName_eq_none : (∀ state, dfa.subsetOf? state ≠ some ∅) →
    dfa.automaton.index? deadName = none
  /-- Unless some name contains the separator, there are no primes. -/
  unprimed : automaton.SeparatorFree → ∀ state subset, dfa.subsetOf? state = some subset →
    dfa.automaton.name? state = some (automaton.subsetName subset)
  /-- Unless some name contains the separator, different sets are written differently. -/
  injective : automaton.SeparatorFree → ∀ first second,
    (∀ state, state ∈ first → state < automaton.size) →
    (∀ state, state ∈ second → state < automaton.size) →
    automaton.subsetName first = automaton.subsetName second → first = second

theorem WellFormed.name?_eq_deadName_iff (wellFormed : automaton.WellFormed) (state : Nat) :
    automaton.subsetAutomaton.automaton.name? state = some deadName ↔
      automaton.subsetAutomaton.subsetOf? state = some ∅ := by
  constructor
  · intro named
    have within := (List.getElem?_eq_some_iff.1 named).1
    rw [length_names] at within
    rcases (automaton.exists_subsetOf?_iff state).2 within with ⟨subset, stands⟩
    by_cases empty : subset = ∅
    · rw [stands, empty]
    · rw [automaton.name?_subsetAutomaton stands, automaton.subsetName_of_ne_empty empty,
        Option.some.injEq] at named
      exact absurd named (automaton.deadName_ne_primed_renderStates subset _)
  · intro stands
    have alone := automaton.earlierAlike_eq_zero stands (by
      intro earlier other stands' same
      rw [subsetName_empty, subsetName_eq_deadName_iff] at same
      rw [same] at stands'
      exact wellFormed.subsetOf?_injective stands' stands)
    rw [automaton.name?_subsetAutomaton stands, alone, primed_zero, subsetName_empty]

theorem WellFormed.lt_of_mem_subsetOf? (wellFormed : automaton.WellFormed) {place : Nat}
    {subset : StateSet} (stands : automaton.subsetAutomaton.subsetOf? place = some subset)
    {state : Nat} (member : state ∈ subset) :
    state < automaton.size := by
  have met := (automaton.exists_state_iff_mem_subsets subset).1 ⟨place, stands⟩
  rcases (wellFormed.mem_subsets_iff subset).1 met with ⟨word, _, rfl⟩
  exact wellFormed.active_lt member

/--
Compiling an automaton with an initial state names each state after its set.
The names are pairwise different whatever the names of the automaton are, since
a set that is written like earlier ones gets a prime for each of them.
-/
theorem determinize_namedCanonically (automaton : Automaton α)
    (wellFormed : automaton.WellFormed) (something : automaton.initial ≠ ∅) :
    ∃ dfa, automaton.determinize = .ok dfa ∧ automaton.NamedCanonically dfa := by
  have formed := wellFormed.wellFormed_automaton_subsetAutomaton
  refine ⟨automaton.subsetAutomaton, automaton.determinize_of_initial_ne_empty something, ?_⟩
  refine
    { names_nodup := formed.names_nodup
      name?_eq := ?_
      primes_needed := ?_
      written := ?_
      dead_name := fun state => (wellFormed.name?_eq_deadName_iff state).2
      index?_deadName := ?_
      index?_deadName_eq_none := ?_
      unprimed := ?_
      injective := fun free _ _ within within' => wellFormed.subsetName_inj free within within' }
  · intro state subset stands nonempty
    rw [automaton.name?_subsetAutomaton stands, automaton.subsetName_of_ne_empty nonempty]
  · intro state subset stands nonempty fewer less
    rw [← automaton.subsetName_of_ne_empty nonempty]
    exact automaton.exists_earlier_name? stands less
  · refine ⟨rfl, fun subset nonempty => ⟨automaton.subsetName_of_ne_empty nonempty, ?_⟩⟩
    rw [← primed_zero (automaton.renderStates subset)]
    exact automaton.deadName_ne_primed_renderStates subset 0
  · intro state
    rw [formed.index?_eq_some_iff, wellFormed.name?_eq_deadName_iff]
  · intro absent
    rw [Option.eq_none_iff_forall_ne_some]
    intro state found
    rw [formed.index?_eq_some_iff, wellFormed.name?_eq_deadName_iff] at found
    exact absent state found
  · intro free state subset stands
    have alone := automaton.earlierAlike_eq_zero stands (by
      intro earlier other stands' same
      have equal := wellFormed.subsetName_inj free
        (fun _ member => wellFormed.lt_of_mem_subsetOf? stands' member)
        (fun _ member => wellFormed.lt_of_mem_subsetOf? stands member) same
      exact wellFormed.subsetOf?_injective (equal ▸ stands') stands)
    rw [automaton.name?_subsetAutomaton stands, alone, primed_zero]

/--
The second set is written like the first one, and the third one is empty.
Without the separator in a name, a set is written plainly.
-/
theorem determinize_namedCanonically_ambiguousNames :
    ambiguousNames.WellFormed ∧ ambiguousNames.initial ≠ ∅ ∧
      (∃ dfa, ambiguousNames.determinize = .ok dfa ∧ ambiguousNames.NamedCanonically dfa ∧
        dfa.subsetOf? 1 = some (.singleton 2) ∧
        dfa.automaton.name? 1 = some (primed (ambiguousNames.renderStates (.singleton 2)) 1) ∧
        dfa.automaton.index? deadName = some 2) ∧
      silentCycle.SeparatorFree ∧
      ∃ dfa, silentCycle.determinize = .ok dfa ∧
        dfa.automaton.name? 0 = some (silentCycle.subsetName (.ofList [0, 1])) := by
  have wellFormed : ambiguousNames.WellFormed := by decide
  have something : ambiguousNames.initial ≠ ∅ := by decide
  have free : silentCycle.SeparatorFree := by
    unfold SeparatorFree
    decide
  refine ⟨wellFormed, something, ?_, free, ?_⟩
  · rcases determinize_namedCanonically ambiguousNames wellFormed something with
      ⟨dfa, compiled, named⟩
    have computed : ambiguousNames.determinize.map (fun dfa =>
        (dfa.subsetOf? 1, dfa.subsetOf? 2, ambiguousNames.earlierAlike dfa 1)) =
          .ok (some (.singleton 2), some ∅, 1) := by decide +kernel
    rw [compiled, Except.map, Except.ok.injEq, Prod.mk.injEq, Prod.mk.injEq] at computed
    rcases computed with ⟨second, third, alike⟩
    have primes := named.name?_eq 1 _ second (by decide)
    rw [alike] at primes
    exact ⟨dfa, compiled, named, second, primes, (named.index?_deadName 2).2 third⟩
  · rcases determinize_namedCanonically silentCycle (by decide) (by decide) with
      ⟨dfa, compiled, named⟩
    have computed : silentCycle.determinize.map (·.subsetOf? 0) = .ok (some (.ofList [0, 1])) := by
      decide +kernel
    rw [compiled, Except.map, Except.ok.injEq] at computed
    exact ⟨dfa, compiled, named.unprimed free 0 _ computed⟩

end WordAutomata.Automaton
