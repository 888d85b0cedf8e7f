import Mathlib.Logic.Relation
import WordAutomata.Automaton.Closure
import WordAutomata.Proofs.Search.Invariant
import WordAutomata.Proofs.WellFormed

/-!
# Closures are reachability by silent edges

The search behind a closure always comes to its end, and what it meets is the
set of the states that some path of silent edges reaches.  Reading a symbol is
one edge with that symbol followed by such a path.
-/

namespace WordAutomata.Automaton

variable {α : Type} [DecidableEq α] {automaton : Automaton α}

/-- A silent edge leads from the first state to the second one. -/
def SilentStep (automaton : Automaton α) (source target : Nat) : Prop :=
  target ∈ automaton.targets source .epsilon

theorem mem_edges_silentGraph (automaton : Automaton α) (state : Nat) (edge : Label α × Nat) :
    edge ∈ automaton.silentGraph.edges state ↔
      edge.1 = .epsilon ∧ automaton.SilentStep state edge.2 := by
  constructor
  · intro member
    rcases List.mem_map.1 member with ⟨target, listed, rfl⟩
    exact ⟨rfl, listed⟩
  · rintro ⟨silent, step⟩
    exact List.mem_map.2 ⟨edge.2, step, by rw [← silent]⟩

/-- The walks of a closure are the paths of silent edges. -/
theorem exists_walk_silentGraph_iff (automaton : Automaton α) (source target : Nat) :
    (∃ word, automaton.silentGraph.Walk source word target) ↔
      Relation.ReflTransGen automaton.SilentStep source target := by
  constructor
  · rintro ⟨word, walk⟩
    induction walk with
    | nil => exact .refl
    | snoc walk inner edge inductionHypothesis =>
        exact inductionHypothesis.tail ((automaton.mem_edges_silentGraph _ _).1 edge).2
  · intro path
    induction path with
    | refl => exact ⟨[], .nil source⟩
    | tail path step inductionHypothesis =>
        rcases inductionHypothesis with ⟨word, walk⟩
        have edge := (automaton.mem_edges_silentGraph _ (.epsilon, _)).2 ⟨rfl, step⟩
        exact ⟨word ++ [.epsilon], walk.snoc rfl edge⟩

theorem WellFormed.confined_silentGraph (wellFormed : automaton.WellFormed) (states : StateSet) :
    automaton.silentGraph.Confined states.members
      (states.members ++ List.range automaton.size) where
  roots_mem := fun _ member => List.mem_append_left _ member
  edges_mem := by
    intro state _ edge followed
    have step := ((automaton.mem_edges_silentGraph state edge).1 followed).2
    exact List.mem_append_right _ (List.mem_range.2 (wellFormed.target_lt step))

/-- The search of a closure is never cut off. -/
theorem WellFormed.exists_invariant_silentSearch (wellFormed : automaton.WellFormed)
    (states : StateSet) :
    ∃ finished, Search.Invariant automaton.silentGraph (fun _ => false) states.members finished
      (automaton.silentSearch states) ∧ (automaton.silentSearch states).queue = [] := by
  apply Search.exists_complete_explore states.nodup (wellFormed.confined_silentGraph states)
  simp only [List.length_append, List.length_range, StateSet.size]
  omega

/-- A closure has exactly the states that a path of silent edges reaches. -/
theorem WellFormed.mem_closure_iff (wellFormed : automaton.WellFormed) (states : StateSet)
    (state : Nat) :
    state ∈ automaton.closure states ↔
      ∃ origin, origin ∈ states ∧
        Relation.ReflTransGen automaton.SilentStep origin state := by
  rcases wellFormed.exists_invariant_silentSearch states with ⟨finished, invariant, done⟩
  rw [closure, StateSet.mem_ofList, invariant.mem_nodes_iff done]
  constructor
  · rintro ⟨origin, member, walk⟩
    exact ⟨origin, member, (automaton.exists_walk_silentGraph_iff _ _).1 walk⟩
  · rintro ⟨origin, member, path⟩
    exact ⟨origin, member, (automaton.exists_walk_silentGraph_iff _ _).2 path⟩

theorem WellFormed.subset_closure (wellFormed : automaton.WellFormed) {states : StateSet}
    {state : Nat} (member : state ∈ states) :
    state ∈ automaton.closure states :=
  (wellFormed.mem_closure_iff states state).2 ⟨state, member, .refl⟩

theorem WellFormed.mem_closure_of_silentStep (wellFormed : automaton.WellFormed)
    {states : StateSet} {source target : Nat} (member : source ∈ automaton.closure states)
    (step : automaton.SilentStep source target) :
    target ∈ automaton.closure states := by
  rcases (wellFormed.mem_closure_iff states source).1 member with ⟨origin, started, path⟩
  exact (wellFormed.mem_closure_iff states target).2 ⟨origin, started, path.tail step⟩

theorem WellFormed.closure_eq_empty_iff (wellFormed : automaton.WellFormed) (states : StateSet) :
    automaton.closure states = ∅ ↔ states = ∅ := by
  constructor
  · intro nothing
    ext state
    constructor
    · intro member
      have closed := wellFormed.subset_closure member
      rwa [nothing] at closed
    · intro member
      exact absurd member (StateSet.not_mem_empty state)
  · rintro rfl
    ext state
    rw [wellFormed.mem_closure_iff]
    simp

theorem WellFormed.closure_lt (wellFormed : automaton.WellFormed) {states : StateSet}
    (within : ∀ state, state ∈ states → state < automaton.size) {state : Nat}
    (member : state ∈ automaton.closure states) :
    state < automaton.size := by
  rcases (wellFormed.mem_closure_iff states state).1 member with ⟨origin, started, path⟩
  rcases path.cases_tail with rfl | ⟨previous, _, step⟩
  · exact within _ started
  · exact wellFormed.target_lt step

/-- Without silent edges every set is closed. -/
theorem WellFormed.closure_eq_self (wellFormed : automaton.WellFormed)
    (reading : ∀ edge ∈ automaton.edges, edge.label ≠ .epsilon) (states : StateSet) :
    automaton.closure states = states := by
  ext state
  rw [wellFormed.mem_closure_iff]
  constructor
  · rintro ⟨origin, member, path⟩
    rcases path.cases_tail with rfl | ⟨middle, _, step⟩
    · exact member
    · exact absurd rfl (reading _ ((automaton.mem_edges_iff ⟨middle, .epsilon, state⟩).2 step))
  · intro member
    exact ⟨state, member, .refl⟩

/-! ## Starting and reading -/

theorem WellFormed.start_lt (wellFormed : automaton.WellFormed) {state : Nat}
    (member : state ∈ automaton.start) :
    state < automaton.size :=
  wellFormed.closure_lt (fun initial => wellFormed.initial_lt initial) member

theorem WellFormed.read_lt (wellFormed : automaton.WellFormed) {states : StateSet} {value : α}
    {state : Nat} (member : state ∈ automaton.read states value) :
    state < automaton.size := by
  refine wellFormed.closure_lt ?_ member
  intro target moved
  rcases (automaton.mem_move states _ target).1 moved with ⟨source, _, listed⟩
  exact wellFormed.target_lt listed

/-- Reading a symbol follows one edge with the symbol and then silent edges. -/
theorem WellFormed.mem_read_iff (wellFormed : automaton.WellFormed) (states : StateSet) (value : α)
    (state : Nat) :
    state ∈ automaton.read states value ↔
      ∃ source, source ∈ states ∧
        ∃ middle, middle ∈ automaton.targets source (.symbol value) ∧
          Relation.ReflTransGen automaton.SilentStep middle state := by
  rw [read, wellFormed.mem_closure_iff]
  constructor
  · rintro ⟨middle, moved, path⟩
    rcases (automaton.mem_move states _ middle).1 moved with ⟨source, member, listed⟩
    exact ⟨source, member, middle, listed, path⟩
  · rintro ⟨source, member, middle, listed, path⟩
    exact ⟨middle, (automaton.mem_move states _ middle).2 ⟨source, member, listed⟩, path⟩

theorem WellFormed.read_eq_empty_iff (wellFormed : automaton.WellFormed) (states : StateSet)
    (value : α) :
    automaton.read states value = ∅ ↔ automaton.move states (.symbol value) = ∅ :=
  wellFormed.closure_eq_empty_iff _

/-- Nothing is active after nothing was active. -/
theorem WellFormed.read_empty (wellFormed : automaton.WellFormed) (value : α) :
    automaton.read ∅ value = ∅ := by
  ext state
  rw [wellFormed.mem_read_iff]
  simp

end WordAutomata.Automaton
