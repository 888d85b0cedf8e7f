import WordAutomata.Proofs.Closure
import WordAutomata.Proofs.Lists
import WordAutomata.Proofs.Run.Paths
import WordAutomata.Proofs.Search.Ending

/-!
# A closure is the least closed set

The closure of a set of states is the least set that contains it and that no
silent edge leaves.  Hence closing is extensive, monotone and idempotent, and
it commutes with unions.  The search that finds a closure takes each of its
states from the queue exactly once, and no other state, however the silent
edges run in circles.
-/

namespace WordAutomata.Automaton

variable {α : Type} [DecidableEq α] {automaton : Automaton α}

/-- No silent edge of a state leaves the set. -/
def SilentlyClosed (automaton : Automaton α) (set : StateSet) : Prop :=
  ∀ source, source ∈ set → source < automaton.size →
    ∀ targets, automaton.epsilonTargets? source = some targets →
      ∀ target, target ∈ targets → target ∈ set

/-- The set is the least one that contains the given states and that no silent edge leaves. -/
structure IsLeastClosed (automaton : Automaton α) (states set : StateSet) : Prop where
  contains : ∀ state, state ∈ states → state ∈ set
  closed : automaton.SilentlyClosed set
  least : ∀ other, (∀ state, state ∈ states → state ∈ other) → automaton.SilentlyClosed other →
    ∀ state, state ∈ set → state ∈ other

theorem silentlyClosed_iff (automaton : Automaton α) (set : StateSet) :
    automaton.SilentlyClosed set ↔
      ∀ source, source ∈ set → ∀ target, automaton.SilentStep source target → target ∈ set := by
  simp only [SilentStep, mem_targets_epsilon_iff]
  constructor
  · rintro closed source member target ⟨present, targets, looked, listed⟩
    exact closed source member present targets looked target listed
  · intro closed source member present targets looked target listed
    exact closed source member target ⟨present, targets, looked, listed⟩

/-- A closed set contains what paths of silent edges reach from it. -/
theorem SilentlyClosed.mem_of_path {set : StateSet} (closed : automaton.SilentlyClosed set)
    {source target : Nat} (member : source ∈ set)
    (path : Relation.ReflTransGen automaton.SilentStep source target) :
    target ∈ set := by
  induction path with
  | refl => exact member
  | tail _ step inductionHypothesis =>
      exact (automaton.silentlyClosed_iff set).1 closed _ inductionHypothesis _ step

theorem WellFormed.isLeastClosed_closure (wellFormed : automaton.WellFormed) (states : StateSet) :
    automaton.IsLeastClosed states (automaton.closure states) where
  contains _ member := wellFormed.subset_closure member
  closed := by
    rw [silentlyClosed_iff]
    intro source member target step
    exact wellFormed.mem_closure_of_silentStep member step
  least := by
    intro other contains closed state member
    rcases (wellFormed.mem_closure_iff states state).1 member with ⟨origin, started, path⟩
    exact closed.mem_of_path (contains origin started) path

/-- A closure has the states that some path of silent edges reaches from the given ones. -/
theorem WellFormed.mem_closure_iff_path (wellFormed : automaton.WellFormed) (states : StateSet)
    (state : Nat) :
    state ∈ automaton.closure states ↔
      ∃ origin, origin ∈ states ∧
        ∃ labels, automaton.Path origin labels state ∧ ∀ label ∈ labels, label = .epsilon := by
  have silent : ∀ labels : List (Label α),
      Label.spelled labels = [] ↔ ∀ label ∈ labels, label = .epsilon := by
    intro labels
    rw [Label.spelled, List.filterMap_eq_nil_iff]
    refine forall₂_congr fun label _ => ?_
    cases label <;> simp [Label.symbol?]
  simp only [wellFormed.mem_closure_iff, ← exists_path_spelling_nil_iff, silent]

/-! ## The laws of a closure -/

theorem WellFormed.closure_mono (wellFormed : automaton.WellFormed) {states more : StateSet}
    (contained : ∀ state, state ∈ states → state ∈ more) {state : Nat}
    (member : state ∈ automaton.closure states) :
    state ∈ automaton.closure more := by
  have larger := wellFormed.isLeastClosed_closure more
  refine (wellFormed.isLeastClosed_closure states).least _ ?_ larger.closed state member
  intro origin started
  exact larger.contains origin (contained origin started)

theorem WellFormed.closure_closure (wellFormed : automaton.WellFormed) (states : StateSet) :
    automaton.closure (automaton.closure states) = automaton.closure states := by
  have closed := (wellFormed.isLeastClosed_closure states).closed
  have twice := wellFormed.isLeastClosed_closure (automaton.closure states)
  ext state
  constructor
  · exact twice.least _ (fun _ member => member) closed state
  · exact twice.contains state

theorem WellFormed.closure_union (wellFormed : automaton.WellFormed) (left right : StateSet) :
    automaton.closure (left ∪ right) = automaton.closure left ∪ automaton.closure right := by
  ext state
  simp only [StateSet.mem_union, wellFormed.mem_closure_iff, or_and_right, exists_or]

/-- The closure of states that exist is found by look-ups. -/
theorem WellFormed.closure?_eq_some (wellFormed : automaton.WellFormed) {states : StateSet}
    (present : ∀ state, state ∈ states → state < automaton.size) :
    automaton.closure? states = some (automaton.closure states) := by
  have looked : states.members.mapM automaton.epsilonTargets? =
      some (states.members.map (automaton.targets · .epsilon)) :=
    mapM_eq_some_map fun state member => epsilonTargets?_of_lt (present state member)
  rw [closure?, looked, Option.map_some, ofList_flatMap_targets, Option.some_inj]
  -- One step from the states stays in their closure.
  have contained : ∀ state, state ∈ states ∪ automaton.move states .epsilon →
      state ∈ automaton.closure states := by
    intro state member
    rcases (StateSet.mem_union _ _ _).1 member with given | moved
    · exact wellFormed.subset_closure given
    · rcases (automaton.mem_move states .epsilon state).1 moved with ⟨source, given, step⟩
      exact wellFormed.mem_closure_of_silentStep (wellFormed.subset_closure given) step
  ext state
  constructor
  · intro member
    rw [← wellFormed.closure_closure states]
    exact wellFormed.closure_mono contained member
  · exact wellFormed.closure_mono fun _ given => (StateSet.mem_union _ _ _).2 (Or.inl given)

/-! ## The search for a closure -/

/-- The search pops the states of the closure, each of them once. -/
theorem WellFormed.popped_silentSearch_perm (wellFormed : automaton.WellFormed)
    (states : StateSet) :
    (automaton.silentSearch states).popped.Perm (automaton.closure states).members := by
  rcases wellFormed.exists_invariant_silentSearch states with ⟨finished, invariant, done⟩
  have popped : (automaton.silentSearch states).popped =
      (automaton.silentSearch states).nodes := by
    rw [invariant.popped_eq_filter done]
    exact List.filter_eq_self.2 fun _ _ => rfl
  rw [popped]
  refine (List.perm_ext_iff_of_nodup invariant.distinct (StateSet.nodup _)).2 ?_
  intro state
  exact (StateSet.mem_ofList _ state).symm

/-- The search ends by itself, with one expansion for each state of the closure. -/
theorem WellFormed.endsAfter_silentSearch (wellFormed : automaton.WellFormed)
    (states : StateSet) :
    Search.EndsAfter automaton.silentGraph states.members (automaton.closure states).size
      (automaton.silentSearch states) := by
  rcases wellFormed.exists_invariant_silentSearch states with ⟨_, _, done⟩
  have count := (wellFormed.popped_silentSearch_perm states).length_eq
  rw [StateSet.size, ← count]
  exact Search.endsAfter_explore done

/--
The search for the closure of a set of states ends by itself, after it has
popped each state of the closure once and no other state.  What it finds is the
set of all states that a path of silent edges reaches, which is the least closed
set around the given states.
-/
theorem closure_is_silent_reachability (automaton : Automaton α)
    (wellFormed : automaton.WellFormed) (states : StateSet)
    (present : ∀ state, state ∈ states → state < automaton.size) :
    automaton.closure? states = some (automaton.closure states) ∧
      Search.EndsAfter automaton.silentGraph states.members (automaton.closure states).size
        (automaton.silentSearch states) ∧
      (automaton.silentSearch states).popped.Perm (automaton.closure states).members ∧
      (∀ state, state ∈ automaton.closure states ↔
        ∃ origin, origin ∈ states ∧
          ∃ labels, automaton.Path origin labels state ∧ ∀ label ∈ labels, label = .epsilon) ∧
      automaton.IsLeastClosed states (automaton.closure states) ∧
      automaton.closure (automaton.closure states) = automaton.closure states ∧
      ∀ other,
        ((∀ state, state ∈ states → state ∈ other) →
          ∀ state, state ∈ automaton.closure states → state ∈ automaton.closure other) ∧
        automaton.closure (states ∪ other) =
          automaton.closure states ∪ automaton.closure other := by
  refine ⟨wellFormed.closure?_eq_some present, wellFormed.endsAfter_silentSearch states,
    wellFormed.popped_silentSearch_perm states, wellFormed.mem_closure_iff_path states,
    wellFormed.isLeastClosed_closure states, wellFormed.closure_closure states, ?_⟩
  intro other
  exact ⟨fun contained _ member => wellFormed.closure_mono contained member,
    wellFormed.closure_union states other⟩

/-- Both states of the cycle are popped, each once, and the last state is not. -/
theorem closure_is_silent_reachability_silentCycle :
    silentCycle.WellFormed ∧ (∀ state, state ∈ StateSet.singleton 1 → state < silentCycle.size) ∧
      silentCycle.closure? (.singleton 1) = some (.ofList [0, 1]) ∧
      (silentCycle.silentSearch (.singleton 1)).popped = [1, 0] ∧
      silentCycle.IsLeastClosed (.singleton 1) (.ofList [0, 1]) := by
  have wellFormed : silentCycle.WellFormed := by decide
  have present : ∀ state, state ∈ StateSet.singleton 1 → state < silentCycle.size := by decide
  rcases closure_is_silent_reachability silentCycle wellFormed (.singleton 1) present with
    ⟨found, _, _, _, least, _⟩
  have computed : silentCycle.closure (.singleton 1) = .ofList [0, 1] := by decide +kernel
  rw [computed] at found least
  exact ⟨wellFormed, present, found, by decide +kernel, least⟩

end WordAutomata.Automaton
