import WordAutomata.Proofs.Search.Invariant

/-!
# How long a search takes

The bound of a search plays no part in what the search does; it only says how
often the head of the queue may be taken.  A search that nothing stops takes
one node for each expansion and ends when its queue is empty.  So there is one
number of expansions after which it has ended, and every bound from this number
on gives the same result.
-/

namespace WordAutomata.Search

variable {α ν : Type} [DecidableEq ν]

/-- The nodes that were taken from the queue, in the order in which they were taken. -/
def popped (search : Search α ν) : List ν :=
  search.expanded.map Expansion.node

/-- The search from the roots ends by itself, after exactly `count` expansions. -/
structure EndsAfter (graph : Graph α ν) (roots : List ν) (count : Nat)
    (final : Search α ν) : Prop where
  /-- Nothing is left to expand. -/
  queue_eq_nil : final.queue = []
  length_popped : final.popped.length = count
  /-- Every bound that allows for these expansions gives the same search. -/
  explore_eq : ∀ bound, count ≤ bound → graph.explore (fun _ => false) bound roots = final
  /-- After fewer expansions something is left to expand. -/
  queue_ne_nil : ∀ bound, bound < count →
    (graph.explore (fun _ => false) bound roots).queue ≠ []

variable {graph : Graph α ν} {search : Search α ν}

theorem expanded_expand (graph : Graph α ν) (search : Search α ν) (source : Visit α ν)
    (rest : List (Visit α ν)) :
    (search.expand graph source rest).expanded =
      search.expanded ++ [⟨source.node, graph.edges source.node⟩] := by
  apply expand_induction
    (motive := fun current => current.expanded =
      search.expanded ++ [Expansion.mk source.node (graph.edges source.node)])
  · rfl
  · intro current kept edge _
    rw [follow]
    split
    · exact kept
    · exact kept

theorem length_expanded_expand (graph : Graph α ν) (search : Search α ν) (source : Visit α ν)
    (rest : List (Visit α ν)) :
    (search.expand graph source rest).expanded.length = search.expanded.length + 1 := by
  rw [expanded_expand, List.length_append, List.length_singleton]

theorem run_of_queue_eq_nil (graph : Graph α ν) (stop : ν → Bool) (bound : Nat)
    (done : search.queue = []) :
    search.run graph stop bound = search := by
  cases bound with
  | zero => rfl
  | succ bound => rw [run, done]

/-- A run that nothing stops expands the head of the queue and goes on. -/
theorem run_succ (graph : Graph α ν) (bound : Nat) {source : Visit α ν}
    {rest : List (Visit α ν)} (queued : search.queue = source :: rest) :
    search.run graph (fun _ => false) (bound + 1) =
      (search.expand graph source rest).run graph (fun _ => false) bound := by
  rw [run, queued]
  exact if_neg Bool.false_ne_true

/-- No expansion is forgotten, and there are at most as many new ones as the bound allows. -/
theorem length_expanded_run (graph : Graph α ν) (bound : Nat) (search : Search α ν) :
    search.expanded.length ≤ (search.run graph (fun _ => false) bound).expanded.length ∧
      (search.run graph (fun _ => false) bound).expanded.length ≤
        search.expanded.length + bound := by
  induction bound generalizing search with
  | zero => exact ⟨Nat.le_refl _, Nat.le_refl _⟩
  | succ bound inductionHypothesis =>
      cases queued : search.queue with
      | nil =>
          rw [run_of_queue_eq_nil graph _ _ queued]
          exact ⟨Nat.le_refl _, Nat.le_add_right _ _⟩
      | cons source rest =>
          have later := inductionHypothesis (search.expand graph source rest)
          rw [length_expanded_expand] at later
          rw [run_succ graph bound queued]
          omega

/-- A run that has ended is the run of every bound that allows for its expansions. -/
theorem run_eq_of_queue_eq_nil {bound : Nat}
    (done : (search.run graph (fun _ => false) bound).queue = []) {more : Nat}
    (enough : (search.run graph (fun _ => false) bound).expanded.length ≤
      search.expanded.length + more) :
    search.run graph (fun _ => false) more = search.run graph (fun _ => false) bound := by
  induction bound generalizing search more with
  | zero => exact run_of_queue_eq_nil graph _ more done
  | succ bound inductionHypothesis =>
      cases queued : search.queue with
      | nil => rw [run_of_queue_eq_nil graph _ _ queued, run_of_queue_eq_nil graph _ _ queued]
      | cons source rest =>
          rw [run_succ graph bound queued] at done enough ⊢
          have begun := (length_expanded_run graph bound (search.expand graph source rest)).1
          rw [length_expanded_expand] at begun
          cases more with
          | zero => omega
          | succ more =>
              rw [run_succ graph more queued]
              apply inductionHypothesis done
              rw [length_expanded_expand]
              omega

omit [DecidableEq ν] in
/-- A search that has ended has popped every node that is not a leaf, in the order of its visits. -/
theorem Recorded.popped_eq_filter {roots : List ν} {finished : List (Visit α ν)}
    (recorded : Recorded graph roots finished search) (done : search.queue = []) :
    search.popped = search.nodes.filter fun node => !graph.isLeaf node := by
  have inner := recorded.pending
  rw [done, List.append_nil] at inner
  rw [popped, recorded.expansions, List.map_map, nodes, List.filter_map]
  exact (congrArg (List.map Visit.node) inner).symm

/-- As many nodes were popped as there were expansions, at most as many as the bound allows. -/
theorem length_popped_explore_le (graph : Graph α ν) (bound : Nat) (roots : List ν) :
    (graph.explore (fun _ => false) bound roots).popped.length ≤ bound := by
  have few := (length_expanded_run graph bound (start graph roots)).2
  rw [popped, List.length_map]
  exact Nat.le_trans few (Nat.le_of_eq (Nat.zero_add bound))

/-- A search that has ended for some bound has ended by itself. -/
theorem endsAfter_explore {roots : List ν} {bound : Nat}
    (done : (graph.explore (fun _ => false) bound roots).queue = []) :
    EndsAfter graph roots (graph.explore (fun _ => false) bound roots).popped.length
      (graph.explore (fun _ => false) bound roots) := by
  have stays : ∀ {first second : Nat},
      (graph.explore (fun _ => false) first roots).queue = [] →
        (graph.explore (fun _ => false) first roots).popped.length ≤ second →
          graph.explore (fun _ => false) second roots =
            graph.explore (fun _ => false) first roots := by
    intro first second ended enough
    rw [popped, List.length_map] at enough
    exact run_eq_of_queue_eq_nil ended (Nat.le_add_left_of_le enough)
  refine ⟨done, rfl, fun more enough => stays done enough, ?_⟩
  -- Otherwise the search would have ended with fewer expansions than it has.
  intro fewer early nothing
  have few := length_popped_explore_le graph fewer roots
  have many := length_popped_explore_le graph bound roots
  have same := stays nothing (Nat.le_trans few (Nat.le_trans (Nat.le_of_lt early) many))
  rw [same] at early
  omega

end WordAutomata.Search
