import WordAutomata.Proofs.Checked.Cells
import WordAutomata.Proofs.LeastClosure

/-!
# Checked searches and closures

A search that looks up the edges of a node with a check fails where a look-up
fails.  If it can look up the edges of everything that it reaches then it gives
what the unchecked search gives, and if a root cannot be looked up then it comes
to this root and fails.  What is found by a look-up exists and can be looked up
in turn, so a closure fails exactly if one of the given states cannot be looked
up.
-/

namespace WordAutomata

/-! ## Searches -/

namespace Search

variable {α ν : Type} [DecidableEq ν] {graph : Graph α ν} {look : ν → Option (List (α × ν))}

/-- Expands a visit with the edges that are looked up. -/
def checkedExpand (graph : Graph α ν) (look : ν → Option (List (α × ν))) (search : Search α ν)
    (source : Visit α ν) (rest : List (Visit α ν)) : Option (Search α ν) :=
  (look source.node).map fun edges =>
    edges.foldl (follow graph source)
      { search with
        queue := rest
        expanded := search.expanded ++ [⟨source.node, edges⟩] }

/-- Expands at most `bound` nodes; nothing if the edges of one of them cannot be looked up. -/
def checkedRun (graph : Graph α ν) (look : ν → Option (List (α × ν))) (stop : ν → Bool) :
    Nat → Search α ν → Option (Search α ν)
  | 0, search => some search
  | bound + 1, search =>
      match search.queue with
      | [] => some search
      | source :: rest =>
          if stop source.node then
            some search
          else
            (search.checkedExpand graph look source rest).bind (checkedRun graph look stop bound)

theorem queue_prefix_follow (graph : Graph α ν) (source : Visit α ν) (search : Search α ν)
    (edge : α × ν) :
    search.queue <+: (search.follow graph source edge).queue := by
  rw [follow]
  split
  · exact List.prefix_refl _
  · show search.queue <+: if graph.isLeaf edge.2 then search.queue else search.queue ++ _
    split
    · exact List.prefix_refl _
    · exact List.prefix_append _ _

/-- What was queued stays in its place when edges are followed. -/
theorem queue_prefix_foldl_follow (graph : Graph α ν) (source : Visit α ν)
    (edges : List (α × ν)) (search : Search α ν) :
    search.queue <+: (edges.foldl (follow graph source) search).queue := by
  induction edges generalizing search with
  | nil => exact List.prefix_refl _
  | cons edge edges inductionHypothesis =>
      exact (queue_prefix_follow graph source search edge).trans
        (inductionHypothesis (search.follow graph source edge))

theorem queue_follow_safe {safe : ν → Prop} (source : Visit α ν) {search : Search α ν}
    (queued : ∀ visit ∈ search.queue, safe visit.node) {edge : α × ν} (leads : safe edge.2) :
    ∀ visit ∈ (search.follow graph source edge).queue, safe visit.node := by
  rw [follow]
  split
  · exact queued
  · show ∀ visit ∈ if graph.isLeaf edge.2 then search.queue else search.queue ++ [_], _
    split
    · exact queued
    · intro visit member
      rcases List.mem_append.1 member with before | last
      · exact queued visit before
      · rw [List.mem_singleton.1 last]
        exact leads

/-- What is safe can be looked up, and leads to what is safe. -/
structure Safe (graph : Graph α ν) (look : ν → Option (List (α × ν))) (safe : ν → Prop) :
    Prop where
  look_eq : ∀ node, safe node → look node = some (graph.edges node)
  edges_safe : ∀ node, safe node → ∀ edge ∈ graph.edges node, safe edge.2

/-- If everything in the queue is safe then no look-up fails, and nothing changes. -/
theorem Safe.checkedRun_eq {safe : ν → Prop} (lookups : Safe graph look safe) (stop : ν → Bool)
    (bound : Nat) {search : Search α ν} (queued : ∀ visit ∈ search.queue, safe visit.node) :
    search.checkedRun graph look stop bound = some (search.run graph stop bound) := by
  induction bound generalizing search with
  | zero => rfl
  | succ bound inductionHypothesis =>
      rw [checkedRun, run]
      cases waiting : search.queue with
      | nil => rfl
      | cons source rest =>
          rw [waiting] at queued
          rcases List.forall_mem_cons.1 queued with ⟨safeSource, safeRest⟩
          have expanded : search.checkedExpand graph look source rest =
              some (search.expand graph source rest) := by
            rw [checkedExpand, lookups.look_eq _ safeSource]
            rfl
          have still : ∀ visit ∈ (search.expand graph source rest).queue, safe visit.node :=
            expand_induction (motive := fun current => ∀ visit ∈ current.queue, safe visit.node)
              safeRest fun _ queued edge followed =>
                queue_follow_safe source queued (lookups.edges_safe _ safeSource edge followed)
          show (if stop source.node then some search else _) =
            some (if stop source.node then search else _)
          split
          · rfl
          · rw [expanded]
            exact inductionHypothesis still

/-- The search comes to everything that is in its queue, unless it fails before. -/
theorem checkedRun_eq_none {search : Search α ν} {bound place : Nat} {visit : Visit α ν}
    (queued : search.queue[place]? = some visit) (missing : look visit.node = none)
    (enough : place < bound) :
    search.checkedRun graph look (fun _ => false) bound = none := by
  induction bound generalizing search place with
  | zero => exact absurd enough (Nat.not_lt_zero place)
  | succ bound inductionHypothesis =>
      cases waiting : search.queue with
      | nil => simp [waiting] at queued
      | cons source rest =>
          rw [waiting] at queued
          simp only [checkedRun, waiting, Bool.false_eq_true, if_false, checkedExpand]
          cases place with
          | zero =>
              cases queued
              rw [missing]
              rfl
          | succ place =>
              cases look source.node with
              | none => rfl
              | some edges =>
                  rw [List.getElem?_cons_succ] at queued
                  refine inductionHypothesis ?_ (Nat.lt_of_succ_lt_succ enough)
                  rcases queue_prefix_foldl_follow graph source edges
                      { search with
                        queue := rest
                        expanded := search.expanded ++ [⟨source.node, edges⟩] } with
                    ⟨added, grown⟩
                  rw [← grown, List.getElem?_append_left (List.getElem?_eq_some_iff.1 queued).1]
                  exact queued

end Search

/-- Explores a graph whose edges have to be looked up. -/
def Graph.checkedExplore {α ν : Type} [DecidableEq ν] (graph : Graph α ν)
    (look : ν → Option (List (α × ν))) (stop : ν → Bool) (bound : Nat) (roots : List ν) :
    Option (Search α ν) :=
  (Search.start graph roots).checkedRun graph look stop bound

theorem Search.Safe.checkedExplore_eq {α ν : Type} [DecidableEq ν] {graph : Graph α ν}
    {look : ν → Option (List (α × ν))} {safe : ν → Prop} (lookups : Safe graph look safe)
    (stop : ν → Bool) (bound : Nat) {roots : List ν} (started : ∀ root ∈ roots, safe root) :
    graph.checkedExplore look stop bound roots = some (graph.explore stop bound roots) := by
  apply lookups.checkedRun_eq
  intro visit queued
  rcases List.mem_map.1 queued with ⟨root, listed, rfl⟩
  exact started root (List.mem_of_mem_filter listed)

namespace Automaton

variable {α : Type} [DecidableEq α]

/-! ## Closures -/

/-- The silent edges of a state, with a check. -/
def checkedSilentEdges (automaton : Automaton α) (state : Nat) : Option (List (Label α × Nat)) :=
  (automaton.checkedEpsilonTargets state).map fun targets =>
    targets.members.map fun target => (.epsilon, target)

/-- The graph of the edges that are looked up. -/
def lookUpGraph (automaton : Automaton α) : Graph (Label α) Nat where
  edges state := (automaton.checkedSilentEdges state).getD []
  isLeaf _ := false

def checkedClosure (automaton : Automaton α) (states : StateSet) : Option StateSet :=
  (automaton.lookUpGraph.checkedExplore automaton.checkedSilentEdges (fun _ => false)
    (automaton.size + states.size) states.members).map fun search => .ofList search.nodes

def checkedClosureOf (automaton : Automaton α) (state : Nat) : Option StateSet :=
  automaton.checkedClosure (.singleton state)

variable {automaton : Automaton α}

omit [DecidableEq α] in
/-- The edges that are looked up lead to what the look-up finds. -/
theorem mem_edges_lookUpGraph (automaton : Automaton α) (state : Nat) (edge : Label α × Nat) :
    edge ∈ automaton.lookUpGraph.edges state ↔
      edge.1 = .epsilon ∧
        ∃ found, automaton.checkedEpsilonTargets state = some found ∧ edge.2 ∈ found := by
  show edge ∈ (automaton.checkedSilentEdges state).getD [] ↔ _
  rw [checkedSilentEdges]
  cases automaton.checkedEpsilonTargets state with
  | none => simp
  | some found =>
      simp only [Option.map_some, Option.getD_some, Option.some.injEq, exists_eq_left']
      constructor
      · intro member
        rcases List.mem_map.1 member with ⟨target, listed, rfl⟩
        exact ⟨rfl, listed⟩
      · rintro ⟨silent, listed⟩
        exact List.mem_map.2 ⟨edge.2, listed, by rw [← silent]⟩

/-- Whatever is found by a look-up exists. -/
theorem WellFormed.lt_of_mem_edges_lookUpGraph (wellFormed : automaton.WellFormed)
    (fits : automaton.Fits) {state : Nat} {edge : Label α × Nat}
    (followed : edge ∈ automaton.lookUpGraph.edges state) :
    edge.2 < automaton.size := by
  rcases (automaton.mem_edges_lookUpGraph state edge).1 followed with ⟨_, found, looked, listed⟩
  rw [wellFormed.checkedEpsilonTargets_eq fits] at looked
  rcases wellFormed.exists_of_epsilonTargets? looked with ⟨other, _, label, _, rfl⟩
  exact wellFormed.target_lt listed

/-- The silent edges of an existing state are the ones that are looked up. -/
theorem WellFormed.mem_edges_lookUpGraph_of_lt (wellFormed : automaton.WellFormed)
    (fits : automaton.Fits) {state : Nat} (present : state < automaton.size)
    (edge : Label α × Nat) :
    edge ∈ automaton.lookUpGraph.edges state ↔
      edge.1 = .epsilon ∧ automaton.SilentStep state edge.2 := by
  rw [mem_edges_lookUpGraph, wellFormed.checkedEpsilonTargets_of_lt fits present]
  simp [SilentStep]

theorem WellFormed.safe_lookUpGraph (wellFormed : automaton.WellFormed) (fits : automaton.Fits) :
    Search.Safe automaton.lookUpGraph automaton.checkedSilentEdges
      fun state => automaton.checkedSilentEdges state ≠ none where
  look_eq := by
    intro state reachable
    rcases Option.ne_none_iff_exists'.1 reachable with ⟨edges, looked⟩
    show _ = some ((automaton.checkedSilentEdges state).getD [])
    rw [looked, Option.getD_some]
  edges_safe := by
    intro state _ edge followed
    have present := wellFormed.lt_of_mem_edges_lookUpGraph fits followed
    rw [checkedSilentEdges, wellFormed.checkedEpsilonTargets_of_lt fits present]
    exact Option.some_ne_none _

/-- A search along the edges that are looked up is never cut off. -/
theorem WellFormed.mem_nodes_lookUpGraph_iff (wellFormed : automaton.WellFormed)
    (fits : automaton.Fits) (states : StateSet) (state : Nat) :
    state ∈ (automaton.lookUpGraph.explore (fun _ => false) (automaton.size + states.size)
        states.members).nodes ↔
      ∃ origin, origin ∈ states ∧ ∃ word, automaton.lookUpGraph.Walk origin word state := by
  have confined : automaton.lookUpGraph.Confined states.members
      (states.members ++ List.range automaton.size) :=
    { roots_mem := fun _ member => List.mem_append_left _ member
      edges_mem := by
        intro other _ edge followed
        have present := wellFormed.lt_of_mem_edges_lookUpGraph fits followed
        exact List.mem_append_right _ (List.mem_range.2 present) }
  have enough : (states.members ++ List.range automaton.size).length ≤
      automaton.size + states.size := by
    simp only [List.length_append, List.length_range, StateSet.size]
    omega
  rcases Search.exists_complete_explore states.nodup confined enough with
    ⟨finished, invariant, done⟩
  exact invariant.mem_nodes_iff done state

/-- The look-ups reach the closure of the states and of what they lead to at once. -/
theorem WellFormed.exists_walk_lookUpGraph_iff (wellFormed : automaton.WellFormed)
    (fits : automaton.Fits) {states moved : StateSet}
    (mem_moved_iff : ∀ target, target ∈ moved ↔
      ∃ origin, origin ∈ states ∧ ∃ found,
        automaton.checkedEpsilonTargets origin = some found ∧ target ∈ found) (state : Nat) :
    (∃ origin, origin ∈ states ∧ ∃ word, automaton.lookUpGraph.Walk origin word state) ↔
      state ∈ automaton.closure (states ∪ moved) := by
  constructor
  · rintro ⟨origin, started, word, walk⟩
    induction walk with
    | nil => exact wellFormed.subset_closure ((StateSet.mem_union _ _ _).2 (Or.inl started))
    | snoc walk _ edge inductionHypothesis =>
        cases walk with
        -- Only the first look-up may be one by a number without a state.
        | nil =>
            rcases (automaton.mem_edges_lookUpGraph _ _).1 edge with ⟨_, found, looked, listed⟩
            have atOnce := (mem_moved_iff _).2 ⟨origin, started, found, looked, listed⟩
            exact wellFormed.subset_closure ((StateSet.mem_union _ _ _).2 (Or.inr atOnce))
        | snoc _ _ before =>
            have present := wellFormed.lt_of_mem_edges_lookUpGraph fits before
            exact wellFormed.mem_closure_of_silentStep inductionHypothesis
              ((wellFormed.mem_edges_lookUpGraph_of_lt fits present _).1 edge).2
  · intro member
    rcases (wellFormed.mem_closure_iff _ state).1 member with ⟨origin, started, path⟩
    induction path with
    | refl =>
        rcases (StateSet.mem_union _ _ _).1 started with given | atOnce
        · exact ⟨origin, given, [], .nil origin⟩
        · rcases (mem_moved_iff origin).1 atOnce with ⟨source, given, found, looked, listed⟩
          have edge := (automaton.mem_edges_lookUpGraph source (.epsilon, origin)).2
            ⟨rfl, found, looked, listed⟩
          exact ⟨source, given, _, (Graph.Walk.nil source).snoc rfl edge⟩
    | tail path step inductionHypothesis =>
        have present := lt_size_of_mem_targets step
        have reached := (wellFormed.mem_closure_iff _ _).2 ⟨origin, started, path⟩
        rcases inductionHypothesis reached with ⟨source, given, word, walk⟩
        have edge := (wellFormed.mem_edges_lookUpGraph_of_lt fits present (.epsilon, _)).2
          ⟨rfl, step⟩
        exact ⟨source, given, _, walk.snoc rfl edge⟩

/-- A closure fails exactly if one of the states cannot be looked up. -/
theorem WellFormed.checkedClosure_eq_none_iff (wellFormed : automaton.WellFormed)
    (fits : automaton.Fits) (states : StateSet) :
    automaton.checkedClosure states = none ↔
      ∃ state, state ∈ states ∧ automaton.checkedEpsilonTargets state = none := by
  constructor
  · intro failed
    by_contra reachable
    push Not at reachable
    have started : ∀ state ∈ states.members, automaton.checkedSilentEdges state ≠ none :=
      fun state member => mt Option.map_eq_none_iff.1 (reachable state member)
    rw [checkedClosure, (wellFormed.safe_lookUpGraph fits).checkedExplore_eq _ _ started] at failed
    cases failed
  · rintro ⟨state, member, missing⟩
    rcases List.mem_iff_getElem?.1 member with ⟨place, located⟩
    have queued : (Search.start automaton.lookUpGraph states.members).queue[place]? =
        some ⟨state, []⟩ := by
      simp [Search.start, lookUpGraph, located]
    have unknown : automaton.checkedSilentEdges state = none :=
      Option.map_eq_none_iff.2 missing
    have enough : place < automaton.size + states.size :=
      Nat.lt_add_left _ (List.getElem?_eq_some_iff.1 located).1
    rw [checkedClosure, Graph.checkedExplore, Search.checkedRun_eq_none queued unknown enough]
    rfl

/-- Where no place wraps around, a closure fails exactly if one of the states does not exist. -/
theorem WellFormed.checkedClosure_eq_none_iff_of_addressable (wellFormed : automaton.WellFormed)
    (fits : automaton.Fits) (states : StateSet)
    (addressable : ∀ state, state ∈ states → automaton.Addressable state) :
    automaton.checkedClosure states = none ↔
      ∃ state, state ∈ states ∧ automaton.size ≤ state := by
  rw [wellFormed.checkedClosure_eq_none_iff fits]
  refine exists_congr fun state => and_congr_right fun member => ?_
  exact wellFormed.checkedEpsilonTargets_eq_none_iff (addressable state member)

/-- The search with its look-ups finds what the look-ups say. -/
theorem WellFormed.checkedClosure_eq (wellFormed : automaton.WellFormed) (fits : automaton.Fits)
    (states : StateSet) :
    automaton.checkedClosure states = automaton.closure? states := by
  have looks := funext (wellFormed.checkedEpsilonTargets_eq fits)
  rw [closure?, ← looks]
  cases walked : states.members.mapM automaton.checkedEpsilonTargets with
  | none =>
      rcases mapM_eq_none_iff.1 walked with ⟨state, member, missing⟩
      exact (wellFormed.checkedClosure_eq_none_iff fits states).2 ⟨state, member, missing⟩
  | some found =>
      have reachable : ∀ state ∈ states.members, automaton.checkedSilentEdges state ≠ none := by
        intro state member failed
        have stopped : states.members.mapM automaton.checkedEpsilonTargets = none :=
          mapM_eq_none_iff.2 ⟨state, member, Option.map_eq_none_iff.1 failed⟩
        rw [stopped] at walked
        cases walked
      rw [checkedClosure, (wellFormed.safe_lookUpGraph fits).checkedExplore_eq _ _ reachable,
        Option.map_some, Option.map_some, Option.some_inj]
      ext state
      rw [StateSet.mem_ofList, wellFormed.mem_nodes_lookUpGraph_iff fits,
        wellFormed.exists_walk_lookUpGraph_iff fits]
      intro target
      rw [StateSet.mem_ofList, List.mem_flatMap]
      simp only [mem_iff_of_mapM_eq_some walked]
      constructor
      · rintro ⟨cell, ⟨origin, started, looked⟩, listed⟩
        exact ⟨origin, started, cell, looked, listed⟩
      · rintro ⟨origin, started, cell, looked, listed⟩
        exact ⟨cell, ⟨origin, started, looked⟩, listed⟩

theorem WellFormed.checkedClosure_of_lt (wellFormed : automaton.WellFormed)
    (fits : automaton.Fits) {states : StateSet}
    (present : ∀ state, state ∈ states → state < automaton.size) :
    automaton.checkedClosure states = some (automaton.closure states) := by
  rw [wellFormed.checkedClosure_eq fits, wellFormed.closure?_eq_some present]

end Automaton

end WordAutomata
