import Mathlib.Data.List.Nodup
import Mathlib.Data.List.Perm.Subperm
import WordAutomata.Search

/-!
# What a breadth-first search records

While a search runs, the visits that it has recorded are leaves, or they have
been expanded, or they wait in the queue.  This file states that invariant and
proves that each followed edge, each expansion and hence the whole run
preserve it.  A search whose queue is empty has met exactly the nodes to which
a walk from a root leads.

A walk never continues from a leaf, because the search does not expand one.
-/

namespace WordAutomata

variable {α ν : Type}

namespace Graph

/-- Walks along the edges of a graph that do not pass through a leaf. -/
inductive Walk (graph : Graph α ν) : ν → List α → ν → Prop where
  | nil (node : ν) : Walk graph node [] node
  | snoc {source middle target : ν} {word : List α} {label : α}
      (walk : Walk graph source word middle)
      (inner : graph.isLeaf middle = false)
      (edge : (label, target) ∈ graph.edges middle) :
      Walk graph source (word ++ [label]) target

/-- Some walk leads from a root to the node. -/
def Reaches (graph : Graph α ν) (roots : List ν) (node : ν) : Prop :=
  ∃ root ∈ roots, ∃ word, graph.Walk root word node

/-- The region contains the roots, and no edge leaves it. -/
structure Confined (graph : Graph α ν) (roots region : List ν) : Prop where
  roots_mem : ∀ root ∈ roots, root ∈ region
  edges_mem : ∀ node ∈ region, ∀ edge ∈ graph.edges node, edge.2 ∈ region

theorem Confined.mem_of_walk {graph : Graph α ν} {roots region : List ν}
    (confined : graph.Confined roots region) {source target : ν} {word : List α}
    (walk : graph.Walk source word target) (member : source ∈ region) :
    target ∈ region := by
  induction walk with
  | nil => exact member
  | snoc walk inner edge inductionHypothesis =>
      exact confined.edges_mem _ inductionHypothesis _ edge

theorem Confined.mem_of_reaches {graph : Graph α ν} {roots region : List ν}
    (confined : graph.Confined roots region) {node : ν}
    (reached : graph.Reaches roots node) :
    node ∈ region := by
  rcases reached with ⟨root, member, word, walk⟩
  exact confined.mem_of_walk walk (confined.roots_mem root member)

end Graph

namespace Search

/-! ## The records -/

/--
The records of a search that has expanded the visits in `finished`, in this
order.  The last of them may still have edges that are to be followed.
-/
structure Recorded (graph : Graph α ν) (roots : List ν) (finished : List (Visit α ν))
    (search : Search α ν) : Prop where
  expansions : search.expanded =
    finished.map fun visit => ⟨visit.node, graph.edges visit.node⟩
  pending : (search.found.filter fun visit => !graph.isLeaf visit.node) =
    finished ++ search.queue
  distinct : search.nodes.Nodup
  opening : (roots.map fun root => (⟨root, []⟩ : Visit α ν)) <+: search.found
  reached : ∀ visit ∈ search.found, ∃ root ∈ roots, graph.Walk root visit.word visit.node

variable {graph : Graph α ν} {roots : List ν} {finished : List (Visit α ν)}
  {search : Search α ν}

theorem mem_nodes_of_mem_found {visit : Visit α ν} (member : visit ∈ search.found) :
    visit.node ∈ search.nodes :=
  List.mem_map_of_mem member

theorem recorded_start (graph : Graph α ν) {roots : List ν} (distinct : roots.Nodup) :
    Recorded graph roots [] (start graph roots) where
  expansions := rfl
  pending := by
    simp [start, List.filter_map, Function.comp_def]
  distinct := by
    simpa [start, nodes, Function.comp_def] using distinct
  opening := List.prefix_rfl
  reached := by
    intro visit member
    rcases List.mem_map.1 member with ⟨root, rooted, rfl⟩
    exact ⟨root, rooted, .nil root⟩

theorem Recorded.mem_found_iff (recorded : Recorded graph roots finished search)
    {visit : Visit α ν} :
    visit ∈ search.found ∧ graph.isLeaf visit.node = false ↔
      visit ∈ finished ∨ visit ∈ search.queue := by
  have kept :
      visit ∈ search.found.filter (fun visit => !graph.isLeaf visit.node) ↔
        visit ∈ search.found ∧ graph.isLeaf visit.node = false := by
    simp
  rw [← kept, recorded.pending, List.mem_append]

/-- A node is visited only once. -/
theorem Recorded.eq_of_node_eq (recorded : Recorded graph roots finished search)
    {first second : Visit α ν} (left : first ∈ search.found) (right : second ∈ search.found)
    (same : first.node = second.node) :
    first = second :=
  List.inj_on_of_nodup_map recorded.distinct left right same

theorem Recorded.mem_nodes_of_mem_roots (recorded : Recorded graph roots finished search)
    {root : ν} (member : root ∈ roots) :
    root ∈ search.nodes := by
  have located : (⟨root, []⟩ : Visit α ν) ∈ search.found :=
    recorded.opening.subset (List.mem_map_of_mem member)
  exact mem_nodes_of_mem_found located

theorem Recorded.reaches (recorded : Recorded graph roots finished search) {node : ν}
    (member : node ∈ search.nodes) :
    graph.Reaches roots node := by
  rcases List.mem_map.1 member with ⟨visit, located, rfl⟩
  rcases recorded.reached visit located with ⟨root, rooted, walk⟩
  exact ⟨root, rooted, visit.word, walk⟩

/-- The search that has taken a visit from its queue, before it follows the first edge. -/
def taken (graph : Graph α ν) (search : Search α ν) (source : Visit α ν)
    (rest : List (Visit α ν)) : Search α ν :=
  { search with
    queue := rest
    expanded := search.expanded ++ [⟨source.node, graph.edges source.node⟩] }

theorem Recorded.taken (recorded : Recorded graph roots finished search)
    {source : Visit α ν} {rest : List (Visit α ν)} (queued : search.queue = source :: rest) :
    Recorded graph roots (finished ++ [source]) (search.taken graph source rest) where
  expansions := by simp [Search.taken, recorded.expansions]
  pending := by simp [Search.taken, recorded.pending, queued]
  distinct := recorded.distinct
  opening := recorded.opening
  reached := recorded.reached

variable [DecidableEq ν]

/-- What holds when a visit has been taken and is kept by each of its edges holds in the end. -/
theorem expand_induction {motive : Search α ν → Prop} {source : Visit α ν}
    {rest : List (Visit α ν)}
    (begun : motive (search.taken graph source rest))
    (kept : ∀ current, motive current → ∀ edge ∈ graph.edges source.node,
      motive (current.follow graph source edge)) :
    motive (search.expand graph source rest) :=
  List.foldlRecOn (graph.edges source.node) (Search.follow graph source) begun kept

/-- Following an edge of a finished visit keeps the records. -/
theorem Recorded.follow (recorded : Recorded graph roots finished search)
    {source : Visit α ν} (member : source ∈ finished) {edge : α × ν}
    (followed : edge ∈ graph.edges source.node) :
    Recorded graph roots finished (search.follow graph source edge) := by
  have distinct := nodup_nodes_follow graph source search edge recorded.distinct
  have origin := recorded.mem_found_iff.2 (Or.inl member)
  unfold Search.follow at distinct ⊢
  split at distinct
  · next known =>
      rw [if_pos known]
      exact recorded
  · next fresh =>
      rw [if_neg fresh]
      refine ⟨recorded.expansions, ?_, distinct, ?_, ?_⟩
      · cases leaf : graph.isLeaf edge.2 <;> simp [leaf, recorded.pending]
      · exact recorded.opening.trans (List.prefix_append _ _)
      · intro visit located
        rcases List.mem_append.1 located with old | new
        · exact recorded.reached visit old
        · rcases recorded.reached source origin.1 with ⟨root, rooted, walk⟩
          rw [List.mem_singleton.1 new]
          exact ⟨root, rooted, walk.snoc origin.2 followed⟩

theorem Recorded.expand (recorded : Recorded graph roots finished search)
    {source : Visit α ν} {rest : List (Visit α ν)} (queued : search.queue = source :: rest) :
    Recorded graph roots (finished ++ [source]) (search.expand graph source rest) := by
  apply expand_induction (recorded.taken queued)
  intro current kept edge followed
  exact kept.follow (by simp) followed

theorem Recorded.edgesFrom_eq (recorded : Recorded graph roots finished search)
    {visit : Visit α ν} (member : visit ∈ finished) :
    search.edgesFrom visit.node = graph.edges visit.node := by
  have listed : (⟨visit.node, graph.edges visit.node⟩ : Expansion α ν) ∈ search.expanded := by
    rw [recorded.expansions]
    exact List.mem_map_of_mem member
  rw [edgesFrom]
  cases found : search.expanded.find? fun expansion => expansion.node = visit.node with
  | none =>
      have different := List.find?_eq_none.1 found _ listed
      simp at different
  | some expansion =>
      have same : expansion.node = visit.node := by simpa using List.find?_some found
      have expanded := List.mem_of_find?_eq_some found
      rw [recorded.expansions] at expanded
      rcases List.mem_map.1 expanded with ⟨other, _, rfl⟩
      simp only [Option.map_some, Option.getD_some] at same ⊢
      rw [same]

/-- Nothing was followed from a leaf. -/
theorem Recorded.edgesFrom_leaf (recorded : Recorded graph roots finished search) {node : ν}
    (leaf : graph.isLeaf node = true) :
    search.edgesFrom node = [] := by
  have absent : search.expanded.find? (fun expansion => expansion.node = node) = none := by
    rw [List.find?_eq_none, recorded.expansions]
    intro expansion member
    rcases List.mem_map.1 member with ⟨visit, expanded, rfl⟩
    have inner := (recorded.mem_found_iff.2 (Or.inl expanded)).2
    intro same
    have equality : visit.node = node := of_decide_eq_true same
    rw [equality, leaf] at inner
    exact Bool.noConfusion inner
  simp [edgesFrom, absent]

/-! ## The invariant of a run -/

/--
The records between two expansions.  All edges of the finished visits have been
followed, and none of these visits has stopped the search.
-/
structure Invariant (graph : Graph α ν) (stop : ν → Bool) (roots : List ν)
    (finished : List (Visit α ν)) (search : Search α ν) : Prop
    extends Recorded graph roots finished search where
  closed : ∀ visit ∈ finished, ∀ edge ∈ graph.edges visit.node, edge.2 ∈ search.nodes
  passed : ∀ visit ∈ finished, stop visit.node = false

variable {stop : ν → Bool}

omit [DecidableEq ν] in
theorem invariant_start (graph : Graph α ν) (stop : ν → Bool) {roots : List ν}
    (distinct : roots.Nodup) :
    Invariant graph stop roots [] (start graph roots) where
  toRecorded := recorded_start graph distinct
  closed := by simp
  passed := by simp

theorem Invariant.expand (invariant : Invariant graph stop roots finished search)
    {source : Visit α ν} {rest : List (Visit α ν)} (queued : search.queue = source :: rest)
    (passes : stop source.node = false) :
    Invariant graph stop roots (finished ++ [source]) (search.expand graph source rest) where
  toRecorded := invariant.toRecorded.expand queued
  closed := by
    intro visit member edge followed
    rw [mem_nodes_expand]
    rcases List.mem_append.1 member with old | new
    · exact Or.inl (invariant.closed visit old edge followed)
    · rw [List.mem_singleton.1 new] at followed
      exact Or.inr ⟨edge, followed, rfl⟩
  passed := by
    intro visit member
    rcases List.mem_append.1 member with old | new
    · exact invariant.passed visit old
    · rw [List.mem_singleton.1 new]
      exact passes

/--
A run keeps the invariant, whatever its bound is, together with anything else
that every expansion keeps.
-/
theorem Invariant.run_induction {motive : List (Visit α ν) → Search α ν → Prop}
    (kept : ∀ finished search source rest, Invariant graph stop roots finished search →
      motive finished search → search.queue = source :: rest →
      motive (finished ++ [source]) (search.expand graph source rest))
    (invariant : Invariant graph stop roots finished search) (holds : motive finished search)
    (bound : Nat) :
    ∃ final, Invariant graph stop roots final (search.run graph stop bound) ∧
      motive final (search.run graph stop bound) := by
  induction bound generalizing finished search with
  | zero => exact ⟨finished, invariant, holds⟩
  | succ bound inductionHypothesis =>
      rw [Search.run]
      split
      · exact ⟨finished, invariant, holds⟩
      · next source rest queued =>
          split
          · exact ⟨finished, invariant, holds⟩
          · next passes =>
              exact inductionHypothesis
                (invariant.expand queued (Bool.eq_false_iff.2 passes))
                (kept _ _ _ _ invariant holds queued)

/-! ## Bounds and completeness -/

/-- The search has nothing left to expand, or it has stopped at the head of its queue. -/
def Settled (stop : ν → Bool) (search : Search α ν) : Prop :=
  ∀ visit ∈ search.queue.head?, stop visit.node = true

omit [DecidableEq ν] in
/-- Every node that is not a leaf is expanded at most once, and none outside of the region. -/
theorem Recorded.length_le (recorded : Recorded graph roots finished search) {region : List ν}
    (confined : graph.Confined roots region) :
    finished.length + search.queue.length ≤ region.length := by
  have distinct : ((finished ++ search.queue).map Visit.node).Nodup := by
    rw [← recorded.pending]
    exact recorded.distinct.sublist (List.filter_sublist.map Visit.node)
  have inside : (finished ++ search.queue).map Visit.node ⊆ region := by
    intro node member
    rcases List.mem_map.1 member with ⟨visit, located, rfl⟩
    have found := recorded.mem_found_iff.2 (List.mem_append.1 located)
    exact confined.mem_of_reaches (recorded.reaches (mem_nodes_of_mem_found found.1))
  have bounded := (distinct.subperm inside).length_le
  simpa using bounded

/-- A run whose bound allows for the whole region is never cut off. -/
theorem Invariant.settled_run (invariant : Invariant graph stop roots finished search)
    {region : List ν} (confined : graph.Confined roots region) {bound : Nat}
    (enough : region.length ≤ bound + finished.length) :
    Settled stop (search.run graph stop bound) := by
  induction bound generalizing finished search with
  | zero =>
      have bounded := invariant.length_le confined
      have nothing : search.queue = [] := by
        apply List.length_eq_zero_iff.1
        omega
      simp [Search.run, Settled, nothing]
  | succ bound inductionHypothesis =>
      rw [Search.run]
      split
      · next nothing => simp [Settled, nothing]
      · next source rest queued =>
          split
          · next stops => simpa [Settled, queued] using stops
          · next passes =>
              apply inductionHypothesis
                (invariant.expand queued (Bool.eq_false_iff.2 passes))
              simp only [List.length_append, List.length_singleton]
              omega

theorem settled_explore (stop : ν → Bool) {roots region : List ν} (distinct : roots.Nodup)
    (confined : graph.Confined roots region) {bound : Nat} (enough : region.length ≤ bound) :
    Settled stop (graph.explore stop bound roots) :=
  (invariant_start graph stop distinct).settled_run confined (by simpa using enough)

omit [DecidableEq ν] in
theorem Settled.queue_eq_nil {search : Search α ν} (settled : Settled (fun _ => false) search) :
    search.queue = [] := by
  cases queued : search.queue with
  | nil => rfl
  | cons visit rest => simpa [queued] using settled visit (by simp [queued])

/-- A search that nothing stops comes to its end once it has met its region. -/
theorem exists_complete_explore {roots region : List ν} (distinct : roots.Nodup)
    (confined : graph.Confined roots region) {bound : Nat} (enough : region.length ≤ bound) :
    ∃ finished,
      Invariant graph (fun _ => false) roots finished
          (graph.explore (fun _ => false) bound roots) ∧
        (graph.explore (fun _ => false) bound roots).queue = [] := by
  have settled : Settled (fun _ => false) (graph.explore (fun _ => false) bound roots) :=
    settled_explore _ distinct confined enough
  rcases (invariant_start graph (fun _ => false) distinct).run_induction
      (motive := fun _ _ => True) (fun _ _ _ _ _ _ _ => trivial) trivial bound with
    ⟨finished, invariant, _⟩
  exact ⟨finished, invariant, settled.queue_eq_nil⟩

omit [DecidableEq ν] in
theorem Invariant.mem_finished_of_mem_found
    (invariant : Invariant graph stop roots finished search) (done : search.queue = [])
    {visit : Visit α ν} (member : visit ∈ search.found)
    (inner : graph.isLeaf visit.node = false) :
    visit ∈ finished := by
  rcases invariant.mem_found_iff.1 ⟨member, inner⟩ with expanded | queued
  · exact expanded
  · simp [done] at queued

omit [DecidableEq ν] in
/-- A completed search has met every target of an edge between nodes that it has met. -/
theorem Invariant.mem_nodes_of_edge
    (invariant : Invariant graph stop roots finished search) (done : search.queue = [])
    {node : ν} (member : node ∈ search.nodes) (inner : graph.isLeaf node = false)
    {edge : α × ν} (followed : edge ∈ graph.edges node) :
    edge.2 ∈ search.nodes := by
  rcases List.mem_map.1 member with ⟨visit, located, rfl⟩
  exact invariant.closed visit
    (invariant.mem_finished_of_mem_found done located inner) edge followed

omit [DecidableEq ν] in
/-- A completed search has met exactly the nodes to which a walk from a root leads. -/
theorem Invariant.mem_nodes_iff
    (invariant : Invariant graph stop roots finished search) (done : search.queue = [])
    (node : ν) :
    node ∈ search.nodes ↔ graph.Reaches roots node := by
  constructor
  · exact invariant.reaches
  · rintro ⟨root, rooted, word, walk⟩
    induction walk with
    | nil => exact invariant.mem_nodes_of_mem_roots rooted
    | snoc walk inner edge inductionHypothesis =>
        exact invariant.mem_nodes_of_edge done inductionHypothesis inner edge

end Search

end WordAutomata
