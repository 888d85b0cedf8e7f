/-!
# Breadth-first search

A search walks through a labelled graph from some roots.  It records every
node the first time that it is met, together with the labels on the path that
led there, and expands the recorded nodes in the order in which they were met.
Since a node is recorded once and the edges of a node are followed in their
order, the recorded words are in length-lexicographic order.

Expanding a node computes its edges, once, and records them.  A search may stop
early at a node, and it never expands a leaf.  The number of expansions is
bounded; as every node is expanded at most once, the number of nodes is a
sufficient bound.
-/

namespace WordAutomata

/-- A labelled graph, given by the edges that leave each node. -/
structure Graph (α ν : Type) where
  /-- The labels and targets of the edges that leave a node, in order. -/
  edges : ν → List (α × ν)
  /-- Leaves are recorded but never expanded. -/
  isLeaf : ν → Bool

/-- A node together with the labels on the path that first led to it. -/
structure Visit (α ν : Type) where
  node : ν
  /-- The labels on the path from a root to the node. -/
  word : List α

/-- A node together with the edges that were followed from it. -/
structure Expansion (α ν : Type) where
  node : ν
  /-- The labels and targets of its edges, in order. -/
  edges : List (α × ν)

structure Search (α ν : Type) where
  found : List (Visit α ν)
  /-- The visits whose nodes are still to be expanded. -/
  queue : List (Visit α ν)
  /-- All expansions in the order in which they happened. -/
  expanded : List (Expansion α ν)

namespace Search

variable {α ν : Type}

def nodes (search : Search α ν) : List ν :=
  search.found.map Visit.node

/-- The search that has met the roots and expanded nothing. -/
def start (graph : Graph α ν) (roots : List ν) : Search α ν where
  found := roots.map fun root => ⟨root, []⟩
  queue := (roots.filter fun root => !graph.isLeaf root).map fun root => ⟨root, []⟩
  expanded := []

variable [DecidableEq ν]

/-- Records the target of an edge that leaves a visited node, unless it has been met before. -/
def follow (graph : Graph α ν) (source : Visit α ν) (search : Search α ν)
    (edge : α × ν) : Search α ν :=
  if edge.2 ∈ search.nodes then
    search
  else
    let visit : Visit α ν := ⟨edge.2, source.word ++ [edge.1]⟩
    { search with
      found := search.found ++ [visit]
      queue := if graph.isLeaf edge.2 then search.queue else search.queue ++ [visit] }

/-- Expands a visit that was taken from the queue, of which `rest` remains. -/
def expand (graph : Graph α ν) (search : Search α ν) (source : Visit α ν)
    (rest : List (Visit α ν)) : Search α ν :=
  let edges := graph.edges source.node
  edges.foldl (follow graph source)
    { search with
      queue := rest
      expanded := search.expanded ++ [⟨source.node, edges⟩] }

/-- The edges that were followed from a node; there are none if it was not expanded. -/
def edgesFrom (search : Search α ν) (node : ν) : List (α × ν) :=
  ((search.expanded.find? fun expansion => expansion.node = node).map Expansion.edges).getD []

/--
Expands at most `bound` nodes.  A node at which the search stops stays at the
head of the queue.
-/
def run (graph : Graph α ν) (stop : ν → Bool) : Nat → Search α ν → Search α ν
  | 0, search => search
  | bound + 1, search =>
      match search.queue with
      | [] => search
      | source :: rest =>
          if stop source.node then
            search
          else
            run graph stop bound (search.expand graph source rest)

theorem mem_nodes_follow (graph : Graph α ν) (source : Visit α ν) (search : Search α ν)
    (edge : α × ν) (node : ν) :
    node ∈ (search.follow graph source edge).nodes ↔ node ∈ search.nodes ∨ node = edge.2 := by
  unfold follow
  split
  · next met =>
      constructor
      · exact .inl
      · rintro (known | rfl)
        · exact known
        · exact met
  · simp [nodes]

theorem nodup_nodes_follow (graph : Graph α ν) (source : Visit α ν) (search : Search α ν)
    (edge : α × ν) (distinct : search.nodes.Nodup) :
    (search.follow graph source edge).nodes.Nodup := by
  unfold follow
  split
  · exact distinct
  · next fresh =>
      simp only [nodes, List.map_append, List.map_cons, List.map_nil] at fresh ⊢
      exact List.nodup_append.2 ⟨distinct, by simp, by
        intro first known second located equality
        rw [List.mem_singleton.1 located] at equality
        exact fresh (equality ▸ known)⟩

/-- Expanding a visit records exactly the targets of its edges. -/
theorem mem_nodes_expand (graph : Graph α ν) (search : Search α ν) (source : Visit α ν)
    (rest : List (Visit α ν)) (node : ν) :
    node ∈ (search.expand graph source rest).nodes ↔
      node ∈ search.nodes ∨ ∃ edge ∈ graph.edges source.node, edge.2 = node := by
  suffices general : ∀ (edges : List (α × ν)) (current : Search α ν),
      node ∈ (edges.foldl (follow graph source) current).nodes ↔
        node ∈ current.nodes ∨ ∃ edge ∈ edges, edge.2 = node from
    general _ _
  intro edges
  induction edges with
  | nil => simp
  | cons edge edges inductionHypothesis =>
      intro current
      rw [List.foldl_cons, inductionHypothesis, mem_nodes_follow]
      simp [or_assoc, eq_comm]

end Search

/--
Explores a graph from the given roots, until a node stops the search or nothing
is left to expand.
-/
def Graph.explore {α ν : Type} [DecidableEq ν] (graph : Graph α ν) (stop : ν → Bool)
    (bound : Nat) (roots : List ν) : Search α ν :=
  Search.run graph stop bound (Search.start graph roots)

end WordAutomata
