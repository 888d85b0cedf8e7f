import Mathlib.Data.List.Shortlex
import WordAutomata.Proofs.Search.Invariant

/-!
# The order in which a search meets its nodes

If the edges of every node are listed in the order of their labels, then a
search from a single root records its visits in strict length-lexicographic
order of their words.  A word that leads to a node that was met is never before
the word that was recorded with the node.  So a search that stops at a node
has found the least of all words that lead to a node at which it would stop.
-/

namespace WordAutomata

variable {α ν : Type} {before : α → α → Prop}

/-! ## Length-lexicographic order -/

/-- The first word is the second one, or is before it in length-lexicographic order. -/
def NotAfter (before : α → α → Prop) (first second : List α) : Prop :=
  first = second ∨ List.Shortlex before first second

theorem shortlex_trans [IsTrans α before] {first second third : List α}
    (left : List.Shortlex before first second)
    (right : List.Shortlex before second third) :
    List.Shortlex before first third := by
  rcases List.shortlex_def.1 left with shorter | ⟨leftLength, leftLex⟩
  · rcases List.shortlex_def.1 right with shorter' | ⟨rightLength, _⟩
    · exact .of_length_lt (shorter.trans shorter')
    · exact .of_length_lt (rightLength ▸ shorter)
  · rcases List.shortlex_def.1 right with shorter | ⟨rightLength, rightLex⟩
    · exact .of_length_lt (leftLength ▸ shorter)
    · exact .of_lex (leftLength.trans rightLength)
        (List.lex_trans (IsTrans.trans _ _ _) leftLex rightLex)

theorem lex_append_singleton {first second : List α} (ordered : List.Lex before first second)
    (equal : first.length = second.length) (left right : α) :
    List.Lex before (first ++ [left]) (second ++ [right]) := by
  induction ordered with
  | nil => simp at equal
  | cons ordered inductionHypothesis =>
      exact .cons (inductionHypothesis (by simpa using equal))
  | rel related => exact .rel related

/-- Appending a symbol to each of two words keeps their order. -/
theorem shortlex_append_singleton {first second : List α}
    (ordered : List.Shortlex before first second) (left right : α) :
    List.Shortlex before (first ++ [left]) (second ++ [right]) := by
  rcases List.shortlex_def.1 ordered with shorter | ⟨equal, ordered⟩
  · exact .of_length_lt (by simpa using shorter)
  · exact .of_lex (by simpa using equal) (lex_append_singleton ordered equal left right)

theorem shortlex_append_self (word : List α) (last : α) :
    List.Shortlex before word (word ++ [last]) :=
  .of_length_lt (by simp)

theorem NotAfter.append_singleton {first second : List α} (ordered : NotAfter before first second)
    (last : α) :
    NotAfter before (first ++ [last]) (second ++ [last]) := by
  rcases ordered with rfl | earlier
  · exact Or.inl rfl
  · exact Or.inr (shortlex_append_singleton earlier last last)

theorem NotAfter.trans_shortlex [IsTrans α before] {first second third : List α}
    (left : NotAfter before first second) (right : List.Shortlex before second third) :
    List.Shortlex before first third := by
  rcases left with rfl | earlier
  · exact right
  · exact shortlex_trans earlier right

theorem NotAfter.trans [IsTrans α before] {first second third : List α}
    (left : NotAfter before first second) (right : NotAfter before second third) :
    NotAfter before first third := by
  rcases right with rfl | later
  · exact left
  · exact Or.inr (left.trans_shortlex later)

theorem NotAfter.length_le {first second : List α} (ordered : NotAfter before first second) :
    first.length ≤ second.length := by
  rcases ordered with rfl | earlier
  · exact Nat.le_refl _
  · rcases List.shortlex_def.1 earlier with shorter | ⟨equal, _⟩
    · exact Nat.le_of_lt shorter
    · exact Nat.le_of_eq equal

/-- Of two words, each of which is not after the other, neither is before the other. -/
theorem NotAfter.antisymm [Std.Asymm before] {first second : List α}
    (left : NotAfter before first second) (right : NotAfter before second first) :
    first = second := by
  rcases left with equality | earlier
  · exact equality
  · rcases right with equality | later
    · exact equality.symm
    · exact absurd later (Std.Asymm.asymm _ _ earlier)

/-- The edges of every node are listed in the order of their labels. -/
def Graph.EdgesOrdered (graph : Graph α ν) (before : α → α → Prop) : Prop :=
  ∀ node, (graph.edges node).Pairwise fun first second => before first.1 second.1

namespace Search

variable {graph : Graph α ν} {stop : ν → Bool} {root : ν} {finished : List (Visit α ν)}
  {search : Search α ν}

/-- The visits are recorded in length-lexicographic order. -/
def Sorted (before : α → α → Prop) (search : Search α ν) : Prop :=
  search.found.Pairwise fun first second => List.Shortlex before first.word second.word

/-- Each edge's target was met with a word that is not after the word through the edge. -/
def Covers (before : α → α → Prop) (source : Visit α ν) (edges : List (α × ν))
    (search : Search α ν) : Prop :=
  ∀ edge ∈ edges, ∃ visit ∈ search.found,
    visit.node = edge.2 ∧ NotAfter before visit.word (source.word ++ [edge.1])

/-- What the order of a search says between two expansions. -/
structure Ordered (graph : Graph α ν) (before : α → α → Prop) (finished : List (Visit α ν))
    (search : Search α ν) : Prop where
  sorted : search.Sorted before
  origin : ∀ visit ∈ search.found,
    visit.word = [] ∨ ∃ parent ∈ finished, ∃ label, visit.word = parent.word ++ [label]
  covered : ∀ source ∈ finished, search.Covers before source (graph.edges source.node)

theorem ordered_start (graph : Graph α ν) (before : α → α → Prop) (root : ν) :
    Ordered graph before [] (start graph [root]) where
  sorted := List.pairwise_singleton _ _
  origin := by simp [start]
  covered := by simp

theorem Covers.mono {source : Visit α ν} {edges : List (α × ν)} {later : Search α ν}
    (covers : search.Covers before source edges) (grown : search.found ⊆ later.found) :
    later.Covers before source edges := by
  intro edge member
  rcases covers edge member with ⟨visit, found, located⟩
  exact ⟨visit, grown found, located⟩

variable [DecidableEq ν]

theorem found_follow (graph : Graph α ν) (source : Visit α ν) (search : Search α ν)
    (edge : α × ν) :
    (search.follow graph source edge).found =
      if edge.2 ∈ search.nodes then search.found
      else search.found ++ [⟨edge.2, source.word ++ [edge.1]⟩] := by
  rw [follow]
  split <;> rfl

theorem found_subset_follow (graph : Graph α ν) (source : Visit α ν) (search : Search α ν)
    (edge : α × ν) :
    search.found ⊆ (search.follow graph source edge).found := by
  rw [found_follow]
  split
  · exact List.Subset.refl _
  · exact List.subset_append_left _ _

theorem found_subset_foldl_follow (graph : Graph α ν) (source : Visit α ν)
    (edges : List (α × ν)) (search : Search α ν) :
    search.found ⊆ (edges.foldl (follow graph source) search).found := by
  refine List.foldlRecOn (motive := fun current => search.found ⊆ current.found)
    edges (follow graph source) (List.Subset.refl _) ?_
  intro current kept edge _
  exact List.Subset.trans kept (found_subset_follow graph source current edge)

theorem found_subset_expand (graph : Graph α ν) (search : Search α ν) (source : Visit α ν)
    (rest : List (Visit α ν)) :
    search.found ⊆ (search.expand graph source rest).found :=
  found_subset_foldl_follow graph source (graph.edges source.node)
    (search.taken graph source rest)

theorem mem_found_expand {source : Visit α ν} {rest : List (Visit α ν)} {visit : Visit α ν}
    (member : visit ∈ (search.expand graph source rest).found) :
    visit ∈ search.found ∨ ∃ label, visit.word = source.word ++ [label] := by
  revert member
  refine expand_induction
    (motive := fun current => visit ∈ current.found →
      visit ∈ search.found ∨ ∃ label, visit.word = source.word ++ [label]) Or.inl ?_
  intro current kept edge _ member
  rw [found_follow] at member
  split at member
  · exact kept member
  · rcases List.mem_append.1 member with old | new
    · exact kept old
    · rw [List.mem_singleton.1 new]
      exact Or.inr ⟨edge.1, rfl⟩

/--
Following an edge keeps the order and meets its target with a word that is not
after the word through the edge, provided that everything met so far is before
that word.
-/
theorem sorted_follow (graph : Graph α ν) {source : Visit α ν} {edge : α × ν}
    (sorted : search.Sorted before)
    (ready : ∀ visit ∈ search.found, List.Shortlex before visit.word (source.word ++ [edge.1])) :
    (search.follow graph source edge).Sorted before ∧
      (search.follow graph source edge).Covers before source [edge] := by
  rw [Sorted, Covers, found_follow]
  split
  · next known =>
      refine ⟨sorted, ?_⟩
      intro covered member
      rw [List.mem_singleton.1 member]
      rcases List.mem_map.1 known with ⟨visit, found, located⟩
      exact ⟨visit, found, located, Or.inr (ready visit found)⟩
  · constructor
    · refine List.pairwise_append.2 ⟨sorted, List.pairwise_singleton _ _, ?_⟩
      intro visit found new member
      rw [List.mem_singleton.1 member]
      exact ready visit found
    · intro covered member
      rw [List.mem_singleton.1 member]
      exact ⟨_, List.mem_append_right _ (List.mem_singleton_self _), rfl, Or.inl rfl⟩

/-- Following edges in their order keeps the order of the visits, and covers all these edges. -/
theorem sorted_foldl_follow (graph : Graph α ν) (search : Search α ν) {source : Visit α ν}
    {edges : List (α × ν)}
    (ordered : edges.Pairwise fun first second => before first.1 second.1)
    (sorted : search.Sorted before)
    (ready : ∀ visit ∈ search.found, ∀ edge ∈ edges,
      List.Shortlex before visit.word (source.word ++ [edge.1])) :
    (edges.foldl (follow graph source) search).Sorted before ∧
      (edges.foldl (follow graph source) search).Covers before source edges := by
  induction edges generalizing search with
  | nil => exact ⟨sorted, by simp [Covers]⟩
  | cons edge edges inductionHypothesis =>
      rcases List.pairwise_cons.1 ordered with ⟨first, ordered⟩
      have stepped := sorted_follow graph sorted
        fun visit found => ready visit found edge List.mem_cons_self
      -- What the edge has added is before the words through the edges that remain.
      have still : ∀ visit ∈ (search.follow graph source edge).found, ∀ later ∈ edges,
          List.Shortlex before visit.word (source.word ++ [later.1]) := by
        intro visit found later remaining
        have later' := List.mem_cons_of_mem edge remaining
        rw [found_follow] at found
        split at found
        · exact ready visit found later later'
        · rcases List.mem_append.1 found with old | new
          · exact ready visit old later later'
          · rw [List.mem_singleton.1 new]
            exact ((List.shortlex_singleton_iff _ _).2 (first later remaining)).append_left _
      have finished := inductionHypothesis _ ordered stepped.1 still
      refine ⟨finished.1, ?_⟩
      intro covered member
      rcases List.mem_cons.1 member with rfl | later
      · exact stepped.2.mono (found_subset_foldl_follow graph source edges _) covered
          (List.mem_singleton_self _)
      · exact finished.2 covered later

omit [DecidableEq ν] in
/-- The finished visits are before the waiting ones, and these are in order as well. -/
theorem Ordered.pairwise_pending (ordered : Ordered graph before finished search)
    {roots : List ν} (recorded : Recorded graph roots finished search) :
    (finished ++ search.queue).Pairwise fun first second =>
      List.Shortlex before first.word second.word := by
  rw [← recorded.pending]
  exact ordered.sorted.sublist List.filter_sublist

/-- An expansion keeps the order of the search. -/
theorem Ordered.expand (ordered : Ordered graph before finished search) {roots : List ν}
    (recorded : Recorded graph roots finished search) (labels : graph.EdgesOrdered before)
    {source : Visit α ν} {rest : List (Visit α ν)} (queued : search.queue = source :: rest) :
    Ordered graph before (finished ++ [source]) (search.expand graph source rest) := by
  have pending := ordered.pairwise_pending recorded
  rw [queued] at pending
  have ready : ∀ visit ∈ search.found, ∀ edge ∈ graph.edges source.node,
      List.Shortlex before visit.word (source.word ++ [edge.1]) := by
    intro visit found edge _
    rcases ordered.origin visit found with empty | ⟨parent, expanded, label, extended⟩
    · rw [empty]
      exact .of_length_lt (by simp)
    · rw [extended]
      have earlier := (List.pairwise_append.1 pending).2.2 parent expanded source
        List.mem_cons_self
      exact shortlex_append_singleton earlier label edge.1
  have followed := sorted_foldl_follow graph (search.taken graph source rest)
    (labels source.node) ordered.sorted ready
  refine ⟨followed.1, ?_, ?_⟩
  · intro visit member
    rcases mem_found_expand member with old | ⟨label, extended⟩
    · rcases ordered.origin visit old with empty | ⟨parent, expanded, label, extended⟩
      · exact Or.inl empty
      · exact Or.inr ⟨parent, List.mem_append_left _ expanded, label, extended⟩
    · exact Or.inr ⟨source, by simp, label, extended⟩
  · intro visit member
    rcases List.mem_append.1 member with old | new
    · exact (ordered.covered visit old).mono (found_subset_expand graph search source rest)
    · rw [List.mem_singleton.1 new]
      exact followed.2

theorem exists_ordered_explore (stop : ν → Bool) (bound : Nat) (root : ν)
    (labels : graph.EdgesOrdered before) :
    ∃ finished, Invariant graph stop [root] finished (graph.explore stop bound [root]) ∧
      Ordered graph before finished (graph.explore stop bound [root]) :=
  (invariant_start graph stop (List.nodup_singleton root)).run_induction
    (fun _ _ _ _ invariant ordered queued => ordered.expand invariant.toRecorded labels queued)
    (ordered_start graph before root) bound

/-! ## Least words -/

section Least

variable [IsTrans α before]

omit [DecidableEq ν] in
/--
A word that leads to a node is not before the word that was recorded with the
node.  While the search is not complete it may also be after a waiting visit.
-/
theorem Ordered.visit_of_walk (ordered : Ordered graph before finished search)
    (invariant : Invariant graph stop [root] finished search) {word : List α} {node : ν}
    (walk : graph.Walk root word node) :
    (∃ visit ∈ search.found, visit.node = node ∧ NotAfter before visit.word word) ∨
      ∃ waiting ∈ search.queue, List.Shortlex before waiting.word word := by
  induction walk with
  | nil =>
      have opened := invariant.opening.subset (List.mem_singleton_self _)
      exact Or.inl ⟨_, opened, rfl, Or.inl rfl⟩
  | @snoc middle target word label walk inner edge inductionHypothesis =>
      rcases inductionHypothesis with ⟨visit, found, rfl, ordered'⟩ | ⟨waiting, queued, earlier⟩
      · rcases invariant.mem_found_iff.1 ⟨found, inner⟩ with expanded | queued
        · rcases ordered.covered visit expanded (label, target) edge with
            ⟨other, found', located, through⟩
          exact Or.inl ⟨other, found', located, through.trans (ordered'.append_singleton label)⟩
        · exact Or.inr ⟨visit, queued, ordered'.trans_shortlex (shortlex_append_self word label)⟩
      · exact Or.inr
          ⟨waiting, queued, shortlex_trans earlier (shortlex_append_self word label)⟩

omit [DecidableEq ν] in
/-- Once the search is complete, every word that leads to a node is covered by a visit. -/
theorem Ordered.exists_visit_of_walk (ordered : Ordered graph before finished search)
    (invariant : Invariant graph stop [root] finished search) (done : search.queue = [])
    {word : List α} {node : ν} (walk : graph.Walk root word node) :
    ∃ visit ∈ search.found, visit.node = node ∧ NotAfter before visit.word word := by
  rcases ordered.visit_of_walk invariant walk with covered | ⟨waiting, queued, _⟩
  · exact covered
  · simp [done] at queued

omit [DecidableEq ν] in
/--
The word of the visit at the head of the queue is the least one that leads to a
node at which the search would stop.
-/
theorem Ordered.head_least (ordered : Ordered graph before finished search)
    (invariant : Invariant graph stop [root] finished search) {head : Visit α ν}
    (queued : search.queue.head? = some head) {word : List α} {node : ν}
    (walk : graph.Walk root word node) (inner : graph.isLeaf node = false)
    (stops : stop node = true) :
    NotAfter before head.word word := by
  have pending := ordered.pairwise_pending invariant.toRecorded
  have first : ∀ waiting ∈ search.queue, NotAfter before head.word waiting.word := by
    intro waiting member
    rcases List.head?_eq_some_iff.1 queued with ⟨rest, shape⟩
    rw [shape] at member pending
    rcases List.mem_cons.1 member with rfl | later
    · exact Or.inl rfl
    · have sorted := List.pairwise_cons.1 (List.pairwise_append.1 pending).2.1
      exact Or.inr (sorted.1 waiting later)
  rcases ordered.visit_of_walk invariant walk with
    ⟨visit, found, rfl, notAfter⟩ | ⟨waiting, member, earlier⟩
  · rcases invariant.mem_found_iff.1 ⟨found, inner⟩ with expanded | member
    · simp [invariant.passed visit expanded] at stops
    · exact (first visit member).trans notAfter
  · exact Or.inr ((first waiting member).trans_shortlex earlier)

end Least

end Search

end WordAutomata
