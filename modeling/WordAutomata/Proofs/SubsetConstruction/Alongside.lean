import WordAutomata.Proofs.SubsetConstruction.Filling

/-!
# Filling goes along with the search

The construction that fills a table holds at any time what the search for active
sets has recorded, with numbers in place of sets.  An expansion of the search
fills one row: the invariant says which cells are written, and it is carried
over one met set, one cell and one row.  Since a number stands for a set that
was met, no access is ever out of range.
-/

namespace WordAutomata

/-! ## What following an edge records -/

namespace Search

variable {α ν : Type} [DecidableEq ν] {graph : Graph α ν} {search : Search α ν}
  {source : Visit α ν} {edge : α × ν}

theorem nodes_follow_of_not_mem (graph : Graph α ν) (source : Visit α ν)
    (fresh : edge.2 ∉ search.nodes) :
    (search.follow graph source edge).nodes = search.nodes ++ [edge.2] := by
  rw [follow, if_neg fresh]
  simp [nodes]

theorem popped_follow : (search.follow graph source edge).popped = search.popped := by
  rw [follow]
  split <;> rfl

theorem map_queue_follow_of_not_mem (fresh : edge.2 ∉ search.nodes) :
    (search.follow graph source edge).queue.map Visit.node =
      if graph.isLeaf edge.2 then search.queue.map Visit.node
      else search.queue.map Visit.node ++ [edge.2] := by
  rw [follow, if_neg fresh]
  cases leaf : graph.isLeaf edge.2 <;> simp

/-- Following an edge keeps the places of the nodes. -/
theorem getElem?_nodes_follow {place : Nat} {node : ν}
    (located : search.nodes[place]? = some node) :
    (search.follow graph source edge).nodes[place]? = some node := by
  by_cases known : edge.2 ∈ search.nodes
  · rwa [follow, if_pos known]
  · rw [nodes_follow_of_not_mem graph source known,
      List.getElem?_append_left (List.getElem?_eq_some_iff.1 located).1, located]

end Search

namespace Automaton

variable {α : Type} [DecidableEq α] {automaton : Automaton α}

/-! ## Going along with the search -/

/-- The cell leads to the state of the set that is active after the symbol of its column. -/
def LeadsOn (automaton : Automaton α) (subsets table : List StateSet) (row column : Nat) : Prop :=
  ∀ subset value, subsets[row]? = some subset → automaton.alphabet.symbols[column]? = some value →
    ∃ target, subsets[target]? = some (automaton.read subset value) ∧
      table[automaton.cellPlace row column]? = some (.singleton target)

/--
The construction holds what the search has recorded, and the cells that were
written lead where the edges of the search do.
-/
structure Follows (automaton : Automaton α) (written : Nat → Nat → Prop)
    (search : Search α StateSet) (filling : Filling) : Prop where
  subsets_eq : filling.subsets = search.nodes
  numbers_eq : filling.numbers = search.nodes.zipIdx
  length_table : filling.table.length = automaton.cellPlace search.nodes.length 0
  queued : List.Forall₂ (fun number node => search.nodes[number]? = some node)
    filling.queue (search.queue.map Visit.node)
  popped : List.Forall₂ (fun number node => search.nodes[number]? = some node)
    filling.popped search.popped
  written_lt : ∀ row column, written row column → row < search.nodes.length
  leadsOn : ∀ row column, written row column ∨ search.nodes[row]? = some ∅ →
    automaton.LeadsOn search.nodes filling.table row column
  silent : ∀ row < search.nodes.length,
    filling.table[automaton.cellPlace row automaton.alphabet.size]? = some ∅

variable {written : Nat → Nat → Prop} {search : Search α StateSet} {filling : Filling}

/-- Fewer cells may be taken as written. -/
theorem Follows.mono (follows : Follows automaton written search filling)
    {fewer : Nat → Nat → Prop} (weaker : ∀ row column, fewer row column → written row column) :
    Follows automaton fewer search filling :=
  { follows with
    written_lt := fun row column wrote => follows.written_lt row column (weaker row column wrote)
    leadsOn := fun row column reason =>
      follows.leadsOn row column (reason.imp_left (weaker row column)) }

theorem Follows.lookup_eq_some (follows : Follows automaton written search filling)
    {subset : StateSet} {number : Nat} (found : filling.numbers.lookup subset = some number) :
    search.nodes[number]? = some subset := by
  rcases List.lookup_eq_some_iff.1 found with ⟨before, after, split, _⟩
  apply List.mk_mem_zipIdx_iff_getElem?.1
  rw [← follows.numbers_eq, split]
  simp

theorem Follows.not_mem_of_lookup (follows : Follows automaton written search filling)
    {subset : StateSet} (missing : filling.numbers.lookup subset = none) :
    subset ∉ search.nodes := by
  intro member
  rcases List.mem_iff_getElem?.1 member with ⟨number, located⟩
  have listed := List.mk_mem_zipIdx_iff_getElem?.2 located
  rw [← follows.numbers_eq] at listed
  simpa using List.lookup_eq_none_iff.1 missing _ listed

/-- The new row leads on where it is written, which is if its set is empty. -/
theorem HasNewRow.leadsOn (wellFormed : automaton.WellFormed) {subsets : List StateSet}
    {subset : StateSet} {before after : List StateSet}
    (row : automaton.HasNewRow subsets.length subset before after) (empty : subset = ∅)
    (column : Nat) :
    automaton.LeadsOn (subsets ++ [subset]) after subsets.length column := by
  intro other value located standing
  have same : other = ∅ := by simpa [empty, eq_comm] using located
  have narrow := (List.getElem?_eq_some_iff.1 standing).1
  refine ⟨subsets.length, ?_, row.looping empty column narrow⟩
  rw [same, wellFormed.read_empty, empty]
  simp

/-- A cell of an old row still leads on when more sets were met. -/
theorem LeadsOn.append {subsets table table' : List StateSet} {row column : Nat}
    (leadsOn : automaton.LeadsOn subsets table row column) (within : row < subsets.length)
    (kept : column ≤ automaton.alphabet.size →
      table'[automaton.cellPlace row column]? = table[automaton.cellPlace row column]?)
    (added : List StateSet) :
    automaton.LeadsOn (subsets ++ added) table' row column := by
  intro subset value located standing
  rw [List.getElem?_append_left within] at located
  have narrow := (List.getElem?_eq_some_iff.1 standing).1
  rcases leadsOn subset value located standing with ⟨target, leads, cell⟩
  refine ⟨target, ?_, (kept narrow.le).trans cell⟩
  rw [List.getElem?_append_left (List.getElem?_eq_some_iff.1 leads).1, leads]

/-- A set that is met for the first time is recorded by both. -/
theorem Follows.grow (wellFormed : automaton.WellFormed)
    (follows : Follows automaton written search filling) (source : Visit α StateSet)
    {edge : α × StateSet} (fresh : edge.2 ∉ search.nodes) {table : List StateSet}
    (row : automaton.HasNewRow search.nodes.length edge.2 filling.table table) :
    Follows automaton written (search.follow automaton.subsetGraph source edge)
      (filling.grown edge.2 table) := by
  have nodes := Search.nodes_follow_of_not_mem automaton.subsetGraph source fresh
  have keeps : ∀ (number : Nat) (node : StateSet), search.nodes[number]? = some node →
      (search.nodes ++ [edge.2])[number]? = some node := by
    intro number node located
    rw [List.getElem?_append_left (List.getElem?_eq_some_iff.1 located).1, located]
  have old : ∀ (number column : Nat), number < search.nodes.length →
      column ≤ automaton.alphabet.size →
        table[automaton.cellPlace number column]? =
          filling.table[automaton.cellPlace number column]? := by
    intro number column before narrow
    apply row.kept
    rw [follows.length_table]
    exact automaton.cellPlace_lt before narrow
  have count : filling.subsets.length = search.nodes.length :=
    congrArg List.length follows.subsets_eq
  refine
    { subsets_eq := ?_
      numbers_eq := ?_
      length_table := ?_
      queued := ?_
      popped := ?_
      written_lt := ?_
      leadsOn := ?_
      silent := ?_ }
  · rw [nodes, ← follows.subsets_eq]
    rfl
  · rw [nodes, List.zipIdx_append, ← follows.numbers_eq, Nat.zero_add, ← count]
    rfl
  · rw [nodes, List.length_append, List.length_singleton]
    exact row.length_eq
  · have before := follows.queued.imp keeps
    have added : (search.nodes ++ [edge.2])[filling.subsets.length]? = some edge.2 := by
      simp [count]
    have leaf : automaton.subsetGraph.isLeaf edge.2 = edge.2.isEmpty := rfl
    rw [nodes, Search.map_queue_follow_of_not_mem fresh, leaf]
    cases empty : edge.2.isEmpty with
    | true => simpa [Filling.grown, empty] using before
    | false =>
        simpa [Filling.grown, empty] using List.rel_append before (.cons added .nil)
  · rw [nodes, Search.popped_follow]
    exact follows.popped.imp keeps
  · intro number column wrote
    rw [nodes, List.length_append]
    exact Nat.lt_add_right _ (follows.written_lt number column wrote)
  · intro number column reason
    rw [nodes] at reason ⊢
    rcases Nat.lt_trichotomy number search.nodes.length with before | rfl | behind
    · rw [List.getElem?_append_left before] at reason
      exact (follows.leadsOn number column reason).append before (old number column before) _
    · rcases reason with wrote | empty
      · exact absurd (follows.written_lt _ column wrote) (Nat.lt_irrefl _)
      · exact row.leadsOn wellFormed (by simpa using empty) column
    · intro subset value located
      rw [List.getElem?_eq_none (by simpa using Nat.succ_le_of_lt behind)] at located
      cases located
  · intro number before
    rw [nodes, List.length_append, List.length_singleton] at before
    rcases Nat.lt_succ_iff_lt_or_eq.1 before with earlier | rfl
    · exact (old number _ earlier (Nat.le_refl _)).trans (follows.silent number earlier)
    · exact row.silent

/-- Where the search follows an edge, the construction meets its target. -/
theorem Follows.exists_meet? (wellFormed : automaton.WellFormed)
    (follows : Follows automaton written search filling) (source : Visit α StateSet)
    (edge : α × StateSet) :
    ∃ met target, automaton.meet? filling edge.2 = some (met, target) ∧
      (search.follow automaton.subsetGraph source edge).nodes[target]? = some edge.2 ∧
      met.popped = filling.popped ∧ met.reads = filling.reads ∧
      Follows automaton written (search.follow automaton.subsetGraph source edge) met := by
  cases found : filling.numbers.lookup edge.2 with
  | some number =>
      have located := follows.lookup_eq_some found
      rw [Search.follow, if_pos (List.mem_of_getElem? located)]
      exact ⟨filling, number, by rw [meet?, found], located, rfl, rfl, follows⟩
  | none =>
      have fresh := follows.not_mem_of_lookup found
      have length := follows.length_table
      rw [← follows.subsets_eq] at length
      rcases automaton.exists_meet?_of_fresh found length with ⟨table, met, row⟩
      refine ⟨_, _, met, ?_, rfl, rfl, ?_⟩
      · rw [Search.nodes_follow_of_not_mem _ _ fresh, follows.subsets_eq]
        simp
      · rw [follows.subsets_eq] at row
        exact follows.grow wellFormed source fresh row

/-- One more cell is written, and it leads on. -/
theorem Follows.write (follows : Follows automaton written search filling) {source target : Nat}
    {subset : StateSet} (stands : search.nodes[source]? = some subset) {value : α} {column : Nat}
    (standing : automaton.alphabet.symbols[column]? = some value)
    (leads : search.nodes[target]? = some (automaton.read subset value)) (reads : Nat) :
    ∃ table, write? filling.table (automaton.cellPlace source column) (.singleton target) =
        some table ∧
      Follows automaton
        (fun row column' => written row column' ∨ (row = source ∧ column' = column)) search
        { filling with table := table, reads := reads } := by
  have within := (List.getElem?_eq_some_iff.1 stands).1
  have narrow := (List.getElem?_eq_some_iff.1 standing).1
  have place : automaton.cellPlace source column < filling.table.length := by
    rw [follows.length_table]
    exact automaton.cellPlace_lt within narrow.le
  -- No other cell changes.
  have others : ∀ row column' : Nat, column' ≤ automaton.alphabet.size →
      ¬ (row = source ∧ column' = column) →
        (filling.table.set (automaton.cellPlace source column)
            (.singleton target))[automaton.cellPlace row column']? =
          filling.table[automaton.cellPlace row column']? := by
    intro row column' narrow' different
    apply List.getElem?_set_ne
    intro same
    rcases (automaton.cellPlace_inj narrow.le narrow').1 same with ⟨rfl, rfl⟩
    exact different ⟨rfl, rfl⟩
  refine ⟨_, write?_eq_some place _, { follows with
    length_table := ?_
    written_lt := ?_
    leadsOn := ?_
    silent := ?_ }⟩
  · rw [List.length_set]
    exact follows.length_table
  · rintro row column' (wrote | ⟨rfl, _⟩)
    · exact follows.written_lt row column' wrote
    · exact within
  · intro row column' reason subset' value' located standing'
    have narrow' := (List.getElem?_eq_some_iff.1 standing').1
    by_cases same : row = source ∧ column' = column
    · rcases same with ⟨rfl, rfl⟩
      rw [stands, Option.some.injEq] at located
      rw [standing, Option.some.injEq] at standing'
      refine ⟨target, ?_, List.getElem?_set_self place⟩
      rw [← located, ← standing']
      exact leads
    · rw [others row column' narrow'.le same]
      refine follows.leadsOn row column' ?_ subset' value' located standing'
      rcases reason with (wrote | written) | empty
      · exact Or.inl wrote
      · exact absurd written same
      · exact Or.inr empty
  · intro row before
    rw [others row _ (Nat.le_refl _) fun same => absurd same.2 (Nat.ne_of_gt narrow)]
    exact follows.silent row before

theorem Follows.exists_fillCell? (wellFormed : automaton.WellFormed)
    (follows : Follows automaton written search filling) (visit : Visit α StateSet) {source : Nat}
    {subset : StateSet} (stands : search.nodes[source]? = some subset) {value : α} {column : Nat}
    (standing : automaton.alphabet.symbols[column]? = some value) :
    ∃ next, automaton.fillCell? source filling (value, column) = some next ∧
      next.popped = filling.popped ∧ next.reads = filling.reads + 1 ∧
      Follows automaton
        (fun row column' => written row column' ∨ (row = source ∧ column' = column))
        (search.follow automaton.subsetGraph visit (value, automaton.read subset value)) next := by
  rcases follows.exists_meet? wellFormed visit (value, automaton.read subset value) with
    ⟨met, target, meets, leads, popped, reads, along⟩
  rcases along.write (Search.getElem?_nodes_follow stands) standing leads (met.reads + 1) with
    ⟨table, wrote, along⟩
  refine ⟨{ met with table := table, reads := met.reads + 1 }, ?_, popped,
    congrArg (· + 1) reads, along⟩
  have looked : filling.subsets[source]? = some subset := by rwa [follows.subsets_eq]
  simp [fillCell?, looked, meets, wrote]

/-- The cells of a row are filled as the search follows the edges of the popped set. -/
theorem Follows.exists_fillCells? (wellFormed : automaton.WellFormed) (visit : Visit α StateSet)
    {source : Nat} {subset : StateSet} (cells : List (α × Nat))
    (standing : ∀ cell ∈ cells, automaton.alphabet.symbols[cell.2]? = some cell.1)
    (follows : Follows automaton written search filling)
    (stands : search.nodes[source]? = some subset) :
    ∃ next, cells.foldlM (automaton.fillCell? source) filling = some next ∧
      next.popped = filling.popped ∧ next.reads = filling.reads + cells.length ∧
      Follows automaton
        (fun row column => written row column ∨ (row = source ∧ ∃ value, (value, column) ∈ cells))
        ((cells.map fun cell => (cell.1, automaton.read subset cell.1)).foldl
          (Search.follow automaton.subsetGraph visit) search) next := by
  induction cells generalizing written search filling with
  | nil => exact ⟨filling, rfl, rfl, rfl, by simpa using follows⟩
  | cons cell cells inductionHypothesis =>
      rcases List.forall_mem_cons.1 standing with ⟨first, others⟩
      rcases follows.exists_fillCell? wellFormed visit stands first with
        ⟨middle, filled, popped, reads, along⟩
      rcases inductionHypothesis others along (Search.getElem?_nodes_follow stands) with
        ⟨next, rest, popped', reads', along'⟩
      refine ⟨next, ?_, popped'.trans popped, ?_, ?_⟩
      · rw [List.foldlM_cons, filled]
        exact rest
      · rw [reads', reads, List.length_cons]
        omega
      · apply along'.mono
        rintro row column (wrote | ⟨same, value, listed⟩)
        · exact Or.inl (Or.inl wrote)
        · rcases List.mem_cons.1 listed with rfl | later
          · exact Or.inl (Or.inr ⟨same, rfl⟩)
          · exact Or.inr ⟨same, value, later⟩

/-! ## Expansions and runs -/

/--
The construction goes along with the search between two expansions: the rows of
the popped sets are filled, and each of their cells took one reading.
-/
structure GoesAlong (automaton : Automaton α) (search : Search α StateSet) (filling : Filling) :
    Prop extends
    Follows automaton (fun row column => row ∈ filling.popped ∧ column < automaton.alphabet.size)
      search filling where
  reads_eq : filling.reads = filling.popped.length * automaton.alphabet.size

theorem goesAlong_firstFilling (something : automaton.start ≠ ∅) :
    GoesAlong automaton (.start automaton.subsetGraph [automaton.start])
      automaton.firstFilling where
  subsets_eq := rfl
  numbers_eq := rfl
  length_table := length_resized _ _
  queued := by
    have inner : automaton.subsetGraph.isLeaf automaton.start = false :=
      Bool.eq_false_iff.2 fun leaf => something ((automaton.isLeaf_subsetGraph_iff _).1 leaf)
    simp [Search.start, Search.nodes, firstFilling, inner]
  popped := .nil
  written_lt := by
    rintro row column ⟨popped, _⟩
    cases popped
  leadsOn := by
    rintro row column (⟨popped, _⟩ | empty)
    · cases popped
    · have first : ∅ = automaton.start := List.mem_singleton.1 (List.mem_of_getElem? empty)
      exact absurd first.symm something
  silent := by
    intro row before
    have first : row = 0 := Nat.lt_one_iff.1 before
    rw [first]
    exact getElem?_resized_of_le (Nat.zero_le _)
      (automaton.cellPlace_lt Nat.zero_lt_one (Nat.le_refl _))
  reads_eq := by simp [firstFilling]

/-- When the search expands a visit, the construction fills the row of its set. -/
theorem GoesAlong.exists_fillRow? (wellFormed : automaton.WellFormed)
    (along : GoesAlong automaton search filling) {visit : Visit α StateSet}
    {visits : List (Visit α StateSet)} (queued : search.queue = visit :: visits) :
    ∃ source rest next, filling.queue = source :: rest ∧
      automaton.fillRow? filling source rest = some next ∧
      GoesAlong automaton (search.expand automaton.subsetGraph visit visits) next := by
  have queue := along.queued
  rw [queued, List.map_cons, List.forall₂_cons_right_iff] at queue
  rcases queue with ⟨source, rest, stands, others, same⟩
  -- The set counts as popped from now on, but nothing of its row is written yet.
  have begun : Follows automaton
      (fun row column => row ∈ filling.popped ∧ column < automaton.alphabet.size)
      (search.taken automaton.subsetGraph visit visits)
      { filling with queue := rest, popped := filling.popped ++ [source] } :=
    { along.toFollows with
      queued := others
      popped := by
        rw [Search.popped, Search.taken, List.map_append]
        exact List.rel_append along.popped (.cons stands .nil) }
  rcases begun.exists_fillCells? wellFormed visit automaton.alphabet.symbols.zipIdx
      (fun cell listed => List.mk_mem_zipIdx_iff_getElem?.1 listed) stands with
    ⟨next, filled, popped, reads, done⟩
  refine ⟨source, rest, next, same, filled, ?_, ?_⟩
  · have edges : automaton.alphabet.symbols.zipIdx.map
        (fun cell => (cell.1, automaton.read visit.node cell.1)) =
          automaton.subsetGraph.edges visit.node := by
      have first := List.zipIdx_map_fst 0 automaton.alphabet.symbols
      exact (List.map_map.symm).trans
        (congrArg (List.map fun value => (value, automaton.read visit.node value)) first)
    rw [edges] at done
    apply done.mono
    intro row column wrote
    rw [popped, List.mem_append, List.mem_singleton] at wrote
    rcases wrote with ⟨earlier | last, narrow⟩
    · exact Or.inl ⟨earlier, narrow⟩
    · refine Or.inr ⟨last, automaton.alphabet.symbols[column], ?_⟩
      exact List.mk_mem_zipIdx_iff_getElem?.2 (List.getElem?_eq_getElem narrow)
  · rw [reads, popped, List.length_append, List.length_singleton, Nat.succ_mul, along.reads_eq,
      List.length_zipIdx]
    rfl

/-- However often the head of the queue is taken, no access is out of range. -/
theorem GoesAlong.exists_fill? (wellFormed : automaton.WellFormed) (bound : Nat)
    (along : GoesAlong automaton search filling) :
    ∃ next, automaton.fill? bound filling = some next ∧
      GoesAlong automaton (search.run automaton.subsetGraph (fun _ => false) bound) next := by
  induction bound generalizing search filling with
  | zero => exact ⟨filling, rfl, along⟩
  | succ bound inductionHypothesis =>
      cases queued : search.queue with
      | nil =>
          have queue := along.queued
          rw [queued, List.map_nil, List.forall₂_nil_right_iff] at queue
          rw [Search.run_of_queue_eq_nil _ _ _ queued]
          exact ⟨filling, by rw [fill?, queue], along⟩
      | cons visit visits =>
          rcases along.exists_fillRow? wellFormed queued with
            ⟨source, rest, next, queue, row, along'⟩
          rcases inductionHypothesis along' with ⟨final, fill, along''⟩
          rw [Search.run_succ _ _ queued]
          refine ⟨final, ?_, along''⟩
          simp only [fill?, queue, row, Option.bind_some, fill]

end Automaton

end WordAutomata
