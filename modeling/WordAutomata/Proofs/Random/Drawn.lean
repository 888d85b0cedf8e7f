import WordAutomata.Proofs.Random.Candidates
import WordAutomata.Proofs.Random.Described
import WordAutomata.Proofs.Random.Stream
import WordAutomata.Proofs.SubsetConstruction.WellFormed

/-!
# Random automata

Whatever a source gives, an automaton can be drawn from it.  The states are drawn
first.  Then each edge that the automaton may have gets one number, which alone
decides whether the edge is there, and the source is left behind the last of
these numbers.  The first state is always initial, so the automaton can always be
determinized.
-/

namespace WordAutomata

/-- There are enough letters for alphabets of up to 26 symbols. -/
theorem Alphabet.exists_ofSize {size : Nat} (known : size ≤ 26) :
    ∃ alphabet, ofSize size = .ok alphabet ∧ alphabet.symbols = lowercase.take size ∧
      alphabet.size = size := by
  have distinct := lowercase_nodup.sublist (List.take_sublist size lowercase)
  have width : (lowercase.take size).length = size := by
    rw [List.length_take]
    exact Nat.min_eq_left known
  exact ⟨⟨lowercase.take size, distinct⟩, if_pos known, rfl, width⟩

namespace Random

open Family

variable {σ : Type} [Source σ] {alphabet : Alphabet Char} {size : Nat}

/-- What is drawn for the states, in the order of their numbers. -/
def drawnStates (size : Nat) (source : σ) : List StateDraw :=
  (Generator.each (drawState size) (List.range size) source).1

/-- The source when all states have been drawn, and no edge yet. -/
def afterStates (size : Nat) (source : σ) : σ :=
  (Generator.each (drawState size) (List.range size) source).2

/-- The edges whose numbers keep them. -/
def drawnEdges (alphabet : Alphabet Char) (size : Nat) (density : Density) (source : σ) :
    List (Edge Char) :=
  keptEdges density (candidates alphabet size)
    ((List.range (candidates alphabet size).length).map fun place =>
      unitAt place (afterStates size source))

theorem drawDescription_eq (alphabet : Alphabet Char) (size : Nat) (density : Density)
    (source : σ) :
    drawDescription alphabet size density source =
      (describe alphabet (drawnStates size source) (drawnEdges alphabet size density source),
        afterUnits (size * placesPerSource alphabet size) (afterStates size source)) := by
  have numbers := each_unit (candidates alphabet size) (afterStates size source)
  rw [← length_candidates]
  show (describe alphabet _ (keptEdges density _
    (Generator.each _ _ (afterStates size source)).1),
      (Generator.each _ _ (afterStates size source)).2) = _
  rw [numbers]
  rfl

/-! ## What is drawn -/

/-- An edge that reads nothing is kept half as often as any other edge. -/
theorem keeps_eq_less (density : Density) (edge : Edge Char) (drawn : Double) :
    keeps density edge drawn =
      drawn.less (if edge.label = .epsilon then density.halved else density) := by
  rw [keeps]
  cases edge.label <;> rfl

/-- The number of an edge alone decides whether it is kept. -/
theorem mem_drawnEdges_iff (alphabet : Alphabet Char) (size : Nat) (density : Density)
    (source : σ) (edge : Edge Char) :
    edge ∈ drawnEdges alphabet size density source ↔
      IsCandidate alphabet size edge ∧
        keeps density edge
          (unitAt (placeOf alphabet size edge) (afterStates size source)) = true := by
  rw [drawnEdges, mem_keptEdges_iff]
  simp only [getElem?_candidates_eq_some_iff]
  constructor
  · rintro ⟨_, ⟨candidate, rfl⟩, kept⟩
    exact ⟨candidate, kept⟩
  · rintro ⟨candidate, kept⟩
    exact ⟨_, ⟨candidate, rfl⟩, kept⟩

/-- One draw is made for each state, in the order of their numbers. -/
theorem map_state_drawnStates (size : Nat) (source : σ) :
    (drawnStates size source).map StateDraw.state = List.range size := by
  have kept : ∀ state (current : σ), (drawState size state current).1.state = id state :=
    fun _ _ => rfl
  rw [drawnStates, map_each kept, List.map_id]

theorem fits_drawn (alphabet : Alphabet Char) (size : Nat) (density : Density) (source : σ) :
    Fits alphabet size (drawnStates size source) (drawnEdges alphabet size density source) := by
  have candidate : ∀ edge ∈ drawnEdges alphabet size density source,
      IsCandidate alphabet size edge :=
    fun edge kept => ((mem_drawnEdges_iff alphabet size density source edge).1 kept).1
  exact
    { numbered := map_state_drawnStates size source
      edges_lt := fun edge kept =>
        ⟨(candidate edge kept).source_lt, (candidate edge kept).target_lt⟩
      labels_mem := fun edge kept => (candidate edge kept).label_mem }

/-- The first state is initial without a draw. -/
theorem exists_initial_mem_drawnStates (positive : 0 < size) (source : σ) :
    ∃ draw ∈ drawnStates size source, draw.isInitial = true ∧ draw.state = 0 := by
  have first : 0 ∈ (drawnStates size source).map StateDraw.state := by
    rw [map_state_drawnStates]
    exact List.mem_range.2 positive
  rcases List.mem_map.1 first with ⟨draw, listed, zero⟩
  have initial : ∀ draw ∈ drawnStates size source, draw.state = 0 → draw.isInitial = true := by
    apply forall_mem_each
    intro state current here
    have zero : state = 0 := here
    simp only [drawState, zero, if_pos]
  exact ⟨draw, listed, initial draw listed zero, zero⟩

/-! ## The automaton -/

/-- An automaton can be drawn from any source, and it shows what was drawn. -/
theorem exists_drawAutomaton {symbolCount : Nat}
    (letters : Alphabet.ofSize symbolCount = .ok alphabet) (positive : 0 < size)
    (density : Density) (source : σ) :
    ∃ automaton,
      drawAutomaton symbolCount size density source =
        .ok (automaton,
          afterUnits (size * placesPerSource alphabet size) (afterStates size source)) ∧
      Shows alphabet size (drawnStates size source) (drawnEdges alphabet size density source)
        automaton := by
  rcases (fits_drawn alphabet size density source).exists_resolve with ⟨automaton, resolved, shows⟩
  refine ⟨automaton, ?_, shows⟩
  rw [drawAutomaton, if_neg (Nat.pos_iff_ne_zero.1 positive), letters]
  simp only [drawDescription_eq, Family.member, resolved]
  rfl

theorem Shows.size_eq {states : List StateDraw} {edges : List (Edge Char)}
    {automaton : Automaton Char} (shows : Shows alphabet size states edges automaton) :
    automaton.size = size := by
  rw [← automaton.length_names, shows.names_eq, List.length_map, List.length_range]

/--
Whatever the source gives and whatever the density is, the automaton can be
drawn.  It is over the first letters, its states are named by their numbers, the
first of them is initial, and no silent edge leads back to its source.  Each edge
that it may have takes one number in order, and is there exactly if that number
is less than the density, or less than half of it for an edge that reads nothing.
The automaton can be determinized.
-/
theorem drawAutomaton_decides_each_edge {symbolCount size : Nat} (known : symbolCount ≤ 26)
    (positive : 0 < size) (density : Density) (source : σ) :
    ∃ automaton rest,
      drawAutomaton symbolCount size density source = .ok (automaton, rest) ∧
        automaton.WellFormed ∧
        automaton.alphabet.symbols = Alphabet.lowercase.take symbolCount ∧
        automaton.alphabet.size = symbolCount ∧
        automaton.size = size ∧
        (∀ state < size, automaton.name? state = some ("q" ++ toString state)) ∧
        0 ∈ automaton.initial ∧
        (∀ state, ⟨state, .epsilon, state⟩ ∉ automaton.edges) ∧
        Enumerates automaton.alphabet size (size * (size * symbolCount + (size - 1))) ∧
        rest = afterUnits (size * (size * symbolCount + (size - 1))) (afterStates size source) ∧
        (∀ edge, edge ∈ automaton.edges ↔
          IsCandidate automaton.alphabet size edge ∧
            (unitAt (placeOf automaton.alphabet size edge) (afterStates size source)).less
              (if edge.label = .epsilon then density.halved else density) = true) ∧
        ∃ dfa, automaton.determinize = .ok dfa ∧ dfa.WellFormed := by
  rcases Alphabet.exists_ofSize known with ⟨alphabet, letters, symbols, width⟩
  rcases exists_drawAutomaton letters positive density source with ⟨automaton, drawn, shows⟩
  obtain rfl := shows.alphabet_eq
  have initial : 0 ∈ automaton.initial :=
    (shows.mem_initial_iff 0).2 (exists_initial_mem_drawnStates positive source)
  have edges (edge : Edge Char) :=
    (shows.mem_edges_iff edge).trans
      (mem_drawnEdges_iff automaton.alphabet size density source edge)
  simp only [keeps_eq_less] at edges
  have compiled := automaton.determinize_of_initial_ne_empty
    fun nothing => StateSet.not_mem_empty 0 (nothing ▸ initial)
  refine ⟨automaton, _, drawn, shows.wellFormed, symbols, width, shows.size_eq, ?_, initial, ?_,
    ?_, ?_, edges, _, compiled, shows.wellFormed.wellFormed_of_determinize compiled⟩
  · intro state present
    exact (name?_eq_some_stateName_iff shows.names_eq state state).2 ⟨rfl, present⟩
  · intro state listed
    exact ((edges _).1 listed).1.source_ne_target rfl rfl
  · rw [← width]
    exact enumerates automaton.alphabet size
  · rw [← width, placesPerSource]

/-- The automaton of five states that a generator starting from seven gives. -/
theorem drawAutomaton_decides_each_edge_seven :
    ∃ automaton rest,
      drawAutomaton 2 5 (.ofDecimal 3 1) (⟨7⟩ : Generator) = .ok (automaton, rest) ∧
        automaton.size = 5 ∧ 0 ∈ automaton.initial ∧
        (⟨4, .epsilon, 3⟩ : Edge Char) ∈ automaton.edges := by
  rcases drawAutomaton_decides_each_edge (by decide : 2 ≤ 26) (by decide : 0 < 5)
      (.ofDecimal 3 1) (⟨7⟩ : Generator) with
    ⟨automaton, rest, drawn, _, symbols, _, size, _, initial, _, _, _, edges, _⟩
  have alphabet : automaton.alphabet = ⟨['a', 'b'], by decide⟩ := Alphabet.ext_symbols symbols
  refine ⟨automaton, rest, drawn, size, initial, (edges _).2 ?_⟩
  rw [alphabet]
  refine ⟨⟨by decide, by decide, by decide, by decide⟩, ?_⟩
  decide +kernel

end Random

end WordAutomata
