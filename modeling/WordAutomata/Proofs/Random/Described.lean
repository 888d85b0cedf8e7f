import WordAutomata.Proofs.Description.NormalForm
import WordAutomata.Proofs.Description.Steps
import WordAutomata.Proofs.Family.FromLast
import WordAutomata.Proofs.Lists
import WordAutomata.Random.Automaton

/-!
# From what was drawn to an automaton

The description of drawn states and edges declares all states first, in the order
of their numbers, so the numbers by which they are named are those that they get.
It always resolves, and the automaton has the states and edges that were drawn
and no others.
-/

namespace WordAutomata

namespace Random

open Description Family

variable {alphabet : Alphabet Char} {states : List StateDraw} {edges : List (Edge Char)}
  {size : Nat}

/-- All steps that describe what was drawn: first the states, and then the edges. -/
def drawnSteps (states : List StateDraw) (edges : List (Edge Char)) : List (Step Char) :=
  states.flatMap stateSteps ++ edges.map edgeStep

/-- The states are numbered in order, and the edges lead between them. -/
structure Fits (alphabet : Alphabet Char) (size : Nat) (states : List StateDraw)
    (edges : List (Edge Char)) : Prop where
  numbered : states.map StateDraw.state = List.range size
  edges_lt : ∀ edge ∈ edges, edge.source < size ∧ edge.target < size
  labels_mem : ∀ edge ∈ edges, edge.label ∈ alphabet.labels

/-! ## What the steps say -/

theorem isRow_drawnSteps (states : List StateDraw) (edges : List (Edge Char)) :
    ∀ step ∈ drawnSteps states edges, step.isRow = false := by
  rw [drawnSteps, List.forall_mem_append, List.forall_mem_map, List.forall_mem_flatMap]
  refine ⟨fun draw _ => ?_, fun _ _ => rfl⟩
  simp only [stateSteps, List.forall_mem_append, List.forall_mem_singleton]
  refine ⟨⟨rfl, ?_⟩, ?_⟩
  · split <;> simp [Step.isRow]
  · split <;> simp [Step.isRow]

theorem edge_mem_drawnSteps_iff (states : List StateDraw) (edges : List (Edge Char))
    (source : String) (label : Label Char) (target : String) :
    .edge source label target ∈ drawnSteps states edges ↔
      ∃ edge ∈ edges, stateName edge.source = source ∧ edge.label = label ∧
        stateName edge.target = target := by
  have declaring : ∀ draw : StateDraw, .edge source label target ∉ stateSteps draw := by
    intro draw
    simp only [stateSteps]
    split <;> split <;> simp
  simp [drawnSteps, edgeStep, declaring]

/-- What only the declaration of a chosen state gives is given for the chosen states. -/
theorem mem_flatMap_drawnSteps_iff {given : Step Char → List String} {chosen : StateDraw → Bool}
    (declaring : ∀ draw, (stateSteps draw).flatMap given =
      if chosen draw then [stateName draw.state] else [])
    (adding : ∀ edge, given (edgeStep edge) = []) (states : List StateDraw)
    (edges : List (Edge Char)) (name : String) :
    name ∈ (drawnSteps states edges).flatMap given ↔
      ∃ draw ∈ states, chosen draw = true ∧ stateName draw.state = name := by
  have nothing : (edges.map edgeStep).flatMap given = [] := by
    simp [List.flatMap_map, adding]
  rw [drawnSteps, List.flatMap_append, List.flatMap_assoc, nothing, List.append_nil,
    List.mem_flatMap]
  refine exists_congr fun draw => and_congr_right fun _ => ?_
  rw [declaring]
  split
  · next yes => simp [yes, eq_comm]
  · next no => simp [no]

theorem mem_initials_drawnSteps_iff (states : List StateDraw) (edges : List (Edge Char))
    (name : String) :
    name ∈ initials (drawnSteps states edges) ↔
      ∃ draw ∈ states, draw.isInitial = true ∧ stateName draw.state = name := by
  apply mem_flatMap_drawnSteps_iff
  · rintro ⟨state, isInitial, isAccepting⟩
    cases isInitial <;> cases isAccepting <;> rfl
  · exact fun _ => rfl

theorem mem_acceptings_drawnSteps_iff (states : List StateDraw) (edges : List (Edge Char))
    (name : String) :
    name ∈ acceptings (drawnSteps states edges) ↔
      ∃ draw ∈ states, draw.isAccepting = true ∧ stateName draw.state = name := by
  apply mem_flatMap_drawnSteps_iff
  · rintro ⟨state, isInitial, isAccepting⟩
    cases isInitial <;> cases isAccepting <;> rfl
  · exact fun _ => rfl

/-- All states are mentioned in order before any edge mentions them again. -/
theorem mentioned_drawnSteps (states : List StateDraw) (edges : List (Edge Char)) :
    mentioned (drawnSteps states edges) =
      (states.map StateDraw.state).map stateName ++
        edges.flatMap fun edge => [stateName edge.source, stateName edge.target] := by
  have declaring : ∀ draw : StateDraw, (stateSteps draw).flatMap Step.mentions =
      [stateName draw.state] := by
    rintro ⟨state, isInitial, isAccepting⟩
    cases isInitial <;> cases isAccepting <;> rfl
  rw [mentioned, drawnSteps, List.flatMap_append, List.flatMap_assoc, List.flatMap_map,
    List.map_map]
  simp only [declaring, edgeStep, Step.mentions]
  rw [← List.map_eq_flatMap]
  rfl

/-! ## The description -/

theorem nodup_map_stateName (size : Nat) : ((List.range size).map stateName).Nodup :=
  List.nodup_range.map fun _ _ same => (stateName_inj _ _).1 same

theorem grownBy_describe (alphabet : Alphabet Char) (states : List StateDraw)
    (edges : List (Edge Char)) :
    GrownBy alphabet.symbols (drawnSteps states edges) (describe alphabet states edges) :=
  grownBy_fromSteps alphabet.symbols _ (isRow_drawnSteps states edges)

theorem Fits.names_describe (fits : Fits alphabet size states edges) :
    (describe alphabet states edges).names = (List.range size).map stateName := by
  rw [(grownBy_describe alphabet states edges).names_eq, mentioned_drawnSteps, fits.numbered]
  apply eraseDups_append_of_subset (nodup_map_stateName size)
  intro name again
  rcases List.mem_flatMap.1 again with ⟨edge, listed, member⟩
  have within := fits.edges_lt edge listed
  rcases List.mem_pair.1 member with rfl | rfl
  · exact List.mem_map_of_mem (List.mem_range.2 within.1)
  · exact List.mem_map_of_mem (List.mem_range.2 within.2)

theorem Fits.state_lt (fits : Fits alphabet size states edges) {draw : StateDraw}
    (listed : draw ∈ states) :
    draw.state < size := by
  have numbered : draw.state ∈ states.map StateDraw.state := List.mem_map_of_mem listed
  rw [fits.numbered] at numbered
  exact List.mem_range.1 numbered

theorem Fits.wellFormed_describe (fits : Fits alphabet size states edges) :
    (describe alphabet states edges).WellFormed := by
  have grown := grownBy_describe alphabet states edges
  have declared : ∀ draw ∈ states,
      stateName draw.state ∈ mentioned (drawnSteps states edges) := by
    intro draw listed
    rw [← grown.mem_names_iff, fits.names_describe]
    exact List.mem_map_of_mem (List.mem_range.2 (fits.state_lt listed))
  rw [grown.wellFormed_iff]
  refine ⟨alphabet.nodup, ?_, ?_, ?_⟩
  · intro source value target step
    rcases (edge_mem_drawnSteps_iff _ _ _ _ _).1 step with ⟨edge, listed, _, labelled, _⟩
    exact (alphabet.mem_labels edge.label).1 (fits.labels_mem edge listed) value labelled
  · intro name given
    rcases (mem_initials_drawnSteps_iff _ _ name).1 given with ⟨draw, listed, _, rfl⟩
    exact declared draw listed
  · intro name given
    rcases (mem_acceptings_drawnSteps_iff _ _ name).1 given with ⟨draw, listed, _, rfl⟩
    exact declared draw listed

/-! ## The automaton -/

/-- The automaton has the states and the edges that were drawn. -/
structure Shows (alphabet : Alphabet Char) (size : Nat) (states : List StateDraw)
    (edges : List (Edge Char)) (automaton : Automaton Char) : Prop where
  wellFormed : automaton.WellFormed
  alphabet_eq : automaton.alphabet = alphabet
  names_eq : automaton.names = (List.range size).map stateName
  mem_initial_iff : ∀ state, state ∈ automaton.initial ↔
    ∃ draw ∈ states, draw.isInitial = true ∧ draw.state = state
  mem_accepting_iff : ∀ state, state ∈ automaton.accepting ↔
    ∃ draw ∈ states, draw.isAccepting = true ∧ draw.state = state
  mem_edges_iff : ∀ edge, edge ∈ automaton.edges ↔ edge ∈ edges

/-- The states whose names are given for the chosen draws are the chosen states. -/
theorem Fits.exists_named_iff (fits : Fits alphabet size states edges)
    {automaton : Automaton Char} (names : automaton.names = (List.range size).map stateName)
    {given : List String} {chosen : StateDraw → Bool}
    (mem_given_iff : ∀ name, name ∈ given ↔
      ∃ draw ∈ states, chosen draw = true ∧ stateName draw.state = name) (state : Nat) :
    (∃ name ∈ given, automaton.name? state = some name) ↔
      ∃ draw ∈ states, chosen draw = true ∧ draw.state = state := by
  have named := name?_eq_some_stateName_iff names
  simp only [mem_given_iff]
  constructor
  · rintro ⟨_, ⟨draw, listed, yes, rfl⟩, standing⟩
    exact ⟨draw, listed, yes, ((named state _).1 standing).1.symm⟩
  · rintro ⟨draw, listed, yes, rfl⟩
    exact ⟨_, ⟨draw, listed, yes, rfl⟩, (named _ _).2 ⟨rfl, fits.state_lt listed⟩⟩

theorem Fits.shows (fits : Fits alphabet size states edges) {automaton : Automaton Char}
    (resolved : (describe alphabet states edges).resolve = .ok automaton) :
    Shows alphabet size states edges automaton := by
  have grown := grownBy_describe alphabet states edges
  have describes := describes_of_resolve resolved
  have names : automaton.names = (List.range size).map stateName :=
    (names_eq_of_resolve resolved).trans fits.names_describe
  have named := name?_eq_some_stateName_iff names
  refine
    { wellFormed := wellFormed_of_resolve resolved
      alphabet_eq := Alphabet.ext_symbols (describes.symbols_eq.trans grown.alphabet_eq)
      names_eq := names
      mem_initial_iff := ?_
      mem_accepting_iff := ?_
      mem_edges_iff := ?_ }
  · intro state
    rw [describes.mem_initial_iff, grown.start_eq]
    exact fits.exists_named_iff names (mem_initials_drawnSteps_iff states edges) state
  · intro state
    rw [describes.mem_accepting_iff, grown.accept_eq]
    exact fits.exists_named_iff names (mem_acceptings_drawnSteps_iff states edges) state
  · rintro ⟨source, label, target⟩
    rw [describes.mem_edges_iff_lists grown.names_nodup]
    simp only [grown.lists_iff, edge_mem_drawnSteps_iff]
    constructor
    · rintro ⟨_, _, standing, standing', edge, listed, rfl, rfl, rfl⟩
      rw [((named _ _).1 standing).1, ((named _ _).1 standing').1]
      exact listed
    · intro listed
      have within := fits.edges_lt _ listed
      exact ⟨_, _, (named source source).2 ⟨rfl, within.1⟩,
        (named target target).2 ⟨rfl, within.2⟩, _, listed, rfl, rfl, rfl⟩

/-- The description of what was drawn always resolves. -/
theorem Fits.exists_resolve (fits : Fits alphabet size states edges) :
    ∃ automaton, (describe alphabet states edges).resolve = .ok automaton ∧
      Shows alphabet size states edges automaton := by
  rcases fits.wellFormed_describe.exists_resolve with ⟨automaton, resolved⟩
  exact ⟨automaton, resolved, fits.shows resolved⟩

end Random

end WordAutomata
