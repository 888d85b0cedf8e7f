import Mathlib.Data.Set.Function
import WordAutomata.Proofs.Run.Paths
import WordAutomata.Proofs.SubsetConstruction.Numbering

/-!
# The subset construction does not see how states are numbered

If the states of an automaton are numbered anew, then its paths are numbered
anew with them, and so are its active sets.  Since different states keep
different numbers, the same words lead to a common set as before.  The compiled
automata therefore have the same numbering, and each state stands for the same
set of states in its new numbers.
-/

namespace WordAutomata

namespace StateSet

/-- The numbers that are given to the members of a set. -/
def image (set : StateSet) (number : Nat → Nat) : StateSet :=
  .ofList (set.members.map number)

@[simp]
theorem mem_image (set : StateSet) (number : Nat → Nat) (state : Nat) :
    state ∈ set.image number ↔ ∃ member, member ∈ set ∧ number member = state := by
  rw [image, mem_ofList, List.mem_map]
  rfl

theorem image_eq_empty_iff (set : StateSet) (number : Nat → Nat) :
    set.image number = ∅ ↔ set = ∅ := by
  constructor
  · intro nothing
    ext state
    constructor
    · intro member
      have numbered := (mem_image set number _).2 ⟨state, member, rfl⟩
      rw [nothing] at numbered
      exact absurd numbered (not_mem_empty _)
    · intro member
      exact absurd member (not_mem_empty state)
  · rintro rfl
    rfl

variable {number : Nat → Nat} {bound : Nat}

/-- A member is found again under its number, as no other state below the bound shares it. -/
theorem mem_of_number_mem_image (injective : Set.InjOn number {state | state < bound})
    {set : StateSet} (within : ∀ state, state ∈ set → state < bound) {state : Nat}
    (present : state < bound) (member : number state ∈ set.image number) :
    state ∈ set := by
  rcases (mem_image set number _).1 member with ⟨other, located, same⟩
  rwa [← injective (within other located) present same]

theorem image_injective (injective : Set.InjOn number {state | state < bound})
    {left right : StateSet} (leftWithin : ∀ state, state ∈ left → state < bound)
    (rightWithin : ∀ state, state ∈ right → state < bound)
    (same : left.image number = right.image number) :
    left = right := by
  ext state
  constructor
  · intro member
    apply mem_of_number_mem_image injective rightWithin (leftWithin state member)
    rw [← same]
    exact (mem_image left number _).2 ⟨state, member, rfl⟩
  · intro member
    apply mem_of_number_mem_image injective leftWithin (rightWithin state member)
    rw [same]
    exact (mem_image right number _).2 ⟨state, member, rfl⟩

theorem intersects_image (injective : Set.InjOn number {state | state < bound})
    {left right : StateSet} (leftWithin : ∀ state, state ∈ left → state < bound)
    (rightWithin : ∀ state, state ∈ right → state < bound) :
    (left.image number).intersects (right.image number) = left.intersects right := by
  rw [Bool.eq_iff_iff, intersects_iff, intersects_iff]
  constructor
  · rintro ⟨renumbered, inLeft, inRight⟩
    rcases (mem_image left number _).1 inLeft with ⟨state, member, rfl⟩
    exact ⟨state, member,
      mem_of_number_mem_image injective rightWithin (leftWithin state member) inRight⟩
  · rintro ⟨state, inLeft, inRight⟩
    exact ⟨number state, (mem_image left number _).2 ⟨state, inLeft, rfl⟩,
      (mem_image right number _).2 ⟨state, inRight, rfl⟩⟩

end StateSet

/-- The edge between the states that have got new numbers. -/
def Edge.renumbered {α : Type} (number : Nat → Nat) (edge : Edge α) : Edge α :=
  ⟨number edge.source, edge.label, number edge.target⟩

namespace Automaton

variable {α : Type} [DecidableEq α]

/--
The second automaton is the first one with its states numbered anew.  Initial
states correspond to initial ones, accepting states to accepting ones, and edges
to edges with the same label.  The names of the states do not matter.
-/
structure Renumbering (left right : Automaton α) (number : Nat → Nat) : Prop where
  alphabet_eq : left.alphabet = right.alphabet
  bijective : Set.BijOn number {state | state < left.size} {state | state < right.size}
  initial_eq : right.initial = left.initial.image number
  accepting_eq : right.accepting = left.accepting.image number
  renumbered_mem_edges : ∀ edge ∈ left.edges, edge.renumbered number ∈ right.edges
  exists_renumbered_eq : ∀ edge ∈ right.edges, ∃ origin ∈ left.edges,
    origin.renumbered number = edge

variable {left right : Automaton α} {number : Nat → Nat}

theorem WellFormed.active_lt {automaton : Automaton α} (wellFormed : automaton.WellFormed)
    {word : List α} {state : Nat} (member : state ∈ automaton.active word) :
    state < automaton.size := by
  cases word using List.reverseRecOn with
  | nil => exact wellFormed.start_lt member
  | append_singleton word last =>
      rw [active_append_singleton] at member
      exact wellFormed.read_lt member

/-! ## Paths -/

theorem Renumbering.path (renumbering : left.Renumbering right number) {source target : Nat}
    {labels : List (Label α)} (path : left.Path source labels target) :
    right.Path (number source) labels (number target) := by
  induction path with
  | nil => exact .nil _
  | cons listed _ inductionHypothesis =>
      exact .cons (renumbering.renumbered_mem_edges _ listed) inductionHypothesis

/-- Every path of the second automaton from a state with a new number has an original. -/
theorem Renumbering.exists_path (renumbering : left.Renumbering right number)
    (wellFormed : left.WellFormed) {labels : List (Label α)} {source target : Nat}
    (present : source < left.size) (path : right.Path (number source) labels target) :
    ∃ origin, left.Path source labels origin ∧ number origin = target := by
  induction labels generalizing source with
  | nil =>
      cases path
      exact ⟨source, .nil source, rfl⟩
  | cons label labels inductionHypothesis =>
      cases path with
      | cons listed rest =>
          rcases renumbering.exists_renumbered_eq _ listed with ⟨origin, listed', same⟩
          rcases Edge.mk.inj same with ⟨sources, rfl, rfl⟩
          have bounds := wellFormed.edge_lt listed'
          have started := renumbering.bijective.injOn bounds.1 present sources
          rcases inductionHypothesis bounds.2 rest with ⟨ending, path, numbered⟩
          exact ⟨ending, .cons (started ▸ listed') path, numbered⟩

/-! ## Active sets -/

section Active

variable (renumbering : left.Renumbering right number) (leftWellFormed : left.WellFormed)
  (rightWellFormed : right.WellFormed)

include renumbering leftWellFormed rightWellFormed

/-- What is active after a word is the same set in new numbers. -/
theorem Renumbering.active_eq (word : List α) :
    right.active word = (left.active word).image number := by
  ext state
  rw [rightWellFormed.mem_active_iff, StateSet.mem_image]
  constructor
  · rintro ⟨origin, initial, labels, path, spelled⟩
    rw [renumbering.initial_eq, StateSet.mem_image] at initial
    rcases initial with ⟨start, initial, rfl⟩
    rcases renumbering.exists_path leftWellFormed (leftWellFormed.initial_lt start initial) path
      with ⟨ending, path, numbered⟩
    exact ⟨ending,
      (leftWellFormed.mem_active_iff word ending).2 ⟨start, initial, labels, path, spelled⟩,
      numbered⟩
  · rintro ⟨member, reached, rfl⟩
    rcases (leftWellFormed.mem_active_iff word member).1 reached with
      ⟨origin, initial, labels, path, spelled⟩
    refine ⟨number origin, ?_, labels, renumbering.path path, spelled⟩
    rw [renumbering.initial_eq]
    exact (StateSet.mem_image _ _ _).2 ⟨origin, initial, rfl⟩

theorem Renumbering.sameFibres : left.alphabet.SameFibres left.active right.active := by
  intro first second _ _
  rw [renumbering.active_eq leftWellFormed rightWellFormed first,
    renumbering.active_eq leftWellFormed rightWellFormed second]
  constructor
  · intro same
    rw [same]
  · intro same
    exact StateSet.image_injective renumbering.bijective.injOn
      (fun _ => leftWellFormed.active_lt) (fun _ => leftWellFormed.active_lt) same

theorem Renumbering.intersects_accepting (word : List α) :
    (left.active word).intersects left.accepting =
      (right.active word).intersects right.accepting := by
  rw [renumbering.active_eq leftWellFormed rightWellFormed, renumbering.accepting_eq]
  exact (StateSet.intersects_image renumbering.bijective.injOn
    (fun _ => leftWellFormed.active_lt) leftWellFormed.accepting_lt).symm

theorem Renumbering.subsetOf?_eq (state : Nat) :
    right.subsetAutomaton.subsetOf? state =
      (left.subsetAutomaton.subsetOf? state).map (·.image number) := by
  have words := stateWords_eq leftWellFormed rightWellFormed renumbering.alphabet_eq
    (renumbering.sameFibres leftWellFormed rightWellFormed)
  rw [leftWellFormed.subsetOf?_subsetAutomaton_eq, rightWellFormed.subsetOf?_subsetAutomaton_eq,
    ← words, Option.map_map]
  congr 1
  funext word
  exact renumbering.active_eq leftWellFormed rightWellFormed word

end Active

/--
If the states of an automaton are numbered anew, then the compiled automaton is
the same up to the names of its states, and each of its states stands for the
same set in new numbers.
-/
theorem determinize_renumbered {left right : Automaton α} {number : Nat → Nat}
    (leftWellFormed : left.WellFormed) (rightWellFormed : right.WellFormed)
    (renumbering : left.Renumbering right number) :
    (left.determinize = .error .noInitialState ∧ right.determinize = .error .noInitialState) ∨
      ∃ leftDfa rightDfa, left.determinize = .ok leftDfa ∧ right.determinize = .ok rightDfa ∧
        leftDfa.SameNumbering rightDfa ∧
        ∀ state, rightDfa.subsetOf? state = (leftDfa.subsetOf? state).map (·.image number) := by
  have sameStart : right.initial = ∅ ↔ left.initial = ∅ := by
    rw [renumbering.initial_eq, StateSet.image_eq_empty_iff]
  by_cases nothing : left.initial = ∅
  · exact Or.inl ⟨left.determinize_of_initial_eq_empty nothing,
      right.determinize_of_initial_eq_empty (sameStart.2 nothing)⟩
  · refine Or.inr ⟨left.subsetAutomaton, right.subsetAutomaton,
      left.determinize_of_initial_ne_empty nothing,
      right.determinize_of_initial_ne_empty (fun empty => nothing (sameStart.1 empty)), ?_,
      renumbering.subsetOf?_eq leftWellFormed rightWellFormed⟩
    exact sameNumbering_subsetAutomaton leftWellFormed rightWellFormed renumbering.alphabet_eq
      (renumbering.sameFibres leftWellFormed rightWellFormed)
      (fun word _ => renumbering.intersects_accepting leftWellFormed rightWellFormed word)

/-- The automaton `silentCycle` with its states in another order, and under other names. -/
def turnedCycle : Automaton Char where
  alphabet := silentCycle.alphabet
  states :=
    [⟨"two", [∅, .singleton 1], .singleton 2⟩,
      ⟨"three", [∅, ∅], ∅⟩,
      ⟨"one", [.singleton 2, ∅], .singleton 0⟩]
  initial := .singleton 2
  accepting := .singleton 1

theorem renumbering_turnedCycle :
    silentCycle.Renumbering turnedCycle fun state => (state + 2) % 3 where
  alphabet_eq := rfl
  bijective := by
    refine ⟨?_, ?_, ?_⟩
    · intro state _
      exact Nat.mod_lt _ (by decide)
    · intro first left second right same
      change first < 3 at left
      change second < 3 at right
      dsimp only at same
      omega
    · intro state present
      change state < 3 at present
      refine ⟨(state + 1) % 3, Nat.mod_lt _ (by decide), ?_⟩
      dsimp only
      omega
  initial_eq := by decide
  accepting_eq := by decide
  renumbered_mem_edges := by decide
  exists_renumbered_eq := by decide

theorem determinize_renumbered_turnedCycle :
    silentCycle.WellFormed ∧ turnedCycle.WellFormed ∧
      (silentCycle.Renumbering turnedCycle fun state => (state + 2) % 3) ∧
      ∃ leftDfa rightDfa, silentCycle.determinize = .ok leftDfa ∧
        turnedCycle.determinize = .ok rightDfa ∧ leftDfa.SameNumbering rightDfa ∧
        leftDfa.subsetOf? 0 = some (.ofList [0, 1]) ∧
        rightDfa.subsetOf? 0 = some (.ofList [2, 0]) := by
  have leftWellFormed : silentCycle.WellFormed := by decide
  have rightWellFormed : turnedCycle.WellFormed := by decide
  have started : silentCycle.determinize = .ok silentCycle.subsetAutomaton := by rfl
  rcases determinize_renumbered leftWellFormed rightWellFormed renumbering_turnedCycle with
    ⟨failed, _⟩ | ⟨leftDfa, rightDfa, compiled, compiled', same, subsets⟩
  · rw [started] at failed
    cases failed
  · have first : leftDfa.subsetOf? 0 = some (.ofList [0, 1]) := by
      rw [started, Except.ok.injEq] at compiled
      rw [← compiled]
      rfl
    refine ⟨leftWellFormed, rightWellFormed, renumbering_turnedCycle, leftDfa, rightDfa, compiled,
      compiled', same, first, ?_⟩
    rw [subsets, first]
    rfl

end Automaton

end WordAutomata
