import Mathlib.Data.List.ProdSigma
import WordAutomata.Dfa.Difference
import WordAutomata.Proofs.LeastWord
import WordAutomata.Proofs.Run.Deterministic

/-!
# The least word on which two automata differ

A word over the alphabet of the first automaton leads both automata to a pair
of places.  A place is a state, or it is nowhere if the word cannot be read,
because an edge is missing or because the second automaton does not know a
symbol.  The search through the pairs therefore stops at the least word, in
length-lexicographic order, that exactly one of the automata accepts.  If there
is no such word, then the search meets all pairs and ends.
-/

namespace WordAutomata

variable {α : Type} [DecidableEq α]

namespace Dfa

/-! ## Words and pairs of places -/

/--
The word is over the alphabet of `left`, and exactly one of the automata
accepts it.  A run that fails does not accept.
-/
def Differs (left right : Dfa α) (word : List α) : Prop :=
  left.automaton.alphabet.IsWord word ∧
    ¬ (left.decides word = .ok true ↔ right.decides word = .ok true)

/-- Exactly one side accepts at the pair of places. -/
def separates (left right : Dfa α) (pair : Option Nat × Option Nat) : Bool :=
  left.acceptsAt pair.1 != right.acceptsAt pair.2

/-- The pair of places to which a word leads. -/
def pairAfter (left right : Dfa α) (word : List α) : Option Nat × Option Nat :=
  (left.stateAfter word, right.stateAfter word)

theorem acceptsAt_stateAfter_iff (dfa : Dfa α) (word : List α) :
    dfa.acceptsAt (dfa.stateAfter word) = true ↔ dfa.decides word = .ok true := by
  rw [decides_eq_ok_iff]
  cases dfa.stateAfter word with
  | none => simp [acceptsAt]
  | some state => simp [acceptsAt]

theorem differs_iff (left right : Dfa α) (word : List α) :
    Differs left right word ↔
      left.automaton.alphabet.IsWord word ∧
        separates left right (pairAfter left right word) = true := by
  rw [Differs, separates, pairAfter, ← left.acceptsAt_stateAfter_iff,
    ← right.acceptsAt_stateAfter_iff, ← Bool.eq_iff_iff, bne_iff_ne]

theorem mem_edges_pairGraph (left right : Dfa α) (pair target : Option Nat × Option Nat)
    (value : α) :
    (value, target) ∈ (pairGraph left right).edges pair ↔
      value ∈ left.automaton.alphabet.symbols ∧
        target =
          (pair.1.bind (left.successor? · value), pair.2.bind (right.successor? · value)) := by
  simp [pairGraph, eq_comm]

/-- A walk from the initial pair spells a word over the alphabet, and leads where the word does. -/
theorem walk_pairGraph_iff (left right : Dfa α) (word : List α)
    (pair : Option Nat × Option Nat) :
    (pairGraph left right).Walk (some left.initial, some right.initial) word pair ↔
      left.automaton.alphabet.IsWord word ∧ pair = pairAfter left right word := by
  constructor
  · intro walk
    induction walk with
    | nil => exact ⟨left.automaton.alphabet.isWord_nil, rfl⟩
    | snoc walk inner edge inductionHypothesis =>
        rcases inductionHypothesis with ⟨isWord, rfl⟩
        rcases (mem_edges_pairGraph left right _ _ _).1 edge with ⟨known, rfl⟩
        refine ⟨(Alphabet.isWord_append_singleton _ _ _).2 ⟨isWord, known⟩, ?_⟩
        simp [pairAfter]
  · rintro ⟨isWord, rfl⟩
    induction word using List.reverseRecOn with
    | nil => exact .nil _
    | append_singleton word last inductionHypothesis =>
        rcases (Alphabet.isWord_append_singleton _ _ _).1 isWord with ⟨isWord, known⟩
        refine (inductionHypothesis isWord).snoc rfl ((mem_edges_pairGraph left right _ _ _).2 ?_)
        exact ⟨known, by simp [pairAfter]⟩

theorem edgesOrdered_pairGraph (left right : Dfa α) :
    (pairGraph left right).EdgesOrdered left.automaton.alphabet.Before := by
  intro pair
  exact List.pairwise_map.2 left.automaton.alphabet.pairwise_before

/-! ## The number of pairs -/

/-- The places of an automaton: its states and nowhere. -/
def places (dfa : Dfa α) : List (Option Nat) :=
  none :: dfa.automaton.ids.map some

omit [DecidableEq α] in
theorem length_places (dfa : Dfa α) : dfa.places.length = dfa.automaton.size + 1 := by
  simp [places, Automaton.ids]

omit [DecidableEq α] in
theorem some_mem_places_iff (dfa : Dfa α) (state : Nat) :
    some state ∈ dfa.places ↔ state < dfa.automaton.size := by
  simp [places, Automaton.ids]

theorem WellFormed.bind_successor?_mem_places {dfa : Dfa α} (wellFormed : dfa.WellFormed)
    (place : Option Nat) (value : α) :
    place.bind (dfa.successor? · value) ∈ dfa.places := by
  cases reached : place.bind (dfa.successor? · value) with
  | none => exact List.mem_cons_self
  | some target =>
      rcases Option.bind_eq_some_iff.1 reached with ⟨state, _, found⟩
      exact (dfa.some_mem_places_iff target).2 (wellFormed.successor?_lt found)

theorem confined_pairGraph {left right : Dfa α} (leftWellFormed : left.WellFormed)
    (rightWellFormed : right.WellFormed) :
    (pairGraph left right).Confined [(some left.initial, some right.initial)]
      (left.places ×ˢ right.places) where
  roots_mem := by
    intro root member
    rw [List.mem_singleton.1 member]
    exact List.mem_product.2
      ⟨(left.some_mem_places_iff _).2 leftWellFormed.initial_lt,
        (right.some_mem_places_iff _).2 rightWellFormed.initial_lt⟩
  edges_mem := by
    rintro pair _ ⟨value, target⟩ edge
    rcases (mem_edges_pairGraph left right pair target value).1 edge with ⟨_, rfl⟩
    exact List.mem_product.2
      ⟨leftWellFormed.bind_successor?_mem_places pair.1 value,
        rightWellFormed.bind_successor?_mem_places pair.2 value⟩

/-- The bound of the search is never what ends it. -/
theorem settled_pairSearch {left right : Dfa α} (leftWellFormed : left.WellFormed)
    (rightWellFormed : right.WellFormed) :
    Search.Settled (separates left right) (pairSearch left right) := by
  apply Search.settled_explore _ (List.nodup_singleton _)
    (confined_pairGraph leftWellFormed rightWellFormed)
  rw [List.length_product, left.length_places, right.length_places]

/-! ## The result of the search -/

theorem exists_ordered_pairSearch (left right : Dfa α) :
    ∃ finished,
      Search.Invariant (pairGraph left right) (separates left right)
          [(some left.initial, some right.initial)] finished (pairSearch left right) ∧
        Search.Ordered (pairGraph left right) left.automaton.alphabet.Before finished
          (pairSearch left right) :=
  Search.exists_ordered_explore _ _ _ (edgesOrdered_pairGraph left right)

theorem not_differs_of_distinguishingWord?_eq_none {left right : Dfa α}
    (nothing : distinguishingWord? left right = none) (word : List α) :
    ¬ Differs left right word := by
  rw [differs_iff]
  rintro ⟨isWord, different⟩
  rcases exists_ordered_pairSearch left right with ⟨finished, invariant, _⟩
  have done : (pairSearch left right).queue = [] :=
    List.head?_eq_none_iff.1 (Option.map_eq_none_iff.1 nothing)
  have met := (invariant.mem_nodes_iff done (pairAfter left right word)).2
    ⟨_, List.mem_singleton_self _, word, (walk_pairGraph_iff left right word _).2 ⟨isWord, rfl⟩⟩
  rcases List.mem_map.1 met with ⟨visit, found, located⟩
  have passed := invariant.passed visit (invariant.mem_finished_of_mem_found done found rfl)
  rw [located, different] at passed
  exact Bool.noConfusion passed

/-- Equivalent automata accept the same words over the alphabet of the first one. -/
theorem decides_iff_of_isEquivalent {left right : Dfa α}
    (equivalent : isEquivalent left right = true) {word : List α}
    (isWord : left.automaton.alphabet.IsWord word) :
    left.decides word = .ok true ↔ right.decides word = .ok true := by
  by_contra different
  have nothing := Option.isNone_iff_eq_none.1 equivalent
  exact not_differs_of_distinguishingWord?_eq_none nothing word ⟨isWord, different⟩

theorem least_of_distinguishingWord?_eq_some {left right : Dfa α}
    (settled : Search.Settled (separates left right) (pairSearch left right)) {word : List α}
    (returned : distinguishingWord? left right = some word) :
    Differs left right word ∧
      ∀ other, Differs left right other →
        NotAfter left.automaton.alphabet.Before word other := by
  rcases exists_ordered_pairSearch left right with ⟨finished, invariant, ordered⟩
  rcases Option.map_eq_some_iff.1 returned with ⟨head, queued, rfl⟩
  have waiting := invariant.mem_found_iff.2 (Or.inr (List.mem_of_head? queued))
  rcases invariant.reached head waiting.1 with ⟨root, rooted, walk⟩
  rw [List.mem_singleton.1 rooted, walk_pairGraph_iff] at walk
  constructor
  · rw [differs_iff, ← walk.2]
    exact ⟨walk.1, settled head queued⟩
  · intro other different
    rcases (differs_iff left right other).1 different with ⟨isWord, stops⟩
    exact ordered.head_least invariant queued
      ((walk_pairGraph_iff left right other _).2 ⟨isWord, rfl⟩) rfl stops

theorem distinguishingWord?_eq_none_iff {left right : Dfa α} (leftWellFormed : left.WellFormed)
    (rightWellFormed : right.WellFormed) :
    distinguishingWord? left right = none ↔ ∀ word, ¬ Differs left right word := by
  constructor
  · exact not_differs_of_distinguishingWord?_eq_none
  · intro same
    cases result : distinguishingWord? left right with
    | none => rfl
    | some word =>
        have settled := settled_pairSearch leftWellFormed rightWellFormed
        exact absurd (least_of_distinguishingWord?_eq_some settled result).1 (same word)

theorem distinguishingWord?_eq_some_iff {left right : Dfa α} (leftWellFormed : left.WellFormed)
    (rightWellFormed : right.WellFormed) (word : List α) :
    distinguishingWord? left right = some word ↔
      Differs left right word ∧
        ∀ other, Differs left right other →
          NotAfter left.automaton.alphabet.Before word other := by
  have least := @least_of_distinguishingWord?_eq_some α _ left right
    (settled_pairSearch leftWellFormed rightWellFormed)
  constructor
  · exact least
  · rintro ⟨different, first⟩
    cases result : distinguishingWord? left right with
    | none => exact absurd different (not_differs_of_distinguishingWord?_eq_none result word)
    | some found =>
        rcases least result with ⟨different', first'⟩
        rw [(first found different').antisymm (first' word different)]

/--
Comparing two deterministic automata always comes to an end.  The result is the
least word over the alphabet of the first automaton that exactly one of them
accepts, and there is no result exactly if there is no such word.
-/
theorem distinguishingWord_is_least (left right : Dfa α) (leftWellFormed : left.WellFormed)
    (rightWellFormed : right.WellFormed) :
    Search.Settled (separates left right) (pairSearch left right) ∧
      (distinguishingWord? left right = none ↔ ∀ word, ¬ Differs left right word) ∧
      (∀ word, distinguishingWord? left right = some word ↔
        Differs left right word ∧
          ∀ other, Differs left right other →
            NotAfter left.automaton.alphabet.Before word other) ∧
      (isEquivalent left right = true ↔ ∀ word, ¬ Differs left right word) := by
  have agreement := distinguishingWord?_eq_none_iff leftWellFormed rightWellFormed
  refine ⟨settled_pairSearch leftWellFormed rightWellFormed, agreement,
    distinguishingWord?_eq_some_iff leftWellFormed rightWellFormed, ?_⟩
  rw [isEquivalent, Option.isNone_iff_eq_none]
  exact agreement

/-- Accepts after an odd number of letters 'a' that no letter 'b' has undone. -/
def undoable : Dfa Char where
  automaton :=
    { alphabet := ⟨['b', 'a'], by decide⟩
      states := [⟨"p", [∅, .singleton 1], ∅⟩, ⟨"q", [.singleton 0, .singleton 0], ∅⟩]
      initial := .singleton 0
      accepting := .singleton 1 }
  initial := 0
  subsets := none

/-- Accepts an odd number of letters 'a'; the letter 'c' is known, but it is never read. -/
def oddLetters : Dfa Char where
  automaton :=
    { alphabet := ⟨['a', 'c'], by decide⟩
      states := [⟨"p", [.singleton 1, ∅], ∅⟩, ⟨"q", [.singleton 0, ∅], ∅⟩]
      initial := .singleton 0
      accepting := .singleton 1 }
  initial := 0
  subsets := none

/-- The comparison depends on which automaton comes first, as words are over its alphabet. -/
theorem distinguishingWord_is_least_oddLetters :
    undoable.WellFormed ∧ oddLetters.WellFormed ∧
      Differs undoable oddLetters ['a', 'b', 'a'] ∧
      (∀ other, Differs undoable oddLetters other →
        NotAfter undoable.automaton.alphabet.Before ['a', 'b', 'a'] other) ∧
      ∀ word, ¬ Differs oddLetters undoable word := by
  have undoableWellFormed : undoable.WellFormed := by decide
  have oddLettersWellFormed : oddLetters.WellFormed := by decide
  have forward := distinguishingWord_is_least undoable oddLetters undoableWellFormed
    oddLettersWellFormed
  have backward := distinguishingWord_is_least oddLetters undoable oddLettersWellFormed
    undoableWellFormed
  have least := (forward.2.2.1 ['a', 'b', 'a']).1 (by decide)
  exact ⟨undoableWellFormed, oddLettersWellFormed, least.1, least.2,
    backward.2.2.2.1 (by decide)⟩

end Dfa

end WordAutomata
