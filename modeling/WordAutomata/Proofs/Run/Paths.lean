import WordAutomata.Proofs.Run.Nondeterministic

/-!
# Runs and paths

A path follows listed edges one after the other, and spells the symbols of its
labels with the empty ones left out.  A run over the alphabet reaches exactly
the states to which a path from an initial state leads that spells the word.
Silent edges may stand anywhere on the path, and a path may go around a cycle
of them as often as it likes.
-/

namespace WordAutomata.Automaton

variable {α : Type} [DecidableEq α]

/-- Paths along the listed edges of an automaton, with the labels that they carry. -/
inductive Path (automaton : Automaton α) : Nat → List (Label α) → Nat → Prop where
  | nil (state : Nat) : Path automaton state [] state
  | cons {source middle target : Nat} {label : Label α} {labels : List (Label α)}
      (listed : ⟨source, label, middle⟩ ∈ automaton.edges)
      (rest : Path automaton middle labels target) :
      Path automaton source (label :: labels) target

/-- A path from an initial state to the state spells the word. -/
def Reaches (automaton : Automaton α) (word : List α) (state : Nat) : Prop :=
  ∃ origin, origin ∈ automaton.initial ∧
    ∃ labels, automaton.Path origin labels state ∧ Label.spelled labels = word

variable {automaton : Automaton α}

theorem Path.append {source middle target : Nat} {first second : List (Label α)}
    (left : automaton.Path source first middle) (right : automaton.Path middle second target) :
    automaton.Path source (first ++ second) target := by
  induction left with
  | nil => exact right
  | cons listed _ inductionHypothesis => exact .cons listed (inductionHypothesis right)

/-- A path can be cut at any place. -/
theorem Path.exists_cut {source target : Nat} {first second : List (Label α)}
    (path : automaton.Path source (first ++ second) target) :
    ∃ middle, automaton.Path source first middle ∧ automaton.Path middle second target := by
  induction first generalizing source with
  | nil => exact ⟨source, .nil source, path⟩
  | cons label labels inductionHypothesis =>
      cases path with
      | cons listed rest =>
          rcases inductionHypothesis rest with ⟨middle, left, right⟩
          exact ⟨middle, .cons listed left, right⟩

/-! ## Paths that spell nothing, and one more symbol -/

theorem silentStep_iff_mem_edges (automaton : Automaton α) (source target : Nat) :
    automaton.SilentStep source target ↔ ⟨source, .epsilon, target⟩ ∈ automaton.edges :=
  (automaton.mem_edges_iff ⟨source, .epsilon, target⟩).symm

/-- The paths that spell nothing are the paths of silent edges. -/
theorem exists_path_spelling_nil_iff (automaton : Automaton α) (source target : Nat) :
    (∃ labels, automaton.Path source labels target ∧ Label.spelled labels = []) ↔
      Relation.ReflTransGen automaton.SilentStep source target := by
  constructor
  · rintro ⟨labels, path, spelled⟩
    induction path with
    | nil => exact .refl
    | @cons source middle target label labels listed rest inductionHypothesis =>
        cases label with
        | symbol value => simp [Label.spelled, Label.symbol?] at spelled
        | epsilon =>
            have step := (automaton.silentStep_iff_mem_edges _ _).2 listed
            have silent : Label.spelled labels = [] := by
              simpa [Label.spelled, Label.symbol?] using spelled
            exact .head step (inductionHypothesis silent)
  · intro path
    induction path using Relation.ReflTransGen.head_induction_on with
    | refl => exact ⟨[], .nil _, rfl⟩
    | head step _ inductionHypothesis =>
        rcases inductionHypothesis with ⟨labels, rest, spelled⟩
        have listed := (automaton.silentStep_iff_mem_edges _ _).1 step
        exact ⟨.epsilon :: labels, .cons listed rest, spelled⟩

omit [DecidableEq α] in
/-- Labels that spell a word and one more symbol end with that symbol and empty labels. -/
theorem spelled_eq_append_singleton_iff (labels : List (Label α)) (word : List α) (last : α) :
    Label.spelled labels = word ++ [last] ↔
      ∃ before after, labels = before ++ .symbol last :: after ∧
        Label.spelled before = word ∧ Label.spelled after = [] := by
  constructor
  · intro spelled
    rcases List.filterMap_eq_append_iff.1 spelled with ⟨before, ending, rfl, front, back⟩
    rcases List.filterMap_eq_cons_iff.1 back with ⟨silent, label, after, rfl, empty, reads, done⟩
    rw [Label.symbol?_eq_some_iff] at reads
    refine ⟨before ++ silent, after, by simp [reads], ?_, done⟩
    have nothing : Label.spelled silent = [] := List.filterMap_eq_nil_iff.2 empty
    rw [Label.spelled_append, nothing, List.append_nil]
    exact front
  · rintro ⟨before, after, rfl, rfl, silent⟩
    rw [Label.spelled_append]
    exact congrArg (Label.spelled before ++ last :: ·) silent

/-- One more symbol is spelled by one more edge with the symbol, and silent edges behind it. -/
theorem reaches_append_singleton_iff (automaton : Automaton α) (word : List α) (last : α)
    (state : Nat) :
    automaton.Reaches (word ++ [last]) state ↔
      ∃ source, automaton.Reaches word source ∧
        ∃ middle, middle ∈ automaton.targets source (.symbol last) ∧
          Relation.ReflTransGen automaton.SilentStep middle state := by
  constructor
  · rintro ⟨origin, initial, labels, path, spelled⟩
    rcases (spelled_eq_append_singleton_iff labels word last).1 spelled with
      ⟨before, after, rfl, front, silent⟩
    rcases path.exists_cut with ⟨source, left, right⟩
    cases right with
    | cons listed rest =>
        exact ⟨source, ⟨origin, initial, before, left, front⟩, _,
          (automaton.mem_edges_iff _).1 listed,
          (automaton.exists_path_spelling_nil_iff _ _).1 ⟨after, rest, silent⟩⟩
  · rintro ⟨source, ⟨origin, initial, before, left, front⟩, middle, member, silent⟩
    rcases (automaton.exists_path_spelling_nil_iff _ _).2 silent with ⟨after, rest, nothing⟩
    have listed := (automaton.mem_edges_iff ⟨source, .symbol last, middle⟩).2 member
    exact ⟨origin, initial, before ++ .symbol last :: after, left.append (.cons listed rest),
      (spelled_eq_append_singleton_iff _ word last).2 ⟨before, after, rfl, front, nothing⟩⟩

/-- The active states are those that some path spelling the word reaches. -/
theorem WellFormed.mem_active_iff (wellFormed : automaton.WellFormed) (word : List α)
    (state : Nat) :
    state ∈ automaton.active word ↔ automaton.Reaches word state := by
  induction word using List.reverseRecOn generalizing state with
  | nil =>
      rw [active_nil, start, wellFormed.mem_closure_iff]
      constructor
      · rintro ⟨origin, initial, path⟩
        exact ⟨origin, initial, (automaton.exists_path_spelling_nil_iff _ _).2 path⟩
      · rintro ⟨origin, initial, path⟩
        exact ⟨origin, initial, (automaton.exists_path_spelling_nil_iff _ _).1 path⟩
  | append_singleton word last inductionHypothesis =>
      rw [active_append_singleton, wellFormed.mem_read_iff, reaches_append_singleton_iff]
      simp only [inductionHypothesis]

/--
A run over the alphabet succeeds with one transition for each symbol, reaches
exactly the states that a path spelling the word leads to, and accepts if one of
them is accepting.  Any other run fails at the first symbol that does not belong
to the alphabet, whatever is active there.
-/
theorem run_reaches_along_paths (automaton : Automaton α) (wellFormed : automaton.WellFormed)
    (word : List α) :
    (automaton.alphabet.IsWord word →
      ∃ outcome, automaton.run word = .ok outcome ∧
        outcome.transitions = word.length ∧
        (∀ state, state ∈ outcome.reached ↔ automaton.Reaches word state) ∧
        (outcome.accepted = true ↔
          ∃ state, state ∈ automaton.accepting ∧ automaton.Reaches word state)) ∧
      (¬ automaton.alphabet.IsWord word →
        ∃ value position, automaton.alphabet.FirstUnknown word value position ∧
          automaton.run word = .error (.symbolNotInAlphabet value position)) := by
  constructor
  · intro isWord
    refine ⟨_, (automaton.run_eq_ok_iff word _).2 ⟨isWord, rfl⟩, rfl,
      wellFormed.mem_active_iff word, ?_⟩
    rw [StateSet.intersects_iff]
    constructor
    · rintro ⟨state, reached, accepting⟩
      exact ⟨state, accepting, (wellFormed.mem_active_iff word state).1 reached⟩
    · rintro ⟨state, accepting, reached⟩
      exact ⟨state, (wellFormed.mem_active_iff word state).2 reached, accepting⟩
  · intro notWord
    rcases (automaton.alphabet.isWord_or_firstUnknown word).resolve_left notWord with
      ⟨value, position, unknown⟩
    exact ⟨value, position, unknown,
      (automaton.run_eq_error_iff word _).2 ⟨value, position, unknown, rfl⟩⟩

/-- Some `a`, and then one `b`; two states on a cycle of silent edges share the work. -/
def silentCycle : Automaton Char where
  alphabet := ⟨['a', 'b'], by decide⟩
  states :=
    [⟨"p", [.singleton 0, ∅], .singleton 1⟩,
      ⟨"q", [∅, .singleton 2], .singleton 0⟩,
      ⟨"r", [∅, ∅], ∅⟩]
  initial := .singleton 0
  accepting := .singleton 2

theorem run_reaches_along_paths_silentCycle :
    silentCycle.WellFormed ∧ silentCycle.Reaches ['a', 'a', 'b'] 2 ∧
      silentCycle.alphabet.FirstUnknown ['b', 'a', 'x'] 'x' 2 := by
  have wellFormed : silentCycle.WellFormed := by decide
  have reading := (run_reaches_along_paths silentCycle wellFormed ['a', 'a', 'b']).1 (by decide)
  have failing := (run_reaches_along_paths silentCycle wellFormed ['b', 'a', 'x']).2 (by decide)
  rcases reading with ⟨outcome, ran, _, reached, _⟩
  rcases failing with ⟨value, position, unknown, failed⟩
  have computed : silentCycle.run ['a', 'a', 'b'] = .ok ⟨true, .singleton 2, 3⟩ := by rfl
  rw [computed, Except.ok.injEq] at ran
  -- Nothing is active any more when the unknown symbol is met.
  have computed' :
      silentCycle.run ['b', 'a', 'x'] = .error (.symbolNotInAlphabet 'x' 2) := by rfl
  rw [computed', Except.error.injEq, RunError.symbolNotInAlphabet.injEq] at failed
  rcases failed with ⟨rfl, rfl⟩
  exact ⟨wellFormed, (reached 2).1 (by rw [← ran]; decide), unknown⟩

end WordAutomata.Automaton
