import WordAutomata.Proofs.Dfa.Reachable
import WordAutomata.Proofs.Dfa.Totalized
import WordAutomata.Proofs.Names

/-!
# What totalization keeps

A partial automaton gets one more state, the sink, and an edge to it wherever an
edge is missing; nothing else about it changes.  So a word that can be read is
read as before.  A word on which the partial automaton gets stuck is read to its
end and rejected in the sink, unless it has an unknown symbol, at the first of
which every total automaton fails.  A total automaton is left as it is, and
totalizing twice is the same as totalizing once.
-/

namespace WordAutomata.Dfa

variable {α : Type} [DecidableEq α] {dfa : Dfa α}

/-- The second automaton is the first one with a sink, to which all missing edges lead. -/
structure AddsSink (dfa total : Dfa α) : Prop where
  alphabet_eq : total.automaton.alphabet = dfa.automaton.alphabet
  size_eq : total.automaton.size = dfa.automaton.size + 1
  name?_eq : ∀ state < dfa.automaton.size,
    total.automaton.name? state = dfa.automaton.name? state
  initial_eq : total.initial = dfa.initial
  initials_eq : total.automaton.initial = dfa.automaton.initial
  accepting_eq : total.automaton.accepting = dfa.automaton.accepting
  subsets_eq : total.subsets = dfa.subsets
  /-- All edges are kept, and only edges to the sink are added, where none was. -/
  mem_edges_iff : ∀ edge, edge ∈ total.automaton.edges ↔
    edge ∈ dfa.automaton.edges ∨
      ∃ state ≤ dfa.automaton.size, ∃ value ∈ dfa.automaton.alphabet.symbols,
        dfa.successor? state value = none ∧
          edge = ⟨state, .symbol value, dfa.automaton.size⟩
  sink_rejects : dfa.automaton.size ∉ total.automaton.accepting
  sink_loops : ∀ value ∈ dfa.automaton.alphabet.symbols,
    total.automaton.targets dfa.automaton.size (.symbol value) = .singleton dfa.automaton.size
  /-- The name of the sink has as many primes as it takes to be a new name, and no more. -/
  sink_name : ∃ primes,
    total.automaton.name? dfa.automaton.size = some (primed "sink" primes) ∧
      primed "sink" primes ∉ dfa.automaton.names ∧
      ∀ fewer < primes, primed "sink" fewer ∈ dfa.automaton.names

/-! ## The automaton with a sink -/

theorem WellFormed.mem_edges_withSink_iff (wellFormed : dfa.WellFormed) (edge : Edge α) :
    edge ∈ dfa.withSink.automaton.edges ↔
      edge ∈ dfa.automaton.edges ∨
        ∃ state ≤ dfa.automaton.size, ∃ value ∈ dfa.automaton.alphabet.symbols,
          dfa.successor? state value = none ∧
            edge = ⟨state, .symbol value, dfa.automaton.size⟩ := by
  obtain ⟨source, label, target⟩ := edge
  simp only [Automaton.mem_edges_iff]
  cases label with
  | epsilon => simp [targets_epsilon_withSink, wellFormed.targets_epsilon]
  | symbol value =>
      rw [wellFormed.targets_symbol_eq, StateSet.mem_ofPlace, targets_symbol_withSink]
      constructor
      · intro member
        split at member
        · next within =>
            rw [StateSet.mem_singleton] at member
            cases found : dfa.successor? source value with
            | some next => exact Or.inl (by simp [member, found])
            | none =>
                rw [found] at member
                exact Or.inr ⟨source, within.1, value, within.2, found, by rw [member]; rfl⟩
        · exact absurd member (StateSet.not_mem_empty target)
      · rintro (found | ⟨state, present, symbol, known, missing, same⟩)
        · have listed := mem_targets_of_successor? found
          have present := Nat.le_of_lt (Automaton.lt_size_of_mem_targets listed)
          rw [if_pos ⟨present, mem_symbols_of_successor? found⟩, found, StateSet.mem_singleton]
          rfl
        · cases same
          rw [if_pos ⟨present, known⟩, missing, StateSet.mem_singleton]
          rfl

theorem WellFormed.addsSink_withSink (wellFormed : dfa.WellFormed)
    (partly : dfa.isTotal = false) :
    dfa.AddsSink dfa.withSink := by
  have names := Automaton.length_names dfa.automaton
  refine
    { alphabet_eq := rfl
      size_eq := dfa.size_withSink
      name?_eq := ?_
      initial_eq := rfl
      initials_eq := wellFormed.initial_eq.symm
      accepting_eq := rfl
      subsets_eq := ?_
      mem_edges_iff := wellFormed.mem_edges_withSink_iff
      sink_rejects := ?_
      sink_loops := ?_
      sink_name := ?_ }
  · intro state present
    rw [name?_withSink, List.getElem?_append_left (names.symm ▸ present)]
    rfl
  -- Only total automata remember sets.
  · cases remembered : dfa.subsets with
    | none => simp [withSink, remembered]
    | some subsets =>
        have total := (wellFormed.subsets_total subsets remembered).2
        exact absurd total (Bool.eq_false_iff.1 partly)
  · intro accepting
    exact Nat.lt_irrefl _ (wellFormed.automaton.accepting_lt _ accepting)
  · intro value known
    rw [targets_symbol_withSink, if_pos ⟨Nat.le_refl _, known⟩,
      dfa.successor?_eq_none_of_size_le value (Nat.le_refl _)]
    rfl
  · rcases exists_freshName_eq_primed "sink" dfa.automaton.names with
      ⟨primes, chosen, unused, least⟩
    refine ⟨primes, ?_, unused, least⟩
    rw [name?_withSink, ← names, List.getElem?_concat_length, sinkName, chosen]

/-! ## Runs of total automata -/

/-- A total automaton reads every word over the alphabet. -/
theorem WellFormed.exists_stateAfter_of_isTotal (wellFormed : dfa.WellFormed)
    (total : dfa.isTotal = true) {word : List α} (isWord : dfa.automaton.alphabet.IsWord word) :
    ∃ state, dfa.stateAfter word = some state := by
  cases reached : dfa.stateAfter word with
  | some state => exact ⟨state, rfl⟩
  | none =>
      have gap := wellFormed.exists_stateAfter_eq_none_iff.1 ⟨word, isWord, reached⟩
      exact absurd gap (wellFormed.not_hasReachableGap total)

/-- A total automaton fails at the first unknown symbol. -/
theorem WellFormed.run_of_firstUnknown_of_isTotal (wellFormed : dfa.WellFormed)
    (total : dfa.isTotal = true) {word : List α} {value : α} {position : Nat}
    (unknown : dfa.automaton.alphabet.FirstUnknown word value position) :
    dfa.run word = .error (.symbolNotInAlphabet value position) := by
  rcases unknown with ⟨known, rest, rfl, isWord, foreign, rfl⟩
  rcases wellFormed.exists_stateAfter_of_isTotal total isWord with ⟨state, reached⟩
  exact dfa.run_of_not_mem_symbols rest reached foreign

/-- A total automaton never gets stuck. -/
theorem WellFormed.run_ne_undefinedTransition_of_isTotal (wellFormed : dfa.WellFormed)
    (total : dfa.isTotal = true) (word : List α) (state : String) (value : α) (position : Nat) :
    dfa.run word ≠ .error (.undefinedTransition state value position) := by
  intro stuck
  rcases exists_gap_of_run stuck with ⟨known, _, _, _, isWord, lost⟩
  rcases wellFormed.exists_stateAfter_of_isTotal total isWord with ⟨reached, leads⟩
  rw [lost] at leads
  cases leads

/-! ## Runs of totalized automata -/

/-- A word over the alphabet leads where it has led before, or else to the sink. -/
theorem WellFormed.stateAfter_withSink (wellFormed : dfa.WellFormed) {word : List α}
    (isWord : dfa.automaton.alphabet.IsWord word) :
    dfa.withSink.stateAfter word = some ((dfa.stateAfter word).getD dfa.automaton.size) := by
  induction word using List.reverseRecOn with
  | nil => rfl
  | append_singleton word last inductionHypothesis =>
      rcases (dfa.automaton.alphabet.isWord_append_singleton word last).1 isWord with
        ⟨isWord, known⟩
      rw [stateAfter_append_singleton, stateAfter_append_singleton, inductionHypothesis isWord]
      cases reached : dfa.stateAfter word with
      | some state =>
          exact dfa.successor?_withSink (Nat.le_of_lt (wellFormed.stateAfter_lt reached)) known
      | none =>
          -- From the sink every symbol leads back to it.
          refine (dfa.successor?_withSink (Nat.le_refl _) known).trans ?_
          rw [dfa.successor?_eq_none_of_size_le last (Nat.le_refl _)]
          rfl

/-- A run that succeeds is the same after totalization. -/
theorem WellFormed.run_totalized_of_ok (wellFormed : dfa.WellFormed) {word : List α}
    {outcome : Outcome Nat} (ran : dfa.run word = .ok outcome) :
    dfa.totalized.run word = .ok outcome := by
  cases total : dfa.isTotal with
  | true => rwa [totalized_of_isTotal total]
  | false =>
      rcases (dfa.run_eq_ok_iff word outcome).1 ran with ⟨state, reached, rfl⟩
      have leads := wellFormed.stateAfter_withSink (isWord_of_stateAfter reached)
      rw [reached] at leads
      rw [totalized_of_not_isTotal total]
      exact (dfa.withSink.run_eq_ok_iff word _).2 ⟨state, leads, rfl⟩

/-- A run that gets stuck on a word over the alphabet ends in the sink after totalization. -/
theorem WellFormed.run_totalized_of_stuck (wellFormed : dfa.WellFormed) {word : List α}
    {state : String} {value : α} {position : Nat}
    (stuck : dfa.run word = .error (.undefinedTransition state value position))
    (isWord : dfa.automaton.alphabet.IsWord word) :
    dfa.totalized.run word = .ok ⟨false, dfa.automaton.size, word.length⟩ := by
  cases total : dfa.isTotal with
  | true => exact absurd stuck (wellFormed.run_ne_undefinedTransition_of_isTotal total word _ _ _)
  | false =>
      rcases exists_gap_of_run stuck with ⟨known, rest, shape, _, _, lost⟩
      have leads := wellFormed.stateAfter_withSink isWord
      have nowhere : dfa.stateAfter word = none := by
        rw [shape, List.append_cons]
        exact stateAfter_append_eq_none lost rest
      rw [nowhere] at leads
      have rejects := (wellFormed.addsSink_withSink total).sink_rejects
      rw [totalized_of_not_isTotal total]
      refine (dfa.withSink.run_eq_ok_iff word _).2 ⟨dfa.automaton.size, leads, ?_⟩
      rw [Automaton.isAccepting, decide_eq_false rejects]

/--
Totalization gives a total automaton, and leaves one as it is that is total
already.  To any other it adds a sink and nothing else.  Successful runs are
kept, runs that get stuck become rejections in the sink, and unknown symbols are
reported wherever they come first.
-/
theorem totalized_adds_sink (dfa : Dfa α) (wellFormed : dfa.WellFormed) :
    dfa.totalized.isTotal = true ∧
      (dfa.isTotal = true → dfa.totalized = dfa) ∧
      dfa.totalized.totalized = dfa.totalized ∧
      (dfa.isTotal = false → dfa.AddsSink dfa.totalized) ∧
      ∀ word,
        (∀ outcome, dfa.run word = .ok outcome → dfa.totalized.run word = .ok outcome) ∧
        (∀ state value position,
          dfa.run word = .error (.undefinedTransition state value position) →
            dfa.automaton.alphabet.IsWord word →
              dfa.totalized.run word = .ok ⟨false, dfa.automaton.size, word.length⟩) ∧
        ∀ value position, dfa.automaton.alphabet.FirstUnknown word value position →
          dfa.totalized.run word = .error (.symbolNotInAlphabet value position) := by
  have total := dfa.isTotal_totalized
  refine ⟨total, totalized_of_isTotal, totalized_of_isTotal total, ?_, ?_⟩
  · intro partly
    rw [totalized_of_not_isTotal partly]
    exact wellFormed.addsSink_withSink partly
  · intro word
    refine ⟨fun _ => wellFormed.run_totalized_of_ok,
      fun _ _ _ => wellFormed.run_totalized_of_stuck, ?_⟩
    intro value position unknown
    rw [← dfa.alphabet_totalized] at unknown
    exact wellFormed.wellFormed_totalized.run_of_firstUnknown_of_isTotal total unknown

/-- Accepts one letter 'y'; the names that a sink would get first are in use. -/
def takenNames : Dfa Char where
  automaton :=
    { alphabet := ⟨['y', 'n'], by decide⟩
      states := [⟨"sink", [.singleton 1, ∅], ∅⟩, ⟨"sink'", [∅, ∅], ∅⟩]
      initial := .singleton 0
      accepting := .singleton 1 }
  initial := 0
  subsets := none

/-- A run that gets stuck is rejected in the sink, unless an unknown symbol comes later. -/
theorem totalized_adds_sink_takenNames :
    takenNames.WellFormed ∧ takenNames.isTotal = false ∧
      takenNames.AddsSink takenNames.totalized ∧
      takenNames.totalized.totalized = takenNames.totalized ∧
      takenNames.totalized.run ['y'] = .ok ⟨true, 1, 1⟩ ∧
      takenNames.run ['y', 'n', 'y'] = .error (.undefinedTransition "sink'" 'n' 1) ∧
      takenNames.totalized.run ['y', 'n', 'y'] = .ok ⟨false, 2, 3⟩ ∧
      takenNames.run ['y', 'n', 'x'] = .error (.undefinedTransition "sink'" 'n' 1) ∧
      takenNames.totalized.run ['y', 'n', 'x'] = .error (.symbolNotInAlphabet 'x' 2) := by
  have wellFormed : takenNames.WellFormed := by decide
  have partly : takenNames.isTotal = false := by rfl
  have stuck : takenNames.run ['y', 'n', 'y'] =
      .error (.undefinedTransition "sink'" 'n' 1) := by rfl
  have foreign : takenNames.automaton.alphabet.FirstUnknown ['y', 'n', 'x'] 'x' 2 :=
    ⟨['y', 'n'], [], rfl, by decide, by decide, rfl⟩
  rcases totalized_adds_sink takenNames wellFormed with ⟨_, _, twice, addsSink, runs⟩
  exact ⟨wellFormed, partly, addsSink partly, twice, (runs ['y']).1 ⟨true, 1, 1⟩ rfl, stuck,
    (runs ['y', 'n', 'y']).2.1 "sink'" 'n' 1 stuck (by decide), rfl,
    (runs ['y', 'n', 'x']).2.2 'x' 2 foreign⟩

end WordAutomata.Dfa
