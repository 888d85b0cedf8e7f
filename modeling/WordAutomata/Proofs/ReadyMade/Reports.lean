import WordAutomata.CommandLine.Answer
import WordAutomata.Proofs.ReadyMade.Machines
import WordAutomata.Proofs.SubsetConstruction.Names

/-!
# Reports on compiled machines

Compiling a ready-made machine changes neither whether a word can be read, nor
the verdict, nor which symbol is complained about.  The state in which the
compiled machine ends is written as the active states are, unless there are
none: no name of a state is empty or contains what separates names, so states
of the compiled machine need no primes.
-/

namespace WordAutomata

theorem Alphabet.FirstUnknown.not_isWord {α : Type} {alphabet : Alphabet α} {word : List α}
    {value : α} {position : Nat} (unknown : alphabet.FirstUnknown word value position) :
    ¬ alphabet.IsWord word := by
  rcases unknown with ⟨known, rest, rfl, _, foreign, _⟩
  intro isWord
  exact foreign (isWord value (List.mem_append_right known List.mem_cons_self))

/-! ## Names of compiled states -/

theorem renderBraced_eq_empty_iff {members : List String} (named : "" ∉ members) :
    renderBraced members = braced "" ↔ members = [] := by
  constructor
  · intro same
    have joined := congrArg String.toList (braced_injective same)
    rw [String.toList_intercalate] at joined
    have between : [',', ' '].intercalate (members.map String.toList) = [] := joined
    match members with
    | [] => rfl
    | [member] =>
        have empty : member.toList = [] := by simpa [List.intercalate] using between
        rw [String.toList_eq_nil_iff] at empty
        exact absurd (empty ▸ List.mem_singleton_self _) named
    | first :: second :: rest => simp [List.intercalate] at between
  · rintro rfl
    rfl

namespace Automaton

variable {α : Type} {automaton : Automaton α}

theorem renderStates_eq_empty_iff (named : "" ∉ automaton.names) {states : StateSet}
    (within : ∀ state, state ∈ states → state < automaton.size) :
    automaton.renderStates states = braced "" ↔ states = ∅ := by
  have unnamed : "" ∉ states.members.map automaton.nameOf := by
    intro listed
    rcases List.mem_map.1 listed with ⟨state, member, empty⟩
    exact named (empty ▸ nameOf_mem_names (within state member))
  rw [renderStates, renderBraced_eq_empty_iff unnamed, List.map_eq_nil_iff, ← List.isEmpty_iff]
  exact StateSet.isEmpty_iff states

variable [DecidableEq α]

/-- Without the separator in a name, the states of the compiled automaton need no primes. -/
theorem WellFormed.names_subsetAutomaton_of_separatorFree (wellFormed : automaton.WellFormed)
    (free : automaton.SeparatorFree) :
    automaton.subsetAutomaton.automaton.names =
      automaton.subsetSearch.nodes.map automaton.subsetName := by
  have within : ∀ subset ∈ automaton.subsetSearch.nodes,
      ∀ state, state ∈ subset → state < automaton.size := by
    intro subset met state member
    rcases (wellFormed.mem_subsets_iff subset).1 met with ⟨word, _, rfl⟩
    exact wellFormed.active_lt member
  rw [names_subsetAutomaton]
  apply distinctNames_eq_self
  apply List.Nodup.map_on
  · intro first met second met' same
    exact wellFormed.subsetName_inj free (within first met) (within second met') same
  · exact wellFormed.nodup_subsets

theorem WellFormed.name?_subsetAutomaton (wellFormed : automaton.WellFormed)
    (free : automaton.SeparatorFree) {state : Nat} {subset : StateSet}
    (stands : automaton.subsetAutomaton.subsetOf? state = some subset) :
    automaton.subsetAutomaton.automaton.name? state = some (automaton.subsetName subset) := by
  rw [subsetOf?_subsetAutomaton] at stands
  rw [name?, wellFormed.names_subsetAutomaton_of_separatorFree free, List.getElem?_map, stands]
  rfl

end Automaton

namespace ReadyMade

theorem separatorFree_resolved (ready : ReadyMade) : ready.resolved.automaton.SeparatorFree := by
  unfold Automaton.SeparatorFree
  cases ready <;> decide

theorem named_resolved (ready : ReadyMade) : "" ∉ ready.resolved.automaton.names := by
  cases ready <;> decide

theorem ofName?_name (ready : ReadyMade) : ofName? ready.name = some ready := by
  cases ready <;> decide

/-- Between quotation marks the words that a ready-made machine reads are written as they are. -/
theorem quoted_of_known (ready : ReadyMade) {word : String}
    (known : ∀ value ∈ word.toList, value ∈ ready.description.alphabet) :
    quoted word = "\x22" ++ word ++ "\x22" := by
  have plain : ∀ value ∈ ready.description.alphabet,
      quotedCharacter value = value.toString := by
    have symbols : ready.description.alphabet = ['0', '1'] ∨
        ready.description.alphabet = ['a', 'b'] := by
      cases ready <;> decide
    rcases symbols with digits | letters
    · rw [digits]
      exact List.forall_mem_cons.2 ⟨by decide, List.forall_mem_singleton.2 (by decide)⟩
    · rw [letters]
      exact List.forall_mem_cons.2 ⟨by decide, List.forall_mem_singleton.2 (by decide)⟩
  exact quoted_of_plain fun value member => plain value (known value member)

end ReadyMade

namespace CommandLine

/-! ## The texts of a report -/

/-- What is printed on a word that was read. -/
def readText (heading : String) (accepted : Bool) (last word : String) : String :=
  heading ++ "\n" ++
    "After " ++ toString word.length ++ " transitions, the machine " ++
      (if accepted then "accepts" else "rejects") ++ " the input.\n" ++
    last ++ "\n" ++
    "Input: \x22" ++ word ++ "\x22\n"

/-- What is said of a symbol that is not in the alphabet. -/
def unknownText (value : Char) (position : Nat) : String :=
  "symbol `" ++ value.toString ++ "` at position " ++ toString position ++
    " is not in the alphabet"

theorem success_eq {σ : Type} {word : String} (plain : quoted word = "\x22" ++ word ++ "\x22")
    (heading last : String) (accepted : Bool) (reached : σ) :
    success [heading, (⟨accepted, reached, word.toList.length⟩ : Outcome σ).report, last,
        inputLine word] =
      ⟨0, readText heading accepted last word, "", []⟩ := by
  have lines : ∀ first second third fourth : String,
      String.join ([first, second, third, fourth].map (· ++ "\n")) =
        first ++ "\n" ++ second ++ "\n" ++ third ++ "\n" ++ fourth ++ "\n" := by
    intro first second third fourth
    simp [String.join, String.append_assoc]
  rw [success, lines, readText, Outcome.report, inputLine, plain, String.length_toList]
  simp only [String.append_assoc]
  rfl

/-! ## Reports on a machine -/

theorem report_deterministic {dfa : Dfa Char} {word : String}
    (plain : quoted word = "\x22" ++ word ++ "\x22") {accepted : Bool} {state : Nat} {name : String}
    (ran : dfa.run word.toList = .ok ⟨accepted, state, word.toList.length⟩)
    (named : dfa.automaton.name? state = some name) :
    report (.deterministic dfa) word =
      ⟨0, readText "------ DFA Machine Summary ------" accepted ("Final state: " ++ name) word, "",
        []⟩ := by
  rw [report, ran]
  simp only [named, Option.getD_some]
  exact success_eq plain _ _ accepted state

theorem report_nondeterministic (nfa : Automaton Char) {word : String}
    (plain : quoted word = "\x22" ++ word ++ "\x22")
    (isWord : nfa.alphabet.IsWord word.toList) :
    report (.nondeterministic nfa) word =
      ⟨0, readText "------ NFA Machine Summary ------"
        ((nfa.active word.toList).intersects nfa.accepting)
        ("Active states: " ++ nfa.renderStates (nfa.active word.toList)) word, "", []⟩ := by
  rw [report, (nfa.run_eq_ok_iff word.toList _).2 ⟨isWord, rfl⟩]
  exact success_eq plain _ _ _ _

/-- A machine that never gets stuck only complains about unknown symbols. -/
theorem report_of_firstUnknown {machine : Machine Char} (wellFormed : machine.WellFormed)
    (total : machine.IsTotal) {word : String} {value : Char} {position : Nat}
    (unknown : machine.automaton.alphabet.FirstUnknown word.toList value position) :
    report machine word =
      ⟨1, "", "error: " ++ unknownText value position ++ "\n", [unknownText value position]⟩ := by
  cases machine with
  | deterministic dfa =>
      have formed : dfa.WellFormed := wellFormed
      rw [report, formed.run_of_firstUnknown_of_isTotal total unknown]
      rfl
  | nondeterministic nfa =>
      rw [report, (nfa.run_eq_error_iff word.toList _).2 ⟨value, position, unknown, rfl⟩]
      rfl

/-- What is shown for the set of active states once the machine is compiled. -/
def compiledText (shown : String) : String :=
  if shown = braced "" then "∅" else shown

theorem subsetName_eq_compiledText {automaton : Automaton Char} (named : "" ∉ automaton.names)
    {subset : StateSet} (within : ∀ state, state ∈ subset → state < automaton.size) :
    automaton.subsetName subset = compiledText (automaton.renderStates subset) := by
  unfold Automaton.subsetName compiledText
  simp only [Automaton.renderStates_eq_empty_iff named within, StateSet.isEmpty_iff]
  rfl

/-- The compiled machine ends in the state that is named after the active states. -/
theorem report_subsetAutomaton {automaton : Automaton Char} (wellFormed : automaton.WellFormed)
    (free : automaton.SeparatorFree) (named : "" ∉ automaton.names) {word : String}
    (plain : quoted word = "\x22" ++ word ++ "\x22")
    (isWord : automaton.alphabet.IsWord word.toList) :
    report (.deterministic automaton.subsetAutomaton) word =
      ⟨0, readText "------ DFA Machine Summary ------"
        ((automaton.active word.toList).intersects automaton.accepting)
        ("Final state: " ++
          compiledText (automaton.renderStates (automaton.active word.toList))) word, "", []⟩ := by
  rcases wellFormed.run_subsetAutomaton_of_isWord isWord with ⟨state, stands, ran⟩
  rw [report_deterministic plain ran (wellFormed.name?_subsetAutomaton free stands),
    subsetName_eq_compiledText named fun state member => wellFormed.active_lt member]

theorem report_subsetAutomaton_of_firstUnknown {automaton : Automaton Char}
    (wellFormed : automaton.WellFormed) {word : String} {value : Char} {position : Nat}
    (unknown : automaton.alphabet.FirstUnknown word.toList value position) :
    report (.deterministic automaton.subsetAutomaton) word =
      ⟨1, "", "error: " ++ unknownText value position ++ "\n", [unknownText value position]⟩ := by
  rw [report, wellFormed.run_subsetAutomaton_of_firstUnknown unknown]
  rfl

/-! ## Requests to run a machine -/

theorem answer_run (ready : ReadyMade) (word : String) :
    answer (.run ready.name false word) = report ready.resolved word := by
  simp [answer, load, ready.ofName?_name, ready.machine_eq]

theorem answer_run_compile (ready : ReadyMade) (word : String) :
    answer (.run ready.name true word) =
      report (.deterministic ready.resolved.automaton.subsetAutomaton) word := by
  simp [answer, load, ready.ofName?_name, ready.machine_eq, Machine.compiled,
    ready.determinize_resolved, Except.map]

/-! ## What compiling leaves as it is -/

/--
The first and the third line of a report on a word, and the third line after the
machine is compiled.
-/
def ShowsReached (word heading last last' : String) : Machine Char → Prop
  | .deterministic dfa =>
      heading = "------ DFA Machine Summary ------" ∧
        ∃ state name, dfa.stateAfter word.toList = some state ∧
          dfa.automaton.name? state = some name ∧
          last = "Final state: " ++ name ∧ last' = "Final state: " ++ braced name
  | .nondeterministic nfa =>
      heading = "------ NFA Machine Summary ------" ∧
        ∃ shown, shown = nfa.renderStates (nfa.active word.toList) ∧
          last = "Active states: " ++ shown ∧ last' = "Final state: " ++ compiledText shown ∧
          (shown = braced "" ↔ nfa.active word.toList = ∅)

/-- Two results of running a ready-made machine on a word, the second one after compiling it. -/
structure Agree (ready : ReadyMade) (word : String) (direct compiled : Result) : Prop where
  exitCode_direct : direct.exitCode = 0 ↔
    ∀ value ∈ word.toList, value ∈ ready.description.alphabet
  exitCode_compiled : compiled.exitCode = 0 ↔
    ∀ value ∈ word.toList, value ∈ ready.description.alphabet
  /-- What is read gets the same verdict, and the active states become the final state. -/
  of_known : (∀ value ∈ word.toList, value ∈ ready.description.alphabet) →
    ∃ machine accepted heading last last',
      ready.machine = .ok machine ∧
      machine.decides word.toList = .ok accepted ∧
      direct =
        { exitCode := 0
          output := readText heading accepted last word
          errors := ""
          logged := [] } ∧
      compiled =
        { exitCode := 0
          output := readText "------ DFA Machine Summary ------" accepted last' word
          errors := ""
          logged := [] } ∧
      ShowsReached word heading last last' machine
  /-- What is not read fails at the first symbol that is not in the alphabet. -/
  of_unknown : (¬ ∀ value ∈ word.toList, value ∈ ready.description.alphabet) →
    ∃ known value rest,
      word.toList = known ++ value :: rest ∧
      (∀ earlier ∈ known, earlier ∈ ready.description.alphabet) ∧
      value ∉ ready.description.alphabet ∧
      direct =
        { exitCode := 1
          output := ""
          errors := "error: " ++ unknownText value known.length ++ "\n"
          logged := [unknownText value known.length] } ∧
      compiled = direct

/-- The lines on where a word leads, without and with compiling. -/
theorem exists_report_of_isWord {machine : Machine Char} (wellFormed : machine.WellFormed)
    (total : machine.IsTotal) (named : "" ∉ machine.automaton.names) {word : String}
    (plain : quoted word = "\x22" ++ word ++ "\x22")
    (isWord : machine.automaton.alphabet.IsWord word.toList) :
    ∃ heading last,
      report machine word =
        ⟨0, readText heading
          ((machine.automaton.active word.toList).intersects machine.automaton.accepting)
          last word, "", []⟩ ∧
      ShowsReached word heading last
        ("Final state: " ++ compiledText
          (machine.automaton.renderStates (machine.automaton.active word.toList)))
        machine := by
  have empty := Automaton.renderStates_eq_empty_iff named
    fun state (member : state ∈ machine.automaton.active word.toList) =>
      wellFormed.wellFormed_automaton.active_lt member
  cases machine with
  | nondeterministic nfa =>
      exact ⟨_, _, report_nondeterministic nfa plain isWord, rfl, _, rfl, rfl, rfl, empty⟩
  | deterministic dfa =>
      have formed : dfa.WellFormed := wellFormed
      rcases formed.exists_stateAfter_of_isTotal total isWord with ⟨state, reached⟩
      have active : dfa.automaton.active word.toList = .singleton state := by
        rw [formed.active_eq_ofPlace, reached]
        rfl
      have verdict : (dfa.automaton.active word.toList).intersects dfa.automaton.accepting =
          dfa.automaton.isAccepting state := by
        rw [formed.intersects_active, reached]
        rfl
      have named := Automaton.name?_eq_some_nameOf (formed.stateAfter_lt reached)
      have ran := (dfa.run_eq_ok_iff word.toList _).2 ⟨state, reached, rfl⟩
      rw [← verdict] at ran
      refine ⟨_, _, report_deterministic plain ran named, rfl, state, _, reached, named, rfl, ?_⟩
      -- A single active state is not shown as if there were none.
      have something : dfa.automaton.active word.toList ≠ ∅ := active ▸ nofun
      have shown : dfa.automaton.renderStates (dfa.automaton.active word.toList) =
          braced (dfa.automaton.nameOf state) := by
        rw [active]
        rfl
      rw [← shown]
      exact congrArg ("Final state: " ++ ·) (if_neg (empty.not.2 something))

/-- Whether a ready-made machine is compiled does not change what is reported on a word. -/
theorem answer_run_agrees_compiled (ready : ReadyMade) (word : String) :
    Agree ready word (answer (.run ready.name false word))
      (answer (.run ready.name true word)) := by
  rw [answer_run, answer_run_compile]
  have wellFormed := ready.wellFormed_automaton_resolved
  rcases ready.resolved.automaton.alphabet.isWord_or_firstUnknown word.toList with
    isWord | ⟨value, position, unknown⟩
  · have known := (ready.isWord_resolved_iff _).1 isWord
    have plain := ready.quoted_of_known known
    rcases exists_report_of_isWord ready.wellFormed_resolved ready.isTotal_resolved
      ready.named_resolved plain isWord with ⟨heading, last, direct, shows⟩
    have compiled := report_subsetAutomaton wellFormed ready.separatorFree_resolved
      ready.named_resolved plain isWord
    have decided :=
      Machine.decides_of_isWord ready.wellFormed_resolved ready.isTotal_resolved isWord
    exact
      { exitCode_direct := iff_of_true (congrArg Result.exitCode direct) known
        exitCode_compiled := iff_of_true (congrArg Result.exitCode compiled) known
        of_known := fun _ =>
          ⟨_, _, heading, last, _, ready.machine_eq, decided, direct, compiled, shows⟩
        of_unknown := fun unknown => absurd known unknown }
  · have foreign : ¬ ∀ value ∈ word.toList, value ∈ ready.description.alphabet := by
      rw [← ready.isWord_resolved_iff]
      exact unknown.not_isWord
    have direct := report_of_firstUnknown ready.wellFormed_resolved ready.isTotal_resolved unknown
    have compiled := report_subsetAutomaton_of_firstUnknown wellFormed unknown
    refine
      { exitCode_direct := ?_
        exitCode_compiled := ?_
        of_known := fun known => absurd known foreign
        of_unknown := fun _ => ?_ }
    · rw [direct]
      exact iff_of_false Nat.one_ne_zero foreign
    · rw [compiled]
      exact iff_of_false Nat.one_ne_zero foreign
    · rcases unknown with ⟨known, rest, same, isWord, outside, rfl⟩
      rw [ready.symbols_resolved] at outside
      exact ⟨known, value, rest, same, (ready.isWord_resolved_iff known).1 isWord, outside, direct,
        compiled.trans direct.symm⟩

/-- A zero behind a one leaves no state active, so the compiled machine ends in the dead state. -/
example :
    answer (.run "zeros-then-ones" true "10") =
      { exitCode := 0
        output := "------ DFA Machine Summary ------\n" ++
          "After 2 transitions, the machine rejects the input.\n" ++
          "Final state: ∅\n" ++
          "Input: \x2210\x22\n"
        errors := ""
        logged := [] } := by
  decide +kernel

end CommandLine

end WordAutomata
