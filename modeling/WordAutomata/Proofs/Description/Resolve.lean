import WordAutomata.Description.Resolve
import WordAutomata.Proofs.Names
import WordAutomata.Proofs.Tabulated

/-!
# What resolving a description gives

A description resolves exactly if it is well-formed: no symbol and no row name
is repeated, all labels are over the alphabet, and every name that is referred
to has a row.  The automaton has one state for each row, and its edges are those
that the entries of the rows list.  Entries may repeat labels and targets, and
may be empty; an empty entry still needs a known label.
-/

namespace WordAutomata

theorem Alphabet.ofList_eq_ok_iff {α : Type} [DecidableEq α] (symbols : List α)
    (alphabet : Alphabet α) :
    Alphabet.ofList symbols = .ok alphabet ↔ alphabet.symbols = symbols := by
  unfold ofList
  constructor
  · intro accepted
    split at accepted
    · rw [← Except.ok.inj accepted]
    · cases accepted
  · rintro rfl
    split
    · rfl
    · next repeated rest found =>
        rw [(repetitions_eq_nil_iff _).2 alphabet.nodup] at found
        exact absurd found (List.cons_ne_nil repeated rest).symm

namespace Description

variable {α : Type}

section Names

variable {description : Description α}

theorem danglingStates_eq_nil_iff (description : Description α) (referred : List String) :
    description.danglingStates referred = [] ↔ ∀ name ∈ referred, name ∈ description.names := by
  simp [danglingStates]

theorem mem_statesNamed_iff (distinct : description.names.Nodup) (referred : List String)
    (state : Nat) :
    state ∈ description.statesNamed referred ↔
      ∃ name ∈ referred, description.names[state]? = some name := by
  rw [statesNamed, StateSet.mem_ofList, List.mem_filterMap]
  simp only [idxOf?_eq_some_iff_getElem? distinct]

theorem lt_of_mem_statesNamed (distinct : description.names.Nodup) {referred : List String}
    {state : Nat} (member : state ∈ description.statesNamed referred) :
    state < description.names.length := by
  rcases (mem_statesNamed_iff distinct referred state).1 member with ⟨name, _, located⟩
  exact (List.getElem?_eq_some_iff.1 located).1

end Names

variable [DecidableEq α]

/-! ## Well-formed descriptions -/

/-- The description can be resolved. -/
structure WellFormed (description : Description α) : Prop where
  symbols_nodup : description.alphabet.Nodup
  names_nodup : description.names.Nodup
  labels_known : ∀ row ∈ description.rows, ∀ entry ∈ row.entries, ∀ value,
    entry.label = .symbol value → value ∈ description.alphabet
  targets_declared : ∀ row ∈ description.rows, ∀ entry ∈ row.entries,
    ∀ name ∈ entry.targets, name ∈ description.names
  start_declared : ∀ name ∈ description.start, name ∈ description.names
  accept_declared : ∀ name ∈ description.accept, name ∈ description.names

theorem entryFlaws_eq_nil_iff (description : Description α) (source : String)
    (entry : Entry α) :
    description.entryFlaws source entry = [] ↔
      (∀ value, entry.label = .symbol value → value ∈ description.alphabet) ∧
        ∀ name ∈ entry.targets, name ∈ description.names := by
  rw [entryFlaws, List.append_eq_nil_iff, danglingStates_eq_nil_iff]
  cases entry.label <;> simp

theorem wellFormed_iff_flaws (description : Description α) :
    description.WellFormed ↔ description.alphabet.Nodup ∧ description.flaws = [] := by
  simp only [flaws, List.append_eq_nil_iff, List.map_eq_nil_iff, repetitions_eq_nil_iff,
    List.flatMap_eq_nil_iff, entryFlaws_eq_nil_iff, danglingStates_eq_nil_iff]
  constructor
  · intro wellFormed
    refine ⟨wellFormed.symbols_nodup, ⟨⟨wellFormed.names_nodup, ?_⟩,
      wellFormed.start_declared⟩, wellFormed.accept_declared⟩
    intro row listed entry member
    exact ⟨wellFormed.labels_known row listed entry member,
      wellFormed.targets_declared row listed entry member⟩
  · rintro ⟨symbols, ⟨⟨names, entries⟩, start⟩, accept⟩
    exact
      { symbols_nodup := symbols
        names_nodup := names
        labels_known := fun row listed entry member => (entries row listed entry member).1
        targets_declared := fun row listed entry member => (entries row listed entry member).2
        start_declared := start
        accept_declared := accept }

instance (description : Description α) : Decidable description.WellFormed :=
  decidable_of_iff _ description.wellFormed_iff_flaws.symm

/-- A description resolves exactly if it is well-formed, and then to the automaton of its rows. -/
theorem resolve_eq_ok_iff (description : Description α) (automaton : Automaton α) :
    description.resolve = .ok automaton ↔
      description.WellFormed ∧ ∃ alphabet : Alphabet α,
        alphabet.symbols = description.alphabet ∧
          automaton = description.automatonOver alphabet := by
  rw [wellFormed_iff_flaws, resolve]
  cases declared : Alphabet.ofList description.alphabet with
  | error repeated =>
      constructor
      · exact nofun
      · rintro ⟨_, alphabet, symbols, _⟩
        rw [(Alphabet.ofList_eq_ok_iff _ alphabet).2 symbols] at declared
        cases declared
  | ok alphabet =>
      have symbols := (Alphabet.ofList_eq_ok_iff _ alphabet).1 declared
      have same : ∀ other : Alphabet α, other.symbols = description.alphabet →
          other = alphabet := by
        intro other equal
        rw [(Alphabet.ofList_eq_ok_iff _ other).2 equal] at declared
        exact Except.ok.inj declared
      cases found : description.flaws with
      | cons flaw rest => simp
      | nil =>
          constructor
          · intro resolved
            exact ⟨⟨symbols ▸ alphabet.nodup, rfl⟩, alphabet, symbols,
              (Except.ok.inj resolved).symm⟩
          · rintro ⟨_, other, equal, rfl⟩
            rw [same other equal]

/-! ## The described automaton -/

/--
The automaton has the states and edges that the description lists, with the
states in the order of the rows.
-/
structure Describes (description : Description α) (automaton : Automaton α) : Prop where
  symbols_eq : automaton.alphabet.symbols = description.alphabet
  size_eq : automaton.size = description.rows.length
  name?_eq : ∀ state, automaton.name? state = description.rows[state]?.map Row.name
  mem_initial_iff : ∀ state, state ∈ automaton.initial ↔
    ∃ name ∈ description.start, automaton.name? state = some name
  mem_accepting_iff : ∀ state, state ∈ automaton.accepting ↔
    ∃ name ∈ description.accept, automaton.name? state = some name
  mem_edges_iff : ∀ source label target, ⟨source, label, target⟩ ∈ automaton.edges ↔
    ∃ row, description.rows[source]? = some row ∧
      ∃ entry ∈ row.entries, entry.label = label ∧
        ∃ name ∈ entry.targets, automaton.name? target = some name

theorem mem_rowTargets_iff {description : Description α} (distinct : description.names.Nodup)
    (source : Nat) (label : Label α) (target : Nat) :
    target ∈ description.rowTargets source label ↔
      ∃ row, description.rows[source]? = some row ∧
        ∃ entry ∈ row.entries, entry.label = label ∧
          ∃ name ∈ entry.targets, description.names[target]? = some name := by
  rw [rowTargets]
  cases located : description.rows[source]? with
  | none => simp
  | some row =>
      simp only [mem_statesNamed_iff distinct, List.mem_flatMap, List.mem_filter,
        decide_eq_true_eq, Option.some.injEq, exists_eq_left']
      constructor
      · rintro ⟨name, ⟨entry, ⟨member, labelled⟩, listed⟩, standing⟩
        exact ⟨entry, member, labelled, name, listed, standing⟩
      · rintro ⟨entry, member, labelled, name, listed, standing⟩
        exact ⟨name, ⟨entry, ⟨member, labelled⟩, listed⟩, standing⟩

theorem name?_automatonOver (description : Description α) (alphabet : Alphabet α) (state : Nat) :
    (description.automatonOver alphabet).name? state = description.names[state]? := by
  rw [Automaton.name?, automatonOver, Automaton.names_tabulate]

theorem WellFormed.describes_automatonOver {description : Description α}
    (wellFormed : description.WellFormed) {alphabet : Alphabet α}
    (symbols : alphabet.symbols = description.alphabet) :
    description.Describes (description.automatonOver alphabet) where
  symbols_eq := symbols
  size_eq := by simp [automatonOver, names]
  name?_eq := by
    intro state
    rw [name?_automatonOver]
    exact List.getElem?_map
  mem_initial_iff := by
    intro state
    rw [name?_automatonOver]
    exact mem_statesNamed_iff wellFormed.names_nodup description.start state
  mem_accepting_iff := by
    intro state
    rw [name?_automatonOver]
    exact mem_statesNamed_iff wellFormed.names_nodup description.accept state
  mem_edges_iff := by
    intro source label target
    simp only [name?_automatonOver, ← mem_rowTargets_iff wellFormed.names_nodup]
    rw [Automaton.mem_edges_iff, automatonOver, Automaton.targets_tabulate]
    constructor
    · intro listed
      split at listed
      · exact listed
      · exact absurd listed (StateSet.not_mem_empty target)
    · intro member
      rcases (mem_rowTargets_iff wellFormed.names_nodup source label target).1 member with
        ⟨row, located, entry, listed, labelled, _⟩
      have within : source < description.names.length := by
        rw [names, List.length_map]
        exact (List.getElem?_eq_some_iff.1 located).1
      have known : label ∈ alphabet.labels := by
        rw [Alphabet.mem_labels, symbols, ← labelled]
        exact wellFormed.labels_known row (List.mem_of_getElem? located) entry listed
      rwa [if_pos ⟨within, known⟩]

theorem WellFormed.wellFormed_automatonOver {description : Description α}
    (wellFormed : description.WellFormed) (alphabet : Alphabet α) :
    (description.automatonOver alphabet).WellFormed := by
  have distinct := wellFormed.names_nodup
  apply Automaton.wellFormed_tabulate distinct
  · intro source label target _ _ member
    rcases (mem_rowTargets_iff distinct source label target).1 member with
      ⟨_, _, _, _, _, name, _, located⟩
    exact (List.getElem?_eq_some_iff.1 located).1
  · exact fun state member => lt_of_mem_statesNamed distinct member
  · exact fun state member => lt_of_mem_statesNamed distinct member

theorem wellFormed_of_resolve {description : Description α} {automaton : Automaton α}
    (resolved : description.resolve = .ok automaton) :
    automaton.WellFormed := by
  rcases (description.resolve_eq_ok_iff automaton).1 resolved with ⟨wellFormed, alphabet, _, rfl⟩
  exact wellFormed.wellFormed_automatonOver alphabet

theorem describes_of_resolve {description : Description α} {automaton : Automaton α}
    (resolved : description.resolve = .ok automaton) :
    description.Describes automaton := by
  rcases (description.resolve_eq_ok_iff automaton).1 resolved with
    ⟨wellFormed, alphabet, symbols, rfl⟩
  exact wellFormed.describes_automatonOver symbols

theorem names_eq_of_resolve {description : Description α} {automaton : Automaton α}
    (resolved : description.resolve = .ok automaton) :
    automaton.names = description.names := by
  apply List.ext_getElem?
  intro state
  exact ((describes_of_resolve resolved).name?_eq state).trans List.getElem?_map.symm

theorem WellFormed.exists_resolve {description : Description α}
    (wellFormed : description.WellFormed) :
    ∃ automaton, description.resolve = .ok automaton :=
  ⟨_, (description.resolve_eq_ok_iff _).2
    ⟨wellFormed, ⟨description.alphabet, wellFormed.symbols_nodup⟩, rfl, rfl⟩⟩

theorem exists_resolve_iff (description : Description α) :
    (∃ automaton, description.resolve = .ok automaton) ↔ description.WellFormed := by
  constructor
  · rintro ⟨automaton, resolved⟩
    exact ((description.resolve_eq_ok_iff automaton).1 resolved).1
  · exact WellFormed.exists_resolve

/--
A description resolves exactly if it is well-formed, and it describes the
automaton that it resolves to.
-/
theorem resolves_iff_wellFormed (description : Description α) :
    ((∃ automaton, description.resolve = .ok automaton) ↔ description.WellFormed) ∧
      ∀ automaton, description.resolve = .ok automaton → description.Describes automaton :=
  ⟨description.exists_resolve_iff, fun _ => describes_of_resolve⟩

/-- Two entries share a label, targets and initial states are repeated, and one entry is empty. -/
def repetitive : Description Char where
  alphabet := ['a', 'b']
  start := ["q", "q"]
  rows :=
    [⟨"p", [⟨.symbol 'b', ["q"]⟩, ⟨.symbol 'a', []⟩, ⟨.symbol 'b', ["p", "q"]⟩]⟩, ⟨"q", []⟩]

theorem resolves_iff_wellFormed_repetitive :
    ∃ automaton, repetitive.resolve = .ok automaton ∧ repetitive.Describes automaton ∧
      ⟨0, .symbol 'b', 0⟩ ∈ automaton.edges ∧ ⟨0, .symbol 'b', 1⟩ ∈ automaton.edges := by
  have resolving := resolves_iff_wellFormed repetitive
  rcases resolving.1.2 (by decide) with ⟨automaton, resolved⟩
  have describes := resolving.2 automaton resolved
  refine ⟨automaton, resolved, describes, ?_, ?_⟩
  · rw [describes.mem_edges_iff]
    exact ⟨_, rfl, ⟨.symbol 'b', ["p", "q"]⟩, by decide, rfl, "p", by decide,
      describes.name?_eq 0⟩
  · rw [describes.mem_edges_iff]
    exact ⟨_, rfl, ⟨.symbol 'b', ["q"]⟩, by decide, rfl, "q", by decide, describes.name?_eq 1⟩

end Description

end WordAutomata
