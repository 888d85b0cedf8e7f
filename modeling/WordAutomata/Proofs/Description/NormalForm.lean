import WordAutomata.Proofs.Description.Resolve

/-!
# Descriptions in normal form

The description of a well-formed automaton is well-formed, and it describes the
automaton.  As a description describes a single well-formed automaton, resolving
it gives the automaton back.  It is in normal form: each row has at most one
entry for each label, in the order of the alphabet with the empty label last,
and all names are listed in the order of their rows.
-/

namespace WordAutomata

variable {α : Type} [DecidableEq α]

omit [DecidableEq α] in
theorem Alphabet.ext_symbols {left right : Alphabet α} (symbols : left.symbols = right.symbols) :
    left = right := by
  cases left
  cases right
  simpa using symbols

theorem StateSet.ne_empty_iff (set : StateSet) : set ≠ ∅ ↔ set.members ≠ [] := by
  rw [Ne, ← isEmpty_iff, isEmpty, List.isEmpty_iff]

/-- A description describes a single automaton. -/
theorem Description.Describes.unique {description : Description α} {left right : Automaton α}
    (inLeft : description.Describes left) (inRight : description.Describes right)
    (leftWellFormed : left.WellFormed) (rightWellFormed : right.WellFormed) :
    left = right := by
  have named : ∀ state, left.name? state = right.name? state := fun state =>
    (inLeft.name?_eq state).trans (inRight.name?_eq state).symm
  apply leftWellFormed.ext_targets rightWellFormed
  · exact Alphabet.ext_symbols (inLeft.symbols_eq.trans inRight.symbols_eq.symm)
  · exact List.ext_getElem? named
  · ext state
    rw [inLeft.mem_initial_iff, inRight.mem_initial_iff, named]
  · ext state
    rw [inLeft.mem_accepting_iff, inRight.mem_accepting_iff, named]
  · intro source label
    ext target
    rw [← left.mem_edges_iff ⟨source, label, target⟩, inLeft.mem_edges_iff,
      ← right.mem_edges_iff ⟨source, label, target⟩, inRight.mem_edges_iff, named]

namespace Automaton

variable {automaton : Automaton α}

/-! ## The rows of a description in normal form -/

/-- The entries of the row of a state: one for each label that some edge carries. -/
def entriesAt (automaton : Automaton α) (state : Nat) : List (Entry α) :=
  automaton.alphabet.labels.filterMap fun label =>
    let targets := automaton.targets state label
    if targets.isEmpty then none else some ⟨label, targets.members.map automaton.nameOf⟩

theorem rows_toDescription (automaton : Automaton α) :
    automaton.toDescription.rows =
      automaton.ids.map fun state => ⟨automaton.nameOf state, automaton.entriesAt state⟩ :=
  rfl

theorem names_toDescription (automaton : Automaton α) :
    automaton.toDescription.names = automaton.names := by
  rw [Description.names, rows_toDescription, List.map_map]
  exact automaton.map_nameOf_ids

theorem getElem?_rows_toDescription_eq_some_iff (automaton : Automaton α) (state : Nat)
    (row : Row α) :
    automaton.toDescription.rows[state]? = some row ↔
      state < automaton.size ∧ row = ⟨automaton.nameOf state, automaton.entriesAt state⟩ := by
  rw [rows_toDescription, List.getElem?_map, Option.map_eq_some_iff]
  constructor
  · rintro ⟨place, located, rfl⟩
    rcases List.getElem?_eq_some_iff.1 located with ⟨within, same⟩
    rw [ids, List.length_range] at within
    have here : state = place := by simpa [ids] using same
    subst here
    exact ⟨within, rfl⟩
  · rintro ⟨present, rfl⟩
    exact ⟨state, List.getElem?_range present, rfl⟩

theorem mem_entriesAt_iff (automaton : Automaton α) (state : Nat) (entry : Entry α) :
    entry ∈ automaton.entriesAt state ↔
      automaton.targets state entry.label ≠ ∅ ∧
        entry.targets =
          (automaton.targets state entry.label).members.map automaton.nameOf := by
  rw [entriesAt, List.mem_filterMap]
  constructor
  · rintro ⟨label, _, kept⟩
    by_cases nothing : (automaton.targets state label).isEmpty = true
    · simp [nothing] at kept
    · simp only [nothing, Bool.false_eq_true, if_false, Option.some.injEq] at kept
      rw [StateSet.isEmpty_iff] at nothing
      subst kept
      exact ⟨nothing, rfl⟩
  · rintro ⟨something, listed⟩
    have nonempty : ¬ (automaton.targets state entry.label).isEmpty = true := by
      rwa [StateSet.isEmpty_iff]
    obtain ⟨target, member⟩ := List.exists_mem_of_ne_nil _ ((StateSet.ne_empty_iff _).1 something)
    refine ⟨entry.label, mem_labels_of_mem_targets member, ?_⟩
    simp only [nonempty, Bool.false_eq_true, if_false, ← listed]

/-- The labels of the entries stand in the order of the alphabet, the empty label last. -/
theorem labels_entriesAt (automaton : Automaton α) (state : Nat) :
    (automaton.entriesAt state).map Entry.label =
      automaton.alphabet.labels.filter fun label =>
        !(automaton.targets state label).isEmpty := by
  rw [entriesAt, List.map_filterMap, ← List.filterMap_eq_filter]
  apply List.filterMap_congr
  intro label _
  cases nothing : (automaton.targets state label).isEmpty <;> simp [nothing, Option.guard]

/-! ## Resolving the description of an automaton -/

theorem WellFormed.describes_toDescription (wellFormed : automaton.WellFormed) :
    automaton.toDescription.Describes automaton where
  symbols_eq := rfl
  size_eq := by rw [rows_toDescription, List.length_map, ids, List.length_range]
  name?_eq := by
    intro state
    rw [← List.getElem?_map]
    exact congrArg (·[state]?) automaton.names_toDescription.symm
  mem_initial_iff := fun state => (wellFormed.mem_map_nameOf_iff wellFormed.initial_lt state).symm
  mem_accepting_iff := fun state =>
    (wellFormed.mem_map_nameOf_iff wellFormed.accepting_lt state).symm
  mem_edges_iff := by
    intro source label target
    have within : ∀ other, other ∈ automaton.targets source label → other < automaton.size :=
      fun _ => wellFormed.target_lt
    rw [mem_edges_iff, ← wellFormed.mem_map_nameOf_iff within]
    constructor
    · rintro ⟨name, listed, named⟩
      have member := (wellFormed.mem_map_nameOf_iff within target).1 ⟨name, listed, named⟩
      have something : automaton.targets source label ≠ ∅ := by
        intro nothing
        rw [nothing] at member
        exact StateSet.not_mem_empty target member
      exact ⟨_, (automaton.getElem?_rows_toDescription_eq_some_iff source _).2
          ⟨lt_size_of_mem_targets member, rfl⟩,
        ⟨label, _⟩, (automaton.mem_entriesAt_iff source _).2 ⟨something, rfl⟩, rfl,
        name, listed, named⟩
    · rintro ⟨row, located, entry, member, rfl, name, listed, named⟩
      rcases (automaton.getElem?_rows_toDescription_eq_some_iff source row).1 located with
        ⟨_, rfl⟩
      rw [((automaton.mem_entriesAt_iff source entry).1 member).2] at listed
      exact ⟨name, listed, named⟩

theorem declared_map_nameOf {states : StateSet}
    (within : ∀ state, state ∈ states → state < automaton.size) :
    ∀ name ∈ states.members.map automaton.nameOf, name ∈ automaton.toDescription.names := by
  intro name listed
  rcases List.mem_map.1 listed with ⟨state, member, rfl⟩
  rw [names_toDescription]
  exact nameOf_mem_names (within state member)

theorem mem_rows_toDescription_iff (automaton : Automaton α) (row : Row α) :
    row ∈ automaton.toDescription.rows ↔
      ∃ state < automaton.size,
        row = ⟨automaton.nameOf state, automaton.entriesAt state⟩ := by
  simp only [List.mem_iff_getElem?, getElem?_rows_toDescription_eq_some_iff]

theorem WellFormed.wellFormed_toDescription (wellFormed : automaton.WellFormed) :
    automaton.toDescription.WellFormed where
  symbols_nodup := automaton.alphabet.nodup
  names_nodup := by
    rw [names_toDescription]
    exact wellFormed.names_nodup
  labels_known := by
    intro row listed entry member
    rcases (automaton.mem_rows_toDescription_iff row).1 listed with ⟨state, _, rfl⟩
    have labelled : entry.label ∈ (automaton.entriesAt state).map Entry.label :=
      List.mem_map_of_mem member
    rw [labels_entriesAt] at labelled
    exact (Alphabet.mem_labels _ _).1 (List.mem_of_mem_filter labelled)
  targets_declared := by
    intro row listed entry member
    rcases (automaton.mem_rows_toDescription_iff row).1 listed with ⟨state, _, rfl⟩
    rw [((automaton.mem_entriesAt_iff state entry).1 member).2]
    exact declared_map_nameOf fun _ => wellFormed.target_lt
  start_declared := declared_map_nameOf wellFormed.initial_lt
  accept_declared := declared_map_nameOf wellFormed.accepting_lt

/-- Resolving the description of an automaton gives the automaton back. -/
theorem WellFormed.resolve_toDescription (wellFormed : automaton.WellFormed) :
    automaton.toDescription.resolve = .ok automaton := by
  rcases wellFormed.wellFormed_toDescription.exists_resolve with ⟨again, resolved⟩
  rw [resolved, (Description.describes_of_resolve resolved).unique
    wellFormed.describes_toDescription (Description.wellFormed_of_resolve resolved) wellFormed]

end Automaton

/-! ## Normal form -/

namespace Description

/-- The names are listed in the order of their rows, and none is listed twice. -/
def Ascending (description : Description α) (referred : List String) : Prop :=
  referred.Pairwise fun first second =>
    description.names.idxOf first < description.names.idxOf second

/-- The description is written in the one way that is chosen for its automaton. -/
structure IsNormal (description : Description α) : Prop where
  labels_sublist : ∀ row ∈ description.rows,
    (row.entries.map Entry.label).Sublist (description.alphabet.map .symbol ++ [.epsilon])
  targets_nonempty : ∀ row ∈ description.rows, ∀ entry ∈ row.entries, entry.targets ≠ []
  targets_ascending : ∀ row ∈ description.rows, ∀ entry ∈ row.entries,
    description.Ascending entry.targets
  start_ascending : description.Ascending description.start
  accept_ascending : description.Ascending description.accept

end Description

namespace Automaton

variable {automaton : Automaton α}

theorem WellFormed.ascending_map_nameOf (wellFormed : automaton.WellFormed) {states : StateSet}
    (within : ∀ state, state ∈ states → state < automaton.size) :
    automaton.toDescription.Ascending (states.members.map automaton.nameOf) := by
  rw [Description.Ascending, names_toDescription, List.pairwise_map]
  apply states.ascending.imp_of_mem
  intro first second left right before
  rwa [wellFormed.idxOf_nameOf (within first left), wellFormed.idxOf_nameOf (within second right)]

theorem WellFormed.isNormal_toDescription (wellFormed : automaton.WellFormed) :
    automaton.toDescription.IsNormal where
  labels_sublist := by
    intro row listed
    rcases (automaton.mem_rows_toDescription_iff row).1 listed with ⟨state, _, rfl⟩
    rw [labels_entriesAt]
    exact List.filter_sublist
  targets_nonempty := by
    intro row listed entry member
    rcases (automaton.mem_rows_toDescription_iff row).1 listed with ⟨state, _, rfl⟩
    rcases (automaton.mem_entriesAt_iff state entry).1 member with ⟨something, targets⟩
    rw [targets, Ne, List.map_eq_nil_iff]
    exact (StateSet.ne_empty_iff _).1 something
  targets_ascending := by
    intro row listed entry member
    rcases (automaton.mem_rows_toDescription_iff row).1 listed with ⟨state, _, rfl⟩
    rw [((automaton.mem_entriesAt_iff state entry).1 member).2]
    exact wellFormed.ascending_map_nameOf fun _ => wellFormed.target_lt
  start_ascending := wellFormed.ascending_map_nameOf wellFormed.initial_lt
  accept_ascending := wellFormed.ascending_map_nameOf wellFormed.accepting_lt

end Automaton

end WordAutomata
