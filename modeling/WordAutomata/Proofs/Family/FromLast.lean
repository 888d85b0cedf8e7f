import WordAutomata.Family
import WordAutomata.Proofs.Description.Grown

/-!
# An automaton that counts from the end

The description of the automaton that guesses a position from the end grows
state by state: the edges that leave the last state so far give a row to the
next one.  As states are named by their numbers, they have different names, so
the description resolves, and the edges of the automaton are the moves of a
counter that starts when a one is guessed.
-/

namespace WordAutomata.Family

open Description

/-! ## Names of states -/

theorem render_injective {first second : Nat} (same : render first = render second) :
    first = second := by
  have texts : String.ofList (Nat.toDigits 10 first) = String.ofList (Nat.toDigits 10 second) := by
    rw [← Nat.repr_eq_ofList_toDigits, ← Nat.repr_eq_ofList_toDigits]
    exact same
  rw [← @Nat.ofDigitChars_ten_toDigits first, String.ofList_injective texts,
    Nat.ofDigitChars_ten_toDigits]

theorem stateName_inj (first second : Nat) :
    stateName first = stateName second ↔ first = second := by
  constructor
  · intro same
    exact render_injective ((String.append_right_inj _).1 same)
  · rintro rfl
    rfl

/-- A state has the name that says its number, if the names are those of the numbers. -/
theorem name?_eq_some_stateName_iff {size : Nat} {automaton : Automaton Char}
    (names : automaton.names = (List.range size).map stateName) (state number : Nat) :
    automaton.name? state = some (stateName number) ↔ state = number ∧ number < size := by
  rw [Automaton.name?, names, List.getElem?_map, Option.map_eq_some_iff]
  simp only [stateName_inj, exists_eq_right, List.getElem?_eq_some_iff, List.length_range,
    List.getElem_range, exists_prop]
  omega

/-! ## The description -/

/-- The automaton waits in its first state, guesses at a one, and counts after a guess. -/
inductive Move : Nat → Char → Nat → Prop where
  | waits {value : Char} (binary : value = '0' ∨ value = '1') : Move 0 value 0
  | guesses : Move 0 '1' 1
  | counts {state : Nat} {value : Char} (guessed : 0 < state)
      (binary : value = '0' ∨ value = '1') :
      Move state value (state + 1)

/-- The description of waiting and guessing. -/
def guessing (position : Nat) : Description Char :=
  ({ alphabet := ['0', '1'] } : Description Char)
    |>.initial (stateName 0)
    |>.accepting [stateName position]
    |>.edge (stateName 0) '0' (stateName 0)
    |>.edge (stateName 0) '1' (stateName 0)
    |>.edge (stateName 0) '1' (stateName 1)

/-- Adds the edges of a state that counts. -/
def countOn (description : Description Char) (number : Nat) : Description Char :=
  description
    |>.edge (stateName number) '0' (stateName (number + 1))
    |>.edge (stateName number) '1' (stateName (number + 1))

theorem fromLastDescription_eq (position : Nat) :
    fromLastDescription position =
      (List.range' 1 (position - 1)).foldl countOn (guessing position) :=
  rfl

/-- The states up to the last one so far have rows, and the moves between them are listed. -/
structure BuiltUpTo (position last : Nat) (description : Description Char) : Prop where
  alphabet_eq : description.alphabet = ['0', '1']
  start_eq : description.start = [stateName 0]
  accept_eq : description.accept = [stateName position]
  tidy : description.Tidy
  names_eq : description.names = (List.range (last + 1)).map stateName
  lists_iff : ∀ source label target, Lists description.rows source label target ↔
    ∃ state value state', Move state value state' ∧ state' ≤ last ∧
      source = stateName state ∧ label = .symbol value ∧ target = stateName state'

theorem builtUpTo_guessing (position : Nat) : BuiltUpTo position 1 (guessing position) where
  alphabet_eq := rfl
  start_eq := rfl
  accept_eq := rfl
  tidy := by
    apply Tidy.labeledEdge
    apply Tidy.labeledEdge
    apply Tidy.labeledEdge
    exact ⟨List.nodup_nil, nofun⟩
  names_eq := by
    simp only [guessing, edge, names_labeledEdge]
    rfl
  lists_iff := by
    intro source label target
    simp only [guessing, edge, lists_labeledEdge_iff]
    constructor
    · rintro (((⟨_, member, _⟩ | ⟨rfl, rfl, rfl⟩) | ⟨rfl, rfl, rfl⟩) | ⟨rfl, rfl, rfl⟩)
      · cases member
      · exact ⟨0, '0', 0, .waits (Or.inl rfl), Nat.zero_le 1, rfl, rfl, rfl⟩
      · exact ⟨0, '1', 0, .waits (Or.inr rfl), Nat.zero_le 1, rfl, rfl, rfl⟩
      · exact ⟨0, '1', 1, .guesses, Nat.le_refl 1, rfl, rfl, rfl⟩
    · rintro ⟨state, value, state', move, within, rfl, rfl, rfl⟩
      cases move with
      | waits binary =>
          rcases binary with rfl | rfl
          · exact Or.inl (Or.inl (Or.inr ⟨rfl, rfl, rfl⟩))
          · exact Or.inl (Or.inr ⟨rfl, rfl, rfl⟩)
      | guesses => exact Or.inr ⟨rfl, rfl, rfl⟩
      | counts guessed _ => omega

/-- The edges of the last state so far lead to a new one. -/
theorem BuiltUpTo.countOn {position last : Nat} {description : Description Char}
    (built : BuiltUpTo position last description) (guessed : 0 < last) :
    BuiltUpTo position (last + 1) (countOn description last) where
  alphabet_eq := built.alphabet_eq
  start_eq := built.start_eq
  accept_eq := built.accept_eq
  tidy := (built.tidy.labeledEdge _ _ _).labeledEdge _ _ _
  names_eq := by
    have known : stateName last ∈ description.names := by
      rw [built.names_eq]
      exact List.mem_map_of_mem List.self_mem_range_succ
    have new : stateName (last + 1) ∉ description.names := by
      rw [built.names_eq, List.mem_map]
      rintro ⟨state, listed, same⟩
      rw [(stateName_inj _ _).1 same] at listed
      exact absurd (List.mem_range.1 listed) (Nat.lt_irrefl _)
    simp only [Family.countOn, edge, names_labeledEdge]
    rw [mention_of_mem known, mention_of_not_mem new, mention_of_mem (List.mem_append_left _ known),
      mention_of_mem (List.mem_append_right _ List.mem_cons_self), built.names_eq,
      List.range_succ (n := last + 1), List.map_append]
    rfl
  lists_iff := by
    intro source label target
    simp only [Family.countOn, edge, lists_labeledEdge_iff, built.lists_iff]
    constructor
    · rintro ((⟨state, value, state', move, within, named⟩ | ⟨rfl, rfl, rfl⟩) | ⟨rfl, rfl, rfl⟩)
      · exact ⟨state, value, state', move, Nat.le_succ_of_le within, named⟩
      · exact ⟨last, '0', last + 1, .counts guessed (Or.inl rfl), Nat.le_refl _, rfl, rfl, rfl⟩
      · exact ⟨last, '1', last + 1, .counts guessed (Or.inr rfl), Nat.le_refl _, rfl, rfl, rfl⟩
    · rintro ⟨state, value, state', move, within, rfl, rfl, rfl⟩
      by_cases earlier : state' ≤ last
      · exact Or.inl (Or.inl ⟨state, value, state', move, earlier, rfl, rfl, rfl⟩)
      · cases move with
        | waits _ => omega
        | guesses => omega
        | counts _ binary =>
            obtain rfl : state = last := by omega
            rcases binary with rfl | rfl
            · exact Or.inl (Or.inr ⟨rfl, rfl, rfl⟩)
            · exact Or.inr ⟨rfl, rfl, rfl⟩

theorem builtUpTo_fromLastDescription {position : Nat} (positive : 0 < position) :
    BuiltUpTo position position (fromLastDescription position) := by
  have built : ∀ count, BuiltUpTo position (count + 1)
      ((List.range' 1 count).foldl Family.countOn (guessing position)) := by
    intro count
    induction count with
    | zero => exact builtUpTo_guessing position
    | succ count inductionHypothesis =>
        rw [List.range'_1_concat, List.foldl_append, Nat.add_comm 1 count]
        exact inductionHypothesis.countOn (Nat.succ_pos count)
  have complete := built (position - 1)
  rw [Nat.sub_add_cancel positive] at complete
  rw [fromLastDescription_eq]
  exact complete

/-! ## The automaton -/

/-- The automaton has the moves of the counter up to the position, where it accepts. -/
structure CountsFromLast (position : Nat) (automaton : Automaton Char) : Prop where
  wellFormed : automaton.WellFormed
  symbols_eq : automaton.alphabet.symbols = ['0', '1']
  size_eq : automaton.size = position + 1
  mem_initial_iff : ∀ state, state ∈ automaton.initial ↔ state = 0
  mem_accepting_iff : ∀ state, state ∈ automaton.accepting ↔ state = position
  mem_edges_iff : ∀ source label target, ⟨source, label, target⟩ ∈ automaton.edges ↔
    ∃ value, label = .symbol value ∧ Move source value target ∧ target ≤ position

theorem Move.binary {source target : Nat} {value : Char} (move : Move source value target) :
    value = '0' ∨ value = '1' := by
  cases move with
  | waits binary => exact binary
  | guesses => exact Or.inr rfl
  | counts _ binary => exact binary

theorem Move.le {source target : Nat} {value : Char} (move : Move source value target) :
    source ≤ target := by
  cases move <;> omega

theorem BuiltUpTo.wellFormed {position : Nat} {description : Description Char}
    (built : BuiltUpTo position position description) :
    description.WellFormed := by
  have known : ∀ state ≤ position, stateName state ∈ description.names := by
    intro state within
    rw [built.names_eq]
    exact List.mem_map_of_mem (List.mem_range.2 (Nat.lt_succ_of_le within))
  apply built.tidy.wellFormed
  · rw [built.alphabet_eq]
    decide
  · intro source label target listed
    rcases (built.lists_iff source label target).1 listed with
      ⟨state, value, state', move, within, rfl, rfl, rfl⟩
    refine ⟨?_, known state' within⟩
    rintro _ ⟨⟩
    rw [built.alphabet_eq]
    rcases move.binary with rfl | rfl <;> decide
  · rw [built.start_eq]
    exact List.forall_mem_singleton.2 (known 0 (Nat.zero_le position))
  · rw [built.accept_eq]
    exact List.forall_mem_singleton.2 (known position (Nat.le_refl position))

theorem BuiltUpTo.countsFromLast {position : Nat} {description : Description Char}
    (built : BuiltUpTo position position description) {automaton : Automaton Char}
    (resolved : description.resolve = .ok automaton) :
    CountsFromLast position automaton := by
  have describes := describes_of_resolve resolved
  have named : ∀ state number, automaton.name? state = some (stateName number) ↔
      state = number ∧ number ≤ position := by
    intro state number
    rw [name?_eq_some_stateName_iff ((names_eq_of_resolve resolved).trans built.names_eq),
      Nat.lt_succ_iff]
  have zero : ∀ state, automaton.name? state = some (stateName 0) ↔ state = 0 := by
    intro state
    rw [named]
    exact and_iff_left (Nat.zero_le position)
  have last : ∀ state, automaton.name? state = some (stateName position) ↔ state = position := by
    intro state
    rw [named]
    exact and_iff_left (Nat.le_refl position)
  refine
    { wellFormed := wellFormed_of_resolve resolved
      symbols_eq := describes.symbols_eq.trans built.alphabet_eq
      size_eq := ?_
      mem_initial_iff := ?_
      mem_accepting_iff := ?_
      mem_edges_iff := ?_ }
  · have counted := congrArg List.length built.names_eq
    simpa [names, describes.size_eq] using counted
  · intro state
    simp [describes.mem_initial_iff, built.start_eq, zero]
  · intro state
    simp [describes.mem_accepting_iff, built.accept_eq, last]
  · intro source label target
    rw [describes.mem_edges_iff_lists built.tidy.names_nodup]
    constructor
    · rintro ⟨name, name', standing, standing', listed⟩
      rcases (built.lists_iff _ _ _).1 listed with
        ⟨state, value, state', move, within, rfl, rfl, rfl⟩
      rw [((named _ _).1 standing).1, ((named _ _).1 standing').1]
      exact ⟨value, rfl, move, within⟩
    · rintro ⟨value, rfl, move, within⟩
      refine ⟨stateName source, stateName target, ?_, (named _ _).2 ⟨rfl, within⟩, ?_⟩
      · exact (named _ _).2 ⟨rfl, Nat.le_trans move.le within⟩
      · exact (built.lists_iff _ _ _).2 ⟨source, value, target, move, within, rfl, rfl, rfl⟩

/-- The automaton for a position exists, and counts from the last symbol to the position. -/
theorem exists_nthFromLastIsOne {position : Nat} (positive : 0 < position) :
    ∃ automaton, nthFromLastIsOne position = .ok automaton ∧ CountsFromLast position automaton := by
  have built := builtUpTo_fromLastDescription positive
  rcases built.wellFormed.exists_resolve with ⟨automaton, resolved⟩
  refine ⟨automaton, ?_, built.countsFromLast resolved⟩
  rw [nthFromLastIsOne, if_neg (Nat.ne_of_gt positive), member, resolved]
  rfl

end WordAutomata.Family
