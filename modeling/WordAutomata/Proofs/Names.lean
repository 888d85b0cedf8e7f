import Mathlib.Data.List.Basic
import WordAutomata.Proofs.WellFormed

/-!
# Names of states

As the names of a well-formed automaton are pairwise different, a state can be
found by its name, and a set of states can be written down by name without
losing or adding a state.
-/

namespace WordAutomata

/-- In a list without repetitions, a name stands at the one place where it is found. -/
theorem idxOf?_eq_some_iff_getElem? {names : List String} (distinct : names.Nodup)
    (name : String) (place : Nat) :
    names.idxOf? name = some place ↔ names[place]? = some name := by
  have standing : ∀ {found}, names.idxOf? name = some found → names[found]? = some name := by
    intro found located
    obtain ⟨within, same, _⟩ := List.idxOf?_eq_some_iff.1 located
    rw [List.getElem?_eq_getElem within, same]
  constructor
  · exact standing
  · intro located
    cases found : names.idxOf? name with
    | none => exact absurd (List.mem_of_getElem? located) (List.idxOf?_eq_none_iff.1 found)
    | some first =>
        have within := (List.getElem?_eq_some_iff.1 located).1
        rw [(List.getElem?_inj within distinct).1 (located.trans (standing found).symm)]

namespace Automaton

variable {α : Type} {automaton : Automaton α}

theorem length_names (automaton : Automaton α) : automaton.names.length = automaton.size :=
  List.length_map _

theorem name?_eq_some_nameOf {state : Nat} (present : state < automaton.size) :
    automaton.name? state = some (automaton.nameOf state) := by
  have within : state < automaton.names.length := by rwa [length_names]
  rw [nameOf, name?, List.getElem?_eq_getElem within]
  rfl

theorem nameOf_mem_names {state : Nat} (present : state < automaton.size) :
    automaton.nameOf state ∈ automaton.names :=
  List.mem_of_getElem? (name?_eq_some_nameOf present)

theorem map_nameOf_ids (automaton : Automaton α) :
    automaton.ids.map automaton.nameOf = automaton.names := by
  apply List.ext_getElem
  · rw [List.length_map, ids, List.length_range, length_names]
  · intro state within within'
    have present : state < automaton.size := by rwa [← length_names]
    have named := name?_eq_some_nameOf present
    rw [name?, List.getElem?_eq_getElem within', Option.some.injEq] at named
    simp [ids, named]

variable [DecidableEq α]

/-- Different states have different names. -/
theorem WellFormed.eq_of_name?_eq (wellFormed : automaton.WellFormed) {first second : Nat}
    {name : String} (left : automaton.name? first = some name)
    (right : automaton.name? second = some name) :
    first = second :=
  (List.getElem?_inj (List.getElem?_eq_some_iff.1 left).1 wellFormed.names_nodup).1
    (left.trans right.symm)

theorem WellFormed.index?_eq_some_iff (wellFormed : automaton.WellFormed) (name : String)
    (state : Nat) :
    automaton.index? name = some state ↔ automaton.name? state = some name :=
  idxOf?_eq_some_iff_getElem? wellFormed.names_nodup name state

theorem WellFormed.idxOf_nameOf (wellFormed : automaton.WellFormed) {state : Nat}
    (present : state < automaton.size) :
    automaton.names.idxOf (automaton.nameOf state) = state :=
  wellFormed.eq_of_name?_eq (List.getElem?_idxOf (nameOf_mem_names present))
    (name?_eq_some_nameOf present)

/-- Listing the members of a set by name loses none of them, and adds none. -/
theorem WellFormed.mem_map_nameOf_iff (wellFormed : automaton.WellFormed) {states : StateSet}
    (within : ∀ state, state ∈ states → state < automaton.size) (state : Nat) :
    (∃ name ∈ states.members.map automaton.nameOf, automaton.name? state = some name) ↔
      state ∈ states := by
  constructor
  · rintro ⟨name, listed, named⟩
    rcases List.mem_map.1 listed with ⟨other, member, rfl⟩
    rwa [wellFormed.eq_of_name?_eq named (name?_eq_some_nameOf (within other member))]
  · intro member
    exact ⟨automaton.nameOf state, List.mem_map_of_mem member,
      name?_eq_some_nameOf (within state member)⟩

end Automaton

end WordAutomata
