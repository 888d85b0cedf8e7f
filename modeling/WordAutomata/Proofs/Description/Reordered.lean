import Mathlib.Data.List.Perm.Basic
import WordAutomata.Proofs.Description.NormalForm
import WordAutomata.Proofs.Description.Steps

/-!
# The order of the steps

The steps by which a description grows say what the described automaton is up to
the numbers of its states.  If they come in another order then the rows do so as
well, and nothing else changes: the description resolves or fails to resolve as
before, and the two automata agree on everything that can be said by name.
-/

namespace WordAutomata

variable {α : Type}

namespace Automaton

/-- Some state of the set has the name. -/
def HasNamed (automaton : Automaton α) (states : StateSet) (name : String) : Prop :=
  ∃ state, state ∈ states ∧ automaton.name? state = some name

variable [DecidableEq α]

/-- Some edge with the label leads from a state with the first name to one with the second. -/
def HasNamedEdge (automaton : Automaton α) (source : String) (label : Label α)
    (target : String) : Prop :=
  ∃ state state', automaton.name? state = some source ∧ automaton.name? state' = some target ∧
    ⟨state, label, state'⟩ ∈ automaton.edges

/-- The automata can differ in how their states are numbered, and in nothing else. -/
structure AlikeByName (left right : Automaton α) : Prop where
  alphabet_eq : left.alphabet = right.alphabet
  names_perm : left.names.Perm right.names
  initial_iff : ∀ name, left.HasNamed left.initial name ↔ right.HasNamed right.initial name
  accepting_iff : ∀ name,
    left.HasNamed left.accepting name ↔ right.HasNamed right.accepting name
  edges_iff : ∀ source label target,
    left.HasNamedEdge source label target ↔ right.HasNamedEdge source label target

end Automaton

namespace Description

variable {symbols : List α} {steps steps' : List (Step α)}
  {description description' : Description α} {automaton automaton' : Automaton α}

theorem mem_mentioned_congr (reordered : steps.Perm steps') (name : String) :
    name ∈ mentioned steps ↔ name ∈ mentioned steps' :=
  (reordered.flatMap_right Step.mentions).mem_iff

theorem mem_initials_congr (reordered : steps.Perm steps') (name : String) :
    name ∈ initials steps ↔ name ∈ initials steps' :=
  (reordered.flatMap_right Step.initials).mem_iff

theorem mem_acceptings_congr (reordered : steps.Perm steps') (name : String) :
    name ∈ acceptings steps ↔ name ∈ acceptings steps' :=
  (reordered.flatMap_right Step.acceptings).mem_iff

theorem GrownBy.wellFormed_congr (grown : GrownBy symbols steps description)
    (grown' : GrownBy symbols steps' description') (reordered : steps.Perm steps') :
    description.WellFormed ↔ description'.WellFormed := by
  rw [grown.wellFormed_iff, grown'.wellFormed_iff]
  simp only [reordered.mem_iff, mem_mentioned_congr reordered, mem_initials_congr reordered,
    mem_acceptings_congr reordered]

theorem GrownBy.names_perm (grown : GrownBy symbols steps description)
    (grown' : GrownBy symbols steps' description') (reordered : steps.Perm steps') :
    description.names.Perm description'.names := by
  refine (List.perm_ext_iff_of_nodup grown.names_nodup grown'.names_nodup).2 ?_
  intro name
  rw [grown.mem_names_iff, grown'.mem_names_iff, mem_mentioned_congr reordered]

/-! ## What the steps say by name -/

variable [DecidableEq α]

theorem Describes.exists_name?_iff (describes : description.Describes automaton)
    (name : String) :
    (∃ state, automaton.name? state = some name) ↔ name ∈ description.names := by
  simp only [describes.name?_eq, ← List.getElem?_map]
  exact List.mem_iff_getElem?.symm

/-- A set of states that is given by names has members with these names. -/
theorem Describes.hasNamed_iff (describes : description.Describes automaton) {states : StateSet}
    {given : List String}
    (members : ∀ state, state ∈ states ↔ ∃ name ∈ given, automaton.name? state = some name)
    (declared : ∀ name ∈ given, name ∈ description.names) (name : String) :
    automaton.HasNamed states name ↔ name ∈ given := by
  constructor
  · rintro ⟨state, member, named⟩
    rcases (members state).1 member with ⟨name', listed, named'⟩
    rw [named, Option.some.injEq] at named'
    rwa [named']
  · intro listed
    rcases (describes.exists_name?_iff name).2 (declared name listed) with ⟨state, named⟩
    exact ⟨state, (members state).2 ⟨name, listed, named⟩, named⟩

/-- A state is initial exactly if some step says so of its name. -/
theorem GrownBy.hasNamed_initial_iff (grown : GrownBy symbols steps description)
    (resolved : description.resolve = .ok automaton) (name : String) :
    automaton.HasNamed automaton.initial name ↔ name ∈ initials steps := by
  have describes := describes_of_resolve resolved
  have wellFormed := ((description.resolve_eq_ok_iff automaton).1 resolved).1
  rw [← grown.start_eq]
  exact describes.hasNamed_iff describes.mem_initial_iff wellFormed.start_declared name

/-- A state is accepting exactly if some step says so of its name. -/
theorem GrownBy.hasNamed_accepting_iff (grown : GrownBy symbols steps description)
    (resolved : description.resolve = .ok automaton) (name : String) :
    automaton.HasNamed automaton.accepting name ↔ name ∈ acceptings steps := by
  have describes := describes_of_resolve resolved
  have wellFormed := ((description.resolve_eq_ok_iff automaton).1 resolved).1
  rw [← grown.accept_eq]
  exact describes.hasNamed_iff describes.mem_accepting_iff wellFormed.accept_declared name

/-- There is an edge between two names exactly if some step adds it. -/
theorem GrownBy.hasNamedEdge_iff (grown : GrownBy symbols steps description)
    (resolved : description.resolve = .ok automaton) (source : String) (label : Label α)
    (target : String) :
    automaton.HasNamedEdge source label target ↔ .edge source label target ∈ steps := by
  have describes := describes_of_resolve resolved
  rw [← grown.lists_iff]
  constructor
  · rintro ⟨state, state', named, named', edge⟩
    rcases (describes.mem_edges_iff_lists grown.names_nodup state label state').1 edge with
      ⟨name, name', standing, standing', listed⟩
    rw [named, Option.some.injEq] at standing
    rw [named', Option.some.injEq] at standing'
    rwa [standing, standing']
  · intro listed
    have declared := grown.mem_names_of_lists listed
    rcases (describes.exists_name?_iff source).2 declared.1 with ⟨state, named⟩
    rcases (describes.exists_name?_iff target).2 declared.2 with ⟨state', named'⟩
    exact ⟨state, state', named, named',
      (describes.mem_edges_iff_lists grown.names_nodup state label state').2
        ⟨source, target, named, named', listed⟩⟩

/-! ## Two orders of the same steps -/

theorem GrownBy.alikeByName (grown : GrownBy symbols steps description)
    (grown' : GrownBy symbols steps' description') (reordered : steps.Perm steps')
    (resolved : description.resolve = .ok automaton)
    (resolved' : description'.resolve = .ok automaton') :
    automaton.AlikeByName automaton' where
  alphabet_eq := by
    apply Alphabet.ext_symbols
    rw [(describes_of_resolve resolved).symbols_eq, (describes_of_resolve resolved').symbols_eq,
      grown.alphabet_eq, grown'.alphabet_eq]
  names_perm := by
    rw [names_eq_of_resolve resolved, names_eq_of_resolve resolved']
    exact grown.names_perm grown' reordered
  initial_iff := by
    intro name
    rw [grown.hasNamed_initial_iff resolved, grown'.hasNamed_initial_iff resolved',
      mem_initials_congr reordered]
  accepting_iff := by
    intro name
    rw [grown.hasNamed_accepting_iff resolved, grown'.hasNamed_accepting_iff resolved',
      mem_acceptings_congr reordered]
  edges_iff := by
    intro source label target
    rw [grown.hasNamedEdge_iff resolved, grown'.hasNamedEdge_iff resolved', reordered.mem_iff]

/--
A description that grows from an alphabet by steps without complete rows is
coherent, and it can only be refused for what a single step gets wrong.  The
same steps in another order resolve exactly if these do, and then to an
automaton that differs at most in the numbers of the states.
-/
theorem growing_is_coherent (symbols : List α) (steps : List (Step α))
    (rowless : ∀ step ∈ steps, step.isRow = false) :
    GrownBy symbols steps (fromSteps symbols steps) ∧
      (∀ source label target, Lists (fromSteps symbols steps).rows source label target →
        target ∈ (fromSteps symbols steps).names) ∧
      (∀ flaw, (fromSteps symbols steps).resolve = .error flaw →
        StepFlaw symbols steps flaw) ∧
      ∀ steps', steps.Perm steps' →
        ((∃ automaton, (fromSteps symbols steps).resolve = .ok automaton) ↔
          ∃ automaton', (fromSteps symbols steps').resolve = .ok automaton') ∧
        ∀ automaton automaton', (fromSteps symbols steps).resolve = .ok automaton →
          (fromSteps symbols steps').resolve = .ok automaton' →
            automaton.AlikeByName automaton' := by
  have grown := grownBy_fromSteps symbols steps rowless
  refine ⟨grown, fun _ _ _ listed => (grown.mem_names_of_lists listed).2,
    fun _ => grown.stepFlaw_of_resolve, ?_⟩
  intro steps' reordered
  have rowless' : ∀ step ∈ steps', step.isRow = false :=
    fun step member => rowless step (reordered.mem_iff.2 member)
  have grown' := grownBy_fromSteps symbols steps' rowless'
  refine ⟨?_, fun _ _ => grown.alikeByName grown' reordered⟩
  rw [exists_resolve_iff, exists_resolve_iff]
  exact grown.wellFormed_congr grown' reordered

/-- The second state is mentioned first by the last step, and last by the first one. -/
def roundTrip : List (Step Char) :=
  [.edge "p" (.symbol 'a') "p", .initial "p", .edge "p" .epsilon "q", .accepting ["q"],
    .edge "p" (.symbol 'a') "q", .edge "q" (.symbol 'a') "p"]

theorem growing_is_coherent_roundTrip :
    (∀ step ∈ roundTrip, step.isRow = false) ∧
      GrownBy ['a'] roundTrip (fromSteps ['a'] roundTrip) ∧
      ∃ automaton automaton', (fromSteps ['a'] roundTrip).resolve = .ok automaton ∧
        (fromSteps ['a'] roundTrip.reverse).resolve = .ok automaton' ∧
        automaton.names = ["p", "q"] ∧ automaton'.names = ["q", "p"] ∧
        automaton.AlikeByName automaton' := by
  have rowless : ∀ step ∈ roundTrip, step.isRow = false := by decide
  rcases growing_is_coherent ['a'] roundTrip rowless with ⟨grown, _, _, reordered⟩
  rcases reordered roundTrip.reverse roundTrip.reverse_perm.symm with ⟨resolving, alike⟩
  have wellFormed : (fromSteps ['a'] roundTrip).WellFormed := by decide
  rcases wellFormed.exists_resolve with ⟨automaton, resolved⟩
  rcases resolving.1 ⟨automaton, resolved⟩ with ⟨automaton', resolved'⟩
  exact ⟨rowless, grown, automaton, automaton', resolved, resolved', names_eq_of_resolve resolved,
    names_eq_of_resolve resolved', alike automaton automaton' resolved resolved'⟩

end Description

end WordAutomata
