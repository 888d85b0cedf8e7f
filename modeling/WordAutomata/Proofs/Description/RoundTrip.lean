import WordAutomata.Proofs.Construction
import WordAutomata.Proofs.Description.Growth

/-!
# Describing and resolving

Resolving the description of a machine that can be built gives its automaton
back, with the same numbering of the states.  Resolving any description and
describing the result brings the description into normal form, which is then
left as it is.
-/

namespace WordAutomata

variable {α : Type} [DecidableEq α]

/-- The description of a deterministic automaton resolves to it; only the sets are forgotten. -/
theorem Dfa.WellFormed.resolveDfa_toDescription {dfa : Dfa α} (wellFormed : dfa.WellFormed) :
    dfa.automaton.toDescription.resolveDfa = .ok { dfa with subsets := none } := by
  rw [Description.resolveDfa, wellFormed.automaton.resolve_toDescription]
  exact wellFormed.ofAutomaton_eq

/--
The automaton of a machine that can be built is given back by its description,
which is what grows when its states and edges are added in order.  Describing
what a description resolves to gives a normal form with the same rows, and
doing it again changes nothing.
-/
theorem description_round_trip :
    (∀ machine : Machine α, machine.Constructible →
      machine.automaton.toDescription.resolve = .ok machine.automaton ∧
        machine.automaton.grownDescription = machine.automaton.toDescription ∧
        ∀ dfa, machine = .deterministic dfa →
          dfa.automaton.toDescription.resolveDfa = .ok { dfa with subsets := none }) ∧
      ∀ (description : Description α) (automaton : Automaton α),
        description.resolve = .ok automaton →
          automaton.toDescription.resolve = description.resolve ∧
            (∀ again, automaton.toDescription.resolve = .ok again →
              again.toDescription = automaton.toDescription) ∧
            automaton.toDescription.alphabet = description.alphabet ∧
            automaton.toDescription.names = description.names ∧
            automaton.toDescription.IsNormal := by
  constructor
  · intro machine constructible
    have wellFormed := constructible.wellFormed.wellFormed_automaton
    refine ⟨wellFormed.resolve_toDescription, wellFormed.grownDescription_eq, ?_⟩
    rintro dfa rfl
    exact Dfa.WellFormed.resolveDfa_toDescription constructible.wellFormed
  · intro description automaton resolved
    have wellFormed := Description.wellFormed_of_resolve resolved
    have restored := wellFormed.resolve_toDescription
    refine ⟨restored.trans resolved.symm, ?_,
      (Description.describes_of_resolve resolved).symbols_eq, ?_,
      wellFormed.isNormal_toDescription⟩
    · intro again resolved'
      rw [restored, Except.ok.injEq] at resolved'
      rw [resolved']
    · rw [Automaton.names_toDescription, Description.names_eq_of_resolve resolved]

/-- The sink of a totalized automaton survives, and a repetitive description is put in order. -/
theorem description_round_trip_undoable :
    Dfa.undoable.totalized.automaton.toDescription.resolveDfa = .ok Dfa.undoable.totalized ∧
      ∃ automaton, Description.repetitive.resolve = .ok automaton ∧
        automaton.toDescription.resolve = .ok automaton ∧ automaton.toDescription.IsNormal := by
  have described : Dfa.undoable.automaton.toDescription.resolveDfa = .ok Dfa.undoable := by rfl
  have totalized := Machine.Constructible.totalized (.resolvedDfa described)
  have wellFormed : Description.repetitive.WellFormed := by decide
  rcases wellFormed.exists_resolve with ⟨automaton, resolved⟩
  have restored := description_round_trip.2 Description.repetitive automaton resolved
  exact ⟨(description_round_trip.1 _ totalized).2.2 _ rfl, automaton, resolved,
    restored.1.trans resolved, restored.2.2.2.2⟩

end WordAutomata
