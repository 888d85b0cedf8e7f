/-!
# Repetitions in a list

`repetitions` lists the members of a list that have already occurred before
their own place, in the order of the list.  Its head is therefore the member
whose second occurrence comes first, and a list without repetitions is a list
without duplicates.
-/

namespace WordAutomata

variable {α : Type} [DecidableEq α]

/-- The members of the list that occur in `earlier` or before their own place. -/
def repetitionsAfter (earlier : List α) : List α → List α
  | [] => []
  | head :: tail =>
      if head ∈ earlier then
        head :: repetitionsAfter earlier tail
      else
        repetitionsAfter (head :: earlier) tail

/-- The members that have already occurred before their own place. -/
def repetitions (list : List α) : List α :=
  repetitionsAfter [] list

theorem repetitionsAfter_eq_nil_iff (earlier list : List α) :
    repetitionsAfter earlier list = [] ↔ list.Nodup ∧ ∀ member ∈ list, member ∉ earlier := by
  induction list generalizing earlier with
  | nil => simp [repetitionsAfter]
  | cons head tail inductionHypothesis =>
      by_cases occurred : head ∈ earlier
      · simp [repetitionsAfter, occurred]
      · rw [repetitionsAfter, if_neg occurred, inductionHypothesis, List.nodup_cons]
        constructor
        · rintro ⟨distinct, fresh⟩
          refine ⟨⟨fun member => fresh head member (by simp), distinct⟩, ?_⟩
          intro member located
          rcases List.mem_cons.1 located with rfl | later
          · exact occurred
          · exact fun before => fresh member later (List.mem_cons_of_mem _ before)
        · rintro ⟨⟨headFresh, distinct⟩, fresh⟩
          refine ⟨distinct, fun member later before => ?_⟩
          rcases List.mem_cons.1 before with rfl | before
          · exact headFresh later
          · exact fresh member (List.mem_cons_of_mem _ later) before

theorem repetitions_eq_nil_iff (list : List α) : repetitions list = [] ↔ list.Nodup := by
  simp [repetitions, repetitionsAfter_eq_nil_iff]

end WordAutomata
