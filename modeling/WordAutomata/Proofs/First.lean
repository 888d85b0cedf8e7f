import Mathlib.Data.List.Induction
import Mathlib.Data.List.Nodup
import WordAutomata.Repetition

/-!
# The first member of a list with a property

A search through a list from its head finds the first member with a property,
which is the one that no other member with the property stands before.  The first
repetition in a list is the first member that has occurred before.
-/

namespace WordAutomata

variable {β γ : Type}

/-- The member has the property, and it is the first one in the list that does. -/
def FirstWith (property : β → Prop) (list : List β) (member : β) : Prop :=
  ∃ before after, list = before ++ member :: after ∧ property member ∧
    ∀ earlier ∈ before, ¬ property earlier

/-- The member has occurred before its own place, and it is the first one in the list that has. -/
def FirstRepeated (list : List β) (member : β) : Prop :=
  ∃ before after, list = before ++ member :: after ∧ member ∈ before ∧ before.Nodup

theorem exists_firstWith (property : β → Prop) {list : List β} {member : β}
    (standing : member ∈ list) (holds : property member) :
    ∃ first, FirstWith property list first := by
  induction list with
  | nil => cases standing
  | cons head tail inductionHypothesis =>
      by_cases atHead : property head
      · exact ⟨head, [], tail, rfl, atHead, by simp⟩
      · rcases List.mem_cons.1 standing with rfl | later
        · exact absurd holds atHead
        · rcases inductionHypothesis later with ⟨first, before, after, rfl, holds, fails⟩
          exact ⟨first, head :: before, after, rfl, holds, List.forall_mem_cons.2 ⟨atHead, fails⟩⟩

theorem FirstWith.mem {property : β → Prop} {list : List β} {member : β}
    (first : FirstWith property list member) :
    member ∈ list := by
  rcases first with ⟨before, after, rfl, _⟩
  simp

theorem FirstWith.holds {property : β → Prop} {list : List β} {member : β}
    (first : FirstWith property list member) :
    property member := by
  rcases first with ⟨_, _, _, holds, _⟩
  exact holds

theorem firstWith_congr {property property' : β → Prop} {list : List β}
    (same : ∀ member ∈ list, property member ↔ property' member) (member : β) :
    FirstWith property list member ↔ FirstWith property' list member := by
  refine exists_congr fun before => exists_congr fun after => and_congr_right ?_
  rintro rfl
  refine and_congr (same member (by simp)) (forall₂_congr fun earlier standing => ?_)
  rw [same earlier (by simp [standing])]

/-- The first result in a list is that of the first member that has one. -/
theorem findSome?_eq_some_iff_firstWith {function : β → Option γ} (Gives : β → γ → Prop)
    {list : List β} (gives : ∀ member ∈ list, ∀ result,
      function member = some result ↔ Gives member result) (result : γ) :
    list.findSome? function = some result ↔
      ∃ member, FirstWith (fun other => ∃ result, Gives other result) list member ∧
        Gives member result := by
  rw [List.findSome?_eq_some_iff]
  constructor
  · rintro ⟨before, member, after, rfl, found, nothing⟩
    have given := (gives member (by simp) result).1 found
    refine ⟨member, ⟨before, after, rfl, ⟨result, given⟩, ?_⟩, given⟩
    rintro earlier standing ⟨other, given'⟩
    rw [← gives earlier (by simp [standing]), nothing earlier standing] at given'
    cases given'
  · rintro ⟨member, ⟨before, after, rfl, _, nothing⟩, given⟩
    refine ⟨before, member, after, rfl, (gives member (by simp) result).2 given, ?_⟩
    intro earlier standing
    rw [Option.eq_none_iff_forall_ne_some]
    intro other found
    exact nothing earlier standing ⟨other, (gives earlier (by simp [standing]) other).1 found⟩

theorem head?_filter_eq_some_iff {property : β → Prop} [DecidablePred property] {list : List β}
    {member : β} :
    (list.filter property).head? = some member ↔ FirstWith property list member := by
  rw [List.head?_filter, List.find?_eq_some_iff_append]
  simp only [decide_eq_true_eq, Bool.not_eq_true', decide_eq_false_iff_not, FirstWith]
  constructor
  · rintro ⟨holds, before, after, split, fails⟩
    exact ⟨before, after, split, holds, fails⟩
  · rintro ⟨before, after, split, holds, fails⟩
    exact ⟨holds, before, after, split, fails⟩

theorem head?_append_eq_some_iff {front back : List β} {member : β} :
    (front ++ back).head? = some member ↔
      front.head? = some member ∨ front = [] ∧ back.head? = some member := by
  rw [List.head?_append, Option.or_eq_some_iff, List.head?_eq_none_iff]

/-! ## Repeated members -/

theorem FirstRepeated.not_nodup {list : List β} {member : β}
    (repeated : FirstRepeated list member) :
    ¬ list.Nodup := by
  rcases repeated with ⟨before, after, rfl, standing, _⟩
  intro distinct
  exact (List.nodup_append.1 distinct).2.2 member standing member List.mem_cons_self rfl

theorem exists_firstRepeated {list : List β} (repeats : ¬ list.Nodup) :
    ∃ member, FirstRepeated list member := by
  induction list using List.reverseRecOn with
  | nil => exact absurd List.nodup_nil repeats
  | append_singleton list last inductionHypothesis =>
      by_cases distinct : list.Nodup
      · have standing : last ∈ list := by
          by_contra new
          exact repeats (List.nodup_append.2 ⟨distinct, List.nodup_singleton last,
            fun member earlier _ final same =>
              new (List.mem_singleton.1 final ▸ same ▸ earlier)⟩)
        exact ⟨last, list, [], rfl, standing, distinct⟩
      · rcases inductionHypothesis distinct with ⟨member, before, after, rfl, standing, distinct⟩
        exact ⟨member, before, after ++ [last], by simp, standing, distinct⟩

variable [DecidableEq β]

/-- Members that have not occurred before are only kept in mind. -/
theorem repetitionsAfter_append {earlier before : List β} (distinct : before.Nodup)
    (fresh : ∀ member ∈ before, member ∉ earlier) (rest : List β) :
    repetitionsAfter earlier (before ++ rest) =
      repetitionsAfter (before.reverse ++ earlier) rest := by
  induction before generalizing earlier with
  | nil => rfl
  | cons head tail inductionHypothesis =>
      rcases List.nodup_cons.1 distinct with ⟨once, distinct⟩
      rcases List.forall_mem_cons.1 fresh with ⟨new, fresh⟩
      rw [List.cons_append, repetitionsAfter, if_neg new, inductionHypothesis distinct,
        List.reverse_cons, List.append_assoc, List.singleton_append]
      intro member standing occurred
      rcases List.mem_cons.1 occurred with rfl | occurred
      · exact once standing
      · exact fresh member standing occurred

theorem FirstRepeated.head?_repetitions {list : List β} {member : β}
    (repeated : FirstRepeated list member) :
    (repetitions list).head? = some member := by
  rcases repeated with ⟨before, after, rfl, standing, distinct⟩
  rw [repetitions, repetitionsAfter_append distinct fun _ _ => List.not_mem_nil,
    repetitionsAfter, if_pos (by simpa using standing), List.head?_cons]

theorem head?_repetitions_eq_some_iff (list : List β) (member : β) :
    (repetitions list).head? = some member ↔ FirstRepeated list member := by
  constructor
  · intro found
    have repeats : ¬ list.Nodup := by
      intro distinct
      rw [(repetitions_eq_nil_iff list).2 distinct] at found
      cases found
    rcases exists_firstRepeated repeats with ⟨first, repeated⟩
    rw [repeated.head?_repetitions, Option.some.injEq] at found
    rwa [← found]
  · exact FirstRepeated.head?_repetitions

end WordAutomata
