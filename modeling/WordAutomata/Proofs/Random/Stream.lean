import Mathlib.Logic.Function.Iterate
import WordAutomata.Random.Automaton

/-!
# The numbers that a source gives one after the other

Drawing one number for each member of a list takes the numbers from the source
in order.  Which number belongs to a member depends only on the place of the
member in the list, and the source is left as after as many draws as the list is
long.
-/

namespace WordAutomata.Random

variable {σ α β : Type}

theorem each_cons (draw : α → σ → β × σ) (first : α) (rest : List α) (source : σ) :
    Generator.each draw (first :: rest) source =
      ((draw first source).1 :: (Generator.each draw rest (draw first source).2).1,
        (Generator.each draw rest (draw first source).2).2) :=
  rfl

section Stream

variable [Source σ]

/-- The source after some numbers were drawn from it. -/
def afterUnits (count : Nat) (source : σ) : σ :=
  (fun current => (Source.unit current).2)^[count] source

/-- The number that is drawn after some others. -/
def unitAt (place : Nat) (source : σ) : Double :=
  (Source.unit (afterUnits place source)).1

theorem each_unit (list : List α) (source : σ) :
    Generator.each (fun _ current => Source.unit current) list source =
      ((List.range list.length).map fun place => unitAt place source,
        afterUnits list.length source) := by
  induction list generalizing source with
  | nil => rfl
  | cons first rest inductionHypothesis =>
      rw [each_cons, inductionHypothesis, List.length_cons, List.range_succ_eq_map,
        List.map_cons, List.map_map]
      rfl

end Stream

/-- Something that each draw keeps of what it is made for is kept for the whole list. -/
theorem map_each {γ : Type} {draw : α → σ → β × σ} {before : α → γ} {after : β → γ}
    (kept : ∀ first current, after (draw first current).1 = before first) (list : List α)
    (source : σ) :
    (Generator.each draw list source).1.map after = list.map before := by
  induction list generalizing source with
  | nil => rfl
  | cons first rest inductionHypothesis =>
      rw [each_cons, List.map_cons, List.map_cons, kept, inductionHypothesis]

/-- What every draw makes true of its value is true of all values. -/
theorem forall_mem_each {draw : α → σ → β × σ} {property : β → Prop}
    (drawn : ∀ first current, property (draw first current).1) (list : List α) (source : σ) :
    ∀ value ∈ (Generator.each draw list source).1, property value := by
  induction list generalizing source with
  | nil => exact nofun
  | cons first rest inductionHypothesis =>
      exact List.forall_mem_cons.2 ⟨drawn first source, inductionHypothesis _⟩

/-- An edge is kept if it is at a place whose number keeps it. -/
theorem mem_keptEdges_iff (density : Density) (edges : List (Edge Char))
    (number : Nat → Double) (edge : Edge Char) :
    edge ∈ keptEdges density edges ((List.range edges.length).map number) ↔
      ∃ place, edges[place]? = some edge ∧ keeps density edge (number place) = true := by
  have standing : ∀ place drawn,
      (edges.zip ((List.range edges.length).map number))[place]? = some (edge, drawn) ↔
        edges[place]? = some edge ∧ number place = drawn := by
    intro place drawn
    rw [List.getElem?_zip_eq_some, List.getElem?_map]
    refine and_congr_right fun located => ?_
    rw [List.getElem?_range (List.getElem?_eq_some_iff.1 located).1]
    exact Option.some_inj
  rw [keptEdges, List.mem_map]
  constructor
  · rintro ⟨⟨_, drawn⟩, kept, rfl⟩
    rcases List.mem_filter.1 kept with ⟨listed, keeps⟩
    rcases List.mem_iff_getElem?.1 listed with ⟨place, located⟩
    rcases (standing place drawn).1 located with ⟨located, rfl⟩
    exact ⟨place, located, keeps⟩
  · rintro ⟨place, located, keeps⟩
    refine ⟨(edge, number place), List.mem_filter.2 ⟨?_, keeps⟩, rfl⟩
    exact List.mem_iff_getElem?.2 ⟨place, (standing place _).2 ⟨located, rfl⟩⟩

end WordAutomata.Random
