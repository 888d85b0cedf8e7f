import WordAutomata.Proofs.PrimeCount
import WordAutomata.Render

/-!
# Names between braces

Names that are written between braces can be told apart as long as none of them
contains the separator, a comma and a blank.  What is written does not end in a
prime, whatever the names are.
-/

namespace WordAutomata

theorem toList_braced (text : String) :
    (braced text).toList = [openingBrace] ++ text.toList ++ [closingBrace] := by
  rw [braced, String.toList_append, String.toList_append]
  rfl

/-- Different texts are different between braces, too. -/
theorem braced_injective : Function.Injective braced := by
  intro first second same
  have characters := congrArg String.toList same
  rw [toList_braced, toList_braced] at characters
  exact String.toList_inj.1 (List.append_cancel_left (List.append_cancel_right characters))

theorem toList_renderBraced (members : List String) :
    (renderBraced members).toList =
      [openingBrace] ++ [',', ' '].intercalate (members.map String.toList) ++ [closingBrace] := by
  rw [renderBraced, toList_braced, String.toList_intercalate]
  rfl

theorem unprimed_renderBraced (members : List String) : Unprimed (renderBraced members) := by
  rw [Unprimed, toList_renderBraced]
  rintro ⟨front, same⟩
  have last := (List.append_inj' same rfl).2
  exact absurd last (by decide)

/-- A part that does not contain the separator does not reach into the one behind it. -/
theorem eq_nil_of_append_separator {left middle rest rest' : List Char}
    (free : ¬ [',', ' '] <:+: left ++ middle)
    (same : [',', ' '] ++ rest = middle ++ ([',', ' '] ++ rest')) :
    middle = [] := by
  rcases middle with _ | ⟨comma, _ | ⟨blank, middle⟩⟩
  · rfl
  · simp at same
  · simp only [List.cons_append, List.nil_append, List.cons.injEq] at same
    rcases same with ⟨rfl, rfl, _⟩
    exact absurd ⟨left, middle, by simp⟩ free

/-- The first separator ends the first part. -/
theorem append_separator_inj {part part' rest rest' : List Char}
    (free : ¬ [',', ' '] <:+: part) (free' : ¬ [',', ' '] <:+: part')
    (same : part ++ ([',', ' '] ++ rest) = part' ++ ([',', ' '] ++ rest')) :
    part = part' ∧ rest = rest' := by
  have equal : part = part' := by
    rcases List.append_eq_append_iff.1 same with ⟨middle, rfl, cut⟩ | ⟨middle, rfl, cut⟩
    · rw [eq_nil_of_append_separator free' cut, List.append_nil]
    · rw [eq_nil_of_append_separator free cut, List.append_nil]
  rw [equal] at same
  exact ⟨equal, List.append_cancel_left (List.append_cancel_left same)⟩

/-- Parts that do not contain the separator can be told apart after they are joined. -/
theorem intercalate_separator_inj {parts parts' : List (List Char)}
    (free : ∀ part ∈ parts, ¬ [',', ' '] <:+: part)
    (free' : ∀ part ∈ parts', ¬ [',', ' '] <:+: part) (nonempty : parts ≠ [])
    (nonempty' : parts' ≠ [])
    (same : [',', ' '].intercalate parts = [',', ' '].intercalate parts') :
    parts = parts' := by
  induction parts generalizing parts' with
  | nil => exact absurd rfl nonempty
  | cons first rest inductionHypothesis =>
      cases parts' with
      | nil => exact absurd rfl nonempty'
      | cons first' rest' =>
          rcases List.forall_mem_cons.1 free with ⟨head, tail⟩
          rcases List.forall_mem_cons.1 free' with ⟨head', tail'⟩
          cases rest with
          | nil =>
              cases rest' with
              | nil => simpa using same
              | cons second' rest' =>
                  rw [List.intercalate_singleton, List.intercalate_cons_cons] at same
                  exact absurd ⟨first', _, same.symm⟩ head
          | cons second rest =>
              cases rest' with
              | nil =>
                  rw [List.intercalate_singleton, List.intercalate_cons_cons] at same
                  exact absurd ⟨first, _, same⟩ head'
              | cons second' rest' =>
                  rw [List.intercalate_cons_cons, List.intercalate_cons_cons, List.append_assoc,
                    List.append_assoc] at same
                  rcases append_separator_inj head head' same with ⟨rfl, later⟩
                  rw [inductionHypothesis tail tail' (List.cons_ne_nil _ _)
                    (List.cons_ne_nil _ _) later]

/-- Members that do not contain the separator can be told apart between braces. -/
theorem renderBraced_inj {members members' : List String}
    (free : ∀ member ∈ members, ¬ [',', ' '] <:+: member.toList)
    (free' : ∀ member ∈ members', ¬ [',', ' '] <:+: member.toList) (nonempty : members ≠ [])
    (nonempty' : members' ≠ []) (same : renderBraced members = renderBraced members') :
    members = members' := by
  have characters := congrArg String.toList same
  rw [toList_renderBraced, toList_renderBraced] at characters
  have joined := List.append_cancel_left (List.append_cancel_right characters)
  have parts := intercalate_separator_inj (by simpa using free) (by simpa using free')
    (by simpa using nonempty) (by simpa using nonempty') joined
  exact List.map_injective_iff.2 (fun _ _ => String.toList_injective) parts

end WordAutomata
