import Mathlib.Algebra.Group.Nat.Defs
import Mathlib.Data.List.Nodup
import WordAutomata.Proofs.Run.Engine

/-!
# The words of a given length

The words of a given length over an alphabet are enumerated without repetition,
and their number is a power of the size of the alphabet.
-/

namespace WordAutomata.Alphabet

variable {α : Type} (alphabet : Alphabet α)

theorem mem_words_succ_iff (length : Nat) (word : List α) :
    word ∈ alphabet.words (length + 1) ↔
      ∃ first ∈ alphabet.symbols, ∃ rest ∈ alphabet.words length, first :: rest = word := by
  simp [words]

theorem mem_words_iff (length : Nat) (word : List α) :
    word ∈ alphabet.words length ↔ alphabet.IsWord word ∧ word.length = length := by
  induction length generalizing word with
  | zero =>
      constructor
      · intro member
        rw [List.mem_singleton.1 member]
        exact ⟨alphabet.isWord_nil, rfl⟩
      · rintro ⟨_, empty⟩
        exact List.mem_singleton.2 (List.length_eq_zero_iff.1 empty)
  | succ length inductionHypothesis =>
      rw [mem_words_succ_iff]
      constructor
      · rintro ⟨first, known, rest, member, rfl⟩
        rcases (inductionHypothesis rest).1 member with ⟨isWord, counted⟩
        exact ⟨List.forall_mem_cons.2 ⟨known, isWord⟩, congrArg Nat.succ counted⟩
      · rintro ⟨isWord, counted⟩
        rcases List.exists_cons_of_length_eq_add_one counted with ⟨first, rest, rfl⟩
        rcases List.forall_mem_cons.1 isWord with ⟨known, isWord⟩
        exact ⟨first, known, rest, (inductionHypothesis rest).2 ⟨isWord, Nat.succ.inj counted⟩,
          rfl⟩

theorem length_words (length : Nat) : (alphabet.words length).length = alphabet.size ^ length := by
  induction length with
  | zero => rfl
  | succ length inductionHypothesis =>
      simp [words, List.length_flatMap, inductionHypothesis, size, Nat.pow_succ']

theorem nodup_words (length : Nat) : (alphabet.words length).Nodup := by
  induction length with
  | zero => exact List.nodup_singleton _
  | succ length inductionHypothesis =>
      rw [words, List.nodup_flatMap]
      constructor
      · intro first _
        exact inductionHypothesis.map fun _ _ same => (List.cons.inj same).2
      · -- Words with different first symbols are different.
        apply alphabet.nodup.imp
        intro first second different word member member'
        rcases List.mem_map.1 member with ⟨rest, _, rfl⟩
        rcases List.mem_map.1 member' with ⟨rest', _, same⟩
        exact different (List.cons.inj same).1.symm

end WordAutomata.Alphabet
