import WordAutomata.Proofs.Checked.Runs
import WordAutomata.Proofs.SubsetConstruction.Filled

/-!
# The checked subset construction

The construction that fills a table looks up the edges of the automaton that is
compiled as well.  With these look-ups checked it still never fails: the sets
that it holds are sets of states that exist, which one cell, one row and the
whole run preserve.
-/

namespace WordAutomata

/-- Two walks agree where they keep an invariant under which their steps agree. -/
theorem foldlM_eq_of_invariant {β γ : Type} {step step' : γ → β → Option γ} (holds : γ → Prop)
    {entries : List β}
    (same : ∀ current, holds current → ∀ entry ∈ entries, step current entry = step' current entry)
    (kept : ∀ current, holds current → ∀ entry ∈ entries, ∀ next,
      step' current entry = some next → holds next)
    {first : γ} (begun : holds first) :
    entries.foldlM step first = entries.foldlM step' first ∧
      ∀ last, entries.foldlM step' first = some last → holds last := by
  induction entries generalizing first with
  | nil =>
      refine ⟨rfl, ?_⟩
      rintro _ ⟨⟩
      exact begun
  | cons entry entries inductionHypothesis =>
      rw [List.foldlM_cons, List.foldlM_cons, same first begun entry List.mem_cons_self]
      cases moved : step' first entry with
      | none => exact ⟨rfl, nofun⟩
      | some next =>
          exact inductionHypothesis
            (fun current invariant other listed =>
              same current invariant other (List.mem_cons_of_mem entry listed))
            (fun current invariant other listed =>
              kept current invariant other (List.mem_cons_of_mem entry listed))
            (kept first begun entry List.mem_cons_self next moved)

namespace Automaton

variable {α : Type} [DecidableEq α]

/-! ## The construction with checked look-ups -/

def checkedFirstFilling (automaton : Automaton α) : Option Filling :=
  (automaton.checkedClosure automaton.initial).map fun start =>
    { subsets := [start]
      numbers := [(start, 0)]
      table := resized (automaton.cellPlace 1 0) []
      queue := [0]
      popped := []
      reads := 0 }

def checkedFillCell (automaton : Automaton α) (source : Nat) (filling : Filling)
    (cell : α × Nat) : Option Filling := do
  let subset ← filling.subsets[source]?
  let reached ← automaton.checkedMove subset cell.2
  let (met, target) ← automaton.meet? filling reached
  let table ← write? met.table (automaton.cellPlace source cell.2) (.singleton target)
  return { met with table := table, reads := met.reads + 1 }

def checkedFillRow (automaton : Automaton α) (filling : Filling) (source : Nat)
    (rest : List Nat) : Option Filling :=
  automaton.alphabet.symbols.zipIdx.foldlM (automaton.checkedFillCell source)
    { filling with queue := rest, popped := filling.popped ++ [source] }

/-- Fills at most `bound` rows; nothing if any access is out of range. -/
def checkedFill (automaton : Automaton α) : Nat → Filling → Option Filling
  | 0, filling => some filling
  | bound + 1, filling =>
      match filling.queue with
      | [] => some filling
      | source :: rest =>
          (automaton.checkedFillRow filling source rest).bind (automaton.checkedFill bound)

/-! ## Sets of states that exist -/

/-- The sets that are held have states of the automaton only. -/
def Filling.Within (automaton : Automaton α) (filling : Filling) : Prop :=
  ∀ subset ∈ filling.subsets, ∀ state, state ∈ subset → state < automaton.size

variable {automaton : Automaton α} {filling : Filling}

omit [DecidableEq α] in
theorem Filling.Within.meet? (within : filling.Within automaton) {subset : StateSet}
    (present : ∀ state, state ∈ subset → state < automaton.size) {met : Filling} {target : Nat}
    (meets : automaton.meet? filling subset = some (met, target)) :
    met.Within automaton := by
  have grown : ∀ other ∈ filling.subsets ++ [subset], ∀ state, state ∈ other →
      state < automaton.size := by
    intro other member
    rcases List.mem_append.1 member with old | new
    · exact within other old
    · rwa [List.mem_singleton.1 new]
  rw [Automaton.meet?] at meets
  split at meets
  · cases meets
    exact within
  · split at meets
    · rcases Option.map_eq_some_iff.1 meets with ⟨table, _, equal⟩
      cases equal
      exact grown
    · cases meets
      exact grown

theorem WellFormed.checkedFillCell_eq (wellFormed : automaton.WellFormed) (fits : automaton.Fits)
    (within : filling.Within automaton) (source : Nat) {cell : α × Nat}
    (listed : cell ∈ automaton.alphabet.symbols.zipIdx) :
    automaton.checkedFillCell source filling cell = automaton.fillCell? source filling cell := by
  have standing := List.mk_mem_zipIdx_iff_getElem?.1 listed
  rw [checkedFillCell, fillCell?]
  cases located : filling.subsets[source]? with
  | none => rfl
  | some subset =>
      have present := within subset (List.mem_of_getElem? located)
      show (automaton.checkedMove subset cell.2).bind _ = _
      rw [wellFormed.checkedMove_eq fits present standing]
      rfl

theorem WellFormed.within_fillCell? (wellFormed : automaton.WellFormed)
    (within : filling.Within automaton) {source : Nat} {cell : α × Nat} {next : Filling}
    (filled : automaton.fillCell? source filling cell = some next) :
    next.Within automaton := by
  rw [fillCell?] at filled
  simp only [Option.bind_eq_bind, Option.bind_eq_some_iff, Option.pure_def,
    Option.some.injEq] at filled
  rcases filled with ⟨subset, _, ⟨met, target⟩, meets, table, _, rfl⟩
  have grown : met.Within automaton :=
    within.meet? (fun _ member => wellFormed.read_lt member) meets
  exact grown

theorem WellFormed.checkedFillRow_eq (wellFormed : automaton.WellFormed) (fits : automaton.Fits)
    (within : filling.Within automaton) (source : Nat) (rest : List Nat) :
    automaton.checkedFillRow filling source rest = automaton.fillRow? filling source rest ∧
      ∀ next, automaton.fillRow? filling source rest = some next → next.Within automaton :=
  foldlM_eq_of_invariant (Filling.Within automaton)
    (fun _ invariant _ listed => wellFormed.checkedFillCell_eq fits invariant source listed)
    (fun _ invariant _ _ _ filled => wellFormed.within_fillCell? invariant filled) within

theorem WellFormed.checkedFill_eq (wellFormed : automaton.WellFormed) (fits : automaton.Fits)
    (bound : Nat) (within : filling.Within automaton) :
    automaton.checkedFill bound filling = automaton.fill? bound filling := by
  induction bound generalizing filling with
  | zero => rfl
  | succ bound inductionHypothesis =>
      rw [checkedFill, fill?]
      cases filling.queue with
      | nil => rfl
      | cons source rest =>
          rcases wellFormed.checkedFillRow_eq fits within source rest with ⟨same, kept⟩
          show (automaton.checkedFillRow filling source rest).bind _ =
            (automaton.fillRow? filling source rest).bind _
          rw [same]
          cases filled : automaton.fillRow? filling source rest with
          | none => rfl
          | some next => exact inductionHypothesis (kept next filled)

theorem WellFormed.checkedFirstFilling_eq (wellFormed : automaton.WellFormed)
    (fits : automaton.Fits) :
    automaton.checkedFirstFilling = some automaton.firstFilling := by
  rw [checkedFirstFilling, wellFormed.checkedClosure_of_lt fits wellFormed.initial_lt]
  rfl

/-- The construction with all accesses checked. -/
def checkedFilling (automaton : Automaton α) (bound : Nat) : Option Filling :=
  automaton.checkedFirstFilling.bind (automaton.checkedFill bound)

theorem WellFormed.checkedFilling_eq (wellFormed : automaton.WellFormed) (fits : automaton.Fits)
    (bound : Nat) :
    automaton.checkedFilling bound = automaton.fill? bound automaton.firstFilling := by
  have within : automaton.firstFilling.Within automaton := by
    intro subset member state element
    rw [List.mem_singleton.1 member] at element
    exact wellFormed.start_lt element
  rw [checkedFilling, wellFormed.checkedFirstFilling_eq fits]
  exact wellFormed.checkedFill_eq fits bound within

end Automaton

end WordAutomata
