import WordAutomata.Proofs.Checked.Closure
import WordAutomata.Proofs.Run.Session
import WordAutomata.Run.Deterministic
import WordAutomata.Run.Nondeterministic

/-!
# Checked runs

A runner looks up the edges of where it is, with a check.  It starts at states
that exist, and a step leads to states that exist, so by induction over the word
no look-up of a run fails, whichever runner of a session is asked to read.
-/

namespace WordAutomata

namespace Engine

variable {α σ : Type}

/-- Reads the symbols of a word with readings that may fail because of an access. -/
def checkedAdvance (read : Nat → σ → α → Option (Except (RunError α) σ)) (runner : Runner σ) :
    List α → Option (Runner σ × Option (RunError α))
  | [] => some (runner, none)
  | value :: rest =>
      match read runner.stepCount runner.current value with
      | none => none
      | some (.ok next) => checkedAdvance read ⟨next, runner.stepCount + 1⟩ rest
      | some (.error failure) => some (runner, some failure)

/-- In a safe situation every symbol can be read, and leads to a safe situation. -/
structure Safe (engine : Engine α σ) (read : Nat → σ → α → Option (Except (RunError α) σ))
    (safe : σ → Prop) : Prop where
  start_safe : safe engine.start
  read_eq : ∀ position situation value, safe situation →
    read position situation value = some (engine.read position situation value)
  read_safe : ∀ position situation value next, safe situation →
    engine.read position situation value = .ok next → safe next

variable {engine : Engine α σ} {read : Nat → σ → α → Option (Except (RunError α) σ)}
  {safe : σ → Prop}

/-- A runner in a safe situation reads on as if nothing was checked, and stays safe. -/
theorem Safe.checkedAdvance_eq (lookups : engine.Safe read safe) (runner : Runner σ)
    (standing : safe runner.current) (word : List α) :
    checkedAdvance read runner word = some (engine.advance runner word) ∧
      safe (engine.advance runner word).1.current := by
  induction word generalizing runner with
  | nil => exact ⟨rfl, standing⟩
  | cons value rest inductionHypothesis =>
      have looked := lookups.read_eq runner.stepCount runner.current value standing
      cases reading : engine.read runner.stepCount runner.current value with
      | ok next =>
          rw [reading] at looked
          have further := inductionHypothesis ⟨next, runner.stepCount + 1⟩
            (lookups.read_safe _ _ _ _ standing reading)
          simpa only [checkedAdvance, looked, advance, step, reading] using further
      | error failure =>
          rw [reading] at looked
          simpa only [checkedAdvance, looked, advance, step, reading, true_and] using standing

/-- Every runner of a session is in a safe situation. -/
theorem Safe.of_history (lookups : engine.Safe read safe) {session : Session σ}
    {words : List (List α)} (history : engine.History session words) {runner : Runner σ}
    (member : runner ∈ session) :
    safe runner.current := by
  rcases List.mem_iff_getElem?.1 member with ⟨number, present⟩
  rcases history.tracks.exists_word present with ⟨word, _, advanced⟩
  have reached := (lookups.checkedAdvance_eq engine.fresh lookups.start_safe word).2
  rwa [advanced] at reached

end Engine

namespace Automaton

variable {α : Type} [DecidableEq α]

/-! ## Several states at a time -/

/-- Collects what a column leads to from a set of states, and closes the result. -/
def checkedMove (automaton : Automaton α) (states : StateSet) (column : Nat) : Option StateSet := do
  let rows ← states.members.mapM fun state => automaton.cell? state column
  let moved := StateSet.ofList (rows.flatMap StateSet.members)
  if moved.isEmpty then return moved
  automaton.checkedClosure moved

def checkedRead (automaton : Automaton α) (position : Nat) (active : StateSet) (value : α) :
    Option (Except (RunError α) StateSet) :=
  match automaton.alphabet.position? value with
  | none => some (.error (.symbolNotInAlphabet value position))
  | some column => (automaton.checkedMove active column).map .ok

variable {automaton : Automaton α}

theorem WellFormed.checkedMove_eq (wellFormed : automaton.WellFormed) (fits : automaton.Fits)
    {states : StateSet} (present : ∀ state, state ∈ states → state < automaton.size) {column : Nat}
    {value : α} (standing : automaton.alphabet.symbols[column]? = some value) :
    automaton.checkedMove states column = some (automaton.read states value) := by
  have rows : (states.members.mapM fun state => automaton.cell? state column) =
      some (states.members.map (automaton.targets · (.symbol value))) := by
    apply mapM_eq_some_map
    intro state member
    exact wellFormed.cell?_eq_some fits (getElem?_labels_symbol standing) (present state member)
  rw [checkedMove, rows]
  show (if (StateSet.ofList _).isEmpty then some (StateSet.ofList _) else
    automaton.checkedClosure (StateSet.ofList _)) = _
  rw [ofList_flatMap_targets]
  split
  · next nothing =>
      rw [StateSet.isEmpty_iff] at nothing
      rw [(wellFormed.read_eq_empty_iff states value).2 nothing, nothing]
  · apply wellFormed.checkedClosure_of_lt fits
    intro target member
    rcases (automaton.mem_move states _ target).1 member with ⟨source, _, listed⟩
    exact wellFormed.target_lt listed

theorem WellFormed.safe_engine (wellFormed : automaton.WellFormed) (fits : automaton.Fits) :
    automaton.engine.Safe automaton.checkedRead
      fun active => ∀ state, state ∈ active → state < automaton.size where
  start_safe := fun _ member => wellFormed.start_lt member
  read_eq := by
    intro position active value present
    rw [checkedRead]
    cases located : automaton.alphabet.position? value with
    | none =>
        have unknown := (automaton.alphabet.position?_eq_none_iff value).1 located
        simp [engine, unknown]
    | some column =>
        have standing := automaton.alphabet.symbols_getElem?_position? located
        have known := List.mem_of_getElem? standing
        simp [engine, known, wellFormed.checkedMove_eq fits present standing]
  read_safe := by
    intro position active value next present reading state member
    by_cases known : value ∈ automaton.alphabet.symbols
    · simp only [engine, if_pos known, Except.ok.injEq] at reading
      rw [← reading] at member
      exact wellFormed.read_lt member
    · simp [engine, known] at reading

end Automaton

namespace Dfa

variable {α : Type} [DecidableEq α]

/-! ## One state at a time -/

def checkedRead (dfa : Dfa α) (position state : Nat) (value : α) :
    Option (Except (RunError α) Nat) :=
  match dfa.automaton.alphabet.position? value with
  | none => some (.error (.symbolNotInAlphabet value position))
  | some column =>
      (dfa.automaton.cell? state column).map fun targets =>
        match targets.least? with
        | some next => .ok next
        | none => .error (.undefinedTransition (dfa.automaton.nameOf state) value position)

variable {dfa : Dfa α}

theorem WellFormed.safe_engine (wellFormed : dfa.WellFormed) (fits : dfa.automaton.Fits) :
    dfa.engine.Safe dfa.checkedRead (· < dfa.automaton.size) where
  start_safe := wellFormed.initial_lt
  read_eq := by
    intro position state value present
    rw [checkedRead]
    cases located : dfa.automaton.alphabet.position? value with
    | none =>
        have unknown := (dfa.automaton.alphabet.position?_eq_none_iff value).1 located
        simp [engine, unknown]
    | some column =>
        have standing := dfa.automaton.alphabet.symbols_getElem?_position? located
        have known := List.mem_of_getElem? standing
        have cell := wellFormed.automaton.cell?_eq_some fits
          (Automaton.getElem?_labels_symbol standing) present
        cases found : (dfa.automaton.targets state (.symbol value)).least? with
        | none => simp [engine, known, cell, successor?, found]
        | some target => simp [engine, known, cell, successor?, found]
  read_safe := by
    intro position state value next _ reading
    by_cases known : value ∈ dfa.automaton.alphabet.symbols
    · simp only [engine, if_pos known] at reading
      cases found : dfa.successor? state value with
      | none => simp [found] at reading
      | some target =>
          simp only [found, Except.ok.injEq] at reading
          exact reading ▸ wellFormed.successor?_lt found
    · simp [engine, known] at reading

end Dfa

end WordAutomata
