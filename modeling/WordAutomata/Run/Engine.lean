import WordAutomata.Render

/-!
# Running a machine on a word

An engine says in which situation a machine starts, how it moves when it reads
a symbol, and which situations are accepting.  A runner is a situation together
with the number of symbols read so far.  A step that fails leaves the runner as
it was, so after a failed run the runner has read the longest part of the word
that could be read.
-/

namespace WordAutomata

inductive RunError (α : Type) where
  | symbolNotInAlphabet (value : α) (position : Nat)
  | undefinedTransition (state : String) (value : α) (position : Nat)
  deriving DecidableEq

def RunError.message {α : Type} [Render α] : RunError α → String
  | symbolNotInAlphabet value position =>
      "symbol `" ++ render value ++ "` at position " ++ render position ++
        " is not in the alphabet"
  | undefinedTransition state value position =>
      "state `" ++ state ++ "` has no transition on `" ++ render value ++
        "` (position " ++ render position ++ ")"

/-- What is known once a word has been read. -/
structure Outcome (σ : Type) where
  accepted : Bool
  reached : σ
  transitions : Nat
  deriving DecidableEq

def Outcome.report {σ : Type} (outcome : Outcome σ) : String :=
  "After " ++ render outcome.transitions ++ " transitions, the machine " ++
    (if outcome.accepted then "accepts" else "rejects") ++ " the input."

/-- How a machine with situations `σ` reads symbols. -/
structure Engine (α σ : Type) where
  start : σ
  /-- Reads the symbol at the given position. -/
  read : Nat → σ → α → Except (RunError α) σ
  /-- Whether a word may end in the situation. -/
  accepts : σ → Bool

/-- A machine in the middle of a word. -/
structure Runner (σ : Type) where
  current : σ
  stepCount : Nat
  deriving DecidableEq

namespace Engine

variable {α σ : Type}

def fresh (engine : Engine α σ) : Runner σ :=
  ⟨engine.start, 0⟩

/-- Whether what has been read so far is accepted. -/
def isAccepting (engine : Engine α σ) (runner : Runner σ) : Bool :=
  engine.accepts runner.current

/-- What is known about what has been read so far. -/
def outcome (engine : Engine α σ) (runner : Runner σ) : Outcome σ where
  accepted := engine.isAccepting runner
  reached := runner.current
  transitions := runner.stepCount

/-- The runner after one more symbol, if the symbol can be read. -/
def step (engine : Engine α σ) (runner : Runner σ) (value : α) :
    Except (RunError α) (Runner σ) :=
  match engine.read runner.stepCount runner.current value with
  | .ok next => .ok ⟨next, runner.stepCount + 1⟩
  | .error failure => .error failure

/--
Reads the symbols of a word until one of them cannot be read.  The result is
the runner after the symbols that could be read, and the failure if there was
one.
-/
def advance (engine : Engine α σ) (runner : Runner σ) :
    List α → Runner σ × Option (RunError α)
  | [] => (runner, none)
  | value :: rest =>
      match engine.step runner value with
      | .ok next => engine.advance next rest
      | .error failure => (runner, some failure)

/-- What is known once a runner has read a whole word, or why it could not. -/
def resume (engine : Engine α σ) (runner : Runner σ) (word : List α) :
    Except (RunError α) (Outcome σ) :=
  match engine.advance runner word with
  | (final, none) => .ok (engine.outcome final)
  | (_, some failure) => .error failure

/-- What is known once a word has been read from the start, or why it could not be read. -/
def run (engine : Engine α σ) (word : List α) : Except (RunError α) (Outcome σ) :=
  engine.resume engine.fresh word

/-- Whether a word is accepted, or why it could not be read. -/
def decides (engine : Engine α σ) (word : List α) : Except (RunError α) Bool :=
  (engine.run word).map Outcome.accepted

/-- Reading two words one after the other is reading their concatenation. -/
theorem advance_append (engine : Engine α σ) (runner : Runner σ) (first second : List α) :
    engine.advance runner (first ++ second) =
      match engine.advance runner first with
      | (middle, none) => engine.advance middle second
      | (middle, some failure) => (middle, some failure) := by
  induction first generalizing runner with
  | nil => rfl
  | cons value rest inductionHypothesis =>
      simp only [List.cons_append, advance]
      cases engine.step runner value with
      | ok next => exact inductionHypothesis next
      | error failure => rfl

end Engine

end WordAutomata
