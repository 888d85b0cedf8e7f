import WordAutomata.Run.Engine

/-!
# Sessions with several runners

A session works with a list of runners on one machine.  Runners are numbered in
the order in which they were added, and number zero is there from the start.
Each command concerns one runner and leaves all others alone.
-/

namespace WordAutomata

inductive Command (α : Type) where
  | step (runner : Nat) (value : α)
  /-- Reads a word with a runner, from where the runner is. -/
  | resume (runner : Nat) (word : List α)
  | outcome (runner : Nat)
  | reset (runner : Nat)
  | clone (runner : Nat)
  /-- Adds a runner that has read nothing. -/
  | new

inductive Reply (α σ : Type) where
  | done
  | moved (reached : σ)
  | outcome (outcome : Outcome σ)
  | failed (failure : RunError α)

/-- The answer to a command, with the runner that it concerned as it is afterwards. -/
structure Response (α σ : Type) where
  reply : Reply α σ
  /-- The runner that was changed, asked about or added. -/
  runner : Runner σ

/-- The runners of a session in the order of their numbers. -/
abbrev Session (σ : Type) : Type :=
  List (Runner σ)

namespace Engine

variable {α σ : Type}

/-- The session with a single runner that has read nothing. -/
def openSession (engine : Engine α σ) : Session σ :=
  [engine.fresh]

def add (session : Session σ) (runner : Runner σ) : Session σ × Response α σ :=
  (session ++ [runner], ⟨.done, runner⟩)

/-- Reads one symbol with a runner; a failed step leaves the runner as it was. -/
def stepReply (engine : Engine α σ) (runner : Runner σ) (value : α) : Response α σ :=
  match engine.step runner value with
  | .ok next => ⟨.moved next.current, next⟩
  | .error failure => ⟨.failed failure, runner⟩

/-- Reads a word with a runner; steps that were taken before a failure stay taken. -/
def resumeReply (engine : Engine α σ) (runner : Runner σ) (word : List α) : Response α σ :=
  match engine.advance runner word with
  | (next, none) => ⟨.outcome (engine.outcome next), next⟩
  | (next, some failure) => ⟨.failed failure, next⟩

/-- Carries out a command that concerns an existing runner, and puts the runner back. -/
def handle (session : Session σ) (number : Nat) (respond : Runner σ → Response α σ) :
    Option (Session σ × Response α σ) :=
  session[number]?.map fun runner =>
    let response := respond runner
    (session.set number response.runner, response)

/-- Carries out a command; there is no answer if the runner does not exist. -/
def perform? (engine : Engine α σ) (session : Session σ) :
    Command α → Option (Session σ × Response α σ)
  | .step number value => handle session number fun runner => engine.stepReply runner value
  | .resume number word => handle session number fun runner => engine.resumeReply runner word
  | .outcome number =>
      handle session number fun runner => ⟨.outcome (engine.outcome runner), runner⟩
  | .reset number => handle session number fun _ => ⟨.done, engine.fresh⟩
  | .clone number => session[number]?.map (add session)
  | .new => some (add session engine.fresh)

end Engine

end WordAutomata
