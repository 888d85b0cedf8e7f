import WordAutomata.ReadyMade
import WordAutomata.Run.Deterministic
import WordAutomata.Run.Nondeterministic
import WordAutomata.Text.Quoted
import WordAutomata.TransitionTable

/-!
# The requests of the command line

The tool lists the ready-made machines, runs one of them on a word, or draws
its transition table.  If this is asked for then the machine is put through the
subset construction first.
-/

namespace WordAutomata.CommandLine

inductive Request where
  | list
  | run (name : String) (compile : Bool) (word : String)
  | table (name : String) (compile : Bool)
  deriving DecidableEq

/-- What the tool writes, and the code with which it ends. -/
structure Result where
  /-- Zero for success, one for a failed request, and two for arguments that are refused. -/
  exitCode : Nat
  output : String
  /-- What is written as errors, apart from the lines of the log. -/
  errors : String
  /-- The messages of the log that tell of an error. -/
  logged : List String
  deriving DecidableEq

/-- The result of a request that succeeded with the given lines of output. -/
def success (lines : List String) : Result where
  exitCode := 0
  output := String.join (lines.map (· ++ "\n"))
  errors := ""
  logged := []

def failure (message : String) : Result where
  exitCode := 1
  output := ""
  errors := "error: " ++ message ++ "\n"
  logged := [message]

/-- The machine that a request is about, or why there is none. -/
def load (name : String) (compile : Bool) : Except String (Machine Char) :=
  match ReadyMade.ofName? name with
  | none => .error ("unknown machine `" ++ name ++ "`")
  | some ready =>
      match ready.machine with
      | .error flaw => .error flaw.message
      | .ok machine =>
          if compile then
            match machine.compiled with
            | .error flaw => .error flaw.message
            | .ok compiled => .ok compiled
          else
            .ok machine

/-- The last line of a report shows the word. -/
def inputLine (word : String) : String :=
  "Input: " ++ quoted word

def report (machine : Machine Char) (word : String) : Result :=
  match machine with
  | .deterministic dfa =>
      match dfa.run word.toList with
      | .ok outcome =>
          success ["------ DFA Machine Summary ------", outcome.report,
            "Final state: " ++ (dfa.automaton.name? outcome.reached).getD "?", inputLine word]
      | .error error => failure error.message
  | .nondeterministic nfa =>
      match nfa.run word.toList with
      | .ok outcome =>
          success ["------ NFA Machine Summary ------", outcome.report,
            "Active states: " ++ nfa.renderStates outcome.reached, inputLine word]
      | .error error => failure error.message

def answer : Request → Result
  | .list => success ReadyMade.names
  | .run name compile word =>
      match load name compile with
      | .ok machine => report machine word
      | .error message => failure message
  | .table name compile =>
      match load name compile with
      | .ok machine =>
          match machine.automaton.transitionTable? with
          | some table => success [table]
          | none => failure "the table cannot be drawn"
      | .error message => failure message

end WordAutomata.CommandLine
