import WordAutomata.CommandLine.Answer

/-!
# The arguments of the command line

This file stands in for a library that reads arguments, as far as the tool makes
use of it.  Flags may stand between words and may be combined as in `-cv`.  With
`-c` or `--compile` a machine is compiled before it is used.  A level of verbosity
may be asked for anywhere; it changes nothing that is written to the standard
output.  After `--` everything is a word.

How a request is answered does not depend on how it is read from the arguments.
-/

namespace WordAutomata.CommandLine

/-! ## Flags -/

/-- The flags that were given at one level of the command line. -/
structure Flags where
  compile : Bool := false
  verbosity : Bool := false
  deriving DecidableEq

namespace Flags

/-- Notes that the machine is to be compiled; this may be asked for once. -/
def withCompile? (flags : Flags) : Option Flags :=
  if flags.compile then none else some { flags with compile := true }

/-- Notes that a level of verbosity was given; this may be done once. -/
def withVerbosity? (flags : Flags) : Option Flags :=
  if flags.verbosity then none else some { flags with verbosity := true }

end Flags

def levels : List String :=
  ["info", "debug", "trace"]

/--
Reads the letters of a short argument.  Compilation is only known after a
command that works on a machine.
-/
def readLetters? (compiles : Bool) (flags : Flags) : List Char → Option Flags
  | [] => some flags
  | 'c' :: rest =>
      if compiles then flags.withCompile?.bind fun next => readLetters? compiles next rest
      else none
  | 'v' :: '=' :: level =>
      if String.ofList level ∈ levels then flags.withVerbosity? else none
  | 'v' :: rest => flags.withVerbosity?.bind fun next => readLetters? compiles next rest
  | _ => none

/-- Reads a long argument, without the dashes in front of it. -/
def readName? (compiles : Bool) (flags : Flags) (name : String) : Option Flags :=
  if name = "verbosity" ∨ name ∈ levels.map ("verbosity=" ++ ·) then
    flags.withVerbosity?
  else if name = "compile" ∧ compiles then
    flags.withCompile?
  else
    none

/-- What an argument is by its first letters. -/
inductive Argument where
  /-- Everything after this argument is a word. -/
  | separator
  | short (letters : List Char)
  | long (name : String)
  /-- A plain word; a lone dash is one. -/
  | word (word : String)
  deriving DecidableEq

/-- Looks at the first letters of an argument. -/
def classify (argument : String) : Argument :=
  match argument.toList with
  | ['-', '-'] => .separator
  | '-' :: '-' :: name => .long (String.ofList name)
  | '-' :: letter :: letters => .short (letter :: letters)
  | _ => .word argument

/-- Reads the arguments of a command: its flags, and its words in order. -/
def readArguments? (compiles : Bool) (flags : Flags) :
    List String → Option (Flags × List String)
  | [] => some (flags, [])
  | argument :: rest =>
      match classify argument with
      | .separator => some (flags, rest)
      | .short letters =>
          (readLetters? compiles flags letters).bind fun next =>
            readArguments? compiles next rest
      | .long name =>
          (readName? compiles flags name).bind fun next => readArguments? compiles next rest
      | .word word =>
          (readArguments? compiles flags rest).map fun (final, words) => (final, word :: words)

/-! ## Requests -/

def readCommand? (command : String) (arguments : List String) : Option Request :=
  match command with
  | "list" =>
      match readArguments? false {} arguments with
      | some (_, []) => some .list
      | _ => none
  | "run" =>
      match readArguments? true {} arguments with
      | some (flags, [name]) =>
          if name ∈ ReadyMade.names then some (.run name flags.compile "") else none
      | some (flags, [name, word]) =>
          if name ∈ ReadyMade.names then some (.run name flags.compile word) else none
      | _ => none
  | "table" =>
      match readArguments? true {} arguments with
      | some (flags, [name]) =>
          if name ∈ ReadyMade.names then some (.table name flags.compile) else none
      | _ => none
  | _ => none

/-- Reads all arguments: flags, the name of a command, and the arguments of the command. -/
def readRequest? (flags : Flags) : List String → Option Request
  | [] => none
  | argument :: rest =>
      match classify argument with
      | .separator => none
      | .short letters =>
          (readLetters? false flags letters).bind fun next => readRequest? next rest
      | .long name => (readName? false flags name).bind fun next => readRequest? next rest
      | .word command => readCommand? command rest

/-- The result for arguments that make no request. -/
def refusal : Result where
  exitCode := 2
  output := ""
  errors := "error: the arguments are not understood\n"
  logged := []

/-- Answers the request that the arguments make. -/
def execute (arguments : List String) : Result :=
  match readRequest? {} arguments with
  | some request => answer request
  | none => refusal

end WordAutomata.CommandLine
