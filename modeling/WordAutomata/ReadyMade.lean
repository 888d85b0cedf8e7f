import WordAutomata.Family
import WordAutomata.Machine

/-!
# Ready-made machines

A few small machines with well-known languages, each under a name of its own.
They are given by descriptions, so that their states are numbered in the order
in which the descriptions mention them.
-/

namespace WordAutomata

inductive ReadyMade where
  /-- Over zeros and ones: the empty word and the words that end in a one. -/
  | endsInOne
  /-- Over zeros and ones: some zeros, and then some ones. -/
  | zerosThenOnes
  /-- Over zeros and ones: the words in which one, zero, one occur in a row. -/
  | containsOneZeroOne
  /-- Over `a` and `b`: some `a`, and then one `b`. -/
  | epsilonCycle
  /-- Over zeros and ones: the words whose third symbol from the end is a one. -/
  | thirdFromLast
  deriving DecidableEq

namespace ReadyMade

/-- All ready-made machines in the order in which they are listed. -/
def all : List ReadyMade :=
  [endsInOne, zerosThenOnes, containsOneZeroOne, epsilonCycle, thirdFromLast]

def name : ReadyMade → String
  | endsInOne => "ends-in-one"
  | zerosThenOnes => "zeros-then-ones"
  | containsOneZeroOne => "contains-101"
  | epsilonCycle => "epsilon-cycle"
  | thirdFromLast => "third-from-last"

/-- The names under which the machines are listed. -/
def names : List String :=
  all.map name

def ofName? (name : String) : Option ReadyMade :=
  all.find? fun ready => ready.name = name

def description : ReadyMade → Description Char
  | endsInOne =>
      ({ alphabet := ['0', '1'] } : Description Char)
        |>.initial "q0"
        |>.accepting ["q0"]
        |>.edge "q0" '0' "q1"
        |>.edge "q0" '1' "q0"
        |>.edge "q1" '0' "q1"
        |>.edge "q1" '1' "q0"
  | zerosThenOnes =>
      ({ alphabet := ['0', '1'] } : Description Char)
        |>.initial "s0"
        |>.accepting ["s1"]
        |>.edge "s0" '0' "s0"
        |>.epsilonEdge "s0" "s1"
        |>.edge "s1" '1' "s1"
  | containsOneZeroOne =>
      ({ alphabet := ['0', '1'] } : Description Char)
        |>.initial "a"
        |>.accepting ["d"]
        |>.edge "a" '0' "a"
        |>.edge "a" '1' "a"
        |>.edge "a" '1' "b"
        |>.edge "b" '0' "c"
        |>.edge "c" '1' "d"
        |>.edge "d" '0' "d"
        |>.edge "d" '1' "d"
  | epsilonCycle =>
      ({ alphabet := ['a', 'b'] } : Description Char)
        |>.initial "p"
        |>.accepting ["s"]
        |>.epsilonEdge "p" "q"
        |>.epsilonEdge "q" "r"
        |>.epsilonEdge "r" "p"
        |>.edge "q" 'a' "q"
        |>.edge "r" 'b' "s"
  | thirdFromLast => Family.fromLastDescription 3

/-- A ready-made machine; only the first one is deterministic. -/
def machine (ready : ReadyMade) : Except (Malformed Char) (Machine Char) :=
  match ready with
  | endsInOne => ready.description.resolveDfa.map .deterministic
  | _ => ready.description.resolve.map .nondeterministic

end ReadyMade

end WordAutomata
