import WordAutomata.Dfa.Basic
import WordAutomata.FreshName

/-!
# Totalization

A partial automaton is completed by one more state, the sink.  It rejects, it
loops on every symbol, and every missing edge leads to it.  A total automaton
is left as it is.
-/

namespace WordAutomata.Dfa

variable {α : Type} [DecidableEq α]

/-- The name of the sink: `sink` with as many primes as it takes to be fresh. -/
def sinkName (dfa : Dfa α) : String :=
  freshName "sink" dfa.automaton.names

/-- The automaton with a sink added, to which every missing edge leads. -/
def withSink (dfa : Dfa α) : Dfa α :=
  let sink := dfa.automaton.size
  { automaton :=
      .tabulate dfa.automaton.alphabet (dfa.automaton.names ++ [dfa.sinkName])
        (fun state label =>
          match label with
          | .symbol value => .singleton ((dfa.successor? state value).getD sink)
          | .epsilon => ∅)
        (.singleton dfa.initial) dfa.automaton.accepting
    initial := dfa.initial
    subsets := dfa.subsets.map (· ++ [∅]) }

/-- A total automaton that accepts the same words. -/
def totalized (dfa : Dfa α) : Dfa α :=
  if dfa.isTotal then dfa else dfa.withSink

end WordAutomata.Dfa
