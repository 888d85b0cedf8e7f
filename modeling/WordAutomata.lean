import WordAutomata.Alphabet
import WordAutomata.StateSet.Registers
import WordAutomata.Search
import WordAutomata.FreshName
import WordAutomata.Automaton.Closure
import WordAutomata.Malformed
import WordAutomata.Description.Resolve
import WordAutomata.Dfa.Totalized
import WordAutomata.Dfa.Difference
import WordAutomata.Run.Deterministic
import WordAutomata.Run.Nondeterministic
import WordAutomata.Run.Session
import WordAutomata.SubsetConstruction
import WordAutomata.Machine
import WordAutomata.ReadyMade
import WordAutomata.TransitionTable
import WordAutomata.Random.Automaton
import WordAutomata.Main
import WordAutomata.Proofs.Search.Invariant
import WordAutomata.Proofs.Search.Order
import WordAutomata.Proofs.Closure
import WordAutomata.Proofs.Run.Engine
import WordAutomata.Proofs.Run.Nondeterministic
import WordAutomata.Proofs.Run.Paths
import WordAutomata.Proofs.Run.Deterministic
import WordAutomata.Proofs.SubsetConstruction.Search
import WordAutomata.Proofs.SubsetConstruction.Compiled
import WordAutomata.Proofs.SubsetConstruction.Runs
import WordAutomata.Proofs.SubsetConstruction.Subsets
import WordAutomata.Proofs.Difference
import WordAutomata.Proofs.Description.Resolve
import WordAutomata.Proofs.FreshName
import WordAutomata.Proofs.Dfa.Deterministic
import WordAutomata.Proofs.Dfa.Totalized
import WordAutomata.Proofs.SubsetConstruction.WellFormed
import WordAutomata.Proofs.Construction
import WordAutomata.Proofs.Description.NormalForm
import WordAutomata.Proofs.Description.Growth
import WordAutomata.Proofs.Description.RoundTrip
import WordAutomata.Proofs.Run.Session
import WordAutomata.Proofs.SubsetConstruction.Numbering
import WordAutomata.Proofs.Run.Viewed
import WordAutomata.Proofs.SubsetConstruction.Recompiled
import WordAutomata.Proofs.SubsetConstruction.Renumbering
import WordAutomata.Proofs.Dfa.Reachable
import WordAutomata.Proofs.SubsetConstruction.ReachablePart
import WordAutomata.Proofs.SubsetConstruction.LeastWords
import WordAutomata.Proofs.Dfa.Sink
import WordAutomata.Proofs.Dfa.Stuck
import WordAutomata.Proofs.Difference.Length
import WordAutomata.Proofs.Description.Grown
import WordAutomata.Proofs.Description.Steps
import WordAutomata.Proofs.Description.Reordered
import WordAutomata.Proofs.Family.FromLast
import WordAutomata.Proofs.Family.Histories
import WordAutomata.Proofs.Search.Ending
import WordAutomata.Proofs.LeastClosure
import WordAutomata.Proofs.SubsetConstruction.Filling
import WordAutomata.Proofs.SubsetConstruction.Alongside
import WordAutomata.Proofs.SubsetConstruction.Filled
import WordAutomata.Proofs.PrimeCount
import WordAutomata.Proofs.Braces
import WordAutomata.Proofs.SubsetConstruction.Names
import WordAutomata.Proofs.First
import WordAutomata.Proofs.Description.FirstFlaw
import WordAutomata.Proofs.Description.FirstDfaFlaw
import WordAutomata.Proofs.Random.Candidates
import WordAutomata.Proofs.Random.Described
import WordAutomata.Proofs.Random.Stream
import WordAutomata.Proofs.Random.Drawn
import WordAutomata.Proofs.Random.Density
import WordAutomata.Proofs.TransitionTable
import WordAutomata.Proofs.ReadyMade.Machines
import WordAutomata.Proofs.ReadyMade.Languages
import WordAutomata.Proofs.ReadyMade.Reports
import WordAutomata.Proofs.Checked.Cells
import WordAutomata.Proofs.Checked.Closure
import WordAutomata.Proofs.Checked.Runs
import WordAutomata.Proofs.Checked.Compiled
import WordAutomata.Proofs.Checked.InRange
import WordAutomata.Proofs.EdgeOrder
import WordAutomata.Proofs.StateSet.Histories
