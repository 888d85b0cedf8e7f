/-!
# Fresh names

A name that is already in use is made fresh by appending primes.  The least
number of primes that gives an unused name is chosen.  One more candidate than
there are used names is enough, because the candidates are pairwise different.
-/

namespace WordAutomata

def primed (base : String) (primes : Nat) : String :=
  base ++ String.join (List.replicate primes "'")

/-- The least number of primes that makes the name one that is not in use. -/
def freshPrimes (base : String) (used : List String) : Nat :=
  ((List.range (used.length + 1)).find? fun primes => primed base primes ∉ used).getD 0

/-- The name with the least number of primes that is not in use. -/
def freshName (base : String) (used : List String) : String :=
  primed base (freshPrimes base used)

/-- Makes the names of a list pairwise different, each fresh against those before it. -/
def distinctNames (bases : List String) : List String :=
  bases.foldl (fun names base => names ++ [freshName base names]) []

theorem length_distinctNames (bases : List String) :
    (distinctNames bases).length = bases.length := by
  suffices general : ∀ (bases names : List String),
      (bases.foldl (fun names base => names ++ [freshName base names]) names).length =
        names.length + bases.length by
    simpa [distinctNames] using general bases []
  intro bases
  induction bases with
  | nil => simp
  | cons base bases inductionHypothesis =>
      intro names
      simp [inductionHypothesis]
      omega

end WordAutomata
