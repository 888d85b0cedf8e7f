import WordAutomata.Proofs.Random.Drawn
import WordAutomata.Proofs.Run.MoreEdges

/-!
# Density

The density only decides which of the drawn numbers keep their edges.  Automata
drawn from the same source with different densities therefore have the same
states, and leave the source alike.  Halving keeps the order of numbers, so a
greater density keeps at least the edges that a smaller one keeps, those that
read nothing included.
-/

namespace WordAutomata.Random

/-! ## Rounding and halving keep the order -/

theorem nearest_mono {left right : Nat} (ordered : left ≤ right) (denominator : Nat) :
    nearest left denominator ≤ nearest right denominator := by
  have quotients : left / denominator ≤ right / denominator := Nat.div_le_div_right ordered
  have whole := Nat.div_add_mod left denominator
  have whole' := Nat.div_add_mod right denominator
  by_cases same : left / denominator = right / denominator
  · -- Between the same neighbours the remainder decides.
    have remainders : left % denominator ≤ right % denominator := by
      rw [same] at whole
      omega
    simp only [nearest, same]
    split_ifs <;> omega
  · simp only [nearest]
    split_ifs <;> omega

theorem onMagnitude_mono {function : Nat → Nat} (mono : Monotone function) {left right : Int}
    (ordered : left ≤ right) :
    onMagnitude function left ≤ onMagnitude function right := by
  rw [onMagnitude, onMagnitude]
  split_ifs with below below' below'
  · have magnitudes := mono (show right.natAbs ≤ left.natAbs by omega)
    omega
  · omega
  · omega
  · have magnitudes := mono (show left.natAbs ≤ right.natAbs by omega)
    omega

namespace Double

theorem atMost_halved {left right : Double} (ordered : left.atMost right = true) :
    left.halved.atMost right.halved = true := by
  cases left with
  | finite units =>
      cases right with
      | finite units' =>
          have halves := onMagnitude_mono (fun _ _ least => nearest_mono least 2)
            (of_decide_eq_true ordered)
          exact decide_eq_true halves
      | _ => exact ordered
  | _ => cases right <;> exact ordered

theorem less_of_atMost {drawn sparse dense : Double} (ordered : sparse.atMost dense = true)
    (under : drawn.less sparse = true) :
    drawn.less dense = true := by
  cases drawn <;> cases sparse <;> cases dense <;> simp_all [atMost, less]
  omega

end Double

/-! ## Edges -/

theorem keeps_of_atMost {sparse dense : Density} (ordered : sparse.atMost dense = true)
    {edge : Edge Char} {drawn : Double} (kept : keeps sparse edge drawn = true) :
    keeps dense edge drawn = true := by
  cases reading : edge.label with
  | symbol value =>
      simp only [keeps, reading] at kept ⊢
      exact Double.less_of_atMost ordered kept
  | epsilon =>
      simp only [keeps, reading] at kept ⊢
      exact Double.less_of_atMost (Double.atMost_halved ordered) kept

variable {σ : Type} [Source σ]

theorem drawnEdges_subset {sparse dense : Density} (ordered : sparse.atMost dense = true)
    (alphabet : Alphabet Char) (size : Nat) (source : σ) :
    drawnEdges alphabet size sparse source ⊆ drawnEdges alphabet size dense source := by
  intro edge kept
  rw [mem_drawnEdges_iff] at kept ⊢
  exact ⟨kept.1, keeps_of_atMost ordered kept.2⟩

/-! ## Automata -/

/-- Automata with the same states and more edges extend each other. -/
theorem Shows.extendedBy {alphabet : Alphabet Char} {size : Nat} {states : List StateDraw}
    {edges edges' : List (Edge Char)} {few many : Automaton Char}
    (shows : Shows alphabet size states edges few)
    (shows' : Shows alphabet size states edges' many) (subset : edges ⊆ edges') :
    few.ExtendedBy many where
  alphabet_eq := shows.alphabet_eq.trans shows'.alphabet_eq.symm
  names_eq := shows.names_eq.trans shows'.names_eq.symm
  initial_eq := StateSet.ext fun state =>
    (shows.mem_initial_iff state).trans (shows'.mem_initial_iff state).symm
  accepting_eq := StateSet.ext fun state =>
    (shows.mem_accepting_iff state).trans (shows'.mem_accepting_iff state).symm
  edges_subset edge listed :=
    (shows'.mem_edges_iff edge).2 (subset ((shows.mem_edges_iff edge).1 listed))

/--
A greater density only adds edges.  Whatever the source gives, both automata can
be drawn, they have the same states, and the source is left alike.  Every word
that is accepted at the smaller density is accepted at the greater one.
-/
theorem drawAutomaton_extended_by_density {symbolCount size : Nat} (known : symbolCount ≤ 26)
    (positive : 0 < size) {sparse dense : Density} (ordered : sparse.atMost dense = true)
    (source : σ) :
    ∃ few many rest,
      drawAutomaton symbolCount size sparse source = .ok (few, rest) ∧
        drawAutomaton symbolCount size dense source = .ok (many, rest) ∧
        few.alphabet = many.alphabet ∧
        few.names = many.names ∧
        few.initial = many.initial ∧
        few.accepting = many.accepting ∧
        (∀ edge ∈ few.edges, edge ∈ many.edges) ∧
        ∀ word, few.decides word = .ok true → many.decides word = .ok true := by
  rcases Alphabet.exists_ofSize known with ⟨alphabet, letters, _, _⟩
  rcases exists_drawAutomaton letters positive sparse source with ⟨few, drawn, shows⟩
  rcases exists_drawAutomaton letters positive dense source with ⟨many, drawn', shows'⟩
  have extended := shows.extendedBy shows' (drawnEdges_subset ordered alphabet size source)
  exact ⟨few, many, _, drawn, drawn', extended.alphabet_eq, extended.names_eq,
    extended.initial_eq, extended.accepting_eq, fun _ listed => extended.edges_subset listed,
    fun _ accepted => extended.accepts shows.wellFormed shows'.wellFormed accepted⟩

/-- One symbol is accepted at both densities by what a generator starting from seven gives. -/
theorem drawAutomaton_extended_by_density_seven :
    (Double.ofDecimal 3 1).atMost (Double.ofDecimal 6 1) = true ∧
      ∃ many rest,
        drawAutomaton 2 5 (Double.ofDecimal 6 1) (⟨7⟩ : Generator) = .ok (many, rest) ∧
          many.decides ['a'] = .ok true := by
  have ordered : (Double.ofDecimal 3 1).atMost (Double.ofDecimal 6 1) = true := by decide +kernel
  rcases drawAutomaton_extended_by_density (by decide : 2 ≤ 26) (by decide : 0 < 5) ordered
      (⟨7⟩ : Generator) with
    ⟨few, many, rest, drawn, drawn', _, _, _, _, _, accepts⟩
  have accepted :
      (drawAutomaton 2 5 (Double.ofDecimal 3 1) (⟨7⟩ : Generator)).map
        (fun automaton => automaton.1.decides ['a']) = .ok (.ok true) := by
    decide +kernel
  rw [drawn] at accepted
  exact ⟨ordered, many, rest, drawn', accepts _ (Except.ok.inj accepted)⟩

end WordAutomata.Random
