import WordAutomata.Proofs.Description.Growth
import WordAutomata.Proofs.Lists
import WordAutomata.Proofs.Tabulated
import WordAutomata.Random.Automaton

/-!
# The places of the edges that may be drawn

The edges that a random automaton may have are listed by source, then by target,
then by label.  Each of them is listed once, at a place that can be computed: a
source takes one place for each target and symbol, and one more for each target
but itself.
-/

namespace WordAutomata.Random

/-- An edge that a random automaton of the given size may have. -/
structure IsCandidate (alphabet : Alphabet Char) (size : Nat) (edge : Edge Char) : Prop where
  source_lt : edge.source < size
  target_lt : edge.target < size
  label_mem : edge.label ∈ alphabet.labels
  /-- No silent edge leads back to its source. -/
  source_ne_target : edge.label = .epsilon → edge.source ≠ edge.target

/-- The number of places that one source takes. -/
def placesPerSource (alphabet : Alphabet Char) (size : Nat) : Nat :=
  size * alphabet.size + (size - 1)

/-- How many targets before the given one are different from the source. -/
def othersBefore (source target : Nat) : Nat :=
  if source < target then target - 1 else target

/-- The place of an edge: by source, then by target, then by label. -/
def placeOf (alphabet : Alphabet Char) (size : Nat) (edge : Edge Char) : Nat :=
  edge.source * placesPerSource alphabet size +
    (edge.target * alphabet.size + othersBefore edge.source edge.target +
      alphabet.labels.idxOf edge.label)

/-- The order in which edges are drawn: by source, then by target, then by label. -/
def IsDrawnBefore (alphabet : Alphabet Char) (first second : Edge Char) : Prop :=
  first.source < second.source ∨
    first.source = second.source ∧
      (first.target < second.target ∨
        first.target = second.target ∧
          alphabet.labels.idxOf first.label < alphabet.labels.idxOf second.label)

/-! ## The edges between two states, and those of one source -/

variable (alphabet : Alphabet Char)

/-- The labels of the edges that may lead from a source to a target. -/
def labelsBetween (source target : Nat) : List (Label Char) :=
  if source = target then alphabet.symbols.map .symbol else alphabet.labels

/-- The edges that may lead from a source to a target. -/
def between (source target : Nat) : List (Edge Char) :=
  (labelsBetween alphabet source target).map fun label => ⟨source, label, target⟩

theorem candidates_eq (size : Nat) :
    candidates alphabet size =
      (List.range size).flatMap fun source =>
        (List.range size).flatMap (between alphabet source) := by
  rw [candidates]
  apply List.flatMap_congr
  intro source _
  apply List.flatMap_congr
  intro target _
  by_cases here : source = target
  · simp [between, labelsBetween, here]
  · simp [between, labelsBetween, here, Alphabet.labels]

theorem mem_labelsBetween_iff (source target : Nat) (label : Label Char) :
    label ∈ labelsBetween alphabet source target ↔
      label ∈ alphabet.labels ∧ (label = .epsilon → source ≠ target) := by
  by_cases here : source = target
  · cases label <;> simp [labelsBetween, Alphabet.labels, here]
  · simp [labelsBetween, here]

theorem mem_candidates_iff (size : Nat) (edge : Edge Char) :
    edge ∈ candidates alphabet size ↔ IsCandidate alphabet size edge := by
  simp only [candidates_eq, between, List.mem_flatMap, List.mem_range, List.mem_map,
    mem_labelsBetween_iff]
  constructor
  · rintro ⟨source, source_lt, target, target_lt, label, ⟨known, loopless⟩, rfl⟩
    exact ⟨source_lt, target_lt, known, loopless⟩
  · intro candidate
    exact ⟨edge.source, candidate.source_lt, edge.target, candidate.target_lt, edge.label,
      ⟨candidate.label_mem, candidate.source_ne_target⟩, rfl⟩

theorem nodup_between (source target : Nat) : (between alphabet source target).Nodup := by
  have distinct : (labelsBetween alphabet source target).Nodup := by
    rw [labelsBetween]
    split
    · exact alphabet.nodup.map fun _ _ => Label.symbol.inj
    · exact alphabet.nodup_labels
  exact distinct.map fun _ _ same => (Edge.mk.inj same).2.1

theorem nodup_candidates (size : Nat) : (candidates alphabet size).Nodup := by
  rw [candidates_eq, List.nodup_flatMap]
  constructor
  · intro source _
    rw [List.nodup_flatMap]
    refine ⟨fun target _ => nodup_between alphabet source target, ?_⟩
    apply List.nodup_range.imp
    intro first second different edge member member'
    rcases List.mem_map.1 member with ⟨label, _, rfl⟩
    rcases List.mem_map.1 member' with ⟨label', _, same⟩
    exact different (Edge.mk.inj same).2.2.symm
  · apply List.nodup_range.imp
    intro first second different edge member member'
    rcases List.mem_flatMap.1 member with ⟨target, _, member⟩
    rcases List.mem_flatMap.1 member' with ⟨target', _, member'⟩
    rcases List.mem_map.1 member with ⟨label, _, rfl⟩
    rcases List.mem_map.1 member' with ⟨label', _, same⟩
    exact different (Edge.mk.inj same).1.symm

/-- The empty label comes last, so it does not matter for the others whether it is there. -/
theorem idxOf_labelsBetween {source target : Nat} {label : Label Char}
    (member : label ∈ labelsBetween alphabet source target) :
    (labelsBetween alphabet source target).idxOf label = alphabet.labels.idxOf label := by
  rw [labelsBetween] at member ⊢
  split
  · next here =>
      rw [if_pos here] at member
      rw [Alphabet.labels, List.idxOf_append_of_mem member]
  · rfl

theorem length_between (source target : Nat) :
    (between alphabet source target).length =
      alphabet.size + if source = target then 0 else 1 := by
  by_cases here : source = target
  · simp [between, labelsBetween, here, Alphabet.size]
  · simp [between, labelsBetween, here, Alphabet.size, Alphabet.labels]

theorem length_targetsBefore (source target : Nat) :
    ((List.range target).flatMap (between alphabet source)).length =
      target * alphabet.size + othersBefore source target := by
  induction target with
  | zero => simp [othersBefore]
  | succ target inductionHypothesis =>
      rw [List.range_succ, List.flatMap_append, List.flatMap_singleton, List.length_append,
        inductionHypothesis, length_between, Nat.succ_mul, othersBefore, othersBefore]
      split_ifs <;> omega

theorem length_targets {source size : Nat} (present : source < size) :
    ((List.range size).flatMap (between alphabet source)).length =
      placesPerSource alphabet size := by
  rw [length_targetsBefore, othersBefore, if_pos present, placesPerSource]

/-! ## Places -/

theorem length_candidates (size : Nat) :
    (candidates alphabet size).length = size * placesPerSource alphabet size := by
  have widths : ((List.range size).map fun source =>
      ((List.range size).flatMap (between alphabet source)).length) =
        List.replicate size (placesPerSource alphabet size) := by
    rw [List.eq_replicate_iff]
    refine ⟨by rw [List.length_map, List.length_range], ?_⟩
    intro width listed
    rcases List.mem_map.1 listed with ⟨source, member, rfl⟩
    exact length_targets alphabet (List.mem_range.1 member)
  rw [candidates_eq, List.length_flatMap, widths, List.sum_replicate_nat]

variable {alphabet}

/-- Each edge that may be drawn stands at its place. -/
theorem IsCandidate.getElem?_placeOf {size : Nat} {edge : Edge Char}
    (candidate : IsCandidate alphabet size edge) :
    (candidates alphabet size)[placeOf alphabet size edge]? = some edge := by
  have known := (mem_labelsBetween_iff alphabet edge.source edge.target edge.label).2
    ⟨candidate.label_mem, candidate.source_ne_target⟩
  have inner : (between alphabet edge.source edge.target)[alphabet.labels.idxOf edge.label]? =
      some edge := by
    rw [between, List.getElem?_map, ← idxOf_labelsBetween alphabet known,
      List.getElem?_idxOf known]
    rfl
  have middle := getElem?_flatMap_range (between alphabet edge.source) candidate.target_lt inner
  rw [length_targetsBefore] at middle
  have within := (List.getElem?_eq_some_iff.1 middle).1
  rw [length_targets alphabet candidate.source_lt] at within
  rw [candidates_eq, placeOf, getElem?_flatMap_of_width
    (fun source member => length_targets alphabet (List.mem_range.1 member)) edge.source within,
    List.getElem?_range candidate.source_lt]
  exact middle

theorem getElem?_candidates_eq_some_iff {size place : Nat} {edge : Edge Char} :
    (candidates alphabet size)[place]? = some edge ↔
      IsCandidate alphabet size edge ∧ placeOf alphabet size edge = place := by
  constructor
  · intro located
    have candidate := (mem_candidates_iff alphabet size edge).1 (List.mem_of_getElem? located)
    have within := (List.getElem?_eq_some_iff.1 candidate.getElem?_placeOf).1
    exact ⟨candidate, (List.getElem?_inj within (nodup_candidates alphabet size)).1
      (candidate.getElem?_placeOf.trans located.symm)⟩
  · rintro ⟨candidate, rfl⟩
    exact candidate.getElem?_placeOf

/-- Every place belongs to exactly one edge that may be drawn. -/
theorem existsUnique_placeOf_eq {size place : Nat}
    (within : place < size * placesPerSource alphabet size) :
    ∃! edge, IsCandidate alphabet size edge ∧ placeOf alphabet size edge = place := by
  rw [← length_candidates] at within
  refine ⟨(candidates alphabet size)[place],
    getElem?_candidates_eq_some_iff.1 (List.getElem?_eq_getElem within), ?_⟩
  intro edge standing
  have located := getElem?_candidates_eq_some_iff.2 standing
  rw [List.getElem?_eq_getElem within, Option.some.injEq] at located
  exact located.symm

/-! ## The order of the places -/

theorem IsCandidate.idxOf_label_lt {size : Nat} {edge : Edge Char}
    (candidate : IsCandidate alphabet size edge) :
    alphabet.labels.idxOf edge.label <
      alphabet.size + if edge.source = edge.target then 0 else 1 := by
  have known := (mem_labelsBetween_iff alphabet edge.source edge.target edge.label).2
    ⟨candidate.label_mem, candidate.source_ne_target⟩
  rw [← length_between, between, List.length_map, ← idxOf_labelsBetween alphabet known]
  exact List.idxOf_lt_length_of_mem known

/-- The places of an edge's target end before those of a later target begin. -/
theorem IsCandidate.place_lt_of_target_lt {size target : Nat} {edge : Edge Char}
    (candidate : IsCandidate alphabet size edge) (later : edge.target < target) :
    edge.target * alphabet.size + othersBefore edge.source edge.target +
        alphabet.labels.idxOf edge.label <
      target * alphabet.size + othersBefore edge.source target := by
  have within := candidate.idxOf_label_lt
  have blocks : (edge.target + 1) * alphabet.size ≤ target * alphabet.size :=
    Nat.mul_le_mul_right _ later
  have others : othersBefore edge.source edge.target +
      (if edge.source = edge.target then 0 else 1) ≤ othersBefore edge.source target := by
    rw [othersBefore, othersBefore]
    split_ifs <;> omega
  rw [Nat.succ_mul] at blocks
  omega

/-- The places are in the order in which the edges are drawn. -/
theorem IsDrawnBefore.placeOf_lt {size : Nat} {first second : Edge Char}
    (before : IsDrawnBefore alphabet first second) (candidate : IsCandidate alphabet size first) :
    placeOf alphabet size first < placeOf alphabet size second := by
  rw [placeOf, placeOf]
  rcases before with source_lt | ⟨source_eq, target_lt | ⟨target_eq, label_lt⟩⟩
  · have within := candidate.place_lt_of_target_lt candidate.target_lt
    have whole : othersBefore first.source size = size - 1 := if_pos candidate.source_lt
    rw [whole, ← placesPerSource] at within
    have blocks : (first.source + 1) * placesPerSource alphabet size ≤
        second.source * placesPerSource alphabet size :=
      Nat.mul_le_mul_right _ source_lt
    rw [Nat.succ_mul] at blocks
    omega
  · have within := candidate.place_lt_of_target_lt target_lt
    rw [← source_eq]
    omega
  · rw [← source_eq, ← target_eq]
    omega

/--
The first places, as many as counted, belong to the edges that may be drawn, one
to each of them, in the order in which the edges are drawn.
-/
structure Enumerates (alphabet : Alphabet Char) (size count : Nat) : Prop where
  placeOf_lt : ∀ edge, IsCandidate alphabet size edge → placeOf alphabet size edge < count
  existsUnique : ∀ place < count,
    ∃! edge, IsCandidate alphabet size edge ∧ placeOf alphabet size edge = place
  ordered : ∀ first second, IsCandidate alphabet size first → IsCandidate alphabet size second →
    IsDrawnBefore alphabet first second →
      placeOf alphabet size first < placeOf alphabet size second

theorem enumerates (alphabet : Alphabet Char) (size : Nat) :
    Enumerates alphabet size (size * placesPerSource alphabet size) where
  placeOf_lt edge candidate := by
    rw [← length_candidates]
    exact (List.getElem?_eq_some_iff.1 candidate.getElem?_placeOf).1
  existsUnique _ within := existsUnique_placeOf_eq within
  ordered _ _ candidate _ before := before.placeOf_lt candidate

end WordAutomata.Random
