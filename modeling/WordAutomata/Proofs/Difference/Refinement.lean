import Mathlib.Computability.DFA
import Mathlib.Data.Set.Card

/-!
# How long a word has to be to tell two states apart

Two states of a deterministic machine are in one class if they accept the same
words up to some length.  The longer these words may be, the finer the classes
are.  If the shortest word that tells two states apart has some length, then
each smaller length leaves together two states that the next length tells apart.
So there is a new class for every symbol of this word, besides the two classes
of the states that accept and of those that reject the empty word, and the word
is shorter than the number of states by two.
-/

namespace WordAutomata

variable {α σ : Type}

/-- The word is accepted from exactly one of the two states. -/
def TellsApart (machine : DFA α σ) (left right : σ) (word : List α) : Prop :=
  ¬ (word ∈ machine.acceptsFrom left ↔ word ∈ machine.acceptsFrom right)

/-- The accepted words of at most the given length, which make up the class of the state. -/
def acceptedWithin (machine : DFA α σ) (bound : Nat) (state : σ) : Set (List α) :=
  {word | word.length ≤ bound ∧ word ∈ machine.acceptsFrom state}

variable {machine : DFA α σ}

theorem mem_acceptedWithin (bound : Nat) (state : σ) (word : List α) :
    word ∈ acceptedWithin machine bound state ↔
      word.length ≤ bound ∧ word ∈ machine.acceptsFrom state :=
  Iff.rfl

theorem acceptedWithin_eq_iff (bound : Nat) (left right : σ) :
    acceptedWithin machine bound left = acceptedWithin machine bound right ↔
      ∀ word, word.length ≤ bound → ¬ TellsApart machine left right word := by
  simp only [TellsApart, not_not]
  constructor
  · intro same word short
    have members := Set.ext_iff.1 same word
    simpa [mem_acceptedWithin, short] using members
  · intro agree
    ext word
    exact and_congr_right (agree word)

/-- A word tells two states apart if its end tells apart where its beginning leads. -/
theorem tellsApart_append_iff (left right : σ) (first second : List α) :
    TellsApart machine left right (first ++ second) ↔
      TellsApart machine (machine.evalFrom left first) (machine.evalFrom right first) second := by
  simp only [TellsApart, DFA.mem_acceptsFrom, DFA.evalFrom_of_append]

/-! ## The number of classes -/

/-- The words of at most the given length. -/
def cutOff (bound : Nat) (words : Set (List α)) : Set (List α) :=
  {word | word ∈ words ∧ word.length ≤ bound}

/-- The class for one symbol more determines the class. -/
theorem cutOff_acceptedWithin (bound : Nat) (state : σ) :
    cutOff bound (acceptedWithin machine (bound + 1) state) =
      acceptedWithin machine bound state := by
  ext word
  constructor
  · rintro ⟨⟨_, accepted⟩, short⟩
    exact ⟨short, accepted⟩
  · rintro ⟨short, accepted⟩
    exact ⟨⟨Nat.le_succ_of_le short, accepted⟩, short⟩

/-- There are more classes if two states of one class are told apart by one symbol more. -/
theorem ncard_image_acceptedWithin_lt {places : Set σ} (finite : places.Finite) {bound : Nat}
    {first second : σ} (firstPlace : first ∈ places) (secondPlace : second ∈ places)
    (together : acceptedWithin machine bound first = acceptedWithin machine bound second)
    (apart : acceptedWithin machine (bound + 1) first ≠
      acceptedWithin machine (bound + 1) second) :
    (acceptedWithin machine bound '' places).ncard <
      (acceptedWithin machine (bound + 1) '' places).ncard := by
  have image : cutOff bound '' (acceptedWithin machine (bound + 1) '' places) =
      acceptedWithin machine bound '' places := by
    rw [Set.image_image]
    exact Set.image_congr fun state _ => cutOff_acceptedWithin bound state
  have classes := finite.image (acceptedWithin machine (bound + 1))
  rw [← image]
  apply Nat.lt_of_le_of_ne (Set.ncard_image_le classes)
  -- If there were no more classes, then cutting off would not identify any two of them.
  intro equal
  have injective := Set.injOn_of_ncard_image_eq equal classes
  apply apart
  apply injective (Set.mem_image_of_mem _ firstPlace) (Set.mem_image_of_mem _ secondPlace)
  rw [cutOff_acceptedWithin, cutOff_acceptedWithin, together]

/-! ## Shortest words -/

section Shortest

variable {places : Set σ} {left right : σ} {word : List α}

/-- A set of states that no symbol leaves is not left by any word. -/
theorem evalFrom_mem (closed : ∀ state ∈ places, ∀ value, machine.step state value ∈ places)
    {state : σ} (member : state ∈ places) (word : List α) :
    machine.evalFrom state word ∈ places := by
  induction word generalizing state with
  | nil => exact member
  | cons value rest inductionHypothesis => exact inductionHypothesis (closed state member value)

/--
The beginning of a shortest word leads to two states that the rest of the word
tells apart, and that no word shorter than the rest tells apart.
-/
theorem exists_shortest_suffix
    (closed : ∀ state ∈ places, ∀ value, machine.step state value ∈ places)
    (leftPlace : left ∈ places) (rightPlace : right ∈ places)
    (apart : TellsApart machine left right word)
    (shortest : ∀ other, TellsApart machine left right other → word.length ≤ other.length)
    {bound : Nat} (within : bound ≤ word.length) :
    ∃ first ∈ places, ∃ second ∈ places,
      acceptedWithin machine bound first ≠ acceptedWithin machine bound second ∧
        ∀ smaller < bound,
          acceptedWithin machine smaller first = acceptedWithin machine smaller second := by
  obtain ⟨start, rest, rfl, counted⟩ :
      ∃ start rest, word = start ++ rest ∧ rest.length = bound := by
    refine ⟨_, _, (List.take_append_drop (word.length - bound) word).symm, ?_⟩
    rw [List.length_drop]
    omega
  refine ⟨machine.evalFrom left start, evalFrom_mem closed leftPlace start,
    machine.evalFrom right start, evalFrom_mem closed rightPlace start, ?_, ?_⟩
  · intro same
    have together := (acceptedWithin_eq_iff bound _ _).1 same rest (Nat.le_of_eq counted)
    exact together ((tellsApart_append_iff left right start rest).1 apart)
  · intro smaller less
    apply (acceptedWithin_eq_iff smaller _ _).2
    intro other short tells
    have longer := shortest _ ((tellsApart_append_iff left right start other).2 tells)
    rw [List.length_append, List.length_append] at longer
    omega

/-- Every symbol of a shortest word adds a class to the two that there are at first. -/
theorem add_two_le_ncard_image (finite : places.Finite)
    (closed : ∀ state ∈ places, ∀ value, machine.step state value ∈ places)
    (leftPlace : left ∈ places) (rightPlace : right ∈ places)
    (apart : TellsApart machine left right word)
    (shortest : ∀ other, TellsApart machine left right other → word.length ≤ other.length)
    (bound : Nat) (within : bound ≤ word.length) :
    bound + 2 ≤ (acceptedWithin machine bound '' places).ncard := by
  rcases exists_shortest_suffix closed leftPlace rightPlace apart shortest within with
    ⟨first, firstPlace, second, secondPlace, different, agree⟩
  induction bound generalizing first second with
  | zero =>
      apply (Set.one_lt_ncard (finite.image _)).2
      exact ⟨_, Set.mem_image_of_mem _ firstPlace, _, Set.mem_image_of_mem _ secondPlace,
        different⟩
  | succ bound inductionHypothesis =>
      have within' := Nat.le_of_succ_le within
      rcases exists_shortest_suffix closed leftPlace rightPlace apart shortest within' with
        ⟨first', firstPlace', second', secondPlace', different', agree'⟩
      have fewer := inductionHypothesis within' first' firstPlace' second' secondPlace'
        different' agree'
      have more := ncard_image_acceptedWithin_lt finite firstPlace secondPlace
        (agree bound (Nat.lt_succ_self bound)) different
      omega

/-- A shortest word that tells two states apart is shorter than their number by two. -/
theorem length_add_two_le_ncard (finite : places.Finite)
    (closed : ∀ state ∈ places, ∀ value, machine.step state value ∈ places)
    (leftPlace : left ∈ places) (rightPlace : right ∈ places)
    (apart : TellsApart machine left right word)
    (shortest : ∀ other, TellsApart machine left right other → word.length ≤ other.length) :
    word.length + 2 ≤ places.ncard :=
  calc
    word.length + 2 ≤ (acceptedWithin machine word.length '' places).ncard :=
      add_two_le_ncard_image finite closed leftPlace rightPlace apart shortest word.length
        (Nat.le_refl _)
    _ ≤ places.ncard := Set.ncard_image_le finite

end Shortest

end WordAutomata
