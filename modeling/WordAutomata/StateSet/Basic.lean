import WordAutomata.Render

/-!
# Finite sets of states

A set of state numbers is kept as the strictly ascending list of its members.
There is one such list for each set, so two values are equal exactly when they
have the same members, whatever operations produced them.  Each operation has
one lemma that says what its members are.
-/

namespace WordAutomata

/-- A finite set of state numbers. -/
structure StateSet where
  members : List Nat
  ascending : members.Pairwise (· < ·)
  deriving DecidableEq

namespace StateSet

instance : Membership Nat StateSet where
  mem set state := state ∈ set.members

theorem mem_def (state : Nat) (set : StateSet) : state ∈ set ↔ state ∈ set.members :=
  Iff.rfl

instance (state : Nat) (set : StateSet) : Decidable (state ∈ set) :=
  inferInstanceAs (Decidable (state ∈ set.members))

theorem nodup (set : StateSet) : set.members.Nodup :=
  set.ascending.imp Nat.ne_of_lt

/-- Two sets with the same members are equal. -/
@[ext]
theorem ext {left right : StateSet} (same : ∀ state, state ∈ left ↔ state ∈ right) :
    left = right := by
  obtain ⟨leftMembers, leftAscending⟩ := left
  obtain ⟨rightMembers, rightAscending⟩ := right
  have equality : leftMembers = rightMembers := by
    refine List.Perm.eq_of_pairwise (fun first second _ _ before after =>
      absurd (Nat.lt_trans before after) (Nat.lt_irrefl first)) leftAscending rightAscending ?_
    exact (List.perm_ext_iff_of_nodup (leftAscending.imp Nat.ne_of_lt)
      (rightAscending.imp Nat.ne_of_lt)).2 same
  subst equality
  rfl

def empty : StateSet :=
  ⟨[], .nil⟩

instance : EmptyCollection StateSet :=
  ⟨empty⟩

instance : Inhabited StateSet :=
  ⟨∅⟩

@[simp]
theorem not_mem_empty (state : Nat) : ¬ state ∈ (∅ : StateSet) :=
  List.not_mem_nil

def singleton (state : Nat) : StateSet :=
  ⟨[state], List.pairwise_singleton _ _⟩

@[simp]
theorem mem_singleton (state member : Nat) : state ∈ singleton member ↔ state = member :=
  List.mem_singleton

/-- Puts a state at its place in an ascending list, unless it is there already. -/
def place (state : Nat) : List Nat → List Nat
  | [] => [state]
  | head :: tail =>
      if state < head then
        state :: head :: tail
      else if state = head then
        head :: tail
      else
        head :: place state tail

theorem mem_place (state member : Nat) (list : List Nat) :
    member ∈ place state list ↔ member = state ∨ member ∈ list := by
  induction list with
  | nil => simp [place]
  | cons head tail inductionHypothesis =>
      unfold place
      split
      · simp
      · split
        · next equality => simp [equality]
        · simp [inductionHypothesis, or_left_comm]

theorem place_ascending (state : Nat) {list : List Nat} (ascending : list.Pairwise (· < ·)) :
    (place state list).Pairwise (· < ·) := by
  induction list with
  | nil => simp [place]
  | cons head tail inductionHypothesis =>
      have before := List.pairwise_cons.1 ascending
      unfold place
      split
      · next smaller =>
          refine List.pairwise_cons.2 ⟨fun member located => ?_, ascending⟩
          rcases List.mem_cons.1 located with rfl | later
          · exact smaller
          · exact Nat.lt_trans smaller (before.1 member later)
      · split
        · exact ascending
        · next notSmaller different =>
            refine List.pairwise_cons.2 ⟨fun member located => ?_, inductionHypothesis before.2⟩
            rcases (mem_place state member tail).1 located with rfl | later
            · omega
            · exact before.1 member later

def insert (set : StateSet) (state : Nat) : StateSet :=
  ⟨place state set.members, place_ascending state set.ascending⟩

@[simp]
theorem mem_insert (set : StateSet) (added state : Nat) :
    state ∈ set.insert added ↔ state = added ∨ state ∈ set :=
  mem_place added state set.members

def erase (set : StateSet) (state : Nat) : StateSet :=
  ⟨set.members.filter (· ≠ state), set.ascending.filter _⟩

@[simp]
theorem mem_erase (set : StateSet) (removed state : Nat) :
    state ∈ set.erase removed ↔ state ∈ set ∧ state ≠ removed := by
  simp [erase, mem_def]

/-- The set with all states of a list added. -/
def insertMany (set : StateSet) (states : List Nat) : StateSet :=
  states.foldl insert set

@[simp]
theorem mem_insertMany (set : StateSet) (states : List Nat) (state : Nat) :
    state ∈ set.insertMany states ↔ state ∈ set ∨ state ∈ states := by
  induction states generalizing set with
  | nil => simp [insertMany]
  | cons head tail inductionHypothesis =>
      change state ∈ (set.insert head).insertMany tail ↔ _
      rw [inductionHypothesis]
      simp [or_left_comm, or_assoc]

def ofList (states : List Nat) : StateSet :=
  (∅ : StateSet).insertMany states

@[simp]
theorem mem_ofList (states : List Nat) (state : Nat) : state ∈ ofList states ↔ state ∈ states := by
  simp [ofList]

def union (left right : StateSet) : StateSet :=
  left.insertMany right.members

instance : Union StateSet :=
  ⟨union⟩

@[simp]
theorem mem_union (left right : StateSet) (state : Nat) :
    state ∈ left ∪ right ↔ state ∈ left ∨ state ∈ right :=
  mem_insertMany left right.members state

def size (set : StateSet) : Nat :=
  set.members.length

def isEmpty (set : StateSet) : Bool :=
  set.members.isEmpty

theorem isEmpty_iff (set : StateSet) : set.isEmpty = true ↔ set = ∅ := by
  constructor
  · intro noMembers
    ext state
    rw [mem_def, List.isEmpty_iff.1 noMembers]
    simp
  · rintro rfl
    rfl

/-- The least member, if there is one. -/
def least? (set : StateSet) : Option Nat :=
  set.members.head?

def intersects (left right : StateSet) : Bool :=
  left.members.any (· ∈ right)

theorem intersects_iff (left right : StateSet) :
    left.intersects right = true ↔ ∃ state, state ∈ left ∧ state ∈ right := by
  simp [intersects, mem_def]

/-- Whether every member of the first set is a member of the second. -/
def isSubset (left right : StateSet) : Bool :=
  left.members.all (· ∈ right)

theorem isSubset_iff (left right : StateSet) :
    left.isSubset right = true ↔ ∀ state, state ∈ left → state ∈ right := by
  simp [isSubset, mem_def]

/-- Sets are ordered as their ascending member lists are in a dictionary. -/
instance : Ord StateSet where
  compare left right := compare left.members right.members

/-- A set of state numbers is written as its members between braces. -/
instance : Render StateSet where
  render set := renderBraced (set.members.map render)

end StateSet

end WordAutomata
