import Mathlib.Data.List.Nodup

/-!
# Walks over lists

A walk whose steps may fail gives a result if every step does, and fails if some
step fails.  This file says so for the walks that collect results and for those
that stop early.  It adds where entries are found in lists that consist of blocks,
and what is kept of lists with repetitions.
-/

namespace WordAutomata

variable {β γ : Type}

/-! ## Walks that may fail -/

/-- A walk over a list succeeds if every step does. -/
theorem mapM_eq_some_map {step : β → Option γ} {result : β → γ} {entries : List β}
    (steps : ∀ entry ∈ entries, step entry = some (result entry)) :
    entries.mapM step = some (entries.map result) := by
  induction entries with
  | nil => rfl
  | cons first rest inductionHypothesis =>
      rcases List.forall_mem_cons.1 steps with ⟨now, later⟩
      rw [List.mapM_cons, now, inductionHypothesis later]
      rfl

/-- A walk over a list fails exactly if some step does. -/
theorem mapM_eq_none_iff {step : β → Option γ} {entries : List β} :
    entries.mapM step = none ↔ ∃ entry ∈ entries, step entry = none := by
  induction entries with
  | nil => simp
  | cons first rest inductionHypothesis =>
      rw [List.mapM_cons, List.exists_mem_cons_iff, ← inductionHypothesis]
      cases step first with
      | none => simp
      | some result => cases rest.mapM step <;> simp

/-- What a walk collects are the results of its steps. -/
theorem mem_iff_of_mapM_eq_some {step : β → Option γ} {entries : List β} {results : List γ}
    (walked : entries.mapM step = some results) (result : γ) :
    result ∈ results ↔ ∃ entry ∈ entries, step entry = some result := by
  induction entries generalizing results with
  | nil =>
      cases walked
      simp
  | cons first rest inductionHypothesis =>
      rw [List.mapM_cons] at walked
      simp only [Option.bind_eq_bind, Option.bind_eq_some_iff, Option.pure_def,
        Option.some.injEq] at walked
      rcases walked with ⟨now, found, later, walked, rfl⟩
      rw [List.mem_cons, List.exists_mem_cons_iff, inductionHypothesis walked, found,
        Option.some.injEq, eq_comm]

/-- A search through a list that may stop early succeeds if every step does. -/
theorem anyM_eq_some_any {step : β → Option Bool} {result : β → Bool} {entries : List β}
    (steps : ∀ entry ∈ entries, step entry = some (result entry)) :
    entries.anyM step = some (entries.any result) := by
  induction entries with
  | nil => rfl
  | cons first rest inductionHypothesis =>
      rcases List.forall_mem_cons.1 steps with ⟨now, later⟩
      rw [List.anyM, now, List.any_cons]
      cases result first with
      | true => rfl
      | false => exact inductionHypothesis later

theorem allM_eq_some_all {step : β → Option Bool} {result : β → Bool} {entries : List β}
    (steps : ∀ entry ∈ entries, step entry = some (result entry)) :
    entries.allM step = some (entries.all result) := by
  induction entries with
  | nil => rfl
  | cons first rest inductionHypothesis =>
      rcases List.forall_mem_cons.1 steps with ⟨now, later⟩
      rw [List.allM, now, List.all_cons]
      cases result first with
      | true => exact inductionHypothesis later
      | false => rfl

/-! ## Blocks -/

theorem getElem?_append_of_eq_some {list : List β} {place : Nat} {entry : β}
    (present : list[place]? = some entry) (others : List β) :
    (list ++ others)[place]? = some entry := by
  rw [List.getElem?_append_left (List.getElem?_eq_some_iff.1 present).1]
  exact present

theorem exists_flatMap_range_eq (block : Nat → List β) {count index : Nat}
    (present : index < count) :
    ∃ rest, (List.range count).flatMap block =
      (List.range index).flatMap block ++ (block index ++ rest) := by
  induction count with
  | zero => omega
  | succ count inductionHypothesis =>
      rw [List.range_succ, List.flatMap_append, List.flatMap_singleton]
      by_cases earlier : index < count
      · rcases inductionHypothesis earlier with ⟨rest, shape⟩
        exact ⟨rest ++ block count, by rw [shape, List.append_assoc, List.append_assoc]⟩
      · obtain rfl : index = count := by omega
        exact ⟨[], by rw [List.append_nil]⟩

/-- What stands in a block stands behind all blocks before it. -/
theorem getElem?_flatMap_range (block : Nat → List β) {count index : Nat}
    (present : index < count) {offset : Nat} {value : β}
    (located : (block index)[offset]? = some value) :
    ((List.range count).flatMap block)[((List.range index).flatMap block).length + offset]? =
      some value := by
  rcases exists_flatMap_range_eq block present with ⟨rest, shape⟩
  have within := (List.getElem?_eq_some_iff.1 located).1
  rw [shape, List.getElem?_append_right (Nat.le_add_right _ _), Nat.add_sub_cancel_left,
    List.getElem?_append_left within, located]

/-- In a table whose rows have one width, a cell is found by its row and its column. -/
theorem getElem?_flatMap_of_width {cells : β → List γ} {width : Nat} {rows : List β}
    (widths : ∀ row ∈ rows, (cells row).length = width) (place : Nat) {column : Nat}
    (within : column < width) :
    (rows.flatMap cells)[place * width + column]? =
      rows[place]?.bind fun row => (cells row)[column]? := by
  induction rows generalizing place with
  | nil => simp
  | cons row rest inductionHypothesis =>
      rcases List.forall_mem_cons.1 widths with ⟨first, later⟩
      cases place with
      | zero =>
          rw [List.flatMap_cons, List.getElem?_append_left (by omega)]
          simp
      | succ place =>
          have behind : (place + 1) * width + column - width = place * width + column := by
            rw [Nat.succ_mul]
            omega
          rw [List.flatMap_cons,
            List.getElem?_append_right (by rw [first, Nat.succ_mul]; omega), first, behind,
            inductionHypothesis later]
          rfl

/-- Counting block by block reaches the same positions as counting on. -/
theorem range_mul (width count : Nat) :
    List.range (width * count) =
      (List.range count).flatMap fun place => (List.range width).map (width * place + ·) := by
  induction count with
  | zero => rfl
  | succ count inductionHypothesis =>
      rw [Nat.mul_succ, List.range_add, inductionHypothesis, List.range_succ, List.flatMap_append,
        List.flatMap_singleton]

/-! ## Positions -/

/-- A walk that tests the first positions tests all, if the others pass anyway. -/
theorem all_range_iff {room : Nat} {test : Nat → Bool}
    (behind : ∀ position, room ≤ position → test position = true) :
    (List.range room).all test = true ↔ ∀ position, test position = true := by
  rw [List.all_eq_true]
  constructor
  · intro tested position
    rcases Nat.lt_or_ge position room with within | outside
    · exact tested position (List.mem_range.2 within)
    · exact behind position outside
  · intro tested position _
    exact tested position

/-! ## Entries that can be told apart -/

section Distinct

variable [DecidableEq β]

theorem lookup_map_pair (function : β → γ) {key : β} {keys : List β} (member : key ∈ keys) :
    (keys.map fun other => (other, function other)).lookup key = some (function key) := by
  induction keys with
  | nil => cases member
  | cons first rest inductionHypothesis =>
      rw [List.map_cons, List.lookup_cons]
      by_cases same : key = first
      · simp [same]
      · have later := (List.mem_cons.1 member).resolve_left same
        rw [beq_eq_false_iff_ne.2 same]
        exact inductionHypothesis later

/-- A block that one member of the list gives, and no other member gives anything. -/
theorem flatMap_ite_eq {keys : List β} (distinct : keys.Nodup) {key : β} (member : key ∈ keys)
    (block : List γ) :
    (keys.flatMap fun other => if other = key then block else []) = block := by
  induction keys with
  | nil => cases member
  | cons first keys inductionHypothesis =>
      rw [List.nodup_cons] at distinct
      rw [List.flatMap_cons]
      by_cases here : first = key
      · subst here
        have absent : (keys.flatMap fun other => if other = first then block else []) = [] := by
          rw [List.flatMap_eq_nil_iff]
          intro other later
          rw [if_neg]
          rintro rfl
          exact distinct.1 later
        rw [if_pos rfl, absent, List.append_nil]
      · rw [if_neg here, inductionHypothesis distinct.2
          ((List.mem_cons.1 member).resolve_left (Ne.symm here))]
        rfl

/-- Entries without repetition are all kept. -/
theorem eraseDups_eq_self {entries : List β} (distinct : entries.Nodup) :
    entries.eraseDups = entries := by
  induction entries with
  | nil => rfl
  | cons first rest inductionHypothesis =>
      rcases List.nodup_cons.1 distinct with ⟨new, later⟩
      have others : (rest.filter fun entry => !entry == first) = rest := by
        rw [List.filter_eq_self]
        rintro entry listed
        simpa using ne_of_mem_of_not_mem listed new
      rw [List.eraseDups_cons, others, inductionHypothesis later]

/-- Further entries count only if they are new. -/
theorem eraseDups_append_of_subset {entries more : List β} (distinct : entries.Nodup)
    (known : more ⊆ entries) :
    (entries ++ more).eraseDups = entries := by
  rw [List.eraseDups_append, eraseDups_eq_self distinct]
  have nothing : more.removeAll entries = [] := by
    rw [List.removeAll, List.filter_eq_nil_iff]
    intro entry listed
    simpa using known listed
  rw [nothing, List.eraseDups_nil, List.append_nil]

end Distinct

end WordAutomata
