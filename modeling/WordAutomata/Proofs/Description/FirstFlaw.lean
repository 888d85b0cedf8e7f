import WordAutomata.Proofs.Description.Resolve
import WordAutomata.Proofs.First

/-!
# Which flaw of a description is reported

A description may have many flaws.  Resolving it reports one of them, which the
rules of this file name without reading lists of flaws: repeated symbols come
before repeated rows, these before what is wrong with the entries in the order
in which they are written, and undeclared initial and accepting states come
last.  Within an entry an unknown label comes before its targets.
-/

namespace WordAutomata

theorem Alphabet.ofList_eq_error_iff {α : Type} [DecidableEq α] (symbols : List α) (value : α) :
    Alphabet.ofList symbols = .error value ↔ FirstRepeated symbols value := by
  rw [← head?_repetitions_eq_some_iff, ofList]
  split
  · next found => simp [found]
  · next repeated rest found => simp [found]

namespace Description

variable {α : Type}

/-! ## The rules -/

/-- The label of the entry reads nothing, or a symbol of the alphabet. -/
def LabelKnown (description : Description α) (entry : Entry α) : Prop :=
  ∀ value, entry.label = .symbol value → value ∈ description.alphabet

/-- The flaw is the first one of an entry in the row of a state. -/
inductive EntryFlaw (description : Description α) (source : String) (entry : Entry α) :
    Malformed α → Prop where
  | label {value : α} (labelled : entry.label = .symbol value)
      (unknown : value ∉ description.alphabet) :
      EntryFlaw description source entry (.unknownSymbol source value)
  | target {name : String} (known : description.LabelKnown entry)
      (undeclared : FirstWith (· ∉ description.names) entry.targets name) :
      EntryFlaw description source entry (.danglingState name)

/-- Something is wrong with an entry in the row of a state. -/
def Flawed (description : Description α) (source : String) (entry : Entry α) : Prop :=
  ∃ flaw, description.EntryFlaw source entry flaw

/-- The flaw is the first one of a description. -/
inductive FirstFlaw (description : Description α) : Malformed α → Prop where
  | symbol {value : α} (repeated : FirstRepeated description.alphabet value) :
      FirstFlaw description (.duplicateSymbol value)
  | row {name : String} (symbols : description.alphabet.Nodup)
      (repeated : FirstRepeated description.names name) :
      FirstFlaw description (.duplicateState name)
  | entry {row : Row α} {entry : Entry α} {flaw : Malformed α}
      (symbols : description.alphabet.Nodup) (names : description.names.Nodup)
      (first : FirstWith (fun row => ∃ entry ∈ row.entries, description.Flawed row.name entry)
        description.rows row)
      (within : FirstWith (description.Flawed row.name) row.entries entry)
      (flawed : description.EntryFlaw row.name entry flaw) :
      FirstFlaw description flaw
  | start {name : String} (symbols : description.alphabet.Nodup)
      (names : description.names.Nodup)
      (entries : ∀ row ∈ description.rows, ∀ entry ∈ row.entries,
        ¬ description.Flawed row.name entry)
      (undeclared : FirstWith (· ∉ description.names) description.start name) :
      FirstFlaw description (.danglingState name)
  | accept {name : String} (symbols : description.alphabet.Nodup)
      (names : description.names.Nodup)
      (entries : ∀ row ∈ description.rows, ∀ entry ∈ row.entries,
        ¬ description.Flawed row.name entry)
      (start : ∀ name ∈ description.start, name ∈ description.names)
      (undeclared : FirstWith (· ∉ description.names) description.accept name) :
      FirstFlaw description (.danglingState name)

/-! ## The first flaws of the parts -/

theorem head?_danglingStates_eq_some_iff (description : Description α) (referred : List String)
    (flaw : Malformed α) :
    (description.danglingStates referred).head? = some flaw ↔
      ∃ name, FirstWith (· ∉ description.names) referred name ∧ .danglingState name = flaw := by
  simp only [danglingStates, List.head?_map, Option.map_eq_some_iff, ← head?_filter_eq_some_iff]

variable [DecidableEq α]

theorem entryFlaws_of_unknown {description : Description α} (source : String) {entry : Entry α}
    {value : α} (labelled : entry.label = .symbol value)
    (unknown : value ∉ description.alphabet) :
    description.entryFlaws source entry =
      .unknownSymbol source value :: description.danglingStates entry.targets := by
  rw [entryFlaws, labelled]
  simp only [if_neg unknown]
  rfl

theorem LabelKnown.entryFlaws_eq {description : Description α} (source : String)
    {entry : Entry α} (known : description.LabelKnown entry) :
    description.entryFlaws source entry = description.danglingStates entry.targets := by
  rw [entryFlaws]
  cases labelled : entry.label with
  | epsilon => rfl
  | symbol value => simp only [if_pos (known value labelled), List.nil_append]

theorem head?_entryFlaws_eq_some_iff (description : Description α) (source : String)
    (entry : Entry α) (flaw : Malformed α) :
    (description.entryFlaws source entry).head? = some flaw ↔
      description.EntryFlaw source entry flaw := by
  by_cases unknown : ∃ value, entry.label = .symbol value ∧ value ∉ description.alphabet
  · rcases unknown with ⟨value, labelled, unknown⟩
    rw [entryFlaws_of_unknown source labelled unknown, List.head?_cons, Option.some.injEq]
    constructor
    · rintro rfl
      exact .label labelled unknown
    · rintro (⟨labelled', _⟩ | ⟨known, _⟩)
      · rw [labelled, Label.symbol.injEq] at labelled'
        rw [labelled']
      · exact absurd (known value labelled) unknown
  · have known : description.LabelKnown entry :=
      fun value labelled => by_contra fun absent => unknown ⟨value, labelled, absent⟩
    rw [known.entryFlaws_eq, head?_danglingStates_eq_some_iff]
    constructor
    · rintro ⟨name, undeclared, rfl⟩
      exact .target known undeclared
    · rintro (⟨labelled, absent⟩ | ⟨_, undeclared⟩)
      · exact absurd (known _ labelled) absent
      · exact ⟨_, undeclared, rfl⟩

theorem entryFlaws_eq_nil_iff_not_flawed (description : Description α) (source : String)
    (entry : Entry α) :
    description.entryFlaws source entry = [] ↔ ¬ description.Flawed source entry := by
  simp only [← List.head?_eq_none_iff, Option.eq_none_iff_forall_ne_some, Flawed, not_exists,
    ← head?_entryFlaws_eq_some_iff, ne_eq]

/-- The first flaw of the entries of a row is that of the first entry that is flawed. -/
theorem head?_flatMap_entryFlaws_eq_some_iff (description : Description α) (row : Row α)
    (flaw : Malformed α) :
    (row.entries.flatMap (description.entryFlaws row.name)).head? = some flaw ↔
      ∃ entry, FirstWith (description.Flawed row.name) row.entries entry ∧
        description.EntryFlaw row.name entry flaw := by
  rw [List.head?_flatMap]
  exact findSome?_eq_some_iff_firstWith (description.EntryFlaw row.name) (fun entry _ other =>
    description.head?_entryFlaws_eq_some_iff row.name entry other) flaw

/-- The first flaw of all entries is that of the first row that has one. -/
theorem head?_flatMap_rows_eq_some_iff (description : Description α) (flaw : Malformed α) :
    (description.rows.flatMap fun row =>
        row.entries.flatMap (description.entryFlaws row.name)).head? = some flaw ↔
      ∃ row, FirstWith (fun row => ∃ entry ∈ row.entries, description.Flawed row.name entry)
          description.rows row ∧
        ∃ entry, FirstWith (description.Flawed row.name) row.entries entry ∧
          description.EntryFlaw row.name entry flaw := by
  have flawed : ∀ row : Row α,
      (∃ flaw entry, FirstWith (description.Flawed row.name) row.entries entry ∧
        description.EntryFlaw row.name entry flaw) ↔
      ∃ entry ∈ row.entries, description.Flawed row.name entry := by
    intro row
    simp only [← head?_flatMap_entryFlaws_eq_some_iff, ← Option.isSome_iff_exists,
      List.isSome_head?, ne_eq, List.flatMap_eq_nil_iff, entryFlaws_eq_nil_iff_not_flawed,
      not_forall, not_not, exists_prop]
  rw [List.head?_flatMap]
  have first := findSome?_eq_some_iff_firstWith _ (fun row (_ : row ∈ description.rows) other =>
    description.head?_flatMap_entryFlaws_eq_some_iff row other) flaw
  simpa only [flawed] using first

theorem forall_not_flawed_iff (description : Description α) :
    (description.rows.flatMap fun row =>
        row.entries.flatMap (description.entryFlaws row.name)) = [] ↔
      ∀ row ∈ description.rows, ∀ entry ∈ row.entries,
        ¬ description.Flawed row.name entry := by
  simp only [List.flatMap_eq_nil_iff, entryFlaws_eq_nil_iff_not_flawed]

/-! ## The first flaw of a description -/

omit [DecidableEq α] in
theorem head?_map_duplicateState_eq_some_iff (names : List String) (flaw : Malformed α) :
    ((repetitions names).map Malformed.duplicateState).head? = some flaw ↔
      ∃ name, FirstRepeated names name ∧ .duplicateState name = flaw := by
  simp only [List.head?_map, Option.map_eq_some_iff, head?_repetitions_eq_some_iff]

/-- The listed flaws begin with the one that the rules name. -/
theorem head?_flaws_eq_some_iff {description : Description α}
    (symbols : description.alphabet.Nodup) (flaw : Malformed α) :
    description.flaws.head? = some flaw ↔ description.FirstFlaw flaw := by
  have parts := forall_not_flawed_iff description
  simp only [flaws, head?_append_eq_some_iff, List.append_eq_nil_iff, parts,
    head?_map_duplicateState_eq_some_iff, head?_flatMap_rows_eq_some_iff,
    head?_danglingStates_eq_some_iff, List.map_eq_nil_iff, repetitions_eq_nil_iff,
    danglingStates_eq_nil_iff]
  constructor
  · rintro (((⟨name, repeated, rfl⟩ | ⟨names, row, first, entry, within, flawed⟩) |
      ⟨⟨names, entries⟩, name, undeclared, rfl⟩) |
      ⟨⟨⟨names, entries⟩, start⟩, name, undeclared, rfl⟩)
    · exact .row symbols repeated
    · exact .entry symbols names first within flawed
    · exact .start symbols names entries undeclared
    · exact .accept symbols names entries start undeclared
  · rintro (⟨repeated⟩ | ⟨_, repeated⟩ | ⟨_, names, first, within, flawed⟩ |
      ⟨_, names, entries, undeclared⟩ | ⟨_, names, entries, start, undeclared⟩)
    · exact absurd symbols repeated.not_nodup
    · exact Or.inl (Or.inl (Or.inl ⟨_, repeated, rfl⟩))
    · exact Or.inl (Or.inl (Or.inr ⟨names, _, first, _, within, flawed⟩))
    · exact Or.inl (Or.inr ⟨⟨names, entries⟩, _, undeclared, rfl⟩)
    · exact Or.inr ⟨⟨⟨names, entries⟩, start⟩, _, undeclared, rfl⟩

/-- Resolving fails with a flaw exactly if the rules name it. -/
theorem resolve_eq_error_iff (description : Description α) (flaw : Malformed α) :
    description.resolve = .error flaw ↔ description.FirstFlaw flaw := by
  rw [resolve]
  cases declared : Alphabet.ofList description.alphabet with
  | error repeated =>
      have first := (Alphabet.ofList_eq_error_iff _ repeated).1 declared
      rw [Except.error.injEq]
      constructor
      · rintro rfl
        exact .symbol first
      · rintro (repeated' | ⟨symbols, _⟩ | ⟨symbols, _⟩ | ⟨symbols, _⟩ | ⟨symbols, _⟩)
        · rw [(Alphabet.ofList_eq_error_iff _ _).2 repeated', Except.error.injEq] at declared
          rw [declared]
        all_goals exact absurd symbols first.not_nodup
  | ok alphabet =>
      have symbols : description.alphabet.Nodup :=
        (Alphabet.ofList_eq_ok_iff _ alphabet).1 declared ▸ alphabet.nodup
      rw [← head?_flaws_eq_some_iff symbols]
      cases found : description.flaws <;> simp

end Description

end WordAutomata
