import WordAutomata.Proofs.Description.Resolve

/-!
# What a new edge adds to a description

A description lists an edge if the row of its source has an entry with its label
and its target.  Adding an edge lists this edge and no other one, and gives a
row to each of its states that has none, first to the source and then to the
target.  So row names stay different, and as an entry is opened only for a
target, no entry is empty.  Such a description is well-formed as soon as the
labels of its edges are known and all states that it refers to have rows.
-/

namespace WordAutomata.Description

variable {α : Type}

/-- Some entry has the label and the target. -/
def Offers (entries : List (Entry α)) (label : Label α) (target : String) : Prop :=
  ∃ entry ∈ entries, entry.label = label ∧ target ∈ entry.targets

/-- Some row with the name of the source has an entry with the label and the target. -/
def Lists (rows : List (Row α)) (source : String) (label : Label α) (target : String) : Prop :=
  ∃ row ∈ rows, row.name = source ∧ Offers row.entries label target

/-- The names, with one more name at the end unless it is one of them. -/
def mention (name : String) (names : List String) : List String :=
  if name ∈ names then names else names ++ [name]

/-- Row names are different, and no entry is empty. -/
structure Tidy (description : Description α) : Prop where
  names_nodup : description.names.Nodup
  targets_ne_nil : ∀ row ∈ description.rows, ∀ entry ∈ row.entries, entry.targets ≠ []

theorem offers_cons_iff (entry : Entry α) (entries : List (Entry α)) (label : Label α)
    (target : String) :
    Offers (entry :: entries) label target ↔
      entry.label = label ∧ target ∈ entry.targets ∨ Offers entries label target :=
  List.exists_mem_cons_iff _ _ _

theorem lists_cons_iff (row : Row α) (rows : List (Row α)) (source : String) (label : Label α)
    (target : String) :
    Lists (row :: rows) source label target ↔
      row.name = source ∧ Offers row.entries label target ∨ Lists rows source label target :=
  List.exists_mem_cons_iff _ _ _

theorem mention_of_mem {name : String} {names : List String} (known : name ∈ names) :
    mention name names = names :=
  if_pos known

theorem mention_of_not_mem {name : String} {names : List String} (new : name ∉ names) :
    mention name names = names ++ [name] :=
  if_neg new

theorem mention_cons_of_ne {name first : String} (different : name ≠ first) (rest : List String) :
    mention name (first :: rest) = first :: mention name rest := by
  by_cases known : name ∈ rest
  · rw [mention_of_mem known, mention_of_mem (List.mem_cons_of_mem first known)]
  · have known' := List.not_mem_cons_of_ne_of_not_mem different known
    rw [mention_of_not_mem known, mention_of_not_mem known', List.cons_append]

theorem nodup_mention {names : List String} (distinct : names.Nodup) (name : String) :
    (mention name names).Nodup := by
  by_cases known : name ∈ names
  · rwa [mention_of_mem known]
  · rw [mention_of_not_mem known]
    refine List.nodup_append.2 ⟨distinct, List.pairwise_singleton _ name, ?_⟩
    rintro other member _ last rfl
    exact known (List.mem_singleton.1 last ▸ member)

/-! ## Declaring a state -/

theorem names_declare (name : String) (rows : List (Row α)) :
    (declare name rows).map Row.name = mention name (rows.map Row.name) := by
  by_cases known : name ∈ rows.map Row.name
  · rw [declare, if_pos known, mention_of_mem known]
  · rw [declare, if_neg known, mention_of_not_mem known, List.map_append]
    rfl

/-- A row after a declaration was there before, or it is empty. -/
theorem mem_declare_iff (name : String) (rows : List (Row α)) (row : Row α) :
    row ∈ declare name rows ↔
      row ∈ rows ∨ name ∉ rows.map Row.name ∧ row = ⟨name, []⟩ := by
  by_cases known : name ∈ rows.map Row.name
  · simp [declare, known]
  · simp [declare, known]

theorem lists_declare_iff (name : String) (rows : List (Row α)) (source : String)
    (label : Label α) (target : String) :
    Lists (declare name rows) source label target ↔ Lists rows source label target := by
  simp only [Lists, mem_declare_iff]
  constructor
  · rintro ⟨row, old | ⟨_, rfl⟩, named, offers⟩
    · exact ⟨row, old, named, offers⟩
    · rcases offers with ⟨entry, member, _⟩
      cases member
  · rintro ⟨row, old, named, offers⟩
    exact ⟨row, Or.inl old, named, offers⟩

/-! ## Adding an edge -/

variable [DecidableEq α]

theorem offers_addTarget_iff (label : Label α) (target : String) (entries : List (Entry α))
    (label' : Label α) (target' : String) :
    Offers (addTarget label target entries) label' target' ↔
      Offers entries label' target' ∨ label' = label ∧ target' = target := by
  induction entries with
  | nil => simp [Offers, addTarget, eq_comm]
  | cons entry rest inductionHypothesis =>
      rw [addTarget]
      split
      · next here =>
          rw [offers_cons_iff, offers_cons_iff, ← here, List.mem_append, List.mem_singleton,
            and_or_left, or_right_comm, eq_comm (a := label')]
      · rw [offers_cons_iff, offers_cons_iff, inductionHypothesis, or_assoc]

theorem lists_addEdge_iff (source : String) (label : Label α) (target : String)
    (rows : List (Row α)) (source' : String) (label' : Label α) (target' : String) :
    Lists (addEdge source label target rows) source' label' target' ↔
      Lists rows source' label' target' ∨
        source' = source ∧ label' = label ∧ target' = target := by
  induction rows with
  | nil => simp [Lists, Offers, addEdge, eq_comm]
  | cons row rest inductionHypothesis =>
      rw [addEdge]
      split
      · next here =>
          rw [lists_cons_iff, lists_cons_iff, offers_addTarget_iff, ← here, and_or_left,
            or_right_comm, eq_comm (a := source')]
      · rw [lists_cons_iff, lists_cons_iff, inductionHypothesis, or_assoc]

theorem names_addEdge (source : String) (label : Label α) (target : String)
    (rows : List (Row α)) :
    (addEdge source label target rows).map Row.name = mention source (rows.map Row.name) := by
  induction rows with
  | nil => rfl
  | cons row rest inductionHypothesis =>
      rw [addEdge]
      split
      · next here => exact (mention_of_mem (here ▸ List.mem_cons_self)).symm
      · next other =>
          rw [List.map_cons, inductionHypothesis, List.map_cons, mention_cons_of_ne (Ne.symm other)]

theorem targets_ne_nil_of_mem_addTarget {label : Label α} {target : String}
    {entries : List (Entry α)} (filled : ∀ entry ∈ entries, entry.targets ≠ []) :
    ∀ entry ∈ addTarget label target entries, entry.targets ≠ [] := by
  induction entries with
  | nil => simp [addTarget]
  | cons entry rest inductionHypothesis =>
      rw [List.forall_mem_cons] at filled
      rw [addTarget]
      split
      · exact List.forall_mem_cons.2 ⟨List.append_ne_nil_of_right_ne_nil _ (List.cons_ne_nil _ _),
          filled.2⟩
      · exact List.forall_mem_cons.2 ⟨filled.1, inductionHypothesis filled.2⟩

/-- What holds of empty rows and is kept by every new target holds of all rows with a new edge. -/
theorem forall_rows_addEdge (good : List (Entry α) → Prop) {label : Label α} {target : String}
    (empty : good []) (kept : ∀ entries, good entries → good (addTarget label target entries))
    (source : String) {rows : List (Row α)} (all : ∀ row ∈ rows, good row.entries) :
    ∀ row ∈ addEdge source label target rows, good row.entries := by
  induction rows with
  | nil => exact List.forall_mem_singleton.2 (kept [] empty)
  | cons row rest inductionHypothesis =>
      rw [List.forall_mem_cons] at all
      rw [addEdge]
      split
      · exact List.forall_mem_cons.2 ⟨kept _ all.1, all.2⟩
      · exact List.forall_mem_cons.2 ⟨all.1, inductionHypothesis all.2⟩

/-! ## Growing a description -/

theorem names_labeledEdge (description : Description α) (source : String) (label : Label α)
    (target : String) :
    (description.labeledEdge source label target).names =
      mention target (mention source description.names) := by
  show (declare target (addEdge source label target description.rows)).map Row.name = _
  rw [names_declare, names_addEdge]
  rfl

theorem lists_labeledEdge_iff (description : Description α) (source : String) (label : Label α)
    (target source' : String) (label' : Label α) (target' : String) :
    Lists (description.labeledEdge source label target).rows source' label' target' ↔
      Lists description.rows source' label' target' ∨
        source' = source ∧ label' = label ∧ target' = target :=
  (lists_declare_iff _ _ _ _ _).trans (lists_addEdge_iff _ _ _ _ _ _ _)

omit [DecidableEq α] in
theorem forall_rows_declare (good : List (Entry α) → Prop) (empty : good []) (name : String)
    {rows : List (Row α)} (all : ∀ row ∈ rows, good row.entries) :
    ∀ row ∈ declare name rows, good row.entries := by
  intro row member
  rcases (mem_declare_iff name rows row).1 member with old | ⟨_, rfl⟩
  · exact all row old
  · exact empty

theorem forall_rows_labeledEdge (good : List (Entry α) → Prop) {label : Label α} {target : String}
    (empty : good []) (kept : ∀ entries, good entries → good (addTarget label target entries))
    (source : String) {description : Description α}
    (all : ∀ row ∈ description.rows, good row.entries) :
    ∀ row ∈ (description.labeledEdge source label target).rows, good row.entries :=
  forall_rows_declare good empty target (forall_rows_addEdge good empty kept source all)

theorem Tidy.labeledEdge {description : Description α} (tidy : description.Tidy)
    (source : String) (label : Label α) (target : String) :
    (description.labeledEdge source label target).Tidy where
  names_nodup := by
    rw [names_labeledEdge]
    exact nodup_mention (nodup_mention tidy.names_nodup source) target
  targets_ne_nil :=
    forall_rows_labeledEdge (fun entries => ∀ entry ∈ entries, entry.targets ≠ []) nofun
      (fun _ => targets_ne_nil_of_mem_addTarget) source tidy.targets_ne_nil

omit [DecidableEq α] in
theorem Tidy.state {description : Description α} (tidy : description.Tidy) (name : String) :
    (description.state name).Tidy where
  names_nodup := by
    show ((declare name description.rows).map Row.name).Nodup
    rw [names_declare]
    exact nodup_mention tidy.names_nodup name
  targets_ne_nil :=
    forall_rows_declare (fun entries => ∀ entry ∈ entries, entry.targets ≠ []) nofun name
      tidy.targets_ne_nil

omit [DecidableEq α] in
/-- A tidy description is well-formed if the edges and states that it lists are known. -/
theorem Tidy.wellFormed {description : Description α} (tidy : description.Tidy)
    (symbols : description.alphabet.Nodup)
    (edges : ∀ source label target, Lists description.rows source label target →
      (∀ value, label = .symbol value → value ∈ description.alphabet) ∧
        target ∈ description.names)
    (start : ∀ name ∈ description.start, name ∈ description.names)
    (accept : ∀ name ∈ description.accept, name ∈ description.names) :
    description.WellFormed where
  symbols_nodup := symbols
  names_nodup := tidy.names_nodup
  labels_known := by
    intro row listed entry member
    -- As an entry is not empty, its label belongs to some edge.
    rcases List.exists_mem_of_ne_nil _ (tidy.targets_ne_nil row listed entry member) with
      ⟨name, offered⟩
    exact (edges row.name entry.label name ⟨row, listed, rfl, entry, member, rfl, offered⟩).1
  targets_declared := by
    intro row listed entry member name offered
    exact (edges row.name entry.label name ⟨row, listed, rfl, entry, member, rfl, offered⟩).2
  start_declared := start
  accept_declared := accept

/-- The edges of the automaton are the listed edges, read by the names of their states. -/
theorem Describes.mem_edges_iff_lists {description : Description α} {automaton : Automaton α}
    (describes : description.Describes automaton) (distinct : description.names.Nodup)
    (source : Nat) (label : Label α) (target : Nat) :
    ⟨source, label, target⟩ ∈ automaton.edges ↔
      ∃ name name', automaton.name? source = some name ∧ automaton.name? target = some name' ∧
        Lists description.rows name label name' := by
  rw [describes.mem_edges_iff]
  constructor
  · rintro ⟨row, located, entry, member, labelled, name', offered, named⟩
    refine ⟨row.name, name', ?_, named, row, List.mem_of_getElem? located, rfl, entry, member,
      labelled, offered⟩
    rw [describes.name?_eq, located]
    rfl
  · rintro ⟨_, name', named, named', row, listed, rfl, entry, member, labelled, offered⟩
    rcases List.getElem?_of_mem listed with ⟨index, located⟩
    -- There is only one row with the name of the source.
    have here : index = source := by
      rw [describes.name?_eq, ← List.getElem?_map] at named
      have there : description.names[index]? = some row.name := by
        rw [names, List.getElem?_map, located]
        rfl
      have bound := (List.getElem?_eq_some_iff.1 there).1
      exact (List.getElem?_inj bound distinct).1 (there.trans named.symm)
    exact ⟨row, here ▸ located, entry, member, labelled, name', offered, named'⟩

end WordAutomata.Description
