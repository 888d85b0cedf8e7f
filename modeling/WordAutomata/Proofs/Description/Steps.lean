import WordAutomata.Proofs.Description.FirstFlaw
import WordAutomata.Proofs.Description.Grown

/-!
# Descriptions that grow step by step

A description that grows by any steps but complete rows stays coherent: its rows
have different names and stand in the order in which their states were first
mentioned, a row has at most one entry for each label, every target has a row,
and the edges that it lists are those of the steps.  So such a description can
only be refused for a repeated symbol, for an unknown symbol on an edge, or for
an initial or accepting state that is mentioned nowhere else.
-/

namespace WordAutomata.Description

variable {α : Type}

namespace Step

/-- Whether the step adds a complete row, with or without another row of the same name. -/
def isRow : Step α → Bool
  | .row _ _ => true
  | _ => false

/-- The states that a step makes sure to have rows, in this order. -/
def mentions : Step α → List String
  | .state name => [name]
  | .row name _ => [name]
  | .edge source _ target => [source, target]
  | .initial _ => []
  | .accepting _ => []

def initials : Step α → List String
  | .initial name => [name]
  | _ => []

def acceptings : Step α → List String
  | .accepting names => names
  | _ => []

end Step

/-- All states that some step makes sure to have rows, each as often as it is mentioned. -/
def mentioned (steps : List (Step α)) : List String :=
  steps.flatMap Step.mentions

def initials (steps : List (Step α)) : List String :=
  steps.flatMap Step.initials

def acceptings (steps : List (Step α)) : List String :=
  steps.flatMap Step.acceptings

theorem mem_mentioned_of_edge {steps : List (Step α)} {source : String} {label : Label α}
    {target : String} (edge : .edge source label target ∈ steps) :
    source ∈ mentioned steps ∧ target ∈ mentioned steps := by
  constructor
  · exact List.mem_flatMap.2 ⟨_, edge, List.mem_cons_self⟩
  · exact List.mem_flatMap.2 ⟨_, edge, List.mem_cons_of_mem _ (List.mem_singleton_self target)⟩

/-- A further mention of a name counts only if it is the first one. -/
theorem eraseDups_append_singleton (names : List String) (name : String) :
    (names ++ [name]).eraseDups = mention name names.eraseDups := by
  rw [List.eraseDups_append]
  by_cases known : name ∈ names
  · rw [mention_of_mem (List.mem_eraseDups.2 known)]
    simp [List.removeAll, known]
  · rw [mention_of_not_mem (mt List.mem_eraseDups.1 known)]
    simp [List.removeAll, known, List.eraseDups_cons]

theorem eraseDups_append_eq_foldl (names more : List String) :
    (names ++ more).eraseDups =
      more.foldl (fun known name => mention name known) names.eraseDups := by
  induction more generalizing names with
  | nil => rw [List.append_nil, List.foldl_nil]
  | cons name more inductionHypothesis =>
      rw [List.append_cons, inductionHypothesis, eraseDups_append_singleton, List.foldl_cons]

/-- The description that grows from an alphabet, without any states, by the given steps. -/
def fromSteps [DecidableEq α] (symbols : List α) (steps : List (Step α)) : Description α :=
  ({ alphabet := symbols } : Description α).growAll steps

/-- The description has grown from an alphabet by steps, none of which adds a complete row. -/
structure GrownBy (symbols : List α) (steps : List (Step α)) (description : Description α) :
    Prop where
  alphabet_eq : description.alphabet = symbols
  start_eq : description.start = initials steps
  accept_eq : description.accept = acceptings steps
  /-- The rows stand in the order of the first mentions. -/
  names_eq : description.names = (mentioned steps).eraseDups
  names_nodup : description.names.Nodup
  labels_nodup : ∀ row ∈ description.rows, (row.entries.map Entry.label).Nodup
  targets_ne_nil : ∀ row ∈ description.rows, ∀ entry ∈ row.entries, entry.targets ≠ []
  lists_iff : ∀ source label target,
    Lists description.rows source label target ↔ .edge source label target ∈ steps

variable {symbols : List α} {steps : List (Step α)} {description : Description α}

theorem GrownBy.tidy (grown : GrownBy symbols steps description) : description.Tidy :=
  ⟨grown.names_nodup, grown.targets_ne_nil⟩

theorem grownBy_nil (symbols : List α) : GrownBy symbols [] { alphabet := symbols } where
  alphabet_eq := rfl
  start_eq := rfl
  accept_eq := rfl
  names_eq := rfl
  names_nodup := List.nodup_nil
  labels_nodup := nofun
  targets_ne_nil := nofun
  lists_iff := by simp [Lists]

/-! ## One more step -/

variable [DecidableEq α]

theorem alphabet_grow (description : Description α) (step : Step α) :
    (description.grow step).alphabet = description.alphabet := by
  cases step <;> rfl

theorem start_grow (description : Description α) (step : Step α) :
    (description.grow step).start = description.start ++ step.initials := by
  cases step with
  | initial name => rfl
  | accepting _ | state _ | row _ _ | edge _ _ _ => exact (List.append_nil _).symm

theorem accept_grow (description : Description α) (step : Step α) :
    (description.grow step).accept = description.accept ++ step.acceptings := by
  cases step with
  | accepting names => rfl
  | initial _ | state _ | row _ _ | edge _ _ _ => exact (List.append_nil _).symm

theorem names_grow (description : Description α) {step : Step α}
    (rowless : step.isRow = false) :
    (description.grow step).names =
      step.mentions.foldl (fun known name => mention name known) description.names := by
  cases step with
  | initial _ | accepting _ => rfl
  | state name => exact names_declare name description.rows
  | row _ _ => cases rowless
  | edge source label target => exact names_labeledEdge description source label target

theorem lists_grow_iff (description : Description α) {step : Step α}
    (rowless : step.isRow = false) (source : String) (label : Label α) (target : String) :
    Lists (description.grow step).rows source label target ↔
      Lists description.rows source label target ∨ .edge source label target = step := by
  cases step with
  | initial _ | accepting _ => exact (or_iff_left nofun).symm
  | state name =>
      rw [or_iff_left nofun]
      exact lists_declare_iff name description.rows source label target
  | row _ _ => cases rowless
  | edge source' label' target' =>
      rw [Step.edge.injEq]
      exact lists_labeledEdge_iff description source' label' target' source label target

theorem Tidy.grow {description : Description α} (tidy : description.Tidy) {step : Step α}
    (rowless : step.isRow = false) :
    (description.grow step).Tidy := by
  cases step with
  | initial _ | accepting _ => exact ⟨tidy.names_nodup, tidy.targets_ne_nil⟩
  | state name => exact tidy.state name
  | row _ _ => cases rowless
  | edge source label target => exact tidy.labeledEdge source label target

theorem mem_labels_addTarget_iff (label : Label α) (target : String) (entries : List (Entry α))
    (label' : Label α) :
    label' ∈ (addTarget label target entries).map Entry.label ↔
      label' ∈ entries.map Entry.label ∨ label' = label := by
  induction entries with
  | nil => simp [addTarget]
  | cons entry rest inductionHypothesis =>
      rw [addTarget]
      split
      · next here =>
          rw [List.map_cons, List.map_cons, List.mem_cons, here, or_right_comm, or_self]
      · rw [List.map_cons, List.mem_cons, inductionHypothesis, List.map_cons, List.mem_cons,
          or_assoc]

/-- A target goes to the entry of its label, so no label gets a second entry. -/
theorem nodup_labels_addTarget (label : Label α) (target : String) {entries : List (Entry α)}
    (distinct : (entries.map Entry.label).Nodup) :
    ((addTarget label target entries).map Entry.label).Nodup := by
  induction entries with
  | nil => exact List.nodup_singleton label
  | cons entry rest inductionHypothesis =>
      rw [addTarget]
      split
      · exact distinct
      · next other =>
          rw [List.map_cons, List.nodup_cons] at distinct ⊢
          rw [mem_labels_addTarget_iff, not_or]
          exact ⟨⟨distinct.1, other⟩, inductionHypothesis distinct.2⟩

theorem nodup_labels_grow {description : Description α} {step : Step α}
    (rowless : step.isRow = false)
    (distinct : ∀ row ∈ description.rows, (row.entries.map Entry.label).Nodup) :
    ∀ row ∈ (description.grow step).rows, (row.entries.map Entry.label).Nodup := by
  cases step with
  | initial _ | accepting _ => exact distinct
  | state name =>
      exact forall_rows_declare (fun entries => (entries.map Entry.label).Nodup) List.nodup_nil
        name distinct
  | row _ _ => cases rowless
  | edge source label target =>
      exact forall_rows_labeledEdge (fun entries => (entries.map Entry.label).Nodup)
        List.nodup_nil (fun _ => nodup_labels_addTarget label target) source distinct

theorem GrownBy.grow (grown : GrownBy symbols steps description) {step : Step α}
    (rowless : step.isRow = false) :
    GrownBy symbols (steps ++ [step]) (description.grow step) where
  alphabet_eq := by
    rw [alphabet_grow, grown.alphabet_eq]
  start_eq := by
    rw [start_grow, grown.start_eq, initials, initials, List.flatMap_append,
      List.flatMap_singleton]
  accept_eq := by
    rw [accept_grow, grown.accept_eq, acceptings, acceptings, List.flatMap_append,
      List.flatMap_singleton]
  names_eq := by
    rw [names_grow description rowless, grown.names_eq, mentioned, mentioned,
      List.flatMap_append, List.flatMap_singleton, eraseDups_append_eq_foldl]
  names_nodup := (grown.tidy.grow rowless).names_nodup
  labels_nodup := nodup_labels_grow rowless grown.labels_nodup
  targets_ne_nil := (grown.tidy.grow rowless).targets_ne_nil
  lists_iff := by
    intro source label target
    rw [lists_grow_iff description rowless, grown.lists_iff, List.mem_append, List.mem_singleton]

theorem fromSteps_append_singleton (symbols : List α) (steps : List (Step α)) (step : Step α) :
    fromSteps symbols (steps ++ [step]) = (fromSteps symbols steps).grow step :=
  List.foldl_append

/-- What grows from an alphabet by any steps but complete rows. -/
theorem grownBy_fromSteps (symbols : List α) (steps : List (Step α))
    (rowless : ∀ step ∈ steps, step.isRow = false) :
    GrownBy symbols steps (fromSteps symbols steps) := by
  induction steps using List.reverseRecOn with
  | nil => exact grownBy_nil symbols
  | append_singleton steps step inductionHypothesis =>
      rw [List.forall_mem_append, List.forall_mem_singleton] at rowless
      rw [fromSteps_append_singleton]
      exact (inductionHypothesis rowless.1).grow rowless.2

/-! ## Flaws -/

omit [DecidableEq α] in
theorem GrownBy.mem_names_iff (grown : GrownBy symbols steps description) (name : String) :
    name ∈ description.names ↔ name ∈ mentioned steps := by
  rw [grown.names_eq, List.mem_eraseDups]

omit [DecidableEq α] in
/-- Every state that an edge mentions has a row. -/
theorem GrownBy.mem_names_of_lists (grown : GrownBy symbols steps description) {source : String}
    {label : Label α} {target : String} (listed : Lists description.rows source label target) :
    source ∈ description.names ∧ target ∈ description.names := by
  rw [grown.mem_names_iff, grown.mem_names_iff]
  exact mem_mentioned_of_edge ((grown.lists_iff source label target).1 listed)

omit [DecidableEq α] in
/-- Whether the description is well-formed depends on the steps and not on their order. -/
theorem GrownBy.wellFormed_iff (grown : GrownBy symbols steps description) :
    description.WellFormed ↔
      symbols.Nodup ∧
        (∀ source value target, .edge source (.symbol value) target ∈ steps → value ∈ symbols) ∧
        (∀ name ∈ initials steps, name ∈ mentioned steps) ∧
        ∀ name ∈ acceptings steps, name ∈ mentioned steps := by
  constructor
  · intro wellFormed
    refine ⟨grown.alphabet_eq ▸ wellFormed.symbols_nodup, ?_, ?_, ?_⟩
    · intro source value target edge
      rcases (grown.lists_iff source (.symbol value) target).2 edge with
        ⟨row, listed, _, entry, member, labelled, _⟩
      rw [← grown.alphabet_eq]
      exact wellFormed.labels_known row listed entry member value labelled
    · intro name given
      rw [← grown.start_eq] at given
      exact (grown.mem_names_iff name).1 (wellFormed.start_declared name given)
    · intro name given
      rw [← grown.accept_eq] at given
      exact (grown.mem_names_iff name).1 (wellFormed.accept_declared name given)
  · rintro ⟨distinct, known, start, accept⟩
    apply grown.tidy.wellFormed
    · exact grown.alphabet_eq.symm ▸ distinct
    · intro source label target listed
      refine ⟨?_, (grown.mem_names_of_lists listed).2⟩
      rintro value rfl
      rw [grown.alphabet_eq]
      exact known source value target ((grown.lists_iff _ _ _).1 listed)
    · intro name given
      rw [grown.start_eq] at given
      exact (grown.mem_names_iff name).2 (start name given)
    · intro name given
      rw [grown.accept_eq] at given
      exact (grown.mem_names_iff name).2 (accept name given)

/-- The flaws that a description can have that has grown by steps without complete rows. -/
inductive StepFlaw (symbols : List α) (steps : List (Step α)) : Malformed α → Prop where
  | symbol {value : α} (repeated : FirstRepeated symbols value) :
      StepFlaw symbols steps (.duplicateSymbol value)
  | label {source target : String} {value : α}
      (edge : .edge source (.symbol value) target ∈ steps) (unknown : value ∉ symbols) :
      StepFlaw symbols steps (.unknownSymbol source value)
  /-- A state is given as initial or accepting only. -/
  | state {name : String} (given : name ∈ initials steps ∨ name ∈ acceptings steps)
      (unmentioned : name ∉ mentioned steps) :
      StepFlaw symbols steps (.danglingState name)

omit [DecidableEq α] in
theorem GrownBy.stepFlaw_of_entryFlaw (grown : GrownBy symbols steps description) {row : Row α}
    (listed : row ∈ description.rows) {entry : Entry α} (member : entry ∈ row.entries)
    {flaw : Malformed α} (flawed : description.EntryFlaw row.name entry flaw) :
    StepFlaw symbols steps flaw := by
  have lists : ∀ name ∈ entry.targets, Lists description.rows row.name entry.label name :=
    fun name offered => ⟨row, listed, rfl, entry, member, rfl, offered⟩
  cases flawed with
  | label labelled unknown =>
      rcases List.exists_mem_of_ne_nil _ (grown.targets_ne_nil row listed entry member) with
        ⟨name, offered⟩
      have edge := (grown.lists_iff _ _ _).1 (lists name offered)
      rw [labelled] at edge
      rw [grown.alphabet_eq] at unknown
      exact .label edge unknown
  | target _ undeclared =>
      exact absurd (grown.mem_names_of_lists (lists _ undeclared.mem)).2 undeclared.holds

/-- Resolving fails for one of these reasons only. -/
theorem GrownBy.stepFlaw_of_resolve (grown : GrownBy symbols steps description)
    {flaw : Malformed α} (failed : description.resolve = .error flaw) :
    StepFlaw symbols steps flaw := by
  cases (description.resolve_eq_error_iff flaw).1 failed with
  | symbol repeated => exact .symbol (grown.alphabet_eq ▸ repeated)
  | row _ repeated => exact absurd grown.names_nodup repeated.not_nodup
  | entry _ _ first within flawed => exact grown.stepFlaw_of_entryFlaw first.mem within.mem flawed
  | start _ _ _ undeclared =>
      have given := undeclared.mem
      rw [grown.start_eq] at given
      exact .state (Or.inl given) (mt (grown.mem_names_iff _).2 undeclared.holds)
  | accept _ _ _ _ undeclared =>
      have given := undeclared.mem
      rw [grown.accept_eq] at given
      exact .state (Or.inr given) (mt (grown.mem_names_iff _).2 undeclared.holds)

end WordAutomata.Description
