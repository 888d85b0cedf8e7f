import WordAutomata.Proofs.Description.NormalForm
import WordAutomata.Proofs.Lists

/-!
# Growing a description edge by edge

A description grows by a search for the row of a source and for the entry of a
label, so it depends on the steps where a new target is listed.  If all states
are declared first, and then the edges of an automaton are added in their order,
then every edge finds the row of its source, edges with one label come in a
row, and the result is the description of the automaton in normal form.
-/

namespace WordAutomata

variable {α : Type} [DecidableEq α]

omit [DecidableEq α] in
theorem Alphabet.nodup_labels (alphabet : Alphabet α) : alphabet.labels.Nodup := by
  rw [labels, List.nodup_append]
  refine ⟨alphabet.nodup.map fun _ _ => Label.symbol.inj, List.nodup_singleton _, ?_⟩
  intro label reading last member
  rcases List.mem_map.1 reading with ⟨value, _, rfl⟩
  rw [List.mem_singleton.1 member]
  intro same
  cases same

namespace Description

theorem growAll_append (description : Description α) (first second : List (Step α)) :
    description.growAll (first ++ second) = (description.growAll first).growAll second :=
  List.foldl_append

/-- States that are new and different are declared by empty rows in their order. -/
theorem growAll_states (description : Description α) (states : List String)
    (fresh : (description.names ++ states).Nodup) :
    description.growAll (states.map .state) =
      { description with
        rows := description.rows ++ states.map fun name => ⟨name, []⟩ } := by
  induction states generalizing description with
  | nil => simp [growAll]
  | cons name states inductionHypothesis =>
      have unknown : name ∉ description.rows.map Row.name := by
        intro known
        exact (List.nodup_append.1 fresh).2.2 name known name List.mem_cons_self rfl
      have declared : description.grow (.state name) =
          { description with rows := description.rows ++ [⟨name, []⟩] } := by
        rw [grow, state, declare, if_neg unknown]
      have step : description.growAll (.state name :: states.map .state) =
          (description.grow (.state name)).growAll (states.map .state) := rfl
      rw [List.map_cons, step, declared, inductionHypothesis]
      · simp
      · simpa [names] using fresh

/-! ## The entries of one row -/

theorem addTarget_append {label : Label α} {earlier : List (Entry α)}
    (fresh : label ∉ earlier.map Entry.label) (target : String) (entries : List (Entry α)) :
    addTarget label target (earlier ++ entries) = earlier ++ addTarget label target entries := by
  induction earlier with
  | nil => rfl
  | cons entry earlier inductionHypothesis =>
      rw [List.map_cons, List.mem_cons, not_or] at fresh
      rw [List.cons_append, addTarget, if_neg (Ne.symm fresh.1), inductionHypothesis fresh.2,
        List.cons_append]

/-- Adds edges to a row one by one, each given by its label and its target. -/
def addTargets (entries : List (Entry α)) (edges : List (Label α × String)) : List (Entry α) :=
  edges.foldl (fun current edge => addTarget edge.1 edge.2 current) entries

theorem addTargets_append (entries : List (Entry α)) (first second : List (Label α × String)) :
    addTargets entries (first ++ second) = addTargets (addTargets entries first) second :=
  List.foldl_append

/-- Further targets of the label that was added last go to its entry. -/
theorem addTargets_last {label : Label α} {earlier : List (Entry α)}
    (fresh : label ∉ earlier.map Entry.label) (listed targets : List String) :
    addTargets (earlier ++ [⟨label, listed⟩]) (targets.map (label, ·)) =
      earlier ++ [⟨label, listed ++ targets⟩] := by
  induction targets generalizing listed with
  | nil => simp [addTargets]
  | cons target targets inductionHypothesis =>
      have placed : addTarget label target (earlier ++ [⟨label, listed⟩]) =
          earlier ++ [⟨label, listed ++ [target]⟩] := by
        rw [addTarget_append fresh, addTarget, if_pos rfl]
      have step : addTargets (earlier ++ [⟨label, listed⟩]) ((target :: targets).map (label, ·)) =
          addTargets (addTarget label target (earlier ++ [⟨label, listed⟩]))
            (targets.map (label, ·)) := rfl
      rw [step, placed, inductionHypothesis]
      simp

/-- Targets that come label by label give one entry for each label that has any. -/
theorem addTargets_flatMap (labels : List (Label α)) (targets : Label α → List String)
    (earlier : List (Entry α)) (distinct : (earlier.map Entry.label ++ labels).Nodup) :
    addTargets earlier (labels.flatMap fun label => (targets label).map (label, ·)) =
      earlier ++ labels.filterMap fun label =>
        if (targets label).isEmpty then none else some ⟨label, targets label⟩ := by
  induction labels generalizing earlier with
  | nil => simp [addTargets]
  | cons label labels inductionHypothesis =>
      have fresh : label ∉ earlier.map Entry.label := by
        intro known
        exact (List.nodup_append.1 distinct).2.2 label known label List.mem_cons_self rfl
      rw [List.flatMap_cons, addTargets_append]
      -- A label without targets opens no entry; the first target of any other label does.
      cases listed : targets label with
      | nil =>
          have remaining : (earlier.map Entry.label ++ labels).Nodup :=
            distinct.sublist ((List.sublist_cons_self label labels).append_left _)
          simpa [listed, addTargets] using inductionHypothesis earlier remaining
      | cons target rest =>
          have first : addTargets earlier ((target :: rest).map (label, ·)) =
              earlier ++ [⟨label, target :: rest⟩] := by
            have opened : addTarget label target earlier = earlier ++ [⟨label, [target]⟩] := by
              simpa [addTarget] using addTarget_append fresh target []
            have step : addTargets earlier ((target :: rest).map (label, ·)) =
                addTargets (addTarget label target earlier) (rest.map (label, ·)) := rfl
            rw [step, opened, addTargets_last fresh]
            rfl
          rw [first, inductionHypothesis]
          · simp [listed]
          · simpa using distinct

/-! ## The rows of an automaton -/

/-- An edge changes the row of its source and no other row. -/
theorem addEdge_map {states : List Nat} {nameOf : Nat → String}
    (distinct : (states.map nameOf).Nodup) {source : Nat} (member : source ∈ states)
    (label : Label α) (target : String) (entries : Nat → List (Entry α)) :
    addEdge (nameOf source) label target
        (states.map fun state => ⟨nameOf state, entries state⟩) =
      states.map fun state =>
        ⟨nameOf state, if state = source then addTarget label target (entries state)
          else entries state⟩ := by
  induction states with
  | nil => cases member
  | cons state states inductionHypothesis =>
      rw [List.map_cons, List.nodup_cons] at distinct
      rw [List.map_cons, List.map_cons, addEdge]
      by_cases here : state = source
      · subst here
        rw [if_pos rfl, if_pos rfl]
        congr 1
        apply List.map_congr_left
        intro other later
        have different : other ≠ state := by
          rintro rfl
          exact distinct.1 (List.mem_map_of_mem later)
        rw [if_neg different]
      · have later := (List.mem_cons.1 member).resolve_left (Ne.symm here)
        have different : nameOf state ≠ nameOf source := by
          intro same
          exact distinct.1 (same ▸ List.mem_map_of_mem later)
        rw [if_neg different, if_neg here, inductionHypothesis distinct.2 later]

end Description

namespace Automaton

variable {automaton : Automaton α}

/-- The step that adds an edge by the names of its states. -/
def edgeStep (automaton : Automaton α) (edge : Edge α) : Description.Step α :=
  .edge (automaton.nameOf edge.source) edge.label (automaton.nameOf edge.target)

theorem WellFormed.nodup_map_nameOf_ids (wellFormed : automaton.WellFormed) :
    (automaton.ids.map automaton.nameOf).Nodup := by
  rw [map_nameOf_ids]
  exact wellFormed.names_nodup

/-- Adding edges extends the row of each state by those that leave the state. -/
theorem WellFormed.growAll_edges (wellFormed : automaton.WellFormed)
    (description : Description α) (edges : List (Edge α))
    (within : ∀ edge ∈ edges, edge.source < automaton.size ∧ edge.target < automaton.size)
    (entries : Nat → List (Entry α))
    (rows : description.rows =
      automaton.ids.map fun state => ⟨automaton.nameOf state, entries state⟩) :
    description.growAll (edges.map automaton.edgeStep) =
      { description with
        rows := automaton.ids.map fun state =>
          ⟨automaton.nameOf state, Description.addTargets (entries state)
            ((edges.filter fun edge => edge.source = state).map fun edge =>
              (edge.label, automaton.nameOf edge.target))⟩ } := by
  induction edges generalizing description entries with
  | nil => simp [Description.growAll, Description.addTargets, ← rows]
  | cons edge edges inductionHypothesis =>
      rcases List.forall_mem_cons.1 within with ⟨⟨source, target⟩, later⟩
      have step : description.growAll ((edge :: edges).map automaton.edgeStep) =
          (description.grow (automaton.edgeStep edge)).growAll
            (edges.map automaton.edgeStep) := rfl
      have added : description.grow (automaton.edgeStep edge) =
          { description with
            rows := automaton.ids.map fun state =>
              ⟨automaton.nameOf state, if state = edge.source
                then Description.addTarget edge.label (automaton.nameOf edge.target)
                  (entries state)
                else entries state⟩ } := by
        rw [edgeStep, Description.grow, Description.labeledEdge, rows,
          Description.addEdge_map wellFormed.nodup_map_nameOf_ids (List.mem_range.2 source),
          Description.declare, if_pos]
        rw [List.map_map]
        exact List.mem_map.2 ⟨edge.target, List.mem_range.2 target, rfl⟩
      rw [step, added, inductionHypothesis _ later _ rfl]
      -- The first edge was added to the row of its source, and the others follow it there.
      congr 1
      apply List.map_congr_left
      intro state _
      by_cases here : state = edge.source
      · simp [here, Description.addTargets]
      · simp [here, Ne.symm here]

/-- The edges that leave a state are listed together, label by label. -/
theorem filter_source_edges {state : Nat} (present : state < automaton.size) :
    (automaton.edges.filter fun edge => edge.source = state) =
      automaton.alphabet.labels.flatMap fun label =>
        (automaton.targets state label).members.map fun target => ⟨state, label, target⟩ := by
  rw [edges, List.filter_flatMap,
    ← flatMap_ite_eq List.nodup_range (List.mem_range.2 present)
      (automaton.alphabet.labels.flatMap _)]
  apply List.flatMap_congr
  intro source _
  by_cases here : source = state
  · subst here
    rw [if_pos rfl, List.filter_eq_self]
    intro edge listed
    rcases List.mem_flatMap.1 listed with ⟨label, _, listed⟩
    rcases List.mem_map.1 listed with ⟨target, _, rfl⟩
    simp
  · rw [if_neg here, List.filter_eq_nil_iff]
    intro edge listed
    rcases List.mem_flatMap.1 listed with ⟨label, _, listed⟩
    rcases List.mem_map.1 listed with ⟨target, _, rfl⟩
    simpa using here

/-- The entries of the normal form are those that adding the edges of a state builds. -/
theorem addTargets_source_edges {state : Nat} (present : state < automaton.size) :
    Description.addTargets []
        ((automaton.edges.filter fun edge => edge.source = state).map fun edge =>
          (edge.label, automaton.nameOf edge.target)) =
      automaton.entriesAt state := by
  have grouped : ((automaton.edges.filter fun edge => edge.source = state).map fun edge =>
      (edge.label, automaton.nameOf edge.target)) =
        automaton.alphabet.labels.flatMap fun label =>
          ((automaton.targets state label).members.map automaton.nameOf).map (label, ·) := by
    rw [filter_source_edges present, List.map_flatMap]
    simp only [List.map_map]
    rfl
  rw [grouped, Description.addTargets_flatMap automaton.alphabet.labels _ []
    automaton.alphabet.nodup_labels]
  simp only [List.isEmpty_map]
  rfl

/-- The description that grows when all states are declared and then all edges are added. -/
def grownDescription (automaton : Automaton α) : Description α :=
  ({ alphabet := automaton.alphabet.symbols
     start := automaton.initial.members.map automaton.nameOf
     accept := automaton.accepting.members.map automaton.nameOf } : Description α).growAll
    (automaton.names.map .state ++ automaton.edges.map automaton.edgeStep)

/-- What grows edge by edge is the description in normal form. -/
theorem WellFormed.grownDescription_eq (wellFormed : automaton.WellFormed) :
    automaton.grownDescription = automaton.toDescription := by
  have within : ∀ edge ∈ automaton.edges,
      edge.source < automaton.size ∧ edge.target < automaton.size := fun _ => wellFormed.edge_lt
  rw [grownDescription, Description.growAll_append,
    Description.growAll_states _ _ wellFormed.names_nodup,
    wellFormed.growAll_edges _ _ within fun _ => []]
  · rw [toDescription]
    congr 1
    apply List.map_congr_left
    intro state listed
    rw [addTargets_source_edges (List.mem_range.1 listed)]
    rfl
  · rw [← map_nameOf_ids, List.map_map]
    rfl

end Automaton

end WordAutomata
