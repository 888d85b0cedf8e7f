import WordAutomata.Proofs.Difference
import WordAutomata.Proofs.Lists
import WordAutomata.Proofs.Run.Paths
import WordAutomata.Proofs.Run.Resume
import WordAutomata.Run.Session

/-!
# Sessions and the words that their runners have read

Every runner of a session has a word: the symbols that it could read since it
was added or last reset.  A copy starts with the word of the runner that was
copied.  However the commands of a session are interleaved, a runner is where a
new runner gets to by reading this word, and it answers like a new runner that
reads this word first.
-/

namespace WordAutomata

variable {α σ : Type}

/-- The runner that a command may move; asking, copying and adding move none. -/
def Command.moves? : Command α → Option Nat
  | .step number _ => some number
  | .resume number _ => some number
  | .reset number => some number
  | .outcome _ => none
  | .clone _ => none
  | .new => none

namespace Engine

/-- The symbols of a word that the runner with the given number reads. -/
def consumedBy (engine : Engine α σ) (session : Session σ) (number : Nat) (word : List α) :
    List α :=
  match session[number]? with
  | some runner => engine.consumed runner word
  | none => []

/-- The words that the runners have read once a command has been carried out. -/
def wordsAfter (engine : Engine α σ) (session : Session σ) (words : List (List α)) :
    Command α → List (List α)
  | .step number value => words.modify number (· ++ engine.consumedBy session number [value])
  | .resume number word => words.modify number (· ++ engine.consumedBy session number word)
  | .outcome _ => words
  | .reset number => words.modify number fun _ => []
  | .clone number => words ++ words[number]?.toList
  | .new => words ++ [[]]

/-- The sessions that commands lead to, with the words that the runners have read. -/
inductive History (engine : Engine α σ) : Session σ → List (List α) → Prop where
  | opened : History engine engine.openSession [[]]
  | performed {session next : Session σ} {words : List (List α)} {command : Command α}
      {response : Response α σ} (past : History engine session words)
      (answered : engine.perform? session command = some (next, response)) :
      History engine next (engine.wordsAfter session words command)

/-! ## Replies -/

theorem runner_resumeReply (engine : Engine α σ) (runner : Runner σ) (word : List α) :
    (engine.resumeReply runner word).runner = (engine.advance runner word).1 := by
  unfold resumeReply
  rcases engine.advance runner word with ⟨next, _ | failure⟩ <;> rfl

theorem runner_stepReply (engine : Engine α σ) (runner : Runner σ) (value : α) :
    (engine.stepReply runner value).runner = (engine.advance runner [value]).1 := by
  simp only [stepReply, advance]
  cases engine.step runner value <;> rfl

theorem reply_resumeReply_eq_outcome_iff (engine : Engine α σ) (runner : Runner σ)
    (word : List α) (outcome : Outcome σ) :
    (engine.resumeReply runner word).reply = .outcome outcome ↔
      engine.resume runner word = .ok outcome := by
  unfold resumeReply resume
  rcases engine.advance runner word with ⟨next, _ | failure⟩ <;> simp

theorem reply_resumeReply_eq_failed_iff (engine : Engine α σ) (runner : Runner σ)
    (word : List α) (failure : RunError α) :
    (engine.resumeReply runner word).reply = .failed failure ↔
      engine.resume runner word = .error failure := by
  unfold resumeReply resume
  rcases engine.advance runner word with ⟨next, _ | failure⟩ <;> simp

theorem reply_stepReply_eq_moved_iff (engine : Engine α σ) (runner : Runner σ) (value : α)
    (reached : σ) :
    (engine.stepReply runner value).reply = .moved reached ↔
      ∃ outcome, engine.resume runner [value] = .ok outcome ∧ outcome.reached = reached := by
  simp only [stepReply, resume, advance]
  cases engine.step runner value <;> simp [outcome]

theorem reply_stepReply_eq_failed_iff (engine : Engine α σ) (runner : Runner σ) (value : α)
    (failure : RunError α) :
    (engine.stepReply runner value).reply = .failed failure ↔
      engine.resume runner [value] = .error failure := by
  simp only [stepReply, resume, advance]
  cases engine.step runner value <;> simp

theorem handle_eq_some_iff (session next : Session σ) (number : Nat)
    (respond : Runner σ → Response α σ) (response : Response α σ) :
    handle session number respond = some (next, response) ↔
      ∃ runner, session[number]? = some runner ∧ response = respond runner ∧
        next = session.set number (respond runner).runner := by
  simp only [handle, Option.map_eq_some_iff, Prod.mk.injEq]
  constructor
  · rintro ⟨runner, present, rfl, rfl⟩
    exact ⟨runner, present, rfl, rfl⟩
  · rintro ⟨runner, present, rfl, rfl⟩
    exact ⟨runner, present, rfl, rfl⟩

/-! ## Commands that leave a runner alone -/

theorem set_of_getElem? {session : Session σ} {number : Nat} {runner : Runner σ}
    (present : session[number]? = some runner) :
    session.set number runner = session := by
  rcases List.getElem?_eq_some_iff.1 present with ⟨inside, rfl⟩
  exact List.set_getElem_self inside

/-- A command leaves the runners alone that it does not move. -/
theorem getElem?_of_perform? {engine : Engine α σ} {session next : Session σ}
    {command : Command α} {response : Response α σ} {number : Nat} {runner : Runner σ}
    (answered : engine.perform? session command = some (next, response))
    (unmoved : command.moves? ≠ some number) (present : session[number]? = some runner) :
    next[number]? = some runner := by
  have replaced (other : Nat) (last : Runner σ) (apart : some other ≠ some number) :
      (session.set other last)[number]? = some runner := by
    rw [List.getElem?_set_ne (fun same => apart (congrArg some same))]
    exact present
  cases command with
  | step other value =>
      rcases (handle_eq_some_iff _ _ _ _ _).1 answered with ⟨_, _, _, rfl⟩
      exact replaced other _ unmoved
  | resume other word =>
      rcases (handle_eq_some_iff _ _ _ _ _).1 answered with ⟨_, _, _, rfl⟩
      exact replaced other _ unmoved
  | reset other =>
      rcases (handle_eq_some_iff _ _ _ _ _).1 answered with ⟨_, _, _, rfl⟩
      exact replaced other _ unmoved
  | outcome other =>
      rcases (handle_eq_some_iff _ _ _ _ _).1 answered with ⟨asked, found, _, rfl⟩
      rw [set_of_getElem? found]
      exact present
  | clone other =>
      rcases Option.map_eq_some_iff.1 answered with ⟨original, _, equal⟩
      cases equal
      exact getElem?_append_of_eq_some present [original]
  | new =>
      cases answered
      exact getElem?_append_of_eq_some present [engine.fresh]

/-- A command leaves the words of the runners alone that it does not move. -/
theorem getElem?_wordsAfter (engine : Engine α σ) (session : Session σ)
    {words : List (List α)} {command : Command α} {number : Nat} {word : List α}
    (unmoved : command.moves? ≠ some number) (present : words[number]? = some word) :
    (engine.wordsAfter session words command)[number]? = some word := by
  have modified (other : Nat) (change : List α → List α) (apart : some other ≠ some number) :
      (words.modify other change)[number]? = some word := by
    rw [List.getElem?_modify_ne _ _ (fun same => apart (congrArg some same))]
    exact present
  cases command with
  | step other value => exact modified other _ unmoved
  | resume other rest => exact modified other _ unmoved
  | reset other => exact modified other _ unmoved
  | outcome other => exact present
  | clone other => exact getElem?_append_of_eq_some present _
  | new => exact getElem?_append_of_eq_some present _

/-! ## Every runner stands behind its word -/

/-- Every runner is where a new runner gets to by reading the word of the runner. -/
structure Tracks (engine : Engine α σ) (session : Session σ) (words : List (List α)) : Prop where
  length_eq : words.length = session.length
  standing : ∀ (number : Nat) (runner : Runner σ) (word : List α),
    session[number]? = some runner → words[number]? = some word →
      engine.advance engine.fresh word = (runner, none)

section Tracking

variable {engine : Engine α σ} {session : Session σ} {words : List (List α)}

theorem tracks_openSession (engine : Engine α σ) : engine.Tracks engine.openSession [[]] where
  length_eq := rfl
  standing := by
    intro number runner word present recorded
    cases number with
    | zero =>
        cases present
        cases recorded
        rfl
    | succ number => cases present

theorem Tracks.exists_word (tracks : engine.Tracks session words) {number : Nat}
    {runner : Runner σ} (present : session[number]? = some runner) :
    ∃ word, words[number]? = some word ∧ engine.advance engine.fresh word = (runner, none) := by
  have inside : number < words.length := by
    rw [tracks.length_eq]
    exact (List.getElem?_eq_some_iff.1 present).1
  have recorded := List.getElem?_eq_getElem inside
  exact ⟨words[number], recorded, tracks.standing number runner _ present recorded⟩

theorem Tracks.add (tracks : engine.Tracks session words) {runner : Runner σ} {word : List α}
    (standing : engine.advance engine.fresh word = (runner, none)) :
    engine.Tracks (session ++ [runner]) (words ++ [word]) where
  length_eq := by
    rw [List.length_append, List.length_append, tracks.length_eq]
    rfl
  standing := by
    intro number other record present recorded
    rcases Nat.lt_trichotomy number session.length with before | rfl | behind
    · rw [List.getElem?_append_left before] at present
      rw [List.getElem?_append_left (tracks.length_eq ▸ before)] at recorded
      exact tracks.standing number other record present recorded
    · rw [List.getElem?_concat_length] at present
      rw [← tracks.length_eq, List.getElem?_concat_length] at recorded
      cases present
      cases recorded
      exact standing
    · have outside : (session ++ [runner]).length ≤ number := by
        rw [List.length_append]
        exact behind
      rw [List.getElem?_eq_none outside] at present
      cases present

theorem Tracks.move (tracks : engine.Tracks session words) {number : Nat} {next : Runner σ}
    {change : List α → List α}
    (moved : ∀ word, words[number]? = some word →
      engine.advance engine.fresh (change word) = (next, none)) :
    engine.Tracks (session.set number next) (words.modify number change) where
  length_eq := by
    rw [List.length_modify, List.length_set]
    exact tracks.length_eq
  standing := by
    intro other runner record present recorded
    by_cases same : number = other
    · subst same
      rw [List.getElem?_modify_eq] at recorded
      rcases Option.map_eq_some_iff.1 recorded with ⟨word, former, rfl⟩
      rw [List.getElem?_set_self'] at present
      rcases Option.map_eq_some_iff.1 present with ⟨_, _, rfl⟩
      exact moved word former
    · rw [List.getElem?_set_ne same] at present
      rw [List.getElem?_modify_ne _ _ same] at recorded
      exact tracks.standing other runner record present recorded

/-- One command keeps every runner behind its word. -/
theorem Tracks.perform? {next : Session σ} {command : Command α} {response : Response α σ}
    (tracks : engine.Tracks session words)
    (answered : engine.perform? session command = some (next, response)) :
    engine.Tracks next (engine.wordsAfter session words command) := by
  -- The word of the runner grows by what the runner consumes, also if the command fails.
  cases command with
  | step number value =>
      rcases (handle_eq_some_iff _ _ _ _ _).1 answered with ⟨runner, present, _, rfl⟩
      apply tracks.move
      intro word recorded
      simp only [consumedBy, present, runner_stepReply]
      exact advance_append_consumed (tracks.standing number runner word present recorded) [value]
  | resume number rest =>
      rcases (handle_eq_some_iff _ _ _ _ _).1 answered with ⟨runner, present, _, rfl⟩
      apply tracks.move
      intro word recorded
      simp only [consumedBy, present, runner_resumeReply]
      exact advance_append_consumed (tracks.standing number runner word present recorded) rest
  | outcome number =>
      rcases (handle_eq_some_iff _ _ _ _ _).1 answered with ⟨runner, present, _, rfl⟩
      rw [set_of_getElem? present]
      exact tracks
  | reset number =>
      rcases (handle_eq_some_iff _ _ _ _ _).1 answered with ⟨runner, _, _, rfl⟩
      apply tracks.move
      intro word _
      rfl
  | clone number =>
      rcases Option.map_eq_some_iff.1 answered with ⟨runner, present, equal⟩
      cases equal
      -- The copy stands behind the word of its original.
      rcases tracks.exists_word present with ⟨word, recorded, standing⟩
      show engine.Tracks (session ++ [runner]) (words ++ words[number]?.toList)
      rw [recorded]
      exact tracks.add standing
  | new =>
      cases answered
      exact tracks.add rfl

theorem History.tracks (history : engine.History session words) :
    engine.Tracks session words := by
  induction history with
  | opened => exact engine.tracks_openSession
  | performed _ answered inductionHypothesis => exact inductionHypothesis.perform? answered

end Tracking

/-! ## The law of a runner -/

/--
The numbered runner of a session behaves like a new runner that has read the
word, and no command that concerns another runner changes this.
-/
structure Continues (engine : Engine α σ) (session : Session σ) (words : List (List α))
    (number : Nat) (runner : Runner σ) (word : List α) : Prop where
  run_eq : engine.run word = .ok (engine.outcome runner)
  stepCount_eq : runner.stepCount = word.length
  resumes : ∀ rest, ∃ response read,
    engine.perform? session (.resume number rest) =
        some (session.set number response.runner, response) ∧
      (∀ outcome, response.reply = .outcome outcome ↔ engine.run (word ++ rest) = .ok outcome) ∧
      (∀ failure, response.reply = .failed failure ↔
        engine.run (word ++ rest) = .error failure) ∧
      engine.IsLongestReading word rest read response.runner
  steps : ∀ value, ∃ response read,
    engine.perform? session (.step number value) =
        some (session.set number response.runner, response) ∧
      (∀ reached, response.reply = .moved reached ↔
        ∃ outcome, engine.run (word ++ [value]) = .ok outcome ∧ outcome.reached = reached) ∧
      (∀ failure, response.reply = .failed failure ↔
        engine.run (word ++ [value]) = .error failure) ∧
      engine.IsLongestReading word [value] read response.runner
  untouched : ∀ command next response, command.moves? ≠ some number →
    engine.perform? session command = some (next, response) →
      next[number]? = some runner ∧ (engine.wordsAfter session words command)[number]? = some word

theorem Tracks.continues {engine : Engine α σ} {session : Session σ} {words : List (List α)}
    (tracks : engine.Tracks session words) {number : Nat} {runner : Runner σ} {word : List α}
    (present : session[number]? = some runner) (recorded : words[number]? = some word) :
    engine.Continues session words number runner word := by
  have standing := tracks.standing number runner word present recorded
  constructor
  case run_eq => exact run_of_standing standing
  case stepCount_eq => exact (readsTo_of_advance standing).1
  case resumes =>
    intro rest
    refine ⟨engine.resumeReply runner rest, engine.consumed runner rest, ?_, ?_, ?_, ?_⟩
    · exact (handle_eq_some_iff _ _ _ _ _).2 ⟨runner, present, rfl, rfl⟩
    · intro outcome
      rw [run_append standing]
      exact engine.reply_resumeReply_eq_outcome_iff runner rest outcome
    · intro failure
      rw [run_append standing]
      exact engine.reply_resumeReply_eq_failed_iff runner rest failure
    · rw [runner_resumeReply]
      exact isLongestReading_consumed standing rest
  case steps =>
    intro value
    refine ⟨engine.stepReply runner value, engine.consumed runner [value], ?_, ?_, ?_, ?_⟩
    · exact (handle_eq_some_iff _ _ _ _ _).2 ⟨runner, present, rfl, rfl⟩
    · intro reached
      rw [run_append standing]
      exact engine.reply_stepReply_eq_moved_iff runner value reached
    · intro failure
      rw [run_append standing]
      exact engine.reply_stepReply_eq_failed_iff runner value failure
    · rw [runner_stepReply]
      exact isLongestReading_consumed standing [value]
  case untouched =>
    intro command next response unmoved answered
    exact ⟨getElem?_of_perform? answered unmoved present,
      engine.getElem?_wordsAfter session unmoved recorded⟩

end Engine

/--
After any commands of a session, every runner continues the word that it has
read.  A deterministic runner fails with an unknown symbol as such, even where
there is no successor either, and with a missing successor otherwise; positions
are counted from the start of its word.
-/
theorem runners_continue_their_words [DecidableEq α] :
    (∀ (dfa : Dfa α) (session : Session Nat) (words : List (List α)),
      dfa.engine.History session words →
        words.length = session.length ∧
        ∀ (number : Nat) (runner : Runner Nat) (word : List α),
          session[number]? = some runner → words[number]? = some word →
            dfa.engine.Continues session words number runner word ∧
            ∀ rest failure, dfa.run (word ++ rest) = .error failure →
              ∃ read value behind outcome, rest = read ++ value :: behind ∧
                dfa.run (word ++ read) = .ok outcome ∧
                dfa.successor? outcome.reached value = none ∧
                failure =
                  if value ∈ dfa.automaton.alphabet.symbols then
                    .undefinedTransition (dfa.automaton.nameOf outcome.reached) value
                      (word.length + read.length)
                  else
                    .symbolNotInAlphabet value (word.length + read.length)) ∧
      (∀ (automaton : Automaton α) (session : Session StateSet) (words : List (List α)),
        automaton.engine.History session words →
          words.length = session.length ∧
          ∀ (number : Nat) (runner : Runner StateSet) (word : List α),
            session[number]? = some runner → words[number]? = some word →
              automaton.engine.Continues session words number runner word) := by
  constructor
  · intro dfa session words history
    have tracks := history.tracks
    refine ⟨tracks.length_eq, ?_⟩
    intro number runner word present recorded
    refine ⟨tracks.continues present recorded, ?_⟩
    intro rest failure failed
    exact Dfa.exists_firstUnread (tracks.standing number runner word present recorded) failed
  · intro automaton session words history
    have tracks := history.tracks
    refine ⟨tracks.length_eq, ?_⟩
    intro number runner word present recorded
    exact tracks.continues present recorded

/-- A copy outlives a failure and a reset, and a runner without active states still fails late. -/
theorem runners_continue_their_words_undoable :
    Dfa.undoable.engine.Continues [⟨0, 0⟩, ⟨1, 3⟩] [[], ['a', 'b', 'a']] 1 ⟨1, 3⟩ ['a', 'b', 'a'] ∧
      Automaton.silentCycle.engine.Continues [⟨∅, 2⟩] [['b', 'a']] 0 ⟨∅, 2⟩ ['b', 'a'] := by
  have failed : Dfa.undoable.engine.perform? [⟨0, 0⟩] (.resume 0 ['a', 'b', 'b']) =
      some ([⟨0, 2⟩], ⟨.failed (.undefinedTransition "p" 'b' 2), ⟨0, 2⟩⟩) := by rfl
  have copied : Dfa.undoable.engine.perform? [⟨0, 2⟩] (.clone 0) =
      some ([⟨0, 2⟩, ⟨0, 2⟩], ⟨.done, ⟨0, 2⟩⟩) := by rfl
  have stepped : Dfa.undoable.engine.perform? [⟨0, 2⟩, ⟨0, 2⟩] (.step 1 'a') =
      some ([⟨0, 2⟩, ⟨1, 3⟩], ⟨.moved 1, ⟨1, 3⟩⟩) := by rfl
  have reset : Dfa.undoable.engine.perform? [⟨0, 2⟩, ⟨1, 3⟩] (.reset 0) =
      some ([⟨0, 0⟩, ⟨1, 3⟩], ⟨.done, ⟨0, 0⟩⟩) := by rfl
  have history := (((Engine.History.opened.performed failed).performed copied).performed
    stepped).performed reset
  have continues :=
    (runners_continue_their_words.1 _ _ _ history).2 1 ⟨1, 3⟩ ['a', 'b', 'a'] rfl rfl
  have unknown : Automaton.silentCycle.engine.perform? Automaton.silentCycle.engine.openSession
      (.resume 0 ['b', 'a', 'x']) =
      some ([⟨∅, 2⟩], ⟨.failed (.symbolNotInAlphabet 'x' 2), ⟨∅, 2⟩⟩) := by rfl
  have emptied := Engine.History.opened.performed unknown
  exact ⟨continues.1, (runners_continue_their_words.2 _ _ _ emptied).2 0 _ _ rfl rfl⟩

end WordAutomata
