import PatchLoop.Lib.Numbered
import PatchLoop.Store.Calls
import PatchLoop.Store.MigrationSpec

/-!
# Submitted turns

The turns of a session form a numbered log, and a client submission id names one of them. While the
session is open a repeated submission is answered from the log, whatever happened since the turn was
committed; once the session is closed `append_turn` refuses every submission, repeated or not.
-/

namespace PatchLoop

open Transaction

/-- The turns of a session, oldest first. -/
def Store.turnsOf (s : Store) (sessionId : String) : List Turn :=
  s.turns.rows.filter fun turn => turn.sessionId = sessionId

/-- The two turns are submissions to one session under one client submission id. -/
def Turn.SharesSubmission (turn other : Turn) : Prop :=
  turn.sessionId = other.sessionId ∧ turn.clientSubmissionId = other.clientSubmissionId
    ∧ turn.clientSubmissionId ≠ none

/-- What holds of the turns of every reachable database. -/
structure Store.Submitted (s : Store) : Prop where
  numbered : ∀ sessionId, Numbered Turn.sequence (s.turnsOf sessionId)
  unique : ∀ turn ∈ s.turns.rows, ∀ other ∈ s.turns.rows, turn.SharesSubmission other → turn = other

section Log

variable {s : Store} {turn existing : Turn}

theorem lastTurnSequence_eq (hsubmitted : s.Submitted) (sessionId : String) :
    s.lastTurnSequence sessionId = (s.turnsOf sessionId).length :=
  (hsubmitted.numbered sessionId).foldr_max

theorem turnBySubmission_eq_none (hnone : s.turnBySubmission turn = none) :
    ∀ row ∈ s.turns.rows, ¬ row.SharesSubmission turn := by
  rintro row hrow ⟨hsession, hsubmission, hsome⟩
  obtain ⟨submission, hrequested⟩ := Option.ne_none_iff_exists'.mp hsome
  rw [hrequested] at hsubmission
  rw [Store.turnBySubmission, ← hsubmission, Option.bind_some, List.find?_eq_none] at hnone
  exact hnone row hrow (by simp [hsession, hrequested])

/-- The lookup of a submission finds the turn that has its id. -/
theorem turnBySubmission_of_mem (hsubmitted : s.Submitted) (hmem : existing ∈ s.turns.rows)
    (hshares : existing.SharesSubmission turn) : s.turnBySubmission turn = some existing := by
  cases hfound : s.turnBySubmission turn with
  | none => exact absurd hshares (turnBySubmission_eq_none hfound existing hmem)
  | some row =>
      obtain ⟨submission, hsubmission, hrow⟩ := Option.bind_eq_some_iff.mp hfound
      have hmatches := List.find?_some hrow
      simp only [decide_eq_true_eq] at hmatches
      obtain ⟨hsession, hid, hsome⟩ := hshares
      refine congrArg some (hsubmitted.unique row (List.mem_of_find?_eq_some hrow) existing hmem ?_)
      refine ⟨hmatches.1.trans hsession.symm, ?_, ?_⟩
      · rw [hmatches.2, hid, hsubmission]
      · rw [hmatches.2]
        simp

theorem Store.Submitted.of_turns {s' : Store} (hsubmitted : s.Submitted)
    (hturns : s'.turns = s.turns) : s'.Submitted := by
  refine ⟨fun sessionId => ?_, ?_⟩
  · rw [Store.turnsOf, hturns]
    exact hsubmitted.numbered sessionId
  · rw [hturns]
    exact hsubmitted.unique

/-- A turn with the next number, whose submission id is new, keeps the log in order. -/
theorem Store.Submitted.addTurn (hsubmitted : s.Submitted) (hfresh : s.turns.get? turn.id = none)
    (hsequence : turn.sequence = s.lastTurnSequence turn.sessionId + 1)
    (hnew : ∀ row ∈ s.turns.rows, ¬ row.SharesSubmission turn) : (s.addTurn turn).Submitted := by
  have hrows : (s.addTurn turn).turns.rows = s.turns.rows ++ [turn] := Table.rows_insert hfresh
  constructor
  · intro sessionId
    unfold Store.turnsOf
    rw [hrows, List.filter_append]
    by_cases hsession : turn.sessionId = sessionId
    · have hfilter : ([turn].filter fun row => row.sessionId = sessionId) = [turn] := by
        simp [hsession]
      rw [hfilter]
      refine (hsubmitted.numbered sessionId).append ?_
      rw [hsequence, hsession, lastTurnSequence_eq hsubmitted]
    · have hfilter : ([turn].filter fun row => row.sessionId = sessionId) = [] := by
        simp [hsession]
      rw [hfilter, List.append_nil]
      exact hsubmitted.numbered sessionId
  · intro first hfirst second hsecond hshares
    rw [hrows, List.mem_append, List.mem_singleton] at hfirst hsecond
    rcases hfirst with hfirst | rfl
    · rcases hsecond with hsecond | rfl
      · exact hsubmitted.unique first hfirst second hsecond hshares
      · exact absurd hshares (hnew first hfirst)
    · rcases hsecond with hsecond | rfl
      · obtain ⟨hsession, hid, hsome⟩ := hshares
        exact absurd ⟨hsession.symm, hid.symm, hid ▸ hsome⟩ (hnew second hsecond)
      · rfl

end Log

section Steps

variable [Sha256] {s s' : Store} {now : Timestamp} {op : Op}

/-- An operation leaves the turns alone, or adds the turn of a new submission. -/
theorem turns_of_returns (hreturns : (exec now op).Returns s () s') :
    s'.turns = s.turns ∨ ∃ turn, s'.turns = (s.addTurn turn).turns ∧ s.turns.get? turn.id = none
      ∧ turn.sequence = s.lastTurnSequence turn.sessionId + 1
      ∧ ∀ row ∈ s.turns.rows, ¬ row.SharesSubmission turn := by
  by_cases hwrites : op.writes.contains .turns = false
  · exact Or.inl (exec_agrees hreturns .turns hwrites)
  · cases op with
    | appendTurn turn version =>
        obtain ⟨result, hreturns⟩ := discard_returns.mp hreturns
        obtain ⟨-, -, rfl⟩ | ⟨session, -, -, hnone, hfresh, -, -, entry, rfl⟩ := appendTurn_returns hreturns
        · exact Or.inl rfl
        · exact Or.inr ⟨s.assignedTurn session turn, rfl, hfresh, rfl, turnBySubmission_eq_none hnone⟩
    | _ => exact absurd rfl hwrites

/-- A call keeps the turns in order and loses none. -/
theorem turns_callStep (s : Store) (call : Call) (hsubmitted : s.Submitted) :
    (callStep s call).Submitted ∧ s.turns.rows ⊆ (callStep s call).turns.rows := by
  obtain hsame | hreturns := callStep_cases s call
  · rw [hsame]
    exact ⟨hsubmitted, List.Subset.refl _⟩
  · generalize callStep s call = s' at hreturns ⊢
    cases call with
    | op timed =>
        obtain hturns | ⟨turn, hturns, hfresh, hsequence, hnew⟩ :=
          turns_of_returns (callOp_returns.mp hreturns).1
        · exact ⟨hsubmitted.of_turns hturns, by rw [hturns]; exact List.Subset.refl _⟩
        · refine ⟨(hsubmitted.addTurn hfresh hsequence hnew).of_turns hturns, ?_⟩
          rw [hturns, Store.addTurn_turns, Table.rows_insert hfresh]
          exact List.subset_append_left _ _
    | saveTask now task guard =>
        obtain ⟨-, -, rfl⟩ := saveTask_returns.mp hreturns
        exact ⟨hsubmitted.of_turns rfl, List.Subset.refl _⟩
    | deleteTask taskId =>
        obtain ⟨-, rfl⟩ := deleteTask_returns hreturns
        exact ⟨hsubmitted.of_turns rfl, List.Subset.refl _⟩

theorem submitted_run (history : List Call) (hsubmitted : s.Submitted) :
    (runCalls s history).Submitted :=
  Run.preserved_after Store.Submitted (fun s call h => (turns_callStep s call h).1) history hsubmitted

/-- A committed turn stays. -/
theorem turn_stays (history : List Call) (hsubmitted : s.Submitted) {turn : Turn}
    (hmem : turn ∈ s.turns.rows) : turn ∈ (runCalls s history).turns.rows := by
  have hinv := Run.preserved_after (fun s => s.Submitted ∧ turn ∈ s.turns.rows)
    (fun s call hinv => ⟨(turns_callStep s call hinv.1).1, (turns_callStep s call hinv.1).2 hinv.2⟩)
    history ⟨hsubmitted, hmem⟩
  exact hinv.2

theorem submitted_initial (hinitial : s.Initial) : s.Submitted := by
  have hturns : s.turns.rows = [] := by rw [initial_turns hinitial]; rfl
  refine ⟨fun sessionId => ?_, ?_⟩
  · rw [Store.turnsOf, hturns]
    exact Numbered.nil
  · rw [hturns]
    intro turn hmem
    cases hmem

/-! ### Repeated submissions -/

/-- The session is there and not closed. -/
def Store.OpenSession (s : Store) (sessionId : String) : Prop :=
  ∃ session, s.sessions.get? sessionId = some session ∧ session.status ≠ .closed

/-- The same submission once more. -/
structure Turn.Repeats (requested turn : Turn) : Prop where
  shares : turn.SharesSubmission requested
  role : requested.role = turn.role
  content : requested.content = turn.content
  resourceRefs : requested.resourceRefs = turn.resourceRefs
  taskId : requested.taskId = turn.taskId

variable {turn existing requested : Turn} {version : Option Nat}

/-- A submission whose id is taken returns the turn that has it, if that is the same submission and the
session is open. -/
theorem appendTurn_taken (hsubmitted : s.Submitted) (hmem : existing ∈ s.turns.rows)
    (hshares : existing.SharesSubmission requested) {result : Turn} :
    (appendTurn now requested version).Returns s result s'
      ↔ s.OpenSession requested.sessionId ∧ existing.SameSubmission requested
        ∧ result = existing ∧ s' = s := by
  have hfound := turnBySubmission_of_mem hsubmitted hmem hshares
  simp only [appendTurn, bind_returns, requireSession_returns, raiseIf_returns, query_returns,
    existsAndEq, exists_const, true_and, and_assoc, hfound, pure_returns, not_not]
  constructor
  · rintro ⟨session, hsession, hopen, hsame, rfl, rfl⟩
    exact ⟨⟨session, hsession, hopen⟩, hsame, rfl, rfl⟩
  · rintro ⟨⟨session, hsession, hopen⟩, hsame, rfl, rfl⟩
    exact ⟨session, hsession, hopen, hsame, rfl, rfl⟩

/-- Whether it is answered or refused, a submission whose id is taken changes nothing. -/
theorem callStep_taken (hsubmitted : s.Submitted) (hmem : existing ∈ s.turns.rows)
    (hshares : existing.SharesSubmission requested) :
    callStep s (.op ⟨now, .appendTurn requested version⟩) = s := by
  obtain hsame | hreturns := callStep_cases s (.op ⟨now, .appendTurn requested version⟩)
  · exact hsame
  · obtain ⟨result, hreturns⟩ := discard_returns.mp (callOp_returns.mp hreturns).1
    exact ((appendTurn_taken hsubmitted hmem hshares).mp hreturns).2.2.2

/-- An accepted submission has its turn in the log. -/
theorem appendTurn_committed {result : Turn} (hsubmission : turn.clientSubmissionId ≠ none)
    (hreturns : (appendTurn now turn version).Returns s result s') :
    result ∈ s'.turns.rows ∧ result.SharesSubmission turn ∧ result.SameSubmission turn := by
  obtain ⟨hfound, hsame, rfl⟩ | ⟨session, -, -, hnone, hfresh, -, rfl, entry, rfl⟩ :=
    appendTurn_returns hreturns
  · obtain ⟨submission, hid, hrow⟩ := Option.bind_eq_some_iff.mp hfound
    have hmatches := List.find?_some hrow
    simp only [decide_eq_true_eq] at hmatches
    have hshared : result.clientSubmissionId = turn.clientSubmissionId := hmatches.2.trans hid.symm
    exact ⟨List.mem_of_find?_eq_some hrow, ⟨hmatches.1, hshared, hshared ▸ hsubmission⟩, hsame⟩
  · refine ⟨?_, ⟨rfl, rfl, hsubmission⟩, rfl, rfl, rfl, ?_⟩
    · have hrows : (s.turns.insert (s.assignedTurn session turn)).rows = _ := Table.rows_insert hfresh
      change s.assignedTurn session turn ∈ (s.turns.insert (s.assignedTurn session turn)).rows
      rw [hrows]
      exact List.mem_append_right _ (List.mem_singleton.mpr rfl)
    · cases htask : turn.taskId with
      | none => exact Or.inl rfl
      | some taskId => exact Or.inr (by simp [Store.assignedTurn, htask])

/-- In every state of every run the turns of a session are numbered from one without gaps, a client
submission id names at most one of them, and a reuse of the id for something else is refused. A repeat
of an accepted submission never changes anything: it returns the committed turn as long as the session
is open, and is refused when it is not. -/
theorem submitted_exactly_once (hinitial : s.Initial) (history : List Call) :
    (∀ sessionId, ((runCalls s history).turnsOf sessionId).map Turn.sequence
        = List.range' 1 ((runCalls s history).turnsOf sessionId).length)
      ∧ (∀ turn ∈ (runCalls s history).turns.rows, ∀ other ∈ (runCalls s history).turns.rows,
        turn.SharesSubmission other → turn = other)
      ∧ (∀ existing ∈ (runCalls s history).turns.rows, ∀ requested now version,
        existing.SharesSubmission requested → ¬ existing.SameSubmission requested →
          (∀ result s', ¬ (appendTurn now requested version).Returns (runCalls s history) result s')
            ∧ callStep (runCalls s history) (.op ⟨now, .appendTurn requested version⟩)
              = runCalls s history)
      ∧ ∀ earlier later now turn version committed,
        history = earlier ++ Call.op ⟨now, .appendTurn turn version⟩ :: later →
        turn.clientSubmissionId ≠ none →
        (appendTurn now turn version).Returns (runCalls s earlier) committed
          (runCalls s (earlier ++ [Call.op ⟨now, .appendTurn turn version⟩])) →
        ∀ (requested : Turn) again expected, requested.Repeats turn →
          callStep (runCalls s history) (.op ⟨again, .appendTurn requested expected⟩)
              = runCalls s history
            ∧ ∀ result s',
              (appendTurn again requested expected).Returns (runCalls s history) result s'
                ↔ (runCalls s history).OpenSession requested.sessionId
                  ∧ result = committed ∧ s' = runCalls s history := by
  have hstart := submitted_initial hinitial
  have hsubmitted := submitted_run history hstart
  refine ⟨hsubmitted.numbered, hsubmitted.unique, ?_, ?_⟩
  · intro existing hmem requested now version hshares hdiffers
    refine ⟨fun result s' hreturns => hdiffers ?_, callStep_taken hsubmitted hmem hshares⟩
    exact ((appendTurn_taken hsubmitted hmem hshares).mp hreturns).2.1
  · rintro earlier later now turn version committed rfl hsubmission hreturns requested again expected
      hrepeats
    obtain ⟨hmem, hshares, hsame⟩ := appendTurn_committed hsubmission hreturns
    -- the committed turn is still there, and it has the id of the repeated submission
    have hstays : committed ∈ (runCalls s
        (earlier ++ Call.op ⟨now, .appendTurn turn version⟩ :: later)).turns.rows := by
      rw [List.append_cons, runCalls_append]
      exact turn_stays later (submitted_run _ hstart) hmem
    have htaken : committed.SharesSubmission requested := by
      obtain ⟨hsession, hid, hsome⟩ := hrepeats.shares
      exact ⟨hshares.1.trans hsession, hshares.2.1.trans hid, hshares.2.2⟩
    have hrepeated : committed.SameSubmission requested := by
      obtain ⟨hrole, hcontent, hrefs, htask⟩ := hsame
      refine ⟨hrole.trans hrepeats.role.symm, hcontent.trans hrepeats.content.symm,
        hrefs.trans hrepeats.resourceRefs.symm, ?_⟩
      rw [hrepeats.taskId]
      exact htask
    refine ⟨callStep_taken hsubmitted hstays htaken, fun result s' => ?_⟩
    rw [appendTurn_taken hsubmitted hstays htaken]
    simp only [hrepeated, true_and]

end Steps

section Samples

local instance submissionsDigest : Sha256 := Sample.digest

/-- A constraint that a client submits under an id of its own. -/
def Sample.constraint : Turn where
  id := "t1"
  sessionId := "s"
  role := .user
  content := "keep the public API"
  clientSubmissionId := some "constraint-001"

/-- The submission of the constraint, at this time. -/
def Sample.submission (now : Timestamp) : Call := .op ⟨now, .appendTurn Sample.constraint none⟩

/-- A session to which the constraint is submitted at time one. -/
def Sample.submitted : List Call :=
  [.op ⟨0, .createSession (Sample.session "s")⟩, Sample.submission 1]

/-- The submission is accepted; a repeat that arrives after the session was closed is refused. -/
theorem repeat_after_close_refused :
    ((appendTurn 1 Sample.constraint none).run (runCalls {} (Sample.submitted.take 1))).isOk = true
      ∧ ((appendTurn 3 Sample.constraint none).run
          (runCalls {} (Sample.submitted ++ [.op ⟨2, .closeSession "s" 2⟩]))).isOk = false := by
  decide +kernel

/-- A repeat in the open session returns the committed turn. -/
theorem submitted_exactly_once_constraint :
    ∃ committed, (appendTurn 5 Sample.constraint (some 1)).Returns (runCalls {} Sample.submitted)
      committed (runCalls {} Sample.submitted) := by
  have haccepted : ((appendTurn 1 Sample.constraint none).run
      (runCalls {} (Sample.submitted.take 1))).isOk = true := by decide +kernel
  obtain ⟨committed, hreturns⟩ := isOk_iff.mp haccepted
  have hreferences : ((appendTurn 1 Sample.constraint none).commit
      (runCalls {} (Sample.submitted.take 1))).ReferencesTasks
        (runCalls {} (Sample.submitted.take 1)) := by decide +kernel
  have hcall : (Sample.submission 1).exec.Returns (runCalls {} (Sample.submitted.take 1)) ()
      ((appendTurn 1 Sample.constraint none).commit (runCalls {} (Sample.submitted.take 1))) :=
    callOp_returns.mpr ⟨discard_returns.mpr ⟨committed, hreturns⟩, hreferences⟩
  have hafter : runCalls {} Sample.submitted = _ := commit_of_returns hcall
  rw [← hafter] at hreturns
  obtain ⟨-, -, -, hrepeat⟩ := submitted_exactly_once (Or.inl rfl) Sample.submitted
  have hanswers := (hrepeat (Sample.submitted.take 1) [] 1 Sample.constraint none committed rfl
    (by decide) hreturns Sample.constraint 5 (some 1)
    ⟨⟨rfl, rfl, by decide⟩, rfl, rfl, rfl, rfl⟩).2
  have hanswered : ((appendTurn 5 Sample.constraint (some 1)).run
      (runCalls {} Sample.submitted)).isOk = true := by decide +kernel
  obtain ⟨result, hresult⟩ := isOk_iff.mp hanswered
  obtain ⟨hopen, -, -⟩ := (hanswers result _).mp hresult
  exact ⟨committed, (hanswers committed _).mpr ⟨hopen, rfl, rfl⟩⟩

end Samples

end PatchLoop
