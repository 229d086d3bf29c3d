import PatchLoop.Store.EffectSpec

/-!
# What the session and task operations do

For each operation on sessions, turns, tasks, control requests, checkpoints, steps and tool results,
the checks it has passed when it returns and the database it leaves.
-/

namespace PatchLoop

open Transaction

variable [Sha256] {s s' : Store} {now : Timestamp}

/-! ### Sessions and turns -/

omit [Sha256] in
@[simp] theorem Session.withoutActive_id (session : Session) (taskId : String) :
    (session.withoutActive taskId).id = session.id := by
  unfold Session.withoutActive
  split <;> rfl

omit [Sha256] in
@[simp] theorem Session.withoutActive_eventSequence (session : Session) (taskId : String) :
    (session.withoutActive taskId).eventSequence = session.eventSequence := by
  unfold Session.withoutActive
  split <;> rfl

theorem createSession_returns {session result : Session}
    (hreturns : (createSession now session).Returns s result s') :
    s.sessions.get? session.id = none ∧ s.HasTask session.activeTaskId
      ∧ (s.addSession session).Journals now session s' := by
  simp only [createSession, bind_returns, query_returns, raiseIf_returns, insertSession_returns,
    journal_returns, pure_returns, existsAndEq, exists_const, true_and, and_assoc, not_not, ne_eq]
    at hreturns
  obtain ⟨-, hfresh, htask, hjournal, -, rfl⟩ := hreturns
  exact ⟨hfresh, htask, ⟨⟨_, hjournal⟩, rfl⟩⟩

/-- The row of a closed session. -/
def Session.closed (session : Session) : Session :=
  { session with status := .closed, version := session.version + 1 }

theorem closeSession_returns {sessionId : String} {version : Nat} {result : Session}
    (hreturns : (closeSession now sessionId version).Returns s result s') :
    ∃ session, s.sessions.get? sessionId = some session ∧ session.version = version
      ∧ session.activeTaskId = none
      ∧ s.Journals now session.closed s' := by
  simp only [closeSession, bind_returns, requireSession_returns, raiseIf_returns, journal_returns,
    pure_returns, existsAndEq, exists_const, true_and, and_assoc, not_not, ne_eq] at hreturns
  obtain ⟨session, hsession, hversion, hactive, hjournal, -, rfl⟩ := hreturns
  exact ⟨session, hsession, hversion, hactive, ⟨⟨_, hjournal⟩, rfl⟩⟩

/-- The turn as it is stored. -/
def Store.assignedTurn (s : Store) (session : Session) (turn : Turn) : Turn :=
  { turn with
    sequence := s.lastTurnSequence turn.sessionId + 1
    taskId := turn.taskId.or session.activeTaskId }

/-- A repeated submission returns the turn that is there and changes nothing. -/
theorem appendTurn_returns {turn result : Turn} {version : Option Nat}
    (hreturns : (appendTurn now turn version).Returns s result s') :
    (s.turnBySubmission turn = some result ∧ result.SameSubmission turn ∧ s' = s) ∨ ∃ session, s.sessions.get? turn.sessionId = some session ∧ session.status ≠ .closed
      ∧ s.turnBySubmission turn = none ∧ s.turns.get? turn.id = none
      ∧ (∀ taskId ∈ turn.taskId, ∃ task, s.LoadsTask taskId task
          ∧ task.sessionId = some session.id)
      ∧ result = s.assignedTurn session turn
      ∧ (s.addTurn (s.assignedTurn session turn)).Journals now
          { session with version := session.version + 1 } s' := by
  simp only [appendTurn, bind_returns, requireSession_returns, raiseIf_returns, query_returns,
    existsAndEq, exists_const, true_and, and_assoc] at hreturns
  obtain ⟨session, hsession, hopen, hbranch⟩ := hreturns
  split at hbranch
  · rename_i hnew
    simp only [appendNewTurn, bind_returns, checkVersion_returns, existsAndEq, exists_const,
      true_and, and_assoc] at hbranch
    obtain ⟨-, hrest⟩ := hbranch
    have hstore : (∀ taskId ∈ turn.taskId, ∃ task, s.LoadsTask taskId task
          ∧ task.sessionId = some session.id)
        ∧ s.turns.get? turn.id = none ∧ result = s.assignedTurn session turn
        ∧ (s.addTurn (s.assignedTurn session turn)).Journals now
          { session with version := session.version + 1 } s' := by
      cases htask : turn.taskId with
      | none =>
          simp only [htask, bind_returns, query_returns, insertTurn_returns, journal_returns,
            pure_returns, existsAndEq, exists_const, true_and, and_assoc] at hrest
          obtain ⟨hfresh, -, -, hjournal, rfl, rfl⟩ := hrest
          refine ⟨by simp, hfresh, ?_, ?_⟩
          · simp [Store.assignedTurn, htask]
          · simp only [Store.assignedTurn, htask]
            exact ⟨⟨_, hjournal⟩, rfl⟩
      | some taskId =>
          simp only [htask, bind_returns, requireTask_returns, raiseIf_returns, query_returns,
            insertTurn_returns, journal_returns, pure_returns, existsAndEq, exists_const, true_and,
            and_assoc, not_not, ne_eq] at hrest
          obtain ⟨task, hload, hbound, hfresh, -, -, hjournal, rfl, rfl⟩ := hrest
          refine ⟨?_, hfresh, ?_, ?_⟩
          · rintro _ ⟨⟩
            exact ⟨task, hload, hbound⟩
          · simp [Store.assignedTurn, htask]
          · simp only [Store.assignedTurn, htask]
            exact ⟨⟨_, hjournal⟩, rfl⟩
    exact Or.inr ⟨session, hsession, hopen, hnew, hstore.2.1, hstore.1, hstore.2.2⟩
  · rename_i existing hfound
    simp only [bind_returns, raiseIf_returns, pure_returns, existsAndEq, exists_const, true_and,
      and_assoc, not_not] at hbranch
    obtain ⟨hsame, rfl, rfl⟩ := hbranch
    exact Or.inl ⟨hfound, hsame, rfl⟩

omit [Sha256] in
/-- An event that is there already changes nothing. -/
theorem appendEvent_returns {event result : SessionEvent} {sequence : Option Nat}
    (hreturns : (appendEvent event sequence).Returns s result s') :
    s' = s ∨ ∃ session, s.sessions.get? event.sessionId = some session
      ∧ s.sessionEvents.get? event.id = none
      ∧ s' = (s.addSessionEvent { event with sequence := session.eventSequence + 1 }).putSession
          { session with eventSequence := session.eventSequence + 1 } := by
  simp only [appendEvent, bind_returns, requireSession_returns, query_returns, existsAndEq,
    true_and, and_assoc] at hreturns
  obtain ⟨session, hsession, hbranch⟩ := hreturns
  split at hbranch
  · simp only [bind_returns, raiseIf_returns, pure_returns, existsAndEq, exists_const, true_and,
      and_assoc] at hbranch
    obtain ⟨-, -, rfl⟩ := hbranch
    exact Or.inl rfl
  · rename_i hfresh
    simp only [bind_returns, checkVersion_returns, insertEvent_returns, writeSession_returns,
      pure_returns, existsAndEq, exists_const, true_and, and_assoc] at hbranch
    obtain ⟨-, -, -, -, -, rfl⟩ := hbranch
    exact Or.inr ⟨session, hsession, hfresh, rfl⟩

/-! ### Tasks -/

omit [Sha256] in
@[simp] theorem validateTask_returns {task : Task} {u : Unit} :
    (validateTask task).Returns s u s' ↔ task.ValidStateDimensions ∧ s' = s := by
  simp [validateTask]

theorem startTask_returns {sessionId : String} {task result : Task} {version : Nat}
    (hreturns : (startTask now sessionId task version).Returns s result s') :
    ∃ session, task.ValidStateDimensions ∧ s.sessions.get? sessionId = some session
      ∧ session.version = version ∧ session.status ≠ .closed ∧ session.activeTaskId = none
      ∧ task.outcome = .active ∧ s.tasks.get? task.id = none
      ∧ (s.addTask { task with sessionId := some sessionId }).Journals now
          { session with activeTaskId := some task.id, version := session.version + 1 } s' := by
  simp only [startTask, bind_returns, validateTask_returns, requireSession_returns, raiseIf_returns,
    query_returns, insertTask_returns, journal_returns, pure_returns, existsAndEq, exists_const,
    true_and, and_assoc, not_not, ne_eq] at hreturns
  obtain ⟨hvalid, session, hsession, hversion, hopen, hactive, houtcome, hfresh, -, -, hjournal, -,
    rfl⟩ := hreturns
  exact ⟨session, hvalid, hsession, hversion, hopen, hactive, houtcome, hfresh,
    ⟨⟨_, hjournal⟩, rfl⟩⟩

/-- The database after a legacy task got its row. -/
def Store.taskEnsured (s : Store) (task : Task) : Store :=
  if s.tasks.get? task.id = none then s.addTask task else s

omit [Sha256] in
theorem ensureTask_returns {task row : Task} (hreturns : (ensureTask task).Returns s row s') :
    s' = s.taskEnsured task ∧ (s.taskEnsured task).tasks.get? task.id = some row
      ∧ (s.tasks.get? task.id = none → s.HasSession task.sessionId) := by
  simp only [ensureTask, bind_returns, query_returns, existsAndEq, true_and] at hreturns
  split at hreturns
  · rename_i row' hrow
    simp only [bind_returns, validateTask_returns, pure_returns, existsAndEq, exists_const, true_and,
      and_assoc] at hreturns
    obtain ⟨-, rfl, hstate⟩ := hreturns
    have hsome : s.tasks.get? task.id ≠ none := by simp [hrow]
    rw [Store.taskEnsured, if_neg hsome]
    exact ⟨hstate, hrow, fun hnone => absurd hnone hsome⟩
  · rename_i hnone
    simp only [bind_returns, insertTask_returns, pure_returns, existsAndEq, exists_const, true_and,
      and_assoc] at hreturns
    obtain ⟨-, hsession, rfl, rfl⟩ := hreturns
    rw [Store.taskEnsured, if_pos hnone]
    exact ⟨rfl, Table.get?_insert_self hnone, fun _ => hsession⟩

/-- The database after the runtime session of a task got its row. -/
def Store.runtimeSessionEnsured (s : Store) (task : Task) : Store :=
  if s.sessions.get? (runtimeSessionId task.id) = none then
    s.addSession {
      id := runtimeSessionId task.id
      workspaceRef := task.repository
      activeTaskId := some task.id }
  else s

omit [Sha256] in
theorem ensureRuntimeSession_returns {task : Task} {session : Session}
    (hreturns : (ensureRuntimeSession task).Returns s session s') :
    s' = s.runtimeSessionEnsured task ∧ session.id = runtimeSessionId task.id
      ∧ s'.sessions.get? session.id = some session
      ∧ (session.activeTaskId = none ∨ session.activeTaskId = some task.id) := by
  simp only [ensureRuntimeSession, bind_returns, query_returns, existsAndEq, true_and] at hreturns
  split at hreturns
  · rename_i session' hrow
    simp only [bind_returns, raiseIf_returns, pure_returns, existsAndEq, exists_const, true_and,
      and_assoc] at hreturns
    obtain ⟨hactive, rfl, rfl⟩ := hreturns
    have hsome : s'.sessions.get? (runtimeSessionId task.id) ≠ none := by simp [hrow]
    rw [Store.runtimeSessionEnsured, if_neg hsome]
    exact ⟨rfl, Table.key_of_get? hrow, Table.get?_of_mem (Table.mem_of_get? hrow), by tauto⟩
  · rename_i hnone
    simp only [bind_returns, insertSession_returns, pure_returns, existsAndEq, exists_const,
      true_and, and_assoc] at hreturns
    obtain ⟨-, -, rfl, rfl⟩ := hreturns
    rw [Store.runtimeSessionEnsured, if_pos hnone]
    exact ⟨rfl, rfl, Table.get?_insert_self hnone, Or.inr rfl⟩

/-- The task row that a legacy task gets when it is bound to a session. -/
def Task.boundTo (task : Task) (session : Session) : Task :=
  { task with sessionId := some session.id, version := task.version + 1 }

omit [Sha256] in
/-- A task that has a session already keeps its row. -/
theorem prepareTaskExecution_returns {task result : Task}
    (hreturns : (prepareTaskExecution task).Returns s result s') :
    ∃ current, task.ValidStateDimensions ∧ (s.taskEnsured task).tasks.get? task.id = some current
      ∧ (s.tasks.get? task.id = none → s.HasSession task.sessionId)
      ∧ (s' = s.taskEnsured task
        ∨ current.sessionId = none ∧ ∃ session, session.id = runtimeSessionId current.id
            ∧ ((s.taskEnsured task).runtimeSessionEnsured current).sessions.get? session.id
              = some session
            ∧ (session.activeTaskId = some current.id
                ∧ s' = ((s.taskEnsured task).runtimeSessionEnsured current).putTask
                  (current.boundTo session)
              ∨ session.activeTaskId = none ∧ s' = (((s.taskEnsured task).runtimeSessionEnsured current).putTask
                  (current.boundTo session)).putSession
                    { session with
                      activeTaskId := some current.id, version := session.version + 1 })) := by
  simp only [prepareTaskExecution, bind_returns, validateTask_returns, existsAndEq, exists_const,
    true_and, and_assoc] at hreturns
  obtain ⟨hvalid, current, t, hensured, hbranch⟩ := hreturns
  obtain ⟨rfl, hrow, hreference⟩ := ensureTask_returns hensured
  refine ⟨current, hvalid, hrow, hreference, ?_⟩
  split at hbranch
  · simp only [bind_returns, requireSession_returns, raiseIf_returns, pure_returns, existsAndEq,
      exists_const, true_and, and_assoc] at hbranch
    obtain ⟨-, -, -, -, hstate⟩ := hbranch
    exact Or.inl hstate
  · rename_i hfree
    simp only [bind_returns, writeTask_returns, doIf_returns, writeSession_returns, pure_returns,
      existsAndEq, exists_const, true_and, and_assoc] at hbranch
    obtain ⟨session, t, hsession, -, hactive, -⟩ := hbranch
    obtain ⟨rfl, hid, hget, hpointer⟩ := ensureRuntimeSession_returns hsession
    refine Or.inr ⟨hfree, session, hid, hget, ?_⟩
    rcases hactive with ⟨hnone, rfl⟩ | ⟨hsome, rfl⟩
    · exact Or.inr ⟨hnone, rfl⟩
    · exact Or.inl ⟨hpointer.resolve_left hsome, rfl⟩

theorem createTask_returns {task result : Task}
    (hreturns : (createTask now task).Returns s result s') :
    task.ValidStateDimensions ∧ s.tasks.get? task.id = none ∧ s.HasSession task.sessionId
      ∧ ((task.sessionId = none ∧ s' = s.addTask task)
        ∨ ∃ session, s.sessionOf task = some session
          ∧ (s.addTask task).Journals now session s') := by
  simp only [createTask, bind_returns, validateTask_returns, query_returns, raiseIf_returns,
    existsAndEq, exists_const, true_and, and_assoc, not_not, ne_eq] at hreturns
  obtain ⟨hvalid, hfresh, hbranch⟩ := hreturns
  split at hbranch
  · rename_i hfree
    simp only [bind_returns, insertTask_returns, pure_returns, existsAndEq, exists_const, true_and,
      and_assoc] at hbranch
    obtain ⟨-, hreference, -, rfl⟩ := hbranch
    exact ⟨hvalid, hfresh, hreference, Or.inl ⟨hfree, rfl⟩⟩
  · rename_i sessionId hbound
    simp only [bind_returns, requireSession_returns, insertTask_returns, journal_returns,
      pure_returns, existsAndEq, exists_const, true_and, and_assoc] at hbranch
    obtain ⟨session, hsession, -, hreference, hjournal, -, rfl⟩ := hbranch
    refine ⟨hvalid, hfresh, hreference, Or.inr ⟨session, ?_, ⟨⟨_, hjournal⟩, rfl⟩⟩⟩
    rw [Store.sessionOf, hbound]
    exact hsession

omit [Sha256] in
@[simp] theorem validateTaskUpdate_returns {current requested : Task} {u : Unit} :
    (validateTaskUpdate current requested).Returns s u s'
      ↔ (current.sessionId = requested.sessionId
        ∧ (current.outcome ≠ .active → requested.outcome = current.outcome)
        ∧ (current.runtimeCondition = .recoveryRequired →
            requested.runtimeCondition = .recoveryRequired)) ∧ s' = s := by
  simp [validateTaskUpdate, and_assoc]

/-- What an update of a task finds. -/
structure Store.UpdatesTask (s : Store) (now : Timestamp) (task : Task) (version : Nat)
    (guard : Option LeaseGuard) (current : Task) : Prop where
  valid : task.ValidStateDimensions
  loadsTask : s.LoadsTask task.id current
  version_eq : current.version = version
  guards : s.GuardsTask now current guard
  session_eq : current.sessionId = task.sessionId
  outcome : current.outcome ≠ .active → task.outcome = current.outcome
  recovery : current.runtimeCondition = .recoveryRequired →
    task.runtimeCondition = .recoveryRequired

theorem updateTask_returns {task updated : Task} {version : Nat} {guard : Option LeaseGuard}
    (hreturns : (updateTask now task version guard).Returns s updated s') :
    ∃ current, s.UpdatesTask now task version guard current
      ∧ ((current.sessionId = none ∧ s' = s.putTask { task with version := current.version + 1 })
        ∨ ∃ row session, current.sessionId = some session.id
          ∧ s.sessions.get? session.id = some row
          ∧ session = (if task.outcome ≠ .active then row.withoutActive task.id else row)
          ∧ (s.putTask { task with version := current.version + 1 }).Journals now session s') := by
  simp only [updateTask, bind_returns, validateTask_returns, requireTask_returns,
    checkVersion_returns, assertTaskGuard_returns, validateTaskUpdate_returns, writeTask_returns,
    existsAndEq, exists_const, true_and, and_assoc] at hreturns
  obtain ⟨hvalid, current, htask, hversion, hguard, hsession, houtcome, hrecovery, -, hbranch⟩ :=
    hreturns
  refine ⟨current, ⟨hvalid, htask, hversion version rfl, hguard, hsession, houtcome, hrecovery⟩, ?_⟩
  split at hbranch
  · rename_i hfree
    exact Or.inl ⟨hsession.trans hfree, (pure_returns.mp hbranch).2⟩
  · rename_i sessionId hbound
    simp only [bind_returns, requireSession_returns, journal_returns, pure_returns, existsAndEq,
      true_and, and_assoc] at hbranch
    obtain ⟨row, hrow, hjournal, -, rfl⟩ := hbranch
    have hkey : (if task.outcome ≠ .active then row.withoutActive task.id else row).id
        = sessionId := by
      rw [apply_ite Session.id, Session.withoutActive_id, ite_self]
      exact Table.key_of_get? hrow
    refine Or.inr ⟨row, _, ?_, ?_, rfl, ⟨⟨_, hjournal⟩, rfl⟩⟩
    · rw [hkey]
      exact hsession.trans hbound
    · rw [hkey]
      exact hrow

omit [Sha256] in
/-- A task with a live execution gets a request only; another one ends. -/
theorem cancelTask_returns {taskId controlId : String} {result : Task}
    (hreturns : (cancelTask now taskId controlId).Returns s result s') :
    ∃ task, s.LoadsTask taskId task
      ∧ (s' = s ∨ (∃ request, s' = s.addControlRequest request)
        ∨ task.status ∈ [TaskStatus.created, .running]
          ∧ ∃ request, (task.sessionId = none
              ∧ s' = (s.addControlRequest request).putTask task.cancelled)
            ∨ ∃ session, task.sessionId = some session.id
              ∧ s.sessions.get? session.id = some session
              ∧ s' = ((s.addControlRequest request).putTask task.cancelled).putSession
                (session.withoutActive taskId)) := by
  simp only [cancelTask, bind_returns, requireTask_returns, query_returns, ite_returns,
    pure_returns, existsAndEq, true_and, and_assoc] at hreturns
  obtain ⟨task, htask, ⟨-, -, rfl⟩ | ⟨hstatus, hbranch⟩⟩ := hreturns
  · exact ⟨task, htask, Or.inl rfl⟩
  · refine ⟨task, htask, ?_⟩
    have hstatus : task.status ∈ [TaskStatus.created, .running] := by
      by_contra hnot
      exact hstatus (Or.inl hnot)
    split at hbranch
    · simp only [bind_returns, insertControlRequest_returns, pure_returns, existsAndEq,
        exists_const, true_and, and_assoc] at hbranch
      obtain ⟨-, -, -, rfl⟩ := hbranch
      exact Or.inr (Or.inl ⟨_, rfl⟩)
    · simp only [bind_returns, insertControlRequest_returns, writeTask_returns, existsAndEq,
        exists_const, true_and, and_assoc] at hbranch
      obtain ⟨-, -, -, hbranch⟩ := hbranch
      split at hbranch
      · rename_i hfree
        obtain ⟨-, rfl⟩ := pure_returns.mp hbranch
        exact Or.inr (Or.inr ⟨hstatus, _, Or.inl ⟨hfree, rfl⟩⟩)
      · rename_i sessionId hbound
        simp only [bind_returns, requireSession_returns, writeSession_returns, pure_returns,
          existsAndEq, exists_const, true_and, and_assoc] at hbranch
        obtain ⟨session, hsession, -, rfl⟩ := hbranch
        have hkey : session.id = sessionId := Table.key_of_get? hsession
        refine Or.inr (Or.inr ⟨hstatus, _, Or.inr ⟨session, ?_, ?_, rfl⟩⟩)
        · rw [hkey]
          exact hbound
        · rw [hkey]
          exact hsession

/-! ### Control requests -/

theorem requestControl_returns {request result : ControlRequest} {version : Nat}
    (hreturns : (requestControl now request version).Returns s result s') :
    ∃ task, s.LoadsTask request.taskId task ∧ task.version = version
      ∧ (s.addControlRequest request).JournalsFor now task s' := by
  simp only [requestControl, bind_returns, requireTask_returns, checkVersion_returns, query_returns,
    raiseIf_returns, insertControlRequest_returns, journalTask_returns, pure_returns, existsAndEq,
    exists_const, true_and, and_assoc] at hreturns
  obtain ⟨task, htask, hversion, -, -, -, hjournal, -, rfl⟩ := hreturns
  exact ⟨task, htask, hversion version rfl, ⟨⟨_, hjournal⟩, rfl⟩⟩

theorem settleControl_returns {requestId : String} {status : ControlStatus} {version : Nat}
    {cleanupInfo : Option String} {result : ControlRequest}
    (hreturns : (settleControl now requestId status version cleanupInfo).Returns s result s') :
    ∃ current task, s.controlRequests.get? requestId = some current ∧ current.version = version
      ∧ status ∈ current.status.allowed ∧ s.LoadsTask current.taskId task
      ∧ (s.putControlRequest (current.moved now status cleanupInfo)).JournalsFor now task s' := by
  simp only [settleControl, bind_returns, query_returns, orRaise_returns, checkVersion_returns,
    raiseIf_returns, modify_returns, requireTask_returns, journalTask_returns, pure_returns,
    existsAndEq, exists_const, true_and, and_assoc, not_not] at hreturns
  obtain ⟨current, hrow, hversion, hallowed, task, htask, hjournal, -, rfl⟩ := hreturns
  exact ⟨current, task, hrow, hversion version rfl, hallowed, htask, ⟨⟨_, hjournal⟩, rfl⟩⟩

/-! ### Checkpoints, steps, tool results -/

/-- What `_validate_checkpoint_references` accepts. -/
structure Store.Refers (s : Store) (checkpoint : Checkpoint) (session : Session) : Prop where
  event_le : checkpoint.eventSequence ≤ session.eventSequence
  input_le : checkpoint.consumedInputSequence ≤ s.lastTurnSequence session.id
  turn : checkpoint.turnId.all (fun turnId => (s.turns.get? turnId).any fun turn =>
    turn.sessionId = session.id ∧ (turn.taskId = none ∨ turn.taskId = some checkpoint.taskId)) = true
  pending_nodup : checkpoint.pendingEffectIds.Nodup
  pending : checkpoint.pendingEffectIds.all (fun id => (s.effects.get? id).any fun effect =>
    effect.taskId = checkpoint.taskId) = true

omit [Sha256] in
@[simp] theorem validateCheckpointReferences_returns {checkpoint : Checkpoint} {session : Session}
    {u : Unit} :
    (validateCheckpointReferences checkpoint session).Returns s u s'
      ↔ s.Refers checkpoint session ∧ s' = s := by
  simp only [validateCheckpointReferences, bind_returns, get_returns, raiseIf_returns, existsAndEq,
    exists_const, true_and, and_assoc, not_not, Nat.not_lt]
  constructor
  · rintro ⟨hevent, hinput, hturn, hnodup, hpending, rfl⟩
    exact ⟨⟨hevent, hinput, hturn, hnodup, hpending⟩, rfl⟩
  · rintro ⟨⟨hevent, hinput, hturn, hnodup, hpending⟩, rfl⟩
    exact ⟨hevent, hinput, hturn, hnodup, hpending, rfl⟩

theorem commitCheckpoint_returns {checkpoint result : Checkpoint} {version : Nat}
    {guard : LeaseGuard}
    (hreturns : (commitCheckpoint now checkpoint version guard).Returns s result s') :
    ∃ execution task session, s.Guards now guard execution ∧ s.LoadsTask checkpoint.taskId task
      ∧ task.version = version ∧ task.sessionId = checkpoint.sessionId
      ∧ s.sessions.get? (checkpoint.sessionId.getD "") = some session
      ∧ s.Refers checkpoint session
      ∧ (s.upsertCheckpoint checkpoint).Journals now session s' := by
  simp only [commitCheckpoint, bind_returns, assertGuard_returns, requireTask_returns,
    checkVersion_returns, raiseIf_returns, requireSession_returns,
    validateCheckpointReferences_returns, modify_returns, journal_returns, pure_returns,
    existsAndEq, exists_const, true_and, and_assoc, not_not, ne_eq] at hreturns
  obtain ⟨execution, hguard, task, htask, hversion, hbound, session, hsession, hrefers, hjournal, -,
    rfl⟩ := hreturns
  exact ⟨execution, task, session, hguard, htask, hversion version rfl, hbound, hsession, hrefers,
    ⟨⟨_, hjournal⟩, rfl⟩⟩

omit [Sha256] in
theorem saveCheckpoint_returns {checkpoint : Checkpoint} {guard : Option LeaseGuard} {u : Unit}
    (hreturns : (saveCheckpoint now checkpoint guard).Returns s u s') :
    s.GuardsLegacyWrite now checkpoint.taskId guard ∧ s' = s.upsertCheckpoint checkpoint := by
  simp only [saveCheckpoint, bind_returns, assertLegacyWriteGuard_returns,
    requireTaskReference_returns, modify_returns, existsAndEq, exists_const, true_and, and_assoc]
    at hreturns
  exact ⟨hreturns.1, hreturns.2.2⟩

omit [Sha256] in
theorem recordStep_returns {agentStep : AgentStep} {guard : Option LeaseGuard} {u : Unit}
    (hreturns : (recordStep now agentStep guard).Returns s u s') :
    s.GuardsLegacyWrite now agentStep.taskId guard ∧ s' = s.upsertAgentStep agentStep := by
  simp only [recordStep, bind_returns, assertLegacyWriteGuard_returns,
    requireTaskReference_returns, modify_returns, existsAndEq, exists_const, true_and, and_assoc]
    at hreturns
  exact ⟨hreturns.1, hreturns.2.2⟩

omit [Sha256] in
theorem recordToolCall_returns {taskId : String} {call : ToolCall} {result : ToolResult}
    {guard : Option LeaseGuard} {u : Unit}
    (hreturns : (recordToolCall now taskId call result guard).Returns s u s') :
    s.GuardsLegacyWrite now taskId guard
      ∧ s' = s.addToolCall { taskId, call, result, completedAt := now } := by
  simp only [recordToolCall, bind_returns, assertLegacyWriteGuard_returns,
    requireTaskReference_returns, modify_returns, existsAndEq, exists_const, true_and, and_assoc]
    at hreturns
  exact ⟨hreturns.1, hreturns.2.2⟩

/-- A result that is there already changes nothing. -/
theorem commitToolResult_returns {taskId : String} {call : ToolCall} {result committed : ToolResult}
    {version : Option Nat} {guard : Option LeaseGuard}
    (hreturns : (commitToolResult now taskId call result version guard).Returns s committed s') :
    ∃ task, s.LoadsTask taskId task ∧ s.GuardsTask now task guard
      ∧ (s' = s ∨ s.toolCalls.get? (taskId, call.id) = none
        ∧ (s.addToolCall { taskId, call, result, completedAt := now }).JournalsFor now task s')
      := by
  simp only [commitToolResult, bind_returns, raiseIf_returns, requireTask_returns,
    assertTaskGuard_returns, query_returns, matchToolCall_returns, existsAndEq, exists_const,
    true_and, and_assoc] at hreturns
  obtain ⟨-, task, htask, hguard, -, hbranch⟩ := hreturns
  refine ⟨task, htask, hguard, ?_⟩
  split at hbranch
  · exact Or.inl (pure_returns.mp hbranch).2
  · rename_i hfree
    simp only [bind_returns, checkVersion_returns, insertToolCall_returns, journalTask_returns,
      pure_returns, existsAndEq, exists_const, true_and, and_assoc] at hbranch
    obtain ⟨-, -, hjournal, -, rfl⟩ := hbranch
    exact Or.inr ⟨hfree, ⟨⟨_, hjournal⟩, rfl⟩⟩

end PatchLoop
