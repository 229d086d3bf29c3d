import PatchLoop.Store.Schema

/-!
# Sessions, tasks, turns, control requests, checkpoints

The operations of `SQLiteStore` on the rows that belong to a session or a task. Each runs at one
clock time `now`, and gets the models of its arguments after redaction. An identifier that the
source draws with `uuid4` is an argument.
-/

namespace PatchLoop

open Transaction

variable [Sha256]

/-! ### Sessions and turns -/

def createSession (now : Timestamp) (session : Session) : Action Session := do
  let existing ← query fun s => s.sessions.get? session.id
  raiseIf (existing ≠ none) (.valueError s!"session already exists: {session.id}")
  insertSession session
  let event ← journal now session {
    id := journalEventId "session.created" session.id (toString session.version)
    type := "session.created"
    data := .obj [("workspace_ref", .str session.workspaceRef)] }
  return { session with eventSequence := event.sequence }

def closeSession (now : Timestamp) (sessionId : String) (expectedVersion : Nat) :
    Action Session := do
  let session ← requireSession sessionId
  raiseIf (session.version ≠ expectedVersion)
    (.staleVersion sessionId expectedVersion session.version)
  raiseIf (session.activeTaskId ≠ none)
    (.valueError "cannot close a session with an active task")
  let closed := { session with status := .closed, version := session.version + 1 }
  let event ← journal now closed {
    id := journalEventId "session.closed" closed.id (toString closed.version)
    type := "session.closed" }
  return { closed with eventSequence := event.sequence }

/-- `_same_turn_submission` -/
def Turn.SameSubmission (existing requested : Turn) : Prop :=
  existing.role = requested.role
    ∧ existing.content = requested.content
    ∧ existing.resourceRefs = requested.resourceRefs
    ∧ (requested.taskId = none ∨ existing.taskId = requested.taskId)

instance (existing requested : Turn) : Decidable (existing.SameSubmission requested) :=
  inferInstanceAs (Decidable (_ ∧ _))

/-- `_turn_by_submission`, when the turn has a client submission id. -/
def Store.turnBySubmission (s : Store) (turn : Turn) : Option Turn :=
  turn.clientSubmissionId.bind fun submission =>
    s.turns.rows.find? fun row =>
      row.sessionId = turn.sessionId ∧ row.clientSubmissionId = some submission

/-- `append_turn` once the submission is known to be new. -/
def appendNewTurn (now : Timestamp) (session : Session) (turn : Turn)
    (expectedVersion : Option Nat) : Action Turn := do
  checkVersion session.id session.version expectedVersion
  match turn.taskId with
  | none => pure ()
  | some taskId => do
      let task ← requireTask taskId
      raiseIf (task.sessionId ≠ some session.id)
        (.valueError "turn task does not belong to its session")
  let last ← query fun s => s.lastTurnSequence turn.sessionId
  let assigned := { turn with
    sequence := last + 1
    taskId := turn.taskId.or session.activeTaskId }
  insertTurn assigned
  let _ ← journal now { session with version := session.version + 1 } {
    id := journalEventId "turn.appended" assigned.id (toString assigned.sequence)
    type := "turn.appended"
    taskId := assigned.taskId
    data := .obj [("role", .str assigned.role.value), ("turn_id", .str assigned.id)] }
  return assigned

def appendTurn (now : Timestamp) (turn : Turn) (expectedVersion : Option Nat) : Action Turn := do
  let session ← requireSession turn.sessionId
  raiseIf (session.status = .closed) (.valueError "cannot append a turn to a closed session")
  let existing ← query fun s => s.turnBySubmission turn
  match existing with
  | none => appendNewTurn now session turn expectedVersion
  | some existing => do
      raiseIf (¬ existing.SameSubmission turn)
        (.submissionConflict session.id (turn.clientSubmissionId.getD ""))
      return existing

/-- `append_event` -/
def appendEvent (event : SessionEvent) (expectedSequence : Option Nat) : Action SessionEvent := do
  let session ← requireSession event.sessionId
  let existing ← query fun s => s.sessionEvents.get? event.id
  match existing with
  | some persisted => do
      raiseIf (persisted ≠ { event with sequence := persisted.sequence })
        (.valueError s!"event already exists with different content: {event.id}")
      return persisted
  | none => do
      checkVersion event.sessionId session.eventSequence expectedSequence
      let assigned := { event with sequence := session.eventSequence + 1 }
      insertEvent assigned
      writeSession { session with eventSequence := assigned.sequence }
      return assigned

omit [Sha256] in
/-- `list_events` -/
def listEvents (sessionId : String) (afterSequence : Nat) : Action (List SessionEvent) := do
  let _ ← requireSession sessionId
  query fun s =>
    (s.sessionEvents.rows.filter fun event =>
      event.sessionId = sessionId ∧ afterSequence < event.sequence).insertionSort
        fun left right => left.sequence ≤ right.sequence

/-! ### Tasks -/

/-- `_redacted_task`, whose `Task.model_validate` is the check of every task argument. -/
def validateTask (task : Task) : Action Unit :=
  raiseIf (¬ task.ValidStateDimensions) (.valueError "invalid task state dimensions")

def startTask (now : Timestamp) (sessionId : String) (task : Task) (expectedVersion : Nat) :
    Action Task := do
  validateTask task
  let session ← requireSession sessionId
  raiseIf (session.version ≠ expectedVersion)
    (.staleVersion sessionId expectedVersion session.version)
  raiseIf (session.status = .closed) (.valueError "cannot start a task in a closed session")
  raiseIf (session.activeTaskId ≠ none) (.leaseConflict sessionId session.activeTaskId)
  raiseIf (task.outcome ≠ .active)
    (.valueError "a new session task must have an active outcome")
  let existing ← query fun s => s.tasks.get? task.id
  raiseIf (existing ≠ none) (.valueError s!"task already exists: {task.id}")
  let bound := { task with sessionId := some sessionId }
  insertTask bound
  let _ ← journal now
    { session with activeTaskId := some bound.id, version := session.version + 1 } {
      id := journalEventId "task.started" bound.id (toString bound.version)
      type := "task.started"
      taskId := some bound.id
      data := .obj [("condition", .str bound.runtimeCondition.value),
        ("outcome", .str bound.outcome.value)] }
  return bound

/-- The row of a task, inserted when there is none. -/
def ensureTask (task : Task) : Action Task := do
  let existing ← query fun s => s.tasks.get? task.id
  match existing with
  | some row => do
      validateTask row
      return row
  | none => do
      insertTask task
      return task

/-- The session of a task that a client runs without one. -/
def runtimeSessionId (taskId : String) : String := s!"runtime-session-{taskId}"

/-- The runtime session of a task, inserted when there is none. -/
def ensureRuntimeSession (task : Task) : Action Session := do
  let existing ← query fun s => s.sessions.get? (runtimeSessionId task.id)
  match existing with
  | some session => do
      raiseIf (session.activeTaskId ≠ none ∧ session.activeTaskId ≠ some task.id)
        (.leaseConflict session.id session.activeTaskId)
      return session
  | none => do
      let session : Session := {
        id := runtimeSessionId task.id
        workspaceRef := task.repository
        activeTaskId := some task.id }
      insertSession session
      return session

/-- `prepare_task_execution`: persist a legacy task and bind it to a session. -/
def prepareTaskExecution (task : Task) : Action Task := do
  validateTask task
  let current ← ensureTask task
  match current.sessionId with
  | some sessionId => do
      let session ← requireSession sessionId
      raiseIf (session.activeTaskId ≠ some current.id)
        (.leaseConflict session.id session.activeTaskId)
      return current
  | none => do
      let session ← ensureRuntimeSession current
      let bound := { current with sessionId := some session.id, version := current.version + 1 }
      writeTask bound
      doIf (session.activeTaskId = none)
        (writeSession
          { session with activeTaskId := some bound.id, version := session.version + 1 })
      return bound

def createTask (now : Timestamp) (task : Task) : Action Task := do
  validateTask task
  let existing ← query fun s => s.tasks.get? task.id
  raiseIf (existing ≠ none) (.valueError s!"task already exists: {task.id}")
  match task.sessionId with
  | none => insertTask task
  | some sessionId => do
      let session ← requireSession sessionId
      insertTask task
      let _ ← journal now session {
        id := journalEventId "task.created" task.id (toString task.version)
        type := "task.created"
        taskId := some task.id }
  return task

/-- The session with no active task, when this task was active in it. -/
def Session.withoutActive (session : Session) (taskId : String) : Session :=
  if session.activeTaskId = some taskId then
    { session with activeTaskId := none, version := session.version + 1 }
  else session

/-- The guard checks of the operations that fence only session-bound tasks. -/
def assertTaskGuard (now : Timestamp) (task : Task) (guard : Option LeaseGuard) : Action Unit :=
  match task.sessionId with
  | none => pure ()
  | some _ => do
      let _ ← assertSuppliedGuard now task.id guard

/-- `_validate_task_update` -/
def validateTaskUpdate (current requested : Task) : Action Unit := do
  raiseIf (current.sessionId ≠ requested.sessionId)
    (.valueError "task session binding is immutable")
  raiseIf (current.outcome ≠ .active ∧ requested.outcome ≠ current.outcome)
    (.valueError "terminal task outcome is immutable")
  raiseIf (current.runtimeCondition = .recoveryRequired
      ∧ requested.runtimeCondition ≠ .recoveryRequired)
    (.recoveryRequired current.id none)

def updateTask (now : Timestamp) (task : Task) (expectedVersion : Nat)
    (guard : Option LeaseGuard) : Action Task := do
  validateTask task
  let current ← requireTask task.id
  checkVersion task.id current.version (some expectedVersion)
  assertTaskGuard now current guard
  validateTaskUpdate current task
  let updated := { task with version := current.version + 1 }
  writeTask updated
  match updated.sessionId with
  | none => pure ()
  | some sessionId => do
      let session ← requireSession sessionId
      let session :=
        if updated.outcome ≠ .active then session.withoutActive updated.id else session
      let _ ← journal now session {
        id := journalEventId "task.updated" updated.id (toString updated.version)
        type := "task.updated"
        taskId := some updated.id
        data := .obj [("condition", .str updated.runtimeCondition.value),
          ("outcome", .str updated.outcome.value), ("version", .int updated.version)] }
  return updated

/-- The row `cancel_task` writes for a task that no live execution owns: created or running tasks
may be cancelled, so `Task.transition` does not raise. -/
def Task.cancelled (task : Task) : Task :=
  { task with
    status := .cancelled
    outcome := .cancelled
    runtimeCondition :=
      if task.runtimeCondition = .recoveryRequired then .recoveryRequired else .ended
    version := task.version + 1 }

/-- `cancel_task`: ask the live execution to stop, or end the task at once. -/
def cancelTask (now : Timestamp) (taskId controlId : String) : Action Task := do
  let task ← requireTask taskId
  let cancelling ← query fun s =>
    (s.pendingControls taskId).any fun request => request.kind = .cancel
  if task.status ∉ [.created, .running] ∨ cancelling = true then
    return task
  else
    let active ← query fun s => (s.activeExecutions fun row => row.taskId = taskId).head?
    let active := active.filter fun execution => now < execution.leaseExpiresAt
    let request : ControlRequest := {
      id := controlId
      taskId := taskId
      executionId := active.map Execution.id
      kind := .cancel
      requestedAt := now }
    match active with
    | some _ => do
        insertControlRequest request
        return task
    | none => do
        insertControlRequest ((request.moved now .acknowledged none).moved now .settled none)
        writeTask task.cancelled
        match task.sessionId with
        | none => pure ()
        | some sessionId => do
            let session ← requireSession sessionId
            writeSession (session.withoutActive taskId)
        return task.cancelled

/-! ### Control requests -/

/-- `request_control`, behind `request_pause` and `request_cancel`. -/
def requestControl (now : Timestamp) (request : ControlRequest) (expectedVersion : Nat) :
    Action ControlRequest := do
  let task ← requireTask request.taskId
  checkVersion task.id task.version (some expectedVersion)
  let existing ← query fun s => s.controlRequests.get? request.id
  raiseIf (existing ≠ none) (.valueError s!"control request already exists: {request.id}")
  insertControlRequest request
  let _ ← journalTask now task {
    id := journalEventId "control.requested" request.id (toString request.version)
    type := "control.requested"
    taskId := some task.id
    data := .obj [("control_id", .str request.id), ("kind", .str request.kind.value)] }
  return request

def settleControl (now : Timestamp) (requestId : String) (status : ControlStatus)
    (expectedVersion : Nat) (cleanupInfo : Option String) : Action ControlRequest := do
  let row ← query fun s => s.controlRequests.get? requestId
  let current ← orRaise row (.keyError s!"control request not found: {requestId}")
  checkVersion requestId current.version (some expectedVersion)
  raiseIf (status ∉ current.status.allowed)
    (.valueError s!"invalid control transition: {current.status.value} -> {status.value}")
  let settled := current.moved now status cleanupInfo
  modify fun s => s.putControlRequest settled
  let task ← requireTask settled.taskId
  let _ ← journalTask now task {
    id := journalEventId "control.updated" settled.id (toString settled.version)
    type := "control.updated"
    taskId := some task.id
    data := .obj [("control_id", .str settled.id), ("status", .str settled.status.value)] }
  return settled

/-! ### Checkpoints, steps, tool results -/

/-- `_validate_checkpoint_references` -/
def validateCheckpointReferences (checkpoint : Checkpoint) (session : Session) : Action Unit := do
  let s ← get
  raiseIf (session.eventSequence < checkpoint.eventSequence)
    (.valueError "checkpoint event cursor is ahead of the session journal")
  raiseIf (s.lastTurnSequence session.id < checkpoint.consumedInputSequence)
    (.valueError "checkpoint input cursor is ahead of persisted turns")
  raiseIf (¬ checkpoint.turnId.all fun turnId =>
      (s.turns.get? turnId).any fun turn =>
        turn.sessionId = session.id ∧ (turn.taskId = none ∨ turn.taskId = some checkpoint.taskId))
    (.valueError "checkpoint turn is not part of its session/task")
  raiseIf (¬ checkpoint.pendingEffectIds.Nodup)
    (.valueError "checkpoint pending Effect IDs must be unique")
  raiseIf (¬ checkpoint.pendingEffectIds.all fun id =>
      (s.effects.get? id).any fun effect => effect.taskId = checkpoint.taskId)
    (.valueError "checkpoint references an Effect outside its task")

def commitCheckpoint (now : Timestamp) (checkpoint : Checkpoint) (expectedVersion : Nat)
    (guard : LeaseGuard) : Action Checkpoint := do
  let _ ← assertGuard now guard
  let task ← requireTask checkpoint.taskId
  checkVersion task.id task.version (some expectedVersion)
  raiseIf (task.sessionId ≠ checkpoint.sessionId)
    (.valueError "checkpoint session does not own its task")
  let session ← requireSession (checkpoint.sessionId.getD "")
  validateCheckpointReferences checkpoint session
  modify fun s => s.upsertCheckpoint checkpoint
  let _ ← journal now session {
    id := journalEventId "checkpoint.committed" checkpoint.taskId (toString checkpoint.updatedAt)
    type := "checkpoint.committed"
    taskId := some checkpoint.taskId
    data := .obj [("consumed_input_sequence", .int checkpoint.consumedInputSequence)] }
  return checkpoint

omit [Sha256] in
/-- The `REFERENCES tasks(id)` clause of a row that an operation upserts. -/
def requireTaskReference (taskId constraint : String) : Action Unit := do
  let s ← get
  raiseIf (¬ s.HasTask (some taskId)) (.integrityError constraint)

def saveCheckpoint (now : Timestamp) (checkpoint : Checkpoint) (guard : Option LeaseGuard) :
    Action Unit := do
  assertLegacyWriteGuard now checkpoint.taskId guard
  requireTaskReference checkpoint.taskId "checkpoints.task_id"
  modify fun s => s.upsertCheckpoint checkpoint

def recordStep (now : Timestamp) (step : AgentStep) (guard : Option LeaseGuard) :
    Action Unit := do
  assertLegacyWriteGuard now step.taskId guard
  requireTaskReference step.taskId "agent_steps.task_id"
  modify fun s => s.upsertAgentStep step

/-- `record_tool_call`: the first result of a call stays. -/
def recordToolCall (now : Timestamp) (taskId : String) (call : ToolCall) (result : ToolResult)
    (guard : Option LeaseGuard) : Action Unit := do
  assertLegacyWriteGuard now taskId guard
  requireTaskReference taskId "tool_calls.task_id"
  modify fun s => s.addToolCall { taskId, call, result, completedAt := now }

/-- A persisted result of the call, which must be the one at hand. -/
def matchToolCall (existing : Option ToolCallRow) (call : ToolCall) (result : ToolResult) :
    Action Unit :=
  raiseIf (existing.any fun row => row.call ≠ call ∨ row.result ≠ result)
    (.valueError s!"tool call already committed with different content: {call.id}")

def commitToolResult (now : Timestamp) (taskId : String) (call : ToolCall) (result : ToolResult)
    (expectedVersion : Option Nat) (guard : Option LeaseGuard) : Action ToolResult := do
  raiseIf (result.callId ≠ call.id) (.valueError "tool result does not belong to the call")
  let task ← requireTask taskId
  assertTaskGuard now task guard
  let existing ← query fun s => s.toolCalls.get? (taskId, call.id)
  matchToolCall existing call result
  match existing with
  | some row => return row.result
  | none => do
      checkVersion taskId task.version expectedVersion
      insertToolCall { taskId, call, result, completedAt := now }
      let _ ← journalTask now task {
        id := journalEventId "tool_result.committed" call.id taskId
        type := "tool_result.committed"
        taskId := some taskId
        traceId := some call.id
        data := .obj [("call_id", .str call.id), ("success", .bool result.success),
          ("tool_name", .str call.name)] }
      return result

end PatchLoop
