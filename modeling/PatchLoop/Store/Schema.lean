import PatchLoop.Lib.Table
import PatchLoop.Lib.Transaction
import PatchLoop.Contracts
import Mathlib.Tactic.Simps.Basic

/-!
# The runtime database

One keyed table for each table of the runtime schema. Every operation of the store runs in one
`BEGIN IMMEDIATE` transaction, so operations are atomic and their order is total; an operation that
raises is rolled back. The row functions below are the private helpers of `SQLiteStore`, with the
checks that the `PRIMARY KEY`, `UNIQUE` and `REFERENCES` clauses of the schema make on an insert.
An update writes only references that it has just read or inserted, so it makes none.
-/

namespace PatchLoop

open Transaction

/-! ### Rows -/

/-- A row of `tool_calls`. -/
structure ToolCallRow where
  taskId : String
  call : ToolCall
  result : ToolResult
  completedAt : Timestamp
deriving DecidableEq

/-- A row of `checkpoints`: a `RuntimeCheckpoint`, or a `SessionCheckpoint`, which has no
`next_step_index`. -/
structure Checkpoint where
  taskId : String
  sessionId : Option String := none
  turnId : Option String := none
  consumedInputSequence : Nat := 0
  eventSequence : Nat := 0
  pendingEffectIds : List String := []
  pendingModelRequestStep : Option Nat := none
  accountedModelResponseSteps : List Nat := []
  unknownModelUsageSteps : List Nat := []
  nextStepIndex : Option Nat := none
  messages : List ModelMessage := []
  promptPrefixMessageCount : Nat := 2
  epochMessages : Option (List ModelMessage) := none
  plan : Option Plan := none
  requiresReplan : Bool := false
  replanCount : Nat := 0
  changeSnapshot : List (String × Option String) := []
  toolHistory : List ToolResult := []
  previousFingerprint : Option String := none
  repeatedActions : Nat := 0
  repeatedErrors : List (String × Nat) := []
  toolFailures : Nat := 0
  updatedAt : Timestamp := 0
deriving DecidableEq

instance : Keyed Session String := ⟨Session.id⟩
instance : Keyed Task String := ⟨Task.id⟩
instance : Keyed Turn String := ⟨Turn.id⟩
instance : Keyed Execution String := ⟨Execution.id⟩
instance : Keyed WorkspaceLease String := ⟨WorkspaceLease.workspaceId⟩
instance : Keyed ManagedCommandIdentity String := ⟨ManagedCommandIdentity.id⟩
instance : Keyed Effect String := ⟨Effect.id⟩
instance : Keyed Approval String := ⟨Approval.id⟩
instance : Keyed ControlRequest String := ⟨ControlRequest.id⟩
instance : Keyed RecoveryDisposition String := ⟨RecoveryDisposition.id⟩
instance : Keyed SessionEvent String := ⟨SessionEvent.id⟩
instance : Keyed AgentStep (String × Nat) := ⟨fun step => (step.taskId, step.index)⟩
instance : Keyed ToolCallRow (String × String) := ⟨fun row => (row.taskId, row.call.id)⟩
instance : Keyed Checkpoint String := ⟨Checkpoint.taskId⟩

structure Store where
  sessions : Table Session := .empty
  tasks : Table Task := .empty
  turns : Table Turn := .empty
  executions : Table Execution := .empty
  workspaceLeases : Table WorkspaceLease := .empty
  managedCommands : Table ManagedCommandIdentity := .empty
  effects : Table Effect := .empty
  approvals : Table Approval := .empty
  controlRequests : Table ControlRequest := .empty
  recoveryDispositions : Table RecoveryDisposition := .empty
  sessionEvents : Table SessionEvent := .empty
  agentSteps : Table AgentStep := .empty
  toolCalls : Table ToolCallRow := .empty
  checkpoints : Table Checkpoint := .empty

/-- What a store operation is: a transaction on the database that may raise a store error. -/
abbrev Action (α : Type) := Transaction StoreError Store α

namespace Store

/-! ### Writes -/

section Writes

variable (s : Store)

@[simps] def putSession (session : Session) : Store :=
  { s with sessions := s.sessions.set session }

@[simps] def addSession (session : Session) : Store :=
  { s with sessions := s.sessions.insert session }

@[simps] def putTask (task : Task) : Store :=
  { s with tasks := s.tasks.set task }

@[simps] def addTask (task : Task) : Store :=
  { s with tasks := s.tasks.insert task }

@[simps] def addTurn (turn : Turn) : Store :=
  { s with turns := s.turns.insert turn }

@[simps] def putExecution (execution : Execution) : Store :=
  { s with executions := s.executions.set execution }

@[simps] def addExecution (execution : Execution) : Store :=
  { s with executions := s.executions.insert execution }

@[simps] def upsertWorkspaceLease (lease : WorkspaceLease) : Store :=
  { s with workspaceLeases := s.workspaceLeases.upsert lease }

@[simps] def putWorkspaceLease (lease : WorkspaceLease) : Store :=
  { s with workspaceLeases := s.workspaceLeases.set lease }

@[simps] def addManagedCommand (identity : ManagedCommandIdentity) : Store :=
  { s with managedCommands := s.managedCommands.insert identity }

@[simps] def putManagedCommand (identity : ManagedCommandIdentity) : Store :=
  { s with managedCommands := s.managedCommands.set identity }

@[simps] def putEffect (effect : Effect) : Store :=
  { s with effects := s.effects.set effect }

@[simps] def addEffects (effects : List Effect) : Store :=
  { s with effects := effects.foldl Table.insert s.effects }

@[simps] def putApproval (approval : Approval) : Store :=
  { s with approvals := s.approvals.set approval }

@[simps] def addApproval (approval : Approval) : Store :=
  { s with approvals := s.approvals.insert approval }

@[simps] def putControlRequest (request : ControlRequest) : Store :=
  { s with controlRequests := s.controlRequests.set request }

@[simps] def addControlRequest (request : ControlRequest) : Store :=
  { s with controlRequests := s.controlRequests.insert request }

@[simps] def addRecoveryDisposition (disposition : RecoveryDisposition) : Store :=
  { s with recoveryDispositions := s.recoveryDispositions.insert disposition }

@[simps] def addSessionEvent (event : SessionEvent) : Store :=
  { s with sessionEvents := s.sessionEvents.insert event }

@[simps] def upsertAgentStep (step : AgentStep) : Store :=
  { s with agentSteps := s.agentSteps.upsert step }

@[simps] def addToolCall (row : ToolCallRow) : Store :=
  { s with toolCalls := s.toolCalls.insert row }

@[simps] def upsertCheckpoint (checkpoint : Checkpoint) : Store :=
  { s with checkpoints := s.checkpoints.upsert checkpoint }

end Writes

/-! ### Queries -/

section Queries

variable (s : Store)

/-- A nullable reference names a row. -/
def HasSession (reference : Option String) : Prop :=
  reference.all (fun id => (s.sessions.get? id).isSome) = true

def HasTask (reference : Option String) : Prop :=
  reference.all (fun id => (s.tasks.get? id).isSome) = true

def HasExecution (reference : Option String) : Prop :=
  reference.all (fun id => (s.executions.get? id).isSome) = true

def HasEffect (reference : Option String) : Prop :=
  reference.all (fun id => (s.effects.get? id).isSome) = true

instance (reference : Option String) : Decidable (s.HasSession reference) :=
  inferInstanceAs (Decidable (_ = _))

instance (reference : Option String) : Decidable (s.HasTask reference) :=
  inferInstanceAs (Decidable (_ = _))

instance (reference : Option String) : Decidable (s.HasExecution reference) :=
  inferInstanceAs (Decidable (_ = _))

instance (reference : Option String) : Decidable (s.HasEffect reference) :=
  inferInstanceAs (Decidable (_ = _))

/-- `SELECT COALESCE(MAX(sequence), 0) FROM turns WHERE session_id = ?` -/
def lastTurnSequence (sessionId : String) : Nat :=
  ((s.turns.rows.filter fun turn => turn.sessionId = sessionId).map Turn.sequence).foldr max 0

/-- `SELECT COALESCE(MAX(generation), 0) FROM executions WHERE task_id = ?` -/
def lastGeneration (taskId : String) : Nat :=
  ((s.executions.rows.filter fun execution => execution.taskId = taskId).map
    Execution.generation).foldr max 0

/-- The active executions a condition selects, `ORDER BY generation DESC`. -/
def activeExecutions (selects : Execution → Bool) : List Execution :=
  (s.executions.rows.filter fun execution => selects execution ∧ execution.status.Active
    ).insertionSort fun left right => right.generation ≤ left.generation

/-- The requested or acknowledged control requests of a task, `ORDER BY requested_at, id`. -/
def pendingControls (taskId : String) : List ControlRequest :=
  (s.controlRequests.rows.filter fun request =>
      request.taskId = taskId ∧ request.status.Pending).insertionSort
    fun left right => left.requestedAt < right.requestedAt
      ∨ left.requestedAt = right.requestedAt ∧ left.id ≤ right.id

/-- The `UNIQUE (effect_id)` row of an effect. -/
def approvalOfEffect (effectId : String) : Option Approval :=
  s.approvals.rows.find? fun approval => approval.effectId = effectId

/-- The `UNIQUE (unknown_effect_id)` row of an effect. -/
def dispositionOfEffect (effectId : String) : Option RecoveryDisposition :=
  s.recoveryDispositions.rows.find? fun disposition => disposition.unknownEffectId = effectId

/-- The `UNIQUE (task_id, step_id, batch_position)` row of an identity. -/
def effectOfIdentity (identityKey : String × String × Nat) : Option Effect :=
  s.effects.rows.find? fun effect => effect.identityKey = identityKey

/-- `_effect_by_id_or_identity`; the row of the id comes first. -/
def effectByIdOrIdentity (effect : Effect) : Option Effect :=
  (s.effects.get? effect.id).or (s.effectOfIdentity effect.identityKey)

/-- The disposition with this id or of this effect; the row of the id comes first. -/
def dispositionByIdOrEffect (id effectId : String) : Option RecoveryDisposition :=
  (s.recoveryDispositions.get? id).or (s.dispositionOfEffect effectId)

end Queries

end Store

/-! ### Loading rows -/

/-- `_require_task` -/
def requireTask (taskId : String) : Action Task := do
  let row ← query fun s => s.tasks.get? taskId
  let task ← orRaise row (.taskNotFound taskId)
  raiseIf (¬ task.ValidStateDimensions) (.valueError "invalid task state dimensions")
  return task

/-- `_require_session` -/
def requireSession (sessionId : String) : Action Session := do
  let row ← query fun s => s.sessions.get? sessionId
  orRaise row (.keyError s!"session not found: {sessionId}")

/-- `_require_effect` -/
def requireEffect (effectId : String) : Action Effect := do
  let row ← query fun s => s.effects.get? effectId
  let effect ← orRaise row (.keyError s!"effect not found: {effectId}")
  raiseIf (¬ effect.Valid) (.valueError "invalid effect references")
  return effect

/-- An approval that must be there, as `Approval.model_validate_json` loads it. -/
def requireApproval (row : Option Approval) (missing : StoreError) : Action Approval := do
  let approval ← orRaise row missing
  raiseIf (¬ approval.Valid) (.valueError "invalid approval decision source")
  return approval

/-- `_check_version` -/
def checkVersion (entityId : String) (actual : Nat) (expected : Option Nat) : Action Unit :=
  match expected with
  | none => pure ()
  | some version => raiseIf (actual ≠ version) (.staleVersion entityId version actual)

/-! ### Guards -/

/-- `_assert_guard` -/
def assertGuard (now : Timestamp) (guard : LeaseGuard) : Action Execution := do
  let row ← query fun s => s.executions.get? guard.executionId
  let execution ← orRaise row (.leaseLost guard.taskId)
  raiseIf (execution.taskId ≠ guard.taskId
      ∨ execution.leaseToken ≠ guard.token
      ∨ execution.generation ≠ guard.generation
      ∨ execution.ownerId ≠ guard.ownerId
      ∨ execution.leaseExpiresAt ≤ now
      ∨ ¬ execution.status.Active)
    (.leaseLost guard.taskId)
  return execution

/-- The guard that `_assert_guard` gets from an optional argument. -/
def assertSuppliedGuard (now : Timestamp) (taskId : String) (guard : Option LeaseGuard) :
    Action Execution := do
  let guard ← orRaise guard (.leaseLost taskId)
  assertGuard now guard

/-- `_assert_legacy_write_guard` -/
def assertLegacyWriteGuard (now : Timestamp) (taskId : String) (guard : Option LeaseGuard) :
    Action Unit := do
  let row ← query fun s => s.tasks.get? taskId
  if (row.bind Task.sessionId).isNone then
    return
  else
    let guard ← orRaise guard (.leaseLost taskId)
    raiseIf (guard.taskId ≠ taskId) (.leaseLost taskId)
    let _ ← assertGuard now guard

/-- `_assert_workspace_guard` -/
def assertWorkspaceGuard (now : Timestamp) (guard : WorkspaceLeaseGuard) :
    Action WorkspaceLease := do
  let row ← query fun s => s.workspaceLeases.get? guard.workspaceId
  let lease ← orRaise row (.leaseLost guard.workspaceId)
  raiseIf (lease.executionId ≠ guard.executionId
      ∨ lease.ownerId ≠ guard.ownerId
      ∨ lease.leaseToken ≠ guard.token
      ∨ lease.generation ≠ guard.generation
      ∨ lease.leaseExpiresAt ≤ now)
    (.leaseLost guard.workspaceId)
  return lease

/-! ### Writing rows -/

/-- `_insert_session_row` -/
def insertSession (session : Session) : Action Unit := do
  let s ← get
  raiseIf (s.sessions.get? session.id ≠ none) (.integrityError "sessions.id")
  raiseIf (¬ s.HasTask session.activeTaskId) (.integrityError "sessions.active_task_id")
  set (s.addSession session)

/-- `_write_session_row` -/
def writeSession (session : Session) : Action Unit :=
  modify fun s => s.putSession session

/-- `_insert_task_row` -/
def insertTask (task : Task) : Action Unit := do
  let s ← get
  raiseIf (s.tasks.get? task.id ≠ none) (.integrityError "tasks.id")
  raiseIf (¬ s.HasSession task.sessionId) (.integrityError "tasks.session_id")
  set (s.addTask task)

/-- `_write_task_row` -/
def writeTask (task : Task) : Action Unit := do
  let s ← get
  raiseIf (s.tasks.get? task.id = none) (.taskNotFound task.id)
  set (s.putTask task)

def insertTurn (turn : Turn) : Action Unit := do
  let s ← get
  raiseIf (s.turns.get? turn.id ≠ none) (.integrityError "turns.id")
  raiseIf (∃ other ∈ s.turns.rows,
      other.sessionId = turn.sessionId ∧ other.sequence = turn.sequence)
    (.integrityError "turns.session_id, turns.sequence")
  raiseIf (¬ s.HasTask turn.taskId) (.integrityError "turns.task_id")
  set (s.addTurn turn)

/-- `_insert_execution_row` -/
def insertExecution (execution : Execution) : Action Unit := do
  let s ← get
  raiseIf (s.executions.get? execution.id ≠ none) (.integrityError "executions.id")
  set (s.addExecution execution)

/-- `_write_execution_row` -/
def writeExecution (execution : Execution) : Action Unit := do
  let s ← get
  raiseIf (s.executions.get? execution.id = none) (.leaseLost execution.taskId)
  set (s.putExecution execution)

/-- `_write_workspace_lease_row` -/
def writeWorkspaceLease (lease : WorkspaceLease) : Action Unit := do
  let s ← get
  raiseIf ((s.workspaceLeases.get? lease.workspaceId).all fun row => row.guard ≠ lease.guard)
    (.leaseLost lease.workspaceId)
  set (s.putWorkspaceLease lease)

/-- `_insert_effect_row` -/
def insertEffect (effect : Effect) : Action Unit := do
  let s ← get
  raiseIf (s.effects.get? effect.id ≠ none) (.integrityError "effects.id")
  raiseIf (s.effectOfIdentity effect.identityKey ≠ none)
    (.integrityError "effects.task_id, effects.step_id, effects.batch_position")
  raiseIf (¬ s.HasTask (some effect.taskId)) (.integrityError "effects.task_id")
  raiseIf (¬ s.HasEffect effect.retryOfEffectId)
    (.integrityError "effects.retry_of_effect_id")
  set (s.addEffects [effect])

def insertEffects : List Effect → Action Unit
  | [] => pure ()
  | effect :: rest => do
      insertEffect effect
      insertEffects rest

/-- `_write_effect_row` -/
def writeEffect (effect : Effect) : Action Unit := do
  let s ← get
  raiseIf (s.effects.get? effect.id = none) (.keyError s!"effect not found: {effect.id}")
  set (s.putEffect effect)

/-- `_insert_approval_row` -/
def insertApproval (approval : Approval) : Action Unit := do
  let s ← get
  raiseIf (s.approvals.get? approval.id ≠ none) (.integrityError "approvals.id")
  raiseIf (s.approvalOfEffect approval.effectId ≠ none) (.integrityError "approvals.effect_id")
  raiseIf (¬ s.HasEffect (some approval.effectId)) (.integrityError "approvals.effect_id")
  set (s.addApproval approval)

/-- `_write_approval_row` -/
def writeApproval (approval : Approval) : Action Unit := do
  let s ← get
  raiseIf (s.approvals.get? approval.id = none)
    (.keyError s!"approval not found: {approval.id}")
  set (s.putApproval approval)

def insertControlRequest (request : ControlRequest) : Action Unit := do
  let s ← get
  raiseIf (s.controlRequests.get? request.id ≠ none) (.integrityError "control_requests.id")
  raiseIf (¬ s.HasExecution request.executionId)
    (.integrityError "control_requests.execution_id")
  set (s.addControlRequest request)

def insertToolCall (row : ToolCallRow) : Action Unit := do
  let s ← get
  raiseIf (s.toolCalls.get? (row.taskId, row.call.id) ≠ none)
    (.integrityError "tool_calls.task_id, tool_calls.call_id")
  set (s.addToolCall row)

/-- `_insert_event_row` -/
def insertEvent (event : SessionEvent) : Action Unit := do
  let s ← get
  raiseIf (s.sessionEvents.get? event.id ≠ none) (.integrityError "session_events.id")
  raiseIf (∃ other ∈ s.sessionEvents.rows,
      other.sessionId = event.sessionId ∧ other.sequence = event.sequence)
    (.integrityError "session_events.session_id, session_events.sequence")
  raiseIf (¬ s.HasTask event.taskId) (.integrityError "session_events.task_id")
  set (s.addSessionEvent event)

/-! ### The journal -/

/-- What a caller of `_journal` says about its event. -/
structure Entry where
  id : String
  type : String
  taskId : Option String := none
  traceId : Option String := none
  data : Json := .obj []

def Entry.event (entry : Entry) (now : Timestamp) (session : Session) : SessionEvent where
  id := entry.id
  sessionId := session.id
  type := entry.type
  taskId := entry.taskId
  traceId := entry.traceId
  sequence := session.eventSequence + 1
  data := entry.data
  timestamp := now

/-- `_journal`: the event takes the next sequence of the session, which is written back. -/
def journal (now : Timestamp) (session : Session) (entry : Entry) : Action SessionEvent := do
  raiseIf (entry.traceId = some "") (.valueError "trace_id must not be empty")
  let event := entry.event now session
  insertEvent event
  writeSession { session with eventSequence := event.sequence }
  return event

/-- The journal entry of an operation on a task that may have no session. -/
def journalTask (now : Timestamp) (task : Task) (entry : Entry) : Action (Option SessionEvent) :=
  match task.sessionId with
  | none => pure none
  | some sessionId => do
      let session ← requireSession sessionId
      let event ← journal now session entry
      return some event

/-- `_journal_approval` -/
def journalApproval [Sha256] (now : Timestamp) (approval : Approval) (eventType : String) :
    Action Unit := do
  let effect ← requireEffect approval.effectId
  let task ← requireTask effect.taskId
  let _ ← journalTask now task {
    id := journalEventId eventType approval.id (toString approval.version)
    type := eventType
    taskId := some task.id
    data := .obj [("approval_id", .str approval.id), ("effect_id", .str effect.id),
      ("status", .str approval.status.value)] }

/-- The checkpoint that `_advance_checkpoint_event_cursor` writes. -/
def Checkpoint.advanced (checkpoint : Checkpoint) (now : Timestamp) (sequence : Nat)
    (completedEffectId : Option String) : Checkpoint :=
  { checkpoint with
    eventSequence := sequence
    pendingEffectIds := checkpoint.pendingEffectIds.filter fun id => some id ≠ completedEffectId
    updatedAt := now }

/-- `_advance_checkpoint_event_cursor` -/
def advanceCheckpointEventCursor (now : Timestamp) (taskId : String) (sequence : Nat)
    (completedEffectId : Option String) : Action Unit := do
  let s ← get
  match s.checkpoints.get? taskId with
  | none => return
  | some checkpoint =>
      set (s.upsertCheckpoint (checkpoint.advanced now sequence completedEffectId))

/-- The journal entry of an effect, and the cursor of its task's checkpoint. -/
def journalEffect (now : Timestamp) (task : Task) (entry : Entry)
    (completedEffectId : Option String) : Action Unit := do
  match ← journalTask now task entry with
  | none => return
  | some event => advanceCheckpointEventCursor now task.id event.sequence completedEffectId

end PatchLoop
