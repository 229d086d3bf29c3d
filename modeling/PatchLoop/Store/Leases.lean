import PatchLoop.Store.Schema

/-!
# Execution leases, workspace writers, managed commands

The operations of `SQLiteStore` that claim, renew and release ownership. The `now` argument of the
source and its own reading of the clock are one clock.
-/

namespace PatchLoop

open Transaction

variable [Sha256]

/-! ### Executions -/

/-- The row that ends an execution, as released or as in need of recovery. -/
def Execution.ended (execution : Execution) (status : ExecutionStatus) : Execution :=
  { execution with status := status, version := execution.version + 1 }

omit [Sha256] in
/-- The takeover loop of `claim_execution`: every active row has to be expired, and is released.
The result says whether there was one. -/
def expireExecutions (now : Timestamp) (resourceId : String) : List Execution → Action Bool
  | [] => return false
  | active :: rest => do
      raiseIf (now < active.leaseExpiresAt) (.leaseConflict resourceId (some active.ownerId))
      writeExecution (active.ended .released)
      let _ ← expireExecutions now resourceId rest
      return true

/-- The journal data of a lease event. -/
def leaseData (executionId scope resourceId ownerId : String) (generation : Nat)
    (recoveryAdvice : String) : Json :=
  .obj [("execution_id", .str executionId), ("generation", .int generation),
    ("owner_summary", .str (leaseOwnerSummary ownerId)),
    ("recovery_advice", .str recoveryAdvice), ("resource_id", .str resourceId),
    ("scope", .str scope)]

/-- The type of the event that an acquisition journals. -/
def acquisitionType (takeover : Bool) : String :=
  if takeover then "lease.takeover" else "lease.acquired"

def claimExecution (now : Timestamp) (execution : Execution) (expectedVersion : Option Nat) :
    Action Execution := do
  raiseIf (execution.leaseExpiresAt ≤ now)
    (.valueError "execution lease must expire in the future")
  let session ← requireSession execution.sessionId
  let sessionRows ← query fun s =>
    s.activeExecutions fun row => row.sessionId = execution.sessionId
  let sessionTakeover ← expireExecutions now execution.sessionId sessionRows
  let task ← requireTask execution.taskId
  checkVersion task.id task.version expectedVersion
  raiseIf (task.sessionId ≠ some execution.sessionId)
    (.valueError "execution session does not own its task")
  raiseIf (task.runtimeCondition = .recoveryRequired) (.recoveryRequired task.id none)
  let taskRows ← query fun s => s.activeExecutions fun row => row.taskId = execution.taskId
  let taskTakeover ← expireExecutions now execution.taskId taskRows
  let existing ← query fun s => s.executions.get? execution.id
  raiseIf (existing ≠ none) (.valueError s!"execution already exists: {execution.id}")
  let tokens ← query fun s => s.executions.rows.map Execution.leaseToken
  raiseIf (execution.leaseToken ∈ tokens) (.valueError "execution lease token was already used")
  let generation ← query fun s => s.lastGeneration execution.taskId + 1
  let claimed := { execution with generation := generation, status := .running }
  insertExecution claimed
  writeTask { task with runtimeCondition := .running, version := task.version + 1 }
  let takeover := sessionTakeover || taskTakeover
  let _ ← journal now session {
    id := journalEventId (acquisitionType takeover) claimed.id (toString claimed.generation)
    type := acquisitionType takeover
    taskId := some task.id
    data := leaseData claimed.id "execution" claimed.taskId claimed.ownerId claimed.generation
      (if takeover then "verify prior managed commands before writes"
        else "renew before lease expiry") }
  return claimed

omit [Sha256] in
def renewExecution (now : Timestamp) (guard : LeaseGuard) (leaseExpiresAt : Timestamp) :
    Action Execution := do
  raiseIf (leaseExpiresAt ≤ now)
    (.valueError "renewed execution lease must expire in the future")
  let execution ← assertGuard now guard
  let renewed :=
    { execution with leaseExpiresAt := leaseExpiresAt, version := execution.version + 1 }
  writeExecution renewed
  return renewed

def releaseExecution (now : Timestamp) (guard : LeaseGuard) : Action Unit := do
  let execution ← assertGuard now guard
  let released := execution.ended .released
  writeExecution released
  let task ← requireTask released.taskId
  doIf (task.runtimeCondition = .running)
    (writeTask { task with runtimeCondition := .idle, version := task.version + 1 })
  let _ ← journalTask now task {
    id := journalEventId "lease.released" released.id (toString released.version)
    type := "lease.released"
    taskId := some task.id
    data := leaseData released.id "execution" released.taskId released.ownerId
      released.generation "safe to acquire a new execution lease" }

/-! ### Workspace writers -/

def acquireWorkspaceWriter (now : Timestamp) (lease : WorkspaceLease) (guard : LeaseGuard) :
    Action WorkspaceLease := do
  raiseIf (lease.leaseExpiresAt ≤ now) (.valueError "workspace lease must expire in the future")
  let execution ← assertGuard now guard
  raiseIf (lease.executionId ≠ execution.id
      ∨ lease.sessionId ≠ execution.sessionId
      ∨ lease.taskId ≠ execution.taskId
      ∨ lease.ownerId ≠ execution.ownerId)
    (.leaseLost lease.workspaceId)
  let existing ← query fun s => s.workspaceLeases.get? lease.workspaceId
  raiseIf (existing.any fun row => now < row.leaseExpiresAt)
    (.leaseConflict lease.workspaceId (existing.map WorkspaceLease.ownerId))
  raiseIf (existing.any fun row => row.leaseToken = lease.leaseToken)
    (.valueError "workspace lease token was already used")
  let prior ← query fun s => existing.bind fun row => s.executions.get? row.executionId
  let takeover := prior.any fun row => row.status.Active
  let acquired :=
    { lease with generation := (existing.map WorkspaceLease.generation).getD 0 + 1 }
  modify fun s => s.upsertWorkspaceLease acquired
  let session ← requireSession acquired.sessionId
  let _ ← journal now session {
    id := journalEventId (acquisitionType takeover) acquired.workspaceId
      (toString acquired.generation)
    type := acquisitionType takeover
    taskId := some acquired.taskId
    data := leaseData acquired.executionId "workspace" acquired.workspaceId acquired.ownerId
      acquired.generation
      (if takeover then "prior writer cleanup confirmed before takeover"
        else "release after managed command cleanup") }
  return acquired

omit [Sha256] in
def renewWorkspaceWriter (now : Timestamp) (guard : WorkspaceLeaseGuard)
    (leaseExpiresAt : Timestamp) : Action WorkspaceLease := do
  raiseIf (leaseExpiresAt ≤ now)
    (.valueError "renewed workspace lease must expire in the future")
  let existing ← assertWorkspaceGuard now guard
  let renewed := { existing with leaseExpiresAt := leaseExpiresAt }
  writeWorkspaceLease renewed
  return renewed

def releaseWorkspaceWriter (now : Timestamp) (guard : WorkspaceLeaseGuard) : Action Unit := do
  let existing ← assertWorkspaceGuard now guard
  writeWorkspaceLease { existing with leaseExpiresAt := now }
  let session ← requireSession existing.sessionId
  let _ ← journal now session {
    id := journalEventId "lease.released" existing.workspaceId
      s!"{existing.generation}:{existing.executionId}"
    type := "lease.released"
    taskId := some existing.taskId
    data := leaseData existing.executionId "workspace" existing.workspaceId existing.ownerId
      existing.generation "safe to acquire a new workspace writer" }

/-! ### Managed commands -/

omit [Sha256] in
def registerManagedCommand (now : Timestamp) (identity : ManagedCommandIdentity)
    (guard : LeaseGuard) : Action ManagedCommandIdentity := do
  let execution ← assertGuard now guard
  raiseIf (identity.executionId ≠ execution.id) (.leaseLost execution.taskId)
  let existing ← query fun s => s.managedCommands.get? identity.id
  raiseIf (existing ≠ none) (.integrityError "managed_commands.id")
  modify fun s => s.addManagedCommand identity
  return identity

omit [Sha256] in
def finishManagedCommand (identity : ManagedCommandIdentity) : Action ManagedCommandIdentity := do
  raiseIf (identity.status = .running)
    (.valueError "a finished managed command cannot remain running")
  let row ← query fun s => s.managedCommands.get? identity.id
  let current ← orRaise row (.keyError s!"managed command not found: {identity.id}")
  raiseIf (current.immutableIdentity ≠ identity.immutableIdentity)
    (.leaseLost identity.executionId)
  if current.status = .exited ∨ current.status = .terminated then
    return current
  else
    modify fun s => s.putManagedCommand identity
    return identity

/-- `mark_command_recovery_required`, after the cleanup of a command has failed. -/
def markCommandRecoveryRequired (now : Timestamp) (identity : ManagedCommandIdentity)
    (cleanupInfo : String) : Action String := do
  let row ← query fun s => s.executions.get? identity.executionId
  let execution ← orRaise row (.keyError s!"execution not found: {identity.executionId}")
  writeExecution (execution.ended .recoveryRequired)
  let task ← requireTask execution.taskId
  let recoveryTask :=
    { task with runtimeCondition := .recoveryRequired, version := task.version + 1 }
  writeTask recoveryTask
  let _ ← journalTask now task {
    id := journalEventId "command.recovery_required" identity.id (toString recoveryTask.version)
    type := "command.recovery_required"
    taskId := some task.id
    data := .obj [("command_id", .str identity.id), ("execution_id", .str identity.executionId),
      ("reason", .str (String.ofList (cleanupInfo.toList.take 256)))] }
  return task.id

end PatchLoop
