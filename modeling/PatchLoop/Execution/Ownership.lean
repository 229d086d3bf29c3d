import PatchLoop.Lib.Client
import PatchLoop.Store.Calls

/-!
# Taking ownership

`ExecutionOwnershipManager.acquire` of `execution/ownership.py`: the commands of expired owners are
reconciled, then the execution and the workspace are claimed. Each store call is a transaction of its
own, and other callers use the store between any two of them.
-/

namespace PatchLoop

open Transaction

/-- `str(exc)` -/
def StoreError.text : StoreError → String
  | .staleVersion entityId expected actual =>
      s!"stale version for {entityId}: expected {expected}, actual {actual}"
  | .leaseConflict resourceId _ => s!"execution lease is already held for {resourceId}"
  | .leaseLost resourceId => s!"execution lease is no longer valid for {resourceId}"
  | .approvalConflict approvalId actual requested =>
      s!"approval {approvalId} already has decision {actual}; cannot apply {requested}"
  | .effectIdentityConflict effectId _ => s!"effect identity conflict for {effectId}"
  | .recoveryRequired taskId _ => s!"recovery disposition is required for task {taskId}"
  | .submissionConflict sessionId clientSubmissionId =>
      s!"client submission {clientSubmissionId} conflicts in session {sessionId}"
  | .inputRevisionConflict sessionId expected actual =>
      s!"input revision changed for {sessionId}: expected {expected}, actual {actual}"
  | .controlRequested taskId requestId =>
      s!"control request {requestId} is pending for task {taskId}"
  | .taskNotFound taskId => taskId
  | .keyError message => "'" ++ message ++ "'"
  | .valueError message => message
  | .integrityError constraint => constraint

/-! ### The store calls of the manager -/

/-- The command was registered by an execution of the task whose lease has expired. -/
def Store.ExpiredCommand (s : Store) (taskId : String) (now : Timestamp)
    (identity : ManagedCommandIdentity) : Prop :=
  ∃ execution ∈ s.executions.get? identity.executionId,
    execution.taskId = taskId ∧ execution.leaseExpiresAt ≤ now

instance (s : Store) (taskId : String) (now : Timestamp) (identity : ManagedCommandIdentity) :
    Decidable (s.ExpiredCommand taskId now identity) :=
  inferInstanceAs (Decidable (∃ _ ∈ _, _))

/-- The command was registered by the execution in the lease row of the workspace, which has
expired. -/
def Store.HolderCommand (s : Store) (workspaceId : String) (now : Timestamp)
    (identity : ManagedCommandIdentity) : Prop :=
  ∃ lease ∈ s.workspaceLeases.get? workspaceId,
    lease.executionId = identity.executionId ∧ lease.leaseExpiresAt ≤ now

instance (s : Store) (workspaceId : String) (now : Timestamp) (identity : ManagedCommandIdentity) :
    Decidable (s.HolderCommand workspaceId now identity) :=
  inferInstanceAs (Decidable (∃ _ ∈ _, _))

/-- `ORDER BY managed_commands.started_at, managed_commands.id` -/
def sortCommands (identities : List ManagedCommandIdentity) : List ManagedCommandIdentity :=
  identities.insertionSort fun left right => left.startedAt < right.startedAt
    ∨ left.startedAt = right.startedAt ∧ left.id ≤ right.id

/-- The unfinished commands that a condition selects. -/
def Store.unfinishedCommands (s : Store) (selects : ManagedCommandIdentity → Prop)
    [DecidablePred selects] : List ManagedCommandIdentity :=
  sortCommands <| s.managedCommands.rows.filter fun identity =>
    selects identity ∧ identity.status.Unfinished

theorem mem_unfinishedCommands {s : Store} {selects : ManagedCommandIdentity → Prop} [DecidablePred selects]
    {identity : ManagedCommandIdentity} :
    identity ∈ s.unfinishedCommands selects
      ↔ identity ∈ s.managedCommands.rows ∧ selects identity ∧ identity.status.Unfinished := by
  rw [Store.unfinishedCommands, sortCommands, List.mem_insertionSort, List.mem_filter]
  simp

/-- `recovery_commands_for_task` -/
def recoveryCommandsForTask (taskId : String) (now : Timestamp) :
    Action (List ManagedCommandIdentity) :=
  query fun s => s.unfinishedCommands (s.ExpiredCommand taskId now)

/-- `recovery_commands_for_workspace` -/
def recoveryCommandsForWorkspace (workspaceId : String) (now : Timestamp) :
    Action (List ManagedCommandIdentity) :=
  query fun s => s.unfinishedCommands (s.HolderCommand workspaceId now)

/-- An operation with the check of the references of the sessions it has written. -/
def checkingReferences {α : Type} (action : Action α) : Action α := do
  let before ← get
  let result ← action
  let s ← get
  raiseIf (¬ s.ReferencesTasks before) (.integrityError "sessions.active_task_id")
  return result

/-! ### The manager -/

/-- What surrounds a manager: what the other callers of the store do before each of its calls, and
what becomes of a process that `reconcile_managed_command` terminates or looks for: the reason it
records, or the error it raises. -/
structure Surroundings where
  others : Nat → List Call
  cleanup : Nat → ManagedCommandIdentity → Except String String

/-- The arguments of `acquire`, with what its clock and its factories return. A workspace writer names
the workspace of its repository. -/
structure AcquireRequest where
  sessionId : String
  taskId : String
  ownerId : String
  expectedVersion : Option Nat := none
  workspace : Option (String × String) := none
  now : Timestamp
  ttl : Nat
  executionId : String
  executionToken : String
  workspaceToken : String

structure ExecutionOwnership where
  execution : Execution
  workspaceLease : Option WorkspaceLease := none
deriving DecidableEq

/-- A manager over the store that returns `α` or raises. -/
abbrev Manager (α : Type) := Client StoreError Store α

/-- The identity that `reconcile_managed_command` returns. -/
def ManagedCommandIdentity.reconciled (identity : ManagedCommandIdentity) (reason : String) :
    ManagedCommandIdentity :=
  { identity with status := .terminated, cleanupReason := some reason }

/-- `str(exc)[:256]` -/
def cleanupInfo (message : String) : String := String.ofList (message.toList.take 256)

/-- The identity that records a failed cleanup. -/
def ManagedCommandIdentity.cleanupFailed (identity : ManagedCommandIdentity) (message : String) :
    ManagedCommandIdentity :=
  { identity with status := .cleanupFailed, cleanupReason := some (cleanupInfo message) }

variable [Sha256]

/-- A call of the store. -/
def callStore {α : Type} (env : Surroundings) (action : Action α) : Manager α :=
  Client.call callStep env.others (checkingReferences action)

/-- `except Exception as exc:` in `_reconcile_commands` -/
def recordCleanupFailure (env : Surroundings) (now : Timestamp) (identity : ManagedCommandIdentity)
    (message : String) : Manager Unit := do
  let recorded ← callStore env (finishManagedCommand (identity.cleanupFailed message))
  if recorded.status.Unfinished then do
    let taskId ← callStore env
      (markCommandRecoveryRequired now (identity.cleanupFailed message) (cleanupInfo message))
    throw (.recoveryRequired taskId (some identity.id))
  else pure ()

/-- One round of `_reconcile_commands`. -/
def reconcileCommand (env : Surroundings) (now : Timestamp) (identity : ManagedCommandIdentity) :
    Manager Unit := do
  let w ← get
  match env.cleanup w.turn identity with
  | .ok reason =>
      tryCatch (do let _ ← callStore env (finishManagedCommand (identity.reconciled reason)))
        fun exc => recordCleanupFailure env now identity exc.text
  | .error message => recordCleanupFailure env now identity message

/-- `_reconcile_commands` -/
def reconcileCommands (env : Surroundings) (now : Timestamp) :
    List ManagedCommandIdentity → Manager Unit
  | [] => pure ()
  | identity :: rest => do
      reconcileCommand env now identity
      reconcileCommands env now rest

/-- `_token` -/
def newToken (token : String) (differentFrom : Option String) : Manager String :=
  if token = "" ∨ some token = differentFrom then
    throw (.valueError "lease token factory must return a new non-empty token")
  else pure token

/-- `_record_lease_event` for a contended resource; the caller suppresses what it raises. -/
def recordContention (env : Surroundings) (now : Timestamp) (execution : Execution)
    (scope resourceId recoveryAdvice : String) (holderId : Option String) : Manager Unit :=
  let event : SessionEvent := {
    id := journalEventId "lease.contended" execution.id
      s!"{scope}:{resourceId}:{execution.generation}:{now}"
    sessionId := execution.sessionId
    taskId := some execution.taskId
    type := "lease.contended"
    data := .obj <|
      [("execution_id", .str execution.id), ("generation", .int execution.generation)]
      ++ (holderId.map fun holder => ("holder_summary", .str (leaseOwnerSummary holder))).toList
      ++ [("owner_summary", .str (leaseOwnerSummary execution.ownerId)),
        ("recovery_advice", .str recoveryAdvice), ("resource_id", .str resourceId),
        ("scope", .str scope)]
    timestamp := now }
  tryCatch (do let _ ← callStore env (appendEvent event none)) fun _ => pure ()

/-- `if isinstance(exc, LeaseConflict):`, before the error is raised again. -/
def reportConflict (env : Surroundings) (now : Timestamp) (execution : Execution)
    (scope : String → String) (recoveryAdvice : String) : StoreError → Manager Unit
  | .leaseConflict resourceId holderId =>
      recordContention env now execution (scope resourceId) resourceId recoveryAdvice holderId
  | _ => pure ()

/-- The execution that `acquire` asks for. -/
def AcquireRequest.candidate (request : AcquireRequest) : Execution where
  id := request.executionId
  sessionId := request.sessionId
  taskId := request.taskId
  ownerId := request.ownerId
  leaseToken := request.executionToken
  leaseExpiresAt := request.now + request.ttl

/-- The claim of the execution, whose contention is recorded. -/
def claimCandidate (env : Surroundings) (request : AcquireRequest) : Manager Execution :=
  tryCatch (callStore env (claimExecution request.now request.candidate request.expectedVersion))
    fun exc => do
      reportConflict env request.now request.candidate
        (fun resourceId => if resourceId = request.sessionId then "session" else "task")
        "wait for the current owner or retry after lease expiry" exc
      throw exc

/-- `acquire` up to the claim of the execution. -/
def acquireExecution (env : Surroundings) (request : AcquireRequest) : Manager Execution := do
  let commands ← callStore env (recoveryCommandsForTask request.taskId request.now)
  reconcileCommands env request.now commands
  let _ ← newToken request.executionToken none
  claimCandidate env request

/-- The lease that `acquire` asks for. -/
def AcquireRequest.lease (request : AcquireRequest) (execution : Execution)
    (workspaceId repositoryPath : String) : WorkspaceLease where
  workspaceId := workspaceId
  repositoryPath := repositoryPath
  sessionId := request.sessionId
  taskId := request.taskId
  executionId := execution.id
  ownerId := request.ownerId
  leaseToken := request.workspaceToken
  leaseExpiresAt := execution.leaseExpiresAt

/-- The `try` block of the workspace in `acquire`. -/
def takeWorkspace (env : Surroundings) (request : AcquireRequest) (execution : Execution)
    (workspaceId repositoryPath : String) : Manager WorkspaceLease := do
  let commands ← callStore env (recoveryCommandsForWorkspace workspaceId request.now)
  reconcileCommands env request.now commands
  let _ ← newToken request.workspaceToken (some request.executionToken)
  callStore env (acquireWorkspaceWriter request.now
    (request.lease execution workspaceId repositoryPath) execution.guard)

/-- The workspace of an execution that has just been claimed, which is released when it fails. -/
def acquireWorkspace (env : Surroundings) (request : AcquireRequest) (execution : Execution)
    (workspaceId repositoryPath : String) : Manager WorkspaceLease :=
  tryCatch (takeWorkspace env request execution workspaceId repositoryPath)
    fun exc => do
      reportConflict env request.now execution (fun _ => "workspace")
        "wait for the writer or retry after verified process cleanup" exc
      callStore env (releaseExecution request.now execution.guard)
      throw exc

/-- `ExecutionOwnershipManager.acquire` -/
def acquire (env : Surroundings) (request : AcquireRequest) : Manager ExecutionOwnership := do
  let execution ← acquireExecution env request
  match request.workspace with
  | none => return { execution := execution }
  | some (workspaceId, repositoryPath) => do
      let lease ← acquireWorkspace env request execution workspaceId repositoryPath
      return { execution := execution, workspaceLease := some lease }

end PatchLoop
