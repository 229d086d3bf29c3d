import PatchLoop.Store.Recovery
import PatchLoop.Store.Migration
import PatchLoop.Lib.Run

/-!
# Operations

A call of the store with its arguments. An operation is one transaction at one clock time; what a
database goes through is a list of timed operations, in the order in which their transactions ran,
by whatever clients.
-/

namespace PatchLoop

open Transaction

/-- The conditional operations of the store: all of its writes but `save_task`, `delete_task` and
`record_artifact`. -/
inductive Op where
  | createSession (session : Session)
  | closeSession (sessionId : String) (expectedVersion : Nat)
  | appendTurn (turn : Turn) (expectedVersion : Option Nat)
  | appendEvent (event : SessionEvent) (expectedSequence : Option Nat)
  | startTask (sessionId : String) (task : Task) (expectedVersion : Nat)
  | prepareTaskExecution (task : Task)
  | createTask (task : Task)
  | updateTask (task : Task) (expectedVersion : Nat) (guard : Option LeaseGuard)
  | cancelTask (taskId controlId : String)
  | requestControl (request : ControlRequest) (expectedVersion : Nat)
  | settleControl (requestId : String) (status : ControlStatus) (expectedVersion : Nat)
      (cleanupInfo : Option String)
  | commitCheckpoint (checkpoint : Checkpoint) (expectedVersion : Nat) (guard : LeaseGuard)
  | saveCheckpoint (checkpoint : Checkpoint) (guard : Option LeaseGuard)
  | recordStep (step : AgentStep) (guard : Option LeaseGuard)
  | recordToolCall (taskId : String) (call : ToolCall) (result : ToolResult)
      (guard : Option LeaseGuard)
  | commitToolResult (taskId : String) (call : ToolCall) (result : ToolResult)
      (expectedVersion : Option Nat) (guard : Option LeaseGuard)
  | claimExecution (execution : Execution) (expectedVersion : Option Nat)
  | renewExecution (guard : LeaseGuard) (leaseExpiresAt : Timestamp)
  | releaseExecution (guard : LeaseGuard)
  | acquireWorkspaceWriter (lease : WorkspaceLease) (guard : LeaseGuard)
  | renewWorkspaceWriter (guard : WorkspaceLeaseGuard) (leaseExpiresAt : Timestamp)
  | releaseWorkspaceWriter (guard : WorkspaceLeaseGuard)
  | registerManagedCommand (identity : ManagedCommandIdentity) (guard : LeaseGuard)
  | finishManagedCommand (identity : ManagedCommandIdentity)
  | markCommandRecoveryRequired (identity : ManagedCommandIdentity) (cleanupInfo : String)
  | prepareEffects (effects : List Effect) (expectedVersion : Nat) (guard : Option LeaseGuard)
  | prepareEffectBatch (step : AgentStep) (effects : List Effect) (expectedVersion : Nat)
      (guard : Option LeaseGuard)
  | decideApproval (approval : Approval) (expectedVersion : Option Nat)
  | requestEffectApproval (effectId : String) (approval : Approval) (expectedVersion : Nat)
      (guard : LeaseGuard)
  | resolveEffectApproval (approvalId : String) (approved : Bool) (source : String)
      (expectedVersion : Nat) (workspaceRef policyVersion configVersion : String)
  | claimEffect (effectId : String) (expectedVersion : Nat) (guard : LeaseGuard)
      (conditions : ClaimConditions)
  | commitEffect (effect : Effect) (expectedVersion : Nat)
      (resultRef observationRef : Option String) (guard : LeaseGuard)
      (observation : Option (ToolCall × ToolResult))
  | markEffectUnknown (effectId : String) (expectedVersion : Nat) (evidence : Json)
      (guard : LeaseGuard)
  | settleUnexecutedEffect (effectId : String) (status : EffectStatus) (expectedVersion : Nat)
      (call : ToolCall) (result : ToolResult) (guard : LeaseGuard)
  | resolveRecovery (disposition : RecoveryDisposition) (taskId : String) (expectedVersion : Nat)
      (resolution : Resolution)

variable [Sha256]

/-- The result of an operation is dropped: what matters to the database is its transaction. -/
def discard {α : Type} (action : Action α) : Action Unit := do
  let _ ← action

/-- One operation at one time. -/
def exec (now : Timestamp) : Op → Action Unit
  | .createSession session => discard (createSession now session)
  | .closeSession sessionId version => discard (closeSession now sessionId version)
  | .appendTurn turn version => discard (appendTurn now turn version)
  | .appendEvent event sequence => discard (appendEvent event sequence)
  | .startTask sessionId task version => discard (startTask now sessionId task version)
  | .prepareTaskExecution task => discard (prepareTaskExecution task)
  | .createTask task => discard (createTask now task)
  | .updateTask task version guard => discard (updateTask now task version guard)
  | .cancelTask taskId controlId => discard (cancelTask now taskId controlId)
  | .requestControl request version => discard (requestControl now request version)
  | .settleControl requestId status version cleanupInfo =>
      discard (settleControl now requestId status version cleanupInfo)
  | .commitCheckpoint checkpoint version guard =>
      discard (commitCheckpoint now checkpoint version guard)
  | .saveCheckpoint checkpoint guard => saveCheckpoint now checkpoint guard
  | .recordStep agentStep guard => recordStep now agentStep guard
  | .recordToolCall taskId call result guard => recordToolCall now taskId call result guard
  | .commitToolResult taskId call result version guard =>
      discard (commitToolResult now taskId call result version guard)
  | .claimExecution execution version => discard (claimExecution now execution version)
  | .renewExecution guard leaseExpiresAt => discard (renewExecution now guard leaseExpiresAt)
  | .releaseExecution guard => releaseExecution now guard
  | .acquireWorkspaceWriter lease guard => discard (acquireWorkspaceWriter now lease guard)
  | .renewWorkspaceWriter guard leaseExpiresAt =>
      discard (renewWorkspaceWriter now guard leaseExpiresAt)
  | .releaseWorkspaceWriter guard => releaseWorkspaceWriter now guard
  | .registerManagedCommand identity guard =>
      discard (registerManagedCommand now identity guard)
  | .finishManagedCommand identity => discard (finishManagedCommand identity)
  | .markCommandRecoveryRequired identity cleanupInfo =>
      discard (markCommandRecoveryRequired now identity cleanupInfo)
  | .prepareEffects effects version guard => discard (prepareEffects now effects version guard)
  | .prepareEffectBatch agentStep effects version guard =>
      discard (prepareEffectBatch now agentStep effects version guard)
  | .decideApproval approval version => discard (decideApproval now approval version)
  | .requestEffectApproval effectId approval version guard =>
      discard (requestEffectApproval now effectId approval version guard)
  | .resolveEffectApproval approvalId approved source version workspaceRef policyVersion
      configVersion =>
      discard (resolveEffectApproval now approvalId approved source version workspaceRef
        policyVersion configVersion)
  | .claimEffect effectId version guard conditions =>
      discard (claimEffect now effectId version guard conditions)
  | .commitEffect effect version resultRef observationRef guard observation =>
      discard (commitEffect now effect version resultRef observationRef guard observation)
  | .markEffectUnknown effectId version evidence guard =>
      discard (markEffectUnknown now effectId version evidence guard)
  | .settleUnexecutedEffect effectId status version call result guard =>
      discard (settleUnexecutedEffect now effectId status version call result guard)
  | .resolveRecovery disposition taskId version resolution =>
      discard (resolveRecovery now disposition taskId version resolution)

/-- An operation and the clock time at which it runs. -/
structure Timed where
  now : Timestamp
  op : Op

/-- The operation returns in this state. -/
def Accepted (s : Store) (timed : Timed) : Prop :=
  ((exec timed.now timed.op).run s).isOk = true

instance (s : Store) (timed : Timed) : Decidable (Accepted s timed) :=
  inferInstanceAs (Decidable (_ = _))

/-- The database after an operation; one that raises leaves it as it was. -/
def step (s : Store) (timed : Timed) : Store := (exec timed.now timed.op).commit s

/-- The database after a list of operations. -/
def runFrom (s : Store) (history : List Timed) : Store := Run.after step s history

theorem runFrom_append (s : Store) (earlier later : List Timed) :
    runFrom s (earlier ++ later) = runFrom (runFrom s earlier) later :=
  Run.after_append step s earlier later

/-! ### A sample database -/

namespace Sample

/-- A digest that keeps the text, so that no two texts share one. -/
@[reducible] def digest : Sha256 := ⟨fun text => s!"sha256({text})"⟩

def session (id : String) : Session where
  id := id
  workspaceRef := "/repo"

def task (id : String) : Task where
  id := id
  goal := "fix the test"
  repository := "/repo"

/-- The execution as a client hands it to `claim_execution`. -/
def execution (id sessionId taskId : String) (leaseExpiresAt : Timestamp) : Execution where
  id := id
  sessionId := sessionId
  taskId := taskId
  ownerId := "owner-" ++ id
  leaseToken := "token-" ++ id
  leaseExpiresAt := leaseExpiresAt

/-- The guard of the first execution of a task. -/
def guard (id taskId : String) : LeaseGuard where
  executionId := id
  taskId := taskId
  token := "token-" ++ id
  generation := 1
  ownerId := "owner-" ++ id

/-- A session with a running task: the execution is claimed at time zero, until this time. -/
def started (sessionId taskId executionId : String) (leaseExpiresAt : Timestamp) : List Timed :=
  [⟨0, .createSession (session sessionId)⟩, ⟨0, .startTask sessionId (task taskId) 1⟩,
    ⟨0, .claimExecution (execution executionId sessionId taskId leaseExpiresAt) none⟩]

/-- A prepared write of the task's only step. -/
def effect (id taskId : String) : Effect where
  id := id
  taskId := taskId
  stepId := "step-" ++ taskId
  batchPosition := 0
  providerCallId := "call-" ++ id
  toolName := "write_file"
  actionKind := "write"

/-- A pending request for exactly this effect. -/
def approval (id : String) (effect : Effect) : Approval where
  id := id
  effectId := effect.id
  effectFingerprint := effect.contentFingerprint
  argumentsFingerprint := effect.argumentsFingerprint
  workspaceRef := "/repo"
  actionSummary := "write a file"
  policyVersion := "1"
  configVersion := "1"
  createdAt := 0

end Sample

end PatchLoop
