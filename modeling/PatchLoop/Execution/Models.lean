import PatchLoop.Domain

/-!
# Executions, effects, approvals, recovery

The serializable models of execution ownership, effects and recovery. `Model.Valid` collects the
field checks of a model that a row written by the store can fail, because the store builds it with
`model_copy`, which checks nothing; a row is checked when it is loaded.
-/

namespace PatchLoop

inductive ExecutionStatus where
  | claimed | running | waitingForApproval | paused | completed | failed | cancelled
  | recoveryRequired | released
deriving DecidableEq

inductive EffectStatus where
  | prepared | waitingForApproval | executing | succeeded | failed | denied | unknown | cancelled
deriving DecidableEq

inductive ApprovalStatus where
  | pending | approved | consumed | denied | expired
deriving DecidableEq

inductive ControlKind where
  | pause | cancel
deriving DecidableEq

inductive ControlStatus where
  | requested | acknowledged | settled | cleanupFailed
deriving DecidableEq

inductive RecoveryDispositionKind where
  | confirmResult | createRetry | abandon
deriving DecidableEq

inductive ManagedCommandStatus where
  | running | exited | terminated | cleanupFailed
deriving DecidableEq

namespace EffectStatus

def value : EffectStatus → String
  | prepared => "prepared"
  | waitingForApproval => "waiting_for_approval"
  | executing => "executing"
  | succeeded => "succeeded"
  | failed => "failed"
  | denied => "denied"
  | unknown => "unknown"
  | cancelled => "cancelled"

/-- The targets `Effect.transition` allows. -/
def allowed : EffectStatus → List EffectStatus
  | prepared => [waitingForApproval, executing, denied]
  | waitingForApproval => [prepared, denied, cancelled]
  | executing => [succeeded, failed, unknown]
  | succeeded | failed | denied | unknown | cancelled => []

end EffectStatus

def ApprovalStatus.value : ApprovalStatus → String
  | pending => "pending"
  | approved => "approved"
  | consumed => "consumed"
  | denied => "denied"
  | expired => "expired"

def ControlKind.value : ControlKind → String
  | pause => "pause"
  | cancel => "cancel"

namespace ControlStatus

def value : ControlStatus → String
  | requested => "requested"
  | acknowledged => "acknowledged"
  | settled => "settled"
  | cleanupFailed => "cleanup_failed"

/-- The targets `ControlRequest.transition` allows. -/
def allowed : ControlStatus → List ControlStatus
  | requested => [acknowledged, cleanupFailed]
  | acknowledged => [settled, cleanupFailed]
  | settled | cleanupFailed => []

end ControlStatus

namespace RecoveryDispositionKind

def value : RecoveryDispositionKind → String
  | confirmResult => "confirm_result"
  | createRetry => "create_retry"
  | abandon => "abandon"

/-- The conditions `RecoveryDisposition.validate_target` allows. -/
def allowed : RecoveryDispositionKind → List TaskRuntimeCondition
  | confirmResult => [.idle, .running, .paused, .ended]
  | createRetry => [.waitingForApproval]
  | abandon => [.ended]

end RecoveryDispositionKind

/-! ### Ownership -/

structure Execution where
  id : String
  sessionId : String
  taskId : String
  ownerId : String
  leaseToken : String
  generation : Nat := 1
  leaseExpiresAt : Timestamp
  status : ExecutionStatus := .claimed
  version : Nat := 1
deriving DecidableEq

/-- The statuses in which an execution can hold its lease. -/
def ExecutionStatus.Active (status : ExecutionStatus) : Prop :=
  status ∈ [ExecutionStatus.claimed, .running, .waitingForApproval, .paused]

instance (status : ExecutionStatus) : Decidable status.Active :=
  inferInstanceAs (Decidable (_ ∈ _))

structure WorkspaceLease where
  workspaceId : String
  repositoryPath : String
  sessionId : String
  taskId : String
  executionId : String
  ownerId : String
  leaseToken : String
  generation : Nat := 1
  leaseExpiresAt : Timestamp
deriving DecidableEq

/-- The statuses of a command whose cleanup is still to be verified. -/
def ManagedCommandStatus.Unfinished (status : ManagedCommandStatus) : Prop :=
  status = .running ∨ status = .cleanupFailed

instance (status : ManagedCommandStatus) : Decidable status.Unfinished :=
  inferInstanceAs (Decidable (_ ∨ _))

/-- `sandbox.ManagedCommandIdentity` -/
structure ManagedCommandIdentity where
  id : String
  executionId : String
  backend : String
  processId : Nat
  processStartMarker : String
  containerName : Option String := none
  status : ManagedCommandStatus := .running
  cleanupReason : Option String := none
  startedAt : Timestamp
deriving DecidableEq

/-- The fields of a managed command that no update may change. -/
def ManagedCommandIdentity.immutableIdentity (identity : ManagedCommandIdentity) :
    String × String × Nat × String × Option String :=
  (identity.executionId, identity.backend, identity.processId, identity.processStartMarker,
    identity.containerName)

/-! ### Effects -/

structure FileEffectPrecondition where
  path : String
  existed : Bool
  originalContent : Option String := none
  originalSha256 : Option String := none
  targetSha256 : String
deriving DecidableEq

/-- `security.CredentialBinding` -/
structure CredentialBinding where
  path : String
  reference : String
deriving DecidableEq

structure Effect where
  id : String
  taskId : String
  stepId : String
  batchPosition : Nat
  providerCallId : String
  retryOfEffectId : Option String := none
  toolName : String
  actionKind : String := "unknown"
  argumentsSummary : Json := .obj []
  argumentsFingerprint : String := ""
  policyResult : Json := .obj []
  preparationError : Option String := none
  filePreconditions : List FileEffectPrecondition := []
  credentialBindings : List CredentialBinding := []
  redactedArgumentPaths : List String := []
  status : EffectStatus := .prepared
  approvalId : Option String := none
  approvalConsumed : Bool := false
  reconciliationEvidence : Json := .obj []
  resultRef : Option String := none
  observationRef : Option String := none
  version : Nat := 1
deriving DecidableEq

namespace Json

def ofOption : Option String → Json
  | none => .null
  | some text => .str text

def ofStrings (texts : List String) : Json := .arr (texts.map .str)

end Json

def CredentialBinding.dump (binding : CredentialBinding) : Json :=
  .obj [("path", .str binding.path), ("reference", .str binding.reference)]

def FileEffectPrecondition.dump (precondition : FileEffectPrecondition) : Json :=
  .obj [("existed", .bool precondition.existed),
    ("original_content", .ofOption precondition.originalContent),
    ("original_sha256", .ofOption precondition.originalSha256),
    ("path", .str precondition.path),
    ("target_sha256", .str precondition.targetSha256)]

namespace Effect

def identityKey (effect : Effect) : String × String × Nat :=
  (effect.taskId, effect.stepId, effect.batchPosition)

/-- `result_ref` and `observation_ref` have a minimal length of one. -/
def Valid (effect : Effect) : Prop :=
  effect.resultRef ≠ some "" ∧ effect.observationRef ≠ some ""

instance (effect : Effect) : Decidable effect.Valid := inferInstanceAs (Decidable (_ ∧ _))

/-- `str(effect.policy_result.get("decision", "allow"))` -/
def persistedDecision (effect : Effect) : String :=
  match effect.policyResult.get? "decision" with
  | none => "allow"
  | some (.str decision) => decision
  | some other => other.dumps

section Digests

variable [Sha256]

/-- The SHA-256 of the canonical JSON of tool arguments. -/
def argumentsDigest (arguments : Json) : String := Sha256.hexdigest arguments.dumps

/-- The payload that `content_fingerprint` hashes. -/
def contentPayload (effect : Effect) : Json :=
  let argumentFingerprint :=
    if effect.argumentsFingerprint = "" then argumentsDigest effect.argumentsSummary
    else effect.argumentsFingerprint
  .obj [("action_kind", .str effect.actionKind),
    ("arguments_fingerprint", .str argumentFingerprint),
    ("arguments_summary", effect.argumentsSummary),
    ("credential_bindings", .arr (effect.credentialBindings.map CredentialBinding.dump)),
    ("file_preconditions", .arr (effect.filePreconditions.map FileEffectPrecondition.dump)),
    ("policy_result", effect.policyResult),
    ("preparation_error", .ofOption effect.preparationError),
    ("redacted_argument_paths", .ofStrings effect.redactedArgumentPaths),
    ("tool_name", .str effect.toolName)]

def contentFingerprint (effect : Effect) : String := Sha256.hexdigest effect.contentPayload.dumps

/-- `assert_identity_compatible`, as the condition under which it returns. -/
def IdentityCompatible (effect other : Effect) : Prop :=
  (effect.id = other.id → effect.identityKey = other.identityKey)
    ∧ (effect.id = other.id ∨ effect.identityKey = other.identityKey →
        effect.contentFingerprint = other.contentFingerprint)

instance (effect other : Effect) : Decidable (effect.IdentityCompatible other) :=
  inferInstanceAs (Decidable (_ ∧ _))

end Digests

end Effect

/-! ### Approvals -/

structure Approval where
  id : String
  effectId : String
  effectFingerprint : String := ""
  argumentsFingerprint : String := ""
  workspaceRef : String := ""
  actionSummary : String
  resourceSummary : String := ""
  policyVersion : String
  configVersion : String
  status : ApprovalStatus := .pending
  decisionSource : Option String := none
  decidedAt : Option Timestamp := none
  version : Nat := 1
  createdAt : Timestamp
deriving DecidableEq

namespace Approval

/-- `decision_source` has a length between 1 and 256. -/
def Valid (approval : Approval) : Prop :=
  ∀ source ∈ approval.decisionSource, source ≠ "" ∧ source.length ≤ 256

instance (approval : Approval) : Decidable approval.Valid :=
  match h : approval.decisionSource with
  | none => .isTrue (by simp [Valid, h])
  | some source =>
      decidable_of_iff (source ≠ "" ∧ source.length ≤ 256) (by simp [Valid, h])

def SameRequest (approval other : Approval) : Prop :=
  approval.id = other.id
    ∧ approval.effectId = other.effectId
    ∧ approval.effectFingerprint = other.effectFingerprint
    ∧ approval.argumentsFingerprint = other.argumentsFingerprint
    ∧ approval.workspaceRef = other.workspaceRef
    ∧ approval.actionSummary = other.actionSummary
    ∧ approval.resourceSummary = other.resourceSummary
    ∧ approval.policyVersion = other.policyVersion
    ∧ approval.configVersion = other.configVersion
    ∧ approval.status = other.status ∧ other.status = .pending

instance (approval other : Approval) : Decidable (approval.SameRequest other) :=
  inferInstanceAs (Decidable (_ ∧ _))

/-- `Approval.decide` on a pending approval. -/
def decided (approval : Approval) (now : Timestamp) (approved : Bool) (source : String) :
    Approval :=
  { approval with
    status := if approved then .approved else .denied
    decisionSource := some source
    decidedAt := some now
    version := approval.version + 1 }

/-- The approval as `resolve_effect_approval` and `settle_unexecuted_effect` expire it. -/
def expired (approval : Approval) (now : Timestamp) (source : String) : Approval :=
  { approval with
    status := .expired
    decisionSource := some source
    decidedAt := some now
    version := approval.version + 1 }

/-- The approval that `Approval.consume` returns. -/
def consumed (approval : Approval) : Approval :=
  { approval with status := .consumed, version := approval.version + 1 }

variable [Sha256]

def MatchesExecutionConditions (approval : Approval) (effect : Effect)
    (workspaceRef policyVersion configVersion : String) : Prop :=
  approval.effectId = effect.id
    ∧ approval.effectFingerprint = effect.contentFingerprint
    ∧ approval.argumentsFingerprint = effect.argumentsFingerprint
    ∧ approval.workspaceRef = workspaceRef
    ∧ approval.policyVersion = policyVersion
    ∧ approval.configVersion = configVersion

instance (approval : Approval) (effect : Effect)
    (workspaceRef policyVersion configVersion : String) :
    Decidable (approval.MatchesExecutionConditions effect workspaceRef policyVersion
      configVersion) :=
  inferInstanceAs (Decidable (_ ∧ _))

end Approval

/-! ### Control and recovery -/

structure ControlRequest where
  id : String
  taskId : String
  executionId : Option String := none
  kind : ControlKind
  status : ControlStatus := .requested
  requestedAt : Timestamp
  acknowledgedAt : Option Timestamp := none
  settledAt : Option Timestamp := none
  cleanupInfo : Option String := none
  version : Nat := 1
deriving DecidableEq

/-- `get_pending_control` looks for requests in these statuses. -/
def ControlStatus.Pending (status : ControlStatus) : Prop :=
  status ∈ [ControlStatus.requested, .acknowledged]

instance (status : ControlStatus) : Decidable status.Pending :=
  inferInstanceAs (Decidable (_ ∈ _))

/-- `ControlRequest.transition` to an allowed target. -/
def ControlRequest.moved (request : ControlRequest) (now : Timestamp) (target : ControlStatus)
    (cleanupInfo : Option String) : ControlRequest :=
  { request with
    status := target
    version := request.version + 1
    cleanupInfo := cleanupInfo
    acknowledgedAt := if target = .acknowledged then some now else request.acknowledgedAt
    settledAt := if target = .settled then some now else request.settledAt }

structure RecoveryDisposition where
  id : String
  unknownEffectId : String
  kind : RecoveryDispositionKind
  evidence : Json := .obj []
  decisionSource : String
  retryEffectId : Option String := none
  createdAt : Timestamp
deriving DecidableEq

end PatchLoop
