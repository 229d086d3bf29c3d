import PatchLoop.Store.Effects
import PatchLoop.Store.Leases

/-!
# Recovery

`execution/recovery.py`: which dispositions of an unknown effect are valid, and what they make of
its task; and the store operation that applies one.
-/

namespace PatchLoop

open Transaction

variable [Sha256]

/-- `RecoveryService.pending`: the unknown effects that still require a disposition. -/
def Store.pendingRecovery (s : Store) (taskId : String) : List Effect :=
  s.effects.rows.filter fun effect =>
    effect.taskId = taskId ∧ effect.status = .unknown ∧ s.dispositionOfEffect effect.id = none

/-- The optional arguments of `resolve_recovery`. -/
structure Resolution where
  confirmedCall : Option ToolCall := none
  confirmedResult : Option ToolResult := none
  retryEffect : Option Effect := none
  retryApproval : Option Approval := none

/-- The disposition that `RecoveryService.abandon` makes, with its new id. -/
def abandonment (now : Timestamp) (id unknownEffectId : String) (evidence : Json)
    (decisionSource : String) : RecoveryDisposition where
  id := id
  unknownEffectId := unknownEffectId
  kind := .abandon
  evidence := evidence
  decisionSource := decisionSource
  createdAt := now

/-- The fingerprint of an effect's arguments, computed where it was not recorded. -/
def Effect.effectiveFingerprint (effect : Effect) : String :=
  if effect.argumentsFingerprint = "" then Effect.argumentsDigest effect.argumentsSummary
  else effect.argumentsFingerprint

/-- The call and the result are the ones of the unknown effect. -/
def ConfirmsEffect (unknown : Effect) (call : ToolCall) (result : ToolResult) : Prop :=
  call.id = unknown.providerCallId
    ∧ call.name = unknown.toolName
    ∧ Effect.argumentsDigest call.arguments = unknown.effectiveFingerprint
    ∧ result.callId = call.id
    ∧ result.toolName = call.name

instance (unknown : Effect) (call : ToolCall) (result : ToolResult) :
    Decidable (ConfirmsEffect unknown call result) :=
  inferInstanceAs (Decidable (_ ∧ _))

/-- The effect is a new exact retry of the unknown one. -/
def RetriesEffect (task : Task) (unknown : Effect) (disposition : RecoveryDisposition)
    (retry : Effect) : Prop :=
  disposition.retryEffectId = some retry.id
    ∧ retry.id ≠ unknown.id
    ∧ retry.taskId = task.id
    ∧ retry.retryOfEffectId = some unknown.id
    ∧ retry.status = .prepared
    ∧ retry.preparationError = none
    ∧ retry.toolName = unknown.toolName
    ∧ retry.effectiveFingerprint = unknown.effectiveFingerprint

instance (task : Task) (unknown : Effect) (disposition : RecoveryDisposition) (retry : Effect) :
    Decidable (RetriesEffect task unknown disposition retry) :=
  inferInstanceAs (Decidable (_ ∧ _))

/-- The approval is a pending request for exactly the retry. -/
def ApprovesRetry (task : Task) (retry : Effect) (approval : Approval) : Prop :=
  approval.effectId = retry.id
    ∧ approval.status = .pending
    ∧ approval.effectFingerprint = retry.contentFingerprint
    ∧ approval.argumentsFingerprint = retry.argumentsFingerprint
    ∧ approval.workspaceRef = task.repository

instance (task : Task) (retry : Effect) (approval : Approval) :
    Decidable (ApprovesRetry task retry approval) :=
  inferInstanceAs (Decidable (_ ∧ _))

/-- The `confirm_result` branch of `validate_recovery_resolution`. -/
def validateConfirmation (task : Task) (unknown : Effect) (resolution : Resolution) :
    Action TaskRuntimeCondition :=
  match resolution with
  | ⟨some call, some result, none, none⟩ => do
      raiseIf (¬ ConfirmsEffect unknown call result)
        (.valueError "confirmed result does not belong to the unknown Effect")
      return if task.outcome = .active then .idle else .ended
  | _ => throw (.valueError "confirm_result requires exactly one call/result pair")

/-- The `create_retry` branch of `validate_recovery_resolution`. -/
def validateRetry (task : Task) (unknown : Effect) (disposition : RecoveryDisposition)
    (resolution : Resolution) : Action TaskRuntimeCondition := do
  raiseIf (disposition.evidence.get? "duplicate_risk_acknowledged" ≠ some (.bool true))
    (.valueError "create_retry requires explicit duplicate-risk acknowledgement")
  raiseIf (task.outcome ≠ .active)
    (.valueError "cannot retry an Effect for a terminal task")
  match resolution with
  | ⟨none, none, some retry, some approval⟩ => do
      raiseIf (¬ RetriesEffect task unknown disposition retry)
        (.valueError "retry Effect is not a new exact retry of the unknown Effect")
      raiseIf (retry.policyResult.get? "decision" ≠ some (.str "require_approval")
          ∨ retry.policyResult.get? "approval_required" ≠ some (.bool true))
        (.valueError "retry Effect must require a new approval")
      raiseIf (¬ ApprovesRetry task retry approval)
        (.valueError "retry Approval is not exactly bound to the retry Effect")
      return .waitingForApproval
  | _ => throw (.valueError "create_retry requires exactly one Effect/Approval pair")

/-- The `abandon` branch of `validate_recovery_resolution`. -/
def validateAbandonment (disposition : RecoveryDisposition) (resolution : Resolution) :
    Action TaskRuntimeCondition :=
  match resolution with
  | ⟨none, none, none, none⟩ => do
      raiseIf (disposition.retryEffectId ≠ none)
        (.valueError "abandon does not accept a result or retry")
      return .ended
  | _ => throw (.valueError "abandon does not accept a result or retry")

/-- The branches of `validate_recovery_resolution`. -/
def validateKind (task : Task) (unknown : Effect) (disposition : RecoveryDisposition)
    (resolution : Resolution) : Action TaskRuntimeCondition :=
  match disposition.kind with
  | .confirmResult => validateConfirmation task unknown resolution
  | .createRetry => validateRetry task unknown disposition resolution
  | .abandon => validateAbandonment disposition resolution

/-- `validate_recovery_resolution`: the condition in which the disposition leaves the task. -/
def validateRecoveryResolution (task : Task) (unknown : Effect)
    (disposition : RecoveryDisposition) (resolution : Resolution) :
    Action TaskRuntimeCondition := do
  raiseIf (task.runtimeCondition ≠ .recoveryRequired)
    (.valueError "task does not require recovery")
  raiseIf (unknown.taskId ≠ task.id ∨ unknown.status ≠ .unknown)
    (.valueError "recovery target is not an unknown Effect for this task")
  raiseIf (disposition.evidence.isEmptyObject = true)
    (.valueError "recovery disposition requires operator evidence")
  let target ← validateKind task unknown disposition resolution
  raiseIf (target ∉ disposition.kind.allowed)
    (.valueError s!"recovery disposition {disposition.kind.value} cannot produce {target.value}")
  return target

/-- The unknown effect once its result has been confirmed. -/
def Effect.confirmed (effect : Effect) (result : ToolResult) (evidence : Json) : Effect :=
  { effect with
    status := if result.success then .succeeded else .failed
    resultRef := some (toolResultReference effect.taskId effect.providerCallId)
    observationRef := some (toolResultReference effect.taskId effect.providerCallId)
    reconciliationEvidence := evidence
    version := effect.version + 1 }

/-- The confirmed call and result, and the effect they end. -/
def writeConfirmation (now : Timestamp) (effect : Effect) (evidence : Json) (call : ToolCall)
    (result : ToolResult) : Action Unit := do
  let existing ← query fun s => s.toolCalls.get? (effect.taskId, call.id)
  matchToolCall existing call result
  modify fun s => s.addToolCall { taskId := effect.taskId, call, result, completedAt := now }
  writeEffect (effect.confirmed result evidence)

/-- The retry as it is inserted. -/
def Effect.waitingRetry (retry : Effect) (approvalId : String) : Effect :=
  { retry with status := .waitingForApproval, approvalId := some approvalId }

/-- The observation that answers the call of the unknown effect in the conversation. -/
def unknownObservation (effect : Effect) (dispositionId retryId : String) : ToolResult where
  callId := effect.providerCallId
  toolName := effect.toolName
  success := false
  errorKind := some .permissionDenied
  output := "\x7b\"backend_result\": \"unknown\", \"effect_status\": \"unknown\", "
    ++ "\"next_action\": \"execute_explicit_retry_after_approval\", \"recovery_disposition\": "
    ++ Json.quote dispositionId ++ ", \"retry_effect_id\": " ++ Json.quote retryId ++ "\x7d"

/-- The retry and its approval, and the observation of the effect it retries. -/
def writeRetry (now : Timestamp) (effect : Effect) (dispositionId : String) (retry : Effect)
    (approval : Approval) : Action Unit := do
  let existing ← query fun s => s.effectByIdOrIdentity retry
  raiseIf (existing ≠ none) (.effectIdentityConflict retry.id retry.identityKey)
  let taken ← query fun s =>
    (s.approvals.get? approval.id).isSome || (s.approvalOfEffect retry.id).isSome
  raiseIf (taken = true) (.approvalConflict approval.id "pending" "pending")
  insertEffect (retry.waitingRetry approval.id)
  insertApproval approval
  insertToolCall {
    taskId := effect.taskId
    call := {
      id := effect.providerCallId
      name := effect.toolName
      arguments := effect.argumentsSummary }
    result := unknownObservation effect dispositionId retry.id
    completedAt := now }

/-- What the resolution itself writes. -/
def writeResolution (now : Timestamp) (effect : Effect) (disposition : RecoveryDisposition)
    (resolution : Resolution) : Action Unit := do
  match resolution.confirmedCall, resolution.confirmedResult with
  | some call, some result => writeConfirmation now effect disposition.evidence call result
  | _, _ => pure ()
  match resolution.retryEffect, resolution.retryApproval with
  | some retry, some approval => writeRetry now effect disposition.id retry approval
  | _, _ => pure ()

def insertRecoveryDisposition (disposition : RecoveryDisposition) : Action Unit := do
  let s ← get
  raiseIf (s.dispositionByIdOrEffect disposition.id disposition.unknownEffectId ≠ none)
    (.integrityError "recovery_dispositions.id, recovery_dispositions.unknown_effect_id")
  raiseIf (¬ s.HasEffect (some disposition.unknownEffectId))
    (.integrityError "recovery_dispositions.unknown_effect_id")
  raiseIf (¬ s.HasEffect disposition.retryEffectId)
    (.integrityError "recovery_dispositions.retry_effect_id")
  set (s.addRecoveryDisposition disposition)

/-- The task that a resolution leaves; an abandoned task is cancelled. -/
def Task.recovered (task : Task) (kind : RecoveryDispositionKind)
    (target : TaskRuntimeCondition) : Task :=
  { task with
    runtimeCondition := target
    version := task.version + 1
    outcome := if kind = .abandon then .cancelled else task.outcome
    status := if kind = .abandon then .cancelled else task.status }

/-- The journal entry of a resolution, in a session that an abandoned task leaves. -/
def journalResolution (now : Timestamp) (task : Task) (disposition : RecoveryDisposition) :
    Action Unit :=
  match task.sessionId with
  | none => pure ()
  | some sessionId => do
      let session ← requireSession sessionId
      let session :=
        if disposition.kind = .abandon then session.withoutActive task.id else session
      let event ← journal now session {
        id := journalEventId "recovery.resolved" disposition.id disposition.kind.value
        type := "recovery.resolved"
        taskId := some task.id
        data := .obj [("disposition_id", .str disposition.id),
          ("effect_id", .str disposition.unknownEffectId),
          ("kind", .str disposition.kind.value)] }
      advanceCheckpointEventCursor now task.id event.sequence none

/-- `resolve_recovery` -/
def resolveRecovery (now : Timestamp) (disposition : RecoveryDisposition) (taskId : String)
    (expectedVersion : Nat) (resolution : Resolution) : Action Task := do
  resolution.retryEffect.forM validateEffect
  resolution.retryApproval.forM validateApproval
  let task ← requireTask taskId
  let existing ← query fun s =>
    s.dispositionByIdOrEffect disposition.id disposition.unknownEffectId
  match existing with
  | some existing => do
      raiseIf (existing ≠ disposition)
        (.recoveryRequired taskId (some disposition.unknownEffectId))
      return task
  | none => do
      checkVersion taskId task.version (some expectedVersion)
      raiseIf (task.runtimeCondition ≠ .recoveryRequired)
        (.recoveryRequired taskId (some disposition.unknownEffectId))
      let effect ← requireEffect disposition.unknownEffectId
      raiseIf (effect.taskId ≠ taskId ∨ effect.status ≠ .unknown)
        (.recoveryRequired taskId (some disposition.unknownEffectId))
      let target ← validateRecoveryResolution task effect disposition resolution
      writeResolution now effect disposition resolution
      insertRecoveryDisposition disposition
      writeTask (task.recovered disposition.kind target)
      journalResolution now task disposition
      return task.recovered disposition.kind target

end PatchLoop
