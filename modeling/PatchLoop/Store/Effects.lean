import PatchLoop.Store.Sessions

/-!
# Effects and approvals

The operations of `SQLiteStore` that prepare, approve, claim, commit and settle effects.
-/

namespace PatchLoop

open Transaction

variable [Sha256]

/-! ### Preparation -/

omit [Sha256] in
/-- `Effect.model_validate` of an argument. -/
def validateEffect (effect : Effect) : Action Unit :=
  raiseIf (¬ effect.Valid) (.valueError "invalid effect references")

/-- `assert_identity_compatible` -/
def assertIdentityCompatible (effect other : Effect) : Action Unit :=
  raiseIf (¬ effect.IdentityCompatible other)
    (.effectIdentityConflict effect.id effect.identityKey)

/-- The effect a batch already holds under the id or the identity of another one. -/
def pendingOf (newEffects : List Effect) (effect : Effect) : Option Effect :=
  newEffects.find? fun candidate =>
    candidate.id = effect.id ∨ candidate.identityKey = effect.identityKey

/-- The loop of `prepare_effects` and `prepare_effect_batch`: which effects stand already, and
which are new. `pending` finds an earlier new effect of the same batch. -/
def splitPrepared (pending : List Effect → Effect → Option Effect) :
    List Effect → (prepared newEffects : List Effect) → Action (List Effect × List Effect)
  | [], prepared, newEffects => return (prepared, newEffects)
  | effect :: rest, prepared, newEffects => do
      let existing ← query fun s => s.effectByIdOrIdentity effect
      match existing.or (pending newEffects effect) with
      | some known => do
          validateEffect known
          assertIdentityCompatible known effect
          splitPrepared pending rest (prepared ++ [known]) newEffects
      | none => splitPrepared pending rest (prepared ++ [effect]) (newEffects ++ [effect])

/-- The journal entry of newly prepared effects. -/
def preparedEntry (taskId : String) (newEffects : List Effect)
    (details : List (String × Json)) : Entry where
  id := journalEventId "effects.prepared" taskId (",".intercalate (newEffects.map Effect.id))
  type := "effects.prepared"
  taskId := some taskId
  data := .obj (("effect_ids", .ofStrings (newEffects.map Effect.id)) :: details)

def prepareEffects (now : Timestamp) (effects : List Effect) (expectedVersion : Nat)
    (guard : Option LeaseGuard) : Action (List Effect) :=
  match effects with
  | [] => return []
  | first :: _ => do
      effects.forM validateEffect
      raiseIf (∃ effect ∈ effects, effect.taskId ≠ first.taskId)
        (.valueError "one prepare batch must belong to one task")
      let task ← requireTask first.taskId
      assertTaskGuard now task guard
      let (prepared, newEffects) ← splitPrepared pendingOf effects [] []
      if newEffects = [] then
        return prepared
      else
        checkVersion task.id task.version (some expectedVersion)
        insertEffects newEffects
        let _ ← journalTask now task (preparedEntry task.id newEffects [])
        return prepared

/-- The batch a step carries: every effect names its task, its step and its position. -/
def AgentStep.Carries (step : AgentStep) (effects : List Effect) : Prop :=
  effects.map Effect.identityKey
    = (List.range effects.length).map fun position => (step.taskId, step.id, position)

omit [Sha256] in
instance (step : AgentStep) (effects : List Effect) : Decidable (step.Carries effects) :=
  inferInstanceAs (Decidable (_ = _))

/-- The step row that is there already may be completed, never contradicted. -/
def AgentStep.Conflicts (existing step : AgentStep) : Prop :=
  existing.id ≠ step.id
    ∨ (existing.modelResponse ≠ none ∧ existing.modelResponse ≠ step.modelResponse)
    ∨ (existing.effectIds ≠ [] ∧ existing.effectIds ≠ step.effectIds)

omit [Sha256] in
instance (existing step : AgentStep) : Decidable (existing.Conflicts step) :=
  inferInstanceAs (Decidable (_ ∨ _))

def prepareEffectBatch (now : Timestamp) (step : AgentStep) (effects : List Effect)
    (expectedVersion : Nat) (guard : Option LeaseGuard) : Action (List Effect) := do
  raiseIf (step.modelResponse = none)
    (.valueError "an Effect batch requires a persisted model response")
  raiseIf (step.effectIds ≠ effects.map Effect.id)
    (.valueError "step Effect IDs must preserve batch order")
  raiseIf (¬ step.Carries effects) (.valueError "Effect batch does not match its Step")
  effects.forM validateEffect
  let task ← requireTask step.taskId
  assertLegacyWriteGuard now step.taskId guard
  checkVersion task.id task.version (some expectedVersion)
  let existingStep ← query fun s => s.agentSteps.get? (step.taskId, step.index)
  raiseIf (existingStep.any fun existing => existing.Conflicts step)
    (.effectIdentityConflict step.id (step.taskId, step.id, step.index))
  let (prepared, newEffects) ← splitPrepared (fun _ _ => none) effects [] []
  modify fun s => s.upsertAgentStep step
  insertEffects newEffects
  if newEffects = [] then
    return prepared
  else
    let _ ← journalTask now task
      (preparedEntry task.id newEffects [("step_id", .str step.id)])
    return prepared

/-! ### Approvals -/

omit [Sha256] in
/-- `Approval.model_validate` of an argument. -/
def validateApproval (approval : Approval) : Action Unit :=
  raiseIf (¬ approval.Valid) (.valueError "invalid approval decision source")

def decideApproval (now : Timestamp) (approval : Approval) (expectedVersion : Option Nat) :
    Action Approval := do
  validateApproval approval
  let _ ← requireEffect approval.effectId
  let row ← query fun s => s.approvalOfEffect approval.effectId
  match row with
  | none => do
      insertApproval approval
      journalApproval now approval "approval.requested"
      return approval
  | some existing => do
      validateApproval existing
      raiseIf (existing.id ≠ approval.id)
        (.approvalConflict approval.id existing.status.value approval.status.value)
      if existing = approval then
        return existing
      else
        checkVersion approval.id existing.version expectedVersion
        raiseIf (existing.status ≠ .pending ∨ approval.status ∉ [.approved, .denied, .expired])
          (.approvalConflict approval.id existing.status.value approval.status.value)
        raiseIf (approval.version ≠ existing.version + 1)
          (.staleVersion approval.id (existing.version + 1) approval.version)
        writeApproval approval
        journalApproval now approval "approval.decided"
        return approval

/-- The three rows that an approval request leaves waiting. -/
def Effect.waiting (effect : Effect) (approvalId : String) : Effect :=
  { effect with
    status := .waitingForApproval
    approvalId := some approvalId
    version := effect.version + 1 }

def Execution.waiting (execution : Execution) : Execution :=
  { execution with status := .waitingForApproval, version := execution.version + 1 }

def Task.waiting (task : Task) : Task :=
  { task with runtimeCondition := .waitingForApproval, version := task.version + 1 }

omit [Sha256] in
/-- A retried request of an effect that waits for the same approval yields ownership again. -/
def repeatEffectApproval (execution : Execution) (current : Effect) (approval : Approval) :
    Action (Effect × Approval × Task) := do
  let row ← query fun s => current.approvalId.bind fun id => s.approvals.get? id
  row.forM validateApproval
  match row.filter fun existing => existing.SameRequest approval with
  | none => throw (.approvalConflict approval.id "pending" "pending")
  | some existing => do
      let task ← requireTask current.taskId
      writeExecution execution.waiting
      writeTask task.waiting
      return (current, existing, task.waiting)

/-- `request_effect_approval` -/
def requestEffectApproval (now : Timestamp) (effectId : String) (approval : Approval)
    (expectedVersion : Nat) (guard : LeaseGuard) : Action (Effect × Approval × Task) := do
  validateApproval approval
  let execution ← assertGuard now guard
  let current ← requireEffect effectId
  raiseIf (current.taskId ≠ execution.taskId) (.leaseLost current.taskId)
  checkVersion effectId current.version (some expectedVersion)
  raiseIf (approval.effectId ≠ effectId) (.valueError "approval does not belong to the Effect")
  if current.status = .waitingForApproval then
    repeatEffectApproval execution current approval
  else
    raiseIf (current.status ≠ .prepared)
      (.valueError s!"Effect cannot request approval from {current.status.value}")
    raiseIf (approval.status ≠ .pending) (.valueError "new approval request must be pending")
    let taken ← query fun s =>
      (s.approvals.get? approval.id).isSome || (s.approvalOfEffect effectId).isSome
    raiseIf (taken = true) (.approvalConflict approval.id "pending" "pending")
    let task ← requireTask current.taskId
    raiseIf (task.runtimeCondition ≠ .running)
      (.valueError "approval can only pause a running Task")
    writeEffect (current.waiting approval.id)
    insertApproval approval
    writeExecution execution.waiting
    writeTask task.waiting
    journalApproval now approval "approval.requested"
    return (current.waiting approval.id, approval, task.waiting)

/-- The effect of a decided approval. -/
def Effect.resolved (effect : Effect) (approved : Bool) : Effect :=
  { effect with
    status := if approved then .prepared else .denied
    version := effect.version + 1 }

/-- The effect of an approval whose binding no longer holds. -/
def Effect.unbound (effect : Effect) : Effect :=
  { effect with status := .prepared, approvalId := none, version := effect.version + 1 }

/-- A task that waited for the approval is idle again. -/
def Task.resumed (task : Task) : Task :=
  if task.runtimeCondition = .waitingForApproval then
    { task with runtimeCondition := .idle, version := task.version + 1 }
  else task

/-- The answer to a decision about an approval that is not pending: a repeat of the decision is
accepted, anything else conflicts. -/
def repeatDecision (current : Approval) (effect : Effect) (task : Task) (approved : Bool)
    (source : String) : Action (Approval × Effect × Task) := do
  let target : ApprovalStatus := if approved then .approved else .denied
  raiseIf (¬ (approved = true ∧ current.status = .consumed ∧ current.decisionSource = some source)
      ∧ ¬ (current.status = target ∧ current.decisionSource = some source))
    (.approvalConflict current.id current.status.value target.value)
  return (current, effect, task)

/-- The exact binding that `resolve_effect_approval` rechecks: the request's own, and the task's and
session's of the moment. -/
def Approval.Bound (approval : Approval) (effect : Effect) (task : Task)
    (actualConfig workspaceRef policyVersion configVersion : String) : Prop :=
  workspaceRef = task.repository
    ∧ configVersion = actualConfig
    ∧ approval.MatchesExecutionConditions effect workspaceRef policyVersion configVersion

instance (approval : Approval) (effect : Effect) (task : Task)
    (actualConfig workspaceRef policyVersion configVersion : String) :
    Decidable (approval.Bound effect task actualConfig workspaceRef policyVersion configVersion) :=
  inferInstanceAs (Decidable (_ ∧ _))

/-- The configuration version that counts for a task: its session's, if it has one. -/
def actualConfigVersion (task : Task) (default : String) : Action String :=
  match task.sessionId with
  | none => return default
  | some sessionId => do
      let session ← requireSession sessionId
      return session.configVersion

/-- The writes of `resolve_effect_approval`, for a binding that holds or one that does not. -/
def writeDecision (now : Timestamp) (current : Approval) (effect : Effect) (task : Task)
    (bound approved : Bool) (source : String) : Action (Approval × Effect × Task) := do
  let decision :=
    if bound then current.decided now approved source else current.expired now source
  let released := if bound then effect.resolved approved else effect.unbound
  writeApproval decision
  writeEffect released
  writeTask task.resumed
  journalApproval now decision (if bound then "approval.decided" else "approval.expired")
  return (decision, released, task.resumed)

/-- `resolve_effect_approval` -/
def resolveEffectApproval (now : Timestamp) (approvalId : String) (approved : Bool)
    (source : String) (expectedVersion : Nat)
    (workspaceRef policyVersion configVersion : String) : Action (Approval × Effect × Task) := do
  let row ← query fun s => s.approvals.get? approvalId
  let current ← requireApproval row (.keyError s!"approval not found: {approvalId}")
  let effect ← requireEffect current.effectId
  let task ← requireTask effect.taskId
  if current.status ≠ .pending then
    repeatDecision current effect task approved source
  else
    checkVersion current.id current.version (some expectedVersion)
    let actualConfig ← actualConfigVersion task configVersion
    writeDecision now current effect task
      (current.Bound effect task actualConfig workspaceRef policyVersion configVersion)
      approved source

/-! ### Claiming -/

/-- The optional conditions of `claim_effect`. -/
structure ClaimConditions where
  effectFingerprint : Option String := none
  workspaceRef : Option String := none
  policyVersion : Option String := none
  configVersion : Option String := none
  policyDecision : Option String := none
  expectedInputSequence : Option Nat := none

/-- `value or default`: an empty string counts as not supplied. -/
def suppliedOr (value : Option String) (default : String) : String :=
  match value with
  | none => default
  | some text => if text = "" then default else text

/-- The row that `claim_effect` writes. -/
def Effect.claimed (effect : Effect) (consumed : Bool) : Effect :=
  { effect with
    status := .executing
    approvalId := none
    approvalConsumed := consumed
    version := effect.version + 1 }

/-- `Approval.consume` -/
def consumeApproval (approval : Approval) (effect : Effect)
    (workspaceRef policyVersion configVersion : String) : Action Approval := do
  raiseIf (approval.status ≠ .approved)
    (.approvalConflict approval.id approval.status.value ApprovalStatus.consumed.value)
  raiseIf (¬ approval.MatchesExecutionConditions effect workspaceRef policyVersion configVersion)
    (.approvalConflict approval.id "binding_mismatch" ApprovalStatus.consumed.value)
  return approval.consumed

/-- The input revision check of `claim_effect`. -/
def checkInputSequence (task : Task) (expected : Option Nat) : Action Unit :=
  match expected, task.sessionId with
  | some expected, some sessionId => do
      let actual ← query fun s => s.lastTurnSequence sessionId
      raiseIf (actual ≠ expected) (.inputRevisionConflict sessionId expected actual)
  | _, _ => pure ()

/-- The approval that `claim_effect` consumes, which an effect under `require_approval` must have.
-/
def consumedApproval (current : Effect) (conditions : ClaimConditions)
    (actualWorkspace actualConfig : String) : Action (Option Approval) :=
  match current.approvalId with
  | some approvalId => do
      let row ← query fun s => s.approvals.get? approvalId
      let approval ← requireApproval row (.approvalConflict approvalId "missing" "consumed")
      let consumed ← consumeApproval approval current
        (suppliedOr conditions.workspaceRef actualWorkspace)
        (suppliedOr conditions.policyVersion approval.policyVersion)
        (suppliedOr conditions.configVersion actualConfig)
      return some consumed
  | none => do
      raiseIf (current.persistedDecision = "require_approval")
        (.approvalConflict current.id "missing" "consumed")
      return none

/-- The writes of `claim_effect` once every check has passed. -/
def writeClaim (now : Timestamp) (current : Effect) (task : Task)
    (consumed : Option Approval) : Action Effect := do
  let claimed := current.claimed consumed.isSome
  writeEffect claimed
  consumed.forM fun approval => do
    writeApproval approval
    journalApproval now approval "approval.consumed"
  let _ ← journalTask now task {
    id := journalEventId "effect.claimed" claimed.id (toString claimed.version)
    type := "effect.claimed"
    taskId := some task.id
    traceId := some claimed.providerCallId
    data := .obj [("effect_id", .str claimed.id)] }
  return claimed

def claimEffect (now : Timestamp) (effectId : String) (expectedVersion : Nat)
    (guard : LeaseGuard) (conditions : ClaimConditions) : Action Effect := do
  let _ ← assertGuard now guard
  let current ← requireEffect effectId
  checkVersion effectId current.version (some expectedVersion)
  raiseIf (current.status ≠ .prepared) (.leaseConflict effectId none)
  let task ← requireTask current.taskId
  let pending ← query fun s => (s.pendingControls task.id).head?
  raiseIf (pending ≠ none) (.controlRequested task.id ((pending.map ControlRequest.id).getD ""))
  checkInputSequence task conditions.expectedInputSequence
  let actualConfig ← actualConfigVersion task (conditions.configVersion.getD "")
  let actualConfig := suppliedOr (some actualConfig) "1"
  raiseIf (conditions.effectFingerprint.any fun text => current.contentFingerprint ≠ text)
    (.effectIdentityConflict current.id current.identityKey)
  raiseIf (conditions.workspaceRef.any fun text => text ≠ task.repository)
    (.leaseConflict effectId none)
  raiseIf (conditions.configVersion.any fun text => text ≠ actualConfig)
    (.leaseConflict effectId none)
  raiseIf (current.preparationError ≠ none ∨ current.persistedDecision = "deny")
    (.valueError s!"Effect is not executable: {effectId}")
  raiseIf (conditions.policyDecision.any fun text => text ≠ current.persistedDecision)
    (.valueError s!"Effect policy changed before execution: {effectId}")
  let consumed ← consumedApproval current conditions task.repository actualConfig
  writeClaim now current task consumed

/-! ### Results -/

omit [Sha256] in
/-- The observation that `commit_effect` stores with its effect. -/
def matchObservation (current : Effect) (call : ToolCall) (result : ToolResult) : Action Unit :=
  raiseIf (call.id ≠ current.providerCallId ∨ result.callId ≠ call.id)
    (.valueError "tool observation does not belong to the Effect")

/-- The row that `commit_effect` writes. -/
def Effect.committed (effect : Effect) (resultRef observationRef : Option String) (version : Nat) :
    Effect :=
  { effect with resultRef, observationRef, version := version + 1 }

def commitEffect (now : Timestamp) (effect : Effect) (expectedVersion : Nat)
    (resultRef observationRef : Option String) (guard : LeaseGuard)
    (observation : Option (ToolCall × ToolResult)) : Action Effect := do
  validateEffect effect
  let _ ← assertGuard now guard
  let current ← requireEffect effect.id
  checkVersion effect.id current.version (some expectedVersion)
  assertIdentityCompatible current effect
  raiseIf (current.status ≠ .executing) (.valueError s!"effect is not executing: {effect.id}")
  raiseIf (effect.status ∉ [.succeeded, .failed, .unknown])
    (.valueError s!"effect commit requires a terminal status: {effect.id}")
  observation.forM fun (call, result) => do
    matchObservation current call result
    let existing ← query fun s => s.toolCalls.get? (effect.taskId, call.id)
    matchToolCall existing call result
  let committed := effect.committed resultRef observationRef current.version
  writeEffect committed
  observation.forM fun (call, result) =>
    modify fun s => s.addToolCall { taskId := effect.taskId, call, result, completedAt := now }
  let task ← requireTask committed.taskId
  raiseIf (task.sessionId = none) (.valueError "effect task is not bound to a session")
  journalEffect now task {
    id := effectCommitEventId committed.id committed.version
    type := "effect.committed"
    taskId := some task.id
    traceId := some committed.providerCallId
    data := .obj [("effect_id", .str committed.id), ("observation_ref", .ofOption observationRef),
      ("result_ref", .ofOption resultRef), ("status", .str committed.status.value)] }
    (some committed.id)
  return committed

/-- The effect that `mark_effect_unknown` leaves. -/
def Effect.markedUnknown (effect : Effect) (evidence : Json) : Effect :=
  if effect.status = .executing then
    { effect with
      status := .unknown
      reconciliationEvidence := evidence
      version := effect.version + 1 }
  else effect

/-- The task that `mark_effect_unknown` leaves. -/
def Task.inRecovery (task : Task) : Task :=
  if task.runtimeCondition = .recoveryRequired then task
  else { task with runtimeCondition := .recoveryRequired, version := task.version + 1 }

/-- `mark_effect_unknown`: stop an uncertain execution and require an explicit disposition. -/
def markEffectUnknown (now : Timestamp) (effectId : String) (expectedVersion : Nat)
    (evidence : Json) (guard : LeaseGuard) : Action (Effect × Task) := do
  let execution ← assertGuard now guard
  let current ← requireEffect effectId
  raiseIf (current.taskId ≠ execution.taskId) (.leaseLost current.taskId)
  checkVersion effectId current.version (some expectedVersion)
  raiseIf (current.status ∉ [.executing, .unknown])
    (.valueError s!"Effect cannot require recovery from {current.status.value}")
  let unknown := current.markedUnknown evidence
  writeEffect unknown
  let task ← requireTask current.taskId
  writeTask task.inRecovery
  journalEffect now task {
    id := journalEventId "effect.recovery_required" unknown.id (toString unknown.version)
    type := "effect.recovery_required"
    taskId := some task.id
    traceId := some unknown.providerCallId
    data := .obj [("effect_id", .str unknown.id), ("evidence", evidence)] }
    (some unknown.id)
  return (unknown, task.inRecovery)

/-- `tool-result:task:call` -/
def toolResultReference (taskId callId : String) : String := s!"tool-result:{taskId}:{callId}"

def Effect.settled (effect : Effect) (status : EffectStatus) : Effect :=
  { effect with
    status := status
    resultRef := some (toolResultReference effect.taskId effect.providerCallId)
    observationRef := some (toolResultReference effect.taskId effect.providerCallId)
    version := effect.version + 1 }

omit [Sha256] in
/-- A settled effect no longer waits: its pending approval expires. -/
def expireEffectApproval (now : Timestamp) (effect : Effect) : Action Unit := do
  let row ← query fun s => effect.approvalId.bind fun id => s.approvals.get? id
  row.forM fun approval => do
    validateApproval approval
    doIf (approval.status = .pending) (writeApproval (approval.expired now "effect_settled"))

/-- `settle_unexecuted_effect`: pair a denied or cancelled effect with its observation. -/
def settleUnexecutedEffect (now : Timestamp) (effectId : String) (status : EffectStatus)
    (expectedVersion : Nat) (call : ToolCall) (result : ToolResult) (guard : LeaseGuard) :
    Action Effect := do
  raiseIf (status ∉ [.denied, .cancelled])
    (.valueError "unexecuted Effect must be denied or cancelled")
  let execution ← assertGuard now guard
  let current ← requireEffect effectId
  raiseIf (current.taskId ≠ execution.taskId) (.leaseLost current.taskId)
  checkVersion effectId current.version (some expectedVersion)
  raiseIf (current.status ∉ [.prepared, .waitingForApproval, status])
    (.valueError s!"Effect cannot be settled from {current.status.value}")
  matchObservation current call result
  let existing ← query fun s => s.toolCalls.get? (current.taskId, call.id)
  raiseIf (existing.any fun row =>
      row.call ≠ call ∨ row.result ≠ result ∨ current.status ≠ status)
    (.valueError s!"tool call already committed with different content: {call.id}")
  if existing.isSome then
    return current
  else
    let settled := current.settled status
    writeEffect settled
    expireEffectApproval now current
    insertToolCall { taskId := current.taskId, call, result, completedAt := now }
    let task ← requireTask current.taskId
    journalEffect now task {
      id := journalEventId "effect.settled" settled.id (toString settled.version)
      type := "effect.settled"
      taskId := some task.id
      traceId := some settled.providerCallId
      data := .obj [("effect_id", .str settled.id), ("status", .str settled.status.value)] }
      (some settled.id)
    return settled

end PatchLoop
