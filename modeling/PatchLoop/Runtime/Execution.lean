import PatchLoop.Runtime.System

/-!
# One call of a response

The methods of `AgentRuntime` that handle one tool call: its approval, its claim, the backend, the
result that is stored with its effect, the replay of a result that is stored already, and what becomes
after a restart of an effect that was executing.
-/

namespace PatchLoop

variable [Sha256] [Uuid5] [Redactor]

/-- `uuid5` in the approval namespace and the binding of a pending approval: `build_approval`. -/
def buildApproval (task : Task) (effect : Effect) (policyVersion configVersion : String)
    (now : Timestamp) : Approval where
  id := "approval-"
    ++ Uuid5.hex s!"{effect.id}\x00{effect.contentFingerprint}\x00{policyVersion}\x00{configVersion}"
  effectId := effect.id
  effectFingerprint := effect.contentFingerprint
  argumentsFingerprint := effect.argumentsFingerprint
  workspaceRef := task.repository
  actionSummary :=
    s!"{effect.actionKind}:{effect.toolName}:{Effect.argumentsDigest effect.argumentsSummary}"
  resourceSummary :=
    let paths := ",".intercalate (effect.filePreconditions.map FileEffectPrecondition.path)
    if effect.filePreconditions = [] then s!"workspace={task.repository}"
    else s!"workspace={task.repository}; paths={paths}"
  policyVersion := policyVersion
  configVersion := configVersion
  createdAt := now

/-! ### Results -/

variable (host : Host)

/-- `_effect_config_version` -/
def effectConfigVersion : RuntimeProcess String := do
  let runtime ← getRuntime
  match runtime.task.sessionId with
  | none => return "1"
  | some sessionId => do
      let session ← runtimeCall host fun _ => requireSession sessionId
      return session.configVersion

/-- `_settle_unexecuted_effect` -/
def settleUnexecuted (effect : Effect) (call : ToolCall) (result : ToolResult)
    (status : EffectStatus) : RuntimeProcess Effect :=
  storingCall host (some effect.id) call.redact.id result.redact fun now =>
    settleUnexecutedEffect now effect.id status effect.version call.redact result.redact host.guard

/-- `_commit_claimed_effect` -/
def commitClaimedEffect (effect : Effect) (call : ToolCall) (result : ToolResult) :
    RuntimeProcess ToolResult := do
  let terminal := { effect with
    status := if result.success then EffectStatus.succeeded else .failed }
  let reference := toolResultReference effect.taskId call.id
  let _ ← storingCall host (some effect.id) call.redact.id result.redact fun now =>
    commitEffect now terminal.redact effect.version (some reference) (some reference) host.guard
      (some (call.redact, result.redact))
  return result

/-- `record_tool_call`, for the effect of the call if it has one. The row is kept under the id of the
call as it came. -/
def recordResult (effect : Option Effect) (call : ToolCall) (result : ToolResult) :
    RuntimeProcess Unit :=
  storingCall host (effect.map Effect.id) call.id result.redact fun now =>
    recordToolCall now host.taskId { call.redact with id := call.id } result.redact
      (some host.guard)

/-- `self.gateway.history.append(result)` -/
def appendHistory (result : ToolResult) : RuntimeProcess Unit :=
  modifyGateway fun gateway => { gateway with history := gateway.history ++ [result] }

/-- `_block_repeated_effect` -/
def blockRepeatedEffect (effect : Option Effect) (call : ToolCall) : RuntimeProcess ToolResult := do
  let result := ToolGateway.failed call .noProgress
    "blocked exact repetition of an unresolved failed action"
  appendHistory result
  modifyGateway fun gateway =>
    { gateway with context := { gateway.context with requiresReplan := true } }
  recordResult host effect call result
  return result

/-! ### Approval -/

/-- `_yield_for_effect_approval` -/
def yieldForEffectApproval (effect : Effect) : RuntimeProcess Unit :=
  if effect.status ∈ [.denied, .cancelled, .succeeded, .failed, .unknown] then pure ()
  else if effect.approvalId ≠ none ∧ effect.status = .prepared then pure ()
  else if effect.persistedDecision ∉ ["allow", "deny", "require_approval"] then
    throw (.exception s!"'{effect.persistedDecision}' is not a valid PolicyDecision")
  else if effect.status ≠ .waitingForApproval
      ∧ (effect.persistedDecision ≠ "require_approval" ∨ effect.preparationError ≠ none) then
    pure ()
  else do
    let configVersion ← effectConfigVersion host
    let runtime ← getRuntime
    let (_, _, waiting) ← runtimeCall host fun now =>
      requestEffectApproval now effect.id
        (buildApproval runtime.task effect host.gateway.policy.version configVersion now).redact
        effect.version host.guard
    setTask { runtime.task with
      runtimeCondition := waiting.runtimeCondition
      version := waiting.version }
    throw .approvalPending

/-! ### Execution and replay -/

/-- A result that is stored already: what a restart does with it. -/
def replayResult (effect : Option Effect) (call : ToolCall) (persisted : ToolResult) :
    RuntimeProcess ToolResult := do
  Process.note (.found (effect.map Effect.id) call.id persisted)
  match effect with
  | none => pure ()
  | some effect => do
      let disposition ← runtimeCall host fun _ => getRecoveryDisposition effect.id
      if persisted.success = false ∧ disposition = none
          ∧ effect.actionKind ∈ [PermissionLevel.write.value, PermissionLevel.execute.value] then
        modifyGateway fun gateway =>
          { gateway with context := { gateway.context with requiresReplan := true } }
  let runtime ← getRuntime
  if runtime.gateway.history.all fun result => result.callId ≠ persisted.callId then
    appendHistory persisted
  return persisted

/-- The observation of a read that memory holds already. -/
def duplicateRead (call : ToolCall) : ToolResult where
  callId := call.id
  toolName := call.name
  success := true
  output :=
    let path := match call.arguments.get? "path" with
      | some (.str path) => path
      | _ => "the requested path"
    s!"Skipped duplicate read of unchanged file {path}. "
      ++ "Use the earlier observation in memory and continue the active plan."

/-- The gateway runs a call, in the repository that it finds. -/
def invokeGateway (approvalConsumed : Bool) (call : ToolCall) : RuntimeProcess ToolResult :=
  perform host fun moment sys =>
    let owned (permission : PermissionLevel) : Bool :=
      host.ownsLease moment && (decide (¬ permission.Mutates) || host.ownsWorkspace moment)
    match host.gateway.execute owned moment (host.duration moment) approvalConsumed
        sys.runtime.gateway sys.files call with
    | none => .error .leaseLost
    | some (result, gateway, files) =>
        .ok (result, { (sys.withRuntime { sys.runtime with gateway }) with files })

/-- The end of `_execute_or_replay`: the backend, or the skipped read, and the stored result. The
claimed effect comes with the call to run and with whether an approval was consumed. -/
def runCall (claimed : Option (Effect × ToolCall)) (call : ToolCall) :
    RuntimeProcess ToolResult := do
  let known ← ask host fun moment => .ok (host.hasReadCall moment call)
  let store (result : ToolResult) : RuntimeProcess Unit := match claimed with
    | some (effect, executable) => do
        let _ ← commitClaimedEffect host effect executable result
    | none => recordResult host none call result
  if known then do
    appendHistory (duplicateRead call)
    store (duplicateRead call)
    return duplicateRead call
  else do
    let result ← match claimed with
      | some (effect, executable) => invokeGateway host effect.approvalConsumed executable
      | none => invokeGateway host false call
    assertOwnership host
    store result
    return result

/-- The files as the process finds them. -/
def currentFiles : RuntimeProcess Files := Process.read System.files

/-- A prepared effect that passes its checks: the claim, the last look at the files, and the run. -/
def claimAndRun (effect : Effect) (call executable : ToolCall) (expectedInputSequence : Nat) :
    RuntimeProcess ToolResult := do
  let configVersion ← effectConfigVersion host
  let runtime ← getRuntime
  let decision :=
    (host.gateway.prepareCall runtime.gateway.context executable).policyResult.decision
  let claimed ← runtimeCall host fun now =>
    claimEffect now effect.id effect.version host.guard {
      effectFingerprint := some effect.contentFingerprint
      workspaceRef := some runtime.task.repository
      policyVersion := some host.gateway.policy.version
      configVersion := some configVersion
      policyDecision := some decision.value
      expectedInputSequence := some expectedInputSequence }
  assertOwnership host
  let files ← currentFiles
  match assertFilePreconditions host.gateway files effect with
  | .error text => do
      let result := ToolGateway.failed call .executionError text
      appendHistory result
      commitClaimedEffect host claimed executable result
  | .ok () => runCall host (some (claimed, executable)) call

/-- An effect with no stored result. -/
def executeEffect (effect : Effect) (call : ToolCall) (expectedInputSequence : Nat) :
    RuntimeProcess ToolResult := do
  if effect.status ∈ [.denied, .cancelled] then do
    let denied := decide (effect.status = .denied)
    let reason :=
      if denied then "Effect was denied before backend execution"
      else "Effect was cancelled before backend execution"
    let nextAction := if denied then "choose_alternative" else "await_updated_requirements"
    let result ← observeResult host fun duration gateway =>
      host.gateway.observeUnexecuted duration gateway call reason effect.status.value nextAction
        .permissionDenied
    let _ ← settleUnexecuted host effect call result .denied
    return result
  else if effect.status ≠ .prepared then do
    let result := ToolGateway.failed call .permissionDenied
      s!"Effect is not executable from state {effect.status.value}"
    appendHistory result
    let _ ← storingCall host (some effect.id) call.redact.id result.redact fun now =>
      commitToolResult now host.taskId call.redact result.redact none (some host.guard)
    return result
  else do
    let runtime ← getRuntime
    match revalidateEffectCall host.gateway runtime.gateway.context effect call with
    | .error reason => do
        let result ← observeResult host fun duration gateway =>
          host.gateway.rejectPrepared duration gateway call reason
        let _ ← settleUnexecuted host effect call result .denied
        return result
    | .ok executable => do
        let files ← currentFiles
        match assertFilePreconditions host.gateway files effect with
        | .error reason => do
            let result ← observeResult host fun duration gateway =>
              host.gateway.observeUnexecuted duration gateway executable reason
                EffectStatus.cancelled.value "await_updated_requirements" .executionError
            let _ ← settleUnexecuted host effect executable result .cancelled
            return result
        | .ok () => claimAndRun host effect call executable expectedInputSequence

/-- `_execute_or_replay` -/
def executeOrReplay (call : ToolCall) (effect : Option Effect) (expectedInputSequence : Nat) :
    RuntimeProcess ToolResult := do
  assertOwnership host
  let effect ← match effect with
    | none => pure none
    | some effect => do
        let current ← runtimeCall host fun _ => requireEffect effect.id
        yieldForEffectApproval host current
        pure (some current)
  let persisted ← runtimeCall host fun _ => getToolResult host.taskId call.id
  match persisted with
  | some result => replayResult host effect call result
  | none => do
      let known ← ask host fun moment => .ok (host.isKnownFailedAction moment call)
      if known = true ∧ (effect.bind Effect.retryOfEffectId) = none then
        blockRepeatedEffect host effect call
      else match effect with
        | some effect => executeEffect host effect call expectedInputSequence
        | none => runCall host none call

/-! ### After a restart -/

/-- The call that an effect was prepared for. -/
def Effect.call (effect : Effect) : ToolCall where
  id := effect.providerCallId
  name := effect.toolName
  arguments := effect.argumentsSummary

/-- An executing effect whose result is known after all. -/
def confirmEffect (effect : Effect) (evidence : Json) (result : ToolResult)
    (persisted : Option ToolResult) : RuntimeProcess Unit := do
  let terminal := { effect with
    status := if result.success then EffectStatus.succeeded else .failed
    reconciliationEvidence := evidence }
  let reference := toolResultReference effect.taskId effect.providerCallId
  match persisted with
  | some found => do
      Process.note (.found (some effect.id) effect.providerCallId found)
      let _ ← runtimeCall host fun now =>
        commitEffect now terminal.redact effect.version (some reference) (some reference)
          host.guard none
  | none => do
      let _ ← storingCall host (some effect.id) effect.call.redact.id result.redact fun now =>
        commitEffect now terminal.redact effect.version (some reference) (some reference)
          host.guard (some (effect.call.redact, result.redact))
  let runtime ← getRuntime
  if runtime.gateway.history.all fun item => item.callId ≠ result.callId then appendHistory result

/-- The loop of `_reconcile_effects`: whether an effect requires recovery. -/
def reconcileEffects : List Effect → RuntimeProcess Bool
  | [] => return false
  | effect :: rest =>
      if effect.status = .unknown then do
        let disposition ← runtimeCall host fun _ => getRecoveryDisposition effect.id
        if disposition ≠ none then reconcileEffects rest
        else do
          let (_, task) ← runtimeCall host fun now =>
            markEffectUnknown now effect.id effect.version effect.reconciliationEvidence.redact
              host.guard
          setTask task
          return task.runtimeCondition = .recoveryRequired
      else if effect.status ≠ .executing then reconcileEffects rest
      else do
        let persisted ← runtimeCall host fun _ => getToolResult host.taskId effect.providerCallId
        let files ← currentFiles
        match ← orException (reconcileEffect host.gateway files effect persisted) with
        | .confirmedResult evidence result => do
            confirmEffect host effect evidence result persisted
            reconcileEffects rest
        | .recoveryRequired evidence => do
            let (_, task) ← runtimeCall host fun now =>
              markEffectUnknown now effect.id effect.version evidence.redact host.guard
            setTask task
            return task.runtimeCondition = .recoveryRequired

end PatchLoop
