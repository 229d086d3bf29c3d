import PatchLoop.Runtime.Execution

/-!
# The loop of the runtime

`_run_owned`, `_resume_owned` and `_advance_once` of `runtime.py`: one model response after the other,
each with its batch of tool calls, until the task waits, pauses or ends. A process crosses at most the
given number of step boundaries; one that has crossed them is stopped.
-/

namespace PatchLoop

variable [Sha256] [Uuid5] [Redactor]

/-- A checkpoint as `save_checkpoint` persists it. -/
def Checkpoint.redact (checkpoint : Checkpoint) : Checkpoint :=
  { checkpoint with
    messages := checkpoint.messages.map ModelMessage.redact
    epochMessages := checkpoint.epochMessages.map (·.map ModelMessage.redact)
    plan := checkpoint.plan.map Plan.redact
    changeSnapshot := checkpoint.changeSnapshot.map redactEntry
    toolHistory := checkpoint.toolHistory.map ToolResult.redact
    previousFingerprint := checkpoint.previousFingerprint.map Redactor.redactText }

variable (host : Host)

/-! ### Persisting -/

/-- `_persist_task` -/
def persistTask : RuntimeProcess Unit := do
  let runtime ← getRuntime
  let updated ← runtimeCall host fun now =>
    updateTask now runtime.task.redact runtime.task.version (some host.guard)
  setTask { runtime.task with version := updated.version }

/-- `_persist_checkpoint` -/
def persistCheckpoint (checkpoint : Checkpoint) : RuntimeProcess Unit :=
  runtimeCall host fun now =>
    saveCheckpoint now { checkpoint with updatedAt := now }.redact (some host.guard)

/-- `_record_step` -/
def recordAgentStep (step : AgentStep) : RuntimeProcess Unit :=
  runtimeCall host fun now => recordStep now step.redact (some host.guard)

/-- `_current_event_sequence` -/
def currentEventSequence : RuntimeProcess Nat := do
  let runtime ← getRuntime
  match runtime.task.sessionId with
  | none => return 0
  | some sessionId => do
      let session ← runtimeCall host fun _ => requireSession sessionId
      return session.eventSequence

/-- `_build_report`, of which only its failure matters here. -/
def buildReport : RuntimeProcess Unit := do
  let runtime ← getRuntime
  if runtime.promptCache = none then
    throw (.exception "prompt-cache coordinator was not initialized")

/-- What the counters of a step are about. -/
structure Counters where
  previousFingerprint : Option String
  repeatedActions : Nat
  repeatedErrors : List (String × Nat)
  toolFailures : Nat
deriving DecidableEq

def Checkpoint.counters (checkpoint : Checkpoint) : Counters where
  previousFingerprint := checkpoint.previousFingerprint
  repeatedActions := checkpoint.repeatedActions
  repeatedErrors := checkpoint.repeatedErrors
  toolFailures := checkpoint.toolFailures

/-- `_checkpoint` -/
def buildCheckpoint (nextStepIndex : Nat) (messages : List ModelMessage) (counters : Counters)
    (consumedInputSequence : Nat) (pendingEffectIds : List String)
    (pendingModelRequestStep : Option Nat) : RuntimeProcess Checkpoint := do
  let eventSequence ← currentEventSequence host
  let runtime ← getRuntime
  match runtime.promptCache with
  | none => throw (.exception "prompt-cache coordinator was not initialized")
  | some promptCache => return {
      taskId := runtime.task.id
      sessionId := runtime.task.sessionId
      consumedInputSequence := consumedInputSequence
      eventSequence := eventSequence
      pendingEffectIds := pendingEffectIds
      pendingModelRequestStep := pendingModelRequestStep
      accountedModelResponseSteps := runtime.accountedModelResponseSteps
      unknownModelUsageSteps := runtime.unknownModelUsageSteps
      nextStepIndex := some nextStepIndex
      messages := messages
      promptPrefixMessageCount := promptCache.prefixMessageCount
      epochMessages := promptCache.epochMessages
      plan := runtime.gateway.context.plan
      requiresReplan := runtime.gateway.context.requiresReplan
      replanCount := runtime.gateway.context.replanCount
      changeSnapshot := runtime.gateway.context.changes
      toolHistory := runtime.gateway.history
      previousFingerprint := counters.previousFingerprint
      repeatedActions := counters.repeatedActions
      repeatedErrors := counters.repeatedErrors
      toolFailures := counters.toolFailures }

/-! ### Ending a task -/

/-- `task.transition(target, message)` -/
def transitionTask (target : TaskStatus) (message : Option String) : RuntimeProcess Unit := do
  let runtime ← getRuntime
  let task ← orException (runtime.task.transition target message)
  setTask task

/-- `_fail`; what kind of error it was goes to the event log only. -/
def failTask (message : String) : RuntimeProcess Unit := do
  buildReport
  transitionTask .failed (some message)
  persistTask host

/-- `_append_session_assistant_turn` -/
def appendAssistantTurn (content : String) : RuntimeProcess Unit := do
  let runtime ← getRuntime
  match runtime.task.sessionId with
  | none => pure ()
  | some sessionId =>
      if content.trimAscii.isEmpty then pure ()
      else do
        let turnId ← ask host fun moment => .ok (host.newId moment)
        let turn : Turn := {
          id := turnId
          sessionId := sessionId
          taskId := some runtime.task.id
          role := .assistant
          content := content
          clientSubmissionId := some s!"task-completion:{runtime.task.id}" }
        let _ ← runtimeCall host fun now => appendTurn now turn.redact none

/-- `_complete` -/
def completeTask (step : AgentStep) (summary : String) : RuntimeProcess Unit := do
  buildReport
  transitionTask .completed (some summary)
  recordAgentStep host { step with status := .completed }
  appendAssistantTurn host summary
  persistTask host

/-- `_acknowledge_control` -/
def acknowledgeControl (control : ControlRequest) : RuntimeProcess ControlRequest :=
  if control.status = .requested then
    runtimeCall host fun now => settleControl now control.id .acknowledged control.version none
  else pure control

/-- `_settle_control` -/
def finishControl (control : ControlRequest) : RuntimeProcess Unit := do
  let current ← acknowledgeControl host control
  let _ ← runtimeCall host fun now => settleControl now current.id .settled current.version none

/-- The loop of `_cancel_pending_effects`. -/
def cancelPendingEffects (reason : String) : List Effect → RuntimeProcess Unit
  | [] => pure ()
  | effect :: rest => do
      if effect.status ∈ [.prepared, .waitingForApproval] then do
        let result ← observeResult host fun duration gateway =>
          host.gateway.observeUnexecuted duration gateway effect.call reason
            EffectStatus.cancelled.value "await_updated_requirements" .permissionDenied
        let _ ← settleUnexecuted host effect effect.call result .cancelled
      cancelPendingEffects reason rest

/-- `_cancel` -/
def cancelRunning (control : ControlRequest) : RuntimeProcess Unit := do
  let acknowledged ← acknowledgeControl host control
  ask host host.cleanup
  let effects ← runtimeCall host fun _ => listEffects host.taskId
  cancelPendingEffects host "task cancelled before backend execution" effects
  buildReport
  transitionTask .cancelled none
  persistTask host
  finishControl host acknowledged

/-- `task.transition_runtime(target)` -/
def transitionCondition (target : TaskRuntimeCondition) : RuntimeProcess Unit := do
  let runtime ← getRuntime
  let task ← orException (runtime.task.transitionRuntime target)
  setTask task

/-- `_pause` -/
def pauseRunning (control : ControlRequest) : RuntimeProcess Unit := do
  let acknowledged ← acknowledgeControl host control
  buildReport
  let runtime ← getRuntime
  if runtime.task.runtimeCondition = .running then do
    transitionCondition .pausing
    persistTask host
  ask host host.cleanup
  transitionCondition .paused
  persistTask host
  finishControl host acknowledged

/-- `_apply_pending_control`: whether a request was applied. -/
def applyPendingControl : RuntimeProcess Bool := do
  let pending ← runtimeCall host fun _ => getPendingControl host.taskId
  match pending with
  | none => return false
  | some control => do
      if control.kind = .cancel then cancelRunning host control else pauseRunning host control
      return true

/-! ### Inputs -/

/-- `_pending_input_turns` -/
def pendingInputTurns (afterSequence : Nat) : RuntimeProcess (List Turn) := do
  let runtime ← getRuntime
  match runtime.task.sessionId with
  | none => return []
  | some sessionId => runtimeCall host fun _ => listTurns sessionId afterSequence

/-- The messages that the input turns of a task become. -/
def inputMessages (taskId : String) (turns : List Turn) : List ModelMessage :=
  (turns.filter fun turn =>
    turn.role = .user ∧ (turn.taskId = none ∨ turn.taskId = some taskId)).map
    fun turn => { role := .user, content := turn.content }

/-- `turns[-1].sequence` -/
def lastSequence (turns : List Turn) (default : Nat) : Nat :=
  (turns.getLast?.map Turn.sequence).getD default

/-- `_consume_pending_inputs` -/
def consumePendingInputs (state : Checkpoint) : RuntimeProcess Checkpoint := do
  let turns ← pendingInputTurns host state.consumedInputSequence
  if turns = [] then return state
  else do
    let updated := { state with
      messages := state.messages ++ inputMessages host.taskId turns
      consumedInputSequence := lastSequence turns state.consumedInputSequence }
    persistCheckpoint host updated
    return updated

/-! ### A step and its response -/

/-- `_persisted_response_step` -/
def persistedResponseStep (stepIndex : Nat) : RuntimeProcess (Option AgentStep) := do
  let steps ← runtimeCall host fun _ => listSteps host.taskId
  return steps.find? fun step => step.index = stepIndex ∧ step.modelResponse ≠ none

/-- The prepared retry that a recovery has created. -/
def findRetry : List Effect → RuntimeProcess (Option Effect)
  | [] => return none
  | effect :: rest =>
      match effect.retryOfEffectId with
      | some unknownId =>
          if effect.status = .prepared then do
            let disposition ← runtimeCall host fun _ => getRecoveryDisposition unknownId
            if disposition.any fun disposition => disposition.kind = .createRetry
                ∧ disposition.retryEffectId = some effect.id then
              return some effect
            else findRetry rest
          else findRetry rest
      | none => findRetry rest

/-- The effects as `prepare_effect_batch` redacts them, or its `ValueError`. -/
def persistedEffects (effects : List Effect) : RuntimeProcess (List Effect) :=
  match effects.mapM Effect.persisted with
  | some effects => pure effects
  | none => throw (.exception "credential path does not exist")

/-- One of the effects stands already, for another call id. -/
def Store.holdsForeign (s : Store) (effects : List Effect) : Bool :=
  effects.any fun effect => (s.effectByIdOrIdentity effect).any fun existing =>
    decide (existing.providerCallId ≠ effect.providerCallId)

/-- `prepare_effect_batch`, of the task at its version. -/
def prepareBatch (step : AgentStep) (effects : List Effect) : RuntimeProcess (List Effect) := do
  let effects ← persistedEffects effects
  let runtime ← getRuntime
  markedCall host (fun store _ => some (.prepared (store.holdsForeign effects))) fun now =>
    prepareEffectBatch now step.redact effects runtime.task.version (some host.guard)

/-- `_materialize_recovery_retry_step` -/
def materializeRecoveryRetryStep (stepIndex : Nat) : RuntimeProcess (Option AgentStep) := do
  let effects ← runtimeCall host fun _ => listEffects host.taskId
  match ← findRetry host effects with
  | none => return none
  | some retry => do
      let checkpoint ← runtimeCall host fun _ => getCheckpoint host.taskId
      let step : AgentStep := {
        id := retry.stepId
        taskId := host.taskId
        index := stepIndex
        status := .running
        consumedInputSequence := checkpoint.consumedInputSequence
        modelResponse := some {
          content := "Execute the explicitly requested recovery retry."
          toolCalls := [retry.call] }
        effectIds := [retry.id] }
      let _ ← prepareBatch host step [retry]
      return some step

/-- The step to work on: one with a persisted response, or a new one after the pending inputs. -/
def beginStep (state : Checkpoint) (stepIndex : Nat) : RuntimeProcess (Checkpoint × AgentStep) := do
  let persisted ← persistedResponseStep host stepIndex
  let persisted ← match persisted with
    | some step => pure (some step)
    | none => materializeRecoveryRetryStep host stepIndex
  match persisted with
  | some step => return (state, step)
  | none => do
      let state ← consumePendingInputs host state
      let stepId ← ask host fun moment => .ok (host.newId moment)
      let step : AgentStep := {
        id := stepId
        taskId := host.taskId
        index := stepIndex
        status := .running
        consumedInputSequence := state.consumedInputSequence }
      recordAgentStep host step
      return (state, step)

/-- A step with its response and its effects. -/
structure Responded where
  state : Checkpoint
  step : AgentStep
  response : ModelResponse
  effects : List Effect

/-- The request to the provider, whose response is persisted with its effects. -/
def requestResponse (state : Checkpoint) (step : AgentStep) : RuntimeProcess Responded := do
  let state ← buildCheckpoint host step.index state.messages state.counters
    state.consumedInputSequence state.pendingEffectIds (some step.index)
  persistCheckpoint host state
  assertOwnership host
  let response ← ask host fun moment =>
    match host.provider moment with
    | .ok response => .ok response
    | .error text => .error (.exception text)
  assertOwnership host
  let runtime ← getRuntime
  let files ← currentFiles
  let (step, effects, context) := persistModelResponseBatch host.gateway runtime.gateway.context
    files host.taskId step response
  modifyGateway fun gateway => { gateway with context }
  let effects ← prepareBatch host step effects
  let eventSequence ← currentEventSequence host
  let state := { state with
    eventSequence := eventSequence
    pendingEffectIds := effects.map Effect.id
    pendingModelRequestStep := none }
  persistCheckpoint host state
  return { state, step, response, effects }

/-- `_effects_for_step` -/
def effectsForStep (step : AgentStep) : RuntimeProcess (List Effect) := do
  let effects ← runtimeCall host fun _ => listEffects step.taskId
  orException <| step.effectIds.mapM fun effectId =>
    match effects.find? fun effect => effect.id = effectId with
    | some effect => .ok effect
    | none => .error s!"'{effectId}'"

/-- The response of a step: the persisted one, or a new one. -/
def obtainResponse (state : Checkpoint) (step : AgentStep) : RuntimeProcess Responded :=
  match step.modelResponse with
  | none => requestResponse host state step
  | some response => do
      let effects ← effectsForStep host step
      let runtime ← getRuntime
      let context ← orException
        (restoreFilePreconditions host.gateway effects runtime.gateway.context)
      modifyGateway fun gateway => { gateway with context }
      return { state, step, response, effects }

/-- The usage of a response is counted once. -/
def accountResponse (state : Checkpoint) (stepIndex : Nat) : RuntimeProcess Checkpoint := do
  let runtime ← getRuntime
  if stepIndex ∈ runtime.accountedModelResponseSteps then return state
  else do
    let accounted := runtime.accountedModelResponseSteps ++ [stepIndex]
    modifyRuntime fun runtime => { runtime with accountedModelResponseSteps := accounted }
    let state := { state with accountedModelResponseSteps := accounted }
    persistCheckpoint host state
    return state

/-! ### The batch -/

/-- How a step ends: the task is returned, or the next step starts from a checkpoint. -/
inductive Advance where
  | returned
  | progressed (checkpoint : Checkpoint)

/-- What the batch has done so far. -/
structure Progress where
  messages : List ModelMessage
  counters : Counters
  toolResults : List ToolResult

/-- `response.tool_calls` with their effects. -/
def Responded.calls (responded : Responded) : List (ToolCall × Option Effect) :=
  responded.response.toolCalls.zipIdx.map fun (call, position) =>
    (call, responded.effects[position]?)

/-- The tool message of a call. -/
def toolMessage (call : ToolCall) (content : String) : ModelMessage where
  role := .tool
  content := content
  toolCallId := some call.id

/-- The loop of `_supersede_response_for_inputs` over the calls; the first `answered` ones have their
message already. -/
def supersedeCalls : Nat → List (ToolCall × Option Effect) → Progress → RuntimeProcess Progress
  | _, [], progress => return progress
  | answered, (_, none) :: rest, progress => supersedeCalls (answered - 1) rest progress
  | answered, (call, some effect) :: rest, progress => do
      let current ← runtimeCall host fun _ => requireEffect effect.id
      let held ← Process.read fun sys => decide (current.taskId = host.taskId)
        && (sys.store.toolCalls.get? (host.taskId, call.redact.id)).isSome
      Process.note (.superseding (decide (0 < answered)) current.status held)
      if current.status ∉ [.prepared, .waitingForApproval] then
        supersedeCalls (answered - 1) rest progress
      else do
        let result ← observeResult host fun duration gateway =>
          host.gateway.observeUnexecuted duration gateway call
            "Effect cancelled because newer Session input was committed before claim"
            EffectStatus.cancelled.value "replan_with_latest_requirements" .permissionDenied
        let _ ← settleUnexecuted host current call result .cancelled
        supersedeCalls (answered - 1) rest { progress with
          toolResults := progress.toolResults ++ [result]
          messages := progress.messages ++ [toolMessage call result.output] }

/-- `_supersede_response_for_inputs` -/
def supersedeResponse (responded : Responded) (answered : Nat) (progress : Progress)
    (turns : List Turn) : RuntimeProcess Advance := do
  if turns = [] then
    throw (.exception "input revision changed but no committed Turn was found")
  else do
    let progress ← supersedeCalls host answered responded.calls progress
    modifyGateway fun gateway =>
      { gateway with context := { gateway.context with requiresReplan := true } }
    recordAgentStep host { responded.step with
      status := .completed
      toolResults := progress.toolResults }
    let checkpoint ← buildCheckpoint host (responded.step.index + 1)
      (progress.messages ++ inputMessages host.taskId turns) progress.counters
      (lastSequence turns 0) [] none
    persistCheckpoint host checkpoint
    persistTask host
    return .progressed checkpoint

/-- `_is_recovery_retry_placeholder` -/
def isRecoveryRetryPlaceholder : Option Effect → RuntimeProcess Bool
  | none => return false
  | some effect =>
      if effect.status ≠ .unknown then return false
      else do
        let disposition ← runtimeCall host fun _ => getRecoveryDisposition effect.id
        return disposition.any fun disposition => disposition.kind = .createRetry

/-- `repeated_errors` with one more error of this kind. -/
def countError (errors : List (String × Nat)) (fingerprint : String) : List (String × Nat) :=
  match errors.lookup fingerprint with
  | none => errors ++ [(fingerprint, 1)]
  | some _ => errors.map fun entry =>
      if entry.1 = fingerprint then (entry.1, entry.2 + 1) else entry

/-- The JSON text by which equal tool errors are recognized. -/
def errorFingerprint (result : ToolResult) : String :=
  Json.dumps <| .obj [("kind", .ofOption (result.errorKind.map ErrorKind.value)),
    ("output", .str (String.ofList (result.output.toList.take 1000))),
    ("tool", .str result.toolName)]

/-- The counters after a result, or why the task fails. -/
def Counters.afterResult (counters : Counters) (budget : TaskBudget) (result : ToolResult) :
    Except String Counters :=
  let fingerprint := errorFingerprint result
  let counters := { counters with
    toolFailures := counters.toolFailures + 1
    repeatedErrors := countError counters.repeatedErrors fingerprint }
  let repeats := (counters.repeatedErrors.lookup fingerprint).getD 0
  if budget.maxRepeatedErrors ≤ repeats then
    .error s!"the same tool error repeated {repeats} times"
  else if budget.maxToolFailures < counters.toolFailures then
    .error s!"tool failure budget exceeded ({budget.maxToolFailures})"
  else .ok counters

/-- What follows the result of a call: its message, memory, and the counters of failures. -/
def observeCall (call : ToolCall) (effect : Option Effect) (result : ToolResult)
    (progress : Progress) : RuntimeProcess (Except String Progress) := do
  let progress := { progress with
    toolResults := progress.toolResults ++ [result]
    messages := progress.messages ++ [toolMessage call (host.compactToolResult result)] }
  ask host host.ingestMemory
  if result.success then return .ok progress
  else if ← isRecoveryRetryPlaceholder host effect then return .ok progress
  else
    match progress.counters.afterResult host.budget result with
    | .ok counters => return .ok { progress with counters }
    | .error text => return .error text

/-- The exceptions of a call that the loop handles itself. -/
def handledException : Failure → Bool
  | .store (.inputRevisionConflict _ _ _) | .store (.controlRequested _ _) => true
  | _ => false

/-- The loop of `_advance_once` over the calls of the response: how the step ends early, or what the
whole batch has done. -/
def runBatch (responded : Responded) :
    Nat → List (ToolCall × Option Effect) → Progress → RuntimeProcess (Advance ⊕ Progress)
  | _, [], progress => return .inr progress
  | position, (call, effect) :: rest, progress => do
      if ← applyPendingControl host then return .inl .returned
      else do
        let turns ← pendingInputTurns host responded.step.consumedInputSequence
        if turns ≠ [] then
          return .inl (← supersedeResponse host responded position progress turns)
        else do
          let outcome : Except Failure ToolResult ← tryCatch
            (do return .ok (← executeOrReplay host call effect responded.step.consumedInputSequence))
            fun failure => if handledException failure then return .error failure else throw failure
          match outcome with
          | .error (.store (.inputRevisionConflict _ _ _)) => do
              let turns ← pendingInputTurns host responded.step.consumedInputSequence
              return .inl (← supersedeResponse host responded position progress turns)
          | .error failure => do
              if ← applyPendingControl host then return .inl .returned else throw failure
          | .ok result =>
              match ← observeCall host call effect result progress with
              | .error text => do
                  failTask host text
                  return .inl .returned
              | .ok progress => runBatch responded (position + 1) rest progress

/-! ### Compression and completion -/

/-- `_compress_epoch`: the messages of the next step. -/
def compressEpoch (messages : List ModelMessage) : RuntimeProcess (List ModelMessage) := do
  assertOwnership host
  let answer ← ask host fun moment => .ok (host.provider moment)
  assertOwnership host
  match answer with
  | .error _ => return messages
  | .ok response =>
      if response.toolCalls ≠ [] ∨ response.content.trimAscii.isEmpty = true then return messages
      else do
        let summary ← orException (host.summaryMessage response.content)
        let runtime ← getRuntime
        match runtime.promptCache.bind PromptCache.epochMessages with
        | none => throw (.exception
            "cannot prepare epoch compression when stable layout is disabled")
        | some epoch => do
            let epoch := epoch ++ [{ role := .system, content := summary }]
            modifyRuntime fun runtime => { runtime with
              promptCache := some
                { epochMessages := some epoch, prefixMessageCount := epoch.length } }
            return epoch

/-- `_MUTATION_TOOL_NAMES` -/
def mutationToolNames : List String := ["apply_patch", "create_file", "replace_text", "write_file"]

/-- `changed_paths` -/
def changedPaths (files : Files) (changes : List (String × Option String)) : List String :=
  (changes.filter fun entry => files entry.1 ≠ entry.2).map Prod.fst

/-- `_verified_plan_completion_summary` -/
def verifiedPlanCompletionSummary (gateway : ToolGateway.State) (files : Files) : Option String :=
  match gateway.context.plan with
  | none => none
  | some plan =>
      let paths := changedPaths files gateway.context.changes
      let results := gateway.history.zipIdx
      let mutations := (results.filter fun (result, _) =>
        result.toolName ∈ mutationToolNames ∧ result.success = true).map Prod.snd
      let tests := results.filter fun (result, _) => result.toolName = "run_tests"
      if gateway.context.requiresReplan = true
          ∨ (plan.items.any fun item => item.status ≠ .completed) = true ∨ paths = [] then none
      else match mutations.getLast?, tests.getLast? with
        | some lastMutation, some (lastTest, lastTestIndex) =>
            if lastTestIndex ≤ lastMutation ∨ lastTest.success = false then none
            else
              let listed := ", ".intercalate paths
              some s!"Completed the plan and verified passing tests for: {listed}."
        | _, _ => none

/-- What follows a whole batch. -/
def finishStep (responded : Responded) (dropped : Bool) (progress : Progress) :
    RuntimeProcess Advance := do
  let runtime ← getRuntime
  let files ← currentFiles
  let step := { responded.step with toolResults := progress.toolResults }
  if host.budget.maxReplans < runtime.gateway.context.replanCount then do
    failTask host s!"replan budget exceeded ({host.budget.maxReplans})"
    return .returned
  else match verifiedPlanCompletionSummary runtime.gateway files with
    | some summary => do
        completeTask host step summary
        return .returned
    | none => do
        recordAgentStep host { step with status := .completed }
        ask host host.ingestMemory
        let messages ←
          if host.stable && dropped then compressEpoch host progress.messages
          else pure progress.messages
        let checkpoint ← buildCheckpoint host (responded.step.index + 1) messages
          progress.counters responded.state.consumedInputSequence [] none
        persistCheckpoint host checkpoint
        persistTask host
        return .progressed checkpoint

/-! ### One step -/

/-- The JSON text by which equal batches are recognized. -/
def batchFingerprint (calls : List ToolCall) : String :=
  Json.dumps <| .arr <| calls.map fun call =>
    .obj [("arguments", call.arguments), ("name", .str call.name)]

/-- The counters of a new batch. -/
def Counters.afterBatch (counters : Counters) (calls : List ToolCall) : Counters :=
  let fingerprint := batchFingerprint calls
  if some fingerprint = counters.previousFingerprint then
    { counters with repeatedActions := counters.repeatedActions + 1 }
  else { counters with previousFingerprint := some fingerprint, repeatedActions := 1 }

/-- What follows a response: it joins the conversation, and its calls run. -/
def followResponse (responded : Responded) (dropped : Bool) : RuntimeProcess Advance := do
  let response := responded.response
  Process.note (.responded response.toolCalls)
  let messages := responded.state.messages
    ++ [{ role := .assistant, content := response.content, toolCalls := response.toolCalls }]
  let progress : Progress := {
    messages
    counters := responded.state.counters
    toolResults := responded.step.toolResults }
  let turns ← pendingInputTurns host responded.step.consumedInputSequence
  if turns ≠ [] then supersedeResponse host responded 0 progress turns
  else if response.toolCalls = [] then
    if response.content.trimAscii.isEmpty then do
      failTask host "provider returned neither tool calls nor a final response"
      return .returned
    else do
      completeTask host responded.step response.content
      return .returned
  else
    let counters := progress.counters.afterBatch response.toolCalls
    if host.budget.maxRepeatedActions ≤ counters.repeatedActions then do
      failTask host s!"identical action repeated {counters.repeatedActions} times"
      return .returned
    else do
      match ← runBatch host responded 0 responded.calls { progress with counters } with
      | .inl advance => return advance
      | .inr progress => finishStep host responded dropped progress

/-- The body of `_advance_once`. -/
def advanceBody (state : Checkpoint) : RuntimeProcess Advance := do
  let stepIndex := state.nextStepIndex.getD 0
  let timeExceeded ← ask host fun moment => .ok (host.timeExceeded moment)
  if host.budget.maxSteps ≤ stepIndex then do
    failTask host s!"step budget exceeded ({host.budget.maxSteps})"
    return .returned
  else if timeExceeded then do
    failTask host s!"time budget exceeded after {stepIndex} steps"
    return .returned
  else if ← applyPendingControl host then return .returned
  else do
    let (state, step) ← beginStep host state stepIndex
    let dropped ← ask host host.buildWindow
    let responded ← obtainResponse host state step
    if ← applyPendingControl host then return .returned
    else do
      let state ← accountResponse host responded.state stepIndex
      let budgetError ← ask host fun moment => .ok (host.modelBudgetError moment)
      match budgetError with
      | some text => do
          failTask host text
          return .returned
      | none => followResponse host { responded with state } dropped

/-- The exceptions at which `_advance_once` ends. -/
def handleFailure (failure : Failure) : RuntimeProcess Advance :=
  match failure with
  | .approvalPending => return .returned
  | .leaseLost | .store (.leaseLost _) | .sandboxCleanup _ => throw failure
  | failure => do
      failTask host failure.text
      return .returned

/-- `_advance_once` -/
def advanceOnce (state : Checkpoint) : RuntimeProcess Advance :=
  tryCatch (advanceBody host state) (handleFailure host)

/-! ### Runs of one process -/

/-- `advance_status_for_task(task) is PROGRESSED` -/
def Task.Progressed (task : Task) : Prop :=
  task.runtimeCondition ∉ [.waitingForApproval, .pausing, .paused, .recoveryRequired]
    ∧ task.outcome = .active

instance (task : Task) : Decidable task.Progressed := inferInstanceAs (Decidable (_ ∧ _))

/-- `_execute`: the loop of `RuntimeDriver.run`. -/
def executeSteps : Nat → Checkpoint → RuntimeProcess Unit
  | 0, _ => Process.stop
  | fuel + 1, state => do
      match ← advanceOnce host state with
      | .progressed checkpoint => executeSteps fuel checkpoint
      | .returned => do
          let runtime ← getRuntime
          if runtime.task.Progressed then executeSteps fuel state else pure ()

/-- `PromptCacheCoordinator.initial_messages` -/
def initialMessages (task : Task) : List ModelMessage :=
  [{ role := .system, content := host.systemPrompt }]
  ++ (if host.stable && !host.projectInstructions.trimAscii.isEmpty then
      [{ role := .system
         content := "PATCHLOOP_PROJECT_INSTRUCTIONS_V1\n"
          ++ "Trusted task-scoped project instruction snapshot; it is fixed for this cache epoch.\n"
          ++ host.projectInstructions }]
    else [])
  ++ [{ role := .user, content := task.goal }]

/-- The role of a message from a turn. -/
def TurnRole.messageRole : TurnRole → MessageRole
  | user => .user
  | assistant => .assistant
  | system => .system

/-- `_session_history` -/
def sessionHistory : RuntimeProcess (List ModelMessage × Nat) := do
  let turns ← pendingInputTurns host 0
  return ((turns.filter fun turn => turn.role ∈ [.user, .assistant]).map fun turn =>
      { role := turn.role.messageRole, content := turn.content },
    lastSequence turns 0)

/-- `_run_owned` -/
def runOwned (fuel : Nat) : RuntimeProcess Unit := do
  transitionTask .running none
  modifyGateway fun gateway =>
    { gateway with context := { gateway.context with plan := host.taskPlan } }
  ask host host.restoreMemory
  let runtime ← getRuntime
  let initial := initialMessages host runtime.task
  let (history, consumedInputSequence) ← sessionHistory host
  let messages := initial ++ history
  modifyRuntime fun runtime => { runtime with
    promptCache := some {
      epochMessages := if host.stable then some initial else none
      prefixMessageCount := initial.length } }
  persistTask host
  ask host host.ingestMemory
  let state ← buildCheckpoint host 0 messages
    { previousFingerprint := none, repeatedActions := 0, repeatedErrors := [], toolFailures := 0 }
    consumedInputSequence [] none
  persistCheckpoint host state
  executeSteps host fuel state

/-- `_reconcile_pending_model_request` -/
def reconcilePendingModelRequest (checkpoint : Checkpoint) : RuntimeProcess Checkpoint := do
  match checkpoint.pendingModelRequestStep with
  | none => return checkpoint
  | some stepIndex => do
      let persisted ← persistedResponseStep host stepIndex
      let unknown :=
        if persisted.isNone ∧ stepIndex ∉ checkpoint.unknownModelUsageSteps then
          checkpoint.unknownModelUsageSteps ++ [stepIndex]
        else checkpoint.unknownModelUsageSteps
      let updated := { checkpoint with
        pendingModelRequestStep := none
        unknownModelUsageSteps := unknown }
      persistCheckpoint host updated
      return updated

/-- What `_resume_owned` restores from a checkpoint before anything else. -/
def Checkpoint.gatewayState (checkpoint : Checkpoint) : ToolGateway.State where
  context := {
    plan := checkpoint.plan
    requiresReplan := checkpoint.requiresReplan
    replanCount := checkpoint.replanCount
    changes := checkpoint.changeSnapshot }
  history := checkpoint.toolHistory

/-- `PromptCacheCoordinator.from_legacy_state` -/
def Checkpoint.promptCache (checkpoint : Checkpoint) (stable : Bool) : PromptCache :=
  let epoch :=
    if stable then
      some (checkpoint.epochMessages.getD
        (checkpoint.messages.take checkpoint.promptPrefixMessageCount))
    else none
  { epochMessages := epoch
    prefixMessageCount := (epoch.map List.length).getD checkpoint.promptPrefixMessageCount }

/-- `_resume_owned` -/
def resumeOwned (fuel : Nat) (checkpoint : Checkpoint) : RuntimeProcess Unit := do
  let runtime ← getRuntime
  if runtime.task.status ≠ .running then
    throw (.exception s!"only a running task can resume, got {runtime.task.status.value}")
  else do
    modifyGateway fun _ => checkpoint.gatewayState
    let effects ← runtimeCall host fun _ => listEffects host.taskId
    if ← reconcileEffects host effects then pure ()
    else if ← applyPendingControl host then pure ()
    else do
      let checkpoint ← reconcilePendingModelRequest host checkpoint
      modifyRuntime fun runtime => { runtime with
        accountedModelResponseSteps := checkpoint.accountedModelResponseSteps
        unknownModelUsageSteps := checkpoint.unknownModelUsageSteps
        promptCache := some (checkpoint.promptCache host.stable) }
      let restored : Except Failure Unit ← tryCatch
        (do ask host host.restoreMemory; return .ok ()) fun failure => return .error failure
      match restored with
      | .ok () => executeSteps host fuel checkpoint
      | .error failure => failTask host failure.text

/-- `_with_execution_ownership`: the task is prepared, its ownership is taken by calls of the host's
surroundings, and the action runs on the task as it is then. -/
def withExecutionOwnership (task : Task) (action : RuntimeProcess Unit) : RuntimeProcess Unit := do
  let prepared ← runtimeCall host fun _ => prepareTaskExecution task.redact
  let task ← runtimeCall host fun _ => requireTask prepared.id
  setTask task
  action

/-- `SessionRuntime.resume`: a new task is run, one that has started resumes from its checkpoint. -/
def resumeTask (fuel : Nat) : RuntimeProcess Unit := do
  let task ← runtimeCall host fun _ => requireTask host.taskId
  Process.update fun sys => sys.withRuntime { task, gateway := host.initialGateway }
  if task.runtimeCondition = .recoveryRequired then pure ()
  else if task.status = .created then withExecutionOwnership host task (runOwned host fuel)
  else do
    let checkpoint ← runtimeCall host fun _ => getCheckpoint host.taskId
    withExecutionOwnership host task (resumeOwned host fuel checkpoint)

end PatchLoop
