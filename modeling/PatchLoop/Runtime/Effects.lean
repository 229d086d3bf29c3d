import PatchLoop.Tools.Gateway

/-!
# Persisted provider responses

`execution/effects.py`: the effects that a model response asks for, and what is checked of them before
they are claimed and after a restart.
-/

namespace PatchLoop

/-- `uuid5` in the effect namespace, as hexadecimal digits. -/
class Uuid5 where
  hex : String → String

/-- `stable_effect_id` -/
def stableEffectId [Uuid5] (taskId stepId : String) (batchPosition : Nat) : String :=
  "effect-" ++ Uuid5.hex s!"{taskId}\x00{stepId}\x00{batchPosition}"

section Digests

variable [Sha256]

/-- `_content_fingerprint` -/
def contentDigest (content : String) : String := Sha256.hexdigest content

/-! ### Preparing a batch -/

/-- The mutation of a file that a call asks for, where an earlier call of the batch may have written
the file: `projected` holds what it will contain. -/
def ToolGateway.previewMutation (gateway : ToolGateway) (files : Files)
    (projected : List (String × String)) (call : ToolCall) (normalized : Json) :
    Except String (Option FileMutationPreview) :=
  match (gateway.tool? call.name).map Tool.backend with
  | some (.fileMutation preview _) =>
      match normalized.get? "path" with
      | some (.str rawPath) => do
          let path ← gateway.resolvePath rawPath
          match preview files (projected.lookup path) normalized with
          | .ok mutation => return some mutation
          | .error e => .error e.text
      | _ => .error s!"file mutation requires a path: {call.name}"
  | _ => return none

def FileMutationPreview.precondition (mutation : FileMutationPreview) :
    FileEffectPrecondition where
  path := mutation.path
  existed := mutation.originalContent.isSome
  originalContent := mutation.originalContent
  originalSha256 := mutation.originalContent.map contentDigest
  targetSha256 := contentDigest mutation.targetContent

/-- What `persist_model_response_batch` builds up: the effects, the projected files and the baselines
of changed files. -/
structure Batch where
  effects : List Effect := []
  projected : List (String × String) := []
  changes : List (String × Option String)

variable [Uuid5]

/-- One round of the loop of `persist_model_response_batch`. -/
def prepareEffect (gateway : ToolGateway) (context : ToolContext) (files : Files) (taskId : String)
    (step : AgentStep) (batch : Batch) (call : ToolCall) : Batch :=
  let preparation := gateway.prepareCall context call
  let position := batch.effects.length
  let effect (error : Option String) (assessment : RiskAssessment)
      (preconditions : List FileEffectPrecondition) : Effect := {
    id := stableEffectId taskId step.id position
    taskId := taskId
    stepId := step.id
    batchPosition := position
    providerCallId := call.id
    toolName := call.name
    actionKind := preparation.actionKind
    argumentsSummary := preparation.normalizedArguments
    argumentsFingerprint := Effect.argumentsDigest preparation.normalizedArguments
    policyResult := assessment.dump
    preparationError := error
    filePreconditions := preconditions }
  let mutation :=
    if preparation.actionKind = "write" ∧ preparation.error = none then
      gateway.previewMutation files batch.projected call preparation.normalizedArguments
    else .ok none
  match mutation with
  | .error text =>
      { batch with
        effects :=
          batch.effects ++ [effect (some text) (preparation.policyResult.denied text) []] }
  | .ok none =>
      { batch with
        effects := batch.effects ++ [effect preparation.error preparation.policyResult []] }
  | .ok (some mutation) =>
      { effects := batch.effects
          ++ [effect none preparation.policyResult [mutation.precondition]]
        projected := (mutation.path, mutation.targetContent) :: batch.projected
        changes := captureOriginal batch.changes mutation.path mutation.originalContent }

/-- `persist_model_response_batch`: the step with its response, its effects, and the context with
the baselines of the files that they mutate. -/
def persistModelResponseBatch (gateway : ToolGateway) (context : ToolContext) (files : Files)
    (taskId : String) (step : AgentStep) (response : ModelResponse) :
    AgentStep × List Effect × ToolContext :=
  let batch := response.toolCalls.foldl (prepareEffect gateway context files taskId step)
    { changes := context.changes }
  ({ step with
      modelResponse := some response
      effectIds := batch.effects.map Effect.id },
    batch.effects, { context with changes := batch.changes })

end Digests

/-! ### Before a claim -/

/-- `restore_file_preconditions`; the error is the one of a path that leaves the repository. -/
def restoreFilePreconditions (gateway : ToolGateway) (effects : List Effect)
    (context : ToolContext) : Except String ToolContext :=
  (effects.flatMap Effect.filePreconditions).foldlM (fun context precondition => do
    let path ← gateway.resolvePath precondition.path
    return { context with
      changes := captureOriginal context.changes path precondition.originalContent }) context

variable [Sha256]

/-- `revalidate_effect_call`: the call with its normalized arguments, or the text of the
`ValueError`. -/
def revalidateEffectCall (gateway : ToolGateway) (context : ToolContext) (effect : Effect)
    (call : ToolCall) : Except String ToolCall :=
  if call.id ≠ effect.providerCallId ∨ call.name ≠ effect.toolName then
    .error s!"provider call no longer matches prepared Effect: {effect.id}"
  else match effect.preparationError with
    | some text => .error text
    | none =>
        let preparation := gateway.prepareCall context call
        match preparation.error with
        | some text => .error text
        | none =>
            if preparation.actionKind ≠ effect.actionKind then
              .error s!"action kind changed for prepared Effect: {effect.id}"
            else if Effect.argumentsDigest preparation.normalizedArguments
                ≠ effect.argumentsFingerprint then
              .error s!"arguments changed for prepared Effect: {effect.id}"
            else if preparation.policyResult.decision = .deny then
              .error preparation.policyResult.reason
            else if effect.policyResult.get? "decision"
                ≠ some (.str preparation.policyResult.decision.value) then
              .error s!"policy decision changed for prepared Effect: {effect.id}"
            else .ok { call with arguments := preparation.normalizedArguments }

/-- The check of one precondition. -/
def FileEffectPrecondition.check (precondition : FileEffectPrecondition) (gateway : ToolGateway)
    (files : Files) : Except String Unit := do
  let path ← gateway.resolvePath precondition.path
  if (files path).isSome ≠ precondition.existed
      ∨ precondition.existed = true
        ∧ (files path).map contentDigest ≠ precondition.originalSha256 then
    .error s!"file precondition changed: {precondition.path}"
  else .ok ()

/-- `assert_file_preconditions` -/
def assertFilePreconditions (gateway : ToolGateway) (files : Files) (effect : Effect) :
    Except String Unit :=
  effect.filePreconditions.forM fun precondition => precondition.check gateway files

/-! ### After a restart -/

/-- What `reconcile_effect` finds out about an executing effect. -/
inductive Reconciliation where
  | confirmedResult (evidence : Json) (result : ToolResult)
  | recoveryRequired (evidence : Json)

/-- The observation of one precondition after a restart: whether the target was written. -/
def FileEffectPrecondition.observe (precondition : FileEffectPrecondition) (gateway : ToolGateway)
    (files : Files) : Except String (Json × Bool) := do
  let path ← gateway.resolvePath precondition.path
  let observed := (files path).map contentDigest
  return (.obj [("exists", .bool (files path).isSome),
      ("observed_sha256", .ofOption observed), ("path", .str precondition.path),
      ("target_sha256", .str precondition.targetSha256)],
    decide (observed = some precondition.targetSha256))

/-- `reconcile_effect` on an effect that is still executing. -/
def reconcileEffect (gateway : ToolGateway) (files : Files) (effect : Effect)
    (persistedResult : Option ToolResult) : Except String Reconciliation :=
  match persistedResult with
  | some result => .ok (.confirmedResult (.obj [("source", .str "persisted_tool_result")]) result)
  | none =>
      if effect.filePreconditions = [] then
        .ok (.recoveryRequired (.obj [("action_kind", .str effect.actionKind),
          ("source", .str "result_missing"), ("tool_name", .str effect.toolName)]))
      else do
        let observations ← effect.filePreconditions.mapM fun precondition =>
          precondition.observe gateway files
        if observations.all Prod.snd then
          return .confirmedResult
            (.obj [("files", .arr (observations.map Prod.fst)),
              ("source", .str "file_target_digest")])
            { callId := effect.providerCallId
              toolName := effect.toolName
              success := true
              output := "Recovered completed file action from its persisted target digest." }
        else
          return .recoveryRequired
            (.obj [("files", .arr (observations.map Prod.fst)),
              ("source", .str "file_state_unconfirmed")])

end PatchLoop
