import PatchLoop.Memory.Compression

/-!
# Episodes

`EpisodicMemoryManager`: every tool result is an episode. An episode that failed stays unresolved until its
tool succeeds or a verification does, and the call of one that failed for good is known not to work. The
records and sources that are made of an episode are left out.
-/

namespace PatchLoop

inductive EpisodeOutcome where
  | succeeded
  | failed
  | recovered
  | verified
  | planUpdated
  | checkpointed
deriving DecidableEq

structure EpisodeReference where
  id : String
  stepIndex : Nat
  planPhase : String
  intent : String
  toolName : String
  outcome : EpisodeOutcome
  observation : String
  paths : List String := []
  errorKind : Option ErrorKind := none
  actionFingerprint : String
  recoversEpisodeIds : List String := []
  isMutation : Bool := false
  isVerification : Bool := false
deriving DecidableEq

/-- What `EpisodeReference` checks, beside the form of a digest. -/
def EpisodeReference.validate (reference : EpisodeReference) :
    Except MemoryError EpisodeReference := do
  requireThat (ValidMemoryId reference.id) (.fieldError "id")
  requireThat (reference.planPhase ≠ "" ∧ reference.planPhase.length ≤ 300)
    (.fieldError "plan_phase")
  requireThat (reference.intent ≠ "" ∧ reference.intent.length ≤ 500) (.fieldError "intent")
  requireThat (reference.toolName ≠ "" ∧ reference.toolName.length ≤ 100) (.fieldError "tool_name")
  requireThat (reference.observation ≠ "" ∧ reference.observation.length ≤ 400)
    (.fieldError "observation")
  requireThat reference.paths.Nodup (.validationError "episode paths must be unique")
  requireThat reference.recoversEpisodeIds.Nodup
    (.validationError "episode recovery links must be unique")
  requireThat (reference.outcome = .failed → reference.errorKind ≠ none)
    (.validationError "failed episode requires an error kind")
  requireThat (reference.outcome ≠ .failed → reference.errorKind = none)
    (.validationError "only failed episodes can set an error kind")
  requireThat (reference.recoversEpisodeIds ≠ [] →
      reference.outcome = .recovered ∨ reference.outcome = .verified)
    (.validationError "only recovery episodes can declare causal links")
  return reference

/-- A tool call with its result, as `observe_tool` takes them. -/
structure ToolEvent where
  call : ToolCall
  result : ToolResult
  stepIndex : Nat := 0
  plan : Option Plan := none
  changedPaths : List String := []
deriving DecidableEq

structure EpisodicMemoryManager where
  taskId : String
  goal : String
  recordedCallIds : List String := []
  recordedCheckpointSteps : List Nat := []
  recentEpisodes : List EpisodeReference := []
  unresolvedFailures : List EpisodeReference := []
  lastVerifiedEpisodeId : Option String := none
  episodeCount : Nat := 0
  recoveryCount : Nat := 0
deriving DecidableEq

/-! ### Texts of an episode -/

/-- `text[-count:]` -/
def lastChars (text : String) (count : Nat) : String :=
  String.ofList (text.toList.drop (text.length - count))

/-- `items[-count:]` -/
def lastItems {α : Type} (items : List α) (count : Nat) : List α := items.drop (items.length - count)

namespace EpisodicMemoryManager

/-- `_VERIFICATION_TOOLS` -/
def verificationTools : List String := ["run_tests", "run_command"]

/-- `_MUTATION_TOOLS` -/
def mutationTools : List String := ["apply_patch", "write_file"]

/-- `_BLOCKABLE_FAILURES` -/
def blockableFailures : List ErrorKind :=
  [.unknownTool, .invalidArguments, .pathDenied, .executionError]

/-- `_plan_phase` -/
def planPhase (plan : Option Plan) : String :=
  match plan with
  | none => "unplanned"
  | some plan =>
      match plan.items.find? (·.status = .running), plan.items.find? (·.status = .pending) with
      | some item, _ | none, some item =>
          String.ofList ((squeeze item.description).toList.take 300)
      | none, none => "completed"

/-- `_bounded_text` -/
def boundedText (value : String) (maxLength : Nat) : String :=
  let compact := squeeze value
  if compact.length ≤ maxLength then compact
  else
    let separator := " ... "
    let available := maxLength - separator.length
    let start := available * 2 / 3
    String.ofList (compact.toList.take start) ++ separator ++ lastChars compact (available - start)

section Observing

variable [Redactor]

/-- `_episode_paths` -/
def episodePaths (call : ToolCall) (changedPaths : List String) : List String :=
  let paths := match call.arguments.get? "path" with
    | some (.str path) => [path]
    | _ => if call.name ∈ verificationTools then changedPaths.dedup else []
  (paths.map Redactor.redactText).insertionSort (· ≤ ·)

/-- `_summary` -/
def summaryOf (output : String) : String :=
  let compact := squeeze (Redactor.redactText output)
  let compact := if compact = "" then "no output" else compact
  if compact.length ≤ 320 then compact
  else String.ofList (compact.toList.take 220) ++ " ... " ++ lastChars compact 90

variable [Sha256]

/-- `action_fingerprint` -/
def actionFingerprint (call : ToolCall) : String :=
  hashPayload (.obj [("arguments", call.arguments.redact), ("name", .str call.name)])

/-- `is_known_failed_action` -/
def isKnownFailedAction (manager : EpisodicMemoryManager) (call : ToolCall) : Bool :=
  manager.unresolvedFailures.any fun failure =>
    failure.actionFingerprint = actionFingerprint call
      && failure.errorKind.any (· ∈ blockableFailures)

/-- `_recovery_ids` -/
def recoveryIds (manager : EpisodicMemoryManager) (call : ToolCall) (result : ToolResult) :
    List String :=
  if !result.success || call.name = "update_plan" then []
  else if call.name ∈ verificationTools then manager.unresolvedFailures.map EpisodeReference.id
  else (manager.unresolvedFailures.filter (·.toolName = call.name)).map EpisodeReference.id

/-- The outcome of an event that recovers some episodes. -/
def outcomeOf (call : ToolCall) (result : ToolResult) (recovered : List String) : EpisodeOutcome :=
  if !result.success then .failed
  else if call.name ∈ verificationTools then .verified
  else if call.name = "update_plan" then .planUpdated
  else if recovered ≠ [] then .recovered
  else .succeeded

/-- The episode of an event, before its checks. -/
def referenceOf (manager : EpisodicMemoryManager) (event : ToolEvent) : EpisodeReference :=
  let phase := planPhase event.plan
  let recovered := manager.recoveryIds event.call event.result
  { id := stableId "episode" [manager.taskId, event.call.id]
    stepIndex := event.stepIndex
    planPhase := phase
    intent := if phase ≠ "unplanned" then phase else boundedText manager.goal 500
    toolName := event.call.name
    outcome := outcomeOf event.call event.result recovered
    observation := summaryOf event.result.output
    paths := episodePaths event.call event.changedPaths
    errorKind := if event.result.success then none else event.result.errorKind
    actionFingerprint := actionFingerprint event.call
    recoversEpisodeIds := recovered
    isMutation := event.call.name ∈ mutationTools
    isVerification := event.call.name ∈ verificationTools }

/-- What becomes of the unresolved failures. -/
def unresolvedAfter (failures : List EpisodeReference) (reference : EpisodeReference) :
    List EpisodeReference :=
  let failures :=
    if reference.outcome = .failed
        ∧ ¬ failures.any (·.actionFingerprint = reference.actionFingerprint) then
      lastItems (failures ++ [reference]) 128
    else failures
  if reference.recoversEpisodeIds ≠ [] then
    failures.filter (·.id ∉ reference.recoversEpisodeIds)
  else failures

/-- `_apply_reference` -/
def applyReference (manager : EpisodicMemoryManager) (reference : EpisodeReference)
    (callId : Option String) : EpisodicMemoryManager :=
  { manager with
    recordedCallIds := match callId with
      | none => manager.recordedCallIds
      | some id => lastItems (manager.recordedCallIds ++ [id]) 2000
    unresolvedFailures := unresolvedAfter manager.unresolvedFailures reference
    recoveryCount := manager.recoveryCount + if reference.recoversEpisodeIds ≠ [] then 1 else 0
    lastVerifiedEpisodeId :=
      if reference.outcome = .verified then some reference.id else manager.lastVerifiedEpisodeId
    recentEpisodes := lastItems
      (manager.recentEpisodes.filter (·.id ≠ reference.id) ++ [reference]) 32
    episodeCount := manager.episodeCount + 1 }

/-- `observe_tool`: the manager after an event that is recorded, with its episode. -/
def observeTool (manager : EpisodicMemoryManager) (event : ToolEvent) :
    Except MemoryError (Option (EpisodicMemoryManager × EpisodeReference)) := do
  if event.call.id ∈ manager.recordedCallIds then
    return none
  let reference ← (manager.referenceOf event).validate
  return some (manager.applyReference reference event.call.id, reference)

end Observing

end EpisodicMemoryManager

end PatchLoop
