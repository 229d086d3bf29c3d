import PatchLoop.Memory.Episodic
import PatchLoop.Memory.Sources
import PatchLoop.PromptCache.Publication

/-!
# Records of episodes

What `EpisodicMemoryManager` writes of a tool result and of a checkpoint, and how it takes up what it has
written. An episode is applied before its sources and its record are made.
-/

namespace PatchLoop

def EpisodeOutcome.value : EpisodeOutcome → String
  | .succeeded => "succeeded"
  | .failed => "failed"
  | .recovered => "recovered"
  | .verified => "verified"
  | .planUpdated => "plan_updated"
  | .checkpointed => "checkpointed"

def EpisodeOutcome.ofValue? : String → Option EpisodeOutcome
  | "succeeded" => some .succeeded
  | "failed" => some .failed
  | "recovered" => some .recovered
  | "verified" => some .verified
  | "plan_updated" => some .planUpdated
  | "checkpointed" => some .checkpointed
  | _ => none

def ErrorKind.ofValue? : String → Option ErrorKind
  | "unknown_tool" => some .unknownTool
  | "invalid_arguments" => some .invalidArguments
  | "path_denied" => some .pathDenied
  | "execution_error" => some .executionError
  | "budget_exceeded" => some .budgetExceeded
  | "provider_error" => some .providerError
  | "permission_denied" => some .permissionDenied
  | "timeout" => some .timeout
  | "no_progress" => some .noProgress
  | "test_failure" => some .testFailure
  | "syntax_error" => some .syntaxError
  | "command_failure" => some .commandFailure
  | _ => none

/-! ### References as JSON -/

namespace EpisodeReference

/-- `model_dump(mode="json")` -/
def dump (reference : EpisodeReference) : Json :=
  .obj [
    ("action_fingerprint", .str reference.actionFingerprint),
    ("error_kind", match reference.errorKind with
      | some kind => .str kind.value
      | none => .null),
    ("id", .str reference.id),
    ("intent", .str reference.intent),
    ("is_mutation", .bool reference.isMutation),
    ("is_verification", .bool reference.isVerification),
    ("observation", .str reference.observation),
    ("outcome", .str reference.outcome.value),
    ("paths", .arr (reference.paths.map Json.str)),
    ("plan_phase", .str reference.planPhase),
    ("recovers_episode_ids", .arr (reference.recoversEpisodeIds.map Json.str)),
    ("step_index", .int reference.stepIndex),
    ("tool_name", .str reference.toolName)]

/-- The text under a name. -/
def textField (raw : Json) (name : String) : Except MemoryError String :=
  match raw.get? name with
  | some (.str text) => .ok text
  | _ => .error (.fieldError name)

/-- The texts under a name, of which there are none where there is no such field. -/
def textsField (raw : Json) (name : String) : Except MemoryError (List String) :=
  match raw.get? name with
  | none => .ok []
  | some (.arr items) =>
      items.mapM fun
        | .str text => .ok text
        | _ => .error (.fieldError name)
  | some _ => .error (.fieldError name)

def boolField (raw : Json) (name : String) : Except MemoryError Bool :=
  match raw.get? name with
  | none => .ok false
  | some (.bool value) => .ok value
  | some _ => .error (.fieldError name)

def stepField (raw : Json) : Except MemoryError Nat :=
  match raw.get? "step_index" with
  | some (.int (.ofNat step)) => .ok step
  | _ => .error (.fieldError "step_index")

def outcomeField (raw : Json) : Except MemoryError EpisodeOutcome :=
  match raw.get? "outcome" with
  | some (.str text) =>
      match EpisodeOutcome.ofValue? text with
      | some outcome => .ok outcome
      | none => .error (.fieldError "outcome")
  | _ => .error (.fieldError "outcome")

def errorField (raw : Json) : Except MemoryError (Option ErrorKind) :=
  match raw.get? "error_kind" with
  | none | some .null => .ok none
  | some (.str text) =>
      match ErrorKind.ofValue? text with
      | some kind => .ok (some kind)
      | none => .error (.fieldError "error_kind")
  | some _ => .error (.fieldError "error_kind")

/-- `model_validate`, of fields of their types -/
def load (raw : Json) : Except MemoryError EpisodeReference := do
  let reference : EpisodeReference := {
    actionFingerprint := ← textField raw "action_fingerprint"
    errorKind := ← errorField raw
    id := ← textField raw "id"
    intent := ← textField raw "intent"
    isMutation := ← boolField raw "is_mutation"
    isVerification := ← boolField raw "is_verification"
    observation := ← textField raw "observation"
    outcome := ← outcomeField raw
    paths := ← textsField raw "paths"
    planPhase := ← textField raw "plan_phase"
    recoversEpisodeIds := ← textsField raw "recovers_episode_ids"
    stepIndex := ← stepField raw
    toolName := ← textField raw "tool_name" }
  reference.validate

end EpisodeReference

/-! ### Events and what is written of them -/

structure EpisodeWrite where
  sources : List SourcePointer
  record : MemoryRecord
  reference : EpisodeReference
deriving DecidableEq

/-- A checkpoint, as `observe_checkpoint` takes it. -/
structure CheckpointEvent where
  stepIndex : Nat
  plan : Option Plan := none
  changedPaths : List String := []
deriving DecidableEq

inductive EpisodeEvent where
  | tool (event : ToolEvent)
  | checkpoint (event : CheckpointEvent)
deriving DecidableEq

/-- The id of a tool event's call. -/
def EpisodeEvent.callId : EpisodeEvent → Option String
  | .tool event => some event.call.id
  | .checkpoint _ => none

namespace EpisodicMemoryManager

/-- `[*paths] if paths else [None]` -/
def sourcePaths (paths : List String) : List (Option String) :=
  if paths = [] then [none] else paths.map some

/-- `path or "none"` -/
def pathText (path : Option String) : String :=
  match path with
  | none => "none"
  | some path => if path = "" then "none" else path

/-- The importance of an episode's record. -/
def importanceOf : EpisodeOutcome → ℚ
  | .failed => 9 / 10
  | .recovered => 9 / 10
  | .verified => 1
  | .planUpdated => 13 / 20
  | .checkpointed => 2 / 5
  | .succeeded => 11 / 20

/-- The content of an episode's record. -/
def contentOf (reference : EpisodeReference) (callId : Option String) : List (String × Json) :=
  [("actions", .arr [.obj [
      ("arguments_fingerprint", .str reference.actionFingerprint),
      ("is_mutation", .bool reference.isMutation),
      ("is_verification", .bool reference.isVerification),
      ("tool_name", .str reference.toolName)]]),
    ("call_id", match callId with
      | some id => .str id
      | none => .null),
    ("episode_id", .str reference.id),
    ("episode_schema", .str "1.0"),
    ("error_kind", match reference.errorKind with
      | some kind => .str kind.value
      | none => .null),
    ("intent", .str reference.intent),
    ("observations", .arr [.str reference.observation]),
    ("outcome", .str reference.outcome.value),
    ("paths", .arr (reference.paths.map Json.str)),
    ("plan_phase", .str reference.planPhase),
    ("recovers_episode_ids", .arr (reference.recoversEpisodeIds.map Json.str)),
    ("reference", reference.dump),
    ("step_index", .int reference.stepIndex)]

/-- The text by which an episode is found. -/
def retrievalOf (reference : EpisodeReference) : String :=
  let error := match reference.errorKind with
    | some kind => kind.value
    | none => "none"
  let paths := if " ".intercalate reference.paths = "" then "none" else " ".intercalate reference.paths
  s!"Episode phase={reference.planPhase}; tool={reference.toolName}; outcome={reference.outcome.value}; "
    ++ s!"error={error}; paths={paths}; {reference.observation}"

/-- `_memory_record`, before its checks -/
def recordOf (taskId : String) (reference : EpisodeReference) (sourceIds : List String)
    (callId : Option String) (now : Int) : MemoryRecord where
  id := reference.id
  taskId := taskId
  kind := .episodic
  scopeId := taskId
  content := contentOf reference callId
  retrievalText := retrievalOf reference
  sourceIds := sourceIds
  importance := importanceOf reference.outcome
  confidence := 1
  estimatedTokens := estimateText (retrievalOf reference)
  createdAt := now

/-- The result of a tool as its evidence has it. -/
def dumpResult (result : ToolResult) : Json :=
  .obj [
    ("call_id", .str result.callId),
    ("duration_ms", .float result.durationMs),
    ("error_kind", match result.errorKind with
      | some kind => .str kind.value
      | none => .null),
    ("output", .str result.output),
    ("success", .bool result.success),
    ("tool_name", .str result.toolName)]

variable [Redactor] [Sha256]

/-- `_tool_sources`, before their checks -/
def toolSources (taskId : String) (event : ToolEvent) (reference : EpisodeReference) (now : Int) :
    List SourcePointer :=
  let evidenceHash := hashPayload
    (Json.obj [("call", event.call.dump), ("result", dumpResult event.result)]).redact
  (sourcePaths reference.paths).map fun path => {
    id := stableId "episode-source" [taskId, event.call.id, pathText path]
    taskId
    kind := .toolResult
    evidenceHash
    eventId := some ("tool:" ++ event.call.id)
    stepIndex := some reference.stepIndex
    toolCallId := some event.call.id
    path
    capturedAt := now }

/-- The name of a checkpoint. -/
def checkpointId (taskId : String) (stepIndex : Nat) : String := s!"checkpoint:{taskId}:{stepIndex}"

/-- The sources of a checkpoint, before their checks. -/
def checkpointSources (taskId : String) (reference : EpisodeReference) (now : Int) : List SourcePointer :=
  let id := checkpointId taskId reference.stepIndex
  let evidenceHash := hashPayload (.obj [
    ("checkpoint_id", .str id),
    ("paths", .arr (reference.paths.map Json.str)),
    ("step_index", .int reference.stepIndex)])
  (sourcePaths reference.paths).map fun path => {
    id := stableId "episode-checkpoint-source" [id, pathText path]
    taskId
    kind := .checkpoint
    evidenceHash
    checkpointId := some id
    stepIndex := some reference.stepIndex
    path
    capturedAt := now }

/-- The episode of a checkpoint, before its checks. -/
def checkpointReference (manager : EpisodicMemoryManager) (event : CheckpointEvent) : EpisodeReference :=
  let phase := planPhase event.plan
  { id := stableId "episode-checkpoint" [manager.taskId, toString event.stepIndex]
    stepIndex := event.stepIndex
    planPhase := phase
    intent := if phase ≠ "unplanned" then phase else boundedText manager.goal 500
    toolName := "checkpoint"
    outcome := .checkpointed
    observation := s!"checkpoint boundary {event.stepIndex}"
    paths := sortedTexts (event.changedPaths.map Redactor.redactText)
    actionFingerprint := hashPayload (.obj [
      ("checkpoint", .str (checkpointId manager.taskId event.stepIndex))]) }

/-- The manager with an episode of a checkpoint. -/
def applyCheckpoint (manager : EpisodicMemoryManager) (reference : EpisodeReference) : EpisodicMemoryManager :=
  applyReference
    { manager with recordedCheckpointSteps := manager.recordedCheckpointSteps ++ [reference.stepIndex] }
    reference none

/-- The manager after an event that is recorded, with its episode: `observe_tool` and `observe_checkpoint`
before anything is made of the episode. -/
def record (manager : EpisodicMemoryManager) (event : EpisodeEvent) :
    Except MemoryError (Option (EpisodicMemoryManager × EpisodeReference)) :=
  match event with
  | .tool event => manager.observeTool event
  | .checkpoint event => do
      if event.stepIndex ∈ manager.recordedCheckpointSteps then
        return none
      let reference ← (manager.checkpointReference event).validate
      return some (manager.applyCheckpoint reference, reference)

/-- The sources of an episode, before their checks. -/
def sourcesOf (taskId : String) (event : EpisodeEvent) (reference : EpisodeReference) (now : Int) :
    List SourcePointer :=
  match event with
  | .tool event => toolSources taskId event reference now
  | .checkpoint _ => checkpointSources taskId reference now

/-- What is made of an episode. -/
def write (taskId : String) (event : EpisodeEvent) (reference : EpisodeReference) (now : Int) :
    Except MemoryError EpisodeWrite := do
  let sources ← (sourcesOf taskId event reference now).mapM SourcePointer.validate
  let record ← (recordOf taskId reference (sources.map SourcePointer.id) event.callId
    now).validateRecord
  return { sources, record, reference }

/-- `observe_tool` and `observe_checkpoint` at a time: an error in what is made of an episode leaves the
episode applied. -/
def observe (manager : EpisodicMemoryManager) (event : EpisodeEvent) (now : Int) :
    EpisodicMemoryManager × Except MemoryError (Option EpisodeWrite) :=
  match manager.record event with
  | .error e => (manager, .error e)
  | .ok none => (manager, .ok none)
  | .ok (some (next, reference)) => (next, some <$> write manager.taskId event reference now)

/-! ### Taking up records -/

/-- The manager with an episode of a record, which it may have already. -/
def restoreReference (manager : EpisodicMemoryManager) (reference : EpisodeReference)
    (callId : Option String) : EpisodicMemoryManager :=
  if callId.any (· ∈ manager.recordedCallIds) then manager
  else if reference.toolName = "checkpoint" then
    if reference.stepIndex ∈ manager.recordedCheckpointSteps then manager
    else applyReference
      { manager with recordedCheckpointSteps := manager.recordedCheckpointSteps ++ [reference.stepIndex] }
      reference callId
  else manager.applyReference reference callId

/-- A round of `_restore_records`. -/
def restoreRecord (manager : EpisodicMemoryManager) (record : MemoryRecord) :
    Except MemoryError EpisodicMemoryManager :=
  if record.kind ≠ .episodic then .ok manager
  else if record.get? "episode_schema" ≠ some (.str "1.0") then .ok manager
  else
    match record.get? "reference" with
    | some (.obj fields) => do
        let reference ← EpisodeReference.load (.obj fields)
        return manager.restoreReference reference (record.text? "call_id")
    | _ => .ok manager

/-- A manager without episodes. -/
def fresh (taskId goal : String) : EpisodicMemoryManager := { taskId, goal }

/-- `_restore_records`, by a new manager -/
def restore (taskId goal : String) (records : List MemoryRecord) : Except MemoryError EpisodicMemoryManager :=
  (Buckets.sortBy recordOrder records).foldlM restoreRecord (fresh taskId goal)

end EpisodicMemoryManager

/-! ### Snapshots -/

structure EpisodicMemorySnapshot where
  taskId : String
  recordedCallIds : List String
  recordedCheckpointSteps : List Nat
  recentEpisodes : List EpisodeReference
  unresolvedFailures : List EpisodeReference
  lastVerifiedEpisodeId : Option String
  episodeCount : Nat
  recoveryCount : Nat
deriving DecidableEq

/-- What `EpisodicMemorySnapshot` checks. -/
def EpisodicMemorySnapshot.validate (snapshot : EpisodicMemorySnapshot) :
    Except MemoryError EpisodicMemorySnapshot := do
  requireThat (snapshot.taskId ≠ "") (.fieldError "task_id")
  requireThat (snapshot.recordedCallIds.length ≤ 2000) (.fieldError "recorded_call_ids")
  requireThat (snapshot.recordedCheckpointSteps.length ≤ 2000) (.fieldError "recorded_checkpoint_steps")
  requireThat (snapshot.recentEpisodes.length ≤ 32) (.fieldError "recent_episodes")
  requireThat (snapshot.unresolvedFailures.length ≤ 128) (.fieldError "unresolved_failures")
  requireThat snapshot.recordedCallIds.Nodup (.validationError "recorded episode call ids must be unique")
  requireThat snapshot.recordedCheckpointSteps.Nodup
    (.validationError "recorded checkpoint steps must be unique")
  requireThat (snapshot.recentEpisodes.map EpisodeReference.id).Nodup
    (.validationError "recent episode ids must be unique")
  requireThat (snapshot.unresolvedFailures.map EpisodeReference.id).Nodup
    (.validationError "unresolved failure ids must be unique")
  requireThat (∀ episode ∈ snapshot.unresolvedFailures, episode.outcome = .failed)
    (.validationError "unresolved episode must be a failure")
  return snapshot

namespace EpisodicMemoryManager

/-- What a manager's snapshot is made of. -/
def snapshotOf (manager : EpisodicMemoryManager) : EpisodicMemorySnapshot where
  taskId := manager.taskId
  recordedCallIds := manager.recordedCallIds
  recordedCheckpointSteps := manager.recordedCheckpointSteps
  recentEpisodes := manager.recentEpisodes
  unresolvedFailures := manager.unresolvedFailures
  lastVerifiedEpisodeId := manager.lastVerifiedEpisodeId
  episodeCount := manager.episodeCount
  recoveryCount := manager.recoveryCount

/-- `snapshot` -/
def snapshot (manager : EpisodicMemoryManager) : Except MemoryError EpisodicMemorySnapshot :=
  manager.snapshotOf.validate

end EpisodicMemoryManager

end PatchLoop
