import PatchLoop.Context.TaskMemory
import PatchLoop.Json.RoundTrip
import PatchLoop.Lib.Shedding
import PatchLoop.Memory.Episodes
import PatchLoop.Memory.Semantic
import PatchLoop.Memory.Working

/-!
# The working memory

`WorkingMemoryManager` with all that it holds: items that are pinned or may be given up, the events of the
phase, what was read and what was promoted. After each change it gives up items and events, the least
important first, until what it renders fits the budget. A snapshot of it is kept with a checkpoint.
-/

namespace PatchLoop

/-- `WORKING_MEMORY_PREFIX` -/
def workingMemoryPrefix : String := "PATCHLOOP_WORKING_MEMORY_V1\nUntrusted runtime state.\n"

/-- Whether a character belongs to a word, as `\w` has it. -/
class WordForms where
  isWord : Char → Bool

inductive WorkingMemoryItemKind where
  | goal
  | constraint
  | prohibition
  | plan
  | accessedFile
  | activeError
  | openQuestion
  | changedFile
  | keyEvidence
  | recentResult
deriving DecidableEq

namespace WorkingMemoryItemKind

def value : WorkingMemoryItemKind → String
  | goal => "goal"
  | constraint => "constraint"
  | prohibition => "prohibition"
  | plan => "plan"
  | accessedFile => "accessed_file"
  | activeError => "active_error"
  | openQuestion => "open_question"
  | changedFile => "changed_file"
  | keyEvidence => "key_evidence"
  | recentResult => "recent_result"

/-- The rank of a kind in the order in which items are given up. -/
def evictionRank : WorkingMemoryItemKind → Nat
  | recentResult => 0
  | changedFile => 2
  | openQuestion => 3
  | plan => 4
  | keyEvidence => 5
  | accessedFile => 6
  | goal | constraint | prohibition | activeError => 5

/-- The kinds that are rendered, under their labels. -/
def labels : List (WorkingMemoryItemKind × String) :=
  [(constraint, "constraints"), (prohibition, "prohibitions"), (plan, "plan"),
    (accessedFile, "read_files"), (activeError, "active_errors"), (openQuestion, "questions"),
    (changedFile, "changed_files"), (keyEvidence, "key_evidence"), (recentResult, "recent_results")]

end WorkingMemoryItemKind

inductive WorkingMemoryError where
  | fieldError (field : String)
  | recordError (error : MemoryError)
  | valueError (text : String)
  | budgetError (text : String)
deriving DecidableEq

/-- An item whose key and text have the lengths that they may have. -/
structure WorkingMemoryItem where
  key : String
  kind : WorkingMemoryItemKind
  text : String
  pinned : Bool := false
  stepIndex : Nat := 0
  sourceId : Option String := none
  keyed : key ≠ "" ∧ key.length ≤ 160
  worded : text ≠ "" ∧ text.length ≤ 1200
deriving DecidableEq

instance : Keyed WorkingMemoryItem String := ⟨WorkingMemoryItem.key⟩

/-- `WorkingMemoryItem(...)` -/
def WorkingMemoryItem.make (key : String) (kind : WorkingMemoryItemKind) (text : String) (pinned : Bool)
    (stepIndex : Nat) (sourceId : Option String) : Except WorkingMemoryError WorkingMemoryItem :=
  if hkeyed : key ≠ "" ∧ key.length ≤ 160 then
    if hworded : text ≠ "" ∧ text.length ≤ 1200 then
      .ok { key, kind, text, pinned, stepIndex, sourceId, keyed := hkeyed, worded := hworded }
    else .error (.fieldError "text")
  else .error (.fieldError "key")

structure WorkingMemoryEvent where
  callId : String
  stepIndex : Nat
  toolName : String
  success : Bool
  summary : String
  changedPaths : List String := []
deriving DecidableEq

instance : Keyed WorkingMemoryEvent String := ⟨WorkingMemoryEvent.callId⟩

/-- What `WorkingMemoryEvent` checks. -/
def WorkingMemoryEvent.validate (event : WorkingMemoryEvent) :
    Except WorkingMemoryError WorkingMemoryEvent :=
  if event.callId = "" then .error (.fieldError "call_id")
  else if event.toolName = "" then .error (.fieldError "tool_name")
  else if event.summary = "" ∨ 400 < event.summary.length then .error (.fieldError "summary")
  else .ok event

structure WorkingMemorySnapshot where
  taskId : String
  tokenBudget : Nat
  revision : Nat := 0
  items : List WorkingMemoryItem := []
  phaseEvents : List WorkingMemoryEvent := []
  readSignatures : Table ReadSignature := Table.empty
  promotedKeys : List String := []
  estimatedTokens : Nat := 0
  maxEstimatedTokens : Nat := 0
  evictedCount : Nat := 0
  promotedCount : Nat := 0

/-- `validate_snapshot`, after the constraints on the fields. -/
def WorkingMemorySnapshot.validate (snapshot : WorkingMemorySnapshot) :
    Except WorkingMemoryError WorkingMemorySnapshot :=
  if snapshot.taskId = "" then .error (.fieldError "task_id")
  else if snapshot.tokenBudget < 128 then .error (.fieldError "token_budget")
  else if 512 < snapshot.readSignatures.rows.length then .error (.fieldError "read_signatures")
  else if 256 < snapshot.promotedKeys.length then .error (.fieldError "promoted_keys")
  else if ¬ (snapshot.items.map WorkingMemoryItem.key).Nodup then
    .error (.valueError "working memory item keys must be unique")
  else if ¬ (snapshot.phaseEvents.map WorkingMemoryEvent.callId).Nodup then
    .error (.valueError "working memory phase event call ids must be unique")
  else if ¬ snapshot.promotedKeys.Nodup then
    .error (.valueError "working memory promoted keys must be unique")
  else if snapshot.tokenBudget < snapshot.estimatedTokens then
    .error (.valueError "working memory snapshot exceeds token budget")
  else if snapshot.maxEstimatedTokens < snapshot.estimatedTokens then
    .error (.valueError "working memory maximum cannot be below current usage")
  else .ok snapshot

structure MemoryPromotionBatch where
  sources : List SourcePointer := []
  records : List MemoryRecord := []
deriving DecidableEq

/-- The attributes of `WorkingMemoryManager`. -/
structure WorkingMemory where
  taskId : String
  tokenBudget : Nat
  goalTerms : List String
  items : Table WorkingMemoryItem := Table.empty
  phaseEvents : Table WorkingMemoryEvent := Table.empty
  readSignatures : Table ReadSignature := Table.empty
  promotedKeys : List String := []
  revision : Nat := 0
  evictedCount : Nat := 0
  promotedCount : Nat := 0
  maxEstimatedTokens : Nat := 0
  pendingSources : Table SourcePointer := Table.empty
  pendingRecords : Table MemoryRecord := Table.empty

namespace WorkingMemory

/-! ### Rendering -/

/-- `_sorted_items` -/
def sortedItems (memory : WorkingMemory) : List WorkingMemoryItem :=
  Buckets.sortBy (fun item => toLex (!item.pinned, toLex (item.kind.value, item.key))) memory.items.rows

/-- The texts of a kind. -/
def textsOfKind (memory : WorkingMemory) (kind : WorkingMemoryItemKind) : List String :=
  (memory.sortedItems.filter (·.kind = kind)).map WorkingMemoryItem.text

/-- What is written under the label of a kind. -/
def labelled (memory : WorkingMemory) : WorkingMemoryItemKind × String → Option (String × Json)
  | (kind, label) =>
      if memory.tokenBudget < 256 ∧ (kind = .keyEvidence ∨ kind = .recentResult) then
        if kind = .keyEvidence then some ("key_evidence", .str "task_memory") else none
      else if memory.textsOfKind kind = [] then none
      else some (label, .arr ((memory.textsOfKind kind).map Json.str))

def eventJson (event : WorkingMemoryEvent) : Json :=
  .arr [.int event.stepIndex, .str event.toolName, .bool event.success, .str event.summary]

/-- `_context_payload`, with the names in the order in which they are written -/
def contextPayload (memory : WorkingMemory) : Json :=
  .obj ([("revision", .int memory.revision), ("goal", .str "user_message")]
    ++ WorkingMemoryItemKind.labels.filterMap memory.labelled
    ++ if memory.phaseEvents.rows ≠ [] ∧ 256 ≤ memory.tokenBudget then
        [("recent_events", .arr (memory.phaseEvents.rows.map eventJson))]
      else [])

def render (memory : WorkingMemory) : String := workingMemoryPrefix ++ memory.contextPayload.dumps

/-- `_estimate_current` -/
def estimateCurrent (memory : WorkingMemory) : Nat := estimateText memory.render

/-! ### Giving up -/

/-- What may be given up: its rank, its step, its name, and whether it is an item or an event. -/
abbrev Choice := Nat ×ₗ Nat ×ₗ String ×ₗ String

def itemChoice (item : WorkingMemoryItem) : Choice :=
  toLex (item.kind.evictionRank, toLex (item.stepIndex, toLex (item.key, "item")))

def eventChoice (event : WorkingMemoryEvent) : Choice :=
  toLex (1, toLex (event.stepIndex, toLex (event.callId, "event")))

def mayEvict (item : WorkingMemoryItem) : Bool := !item.pinned && item.kind ≠ .activeError

def choices (memory : WorkingMemory) : List Choice :=
  (memory.items.rows.filter mayEvict).map itemChoice ++ memory.phaseEvents.rows.map eventChoice

def evict (memory : WorkingMemory) (choice : Choice) : WorkingMemory :=
  let (identifier, choiceType) := ofLex (ofLex (ofLex choice).2).2
  { memory with
    items := if choiceType = "item" then memory.items.filter (·.key ≠ identifier) else memory.items
    phaseEvents :=
      if choiceType = "item" then memory.phaseEvents
      else memory.phaseEvents.filter (·.callId ≠ identifier)
    evictedCount := memory.evictedCount + 1 }

def fits (memory : WorkingMemory) : Bool := memory.estimateCurrent ≤ memory.tokenBudget

/-- `_rebalance` -/
def rebalance (memory : WorkingMemory) : Except WorkingMemoryError WorkingMemory :=
  match Shedding.shed fits choices evict memory.choices.length memory with
  | .ok shed =>
      .ok { shed with maxEstimatedTokens := max shed.maxEstimatedTokens shed.estimateCurrent }
  | .error shed =>
      .error (.budgetError (s!"mandatory working memory requires {shed.estimateCurrent} tokens, "
        ++ s!"budget is {shed.tokenBudget}"))

/-- `_changed` -/
def changed (memory : WorkingMemory) : Except WorkingMemoryError WorkingMemory :=
  rebalance { memory with revision := memory.revision + 1 }

section Items

variable [Redactor]

/-- A text as an item has it. -/
def shownText (text : String) : String :=
  String.ofList ((Redactor.redactText (squeeze text)).toList.take 1200)

/-- `_upsert` -/
def upsert (memory : WorkingMemory) (key : String) (kind : WorkingMemoryItemKind) (text : String)
    (pinned : Bool) (stepIndex : Nat) (sourceId : Option String) :
    Except WorkingMemoryError WorkingMemory := do
  let item ← WorkingMemoryItem.make key kind (shownText text) (pinned || kind = .activeError) stepIndex
    sourceId
  return { memory with items := memory.items.upsert item }

variable [Sha256] [UnicodeForms]

/-- `_digest` -/
def digest (value : String) : String :=
  String.ofList ((Sha256.hexdigest (squeeze (UnicodeForms.casefold value))).toList.take 20)

/-! ### Items -/

def pinConstraint (memory : WorkingMemory) (text : String) (stepIndex : Nat) :
    Except WorkingMemoryError WorkingMemory := do
  let memory ← memory.upsert ("constraint:" ++ digest text) .constraint text true stepIndex none
  memory.changed

def pinProhibition (memory : WorkingMemory) (text : String) (stepIndex : Nat) :
    Except WorkingMemoryError WorkingMemory := do
  let memory ← memory.upsert ("prohibition:" ++ digest text) .prohibition text true stepIndex none
  memory.changed

omit [Sha256] [UnicodeForms] in
def addOpenQuestion (memory : WorkingMemory) (key text : String) (stepIndex : Nat) :
    Except WorkingMemoryError WorkingMemory := do
  let memory ← memory.upsert ("question:" ++ key) .openQuestion text false stepIndex none
  memory.changed

omit [Redactor] [Sha256] [UnicodeForms] in
def resolveOpenQuestion (memory : WorkingMemory) (key : String) :
    Except WorkingMemoryError WorkingMemory :=
  if (memory.items.get? ("question:" ++ key)).isSome then
    changed { memory with items := memory.items.filter (·.key ≠ "question:" ++ key) }
  else .ok memory

omit [Sha256] [UnicodeForms] in
def syncChangedPaths (memory : WorkingMemory) (paths : List String) (stepIndex : Nat) :
    Except WorkingMemoryError WorkingMemory := do
  let active := paths.map ("changed:" ++ ·)
  let memory := { memory with
    items := memory.items.filter fun item => !startsWith item.key "changed:" || item.key ∈ active }
  let memory ← (sortedTexts paths).foldlM (fun memory path =>
    memory.upsert ("changed:" ++ path) .changedFile path false stepIndex none) memory
  memory.changed

/-! ### Promotions -/

/-- `_queue_promotion` -/
def queuePromotion (memory : WorkingMemory) (key : String) (source : SourcePointer)
    (records : List MemoryRecord) : WorkingMemory :=
  { memory with
    pendingSources := memory.pendingSources.upsert source
    pendingRecords := records.foldl Table.upsert memory.pendingRecords
    promotedKeys := lastItems (memory.promotedKeys.filter (· ≠ key) ++ [key]) 256
    promotedCount := memory.promotedCount + records.length }

def passedOrFailed (success : Bool) : String := if success then "passed" else "failed"

/-- What an event did, as the record of its phase has it. -/
def actionText (event : WorkingMemoryEvent) : String :=
  s!"step {event.stepIndex} {event.toolName} {passedOrFailed event.success}: {event.summary}"

/-- A record that is promoted, before its checks. -/
def promoted (memory : WorkingMemory) (id : String) (kind : MemoryKind) (content : List (String × Json))
    (retrievalText : String) (source : SourcePointer) (importance confidence : ℚ)
    (estimatedTokens : Nat) (now : Int) : MemoryRecord :=
  { id, taskId := memory.taskId, kind, scopeId := memory.taskId, content, retrievalText,
    sourceIds := [source.id], importance, confidence, estimatedTokens, createdAt := now }

/-- `_promote_completed_plan_item` -/
def promoteCompletedPlanItem (memory : WorkingMemory) (description : String) (evidence : List String)
    (source : SourcePointer) (promotionKey : String) (now : Int) :
    Except WorkingMemoryError WorkingMemory := do
  let actions := memory.phaseEvents.rows.map actionText
  let semantic ← (memory.promoted (stableId "wm-semantic" [memory.taskId, promotionKey]) .semantic
    [("evidence", .arr (evidence.map Json.str)), ("fact", .str description)]
    ("Completed plan item: " ++ description) source (4 / 5) (if evidence.isEmpty then 4 / 5 else 1)
    (estimateText (description ++ " ".intercalate evidence)) now).validateRecord.mapError
      WorkingMemoryError.recordError
  let episodic ← (memory.promoted (stableId "wm-episode" [memory.taskId, promotionKey]) .episodic
    [("actions", .arr (actions.map Json.str)), ("evidence", .arr (evidence.map Json.str)),
      ("intent", .str description), ("outcome", .str "completed")]
    ("Completed phase " ++ description ++ "; actions: " ++ "; ".intercalate actions) source (7 / 10)
    (9 / 10) (estimateText (description ++ " ".intercalate (actions ++ evidence))) now
      ).validateRecord.mapError WorkingMemoryError.recordError
  let queued := memory.queuePromotion promotionKey source [semantic, episodic]
  return { queued with phaseEvents := Table.empty }

/-- `_promote_verification` -/
def promoteVerification (memory : WorkingMemory) (source : SourcePointer) (result : ToolResult)
    (summary : String) (stepIndex : Nat) (now : Int) : Except WorkingMemoryError WorkingMemory := do
  let promotionKey := "verification:" ++ result.callId
  if promotionKey ∈ memory.promotedKeys then
    return memory
  let record ← (memory.promoted (stableId "wm-verification" [memory.taskId, result.callId]) .semantic
    [("result", .str summary), ("step_index", .int stepIndex),
      ("verification_tool", .str result.toolName)]
    (s!"Verified by {result.toolName}: {summary}") source (9 / 10) 1 (estimateText summary)
      now).validateRecord.mapError WorkingMemoryError.recordError
  return memory.queuePromotion promotionKey source [record]

/-! ### Plans -/

/-- What `sync_plan` does for an item of the plan. -/
def syncPlanItem (stepIndex : Nat) (source : Option SourcePointer) (now : Int) (memory : WorkingMemory)
    (item : PlanItem) : Except WorkingMemoryError WorkingMemory :=
  let normalized := squeeze item.description
  let promotionKey := "plan-completed:" ++ digest normalized
  if item.status = .completed then
    match source with
    | none => .ok memory
    | some source =>
        if promotionKey ∈ memory.promotedKeys then .ok memory
        else memory.promoteCompletedPlanItem normalized item.evidence source promotionKey now
  else
    memory.upsert ("plan:" ++ digest normalized) .plan (item.status.value ++ ": " ++ normalized)
      (item.status = .running) stepIndex (source.map SourcePointer.id)

def syncPlan (memory : WorkingMemory) (plan : Option Plan) (stepIndex : Nat)
    (source : Option SourcePointer) (now : Int) : Except WorkingMemoryError WorkingMemory := do
  let memory := { memory with items := memory.items.filter fun item => !startsWith item.key "plan:" }
  let items := match plan with
    | none => []
    | some plan => plan.items
  let memory ← items.foldlM (syncPlanItem stepIndex source now) memory
  memory.changed

/-! ### Tools -/

/-- `_tool_source`, before its checks -/
def toolSource (memory : WorkingMemory) (call : ToolCall) (result : ToolResult) (stepIndex : Nat)
    (now : Int) : SourcePointer where
  id := stableId "wm-source" [memory.taskId, call.id]
  taskId := memory.taskId
  kind := .toolResult
  evidenceHash := Sha256.hexdigest ((EpisodicMemoryManager.dumpResult result).redact.dumpsWith " ")
  eventId := some ("tool:" ++ call.id)
  stepIndex := some stepIndex
  toolCallId := some call.id
  path := call.rawPath.map Redactor.redactText
  capturedAt := now

omit [Sha256] [UnicodeForms] in
/-- `_tool_summary` -/
def toolSummary [FloatRepr] (output : String) : String :=
  let safe := Redactor.redactText output
  let text := match Json.loads safe with
    | some payload =>
        match payload.get? "output" with
        | some (.str text) => text
        | _ => safe
    | none => safe
  let compact := squeeze text
  let compact := if compact = "" then "no output" else compact
  if compact.length ≤ 320 then compact
  else String.ofList (compact.toList.take 220) ++ " ... " ++ lastChars compact 90

/-- `text.find(needle)` -/
def findText (needle text : String) : Option Nat :=
  (List.range (text.length + 1)).find? fun start => needle.toList.isPrefixOf (text.toList.drop start)

omit [Redactor] [Sha256] in
/-- `_evidence_snippet` -/
def evidenceSnippet (summary term : String) : String :=
  match findText term (UnicodeForms.casefold summary) with
  | none => String.ofList (summary.toList.take 96)
  | some matchAt =>
      if summary.length ≤ 96 then String.ofList (summary.toList.take 96)
      else
        let start := matchAt - 16
        let stop := min summary.length (matchAt + term.length + 64)
        (if start = 0 then "" else "... ")
          ++ String.ofList ((summary.toList.take stop).drop start)
          ++ (if stop < summary.length then " ..." else "")

/-- The longest term of the goal that the summary has, and of these the first one. -/
def matchingTerm (memory : WorkingMemory) (summary : String) : Option String :=
  ((memory.goalTerms.filter fun term => occursIn term (UnicodeForms.casefold summary)).insertionSort
    fun term other =>
      other.length < term.length ∨ term.length = other.length ∧ term ≤ other).head?

/-- What a write makes the memory forget. -/
def forgetRead (memory : WorkingMemory) (call : ToolCall) (result : ToolResult) :
    WorkingMemory :=
  match call.rawPath with
  | none => memory
  | some rawPath =>
      if call.name ∈ WorkingMemoryManager.forgettingTools && result.success then
        let safePath := Redactor.redactText rawPath
        { memory with
          readSignatures := memory.readSignatures.filter (·.path ≠ safePath)
          items := memory.items.filter (·.key ≠ "read:" ++ digest safePath) }
      else memory

omit [Redactor] [Sha256] [UnicodeForms] in
/-- The event of a result joins those of the phase; a small budget keeps the last one only. -/
def appendEvent (memory : WorkingMemory) (event : WorkingMemoryEvent) :
    Except WorkingMemoryError WorkingMemory := do
  if (memory.phaseEvents.get? event.callId).isSome then
    return memory
  let event ← event.validate
  let events := memory.phaseEvents.insert event
  if memory.tokenBudget < 256 ∧ 1 < events.rows.length then
    return { memory with phaseEvents := events.last 1, evictedCount := memory.evictedCount + 1 }
  return { memory with phaseEvents := events }

/-- What a read adds. -/
def rememberRead (memory : WorkingMemory) (call : ToolCall) (result : ToolResult) (stepIndex : Nat)
    (source : SourcePointer) : Except WorkingMemoryError WorkingMemory :=
  match call.rawPath with
  | none => .ok memory
  | some rawPath =>
      if call.name = "read_file" && result.success then
        let safePath := Redactor.redactText rawPath
        let signature : ReadSignature := { signature := callSignature call, path := safePath }
        let memory := { memory with
          readSignatures := (memory.readSignatures.upsert signature).last 512 }
        memory.upsert ("read:" ++ digest safePath) .accessedFile safePath false stepIndex source.id
      else .ok memory

omit [Sha256] in
/-- What a success says of a term of the goal. -/
def rememberEvidence (memory : WorkingMemory) (result : ToolResult) (summary : String)
    (stepIndex : Nat) (source : SourcePointer) : Except WorkingMemoryError WorkingMemory :=
  match memory.matchingTerm summary with
  | none => .ok memory
  | some term =>
      if result.success then
        memory.upsert ("evidence:" ++ term) .keyEvidence (evidenceSnippet summary term) false stepIndex
          source.id
      else .ok memory

omit [Sha256] [UnicodeForms] in
/-- A success ends the error of its tool, and a failure is one. -/
def rememberError (memory : WorkingMemory) (result : ToolResult) (summary : String) (stepIndex : Nat)
    (source : SourcePointer) : Except WorkingMemoryError WorkingMemory :=
  let errorKey := "error:" ++ result.toolName
  if result.success then .ok { memory with items := memory.items.filter (·.key ≠ errorKey) }
  else
    let errorKind := match result.errorKind with
      | some kind => kind.value
      | none => "unknown"
    memory.upsert errorKey .activeError s!"{result.toolName} [{errorKind}]: {summary}" true stepIndex
      source.id

/-- A plan that was updated is taken over. -/
def observePlan (memory : WorkingMemory) (call : ToolCall) (result : ToolResult) (stepIndex : Nat)
    (plan : Option Plan) (source : SourcePointer) (now : Int) : Except WorkingMemoryError WorkingMemory :=
  if call.name = "update_plan" && result.success then memory.syncPlan plan stepIndex source now
  else .ok memory

omit [Redactor] [UnicodeForms] in
/-- A verification that passed is promoted. -/
def observeVerification (memory : WorkingMemory) (call : ToolCall) (result : ToolResult)
    (summary : String) (stepIndex : Nat) (source : SourcePointer) (now : Int) :
    Except WorkingMemoryError WorkingMemory :=
  if (call.name = "run_tests" || call.name = "run_command") && result.success then
    memory.promoteVerification source result summary stepIndex now
  else .ok memory

omit [Redactor] [Sha256] [UnicodeForms] in
/-- `drain_promotions` -/
def drainPromotions (memory : WorkingMemory) : WorkingMemory × MemoryPromotionBatch :=
  ({ memory with pendingSources := Table.empty, pendingRecords := Table.empty },
    { sources := memory.pendingSources.rows, records := memory.pendingRecords.rows })

/-- `observe_tool` -/
def observeTool [FloatRepr] (memory : WorkingMemory) (call : ToolCall) (result : ToolResult) (stepIndex : Nat)
    (plan : Option Plan) (changedPaths : List String) (now : Int) :
    Except WorkingMemoryError (WorkingMemory × MemoryPromotionBatch) := do
  let summary := toolSummary result.output
  let source ← (memory.toolSource call result stepIndex now).validate.mapError
    WorkingMemoryError.recordError
  let memory ← (memory.forgetRead call result).appendEvent {
    callId := call.id
    stepIndex
    toolName := result.toolName
    success := result.success
    summary
    changedPaths := sortedTexts changedPaths }
  let memory ← memory.upsert ("result:" ++ result.toolName) .recentResult
    s!"{result.toolName} {passedOrFailed result.success}: {summary}" false stepIndex source.id
  let memory ← memory.rememberRead call result stepIndex source
  let memory ← memory.rememberEvidence result summary stepIndex source
  let memory ← memory.rememberError result summary stepIndex source
  let memory ← memory.syncChangedPaths changedPaths stepIndex
  let memory ← memory.observePlan call result stepIndex plan source now
  let memory ← memory.observeVerification call result summary stepIndex source now
  let memory ← memory.changed
  return memory.drainPromotions

/-! ### The goal -/

/-- `_CONSTRAINT_MARKERS` -/
def constraintMarkers : List String :=
  [" must ", " only ", " do not ", " don't ", " never ", "必须", "只能", "仅", "不要", "禁止", "不得"]

/-- `_PROHIBITION_MARKERS` -/
def prohibitionMarkers : List String :=
  [" do not ", " don't ", " never ", "不要", "禁止", "不得"]

/-- `_SENTENCE_SPLIT`, one character of it -/
def isSentenceMark (c : Char) : Bool := c ∈ ['.', '!', '?', '。', '！', '？', ';', '；', '\n']

/-- The sentences of a text; more than one mark between two of them makes empty ones. -/
def sentencesOf (text : String) : List String :=
  (text.toList.splitOnP isSentenceMark).map fun sentence => squeeze (String.ofList sentence)

omit [Redactor] [Sha256] in
/-- The kind of rule that a sentence states, if it states one. -/
def sentenceKind (normalized : String) : Option WorkingMemoryItemKind :=
  let candidate := " " ++ UnicodeForms.casefold normalized ++ " "
  if normalized = "" ∨ ¬ constraintMarkers.any (occursIn · candidate) then none
  else if prohibitionMarkers.any (occursIn · candidate) then some .prohibition
  else some .constraint

/-- What `_initialize_goal` does for a sentence. -/
def pinSentence (memory : WorkingMemory) (normalized : String) :
    Except WorkingMemoryError WorkingMemory :=
  match sentenceKind normalized with
  | none => .ok memory
  | some kind => memory.upsert (kind.value ++ ":" ++ digest normalized) kind normalized true 0 none

/-- `_initialize_goal` -/
def initializeGoal (memory : WorkingMemory) (goal : String) : Except WorkingMemoryError WorkingMemory := do
  let safeGoal := Redactor.redactText (squeeze goal)
  let memory ← memory.upsert "goal" .goal safeGoal true 0 none
  let memory ← (sentencesOf safeGoal).foldlM pinSentence memory
  memory.changed

end Items

/-! ### Snapshots -/

section Goal

variable [UnicodeForms] [WordForms]

/-- `_goal_terms`: the words of the goal that are long enough. -/
def goalTermsOf (goal : String) : List String :=
  let inTerm (c : Char) : Bool := WordForms.isWord c || c = '-'
  ((((goal.toList.splitBy fun c d => inTerm c == inTerm d).filter fun term =>
    term.all inTerm && 4 ≤ term.length).map String.ofList).map UnicodeForms.casefold).dedup

/-- `WorkingMemoryManager(task_id, goal, token_budget=...)` -/
def start [Redactor] [Sha256] (taskId goal : String) (tokenBudget : Nat) :
    Except WorkingMemoryError WorkingMemory :=
  if tokenBudget < 128 then
    .error (.valueError "working memory token budget must be at least 128")
  else initializeGoal { taskId, tokenBudget, goalTerms := goalTermsOf goal } goal

/-- `WorkingMemoryManager(task_id, goal, token_budget=..., snapshot=...)` -/
def restore (taskId goal : String) (tokenBudget : Nat) (snapshot : WorkingMemorySnapshot) :
    Except WorkingMemoryError WorkingMemory :=
  if tokenBudget < 128 then
    .error (.valueError "working memory token budget must be at least 128")
  else if snapshot.taskId ≠ taskId then
    .error (.valueError "working memory snapshot belongs to another task")
  else if snapshot.tokenBudget ≠ tokenBudget then
    .error (.valueError "working memory snapshot budget does not match task budget")
  else
    rebalance {
      taskId
      tokenBudget
      goalTerms := goalTermsOf goal
      items := snapshot.items.foldl Table.upsert Table.empty
      phaseEvents := snapshot.phaseEvents.foldl Table.upsert Table.empty
      readSignatures := snapshot.readSignatures
      promotedKeys := snapshot.promotedKeys
      revision := snapshot.revision
      evictedCount := snapshot.evictedCount
      promotedCount := snapshot.promotedCount
      maxEstimatedTokens := snapshot.maxEstimatedTokens }

end Goal

/-- What a snapshot says, before its checks. -/
def currentSnapshot (memory : WorkingMemory) : WorkingMemorySnapshot where
  taskId := memory.taskId
  tokenBudget := memory.tokenBudget
  revision := memory.revision
  items := memory.sortedItems
  phaseEvents := memory.phaseEvents.rows
  readSignatures := memory.readSignatures
  promotedKeys := memory.promotedKeys
  estimatedTokens := memory.estimateCurrent
  maxEstimatedTokens := max memory.maxEstimatedTokens memory.estimateCurrent
  evictedCount := memory.evictedCount
  promotedCount := memory.promotedCount

def snapshot (memory : WorkingMemory) : Except WorkingMemoryError WorkingMemorySnapshot :=
  memory.currentSnapshot.validate

end WorkingMemory

end PatchLoop
