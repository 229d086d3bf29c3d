import PatchLoop.Memory.Extraction

/-!
# The layered memory

`MemoryManager`: an event of the task is taken in once. The facts of the semantic memory and the records of
the other layers are kept in one dictionary, which is compressed when it has grown. What is not active in it
is withheld from the history.
-/

namespace PatchLoop

/-- `MemoryCompressionPolicy` -/
structure MemoryCompressionPolicy where
  activeUncompressedThreshold : Nat := 64
  activeGenerationThreshold : Nat := 8
  maximumGeneration : Nat := 3

/-- A record of the working or the episodic memory: what it says is neither a slot nor a value. -/
structure LayerRecord where
  record : MemoryRecord
  untyped : isTypedSemanticRecord record = false
  noSlot : record.text? "slot_key" = none
  noValue : record.text? "value" = none
  noFact : ¬ "semantic-fact-".toList <+: record.id.toList

/-- What the other layers make of an event, at which times its facts are made, and whether the store takes
what the event and a compression after it write. -/
structure EventContext where
  layerRecords : List LayerRecord := []
  layerSources : List MemorySource := []
  now : Nat → Int
  saved : Bool := true
  compactionSaved : Bool := true

/-- An event of the task. -/
inductive MemoryEvent where
  | initial
  | tool (call : ToolCall) (result : ToolResult) (stepIndex : Nat) (plan : Option Plan) (diff : String)
  | checkpoint (stepIndex : Nat)

structure MemoryManager where
  taskId : String
  goal : String
  repositoryScopeId : String
  policy : MemoryCompressionPolicy := {}
  semantic : SemanticMemoryManager := { taskId }
  /-- `_volatile_records` -/
  records : Table MemoryRecord := Table.empty
  /-- `_volatile_sources` -/
  sources : Table MemorySource := Table.empty
  processedEventIds : List String := []
  fallbackActive : Bool := false

namespace MemoryManager

/-- `_remember` -/
def remember (manager : MemoryManager) (sources : List MemorySource) (records : List MemoryRecord) :
    MemoryManager :=
  { manager with
    records := records.foldl Table.upsert manager.records
    sources := sources.foldl Table.upsert manager.sources }

/-! ### What is withheld -/

/-- The values of the records of one kind of status. -/
def valuesOf (manager : MemoryManager) (keep : MemoryStatus → Bool) : List String :=
  (manager.records.rows.filter (keep ·.status)).filterMap (·.text? "value")

/-- `inactive_context_values`: the longest value first. -/
def inactiveContextValues (manager : MemoryManager) : List String :=
  let activeValues := manager.valuesOf (· = .active)
  let values := (manager.valuesOf (· ≠ .active)).filter fun value =>
    4 ≤ value.length && value ∉ activeValues
  values.dedup.insertionSort fun value other =>
    other.length < value.length ∨ value.length = other.length ∧ value ≤ other

/-! ### Events -/

def eventId (manager : MemoryManager) : MemoryEvent → String
  | .initial => "task:" ++ manager.taskId ++ ":goal"
  | .tool call _ _ _ _ => "tool:" ++ call.id
  | .checkpoint stepIndex => s!"checkpoint:{manager.taskId}:{stepIndex}"

section Taking

variable [UnicodeForms] [Sha256]

/-- The facts that the semantic memory extracts of an event. -/
def factsOf (manager : MemoryManager) : MemoryEvent → Except MemoryError (List SemanticFactDraft)
  | .initial => goalFacts manager.taskId manager.goal
  | .tool call result _ plan diff =>
      SemanticExtractionEvent.extract {
        taskId := manager.taskId
        repositoryScopeId := manager.repositoryScopeId
        call, result, plan, diff }
  | .checkpoint _ => .ok []

/-- The sources of the facts of an event. -/
def factSource (manager : MemoryManager) (drafts : List SemanticFactDraft) :
    MemoryEvent → Option String → MemorySource
  | .tool call _ stepIndex _ _ =>
      SemanticMemoryManager.toolSource manager.taskId call.id stepIndex
        (drafts.filterMap SemanticFactDraft.path)
  | _ => SemanticMemoryManager.userSource manager.taskId

/-- The facts of an event at their times. -/
def timedFacts (context : EventContext) (drafts : List SemanticFactDraft) : List TimedDraft :=
  drafts.zipIdx.map fun (draft, index) => { draft, now := context.now index }

variable [Redactor] [MemoryText]

/-- `_maybe_compress` -/
def maybeCompress (manager : MemoryManager) (saved : Bool) : MemoryManager × Option MemoryError :=
  let active := manager.records.rows.filter (·.status = .active)
  let uncompressed := active.filter (·.compressionGeneration = 0)
  let compressed := active.filter (0 < ·.compressionGeneration)
  let rollup := uncompressed.length < manager.policy.activeUncompressedThreshold
  let newest := (compressed.map MemoryRecord.compressionGeneration).foldl max 0
  if manager.fallbackActive then (manager, none)
  else if rollup && (compressed.length < manager.policy.activeGenerationThreshold
      || manager.policy.maximumGeneration ≤ newest) then (manager, none)
  else
    match compress manager.taskId active manager.sources.rows rollup with
    | .error error => (manager, some error)
    | .ok batch =>
        if batch.report.isNone then (manager, none)
        else if !saved then ({ manager with fallbackActive := true }, none)
        else
          let next := manager.remember [] batch.writes
          ({ next with semantic := next.semantic.synchronizeRecords next.records }, none)

/-- What an event does before the compression: the facts are resolved and all records are remembered. -/
def takeIn (manager : MemoryManager) (event : MemoryEvent) (context : EventContext) :
    MemoryManager × Option MemoryError :=
  match manager.factsOf event with
  | .error error => (manager, some error)
  | .ok drafts =>
      match resolve manager.taskId manager.semantic.records (manager.factSource drafts event)
          (timedFacts context drafts) with
      | (resolution, some error) =>
          ({ manager with semantic := { manager.semantic with records := resolution.records } },
            some error)
      | (resolution, none) =>
          let records := context.layerRecords.map LayerRecord.record ++ resolution.written
          let next := manager.remember (context.layerSources ++ resolution.sources.rows) records
          ({ next with
            semantic := { manager.semantic with records := resolution.records }
            fallbackActive := manager.fallbackActive || (records ≠ [] && !context.saved) }, none)

/-- `ingest_initial`, `ingest_tool` and `ingest_checkpoint` -/
def ingest (manager : MemoryManager) (event : MemoryEvent) (context : EventContext) :
    MemoryManager × Option MemoryError :=
  if manager.eventId event ∈ manager.processedEventIds then (manager, none)
  else
    match manager.takeIn event context with
    | (taken, some error) => (taken, some error)
    | (taken, none) =>
        match taken.maybeCompress context.compactionSaved with
        | (next, some error) => (next, some error)
        | (next, none) =>
            ({ next with processedEventIds := next.processedEventIds ++ [manager.eventId event] }, none)

end Taking

end MemoryManager

end PatchLoop
