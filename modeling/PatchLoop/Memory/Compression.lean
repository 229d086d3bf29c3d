import PatchLoop.Lib.Buckets
import PatchLoop.Memory.Models
import PatchLoop.Security
import PatchLoop.Texts
import Mathlib.Data.Prod.Lex

/-!
# The compression of memory

`MemoryCompressor`: records that say the same are put together in a summary that keeps their sources and
their lineage, and are invalidated. A first run keeps the records that are protected; a later generation
is made of summaries. What Unicode normalization makes of a text is left open, and how Python writes a
JSON value.
-/

namespace PatchLoop

open Buckets

class MemoryText where
  /-- `unicodedata.normalize("NFKC", value).casefold()` -/
  foldCase : String → String
  /-- `str(value)` -/
  str : Json → String

inductive CompressionLevel where
  | deduplicated
  | recordMerge
  | episodeAggregate
  | generationSummary
deriving DecidableEq

def CompressionLevel.value : CompressionLevel → String
  | .deduplicated => "deduplicated"
  | .recordMerge => "record_merge"
  | .episodeAggregate => "episode_aggregate"
  | .generationSummary => "generation_summary"

/-- `_CompressionGroup`: at least two records. -/
structure CompressionGroup where
  level : CompressionLevel
  records : List MemoryRecord
  enough : 2 ≤ records.length
deriving DecidableEq

structure CompressionBatch where
  writes : List MemoryRecord := []
  activeOutputs : List MemoryRecord := []
  report : Option CompressionReport := none
  protectedRecordIds : List String := []
deriving DecidableEq

namespace CompressionBatch

/-- `summary_records` -/
def summaryRecords (batch : CompressionBatch) : List MemoryRecord :=
  batch.writes.filter fun record => 0 < record.compressionGeneration ∧ record.status = .active

end CompressionBatch

/-! ### Texts -/

/-- `_bounded` -/
def bounded (value : String) (maxChars : Nat) : String :=
  let compact := squeeze value
  if compact.length ≤ maxChars then compact
  else
    let suffix := " ... [compressed]"
    String.ofList (compact.toList.take (maxChars - suffix.length)) ++ suffix

/-- `_estimate_text` -/
def estimateText (value : String) : Nat := (value.utf8ByteSize + 2) / 3 + 4

/-- `bool(value)`, where `None` stands for no value -/
def truthy : Option Json → Bool
  | none | some .null | some (.bool false) | some (.int 0) | some (.str "") | some (.arr [])
  | some (.obj []) => false
  | some (.float text) => text ≠ "0.0" && text ≠ "-0.0"
  | some _ => true

/-- `value in members`, for a set of texts: a list and an object cannot be looked up. -/
def isMember (value : Option Json) (members : List String) : Except MemoryError Bool :=
  match value with
  | some (.arr _) => .error (.typeError "unhashable type: 'list'")
  | some (.obj _) => .error (.typeError "unhashable type: 'dict'")
  | some (.str text) => .ok (text ∈ members)
  | _ => .ok false

/-! ### Reading a record -/

/-- The text under a name, if it is one. -/
def MemoryRecord.text? (record : MemoryRecord) (name : String) : Option String :=
  match record.get? name with
  | some (.str text) => some text
  | _ => none

/-- `isinstance(reference, dict)`, and then what it has under a name. -/
def MemoryRecord.reference? (record : MemoryRecord) (name : String) : Option Json :=
  match record.get? "reference" with
  | some (.obj fields) => (Json.obj fields).get? name
  | _ => none

/-- The texts of a list. -/
def textsOf (items : List Json) : List String :=
  items.filterMap fun
    | .str text => some text
    | _ => none

/-- `_episode_outcome` -/
def episodeOutcome (record : MemoryRecord) : String :=
  match record.get? "outcome", record.reference? "outcome" with
  | some (.str raw), _ => raw
  | _, some (.str outcome) => outcome
  | _, _ => "unknown"

/-- `_episode_tool` -/
def episodeTool (record : MemoryRecord) : String :=
  match record.reference? "tool_name", record.get? "actions" with
  | some (.str toolName), _ => toolName
  | _, some (.arr (.obj first :: _)) =>
      match (Json.obj first).get? "tool_name" with
      | some (.str raw) => raw
      | _ => "unknown"
  | _, _ => "unknown"

/-- A value that is an `int`, which a `bool` is too. -/
def intOf : Option Json → Option Json
  | some (.int value) => some (.int value)
  | some (.bool value) => some (.bool value)
  | _ => none

/-- `_episode_step` -/
def episodeStep (record : MemoryRecord) : Option Json :=
  intOf (record.get? "step_index") <|> intOf (record.reference? "step_index")

/-- The number that a step is. -/
def stepNumber : Json → Int
  | .int value => value
  | .bool true => 1
  | _ => 0

/-- `_content_paths` -/
def contentPaths (record : MemoryRecord) : List String :=
  match record.get? "paths", record.reference? "paths" with
  | some (.arr raw), _ => sortedTexts (textsOf raw)
  | _, some (.arr paths) => sortedTexts (textsOf paths)
  | _, _ => []

/-- `_record_tokens` -/
def recordTokens (record : MemoryRecord) : Nat :=
  max 1 (if record.estimatedTokens = 0 then estimateText record.retrievalText
    else record.estimatedTokens)

/-- `_record_order` -/
def recordOrder (record : MemoryRecord) : Int ×ₗ String := toLex (record.createdAt, record.id)

/-- `_record_lineage` -/
def recordLineage (record : MemoryRecord) : List String :=
  record.id :: record.derivedFromIds ++ match record.get? "lineage_record_ids" with
    | some (.arr raw) => textsOf raw
    | _ => []

/-! ### Protection -/

/-- The double that `0.99` stands for. -/
def almostCertain : ℚ := 8917127262193582 / 9007199254740992

/-- `_always_protected` -/
def alwaysProtected (record : MemoryRecord) : Except MemoryError Bool := do
  if ← isMember (record.get? "fact_type") ["constraint", "prohibition", "verification"] then
    return true
  if record.get? "epistemic_status" = some (.str "user_asserted") then
    return true
  if record.get? "verification_tool" ≠ none ∨ record.get? "final_decision" = some (.bool true) then
    return true
  let planStatus := record.get? "plan_status"
  if ← isMember (if truthy planStatus then planStatus else record.get? "status")
      ["pending", "running"] then
    return true
  if record.kind = .episodic ∧ episodeOutcome record = "failed" then
    return true
  return decide (almostCertain ≤ record.importance ∧ almostCertain ≤ record.confidence)

/-- The episodes with an outcome. -/
def episodesWith (outcome : String) (records : List MemoryRecord) : List MemoryRecord :=
  records.filter fun record => record.kind = .episodic ∧ episodeOutcome record = outcome

/-- The latest verified episode of each tool and each set of paths. -/
def latestVerified (records : List MemoryRecord) : List MemoryRecord :=
  latest (fun record => (episodeTool record, contentPaths record)) recordOrder
    (episodesWith "verified" records)

/-- The latest recovery for each set of paths. -/
def latestRecovery (records : List MemoryRecord) : List MemoryRecord :=
  latest contentPaths recordOrder (episodesWith "recovered" records)

/-- `_protected_ids` -/
def protectedIds (records : List MemoryRecord) : Except MemoryError (List String) := do
  let always ← records.filterM alwaysProtected
  return (always ++ latestVerified records ++ latestRecovery records).map MemoryRecord.id

/-! ### Groups -/

section Groups

variable [MemoryText]

/-- `_normalize` -/
def normalizeText (value : String) : String := squeeze (MemoryText.foldCase value)

/-- `_semantic_merge_key` -/
def semanticMergeKey (record : MemoryRecord) : Option (String × String × String) :=
  match record.text? "slot_key", record.text? "normalized_value", record.text? "fact",
      record.text? "verification_tool", record.text? "result" with
  | some slot, some value, _, _, _ => some (record.scopeId, slot, value)
  | _, _, some fact, _, _ => some (record.scopeId, "fact", normalizeText fact)
  | _, _, _, some tool, some result => some (record.scopeId, tool, normalizeText result)
  | _, _, _, _, _ => none

/-- `_episode_group_key` -/
def episodeGroupKey (record : MemoryRecord) : String × String × String × String :=
  let planPhase := record.get? "plan_phase"
  let intent := record.get? "intent"
  let phase := if truthy planPhase then planPhase else intent
  (record.scopeId, if truthy phase then MemoryText.str (phase.getD .null) else "unknown",
    ",".intercalate (contentPaths record), episodeTool record)

def duplicateKey (record : MemoryRecord) : String × String × String × String :=
  (record.kind.value, record.scope.value, record.scopeId, normalizeText record.retrievalText)

def generationChunkSize : Nat := 4

def episodeChunkSize : Nat := 24

/-- The groups of the parts that hold more than one record. -/
def groupsOf (level : CompressionLevel) (parts : List (List MemoryRecord)) : List CompressionGroup :=
  parts.filterMap fun part =>
    if h : 2 ≤ part.length then some { level, records := part, enough := h } else none

/-- The records of the groups. -/
def assigned (groups : List CompressionGroup) : List MemoryRecord :=
  groups.flatMap CompressionGroup.records

/-- The first pass: records of the same text. -/
def duplicateGroups (eligible : List MemoryRecord) : List CompressionGroup :=
  groupsOf .deduplicated ((buckets duplicateKey eligible).map (sortBy recordOrder))

/-- The second pass: facts of the same slot and value. -/
def semanticGroups (rest : List MemoryRecord) : List CompressionGroup :=
  groupsOf .recordMerge ((buckets semanticMergeKey (rest.filter fun record =>
    record.kind = .semantic ∧ (semanticMergeKey record).isSome)).map (sortBy recordOrder))

/-- The third pass: episodes of the same phase, paths and tool, in chunks. -/
def episodeGroups (rest : List MemoryRecord) : List CompressionGroup :=
  groupsOf .episodeAggregate ((buckets episodeGroupKey (rest.filter (·.kind = .episodic))).flatMap
    fun bucket => chunks episodeChunkSize (sortBy recordOrder bucket))

/-- The records that none of the groups has. -/
def unassigned (records : List MemoryRecord) (groups : List CompressionGroup) : List MemoryRecord :=
  records.filter fun record => record.id ∉ (assigned groups).map MemoryRecord.id

/-- `_initial_groups` -/
def initialGroups (records : List MemoryRecord) (isProtected : List String) :
    List CompressionGroup :=
  let eligible := records.filter fun record =>
    record.id ∉ isProtected ∧ record.compressionGeneration = 0
  let duplicates := duplicateGroups eligible
  let merges := semanticGroups (unassigned eligible duplicates)
  let episodes := episodeGroups (unassigned eligible (duplicates ++ merges))
  duplicates ++ merges ++ episodes

/-- The boundary that a summary of facts does not cross. -/
def generationBoundary (record : MemoryRecord) : String :=
  match record.kind, record.text? "slot_key" with
  | .semantic, some slot => if slot = "" then record.id else slot
  | .semantic, none => record.id
  | _, _ => ""

/-- `_generation_groups` -/
def generationGroups (records : List MemoryRecord) : List CompressionGroup :=
  groupsOf .generationSummary ((buckets (fun record =>
    (record.kind.value, record.scope.value, record.scopeId, generationBoundary record))
      records).flatMap fun bucket => chunks generationChunkSize (sortBy recordOrder bucket))

end Groups

/-! ### Summaries -/

namespace CompressionGroup

theorem records_ne_nil (group : CompressionGroup) : group.records ≠ [] := by
  intro hnil
  have henough := group.enough
  rw [hnil] at henough
  exact absurd henough (by decide)

/-- `records[0]` -/
def first (group : CompressionGroup) : MemoryRecord := group.records.head group.records_ne_nil

/-- `records[-1]` -/
def last (group : CompressionGroup) : MemoryRecord := group.records.getLast group.records_ne_nil

/-- `max(f(record) for record in records)` -/
def maxOf {β : Type} [Max β] (group : CompressionGroup) (f : MemoryRecord → β) : β :=
  (group.records.tail.map f).foldl max (f group.first)

/-- `min(f(record) for record in records)` -/
def minOf {β : Type} [Min β] (group : CompressionGroup) (f : MemoryRecord → β) : β :=
  (group.records.tail.map f).foldl min (f group.first)

end CompressionGroup

section Summaries

/-- `_hash_payload` -/
def hashPayload [Sha256] (payload : Json) : String := Sha256.hexdigest payload.dumps

/-- `_stable_id` -/
def stableId [Sha256] (start : String) (values : List String) : String :=
  start ++ "-" ++ String.ofList ((Sha256.hexdigest (":".intercalate values)).toList.take 32)

/-- A value as a member of a set: a list and an object are none. -/
def hashable (value : Option Json) : Except MemoryError (Option Json) :=
  match value with
  | some (.arr _) => .error (.typeError "unhashable type: 'list'")
  | some (.obj _) => .error (.typeError "unhashable type: 'dict'")
  | _ => .ok value

/-- Whether the values are all the same text, which is not empty. -/
def shareText (values : List (Option Json)) : Bool :=
  match values with
  | some (.str text) :: rest => text ≠ "" && rest.all (· = some (.str text))
  | _ => false

def sharedFields : List String :=
  ["semantic_schema", "fact_type", "subject", "predicate", "value", "normalized_value",
    "epistemic_status", "authority", "slot_key"]

/-- `_shared_semantic_fields` -/
def sharedSemanticFields (group : CompressionGroup) :
    Except MemoryError (List (String × Json)) := do
  if group.records.any (·.kind ≠ .semantic) then
    return []
  let slots ← group.records.mapM fun record => hashable (record.get? "slot_key")
  let values ← group.records.mapM fun record => hashable (record.get? "normalized_value")
  if !(shareText slots && shareText values) then
    return []
  let newest := (latest (fun _ => ()) recordOrder group.records).headD group.first
  return if (newest.text? "semantic_schema").isNone then []
    else sharedFields.filterMap fun field => (newest.get? field).map (field, ·)

variable [MemoryText]

/-- `_unique_texts` -/
def uniqueTexts (values : List String) : List String :=
  (values.eraseDupsBy fun value other => normalizeText value == normalizeText other).map squeeze

/-- `_summary_text` -/
def summaryText (group : CompressionGroup) : String :=
  let records := group.records
  match group.level with
  | .deduplicated => s!"{bounded group.last.retrievalText 480}; repeated={records.length}"
  | .recordMerge =>
      s!"evidence_count={records.length}; " ++ " | ".intercalate
        (((uniqueTexts (records.map MemoryRecord.retrievalText)).take 3).map (bounded · 220))
  | .episodeAggregate =>
      let steps := (records.filterMap episodeStep).insertionSort fun step other =>
        stepNumber step ≤ stepNumber other
      let paths := ",".intercalate (sortedTexts (records.flatMap contentPaths))
      let outcomes := ",".intercalate (sortedTexts (records.map episodeOutcome))
      let first := bounded group.first.retrievalText 180
      let final := bounded group.last.retrievalText 220
      let stepRange := match steps.head?, steps.getLast? with
        | some start, some stop => MemoryText.str start ++ "-" ++ MemoryText.str stop
        | _, _ => "unknown"
      let pathText := if paths = "" then "none" else paths
      s!"episodes={records.length}; steps={stepRange}; paths={pathText}; "
        ++ s!"outcomes={outcomes}; first={first}; final={final}"
  | .generationSummary =>
      s!"generation_inputs={records.length}; " ++ " | ".intercalate
        ((uniqueTexts (records.map fun record =>
          if truthy (record.get? "summary") then MemoryText.str ((record.get? "summary").getD .null)
          else record.retrievalText)).map (bounded · 180))

variable [Redactor]

/-- The summary in the text of a group's record. -/
def CompressionGroup.safeSummary (group : CompressionGroup) : String := Redactor.redactText (summaryText group)

/-- `retrieval` -/
def retrievalOf (group : CompressionGroup) : String :=
  s!"Compressed {group.level.value}: " ++ group.safeSummary

/-- `direct_ids` -/
def directIds (group : CompressionGroup) : List String :=
  (group.records.map MemoryRecord.id).insertionSort (· ≤ ·)

/-- `lineage_ids` -/
def lineageIds (group : CompressionGroup) : List String :=
  sortedTexts (group.records.flatMap recordLineage)

/-- `source_ids` -/
def unionSources (group : CompressionGroup) : List String :=
  sortedTexts (group.records.flatMap MemoryRecord.sourceIds)

/-- `source_steps` -/
def sourceSteps (sources : List MemorySource) (sourceIds : List String) : List Nat :=
  (sourceIds.filterMap fun sourceId =>
    (sources.reverse.find? (·.id = sourceId)).bind MemorySource.stepIndex).dedup.insertionSort (· ≤ ·)

/-- `generation` -/
def generationOf (group : CompressionGroup) : Nat :=
  group.maxOf MemoryRecord.compressionGeneration + 1

variable [Sha256]

/-- The content of a summary, without the fields that its records share. -/
def ownContent (group : CompressionGroup) (sources : List MemorySource) : List (String × Json) :=
  let texts (values : List String) := Json.arr (values.map Json.str)
  [("compression_schema", .str "1.0"),
    ("input_record_ids", texts (directIds group)),
    ("level", .str group.level.value),
    ("lineage_record_ids", texts (lineageIds group)),
    ("provenance_hash", .str (hashPayload (.obj [
      ("level", .str group.level.value), ("records", texts (directIds group)),
      ("sources", texts (unionSources group))]))),
    ("source_steps", .arr ((sourceSteps sources (unionSources group)).map fun step => .int step)),
    ("summary", .str group.safeSummary),
    ("untrusted", .bool true)]

/-- The summary of a group, before its checks. -/
def summaryDraft (taskId : String) (group : CompressionGroup) (content : List (String × Json)) :
    MemoryRecord where
  id := stableId "compressed-memory" [taskId, group.level.value, toString (generationOf group),
    hashPayload (.obj [("content", .obj content),
      ("records", .arr ((directIds group).map Json.str))])]
  taskId := taskId
  kind := group.first.kind
  scope := group.first.scope
  scopeId := group.first.scopeId
  content := content
  retrievalText := retrievalOf group
  sourceIds := unionSources group
  importance := group.maxOf MemoryRecord.importance
  confidence := group.minOf MemoryRecord.confidence
  compressionGeneration := generationOf group
  derivedFromIds := directIds group
  estimatedTokens := estimateText (retrievalOf group)
  createdAt := group.maxOf MemoryRecord.createdAt

/-- `_summary_record` -/
def summaryRecord (taskId : String) (group : CompressionGroup) (sources : List MemorySource) :
    Except MemoryError MemoryRecord := do
  let shared ← sharedSemanticFields group
  let content := shared.foldl (fun fields field => Json.setField field.1 field.2 fields)
    (ownContent group sources)
  (summaryDraft taskId group content).validateRecord

end Summaries

/-! ### Compressing -/

/-- `_operations` -/
def operationsOf (accepted : List (CompressionGroup × MemoryRecord)) : List CompressionOperation :=
  let has (level : CompressionLevel) : Bool := accepted.any (·.1.level = level)
  (if has .deduplicated then [.deduplicate] else []) ++ (if has .recordMerge then [.merge] else [])
    ++ (if has .episodeAggregate || has .generationSummary then [.summarize] else []) ++ [.prune]

/-- The sum of the tokens of the records. -/
def totalTokens (records : List MemoryRecord) : Nat := (records.map recordTokens).sum

/-- The records of the task that are active. -/
def activeRecords (taskId : String) (records : List MemoryRecord) : List MemoryRecord :=
  records.filter fun record => record.taskId = taskId ∧ record.status = .active

section Compress

variable [MemoryText] [Redactor] [Sha256]

/-- What a run takes as its inputs, protects and groups. -/
def compressionInputs (active : List MemoryRecord) (generationRollup : Bool) :
    Except MemoryError (List MemoryRecord × List String × List CompressionGroup) :=
  if generationRollup then
    let inputs := active.filter fun record => 0 < record.compressionGeneration
    .ok (inputs, [], generationGroups inputs)
  else do
    let isProtected ← protectedIds active
    return (active, isProtected, initialGroups active isProtected)

/-- The summaries that are accepted, with their groups. -/
def acceptedSummaries (taskId : String) (sources : List MemorySource)
    (groups : List CompressionGroup) :
    Except MemoryError (List (CompressionGroup × MemoryRecord)) := do
  let summaries ← groups.mapM fun group => do
    return (group, ← summaryRecord taskId group sources)
  return summaries.filter fun (group, summary) =>
    summary.estimatedTokens < totalTokens group.records

/-- The report of accepted summaries, before its checks. -/
def reportDraft (taskId : String) (inputs outputs : List MemoryRecord)
    (isProtected removed : List String) (accepted : List (CompressionGroup × MemoryRecord)) :
    CompressionReport :=
  let sorted (ids : List String) := ids.insertionSort (· ≤ ·)
  let inputIds := sorted (inputs.map MemoryRecord.id)
  let outputIds := sorted (outputs.map MemoryRecord.id)
  let operations := operationsOf accepted
  let generation := (accepted.map (·.2.compressionGeneration)).foldl max 0
  let texts (values : List String) := Json.arr (values.map Json.str)
  { id := stableId "compression" [taskId, toString generation, hashPayload (.obj [
      ("inputs", texts inputIds), ("operations", texts (operations.map CompressionOperation.value)),
      ("outputs", texts outputIds)])]
    taskId
    generation
    operations
    inputRecordIds := inputIds
    outputRecordIds := outputIds
    protectedRecordIds := sortedTexts (isProtected.filter (· ∈ inputIds))
    removedRecordIds := sortedTexts removed
    inputTokens := totalTokens inputs
    outputTokens := totalTokens outputs
    createdAt := (inputs.map MemoryRecord.createdAt).foldl max
      ((inputs.head?.map MemoryRecord.createdAt).getD 0) }

/-- `compress` -/
def compress (taskId : String) (records : List MemoryRecord) (sources : List MemorySource)
    (generationRollup : Bool) : Except MemoryError CompressionBatch := do
  let active := activeRecords taskId records
  let (inputs, isProtected, groups) ← compressionInputs active generationRollup
  let untouchedBatch : CompressionBatch := {
    activeOutputs := active
    protectedRecordIds := sortedTexts isProtected }
  if inputs = [] ∨ groups = [] then
    return untouchedBatch
  let accepted ← acceptedSummaries taskId (sources.filter (·.taskId = taskId)) groups
  if accepted = [] then
    return untouchedBatch
  let grouped := (accepted.flatMap (·.1.records)).map MemoryRecord.id
  let invalidated := (inputs.filter (·.id ∈ grouped)).map fun record =>
    { record with status := .invalidated }
  let summaries := accepted.map Prod.snd
  let untouched := inputs.filter (·.id ∉ grouped)
  let reportOutputs := untouched ++ summaries
  let inputIds := inputs.map MemoryRecord.id
  let outside := active.filter (·.id ∉ inputIds)
  let report ← (reportDraft taskId inputs reportOutputs isProtected grouped accepted).validateReport
  return {
    writes := invalidated ++ summaries
    activeOutputs := outside ++ reportOutputs
    report := some report
    protectedRecordIds := sortedTexts isProtected }

end Compress

end PatchLoop
