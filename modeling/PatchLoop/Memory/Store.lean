import PatchLoop.Lib.Interning
import PatchLoop.Lib.Transaction
import PatchLoop.Memory.Semantic
import PatchLoop.Memory.Sources
import PatchLoop.Store.Schema

/-!
# The memory store

`SQLiteMemoryStore.save_batch`: the sources, the records and the compaction reports of one task are written in
one transaction. A source or a report that is there already under another id, and a record with the identity of
one that is, stand for what is there, and the items after them are renamed by that. The columns of a row are
read from its payload, and the rows of `memory_record_sources` from the `source_ids` of the records.
-/

namespace PatchLoop

open Interning Transaction

inductive MemoryStoreError where
  | storeError (text : String)
  | conflict (text : String)
  | validationError (error : MemoryError)
  | leaseLost (taskId : String)
deriving DecidableEq

instance : Keyed CompressionReport String := ⟨CompressionReport.id⟩

/-- What `save_batch` is given. -/
structure MemoryBatch where
  sources : List SourcePointer := []
  records : List MemoryRecord := []
  compactions : List CompressionReport := []
deriving DecidableEq

/-- What `save_batch` returns. -/
structure MemoryWriteResult where
  sources : List SourcePointer
  records : List MemoryRecord
  compactions : List CompressionReport
deriving DecidableEq

/-- The tables of the memory. -/
structure MemoryTables where
  sources : Table SourcePointer := .empty
  records : Table MemoryRecord := .empty
  compactions : Table CompressionReport := .empty

/-- What is done in a transaction of the memory store. -/
abbrev MemoryAction (α : Type) := Transaction MemoryStoreError MemoryTables α

/-- The answer of a check, in a transaction. -/
def checked {α : Type} (result : Except MemoryError α) : MemoryAction α :=
  match result with
  | .ok a => pure a
  | .error e => throw (.validationError e)

/-! ### Redaction -/

section Redaction

variable [Redactor]

/-- `_redact_source` -/
def SourcePointer.redact (source : SourcePointer) : Except MemoryError SourcePointer :=
  { source with
    id := Redactor.redactText source.id
    taskId := Redactor.redactText source.taskId
    evidenceHash := Redactor.redactText source.evidenceHash
    eventId := source.eventId.map Redactor.redactText
    toolCallId := source.toolCallId.map Redactor.redactText
    checkpointId := source.checkpointId.map Redactor.redactText
    memoryRecordId := source.memoryRecordId.map Redactor.redactText
    path := source.path.map Redactor.redactText : SourcePointer }.validate

/-- `_redact_record` -/
def MemoryRecord.redact [Sha256] (record : MemoryRecord) : Except MemoryError MemoryRecord :=
  { record with
    id := Redactor.redactText record.id
    taskId := Redactor.redactText record.taskId
    scopeId := Redactor.redactText record.scopeId
    content := Json.redactFields record.content
    retrievalText := Redactor.redactText record.retrievalText
    sourceIds := record.sourceIds.map Redactor.redactText
    supersedesId := record.supersedesId.map Redactor.redactText
    supersededById := record.supersededById.map Redactor.redactText
    contentHash := ""
    derivedFromIds := record.derivedFromIds.map Redactor.redactText
    lastRecallReason := record.lastRecallReason.map Redactor.redactText : MemoryRecord }.validateRecord

/-- `_redact_compaction` -/
def CompressionReport.redact (report : CompressionReport) : Except MemoryError CompressionReport :=
  { report with
    id := Redactor.redactText report.id
    taskId := Redactor.redactText report.taskId
    inputRecordIds := report.inputRecordIds.map Redactor.redactText
    outputRecordIds := report.outputRecordIds.map Redactor.redactText
    protectedRecordIds := report.protectedRecordIds.map Redactor.redactText
    removedRecordIds := report.removedRecordIds.map Redactor.redactText : CompressionReport }.validateReport

/-- The batch as it is persisted. -/
def MemoryBatch.redact [Sha256] (batch : MemoryBatch) : Except MemoryError MemoryBatch := do
  return {
    sources := ← batch.sources.mapM SourcePointer.redact
    records := ← batch.records.mapM MemoryRecord.redact
    compactions := ← batch.compactions.mapM CompressionReport.redact }

end Redaction

/-- `task_ids` -/
def MemoryBatch.taskIds (batch : MemoryBatch) : List String :=
  (batch.sources.map SourcePointer.taskId ++ batch.records.map MemoryRecord.taskId
    ++ batch.compactions.map CompressionReport.taskId).dedup

/-! ### Fingerprints -/

section Fingerprints

variable [Sha256]

def optionalText : Option String → Json
  | some text => .str text
  | none => .null

def optionalNat : Option Nat → Json
  | some n => .int n
  | none => .null

def textItems (texts : List String) : Json := .arr (texts.map Json.str)

/-- `_source_fingerprint` -/
def sourceFingerprint (source : SourcePointer) : String :=
  hashPayload (.obj [
    ("checkpoint_id", optionalText source.checkpointId),
    ("event_id", optionalText source.eventId),
    ("evidence_hash", .str source.evidenceHash),
    ("kind", .str source.kind.value),
    ("line_end", optionalNat source.lineEnd),
    ("line_start", optionalNat source.lineStart),
    ("memory_record_id", optionalText source.memoryRecordId),
    ("path", optionalText source.path),
    ("step_index", optionalNat source.stepIndex),
    ("task_id", .str source.taskId),
    ("tool_call_id", optionalText source.toolCallId)])

/-- `_record_identity` -/
def recordIdentity (record : MemoryRecord) : String :=
  hashPayload (.obj [
    ("content_hash", .str record.contentHash),
    ("kind", .str record.kind.value),
    ("scope", .str record.scope.value),
    ("scope_id", .str record.scopeId),
    ("source_ids", textItems (record.sourceIds.insertionSort (· ≤ ·))),
    ("task_id", .str record.taskId)])

/-- `_compaction_fingerprint` -/
def compactionFingerprint (report : CompressionReport) : String :=
  hashPayload (.obj [
    ("generation", .int report.generation),
    ("input_record_ids", textItems report.inputRecordIds),
    ("input_tokens", .int report.inputTokens),
    ("operations", textItems (report.operations.map CompressionOperation.value)),
    ("output_record_ids", textItems report.outputRecordIds),
    ("output_tokens", .int report.outputTokens),
    ("protected_record_ids", textItems report.protectedRecordIds),
    ("removed_record_ids", textItems report.removedRecordIds),
    ("task_id", .str report.taskId)])

/-- By what a source is found. -/
def sourceTag (source : SourcePointer) : String × String := (source.taskId, sourceFingerprint source)

/-- By what a record is found. -/
def recordTag (record : MemoryRecord) : String × String := (record.taskId, recordIdentity record)

/-- By what a report is found. -/
def compactionTag (report : CompressionReport) : String × String :=
  (report.taskId, compactionFingerprint report)

end Fingerprints

/-! ### Renaming -/

/-- The ids under which items of a batch are stored, the newest first. -/
abbrev IdMap := List (String × String)

/-- `ids.get(id, id)` -/
def IdMap.rename (ids : IdMap) (id : String) : String := (ids.find? (·.1 = id)).elim id Prod.snd

section Writing

variable [Sha256]

/-- A record whose sources and links are renamed. -/
def MemoryRecord.renamed (record : MemoryRecord) (sourceIds recordIds : IdMap) : MemoryRecord :=
  { record with
    sourceIds := record.sourceIds.map sourceIds.rename
    derivedFromIds := record.derivedFromIds.map recordIds.rename
    supersedesId := record.supersedesId.map recordIds.rename
    supersededById := record.supersededById.map recordIds.rename }

/-- `_canonicalize_record` -/
def canonicalizeRecord (record : MemoryRecord) (sourceIds recordIds : IdMap) :
    Except MemoryError MemoryRecord :=
  (record.renamed sourceIds recordIds).validateRecord

/-- A report whose records are renamed. -/
def CompressionReport.renamed (report : CompressionReport) (recordIds : IdMap) : CompressionReport :=
  { report with
    inputRecordIds := report.inputRecordIds.map recordIds.rename
    outputRecordIds := report.outputRecordIds.map recordIds.rename
    protectedRecordIds := report.protectedRecordIds.map recordIds.rename
    removedRecordIds := report.removedRecordIds.map recordIds.rename }

/-- `_canonicalize_compaction` -/
def canonicalizeCompaction (report : CompressionReport) (recordIds : IdMap) :
    Except MemoryError CompressionReport :=
  (report.renamed recordIds).validateReport

/-! ### Writing -/

/-- What is done to one table. -/
def keepIn {α : Type} [Keyed α String] (read : MemoryTables → Table α)
    (write : MemoryTables → Table α → MemoryTables) (tag : α → String × String)
    (collision : MemoryStoreError) (item : α) : MemoryAction α := do
  let tables ← get
  match keepFirst tag collision (read tables) item with
  | .ok (kept, table) =>
      set (write tables table)
      return kept
  | .error e => throw e

/-- `_write_source` -/
def writeSource (source : SourcePointer) : MemoryAction SourcePointer :=
  keepIn MemoryTables.sources (fun tables sources => { tables with sources }) sourceTag
    (.conflict s!"memory source id collision: {source.id}") source

/-- What is asked of ids: that there are rows with them, which are of a task. -/
def requireRows {α : Type} [Keyed α String] (read : MemoryTables → Table α) (taskOf : α → String)
    (ids : List String) (taskId unknownText foreignText : String) : MemoryAction Unit := do
  let table ← query read
  let missing := (ids.filter fun id => (table.get? id).isNone).dedup
  raiseIf (missing ≠ []) (.storeError (unknownText ++ ", ".intercalate (missing.insertionSort (· ≤ ·))))
  raiseIf (∃ id ∈ ids, ∃ row ∈ table.get? id, taskOf row ≠ taskId) (.storeError foreignText)

/-- `_require_sources` -/
def requireSources (record : MemoryRecord) : MemoryAction Unit :=
  requireRows MemoryTables.sources SourcePointer.taskId record.sourceIds record.taskId
    "memory record references unknown sources: " "memory record cannot reference another task's source"

/-- `_write_record` -/
def writeRecord (record : MemoryRecord) : MemoryAction MemoryRecord := do
  requireSources record
  let tables ← get
  match (holder recordTag tables.records.rows (recordTag record)).filter (·.id ≠ record.id) with
  | some row => return row
  | none =>
      raiseIf (∃ row ∈ tables.records.get? record.id, recordIdentity row ≠ recordIdentity record)
        (.conflict s!"memory record id collision: {record.id}")
      set { tables with records := tables.records.upsert record }
      return record

/-- `_require_compaction_records` -/
def requireCompactionRecords (report : CompressionReport) : MemoryAction Unit :=
  requireRows MemoryTables.records MemoryRecord.taskId (report.inputRecordIds ++ report.outputRecordIds)
    report.taskId "memory compaction references unknown records: "
    "memory compaction cannot reference another task's record"

/-- `_write_compaction` -/
def writeCompaction (report : CompressionReport) : MemoryAction CompressionReport := do
  requireCompactionRecords report
  keepIn MemoryTables.compactions (fun tables compactions => { tables with compactions }) compactionTag
    (.conflict s!"memory compaction id collision: {report.id}") report

/-- The sources of a batch, with the ids under which they are stored. -/
def saveSources : List SourcePointer → IdMap → MemoryAction (List SourcePointer × IdMap)
  | [], ids => return ([], ids)
  | source :: rest, ids => do
      let persisted ← writeSource source
      let (others, ids) ← saveSources rest ((source.id, persisted.id) :: ids)
      return (persisted :: others, ids)

/-- The records of a batch, with the ids under which they are stored. -/
def saveRecords (sourceIds : IdMap) : List MemoryRecord → IdMap → MemoryAction (List MemoryRecord × IdMap)
  | [], ids => return ([], ids)
  | record :: rest, ids => do
      let canonical ← checked (canonicalizeRecord record sourceIds ids)
      let persisted ← writeRecord canonical
      let (others, ids) ← saveRecords sourceIds rest ((record.id, persisted.id) :: ids)
      return (persisted :: others, ids)

/-- The reports of a batch. -/
def saveCompactions (recordIds : IdMap) : List CompressionReport → MemoryAction (List CompressionReport)
  | [] => return []
  | report :: rest => do
      let canonical ← checked (canonicalizeCompaction report recordIds)
      let persisted ← writeCompaction canonical
      let others ← saveCompactions recordIds rest
      return persisted :: others

/-- `_assert_memory_guard`, of the rows that the runtime has in the same database -/
def assertMemoryGuard (runtime : Store) (now : Timestamp) (taskId : String) (guard : Option LeaseGuard) :
    Except MemoryStoreError Unit :=
  match runtime.tasks.get? taskId with
  | none => .error (.storeError s!"memory task not found: {taskId}")
  | some task =>
      if task.sessionId = none then .ok ()
      else
        match guard with
        | none => .error (.leaseLost taskId)
        | some guard =>
            if guard.taskId ≠ taskId then .error (.leaseLost taskId)
            else
              match runtime.executions.get? guard.executionId with
              | none => .error (.leaseLost taskId)
              | some execution =>
                  if execution.taskId ≠ taskId ∨ execution.ownerId ≠ guard.ownerId
                      ∨ execution.leaseToken ≠ guard.token ∨ execution.generation ≠ guard.generation
                      ∨ ¬ execution.status.Active ∨ execution.leaseExpiresAt ≤ now then
                    .error (.leaseLost taskId)
                  else .ok ()

/-- The answer of the guard, in a transaction. -/
def assertMemoryGuards (runtime : Store) (now : Timestamp) (guard : Option LeaseGuard)
    (taskIds : List String) : MemoryAction Unit :=
  match taskIds with
  | [] => pure ()
  | taskId :: _ =>
      match assertMemoryGuard runtime now taskId guard with
      | .ok () => pure ()
      | .error e => throw e

/-- `save_batch` -/
def saveBatch [Redactor] (runtime : Store) (now : Timestamp) (guard : Option LeaseGuard)
    (batch : MemoryBatch) : MemoryAction MemoryWriteResult := do
  let safe ← checked batch.redact
  raiseIf (1 < safe.taskIds.length) (.storeError "one memory batch must belong to one task")
  assertMemoryGuards runtime now guard safe.taskIds
  let (sources, sourceIds) ← saveSources safe.sources []
  let (records, recordIds) ← saveRecords sourceIds safe.records []
  let compactions ← saveCompactions recordIds safe.compactions
  return { sources, records, compactions }

end Writing

end PatchLoop
