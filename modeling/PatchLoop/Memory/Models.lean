import PatchLoop.Json.Loads
import Mathlib.Data.Rat.Defs

/-!
# Memory records

The records of the layered memory, the reports of its compression, and the checks that each of them
passes when it is made. Times are in microseconds of UTC.
-/

namespace PatchLoop

inductive MemoryKind where
  | working
  | semantic
  | episodic
deriving DecidableEq

inductive MemoryStatus where
  | active
  | superseded
  | invalidated
deriving DecidableEq

inductive MemoryScope where
  | task
  | repository
deriving DecidableEq

inductive CompressionOperation where
  | deduplicate
  | merge
  | summarize
  | prune
deriving DecidableEq

def MemoryKind.value : MemoryKind → String
  | .working => "working"
  | .semantic => "semantic"
  | .episodic => "episodic"

def MemoryScope.value : MemoryScope → String
  | .task => "task"
  | .repository => "repository"

def CompressionOperation.value : CompressionOperation → String
  | .deduplicate => "deduplicate"
  | .merge => "merge"
  | .summarize => "summarize"
  | .prune => "prune"

inductive MemoryError where
  | fieldError (field : String)
  | validationError (text : String)
  | typeError (text : String)
deriving DecidableEq

def requireThat (accepted : Prop) [Decidable accepted] (error : MemoryError) :
    Except MemoryError Unit :=
  if accepted then .ok () else .error error

/-- `[A-Za-z0-9]` -/
def isIdentifierStart (c : Char) : Bool :=
  ('A' ≤ c && c ≤ 'Z') || ('a' ≤ c && c ≤ 'z') || ('0' ≤ c && c ≤ '9')

/-- `^[A-Za-z0-9][A-Za-z0-9-]{0,127}$` -/
def ValidMemoryId (id : String) : Prop :=
  match id.toList with
  | [] => False
  | c :: rest =>
      isIdentifierStart c ∧ rest.length ≤ 127 ∧ ∀ d ∈ rest, isIdentifierStart d ∨ d = '-'

instance (id : String) : Decidable (ValidMemoryId id) := by
  unfold ValidMemoryId
  cases id.toList with
  | nil => exact instDecidableFalse
  | cons c rest =>
      have : Decidable (∀ d ∈ rest, isIdentifierStart d ∨ d = '-') := List.decidableBAll _ rest
      exact inferInstanceAs (Decidable (_ ∧ _ ∧ _))

/-- The step of a source; its evidence is kept elsewhere. -/
structure MemorySource where
  id : String
  taskId : String
  stepIndex : Option Nat := none
deriving DecidableEq

structure MemoryRecord where
  id : String
  taskId : String
  kind : MemoryKind
  scope : MemoryScope := .task
  scopeId : String
  content : List (String × Json)
  retrievalText : String
  sourceIds : List String := []
  importance : ℚ := 1 / 2
  confidence : ℚ := 1 / 2
  status : MemoryStatus := .active
  supersedesId : Option String := none
  supersededById : Option String := none
  contentHash : String := ""
  compressionGeneration : Nat := 0
  derivedFromIds : List String := []
  estimatedTokens : Nat := 0
  accessCount : Nat := 0
  lastAccessedAt : Option Int := none
  lastRecallReason : Option String := none
  createdAt : Int
deriving DecidableEq

namespace MemoryRecord

/-- `content.get(name)` -/
def get? (record : MemoryRecord) (name : String) : Option Json := (Json.obj record.content).get? name

section Validation

variable [Sha256]

/-- `compute_memory_content_hash` -/
def computeContentHash (record : MemoryRecord) : String :=
  Sha256.hexdigest (Json.obj [
    ("content", .obj record.content), ("kind", .str record.kind.value),
    ("retrieval_text", .str record.retrievalText)]).dumps

/-- The constraints on the fields. -/
def validateFields (record : MemoryRecord) : Except MemoryError Unit := do
  requireThat (ValidMemoryId record.id) (.fieldError "id")
  requireThat (record.taskId ≠ "") (.fieldError "task_id")
  requireThat (record.scopeId ≠ "") (.fieldError "scope_id")
  requireThat (record.content ≠ []) (.fieldError "content")
  requireThat (record.retrievalText ≠ "") (.fieldError "retrieval_text")
  requireThat (0 ≤ record.importance ∧ record.importance ≤ 1) (.fieldError "importance")
  requireThat (0 ≤ record.confidence ∧ record.confidence ≤ 1) (.fieldError "confidence")

/-- `validate_record`, after the constraints on the fields. -/
def validateRecord (record : MemoryRecord) : Except MemoryError MemoryRecord := do
  record.validateFields
  requireThat (record.scope = .task → record.scopeId = record.taskId)
    (.validationError "task-scoped memory scope_id must equal task_id")
  requireThat (record.kind = .working → record.scope = .task)
    (.validationError "working memory must be task-scoped")
  requireThat (record.kind ≠ .working → record.sourceIds ≠ [])
    (.validationError "long-term memory requires at least one source")
  requireThat record.sourceIds.Nodup (.validationError "memory source ids must be unique")
  requireThat (record.supersedesId ≠ some record.id ∧ record.supersededById ≠ some record.id)
    (.validationError "memory cannot supersede itself")
  requireThat (record.status = .superseded → record.supersededById ≠ none)
    (.validationError "superseded memory requires superseded_by_id")
  requireThat (record.status ≠ .superseded → record.supersededById = none)
    (.validationError "only superseded memory can set superseded_by_id")
  requireThat (record.id ∉ record.derivedFromIds)
    (.validationError "memory cannot be derived from itself")
  requireThat record.derivedFromIds.Nodup (.validationError "derived memory ids must be unique")
  requireThat (record.compressionGeneration = 0 → record.derivedFromIds = [])
    (.validationError "uncompressed memory cannot declare derived_from_ids")
  requireThat (0 < record.compressionGeneration → record.derivedFromIds ≠ [])
    (.validationError "compressed memory requires derived_from_ids")
  requireThat (record.accessCount = 0 → record.lastAccessedAt = none ∧ record.lastRecallReason = none)
    (.validationError "never-recalled memory cannot have recall metadata")
  requireThat (0 < record.accessCount → record.lastAccessedAt ≠ none
      ∧ record.lastRecallReason.getD "" ≠ "")
    (.validationError "recalled memory requires timestamp and reason")
  requireThat (record.contentHash = "" ∨ record.contentHash = record.computeContentHash)
    (.validationError "memory content_hash does not match semantic payload")
  return { record with contentHash := record.computeContentHash }

/-- A record as its model holds it. -/
def Valid (record : MemoryRecord) : Prop := record.validateRecord = .ok record

instance (record : MemoryRecord) : Decidable record.Valid :=
  inferInstanceAs (Decidable (_ = _))

end Validation

end MemoryRecord

structure CompressionReport where
  id : String
  taskId : String
  generation : Nat
  operations : List CompressionOperation
  inputRecordIds : List String
  outputRecordIds : List String
  protectedRecordIds : List String := []
  removedRecordIds : List String := []
  inputTokens : Nat
  outputTokens : Nat
  createdAt : Int
deriving DecidableEq

namespace CompressionReport

/-- The constraints on the fields. -/
def validateFields (report : CompressionReport) : Except MemoryError Unit := do
  requireThat (ValidMemoryId report.id) (.fieldError "id")
  requireThat (report.taskId ≠ "") (.fieldError "task_id")
  requireThat (1 ≤ report.generation) (.fieldError "generation")
  requireThat (report.operations ≠ []) (.fieldError "operations")
  requireThat (report.inputRecordIds ≠ []) (.fieldError "input_record_ids")
  requireThat (report.outputRecordIds ≠ []) (.fieldError "output_record_ids")
  requireThat (1 ≤ report.inputTokens) (.fieldError "input_tokens")

/-- `validate_report`, after the constraints on the fields. -/
def validateReport (report : CompressionReport) : Except MemoryError CompressionReport := do
  report.validateFields
  requireThat report.operations.Nodup (.validationError "compression operations must be unique")
  requireThat report.inputRecordIds.Nodup
    (.validationError "compression input_record_ids must be unique")
  requireThat report.outputRecordIds.Nodup
    (.validationError "compression output_record_ids must be unique")
  requireThat report.protectedRecordIds.Nodup
    (.validationError "compression protected_record_ids must be unique")
  requireThat report.removedRecordIds.Nodup
    (.validationError "compression removed_record_ids must be unique")
  requireThat (report.protectedRecordIds ⊆ report.inputRecordIds)
    (.validationError "protected compression records must be inputs")
  requireThat (report.removedRecordIds ⊆ report.inputRecordIds)
    (.validationError "removed compression records must be inputs")
  requireThat (∀ id ∈ report.protectedRecordIds, id ∉ report.removedRecordIds)
    (.validationError "protected compression records cannot be removed")
  requireThat (report.protectedRecordIds ⊆ report.outputRecordIds)
    (.validationError "protected compression records must survive in outputs")
  requireThat (∀ id ∈ report.removedRecordIds, id ∉ report.outputRecordIds)
    (.validationError "removed compression records cannot remain in outputs")
  requireThat (report.outputTokens ≤ report.inputTokens)
    (.validationError "compression output cannot exceed input tokens")
  return report

end CompressionReport

end PatchLoop
