import PatchLoop.Lib.Table
import PatchLoop.Memory.Compression

/-!
# Semantic facts

`SemanticMemoryManager`: a fact has a slot, which its value is no part of, and an authority. The drafts of
an event are resolved one after the other: a draft takes the place of the active fact of its slot, or is
rejected by one of more authority. Which drafts an event gives is left open, as an extractor is exchangeable.
-/

namespace PatchLoop

/-- `unicodedata.normalize("NFKC", value)` and `value.casefold()` -/
class UnicodeForms where
  nfkc : String → String
  casefold : String → String

inductive SemanticFactType where
  | constraint
  | prohibition
  | codeSymbol
  | codeObservation
  | planEvidence
  | verification
  | inference
deriving DecidableEq

inductive FactEpistemicStatus where
  | userAsserted
  | observed
  | inferred
  | verified
deriving DecidableEq

def SemanticFactType.value : SemanticFactType → String
  | .constraint => "constraint"
  | .prohibition => "prohibition"
  | .codeSymbol => "code_symbol"
  | .codeObservation => "code_observation"
  | .planEvidence => "plan_evidence"
  | .verification => "verification"
  | .inference => "inference"

namespace FactEpistemicStatus

def value : FactEpistemicStatus → String
  | .userAsserted => "user_asserted"
  | .observed => "observed"
  | .inferred => "inferred"
  | .verified => "verified"

/-- `_AUTHORITY` -/
def authority : FactEpistemicStatus → Int
  | .inferred => 20
  | .observed => 50
  | .userAsserted => 80
  | .verified => 100

end FactEpistemicStatus

structure SemanticFactDraft where
  factType : SemanticFactType
  subject : String
  predicate : String
  value : String
  epistemicStatus : FactEpistemicStatus
  scope : MemoryScope
  scopeId : String
  path : Option String := none
  confidence : ℚ := 4 / 5
deriving DecidableEq

/-! ### Drafts -/

section Drafts

variable [UnicodeForms]

/-- `_normalize` -/
def normalizeFact (value : String) : String := squeeze (UnicodeForms.nfkc value)

/-- `_normalize(value).casefold()` -/
def foldFact (value : String) : String := UnicodeForms.casefold (normalizeFact value)

variable [Sha256]

/-- `_bounded_text` -/
def boundedFact (value : String) (limit : Nat) : String :=
  let normalized := normalizeFact value
  if normalized.length ≤ limit then normalized
  else
    let suffix := "…#" ++ String.ofList ((Sha256.hexdigest normalized).toList.take 16)
    String.ofList (normalized.toList.take (limit - suffix.length)) ++ suffix

namespace SemanticFactDraft

def authority (draft : SemanticFactDraft) : Int := draft.epistemicStatus.authority

def normalizedValue (draft : SemanticFactDraft) : String := foldFact draft.value

def slotKey (draft : SemanticFactDraft) : String :=
  hashPayload (.obj [
    ("fact_type", .str draft.factType.value),
    ("predicate", .str (foldFact draft.predicate)),
    ("scope", .str draft.scope.value),
    ("scope_id", .str draft.scopeId),
    ("subject", .str (foldFact draft.subject))])

/-- The draft that `model_validate` makes of these fields. -/
def validate (draft : SemanticFactDraft) : Except MemoryError SemanticFactDraft := do
  let bounded : SemanticFactDraft := { draft with
    subject := boundedFact draft.subject 500
    predicate := boundedFact draft.predicate 100
    value := boundedFact draft.value 2000 }
  requireThat (bounded.subject ≠ "") (.fieldError "subject")
  requireThat (bounded.predicate ≠ "") (.fieldError "predicate")
  requireThat (bounded.value ≠ "") (.fieldError "value")
  requireThat (bounded.scopeId ≠ "") (.fieldError "scope_id")
  requireThat (0 ≤ bounded.confidence ∧ bounded.confidence ≤ 1) (.fieldError "confidence")
  return bounded

variable [Redactor]

/-- `_redact_draft` -/
def redact (draft : SemanticFactDraft) : Except MemoryError SemanticFactDraft :=
  validate { draft with
    subject := Redactor.redactText draft.subject
    predicate := Redactor.redactText draft.predicate
    value := Redactor.redactText draft.value
    scopeId := Redactor.redactText draft.scopeId
    path := draft.path.map Redactor.redactText }

end SemanticFactDraft

end Drafts

/-! ### Facts -/

section Facts

/-- What the id of a fact is made of. -/
structure FactIdentity where
  slot : String
  value : String
  status : String
  sources : List String
deriving DecidableEq

def FactIdentity.id [Sha256] (identity : FactIdentity) (taskId : String) : String :=
  stableId "semantic-fact" [taskId, identity.slot, identity.value, identity.status,
    hashPayload (.arr (identity.sources.map Json.str))]

variable [UnicodeForms] [Sha256]

/-- The content of a fact. -/
def SemanticFactDraft.content (draft : SemanticFactDraft) : List (String × Json) :=
  [("authority", .int draft.authority),
    ("epistemic_status", .str draft.epistemicStatus.value),
    ("fact_type", .str draft.factType.value),
    ("normalized_value", .str draft.normalizedValue),
    ("predicate", .str draft.predicate),
    ("semantic_schema", .str "1.0"),
    ("slot_key", .str draft.slotKey),
    ("subject", .str draft.subject),
    ("value", .str draft.value)]

def SemanticFactDraft.retrieval (draft : SemanticFactDraft) : String :=
  s!"Fact type={draft.factType.value}; epistemic={draft.epistemicStatus.value}; "
    ++ s!"subject={draft.subject}; predicate={draft.predicate}; value={draft.value}"

def SemanticFactDraft.identity (draft : SemanticFactDraft) (sourceIds : List String) :
    FactIdentity where
  slot := draft.slotKey
  value := draft.normalizedValue
  status := draft.epistemicStatus.value
  sources := sortedTexts sourceIds

/-- The record of a fact, before its checks. -/
def SemanticFactDraft.fact (draft : SemanticFactDraft) (taskId : String) (sourceIds : List String)
    (now : Int) : MemoryRecord where
  id := (draft.identity sourceIds).id taskId
  taskId := taskId
  kind := .semantic
  scope := draft.scope
  scopeId := draft.scopeId
  content := draft.content
  retrievalText := draft.retrieval
  sourceIds := sourceIds
  importance := min 1 (2 / 5 + draft.authority / 200)
  confidence := draft.confidence
  estimatedTokens := estimateText draft.retrieval
  createdAt := now

/-- `_fact_record`, at a time. -/
def factRecord (taskId : String) (draft : SemanticFactDraft) (sourceIds : List String)
    (now : Int) : Except MemoryError MemoryRecord :=
  (draft.fact taskId sourceIds now).validateRecord

end Facts

/-- `_is_typed_semantic_record` -/
def isTypedSemanticRecord (record : MemoryRecord) : Bool :=
  record.kind = .semantic ∧ record.get? "semantic_schema" = some (.str "1.0")

/-- `_record_slot` -/
def recordSlot (record : MemoryRecord) : String := (record.text? "slot_key").getD ""

/-- `_record_authority`, of a record -/
def recordAuthority (record : MemoryRecord) : Int :=
  ((intOf (record.get? "authority")).map stepNumber).getD (-1)

/-! ### Supersession chains -/

section Chains

/-- What a chain asks of a record that supersedes another. -/
def checkPrevious (records : List MemoryRecord) (record : MemoryRecord) :
    Except MemoryError Unit :=
  match record.supersedesId with
  | none => .ok ()
  | some previousId =>
      match records.find? (·.id = previousId) with
      | none => .error (.validationError s!"memory {record.id} supersedes an unknown record")
      | some previous => do
          requireThat (previous.supersededById = some record.id)
            (.validationError "supersession chain is not bidirectional")
          requireThat (previous.taskId = record.taskId ∧ previous.kind = record.kind
              ∧ previous.scope = record.scope ∧ previous.scopeId = record.scopeId)
            (.validationError "supersession chain crosses a memory boundary")
          requireThat (previous.createdAt ≤ record.createdAt)
            (.validationError "replacement memory cannot predate the record it supersedes")

/-- What a chain asks of a record that is superseded. -/
def checkReplacement (records : List MemoryRecord) (record : MemoryRecord) :
    Except MemoryError Unit :=
  match record.supersededById with
  | none => .ok ()
  | some replacementId =>
      match records.find? (·.id = replacementId) with
      | none => .error (.validationError "supersession chain is not bidirectional")
      | some replacement =>
          requireThat (replacement.supersedesId = some record.id)
            (.validationError "supersession chain is not bidirectional")

/-- The walk from a record to what it supersedes, which visits no record twice. With more steps than
there are records it ends. -/
def walkChain (records : List MemoryRecord) :
    Nat → List String → Option MemoryRecord → Except MemoryError Unit
  | _, _, none => .ok ()
  | 0, _, some _ => .error (.validationError "supersession chain contains a cycle")
  | steps + 1, visited, some current =>
      if current.id ∈ visited then
        .error (.validationError "supersession chain contains a cycle")
      else walkChain records steps (current.id :: visited)
        (current.supersedesId.bind fun previousId => records.find? (·.id = previousId))

/-- `validate_supersession_chain` -/
def validateSupersessionChain (records : List MemoryRecord) : Except MemoryError Unit := do
  requireThat (records.map MemoryRecord.id).Nodup
    (.validationError "supersession chain contains duplicate record ids")
  records.forM fun record => do
    checkPrevious records record
    checkReplacement records record
  records.forM fun origin => walkChain records (records.length + 1) [] (some origin)

end Chains

/-! ### The resolution of drafts -/

instance : Keyed MemoryRecord String := ⟨MemoryRecord.id⟩

instance : Keyed MemorySource String := ⟨MemorySource.id⟩

/-- The active facts by their slots; of several in one slot, the last. -/
def activeFact (records : Table MemoryRecord) (slot : String) : Option MemoryRecord :=
  records.rows.reverse.find? fun record => record.status = .active ∧ recordSlot record = slot

/-- The variables of `_resolve`. -/
structure FactResolution where
  records : Table MemoryRecord
  active : String → Option MemoryRecord
  seen : List (String × String × FactEpistemicStatus) := []
  sources : Table MemorySource := Table.empty
  written : List MemoryRecord := []
  created : Nat := 0
  superseded : Nat := 0
  rejected : Nat := 0
  suppressed : Nat := 0

namespace FactResolution

/-- The start of `_resolve`. -/
def start (records : Table MemoryRecord) : FactResolution := { records, active := activeFact records }

def suppress (resolution : FactResolution) : FactResolution :=
  { resolution with suppressed := resolution.suppressed + 1 }

/-- A fact for a slot that has none. -/
def create (resolution : FactResolution) (slot : String) (candidate : MemoryRecord) : FactResolution :=
  { resolution with
    records := resolution.records.upsert candidate
    active := Function.update resolution.active slot (some candidate)
    written := resolution.written ++ [candidate]
    created := resolution.created + 1 }

/-- A fact in the place of an older one. -/
def supersede (resolution : FactResolution) (slot : String) (old candidate : MemoryRecord) :
    FactResolution :=
  { resolution with
    records := (resolution.records.upsert old).upsert candidate
    active := Function.update resolution.active slot (some candidate)
    written := resolution.written ++ [old, candidate]
    created := resolution.created + 1
    superseded := resolution.superseded + 1 }

/-- A fact that one of more authority rejects. -/
def reject (resolution : FactResolution) (invalid : MemoryRecord) : FactResolution :=
  { resolution with
    records := resolution.records.upsert invalid
    written := resolution.written ++ [invalid]
    created := resolution.created + 1
    rejected := resolution.rejected + 1 }

end FactResolution

namespace MemoryRecord

/-- `old` -/
def supersededBy (record : MemoryRecord) (candidate : MemoryRecord) : MemoryRecord :=
  { record with status := .superseded, supersededById := some candidate.id }

/-- `invalid`, with its content hash left to be computed again. -/
def conflicting (candidate : MemoryRecord) (current : MemoryRecord) : MemoryRecord :=
  { candidate with
    status := .invalidated
    content := Json.setField "conflicts_with_id" (.str current.id) candidate.content
    contentHash := "" }

end MemoryRecord

section Resolving

variable [UnicodeForms] [Sha256] [Redactor]

/-- What becomes of a draft in a slot with a fact. -/
def FactResolution.contest (resolution : FactResolution) (taskId : String) (draft : SemanticFactDraft)
    (source : MemorySource) (now : Int) (current candidate : MemoryRecord) (sameValue : Bool) :
    Except MemoryError FactResolution := do
  if sameValue || recordAuthority current ≤ draft.authority then
    let candidate ←
      if sameValue then
        factRecord taskId draft (sortedTexts (current.sourceIds ++ [source.id])) now
      else pure candidate
    let old := current.supersededBy candidate
    let candidate := { candidate with supersedesId := some old.id }
    let chain := resolution.records.rows.filter (·.id ≠ old.id)
    validateSupersessionChain (chain ++ [old, candidate])
    return resolution.supersede draft.slotKey old candidate
  else
    return resolution.reject (candidate.conflicting current)

/-- One round of the loop of `_resolve`. -/
def FactResolution.resolveDraft (resolution : FactResolution) (taskId : String)
    (sourceOf : Option String → MemorySource) (raw : SemanticFactDraft) (now : Int) :
    Except MemoryError FactResolution := do
  let draft ← raw.redact
  let key := (draft.slotKey, draft.normalizedValue, draft.epistemicStatus)
  if key ∈ resolution.seen then
    return resolution.suppress
  let resolution := { resolution with seen := key :: resolution.seen }
  let source := sourceOf draft.path
  let current := resolution.active draft.slotKey
  let sameValue := current.any fun record =>
    record.get? "normalized_value" = some (.str draft.normalizedValue)
  let currentAuthority := (current.map recordAuthority).getD (-1)
  if sameValue && draft.authority ≤ currentAuthority then
    return resolution.suppress
  let candidate ← factRecord taskId draft [source.id] now
  let existing := resolution.records.get? candidate.id
  if existing.any (·.status = .invalidated) && current.isSome
      && draft.authority < currentAuthority then
    return resolution.suppress
  let resolution := { resolution with sources := resolution.sources.upsert source }
  match current with
  | none => return resolution.create draft.slotKey candidate
  | some current => resolution.contest taskId draft source now current candidate sameValue

/-- A draft, and the time at which its fact is made. -/
structure TimedDraft where
  draft : SemanticFactDraft
  now : Int

/-- The loop of `_resolve`: what it has resolved, and what it raises. -/
def FactResolution.resolveAll (taskId : String) (sourceOf : Option String → MemorySource) :
    FactResolution → List TimedDraft → FactResolution × Option MemoryError
  | resolution, [] => (resolution, none)
  | resolution, timed :: rest =>
      match resolution.resolveDraft taskId sourceOf timed.draft timed.now with
      | .ok next => next.resolveAll taskId sourceOf rest
      | .error error => (resolution, some error)

/-- `_resolve` -/
def resolve (taskId : String) (records : Table MemoryRecord)
    (sourceOf : Option String → MemorySource) (drafts : List TimedDraft) :
    FactResolution × Option MemoryError :=
  (FactResolution.start records).resolveAll taskId sourceOf drafts

end Resolving

/-! ### The manager -/

structure SemanticMemoryManager where
  taskId : String
  records : Table MemoryRecord := Table.empty

namespace SemanticMemoryManager

/-- `synchronize_records` -/
def synchronizeRecords (manager : SemanticMemoryManager) (records : Table MemoryRecord) :
    SemanticMemoryManager :=
  { manager with records := records.filter isTypedSemanticRecord }

variable [Sha256]

/-- The source of a goal, for drafts of every path. -/
def userSource (taskId : String) : Option String → MemorySource := fun _ =>
  { id := stableId "semantic-user-source" [taskId], taskId }

/-- `source_by_path.get(path) or source_by_path[None]`, where the paths are those of the drafts before
their redaction. -/
def toolSource (taskId callId : String) (stepIndex : Nat) (paths : List String) :
    Option String → MemorySource := fun path =>
  let known := path.filter (· ∈ paths)
  let name := match known with
    | some path => if path = "" then "none" else path
    | none => "none"
  { id := stableId "semantic-tool-source" [taskId, callId, name], taskId, stepIndex := some stepIndex }

variable [UnicodeForms] [Redactor]

/-- `initial_facts`, of the drafts that the goal gives. -/
def initialFacts (manager : SemanticMemoryManager) (drafts : List TimedDraft) :
    SemanticMemoryManager × Option MemoryError :=
  let (resolution, error) := resolve manager.taskId manager.records (userSource manager.taskId) drafts
  ({ manager with records := resolution.records }, error)

/-- `observe_tool`, of the drafts that the event gives. -/
def observeTool (manager : SemanticMemoryManager) (callId : String) (stepIndex : Nat)
    (drafts : List TimedDraft) : SemanticMemoryManager × Option MemoryError :=
  let paths := drafts.filterMap (·.draft.path)
  let (resolution, error) := resolve manager.taskId manager.records
    (toolSource manager.taskId callId stepIndex paths) drafts
  ({ manager with records := resolution.records }, error)

end SemanticMemoryManager

end PatchLoop
