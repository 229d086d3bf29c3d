import PatchLoop.Lib.Fallible
import PatchLoop.Lib.Run
import PatchLoop.Lib.Sequences
import PatchLoop.Memory.Compression

/-!
# What compression keeps

Over any runs of the compressor the sources and the lineage of what is compressed are kept, protected
records stay active and every report saves tokens. A run fails where a record has a list or an object
where a text is looked up in a set.
-/

namespace PatchLoop

open Buckets

/-! ### Checks -/

theorem requireThat_eq_ok {accepted : Prop} [Decidable accepted] {error : MemoryError} {u : Unit} :
    requireThat accepted error = .ok u ↔ accepted := by
  unfold requireThat
  split
  · rename_i haccepted
    exact ⟨fun _ => haccepted, fun _ => rfl⟩
  · rename_i hrefused
    exact ⟨fun hok => (by cases hok), fun haccepted => absurd haccepted hrefused⟩

/-- A digest as `hashlib` writes it: 64 hexadecimal digits. -/
def IsHexDigest (digest : String) : Prop :=
  digest.length = 64 ∧ ∀ c ∈ digest.toList, ('a' ≤ c ∧ c ≤ 'f') ∨ ('0' ≤ c ∧ c ≤ '9')

section Validation

variable [Sha256]

/-- What the checks of a record ask for. -/
structure MemoryRecord.Checked (record : MemoryRecord) : Prop where
  id : ValidMemoryId record.id
  taskId : record.taskId ≠ ""
  scopeId : record.scopeId ≠ ""
  content : record.content ≠ []
  retrievalText : record.retrievalText ≠ ""
  importance : 0 ≤ record.importance ∧ record.importance ≤ 1
  confidence : 0 ≤ record.confidence ∧ record.confidence ≤ 1
  taskScope : record.scope = .task → record.scopeId = record.taskId
  workingScope : record.kind = .working → record.scope = .task
  someSource : record.kind ≠ .working → record.sourceIds ≠ []
  sources : record.sourceIds.Nodup
  supersession : record.supersedesId ≠ some record.id ∧ record.supersededById ≠ some record.id
  superseded : record.status = .superseded → record.supersededById ≠ none
  notSuperseded : record.status ≠ .superseded → record.supersededById = none
  notDerived : record.id ∉ record.derivedFromIds
  derived : record.derivedFromIds.Nodup
  uncompressed : record.compressionGeneration = 0 → record.derivedFromIds = []
  compressed : 0 < record.compressionGeneration → record.derivedFromIds ≠ []
  neverRecalled : record.accessCount = 0 →
    record.lastAccessedAt = none ∧ record.lastRecallReason = none
  recalled : 0 < record.accessCount →
    record.lastAccessedAt ≠ none ∧ record.lastRecallReason.getD "" ≠ ""
  contentHash : record.contentHash = "" ∨ record.contentHash = record.computeContentHash

theorem MemoryRecord.validateRecord_eq_ok {record valid : MemoryRecord} :
    record.validateRecord = .ok valid
      ↔ record.Checked ∧ valid = { record with contentHash := record.computeContentHash } := by
  unfold validateRecord validateFields
  simp only [Except.bind_eq_ok_iff, requireThat_eq_ok, Except.pure_eq_ok_iff]
  constructor
  · rintro ⟨-, ⟨-, h1, -, h2, -, h3, -, h4, -, h5, -, h6, h7⟩, -, h8, -, h9, -, h10, -, h11, -, h12, -,
      h13, -, h14, -, h15, -, h16, -, h17, -, h18, -, h19, -, h20, -, h21, rfl⟩
    exact ⟨⟨h1, h2, h3, h4, h5, h6, h7, h8, h9, h10, h11, h12, h13, h14, h15, h16, h17, h18, h19, h20,
      h21⟩, rfl⟩
  · rintro ⟨h, rfl⟩
    exact ⟨(), ⟨(), h.id, (), h.taskId, (), h.scopeId, (), h.content, (), h.retrievalText, (),
      h.importance, h.confidence⟩, (), h.taskScope, (), h.workingScope, (), h.someSource, (), h.sources,
      (), h.supersession, (), h.superseded, (), h.notSuperseded, (), h.notDerived, (), h.derived, (),
      h.uncompressed, (), h.compressed, (), h.neverRecalled, (), h.recalled, (), h.contentHash, rfl⟩

theorem MemoryRecord.Valid.checked {record : MemoryRecord} (hvalid : record.Valid) : record.Checked :=
  (validateRecord_eq_ok.mp hvalid).1

theorem MemoryRecord.Checked.valid {record : MemoryRecord} (hchecked : record.Checked)
    (hhash : record.contentHash = record.computeContentHash) : record.Valid :=
  validateRecord_eq_ok.mpr ⟨hchecked, by rw [← hhash]⟩

end Validation

/-! ### Looking up -/

/-- `isinstance(value, (list, dict))` -/
def Json.isContainer : Json → Bool
  | .arr _ | .obj _ => true
  | _ => false

/-- A value that can be looked up in a set: neither a list nor an object. -/
def Hashable (value : Option Json) : Prop := ∀ json ∈ value, json.isContainer = false

instance (value : Option Json) : Decidable (Hashable value) :=
  inferInstanceAs (Decidable (∀ json ∈ value, _))

theorem hashable_eq_ok {value found : Option Json} :
    hashable value = .ok found ↔ Hashable value ∧ found = value := by
  cases value with
  | none => simp [hashable, Hashable, @eq_comm _ found]
  | some json => cases json <;> simp [hashable, Hashable, Json.isContainer, @eq_comm _ found]

theorem isMember_isOk {value : Option Json} {members : List String} :
    (∃ found, isMember value members = .ok found) ↔ Hashable value := by
  cases value with
  | none => simp [isMember, Hashable]
  | some json => cases json <;> simp [isMember, Hashable, Json.isContainer]

/-- The value that the check for open plans looks up. -/
def planStatusOf (record : MemoryRecord) : Option Json :=
  if truthy (record.get? "plan_status") then record.get? "plan_status" else record.get? "status"

/-- A record that is found to be protected before its status is looked up. -/
def ProtectedFirst (record : MemoryRecord) : Prop :=
  isMember (record.get? "fact_type") ["constraint", "prohibition", "verification"] = .ok true
    ∨ record.get? "epistemic_status" = some (.str "user_asserted")
    ∨ record.get? "verification_tool" ≠ none ∨ record.get? "final_decision" = some (.bool true)

instance (record : MemoryRecord) : Decidable (ProtectedFirst record) :=
  inferInstanceAs (Decidable (_ ∨ _))

/-- A record whose protection can be told. -/
def Classifiable (record : MemoryRecord) : Prop :=
  Hashable (record.get? "fact_type")
    ∧ (ProtectedFirst record ∨ Hashable (planStatusOf record))

instance (record : MemoryRecord) : Decidable (Classifiable record) :=
  inferInstanceAs (Decidable (_ ∧ _))

end PatchLoop
