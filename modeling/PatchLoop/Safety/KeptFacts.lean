import PatchLoop.Memory.Manager
import PatchLoop.Safety.LastFact

/-!
# Facts that are kept

What the records of the layered memory hold of the facts: an event writes the facts that it makes and those
that it supersedes, each with what it said before, and a compression leaves a fact of which no other active
record has the key.
-/

namespace PatchLoop

open Register Buckets

/-! ### What the records say -/

section Sayings

variable [UnicodeForms] [Sha256]

/-- A record that says what a draft says. -/
structure SaidBy (draft : SemanticFactDraft) (record : MemoryRecord) : Prop where
  slot : recordSlot record = draft.slotKey
  value : record.text? "value" = some draft.value
  normal : record.text? "normalized_value" = some draft.normalizedValue
  generation : record.compressionGeneration = 0

theorem SaidBy.fact {taskId : String} {draft : SemanticFactDraft} {sourceIds : List String}
    {now : Int} {record : MemoryRecord}
    (hok : factRecord taskId draft sourceIds now = .ok record) : SaidBy draft record := by
  have hdescribes := Describes.fact hok
  obtain ⟨hash, rfl⟩ := factRecord_eq_ok hok
  exact ⟨hdescribes.slot, rfl, hdescribes.value, rfl⟩

theorem SaidBy.conflicting {taskId : String} {draft : SemanticFactDraft} {sourceIds : List String}
    {now : Int} {candidate current : MemoryRecord}
    (hok : factRecord taskId draft sourceIds now = .ok candidate) :
    SaidBy draft (candidate.conflicting current) := by
  have hdescribes : Describes draft (candidate.conflicting current) := Describes.conflicting hok
  obtain ⟨-, hvalue, -, hgeneration⟩ := SaidBy.fact hok
  refine ⟨hdescribes.slot, ?_, hdescribes.value, hgeneration⟩
  rw [← hvalue, MemoryRecord.text?, MemoryRecord.text?]
  have hget : (candidate.conflicting current).get? "value" = candidate.get? "value" :=
    Json.get?_setField_of_ne (by decide)
  rw [hget]

theorem IsFact.conflicting {taskId : String} {draft : SemanticFactDraft} {sourceIds : List String}
    {now : Int} {candidate current : MemoryRecord}
    (hok : factRecord taskId draft sourceIds now = .ok candidate) :
    IsFact taskId (candidate.conflicting current) := by
  have hmade := factRecord_made hok
  have hdescribes : Describes draft (candidate.conflicting current) := Describes.conflicting hok
  refine ⟨hmade.fact.task, hdescribes.typed, ?_⟩
  rw [hdescribes.identityOf]
  exact hmade.id.trans (by rw [← hmade.from_.sourceIds]; rfl)

end Sayings

/-- A later state of a record. -/
structure LaterOf (record later : MemoryRecord) : Prop where
  content : later.content = record.content
  generation : later.compressionGeneration = record.compressionGeneration
  active : later.status = .active → record.status = .active

theorem LaterOf.text? {record later : MemoryRecord} (hlater : LaterOf record later) (name : String) :
    later.text? name = record.text? name := by
  rw [MemoryRecord.text?, MemoryRecord.text?, MemoryRecord.get?, MemoryRecord.get?, hlater.content]

theorem LaterOf.slot {record later : MemoryRecord} (hlater : LaterOf record later) :
    recordSlot later = recordSlot record := by
  rw [recordSlot, recordSlot, hlater.text?]

section Tracing

variable [UnicodeForms] [Sha256] [Redactor]

/-- A record of an event says what one said before it, or what a draft of it says. -/
inductive Said (event : FactEvent) (record : MemoryRecord) : Prop
  | before (old : MemoryRecord) (hold : old ∈ event.records.rows) (hlater : LaterOf old record)
  | draft (draft : SemanticFactDraft) (hdraft : draft ∈ event.redacted) (hsaid : SaidBy draft record)

theorem Said.later {event : FactEvent} {record later : MemoryRecord} (hsaid : Said event record)
    (hlater : LaterOf record later) : Said event later := by
  cases hsaid with
  | before old hold hbefore =>
      refine .before old hold ⟨hlater.content.trans hbefore.content,
        hlater.generation.trans hbefore.generation, ?_⟩
      exact fun hactive => hbefore.active (hlater.active hactive)
  | draft draft hdraft hsaid =>
      refine .draft draft hdraft ⟨hlater.slot.trans hsaid.slot, ?_, ?_, ?_⟩
      · rw [hlater.text?, hsaid.value]
      · rw [hlater.text?, hsaid.normal]
      · rw [hlater.generation, hsaid.generation]

/-- The records of a resolution, and what it has written of them. -/
structure Traced (event : FactEvent) (resolution : FactResolution) : Prop where
  said : ∀ record ∈ resolution.records.rows, Said event record
  facts : ∀ record ∈ resolution.records.rows, IsFact event.taskId record
  written : ∀ record ∈ resolution.written, IsFact event.taskId record
  records : resolution.written.foldl Table.upsert event.records = resolution.records

theorem Traced.start {event : FactEvent} (hfacts : ∀ record ∈ event.records.rows,
    IsFact event.taskId record) : Traced event (FactResolution.start event.records) where
  said record hrecord := .before record hrecord ⟨rfl, rfl, id⟩
  facts := hfacts
  written _ hrecord := by cases hrecord
  records := rfl

section Rounds

variable {event : FactEvent} {done : List SemanticFactDraft} {resolution next : FactResolution}
  {draft : SemanticFactDraft}

/-- A round that writes one record. -/
theorem Traced.write (htraced : Traced event resolution) {record : MemoryRecord}
    (hsaid : Said event record) (hfact : IsFact event.taskId record)
    (hrecords : next.records = resolution.records.upsert record)
    (hwritten : next.written = resolution.written ++ [record]) : Traced event next := by
  constructor
  · intro other hother
    rw [hrecords] at hother
    rcases Table.mem_upsert hother with rfl | hold
    · exact hsaid
    · exact htraced.said other hold
  · intro other hother
    rw [hrecords] at hother
    rcases Table.mem_upsert hother with rfl | hold
    · exact hfact
    · exact htraced.facts other hold
  · intro other hother
    rw [hwritten, List.mem_append, List.mem_singleton] at hother
    rcases hother with hold | rfl
    · exact htraced.written other hold
    · exact hfact
  · rw [hwritten, hrecords, List.foldl_append, htraced.records]
    rfl

/-- A round keeps the records traced. -/
theorem Traced.round (hviewing : Viewing event done resolution) (htraced : Traced event resolution)
    (hdraft : draft ∈ event.redacted) {now : Int}
    (hround : Round event.taskId (event.sourceOf draft.path) now draft resolution next) :
    Traced event next := by
  cases hround with
  | seen hkey => exact ⟨htraced.said, htraced.facts, htraced.written, htraced.records⟩
  | same hkey hcurrent hauthority hkept =>
      exact ⟨htraced.said, htraced.facts, htraced.written, htraced.records⟩
  | first hkey hnone hmade =>
      exact htraced.write (.draft draft hdraft (SaidBy.fact hmade)) (factRecord_made hmade).fact rfl rfl
  | @later current candidate sourceIds hkey hcurrent hauthority hsources hmade hnew =>
      obtain ⟨hmem, -, -⟩ := mem_of_activeFact ((hviewing.active _).symm.trans hcurrent)
      have hcurrentFact := htraced.facts current hmem
      have hold : IsFact event.taskId (current.supersededBy candidate) :=
        ⟨hcurrentFact.task, hcurrentFact.typed, hcurrentFact.id⟩
      have holdSaid : Said event (current.supersededBy candidate) :=
        (htraced.said current hmem).later ⟨rfl, rfl, fun hactive => by cases hactive⟩
      have hsuperseded : Traced event { resolution with
          records := resolution.records.upsert (current.supersededBy candidate)
          written := resolution.written ++ [current.supersededBy candidate] } :=
        htraced.write holdSaid hold rfl rfl
      have hsaid := SaidBy.fact hmade
      have hfact : IsFact event.taskId { candidate with supersedesId := some current.id } :=
        ⟨(factRecord_made hmade).fact.task, (factRecord_made hmade).fact.typed,
          (factRecord_made hmade).fact.id⟩
      have hnew : Said event { candidate with supersedesId := some current.id } :=
        .draft draft hdraft ⟨hsaid.slot, hsaid.value, hsaid.normal, hsaid.generation⟩
      refine hsuperseded.write hnew hfact rfl ?_
      exact (List.append_assoc resolution.written [_] [_]).symm
  | rejected hkey hcurrent hauthority hdiffers hmade =>
      exact htraced.write (.draft draft hdraft (SaidBy.conflicting hmade)) (IsFact.conflicting hmade)
        rfl rfl

/-- What all rounds of an event keep. -/
theorem viewing_traced (hfacts : ∀ record ∈ event.records.rows, IsFact event.taskId record
      ∧ (record.text? "normalized_value").isSome)
    (hids : ∀ identity other, event.Known identity → event.Known other →
      identity.id event.taskId = other.id event.taskId → identity = other)
    (hreturns : (resolve event.taskId event.records event.sourceOf event.drafts).2 = none) :
    Viewing event event.redacted
        (resolve event.taskId event.records event.sourceOf event.drafts).1
      ∧ Traced event (resolve event.taskId event.records event.sourceOf event.drafts).1 := by
  have hstart : Viewing event [] (FactResolution.start event.records) :=
    .start fun record hrecord => ⟨(hfacts record hrecord).1.id, (hfacts record hrecord).2⟩
  refine rounds_induction (P := fun done resolution =>
    Viewing event done resolution ∧ Traced event resolution) ?_
    ⟨hstart, .start fun record hrecord => (hfacts record hrecord).1⟩ (List.Subset.refl _) hreturns
  intro done draft now resolution next hdraft hkept hround
  exact ⟨hkept.1.round hids hdraft hround, hkept.2.round hkept.1 hdraft hround⟩

end Rounds

end Tracing

/-! ### What an event leaves in a slot -/

section Leaving

variable [UnicodeForms] [Sha256] [Redactor]

/-- An event says a value in a slot: of its drafts for the slot, or else the active fact, the last one that
no other outranks has this value, and is the one that is new last. What has the same normal form is
written alike. -/
structure Says (event : FactEvent) (slot value : String) : Prop where
  last : (offered ((activeFact event.records slot).map MemoryRecord.write)
    (writesOf slot event.redacted)).map Write.value = some (some (foldFact value))
  new : EndsNew (tops ((activeFact event.records slot).map MemoryRecord.write)
    (writesOf slot event.redacted))
  drafts : ∀ draft ∈ event.redacted, draft.slotKey = slot →
    draft.normalizedValue = foldFact value → draft.value = value
  active : ∀ record ∈ activeFact event.records slot,
    record.text? "normalized_value" = some (foldFact value) → record.text? "value" = some value

/-- The active fact of a slot says a value. -/
def HoldsValue (records : Table MemoryRecord) (slot value : String) : Prop :=
  ∃ record, activeFact records slot = some record ∧ record.text? "value" = some value
    ∧ record.text? "normalized_value" = some (foldFact value)

section Outcome

variable {event : FactEvent} {resolution : FactResolution} {slot value : String}

/-- An active fact of a resolution says what the active fact before it says, or what a draft says. -/
theorem active_said (hsound : Sound event.taskId event.records.rows)
    (htraced : Traced event resolution) {record : MemoryRecord}
    (hactive : activeFact resolution.records slot = some record) :
    (∃ old, activeFact event.records slot = some old ∧ LaterOf old record)
      ∨ ∃ draft ∈ event.redacted, draft.slotKey = slot ∧ SaidBy draft record := by
  obtain ⟨hmem, hstatus, hslot⟩ := mem_of_activeFact hactive
  cases htraced.said record hmem with
  | before old hold hlater =>
      refine Or.inl ⟨old, (activeFact_eq_some hsound).mpr ⟨hold, hlater.active hstatus, ?_⟩, hlater⟩
      exact hlater.slot.symm.trans hslot
  | draft draft hdraft hsaid => exact Or.inr ⟨draft, hdraft, hsaid.slot.symm.trans hslot, hsaid⟩

theorem Says.holds (hclaims : Says event slot value)
    (hsound : Sound event.taskId event.records.rows)
    (hviewing : Viewing event event.redacted resolution) (htraced : Traced event resolution) :
    HoldsValue resolution.records slot value := by
  have hvalue := hviewing.last_value slot
  rw [(offered_firsts_value_eq_iff _ _).mpr hclaims.new, hclaims.last, Option.map_eq_some_iff] at hvalue
  obtain ⟨record, hactive, hnormal⟩ := hvalue
  have hnormal : record.text? "normalized_value" = some (foldFact value) := hnormal
  refine ⟨record, hactive, ?_, hnormal⟩
  rcases active_said hsound htraced hactive with ⟨old, hold, hlater⟩ | ⟨draft, hdraft, hslot, hsaid⟩
  · rw [hlater.text?]
    exact hclaims.active old hold (by rw [← hlater.text?, hnormal])
  · rw [hsaid.value, hclaims.drafts draft hdraft hslot]
    rw [hsaid.normal] at hnormal
    exact Option.some.inj hnormal

/-- A slot of which the event says nothing keeps its value. -/
theorem HoldsValue.untouched (hholds : HoldsValue event.records slot value)
    (hnone : ∀ draft ∈ event.redacted, draft.slotKey ≠ slot)
    (hsound : Sound event.taskId event.records.rows)
    (hviewing : Viewing event event.redacted resolution) (htraced : Traced event resolution) :
    HoldsValue resolution.records slot value := by
  obtain ⟨before, hbefore, hvalue, hnormal⟩ := hholds
  have hwrites : writesOf slot event.redacted = [] := by
    rw [writesOf, List.map_eq_nil_iff, List.filter_eq_nil_iff]
    intro draft hdraft
    rw [decide_eq_true_eq]
    exact hnone draft hdraft
  have hlast := hviewing.last_value slot
  rw [hwrites, hbefore] at hlast
  obtain ⟨record, hactive, -⟩ := Option.map_eq_some_iff.mp hlast
  rcases active_said hsound htraced hactive with ⟨old, hold, hlater⟩ | ⟨draft, hdraft, hslot, -⟩
  · rw [hbefore] at hold
    obtain rfl := Option.some.inj hold
    exact ⟨record, hactive, by rw [hlater.text?, hvalue], by rw [hlater.text?, hnormal]⟩
  · exact absurd hslot (hnone draft hdraft)

end Outcome

end Leaving

/-! ### What the layered memory remembers -/

section Remembering

/-- An id that begins as those of facts do. -/
def IsFactId (id : String) : Prop := "semantic-fact-".toList <+: id.toList

theorem filter_upsert_fact {records facts : Table MemoryRecord} {record : MemoryRecord}
    (hsame : records.rows.filter isTypedSemanticRecord = facts.rows)
    (htyped : isTypedSemanticRecord record = true)
    (hids : ∀ old ∈ records.rows, old.id = record.id → isTypedSemanticRecord old = true) :
    (records.upsert record).rows.filter isTypedSemanticRecord = (facts.upsert record).rows := by
  have hmem : ∀ old, old ∈ facts.rows ↔ old ∈ records.rows ∧ isTypedSemanticRecord old = true := by
    intro old
    rw [← hsame, List.mem_filter]
  cases hget : records.get? (Keyed.key record) with
  | none =>
      have hfree : facts.get? (Keyed.key record) = none := by
        refine get?_eq_none fun old hold hid => ?_
        rw [Table.get?_eq_none_iff] at hget
        exact hget (List.mem_map.mpr ⟨old, ((hmem old).mp hold).1, hid⟩)
      rw [Table.rows_upsert_new hget, Table.rows_upsert_new hfree, List.filter_append, hsame,
        List.filter_singleton, htyped]
      rfl
  | some old =>
      have hold := Table.mem_of_get? hget
      have hid : old.id = record.id := Table.key_of_get? hget
      have hfact : facts.get? (Keyed.key record) = some old := by
        have hkey : Keyed.key record = Keyed.key old := hid.symm
        rw [hkey]
        exact Table.get?_of_mem ((hmem old).mpr ⟨hold, hids old hold hid⟩)
      rw [Table.rows_upsert_old hget, Table.rows_upsert_old hfact, filter_map_typed, hsame]
      intro row hrow
      split
      · rename_i hsameId
        rw [htyped, hids row hrow hsameId]
      · rfl

theorem LayerRecord.ne_fact (layer : LayerRecord) {id : String} (hid : IsFactId id) :
    id ≠ layer.record.id := by
  rintro rfl
  exact layer.noFact hid

variable [Sha256]

theorem IsFact.isFactId {taskId : String} {record : MemoryRecord} (hfact : IsFact taskId record) :
    IsFactId record.id := by
  rw [IsFactId, hfact.id, FactIdentity.id, stableId, String.toList_append, String.toList_append]
  exact ⟨_, rfl⟩

/-- The records of the layers and the facts: the records that are no facts have no slot, and no id as facts
have. -/
structure Layered (manager : MemoryManager) : Prop where
  sound : Sound manager.taskId manager.semantic.records.rows
  normal : ∀ record ∈ manager.semantic.records.rows, (record.text? "normalized_value").isSome
  fresh : ∀ record ∈ manager.semantic.records.rows, record.compressionGeneration = 0
  seen : manager.records.rows.filter isTypedSemanticRecord = manager.semantic.records.rows
  others : ∀ record ∈ manager.records.rows, isTypedSemanticRecord record = false →
    record.text? "slot_key" = none ∧ ¬ IsFactId record.id

/-- The records of other layers leave the facts. -/
theorem remember_layers {taskId : String} {facts : Table MemoryRecord}
    (hfacts : ∀ record ∈ facts.rows, IsFact taskId record) (layers : List LayerRecord)
    {records : Table MemoryRecord}
    (hseen : records.rows.filter isTypedSemanticRecord = facts.rows)
    (hothers : ∀ record ∈ records.rows, isTypedSemanticRecord record = false →
      record.text? "slot_key" = none ∧ ¬ IsFactId record.id) :
    ((layers.map LayerRecord.record).foldl Table.upsert records).rows.filter isTypedSemanticRecord
        = facts.rows
      ∧ ∀ record ∈ ((layers.map LayerRecord.record).foldl Table.upsert records).rows,
        isTypedSemanticRecord record = false →
          record.text? "slot_key" = none ∧ ¬ IsFactId record.id := by
  induction layers generalizing records with
  | nil => exact ⟨hseen, hothers⟩
  | cons layer rest ih =>
      refine ih ?_ ?_
      · rw [filter_upsert_untyped layer.untyped, hseen]
        intro old hold htyped
        have hmem : old ∈ facts.rows := by
          rw [← hseen]
          exact List.mem_filter.mpr ⟨hold, htyped⟩
        exact layer.ne_fact (hfacts old hmem).isFactId
      · intro record hrecord huntyped
        rcases Table.mem_upsert hrecord with rfl | hold
        · exact ⟨layer.noSlot, layer.noFact⟩
        · exact hothers record hold huntyped

/-- What a resolution writes of the facts is written to both tables. -/
theorem remember_facts {taskId : String} {written : List MemoryRecord}
    (hwritten : ∀ record ∈ written, IsFact taskId record) {records facts : Table MemoryRecord}
    (hseen : records.rows.filter isTypedSemanticRecord = facts.rows)
    (hothers : ∀ record ∈ records.rows, isTypedSemanticRecord record = false →
      record.text? "slot_key" = none ∧ ¬ IsFactId record.id) :
    (written.foldl Table.upsert records).rows.filter isTypedSemanticRecord
        = (written.foldl Table.upsert facts).rows
      ∧ ∀ record ∈ (written.foldl Table.upsert records).rows,
        isTypedSemanticRecord record = false →
          record.text? "slot_key" = none ∧ ¬ IsFactId record.id := by
  induction written generalizing records facts with
  | nil => exact ⟨hseen, hothers⟩
  | cons record rest ih =>
      have hfact := hwritten record List.mem_cons_self
      refine ih (fun other hother => hwritten other (List.mem_cons_of_mem record hother)) ?_ ?_
      · refine filter_upsert_fact hseen hfact.typed fun old hold hid => ?_
        by_contra huntyped
        rw [Bool.not_eq_true] at huntyped
        refine (hothers old hold huntyped).2 ?_
        rw [hid]
        exact hfact.isFactId
      · intro other hother huntyped
        rcases Table.mem_upsert hother with rfl | hold
        · rw [hfact.typed] at huntyped
          cases huntyped
        · exact hothers other hold huntyped

end Remembering

/-! ### Compressions -/

section Compressing

variable [MemoryText]

/-- No other record has a key that makes a compression group it with the record. -/
def Unmerged (active : List MemoryRecord) (record : MemoryRecord) : Prop :=
  ∀ other ∈ active, other ≠ record → duplicateKey other ≠ duplicateKey record
    ∧ semanticMergeKey other ≠ semanticMergeKey record

omit [MemoryText] in
/-- A record that is grouped shares its key with another. -/
theorem exists_of_mem_groupsOf {κ : Type} [DecidableEq κ] {key : MemoryRecord → κ}
    {records : List MemoryRecord} (hnodup : records.Nodup) {level : CompressionLevel}
    {group : CompressionGroup}
    (hgroup : group ∈ groupsOf level ((buckets key records).map (sortBy recordOrder)))
    {record : MemoryRecord} (hrecord : record ∈ group.records) :
    ∃ other ∈ records, other ≠ record ∧ key other = key record := by
  obtain ⟨bucket, hbucket, hsorted⟩ := List.mem_map.mp (mem_groupsOf hgroup)
  obtain ⟨first, -, rfl⟩ := mem_buckets.mp hbucket
  have hpart := partOf_bucket hnodup (mem_groupsOf hgroup)
  have hkeys : ∀ member ∈ group.records, member ∈ records ∧ key member = key first := by
    intro member hmember
    rw [← hsorted, mem_sortBy, List.mem_filter] at hmember
    exact ⟨hmember.1, of_decide_eq_true hmember.2⟩
  -- Of two records that differ, one is another.
  obtain ⟨other, hother, hne⟩ : ∃ other ∈ group.records, other ≠ record := by
    by_contra hnone
    have hall : ∀ member ∈ group.records, member = record := by
      intro member hmember
      by_contra hne
      exact hnone ⟨member, hmember, hne⟩
    have hone : group.records.length ≤ 1 := by
      rw [List.eq_replicate_of_mem hall] at hpart
      exact List.nodup_replicate.mp hpart.1
    exact absurd group.enough (by omega)
  refine ⟨other, (hkeys other hother).1, hne, ?_⟩
  rw [(hkeys other hother).2, (hkeys record hrecord).2]

/-- A fact that is not merged is in no group. -/
theorem Unmerged.not_mem_group {active inputs : List MemoryRecord} {rollup : Bool}
    {isProtected : List String} {groups : List CompressionGroup} {record : MemoryRecord}
    (hnodup : active.Nodup) (hfresh : record.compressionGeneration = 0)
    (hkind : record.kind = .semantic) (hunmerged : rollup = false → Unmerged active record)
    (hok : compressionInputs active rollup = .ok (inputs, isProtected, groups)) :
    ∀ group ∈ groups, record ∉ group.records := by
  intro group hgroup hrecord
  unfold compressionInputs at hok
  split at hok
  · cases hok
    have hmem := (generationGroups_partOf (hnodup.filter _) hgroup).2 hrecord
    have hgeneration := of_decide_eq_true (List.mem_filter.mp hmem).2
    omega
  rename_i hrollup
  have hunmerged := hunmerged (Bool.eq_false_iff.mpr hrollup)
  obtain ⟨found, -, hok⟩ := Except.bind_eq_ok_iff.mp hok
  cases hok
  have hkept : (active.filter fun record =>
      record.id ∉ isProtected ∧ record.compressionGeneration = 0).Nodup := hnodup.filter _
  unfold initialGroups at hgroup
  rcases List.mem_append.mp hgroup with hgroup | hgroup
  · rcases List.mem_append.mp hgroup with hgroup | hgroup
    · obtain ⟨other, hother, hne, hkey⟩ := exists_of_mem_groupsOf hkept hgroup hrecord
      exact (hunmerged other (List.mem_filter.mp hother).1 hne).1 hkey
    · obtain ⟨other, hother, hne, hkey⟩ :=
        exists_of_mem_groupsOf ((hkept.filter _).filter _) hgroup hrecord
      have hother := (List.mem_filter.mp (List.mem_filter.mp hother).1).1
      exact (hunmerged other (List.mem_filter.mp hother).1 hne).2 hkey
  · have hpart := partOf_chunk (by decide) ((hkept.filter _).filter _) (mem_groupsOf hgroup)
    have hepisode := of_decide_eq_true (List.mem_filter.mp (hpart.2 hrecord)).2
    rw [hkind] at hepisode
    cases hepisode

variable [Redactor] [Sha256]

/-- A compression writes nothing over a fact that is not merged. -/
theorem compress_spares {taskId : String} {records : List MemoryRecord}
    {sources : List MemorySource} {rollup : Bool} {batch : CompressionBatch}
    (hids : (records.map MemoryRecord.id).Nodup)
    (hapart : SlotsApart (activeRecords taskId records))
    (hok : compress taskId records sources rollup = .ok batch) {record : MemoryRecord}
    (hrecord : record ∈ records) (hfact : IsFact taskId record)
    (hfresh : record.compressionGeneration = 0)
    (hunmerged : rollup = false → Unmerged (activeRecords taskId records) record) :
    ∀ write ∈ batch.writes, write.id ≠ record.id := by
  have hnodup : records.Nodup := List.Nodup.of_map _ hids
  have hkind : record.kind = .semantic := by
    have htyped := hfact.typed
    unfold isTypedSemanticRecord at htyped
    exact (of_decide_eq_true htyped).1
  intro write hwrite hid
  rcases compress_eq_ok hok with hnone | ⟨inputs, isProtected, groups, accepted, hinputs, haccepted,
    hwrites⟩
  · rw [hnone] at hwrite
    cases hwrite
  obtain ⟨-, hparts⟩ := compressionInputs_partOf (hnodup.filter _) hinputs
  rw [hwrites, List.mem_append] at hwrite
  rcases hwrite with hwrite | hwrite
  · obtain ⟨input, hinput, rfl⟩ := List.mem_map.mp hwrite
    obtain ⟨member, hmember, hsame⟩ := List.mem_map.mp (of_decide_eq_true (List.mem_filter.mp hinput).2)
    obtain ⟨pair, hpair, hmember⟩ := List.mem_flatMap.mp hmember
    have hgroup := (acceptedSummaries_eq_ok haccepted hpair).1
    have hmem := (List.mem_filter.mp ((hparts pair.1 hgroup).2 hmember)).1
    obtain rfl := eq_of_id hids hmem hrecord (hsame.trans hid)
    exact Unmerged.not_mem_group (hnodup.filter _) hfresh hkind hunmerged hinputs pair.1 hgroup hmember
  · obtain ⟨pair, hpair, rfl⟩ := List.mem_map.mp hwrite
    obtain ⟨hgroup, hsummary⟩ := acceptedSummaries_eq_ok haccepted hpair
    obtain ⟨hdistinct, hwithin⟩ := hparts pair.1 hgroup
    have hgroupApart : SlotsApart pair.1.records := fun record hrecord other hother =>
      hapart record (hwithin hrecord) other (hwithin hother)
    obtain ⟨-, values, hsummaryId⟩ := summaryRecord_untyped hdistinct hgroupApart hsummary
    rw [hsummaryId, hfact.id] at hid
    exact stableId_summary_ne _ _ hid.symm

end Compressing

end PatchLoop
