import PatchLoop.Lib.Sequences
import PatchLoop.Safety.SemanticFacts

/-!
# Facts under compression

A compression invalidates facts, and makes none: of the records of a group at most one has the slot of a
fact that is active, so that a summary takes over no field of them.
-/

namespace PatchLoop

open Buckets

/-! ### Groups -/

section Parts

/-- A part of the records, with no record twice. -/
def PartOf (records part : List MemoryRecord) : Prop := part.Nodup ∧ part ⊆ records

theorem PartOf.of_subset {records others part : List MemoryRecord} (hpart : PartOf others part)
    (hsubset : others ⊆ records) : PartOf records part :=
  ⟨hpart.1, fun _ hmem => hsubset (hpart.2 hmem)⟩

theorem mem_groupsOf {level : CompressionLevel} {parts : List (List MemoryRecord)}
    {group : CompressionGroup} (hgroup : group ∈ groupsOf level parts) : group.records ∈ parts := by
  obtain ⟨part, hpart, hmade⟩ := List.mem_filterMap.mp hgroup
  split at hmade
  · obtain rfl := Option.some.inj hmade
    exact hpart
  · cases hmade

/-- A sorted bucket is a part. -/
theorem partOf_bucket {κ : Type} [DecidableEq κ] {key : MemoryRecord → κ}
    {records part : List MemoryRecord} (hnodup : records.Nodup)
    (hpart : part ∈ (buckets key records).map (sortBy recordOrder)) : PartOf records part := by
  obtain ⟨bucket, hbucket, rfl⟩ := List.mem_map.mp hpart
  obtain ⟨record, -, rfl⟩ := mem_buckets.mp hbucket
  refine ⟨sortBy_perm.nodup_iff.mpr (hnodup.filter _), fun other hother => ?_⟩
  exact (List.mem_filter.mp (mem_sortBy.mp hother)).1

/-- A chunk of a sorted bucket is a part. -/
theorem partOf_chunk {κ : Type} [DecidableEq κ] {key : MemoryRecord → κ} {size : Nat}
    (hsize : 0 < size) {records part : List MemoryRecord} (hnodup : records.Nodup)
    (hpart : part ∈ (buckets key records).flatMap fun bucket =>
      chunks size (sortBy recordOrder bucket)) : PartOf records part := by
  obtain ⟨bucket, hbucket, hpart⟩ := List.mem_flatMap.mp hpart
  have hwhole := partOf_bucket hnodup (List.mem_map_of_mem (f := sortBy recordOrder) hbucket)
  have hflatten := flatten_chunks hsize (sortBy recordOrder bucket)
  constructor
  · have hall : (chunks size (sortBy recordOrder bucket)).flatten.Nodup := by
      rw [hflatten]
      exact hwhole.1
    exact (List.nodup_flatten.mp hall).1 part hpart
  · intro record hrecord
    refine hwhole.2 ?_
    rw [← hflatten]
    exact List.mem_flatten_of_mem hpart hrecord

theorem generationGroups_partOf {records : List MemoryRecord} (hnodup : records.Nodup)
    {group : CompressionGroup} (hgroup : group ∈ generationGroups records) :
    PartOf records group.records :=
  partOf_chunk (by decide) hnodup (mem_groupsOf hgroup)

end Parts

section Groups

variable [MemoryText]

theorem duplicateGroups_partOf {records : List MemoryRecord} (hnodup : records.Nodup)
    {group : CompressionGroup} (hgroup : group ∈ duplicateGroups records) :
    PartOf records group.records :=
  partOf_bucket hnodup (mem_groupsOf hgroup)

theorem semanticGroups_partOf {records : List MemoryRecord} (hnodup : records.Nodup)
    {group : CompressionGroup} (hgroup : group ∈ semanticGroups records) :
    PartOf records group.records :=
  (partOf_bucket (hnodup.filter _) (mem_groupsOf hgroup)).of_subset (List.filter_subset_self _)

theorem episodeGroups_partOf {records : List MemoryRecord} (hnodup : records.Nodup)
    {group : CompressionGroup} (hgroup : group ∈ episodeGroups records) :
    PartOf records group.records :=
  (partOf_chunk (by decide) (hnodup.filter _) (mem_groupsOf hgroup)).of_subset
    (List.filter_subset_self _)

theorem initialGroups_partOf {records : List MemoryRecord} {isProtected : List String}
    (hnodup : records.Nodup) {group : CompressionGroup}
    (hgroup : group ∈ initialGroups records isProtected) : PartOf records group.records := by
  unfold initialGroups at hgroup
  set eligible := records.filter fun record =>
    record.id ∉ isProtected ∧ record.compressionGeneration = 0 with heligible
  have hkept : eligible.Nodup := hnodup.filter _
  have hsubset : eligible ⊆ records := List.filter_subset_self _
  rcases List.mem_append.mp hgroup with hgroup | hgroup
  · rcases List.mem_append.mp hgroup with hgroup | hgroup
    · exact (duplicateGroups_partOf hkept hgroup).of_subset hsubset
    · exact ((semanticGroups_partOf (hkept.filter _) hgroup).of_subset
        (List.filter_subset_self _)).of_subset hsubset
  · exact ((episodeGroups_partOf (hkept.filter _) hgroup).of_subset
      (List.filter_subset_self _)).of_subset hsubset

theorem compressionInputs_partOf {active inputs : List MemoryRecord} {rollup : Bool}
    {isProtected : List String} {groups : List CompressionGroup} (hnodup : active.Nodup)
    (hok : compressionInputs active rollup = .ok (inputs, isProtected, groups)) :
    inputs ⊆ active ∧ ∀ group ∈ groups, PartOf active group.records := by
  unfold compressionInputs at hok
  split at hok
  · cases hok
    have hsubset := List.filter_subset_self (l := active)
      (p := fun record => 0 < record.compressionGeneration)
    refine ⟨hsubset, fun group hgroup => ?_⟩
    exact (generationGroups_partOf (hnodup.filter _) hgroup).of_subset hsubset
  · obtain ⟨found, -, hok⟩ := Except.bind_eq_ok_iff.mp hok
    cases hok
    exact ⟨List.Subset.refl _, fun group hgroup => initialGroups_partOf hnodup hgroup⟩

end Groups

/-! ### Summaries -/

/-- At most one of the records has a slot, of those of one slot. -/
def SlotsApart (records : List MemoryRecord) : Prop :=
  ∀ record ∈ records, ∀ other ∈ records, ∀ slot, record.text? "slot_key" = some slot →
    other.text? "slot_key" = some slot → record = other

/-- Records with slots of their own share no field. -/
theorem sharedSemanticFields_eq_nil {group : CompressionGroup} (hnodup : group.records.Nodup)
    (hapart : SlotsApart group.records) {shared : List (String × Json)}
    (hok : sharedSemanticFields group = .ok shared) : shared = [] := by
  unfold sharedSemanticFields at hok
  split at hok
  · exact (Except.pure_eq_ok_iff.mp hok).symm
  obtain ⟨slots, hslots, hok⟩ := Except.bind_eq_ok_iff.mp hok
  obtain ⟨values, -, hok⟩ := Except.bind_eq_ok_iff.mp hok
  have hshare : shareText slots = false := by
    obtain ⟨first, second, rest, hrecords⟩ : ∃ first second rest,
        group.records = first :: second :: rest := by
      have henough := group.enough
      generalize group.records = records at henough
      cases records with
      | nil => exact absurd henough (by decide)
      | cons first rest =>
          cases rest with
          | nil =>
              rw [List.length_singleton] at henough
              omega
          | cons second rest => exact ⟨first, second, rest, rfl⟩
    rw [hrecords] at hslots hnodup hapart
    have hlooked := Sequence.forall₂_of_mapM_ok hslots
    cases hlooked with
    | cons hfirst hlooked =>
        cases hlooked with
        | cons hsecond _ =>
            rename_i slot _ slot' _
            obtain ⟨-, rfl⟩ := hashable_eq_ok.mp hfirst
            obtain ⟨-, rfl⟩ := hashable_eq_ok.mp hsecond
            by_contra hne
            rw [Bool.not_eq_false] at hne
            unfold shareText at hne
            split at hne
            · rename_i text others heq
              obtain ⟨hfirstText, rfl⟩ := List.cons.inj heq
              rw [Bool.and_eq_true, List.all_cons, Bool.and_eq_true, decide_eq_true_eq,
                decide_eq_true_eq] at hne
              have hone := hapart first List.mem_cons_self second
                (List.mem_cons_of_mem _ List.mem_cons_self) text
                (by rw [MemoryRecord.text?, hfirstText])
                (by rw [MemoryRecord.text?, hne.2.1])
              exact (List.nodup_cons.mp hnodup).1 (hone ▸ List.mem_cons_self)
            · cases hne
  rw [hshare] at hok
  exact (Except.pure_eq_ok_iff.mp hok).symm

section Writes

variable [MemoryText] [Redactor] [Sha256]

/-- A summary of records that share no field is not typed, and its id is that of no fact. -/
theorem summaryRecord_untyped {taskId : String} {group : CompressionGroup}
    {sources : List MemorySource} (hnodup : group.records.Nodup)
    (hapart : SlotsApart group.records) {summary : MemoryRecord}
    (hok : summaryRecord taskId group sources = .ok summary) :
    isTypedSemanticRecord summary = false
      ∧ ∃ values, summary.id = stableId "compressed-memory" values := by
  obtain ⟨shared, hshared, hok⟩ := Except.bind_eq_ok_iff.mp hok
  obtain rfl := sharedSemanticFields_eq_nil hnodup hapart hshared
  obtain ⟨-, rfl⟩ := MemoryRecord.validateRecord_eq_ok.mp hok
  refine ⟨?_, _, rfl⟩
  have hschema : (Json.obj (ownContent group sources)).get? "semantic_schema" = none := rfl
  unfold isTypedSemanticRecord
  rw [decide_eq_false]
  rintro ⟨-, htyped⟩
  have hnone : some (Json.str "1.0") = none := htyped.symm.trans hschema
  cases hnone

theorem acceptedSummaries_eq_ok {taskId : String} {sources : List MemorySource}
    {groups : List CompressionGroup} {accepted : List (CompressionGroup × MemoryRecord)}
    (hok : acceptedSummaries taskId sources groups = .ok accepted)
    {pair : CompressionGroup × MemoryRecord} (hpair : pair ∈ accepted) :
    pair.1 ∈ groups ∧ summaryRecord taskId pair.1 sources = .ok pair.2 := by
  obtain ⟨summaries, hsummaries, hfilter⟩ := Except.bind_eq_ok_iff.mp hok
  rw [← Except.pure_eq_ok_iff.mp hfilter] at hpair
  obtain ⟨hmem, -⟩ := List.mem_filter.mp hpair
  have hmade := Sequence.forall₂_of_mapM_ok hsummaries
  obtain ⟨group, hgroup, hsummary⟩ := Sequence.exists_of_forall₂ hmade.flip hmem
  obtain ⟨summary, hrecord, hsame⟩ := Except.bind_eq_ok_iff.mp hsummary
  obtain rfl := Except.pure_eq_ok_iff.mp hsame
  exact ⟨hgroup, hrecord⟩

/-- What a run writes: inputs that are invalidated, and summaries. -/
inductive Written (records : List MemoryRecord) (record : MemoryRecord) : Prop
  | invalidated (input : MemoryRecord) (hinput : input ∈ records) (hactive : input.status = .active)
      (hrecord : record = { input with status := .invalidated })
  | summary (huntyped : isTypedSemanticRecord record = false) (values : List String)
      (hid : record.id = stableId "compressed-memory" values)

/-- A compression writes nothing, or the records of accepted groups and the summaries of these. -/
theorem compress_eq_ok {taskId : String} {records : List MemoryRecord} {sources : List MemorySource}
    {rollup : Bool} {batch : CompressionBatch}
    (hok : compress taskId records sources rollup = .ok batch) :
    batch.writes = [] ∨ ∃ inputs isProtected groups accepted,
      compressionInputs (activeRecords taskId records) rollup = .ok (inputs, isProtected, groups)
        ∧ acceptedSummaries taskId (sources.filter (·.taskId = taskId)) groups = .ok accepted
        ∧ batch.writes = ((inputs.filter fun record =>
            record.id ∈ (accepted.flatMap (·.1.records)).map MemoryRecord.id).map fun record =>
              { record with status := .invalidated }) ++ accepted.map Prod.snd := by
  unfold compress at hok
  obtain ⟨⟨inputs, isProtected, groups⟩, hinputs, hok⟩ := Except.bind_eq_ok_iff.mp hok
  dsimp only at hok
  split at hok
  · rw [← Except.pure_eq_ok_iff.mp hok]
    exact Or.inl rfl
  obtain ⟨accepted, haccepted, hok⟩ := Except.bind_eq_ok_iff.mp hok
  split at hok
  · rw [← Except.pure_eq_ok_iff.mp hok]
    exact Or.inl rfl
  obtain ⟨report, -, hok⟩ := Except.bind_eq_ok_iff.mp hok
  rw [← Except.pure_eq_ok_iff.mp hok]
  exact Or.inr ⟨inputs, isProtected, groups, accepted, hinputs, haccepted, rfl⟩

theorem compress_writes {taskId : String} {records : List MemoryRecord}
    {sources : List MemorySource} {rollup : Bool} {batch : CompressionBatch}
    (hnodup : records.Nodup) (hapart : SlotsApart (activeRecords taskId records))
    (hok : compress taskId records sources rollup = .ok batch) :
    ∀ record ∈ batch.writes, Written records record := by
  intro record hrecord
  rcases compress_eq_ok hok with hnone | ⟨inputs, isProtected, groups, accepted, hinputs, haccepted,
    hwrites⟩
  · rw [hnone] at hrecord
    cases hrecord
  obtain ⟨hsubset, hparts⟩ := compressionInputs_partOf (hnodup.filter _) hinputs
  rw [hwrites, List.mem_append] at hrecord
  rcases hrecord with hrecord | hrecord
  · obtain ⟨input, hinput, rfl⟩ := List.mem_map.mp hrecord
    obtain ⟨hmem, hkeep⟩ := List.mem_filter.mp (hsubset (List.mem_filter.mp hinput).1)
    exact .invalidated input hmem (of_decide_eq_true hkeep).2 rfl
  · obtain ⟨pair, hpair, rfl⟩ := List.mem_map.mp hrecord
    obtain ⟨hgroup, hsummary⟩ := acceptedSummaries_eq_ok haccepted hpair
    obtain ⟨hdistinct, hwithin⟩ := hparts pair.1 hgroup
    have hgroupApart : SlotsApart pair.1.records := fun record hrecord other hother =>
      hapart record (hwithin hrecord) other (hwithin hother)
    obtain ⟨huntyped, values, hid⟩ := summaryRecord_untyped hdistinct hgroupApart hsummary
    exact .summary huntyped values hid

end Writes

/-! ### Facts that are invalidated -/

section Invalidation

variable {records : List MemoryRecord} {f : MemoryRecord → MemoryRecord}

/-- A change of the status alone. -/
def OnlyStatus (records : List MemoryRecord) (f : MemoryRecord → MemoryRecord) : Prop :=
  ∀ record ∈ records, ∃ status, f record = { record with status }

theorem Linked.map (hlinked : Linked records) (hstatus : OnlyStatus records f) :
    Linked (records.map f) := by
  have hmem : ∀ record ∈ records.map f, ∃ old ∈ records, ∃ status, record = { old with status } := by
    intro record hrecord
    obtain ⟨old, hold, rfl⟩ := List.mem_map.mp hrecord
    exact ⟨old, hold, hstatus old hold⟩
  constructor
  · have hids : (records.map f).map MemoryRecord.id = records.map MemoryRecord.id := by
      rw [List.map_map]
      refine List.map_congr_left fun record hrecord => ?_
      obtain ⟨status, heq⟩ := hstatus record hrecord
      rw [Function.comp_apply, heq]
    rw [hids]
    exact hlinked.nodup
  · intro record hrecord id hid
    obtain ⟨old, hold, status, rfl⟩ := hmem record hrecord
    obtain ⟨previous, hprevious, hpreviousId, hback, hfollows⟩ := hlinked.previous old hold id hid
    obtain ⟨other, heq⟩ := hstatus previous hprevious
    refine ⟨f previous, List.mem_map_of_mem hprevious, ?_⟩
    rw [heq]
    exact ⟨hpreviousId, hback, hfollows.taskId, hfollows.kind, hfollows.scope, hfollows.scopeId,
      hfollows.createdAt, hfollows.slot, hfollows.authority⟩
  · intro record hrecord id hid
    obtain ⟨old, hold, status, rfl⟩ := hmem record hrecord
    obtain ⟨replacement, hreplacement, hreplacementId, hback⟩ := hlinked.replacement old hold id hid
    obtain ⟨other, heq⟩ := hstatus replacement hreplacement
    refine ⟨f replacement, List.mem_map_of_mem hreplacement, ?_⟩
    rw [heq]
    exact ⟨hreplacementId, hback⟩
  · obtain ⟨rank, hrank⟩ := hlinked.ranked
    refine ⟨rank, fun record hrecord id hid => ?_⟩
    obtain ⟨old, hold, status, rfl⟩ := hmem record hrecord
    exact hrank old hold id hid

/-! ### Writing what a compression writes -/

/-- A write that touches no fact, or invalidates one. -/
def Harmless (records : Table MemoryRecord) (record : MemoryRecord) : Prop :=
  (isTypedSemanticRecord record = false
      ∧ ∀ old ∈ records.rows, isTypedSemanticRecord old = true → old.id ≠ record.id)
    ∨ ∃ old ∈ records.rows, isTypedSemanticRecord old = true ∧ old.status ≠ .superseded
      ∧ record = { old with status := .invalidated }

theorem typed_of_status {record : MemoryRecord} {status : MemoryStatus} :
    isTypedSemanticRecord { record with status } = isTypedSemanticRecord record := rfl

theorem filter_set_untyped {rows : List MemoryRecord} {record : MemoryRecord}
    (huntyped : isTypedSemanticRecord record = false)
    (hids : ∀ old ∈ rows, isTypedSemanticRecord old = true → old.id ≠ record.id) :
    (rows.map fun old => if old.id = record.id then record else old).filter isTypedSemanticRecord
      = rows.filter isTypedSemanticRecord := by
  induction rows with
  | nil => rfl
  | cons old rest ih =>
      have hrest := ih fun other hother => hids other (List.mem_cons_of_mem old hother)
      rw [List.map_cons, List.filter_cons, List.filter_cons, hrest]
      by_cases hid : old.id = record.id
      · have hold : isTypedSemanticRecord old = false := by
          by_contra htyped
          rw [Bool.not_eq_false] at htyped
          exact hids old List.mem_cons_self htyped hid
        rw [if_pos hid, huntyped, hold]
        rfl
      · rw [if_neg hid]

theorem filter_upsert_untyped {records : Table MemoryRecord} {record : MemoryRecord}
    (huntyped : isTypedSemanticRecord record = false)
    (hids : ∀ old ∈ records.rows, isTypedSemanticRecord old = true → old.id ≠ record.id) :
    (records.upsert record).rows.filter isTypedSemanticRecord
      = records.rows.filter isTypedSemanticRecord := by
  cases hget : records.get? (Keyed.key record) with
  | none =>
      rw [Table.rows_upsert_new hget, List.filter_append, List.filter_singleton, huntyped]
      exact List.append_nil _
  | some old =>
      rw [Table.rows_upsert_old hget]
      exact filter_set_untyped huntyped hids

theorem filter_map_typed {rows : List MemoryRecord} {g : MemoryRecord → MemoryRecord}
    (hkeep : ∀ row ∈ rows, isTypedSemanticRecord (g row) = isTypedSemanticRecord row) :
    (rows.map g).filter isTypedSemanticRecord = (rows.filter isTypedSemanticRecord).map g := by
  rw [List.filter_map]
  refine congrArg (List.map g) (List.filter_congr fun row hrow => ?_)
  exact hkeep row hrow

/-- A write leaves the others harmless. -/
theorem Harmless.upsert {records : Table MemoryRecord} {record other : MemoryRecord}
    (hrecord : Harmless records record) (hother : Harmless records other) :
    Harmless (records.upsert record) other := by
  rcases hother with ⟨huntyped, hids⟩ | ⟨old, hold, htyped, hopen, rfl⟩
  · refine Or.inl ⟨huntyped, fun row hrow htypedRow => ?_⟩
    rcases Table.mem_upsert hrow with rfl | hrow
    · rcases hrecord with ⟨hfalse, -⟩ | ⟨old, hold, htyped, -, rfl⟩
      · rw [hfalse] at htypedRow
        cases htypedRow
      · exact hids old hold htyped
    · exact hids row hrow htypedRow
  · refine Or.inr ?_
    by_cases hid : old.id = record.id
    · rcases hrecord with ⟨-, hids⟩ | ⟨first, hfirst, -, -, rfl⟩
      · exact absurd hid (hids old hold htyped)
      · obtain rfl := eq_of_id records.nodup hold hfirst hid
        refine ⟨{ old with status := .invalidated }, ?_, htyped, fun hne => (by cases hne), rfl⟩
        exact Table.mem_of_get? (Table.get?_upsert_self records _)
    · refine ⟨old, Table.mem_of_get? (k := old.id) ?_, htyped, hopen, rfl⟩
      rw [Table.get?_upsert_of_ne records hid]
      exact Table.get?_of_mem hold

variable [Sha256] {taskId : String}

/-- Facts of which some are invalidated that were not superseded. -/
theorem Sound.map (hsound : Sound taskId records)
    (hchange : ∀ record ∈ records, f record = record
      ∨ (f record = { record with status := .invalidated } ∧ record.status ≠ .superseded)) :
    Sound taskId (records.map f) := by
  have hstatus : OnlyStatus records f := by
    intro record hrecord
    rcases hchange record hrecord with heq | ⟨heq, -⟩
    · exact ⟨record.status, heq⟩
    · exact ⟨_, heq⟩
  -- An active fact was left as it is.
  have hactive : ∀ record ∈ records, (f record).status = .active →
      f record = record ∧ record.status = .active := by
    intro record hrecord hstill
    rcases hchange record hrecord with heq | ⟨heq, -⟩
    · exact ⟨heq, heq ▸ hstill⟩
    · rw [heq] at hstill
      cases hstill
  constructor
  · exact hsound.linked.map hstatus
  · rw [List.pairwise_map]
    refine hsound.inOrder.imp_of_mem fun {earlier later} hearlier hlater hne => ?_
    obtain ⟨status, heq⟩ := hstatus earlier hearlier
    obtain ⟨status', heq'⟩ := hstatus later hlater
    rw [heq, heq']
    exact hne
  · intro record hrecord
    obtain ⟨old, hold, rfl⟩ := List.mem_map.mp hrecord
    obtain ⟨status, heq⟩ := hstatus old hold
    have hfact := hsound.facts old hold
    rw [heq]
    exact ⟨hfact.task, hfact.typed, hfact.id⟩
  · intro record hrecord other hother hactiveRecord hactiveOther hslot
    obtain ⟨old, hold, rfl⟩ := List.mem_map.mp hrecord
    obtain ⟨old', hold', rfl⟩ := List.mem_map.mp hother
    obtain ⟨heq, hactiveOld⟩ := hactive old hold hactiveRecord
    obtain ⟨heq', hactiveOld'⟩ := hactive old' hold' hactiveOther
    rw [heq, heq'] at hslot ⊢
    exact hsound.oneActive old hold old' hold' hactiveOld hactiveOld' hslot
  · intro record hrecord
    obtain ⟨old, hold, rfl⟩ := List.mem_map.mp hrecord
    have hsuperseded := hsound.superseded old hold
    rcases hchange old hold with heq | ⟨heq, hopen⟩
    · rwa [heq]
    · rw [heq]
      constructor
      · exact fun hinvalid => by cases hinvalid
      · exact fun hne => absurd (hsuperseded.mpr hne) hopen
  · intro record hrecord hconflict
    obtain ⟨old, hold, rfl⟩ := List.mem_map.mp hrecord
    have hrejected := hsound.rejected old hold
    rcases hchange old hold with heq | ⟨heq, -⟩
    · rw [heq] at hconflict ⊢
      exact hrejected hconflict
    · rw [heq] at hconflict ⊢
      exact ⟨rfl, (hrejected hconflict).2⟩

/-- A write keeps the facts sound. -/
theorem Sound.upsert {records : Table MemoryRecord} {record : MemoryRecord}
    (hsound : Sound taskId (records.rows.filter isTypedSemanticRecord))
    (hharmless : Harmless records record) :
    Sound taskId ((records.upsert record).rows.filter isTypedSemanticRecord) := by
  rcases hharmless with ⟨huntyped, hids⟩ | ⟨old, hold, htyped, hopen, rfl⟩
  · rw [filter_upsert_untyped huntyped hids]
    exact hsound
  · have hget : records.get? (Keyed.key { old with status := .invalidated }) = some old :=
      Table.get?_of_mem hold
    have hunique : ∀ row ∈ records.rows, row.id = old.id → row = old :=
      fun row hrow hid => eq_of_id records.nodup hrow hold hid
    rw [Table.rows_upsert_old hget, filter_map_typed]
    · refine hsound.map fun row hrow => ?_
      have hmem := (List.mem_filter.mp hrow).1
      by_cases hid : row.id = old.id
      · obtain rfl := hunique row hmem hid
        exact Or.inr ⟨if_pos rfl, hopen⟩
      · exact Or.inl (if_neg hid)
    · intro row hrow
      by_cases hid : row.id = old.id
      · obtain rfl := hunique row hrow hid
        exact (congrArg isTypedSemanticRecord (if_pos rfl)).trans typed_of_status
      · exact congrArg isTypedSemanticRecord (if_neg hid)

theorem Sound.writes {writes : List MemoryRecord} {records : Table MemoryRecord}
    (hsound : Sound taskId (records.rows.filter isTypedSemanticRecord))
    (hharmless : ∀ record ∈ writes, Harmless records record) :
    Sound taskId ((writes.foldl Table.upsert records).rows.filter isTypedSemanticRecord) := by
  induction writes generalizing records with
  | nil => exact hsound
  | cons record rest ih =>
      have hfirst := hharmless record List.mem_cons_self
      refine ih (hsound.upsert hfirst) fun other hother => ?_
      exact hfirst.upsert (hharmless other (List.mem_cons_of_mem record hother))

end Invalidation

end PatchLoop
