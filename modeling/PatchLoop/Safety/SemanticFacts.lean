import PatchLoop.Lib.Run
import PatchLoop.Safety.FactChains

/-!
# What the resolution of facts keeps

Over any events the facts of a slot form one chain of growing authority, of which the last is active. An
event keeps this where its drafts can be redacted and belong to the task, and where the ids of its sources
are its own.
-/

namespace PatchLoop

/-! ### Events -/

section Events

variable [UnicodeForms] [Sha256] [Redactor]

/-- The drafts of an event after their redaction. -/
def redactedDrafts (drafts : List TimedDraft) : List SemanticFactDraft :=
  drafts.filterMap fun timed => timed.draft.redact.toOption

/-- An event: the records before it, and what it makes facts of. -/
structure FactEvent where
  taskId : String
  records : Table MemoryRecord
  sourceOf : Option String → MemorySource
  drafts : List TimedDraft

namespace FactEvent

def redacted (event : FactEvent) : List SemanticFactDraft := redactedDrafts event.drafts

/-- The id of the source that a draft has. -/
def sourceId (event : FactEvent) (draft : SemanticFactDraft) : String :=
  (event.sourceOf draft.path).id

/-- The sources that a fact can have during the event. -/
def KnownSource (event : FactEvent) (id : String) : Prop :=
  (∃ record ∈ event.records.rows, id ∈ record.sourceIds)
    ∨ ∃ draft ∈ event.redacted, event.sourceId draft = id

/-- What an id can be made of during the event. -/
def Known (event : FactEvent) (identity : FactIdentity) : Prop :=
  (∃ record ∈ event.records.rows, identityOf record = identity)
    ∨ ∃ draft ∈ event.redacted, ∃ sourceIds : List String,
      (∀ id ∈ sourceIds, event.KnownSource id) ∧ draft.identity sourceIds = identity

/-- Digests keep the facts of the event apart, and the scopes of their slots. -/
structure Distinct (event : FactEvent) : Prop where
  ids : ∀ identity other, event.Known identity → event.Known other →
    identity.id event.taskId = other.id event.taskId → identity = other
  records : ∀ record ∈ event.records.rows, ∀ draft ∈ event.redacted,
    recordSlot record = draft.slotKey → record.scope = draft.scope ∧ record.scopeId = draft.scopeId
  drafts : ∀ draft ∈ event.redacted, ∀ other ∈ event.redacted, draft.slotKey = other.slotKey →
    draft.scope = other.scope ∧ draft.scopeId = other.scopeId

/-- The slot has a fact that says what every draft for it says. -/
def Settled (event : FactEvent) (slot : String) : Prop :=
  ∃ current, activeFact event.records slot = some current
    ∧ ∀ draft ∈ event.redacted, draft.slotKey = slot →
      current.text? "normalized_value" = some draft.normalizedValue
        ∧ draft.authority ≤ recordAuthority current

/-- The slot has no fact from the sources of the event. -/
def Fresh (event : FactEvent) (slot : String) : Prop :=
  ∀ record ∈ event.records.rows, recordSlot record = slot → ∀ draft ∈ event.redacted,
    draft.slotKey = slot → event.sourceId draft ∉ record.sourceIds

/-- What an event asks for: its drafts can be redacted and belong to the task, the clock does not go
back, and what it makes has not been made before. -/
structure Admitted (event : FactEvent) : Prop where
  redactable : ∀ timed ∈ event.drafts, ∃ draft, timed.draft.redact = .ok draft
    ∧ (draft.scope = .task → draft.scopeId = event.taskId)
  later : ∀ record ∈ event.records.rows, ∀ timed ∈ event.drafts, record.createdAt ≤ timed.now
  clock : event.drafts.Pairwise fun earlier later => earlier.now ≤ later.now
  own : ∀ draft ∈ event.redacted, event.Settled draft.slotKey ∨ event.Fresh draft.slotKey
  distinct : event.Distinct

end FactEvent

/-- Whether a record is a fact of a key that was seen. -/
def SeenAs (seen : List (String × String × FactEpistemicStatus)) (record : MemoryRecord) : Prop :=
  ∃ status, (recordSlot record, (identityOf record).value, status) ∈ seen
    ∧ status.value = (identityOf record).status

/-- The state of a resolution in the middle of an event, before drafts of these times. -/
structure Resolving (event : FactEvent) (times : List Int) (resolution : FactResolution) : Prop where
  sound : Sound event.taskId resolution.records.rows
  active : ∀ slot record, resolution.active slot = some record
    ↔ record ∈ resolution.records.rows ∧ record.status = .active ∧ recordSlot record = slot
  known : ∀ record ∈ resolution.records.rows, event.Known (identityOf record)
  sources : ∀ record ∈ resolution.records.rows, ∀ id ∈ record.sourceIds, event.KnownSource id
  scopes : ∀ record ∈ resolution.records.rows, ∀ draft ∈ event.redacted,
    recordSlot record = draft.slotKey → record.scope = draft.scope ∧ record.scopeId = draft.scopeId
  own : ∀ record ∈ resolution.records.rows, event.Fresh (recordSlot record) →
    SeenAs resolution.seen record ∨ ∀ draft ∈ event.redacted,
      draft.slotKey = recordSlot record → event.sourceId draft ∉ record.sourceIds
  settled : ∀ slot, event.Settled slot → resolution.active slot = activeFact event.records slot
  earlier : ∀ record ∈ resolution.records.rows, ∀ time ∈ times, record.createdAt ≤ time

/-- The start of an event. -/
theorem Resolving.start {event : FactEvent} (hsound : Sound event.taskId event.records.rows)
    (hadmitted : event.Admitted) :
    Resolving event (event.drafts.map TimedDraft.now) (FactResolution.start event.records) where
  sound := hsound
  active _ _ := activeFact_eq_some hsound
  known record hmem := Or.inl ⟨record, hmem, rfl⟩
  sources record hmem id hid := Or.inl ⟨record, hmem, hid⟩
  scopes := hadmitted.distinct.records
  own record hmem hfresh := Or.inr (hfresh record hmem rfl)
  settled _ _ := rfl
  earlier record hmem time htime := by
    obtain ⟨timed, htimed, rfl⟩ := List.mem_map.mp htime
    exact hadmitted.later record hmem timed htimed

section Round

variable {event : FactEvent} {times : List Int} {resolution : FactResolution}

/-- The id of a fact that a draft makes is not in use, if its key was not seen. -/
theorem Resolving.candidate_new (hresolving : Resolving event times resolution)
    (hdistinct : event.Distinct) {draft : SemanticFactDraft} (hdraft : draft ∈ event.redacted)
    (hfresh : event.Fresh draft.slotKey)
    (hkey : (draft.slotKey, draft.normalizedValue, draft.epistemicStatus) ∉ resolution.seen)
    {sourceIds : List String} (hsource : event.sourceId draft ∈ sourceIds)
    (hknown : ∀ id ∈ sourceIds, event.KnownSource id) :
    ∀ record ∈ resolution.records.rows,
      record.id ≠ (draft.identity sourceIds).id event.taskId := by
  intro record hmem hid
  rw [(hresolving.sound.facts record hmem).id] at hid
  have hsame : identityOf record = draft.identity sourceIds :=
    hdistinct.ids _ _ (hresolving.known record hmem)
      (Or.inr ⟨draft, hdraft, sourceIds, hknown, rfl⟩) hid
  have hslot : recordSlot record = draft.slotKey := congrArg FactIdentity.slot hsame
  have hvalue : (identityOf record).value = draft.normalizedValue :=
    congrArg FactIdentity.value hsame
  have hsources : sortedTexts record.sourceIds = sortedTexts sourceIds :=
    congrArg FactIdentity.sources hsame
  rcases hresolving.own record hmem (hslot ▸ hfresh) with ⟨status, hseen, hstatus⟩ | hnone
  · rw [hsame] at hstatus
    obtain rfl := FactEpistemicStatus.value_injective hstatus
    rw [hslot, hvalue] at hseen
    exact hkey hseen
  · refine hnone draft hdraft hslot.symm ?_
    rw [← mem_sortedTexts, hsources, mem_sortedTexts]
    exact hsource

/-- A round that leaves the records and the active facts. -/
theorem Resolving.keep (hresolving : Resolving event times resolution) {next : FactResolution}
    (hrecords : next.records = resolution.records) (hactive : next.active = resolution.active)
    (hseen : resolution.seen ⊆ next.seen) : Resolving event times next := by
  obtain ⟨hsound, hactives, hknown, hsources, hscopes, hown, hsettled, hearlier⟩ := hresolving
  constructor
  · rwa [hrecords]
  · rwa [hrecords, hactive]
  · rwa [hrecords]
  · rwa [hrecords]
  · rwa [hrecords]
  · rw [hrecords]
    intro record hmem hfresh
    rcases hown record hmem hfresh with ⟨status, hkey, hstatus⟩ | hnone
    · exact Or.inl ⟨status, hseen hkey, hstatus⟩
    · exact Or.inr hnone
  · rwa [hactive]
  · rwa [hrecords]

/-- A round that makes a record. -/
theorem Resolving.grow {now : Int} (hresolving : Resolving event (now :: times) resolution)
    (hdistinct : event.Distinct) (hclock : ∀ time ∈ times, now ≤ time)
    {draft : SemanticFactDraft} (hdraft : draft ∈ event.redacted)
    (hunsettled : ¬ event.Settled draft.slotKey) {sourceIds : List String}
    (hknown : ∀ id ∈ sourceIds, event.KnownSource id) {next : FactResolution}
    (hsound : Sound event.taskId next.records.rows)
    (hrows : ∀ record ∈ next.records.rows, (∃ old ∈ resolution.records.rows, SameFact old record)
      ∨ MadeFrom draft sourceIds now record)
    (hactive : ∀ slot record, next.active slot = some record
      ↔ record ∈ next.records.rows ∧ record.status = .active ∧ recordSlot record = slot)
    (hothers : ∀ slot ≠ draft.slotKey, next.active slot = resolution.active slot)
    (hseen : resolution.seen ⊆ next.seen)
    (hkey : (draft.slotKey, draft.normalizedValue, draft.epistemicStatus) ∈ next.seen) :
    Resolving event times next := by
  constructor
  · exact hsound
  · exact hactive
  · intro record hmem
    rcases hrows record hmem with ⟨old, hold, hsame⟩ | hmade
    · rw [hsame.identity]
      exact hresolving.known old hold
    · rw [hmade.describes.identityOf, hmade.sourceIds]
      exact Or.inr ⟨draft, hdraft, sourceIds, hknown, rfl⟩
  · intro record hmem id hid
    rcases hrows record hmem with ⟨old, hold, hsame⟩ | hmade
    · rw [hsame.sourceIds] at hid
      exact hresolving.sources old hold id hid
    · rw [hmade.sourceIds] at hid
      exact hknown id hid
  · intro record hmem other hother hslot
    rcases hrows record hmem with ⟨old, hold, hsame⟩ | hmade
    · have hslotOld : recordSlot old = other.slotKey :=
        (congrArg FactIdentity.slot hsame.identity).symm.trans hslot
      rw [hsame.scope, hsame.scopeId]
      exact hresolving.scopes old hold other hother hslotOld
    · rw [hmade.scope, hmade.scopeId]
      exact hdistinct.drafts draft hdraft other hother (hmade.describes.slot.symm.trans hslot)
  · intro record hmem hfresh
    rcases hrows record hmem with ⟨old, hold, hsame⟩ | hmade
    · have hslot : recordSlot record = recordSlot old := congrArg FactIdentity.slot hsame.identity
      rw [hslot] at hfresh
      rcases hresolving.own old hold hfresh with ⟨status, hold', hstatus⟩ | hnone
      · refine Or.inl ⟨status, hseen ?_, ?_⟩
        · rw [hslot, hsame.identity]
          exact hold'
        · rw [hsame.identity]
          exact hstatus
      · rw [hslot, hsame.sourceIds]
        exact Or.inr hnone
    · refine Or.inl ⟨draft.epistemicStatus, ?_, ?_⟩
      · rw [hmade.describes.identityOf, hmade.describes.slot]
        exact hkey
      · rw [hmade.describes.identityOf]
        rfl
  · intro slot hsettled
    have hne : slot ≠ draft.slotKey := fun heq => hunsettled (heq ▸ hsettled)
    rw [hothers slot hne]
    exact hresolving.settled slot hsettled
  · intro record hmem time htime
    rcases hrows record hmem with ⟨old, hold, hsame⟩ | hmade
    · rw [hsame.createdAt]
      exact hresolving.earlier old hold time (List.mem_cons_of_mem now htime)
    · rw [hmade.createdAt]
      exact hclock time htime

theorem Resolving.keepLater {now : Int} (hresolving : Resolving event (now :: times) resolution) :
    Resolving event times resolution :=
  { hresolving with
    earlier := fun record hmem time htime =>
      hresolving.earlier record hmem time (List.mem_cons_of_mem now htime) }

/-- A round that makes the first fact of a slot. -/
theorem Resolving.create {now : Int} (hresolving : Resolving event (now :: times) resolution)
    (hdistinct : event.Distinct) (hclock : ∀ time ∈ times, now ≤ time)
    {draft : SemanticFactDraft} (hdraft : draft ∈ event.redacted)
    (hunsettled : ¬ event.Settled draft.slotKey) {sourceIds : List String}
    (hknown : ∀ id ∈ sourceIds, event.KnownSource id) {candidate : MemoryRecord}
    (hmade : Made event.taskId draft sourceIds now candidate)
    (hnew : ∀ record ∈ resolution.records.rows, record.id ≠ candidate.id)
    (hnone : resolution.active draft.slotKey = none)
    {seen : List (String × String × FactEpistemicStatus)} (hseen : resolution.seen ⊆ seen)
    (hkey : (draft.slotKey, draft.normalizedValue, draft.epistemicStatus) ∈ seen)
    (sources : Table MemorySource) :
    Resolving event times
      ({ resolution with seen, sources }.create draft.slotKey candidate) := by
  have hrows : (resolution.records.upsert candidate).rows = resolution.records.rows ++ [candidate] :=
    Table.rows_upsert_new (get?_eq_none hnew)
  have hslot : recordSlot candidate = draft.slotKey := hmade.from_.describes.slot
  refine hresolving.grow hdistinct hclock hdraft hunsettled hknown ?_ ?_ ?_ ?_ hseen hkey
  · change Sound event.taskId (resolution.records.upsert candidate).rows
    rw [hrows]
    refine hresolving.sound.append hnew hmade.fact hmade.first hmade.last ?_ ?_ ?_
    · rw [hmade.status]
      exact fun heq => by cases heq
    · intro _ record hmem hactive hsame
      have hfound := (hresolving.active draft.slotKey record).mpr
        ⟨hmem, hactive, hsame.trans hslot⟩
      rw [hnone] at hfound
      cases hfound
    · exact fun hconflict => absurd hmade.accepted hconflict
  · intro record hmem
    have hmem : record ∈ (resolution.records.upsert candidate).rows := hmem
    rw [hrows] at hmem
    rcases mem_rows_append hmem with hold | rfl
    · exact Or.inl ⟨record, hold, SameFact.rfl⟩
    · exact Or.inr hmade.from_
  · intro slot record
    change Function.update resolution.active draft.slotKey (some candidate) slot = some record
      ↔ record ∈ (resolution.records.upsert candidate).rows ∧ _
    rw [hrows]
    by_cases heq : slot = draft.slotKey
    · subst heq
      rw [Function.update_self]
      constructor
      · intro hsame
        obtain rfl := Option.some.inj hsame
        exact ⟨List.mem_append_right _ (List.mem_singleton.mpr rfl), hmade.status, hslot⟩
      · rintro ⟨hmem, hactive, hslotRecord⟩
        rcases mem_rows_append hmem with hold | rfl
        · have hfound := (hresolving.active _ record).mpr ⟨hold, hactive, hslotRecord⟩
          rw [hnone] at hfound
          cases hfound
        · rfl
    · rw [Function.update_of_ne heq, hresolving.active]
      constructor
      · exact fun ⟨hmem, hrest⟩ => ⟨List.mem_append_left _ hmem, hrest⟩
      · rintro ⟨hmem, hactive, hslotRecord⟩
        rcases mem_rows_append hmem with hold | rfl
        · exact ⟨hold, hactive, hslotRecord⟩
        · exact absurd (hslotRecord.symm.trans hslot) heq
  · exact fun slot hne => Function.update_of_ne hne _ _

/-- A round that rejects its fact. -/
theorem Resolving.reject {now : Int} (hresolving : Resolving event (now :: times) resolution)
    (hdistinct : event.Distinct) (hclock : ∀ time ∈ times, now ≤ time)
    {draft : SemanticFactDraft} (hdraft : draft ∈ event.redacted)
    (hunsettled : ¬ event.Settled draft.slotKey) {sourceIds : List String}
    (hknown : ∀ id ∈ sourceIds, event.KnownSource id) {candidate : MemoryRecord}
    (hok : factRecord event.taskId draft sourceIds now = .ok candidate)
    (hnew : ∀ record ∈ resolution.records.rows, record.id ≠ candidate.id) (current : MemoryRecord)
    {seen : List (String × String × FactEpistemicStatus)} (hseen : resolution.seen ⊆ seen)
    (hkey : (draft.slotKey, draft.normalizedValue, draft.epistemicStatus) ∈ seen)
    (sources : Table MemorySource) :
    Resolving event times
      ({ resolution with seen, sources }.reject (candidate.conflicting current)) := by
  have hmade := factRecord_made hok
  have hdescribes : Describes draft (candidate.conflicting current) := Describes.conflicting hok
  have hrows : (resolution.records.upsert (candidate.conflicting current)).rows
      = resolution.records.rows ++ [candidate.conflicting current] :=
    Table.rows_upsert_new (get?_eq_none hnew)
  refine hresolving.grow hdistinct hclock hdraft hunsettled hknown ?_ ?_ ?_ ?_ hseen hkey
  · change Sound event.taskId (resolution.records.upsert (candidate.conflicting current)).rows
    rw [hrows]
    refine hresolving.sound.append hnew ?_ hmade.first hmade.last ?_ ?_ ?_
    · refine ⟨hmade.fact.task, hdescribes.typed, ?_⟩
      rw [hdescribes.identityOf]
      exact hmade.id.trans (congrArg (fun ids => (draft.identity ids).id event.taskId)
        hmade.from_.sourceIds.symm)
    · exact fun heq => by cases heq
    · exact fun hactive => by cases hactive
    · exact fun _ => rfl
  · intro record hmem
    have hmem : record ∈ (resolution.records.upsert (candidate.conflicting current)).rows := hmem
    rw [hrows] at hmem
    rcases mem_rows_append hmem with hold | rfl
    · exact Or.inl ⟨record, hold, SameFact.rfl⟩
    · exact Or.inr ⟨hdescribes, hmade.from_.sourceIds, hmade.from_.scope, hmade.from_.scopeId,
        hmade.from_.createdAt⟩
  · intro slot record
    change resolution.active slot = some record
      ↔ record ∈ (resolution.records.upsert (candidate.conflicting current)).rows ∧ _
    rw [hrows, hresolving.active]
    constructor
    · exact fun ⟨hmem, hrest⟩ => ⟨List.mem_append_left _ hmem, hrest⟩
    · rintro ⟨hmem, hactive, hslotRecord⟩
      rcases mem_rows_append hmem with hold | rfl
      · exact ⟨hold, hactive, hslotRecord⟩
      · cases hactive
  · exact fun slot _ => rfl

/-- A round that puts its fact in the place of the active one. -/
theorem Resolving.supersede {now : Int} (hresolving : Resolving event (now :: times) resolution)
    (hdistinct : event.Distinct) (hclock : ∀ time ∈ times, now ≤ time)
    {draft : SemanticFactDraft} (hdraft : draft ∈ event.redacted)
    (hunsettled : ¬ event.Settled draft.slotKey) {sourceIds : List String}
    (hknown : ∀ id ∈ sourceIds, event.KnownSource id) {candidate : MemoryRecord}
    (hmade : Made event.taskId draft sourceIds now candidate)
    (hnew : ∀ record ∈ resolution.records.rows, record.id ≠ candidate.id) {current : MemoryRecord}
    (hcurrent : resolution.active draft.slotKey = some current)
    (hauthority : recordAuthority current ≤ draft.authority)
    {seen : List (String × String × FactEpistemicStatus)} (hseen : resolution.seen ⊆ seen)
    (hkey : (draft.slotKey, draft.normalizedValue, draft.epistemicStatus) ∈ seen)
    (sources : Table MemorySource) :
    validateSupersessionChain ((resolution.records.rows.filter
        (·.id ≠ (current.supersededBy candidate).id)) ++ [current.supersededBy candidate,
          { candidate with supersedesId := some (current.supersededBy candidate).id }]) = .ok ()
      ∧ Resolving event times ({ resolution with seen, sources }.supersede draft.slotKey
        (current.supersededBy candidate)
        { candidate with supersedesId := some (current.supersededBy candidate).id }) := by
  have hslot : recordSlot candidate = draft.slotKey := hmade.from_.describes.slot
  obtain ⟨hmemCurrent, hactiveCurrent, hslotCurrent⟩ :=
    (hresolving.active draft.slotKey current).mp hcurrent
  have hfollows : Follows current candidate := by
    obtain ⟨hscope, hscopeId⟩ := hresolving.scopes current hmemCurrent draft hdraft hslotCurrent
    have hfact := hresolving.sound.facts current hmemCurrent
    have hkind : current.kind = .semantic := by
      have htyped := hfact.typed
      simp only [isTypedSemanticRecord, decide_eq_true_eq] at htyped
      exact htyped.1
    constructor
    · exact hfact.task.trans hmade.fact.task.symm
    · exact hkind.trans hmade.kind.symm
    · exact hscope.trans hmade.from_.scope.symm
    · exact hscopeId.trans hmade.from_.scopeId.symm
    · rw [hmade.from_.createdAt]
      exact hresolving.earlier current hmemCurrent now List.mem_cons_self
    · exact hslotCurrent.trans hslot.symm
    · rw [hmade.from_.describes.authority]
      exact hauthority
  have hopen : current.supersededById = none := by
    by_contra hne
    have hsuperseded := (hresolving.sound.superseded current hmemCurrent).mpr hne
    rw [hactiveCurrent] at hsuperseded
    cases hsuperseded
  have hsound := hresolving.sound.supersede hmemCurrent hactiveCurrent hnew hmade.fact hmade.last
    hmade.status hfollows hmade.accepted
  have hrows := rows_supersede hmemCurrent hnew
  refine ⟨?_, ?_⟩
  · -- The validator sees the superseded record at the end.
    apply Linked.validate
    refine hresolving.sound.linked.supersede hmemCurrent hopen hnew hmade.last hfollows ?_ ?_
    · intro record
      simp only [List.mem_append, List.mem_filter, List.mem_cons, List.not_mem_nil, or_false,
        decide_eq_true_eq]
      constructor
      · rintro (⟨hold, hne⟩ | rfl | rfl)
        · exact Or.inr (Or.inr ⟨hold, hne⟩)
        · exact Or.inl rfl
        · exact Or.inr (Or.inl rfl)
      · rintro (rfl | rfl | ⟨hold, hne⟩)
        · exact Or.inr (Or.inl rfl)
        · exact Or.inr (Or.inr rfl)
        · exact Or.inl ⟨hold, hne⟩
    · rw [List.map_append, List.nodup_append]
      refine ⟨hresolving.sound.linked.nodup.sublist (List.filter_sublist.map _), ?_, ?_⟩
      · have hne : (current.supersededBy candidate).id ≠ candidate.id := hnew current hmemCurrent
        simpa using hne
      · intro id hid other hother
        obtain ⟨record, hrecord, rfl⟩ := List.mem_map.mp hid
        obtain ⟨hold, hne⟩ := List.mem_filter.mp hrecord
        simp only [List.map_cons, List.map_nil, List.mem_cons, List.not_mem_nil, or_false] at hother
        rcases hother with rfl | rfl
        · exact of_decide_eq_true hne
        · exact hnew record hold
  · refine hresolving.grow hdistinct hclock hdraft hunsettled hknown ?_ ?_ ?_ ?_ hseen hkey
    · change Sound event.taskId ((resolution.records.upsert (current.supersededBy candidate)).upsert
        { candidate with supersedesId := some current.id }).rows
      rw [hrows]
      exact hsound
    · intro record hmem
      have hmem : record ∈ ((resolution.records.upsert (current.supersededBy candidate)).upsert
        { candidate with supersedesId := some current.id }).rows := hmem
      rw [hrows] at hmem
      rcases (mem_withReplacement hmemCurrent).mp hmem with rfl | rfl | ⟨hold, -⟩
      · exact Or.inl ⟨current, hmemCurrent, rfl, rfl, rfl, rfl, rfl⟩
      · exact Or.inr ⟨hmade.from_.describes.of_same rfl rfl, hmade.from_.sourceIds,
          hmade.from_.scope, hmade.from_.scopeId, hmade.from_.createdAt⟩
      · exact Or.inl ⟨record, hold, SameFact.rfl⟩
    · intro slot record
      change Function.update resolution.active draft.slotKey
          (some { candidate with supersedesId := some current.id }) slot = some record
        ↔ record ∈ ((resolution.records.upsert (current.supersededBy candidate)).upsert
          { candidate with supersedesId := some current.id }).rows ∧ _
      rw [hrows, mem_withReplacement hmemCurrent]
      by_cases heq : slot = draft.slotKey
      · subst heq
        rw [Function.update_self]
        constructor
        · intro hsame
          obtain rfl := Option.some.inj hsame
          exact ⟨Or.inr (Or.inl rfl), hmade.status, hslot⟩
        · rintro ⟨rfl | rfl | ⟨hold, hne⟩, hactive, hslotRecord⟩
          · cases hactive
          · rfl
          · exact absurd (congrArg MemoryRecord.id (hresolving.sound.oneActive record hold current
              hmemCurrent hactive hactiveCurrent (hslotRecord.trans hslotCurrent.symm))) hne
      · rw [Function.update_of_ne heq, hresolving.active]
        constructor
        · rintro ⟨hold, hactive, hslotRecord⟩
          refine ⟨Or.inr (Or.inr ⟨hold, fun hid => ?_⟩), hactive, hslotRecord⟩
          rw [eq_of_id hresolving.sound.linked.nodup hold hmemCurrent hid] at hslotRecord
          exact heq (hslotRecord.symm.trans hslotCurrent)
        · rintro ⟨rfl | rfl | ⟨hold, hne⟩, hactive, hslotRecord⟩
          · cases hactive
          · exact absurd (hslotRecord.symm.trans hslot) heq
          · exact ⟨hold, hactive, hslotRecord⟩
    · exact fun slot hne => Function.update_of_ne hne _ _

/-- The sources that a draft brings to the active fact. -/
theorem Resolving.mergedSources (hresolving : Resolving event times resolution)
    {draft : SemanticFactDraft} (hdraft : draft ∈ event.redacted) {current : MemoryRecord}
    (hcurrent : current ∈ resolution.records.rows) :
    ∀ id ∈ sortedTexts (current.sourceIds ++ [event.sourceId draft]), event.KnownSource id := by
  intro id hid
  rw [mem_sortedTexts, List.mem_append, List.mem_singleton] at hid
  rcases hid with hold | rfl
  · exact hresolving.sources current hcurrent id hold
  · exact Or.inr ⟨draft, hdraft, rfl⟩

/-- The key by which a draft is known in an event. -/
def SemanticFactDraft.key (draft : SemanticFactDraft) : String × String × FactEpistemicStatus :=
  (draft.slotKey, draft.normalizedValue, draft.epistemicStatus)

section Branches

variable {taskId : String} {sourceOf : Option String → MemorySource}
  {raw draft : SemanticFactDraft} {now : Int}

theorem resolveDraft_seen (hraw : raw.redact = .ok draft) (hkey : draft.key ∈ resolution.seen) :
    resolution.resolveDraft taskId sourceOf raw now = .ok resolution.suppress := by
  unfold FactResolution.resolveDraft
  rw [hraw]
  exact if_pos hkey

theorem resolveDraft_same (hraw : raw.redact = .ok draft) (hkey : draft.key ∉ resolution.seen)
    {current : MemoryRecord} (hcurrent : resolution.active draft.slotKey = some current)
    (hvalue : current.get? "normalized_value" = some (.str draft.normalizedValue))
    (hauthority : draft.authority ≤ recordAuthority current) :
    resolution.resolveDraft taskId sourceOf raw now
      = .ok { resolution with seen := draft.key :: resolution.seen }.suppress := by
  unfold FactResolution.resolveDraft
  rw [hraw]
  refine (if_neg hkey).trans ?_
  simp only [hcurrent, Option.any_some, hvalue, Option.map_some, Option.getD_some, hauthority,
    decide_true, Bool.and_self, if_true]
  rfl

theorem resolveDraft_first (hraw : raw.redact = .ok draft) (hkey : draft.key ∉ resolution.seen)
    (hnone : resolution.active draft.slotKey = none) {candidate : MemoryRecord}
    (hok : factRecord taskId draft [(sourceOf draft.path).id] now = .ok candidate) :
    resolution.resolveDraft taskId sourceOf raw now
      = .ok ({ resolution with
          seen := draft.key :: resolution.seen
          sources := resolution.sources.upsert (sourceOf draft.path) }.create draft.slotKey
            candidate) := by
  unfold FactResolution.resolveDraft
  rw [hraw]
  refine (if_neg hkey).trans ?_
  simp only [hnone, Option.any_none, Bool.false_and, Option.map_none, Option.getD_none]
  rw [if_neg Bool.false_ne_true, hok]
  refine (if_neg ?_).trans rfl
  simp

theorem resolveDraft_contest (hraw : raw.redact = .ok draft) (hkey : draft.key ∉ resolution.seen)
    {current : MemoryRecord} (hcurrent : resolution.active draft.slotKey = some current)
    (hdiffers : ¬ (current.get? "normalized_value" = some (.str draft.normalizedValue)
      ∧ draft.authority ≤ recordAuthority current)) {candidate : MemoryRecord}
    (hok : factRecord taskId draft [(sourceOf draft.path).id] now = .ok candidate)
    (hnew : resolution.records.get? candidate.id = none) :
    resolution.resolveDraft taskId sourceOf raw now
      = FactResolution.contest { resolution with
          seen := draft.key :: resolution.seen
          sources := resolution.sources.upsert (sourceOf draft.path) } taskId draft
            (sourceOf draft.path) now current candidate
            (decide (current.get? "normalized_value" = some (.str draft.normalizedValue))) := by
  unfold FactResolution.resolveDraft
  rw [hraw]
  refine (if_neg hkey).trans ?_
  have hskip : ¬ (decide (current.get? "normalized_value" = some (.str draft.normalizedValue))
      && decide (draft.authority ≤ recordAuthority current)) = true := by
    rw [Bool.and_eq_true, decide_eq_true_eq, decide_eq_true_eq]
    exact hdiffers
  simp only [hcurrent, Option.any_some, Option.map_some, Option.getD_some]
  rw [if_neg hskip, hok]
  refine (if_neg ?_).trans rfl
  rw [hnew]
  simp

omit [Redactor] in
theorem contest_reject {source : MemorySource} {current candidate : MemoryRecord}
    (hauthority : ¬ recordAuthority current ≤ draft.authority) :
    resolution.contest taskId draft source now current candidate false
      = .ok (resolution.reject (candidate.conflicting current)) := by
  unfold FactResolution.contest
  rw [if_neg (by simpa using hauthority)]
  rfl

omit [Redactor] in
theorem contest_replace {source : MemorySource} {current candidate : MemoryRecord}
    (hauthority : recordAuthority current ≤ draft.authority)
    (hchain : validateSupersessionChain ((resolution.records.rows.filter
        (·.id ≠ (current.supersededBy candidate).id)) ++ [current.supersededBy candidate,
          { candidate with supersedesId := some (current.supersededBy candidate).id }]) = .ok ()) :
    resolution.contest taskId draft source now current candidate false
      = .ok (resolution.supersede draft.slotKey (current.supersededBy candidate)
        { candidate with supersedesId := some (current.supersededBy candidate).id }) := by
  unfold FactResolution.contest
  rw [if_pos (by simpa using hauthority)]
  simp only [Bool.false_eq_true, if_false]
  change (validateSupersessionChain _ >>= _) = _
  rw [hchain]
  rfl

omit [Redactor] in
theorem contest_merge {source : MemorySource} {current candidate merged : MemoryRecord}
    (hmerged : factRecord taskId draft (sortedTexts (current.sourceIds ++ [source.id])) now
      = .ok merged)
    (hchain : validateSupersessionChain ((resolution.records.rows.filter
        (·.id ≠ (current.supersededBy merged).id)) ++ [current.supersededBy merged,
          { merged with supersedesId := some (current.supersededBy merged).id }]) = .ok ()) :
    resolution.contest taskId draft source now current candidate true
      = .ok (resolution.supersede draft.slotKey (current.supersededBy merged)
        { merged with supersedesId := some (current.supersededBy merged).id }) := by
  unfold FactResolution.contest
  rw [if_pos (by simp)]
  simp only [if_true, hmerged]
  change (validateSupersessionChain _ >>= _) = _
  rw [hchain]
  rfl

theorem resolveAll_of_ok {timed : TimedDraft} {rest : List TimedDraft} {next : FactResolution}
    (hok : resolution.resolveDraft taskId sourceOf timed.draft timed.now = .ok next) :
    resolution.resolveAll taskId sourceOf (timed :: rest) = next.resolveAll taskId sourceOf rest := by
  unfold FactResolution.resolveAll
  generalize resolution.resolveDraft taskId sourceOf timed.draft timed.now = result at hok ⊢
  subst hok
  cases rest <;> rfl

end Branches

/-- A draft that says what the fact of its slot says is suppressed. -/
theorem Resolving.settledDraft {now : Int} (hresolving : Resolving event times resolution)
    {raw draft : SemanticFactDraft} (hraw : raw.redact = .ok draft)
    (hdraft : draft ∈ event.redacted) (hsettled : event.Settled draft.slotKey) :
    ∃ next, resolution.resolveDraft event.taskId event.sourceOf raw now = .ok next
      ∧ Resolving event times next := by
  obtain ⟨current, hcurrent, hsays⟩ := hsettled
  obtain ⟨hvalue, hauthority⟩ := hsays draft hdraft rfl
  have hactive : resolution.active draft.slotKey = some current :=
    (hresolving.settled _ ⟨current, hcurrent, hsays⟩).trans hcurrent
  by_cases hkey : draft.key ∈ resolution.seen
  · exact ⟨_, resolveDraft_seen hraw hkey, hresolving.keep rfl rfl fun _ => id⟩
  · refine ⟨_, resolveDraft_same hraw hkey hactive (get?_of_text? hvalue) hauthority, ?_⟩
    exact hresolving.keep rfl rfl fun _ => List.mem_cons_of_mem _

/-- A round goes through. -/
theorem Resolving.resolveDraft (hdigest : ∀ text, IsHexDigest (Sha256.hexdigest text))
    (htask : event.taskId ≠ "") (hadmitted : event.Admitted) {now : Int}
    (hresolving : Resolving event (now :: times) resolution) (hclock : ∀ time ∈ times, now ≤ time)
    {raw draft : SemanticFactDraft} (hraw : raw.redact = .ok draft)
    (hscope : draft.scope = .task → draft.scopeId = event.taskId)
    (hdraft : draft ∈ event.redacted) :
    ∃ next, resolution.resolveDraft event.taskId event.sourceOf raw now = .ok next
      ∧ Resolving event times next := by
  by_cases hsettled : event.Settled draft.slotKey
  · exact hresolving.keepLater.settledDraft hraw hdraft hsettled
  have hfresh : event.Fresh draft.slotKey := (hadmitted.own draft hdraft).resolve_left hsettled
  by_cases hkey : draft.key ∈ resolution.seen
  · exact ⟨_, resolveDraft_seen hraw hkey, hresolving.keepLater.keep rfl rfl fun _ => id⟩
  -- The candidate with the source of the draft alone.
  have hsource : ∀ id ∈ [event.sourceId draft], event.KnownSource id := by
    intro id hid
    rw [List.mem_singleton.mp hid]
    exact Or.inr ⟨draft, hdraft, rfl⟩
  obtain ⟨hash, hok⟩ := factRecord_ok hdigest htask hraw hscope (List.cons_ne_nil _ [])
    (List.nodup_singleton (event.sourceId draft)) now
  have hmade := factRecord_made hok
  have hnew := hresolving.candidate_new hadmitted.distinct hdraft hfresh hkey
    List.mem_cons_self hsource
  have hseen : resolution.seen ⊆ draft.key :: resolution.seen := fun _ => List.mem_cons_of_mem _
  cases hcurrent : resolution.active draft.slotKey with
  | none =>
      refine ⟨_, resolveDraft_first hraw hkey hcurrent hok, ?_⟩
      exact hresolving.create hadmitted.distinct hclock hdraft hsettled hsource hmade hnew hcurrent
        hseen List.mem_cons_self _
  | some current =>
      obtain ⟨hmemCurrent, -, -⟩ := (hresolving.active _ current).mp hcurrent
      by_cases hvalue : current.get? "normalized_value" = some (.str draft.normalizedValue)
      · by_cases hauthority : draft.authority ≤ recordAuthority current
        · refine ⟨_, resolveDraft_same hraw hkey hcurrent hvalue hauthority, ?_⟩
          exact hresolving.keepLater.keep rfl rfl hseen
        · -- The same value with more authority keeps the sources of the old fact.
          have hmergedSources := hresolving.mergedSources hdraft hmemCurrent
          have hmem : event.sourceId draft
              ∈ sortedTexts (current.sourceIds ++ [event.sourceId draft]) :=
            mem_sortedTexts.mpr (List.mem_append_right _ List.mem_cons_self)
          obtain ⟨hash', hmerged⟩ := factRecord_ok hdigest htask hraw hscope
            (List.ne_nil_of_mem hmem) (sortedTexts_nodup _) now
          have hmergedNew := hresolving.candidate_new hadmitted.distinct hdraft hfresh hkey hmem
            hmergedSources
          obtain ⟨hchain, hnext⟩ := hresolving.supersede hadmitted.distinct hclock hdraft hsettled
            hmergedSources (factRecord_made hmerged) hmergedNew hcurrent (not_le.mp hauthority).le
            hseen List.mem_cons_self (resolution.sources.upsert (event.sourceOf draft.path))
          refine ⟨_, ?_, hnext⟩
          rw [resolveDraft_contest hraw hkey hcurrent (fun hsame => hauthority hsame.2) hok
            (get?_eq_none hnew), decide_eq_true hvalue]
          exact contest_merge hmerged hchain
      · have hcontest := resolveDraft_contest hraw hkey hcurrent (fun hsame => hvalue hsame.1) hok
          (get?_eq_none hnew)
        rw [decide_eq_false hvalue] at hcontest
        by_cases hauthority : recordAuthority current ≤ draft.authority
        · obtain ⟨hchain, hnext⟩ := hresolving.supersede hadmitted.distinct hclock hdraft hsettled
            hsource hmade hnew hcurrent hauthority hseen List.mem_cons_self
            (resolution.sources.upsert (event.sourceOf draft.path))
          exact ⟨_, hcontest.trans (contest_replace hauthority hchain), hnext⟩
        · refine ⟨_, hcontest.trans (contest_reject hauthority), ?_⟩
          exact hresolving.reject hadmitted.distinct hclock hdraft hsettled hsource hok hnew current
            hseen List.mem_cons_self _

/-- The rounds of an event go through, one after the other. -/
theorem Resolving.resolveAll (hdigest : ∀ text, IsHexDigest (Sha256.hexdigest text))
    (htask : event.taskId ≠ "") (hadmitted : event.Admitted) {rest : List TimedDraft}
    (hrest : rest ⊆ event.drafts) (hclock : rest.Pairwise fun earlier later => earlier.now ≤ later.now)
    (hresolving : Resolving event (rest.map TimedDraft.now) resolution) :
    (resolution.resolveAll event.taskId event.sourceOf rest).2 = none
      ∧ Resolving event [] (resolution.resolveAll event.taskId event.sourceOf rest).1 := by
  induction rest generalizing resolution with
  | nil => exact ⟨rfl, hresolving⟩
  | cons timed rest ih =>
      obtain ⟨hlater, hclock⟩ := List.pairwise_cons.mp hclock
      obtain ⟨hmem, hrest⟩ := List.cons_subset.mp hrest
      obtain ⟨draft, hraw, hscope⟩ := hadmitted.redactable timed hmem
      have hdraft : draft ∈ event.redacted :=
        List.mem_filterMap.mpr ⟨timed, hmem, by rw [hraw]; rfl⟩
      have htimes : ∀ time ∈ rest.map TimedDraft.now, timed.now ≤ time := by
        intro time htime
        obtain ⟨other, hother, rfl⟩ := List.mem_map.mp htime
        exact hlater other hother
      obtain ⟨next, hok, hnext⟩ :=
        hresolving.resolveDraft hdigest htask hadmitted htimes hraw hscope hdraft
      rw [resolveAll_of_ok hok]
      exact ih hrest hclock hnext

end Round

/-- An event that asks for nothing else keeps the facts, and raises nothing. -/
theorem resolve_sound (hdigest : ∀ text, IsHexDigest (Sha256.hexdigest text)) {event : FactEvent}
    (htask : event.taskId ≠ "") (hsound : Sound event.taskId event.records.rows)
    (hadmitted : event.Admitted) :
    (resolve event.taskId event.records event.sourceOf event.drafts).2 = none
      ∧ Sound event.taskId
        (resolve event.taskId event.records event.sourceOf event.drafts).1.records.rows := by
  obtain ⟨hnone, hresolving⟩ := (Resolving.start hsound hadmitted).resolveAll hdigest htask hadmitted
    (List.Subset.refl _) hadmitted.clock
  exact ⟨hnone, hresolving.sound⟩

end Events

end PatchLoop
