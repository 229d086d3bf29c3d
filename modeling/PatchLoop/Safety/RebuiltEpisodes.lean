import PatchLoop.Lib.Replay
import PatchLoop.Memory.Episodes
import PatchLoop.Safety.FactRuns
import PatchLoop.Safety.FailedActions

/-!
# Episodes from their records

A manager that takes up the records of another has its episodes, where no tool is named as checkpoints are
and the sources of each episode differ.
-/

namespace PatchLoop

open Replay

/-! ### References as JSON -/

theorem EpisodeOutcome.ofValue?_value (outcome : EpisodeOutcome) :
    EpisodeOutcome.ofValue? outcome.value = some outcome := by
  cases outcome <;> rfl

theorem ErrorKind.ofValue?_value (kind : ErrorKind) : ErrorKind.ofValue? kind.value = some kind := by
  cases kind <;> rfl

namespace EpisodeReference

theorem textsField_eq {raw : Json} {name : String} {texts : List String}
    (hraw : raw.get? name = some (.arr (texts.map Json.str))) : textsField raw name = .ok texts := by
  unfold textsField
  rw [hraw]
  clear hraw
  induction texts with
  | nil => rfl
  | cons text rest ih =>
      simp only [List.map_cons, List.mapM_cons] at ih ⊢
      rw [ih]
      rfl

theorem load_dump {reference : EpisodeReference} (hvalid : reference.validate = .ok reference) :
    load reference.dump = .ok reference := by
  have herror : errorField reference.dump = .ok reference.errorKind := by
    cases hkind : reference.errorKind with
    | none => simp [errorField, dump, Json.get?, hkind]
    | some kind => simp [errorField, dump, Json.get?, hkind, ErrorKind.ofValue?_value]
  have houtcome : outcomeField reference.dump = .ok reference.outcome := by
    simp [outcomeField, dump, Json.get?, EpisodeOutcome.ofValue?_value]
  have hpaths : textsField reference.dump "paths" = .ok reference.paths := textsField_eq rfl
  have hlinks : textsField reference.dump "recovers_episode_ids" = .ok reference.recoversEpisodeIds :=
    textsField_eq rfl
  have hstep : stepField reference.dump = .ok reference.stepIndex := rfl
  unfold load
  rw [herror, houtcome, hpaths, hlinks, hstep]
  exact hvalid

theorem toolName_of_load {raw : Json} {reference : EpisodeReference} (hload : load raw = .ok reference) :
    raw.get? "tool_name" = some (.str reference.toolName) := by
  unfold load at hload
  simp only [Except.bind_eq_ok_iff] at hload
  obtain ⟨fingerprint, -, error, -, id, -, intent, -, mutation, -, verification, -, observation, -,
    outcome, -, paths, -, phase, -, links, -, step, -, name, hname, hvalid⟩ := hload
  have hreference := congrArg EpisodeReference.toolName (validate_eq_ok hvalid)
  rw [hreference]
  unfold textField at hname
  split at hname
  · rename_i text htext
    rw [htext, Except.ok.inj hname]
  · cases hname

theorem id_of_validate {reference valid : EpisodeReference} (hok : reference.validate = .ok valid) :
    ValidMemoryId reference.id := by
  unfold validate at hok
  simp only [Except.bind_eq_ok_iff, requireThat_eq_ok] at hok
  obtain ⟨-, hid, -⟩ := hok
  exact hid

end EpisodeReference

/-! ### What is made of an episode -/

theorem isFingerprint_of_hexDigest {digest : String} (hdigest : IsHexDigest digest) :
    isFingerprint digest = true := by
  rw [isFingerprint, Bool.and_eq_true, decide_eq_true_eq, List.all_eq_true]
  refine ⟨hdigest.1, fun c hc => ?_⟩
  simpa [or_comm] using hdigest.2 c hc

theorem SourcePointer.validate_eq_ok {source valid : SourcePointer} (hok : source.validate = .ok valid) :
    valid = source := by
  unfold SourcePointer.validate at hok
  simp only [Except.bind_eq_ok_iff, Except.pure_eq_ok_iff] at hok
  obtain ⟨-, -, -, -, -, -, -, -, -, -, -, -, -, -, -, -, -, -, rfl⟩ := hok
  rfl

/-- A record that is taken for an episode. -/
def IsEpisode (record : MemoryRecord) : Prop :=
  record.kind = .episodic ∧ record.get? "episode_schema" = some (.str "1.0")
    ∧ ∃ fields, record.get? "reference" = some (.obj fields)

/-- Records that say the same of one episode, whatever else has become of them. -/
structure SameEpisode (record other : MemoryRecord) : Prop where
  id : record.id = other.id
  kind : record.kind = other.kind
  content : record.content = other.content
  createdAt : record.createdAt = other.createdAt

theorem SameEpisode.isEpisode {record other : MemoryRecord} (hsame : SameEpisode record other)
    (hepisode : IsEpisode other) : IsEpisode record := by
  unfold IsEpisode MemoryRecord.get? at hepisode ⊢
  rwa [hsame.kind, hsame.content]

theorem SameEpisode.map_createdAt {records others : List MemoryRecord}
    (hsame : List.Forall₂ SameEpisode records others) :
    records.map MemoryRecord.createdAt = others.map MemoryRecord.createdAt := by
  induction hsame with
  | nil => rfl
  | cons hfirst _ ih => rw [List.map_cons, List.map_cons, hfirst.createdAt, ih]

/-- The records that are kept are those that have been returned, in any order and whatever their status is by
now, and others that are no episodes. -/
def Holds (stored returned : List MemoryRecord) : Prop :=
  ∃ versions others, stored.Perm (versions ++ others) ∧ List.Forall₂ SameEpisode versions returned
    ∧ ∀ record ∈ others, ¬ IsEpisode record

namespace EpisodicMemoryManager

variable [Redactor] [Sha256]

/-- The episode of an event, before its checks. -/
def episodeOf (manager : EpisodicMemoryManager) : EpisodeEvent → EpisodeReference
  | .tool event => manager.referenceOf event
  | .checkpoint event => manager.checkpointReference event

/-- The manager with the episode of an event. -/
def applied (manager : EpisodicMemoryManager) : EpisodeEvent → EpisodicMemoryManager
  | .tool event => manager.applyReference (manager.referenceOf event) event.call.id
  | .checkpoint event => manager.applyCheckpoint (manager.checkpointReference event)

/-- An event of which nothing is recorded. -/
def IsNew (manager : EpisodicMemoryManager) : EpisodeEvent → Prop
  | .tool event => event.call.id ∉ manager.recordedCallIds
  | .checkpoint event => event.stepIndex ∉ manager.recordedCheckpointSteps

/-- An event that is recorded: it is new, and its episode passes its checks. -/
def Takes (manager : EpisodicMemoryManager) (event : EpisodeEvent) : Prop :=
  manager.IsNew event ∧ (manager.episodeOf event).validate = .ok (manager.episodeOf event)

/-- The ids of the sources of an event. -/
def sourceIds (manager : EpisodicMemoryManager) (event : EpisodeEvent) : List String :=
  (sourcesOf manager.taskId event (manager.episodeOf event) 0).map SourcePointer.id

/-- An event whose episode can be told from its record: where it is recorded, it is no call of a tool that is
named as checkpoints are, and its sources have ids of their own. -/
def Rebuildable (manager : EpisodicMemoryManager) (event : EpisodeEvent) : Prop :=
  manager.Takes event →
    (∀ tool, event = .tool tool → tool.call.name ≠ "checkpoint") ∧ (manager.sourceIds event).Nodup

/-- The manager after an event at its time, with the record it returns. -/
def returnRecord (manager : EpisodicMemoryManager) (input : EpisodeEvent × Int) :
    EpisodicMemoryManager × Option MemoryRecord :=
  let observed := manager.observe input.1 input.2
  (observed.1, observed.2.toOption.bind (·.map EpisodeWrite.record))

theorem record_of_takes {manager : EpisodicMemoryManager} {event : EpisodeEvent}
    (htakes : manager.Takes event) :
    manager.record event = .ok (some (manager.applied event, manager.episodeOf event)) := by
  obtain ⟨hnew, hvalid⟩ := htakes
  cases event with
  | tool event =>
      rw [record, observeTool, if_neg hnew]
      exact Except.bind_eq_ok_iff.mpr ⟨_, hvalid, rfl⟩
  | checkpoint event =>
      rw [record, if_neg hnew]
      exact Except.bind_eq_ok_iff.mpr ⟨_, hvalid, rfl⟩

theorem returnRecord_of_not_takes {manager : EpisodicMemoryManager} {event : EpisodeEvent}
    (hnot : ¬ manager.Takes event) (now : Int) : manager.returnRecord (event, now) = (manager, none) := by
  have hrefused : manager.IsNew event → ∃ e, (manager.episodeOf event).validate = .error e := by
    intro hnew
    cases hvalid : (manager.episodeOf event).validate with
    | error e => exact ⟨e, rfl⟩
    | ok valid =>
        rw [EpisodeReference.validate_eq_ok hvalid] at hvalid
        exact absurd ⟨hnew, hvalid⟩ hnot
  have hrecord : manager.record event = .ok none ∨ ∃ e, manager.record event = .error e := by
    by_cases hnew : manager.IsNew event
    · right
      obtain ⟨e, herror⟩ := hrefused hnew
      refine ⟨e, ?_⟩
      cases event with
      | tool event =>
          rw [record, observeTool, if_neg hnew]
          exact congrArg (· >>= _) herror
      | checkpoint event =>
          rw [record, if_neg hnew]
          exact congrArg (· >>= _) herror
    · left
      cases event with
      | tool event => exact if_pos (not_not.mp hnew)
      | checkpoint event => exact if_pos (not_not.mp hnew)
  unfold returnRecord observe
  rcases hrecord with hnone | ⟨e, herror⟩
  · rw [hnone]
    rfl
  · rw [herror]
    rfl

section Writing

variable {taskId : String} {event : EpisodeEvent} {reference : EpisodeReference} {now : Int}

theorem sourcesOf_ids (time : Int) :
    (sourcesOf taskId event reference now).map SourcePointer.id
      = (sourcesOf taskId event reference time).map SourcePointer.id := by
  cases event with
  | tool event => simp only [sourcesOf, toolSources, List.map_map]; rfl
  | checkpoint event => simp only [sourcesOf, checkpointSources, List.map_map]; rfl

theorem sourcesOf_ne_nil : sourcesOf taskId event reference now ≠ [] := by
  have hpaths : sourcePaths reference.paths ≠ [] := by
    unfold sourcePaths
    split
    · exact List.cons_ne_nil _ _
    · rename_i hne
      simpa using hne
  cases event with
  | tool event => simpa [sourcesOf, toolSources] using hpaths
  | checkpoint event => simpa [sourcesOf, checkpointSources] using hpaths

theorem sourcesOf_valid (hdigest : ∀ text, IsHexDigest (Sha256.hexdigest text)) (htask : taskId ≠ "") :
    (sourcesOf taskId event reference now).mapM SourcePointer.validate
      = .ok (sourcesOf taskId event reference now) := by
  have hhash : ∀ json, isFingerprint (hashPayload json) = true := fun json =>
    isFingerprint_of_hexDigest (hdigest _)
  have hvalid : ∀ source ∈ sourcesOf taskId event reference now, source.validate = .ok source := by
    intro source hsource
    cases event with
    | tool event =>
        obtain ⟨path, -, rfl⟩ := List.mem_map.mp hsource
        have hid := validMemoryId_stableId hdigest "episode-source" (by decide) (by decide)
          [taskId, event.call.id, pathText path]
        simp [SourcePointer.validate, requireThat, SourcePointer.locator, hid, htask, hhash]
        rfl
    | checkpoint event =>
        obtain ⟨path, -, rfl⟩ := List.mem_map.mp hsource
        have hid := validMemoryId_stableId hdigest "episode-checkpoint-source" (by decide)
          (by decide) [checkpointId taskId reference.stepIndex, pathText path]
        simp [SourcePointer.validate, requireThat, SourcePointer.locator, hid, htask, hhash]
        rfl
  generalize sourcesOf taskId event reference now = sources at hvalid
  induction sources with
  | nil => rfl
  | cons source rest ih =>
      rw [List.mapM_cons, hvalid source List.mem_cons_self,
        ih fun other hother => hvalid other (List.mem_cons_of_mem _ hother)]
      rfl

omit [Redactor] [Sha256] in
theorem retrievalOf_ne_empty : retrievalOf reference ≠ "" := by
  unfold retrievalOf
  simp only [ne_eq, String.append_eq_empty_iff, and_assoc, not_and]
  exact fun hstart => absurd hstart (by decide)

omit [Redactor] [Sha256] in
theorem importanceOf_range (outcome : EpisodeOutcome) :
    0 ≤ importanceOf outcome ∧ importanceOf outcome ≤ 1 := by
  cases outcome <;> norm_num [importanceOf]

omit [Redactor] in
/-- What passes the checks of a record of an episode: its sources have ids of their own. -/
theorem recordOf_checked {sourceIds : List String} {callId : Option String} (htask : taskId ≠ "")
    (hid : ValidMemoryId reference.id) (hsome : sourceIds ≠ []) :
    (recordOf taskId reference sourceIds callId now).Checked ↔ sourceIds.Nodup := by
  refine ⟨fun hchecked => hchecked.sources, fun hnodup => ?_⟩
  exact {
    id := hid
    taskId := htask
    scopeId := htask
    content := List.cons_ne_nil _ _
    retrievalText := retrievalOf_ne_empty
    importance := importanceOf_range _
    confidence := ⟨zero_le_one, le_rfl⟩
    taskScope := fun _ => rfl
    workingScope := fun _ => rfl
    someSource := fun _ => hsome
    sources := hnodup
    supersession := by simp [recordOf]
    superseded := by simp [recordOf]
    notSuperseded := fun _ => rfl
    notDerived := List.not_mem_nil
    derived := List.nodup_nil
    uncompressed := fun _ => rfl
    compressed := by simp [recordOf]
    neverRecalled := fun _ => ⟨rfl, rfl⟩
    recalled := by simp [recordOf]
    contentHash := Or.inl rfl }

/-- The record of an event's episode, before its checks. -/
def draftOf (taskId : String) (event : EpisodeEvent) (reference : EpisodeReference) (now : Int) :
    MemoryRecord :=
  recordOf taskId reference ((sourcesOf taskId event reference now).map SourcePointer.id) event.callId now

/-- The record of an event's episode. -/
def hashedOf (taskId : String) (event : EpisodeEvent) (reference : EpisodeReference) (now : Int) :
    MemoryRecord :=
  { draftOf taskId event reference now with
    contentHash := (draftOf taskId event reference now).computeContentHash }

/-- A record is written where the sources have ids of their own. -/
theorem write_eq (hdigest : ∀ text, IsHexDigest (Sha256.hexdigest text)) (htask : taskId ≠ "")
    (hid : ValidMemoryId reference.id) :
    (write taskId event reference now).toOption.map EpisodeWrite.record
      = if ((sourcesOf taskId event reference 0).map SourcePointer.id).Nodup then
          some (hashedOf taskId event reference now)
        else none := by
  have hsome : (sourcesOf taskId event reference now).map SourcePointer.id ≠ [] := by
    simpa using sourcesOf_ne_nil
  have hchecked : (draftOf taskId event reference now).Checked
      ↔ ((sourcesOf taskId event reference 0).map SourcePointer.id).Nodup := by
    rw [sourcesOf_ids now]
    exact recordOf_checked htask hid hsome
  have hwrite : write taskId event reference now
      = (do
        let record ← (draftOf taskId event reference now).validateRecord
        return { sources := sourcesOf taskId event reference now, record, reference }) := by
    rw [write, sourcesOf_valid hdigest htask]
    rfl
  rw [hwrite]
  split
  · rename_i hnodup
    rw [MemoryRecord.validateRecord_eq_ok.mpr ⟨hchecked.mpr hnodup, rfl⟩]
    rfl
  · rename_i hsame
    cases hrecord : (draftOf taskId event reference now).validateRecord with
    | error e => rfl
    | ok valid => exact absurd (hchecked.mp (MemoryRecord.validateRecord_eq_ok.mp hrecord).1) hsame

end Writing

/-- An event that is recorded is applied, and its record is returned where its sources have ids of their
own. -/
theorem returnRecord_of_takes (hdigest : ∀ text, IsHexDigest (Sha256.hexdigest text))
    {manager : EpisodicMemoryManager} (htask : manager.taskId ≠ "") {event : EpisodeEvent}
    (htakes : manager.Takes event) (now : Int) :
    manager.returnRecord (event, now) = (manager.applied event,
      if (manager.sourceIds event).Nodup then
        some (hashedOf manager.taskId event (manager.episodeOf event) now)
      else none) := by
  have hid := EpisodeReference.id_of_validate htakes.2
  have hobserve : manager.observe event now
      = (manager.applied event, some <$> write manager.taskId event (manager.episodeOf event) now) := by
    rw [observe, record_of_takes htakes]
  rw [returnRecord, hobserve]
  refine Prod.ext rfl (Eq.trans ?_ (write_eq hdigest htask hid))
  cases write manager.taskId event (manager.episodeOf event) now with
  | error e => rfl
  | ok made => rfl

/-! ### Taking up what is written -/

section Restoring

variable {manager : EpisodicMemoryManager} {record : MemoryRecord} {reference : EpisodeReference}
  {callId : Option String}

omit [Redactor] [Sha256] in
theorem text?_callId (hcontent : record.content = contentOf reference callId) :
    record.text? "call_id" = callId := by
  unfold MemoryRecord.text? MemoryRecord.get?
  rw [hcontent]
  cases callId with
  | none => rfl
  | some id => rfl

omit [Redactor] [Sha256] in
theorem reference?_toolName (hcontent : record.content = contentOf reference callId) :
    record.reference? "tool_name" = some (.str reference.toolName) := by
  unfold MemoryRecord.reference? MemoryRecord.get?
  rw [hcontent]
  rfl

omit [Redactor] [Sha256] in
/-- What is made of a record of an episode. -/
theorem restoreRecord_written (hkind : record.kind = .episodic)
    (hcontent : record.content = contentOf reference callId) (hvalid : reference.validate = .ok reference) :
    restoreRecord manager record = .ok (manager.restoreReference reference callId) := by
  have hschema : record.get? "episode_schema" = some (.str "1.0") := by
    rw [MemoryRecord.get?, hcontent]
    rfl
  have hreference : record.get? "reference" = some reference.dump := by
    rw [MemoryRecord.get?, hcontent]
    rfl
  have hload := EpisodeReference.load_dump hvalid
  unfold restoreRecord
  rw [if_neg (not_not.mpr hkind), if_neg (not_not.mpr hschema), hreference, text?_callId hcontent]
  unfold EpisodeReference.dump at hload ⊢
  simp only [hload]
  rfl

end Restoring

/-- A step that can be told from its record leaves one that says where it went. -/
theorem faithful_of_rebuildable (hdigest : ∀ text, IsHexDigest (Sha256.hexdigest text))
    {manager : EpisodicMemoryManager} (htask : manager.taskId ≠ "") {event : EpisodeEvent} {now : Int}
    (hrebuildable : manager.Rebuildable event) :
    Faithful returnRecord restoreRecord manager (event, now) := by
  unfold Faithful
  by_cases htakes : manager.Takes event
  · obtain ⟨hname, hnodup⟩ := hrebuildable htakes
    obtain ⟨hnew, hvalid⟩ := htakes
    rw [advance, returnRecord_of_takes hdigest htask ⟨hnew, hvalid⟩, if_pos hnodup]
    refine (restoreRecord_written rfl rfl hvalid).trans (congrArg Except.ok ?_)
    unfold restoreReference
    cases event with
    | tool event =>
        have hnot : event.call.id ∉ manager.recordedCallIds := hnew
        have hnone : ¬ (some event.call.id).any (· ∈ manager.recordedCallIds) = true := by simpa using hnot
        rw [EpisodeEvent.callId, if_neg hnone, if_neg]
        · rfl
        · exact hname event rfl
    | checkpoint event =>
        have hname : (manager.episodeOf (.checkpoint event)).toolName = "checkpoint" := rfl
        rw [EpisodeEvent.callId, if_neg (by simp), if_pos hname, if_neg]
        · rfl
        · exact hnew
  · rw [advance, returnRecord_of_not_takes htakes]

/-! ### Counting -/

omit [Redactor] [Sha256] in
/-- How many records are taken for those of checkpoints. -/
def checkpointsIn (records : List MemoryRecord) : Nat :=
  records.countP fun record => record.reference? "tool_name" = some (.str "checkpoint")

/-- The episodes of which a manager has returned no record, or the records that are wrongly taken for those of
checkpoints, are not fewer than a number. -/
def Trails (missing : Nat) (returned : List MemoryRecord) (manager : EpisodicMemoryManager) : Prop :=
  returned.length < manager.episodeCount
    ∨ (returned.length = manager.episodeCount
      ∧ manager.recordedCheckpointSteps.length + missing ≤ checkpointsIn returned)

omit [Redactor] [Sha256] in
theorem checkpointsIn_append (records : List MemoryRecord) {record : MemoryRecord}
    {reference : EpisodeReference} (hname : record.reference? "tool_name" = some (.str reference.toolName)) :
    checkpointsIn (records ++ [record])
      = checkpointsIn records + if reference.toolName = "checkpoint" then 1 else 0 := by
  rw [checkpointsIn, checkpointsIn, List.countP_append, List.countP_singleton, hname]
  simp

theorem applied_episodeCount (manager : EpisodicMemoryManager) (event : EpisodeEvent) :
    (manager.applied event).episodeCount = manager.episodeCount + 1 := by
  cases event <;> rfl

theorem applied_tool_steps (manager : EpisodicMemoryManager) (event : ToolEvent) :
    (manager.applied (.tool event)).recordedCheckpointSteps = manager.recordedCheckpointSteps := by
  rw [applied, applyReference]

theorem applied_checkpoint_steps (manager : EpisodicMemoryManager) (event : CheckpointEvent) :
    (manager.applied (.checkpoint event)).recordedCheckpointSteps
      = manager.recordedCheckpointSteps ++ [event.stepIndex] := by
  rw [applied, applyCheckpoint, applyReference]
  rfl

theorem Trails.step (hdigest : ∀ text, IsHexDigest (Sha256.hexdigest text)) {missing : Nat}
    {returned : List MemoryRecord} {manager : EpisodicMemoryManager} (htask : manager.taskId ≠ "")
    (input : EpisodeEvent × Int) (htrails : Trails missing returned manager) :
    Trails missing (returned ++ (manager.returnRecord input).2.toList) (advance returnRecord manager input) := by
  obtain ⟨event, now⟩ := input
  by_cases htakes : manager.Takes event
  · rw [advance, returnRecord_of_takes hdigest htask htakes]
    unfold Trails at htrails ⊢
    rw [applied_episodeCount]
    split
    · have hcontent : (hashedOf manager.taskId event (manager.episodeOf event) now).content
          = contentOf (manager.episodeOf event) event.callId := by rw [hashedOf, draftOf, recordOf]
      have hcount := checkpointsIn_append returned (reference?_toolName hcontent)
      rw [Option.toList_some, hcount, List.length_append, List.length_singleton]
      cases event with
      | tool event =>
          rw [applied_tool_steps]
          omega
      | checkpoint event =>
          have hname : (manager.episodeOf (.checkpoint event)).toolName = "checkpoint" := rfl
          rw [if_pos hname, applied_checkpoint_steps, List.length_append, List.length_singleton]
          omega
    · rw [Option.toList_none, List.append_nil]
      omega
  · rw [advance, returnRecord_of_not_takes htakes]
    simpa using htrails

/-- An event that cannot be told from its record. -/
theorem Trails.step_lost (hdigest : ∀ text, IsHexDigest (Sha256.hexdigest text))
    {returned : List MemoryRecord} {manager : EpisodicMemoryManager} (htask : manager.taskId ≠ "")
    {input : EpisodeEvent × Int} (hlost : ¬ manager.Rebuildable input.1) (htrails : Trails 0 returned manager) :
    Trails 1 (returned ++ (manager.returnRecord input).2.toList) (advance returnRecord manager input) := by
  obtain ⟨event, now⟩ := input
  unfold Rebuildable at hlost
  rw [Classical.not_imp] at hlost
  obtain ⟨htakes, hlost⟩ := hlost
  rw [advance, returnRecord_of_takes hdigest htask htakes]
  unfold Trails at htrails ⊢
  rw [applied_episodeCount]
  split
  · rename_i hnodup
    have htool : ∃ tool, event = .tool tool ∧ tool.call.name = "checkpoint" := by
      by_contra hnone
      exact hlost ⟨fun tool heq hname => hnone ⟨tool, heq, hname⟩, hnodup⟩
    obtain ⟨tool, rfl, hcheckpoint⟩ := htool
    have hname : (manager.episodeOf (.tool tool)).toolName = "checkpoint" := hcheckpoint
    have hcontent : (hashedOf manager.taskId (.tool tool) (manager.episodeOf (.tool tool)) now).content
        = contentOf (manager.episodeOf (.tool tool)) (EpisodeEvent.tool tool).callId := by
      rw [hashedOf, draftOf, recordOf]
    have hcount := checkpointsIn_append returned (reference?_toolName hcontent)
    rw [Option.toList_some, hcount, if_pos hname, List.length_append, List.length_singleton,
      applied_tool_steps]
    omega
  · rw [Option.toList_none, List.append_nil]
    omega

/-- A manager that takes up records has no more episodes than there are records, and where it has as many, the
steps of as many checkpoints as there are records that are taken for them. -/
def Behind (records : List MemoryRecord) (manager : EpisodicMemoryManager) : Prop :=
  manager.episodeCount ≤ records.length
    ∧ (manager.episodeCount = records.length →
      manager.recordedCheckpointSteps.length = checkpointsIn records)

omit [Redactor] [Sha256] in
theorem Behind.step {records : List MemoryRecord} {manager next : EpisodicMemoryManager}
    {record : MemoryRecord} (hbehind : Behind records manager)
    (hok : restoreRecord manager record = .ok next) : Behind (records ++ [record]) next := by
  obtain ⟨hle, hsteps⟩ := hbehind
  have hskipped : Behind (records ++ [record]) manager := by
    refine ⟨?_, fun heq => ?_⟩
    · rw [List.length_append, List.length_singleton]
      omega
    · rw [List.length_append, List.length_singleton] at heq
      omega
  unfold restoreRecord at hok
  split at hok
  · cases hok
    exact hskipped
  split at hok
  · cases hok
    exact hskipped
  split at hok
  · rename_i fields hfields
    obtain ⟨reference, hload, hok⟩ := Except.bind_eq_ok_iff.mp hok
    have hname : record.reference? "tool_name" = some (.str reference.toolName) := by
      rw [MemoryRecord.reference?, hfields]
      exact EpisodeReference.toolName_of_load hload
    obtain rfl := Except.pure_eq_ok_iff.mp hok
    have hcount := checkpointsIn_append records hname
    unfold restoreReference
    split
    · exact hskipped
    split
    · rename_i hcheckpoint
      split
      · exact hskipped
      · rw [if_pos hcheckpoint] at hcount
        refine ⟨?_, fun heq => ?_⟩
        · rw [List.length_append, List.length_singleton]
          exact Nat.succ_le_succ hle
        · rw [List.length_append, List.length_singleton] at heq
          rw [hcount, ← hsteps (Nat.succ.inj heq)]
          exact List.length_append
    · rename_i hcheckpoint
      rw [if_neg hcheckpoint] at hcount
      refine ⟨?_, fun heq => ?_⟩
      · rw [List.length_append, List.length_singleton]
        exact Nat.succ_le_succ hle
      · rw [List.length_append, List.length_singleton] at heq
        rw [hcount, ← hsteps (Nat.succ.inj heq)]
        rfl
  · cases hok
    exact hskipped

/-! ### Records that are kept -/

omit [Redactor] [Sha256] in
theorem restoreRecord_of_not_episode (manager : EpisodicMemoryManager) {record : MemoryRecord}
    (hnot : ¬ IsEpisode record) : restoreRecord manager record = .ok manager := by
  unfold restoreRecord
  split
  · rfl
  rename_i hkind
  split
  · rfl
  rename_i hschema
  split
  · rename_i fields hfields
    exact absurd ⟨not_not.mp hkind, not_not.mp hschema, fields, hfields⟩ hnot
  · rfl

omit [Redactor] [Sha256] in
theorem restoreRecord_congr (manager : EpisodicMemoryManager) {record other : MemoryRecord}
    (hsame : SameEpisode record other) : restoreRecord manager record = restoreRecord manager other := by
  unfold restoreRecord MemoryRecord.text? MemoryRecord.get?
  rw [hsame.kind, hsame.content]

omit [Redactor] [Sha256] in
/-- The order in which records are kept does not matter, nor what stands among them. -/
theorem restore_of_holds {taskId goal : String} {stored returned : List MemoryRecord}
    (hholds : Holds stored returned) (hepisodes : ∀ record ∈ returned, IsEpisode record)
    (htimes : returned.Pairwise fun first second => first.createdAt < second.createdAt) :
    restore taskId goal stored = returned.foldlM restoreRecord (fresh taskId goal) := by
  classical
  obtain ⟨versions, others, hperm, hversions, hothers⟩ := hholds
  have hversionTimes := SameEpisode.map_createdAt hversions
  have hepisodeVersions : ∀ version ∈ versions, IsEpisode version := by
    intro version hversion
    obtain ⟨record, hrecord, hsame⟩ := Sequence.exists_of_forall₂ hversions hversion
    exact hsame.isEpisode (hepisodes record hrecord)
  have hsorted : versions.Pairwise fun first second => recordOrder first < recordOrder second := by
    rw [← List.pairwise_map (f := MemoryRecord.createdAt) (R := (· < ·)), ← hversionTimes,
      List.pairwise_map] at htimes
    exact htimes.imp fun hlt => Prod.Lex.toLex_lt_toLex.mpr (Or.inl hlt)
  unfold restore
  rw [← foldlM_filter (p := IsEpisode) fun s record => restoreRecord_of_not_episode s,
    filter_sortBy hperm hepisodeVersions hothers hsorted]
  exact foldlM_congr hversions fun s _ _ hsame => restoreRecord_congr s hsame

/-! ### Runs -/

theorem advance_of_takes {manager : EpisodicMemoryManager} {event : EpisodeEvent}
    (htakes : manager.Takes event) (now : Int) :
    advance returnRecord manager (event, now) = manager.applied event := by
  have hobserve : (manager.observe event now).1 = manager.applied event := by
    rw [observe, record_of_takes htakes]
  exact hobserve

theorem advance_taskId (manager : EpisodicMemoryManager) (input : EpisodeEvent × Int) :
    (advance returnRecord manager input).taskId = manager.taskId := by
  obtain ⟨event, now⟩ := input
  by_cases htakes : manager.Takes event
  · rw [advance_of_takes htakes]
    cases event with
    | tool event => rw [applied, applyReference_taskId]
    | checkpoint event => rw [applied, applyCheckpoint, applyReference_taskId]
  · rw [advance, returnRecord_of_not_takes htakes]

theorem after_returned_taskId (manager : EpisodicMemoryManager) (inputs : List (EpisodeEvent × Int)) :
    (Run.after (advance returnRecord) manager inputs).taskId = manager.taskId :=
  Run.preserved_after (fun later => later.taskId = manager.taskId)
    (fun later input htask => (advance_taskId later input).trans htask) inputs rfl

section Returned

variable {manager : EpisodicMemoryManager} {inputs : List (EpisodeEvent × Int)}

/-- Every record that is returned is taken for an episode. -/
theorem log_isEpisode (hdigest : ∀ text, IsHexDigest (Sha256.hexdigest text)) (htask : manager.taskId ≠ "")
    (inputs : List (EpisodeEvent × Int)) :
    ∀ record ∈ log returnRecord manager inputs, IsEpisode record := by
  refine (invariant_log returnRecord
    (fun returned later => later.taskId = manager.taskId ∧ ∀ record ∈ returned, IsEpisode record) ?_ inputs
    [] ⟨rfl, fun record hrecord => by cases hrecord⟩).2
  rintro returned later ⟨event, now⟩ ⟨hlater, hepisodes⟩
  refine ⟨(advance_taskId later _).trans hlater, fun record hrecord => ?_⟩
  rcases List.mem_append.mp hrecord with hrecord | hrecord
  · exact hepisodes record hrecord
  by_cases htakes : later.Takes event
  · rw [returnRecord_of_takes hdigest (hlater ▸ htask) htakes] at hrecord
    split at hrecord
    · rw [Option.toList_some, List.mem_singleton] at hrecord
      rw [hrecord]
      exact ⟨rfl, rfl, _, rfl⟩
    · cases hrecord
  · rw [returnRecord_of_not_takes htakes] at hrecord
    cases hrecord

theorem write_createdAt {taskId : String} {event : EpisodeEvent} {reference : EpisodeReference} {now : Int}
    {made : EpisodeWrite} (hok : write taskId event reference now = .ok made) :
    made.record.createdAt = now := by
  unfold write at hok
  obtain ⟨sources, -, hok⟩ := Except.bind_eq_ok_iff.mp hok
  obtain ⟨record, hrecord, hok⟩ := Except.bind_eq_ok_iff.mp hok
  obtain ⟨-, rfl⟩ := MemoryRecord.validateRecord_eq_ok.mp hrecord
  obtain rfl := Except.pure_eq_ok_iff.mp hok
  rfl

/-- A record is created at the time of its event. -/
theorem observe_createdAt {manager : EpisodicMemoryManager} {event : EpisodeEvent} {now : Int}
    {made : EpisodeWrite} (hok : (manager.observe event now).2 = .ok (some made)) :
    made.record.createdAt = now := by
  unfold observe at hok
  split at hok
  · cases hok
  · cases hok
  · obtain ⟨write, hwrite, hmade⟩ := Except.map_eq_ok_iff.mp hok
    obtain rfl := Option.some.inj hmade
    exact write_createdAt hwrite

theorem returnRecord_createdAt {manager : EpisodicMemoryManager} {input : EpisodeEvent × Int}
    {record : MemoryRecord} (hrecord : (manager.returnRecord input).2 = some record) :
    record.createdAt = input.2 := by
  obtain ⟨made, hmade, hrecord⟩ := Option.bind_eq_some_iff.mp hrecord
  obtain ⟨write, rfl, rfl⟩ := Option.map_eq_some_iff.mp hrecord
  exact observe_createdAt (Except.toOption_eq_some.mp hmade)

/-- Where no two events are of one time, no two records are, and they are returned as they were created. -/
theorem log_createdAt (htimes : inputs.Pairwise fun first second => first.2 < second.2) :
    (log returnRecord manager inputs).Pairwise fun first second => first.createdAt < second.createdAt := by
  have hsublist : ((log returnRecord manager inputs).map MemoryRecord.createdAt).Sublist (inputs.map Prod.snd) :=
    log_map_sublist (fun _ _ _ hrecord => returnRecord_createdAt hrecord) manager inputs
  exact List.pairwise_map.mp ((List.pairwise_map.mpr htimes).sublist hsublist)

theorem trails_log (hdigest : ∀ text, IsHexDigest (Sha256.hexdigest text)) (htask : manager.taskId ≠ "")
    {missing : Nat} {returned : List MemoryRecord} (htrails : Trails missing returned manager)
    (inputs : List (EpisodeEvent × Int)) :
    Trails missing (returned ++ log returnRecord manager inputs)
      (Run.after (advance returnRecord) manager inputs) := by
  refine (invariant_log returnRecord
    (fun returned later => later.taskId = manager.taskId ∧ Trails missing returned later) ?_ inputs
    returned ⟨rfl, htrails⟩).2
  rintro returned later input ⟨hlater, htrails⟩
  exact ⟨(advance_taskId later input).trans hlater, htrails.step hdigest (hlater ▸ htask) input⟩

/-- A manager with an event that cannot be told from its record has more to it than its records say. -/
theorem trails_lost (hdigest : ∀ text, IsHexDigest (Sha256.hexdigest text)) (htask : manager.taskId ≠ "")
    (hstart : Trails 0 [] manager)
    (hlost : ¬ Run.EveryStep (advance returnRecord) (fun later input => later.Rebuildable input.1)
      manager inputs) :
    Trails 1 (log returnRecord manager inputs) (Run.after (advance returnRecord) manager inputs) := by
  obtain ⟨earlier, input, later, rfl, hinput⟩ : ∃ earlier input later,
      inputs = earlier ++ input :: later
        ∧ ¬ (Run.after (advance returnRecord) manager earlier).Rebuildable input.1 := by
    by_contra hnone
    refine hlost (Run.everyStep_of_splits fun earlier input later heq => ?_)
    by_contra hinput
    exact hnone ⟨earlier, input, later, heq, hinput⟩
  have hbefore := trails_log hdigest htask hstart earlier
  have hnow : (Run.after (advance returnRecord) manager earlier).taskId ≠ "" := by
    rwa [after_returned_taskId]
  have hnext := hbefore.step_lost hdigest hnow hinput
  have hafter := trails_log hdigest (by rwa [advance_taskId]) hnext later
  rw [log_append, log, Run.after_append, Run.after_cons]
  simpa using hafter

end Returned

/-! ### Rebuilding -/

/-- A manager that takes up the records another one has returned has the snapshot of that one exactly where
every event could be told from its record. -/
theorem rebuilt_iff (hdigest : ∀ text, IsHexDigest (Sha256.hexdigest text)) {taskId : String}
    (htask : taskId ≠ "") (goal : String) (events : List (EpisodeEvent × Int)) {stored : List MemoryRecord}
    (htimes : (log returnRecord (fresh taskId goal) events).Pairwise
      fun first second => first.createdAt < second.createdAt)
    (hholds : Holds stored (log returnRecord (fresh taskId goal) events)) :
    (restore taskId goal stored).map snapshotOf
        = .ok (Run.after (advance returnRecord) (fresh taskId goal) events).snapshotOf
      ↔ Run.EveryStep (advance returnRecord) (fun manager input => manager.Rebuildable input.1)
          (fresh taskId goal) events := by
  have hepisodes : ∀ record ∈ log returnRecord (fresh taskId goal) events, IsEpisode record :=
    log_isEpisode hdigest htask events
  rw [restore_of_holds hholds hepisodes htimes]
  constructor
  · intro hsame
    by_contra hlost
    have htrails := trails_lost hdigest htask (Or.inr ⟨rfl, le_rfl⟩) hlost
    obtain ⟨restored, hrestored, hsnapshot⟩ := Except.map_eq_ok_iff.mp hsame
    have hbehind := invariant_foldlM restoreRecord Behind
      (fun _ _ _ _ hbehind hok => hbehind.step hok) [] ⟨le_rfl, fun _ => rfl⟩ hrestored
    rw [List.nil_append] at hbehind
    obtain ⟨hle, hsteps⟩ := hbehind
    have hcount := congrArg EpisodicMemorySnapshot.episodeCount hsnapshot
    have hcheckpoints := congrArg (List.length ∘ EpisodicMemorySnapshot.recordedCheckpointSteps) hsnapshot
    simp only [snapshotOf, Function.comp_apply] at hcount hcheckpoints
    rcases htrails with hfew | ⟨hall, hmore⟩
    · omega
    · have := hsteps (hcount.trans hall.symm)
      omega
  · intro hrun
    have hfaithful : Run.EveryStep (advance returnRecord) (Faithful returnRecord restoreRecord)
        (fresh taskId goal) events := by
      refine Run.everyStep_of_splits fun earlier input later heq => ?_
      rw [heq] at hrun
      exact faithful_of_rebuildable hdigest (by rwa [after_returned_taskId]) hrun.at
    rw [foldlM_log hfaithful]
    rfl

end EpisodicMemoryManager

/-! ### What stands among the records -/

/-- A summary of compressed records is no episode. -/
theorem summaryRecord_not_episode [MemoryText] [Redactor] [Sha256] {taskId : String} {group : CompressionGroup}
    {sources : List MemorySource} {summary : MemoryRecord}
    (hok : summaryRecord taskId group sources = .ok summary) : ¬ IsEpisode summary := by
  obtain ⟨shared, hshared, hok⟩ := Except.bind_eq_ok_iff.mp hok
  obtain ⟨-, rfl⟩ := MemoryRecord.validateRecord_eq_ok.mp hok
  rintro ⟨hkind, hschema, -⟩
  by_cases hsemantic : group.records.any (·.kind ≠ .semantic) = true
  · rw [sharedSemanticFields, if_pos hsemantic] at hshared
    obtain rfl := Except.pure_eq_ok_iff.mp hshared
    have hnone : (Json.obj (ownContent group sources)).get? "episode_schema" = none := rfl
    have hsome : some (Json.str "1.0") = none := hschema.symm.trans hnone
    cases hsome
  · have hfirst : group.first.kind = .semantic := by
      have hall := List.any_eq_false.mp (Bool.eq_false_iff.mpr hsemantic)
      simpa using hall group.first (List.head_mem _)
    have hepisodic : group.first.kind = .episodic := hkind
    rw [hfirst] at hepisodic
    cases hepisodic

section Samples

open EpisodicMemoryManager

local instance rebuiltEpisodesDigest : Sha256 := Sample.hexDigest

local instance rebuiltEpisodesAlphabet : Alphabet := ⟨fun _ => false⟩

local instance rebuiltEpisodesRedactor : Redactor := secretRedactor

/-- A failure, a checkpoint and a verification that recovers it. -/
def Sample.recoveredRun : List (EpisodeEvent × Int) := [
  (.tool Sample.patchFails, 1),
  (.checkpoint { stepIndex := 0, changedPaths := ["a.py", "b.py"] }, 2),
  (.tool {
    call := { id := "call-2", name := "run_tests", arguments := .obj [] }
    result := { callId := "call-2", toolName := "run_tests", success := true }
    stepIndex := 1
    changedPaths := ["b.py"] }, 3)]

/-- An episode that working memory promotes. -/
def Sample.promoted : MemoryRecord where
  id := "wm-episode-1"
  taskId := "task"
  kind := .episodic
  scopeId := "task"
  content := [("actions", .arr []), ("evidence", .arr []), ("intent", .str "fix a.py"),
    ("outcome", .str "completed")]
  retrievalText := "Completed phase fix a.py; actions: "
  sourceIds := ["wm-source-1"]
  createdAt := 2

theorem rebuilt_recovery :
    let returned := log returnRecord (fresh "task" "goal") Sample.recoveredRun
    (restore "task" "goal" (Sample.promoted :: returned.reverse)).map snapshotOf
      = .ok (Run.after (advance returnRecord) (fresh "task" "goal") Sample.recoveredRun).snapshotOf := by
  intro returned
  have hholds : Holds (Sample.promoted :: returned.reverse) returned := by
    refine ⟨returned, [Sample.promoted], ?_, List.forall₂_same.mpr fun _ _ => ⟨rfl, rfl, rfl, rfl⟩, ?_⟩
    · exact ((List.reverse_perm returned).cons _).trans (List.perm_append_singleton _ _).symm
    · rintro record hrecord ⟨-, hschema, -⟩
      rw [List.mem_singleton.mp hrecord] at hschema
      exact absurd hschema (by decide)
  refine (rebuilt_iff Sample.isHexDigest (by decide) "goal" Sample.recoveredRun
    (log_createdAt (by decide)) hholds).mpr ⟨fun _ => ⟨?_, ?_⟩, fun _ => ⟨?_, ?_⟩, fun _ => ⟨?_, ?_⟩, trivial⟩
  · rintro tool ⟨⟩
    decide
  · rw [factRunsDigest, Sample.hexDigest_eq]
    decide +kernel
  · rintro tool ⟨⟩
  · rw [factRunsDigest, Sample.hexDigest_eq]
    decide +kernel
  · rintro tool ⟨⟩
    decide
  · rw [factRunsDigest, Sample.hexDigest_eq]
    decide +kernel

/-- A call of a tool that does not exist. -/
def Sample.checkpointCall : ToolEvent where
  call := { id := "call-1", name := "checkpoint", arguments := .obj [] }
  result := {
    callId := "call-1"
    toolName := "checkpoint"
    success := false
    output := "unknown tool"
    errorKind := some .unknownTool }

theorem lost_checkpoint_call :
    let events : List (EpisodeEvent × Int) := [(.tool Sample.checkpointCall, 1)]
    let returned := log returnRecord (fresh "task" "goal") events
    returned.length = 1
      ∧ Redactor.redactText Sample.checkpointCall.result.output = Sample.checkpointCall.result.output
      ∧ (restore "task" "goal" returned).map snapshotOf
        ≠ .ok (Run.after (advance returnRecord) (fresh "task" "goal") events).snapshotOf := by
  rw [rebuiltEpisodesDigest, Sample.hexDigest_eq]
  decide +kernel

end Samples

end PatchLoop
