import PatchLoop.Store.Rows

/-!
# What journalling does

An operation on a task journals into the task's session when it has one. The event takes the next
sequence number of the session, and no other table sees it.
-/

namespace PatchLoop

open Transaction

variable {s s' : Store} {now : Timestamp} {task : Task} {entry : Entry}

/-- What `_journal` checks before the event gets its place in the session. -/
structure Store.CanJournal (s : Store) (session : Session) (entry : Entry) : Prop where
  trace : entry.traceId ≠ some ""
  fresh : s.sessionEvents.get? entry.id = none
  next : ∀ other ∈ s.sessionEvents.rows,
    other.sessionId = session.id → other.sequence ≠ session.eventSequence + 1
  task : s.HasTask entry.taskId

/-- The database with one more event of a session, which is written back. -/
@[simps!] def Store.journaled (s : Store) (now : Timestamp) (session : Session) (entry : Entry) :
    Store :=
  (s.addSessionEvent (entry.event now session)).putSession
    { session with eventSequence := session.eventSequence + 1 }

/-- The second database is the first one after an entry that the session can take. -/
def Store.Journals (s : Store) (now : Timestamp) (session : Session) (s' : Store) : Prop :=
  ∃ entry : { entry // s.CanJournal session entry }, s' = s.journaled now session entry

@[simp] theorem journal_returns {session : Session} {event : SessionEvent} :
    (journal now session entry).Returns s event s'
      ↔ s.CanJournal session entry ∧ event = entry.event now session
        ∧ s' = s.journaled now session entry := by
  simp only [journal, bind_returns, raiseIf_returns, insertEvent_returns, writeSession_returns,
    pure_returns]
  constructor
  · rintro ⟨_, _, ⟨htrace, rfl⟩, _, _, ⟨hfresh, hnext, htask, rfl⟩, _, _, rfl, rfl, rfl⟩
    exact ⟨⟨htrace, hfresh, hnext, htask⟩, rfl, rfl⟩
  · rintro ⟨⟨htrace, hfresh, hnext, htask⟩, rfl, rfl⟩
    exact ⟨⟨⟩, _, ⟨htrace, rfl⟩, ⟨⟩, _, ⟨hfresh, hnext, htask, rfl⟩, ⟨⟩, _, rfl, rfl, rfl⟩

/-! ### Operations on a task -/

/-- The session of a task, when it has one and the row is there. -/
def Store.sessionOf (s : Store) (task : Task) : Option Session :=
  task.sessionId.bind fun sessionId => s.sessions.get? sessionId

/-- The database after the journal entry of an operation on a task. -/
@[simps] def Store.journaledFor (s : Store) (now : Timestamp) (task : Task) (entry : Entry) :
    Store :=
  { s with
    sessions := match s.sessionOf task with
      | none => s.sessions
      | some session => (s.journaled now session entry).sessions
    sessionEvents := match s.sessionOf task with
      | none => s.sessionEvents
      | some session => (s.journaled now session entry).sessionEvents }

theorem journaledFor_of_none (hnone : s.sessionOf task = none) :
    s.journaledFor now task entry = s := by
  rw [Store.journaledFor, hnone]

theorem journaledFor_of_some {session : Session} (hsome : s.sessionOf task = some session) :
    s.journaledFor now task entry = s.journaled now session entry := by
  rw [Store.journaledFor, hsome]
  rfl

/-- A session-bound task has its session row, and the entry can be journalled there. -/
def Store.CanJournalFor (s : Store) (task : Task) (entry : Entry) : Prop :=
  task.sessionId = none ∨ ∃ session, s.sessionOf task = some session ∧ s.CanJournal session entry

/-- The second database is the first one after an entry of an operation on the task. -/
def Store.JournalsFor (s : Store) (now : Timestamp) (task : Task) (s' : Store) : Prop :=
  ∃ entry : { entry // s.CanJournalFor task entry }, s' = s.journaledFor now task entry

@[simp] theorem journalTask_returns {event : Option SessionEvent} :
    (journalTask now task entry).Returns s event s'
      ↔ s.CanJournalFor task entry ∧ event = (s.sessionOf task).map (entry.event now)
        ∧ s' = s.journaledFor now task entry := by
  unfold journalTask Store.CanJournalFor
  cases htask : task.sessionId with
  | none =>
      have hnone : s.sessionOf task = none := by rw [Store.sessionOf, htask]; rfl
      simp [hnone, journaledFor_of_none]
  | some sessionId =>
      cases hrow : s.sessions.get? sessionId with
      | none => simp [Store.sessionOf, htask, hrow]
      | some session =>
          have hsome : s.sessionOf task = some session := by rw [Store.sessionOf, htask]; exact hrow
          simp [hrow, hsome, journaledFor_of_some]
          tauto

/-! ### Approvals -/

variable [Sha256]

/-- The entry that `_journal_approval` writes for an effect of this task. -/
def Approval.journalEntry (approval : Approval) (eventType taskId : String) : Entry where
  id := journalEventId eventType approval.id (toString approval.version)
  type := eventType
  taskId := some taskId
  data := .obj [("approval_id", .str approval.id), ("effect_id", .str approval.effectId),
    ("status", .str approval.status.value)]

/-- The task of the effect that an approval is for. -/
def Store.taskOfApproval (s : Store) (approval : Approval) : Option Task :=
  (s.effects.get? approval.effectId).bind fun effect => s.tasks.get? effect.taskId

/-- The database after the journal entry of an approval. -/
@[simps] def Store.journaledApproval (s : Store) (now : Timestamp) (approval : Approval)
    (eventType : String) : Store :=
  { s with
    sessions := match s.taskOfApproval approval with
      | none => s.sessions
      | some task => (s.journaledFor now task (approval.journalEntry eventType task.id)).sessions
    sessionEvents := match s.taskOfApproval approval with
      | none => s.sessionEvents
      | some task => (s.journaledFor now task (approval.journalEntry eventType task.id)).sessionEvents }

theorem journaledApproval_of_some {approval : Approval} {eventType : String}
    (hsome : s.taskOfApproval approval = some task) :
    s.journaledApproval now approval eventType
      = s.journaledFor now task (approval.journalEntry eventType task.id) := by
  rw [Store.journaledApproval, hsome]
  rfl

/-- The effect and the task of the approval load, and its entry can be journalled. -/
def Store.CanJournalApproval (s : Store) (approval : Approval) (eventType : String) : Prop :=
  ∃ effect task, s.LoadsEffect approval.effectId effect ∧ s.LoadsTask effect.taskId task
    ∧ s.CanJournalFor task (approval.journalEntry eventType task.id)

@[simp] theorem journalApproval_returns {approval : Approval} {eventType : String} {u : Unit} :
    (journalApproval now approval eventType).Returns s u s'
      ↔ s.CanJournalApproval approval eventType
        ∧ s' = s.journaledApproval now approval eventType := by
  have hrun : ∀ effect task, s.LoadsEffect approval.effectId effect →
      s.LoadsTask effect.taskId task →
        s.taskOfApproval approval = some task ∧ effect.id = approval.effectId := by
    intro effect task heffect htask
    exact ⟨by rw [Store.taskOfApproval, heffect.1]; exact htask.1, heffect.id_eq⟩
  simp only [journalApproval, bind_returns, requireEffect_returns, requireTask_returns,
    journalTask_returns, pure_returns]
  constructor
  · rintro ⟨effect, _, ⟨heffect, rfl⟩, task, _, ⟨htask, rfl⟩, _, _, ⟨hjournal, -, rfl⟩, -, rfl⟩
    obtain ⟨hsome, hid⟩ := hrun effect task heffect htask
    rw [hid] at hjournal ⊢
    exact ⟨⟨effect, task, heffect, htask, hjournal⟩, (journaledApproval_of_some hsome).symm⟩
  · rintro ⟨⟨effect, task, heffect, htask, hjournal⟩, rfl⟩
    obtain ⟨hsome, hid⟩ := hrun effect task heffect htask
    refine ⟨effect, _, ⟨heffect, rfl⟩, task, _, ⟨htask, rfl⟩, _, _, ⟨?_, rfl, rfl⟩, ⟨⟩, ?_⟩
    · rw [hid]
      exact hjournal
    · rw [hid]
      exact journaledApproval_of_some hsome

/-! ### Checkpoint cursors -/

/-- The database after the event cursor of a task's checkpoint has moved. -/
@[simps] def Store.advanced (s : Store) (now : Timestamp) (taskId : String) (sequence : Nat)
    (completedEffectId : Option String) : Store :=
  { s with
    checkpoints := match s.checkpoints.get? taskId with
      | none => s.checkpoints
      | some checkpoint =>
          s.checkpoints.upsert (checkpoint.advanced now sequence completedEffectId) }

omit [Sha256] in
@[simp] theorem advanceCheckpointEventCursor_returns {taskId : String} {sequence : Nat}
    {completedEffectId : Option String} {u : Unit} :
    (advanceCheckpointEventCursor now taskId sequence completedEffectId).Returns s u s'
      ↔ s' = s.advanced now taskId sequence completedEffectId := by
  simp only [advanceCheckpointEventCursor, bind_returns, get_returns, Store.advanced]
  cases hrow : s.checkpoints.get? taskId with
  | none => simp [hrow]
  | some checkpoint => simp [hrow, Store.upsertCheckpoint]

/-- The database after the journal entry of an effect and the cursor that follows it. -/
@[simps] def Store.journaledEffect (s : Store) (now : Timestamp) (task : Task) (entry : Entry)
    (completedEffectId : Option String) : Store :=
  { s.journaledFor now task entry with
    checkpoints := match s.sessionOf task with
      | none => s.checkpoints
      | some session =>
          (s.advanced now task.id (session.eventSequence + 1) completedEffectId).checkpoints }

omit [Sha256] in
@[simp] theorem journalEffect_returns {completedEffectId : Option String} {u : Unit} :
    (journalEffect now task entry completedEffectId).Returns s u s'
      ↔ s.CanJournalFor task entry
        ∧ s' = s.journaledEffect now task entry completedEffectId := by
  simp only [journalEffect, bind_returns, journalTask_returns]
  constructor
  · rintro ⟨_, _, ⟨hjournal, rfl, rfl⟩, hrest⟩
    refine ⟨hjournal, ?_⟩
    cases hsession : s.sessionOf task with
    | none => simpa [hsession, Store.journaledEffect, journaledFor_of_none] using hrest
    | some session =>
        simp only [hsession, Option.map_some, advanceCheckpointEventCursor_returns] at hrest
        rw [hrest, Store.journaledEffect, hsession]
        rfl
  · rintro ⟨hjournal, rfl⟩
    refine ⟨_, _, ⟨hjournal, rfl, rfl⟩, ?_⟩
    cases hsession : s.sessionOf task with
    | none => simp [Store.journaledEffect, journaledFor_of_none, hsession]
    | some session =>
        simp only [Option.map_some, advanceCheckpointEventCursor_returns]
        rw [Store.journaledEffect, hsession]
        rfl

end PatchLoop
