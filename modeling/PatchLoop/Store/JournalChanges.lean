import PatchLoop.Store.Frame

/-!
# How the journal grows

What the operations do to sessions and events, said once: they leave both alone, insert a session,
write one with the count that its row has, or add an event in the next place of its session. So
sessions are never removed, no event count is set back, and every new event counts in its session.
-/

namespace PatchLoop

open Transaction

/-- Every event belongs to a session that has counted it. -/
def Store.JournalCounted (s : Store) : Prop :=
  ∀ event ∈ s.sessionEvents.rows, ∃ session, s.sessions.get? event.sessionId = some session
    ∧ event.sequence ≤ session.eventSequence

/-- The writes of the journal by which one database becomes another. The sessions that are inserted
and those that take the place of a row meet the conditions, and no event has the id of the one that is
added. -/
inductive Store.JournalPath (created : Session → Prop) (moved : Session → Session → Prop) :
    Store → Store → Prop
  | same {s s' : Store} (hsessions : s'.sessions = s.sessions)
      (hevents : s'.sessionEvents = s.sessionEvents) : JournalPath created moved s s'
  | trans {s s' s'' : Store} (hfirst : JournalPath created moved s s')
      (hsecond : JournalPath created moved s' s'') : JournalPath created moved s s''
  | addSession {s : Store} {session : Session} (hnew : s.sessions.get? session.id = none)
      (hcreated : created session) : JournalPath created moved s (s.addSession session)
  | putSession {s : Store} {session : Session} (row : Session)
      (hrow : s.sessions.get? session.id = some row)
      (hcount : session.eventSequence = row.eventSequence) (hmoved : moved row session) :
      JournalPath created moved s (s.putSession session)
  | addEvent {s : Store} {session : Session} {event : SessionEvent} (row : Session)
      (hrow : s.sessions.get? session.id = some row)
      (hnext : session.eventSequence = row.eventSequence + 1) (hid : event.sessionId = session.id)
      (hsequence : event.sequence = session.eventSequence)
      (hfresh : s.sessionEvents.get? event.id = none) (hmoved : moved row session) :
      JournalPath created moved s ((s.addSessionEvent event).putSession session)

/-- The sessions are still there and have counted at least as many events; an event was there, or its
session has counted it. -/
structure Store.JournalGrows (s s' : Store) : Prop where
  sessions : ∀ id session, s.sessions.get? id = some session →
    ∃ session', s'.sessions.get? id = some session' ∧ session.eventSequence ≤ session'.eventSequence
  events : ∀ event ∈ s'.sessionEvents.rows, event ∈ s.sessionEvents.rows
    ∨ ∃ session, s'.sessions.get? event.sessionId = some session
      ∧ event.sequence ≤ session.eventSequence

namespace Store.JournalGrows

variable {s s' s'' : Store} {session : Session}

theorem counted (hgrows : s.JournalGrows s') (hcounted : s.JournalCounted) : s'.JournalCounted := by
  intro event hevent
  rcases hgrows.events event hevent with hold | hnew
  · obtain ⟨session, hsession, hle⟩ := hcounted event hold
    obtain ⟨session', hsession', hle'⟩ := hgrows.sessions _ _ hsession
    exact ⟨session', hsession', Nat.le_trans hle hle'⟩
  · exact hnew

theorem hasSession (hgrows : s.JournalGrows s') {reference : Option String}
    (hsession : s.HasSession reference) : s'.HasSession reference := by
  cases reference with
  | none => rfl
  | some id =>
      obtain ⟨session, hrow⟩ : ∃ session, s.sessions.get? id = some session := by
        simpa [Store.HasSession, Option.isSome_iff_exists] using hsession
      obtain ⟨session', hrow', -⟩ := hgrows.sessions id session hrow
      simp [Store.HasSession, hrow']

theorem trans (hfirst : s.JournalGrows s') (hsecond : s'.JournalGrows s'') : s.JournalGrows s'' where
  sessions id session hrow := by
    obtain ⟨session', hrow', hle⟩ := hfirst.sessions id session hrow
    obtain ⟨session'', hrow'', hle'⟩ := hsecond.sessions id session' hrow'
    exact ⟨session'', hrow'', Nat.le_trans hle hle'⟩
  events event hevent := by
    rcases hsecond.events event hevent with hold | hnew
    · rcases hfirst.events event hold with hold | ⟨session, hrow, hle⟩
      · exact Or.inl hold
      · obtain ⟨session', hrow', hle'⟩ := hsecond.sessions _ _ hrow
        exact Or.inr ⟨session', hrow', Nat.le_trans hle hle'⟩
    · exact Or.inr hnew

/-- What other tables hold does not matter. -/
theorem of_same (hsessions : s'.sessions = s.sessions) (hevents : s'.sessionEvents = s.sessionEvents) :
    s.JournalGrows s' where
  sessions id session hrow := ⟨session, by rw [hsessions]; exact hrow, Nat.le_refl _⟩
  events event hevent := Or.inl (hevents ▸ hevent)

theorem of_addSession (hnew : s.sessions.get? session.id = none) :
    s.JournalGrows (s.addSession session) where
  sessions id old hrow := by
    have hget : (s.addSession session).sessions.get? id
        = if id = session.id then some session else s.sessions.get? id :=
      Table.get?_insert session hnew id
    rw [hget]
    by_cases hid : id = session.id
    · rw [hid] at hrow
      cases hnew.symm.trans hrow
    · exact ⟨old, by rw [if_neg hid]; exact hrow, Nat.le_refl _⟩
  events event hevent := Or.inl hevent

theorem of_putSession (row : Session) (hrow : s.sessions.get? session.id = some row)
    (hle : row.eventSequence ≤ session.eventSequence) : s.JournalGrows (s.putSession session) where
  sessions id old hold := by
    have hget : (s.putSession session).sessions.get? id
        = if id = session.id then some session else s.sessions.get? id :=
      Table.get?_set_row hrow id rfl
    rw [hget]
    by_cases hid : id = session.id
    · rw [hid, hrow] at hold
      cases hold
      exact ⟨session, if_pos hid, hle⟩
    · exact ⟨old, by rw [if_neg hid]; exact hold, Nat.le_refl _⟩
  events event hevent := Or.inl hevent

theorem of_addEvent {event : SessionEvent} (row : Session)
    (hrow : s.sessions.get? session.id = some row)
    (hnext : session.eventSequence = row.eventSequence + 1) (hid : event.sessionId = session.id)
    (hsequence : event.sequence = session.eventSequence)
    (hfresh : s.sessionEvents.get? event.id = none) :
    s.JournalGrows ((s.addSessionEvent event).putSession session) where
  sessions := (of_putSession row hrow (by omega)).sessions
  events other hother := by
    change other ∈ (s.sessionEvents.insert event).rows at hother
    rw [Table.rows_insert hfresh, List.mem_append, List.mem_singleton] at hother
    rcases hother with hold | rfl
    · exact Or.inl hold
    · refine Or.inr ⟨session, ?_, Nat.le_of_eq hsequence⟩
      rw [hid]
      exact Table.get?_set_self hrow

theorem of_path {created : Session → Prop} {moved : Session → Session → Prop} (hpath : Store.JournalPath created moved s s') :
    s.JournalGrows s' := by
  induction hpath with
  | same hsessions hevents => exact of_same hsessions hevents
  | trans hfirst hsecond ihfirst ihsecond => exact ihfirst.trans ihsecond
  | addSession hnew hcreated => exact of_addSession hnew
  | putSession row hrow hcount hmoved => exact of_putSession row hrow (Nat.le_of_eq hcount.symm)
  | addEvent row hrow hnext hid hsequence hfresh hmoved =>
      exact of_addEvent row hrow hnext hid hsequence hfresh

end Store.JournalGrows

/-! ### Journalling -/

namespace Store.JournalPath

variable {s s' : Store} {now : Timestamp} {session : Session} {entry : Entry}
  {created : Session → Prop} {moved : Session → Session → Prop}

theorem mono {moves : Session → Session → Prop} (hpath : JournalPath created moved s s')
    (hmoves : ∀ row session, moved row session → moves row session) :
    JournalPath created moves s s' := by
  induction hpath with
  | same hsessions hevents => exact .same hsessions hevents
  | trans hfirst hsecond ihfirst ihsecond => exact .trans ihfirst ihsecond
  | addSession hnew hcreated => exact .addSession hnew hcreated
  | putSession row hrow hcount hmoved => exact .putSession row hrow hcount (hmoves _ _ hmoved)
  | addEvent row hrow hnext hid hsequence hfresh hmoved =>
      exact .addEvent row hrow hnext hid hsequence hfresh (hmoves _ _ hmoved)

/-- Writes of other tables come before the path. -/
theorem after {t : Store} (hpath : JournalPath created moved t s') (hsessions : t.sessions = s.sessions)
    (hevents : t.sessionEvents = s.sessionEvents) : JournalPath created moved s s' :=
  .trans (.same hsessions hevents) hpath

theorem of_journaled (row : Session) (hrow : s.sessions.get? session.id = some row)
    (hcount : session.eventSequence = row.eventSequence) (hcan : s.CanJournal session entry)
    (hmoved : moved row { session with eventSequence := session.eventSequence + 1 }) :
    JournalPath created moved s (s.journaled now session entry) := by
  refine .addEvent row hrow ?_ rfl rfl hcan.fresh hmoved
  rw [hcount]

variable (hkept : ∀ (row : Session) (count : Nat), moved row { row with eventSequence := count })
include hkept

/-- A session that is journalled in as its row has it. -/
theorem of_journaled_row {id : String} (hrow : s.sessions.get? id = some session)
    (hcan : s.CanJournal session entry) : JournalPath created moved s (s.journaled now session entry) :=
  of_journaled session (Table.get?_of_mem (Table.mem_of_get? hrow)) rfl hcan (hkept _ _)

theorem of_journaledFor {task : Task} (hcan : s.CanJournalFor task entry) :
    JournalPath created moved s (s.journaledFor now task entry) := by
  obtain hfree | ⟨session, hsession, hcan⟩ := hcan
  · rw [journaledFor_of_none (by rw [Store.sessionOf, hfree]; rfl)]
    exact .same rfl rfl
  · rw [journaledFor_of_some hsession]
    obtain ⟨id, -, hrow⟩ := Option.bind_eq_some_iff.mp hsession
    exact of_journaled_row hkept hrow hcan

theorem of_journaledEffect {task : Task} {completedEffectId : Option String}
    (hcan : s.CanJournalFor task entry) :
    JournalPath created moved s (s.journaledEffect now task entry completedEffectId) :=
  (of_journaledFor hkept hcan).trans (.same rfl rfl)

variable [Sha256]

theorem of_journaledApproval {approval : Approval} {eventType : String}
    (hcan : s.CanJournalApproval approval eventType) :
    JournalPath created moved s (s.journaledApproval now approval eventType) := by
  obtain ⟨effect, task, heffect, htask, hcan⟩ := hcan
  have hsome : s.taskOfApproval approval = some task := by
    rw [Store.taskOfApproval, heffect.1]
    exact htask.1
  rw [journaledApproval_of_some hsome]
  exact of_journaledFor hkept hcan

theorem of_approvalConsumed {current : Effect} {task : Task} {consumed : Option Approval}
    (hcan : s.CanJournalClaim now current task consumed) :
    JournalPath created moved s
      ((s.putEffect (current.claimed consumed.isSome)).approvalConsumed now consumed) := by
  cases consumed with
  | none => exact .same rfl rfl
  | some approval => exact after (of_journaledApproval hkept (hcan.1 approval rfl)) rfl rfl

theorem of_claimed {current : Effect} {task : Task} {consumed : Option Approval}
    (hcan : s.CanJournalClaim now current task consumed) :
    JournalPath created moved s (s.claimed now current task consumed) :=
  (of_approvalConsumed hkept hcan).trans (of_journaledFor hkept hcan.2)

theorem of_journaledResolution {task : Task} {disposition : RecoveryDisposition}
    (hleft : ∀ (row : Session) (count : Nat),
      moved row { row.withoutActive task.id with eventSequence := count })
    (hcan : s.CanJournalResolution task disposition) :
    JournalPath created moved s (s.journaledResolution now task disposition) := by
  obtain hfree | ⟨session, hsession, hcan⟩ := hcan
  · have hnone : s.resolutionSession task disposition = none := by
      rw [Store.resolutionSession, Store.sessionOf, hfree]
      rfl
    refine .same ?_ ?_
    · simp only [Store.journaledResolution, hnone]
    · simp only [Store.journaledResolution, hnone]
  · have hpath : JournalPath created moved s (s.journaled now session (disposition.entry task.id)) := by
      obtain ⟨row, hrow, rfl⟩ := Option.map_eq_some_iff.mp hsession
      obtain ⟨id, -, hget⟩ := Option.bind_eq_some_iff.mp hrow
      refine of_journaled row ?_ ?_ hcan ?_
      · rw [apply_ite Session.id, Session.withoutActive_id, ite_self]
        exact Table.get?_of_mem (Table.mem_of_get? hget)
      · rw [apply_ite Session.eventSequence, Session.withoutActive_eventSequence, ite_self]
      · split
        · exact hleft _ _
        · exact hkept _ _
    refine hpath.trans (.same ?_ ?_)
    · simp only [Store.journaledResolution, hsession]
    · simp only [Store.journaledResolution, hsession]

end Store.JournalPath

/-- The sessions that an operation may insert: the one that a client creates, or the runtime session of
a task. -/
def Op.Creates : Op → Session → Prop
  | .createSession session => fun created => created = session
  | .prepareTaskExecution _ => fun created => created.eventSequence = 0
  | _ => fun _ => False

/-- The active task of a session row and of the row that an operation writes in its place. -/
def Op.Moves (op : Op) (row session : Session) : Prop :=
  session.activeTaskId = row.activeTaskId ∨
    match op with
    | .startTask _ task _ | .prepareTaskExecution task =>
        row.activeTaskId = none ∧ session.activeTaskId = some task.id
    | .updateTask task _ _ => session.activeTaskId = (row.withoutActive task.id).activeTaskId
    | .cancelTask taskId _ => session.activeTaskId = (row.withoutActive taskId).activeTaskId
    | .resolveRecovery _ taskId _ _ =>
        session.activeTaskId = (row.withoutActive taskId).activeTaskId
    | _ => False

/-- The row that an operation writes in the place of a session row: the row with another event count,
or one with a higher version, whose active task is moved as the operation moves it. -/
def Op.Rewrites (op : Op) (row session : Session) : Prop :=
  op.Moves row session
    ∧ (session = { row with eventSequence := session.eventSequence }
      ∨ row.version < session.version)

theorem Op.Rewrites.kept (op : Op) (row : Session) (count : Nat) :
    op.Rewrites row { row with eventSequence := count } :=
  ⟨Or.inl rfl, Or.inl rfl⟩

/-- The active task leaves with a new version, or was another one. -/
theorem rewrites_withoutActive {op : Op} {row : Session} {taskId : String} {count : Nat}
    (hmoves : op.Moves row { row.withoutActive taskId with eventSequence := count }) :
    op.Rewrites row { row.withoutActive taskId with eventSequence := count } := by
  refine ⟨hmoves, ?_⟩
  unfold Session.withoutActive
  split
  · exact Or.inr (Nat.lt_succ_self row.version)
  · exact Or.inl rfl

section Operations

variable [Sha256] {s s' : Store} {now : Timestamp} {op : Op} {u : Unit}

omit [Sha256] in
theorem journalPath_of_prepare {created : Session → Prop} {moved : Session → Session → Prop}
    {task result : Task} (hcreated : ∀ session : Session, session.eventSequence = 0 → created session)
    (hmoved : ∀ row : Session, row.activeTaskId = none →
      moved row { row with activeTaskId := some task.id, version := row.version + 1 })
    (hreturns : (prepareTaskExecution task).Returns s result s') :
    Store.JournalPath created moved s s' := by
  obtain ⟨current, -, hcurrent, -, hstate⟩ := prepareTaskExecution_returns hreturns
  have hensured : Store.JournalPath created moved s (s.taskEnsured task) := by
    unfold Store.taskEnsured
    split <;> exact .same rfl rfl
  have hsession : Store.JournalPath created moved (s.taskEnsured task)
      ((s.taskEnsured task).runtimeSessionEnsured current) := by
    unfold Store.runtimeSessionEnsured
    split
    · rename_i hnew
      exact .addSession hnew (hcreated _ rfl)
    · exact .same rfl rfl
  obtain rfl | ⟨-, session, -, hrow, ⟨-, rfl⟩ | ⟨hfree, rfl⟩⟩ := hstate
  · exact hensured
  · exact (hensured.trans hsession).trans (.same rfl rfl)
  · have htask : Store.JournalPath created moved (s.taskEnsured task)
        (((s.taskEnsured task).runtimeSessionEnsured current).putTask (current.boundTo session)) :=
      hsession.trans (.same rfl rfl)
    have hid : current.id = task.id := Table.key_of_get? hcurrent
    rw [hid]
    exact (hensured.trans htask).trans (.putSession session hrow rfl (hmoved session hfree))

theorem sessionPath (hreturns : (exec now op).Returns s u s') :
    Store.JournalPath op.Creates op.Rewrites s s' := by
  have hkept : ∀ (row : Session) (count : Nat), op.Rewrites row { row with eventSequence := count } :=
    Op.Rewrites.kept op
  cases op with
  | createSession session =>
      obtain ⟨_, hreturns⟩ := discard_returns.mp hreturns
      obtain ⟨hnew, -, ⟨_, hcan⟩, rfl⟩ := createSession_returns hreturns
      have hcreates : (Op.createSession session).Creates session := rfl
      refine (Store.JournalPath.addSession hnew hcreates).trans
        (.of_journaled session ?_ rfl hcan (hkept _ _))
      exact Table.get?_insert_self hnew
  | closeSession sessionId version =>
      obtain ⟨_, hreturns⟩ := discard_returns.mp hreturns
      obtain ⟨session, hrow, -, -, ⟨_, hcan⟩, rfl⟩ := closeSession_returns hreturns
      refine .of_journaled session ?_ rfl hcan ⟨Or.inl rfl, Or.inr (Nat.lt_succ_self _)⟩
      exact Table.get?_of_mem (Table.mem_of_get? hrow)
  | appendTurn turn version =>
      obtain ⟨_, hreturns⟩ := discard_returns.mp hreturns
      obtain ⟨-, -, rfl⟩ | ⟨session, hrow, -, -, -, -, -, ⟨_, hcan⟩, rfl⟩ :=
        appendTurn_returns hreturns
      · exact .same rfl rfl
      · refine .after (.of_journaled session ?_ ?_ hcan
          ⟨Or.inl rfl, Or.inr (Nat.lt_succ_self _)⟩) rfl rfl
        · exact Table.get?_of_mem (Table.mem_of_get? hrow)
        · rfl
  | appendEvent event sequence =>
      obtain ⟨_, hreturns⟩ := discard_returns.mp hreturns
      obtain rfl | ⟨session, hrow, hfresh, rfl⟩ := appendEvent_returns hreturns
      · exact .same rfl rfl
      · refine .addEvent session ?_ rfl ?_ rfl hfresh (hkept session _)
        · exact Table.get?_of_mem (Table.mem_of_get? hrow)
        · exact (Table.key_of_get? hrow).symm
  | startTask sessionId task version =>
      obtain ⟨_, hreturns⟩ := discard_returns.mp hreturns
      obtain ⟨session, -, hrow, -, -, hfree, -, -, ⟨_, hcan⟩, rfl⟩ := startTask_returns hreturns
      refine .after (.of_journaled session ?_ ?_ hcan
        ⟨Or.inr ⟨hfree, rfl⟩, Or.inr (Nat.lt_succ_self _)⟩) rfl rfl
      · exact Table.get?_of_mem (Table.mem_of_get? hrow)
      · rfl
  | prepareTaskExecution task =>
      obtain ⟨_, hreturns⟩ := discard_returns.mp hreturns
      exact journalPath_of_prepare (fun _ hzero => hzero)
        (fun _ hfree => ⟨Or.inr ⟨hfree, rfl⟩, Or.inr (Nat.lt_succ_self _)⟩) hreturns
  | createTask task =>
      obtain ⟨_, hreturns⟩ := discard_returns.mp hreturns
      obtain ⟨-, -, -, ⟨-, rfl⟩ | ⟨session, hsession, ⟨_, hcan⟩, rfl⟩⟩ :=
        createTask_returns hreturns
      · exact .same rfl rfl
      · obtain ⟨id, -, hrow⟩ := Option.bind_eq_some_iff.mp hsession
        exact .after (.of_journaled_row hkept hrow hcan) rfl rfl
  | updateTask task version guard =>
      obtain ⟨_, hreturns⟩ := discard_returns.mp hreturns
      obtain ⟨_, -, ⟨-, rfl⟩ | ⟨row, session, -, hrow, hsession, ⟨_, hcan⟩, rfl⟩⟩ :=
        updateTask_returns hreturns
      · exact .same rfl rfl
      · refine .after (.of_journaled row hrow ?_ hcan ?_) rfl rfl
        · rw [hsession, apply_ite Session.eventSequence, Session.withoutActive_eventSequence, ite_self]
        · rw [hsession]
          split
          · exact rewrites_withoutActive (Or.inr rfl)
          · exact hkept _ _
  | cancelTask taskId controlId =>
      obtain ⟨_, hreturns⟩ := discard_returns.mp hreturns
      obtain ⟨_, -, rfl | ⟨_, rfl⟩ | ⟨-, _, ⟨-, rfl⟩ | ⟨session, -, hrow, rfl⟩⟩⟩ :=
        cancelTask_returns hreturns
      · exact .same rfl rfl
      · exact .same rfl rfl
      · exact .same rfl rfl
      · refine .after (.putSession session ?_ ?_ (rewrites_withoutActive (Or.inr rfl))) rfl rfl
        · rw [Session.withoutActive_id]
          exact hrow
        · rw [Session.withoutActive_eventSequence]
  | requestControl request version =>
      obtain ⟨_, hreturns⟩ := discard_returns.mp hreturns
      obtain ⟨task, -, -, ⟨_, hcan⟩, rfl⟩ := requestControl_returns hreturns
      exact .after (.of_journaledFor hkept hcan) rfl rfl
  | settleControl requestId status version cleanupInfo =>
      obtain ⟨_, hreturns⟩ := discard_returns.mp hreturns
      obtain ⟨_, task, -, -, -, -, ⟨_, hcan⟩, rfl⟩ := settleControl_returns hreturns
      exact .after (.of_journaledFor hkept hcan) rfl rfl
  | commitCheckpoint checkpoint version guard =>
      obtain ⟨_, hreturns⟩ := discard_returns.mp hreturns
      obtain ⟨_, _, session, -, -, -, -, hrow, -, ⟨_, hcan⟩, rfl⟩ := commitCheckpoint_returns hreturns
      exact .after (.of_journaled_row hkept hrow hcan) rfl rfl
  | commitToolResult taskId call result version guard =>
      obtain ⟨_, hreturns⟩ := discard_returns.mp hreturns
      obtain ⟨task, -, -, rfl | ⟨-, ⟨_, hcan⟩, rfl⟩⟩ := commitToolResult_returns hreturns
      · exact .same rfl rfl
      · exact .after (.of_journaledFor hkept hcan) rfl rfl
  | claimExecution execution version =>
      obtain ⟨_, hreturns⟩ := discard_returns.mp hreturns
      obtain ⟨session, task, hclaims, -, ⟨_, hcan⟩, rfl⟩ := claimExecution_returns hreturns
      exact .after (.of_journaled_row hkept hclaims.session_row hcan) rfl rfl
  | releaseExecution guard =>
      obtain ⟨_, task, -, -, ⟨_, hcan⟩, rfl⟩ := releaseExecution_returns hreturns
      exact .after (.of_journaledFor hkept hcan) rfl rfl
  | acquireWorkspaceWriter lease guard =>
      obtain ⟨_, hreturns⟩ := discard_returns.mp hreturns
      obtain ⟨_, session, -, hrow, -, ⟨_, hcan⟩, rfl⟩ := acquireWorkspaceWriter_returns hreturns
      exact .after (.of_journaled_row hkept hrow hcan) rfl rfl
  | releaseWorkspaceWriter guard =>
      obtain ⟨_, session, -, hrow, ⟨_, hcan⟩, rfl⟩ := releaseWorkspaceWriter_returns hreturns
      exact .after (.of_journaled_row hkept hrow hcan) rfl rfl
  | markCommandRecoveryRequired identity cleanupInfo =>
      obtain ⟨_, hreturns⟩ := discard_returns.mp hreturns
      obtain ⟨_, task, -, -, -, ⟨_, hcan⟩, rfl⟩ := markCommandRecoveryRequired_returns hreturns
      exact .after (.of_journaledFor hkept hcan) rfl rfl
  | prepareEffects effects version guard =>
      obtain ⟨_, hreturns⟩ := discard_returns.mp hreturns
      obtain ⟨-, rfl⟩ | ⟨task, _, -, -, rfl | ⟨-, -, hcan, rfl⟩⟩ := prepareEffects_returns hreturns
      · exact .same rfl rfl
      · exact .same rfl rfl
      · exact .after (.of_journaledFor hkept hcan) rfl rfl
  | prepareEffectBatch agentStep effects version guard =>
      obtain ⟨_, hreturns⟩ := discard_returns.mp hreturns
      obtain ⟨task, _, -, -, -, -, -, -, ⟨-, rfl⟩ | ⟨hcan, rfl⟩⟩ := prepareEffectBatch_returns hreturns
      · exact .same rfl rfl
      · exact .after (.of_journaledFor hkept hcan) rfl rfl
  | decideApproval approval version =>
      obtain ⟨_, hreturns⟩ := discard_returns.mp hreturns
      obtain rfl | ⟨-, -, -, hcan, rfl⟩ | ⟨_, -, -, -, -, -, hcan, rfl⟩ :=
        decideApproval_returns hreturns
      · exact .same rfl rfl
      · exact .after (.of_journaledApproval hkept hcan) rfl rfl
      · exact .after (.of_journaledApproval hkept hcan) rfl rfl
  | requestEffectApproval effectId approval version guard =>
      obtain ⟨_, hreturns⟩ := discard_returns.mp hreturns
      obtain ⟨_, _, _, -, ⟨-, rfl⟩ | ⟨-, -, -, -, -, hcan, rfl⟩⟩ :=
        requestEffectApproval_returns hreturns
      · exact .same rfl rfl
      · exact .after (.of_journaledApproval hkept hcan) rfl rfl
  | resolveEffectApproval approvalId approved source version workspaceRef policyVersion
      configVersion =>
      obtain ⟨_, hreturns⟩ := discard_returns.mp hreturns
      obtain rfl | ⟨_, _, _, _, -, hcan, rfl⟩ := resolveEffectApproval_returns hreturns
      · exact .same rfl rfl
      · exact .after (.of_journaledApproval hkept hcan) rfl rfl
  | claimEffect effectId version guard conditions =>
      obtain ⟨_, hreturns⟩ := discard_returns.mp hreturns
      obtain ⟨_, _, _, _, _, -, -, -, hcan, rfl⟩ := claimEffect_returns hreturns
      exact .of_claimed hkept hcan
  | commitEffect effect version resultRef observationRef guard observation =>
      obtain ⟨_, hreturns⟩ := discard_returns.mp hreturns
      obtain ⟨_, _, task, ⟨_, hcan⟩, -, -, -, rfl⟩ := commitEffect_returns hreturns
      exact .after (.of_journaledEffect hkept hcan) rfl rfl
  | markEffectUnknown effectId version evidence guard =>
      obtain ⟨_, hreturns⟩ := discard_returns.mp hreturns
      obtain ⟨_, _, task, ⟨_, hcan⟩, -, rfl⟩ := markEffectUnknown_returns hreturns
      exact .after (.of_journaledEffect hkept hcan) rfl rfl
  | settleUnexecutedEffect effectId status version call result guard =>
      obtain ⟨_, hreturns⟩ := discard_returns.mp hreturns
      obtain ⟨_, _, -, rfl | ⟨task, ⟨_, hcan⟩, -, -, rfl⟩⟩ :=
        settleUnexecutedEffect_returns hreturns
      · exact .same rfl rfl
      · exact .after (.of_journaledEffect hkept hcan) rfl rfl
  | resolveRecovery disposition taskId version resolution =>
      obtain ⟨_, hreturns⟩ := discard_returns.mp hreturns
      obtain ⟨rfl, -⟩ | ⟨task, _, _, hresolves, hcan, rfl⟩ := resolveRecovery_returns hreturns
      · exact .same rfl rfl
      · have hleft : ∀ (row : Session) (count : Nat),
            (Op.resolveRecovery disposition taskId version resolution).Rewrites row
              { row.withoutActive task.id with eventSequence := count } := by
          rw [hresolves.loadsTask.id_eq]
          exact fun _ _ => rewrites_withoutActive (Or.inr rfl)
        cases hresolves.valid <;>
          exact .after (.of_journaledResolution hkept hleft hcan) rfl rfl
  | _ =>
      exact .same (exec_agrees hreturns .sessions rfl) (exec_agrees hreturns .sessionEvents rfl)

theorem journalPath (hreturns : (exec now op).Returns s u s') :
    Store.JournalPath op.Creates op.Moves s s' :=
  (sessionPath hreturns).mono fun _ _ hrewrites => hrewrites.1

omit [Sha256] in
theorem journalGrows_of_prepare {task result : Task}
    (hreturns : (prepareTaskExecution task).Returns s result s') : s.JournalGrows s' := by
  have hpath : Store.JournalPath (fun session => session.eventSequence = 0) (fun _ _ => True) s s' :=
    journalPath_of_prepare (fun _ hempty => hempty) (fun _ _ => trivial) hreturns
  exact .of_path hpath

theorem journalGrows (hreturns : (exec now op).Returns s u s') : s.JournalGrows s' :=
  .of_path (journalPath hreturns)

end Operations

end PatchLoop
