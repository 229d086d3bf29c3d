import PatchLoop.Store.Accepts
import PatchLoop.Store.MigrationSpec
import PatchLoop.Store.TaskChanges

/-!
# The active task of a session

The session's row names its active task. The operations that start, end or abandon a task move the
name with the task; `create_session`, `prepare_task_execution`, `save_task` and `delete_task` do not
look at both sides. A name of a task that is gone cannot be cleared any more, and every write of the
session is refused.
-/

namespace PatchLoop

open Transaction

/-- The task that the session's row names. -/
def Store.activeTaskOf (s : Store) (sessionId : String) : Option String :=
  (s.sessions.get? sessionId).bind Session.activeTaskId

/-- Every active task is there, is active, and belongs to the session. -/
def Store.PointersSound (s : Store) : Prop :=
  ∀ sessionId taskId, s.activeTaskOf sessionId = some taskId →
    ∃ task, s.tasks.get? taskId = some task ∧ task.sessionId = some sessionId
      ∧ task.outcome = .active

/-- What the calls do not check that name an active task or write a task without its session. -/
def KeepsPointers (s : Store) : Call → Prop
  | .op ⟨_, .createSession session⟩ => session.activeTaskId = none
  | .op ⟨_, .prepareTaskExecution task⟩ =>
      ((s.tasks.get? task.id).getD task).sessionId = none →
        ((s.tasks.get? task.id).getD task).outcome = .active
  | .saveTask _ task _ => ∀ session ∈ s.sessions.rows, session.activeTaskId = some task.id →
      task.sessionId = some session.id ∧ task.outcome = .active
  | .deleteTask taskId => ∀ session ∈ s.sessions.rows, session.activeTaskId ≠ some taskId
  | _ => True

section Pointers

variable {s s' : Store} {session row : Session} {now : Timestamp} {entry : Entry}

theorem activeTaskOf_of_sessions (hsessions : s'.sessions = s.sessions) (sessionId : String) :
    s'.activeTaskOf sessionId = s.activeTaskOf sessionId := by
  rw [Store.activeTaskOf, Store.activeTaskOf, hsessions]

theorem activeTaskOf_putSession {id : String} (hrow : s.sessions.get? id = some row)
    (hid : session.id = id) (sessionId : String) :
    (s.putSession session).activeTaskOf sessionId
      = if sessionId = id then session.activeTaskId else s.activeTaskOf sessionId := by
  have hget : (s.putSession session).sessions.get? sessionId
      = if sessionId = id then some session else s.sessions.get? sessionId :=
    Table.get?_set_row hrow sessionId hid
  rw [Store.activeTaskOf, hget]
  split <;> rfl

theorem activeTaskOf_addSession (hnew : s.sessions.get? session.id = none) (sessionId : String) :
    (s.addSession session).activeTaskOf sessionId
      = if sessionId = session.id then session.activeTaskId else s.activeTaskOf sessionId := by
  have hget : (s.addSession session).sessions.get? sessionId
      = if sessionId = session.id then some session else s.sessions.get? sessionId :=
    Table.get?_insert session hnew sessionId
  rw [Store.activeTaskOf, hget]
  split <;> rfl

theorem activeTaskOf_journaled {id : String} (hrow : s.sessions.get? id = some row)
    (hid : session.id = id) (sessionId : String) :
    (s.journaled now session entry).activeTaskOf sessionId
      = if sessionId = id then session.activeTaskId else s.activeTaskOf sessionId := by
  have hget : (s.journaled now session entry).sessions.get? sessionId
      = if sessionId = id
        then some { session with eventSequence := session.eventSequence + 1 }
        else s.sessions.get? sessionId :=
    Table.get?_set_row hrow sessionId hid
  rw [Store.activeTaskOf, hget]
  split <;> rfl

theorem withoutActive_activeTaskId (row : Session) (taskId : String) :
    (row.withoutActive taskId).activeTaskId
      = if row.activeTaskId = some taskId then none else row.activeTaskId := by
  unfold Session.withoutActive
  split <;> rfl

theorem withoutActive_ne (row : Session) (taskId : String) :
    (row.withoutActive taskId).activeTaskId ≠ some taskId := by
  rw [withoutActive_activeTaskId]
  split
  · simp
  · assumption

/-- One session row is written back, with its active task or without it. -/
theorem activeTaskOf_withdrawn {id taskId : String} {active : Option String}
    (hrow : s.sessions.get? id = some row)
    (hactive : ∀ sessionId, s'.activeTaskOf sessionId
      = if sessionId = id then active else s.activeTaskOf sessionId)
    (hwithdrawn : active = row.activeTaskId ∨ active = (row.withoutActive taskId).activeTaskId)
    (sessionId : String) : s'.activeTaskOf sessionId = s.activeTaskOf sessionId
      ∨ s'.activeTaskOf sessionId = none := by
  rw [hactive]
  split
  · rename_i hsame
    have hbefore : s.activeTaskOf sessionId = row.activeTaskId := by
      rw [hsame, Store.activeTaskOf, hrow]
      rfl
    rw [hbefore]
    rcases hwithdrawn with rfl | rfl
    · exact Or.inl rfl
    · rw [withoutActive_activeTaskId]
      split
      · exact Or.inr rfl
      · exact Or.inl rfl
  · exact Or.inl rfl

/-- Writes that keep the active task of every row they write, and insert no session. -/
theorem activeTaskOf_path {created : Session → Prop} {moved : Session → Session → Prop}
    (hpath : Store.JournalPath created moved s s') (hcreated : ∀ session, ¬ created session)
    (hmoved : ∀ row session, moved row session → session.activeTaskId = row.activeTaskId)
    (sessionId : String) : s'.activeTaskOf sessionId = s.activeTaskOf sessionId := by
  have hwritten : ∀ {t : Store} {session row : Session}, t.sessions.get? session.id = some row →
      moved row session → (t.putSession session).activeTaskOf sessionId
        = t.activeTaskOf sessionId := by
    intro t session row hrow hmove
    rw [activeTaskOf_putSession hrow rfl]
    split
    · rename_i hid
      rw [hid, Store.activeTaskOf, hrow, hmoved row session hmove]
      rfl
    · rfl
  induction hpath with
  | same hsessions hevents => exact activeTaskOf_of_sessions hsessions sessionId
  | trans hfirst hsecond ihfirst ihsecond => exact ihsecond.trans ihfirst
  | addSession hnew hcreates => exact absurd hcreates (hcreated _)
  | putSession row hrow hcount hmove => exact hwritten hrow hmove
  | @addEvent s session event row hrow hnext hid hsequence hfresh hmove =>
      have hrow' : (s.addSessionEvent event).sessions.get? session.id = some row := hrow
      exact hwritten hrow' hmove

/-- A task row is written back: the names of active tasks stay, or are cleared, and the task's own
session does not name it any more when it has ended. -/
theorem pointersSound_of_rewrite {current written : Task} (hsound : s.PointersSound)
    (hcurrent : s.tasks.get? current.id = some current)
    (hothers : ∀ taskId, taskId ≠ current.id → s'.tasks.get? taskId = s.tasks.get? taskId)
    (hwritten : s'.tasks.get? current.id = some written)
    (hsession : written.sessionId = current.sessionId)
    (hpointers : ∀ sessionId, s'.activeTaskOf sessionId = s.activeTaskOf sessionId
      ∨ s'.activeTaskOf sessionId = none)
    (hended : written.outcome ≠ .active → ∀ sessionId, current.sessionId = some sessionId →
      s'.activeTaskOf sessionId ≠ some current.id) : s'.PointersSound := by
  intro sessionId taskId hactive
  have hbefore : s.activeTaskOf sessionId = some taskId := by
    rcases hpointers sessionId with hsame | hnone
    · exact hsame.symm.trans hactive
    · cases hnone.symm.trans hactive
  obtain ⟨task, htask, hbound, houtcome⟩ := hsound sessionId taskId hbefore
  by_cases hid : taskId = current.id
  · subst hid
    cases Option.some.inj (hcurrent.symm.trans htask)
    refine ⟨written, hwritten, hsession.trans hbound, ?_⟩
    by_contra hnot
    exact hended hnot sessionId hbound hactive
  · exact ⟨task, (hothers taskId hid).trans htask, hbound, houtcome⟩

/-- The tasks that were there keep their session and their outcome, and the names of active tasks
stay. -/
theorem pointersSound_of_kept (hsound : s.PointersSound)
    (htasks : ∀ taskId task, s.tasks.get? taskId = some task → task.sessionId ≠ none →
      ∃ task', s'.tasks.get? taskId = some task' ∧ task'.sessionId = task.sessionId
        ∧ task'.outcome = task.outcome)
    (hpointers : ∀ sessionId, s'.activeTaskOf sessionId = s.activeTaskOf sessionId) :
    s'.PointersSound := by
  intro sessionId taskId hactive
  rw [hpointers] at hactive
  obtain ⟨task, htask, hbound, houtcome⟩ := hsound sessionId taskId hactive
  obtain ⟨task', htask', hsame, houtcome'⟩ := htasks taskId task htask (by simp [hbound])
  exact ⟨task', htask', hsame.trans hbound, houtcome'.trans houtcome⟩

end Pointers

section Steps

variable [Sha256] {s s' : Store} {now : Timestamp} {op : Op}

/-- The operations that may name or clear the active task of a session. -/
def Op.Repoints : Op → Prop
  | .createSession .. | .startTask .. | .prepareTaskExecution .. | .updateTask .. | .cancelTask ..
  | .resolveRecovery .. => True
  | _ => False

/-- The other operations keep the session and the outcome of every task. -/
theorem task_kept (hreturns : (exec now op).Returns s () s') (hop : ¬ op.Repoints) {taskId : String}
    {task : Task} (htask : s.tasks.get? taskId = some task) :
    ∃ task', s'.tasks.get? taskId = some task' ∧ task'.sessionId = task.sessionId
      ∧ task'.outcome = task.outcome := by
  have hrow : ∀ {id : String} {current : Task}, s.LoadsTask id current → taskId = current.id →
      current = task := by
    intro id current hload hid
    rw [hid] at htask
    exact Option.some.inj (hload.row_of_id.symm.trans htask)
  have hchange := taskChange hreturns taskId
  generalize s'.tasks.get? taskId = row at hchange ⊢
  cases hchange with
  | kept => exact ⟨task, htask, rfl, rfl⟩
  | started | ensured | bound | updated | cancelled | recovered => exact absurd trivial hop
  | created hvalid hid hnew => cases hnew.symm.trans htask
  | claimed hclaims hid =>
      obtain rfl := hrow hclaims.loadsTask hid
      exact ⟨_, rfl, rfl, rfl⟩
  | idled hguards hload hid =>
      obtain rfl := hrow hload hid
      exact ⟨_, rfl, by unfold Task.idled; split <;> rfl, by unfold Task.idled; split <;> rfl⟩
  | recoveryMarked hexecution hload hid =>
      obtain rfl := hrow hload hid
      exact ⟨_, rfl, rfl, rfl⟩
  | waiting hrequests hbranch hid =>
      obtain rfl := hrow hrequests.loadsTask hid
      exact ⟨_, rfl, rfl, rfl⟩
  | resumed hresolves hid =>
      obtain rfl := hrow hresolves.loadsTask hid
      exact ⟨_, rfl, by unfold Task.resumed; split <;> rfl, by unfold Task.resumed; split <;> rfl⟩
  | inRecovery hmarks hid =>
      obtain rfl := hrow hmarks.loadsTask hid
      refine ⟨_, rfl, ?_, ?_⟩
      · unfold Task.inRecovery
        split <;> rfl
      · unfold Task.inRecovery
        split <;> rfl

theorem pointersSound_createSession {session result : Session} (hsound : s.PointersSound)
    (hfree : session.activeTaskId = none)
    (hreturns : (createSession now session).Returns s result s') : s'.PointersSound := by
  obtain ⟨hnew, -, entry, rfl⟩ := createSession_returns hreturns
  intro sessionId taskId hactive
  have hrow : (s.addSession session).sessions.get? session.id = some session :=
    Table.get?_insert_self hnew
  rw [activeTaskOf_journaled hrow rfl, activeTaskOf_addSession hnew] at hactive
  split at hactive
  · cases hfree.symm.trans hactive
  · exact hsound sessionId taskId hactive

theorem pointersSound_startTask {sessionId : String} {task result : Task} {version : Nat}
    (hsound : s.PointersSound)
    (hreturns : (startTask now sessionId task version).Returns s result s') : s'.PointersSound := by
  obtain ⟨session, -, hsession, -, -, -, houtcome, hnew, entry, rfl⟩ := startTask_returns hreturns
  have hid : session.id = sessionId := Table.key_of_get? hsession
  have hrow : (s.addTask { task with sessionId := some sessionId }).sessions.get? sessionId
      = some session := hsession
  have htask : ∀ taskId, (s.tasks.insert { task with sessionId := some sessionId }).get? taskId
      = if taskId = task.id then some { task with sessionId := some sessionId }
        else s.tasks.get? taskId := Table.get?_insert _ hnew
  intro id taskId hactive
  have hkey : ({ session with activeTaskId := some task.id, version := session.version + 1 } :
      Session).id = sessionId := hid
  rw [activeTaskOf_journaled hrow hkey] at hactive
  change ∃ row, (s.tasks.insert { task with sessionId := some sessionId }).get? taskId = some row ∧ _
  rw [htask]
  split at hactive
  · rename_i hsame
    cases hactive
    exact ⟨_, if_pos rfl, congrArg some hsame.symm, houtcome⟩
  · obtain ⟨row, hold, hbound, hrowActive⟩ := hsound id taskId hactive
    have hne : taskId ≠ task.id := by
      rintro rfl
      cases hnew.symm.trans hold
    exact ⟨row, (if_neg hne).trans hold, hbound, hrowActive⟩

theorem pointersSound_updateTask {task updated : Task} {version : Nat} {guard : Option LeaseGuard}
    (hsound : s.PointersSound)
    (hreturns : (updateTask now task version guard).Returns s updated s') : s'.PointersSound := by
  obtain ⟨current, hupdates, hstate⟩ := updateTask_returns hreturns
  have hcurrent := hupdates.loadsTask.row_of_id
  have hid : task.id = current.id := hupdates.loadsTask.id_eq.symm
  have htasks : ∀ taskId, (s.tasks.set { task with version := current.version + 1 }).get? taskId
      = if taskId = current.id then some { task with version := current.version + 1 }
        else s.tasks.get? taskId := fun taskId => Table.get?_set_row hcurrent taskId hid
  rcases hstate with ⟨hfree, rfl⟩ | ⟨row, session, hbound, hrow, hsession, entry, rfl⟩
  · refine pointersSound_of_rewrite hsound hcurrent (fun taskId hne => (htasks taskId).trans
      (if_neg hne)) ((htasks current.id).trans (if_pos rfl)) hupdates.session_eq.symm
      (fun _ => Or.inl rfl) ?_
    intro hended sessionId hbound
    cases hfree.symm.trans hbound
  · have hactive : ∀ sessionId, ((s.putTask { task with version := current.version + 1 }).journaled
        now session entry).activeTaskOf sessionId
          = if sessionId = session.id then session.activeTaskId else s.activeTaskOf sessionId :=
      fun sessionId => activeTaskOf_journaled (s := s.putTask _) hrow rfl sessionId
    refine pointersSound_of_rewrite hsound hcurrent (fun taskId hne => (htasks taskId).trans
      (if_neg hne)) ((htasks current.id).trans (if_pos rfl)) hupdates.session_eq.symm ?_ ?_
    · have hwithdrawn : session.activeTaskId = row.activeTaskId
          ∨ session.activeTaskId = (row.withoutActive task.id).activeTaskId := by
        rw [hsession]
        split
        · exact Or.inr rfl
        · exact Or.inl rfl
      exact activeTaskOf_withdrawn hrow hactive hwithdrawn
    · intro hended sessionId hsame
      cases Option.some.inj (hbound.symm.trans hsame)
      rw [hactive, if_pos rfl, hsession, if_pos hended, ← hid]
      exact withoutActive_ne row task.id

omit [Sha256] in
theorem pointersSound_cancelTask {taskId controlId : String} {result : Task}
    (hsound : s.PointersSound)
    (hreturns : (cancelTask now taskId controlId).Returns s result s') : s'.PointersSound := by
  obtain ⟨task, hload, rfl | ⟨request, rfl⟩ | ⟨-, request, hstate⟩⟩ := cancelTask_returns hreturns
  · exact hsound
  · exact hsound
  have htasks : ∀ id, (s.tasks.set task.cancelled).get? id
      = if id = task.id then some task.cancelled else s.tasks.get? id :=
    fun id => Table.get?_set_row hload.row_of_id id rfl
  rcases hstate with ⟨hfree, rfl⟩ | ⟨row, hbound, hrow, rfl⟩
  · refine pointersSound_of_rewrite hsound hload.row_of_id (fun id hne => (htasks id).trans
      (if_neg hne)) ((htasks task.id).trans (if_pos rfl)) rfl (fun _ => Or.inl rfl) ?_
    intro hended sessionId hbound
    cases hfree.symm.trans hbound
  · have hactive : ∀ sessionId, (((s.addControlRequest request).putTask
        task.cancelled).putSession (row.withoutActive taskId)).activeTaskOf sessionId
          = if sessionId = row.id then (row.withoutActive taskId).activeTaskId
            else s.activeTaskOf sessionId := by
      intro sessionId
      have hget : ((s.addControlRequest request).putTask task.cancelled).sessions.get? row.id
          = some row := hrow
      exact activeTaskOf_putSession hget (Session.withoutActive_id row taskId) sessionId
    refine pointersSound_of_rewrite hsound hload.row_of_id (fun id hne => (htasks id).trans
      (if_neg hne)) ((htasks task.id).trans (if_pos rfl)) rfl
      (activeTaskOf_withdrawn hrow hactive (Or.inr rfl)) ?_
    intro hended sessionId hsame
    cases Option.some.inj (hbound.symm.trans hsame)
    rw [hactive, if_pos rfl, hload.id_eq]
    exact withoutActive_ne row taskId

theorem pointersSound_resolveRecovery {disposition : RecoveryDisposition} {taskId : String}
    {version : Nat} {resolution : Resolution} {result : Task} (hsound : s.PointersSound)
    (hreturns : (resolveRecovery now disposition taskId version resolution).Returns s result s') :
    s'.PointersSound := by
  obtain ⟨rfl, -⟩ | ⟨task, effect, target, hresolves, hcan, rfl⟩ := resolveRecovery_returns hreturns
  · exact hsound
  have hrow := hresolves.loadsTask.row_of_id
  have htables : (s.recovered now disposition resolution task effect target).tasks
        = s.tasks.set (task.recovered disposition.kind target)
      ∧ (s.resolved now effect disposition resolution).sessions = s.sessions := by
    cases hresolves.valid <;> exact ⟨rfl, rfl⟩
  have htasks : ∀ id, (s.recovered now disposition resolution task effect target).tasks.get? id
      = if id = task.id then some (task.recovered disposition.kind target)
        else s.tasks.get? id := by
    intro id
    rw [htables.1]
    exact Table.get?_set_row hrow id rfl
  have hothers := fun id hne => (htasks id).trans (if_neg hne)
  have hwritten := (htasks task.id).trans (if_pos rfl)
  obtain hfree | ⟨session, hsession, -⟩ := hcan
  · have hkept : (s.recovered now disposition resolution task effect target).sessions
        = s.sessions := by
      simp only [Store.recovered, Store.journaledResolution_sessions, Store.resolutionSession,
        Store.sessionOf, hfree, Option.bind_none, Option.map_none]
      exact htables.2
    refine pointersSound_of_rewrite hsound hrow hothers hwritten rfl
      (fun sessionId => Or.inl (activeTaskOf_of_sessions hkept sessionId)) ?_
    intro hended sessionId hbound
    cases hfree.symm.trans hbound
  · obtain ⟨row, hrow', rfl⟩ := Option.map_eq_some_iff.mp hsession
    obtain ⟨id, hbound, hget⟩ := Option.bind_eq_some_iff.mp hrow'
    have hold : s.sessions.get? id = some row := by
      rw [← htables.2]
      exact hget
    -- an abandoned task leaves its session, a confirmed or retried one stays
    have hkey : (if disposition.kind = .abandon then row.withoutActive task.id else row).id = id := by
      rw [apply_ite Session.id, Session.withoutActive_id, ite_self]
      exact Table.key_of_get? hget
    have hactive : ∀ sessionId, (s.recovered now disposition resolution task effect
        target).activeTaskOf sessionId = if sessionId = id
          then (if disposition.kind = .abandon then row.withoutActive task.id else row).activeTaskId
          else s.activeTaskOf sessionId := by
      intro sessionId
      have hsessions : (s.recovered now disposition resolution task effect target).sessions
          = ((((s.resolved now effect disposition resolution).addRecoveryDisposition
            disposition).putTask (task.recovered disposition.kind target)).journaled now
              (if disposition.kind = .abandon then row.withoutActive task.id else row)
              (disposition.entry task.id)).sessions := by
        simp only [Store.recovered, Store.journaledResolution_sessions, hsession]
      rw [activeTaskOf_of_sessions hsessions, activeTaskOf_journaled hget hkey]
      split
      · rfl
      · exact activeTaskOf_of_sessions htables.2 sessionId
    have hwithdrawn : (if disposition.kind = .abandon then row.withoutActive task.id
        else row).activeTaskId = row.activeTaskId
          ∨ (if disposition.kind = .abandon then row.withoutActive task.id else row).activeTaskId
            = (row.withoutActive task.id).activeTaskId := by
      split
      · exact Or.inr rfl
      · exact Or.inl rfl
    refine pointersSound_of_rewrite hsound hrow hothers hwritten rfl
      (activeTaskOf_withdrawn hold hactive hwithdrawn) ?_
    intro hended sessionId hsame
    cases Option.some.inj (hbound.symm.trans hsame)
    rw [hactive, if_pos rfl]
    split
    · exact withoutActive_ne row task.id
    · rename_i hkind
      intro hnamed
      have hnames : s.activeTaskOf id = some task.id := by
        rw [Store.activeTaskOf, hold]
        exact hnamed
      obtain ⟨task', htask', -, houtcome⟩ := hsound id task.id hnames
      cases Option.some.inj (hrow.symm.trans htask')
      refine hended ?_
      simpa [Task.recovered, hkind] using houtcome

omit [Sha256] in
/-- The task that is bound is active, and no session names it before. -/
theorem pointersSound_prepare {task result : Task} (hsound : s.PointersSound)
    (hkeeps : ((s.tasks.get? task.id).getD task).sessionId = none →
      ((s.tasks.get? task.id).getD task).outcome = .active)
    (hreturns : (prepareTaskExecution task).Returns s result s') : s'.PointersSound := by
  obtain ⟨current, -, hcurrent, -, hstate⟩ := prepareTaskExecution_returns hreturns
  have hensured : ∀ id row, s.tasks.get? id = some row →
      (s.taskEnsured task).tasks.get? id = some row := by
    intro id row hrow
    rcases get?_taskEnsured s task id with hsame | ⟨-, hnew, -⟩
    · rwa [hsame]
    · cases hnew.symm.trans hrow
  have hsessions : (s.taskEnsured task).sessions = s.sessions := by
    unfold Store.taskEnsured
    split <;> rfl
  have hid : current.id = task.id := Table.key_of_get? hcurrent
  have hsource : (s.tasks.get? task.id).getD task = current := by
    rcases get?_taskEnsured s task task.id with hsame | ⟨-, hnew, hget⟩
    · rw [← hsame, hcurrent]
      rfl
    · rw [hnew]
      exact Option.some.inj (hget.symm.trans hcurrent)
  rw [hsource] at hkeeps
  obtain rfl | ⟨hfree, session, hruntime, hget, hstate⟩ := hstate
  · exact pointersSound_of_kept hsound (fun id row hrow _ => ⟨row, hensured id row hrow, rfl, rfl⟩)
      (activeTaskOf_of_sessions hsessions)
  -- in the end the runtime session names the task, and every other session what it named before
  have hactive : ∀ sessionId, s'.activeTaskOf sessionId
      = if sessionId = session.id then some current.id else s.activeTaskOf sessionId := by
    intro sessionId
    have hothers : sessionId ≠ session.id → (((s.taskEnsured task).runtimeSessionEnsured
        current).putTask (current.boundTo session)).activeTaskOf sessionId
          = s.activeTaskOf sessionId := by
      intro hne
      rw [← activeTaskOf_of_sessions hsessions sessionId]
      unfold Store.runtimeSessionEnsured
      split
      · rename_i hnew
        rw [hruntime] at hne
        exact (activeTaskOf_addSession hnew sessionId).trans (if_neg hne)
      · rfl
    rcases hstate with ⟨hnamed, rfl⟩ | ⟨-, rfl⟩
    · split
      · rename_i hsame
        rw [hsame, Store.activeTaskOf, Store.putTask_sessions, hget]
        exact hnamed
      · rename_i hne
        exact hothers hne
    · have hrow : (((s.taskEnsured task).runtimeSessionEnsured current).putTask
          (current.boundTo session)).sessions.get? session.id = some session := hget
      have hkey : ({ session with activeTaskId := some current.id, version := session.version + 1 } :
          Session).id = session.id := rfl
      rw [activeTaskOf_putSession hrow hkey]
      split
      · rfl
      · rename_i hne
        exact hothers hne
  have htasks : ∀ id, s'.tasks.get? id = if id = current.id then some (current.boundTo session)
      else (s.taskEnsured task).tasks.get? id := by
    have htable : s'.tasks = (s.taskEnsured task).tasks.set (current.boundTo session) := by
      have hsame : ((s.taskEnsured task).runtimeSessionEnsured current).tasks
          = (s.taskEnsured task).tasks := by
        unfold Store.runtimeSessionEnsured
        split <;> rfl
      rcases hstate with ⟨-, rfl⟩ | ⟨-, rfl⟩
      · rw [Store.putTask_tasks, hsame]
      · rw [Store.putSession_tasks, Store.putTask_tasks, hsame]
    intro id
    rw [htable]
    exact Table.get?_set_row (hid ▸ hcurrent) id rfl
  intro sessionId taskId hnamed
  rw [hactive] at hnamed
  rw [htasks]
  split at hnamed
  · rename_i hsame
    cases hnamed
    exact ⟨_, if_pos rfl, congrArg some hsame.symm, hkeeps hfree⟩
  · obtain ⟨row, hrow, hbound, houtcome⟩ := hsound sessionId taskId hnamed
    have hne : taskId ≠ current.id := by
      rintro rfl
      rw [hid] at hrow
      cases Option.some.inj (hcurrent.symm.trans (hensured _ _ hrow))
      cases hfree.symm.trans hbound
    exact ⟨row, (if_neg hne).trans (hensured taskId row hrow), hbound, houtcome⟩

/-- An operation that keeps the names of active tasks keeps them sound. -/
theorem pointersSound_after (hsound : s.PointersSound) (hkeeps : KeepsPointers s (.op ⟨now, op⟩))
    (hreturns : (exec now op).Returns s () s') : s'.PointersSound := by
  cases op with
  | createSession session =>
      obtain ⟨_, hreturns⟩ := discard_returns.mp hreturns
      exact pointersSound_createSession hsound hkeeps hreturns
  | startTask sessionId task version =>
      obtain ⟨_, hreturns⟩ := discard_returns.mp hreturns
      exact pointersSound_startTask hsound hreturns
  | prepareTaskExecution task =>
      obtain ⟨_, hreturns⟩ := discard_returns.mp hreturns
      exact pointersSound_prepare hsound hkeeps hreturns
  | updateTask task version guard =>
      obtain ⟨_, hreturns⟩ := discard_returns.mp hreturns
      exact pointersSound_updateTask hsound hreturns
  | cancelTask taskId controlId =>
      obtain ⟨_, hreturns⟩ := discard_returns.mp hreturns
      exact pointersSound_cancelTask hsound hreturns
  | resolveRecovery disposition taskId version resolution =>
      obtain ⟨_, hreturns⟩ := discard_returns.mp hreturns
      exact pointersSound_resolveRecovery hsound hreturns
  | _ =>
      exact pointersSound_of_kept hsound
        (fun taskId task htask _ => task_kept hreturns id htask)
        (activeTaskOf_path (journalPath hreturns) (fun _ => id) fun _ _ h => h.resolve_right id)

/-- A call that keeps the names of active tasks keeps them sound. -/
theorem pointersSound_callStep {call : Call} (hsound : s.PointersSound)
    (hkeeps : call.exec.Returns s () (callStep s call) → KeepsPointers s call) :
    (callStep s call).PointersSound := by
  obtain hsame | hreturns := callStep_cases s call
  · rw [hsame]
    exact hsound
  · have hkeeps := hkeeps hreturns
    generalize callStep s call = s' at hreturns ⊢
    cases call with
    | op timed => exact pointersSound_after hsound hkeeps (callOp_returns.mp hreturns).1
    | saveTask now task guard =>
        obtain ⟨-, -, rfl⟩ := saveTask_returns.mp hreturns
        intro sessionId taskId hnamed
        obtain ⟨session, hsession, hactive⟩ := Option.bind_eq_some_iff.mp hnamed
        have hid : session.id = sessionId := Table.key_of_get? hsession
        change ∃ row, (s.tasks.upsert task).get? taskId = some row ∧ _
        rw [Table.get?_upsert]
        split
        · rename_i hsame
          obtain ⟨hbound, houtcome⟩ := hkeeps session (Table.mem_of_get? hsession)
            (hactive.trans (congrArg some hsame))
          exact ⟨task, rfl, hbound.trans (congrArg some hid), houtcome⟩
        · exact hsound sessionId taskId hnamed
    | deleteTask taskId =>
        obtain ⟨-, rfl⟩ := deleteTask_returns hreturns
        intro sessionId active hnamed
        obtain ⟨session, hsession, hactive⟩ := Option.bind_eq_some_iff.mp hnamed
        have hne : active ≠ taskId := by
          rintro rfl
          exact hkeeps session (Table.mem_of_get? hsession) hactive
        obtain ⟨task, htask, hbound, houtcome⟩ := hsound sessionId active hnamed
        have hid : task.id = active := Table.key_of_get? htask
        refine ⟨task, ?_, hbound, houtcome⟩
        exact Table.get?_filter.mpr ⟨htask, by simpa [hid] using hne⟩

end Steps

/-! ### Starting and closing -/

section Availability

variable [Sha256] {s s' : Store} {now : Timestamp} {session : Session}

/-- A session without an active task is closed, unless the journal has the entry's id. -/
theorem closeSession_accepted (hcounted : s.JournalCounted)
    (hrow : s.sessions.get? session.id = some session) (hfree : session.activeTaskId = none) :
    Call.Accepted s (.op ⟨now, .closeSession session.id session.version⟩)
      ↔ s.sessionEvents.get?
        (journalEventId "session.closed" session.id (toString (session.version + 1))) = none := by
  constructor
  · intro haccepted
    obtain ⟨result, hreturned⟩ :=
      discard_returns.mp (callOp_returns.mp (callAccepted_iff.mp haccepted)).1
    simp only [closeSession, bind_returns, requireSession_returns, raiseIf_returns, journal_returns,
      pure_returns, existsAndEq, exists_const, true_and, and_assoc] at hreturned
    obtain ⟨row, hget, -, -, hcan, -⟩ := hreturned
    cases Option.some.inj (hrow.symm.trans hget)
    exact hcan.fresh
  · intro hfresh
    have hnext := next_free hcounted hrow
    have hreturns : ∃ result, (closeSession now session.id session.version).Returns s result
        (s.journaled now session.closed {
          id := journalEventId "session.closed" session.id (toString (session.version + 1))
          type := "session.closed" }) := by
      simp only [closeSession, bind_returns, requireSession_returns, raiseIf_returns,
        journal_returns, pure_returns, existsAndEq, exists_const, true_and, and_assoc]
      exact ⟨session, hrow, not_not.mpr rfl, not_not.mpr hfree,
        ⟨by simp, hfresh, hnext, rfl⟩, rfl⟩
    refine callAccepted_of_returns (u := ()) (callOp_returns.mpr ⟨discard_returns.mpr hreturns, ?_⟩)
    have hclosed : s.HasTask session.closed.activeTaskId := by
      rw [Session.closed, hfree]
      rfl
    exact referencesTasks_journaled hrow rfl rfl hclosed

/-- An open session without an active task starts any new task, unless the journal has the entry's
id. -/
theorem startTask_accepted (hcounted : s.JournalCounted)
    (hrow : s.sessions.get? session.id = some session) (hfree : session.activeTaskId = none)
    (hopen : session.status ≠ .closed) {task : Task} (hvalid : task.ValidStateDimensions)
    (houtcome : task.outcome = .active) (hnew : s.tasks.get? task.id = none) :
    Call.Accepted s (.op ⟨now, .startTask session.id task session.version⟩)
      ↔ s.sessionEvents.get? (journalEventId "task.started" task.id (toString task.version))
        = none := by
  have hinserted : (s.addTask { task with sessionId := some session.id }).HasTask (some task.id) := by
    have hget : (s.tasks.insert { task with sessionId := some session.id }).get? task.id
        = some { task with sessionId := some session.id } := Table.get?_insert_self hnew
    simp [Store.HasTask, hget]
  have hsession : s.HasSession (some session.id) := by simp [Store.HasSession, hrow]
  constructor
  · intro haccepted
    obtain ⟨result, hreturned⟩ :=
      discard_returns.mp (callOp_returns.mp (callAccepted_iff.mp haccepted)).1
    simp only [startTask, bind_returns, validateTask_returns, requireSession_returns,
      raiseIf_returns, query_returns, insertTask_returns, journal_returns, pure_returns,
      existsAndEq, exists_const, true_and, and_assoc, not_not, ne_eq] at hreturned
    obtain ⟨-, row, hget, -, -, -, -, -, -, -, hcan, -⟩ := hreturned
    exact hcan.fresh
  · intro hfresh
    have hnext := next_free hcounted hrow
    have hreturns : ∃ result, (startTask now session.id task session.version).Returns s result
        ((s.addTask { task with sessionId := some session.id }).journaled now
          { session with activeTaskId := some task.id, version := session.version + 1 } {
            id := journalEventId "task.started" task.id (toString task.version)
            type := "task.started"
            taskId := some task.id
            data := .obj [("condition", .str task.runtimeCondition.value),
              ("outcome", .str task.outcome.value)] }) := by
      simp only [startTask, bind_returns, validateTask_returns, requireSession_returns,
        raiseIf_returns, query_returns, insertTask_returns, journal_returns, pure_returns,
        existsAndEq, exists_const, true_and, and_assoc]
      exact ⟨session, hvalid, hrow, not_not.mpr rfl, hopen, not_not.mpr hfree, not_not.mpr houtcome,
        not_not.mpr hnew, hnew, hsession, ⟨by simp, hfresh, hnext, hinserted⟩, rfl⟩
    refine callAccepted_of_returns (u := ()) (callOp_returns.mpr ⟨discard_returns.mpr hreturns, ?_⟩)
    exact referencesTasks_journaled hrow rfl rfl hinserted

end Availability

/-! ### Runs -/

section Runs

variable [Sha256] {s s' : Store}

/-- A migrated session names no task but the one it was made for. -/
structure Store.PointersMigrated (s : Store) : Prop where
  sound : s.PointersSound
  made : ∀ sessionId taskId, s.activeTaskOf sessionId = some taskId →
    sessionId = legacySessionId taskId

theorem pointersMigrated_round {now : Timestamp} {task : Task} (hmigrated : s.PointersMigrated)
    (hround : (migrateLegacyTask now task).Returns s () s') : s'.PointersMigrated := by
  obtain ⟨hsession, hrow, -, -, checkpoints, rfl⟩ := migrateLegacyTask_returns hround
  obtain ⟨row, hrow⟩ := Option.ne_none_iff_exists'.mp hrow
  have hactive : ∀ sessionId, ({ s.migrated now task with checkpoints } : Store).activeTaskOf sessionId
      = if sessionId = legacySessionId task.id then task.legacySession.activeTaskId
        else s.activeTaskOf sessionId := fun sessionId => activeTaskOf_addSession hsession sessionId
  have htasks : ∀ id, (s.tasks.set task.migrated).get? id
      = if id = task.id then some task.migrated else s.tasks.get? id :=
    fun id => Table.get?_set_row hrow id rfl
  have hnamed : ∀ taskId, task.legacySession.activeTaskId = some taskId →
      task.outcome = .active ∧ taskId = task.id := by
    intro taskId hnames
    simp only [Task.legacySession] at hnames
    split at hnames
    · rename_i hactive
      exact ⟨hactive, (Option.some.inj hnames).symm⟩
    · cases hnames
  constructor
  · intro sessionId taskId hnames
    rw [hactive] at hnames
    change ∃ row, (s.tasks.set task.migrated).get? taskId = some row ∧ _
    rw [htasks]
    split at hnames
    · rename_i hsame
      obtain ⟨houtcome, rfl⟩ := hnamed taskId hnames
      exact ⟨task.migrated, if_pos rfl, congrArg some hsame.symm, houtcome⟩
    · rename_i hne
      obtain ⟨other, hother, hbound, houtcome⟩ := hmigrated.sound sessionId taskId hnames
      have hid : taskId ≠ task.id := by
        rintro rfl
        exact hne (hmigrated.made sessionId task.id hnames)
      exact ⟨other, (if_neg hid).trans hother, hbound, houtcome⟩
  · intro sessionId taskId hnames
    rw [hactive] at hnames
    split at hnames
    · rename_i hsame
      rw [hsame, (hnamed taskId hnames).2]
    · exact hmigrated.made sessionId taskId hnames

theorem pointersSound_initial (hinitial : s.Initial) : s.PointersSound := by
  have hnone : ∀ t : Store, t.sessions = .empty → t.PointersMigrated := by
    intro t hsessions
    have hfree : ∀ sessionId, t.activeTaskOf sessionId = none := by
      intro sessionId
      rw [Store.activeTaskOf, hsessions]
      rfl
    constructor
    · intro sessionId taskId hactive
      cases (hfree sessionId).symm.trans hactive
    · intro sessionId taskId hactive
      cases (hfree sessionId).symm.trans hactive
  exact (initial_induction Store.PointersMigrated (hnone {} rfl)
    (fun legacy hlegacy => hnone legacy hlegacy.sessions)
    (fun _ _ _ _ => pointersMigrated_round) hinitial).sound

theorem journalCounted_initial (hinitial : s.Initial) : s.JournalCounted := by
  rcases hinitial with rfl | ⟨legacy, now, hlegacy, hreturns⟩
  · intro event hevent
    cases hevent
  · exact (migrateLegacyRuntime_returns hlegacy hreturns).journal

theorem tasksBound_initial (hinitial : s.Initial) : s.TasksBound := by
  rcases hinitial with rfl | ⟨legacy, now, hlegacy, hreturns⟩
  · intro task hmem
    cases hmem
  · intro task hmem
    rcases (migrateLegacyRuntime_returns hlegacy hreturns).tasks task hmem with htodo | ⟨_, _, _, hbound⟩
    · cases htodo
    · exact hbound

theorem journalCounted_callStep {call : Call} (hcounted : s.JournalCounted) :
    (callStep s call).JournalCounted := by
  obtain hsame | hreturns := callStep_cases s call
  · rw [hsame]
    exact hcounted
  · generalize callStep s call = s' at hreturns ⊢
    cases call with
    | op timed => exact (journalGrows (callOp_returns.mp hreturns).1).counted hcounted
    | saveTask now task guard =>
        obtain ⟨-, -, rfl⟩ := saveTask_returns.mp hreturns
        exact hcounted
    | deleteTask taskId =>
        obtain ⟨-, rfl⟩ := deleteTask_returns hreturns
        exact hcounted

/-- In a run from a new or a migrated database in which every accepted call keeps the names of active
tasks, each of them names an active task of the session, so no session names a task that has ended or
is gone. A session that names no task is closed, and starts any new task while it is open, unless the
journal already has the id of the entry. -/
theorem active_task_pointer {history : List Call} (hinitial : s.Initial)
    (hkeeps : Run.EveryStep callStep (fun s call => call.Accepted s → KeepsPointers s call) s
      history) :
    (∀ session ∈ (runCalls s history).sessions.rows, ∀ taskId,
        session.activeTaskId = some taskId →
          ∃ task, (runCalls s history).tasks.get? taskId = some task
            ∧ task.sessionId = some session.id ∧ task.outcome = .active)
      ∧ (∀ taskId, ((runCalls s history).tasks.get? taskId).all (fun task => task.outcome ≠ .active) →
        ∀ session ∈ (runCalls s history).sessions.rows, session.activeTaskId ≠ some taskId)
      ∧ ∀ session ∈ (runCalls s history).sessions.rows, session.activeTaskId = none → ∀ now,
        (Call.Accepted (runCalls s history) (.op ⟨now, .closeSession session.id session.version⟩)
          ↔ (runCalls s history).sessionEvents.get? (journalEventId "session.closed" session.id
            (toString (session.version + 1))) = none)
        ∧ ∀ task : Task, session.status ≠ .closed → task.ValidStateDimensions →
          task.outcome = .active → (runCalls s history).tasks.get? task.id = none →
          (Call.Accepted (runCalls s history)
              (.op ⟨now, .startTask session.id task session.version⟩)
            ↔ (runCalls s history).sessionEvents.get?
              (journalEventId "task.started" task.id (toString task.version)) = none) := by
  have hsound : (runCalls s history).PointersSound :=
    Run.invariant_after Store.PointersSound
      (fun s call hsound hkeep => pointersSound_callStep hsound fun hreturns =>
        hkeep (callAccepted_iff.mpr hreturns))
      hkeeps (pointersSound_initial hinitial)
  have hcounted : (runCalls s history).JournalCounted :=
    Run.preserved_after Store.JournalCounted (fun _ _ => journalCounted_callStep) history
      (journalCounted_initial hinitial)
  generalize runCalls s history = s at hsound hcounted
  have hnamed : ∀ session ∈ s.sessions.rows, s.activeTaskOf session.id = session.activeTaskId := by
    intro session hsession
    have hrow : s.sessions.get? session.id = some session := Table.get?_of_mem hsession
    rw [Store.activeTaskOf, hrow]
    rfl
  refine ⟨?_, ?_, ?_⟩
  · intro session hsession taskId hactive
    exact hsound session.id taskId ((hnamed session hsession).trans hactive)
  · intro taskId hended session hsession hactive
    obtain ⟨task, htask, -, houtcome⟩ :=
      hsound session.id taskId ((hnamed session hsession).trans hactive)
    simp [htask, houtcome] at hended
  · intro session hsession hfree now
    have hrow : s.sessions.get? session.id = some session := Table.get?_of_mem hsession
    exact ⟨closeSession_accepted hcounted hrow hfree,
      fun task hopen hvalid houtcome hnew =>
        startTask_accepted hcounted hrow hfree hopen hvalid houtcome hnew⟩

end Runs

section Samples

local instance activeTaskDigest : Sha256 := Sample.digest

/-- The task of a session is cancelled before any execution owns it. -/
def Sample.cancelled : List Call :=
  [.op ⟨0, .createSession (Sample.session "s")⟩, .op ⟨0, .startTask "s" (Sample.task "a") 1⟩,
    .op ⟨1, .cancelTask "a" "c"⟩]

/-- The task of a session is deleted. -/
def Sample.deleted : List Call :=
  [.op ⟨0, .createSession (Sample.session "s")⟩, .op ⟨0, .startTask "s" (Sample.task "a") 1⟩,
    .deleteTask "a"]

/-- The session of the cancelled task starts another one. -/
theorem active_task_pointer_cancelled :
    Call.Accepted (runCalls {} Sample.cancelled) (.op ⟨2, .startTask "s" (Sample.task "b") 3⟩) := by
  have hkeeps : Run.EveryStep callStep (fun s call => call.Accepted s → KeepsPointers s call) {}
      Sample.cancelled := ⟨fun _ => rfl, fun _ => trivial, fun _ => trivial, trivial⟩
  obtain ⟨-, -, havailable⟩ := active_task_pointer (Or.inl rfl) hkeeps
  have hsession : { Sample.session "s" with version := 3, eventSequence := 2 }
      ∈ (runCalls {} Sample.cancelled).sessions.rows := by decide +kernel
  have hstart := (havailable _ hsession rfl 2).2 (Sample.task "b") (by decide) (by decide) rfl
    (by decide +kernel)
  exact hstart.mpr (by decide +kernel)

/-- The session of the deleted task still names it, and can neither start a task nor be closed. -/
theorem deleted_task_blocks_session :
    (∃ session ∈ (runCalls {} Sample.deleted).sessions.rows, session.activeTaskId = some "a")
      ∧ (runCalls {} Sample.deleted).tasks.get? "a" = none
      ∧ (∀ version ≤ 3, ¬ Call.Accepted (runCalls {} Sample.deleted)
        (.op ⟨2, .startTask "s" (Sample.task "b") version⟩))
      ∧ ∀ version ≤ 3, ¬ Call.Accepted (runCalls {} Sample.deleted)
        (.op ⟨2, .closeSession "s" version⟩) := by
  decide +kernel

end Samples

end PatchLoop
