import PatchLoop.Store.TaskChanges
import PatchLoop.Store.EffectChanges
import PatchLoop.Store.JournalChanges

/-!
# What the event count of a session tells

A client follows a task by the events of its session. While the session counts no new event, no effect
of the task has changed, no recovery of it has been decided, and no turn has come in: each of these is
written together with its event.
-/

namespace PatchLoop

open Transaction

/-- How many events a session has counted. -/
def Store.cursorOf (s : Store) (sessionId : String) : Nat :=
  ((s.sessions.get? sessionId).map Session.eventSequence).getD 0

/-- The task is a task of the session. -/
def Store.Binds (s : Store) (taskId sessionId : String) : Prop :=
  ∃ task, s.tasks.get? taskId = some task ∧ task.sessionId = some sessionId

/-- Both databases have the same effects of a task. -/
def Store.SameEffects (s s' : Store) (taskId : String) : Prop :=
  ∀ id effect, effect.taskId = taskId →
    (s'.effects.get? id = some effect ↔ s.effects.get? id = some effect)

/-- The effects of a task have the same dispositions in both databases. -/
def Store.SameDispositions (s s' : Store) (taskId : String) : Prop :=
  ∀ id effect, s.effects.get? id = some effect → effect.taskId = taskId →
    s'.dispositionOfEffect id = s.dispositionOfEffect id

/-- Both databases have the same turns of a session. -/
def Store.SameTurns (s s' : Store) (sessionId : String) : Prop :=
  ∀ turn, turn.sessionId = sessionId → (turn ∈ s'.turns.rows ↔ turn ∈ s.turns.rows)

/-- What an operation may have changed when its task journals: records of this task only, with a new
event. -/
structure Store.Tells (s s' : Store) (task : Task) : Prop where
  row : s.tasks.get? task.id = some task
  effects : ∀ taskId, taskId ≠ task.id → s.SameEffects s' taskId
  dispositions : ∀ taskId, taskId ≠ task.id → s.SameDispositions s' taskId
  cursor : ∀ sessionId, task.sessionId = some sessionId →
    s.cursorOf sessionId < s'.cursorOf sessionId

section Records

variable {s s' : Store} {now : Timestamp} {task : Task} {entry : Entry}

/-! ### Counting -/

theorem cursorOf_of_sessions (hsessions : s'.sessions = s.sessions) (sessionId : String) :
    s'.cursorOf sessionId = s.cursorOf sessionId := by
  rw [Store.cursorOf, hsessions]
  rfl

theorem cursorOf_of_row {session : Session} {sessionId : String}
    (hrow : s.sessions.get? sessionId = some session) :
    s.cursorOf sessionId = session.eventSequence := by
  rw [Store.cursorOf, hrow]
  rfl

theorem cursorOf_le (hgrows : s.JournalGrows s') (sessionId : String) :
    s.cursorOf sessionId ≤ s'.cursorOf sessionId := by
  cases hrow : s.sessions.get? sessionId with
  | none =>
      rw [Store.cursorOf, hrow]
      exact Nat.zero_le _
  | some session =>
      obtain ⟨session', hrow', hle⟩ := hgrows.sessions sessionId session hrow
      rw [cursorOf_of_row hrow, cursorOf_of_row hrow']
      exact hle

theorem cursorOf_journaled {session row : Session} (hrow : s.sessions.get? session.id = some row) :
    (s.journaled now session entry).cursorOf session.id = session.eventSequence + 1 := by
  have hcounted : (s.journaled now session entry).sessions.get? session.id
      = some { session with eventSequence := session.eventSequence + 1 } :=
    Table.get?_set_self hrow
  exact cursorOf_of_row hcounted

theorem cursorOf_journaledFor {sessionId : String} (hcan : s.CanJournalFor task entry)
    (hsession : task.sessionId = some sessionId) :
    (s.journaledFor now task entry).cursorOf sessionId = s.cursorOf sessionId + 1 := by
  obtain hfree | ⟨session, hsome, -⟩ := hcan
  · rw [hfree] at hsession
    cases hsession
  · have hrow : s.sessions.get? sessionId = some session := by
      rw [Store.sessionOf, hsession] at hsome
      exact hsome
    have hid : session.id = sessionId := Table.key_of_get? hrow
    subst hid
    rw [journaledFor_of_some hsome, cursorOf_journaled hrow, cursorOf_of_row hrow]

/-- A task that journals over the sessions of a database counts one more event there. -/
theorem cursor_lt_journaledFor {t : Store} (hcan : t.CanJournalFor task entry)
    (hsessions : t.sessions = s.sessions) (sessionId : String)
    (hsession : task.sessionId = some sessionId) :
    s.cursorOf sessionId < (t.journaledFor now task entry).cursorOf sessionId := by
  rw [cursorOf_journaledFor hcan hsession, cursorOf_of_sessions hsessions]
  exact Nat.lt_succ_self _

theorem cursor_lt_journaledEffect {t : Store} {completedEffectId : Option String}
    (hcan : t.CanJournalFor task entry) (hsessions : t.sessions = s.sessions) (sessionId : String)
    (hsession : task.sessionId = some sessionId) :
    s.cursorOf sessionId < (t.journaledEffect now task entry completedEffectId).cursorOf sessionId :=
  cursor_lt_journaledFor hcan hsessions sessionId hsession

/-! ### Other tasks -/

theorem sameEffects_of_table (htable : s'.effects = s.effects) (taskId : String) :
    s.SameEffects s' taskId := by
  intro id effect _
  rw [htable]

/-- An effect of a task is written back as an effect of this task. -/
theorem sameEffects_set {current written : Effect} {taskId : String}
    (hrow : s.effects.get? current.id = some current) (htable : s'.effects = s.effects.set written)
    (hkey : written.id = current.id) (hcurrent : current.taskId ≠ taskId)
    (hwritten : written.taskId = current.taskId) : s.SameEffects s' taskId := by
  intro id effect howner
  rw [htable, Table.get?_set_row hrow id hkey]
  by_cases hid : id = current.id
  · rw [if_pos hid, hid, hrow]
    constructor
    · rintro ⟨⟩
      exact absurd (hwritten.symm.trans howner) hcurrent
    · rintro ⟨⟩
      exact absurd howner hcurrent
  · rw [if_neg hid]

theorem sameEffects_addEffects {effects : List Effect} {taskId : String}
    (hfresh : s.FreshEffects effects) (howner : ∀ effect ∈ effects, effect.taskId ≠ taskId) :
    s.SameEffects (s.addEffects effects) taskId := by
  intro id effect htask
  rcases get?_addEffects hfresh id with hsame | ⟨hnone, added, hmem, -, hget⟩
  · rw [hsame]
  · rw [hget, hnone]
    constructor
    · rintro ⟨⟩
      exact absurd htask (howner _ hmem)
    · rintro ⟨⟩

theorem sameDispositions_of_table (htable : s'.recoveryDispositions = s.recoveryDispositions)
    (taskId : String) : s.SameDispositions s' taskId := by
  intro id effect _ _
  rw [Store.dispositionOfEffect, htable]
  rfl

end Records

/-! ### Operations tell -/

section Operations

variable [Sha256] {s s' t : Store} {now : Timestamp} {op : Op} {task : Task}

/-- An approval is journalled in the session of its task. -/
theorem cursor_lt_journaledApproval {approval : Approval} {eventType : String} {effect : Effect}
    (hcan : t.CanJournalApproval approval eventType) (hsessions : t.sessions = s.sessions)
    (heffect : t.effects.get? approval.effectId = some effect)
    (htask : t.tasks.get? effect.taskId = some task) (sessionId : String)
    (hsession : task.sessionId = some sessionId) :
    s.cursorOf sessionId < (t.journaledApproval now approval eventType).cursorOf sessionId := by
  obtain ⟨current, owner, hload, howner, hcan⟩ := hcan
  cases heffect.symm.trans hload.1
  cases htask.symm.trans howner.1
  have hsome : t.taskOfApproval approval = some task := by
    rw [Store.taskOfApproval, heffect]
    exact htask
  rw [journaledApproval_of_some hsome]
  exact cursor_lt_journaledFor hcan hsessions sessionId hsession

theorem cursor_lt_claimed {current : Effect} {consumed : Option Approval}
    (hcan : s.CanJournalClaim now current task consumed) (sessionId : String)
    (hsession : task.sessionId = some sessionId) :
    s.cursorOf sessionId < (s.claimed now current task consumed).cursorOf sessionId := by
  have hpath : Store.JournalPath (fun _ => True) (fun _ _ => True) s
      ((s.putEffect (current.claimed consumed.isSome)).approvalConsumed now consumed) :=
    .of_approvalConsumed (fun _ _ => trivial) hcan
  calc s.cursorOf sessionId
      ≤ ((s.putEffect (current.claimed consumed.isSome)).approvalConsumed now consumed).cursorOf
          sessionId := cursorOf_le (.of_path hpath) sessionId
    _ < (s.claimed now current task consumed).cursorOf sessionId :=
        cursor_lt_journaledFor hcan.2 rfl sessionId hsession

theorem cursor_lt_journaledResolution {disposition : RecoveryDisposition}
    (hcan : t.CanJournalResolution task disposition) (hsessions : t.sessions = s.sessions)
    (sessionId : String) (hsession : task.sessionId = some sessionId) :
    s.cursorOf sessionId < (t.journaledResolution now task disposition).cursorOf sessionId := by
  obtain hfree | ⟨session, hsome, -⟩ := hcan
  · rw [hfree] at hsession
    cases hsession
  · have htable : (t.journaledResolution now task disposition).sessions
        = (t.journaled now session (disposition.entry task.id)).sessions := by
      simp only [Store.journaledResolution, hsome]
    obtain ⟨row, hrow, rfl⟩ := Option.map_eq_some_iff.mp hsome
    have hrow : t.sessions.get? sessionId = some row := by
      rw [Store.sessionOf, hsession] at hrow
      exact hrow
    have hid : row.id = sessionId := Table.key_of_get? hrow
    subst hid
    have hkey : (if disposition.kind = .abandon then row.withoutActive task.id else row).id
        = row.id := by
      rw [apply_ite Session.id, Session.withoutActive_id, ite_self]
    have hcount : (if disposition.kind = .abandon then row.withoutActive task.id
        else row).eventSequence = row.eventSequence := by
      rw [apply_ite Session.eventSequence, Session.withoutActive_eventSequence, ite_self]
    rw [cursorOf_of_sessions htable, ← hkey, cursorOf_journaled (hkey.symm ▸ hrow), hkey, hcount,
      ← cursorOf_of_row hrow, cursorOf_of_sessions hsessions]
    exact Nat.lt_succ_self _

omit [Sha256] in
/-- The task of an effect that is written back. -/
theorem Store.Tells.of_set {current written : Effect} (hrow : s.effects.get? current.id = some current)
    (htask : s.tasks.get? task.id = some task) (howner : current.taskId = task.id)
    (htable : s'.effects = s.effects.set written) (hkey : written.id = current.id)
    (hwritten : written.taskId = current.taskId)
    (hdispositions : s'.recoveryDispositions = s.recoveryDispositions)
    (hcursor : ∀ sessionId, task.sessionId = some sessionId →
      s.cursorOf sessionId < s'.cursorOf sessionId) : s.Tells s' task where
  row := htask
  effects taskId hother := by
    refine sameEffects_set hrow htable hkey ?_ hwritten
    rw [howner]
    exact hother.symm
  dispositions taskId _ := sameDispositions_of_table hdispositions taskId
  cursor := hcursor

omit [Sha256] in
/-- The task of effects that are added. -/
theorem Store.Tells.of_addEffects {effects : List Effect} (hfresh : t.FreshEffects effects)
    (hsame : t.effects = s.effects) (htask : s.tasks.get? task.id = some task)
    (howner : ∀ effect ∈ effects, effect.taskId = task.id)
    (htable : s'.effects = (t.addEffects effects).effects)
    (hdispositions : s'.recoveryDispositions = s.recoveryDispositions)
    (hcursor : ∀ sessionId, task.sessionId = some sessionId →
      s.cursorOf sessionId < s'.cursorOf sessionId) : s.Tells s' task where
  row := htask
  effects taskId hother := by
    have hadded : t.SameEffects (t.addEffects effects) taskId := by
      apply sameEffects_addEffects hfresh
      intro effect hmem heq
      exact hother (heq.symm.trans (howner effect hmem))
    intro id effect heffect
    rw [htable, ← hsame]
    exact hadded id effect heffect
  dispositions taskId _ := sameDispositions_of_table hdispositions taskId
  cursor := hcursor

/-- The task of an effect that is written back with its approval. -/
theorem Store.Tells.of_approval {approval : Approval} {eventType : String} {current written : Effect}
    {moved : Task} (hcan : t.CanJournalApproval approval eventType)
    (hrow : s.effects.get? current.id = some current) (htask : s.tasks.get? task.id = some task)
    (howner : current.taskId = task.id) (happroval : approval.effectId = current.id)
    (heffects : t.effects = s.effects.set written) (hkey : written.id = current.id)
    (hwritten : written.taskId = current.taskId) (htasks : t.tasks = s.tasks.set moved)
    (hmoved : moved.id = task.id) (hsession : moved.sessionId = task.sessionId)
    (hsessions : t.sessions = s.sessions)
    (hdispositions : t.recoveryDispositions = s.recoveryDispositions) :
    s.Tells (t.journaledApproval now approval eventType) task := by
  have heffect : t.effects.get? approval.effectId = some written := by
    rw [heffects, happroval, Table.get?_set_row hrow _ hkey, if_pos rfl]
  have howned : t.tasks.get? written.taskId = some moved := by
    rw [htasks, hwritten, howner, Table.get?_set_row htask _ hmoved, if_pos rfl]
  refine .of_set hrow htask howner heffects hkey hwritten hdispositions ?_
  intro sessionId hid
  exact cursor_lt_journaledApproval hcan hsessions heffect howned sessionId (hsession.trans hid)

omit [Sha256] in
/-- The effects of a step are effects of its task. -/
theorem AgentStep.Carries.owner {agentStep : AgentStep} {effects : List Effect} {effect : Effect}
    (hcarries : agentStep.Carries effects) (hmem : effect ∈ effects) :
    effect.taskId = agentStep.taskId := by
  have hkey : effect.identityKey ∈ effects.map Effect.identityKey := List.mem_map_of_mem hmem
  rw [AgentStep.Carries] at hcarries
  rw [hcarries] at hkey
  obtain ⟨position, -, heq⟩ := List.mem_map.mp hkey
  exact (congrArg Prod.fst heq).symm

/-- The dispositions of other tasks, after a resolution. -/
theorem sameDispositions_recovered {disposition : RecoveryDisposition} {taskId other : String}
    {version : Nat} {resolution : Resolution} {effect : Effect} {target : TaskRuntimeCondition}
    (hresolves : s.Resolves disposition taskId version resolution task effect target)
    (hother : other ≠ taskId) :
    s.SameDispositions (s.recovered now disposition resolution task effect target) other := by
  intro id row hrow howner
  rw [dispositionOfEffect_recovered hresolves]
  by_cases hid : disposition.unknownEffectId = id
  · rw [← hid, hresolves.loadsEffect.1] at hrow
    cases hrow
    exact absurd (howner.symm.trans hresolves.owner) hother
  · rw [if_neg hid, Option.or_none]

/-- A resolution tells of the effect that it confirms or that it adds. -/
theorem tells_recovered {disposition : RecoveryDisposition} {taskId : String} {version : Nat}
    {resolution : Resolution} {effect : Effect} {target : TaskRuntimeCondition}
    (hresolves : s.Resolves disposition taskId version resolution task effect target)
    (hcan : (((s.resolved now effect disposition resolution).addRecoveryDisposition
      disposition).putTask (task.recovered disposition.kind target)).CanJournalResolution task
        disposition) :
    s.Tells (s.recovered now disposition resolution task effect target) task := by
  have htask : task.id = taskId := hresolves.loadsTask.id_eq
  have howner : effect.taskId = task.id := hresolves.owner.trans htask.symm
  have hsessions : (((s.resolved now effect disposition resolution).addRecoveryDisposition
      disposition).putTask (task.recovered disposition.kind target)).sessions = s.sessions := by
    cases hresolves.valid <;> rfl
  refine ⟨hresolves.loadsTask.row_of_id, fun other hother => ?_, fun other hother => ?_,
    cursor_lt_journaledResolution hcan hsessions⟩
  · cases hresolves.valid with
    | confirmResult call result hkind hconfirms =>
        refine sameEffects_set hresolves.loadsEffect.row_of_id rfl rfl ?_ rfl
        rw [howner]
        exact hother.symm
    | createRetry retry approval hkind hactive hretries hrequired happroves =>
        have hfresh : s.FreshEffects [retry.waitingRetry approval.id] :=
          ⟨(hresolves.fresh retry approval rfl rfl).2.1, trivial⟩
        have hadded : s.SameEffects (s.addEffects [retry.waitingRetry approval.id]) other := by
          refine sameEffects_addEffects hfresh fun added hmem heq => ?_
          cases List.mem_singleton.mp hmem
          exact hother (heq.symm.trans hretries.2.2.1)
        exact hadded
    | abandon hkind hretry => exact sameEffects_of_table rfl other
  · exact sameDispositions_recovered hresolves (htask ▸ hother)

/-- An operation leaves effects and dispositions alone, or the task that it is about tells. -/
theorem quiet_or_tells (hreturns : (exec now op).Returns s () s') :
    (s'.effects = s.effects ∧ s'.recoveryDispositions = s.recoveryDispositions)
      ∨ ∃ task, s.Tells s' task := by
  cases op with
  | prepareEffects effects version guard =>
      obtain ⟨_, hreturns⟩ := discard_returns.mp hreturns
      obtain ⟨-, rfl⟩ | ⟨task, newEffects, hprepares, hnew, rfl | ⟨-, hfresh, hcan, rfl⟩⟩ :=
        prepareEffects_returns hreturns
      · exact Or.inl ⟨rfl, rfl⟩
      · exact Or.inl ⟨rfl, rfl⟩
      · refine Or.inr ⟨task, .of_addEffects hfresh rfl hprepares.loadsTask.1 ?_ rfl rfl
          (cursor_lt_journaledFor hcan rfl)⟩
        exact fun effect hmem => hprepares.owner effect (hnew effect hmem).1
  | prepareEffectBatch agentStep effects version guard =>
      obtain ⟨_, hreturns⟩ := discard_returns.mp hreturns
      obtain ⟨task, newEffects, hload, -, -, hcarries, hfresh, hnew, hbranch⟩ :=
        prepareEffectBatch_returns hreturns
      rcases hbranch with ⟨rfl, rfl⟩ | ⟨hcan, rfl⟩
      · exact Or.inl ⟨rfl, rfl⟩
      · refine Or.inr ⟨task, .of_addEffects hfresh rfl hload.row_of_id ?_ rfl rfl
          (cursor_lt_journaledFor hcan rfl)⟩
        intro effect hmem
        exact (hcarries.owner (hnew effect hmem).1).trans hload.id_eq.symm
  | requestEffectApproval effectId approval version guard =>
      obtain ⟨_, hreturns⟩ := discard_returns.mp hreturns
      obtain ⟨execution, current, task, hrequests, ⟨-, rfl⟩ | ⟨-, -, -, -, -, hcan, rfl⟩⟩ :=
        requestEffectApproval_returns hreturns
      · exact Or.inl ⟨rfl, rfl⟩
      · exact Or.inr ⟨task, .of_approval hcan hrequests.loadsEffect.row_of_id
          hrequests.loadsTask.row_of_id hrequests.loadsTask.id_eq.symm
          (hrequests.effectId_eq.trans hrequests.loadsEffect.id_eq.symm) rfl rfl rfl rfl rfl rfl rfl
          rfl⟩
  | resolveEffectApproval approvalId approved source version workspaceRef policyVersion
      configVersion =>
      obtain ⟨_, hreturns⟩ := discard_returns.mp hreturns
      obtain rfl | ⟨current, effect, task, actualConfig, hresolves, hcan, rfl⟩ :=
        resolveEffectApproval_returns hreturns
      · exact Or.inl ⟨rfl, rfl⟩
      · have hresumed : task.resumed.id = task.id ∧ task.resumed.sessionId = task.sessionId := by
          unfold Task.resumed
          split <;> exact ⟨rfl, rfl⟩
        refine Or.inr ⟨task, .of_approval hcan hresolves.loadsEffect.row_of_id
          hresolves.loadsTask.row_of_id hresolves.loadsTask.id_eq.symm ?_ rfl ?_ ?_ rfl hresumed.1
          hresumed.2 rfl rfl⟩
        · rw [apply_ite Approval.effectId]
          exact (ite_self _).trans hresolves.loadsEffect.id_eq.symm
        · split <;> rfl
        · split <;> rfl
  | claimEffect effectId version guard conditions =>
      obtain ⟨_, hreturns⟩ := discard_returns.mp hreturns
      obtain ⟨execution, current, task, actualConfig, consumed, hclaims, -, -, hcan, rfl⟩ :=
        claimEffect_returns hreturns
      have htable : (s.claimed now current task consumed).effects
          = s.effects.set (current.claimed consumed.isSome) := by
        cases consumed <;> rfl
      have hdispositions : (s.claimed now current task consumed).recoveryDispositions
          = s.recoveryDispositions := by
        cases consumed <;> rfl
      exact Or.inr ⟨task, .of_set hclaims.loadsEffect.row_of_id hclaims.loadsTask.row_of_id
        hclaims.loadsTask.id_eq.symm htable rfl rfl hdispositions (cursor_lt_claimed hcan)⟩
  | commitEffect effect version resultRef observationRef guard observation =>
      obtain ⟨_, hreturns⟩ := discard_returns.mp hreturns
      obtain ⟨execution, current, task, ⟨entry, hcan⟩, hcommits, -, rfl, rfl⟩ :=
        commitEffect_returns hreturns
      have hid : current.id = effect.id := hcommits.loadsEffect.id_eq
      have howner : current.taskId = effect.taskId :=
        congrArg Prod.fst (hcommits.compatible.1 hid)
      exact Or.inr ⟨task, .of_set hcommits.loadsEffect.row_of_id hcommits.loadsTask.row_of_id
        (howner.trans hcommits.loadsTask.id_eq.symm) rfl hid.symm howner.symm rfl
        (cursor_lt_journaledEffect hcan rfl)⟩
  | markEffectUnknown effectId version evidence guard =>
      obtain ⟨_, hreturns⟩ := discard_returns.mp hreturns
      obtain ⟨execution, current, task, ⟨entry, hcan⟩, hmarks, rfl⟩ :=
        markEffectUnknown_returns hreturns
      have hkept : (current.markedUnknown evidence).id = current.id
          ∧ (current.markedUnknown evidence).taskId = current.taskId := by
        unfold Effect.markedUnknown
        split <;> exact ⟨rfl, rfl⟩
      exact Or.inr ⟨task, .of_set hmarks.loadsEffect.row_of_id hmarks.loadsTask.row_of_id
        hmarks.loadsTask.id_eq.symm rfl hkept.1 hkept.2 rfl (cursor_lt_journaledEffect hcan rfl)⟩
  | settleUnexecutedEffect effectId status version call result guard =>
      obtain ⟨_, hreturns⟩ := discard_returns.mp hreturns
      obtain ⟨execution, current, hsettles, rfl | ⟨task, ⟨entry, hcan⟩, hload, -, rfl⟩⟩ :=
        settleUnexecutedEffect_returns hreturns
      · exact Or.inl ⟨rfl, rfl⟩
      · exact Or.inr ⟨task, .of_set hsettles.loadsEffect.row_of_id hload.row_of_id hload.id_eq.symm
          rfl rfl rfl rfl (cursor_lt_journaledEffect hcan rfl)⟩
  | resolveRecovery disposition taskId version resolution =>
      obtain ⟨_, hreturns⟩ := discard_returns.mp hreturns
      obtain ⟨rfl, -⟩ | ⟨task, effect, target, hresolves, hcan, rfl⟩ :=
        resolveRecovery_returns hreturns
      · exact Or.inl ⟨rfl, rfl⟩
      · exact Or.inr ⟨task, tells_recovered hresolves hcan⟩
  | _ =>
      have heffects : s'.effects = s.effects := exec_agrees hreturns .effects rfl
      exact Or.inl ⟨heffects, exec_agrees hreturns .recoveryDispositions rfl⟩

/-- A task never leaves its session. -/
theorem binds_kept {taskId sessionId : String} (hbinds : s.Binds taskId sessionId)
    (hreturns : (exec now op).Returns s () s') : s'.Binds taskId sessionId := by
  obtain ⟨row, hrow, hsession⟩ := hbinds
  have hchange := taskChange hreturns taskId
  have hsame : ∀ {owner : String} {current : Task}, s.LoadsTask owner current →
      taskId = current.id → current = row := by
    rintro owner current hload rfl
    exact Option.some.inj (hload.row_of_id.symm.trans hrow)
  unfold Store.Binds
  generalize s'.tasks.get? taskId = after at hchange
  cases hchange with
  | kept => exact ⟨row, hrow, hsession⟩
  | started hvalid houtcome hid hnew => cases hnew.symm.trans hrow
  | ensured hvalid hid hnew => cases hnew.symm.trans hrow
  | created hvalid hid hnew => cases hnew.symm.trans hrow
  | @bound task current session hvalid hid hcurrent hfree =>
      rcases get?_taskEnsured s task taskId with heq | ⟨-, hnone, -⟩
      · rw [heq, hrow] at hcurrent
        cases hcurrent
        cases hsession.symm.trans hfree
      · cases hnone.symm.trans hrow
  | updated hupdates hid =>
      obtain rfl := hsame hupdates.loadsTask hid
      exact ⟨_, rfl, hupdates.session_eq.symm.trans hsession⟩
  | cancelled hload hstatus hid =>
      obtain rfl := hsame hload hid
      exact ⟨_, rfl, hsession⟩
  | claimed hclaims hid =>
      obtain rfl := hsame hclaims.loadsTask hid
      exact ⟨_, rfl, hsession⟩
  | idled hguards hload hid =>
      obtain rfl := hsame hload hid
      refine ⟨_, rfl, ?_⟩
      unfold Task.idled
      split <;> exact hsession
  | recoveryMarked hexecution hload hid =>
      obtain rfl := hsame hload hid
      exact ⟨_, rfl, hsession⟩
  | waiting hrequests hbranch hid =>
      obtain rfl := hsame hrequests.loadsTask hid
      exact ⟨_, rfl, hsession⟩
  | resumed hresolves hid =>
      obtain rfl := hsame hresolves.loadsTask hid
      refine ⟨_, rfl, ?_⟩
      unfold Task.resumed
      split <;> exact hsession
  | inRecovery hmarks hid =>
      obtain rfl := hsame hmarks.loadsTask hid
      refine ⟨_, rfl, ?_⟩
      unfold Task.inRecovery
      split <;> exact hsession
  | recovered hresolves hid =>
      obtain rfl := hsame hresolves.loadsTask hid
      exact ⟨_, rfl, hsession⟩

/-- A turn comes in together with its event. -/
theorem sameTurns_or_told (hreturns : (exec now op).Returns s () s') (sessionId : String) :
    s.SameTurns s' sessionId ∨ s.cursorOf sessionId < s'.cursorOf sessionId := by
  cases op with
  | appendTurn turn version =>
      obtain ⟨_, hreturns⟩ := discard_returns.mp hreturns
      obtain ⟨-, -, rfl⟩ | ⟨session, hrow, -, -, hfresh, -, -, ⟨entry, hcan⟩, rfl⟩ :=
        appendTurn_returns hreturns
      · exact Or.inl fun _ _ => Iff.rfl
      · have hid : session.id = turn.sessionId := Table.key_of_get? hrow
        rw [← hid] at hrow
        have hadded : (s.addTurn (s.assignedTurn session turn)).sessions.get?
            ({ session with version := session.version + 1 } : Session).id = some session := hrow
        by_cases hsession : sessionId = session.id
        · subst hsession
          refine Or.inr ?_
          calc s.cursorOf session.id
              < session.eventSequence + 1 := by
                rw [cursorOf_of_row hrow]
                exact Nat.lt_succ_self _
            _ = _ := (cursorOf_journaled hadded).symm
        · refine Or.inl fun other hother => ?_
          change other ∈ (s.turns.insert (s.assignedTurn session turn)).rows ↔ other ∈ s.turns.rows
          have hfree : s.turns.get? (s.assignedTurn session turn).id = none := hfresh
          rw [Table.rows_insert hfree, List.mem_append, List.mem_singleton]
          refine or_iff_left ?_
          rintro rfl
          exact hsession (hother.symm.trans hid.symm)
  | _ =>
      have hturns : s'.turns = s.turns := exec_agrees hreturns .turns rfl
      exact Or.inl fun turn _ => by rw [hturns]

/-! ### Runs -/

/-- What a client knows of a task stands as it did. -/
structure Store.Stands (s s' : Store) (taskId sessionId : String) : Prop where
  effects : s.SameEffects s' taskId
  dispositions : s.SameDispositions s' taskId
  turns : s.SameTurns s' sessionId

omit [Sha256] in
theorem Store.Stands.refl (s : Store) (taskId sessionId : String) : s.Stands s taskId sessionId where
  effects _ _ _ := Iff.rfl
  dispositions _ _ _ _ := rfl
  turns _ _ := Iff.rfl

omit [Sha256] in
theorem Store.Stands.trans {taskId sessionId : String} (hfirst : s.Stands t taskId sessionId)
    (hsecond : t.Stands s' taskId sessionId) : s.Stands s' taskId sessionId where
  effects id effect howner :=
    (hsecond.effects id effect howner).trans (hfirst.effects id effect howner)
  dispositions id effect hrow howner := by
    have hkept : t.effects.get? id = some effect := (hfirst.effects id effect howner).mpr hrow
    calc s'.dispositionOfEffect id
        = t.dispositionOfEffect id := hsecond.dispositions id effect hkept howner
      _ = s.dispositionOfEffect id := hfirst.dispositions id effect hrow howner
  turns turn hsession := (hsecond.turns turn hsession).trans (hfirst.turns turn hsession)

/-- A step after which the session has counted no event has left the task as it stood. -/
theorem stands_of_quiet {taskId sessionId : String} (hbinds : s.Binds taskId sessionId)
    (hreturns : (exec now op).Returns s () s')
    (hquiet : s'.cursorOf sessionId ≤ s.cursorOf sessionId) : s.Stands s' taskId sessionId := by
  obtain ⟨row, hrow, hsession⟩ := hbinds
  have hturns : s.SameTurns s' sessionId :=
    (sameTurns_or_told hreturns sessionId).resolve_right (Nat.not_lt.mpr hquiet)
  rcases quiet_or_tells hreturns with ⟨heffects, hdispositions⟩ | ⟨task, htells⟩
  · exact ⟨sameEffects_of_table heffects taskId, sameDispositions_of_table hdispositions taskId,
      hturns⟩
  · have hother : taskId ≠ task.id := by
      rintro rfl
      cases htells.row.symm.trans hrow
      exact absurd (htells.cursor sessionId hsession) (Nat.not_lt.mpr hquiet)
    exact ⟨htells.effects taskId hother, htells.dispositions taskId hother, hturns⟩

theorem cursorOf_le_step (s : Store) (timed : Timed) (sessionId : String) :
    s.cursorOf sessionId ≤ (step s timed).cursorOf sessionId := by
  obtain hsame | hreturns := step_cases s timed
  · rw [hsame]
  · exact cursorOf_le (journalGrows hreturns) sessionId

theorem cursorOf_le_run (s : Store) (history : List Timed) (sessionId : String) :
    s.cursorOf sessionId ≤ (runFrom s history).cursorOf sessionId :=
  Run.preserved_after (fun t => s.cursorOf sessionId ≤ t.cursorOf sessionId)
    (fun t timed hle => Nat.le_trans hle (cursorOf_le_step t timed sessionId)) history
    (Nat.le_refl _)

/-- As long as the session of a task counts no new event, no effect of the task has changed or come
up, none of its recoveries has been decided, and the session has no new turn. -/
theorem quiet_journal (history : List Timed) {taskId sessionId : String}
    (hbinds : s.Binds taskId sessionId)
    (hquiet : (runFrom s history).cursorOf sessionId = s.cursorOf sessionId) :
    s.Stands (runFrom s history) taskId sessionId := by
  induction history generalizing s with
  | nil => exact .refl s taskId sessionId
  | cons timed rest ih =>
      have hfirst : s.cursorOf sessionId ≤ (step s timed).cursorOf sessionId :=
        cursorOf_le_step s timed sessionId
      have hrest : (step s timed).cursorOf sessionId
          ≤ (runFrom (step s timed) rest).cursorOf sessionId :=
        cursorOf_le_run (step s timed) rest sessionId
      have hrun : runFrom s (timed :: rest) = runFrom (step s timed) rest := rfl
      rw [hrun] at hquiet ⊢
      obtain hsame | hreturns := step_cases s timed
      · rw [hsame] at hquiet ⊢
        exact ih hbinds hquiet
      · have hstands : s.Stands (step s timed) taskId sessionId :=
          stands_of_quiet hbinds hreturns (by omega)
        exact hstands.trans (ih (binds_kept hbinds hreturns) (by omega))

end Operations

section Samples

local instance quietDigest : Sha256 := Sample.digest

/-- The owner renews its lease and its writer while the client waits. -/
theorem quiet_journal_renewing :
    (runFrom {} (Sample.started "s" "a" "x" 100)).Stands
      (runFrom (runFrom {} (Sample.started "s" "a" "x" 100))
        [⟨2, .renewExecution (Sample.guard "x" "a") 200⟩]) "a" "s" := by
  have htask : ((runFrom {} (Sample.started "s" "a" "x" 100)).tasks.get? "a").bind Task.sessionId
      = some "s" := by
    decide +kernel
  refine quiet_journal _ (Option.bind_eq_some_iff.mp htask) ?_
  decide +kernel

end Samples

end PatchLoop
