import PatchLoop.Store.Frame

/-!
# How task rows change

For a row of `tasks`, each way in which an operation may change it, with what the operation has
checked.
-/

namespace PatchLoop

open Transaction

variable [Sha256] {s s' : Store} {now : Timestamp} {op : Op} {u : Unit}

/-- What an operation leaves in a task row. -/
inductive TaskChange (s : Store) (now : Timestamp) (id : String) : Op → Option Task → Prop where
  | kept (op : Op) : TaskChange s now id op (s.tasks.get? id)
  | started {sessionId : String} {task : Task} {version : Nat} (hvalid : task.ValidStateDimensions)
      (houtcome : task.outcome = .active) (hid : id = task.id) (hnew : s.tasks.get? id = none)
      (hsession : s.HasSession (some sessionId)) :
      TaskChange s now id (.startTask sessionId task version)
        (some { task with sessionId := some sessionId })
  | ensured {task : Task} (hvalid : task.ValidStateDimensions) (hid : id = task.id)
      (hnew : s.tasks.get? id = none) (hsession : s.HasSession task.sessionId) :
      TaskChange s now id (.prepareTaskExecution task) (some task)
  | bound {task current : Task} {session : Session} (hvalid : task.ValidStateDimensions)
      (hid : id = task.id) (hrow : (s.taskEnsured task).tasks.get? id = some current)
      (hfree : current.sessionId = none) :
      TaskChange s now id (.prepareTaskExecution task) (some (current.boundTo session))
  | created {task : Task} (hvalid : task.ValidStateDimensions) (hid : id = task.id)
      (hnew : s.tasks.get? id = none) (hsession : s.HasSession task.sessionId) :
      TaskChange s now id (.createTask task) (some task)
  | updated {task current : Task} {version : Nat} {guard : Option LeaseGuard}
      (hupdates : s.UpdatesTask now task version guard current) (hid : id = current.id) :
      TaskChange s now id (.updateTask task version guard)
        (some { task with version := current.version + 1 })
  | cancelled {taskId controlId : String} {task : Task} (hload : s.LoadsTask taskId task)
      (hstatus : task.status ∈ [TaskStatus.created, .running]) (hid : id = task.id) :
      TaskChange s now id (.cancelTask taskId controlId) (some task.cancelled)
  | claimed {execution : Execution} {version : Option Nat} {session : Session} {task : Task}
      (hclaims : s.ClaimsExecution now execution version session task) (hid : id = task.id) :
      TaskChange s now id (.claimExecution execution version)
        (some { task with runtimeCondition := .running, version := task.version + 1 })
  | idled {guard : LeaseGuard} {execution : Execution} {task : Task}
      (hguards : s.Guards now guard execution) (hload : s.LoadsTask execution.taskId task)
      (hid : id = task.id) :
      TaskChange s now id (.releaseExecution guard) (some task.idled)
  | recoveryMarked {identity : ManagedCommandIdentity} {cleanupInfo : String}
      {execution : Execution} {task : Task}
      (hrow : s.executions.get? identity.executionId = some execution)
      (hload : s.LoadsTask execution.taskId task) (hid : id = task.id) :
      TaskChange s now id (.markCommandRecoveryRequired identity cleanupInfo)
        (some task.recoveryMarked)
  | waiting {effectId : String} {approval : Approval} {version : Nat} {guard : LeaseGuard}
      {execution : Execution} {current : Effect} {task : Task}
      (hrequests : s.RequestsApproval now effectId approval version guard execution current task)
      (hbranch : current.status = .waitingForApproval ∨ task.runtimeCondition = .running)
      (hid : id = task.id) :
      TaskChange s now id (.requestEffectApproval effectId approval version guard)
        (some task.waiting)
  | resumed {approvalId : String} {approved : Bool} {source : String} {version : Nat}
      {workspaceRef policyVersion configVersion : String} {current : Approval} {effect : Effect}
      {task : Task} {actualConfig : String}
      (hresolves : s.ResolvesApproval approvalId version workspaceRef policyVersion configVersion
        current effect task actualConfig) (hid : id = task.id) :
      TaskChange s now id
        (.resolveEffectApproval approvalId approved source version workspaceRef policyVersion
          configVersion)
        (some task.resumed)
  | inRecovery {effectId : String} {version : Nat} {evidence : Json} {guard : LeaseGuard}
      {execution : Execution} {current : Effect} {task : Task}
      (hmarks : s.MarksUnknown now effectId version guard execution current task)
      (hid : id = task.id) :
      TaskChange s now id (.markEffectUnknown effectId version evidence guard)
        (some task.inRecovery)
  | recovered {disposition : RecoveryDisposition} {taskId : String} {version : Nat}
      {resolution : Resolution} {task : Task} {effect : Effect} {target : TaskRuntimeCondition}
      (hresolves : s.Resolves disposition taskId version resolution task effect target)
      (hid : id = task.id) :
      TaskChange s now id (.resolveRecovery disposition taskId version resolution)
        (some (task.recovered disposition.kind target))

omit [Sha256] in
theorem Store.LoadsTask.row_of_id {taskId : String} {task : Task}
    (hload : s.LoadsTask taskId task) : s.tasks.get? task.id = some task := by
  rw [hload.id_eq]
  exact hload.1

/-- The row of a task that an operation inserts. -/
theorem TaskChange.of_insert {id : String} {task : Task} (hnew : s.tasks.get? task.id = none)
    (hchange : id = task.id → s.tasks.get? id = none → TaskChange s now id op (some task))
    (htable : s'.tasks = s.tasks.insert task) : TaskChange s now id op (s'.tasks.get? id) := by
  have hget := Table.get?_insert task hnew id
  rw [htable, hget]
  split
  · rename_i hid
    exact hchange hid (by rw [hid]; exact hnew)
  · exact .kept op

/-- The row of a task that an operation writes back. -/
theorem TaskChange.of_set {id : String} {current written : Task}
    (hrow : s.tasks.get? current.id = some current)
    (hchange : id = current.id → TaskChange s now id op (some written))
    (htable : s'.tasks = s.tasks.set written) (hkey : written.id = current.id) :
    TaskChange s now id op (s'.tasks.get? id) := by
  rw [htable, Table.get?_set_row hrow id hkey]
  split
  · rename_i hid
    exact hchange hid
  · exact .kept op

omit [Sha256] in
theorem get?_taskEnsured (s : Store) (task : Task) (id : String) :
    (s.taskEnsured task).tasks.get? id = s.tasks.get? id
      ∨ id = task.id ∧ s.tasks.get? id = none ∧ (s.taskEnsured task).tasks.get? id = some task := by
  unfold Store.taskEnsured
  split
  · rename_i hnew
    have hget : (s.addTask task).tasks.get? id
        = if id = task.id then some task else s.tasks.get? id :=
      Table.get?_insert task hnew id
    rw [hget]
    by_cases hid : id = task.id
    · rw [if_pos hid]
      exact Or.inr ⟨hid, by rw [hid]; exact hnew, rfl⟩
    · rw [if_neg hid]
      exact Or.inl rfl
  · exact Or.inl rfl

theorem taskChange_of_prepare {task result : Task} {id : String}
    (hreturns : (prepareTaskExecution task).Returns s result s') :
    TaskChange s now id (.prepareTaskExecution task) (s'.tasks.get? id) := by
  obtain ⟨current, hvalid, hrow, hreference, hbranch⟩ := prepareTaskExecution_returns hreturns
  have hensured : TaskChange s now id (.prepareTaskExecution task)
      ((s.taskEnsured task).tasks.get? id) := by
    rcases get?_taskEnsured s task id with hsame | ⟨hid, hnew, hget⟩
    · rw [hsame]
      exact .kept _
    · rw [hget]
      exact .ensured hvalid hid hnew (hreference (hid ▸ hnew))
  rcases hbranch with rfl | ⟨hfree, session, -, -, hstate⟩
  · exact hensured
  · have htable : s'.tasks = (s.taskEnsured task).tasks.set (current.boundTo session) := by
      have hsession : ((s.taskEnsured task).runtimeSessionEnsured current).tasks
          = (s.taskEnsured task).tasks := by
        unfold Store.runtimeSessionEnsured
        split <;> rfl
      rcases hstate with ⟨-, rfl⟩ | ⟨-, rfl⟩
      · rw [Store.putTask_tasks, hsession]
      · rw [Store.putSession_tasks, Store.putTask_tasks, hsession]
    have hkey : current.id = task.id := Table.key_of_get? hrow
    rw [htable, Table.get?_set_row hrow]
    · split
      · rename_i hid
        exact .bound hvalid hid (by rw [hid]; exact hrow) hfree
      · exact hensured
    · exact hkey

theorem taskChange (hreturns : (exec now op).Returns s u s') (id : String) :
    TaskChange s now id op (s'.tasks.get? id) := by
  cases op with
  | startTask sessionId task version =>
      obtain ⟨_, hreturns⟩ := discard_returns.mp hreturns
      obtain ⟨session, hvalid, hrow, -, -, -, houtcome, hnew, _, rfl⟩ := startTask_returns hreturns
      have hsession : s.HasSession (some sessionId) := by simp [Store.HasSession, hrow]
      have hrow : s.tasks.get? { task with sessionId := some sessionId }.id = none := hnew
      exact .of_insert hrow (fun hid hnone => .started hvalid houtcome hid hnone hsession) rfl
  | prepareTaskExecution task =>
      obtain ⟨_, hreturns⟩ := discard_returns.mp hreturns
      exact taskChange_of_prepare hreturns
  | createTask task =>
      obtain ⟨_, hreturns⟩ := discard_returns.mp hreturns
      obtain ⟨hvalid, hnew, hsession, ⟨-, rfl⟩ | ⟨_, -, _, rfl⟩⟩ := createTask_returns hreturns
      · exact .of_insert hnew (fun hid hnone => .created hvalid hid hnone hsession) rfl
      · exact .of_insert hnew (fun hid hnone => .created hvalid hid hnone hsession) rfl
  | updateTask task version guard =>
      obtain ⟨_, hreturns⟩ := discard_returns.mp hreturns
      obtain ⟨current, hupdates, hstate⟩ := updateTask_returns hreturns
      refine .of_set hupdates.loadsTask.row_of_id (.updated hupdates) ?_
        hupdates.loadsTask.id_eq.symm
      rcases hstate with ⟨-, rfl⟩ | ⟨_, _, -, -, -, _, rfl⟩
      · rfl
      · rfl
  | cancelTask taskId controlId =>
      obtain ⟨_, hreturns⟩ := discard_returns.mp hreturns
      obtain ⟨task, hload, rfl | ⟨_, rfl⟩ | ⟨hstatus, _, ⟨-, rfl⟩ | ⟨_, -, -, rfl⟩⟩⟩ :=
        cancelTask_returns hreturns
      · exact .kept _
      · exact .kept _
      · exact .of_set hload.row_of_id (.cancelled hload hstatus) rfl rfl
      · exact .of_set hload.row_of_id (.cancelled hload hstatus) rfl rfl
  | claimExecution execution version =>
      obtain ⟨_, hreturns⟩ := discard_returns.mp hreturns
      obtain ⟨session, task, hclaims, -, entry, rfl⟩ := claimExecution_returns hreturns
      exact .of_set hclaims.loadsTask.row_of_id (.claimed hclaims) rfl rfl
  | releaseExecution guard =>
      obtain ⟨execution, task, hguards, hload, _, rfl⟩ := releaseExecution_returns hreturns
      refine .of_set hload.row_of_id (.idled hguards hload) rfl ?_
      unfold Task.idled
      split <;> rfl
  | markCommandRecoveryRequired identity cleanupInfo =>
      obtain ⟨_, hreturns⟩ := discard_returns.mp hreturns
      obtain ⟨execution, task, hrow, hload, -, _, rfl⟩ := markCommandRecoveryRequired_returns hreturns
      exact .of_set hload.row_of_id (.recoveryMarked hrow hload) rfl rfl
  | requestEffectApproval effectId approval version guard =>
      obtain ⟨_, hreturns⟩ := discard_returns.mp hreturns
      obtain ⟨execution, current, task, hrequests, ⟨hwaiting, rfl⟩ | ⟨-, -, -, -, hrunning, -, rfl⟩⟩ :=
        requestEffectApproval_returns hreturns
      · exact .of_set hrequests.loadsTask.row_of_id (.waiting hrequests (Or.inl hwaiting)) rfl rfl
      · exact .of_set hrequests.loadsTask.row_of_id (.waiting hrequests (Or.inr hrunning)) rfl rfl
  | resolveEffectApproval approvalId approved source version workspaceRef policyVersion
      configVersion =>
      obtain ⟨_, hreturns⟩ := discard_returns.mp hreturns
      obtain rfl | ⟨current, effect, task, actualConfig, hresolves, -, rfl⟩ :=
        resolveEffectApproval_returns hreturns
      · exact .kept _
      · refine .of_set hresolves.loadsTask.row_of_id (.resumed hresolves) rfl ?_
        unfold Task.resumed
        split <;> rfl
  | markEffectUnknown effectId version evidence guard =>
      obtain ⟨_, hreturns⟩ := discard_returns.mp hreturns
      obtain ⟨execution, current, task, entry, hmarks, rfl⟩ := markEffectUnknown_returns hreturns
      refine .of_set hmarks.loadsTask.row_of_id (.inRecovery hmarks) rfl ?_
      unfold Task.inRecovery
      split <;> rfl
  | resolveRecovery disposition taskId version resolution =>
      obtain ⟨_, hreturns⟩ := discard_returns.mp hreturns
      obtain ⟨rfl, -⟩ | ⟨task, effect, target, hresolves, -, rfl⟩ := resolveRecovery_returns hreturns
      · exact .kept _
      · refine .of_set hresolves.loadsTask.row_of_id (.recovered hresolves) ?_ rfl
        cases hresolves.valid <;> rfl
  | _ =>
      have htable : s'.tasks = s.tasks := exec_agrees hreturns .tasks rfl
      rw [htable]
      exact .kept _

end PatchLoop
