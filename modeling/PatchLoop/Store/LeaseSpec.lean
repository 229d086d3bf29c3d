import PatchLoop.Store.Journal

/-!
# What the ownership operations do

For each operation on executions, workspace leases and managed commands, the checks it has passed
when it returns and the database it leaves.
-/

namespace PatchLoop

open Transaction

variable [Sha256] {s s' : Store} {now : Timestamp}

/-! ### Takeover -/

/-- The database after the active executions in a list have been released. -/
@[simps] def Store.released (s : Store) (rows : List Execution) : Store :=
  { s with executions := rows.foldl (fun table row => table.set (row.ended .released)) s.executions }

omit [Sha256] in
theorem expireExecutions_returns {resourceId : String} {rows : List Execution} {takeover : Bool}
    (hreturns : (expireExecutions now resourceId rows).Returns s takeover s') :
    (∀ row ∈ rows, row.leaseExpiresAt ≤ now) ∧ s' = s.released rows := by
  induction rows generalizing s takeover with
  | nil =>
      obtain ⟨-, rfl⟩ := pure_returns.mp hreturns
      exact ⟨by simp, rfl⟩
  | cons row rest ih =>
      simp only [expireExecutions, bind_returns, raiseIf_returns, writeExecution_returns,
        pure_returns, existsAndEq, exists_const, true_and, and_assoc, Nat.not_lt] at hreturns
      obtain ⟨hexpired, -, _, hrest, -⟩ := hreturns
      obtain ⟨hothers, rfl⟩ := ih hrest
      exact ⟨List.forall_mem_cons.mpr ⟨hexpired, hothers⟩, rfl⟩

omit [Sha256] in
theorem mem_activeExecutions {selects : Execution → Bool} {row : Execution} :
    row ∈ s.activeExecutions selects
      ↔ row ∈ s.executions.rows ∧ selects row = true ∧ row.status.Active := by
  rw [Store.activeExecutions, (List.perm_insertionSort _ _).mem_iff, List.mem_filter]
  simp

omit [Sha256] in
/-- Releasing what `activeExecutions` selects maps the rows of the table in place. -/
theorem rows_released (selects : Execution → Bool) :
    (s.released (s.activeExecutions selects)).executions.rows
      = s.executions.rows.map fun row =>
          if selects row = true ∧ row.status.Active then row.ended .released else row := by
  have hrows : ∀ row ∈ s.activeExecutions selects, s.executions.get? row.id = some row :=
    fun row hrow => Table.get?_of_mem (mem_activeExecutions.mp hrow).1
  have hnodup : ((s.activeExecutions selects).map Keyed.key).Nodup := by
    have hperm := (List.perm_insertionSort (fun left right : Execution =>
      right.generation ≤ left.generation) (s.executions.rows.filter fun row =>
        selects row ∧ row.status.Active)).map Keyed.key
    exact hperm.nodup_iff.mpr (s.executions.nodup.sublist (List.filter_sublist.map _))
  rw [Store.released_executions,
    Table.rows_foldl_set (f := fun row => row.ended .released) (fun _ => rfl) hrows hnodup]
  refine List.map_congr_left fun row hrow => ?_
  simp [mem_activeExecutions, hrow]

/-! ### Executions -/

/-- What a claim of an execution finds. -/
structure Store.ClaimsExecution (s : Store) (now : Timestamp) (execution : Execution)
    (version : Option Nat) (session : Session) (task : Task) : Prop where
  future : now < execution.leaseExpiresAt
  session_row : s.sessions.get? execution.sessionId = some session
  loadsTask : s.LoadsTask execution.taskId task
  version_eq : ∀ expected ∈ version, task.version = expected
  bound : task.sessionId = some execution.sessionId
  recovered : task.runtimeCondition ≠ .recoveryRequired
  expired : ∀ row ∈ s.executions.rows, row.status.Active →
    row.sessionId = execution.sessionId ∨ row.taskId = execution.taskId →
      row.leaseExpiresAt ≤ now
  fresh : s.executions.get? execution.id = none
  token : ∀ row ∈ s.executions.rows, row.leaseToken ≠ execution.leaseToken

/-- The row of a claimed execution. -/
def Execution.claimed (execution : Execution) (generation : Nat) : Execution :=
  { execution with generation := generation, status := .running }

/-- The database after the takeover of a claim: every active execution of the session, and then of
the task, is released. -/
def Store.takenOver (s : Store) (execution : Execution) : Store :=
  let t := s.released (s.activeExecutions fun row => row.sessionId = execution.sessionId)
  t.released (t.activeExecutions fun row => row.taskId = execution.taskId)

omit [Sha256] in
theorem ended_released_inactive (execution : Execution) :
    ¬ (execution.ended .released).status.Active := by
  simp [Execution.ended, ExecutionStatus.Active]

omit [Sha256] in
theorem rows_takenOver (execution : Execution) :
    (s.takenOver execution).executions.rows = s.executions.rows.map fun row =>
      if (row.sessionId = execution.sessionId ∨ row.taskId = execution.taskId)
          ∧ row.status.Active then
        row.ended .released
      else row := by
  rw [Store.takenOver, rows_released, rows_released, List.map_map]
  refine List.map_congr_left fun row _ => ?_
  by_cases hsession : row.sessionId = execution.sessionId ∧ row.status.Active
  · have hinactive := ended_released_inactive row
    simp [hsession, hinactive]
  · by_cases htask : row.taskId = execution.taskId ∧ row.status.Active
    · have hne : row.sessionId ≠ execution.sessionId := fun h => hsession ⟨h, htask.2⟩
      simp [htask, hne]
    · simp only [Function.comp_apply, decide_eq_true_eq, if_neg hsession, if_neg htask]
      rw [if_neg]
      rintro ⟨h | h, hactive⟩
      · exact hsession ⟨h, hactive⟩
      · exact htask ⟨h, hactive⟩

omit [Sha256] in
/-- A takeover changes no column that a later query of the claim reads. -/
theorem map_takenOver {β : Type} (execution : Execution) (column : Execution → β)
    (hcolumn : ∀ row : Execution, column (row.ended .released) = column row) :
    (s.takenOver execution).executions.rows.map column = s.executions.rows.map column := by
  rw [rows_takenOver, List.map_map]
  refine List.map_congr_left fun row _ => ?_
  simp only [Function.comp_apply]
  split
  · exact hcolumn row
  · rfl

omit [Sha256] in
theorem get?_takenOver_eq_none (execution : Execution) (id : String) :
    (s.takenOver execution).executions.get? id = none ↔ s.executions.get? id = none := by
  rw [Table.get?_eq_none_iff, Table.get?_eq_none_iff, map_takenOver execution _ fun _ => rfl]

omit [Sha256] in
theorem lastGeneration_takenOver (execution : Execution) (taskId : String) :
    (s.takenOver execution).lastGeneration taskId = s.lastGeneration taskId := by
  have hcolumn := map_takenOver (s := s) execution
    (fun row => (row.taskId, row.generation)) fun _ => rfl
  have hquery : ∀ t : Store, t.lastGeneration taskId
      = (((t.executions.rows.map fun row => (row.taskId, row.generation)).filter
          fun pair => pair.1 = taskId).map Prod.snd).foldr max 0 := by
    intro t
    rw [Store.lastGeneration, List.filter_map, List.map_map]
    rfl
  rw [hquery, hquery, hcolumn]

/-- The database that a claim of an execution leaves. -/
def Store.executionClaimed (s : Store) (now : Timestamp) (execution : Execution) (session : Session)
    (task : Task) (entry : Entry) : Store :=
  (((s.takenOver execution).addExecution
    (execution.claimed (s.lastGeneration execution.taskId + 1))).putTask
      { task with runtimeCondition := .running, version := task.version + 1 }).journaled now session
        entry

theorem claimExecution_returns {execution claimed : Execution} {version : Option Nat}
    (hreturns : (claimExecution now execution version).Returns s claimed s') :
    ∃ session task, s.ClaimsExecution now execution version session task
      ∧ claimed = execution.claimed (s.lastGeneration execution.taskId + 1)
      ∧ ∃ entry : { entry // (((s.takenOver execution).addExecution
            (execution.claimed (s.lastGeneration execution.taskId + 1))).putTask
          { task with runtimeCondition := .running, version := task.version + 1 }).CanJournal session
            entry },
          s' = s.executionClaimed now execution session task entry := by
  simp only [claimExecution, bind_returns, raiseIf_returns, requireSession_returns, query_returns,
    requireTask_returns, checkVersion_returns, insertExecution_returns, writeTask_returns,
    journal_returns, pure_returns, existsAndEq, exists_const, true_and, and_assoc, not_not, ne_eq,
    Nat.not_le] at hreturns
  obtain ⟨hfuture, session, hsession, sessionTakeover, _, hsessionRows, task, htask, hversion, hbound,
    hrecovered, taskTakeover, _, htaskRows, hfresh, htoken, -, -, hjournal, rfl, rfl⟩ := hreturns
  obtain ⟨hexpired, rfl⟩ := expireExecutions_returns hsessionRows
  obtain ⟨hexpired', rfl⟩ := expireExecutions_returns htaskRows
  have hgeneration : (s.takenOver execution).lastGeneration execution.taskId
      = s.lastGeneration execution.taskId := lastGeneration_takenOver execution _
  refine ⟨session, task, ⟨hfuture, hsession, htask, hversion, hbound, hrecovered, ?_, ?_, ?_⟩,
    congrArg (fun generation => execution.claimed (generation + 1)) hgeneration, ?_⟩
  · intro row hrow hactive hsame
    by_cases hsessionRow : row.sessionId = execution.sessionId
    · exact hexpired row (mem_activeExecutions.mpr ⟨hrow, by simpa using hsessionRow, hactive⟩)
    · have htaskRow : row.taskId = execution.taskId := hsame.resolve_left hsessionRow
      refine hexpired' row (mem_activeExecutions.mpr ⟨?_, by simpa using htaskRow, hactive⟩)
      rw [rows_released]
      exact List.mem_map.mpr ⟨row, hrow, by simp [hsessionRow]⟩
  · exact (get?_takenOver_eq_none execution execution.id).mp hfresh
  · intro row hrow heq
    refine htoken ?_
    change execution.leaseToken ∈ (s.takenOver execution).executions.rows.map Execution.leaseToken
    rw [map_takenOver execution _ fun _ => rfl]
    exact List.mem_map.mpr ⟨row, hrow, heq⟩
  · unfold Store.executionClaimed
    rw [← hgeneration]
    exact ⟨⟨_, hjournal⟩, rfl⟩

omit [Sha256] in
theorem renewExecution_returns {guard : LeaseGuard} {leaseExpiresAt : Timestamp}
    {renewed : Execution}
    (hreturns : (renewExecution now guard leaseExpiresAt).Returns s renewed s') :
    ∃ execution, s.Guards now guard execution ∧ now < leaseExpiresAt
      ∧ s' = s.putExecution
          { execution with leaseExpiresAt := leaseExpiresAt, version := execution.version + 1 } := by
  simp only [renewExecution, bind_returns, raiseIf_returns, assertGuard_returns,
    writeExecution_returns, pure_returns, existsAndEq, exists_const, true_and, and_assoc,
    Nat.not_le] at hreturns
  obtain ⟨hfuture, execution, hguard, -, -, rfl⟩ := hreturns
  exact ⟨execution, hguard, hfuture, rfl⟩

/-- The task that a released execution leaves. -/
def Task.idled (task : Task) : Task :=
  if task.runtimeCondition = .running then
    { task with runtimeCondition := .idle, version := task.version + 1 }
  else task

theorem releaseExecution_returns {guard : LeaseGuard} {u : Unit}
    (hreturns : (releaseExecution now guard).Returns s u s') :
    ∃ execution task, s.Guards now guard execution ∧ s.LoadsTask execution.taskId task
      ∧ ((s.putExecution (execution.ended .released)).putTask task.idled).JournalsFor now task s' := by
  simp only [releaseExecution, bind_returns, assertGuard_returns, writeExecution_returns,
    requireTask_returns, doIf_returns, writeTask_returns, journalTask_returns, pure_returns,
    existsAndEq, exists_const, true_and, and_assoc] at hreturns
  obtain ⟨execution, hguard, -, task, htask, t, hidle, hjournal, rfl⟩ := hreturns
  refine ⟨execution, task, hguard, htask, ?_⟩
  have ht : t = (s.putExecution (execution.ended .released)).putTask task.idled := by
    rcases hidle with ⟨hrunning, -, rfl⟩ | ⟨hrunning, rfl⟩
    · rw [Task.idled, if_pos hrunning]
    · rw [Task.idled, if_neg hrunning]
      have hrow : s.tasks.get? task.id = some task := by
        rw [htask.id_eq]
        exact htask.1
      simp only [Store.putTask, Store.putExecution_tasks, Table.set_eq_self hrow]
      rfl
  rw [← ht]
  exact ⟨⟨_, hjournal⟩, rfl⟩

/-! ### Workspace writers -/

/-- What an acquisition of a workspace writer finds: the guard's execution, for which the lease is,
and no other writer whose lease still runs. -/
structure Store.AcquiresWorkspace (s : Store) (now : Timestamp) (lease : WorkspaceLease)
    (guard : LeaseGuard) (execution : Execution) : Prop where
  future : now < lease.leaseExpiresAt
  guards : s.Guards now guard execution
  execution_eq : lease.executionId = execution.id
  session_eq : lease.sessionId = execution.sessionId
  task_eq : lease.taskId = execution.taskId
  owner_eq : lease.ownerId = execution.ownerId
  expired : ∀ row ∈ s.workspaceLeases.get? lease.workspaceId, row.leaseExpiresAt ≤ now
  token : ∀ row ∈ s.workspaceLeases.get? lease.workspaceId, row.leaseToken ≠ lease.leaseToken

/-- The row that an acquisition writes. -/
def Store.acquiredLease (s : Store) (lease : WorkspaceLease) : WorkspaceLease :=
  { lease with generation :=
      ((s.workspaceLeases.get? lease.workspaceId).map WorkspaceLease.generation).getD 0 + 1 }

theorem acquireWorkspaceWriter_returns {lease acquired : WorkspaceLease} {guard : LeaseGuard}
    (hreturns : (acquireWorkspaceWriter now lease guard).Returns s acquired s') :
    ∃ execution session, s.AcquiresWorkspace now lease guard execution
      ∧ s.sessions.get? lease.sessionId = some session ∧ acquired = s.acquiredLease lease
      ∧ (s.upsertWorkspaceLease (s.acquiredLease lease)).Journals now session s' := by
  simp only [acquireWorkspaceWriter, bind_returns, raiseIf_returns, assertGuard_returns,
    query_returns, modify_returns, requireSession_returns, journal_returns, pure_returns,
    existsAndEq, exists_const, true_and, and_assoc, not_or, not_not, ne_eq, Nat.not_le] at hreturns
  obtain ⟨hfuture, execution, hguard, hexecution, hsessionId, htask, howner, hexpired, htoken,
    session, hsession, hjournal, rfl, rfl⟩ := hreturns
  refine ⟨execution, session, ⟨hfuture, hguard, hexecution, hsessionId, htask, howner, ?_, ?_⟩,
    hsession, rfl, ⟨⟨_, hjournal⟩, rfl⟩⟩
  · intro row hrow
    simpa [Option.mem_def.mp hrow] using hexpired
  · intro row hrow
    simpa [Option.mem_def.mp hrow] using htoken

omit [Sha256] in
theorem renewWorkspaceWriter_returns {guard : WorkspaceLeaseGuard} {leaseExpiresAt : Timestamp}
    {renewed : WorkspaceLease}
    (hreturns : (renewWorkspaceWriter now guard leaseExpiresAt).Returns s renewed s') :
    ∃ existing, s.GuardsWorkspace now guard existing ∧ now < leaseExpiresAt
      ∧ s' = s.putWorkspaceLease { existing with leaseExpiresAt := leaseExpiresAt } := by
  simp only [renewWorkspaceWriter, bind_returns, raiseIf_returns, assertWorkspaceGuard_returns,
    writeWorkspaceLease_returns, pure_returns, existsAndEq, exists_const, true_and, and_assoc,
    Nat.not_le] at hreturns
  obtain ⟨hfuture, existing, hguard, -, -, rfl⟩ := hreturns
  exact ⟨existing, hguard, hfuture, rfl⟩

theorem releaseWorkspaceWriter_returns {guard : WorkspaceLeaseGuard} {u : Unit}
    (hreturns : (releaseWorkspaceWriter now guard).Returns s u s') :
    ∃ existing session, s.GuardsWorkspace now guard existing
      ∧ s.sessions.get? existing.sessionId = some session
      ∧ (s.putWorkspaceLease { existing with leaseExpiresAt := now }).Journals now session s' := by
  simp only [releaseWorkspaceWriter, bind_returns, assertWorkspaceGuard_returns,
    writeWorkspaceLease_returns, requireSession_returns, journal_returns, pure_returns, existsAndEq,
    exists_const, true_and, and_assoc] at hreturns
  obtain ⟨existing, hguard, -, session, hsession, hjournal, rfl⟩ := hreturns
  exact ⟨existing, session, hguard, hsession, ⟨⟨_, hjournal⟩, rfl⟩⟩

/-! ### Managed commands -/

omit [Sha256] in
theorem registerManagedCommand_returns {identity result : ManagedCommandIdentity}
    {guard : LeaseGuard}
    (hreturns : (registerManagedCommand now identity guard).Returns s result s') :
    ∃ execution, s.Guards now guard execution ∧ identity.executionId = execution.id
      ∧ s.managedCommands.get? identity.id = none ∧ s' = s.addManagedCommand identity := by
  simp only [registerManagedCommand, bind_returns, assertGuard_returns, raiseIf_returns,
    query_returns, modify_returns, pure_returns, existsAndEq, exists_const, true_and, and_assoc,
    not_not, ne_eq] at hreturns
  obtain ⟨execution, hguard, howner, hfresh, -, rfl⟩ := hreturns
  exact ⟨execution, hguard, howner, hfresh, rfl⟩

omit [Sha256] in
theorem finishManagedCommand_returns {identity result : ManagedCommandIdentity}
    (hreturns : (finishManagedCommand identity).Returns s result s') :
    (s.managedCommands.get? identity.id = some result ∧ ¬ result.status.Unfinished ∧ s' = s)
      ∨ ∃ current, s.managedCommands.get? identity.id = some current ∧ current.status.Unfinished
        ∧ current.immutableIdentity = identity.immutableIdentity ∧ identity.status ≠ .running
        ∧ result = identity ∧ s' = s.putManagedCommand identity := by
  simp only [finishManagedCommand, bind_returns, raiseIf_returns, query_returns, orRaise_returns,
    ite_returns, modify_returns, pure_returns, existsAndEq, exists_const, true_and, and_assoc,
    not_not, ne_eq] at hreturns
  obtain ⟨hstatus, current, hrow, hsame, ⟨hfinished, rfl, rfl⟩ | ⟨hopen, rfl, rfl⟩⟩ := hreturns
  · refine Or.inl ⟨hrow, ?_, rfl⟩
    rcases hfinished with hexited | hterminated
    · simp [ManagedCommandStatus.Unfinished, hexited]
    · simp [ManagedCommandStatus.Unfinished, hterminated]
  · refine Or.inr ⟨current, hrow, ?_, hsame, hstatus, rfl, rfl⟩
    cases hcurrent : current.status <;> simp_all [ManagedCommandStatus.Unfinished]

/-- The task that a failed command cleanup leaves. -/
def Task.recoveryMarked (task : Task) : Task :=
  { task with runtimeCondition := .recoveryRequired, version := task.version + 1 }

theorem markCommandRecoveryRequired_returns {identity : ManagedCommandIdentity}
    {cleanupInfo result : String}
    (hreturns : (markCommandRecoveryRequired now identity cleanupInfo).Returns s result s') :
    ∃ execution task, s.executions.get? identity.executionId = some execution
      ∧ s.LoadsTask execution.taskId task ∧ result = task.id
      ∧ ((s.putExecution (execution.ended .recoveryRequired)).putTask
          task.recoveryMarked).JournalsFor now task s' := by
  simp only [markCommandRecoveryRequired, bind_returns, query_returns, orRaise_returns,
    writeExecution_returns, requireTask_returns, writeTask_returns, journalTask_returns,
    pure_returns, existsAndEq, exists_const, true_and, and_assoc] at hreturns
  obtain ⟨execution, hrow, -, task, htask, -, hjournal, rfl, rfl⟩ := hreturns
  exact ⟨execution, task, hrow, htask, rfl, ⟨⟨_, hjournal⟩, rfl⟩⟩

end PatchLoop
