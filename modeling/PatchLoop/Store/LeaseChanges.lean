import PatchLoop.Store.Frame

/-!
# How ownership rows change

For a row of `executions` or of `workspace_leases`, each way in which an operation may change it,
with what the operation has checked.
-/

namespace PatchLoop

open Transaction

variable {s s'' : Store} {now : Timestamp} {op : Op} {u : Unit}

/-! ### Workspace leases -/

/-- What an operation leaves in the lease row of a workspace. -/
inductive WorkspaceChange (s : Store) (now : Timestamp) (id : String) :
    Op → Option WorkspaceLease → Prop where
  | kept (op : Op) : WorkspaceChange s now id op (s.workspaceLeases.get? id)
  | acquired {lease : WorkspaceLease} {guard : LeaseGuard} {execution : Execution}
      (hacquires : s.AcquiresWorkspace now lease guard execution) (hid : id = lease.workspaceId) :
      WorkspaceChange s now id (.acquireWorkspaceWriter lease guard) (some (s.acquiredLease lease))
  | renewed {guard : WorkspaceLeaseGuard} {leaseExpiresAt : Timestamp} {existing : WorkspaceLease}
      (hguards : s.GuardsWorkspace now guard existing) (hid : id = existing.workspaceId) :
      WorkspaceChange s now id (.renewWorkspaceWriter guard leaseExpiresAt)
        (some { existing with leaseExpiresAt := leaseExpiresAt })
  | released {guard : WorkspaceLeaseGuard} {existing : WorkspaceLease}
      (hguards : s.GuardsWorkspace now guard existing) (hid : id = existing.workspaceId) :
      WorkspaceChange s now id (.releaseWorkspaceWriter guard)
        (some { existing with leaseExpiresAt := now })

theorem Store.GuardsWorkspace.row_of_id {guard : WorkspaceLeaseGuard} {lease : WorkspaceLease}
    (hguards : s.GuardsWorkspace now guard lease) :
    s.workspaceLeases.get? lease.workspaceId = some lease := by
  have hid : lease.workspaceId = guard.workspaceId := Table.key_of_get? hguards.row
  rw [hid]
  exact hguards.row

variable [Sha256]

theorem workspaceChange (hreturns : (exec now op).Returns s u s') (id : String) :
    WorkspaceChange s now id op (s'.workspaceLeases.get? id) := by
  cases op with
  | acquireWorkspaceWriter lease guard =>
      obtain ⟨_, hreturns⟩ := discard_returns.mp hreturns
      obtain ⟨execution, _, hacquires, -, -, _, rfl⟩ := acquireWorkspaceWriter_returns hreturns
      have hget := Table.get?_upsert s.workspaceLeases (s.acquiredLease lease) id
      change WorkspaceChange s now id _
        ((s.workspaceLeases.upsert (s.acquiredLease lease)).get? id)
      rw [hget]
      split
      · rename_i hid
        exact .acquired hacquires hid
      · exact .kept _
  | renewWorkspaceWriter guard leaseExpiresAt =>
      obtain ⟨_, hreturns⟩ := discard_returns.mp hreturns
      obtain ⟨existing, hguards, -, rfl⟩ := renewWorkspaceWriter_returns hreturns
      rw [Store.putWorkspaceLease_workspaceLeases, Table.get?_set_row hguards.row_of_id id]
      · split
        · rename_i hid
          exact .renewed hguards hid
        · exact .kept _
      · rfl
  | releaseWorkspaceWriter guard =>
      obtain ⟨existing, _, hguards, -, _, rfl⟩ := releaseWorkspaceWriter_returns hreturns
      rw [Store.journaled_workspaceLeases, Store.putWorkspaceLease_workspaceLeases,
        Table.get?_set_row hguards.row_of_id id]
      · split
        · rename_i hid
          exact .released hguards hid
        · exact .kept _
      · rfl
  | _ =>
      have htable : s'.workspaceLeases = s.workspaceLeases :=
        exec_agrees hreturns .workspaceLeases rfl
      rw [htable]
      exact .kept _

/-! ### Executions -/

/-- The execution is for the same session or the same task. -/
def Execution.Contends (row execution : Execution) : Prop :=
  row.sessionId = execution.sessionId ∨ row.taskId = execution.taskId

instance (row execution : Execution) : Decidable (row.Contends execution) :=
  inferInstanceAs (Decidable (_ ∨ _))

/-- What an operation leaves in an execution row. A claim inserts one row, ends the active rows that
contend with it, and passes over the others. -/
inductive ExecutionChange (s : Store) (now : Timestamp) (id : String) :
    Op → Option Execution → Prop where
  | kept (op : Op) (hother : ∀ execution version, op ≠ .claimExecution execution version) :
      ExecutionChange s now id op (s.executions.get? id)
  | claimed {execution : Execution} {version : Option Nat} {session : Session} {task : Task}
      (hclaims : s.ClaimsExecution now execution version session task) (hid : id = execution.id) :
      ExecutionChange s now id (.claimExecution execution version)
        (some (execution.claimed (s.lastGeneration execution.taskId + 1)))
  | superseded {execution row : Execution} {version : Option Nat} {session : Session} {task : Task}
      (hclaims : s.ClaimsExecution now execution version session task)
      (hrow : s.executions.get? id = some row) (hcontends : row.Contends execution)
      (hactive : row.status.Active) :
      ExecutionChange s now id (.claimExecution execution version) (some (row.ended .released))
  | passed {execution : Execution} {version : Option Nat} {session : Session} {task : Task}
      (hclaims : s.ClaimsExecution now execution version session task) (hid : id ≠ execution.id)
      (hrow : ∀ row ∈ s.executions.get? id, row.Contends execution → ¬ row.status.Active) :
      ExecutionChange s now id (.claimExecution execution version) (s.executions.get? id)
  | renewed {guard : LeaseGuard} {leaseExpiresAt : Timestamp} {execution : Execution}
      (hguards : s.Guards now guard execution) (hid : id = execution.id) :
      ExecutionChange s now id (.renewExecution guard leaseExpiresAt) (some
        { execution with leaseExpiresAt := leaseExpiresAt, version := execution.version + 1 })
  | released {guard : LeaseGuard} {execution : Execution}
      (hguards : s.Guards now guard execution) (hid : id = execution.id) :
      ExecutionChange s now id (.releaseExecution guard) (some (execution.ended .released))
  | waiting {effectId : String} {approval : Approval} {version : Nat} {guard : LeaseGuard}
      {execution : Execution} (hguards : s.Guards now guard execution) (hid : id = execution.id) :
      ExecutionChange s now id (.requestEffectApproval effectId approval version guard)
        (some execution.waiting)
  | recoveryMarked {identity : ManagedCommandIdentity} {cleanupInfo : String} {execution : Execution}
      (hrow : s.executions.get? identity.executionId = some execution) (hid : id = execution.id) :
      ExecutionChange s now id (.markCommandRecoveryRequired identity cleanupInfo)
        (some (execution.ended .recoveryRequired))

omit [Sha256] in
theorem Store.Guards.row_of_id {guard : LeaseGuard} {execution : Execution}
    (hguards : s.Guards now guard execution) :
    s.executions.get? execution.id = some execution := by
  have hid : execution.id = guard.executionId := Table.key_of_get? hguards.row
  rw [hid]
  exact hguards.row

omit [Sha256] in
theorem get?_takenOver (execution : Execution) (id : String) :
    (s.takenOver execution).executions.get? id = (s.executions.get? id).map fun row =>
      if row.Contends execution ∧ row.status.Active then row.ended .released else row := by
  refine Table.get?_of_rows_map (rows_takenOver execution) ?_ id
  intro row
  split
  · rfl
  · rfl

omit [Sha256] in
theorem executionChange_of_claim {execution : Execution} {version : Option Nat} {session : Session}
    {task : Task} (hclaims : s.ClaimsExecution now execution version session task) (entry : Entry)
    (id : String) :
    ExecutionChange s now id (.claimExecution execution version)
      ((s.executionClaimed now execution session task entry).executions.get? id) := by
  change ExecutionChange s now id _ (((s.takenOver execution).executions.insert
    (execution.claimed (s.lastGeneration execution.taskId + 1))).get? id)
  have hfree : (s.takenOver execution).executions.get? execution.id = none :=
    (get?_takenOver_eq_none execution execution.id).mpr hclaims.fresh
  have hinsert := Table.get?_insert (execution.claimed (s.lastGeneration execution.taskId + 1))
    hfree id
  rw [hinsert]
  split
  · rename_i hid
    exact .claimed hclaims hid
  · rename_i hid
    have hmap := get?_takenOver (s := s) execution id
    rw [hmap]
    cases hrow : s.executions.get? id with
    | none =>
        have hinactive : ∀ row, s.executions.get? id = some row → row.Contends execution →
            ¬ row.status.Active := by simp [hrow]
        have hpassed := ExecutionChange.passed hclaims hid hinactive
        rwa [hrow] at hpassed
    | some row =>
        rw [Option.map_some]
        by_cases hcontends : row.Contends execution ∧ row.status.Active
        · rw [if_pos hcontends]
          exact .superseded hclaims hrow hcontends.1 hcontends.2
        · rw [if_neg hcontends]
          have hinactive : ∀ row, s.executions.get? id = some row → row.Contends execution →
              ¬ row.status.Active := by
            intro row' hsome hrow' hactive
            rw [hrow] at hsome
            cases hsome
            exact hcontends ⟨hrow', hactive⟩
          have hpassed := ExecutionChange.passed hclaims hid hinactive
          rwa [hrow] at hpassed

theorem executionChange (hreturns : (exec now op).Returns s u s') (id : String) :
    ExecutionChange s now id op (s'.executions.get? id) := by
  cases op with
  | claimExecution execution version =>
      obtain ⟨_, hreturns⟩ := discard_returns.mp hreturns
      obtain ⟨session, task, hclaims, -, entry, rfl⟩ := claimExecution_returns hreturns
      exact executionChange_of_claim hclaims entry id
  | renewExecution guard leaseExpiresAt =>
      obtain ⟨_, hreturns⟩ := discard_returns.mp hreturns
      obtain ⟨execution, hguards, -, rfl⟩ := renewExecution_returns hreturns
      rw [Store.putExecution_executions, Table.get?_set_row hguards.row_of_id id]
      · split
        · rename_i hid
          exact .renewed hguards hid
        · exact .kept _ (by simp)
      · rfl
  | releaseExecution guard =>
      obtain ⟨execution, task, hguards, -, entry, rfl⟩ := releaseExecution_returns hreturns
      rw [Store.journaledFor_executions, Store.putTask_executions, Store.putExecution_executions,
        Table.get?_set_row hguards.row_of_id id]
      · split
        · rename_i hid
          exact .released hguards hid
        · exact .kept _ (by simp)
      · rfl
  | requestEffectApproval effectId approval version guard =>
      obtain ⟨_, hreturns⟩ := discard_returns.mp hreturns
      obtain ⟨execution, current, task, hrequests, hbranch⟩ := requestEffectApproval_returns hreturns
      have htable : s'.executions = s.executions.set execution.waiting := by
        rcases hbranch with ⟨-, rfl⟩ | ⟨-, -, -, -, -, -, rfl⟩
        · rfl
        · rfl
      rw [htable, Table.get?_set_row hrequests.guards.row_of_id id]
      · split
        · rename_i hid
          exact .waiting hrequests.guards hid
        · exact .kept _ (by simp)
      · rfl
  | markCommandRecoveryRequired identity cleanupInfo =>
      obtain ⟨_, hreturns⟩ := discard_returns.mp hreturns
      obtain ⟨execution, task, hrow, -, -, entry, rfl⟩ := markCommandRecoveryRequired_returns hreturns
      have hid : execution.id = identity.executionId := Table.key_of_get? hrow
      rw [Store.journaledFor_executions, Store.putTask_executions, Store.putExecution_executions,
        Table.get?_set_row hrow id]
      · split
        · rename_i heq
          exact .recoveryMarked hrow (heq.trans hid.symm)
        · exact .kept _ (by simp)
      · exact hid
  | _ =>
      have htable : s'.executions = s.executions := exec_agrees hreturns .executions rfl
      rw [htable]
      exact .kept _ (by simp)

/-! ### Managed commands -/

/-- What an operation leaves in the row of a managed command. -/
inductive CommandChange (s : Store) (now : Timestamp) (id : String) :
    Op → Option ManagedCommandIdentity → Prop where
  | kept (op : Op) : CommandChange s now id op (s.managedCommands.get? id)
  | registered {identity : ManagedCommandIdentity} {guard : LeaseGuard} {execution : Execution}
      (hguards : s.Guards now guard execution) (howner : identity.executionId = execution.id)
      (hnew : s.managedCommands.get? id = none) (hid : id = identity.id) :
      CommandChange s now id (.registerManagedCommand identity guard) (some identity)
  | finished {identity current : ManagedCommandIdentity}
      (hrow : s.managedCommands.get? id = some current) (hopen : current.status.Unfinished)
      (hsame : current.immutableIdentity = identity.immutableIdentity) (hid : id = identity.id) :
      CommandChange s now id (.finishManagedCommand identity) (some identity)

theorem commandChange (hreturns : (exec now op).Returns s u s') (id : String) :
    CommandChange s now id op (s'.managedCommands.get? id) := by
  cases op with
  | registerManagedCommand identity guard =>
      obtain ⟨_, hreturns⟩ := discard_returns.mp hreturns
      obtain ⟨execution, hguards, howner, hnew, rfl⟩ := registerManagedCommand_returns hreturns
      rw [Store.addManagedCommand_managedCommands, Table.get?_insert identity hnew id]
      split
      · rename_i hid
        have hfree : s.managedCommands.get? id = none := by
          rw [hid]
          exact hnew
        exact .registered hguards howner hfree hid
      · exact .kept _
  | finishManagedCommand identity =>
      obtain ⟨_, hreturns⟩ := discard_returns.mp hreturns
      obtain ⟨-, -, rfl⟩ | ⟨current, hrow, hopen, hsame, -, -, rfl⟩ :=
        finishManagedCommand_returns hreturns
      · exact .kept _
      · rw [Store.putManagedCommand_managedCommands, Table.get?_set_row hrow id rfl]
        split
        · rename_i hid
          exact .finished (hid ▸ hrow) hopen hsame hid
        · exact .kept _
  | _ =>
      have htable : s'.managedCommands = s.managedCommands :=
        exec_agrees hreturns .managedCommands rfl
      rw [htable]
      exact .kept _

end PatchLoop
