import PatchLoop.Store.Operation

/-!
# What the row functions do

For each helper of the store, when it returns and with which database. An operation is a sequence of
helpers, so these equivalences turn the fact that an operation returned into the checks it passed
and the rows it wrote.
-/

namespace PatchLoop

open Transaction

variable {s s' : Store} {now : Timestamp}

/-! ### Loads -/

/-- The row of a task is there and can be loaded. -/
def Store.LoadsTask (s : Store) (taskId : String) (task : Task) : Prop :=
  s.tasks.get? taskId = some task ∧ task.ValidStateDimensions

/-- The row of an effect is there and can be loaded. -/
def Store.LoadsEffect (s : Store) (effectId : String) (effect : Effect) : Prop :=
  s.effects.get? effectId = some effect ∧ effect.Valid

theorem Store.LoadsTask.id_eq {taskId : String} {task : Task} (hload : s.LoadsTask taskId task) :
    task.id = taskId :=
  Table.key_of_get? hload.1

theorem Store.LoadsEffect.id_eq {effectId : String} {effect : Effect}
    (hload : s.LoadsEffect effectId effect) : effect.id = effectId :=
  Table.key_of_get? hload.1

@[simp] theorem requireTask_returns {taskId : String} {task : Task} :
    (requireTask taskId).Returns s task s' ↔ s.LoadsTask taskId task ∧ s' = s := by
  simp [requireTask, Store.LoadsTask]
  grind

@[simp] theorem requireSession_returns {sessionId : String} {session : Session} :
    (requireSession sessionId).Returns s session s'
      ↔ s.sessions.get? sessionId = some session ∧ s' = s := by
  simp [requireSession]

@[simp] theorem requireEffect_returns {effectId : String} {effect : Effect} :
    (requireEffect effectId).Returns s effect s' ↔ s.LoadsEffect effectId effect ∧ s' = s := by
  simp [requireEffect, Store.LoadsEffect]
  grind

@[simp] theorem requireApproval_returns {row : Option Approval} {missing : StoreError}
    {approval : Approval} :
    (requireApproval row missing).Returns s approval s'
      ↔ row = some approval ∧ approval.Valid ∧ s' = s := by
  simp [requireApproval, and_assoc]

@[simp] theorem checkVersion_returns {entityId : String} {actual : Nat} {expected : Option Nat}
    {u : Unit} :
    (checkVersion entityId actual expected).Returns s u s'
      ↔ (∀ version ∈ expected, actual = version) ∧ s' = s := by
  cases expected with
  | none => simp [checkVersion]
  | some version => simp [checkVersion]

/-! ### Guards -/

/-- `_assert_guard` accepts the guard, for this execution. -/
structure Store.Guards (s : Store) (now : Timestamp) (guard : LeaseGuard) (execution : Execution) :
    Prop where
  row : s.executions.get? guard.executionId = some execution
  fields : execution.guard = guard
  unexpired : now < execution.leaseExpiresAt
  active : execution.status.Active

/-- `_assert_workspace_guard` accepts the guard, for this lease. -/
structure Store.GuardsWorkspace (s : Store) (now : Timestamp) (guard : WorkspaceLeaseGuard)
    (lease : WorkspaceLease) : Prop where
  row : s.workspaceLeases.get? guard.workspaceId = some lease
  fields : lease.guard = guard
  unexpired : now < lease.leaseExpiresAt

/-- What the operations check that fence only session-bound tasks. -/
def Store.GuardsTask (s : Store) (now : Timestamp) (task : Task) (guard : Option LeaseGuard) :
    Prop :=
  task.sessionId = none ∨ ∃ g execution, guard = some g ∧ s.Guards now g execution

/-- What `_assert_legacy_write_guard` checks: for a session-bound task, a guard of that task. -/
def Store.GuardsLegacyWrite (s : Store) (now : Timestamp) (taskId : String)
    (guard : Option LeaseGuard) : Prop :=
  (s.tasks.get? taskId).bind Task.sessionId = none
    ∨ ∃ g execution, guard = some g ∧ g.taskId = taskId ∧ s.Guards now g execution

@[simp] theorem assertGuard_returns {guard : LeaseGuard} {execution : Execution} :
    (assertGuard now guard).Returns s execution s' ↔ s.Guards now guard execution ∧ s' = s := by
  simp only [assertGuard, bind_returns, query_returns, orRaise_returns, raiseIf_returns,
    pure_returns]
  constructor
  · rintro ⟨_, _, ⟨rfl, rfl⟩, row, _, ⟨hrow, rfl⟩, _, _, ⟨hchecks, rfl⟩, rfl, rfl⟩
    simp only [not_or, not_not, Nat.not_le] at hchecks
    obtain ⟨htask, htoken, hgeneration, howner, hunexpired, hactive⟩ := hchecks
    refine ⟨⟨hrow, ?_, hunexpired, hactive⟩, rfl⟩
    have hid : execution.id = guard.executionId := Table.key_of_get? hrow
    rw [Execution.guard, hid, htask, htoken, hgeneration, howner]
  · rintro ⟨⟨hrow, rfl, hunexpired, hactive⟩, rfl⟩
    refine ⟨_, _, ⟨rfl, rfl⟩, execution, _, ⟨hrow, rfl⟩, ⟨⟩, _, ⟨?_, rfl⟩, rfl, rfl⟩
    simp [Execution.guard, hunexpired, hactive]

@[simp] theorem assertWorkspaceGuard_returns {guard : WorkspaceLeaseGuard}
    {lease : WorkspaceLease} :
    (assertWorkspaceGuard now guard).Returns s lease s'
      ↔ s.GuardsWorkspace now guard lease ∧ s' = s := by
  simp only [assertWorkspaceGuard, bind_returns, query_returns, orRaise_returns, raiseIf_returns,
    pure_returns]
  constructor
  · rintro ⟨_, _, ⟨rfl, rfl⟩, row, _, ⟨hrow, rfl⟩, _, _, ⟨hchecks, rfl⟩, rfl, rfl⟩
    simp only [not_or, not_not, Nat.not_le] at hchecks
    obtain ⟨hexecution, howner, htoken, hgeneration, hunexpired⟩ := hchecks
    refine ⟨⟨hrow, ?_, hunexpired⟩, rfl⟩
    have hid : lease.workspaceId = guard.workspaceId := Table.key_of_get? hrow
    rw [WorkspaceLease.guard, hid, hexecution, howner, htoken, hgeneration]
  · rintro ⟨⟨hrow, rfl, hunexpired⟩, rfl⟩
    refine ⟨_, _, ⟨rfl, rfl⟩, lease, _, ⟨hrow, rfl⟩, ⟨⟩, _, ⟨?_, rfl⟩, rfl, rfl⟩
    simp [WorkspaceLease.guard, hunexpired]

/-- `_assert_guard` does not raise. -/
def Store.PassesGuard (s : Store) (now : Timestamp) (guard : LeaseGuard) : Prop :=
  ((assertGuard now guard).run s).isOk = true

/-- `_assert_workspace_guard` does not raise. -/
def Store.PassesWorkspaceGuard (s : Store) (now : Timestamp) (guard : WorkspaceLeaseGuard) : Prop :=
  ((assertWorkspaceGuard now guard).run s).isOk = true

instance (guard : LeaseGuard) : Decidable (s.PassesGuard now guard) :=
  inferInstanceAs (Decidable (_ = _))

instance (guard : WorkspaceLeaseGuard) : Decidable (s.PassesWorkspaceGuard now guard) :=
  inferInstanceAs (Decidable (_ = _))

theorem passesGuard_iff {guard : LeaseGuard} :
    s.PassesGuard now guard ↔ ∃ execution, s.Guards now guard execution := by
  rw [Store.PassesGuard, isOk_iff]
  constructor
  · rintro ⟨execution, hreturns⟩
    exact ⟨execution, (assertGuard_returns.mp hreturns).1⟩
  · rintro ⟨execution, hguards⟩
    have hreturns := assertGuard_returns.mpr ⟨hguards, rfl⟩
    exact ⟨execution, by rwa [commit_of_returns hreturns]⟩

theorem passesWorkspaceGuard_iff {guard : WorkspaceLeaseGuard} :
    s.PassesWorkspaceGuard now guard ↔ ∃ lease, s.GuardsWorkspace now guard lease := by
  rw [Store.PassesWorkspaceGuard, isOk_iff]
  constructor
  · rintro ⟨lease, hreturns⟩
    exact ⟨lease, (assertWorkspaceGuard_returns.mp hreturns).1⟩
  · rintro ⟨lease, hguards⟩
    have hreturns := assertWorkspaceGuard_returns.mpr ⟨hguards, rfl⟩
    exact ⟨lease, by rwa [commit_of_returns hreturns]⟩

@[simp] theorem assertTaskGuard_returns {task : Task} {guard : Option LeaseGuard} {u : Unit} :
    (assertTaskGuard now task guard).Returns s u s' ↔ s.GuardsTask now task guard ∧ s' = s := by
  unfold assertTaskGuard Store.GuardsTask
  cases htask : task.sessionId with
  | none => simp
  | some sessionId => simp [assertSuppliedGuard]; grind

@[simp] theorem assertLegacyWriteGuard_returns {taskId : String} {guard : Option LeaseGuard}
    {u : Unit} :
    (assertLegacyWriteGuard now taskId guard).Returns s u s'
      ↔ s.GuardsLegacyWrite now taskId guard ∧ s' = s := by
  unfold assertLegacyWriteGuard Store.GuardsLegacyWrite
  simp only [bind_returns, query_returns, ite_returns, Option.isNone_iff_eq_none, pure_returns,
    orRaise_returns, raiseIf_returns, assertGuard_returns]
  grind

/-! ### Writes -/

@[simp] theorem insertSession_returns {session : Session} {u : Unit} :
    (insertSession session).Returns s u s'
      ↔ s.sessions.get? session.id = none ∧ s.HasTask session.activeTaskId
        ∧ s' = s.addSession session := by
  simp [insertSession]

@[simp] theorem writeSession_returns {session : Session} {u : Unit} :
    (writeSession session).Returns s u s' ↔ s' = s.putSession session := by
  simp [writeSession]

@[simp] theorem insertTask_returns {task : Task} {u : Unit} :
    (insertTask task).Returns s u s'
      ↔ s.tasks.get? task.id = none ∧ s.HasSession task.sessionId ∧ s' = s.addTask task := by
  simp [insertTask]

@[simp] theorem writeTask_returns {task : Task} {u : Unit} :
    (writeTask task).Returns s u s' ↔ s.tasks.get? task.id ≠ none ∧ s' = s.putTask task := by
  simp [writeTask]

@[simp] theorem insertTurn_returns {turn : Turn} {u : Unit} :
    (insertTurn turn).Returns s u s'
      ↔ s.turns.get? turn.id = none
        ∧ (∀ other ∈ s.turns.rows,
            other.sessionId = turn.sessionId → other.sequence ≠ turn.sequence)
        ∧ s.HasTask turn.taskId ∧ s' = s.addTurn turn := by
  simp [insertTurn]

@[simp] theorem insertExecution_returns {execution : Execution} {u : Unit} :
    (insertExecution execution).Returns s u s'
      ↔ s.executions.get? execution.id = none ∧ s' = s.addExecution execution := by
  simp [insertExecution]

@[simp] theorem writeExecution_returns {execution : Execution} {u : Unit} :
    (writeExecution execution).Returns s u s'
      ↔ s.executions.get? execution.id ≠ none ∧ s' = s.putExecution execution := by
  simp [writeExecution]

@[simp] theorem writeWorkspaceLease_returns {lease : WorkspaceLease} {u : Unit} :
    (writeWorkspaceLease lease).Returns s u s'
      ↔ (∃ row, s.workspaceLeases.get? lease.workspaceId = some row ∧ row.guard = lease.guard)
        ∧ s' = s.putWorkspaceLease lease := by
  simp only [writeWorkspaceLease, bind_returns, get_returns, raiseIf_returns, set_returns]
  cases hrow : s.workspaceLeases.get? lease.workspaceId with
  | none => simp [hrow]
  | some row => simp [hrow]

/-- What an insert into `effects` checks. -/
structure Store.FreshEffect (s : Store) (effect : Effect) : Prop where
  id : s.effects.get? effect.id = none
  identity : s.effectOfIdentity effect.identityKey = none
  task : s.HasTask (some effect.taskId)
  retry : s.HasEffect effect.retryOfEffectId

@[simp] theorem insertEffect_returns {effect : Effect} {u : Unit} :
    (insertEffect effect).Returns s u s'
      ↔ s.FreshEffect effect ∧ s' = s.addEffects [effect] := by
  simp only [insertEffect, bind_returns, get_returns, raiseIf_returns, set_returns]
  constructor
  · rintro ⟨_, _, ⟨rfl, rfl⟩, _, _, ⟨hid, rfl⟩, _, _, ⟨hidentity, rfl⟩, _, _, ⟨htask, rfl⟩, _, _,
      ⟨hretry, rfl⟩, rfl⟩
    exact ⟨⟨not_not.mp hid, not_not.mp hidentity, not_not.mp htask, not_not.mp hretry⟩, rfl⟩
  · rintro ⟨⟨hid, hidentity, htask, hretry⟩, rfl⟩
    exact ⟨_, _, ⟨rfl, rfl⟩, ⟨⟩, _, ⟨not_not.mpr hid, rfl⟩, ⟨⟩, _, ⟨not_not.mpr hidentity, rfl⟩,
      ⟨⟩, _, ⟨not_not.mpr htask, rfl⟩, ⟨⟩, _, ⟨not_not.mpr hretry, rfl⟩, rfl⟩

/-- The effects are inserted one by one, each into the table with the ones before it. -/
def Store.FreshEffects (s : Store) : List Effect → Prop
  | [] => True
  | effect :: rest => s.FreshEffect effect ∧ (s.addEffects [effect]).FreshEffects rest

@[simp] theorem insertEffects_returns {effects : List Effect} {u : Unit} :
    (insertEffects effects).Returns s u s'
      ↔ s.FreshEffects effects ∧ s' = s.addEffects effects := by
  induction effects generalizing s with
  | nil => simp [insertEffects, Store.FreshEffects, Store.addEffects]
  | cons effect rest ih => simp [insertEffects, Store.FreshEffects, ih, Store.addEffects, and_assoc]

@[simp] theorem writeEffect_returns {effect : Effect} {u : Unit} :
    (writeEffect effect).Returns s u s'
      ↔ s.effects.get? effect.id ≠ none ∧ s' = s.putEffect effect := by
  simp [writeEffect]

@[simp] theorem insertApproval_returns {approval : Approval} {u : Unit} :
    (insertApproval approval).Returns s u s'
      ↔ s.approvals.get? approval.id = none ∧ s.approvalOfEffect approval.effectId = none
        ∧ s.HasEffect (some approval.effectId) ∧ s' = s.addApproval approval := by
  simp [insertApproval]

@[simp] theorem writeApproval_returns {approval : Approval} {u : Unit} :
    (writeApproval approval).Returns s u s'
      ↔ s.approvals.get? approval.id ≠ none ∧ s' = s.putApproval approval := by
  simp [writeApproval]

@[simp] theorem insertControlRequest_returns {request : ControlRequest} {u : Unit} :
    (insertControlRequest request).Returns s u s'
      ↔ s.controlRequests.get? request.id = none ∧ s.HasExecution request.executionId
        ∧ s' = s.addControlRequest request := by
  simp [insertControlRequest]

@[simp] theorem insertToolCall_returns {row : ToolCallRow} {u : Unit} :
    (insertToolCall row).Returns s u s'
      ↔ s.toolCalls.get? (row.taskId, row.call.id) = none ∧ s' = s.addToolCall row := by
  simp [insertToolCall]

@[simp] theorem insertRecoveryDisposition_returns {disposition : RecoveryDisposition} {u : Unit} :
    (insertRecoveryDisposition disposition).Returns s u s'
      ↔ s.dispositionByIdOrEffect disposition.id disposition.unknownEffectId = none
        ∧ s.HasEffect (some disposition.unknownEffectId)
        ∧ s.HasEffect disposition.retryEffectId
        ∧ s' = s.addRecoveryDisposition disposition := by
  simp [insertRecoveryDisposition]

@[simp] theorem requireTaskReference_returns {taskId constraint : String} {u : Unit} :
    (requireTaskReference taskId constraint).Returns s u s'
      ↔ s.HasTask (some taskId) ∧ s' = s := by
  simp [requireTaskReference, and_comm]

@[simp] theorem insertEvent_returns {event : SessionEvent} {u : Unit} :
    (insertEvent event).Returns s u s'
      ↔ s.sessionEvents.get? event.id = none
        ∧ (∀ other ∈ s.sessionEvents.rows,
            other.sessionId = event.sessionId → other.sequence ≠ event.sequence)
        ∧ s.HasTask event.taskId ∧ s' = s.addSessionEvent event := by
  simp [insertEvent]

end PatchLoop
