import PatchLoop.Store.Frame

/-!
# All calls of the store

With the legacy upsert of a task and the deletion of a task next to the conditional operations. Where a
task is deleted, the `active_task_id` of a session's payload may name a task that is gone, and the
reference of its column is checked when the session is written.
-/

namespace PatchLoop

open Transaction

/-- `save_task` -/
def saveTask (now : Timestamp) (task : Task) (guard : Option LeaseGuard) : Action Unit := do
  assertLegacyWriteGuard now task.id guard
  let s ← get
  raiseIf (¬ s.HasSession task.sessionId) (.integrityError "tasks.session_id")
  set { s with tasks := s.tasks.upsert task }

/-- The database without a task: the rows that refer to it go with it, except turns, events and
sessions, whose columns are set to null and whose payloads stay. -/
@[simps] def Store.withoutTask (s : Store) (taskId : String) : Store :=
  let effects := s.effects.filter fun effect => effect.taskId ≠ taskId
  let executions := s.executions.filter fun execution => execution.taskId ≠ taskId
  { s with
    tasks := s.tasks.filter fun task => task.id ≠ taskId
    executions
    managedCommands := s.managedCommands.filter fun identity =>
      (s.executions.get? identity.executionId).all fun execution => execution.taskId ≠ taskId
    effects
    approvals := s.approvals.filter fun approval => (effects.get? approval.effectId).isSome
    controlRequests := s.controlRequests.filter fun request => request.taskId ≠ taskId
    recoveryDispositions := s.recoveryDispositions.filter fun disposition =>
      (effects.get? disposition.unknownEffectId).isSome
    agentSteps := s.agentSteps.filter fun step => step.taskId ≠ taskId
    toolCalls := s.toolCalls.filter fun row => row.taskId ≠ taskId
    checkpoints := s.checkpoints.filter fun checkpoint => checkpoint.taskId ≠ taskId }

/-- `delete_task`, which the lease of a workspace that the task has held forbids. -/
def deleteTask (taskId : String) : Action Unit := do
  let s ← get
  raiseIf (s.tasks.get? taskId = none) (.taskNotFound taskId)
  raiseIf (∃ lease ∈ s.workspaceLeases.rows, lease.taskId = taskId
      ∨ (s.executions.get? lease.executionId).any fun execution => execution.taskId = taskId)
    (.integrityError "workspace_leases.task_id")
  set (s.withoutTask taskId)

/-- Every session that was written refers to an active task that is there. -/
def Store.ReferencesTasks (s before : Store) : Prop :=
  ∀ session ∈ s.sessions.rows,
    before.sessions.get? session.id = some session ∨ s.HasTask session.activeTaskId

instance (s before : Store) : Decidable (s.ReferencesTasks before) :=
  inferInstanceAs (Decidable (∀ _ ∈ _, _))

/-- The calls of the store by which a database changes. -/
inductive Call where
  | op (timed : Timed)
  | saveTask (now : Timestamp) (task : Task) (guard : Option LeaseGuard)
  | deleteTask (taskId : String)

variable [Sha256]

def Call.exec : Call → Action Unit
  | .op timed => do
      let before ← get
      PatchLoop.exec timed.now timed.op
      let s ← get
      raiseIf (¬ s.ReferencesTasks before) (.integrityError "sessions.active_task_id")
  | .saveTask now task guard => PatchLoop.saveTask now task guard
  | .deleteTask taskId => PatchLoop.deleteTask taskId

/-- The database after a call; one that raises leaves it as it was. -/
def callStep (s : Store) (call : Call) : Store := call.exec.commit s

/-- The call returns in this state. -/
def Call.Accepted (s : Store) (call : Call) : Prop := (call.exec.run s).isOk = true

instance (s : Store) (call : Call) : Decidable (call.Accepted s) :=
  inferInstanceAs (Decidable (_ = _))

/-- The database after a list of calls. -/
def runCalls (s : Store) (history : List Call) : Store := Run.after callStep s history

theorem runCalls_append (s : Store) (earlier later : List Call) :
    runCalls s (earlier ++ later) = runCalls (runCalls s earlier) later :=
  Run.after_append callStep s earlier later

/-! ### What a call does -/

variable {s s' : Store} {now : Timestamp} {u : Unit}

omit [Sha256] in
theorem saveTask_returns {task : Task} {guard : Option LeaseGuard} :
    (saveTask now task guard).Returns s u s' ↔ s.GuardsLegacyWrite now task.id guard
      ∧ s.HasSession task.sessionId ∧ s' = { s with tasks := s.tasks.upsert task } := by
  simp only [saveTask, bind_returns, assertLegacyWriteGuard_returns, get_returns, raiseIf_returns,
    set_returns, existsAndEq, exists_const, true_and, and_assoc, not_not]

omit [Sha256] in
theorem deleteTask_returns {taskId : String} (hreturns : (deleteTask taskId).Returns s u s') :
    s.tasks.get? taskId ≠ none ∧ s' = s.withoutTask taskId := by
  simp only [deleteTask, bind_returns, get_returns, raiseIf_returns, set_returns, existsAndEq,
    exists_const, true_and, and_assoc] at hreturns
  exact ⟨hreturns.1, hreturns.2.2⟩

theorem callOp_returns {timed : Timed} :
    (Call.op timed).exec.Returns s u s'
      ↔ (exec timed.now timed.op).Returns s () s' ∧ s'.ReferencesTasks s := by
  simp only [Call.exec, bind_returns, get_returns, raiseIf_returns, existsAndEq, true_and, not_not]
  constructor
  · rintro ⟨_, hreturns, hreferences, -⟩
    exact ⟨hreturns, hreferences⟩
  · rintro ⟨hreturns, hreferences⟩
    exact ⟨(), hreturns, hreferences, trivial⟩

theorem callAccepted_iff {call : Call} :
    call.Accepted s ↔ call.exec.Returns s () (callStep s call) := by
  rw [Call.Accepted, isOk_iff]
  exact ⟨fun ⟨_, hreturns⟩ => hreturns, fun hreturns => ⟨(), hreturns⟩⟩

/-- A call is accepted where it returns. -/
theorem callAccepted_of_returns {call : Call} (hreturns : call.exec.Returns s u s') :
    call.Accepted s := by
  rw [callAccepted_iff, callStep, commit_of_returns hreturns]
  exact hreturns

/-- A call changes nothing, or it returned. -/
theorem callStep_cases (s : Store) (call : Call) :
    callStep s call = s ∨ call.exec.Returns s () (callStep s call) := by
  obtain hsame | ⟨u, hreturns⟩ := commit_cases call.exec s
  · exact Or.inl hsame
  · exact Or.inr hreturns

end PatchLoop
