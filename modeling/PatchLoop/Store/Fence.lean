import PatchLoop.Store.Frame

/-!
# Fenced operations

An operation is fenced when it hands a lease guard to `_assert_guard`. Some always do; the writes of
a task that a client may run without a session do so when the task is bound to one.
-/

namespace PatchLoop

open Transaction

/-- The guard counts for a session-bound task only. -/
def Store.boundGuard (s : Store) (taskId : String) (guard : Option LeaseGuard) : Option LeaseGuard :=
  if (s.tasks.get? taskId).bind Task.sessionId = none then none else guard

/-- The guard that an operation has to pass `_assert_guard` with. -/
def Op.fence (s : Store) : Op → Option LeaseGuard
  | .renewExecution guard _ | .releaseExecution guard | .acquireWorkspaceWriter _ guard
  | .registerManagedCommand _ guard | .commitCheckpoint _ _ guard
  | .requestEffectApproval _ _ _ guard | .claimEffect _ _ guard _ | .commitEffect _ _ _ _ guard _
  | .markEffectUnknown _ _ _ guard | .settleUnexecutedEffect _ _ _ _ _ guard => some guard
  | .updateTask task _ guard => s.boundGuard task.id guard
  | .prepareEffects effects _ guard =>
      effects.head?.bind fun effect => s.boundGuard effect.taskId guard
  | .prepareEffectBatch agentStep _ _ guard => s.boundGuard agentStep.taskId guard
  | .commitToolResult taskId _ _ _ guard => s.boundGuard taskId guard
  | .saveCheckpoint checkpoint guard => s.boundGuard checkpoint.taskId guard
  | .recordStep agentStep guard => s.boundGuard agentStep.taskId guard
  | .recordToolCall taskId _ _ guard => s.boundGuard taskId guard
  | _ => none

variable {s : Store} {now : Timestamp} {guard : LeaseGuard}

theorem passes_of_guards {execution : Execution} (hguards : s.Guards now guard execution) :
    s.PassesGuard now guard :=
  passesGuard_iff.mpr ⟨execution, hguards⟩

theorem passes_of_guardsTask {taskId : String} {task : Task} {supplied : Option LeaseGuard}
    (hload : s.LoadsTask taskId task) (hguards : s.GuardsTask now task supplied)
    (hfence : s.boundGuard taskId supplied = some guard) : s.PassesGuard now guard := by
  have hrow : (s.tasks.get? taskId).bind Task.sessionId = task.sessionId := by rw [hload.1]; rfl
  unfold Store.boundGuard at hfence
  rw [hrow] at hfence
  rcases hguards with hfree | ⟨_, execution, hsupplied, hguards⟩
  · rw [if_pos hfree] at hfence
    cases hfence
  · split at hfence
    · cases hfence
    · rw [hsupplied] at hfence
      cases hfence
      exact passes_of_guards hguards

theorem passes_of_guardsLegacyWrite {taskId : String} {supplied : Option LeaseGuard}
    (hguards : s.GuardsLegacyWrite now taskId supplied)
    (hfence : s.boundGuard taskId supplied = some guard) : s.PassesGuard now guard := by
  unfold Store.boundGuard at hfence
  rcases hguards with hfree | ⟨_, execution, hsupplied, -, hguards⟩
  · rw [if_pos hfree] at hfence
    cases hfence
  · split at hfence
    · cases hfence
    · rw [hsupplied] at hfence
      cases hfence
      exact passes_of_guards hguards

/-- A fenced operation that is accepted has passed `_assert_guard` with its guard. -/
theorem passesGuard_of_accepted [Sha256] {op : Op} (haccepted : Accepted s ⟨now, op⟩)
    (hfence : op.fence s = some guard) : s.PassesGuard now guard := by
  have hreturns : (exec now op).Returns s () (step s ⟨now, op⟩) := accepted_iff.mp haccepted
  cases op with
  | renewExecution g leaseExpiresAt =>
      obtain ⟨_, hreturns⟩ := discard_returns.mp hreturns
      obtain ⟨execution, hguards, -⟩ := renewExecution_returns hreturns
      cases hfence
      exact passes_of_guards hguards
  | releaseExecution g =>
      obtain ⟨execution, _, hguards, -⟩ := releaseExecution_returns hreturns
      cases hfence
      exact passes_of_guards hguards
  | acquireWorkspaceWriter lease g =>
      obtain ⟨_, hreturns⟩ := discard_returns.mp hreturns
      obtain ⟨execution, _, hacquires, -⟩ := acquireWorkspaceWriter_returns hreturns
      cases hfence
      exact passes_of_guards hacquires.guards
  | registerManagedCommand identity g =>
      obtain ⟨_, hreturns⟩ := discard_returns.mp hreturns
      obtain ⟨execution, hguards, -⟩ := registerManagedCommand_returns hreturns
      cases hfence
      exact passes_of_guards hguards
  | commitCheckpoint checkpoint version g =>
      obtain ⟨_, hreturns⟩ := discard_returns.mp hreturns
      obtain ⟨execution, _, _, hguards, -⟩ := commitCheckpoint_returns hreturns
      cases hfence
      exact passes_of_guards hguards
  | requestEffectApproval effectId approval version g =>
      obtain ⟨_, hreturns⟩ := discard_returns.mp hreturns
      obtain ⟨execution, _, _, hrequests, -⟩ := requestEffectApproval_returns hreturns
      cases hfence
      exact passes_of_guards hrequests.guards
  | claimEffect effectId version g conditions =>
      obtain ⟨_, hreturns⟩ := discard_returns.mp hreturns
      obtain ⟨execution, _, _, _, _, hclaims, -⟩ := claimEffect_returns hreturns
      cases hfence
      exact passes_of_guards hclaims.guards
  | commitEffect effect version resultRef observationRef g observation =>
      obtain ⟨_, hreturns⟩ := discard_returns.mp hreturns
      obtain ⟨execution, _, _, _, hcommits, -⟩ := commitEffect_returns hreturns
      cases hfence
      exact passes_of_guards hcommits.guards
  | markEffectUnknown effectId version evidence g =>
      obtain ⟨_, hreturns⟩ := discard_returns.mp hreturns
      obtain ⟨execution, _, _, _, hmarks, -⟩ := markEffectUnknown_returns hreturns
      cases hfence
      exact passes_of_guards hmarks.guards
  | settleUnexecutedEffect effectId status version call result g =>
      obtain ⟨_, hreturns⟩ := discard_returns.mp hreturns
      obtain ⟨execution, _, hsettles, -⟩ := settleUnexecutedEffect_returns hreturns
      cases hfence
      exact passes_of_guards hsettles.guards
  | updateTask task version supplied =>
      obtain ⟨_, hreturns⟩ := discard_returns.mp hreturns
      obtain ⟨current, hupdates, -⟩ := updateTask_returns hreturns
      exact passes_of_guardsTask hupdates.loadsTask hupdates.guards hfence
  | prepareEffects effects version supplied =>
      obtain ⟨_, hreturns⟩ := discard_returns.mp hreturns
      cases effects with
      | nil => cases hfence
      | cons first rest =>
          obtain ⟨habsurd, -⟩ | ⟨task, _, hprepares, -⟩ := prepareEffects_returns hreturns
          · cases habsurd
          · have howner : first.taskId = task.id := hprepares.owner first List.mem_cons_self
            have hfence : s.boundGuard task.id supplied = some guard := by
              rw [← howner]
              exact hfence
            exact passes_of_guardsTask hprepares.loadsTask hprepares.guards hfence
  | prepareEffectBatch agentStep effects version supplied =>
      obtain ⟨_, hreturns⟩ := discard_returns.mp hreturns
      obtain ⟨_, _, -, hguards, -⟩ := prepareEffectBatch_returns hreturns
      exact passes_of_guardsLegacyWrite hguards hfence
  | commitToolResult taskId call result version supplied =>
      obtain ⟨_, hreturns⟩ := discard_returns.mp hreturns
      obtain ⟨task, hload, hguards, -⟩ := commitToolResult_returns hreturns
      exact passes_of_guardsTask hload hguards hfence
  | saveCheckpoint checkpoint supplied =>
      obtain ⟨hguards, -⟩ := saveCheckpoint_returns hreturns
      exact passes_of_guardsLegacyWrite hguards hfence
  | recordStep agentStep supplied =>
      obtain ⟨hguards, -⟩ := recordStep_returns hreturns
      exact passes_of_guardsLegacyWrite hguards hfence
  | recordToolCall taskId call result supplied =>
      obtain ⟨hguards, -⟩ := recordToolCall_returns hreturns
      exact passes_of_guardsLegacyWrite hguards hfence
  | _ => cases hfence

end PatchLoop
