import PatchLoop.Store.TaskChanges
import PatchLoop.Store.MigrationSpec

/-!
# Task rows that load

A task row loads when its status, its outcome and its runtime condition agree. The store copies a row
without this check, so an operation that sets one of the three has to look at the others: a claim and a
repeated request for approval do not.
-/

namespace PatchLoop

open Transaction

/-- Every task row passes the check of its load. -/
def Store.Loadable (s : Store) : Prop :=
  ∀ task ∈ s.tasks.rows, task.ValidStateDimensions

/-- A claim, and the repeated request of an effect that waits for its approval, is about an active
task. -/
def KeepsLoadable (s : Store) (timed : Timed) : Prop :=
  match timed.op with
  | .claimExecution execution _ =>
      ∀ task ∈ s.tasks.get? execution.taskId, task.outcome = .active
  | .requestEffectApproval effectId _ _ _ =>
      ∀ effect ∈ s.effects.get? effectId, effect.status = .waitingForApproval →
        ∀ task ∈ s.tasks.get? effect.taskId, task.outcome = .active
  | _ => True

namespace Task

variable {task : Task}

theorem ValidStateDimensions.idled (hvalid : task.ValidStateDimensions) :
    task.idled.ValidStateDimensions := by
  unfold Task.idled
  split
  · rename_i hrunning
    refine ⟨hvalid.1, fun hended => ?_⟩
    have hcondition := hvalid.2 hended
    rw [hrunning] at hcondition
    simp at hcondition
  · exact hvalid

theorem ValidStateDimensions.resumed (hvalid : task.ValidStateDimensions) :
    task.resumed.ValidStateDimensions := by
  unfold Task.resumed
  split
  · rename_i hwaiting
    refine ⟨hvalid.1, fun hended => ?_⟩
    have hcondition := hvalid.2 hended
    rw [hwaiting] at hcondition
    simp at hcondition
  · exact hvalid

theorem ValidStateDimensions.inRecovery (hvalid : task.ValidStateDimensions) :
    task.inRecovery.ValidStateDimensions := by
  unfold Task.inRecovery
  split
  · exact hvalid
  · exact ⟨hvalid.1, fun _ => Or.inr rfl⟩

/-- A resolution ends a terminal task, or leaves it as it is active. -/
theorem ValidStateDimensions.recovered [Sha256] {disposition : RecoveryDisposition} {effect : Effect}
    {resolution : Resolution} {target : TaskRuntimeCondition} (hvalid : task.ValidStateDimensions)
    (hresolution : ValidResolution task effect disposition resolution target) :
    (task.recovered disposition.kind target).ValidStateDimensions := by
  have hstatus := hvalid.1
  cases hresolution with
  | confirmResult call result hkind hconfirms =>
      simp only [Task.recovered, hkind, reduceCtorEq, if_false]
      refine ⟨hstatus, fun hended => Or.inl ?_⟩
      exact if_neg hended
  | createRetry retry approval hkind hactive hretries hrequired happroves =>
      simp only [Task.recovered, hkind, reduceCtorEq, if_false]
      exact ⟨hstatus, fun hended => absurd hactive hended⟩
  | abandon hkind hretry =>
      simp only [Task.recovered, hkind, if_true]
      exact ⟨rfl, fun _ => Or.inl rfl⟩

theorem ValidStateDimensions.migrated (hvalid : task.ValidStateDimensions) :
    task.migrated.ValidStateDimensions := by
  refine ⟨hvalid.1, fun hended => Or.inl ?_⟩
  have houtcome : task.status.outcome ≠ .active := by
    rw [hvalid.1]
    exact hended
  change legacyCondition task.status = .ended
  cases hstatus : task.status <;> simp [hstatus, TaskStatus.outcome, legacyCondition] at houtcome ⊢

end Task

section Steps

variable [Sha256] {s s' : Store} {now : Timestamp} {op : Op}

theorem loadable_after (hloadable : s.Loadable) (hkeeps : KeepsLoadable s ⟨now, op⟩)
    (hreturns : (exec now op).Returns s () s') : s'.Loadable := by
  intro task' hmem
  have hchange := taskChange hreturns task'.id
  rw [show s'.tasks.get? task'.id = some task' from Table.get?_of_mem hmem] at hchange
  generalize task'.id = id at hchange
  generalize hafter : some task' = row at hchange
  cases hchange with
  | kept op => exact hloadable task' (Table.mem_of_get? hafter.symm)
  | started hvalid =>
      cases hafter
      exact hvalid
  | ensured hvalid =>
      cases hafter
      exact hvalid
  | @bound requested current session hvalid hid hrow =>
      cases hafter
      rcases get?_taskEnsured s requested id with hsame | ⟨-, -, hnew⟩
      · rw [hsame] at hrow
        exact hloadable current (Table.mem_of_get? hrow)
      · cases Option.some.inj (hnew.symm.trans hrow)
        exact hvalid
  | created hvalid =>
      cases hafter
      exact hvalid
  | updated hupdates =>
      cases hafter
      exact hupdates.valid
  | @cancelled taskId controlId task hload =>
      cases hafter
      refine ⟨rfl, fun _ => ?_⟩
      unfold Task.cancelled
      split <;> simp
  | claimed hclaims =>
      cases hafter
      have hactive := hkeeps _ hclaims.loadsTask.1
      exact ⟨hclaims.loadsTask.2.1, fun hended => absurd hactive hended⟩
  | idled hguards hload =>
      cases hafter
      exact hload.2.idled
  | recoveryMarked hrow hload =>
      cases hafter
      exact ⟨hload.2.1, fun _ => Or.inr rfl⟩
  | waiting hrequests hbranch =>
      cases hafter
      refine ⟨hrequests.loadsTask.2.1, fun hended => ?_⟩
      rcases hbranch with hwaiting | hrunning
      · exact absurd (hkeeps _ hrequests.loadsEffect.1 hwaiting _ hrequests.loadsTask.1) hended
      · -- A loaded task that is running is active.
        have hcondition := hrequests.loadsTask.2.2 hended
        rw [hrunning] at hcondition
        simp at hcondition
  | resumed hresolves =>
      cases hafter
      exact hresolves.loadsTask.2.resumed
  | inRecovery hmarks =>
      cases hafter
      exact hmarks.loadsTask.2.inRecovery
  | recovered hresolves =>
      cases hafter
      exact hresolves.loadsTask.2.recovered hresolves.valid

/-- A claim that is accepted for a task with an ended outcome leaves a row that does not load. -/
theorem claimed_unloadable {execution : Execution} {version : Option Nat} {task : Task}
    (haccepted : Accepted s ⟨now, .claimExecution execution version⟩)
    (hrow : s.tasks.get? execution.taskId = some task) (hended : task.outcome ≠ .active) :
    ¬ (step s ⟨now, .claimExecution execution version⟩).Loadable := by
  intro hloadable
  obtain ⟨_, hreturns⟩ := discard_returns.mp (accepted_iff.mp haccepted)
  obtain ⟨session, current, hclaims, -, entry, hstate⟩ := claimExecution_returns hreturns
  cases Option.some.inj (hclaims.loadsTask.1.symm.trans hrow)
  let claimed : Task := { task with runtimeCondition := .running, version := task.version + 1 }
  have hkey : claimed.id = task.id := rfl
  have hwritten : (step s ⟨now, .claimExecution execution version⟩).tasks.get? task.id
      = some claimed := by
    rw [hstate]
    change (s.tasks.set claimed).get? task.id = some claimed
    rw [Table.get?_set_row hclaims.loadsTask.row_of_id task.id hkey, if_pos rfl]
  have hcondition := (hloadable claimed (Table.mem_of_get? hwritten)).2 hended
  simp [claimed] at hcondition

/-- A repeated request that is accepted for a task with an ended outcome leaves a row that does not
load. -/
theorem waiting_unloadable {effectId : String} {approval : Approval} {version : Nat}
    {guard : LeaseGuard} {effect : Effect} {task : Task}
    (haccepted : Accepted s ⟨now, .requestEffectApproval effectId approval version guard⟩)
    (heffect : s.effects.get? effectId = some effect) (hwaiting : effect.status = .waitingForApproval)
    (hrow : s.tasks.get? effect.taskId = some task) (hended : task.outcome ≠ .active) :
    ¬ (step s ⟨now, .requestEffectApproval effectId approval version guard⟩).Loadable := by
  intro hloadable
  obtain ⟨_, hreturns⟩ := discard_returns.mp (accepted_iff.mp haccepted)
  obtain ⟨execution, current, loaded, hrequests, hbranch⟩ := requestEffectApproval_returns hreturns
  cases Option.some.inj (hrequests.loadsEffect.1.symm.trans heffect)
  cases Option.some.inj (hrequests.loadsTask.1.symm.trans hrow)
  rcases hbranch with ⟨-, hstate⟩ | ⟨hprepared, -⟩
  · have hkey : task.waiting.id = task.id := rfl
    have hwritten : (step s ⟨now, .requestEffectApproval effectId approval version guard⟩).tasks.get?
        task.id = some task.waiting := by
      rw [hstate]
      change (s.tasks.set task.waiting).get? task.id = some task.waiting
      rw [Table.get?_set_row hrequests.loadsTask.row_of_id task.id hkey, if_pos rfl]
    have hcondition := (hloadable task.waiting (Table.mem_of_get? hwritten)).2 hended
    simp [Task.waiting] at hcondition
  · cases hprepared.symm.trans hwaiting

/-- A step keeps every row loadable exactly when it is refused or meets the condition. -/
theorem loadable_step_iff {timed : Timed} (hloadable : s.Loadable) :
    (Accepted s timed → KeepsLoadable s timed) ↔ (step s timed).Loadable := by
  obtain ⟨now, op⟩ := timed
  constructor
  · intro hkeeps
    obtain hsame | hreturns := step_cases s ⟨now, op⟩
    · rw [hsame]
      exact hloadable
    · exact loadable_after hloadable (hkeeps (accepted_iff.mpr hreturns)) hreturns
  · intro hafter haccepted
    unfold KeepsLoadable
    split
    · rename_i execution version hop
      cases hop
      intro task hrow
      by_contra hended
      exact claimed_unloadable haccepted hrow hended hafter
    · rename_i effectId approval version guard hop
      cases hop
      intro effect heffect hwaiting task hrow
      by_contra hended
      exact waiting_unloadable haccepted heffect hwaiting hrow hended hafter
    · trivial

theorem loadable_initial (hinitial : s.Initial) : s.Loadable := by
  rcases hinitial with rfl | ⟨legacy, now, hlegacy, hreturns⟩
  · intro task hmem
    cases hmem
  · intro task hmem
    rcases (migrateLegacyRuntime_returns hlegacy hreturns).tasks task hmem with
      hnone | ⟨old, hold, rfl, -⟩
    · cases hnone
    · exact (hlegacy.tasks old hold).2.migrated

omit [Sha256] in
/-- The rows are valid exactly when each of them loads. -/
theorem loadable_iff_loads :
    s.Loadable ↔ ∀ task ∈ s.tasks.rows, task.ValidStateDimensions
      ∧ (requireTask task.id).Returns s task s := by
  constructor
  · intro hloadable task hmem
    have hvalid := hloadable task hmem
    exact ⟨hvalid, requireTask_returns.mpr ⟨⟨Table.get?_of_mem hmem, hvalid⟩, rfl⟩⟩
  · intro hloads task hmem
    exact (hloads task hmem).1

/-- In a run from a new or a migrated database, every task row of every state is valid and loads,
exactly when each accepted claim and each accepted repeated request for approval is about an active
task. -/
theorem task_rows_reloadable_iff {history : List Timed} (hinitial : s.Initial) :
    (∀ earlier later, history = earlier ++ later → ∀ task ∈ (runFrom s earlier).tasks.rows,
        task.ValidStateDimensions
          ∧ (requireTask task.id).Returns (runFrom s earlier) task (runFrom s earlier))
      ↔ Run.EveryStep step (fun s timed => Accepted s timed → KeepsLoadable s timed) s history := by
  rw [Run.everyStep_iff Store.Loadable (fun s timed hloadable => loadable_step_iff hloadable)
    (loadable_initial hinitial)]
  constructor
  · intro hloads earlier later heq
    exact loadable_iff_loads.mpr (hloads earlier later heq)
  · intro hloadable earlier later heq
    exact loadable_iff_loads.mp (hloadable earlier later heq)

end Steps

section Samples

local instance loadableTasksDigest : Sha256 := Sample.digest

instance (s : Store) (timed : Timed) : Decidable (KeepsLoadable s timed) := by
  obtain ⟨now, op⟩ := timed
  apply Op.casesOn (motive := fun op => Decidable (KeepsLoadable s ⟨now, op⟩)) op <;> intros <;>
    (delta KeepsLoadable; infer_instance)

/-- The task is completed, its execution is released, and another execution is claimed for it. -/
def Sample.reclaimed : List Timed :=
  Sample.started "s" "a" "x" 10 ++
    [⟨1, .updateTask { Sample.task "a" with
        sessionId := some "s", status := .completed, outcome := .completed
        runtimeCondition := .ended, version := 2 } 2 (some (Sample.guard "x" "a"))⟩,
      ⟨2, .releaseExecution (Sample.guard "x" "a")⟩,
      ⟨3, .claimExecution (Sample.execution "y" "s" "a" 20) none⟩]

/-- A claim of a completed task is accepted, and its row no longer loads. -/
theorem claimed_completed_task_unloadable :
    Accepted (runFrom {} (Sample.reclaimed.take 5))
        ⟨3, .claimExecution (Sample.execution "y" "s" "a" 20) none⟩
      ∧ (∃ task ∈ (runFrom {} Sample.reclaimed).tasks.rows, task.id = "a"
        ∧ ¬ task.ValidStateDimensions)
      ∧ ((requireTask "a").run (runFrom {} Sample.reclaimed)).isOk = false := by
  decide +kernel

/-- Up to the claim every row loads. -/
theorem task_rows_reloadable_completed :
    (runFrom {} (Sample.reclaimed.take 5)).tasks.rows ≠ []
      ∧ ∀ task ∈ (runFrom {} (Sample.reclaimed.take 5)).tasks.rows,
        (requireTask task.id).Returns (runFrom {} (Sample.reclaimed.take 5)) task
          (runFrom {} (Sample.reclaimed.take 5)) := by
  have hkeeps : Run.EveryStep step (fun s timed => Accepted s timed → KeepsLoadable s timed) {}
      (Sample.reclaimed.take 5) := by decide +kernel
  have hloads := (task_rows_reloadable_iff (Or.inl rfl)).mpr hkeeps (Sample.reclaimed.take 5) []
    (List.append_nil _).symm
  exact ⟨by decide +kernel, fun task hmem => (hloads task hmem).2⟩

end Samples

end PatchLoop
