import PatchLoop.Safety.RecoveryGate
import PatchLoop.Store.Accepts
import Mathlib.Data.Set.Finite.Basic
import Mathlib.Data.Fintype.EquivFin

/-!
# The way out of recovery

A task leaves `RECOVERY_REQUIRED` through a disposition, and a disposition is about an unknown effect.
Which operations could leave an active task in recovery without one, and that the task of an undecided
effect can always be abandoned.
-/

namespace PatchLoop

open Transaction

/-- The task is active and requires recovery. -/
def Task.Recovering (task : Task) : Prop :=
  task.outcome = .active ∧ task.runtimeCondition = .recoveryRequired

/-- Every active task in recovery has an effect that awaits its disposition. -/
def Store.Disposable (s : Store) : Prop :=
  ∀ task ∈ s.tasks.rows, task.Recovering → s.pendingRecovery task.id ≠ []

/-- The operations that could leave an active task in recovery with nothing to dispose of. A task gets
its row outside recovery; an update or a failed command cleanup sets it in recovery only with an effect
that awaits its disposition; an effect is marked unknown without a disposition; the decision of an
approval takes no undecided effect from a task in recovery, unless there is another one; and an effect
is not committed as unknown with an empty reference. -/
def KeepsExit (s : Store) (timed : Timed) : Prop :=
  match timed.op with
  | .startTask _ task _ | .createTask task | .prepareTaskExecution task =>
      s.tasks.get? task.id = none → ¬ task.Recovering
  | .updateTask task _ _ => task.Recovering → s.pendingRecovery task.id ≠ []
  | .markCommandRecoveryRequired identity _ =>
      ∀ execution ∈ s.executions.get? identity.executionId,
        ∀ task ∈ s.tasks.get? execution.taskId, task.outcome = .active →
          s.pendingRecovery task.id ≠ []
  | .markEffectUnknown effectId _ _ _ =>
      ∀ effect ∈ s.effects.get? effectId, ∀ task ∈ s.tasks.get? effect.taskId,
        task.outcome = .active →
          s.dispositionOfEffect effectId = none ∨ s.pendingRecovery task.id ≠ []
  | .resolveEffectApproval approvalId _ _ _ _ _ _ =>
      ∀ approval ∈ s.approvals.get? approvalId, approval.status = .pending →
        ∀ effect ∈ s.effects.get? approval.effectId, ∀ task ∈ s.tasks.get? effect.taskId,
          task.Recovering → ∃ other ∈ s.pendingRecovery task.id, other.id ≠ effect.id
  | .commitEffect effect _ resultRef observationRef _ _ =>
      effect.status = .unknown → resultRef ≠ some "" ∧ observationRef ≠ some ""
  | _ => True

section Effects

variable [Sha256] {s s' : Store} {now : Timestamp} {op : Op} {effect : Effect}

/-- An undecided effect stays so, until it gets its disposition or an approval of it is decided. -/
theorem undecided_kept (hreturns : (exec now op).Returns s () s') (hundecided : s.Undecided effect) :
    (∃ effect', s'.Undecided effect' ∧ effect'.id = effect.id ∧ effect'.taskId = effect.taskId)
      ∨ (∃ disposition version resolution task target,
          op = .resolveRecovery disposition effect.taskId version resolution
            ∧ s.Resolves disposition effect.taskId version resolution task effect target)
      ∨ ∃ approvalId approved source version workspaceRef policyVersion configVersion current task
          actualConfig,
          op = .resolveEffectApproval approvalId approved source version workspaceRef policyVersion
              configVersion
            ∧ s.ResolvesApproval approvalId version workspaceRef policyVersion configVersion current
              effect task actualConfig := by
  have hrow := hundecided.row
  have hloaded : ∀ {effectId : String} {current : Effect}, s.LoadsEffect effectId current →
      effect.id = current.id → current = effect := by
    intro effectId current hload hid
    exact Option.some.inj (hload.row_of_id.symm.trans (hid ▸ hrow))
  rcases dispositionChange hreturns effect.id with hsame
    | ⟨disposition, taskId, version, resolution, task, unknown, target, hop, hresolves, hid, -⟩
  · have hchange := effectChange hreturns effect.id
    have hundisposed : s'.dispositionOfEffect effect.id = none := hsame.trans hundecided.undisposed
    have hunknown := hundecided.unknown
    generalize hrow' : s'.effects.get? effect.id = row at hchange
    cases hchange with
    | kept op => exact Or.inl ⟨effect, ⟨hrow'.trans hrow, hunknown, hundisposed⟩, rfl, rfl⟩
    | prepared hprepares hmem hid hnew => cases hnew.symm.trans hrow
    | batched hguards hcarries hmem hid hnew => cases hnew.symm.trans hrow
    | requested hrequests hprepared hid =>
        obtain rfl := hloaded hrequests.loadsEffect hid
        cases hprepared.symm.trans hunknown
    | decided hresolves hid =>
        obtain rfl := hloaded hresolves.loadsEffect hid
        exact Or.inr (Or.inr ⟨_, _, _, _, _, _, _, _, _, _, rfl, hresolves⟩)
    | claimed hclaims hid =>
        obtain rfl := hloaded hclaims.loadsEffect hid
        cases hclaims.prepared.symm.trans hunknown
    | committed hcommits hid =>
        obtain rfl := hloaded hcommits.loadsEffect hid
        cases hcommits.executing.symm.trans hunknown
    | @markedUnknown effectId version evidence guard execution current task hmarks hid =>
        obtain rfl := hloaded hmarks.loadsEffect hid
        have hmarked : current.markedUnknown evidence = current := by
          simp [Effect.markedUnknown, hunknown]
        rw [hmarked] at hrow'
        exact Or.inl ⟨current, ⟨hrow', hunknown, hundisposed⟩, rfl, rfl⟩
    | settled hsettles hid =>
        obtain rfl := hloaded hsettles.loadsEffect hid
        have htarget := hsettles.target
        have hstatus := hsettles.unexecuted
        rw [hunknown] at hstatus
        simp only [List.mem_cons, List.not_mem_nil, reduceCtorEq, false_or, or_false] at hstatus
        rw [← hstatus] at htarget
        simp at htarget
    | confirmed hresolves hkind hid =>
        obtain rfl := hloaded hresolves.loadsEffect hid
        obtain rfl := hresolves.owner
        exact Or.inr (Or.inl ⟨_, _, _, _, _, rfl, hresolves⟩)
    | retried hresolves hid hnew => cases hnew.symm.trans hrow
  · have heffect : unknown = effect := by
      have hload := hresolves.loadsEffect.1
      rw [hid, hrow] at hload
      exact (Option.some.inj hload).symm
    subst heffect
    obtain rfl := hresolves.owner
    exact Or.inr (Or.inl ⟨disposition, version, resolution, task, target, hop, hresolves⟩)

/-- A resolution takes its task out of recovery. -/
theorem not_inRecovery_of_resolves {disposition : RecoveryDisposition} {taskId : String}
    {version : Nat} {resolution : Resolution} {task : Task} {target : TaskRuntimeCondition}
    (hreturns : (exec now (.resolveRecovery disposition taskId version resolution)).Returns s () s')
    (hresolves : s.Resolves disposition taskId version resolution task effect target) :
    ¬ s'.InRecovery taskId := by
  obtain ⟨_, hreturns⟩ := discard_returns.mp hreturns
  obtain ⟨-, htaken⟩ | ⟨task, effect, target, hresolves, -, rfl⟩ := resolveRecovery_returns hreturns
  · exact absurd hresolves.free htaken
  · rintro ⟨task', hrow', hcondition⟩
    have htasks : (s.recovered now disposition resolution task effect target).tasks
        = s.tasks.set (task.recovered disposition.kind target) := by
      cases hresolves.valid <;> rfl
    have hkey : (task.recovered disposition.kind target).id = taskId := hresolves.loadsTask.id_eq
    have hget : (s.tasks.set (task.recovered disposition.kind target)).get? taskId
        = some (task.recovered disposition.kind target) := by
      rw [Table.get?_set_row hresolves.loadsTask.1 taskId hkey, if_pos rfl]
    rw [Option.mem_def, htasks, hget] at hrow'
    cases hrow'
    have htarget : target = .recoveryRequired := hcondition
    have hvalid := hresolves.valid
    rw [htarget] at hvalid
    generalize hkind : TaskRuntimeCondition.recoveryRequired = condition at hvalid
    cases hvalid with
    | confirmResult call result _ _ => split at hkind <;> cases hkind
    | createRetry retry approval _ _ _ _ _ => cases hkind
    | abandon _ _ => cases hkind

/-- An effect that is marked unknown without a disposition is undecided. -/
theorem undecided_of_marks {effectId : String} {version : Nat} {evidence : Json}
    {guard : LeaseGuard} {current : Effect}
    (hreturns : (exec now (.markEffectUnknown effectId version evidence guard)).Returns s () s')
    (hrow : s.effects.get? effectId = some current) (hnone : s.dispositionOfEffect effectId = none) :
    ∃ effect ∈ s'.pendingRecovery current.taskId, effect.id = current.id := by
  have hundisposed : s'.dispositionOfEffect effectId = none := by
    rcases dispositionChange hreturns effectId with hsame | ⟨_, _, _, _, _, _, _, hop, -⟩
    · exact hsame.trans hnone
    · cases hop
  obtain ⟨_, hreturns⟩ := discard_returns.mp hreturns
  obtain ⟨execution, marked, task, entry, hmarks, rfl⟩ := markEffectUnknown_returns hreturns
  cases Option.some.inj (hmarks.loadsEffect.1.symm.trans hrow)
  have hid : current.id = effectId := hmarks.loadsEffect.id_eq
  have hfields : (current.markedUnknown evidence).id = current.id
      ∧ (current.markedUnknown evidence).taskId = current.taskId
      ∧ (current.markedUnknown evidence).status = .unknown := by
    have hstatus := hmarks.uncertain
    unfold Effect.markedUnknown
    split
    · exact ⟨rfl, rfl, rfl⟩
    · rename_i hother
      exact ⟨rfl, rfl, by simpa [hother] using hstatus⟩
  obtain ⟨hkey, htask, hunknown⟩ := hfields
  refine ⟨current.markedUnknown evidence, mem_pendingRecovery.mpr ⟨⟨?_, hunknown, ?_⟩, htask⟩, hkey⟩
  · change (s.effects.set (current.markedUnknown evidence)).get? _ = some _
    rw [Table.get?_set_row hmarks.loadsEffect.row_of_id _ hkey, if_pos hkey]
  · rw [hkey, hid]
    exact hundisposed

end Effects

section Disposable

variable [Sha256] {s s' : Store} {now : Timestamp} {op : Op} {id : String}

/-- An operation that resolves nothing and decides no approval leaves every undecided effect so. -/
theorem pending_kept (hreturns : (exec now op).Returns s () s')
    (hresolves : ∀ disposition taskId version resolution,
      op ≠ .resolveRecovery disposition taskId version resolution)
    (hdecides : ∀ approvalId approved source version workspaceRef policyVersion configVersion,
      op ≠ .resolveEffectApproval approvalId approved source version workspaceRef policyVersion
        configVersion)
    (hpending : s.pendingRecovery id ≠ []) : s'.pendingRecovery id ≠ [] := by
  obtain ⟨effect, hmem⟩ := List.exists_mem_of_ne_nil _ hpending
  obtain ⟨hundecided, rfl⟩ := mem_pendingRecovery.mp hmem
  rcases undecided_kept hreturns hundecided with ⟨effect', hundecided', -, htask⟩
    | ⟨_, _, _, _, _, hop, -⟩ | ⟨_, _, _, _, _, _, _, _, _, _, hop, -⟩
  · exact List.ne_nil_of_mem (mem_pendingRecovery.mpr ⟨hundecided', htask⟩)
  · exact absurd hop (hresolves _ _ _ _)
  · exact absurd hop (hdecides _ _ _ _ _ _ _)

/-- An active task in recovery that an operation leaves there still has an effect to dispose of. -/
theorem recovering_kept {task : Task} (hdisposable : s.Disposable) (hkeeps : KeepsExit s ⟨now, op⟩)
    (hreturns : (exec now op).Returns s () s') (hrow : s.tasks.get? id = some task)
    (hrecovering : task.Recovering) (hstays : s'.InRecovery id) : s'.pendingRecovery id ≠ [] := by
  have hid : task.id = id := Table.key_of_get? hrow
  have hpending := hdisposable task (Table.mem_of_get? hrow) hrecovering
  rw [hid] at hpending
  obtain ⟨effect, hmem⟩ := List.exists_mem_of_ne_nil _ hpending
  obtain ⟨hundecided, rfl⟩ := mem_pendingRecovery.mp hmem
  have hfound : ∀ effect' : Effect, s'.Undecided effect' → effect'.taskId = effect.taskId →
      s'.pendingRecovery effect.taskId ≠ [] := by
    intro effect' hundecided' htask
    exact List.ne_nil_of_mem (mem_pendingRecovery.mpr ⟨hundecided', htask⟩)
  rcases undecided_kept hreturns hundecided with ⟨effect', hundecided', -, htask⟩
    | ⟨disposition, version, resolution, _, target, rfl, hresolves⟩
    | ⟨approvalId, approved, source, version, workspaceRef, policyVersion, configVersion, current,
        _, actualConfig, rfl, hresolves⟩
  · exact hfound effect' hundecided' htask
  · exact absurd hstays (not_inRecovery_of_resolves hreturns hresolves)
  · -- Another undecided effect of the task is not the one whose approval is decided.
    obtain ⟨other, hother, hne⟩ := hkeeps current hresolves.row hresolves.pending effect
      hresolves.loadsEffect.1 task hrow hrecovering
    obtain ⟨hundecided', htask⟩ := mem_pendingRecovery.mp hother
    rw [hid] at htask
    rcases undecided_kept hreturns hundecided' with ⟨effect', hkept, -, htask'⟩
      | ⟨_, _, _, _, _, hop, -⟩ | ⟨_, _, _, _, _, _, _, current', _, _, hop, hresolves'⟩
    · exact hfound effect' hkept (htask'.trans htask)
    · cases hop
    · cases hop
      have hcurrent : current' = current :=
        Option.some.inj (hresolves'.row.symm.trans hresolves.row)
      rw [hcurrent] at hresolves'
      have heffect := hresolves'.loadsEffect.id_eq.trans hresolves.loadsEffect.id_eq.symm
      exact absurd heffect hne

theorem disposable_after (hdisposable : s.Disposable) (hkeeps : KeepsExit s ⟨now, op⟩)
    (hreturns : (exec now op).Returns s () s') : s'.Disposable := by
  intro task' hmem hrecovering
  have hrow' : s'.tasks.get? task'.id = some task' := Table.get?_of_mem hmem
  have hstays : s'.InRecovery task'.id := ⟨task', hrow', hrecovering.2⟩
  have hold : ∀ task, s.tasks.get? task'.id = some task → task.Recovering →
      s'.pendingRecovery task'.id ≠ [] := fun task hrow hbefore =>
    recovering_kept hdisposable hkeeps hreturns hrow hbefore hstays
  have hchange := taskChange hreturns task'.id
  rw [hrow'] at hchange
  generalize hid : task'.id = id at *
  generalize hafter : some task' = row at hchange
  cases hchange with
  | kept op => exact hold task' hafter.symm hrecovering
  | started hvalid houtcome hsame hnew =>
      cases hafter
      exact absurd hrecovering (hkeeps (hid ▸ hnew))
  | ensured hvalid hsame hnew =>
      cases hafter
      exact absurd hrecovering (hkeeps (hid ▸ hnew))
  | @bound requested current session hvalid hsame hcurrent hfree =>
      cases hafter
      rcases get?_taskEnsured s requested id with heq | ⟨-, hnew, heq⟩
      · exact hold current (heq ▸ hcurrent) hrecovering
      · cases Option.some.inj (heq.symm.trans hcurrent)
        exact absurd hrecovering (hkeeps (hsame ▸ hnew))
  | created hvalid hsame hnew =>
      cases hafter
      exact absurd hrecovering (hkeeps (hid ▸ hnew))
  | updated hupdates hsame =>
      cases hafter
      rw [← hid]
      exact pending_kept hreturns (by simp) (by simp) (hkeeps hrecovering)
  | cancelled hload hstatus hsame =>
      cases hafter
      cases hrecovering.1
  | claimed hclaims hsame =>
      cases hafter
      cases hrecovering.2
  | @idled guard execution task hguards hload hsame =>
      cases hafter
      have hidled : task.idled = task := by
        have hcondition := hrecovering.2
        unfold Task.idled at hcondition ⊢
        split at hcondition
        · cases hcondition
        · rename_i hrunning
          rw [if_neg hrunning]
      rw [hidled] at hrecovering
      exact hold task (hsame ▸ hload.row_of_id) hrecovering
  | @recoveryMarked identity cleanupInfo execution task hexecution hload hsame =>
      cases hafter
      have hpending := hkeeps execution hexecution task hload.1 hrecovering.1
      rw [← hsame] at hpending
      exact pending_kept hreturns (by simp) (by simp) hpending
  | waiting hrequests hbranch hsame =>
      cases hafter
      cases hrecovering.2
  | @resumed approvalId approved source version workspaceRef policyVersion configVersion current
      effect task actualConfig hresolves hsame =>
      cases hafter
      have hresumed : task.resumed = task := by
        have hcondition := hrecovering.2
        unfold Task.resumed at hcondition ⊢
        split at hcondition
        · cases hcondition
        · rename_i hwaiting
          rw [if_neg hwaiting]
      rw [hresumed] at hrecovering
      exact hold task (hsame ▸ hresolves.loadsTask.row_of_id) hrecovering
  | @inRecovery effectId version evidence guard execution current task hmarks hsame =>
      cases hafter
      have hactive : task.outcome = .active := by
        have houtcome := hrecovering.1
        unfold Task.inRecovery at houtcome
        split at houtcome <;> exact houtcome
      have htask : current.taskId = id := hmarks.loadsTask.id_eq.symm.trans hsame.symm
      rcases hkeeps current hmarks.loadsEffect.1 task hmarks.loadsTask.1 hactive with hnone | hpending
      · obtain ⟨effect, hmem, -⟩ := undecided_of_marks hreturns hmarks.loadsEffect.1 hnone
        rw [← htask]
        exact List.ne_nil_of_mem hmem
      · rw [← hsame] at hpending
        exact pending_kept hreturns (by simp) (by simp) hpending
  | recovered hresolves hsame =>
      have htask := hsame.trans hresolves.loadsTask.id_eq
      subst htask
      exact absurd hstays (not_inRecovery_of_resolves hreturns hresolves)

end Disposable

/-! ### What a disposition needs -/

/-- The status of a task agrees with its outcome, and its session is there. -/
def Store.SoundTask (s : Store) (task : Task) : Prop :=
  task.status.outcome = task.outcome ∧ s.HasSession task.sessionId

/-- What a resolution reads is well formed: the tasks are, an undecided effect loads, and a session has
counted its events. -/
structure Store.Sound (s : Store) : Prop where
  tasks : ∀ task ∈ s.tasks.rows, s.SoundTask task
  effects : ∀ effect, s.Undecided effect → effect.Valid
  journal : s.JournalCounted

section Sound

variable [Sha256] {s s' : Store} {now : Timestamp} {op : Op}

omit [Sha256] in
theorem status_of_prepare {task result : Task}
    (hagrees : ∀ task ∈ s.tasks.rows, task.status.outcome = task.outcome)
    (hreturns : (prepareTaskExecution task).Returns s result s') :
    ∀ task' ∈ s'.tasks.rows, task'.status.outcome = task'.outcome := by
  obtain ⟨current, hvalid, hcurrent, -, hbranch⟩ := prepareTaskExecution_returns hreturns
  have hensured : ∀ id row, (s.taskEnsured task).tasks.get? id = some row →
      row.status.outcome = row.outcome := by
    intro id row hrow
    rcases get?_taskEnsured s task id with heq | ⟨-, -, heq⟩
    · exact hagrees row (Table.mem_of_get? (heq ▸ hrow))
    · cases Option.some.inj (heq.symm.trans hrow)
      exact hvalid.1
  intro task' hmem
  have hrow' : s'.tasks.get? task'.id = some task' := Table.get?_of_mem hmem
  rcases hbranch with rfl | ⟨-, session, -, -, hstate⟩
  · exact hensured _ _ hrow'
  · have htasks : s'.tasks = (s.taskEnsured task).tasks.set (current.boundTo session) := by
      have hsame : ((s.taskEnsured task).runtimeSessionEnsured current).tasks
          = (s.taskEnsured task).tasks := by
        unfold Store.runtimeSessionEnsured
        split <;> rfl
      rcases hstate with ⟨-, rfl⟩ | ⟨-, rfl⟩
      · rw [Store.putTask_tasks, hsame]
      · rw [Store.putSession_tasks, Store.putTask_tasks, hsame]
    have hkey : (current.boundTo session).id = task.id := Table.key_of_get? hcurrent
    rw [htasks, Table.get?_set_row hcurrent task'.id hkey] at hrow'
    have hbefore : current.status.outcome = current.outcome := hensured _ _ hcurrent
    split at hrow'
    · cases hrow'
      exact hbefore
    · exact hensured _ _ hrow'

theorem status_after (hagrees : ∀ task ∈ s.tasks.rows, task.status.outcome = task.outcome)
    (hreturns : (exec now op).Returns s () s') :
    ∀ task ∈ s'.tasks.rows, task.status.outcome = task.outcome := by
  intro task' hmem
  have hkept : ∀ {id : String} {task written : Task}, s.tasks.get? id = some task →
      written.status = task.status → written.outcome = task.outcome →
        written.status.outcome = written.outcome := by
    intro id task written hrow hstatus houtcome
    rw [hstatus, houtcome]
    exact hagrees task (Table.mem_of_get? hrow)
  have hchange := taskChange hreturns task'.id
  rw [show s'.tasks.get? task'.id = some task' from Table.get?_of_mem hmem] at hchange
  generalize task'.id = id at hchange
  generalize hafter : some task' = row at hchange
  cases hchange with
  | kept op => exact hkept hafter.symm rfl rfl
  | started hvalid =>
      cases hafter
      exact hvalid.1
  | ensured hvalid =>
      cases hafter
      exact hvalid.1
  | bound =>
      obtain ⟨_, hreturns⟩ := discard_returns.mp hreturns
      exact status_of_prepare hagrees hreturns task' hmem
  | created hvalid =>
      cases hafter
      exact hvalid.1
  | updated hupdates =>
      cases hafter
      exact hupdates.valid.1
  | cancelled hload =>
      cases hafter
      rfl
  | claimed hclaims =>
      cases hafter
      exact hkept hclaims.loadsTask.1 rfl rfl
  | idled hguards hload =>
      cases hafter
      unfold Task.idled
      split <;> exact hkept hload.1 rfl rfl
  | recoveryMarked hexecution hload =>
      cases hafter
      exact hkept hload.1 rfl rfl
  | waiting hrequests =>
      cases hafter
      exact hkept hrequests.loadsTask.1 rfl rfl
  | resumed hresolves =>
      cases hafter
      unfold Task.resumed
      split <;> exact hkept hresolves.loadsTask.1 rfl rfl
  | inRecovery hmarks =>
      cases hafter
      unfold Task.inRecovery
      split <;> exact hkept hmarks.loadsTask.1 rfl rfl
  | recovered hresolves =>
      cases hafter
      unfold Task.recovered
      split
      · rfl
      · exact hkept hresolves.loadsTask.1 rfl rfl

theorem soundTask_after (hsound : ∀ task ∈ s.tasks.rows, s.SoundTask task)
    (hreturns : (exec now op).Returns s () s') : ∀ task ∈ s'.tasks.rows, s'.SoundTask task := by
  have hagrees := status_after (fun task hmem => (hsound task hmem).1) hreturns
  have hbound := tasksBound_after (fun task hmem => (hsound task hmem).2) hreturns
  exact fun task hmem => ⟨hagrees task hmem, hbound task hmem⟩

/-- An undecided effect loads: it was prepared valid, and committed with references that are not
empty. -/
theorem undecided_valid_after (hsound : ∀ effect, s.Undecided effect → effect.Valid)
    (hkeeps : KeepsExit s ⟨now, op⟩) (hreturns : (exec now op).Returns s () s') :
    ∀ effect, s'.Undecided effect → effect.Valid := by
  intro effect hundecided
  have hchange := effectChange hreturns effect.id
  rw [hundecided.row] at hchange
  rcases unknown_after hchange hundecided.unknown with hrow | ⟨effects, -, -, hvalid, -⟩
    | ⟨committed, version, resultRef, observationRef, guard, observation, execution, current, task,
        rfl, hcommits, rfl⟩
    | ⟨effectId, version, evidence, guard, execution, current, task, rfl, hmarks, rfl⟩
  · exact hsound effect (undecided_of_row hreturns hrow hundecided)
  · exact hvalid
  · exact hkeeps hundecided.unknown
  · have hvalid : current.Valid := hmarks.loadsEffect.2
    unfold Effect.markedUnknown
    split <;> exact hvalid

end Sound

end PatchLoop
