import PatchLoop.Store.EffectChanges
import PatchLoop.Store.TaskChanges

/-!
# The recovery gate

A task that owns an unknown effect without a disposition must stand in `RECOVERY_REQUIRED`, so that
nothing runs for it. Which operations let such a task past the gate, and what follows when none does.
-/

namespace PatchLoop

open Transaction

/-- The outcome of the effect is undecided: it is unknown and has no disposition. -/
structure Store.Undecided (s : Store) (effect : Effect) : Prop where
  row : s.effects.get? effect.id = some effect
  unknown : effect.status = .unknown
  undisposed : s.dispositionOfEffect effect.id = none

theorem mem_pendingRecovery {s : Store} {effect : Effect} {taskId : String} :
    effect ∈ s.pendingRecovery taskId ↔ s.Undecided effect ∧ effect.taskId = taskId := by
  have hrow : effect ∈ s.effects.rows ↔ s.effects.get? effect.id = some effect :=
    Table.mem_rows_iff
  simp only [Store.pendingRecovery, List.mem_filter, decide_eq_true_eq, hrow]
  constructor
  · rintro ⟨hrow, htask, hunknown, hnone⟩
    exact ⟨⟨hrow, hunknown, hnone⟩, htask⟩
  · rintro ⟨⟨hrow, hunknown, hnone⟩, htask⟩
    exact ⟨hrow, htask, hunknown, hnone⟩

/-- The task has its row, and requires recovery. -/
def Store.InRecovery (s : Store) (taskId : String) : Prop :=
  ∃ task ∈ s.tasks.get? taskId, task.runtimeCondition = .recoveryRequired

/-- The gate: the task of every undecided effect requires recovery. -/
def Store.Gated (s : Store) : Prop :=
  ∀ effect, s.Undecided effect → s.InRecovery effect.taskId

/-- The four operations that could open the gate: an effect is inserted as unknown, or committed as
unknown, only when its task requires recovery already; a request for approval is repeated only when
the task does not require recovery; and a disposition is given when its effect is the only undecided
one of the task. -/
def KeepsGate (s : Store) (timed : Timed) : Prop :=
  match timed.op with
  | .prepareEffects effects _ _ | .prepareEffectBatch _ effects _ _ =>
      ∀ effect ∈ effects, s.effects.get? effect.id = none → effect.status = .unknown →
        s.InRecovery effect.taskId
  | .commitEffect effect _ _ _ _ _ => effect.status = .unknown → s.InRecovery effect.taskId
  | .requestEffectApproval effectId _ _ _ =>
      ∀ effect ∈ s.effects.get? effectId, effect.status = .waitingForApproval →
        ¬ s.InRecovery effect.taskId
  | .resolveRecovery disposition taskId _ _ =>
      s.dispositionByIdOrEffect disposition.id disposition.unknownEffectId = none →
        ∀ effect ∈ s.pendingRecovery taskId, effect.id = disposition.unknownEffectId
  | _ => True

section Steps

variable [Sha256] {s s' : Store} {now : Timestamp} {op : Op} {id : String}

/-- A task in recovery stays there, except for a repeated request for approval and a resolution. -/
theorem recovery_kept {task : Task} {row : Option Task} (hchange : TaskChange s now id op row)
    (hrow : s.tasks.get? id = some task) (hrecovery : task.runtimeCondition = .recoveryRequired) :
    (∃ task', row = some task' ∧ task'.runtimeCondition = .recoveryRequired)
      ∨ (∃ effectId approval version guard execution current,
          op = .requestEffectApproval effectId approval version guard
            ∧ s.RequestsApproval now effectId approval version guard execution current task
            ∧ current.status = .waitingForApproval)
      ∨ ∃ disposition version resolution effect target,
          op = .resolveRecovery disposition id version resolution
            ∧ s.Resolves disposition id version resolution task effect target := by
  have hloaded : ∀ {taskId : String} {current : Task}, s.LoadsTask taskId current →
      id = current.id → current = task := by
    intro taskId current hload hid
    exact Option.some.inj (hload.row_of_id.symm.trans (hid ▸ hrow))
  cases hchange with
  | kept op => exact Or.inl ⟨task, hrow, hrecovery⟩
  | started hvalid houtcome hid hnew => cases hnew.symm.trans hrow
  | ensured hvalid hid hnew => cases hnew.symm.trans hrow
  | @bound requested current session hvalid hid hcurrent hfree =>
      rcases get?_taskEnsured s requested id with hsame | ⟨-, hnew, -⟩
      · rw [hsame, hrow] at hcurrent
        cases hcurrent
        exact Or.inl ⟨_, rfl, hrecovery⟩
      · cases hnew.symm.trans hrow
  | created hvalid hid hnew => cases hnew.symm.trans hrow
  | updated hupdates hid =>
      obtain rfl := hloaded hupdates.loadsTask hid
      exact Or.inl ⟨_, rfl, hupdates.recovery hrecovery⟩
  | cancelled hload hstatus hid =>
      obtain rfl := hloaded hload hid
      exact Or.inl ⟨_, rfl, by simp [Task.cancelled, hrecovery]⟩
  | claimed hclaims hid =>
      obtain rfl := hloaded hclaims.loadsTask hid
      exact absurd hrecovery hclaims.recovered
  | idled hguards hload hid =>
      obtain rfl := hloaded hload hid
      exact Or.inl ⟨_, rfl, by simp [Task.idled, hrecovery]⟩
  | recoveryMarked hexecution hload hid => exact Or.inl ⟨_, rfl, rfl⟩
  | waiting hrequests hbranch hid =>
      obtain rfl := hloaded hrequests.loadsTask hid
      rcases hbranch with hwaiting | hrunning
      · exact Or.inr (Or.inl ⟨_, _, _, _, _, _, rfl, hrequests, hwaiting⟩)
      · cases hrecovery.symm.trans hrunning
  | resumed hresolves hid =>
      obtain rfl := hloaded hresolves.loadsTask hid
      exact Or.inl ⟨_, rfl, by simp [Task.resumed, hrecovery]⟩
  | inRecovery hmarks hid =>
      obtain rfl := hloaded hmarks.loadsTask hid
      exact Or.inl ⟨_, rfl, by simp [Task.inRecovery, hrecovery]⟩
  | recovered hresolves hid =>
      obtain rfl := hloaded hresolves.loadsTask hid
      have hid := hid.trans hresolves.loadsTask.id_eq
      subst hid
      exact Or.inr (Or.inr ⟨_, _, _, _, _, rfl, hresolves⟩)

/-- Marking an effect unknown sets its task in recovery. -/
theorem inRecovery_of_marks {effectId : String} {version : Nat} {evidence : Json}
    {guard : LeaseGuard} {current : Effect}
    (hreturns : (exec now (.markEffectUnknown effectId version evidence guard)).Returns s () s')
    (hrow : s.effects.get? effectId = some current) : s'.InRecovery current.taskId := by
  obtain ⟨_, hreturns⟩ := discard_returns.mp hreturns
  obtain ⟨execution, marked, task, entry, hmarks, rfl⟩ := markEffectUnknown_returns hreturns
  cases Option.some.inj (hmarks.loadsEffect.1.symm.trans hrow)
  have hkey : task.inRecovery.id = task.id := by unfold Task.inRecovery; split <;> rfl
  refine ⟨task.inRecovery, ?_, ?_⟩
  · change (s.tasks.set task.inRecovery).get? current.taskId = some task.inRecovery
    rw [Table.get?_set_row hmarks.loadsTask.row_of_id current.taskId hkey,
      if_pos hmarks.loadsTask.id_eq.symm]
  · unfold Task.inRecovery
    split
    · assumption
    · rfl

/-- An unknown effect was there, was prepared or committed as unknown, or has been marked unknown. -/
theorem unknown_after {effect : Effect} (hchange : EffectChange s now id op (some effect))
    (hunknown : effect.status = .unknown) :
    s.effects.get? id = some effect
      ∨ (∃ effects, effect ∈ effects ∧ s.effects.get? id = none ∧ effect.Valid
        ∧ ((∃ version guard, op = .prepareEffects effects version guard)
          ∨ ∃ agentStep version guard, op = .prepareEffectBatch agentStep effects version guard))
      ∨ (∃ committed version resultRef observationRef guard observation execution current task,
          op = .commitEffect committed version resultRef observationRef guard observation
            ∧ s.Commits now committed version guard execution current task
            ∧ effect = committed.committed resultRef observationRef current.version)
      ∨ ∃ effectId version evidence guard execution current task,
          op = .markEffectUnknown effectId version evidence guard
            ∧ s.MarksUnknown now effectId version guard execution current task
            ∧ effect = current.markedUnknown evidence := by
  generalize hafter : some effect = row at hchange
  cases hchange with
  | kept op => exact Or.inl rfl
  | prepared hprepares hmem hid hnew =>
      cases hafter
      exact Or.inr (Or.inl ⟨_, hmem, hnew, hprepares.valid effect hmem, Or.inl ⟨_, _, rfl⟩⟩)
  | batched hguards hcarries hmem hid hnew hvalid =>
      cases hafter
      exact Or.inr (Or.inl ⟨_, hmem, hnew, hvalid, Or.inr ⟨_, _, _, rfl⟩⟩)
  | requested hrequests hprepared hid =>
      cases hafter
      cases hunknown
  | decided hresolves hid =>
      cases hafter
      split at hunknown
      · simp only [Effect.resolved] at hunknown
        split at hunknown <;> cases hunknown
      · cases hunknown
  | claimed hclaims hid =>
      cases hafter
      cases hunknown
  | committed hcommits hid =>
      cases hafter
      exact Or.inr (Or.inr (Or.inl ⟨_, _, _, _, _, _, _, _, _, rfl, hcommits, rfl⟩))
  | markedUnknown hmarks hid =>
      cases hafter
      exact Or.inr (Or.inr (Or.inr ⟨_, _, _, _, _, _, _, rfl, hmarks, rfl⟩))
  | settled hsettles hid =>
      cases hafter
      have htarget := hsettles.target
      simp only [Effect.settled] at hunknown
      rw [hunknown] at htarget
      simp at htarget
  | confirmed hresolves hkind hid =>
      cases hafter
      simp only [Effect.confirmed] at hunknown
      split at hunknown <;> cases hunknown
  | retried hresolves hid hnew =>
      cases hafter
      cases hunknown

/-- No operation takes a disposition back. -/
theorem undecided_of_row {effect : Effect} (hreturns : (exec now op).Returns s () s')
    (hrow : s.effects.get? effect.id = some effect) (hundecided : s'.Undecided effect) :
    s.Undecided effect where
  row := hrow
  unknown := hundecided.unknown
  undisposed := by
    rcases dispositionChange hreturns effect.id with hsame | ⟨_, _, _, _, _, _, _, -, -, -, hsome⟩
    · exact hsame.symm.trans hundecided.undisposed
    · cases hundecided.undisposed.symm.trans hsome

/-- An effect that is undecided after an operation was so before it, or its task is in recovery. -/
theorem undecided_before {effect : Effect} (hkeeps : KeepsGate s ⟨now, op⟩)
    (hreturns : (exec now op).Returns s () s') (hundecided : s'.Undecided effect) :
    s.Undecided effect
      ∨ (s.InRecovery effect.taskId
        ∧ ∀ disposition taskId version resolution,
            op ≠ .resolveRecovery disposition taskId version resolution)
      ∨ s'.InRecovery effect.taskId := by
  have hchange := effectChange hreturns effect.id
  rw [hundecided.row] at hchange
  rcases unknown_after hchange hundecided.unknown with hrow
    | ⟨effects, hmem, hnew, -, ⟨version, guard, rfl⟩ | ⟨agentStep, version, guard, rfl⟩⟩
    | ⟨committed, version, resultRef, observationRef, guard, observation, execution, current, task,
        rfl, hcommits, rfl⟩
    | ⟨effectId, version, evidence, guard, execution, current, task, rfl, hmarks, rfl⟩
  · exact Or.inl (undecided_of_row hreturns hrow hundecided)
  · exact Or.inr (Or.inl ⟨hkeeps effect hmem hnew hundecided.unknown, by simp⟩)
  · exact Or.inr (Or.inl ⟨hkeeps effect hmem hnew hundecided.unknown, by simp⟩)
  · exact Or.inr (Or.inl ⟨hkeeps hundecided.unknown, by simp⟩)
  · have htask : (current.markedUnknown evidence).taskId = current.taskId := by
      unfold Effect.markedUnknown
      split <;> rfl
    rw [htask]
    exact Or.inr (Or.inr (inRecovery_of_marks hreturns hmarks.loadsEffect.1))

theorem gated_after (hgated : s.Gated) (hkeeps : KeepsGate s ⟨now, op⟩)
    (hreturns : (exec now op).Returns s () s') : s'.Gated := by
  intro effect hundecided
  have hstays : s.InRecovery effect.taskId →
      (∀ disposition version resolution target task unknown,
        op = .resolveRecovery disposition effect.taskId version resolution →
          ¬ s.Resolves disposition effect.taskId version resolution task unknown target) →
      s'.InRecovery effect.taskId := by
    rintro ⟨task, hrow, hrecovery⟩ hunresolved
    rcases recovery_kept (taskChange hreturns effect.taskId) hrow hrecovery with
      ⟨task', hrow', hrecovery'⟩ | ⟨effectId, approval, version, guard, execution, current, rfl,
        hrequests, hwaiting⟩ | ⟨disposition, version, resolution, unknown, target, hop, hresolves⟩
    · exact ⟨task', hrow', hrecovery'⟩
    · refine absurd ⟨task, ?_, hrecovery⟩ (hkeeps current hrequests.loadsEffect.1 hwaiting)
      exact hrequests.loadsTask.1
    · exact absurd hresolves (hunresolved disposition version resolution target task unknown hop)
  rcases undecided_before hkeeps hreturns hundecided with hold | ⟨hrecovery, hother⟩ | hrecovery
  · refine hstays (hgated effect hold) ?_
    rintro disposition version resolution target task unknown rfl hresolves
    -- The only undecided effect of the task has got its disposition.
    have honly := hkeeps hresolves.free effect (mem_pendingRecovery.mpr ⟨hold, rfl⟩)
    have hsome := disposed_of_resolves hreturns hresolves
    rw [← honly] at hsome
    cases hundecided.undisposed.symm.trans hsome
  · exact hstays hrecovery fun _ _ _ _ _ _ hop => absurd hop (hother _ _ _ _)
  · exact hrecovery

end Steps

section Runs

variable [Sha256] {s : Store} {history : List Timed}

theorem gated_run (hnone : s.effects.rows = []) (hkeeps : Run.EveryStep step KeepsGate s history) :
    (runFrom s history).Gated := by
  refine Run.invariant_after Store.Gated ?_ hkeeps ?_
  · intro s timed hgated hkept
    obtain hsame | hreturns := step_cases s timed
    · rw [hsame]
      exact hgated
    · exact gated_after hgated hkept hreturns
  · intro effect hundecided
    have hrow : effect ∈ s.effects.rows := Table.mem_of_get? hundecided.row
    rw [hnone] at hrow
    cases hrow

/-- A step that takes a task out of recovery is a resolution of an effect of the task. -/
theorem recovery_left {timed : Timed} {id : String} (hkeeps : KeepsGate s timed)
    (hrecovery : s.InRecovery id) (hleft : ¬ (step s timed).InRecovery id) :
    ∃ disposition version resolution,
      timed.op = .resolveRecovery disposition id version resolution := by
  obtain ⟨now, op⟩ := timed
  obtain ⟨task, hrow, hcondition⟩ := hrecovery
  obtain hsame | hreturns := step_cases s ⟨now, op⟩
  · rw [hsame] at hleft
    exact absurd ⟨task, hrow, hcondition⟩ hleft
  · rcases recovery_kept (taskChange hreturns id) hrow hcondition with
      ⟨task', hrow', hcondition'⟩ | ⟨effectId, approval, version, guard, execution, current, rfl,
        hrequests, hwaiting⟩ | ⟨disposition, version, resolution, unknown, target, hop, -⟩
    · exact absurd ⟨task', hrow', hcondition'⟩ hleft
    · refine absurd ⟨task, ?_, hcondition⟩ (hkeeps current hrequests.loadsEffect.1 hwaiting)
      exact hrequests.loadsTask.1
    · exact ⟨disposition, version, resolution, hop⟩

/-- No execution is claimed for a task in recovery. -/
theorem claim_rejected {now : Timestamp} {execution : Execution} {version : Option Nat}
    (hrecovery : s.InRecovery execution.taskId) :
    ¬ Accepted s ⟨now, .claimExecution execution version⟩ := by
  intro haccepted
  obtain ⟨_, hreturns⟩ := discard_returns.mp (accepted_iff.mp haccepted)
  obtain ⟨session, task, hclaims, -⟩ := claimExecution_returns hreturns
  obtain ⟨task', hrow, hcondition⟩ := hrecovery
  cases Option.some.inj (hclaims.loadsTask.1.symm.trans hrow)
  exact hclaims.recovered hcondition

/-- From a database without effects, in a run that keeps the gate: the task of every undecided effect
requires recovery; a task leaves recovery only in a resolution of one of its effects; and no execution
is claimed for a task while one of its effects is undecided. -/
theorem recovery_gate_holds (hnone : s.effects.rows = [])
    (hkeeps : Run.EveryStep step KeepsGate s history) :
    (∀ effect, (runFrom s history).Undecided effect →
        ∃ task, (runFrom s history).tasks.get? effect.taskId = some task
          ∧ task.runtimeCondition = .recoveryRequired)
      ∧ (∀ earlier timed later id, history = earlier ++ timed :: later →
          (runFrom s earlier).InRecovery id → ¬ (runFrom s (earlier ++ [timed])).InRecovery id →
            ∃ disposition version resolution,
              timed.op = .resolveRecovery disposition id version resolution)
      ∧ (∀ now execution version, (runFrom s history).pendingRecovery execution.taskId ≠ [] →
          ¬ Accepted (runFrom s history) ⟨now, .claimExecution execution version⟩) := by
  have hgated := gated_run hnone hkeeps
  refine ⟨hgated, ?_, ?_⟩
  · rintro earlier timed later id rfl hrecovery hleft
    rw [runFrom_append] at hleft
    exact recovery_left (hkeeps.at) hrecovery hleft
  · intro now execution version hpending
    obtain ⟨effect, hmem⟩ := List.exists_mem_of_ne_nil _ hpending
    obtain ⟨hundecided, htask⟩ := mem_pendingRecovery.mp hmem
    exact claim_rejected (htask ▸ hgated effect hundecided)

end Runs

section Samples

local instance recoveryGateDigest : Sha256 := Sample.digest

instance (s : Store) (taskId : String) : Decidable (s.InRecovery taskId) := by
  unfold Store.InRecovery
  infer_instance

instance (s : Store) (timed : Timed) : Decidable (KeepsGate s timed) := by
  obtain ⟨now, op⟩ := timed
  apply Op.casesOn (motive := fun op => Decidable (KeepsGate s ⟨now, op⟩)) op <;> intros <;>
    (delta KeepsGate; infer_instance)

/-- An effect is claimed under an execution lease until 10. -/
def Sample.executing : List Timed :=
  Sample.started "s" "a" "x" 10 ++
    [⟨1, .prepareEffects [Sample.effect "e" "a"] 2 (some (Sample.guard "x" "a"))⟩,
      ⟨2, .claimEffect "e" 1 (Sample.guard "x" "a") {}⟩]

/-- The executing effect is marked unknown, and found committed by an operator. -/
def Sample.confirmedLater : List Timed :=
  Sample.executing ++
    [⟨3, .markEffectUnknown "e" 2 (.obj []) (Sample.guard "x" "a")⟩,
      ⟨20, .resolveRecovery
        { id := "d", unknownEffectId := "e", kind := .confirmResult
          evidence := .obj [("seen", .bool true)], decisionSource := "operator", createdAt := 20 }
        "a" 3
        { confirmedCall := some { id := "call-e", name := "write_file" }
          confirmedResult := some
            { callId := "call-e", toolName := "write_file", success := true } }⟩]

/-- An effect that is committed as unknown leaves its task running, and the next execution of the task
is claimed while the outcome of the effect is undecided. -/
theorem unknown_commit_opens_gate :
    let history := Sample.executing ++ [⟨3, .commitEffect
      { Sample.effect "e" "a" with status := .unknown } 2 none none (Sample.guard "x" "a") none⟩]
    ((runFrom {} history).pendingRecovery "a").map Effect.id = ["e"]
      ∧ ¬ (runFrom {} history).InRecovery "a"
      ∧ Accepted (runFrom {} history) ⟨20, .claimExecution (Sample.execution "y" "s" "a" 100) none⟩ := by
  decide +kernel

/-- A run that keeps the gate, from the unknown effect to its confirmation. -/
theorem recovery_gate_holds_confirmed :
    ¬ Accepted (runFrom {} (Sample.confirmedLater.take 6))
        ⟨20, .claimExecution (Sample.execution "y" "s" "a" 100) none⟩
      ∧ ¬ (runFrom {} Sample.confirmedLater).InRecovery "a" := by
  have hkeeps : Run.EveryStep step KeepsGate {} (Sample.confirmedLater.take 6) := by decide +kernel
  exact ⟨(recovery_gate_holds rfl hkeeps).2.2 20 (Sample.execution "y" "s" "a" 100) none
    (by decide +kernel), by decide +kernel⟩

end Samples

end PatchLoop
