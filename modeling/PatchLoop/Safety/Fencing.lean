import PatchLoop.Store.EffectChanges
import PatchLoop.Store.TaskChanges
import PatchLoop.Store.Fence

/-!
# Fencing of task state

A fenced operation writes the state of one task. Four of the guarded writes compare that task with
the task of the guard; six leave it to the caller, and keep to the guard's task only when the caller
does.
-/

namespace PatchLoop

open Transaction

/-- The task whose row, effect, checkpoint, step or tool result a fenced operation writes. -/
def Op.target (s : Store) : Op → Option String
  | .updateTask task _ _ => some task.id
  | .prepareEffects effects _ _ => effects.head?.map Effect.taskId
  | .prepareEffectBatch agentStep _ _ _ => some agentStep.taskId
  | .requestEffectApproval effectId _ _ _ | .claimEffect effectId _ _ _
  | .markEffectUnknown effectId _ _ _ | .settleUnexecutedEffect effectId _ _ _ _ _ =>
      (s.effects.get? effectId).map Effect.taskId
  | .commitEffect effect _ _ _ _ _ => some effect.taskId
  | .commitCheckpoint checkpoint _ _ => some checkpoint.taskId
  | .commitToolResult taskId _ _ _ _ => some taskId
  | .saveCheckpoint checkpoint _ => some checkpoint.taskId
  | .recordStep agentStep _ => some agentStep.taskId
  | .recordToolCall taskId _ _ _ => some taskId
  | .releaseExecution guard => (s.executions.get? guard.executionId).map Execution.taskId
  | _ => none

/-- The operations that pass `_assert_guard` without comparing the task of the guard. -/
def Op.Unchecked : Op → Prop
  | .updateTask .. | .prepareEffects .. | .claimEffect .. | .commitEffect .. | .commitCheckpoint ..
  | .commitToolResult .. => True
  | _ => False

/-- An operation that does not compare the task of its guard is given a guard of the task it writes.
-/
def NamesTask (s : Store) (timed : Timed) : Prop :=
  timed.op.Unchecked → ∀ guard ∈ timed.op.fence s, ∀ taskId ∈ timed.op.target s,
    guard.taskId = taskId

/-- The two databases have the same state of a task. -/
structure Store.SameTask (s s' : Store) (taskId : String) : Prop where
  task : s'.tasks.get? taskId = s.tasks.get? taskId
  effects : ∀ id effect, effect.taskId = taskId →
    (s'.effects.get? id = some effect ↔ s.effects.get? id = some effect)
  toolCalls : ∀ callId, s'.toolCalls.get? (taskId, callId) = s.toolCalls.get? (taskId, callId)
  agentSteps : ∀ index, s'.agentSteps.get? (taskId, index) = s.agentSteps.get? (taskId, index)
  checkpoint : s'.checkpoints.get? taskId = s.checkpoints.get? taskId

theorem Store.SameTask.refl (s : Store) (taskId : String) : s.SameTask s taskId :=
  ⟨rfl, fun _ _ _ => Iff.rfl, fun _ => rfl, fun _ => rfl, rfl⟩

theorem Store.SameTask.trans {s t u : Store} {taskId : String} (hfirst : s.SameTask t taskId)
    (hsecond : t.SameTask u taskId) : s.SameTask u taskId where
  task := hsecond.task.trans hfirst.task
  effects id effect htask := (hsecond.effects id effect htask).trans (hfirst.effects id effect htask)
  toolCalls callId := (hsecond.toolCalls callId).trans (hfirst.toolCalls callId)
  agentSteps index := (hsecond.agentSteps index).trans (hfirst.agentSteps index)
  checkpoint := hsecond.checkpoint.trans hfirst.checkpoint

section Frames

variable [Sha256] {s s' : Store} {now : Timestamp} {op : Op} {u : Unit} {taskId : String}

theorem task_frame (hreturns : (exec now op).Returns s u s') (hfenced : op.fence s ≠ none)
    (hother : op.target s ≠ some taskId) : s'.tasks.get? taskId = s.tasks.get? taskId := by
  have hchange := taskChange hreturns taskId
  generalize s'.tasks.get? taskId = row at hchange ⊢
  cases hchange with
  | kept op => rfl
  | updated hupdates hid =>
      have hkey := hupdates.loadsTask.id_eq
      exact absurd (congrArg some (hkey.symm.trans hid.symm)) hother
  | idled hguards hload hid =>
      refine absurd ?_ hother
      rw [Op.target, hguards.row, hid, hload.id_eq]
      rfl
  | waiting hrequests hbranch hid =>
      refine absurd ?_ hother
      rw [Op.target, hrequests.loadsEffect.1, hid, hrequests.loadsTask.id_eq]
      rfl
  | inRecovery hmarks hid =>
      refine absurd ?_ hother
      rw [Op.target, hmarks.loadsEffect.1, hid, hmarks.loadsTask.id_eq]
      rfl
  | _ => exact absurd rfl hfenced

/-- A fenced operation leaves an effect row alone, or the row is of its target before and after. -/
theorem effect_frame {id : String} {row : Option Effect} (hchange : EffectChange s now id op row)
    (hfenced : op.fence s ≠ none) :
    row = s.effects.get? id
      ∨ (∀ effect ∈ s.effects.get? id, op.target s = some effect.taskId)
        ∧ ∀ effect ∈ row, op.target s = some effect.taskId := by
  have hwritten : ∀ {effectId : String} {current written : Effect},
      s.LoadsEffect effectId current → id = current.id → written.taskId = current.taskId →
        op.target s = some current.taskId →
          (∀ effect ∈ s.effects.get? id, op.target s = some effect.taskId)
            ∧ ∀ effect ∈ some written, op.target s = some effect.taskId := by
    intro effectId current written hload hid htask htarget
    constructor
    · intro effect hrow
      rw [hid, hload.row_of_id] at hrow
      cases hrow
      exact htarget
    · rintro _ ⟨⟩
      rw [htask]
      exact htarget
  cases hchange with
  | kept op => exact Or.inl rfl
  | @prepared effects version guard task effect hprepares hmem hid hnew =>
      refine Or.inr ⟨by simp [hnew], ?_⟩
      rintro _ ⟨⟩
      cases effects with
      | nil => cases hmem
      | cons first rest =>
          have hfirst := hprepares.owner first List.mem_cons_self
          have heffect := hprepares.owner effect hmem
          exact congrArg some (hfirst.trans heffect.symm)
  | @batched agentStep effects version guard effect hguards hcarries hmem hid hnew =>
      refine Or.inr ⟨by simp [hnew], ?_⟩
      rintro _ ⟨⟩
      have hkey : effect.identityKey ∈ effects.map Effect.identityKey := List.mem_map_of_mem hmem
      rw [hcarries] at hkey
      obtain ⟨position, -, hposition⟩ := List.mem_map.mp hkey
      exact congrArg some (congrArg Prod.fst hposition)
  | requested hrequests hprepared hid =>
      refine Or.inr (hwritten hrequests.loadsEffect hid rfl ?_)
      rw [Op.target, hrequests.loadsEffect.1]
      rfl
  | decided hresolves hid => exact absurd rfl hfenced
  | claimed hclaims hid =>
      refine Or.inr (hwritten hclaims.loadsEffect hid rfl ?_)
      rw [Op.target, hclaims.loadsEffect.1]
      rfl
  | @committed effect version resultRef observationRef guard observation execution current task
      hcommits hid =>
      have hkey := hcommits.compatible.1 hcommits.loadsEffect.id_eq
      have htask : current.taskId = effect.taskId := congrArg Prod.fst hkey
      exact Or.inr (hwritten hcommits.loadsEffect hid htask.symm (congrArg some htask.symm))
  | markedUnknown hmarks hid =>
      refine Or.inr (hwritten hmarks.loadsEffect hid ?_ ?_)
      · unfold Effect.markedUnknown
        split <;> rfl
      · rw [Op.target, hmarks.loadsEffect.1]
        rfl
  | settled hsettles hid =>
      refine Or.inr (hwritten hsettles.loadsEffect hid rfl ?_)
      rw [Op.target, hsettles.loadsEffect.1]
      rfl
  | confirmed hresolves hkind hid => exact absurd rfl hfenced
  | retried hresolves hid hnew => exact absurd rfl hfenced

theorem toolCalls_frame (hreturns : (exec now op).Returns s u s') (hfenced : op.fence s ≠ none)
    (hother : op.target s ≠ some taskId) (callId : String) :
    s'.toolCalls.get? (taskId, callId) = s.toolCalls.get? (taskId, callId) := by
  have hinsert : ∀ row : ToolCallRow, row.taskId ≠ taskId →
      (s.toolCalls.insert row).get? (taskId, callId) = s.toolCalls.get? (taskId, callId) := by
    intro row hne
    exact Table.get?_insert_of_ne _ fun heq => hne (congrArg Prod.fst heq).symm
  cases op with
  | commitEffect effect version resultRef observationRef guard observation =>
      obtain ⟨_, hreturns⟩ := discard_returns.mp hreturns
      obtain ⟨_, _, task, entry, -, -, -, rfl⟩ := commitEffect_returns hreturns
      cases observation with
      | none => rfl
      | some observed => exact hinsert _ fun heq => hother (congrArg some heq)
  | settleUnexecutedEffect effectId status version call result guard =>
      obtain ⟨_, hreturns⟩ := discard_returns.mp hreturns
      obtain ⟨_, current, hsettles, rfl | ⟨task, entry, -, -, rfl⟩⟩ :=
        settleUnexecutedEffect_returns hreturns
      · rfl
      · refine hinsert _ fun heq => hother ?_
        rw [Op.target, hsettles.loadsEffect.1]
        exact congrArg some heq
  | commitToolResult owner call result version guard =>
      obtain ⟨_, hreturns⟩ := discard_returns.mp hreturns
      obtain ⟨_, -, -, rfl | ⟨-, _, rfl⟩⟩ := commitToolResult_returns hreturns
      · rfl
      · exact hinsert _ fun heq => hother (congrArg some heq)
  | recordToolCall owner call result guard =>
      obtain ⟨-, rfl⟩ := recordToolCall_returns hreturns
      exact hinsert _ fun heq => hother (congrArg some heq)
  | resolveRecovery disposition owner version resolution => exact absurd rfl hfenced
  | _ =>
      have htable : s'.toolCalls = s.toolCalls := exec_agrees hreturns .toolCalls rfl
      rw [htable]

theorem agentSteps_frame (hreturns : (exec now op).Returns s u s')
    (hother : op.target s ≠ some taskId) (index : Nat) :
    s'.agentSteps.get? (taskId, index) = s.agentSteps.get? (taskId, index) := by
  have hupsert : ∀ agentStep : AgentStep, agentStep.taskId ≠ taskId →
      (s.agentSteps.upsert agentStep).get? (taskId, index) = s.agentSteps.get? (taskId, index) := by
    intro agentStep hne
    exact Table.get?_upsert_of_ne _ fun heq => hne (congrArg Prod.fst heq).symm
  cases op with
  | prepareEffectBatch agentStep effects version guard =>
      obtain ⟨_, hreturns⟩ := discard_returns.mp hreturns
      obtain ⟨_, _, -, -, -, -, -, -, ⟨-, rfl⟩ | ⟨-, rfl⟩⟩ := prepareEffectBatch_returns hreturns
      · exact hupsert agentStep fun heq => hother (congrArg some heq)
      · exact hupsert agentStep fun heq => hother (congrArg some heq)
  | recordStep agentStep guard =>
      obtain ⟨-, rfl⟩ := recordStep_returns hreturns
      exact hupsert agentStep fun heq => hother (congrArg some heq)
  | _ =>
      have htable : s'.agentSteps = s.agentSteps := exec_agrees hreturns .agentSteps rfl
      rw [htable]

omit [Sha256] in
/-- The journal entry of an effect moves the cursor of its own task only. -/
theorem get?_journaledEffect_checkpoints {task : Task} {entry : Entry} {completed : Option String}
    (hne : taskId ≠ task.id) :
    (s.journaledEffect now task entry completed).checkpoints.get? taskId
      = s.checkpoints.get? taskId := by
  rw [Store.journaledEffect_checkpoints]
  split
  · rfl
  · rw [Store.advanced_checkpoints]
    split
    · rfl
    · rename_i checkpoint hrow
      have hkey : checkpoint.taskId = task.id := Table.key_of_get? hrow
      exact Table.get?_upsert_of_ne _ fun heq => hne (heq.trans hkey)

theorem checkpoint_frame (hreturns : (exec now op).Returns s u s') (hfenced : op.fence s ≠ none)
    (hother : op.target s ≠ some taskId) :
    s'.checkpoints.get? taskId = s.checkpoints.get? taskId := by
  cases op with
  | commitCheckpoint checkpoint version guard =>
      obtain ⟨_, hreturns⟩ := discard_returns.mp hreturns
      obtain ⟨_, _, _, -, -, -, -, -, -, _, rfl⟩ := commitCheckpoint_returns hreturns
      exact Table.get?_upsert_of_ne _ fun heq => hother (congrArg some heq.symm)
  | saveCheckpoint checkpoint guard =>
      obtain ⟨-, rfl⟩ := saveCheckpoint_returns hreturns
      exact Table.get?_upsert_of_ne _ fun heq => hother (congrArg some heq.symm)
  | commitEffect effect version resultRef observationRef guard observation =>
      obtain ⟨_, hreturns⟩ := discard_returns.mp hreturns
      obtain ⟨_, current, task, entry, hcommits, -, -, rfl⟩ := commitEffect_returns hreturns
      have hne : taskId ≠ task.id := by
        rw [hcommits.loadsTask.id_eq]
        exact fun heq => hother (congrArg some heq.symm)
      exact get?_journaledEffect_checkpoints hne
  | markEffectUnknown effectId version evidence guard =>
      obtain ⟨_, hreturns⟩ := discard_returns.mp hreturns
      obtain ⟨_, current, task, entry, hmarks, rfl⟩ := markEffectUnknown_returns hreturns
      refine get?_journaledEffect_checkpoints fun heq => hother ?_
      rw [Op.target, hmarks.loadsEffect.1, heq, hmarks.loadsTask.id_eq]
      rfl
  | settleUnexecutedEffect effectId status version call result guard =>
      obtain ⟨_, hreturns⟩ := discard_returns.mp hreturns
      obtain ⟨_, current, hsettles, rfl | ⟨task, entry, hload, -, rfl⟩⟩ :=
        settleUnexecutedEffect_returns hreturns
      · rfl
      · refine get?_journaledEffect_checkpoints fun heq => hother ?_
        rw [Op.target, hsettles.loadsEffect.1, heq, hload.id_eq]
        rfl
  | resolveRecovery disposition owner version resolution => exact absurd rfl hfenced
  | _ =>
      have htable : s'.checkpoints = s.checkpoints := exec_agrees hreturns .checkpoints rfl
      rw [htable]

/-- A fenced operation changes the state of its target only. -/
theorem sameTask_of_fenced (hreturns : (exec now op).Returns s u s') (hfenced : op.fence s ≠ none)
    (hother : op.target s ≠ some taskId) : s.SameTask s' taskId where
  task := task_frame hreturns hfenced hother
  effects id effect htask := by
    rcases effect_frame (effectChange hreturns id) hfenced with hsame | ⟨hbefore, hafter⟩
    · rw [hsame]
    · constructor
      · intro hrow
        exact absurd ((hafter effect hrow).trans (congrArg some htask)) hother
      · intro hrow
        exact absurd ((hbefore effect hrow).trans (congrArg some htask)) hother
  toolCalls := toolCalls_frame hreturns hfenced hother
  agentSteps := agentSteps_frame hreturns hother
  checkpoint := checkpoint_frame hreturns hfenced hother

end Frames

section Runs

variable [Sha256] {s : Store} {history : List Timed} {guard : LeaseGuard} {taskId : String}

omit [Sha256] in
theorem Store.Guards.taskId_eq {now : Timestamp} {execution : Execution}
    (hguards : s.Guards now guard execution) : execution.taskId = guard.taskId :=
  congrArg LeaseGuard.taskId hguards.fields

omit [Sha256] in
/-- The legacy guard check compares the task. -/
theorem taskId_of_guardsLegacyWrite {now : Timestamp} {supplied : Option LeaseGuard}
    (hguards : s.GuardsLegacyWrite now taskId supplied)
    (hfence : s.boundGuard taskId supplied = some guard) : guard.taskId = taskId := by
  unfold Store.boundGuard at hfence
  rcases hguards with hfree | ⟨g, execution, hsupplied, htask, -⟩
  · rw [if_pos hfree] at hfence
    cases hfence
  · split at hfence
    · cases hfence
    · rw [hsupplied] at hfence
      cases hfence
      exact htask

/-- An accepted operation writes the task of its guard: it has compared the two, or its caller has. -/
theorem target_of_accepted {timed : Timed} (hnames : NamesTask s timed)
    (haccepted : Accepted s timed) (hfence : timed.op.fence s = some guard)
    (htarget : timed.op.target s = some taskId) : taskId = guard.taskId := by
  obtain ⟨now, op⟩ := timed
  have hreturns : (exec now op).Returns s () (step s ⟨now, op⟩) := accepted_iff.mp haccepted
  have howned : ∀ {effectId : String} {current : Effect} {execution : Execution},
      s.LoadsEffect effectId current → s.Guards now guard execution →
        current.taskId = execution.taskId →
          (s.effects.get? effectId).map Effect.taskId = some taskId → taskId = guard.taskId := by
    intro effectId current execution hload hguards howner htask
    rw [hload.1] at htask
    cases htask
    exact howner.trans hguards.taskId_eq
  cases op with
  | updateTask | prepareEffects | claimEffect | commitEffect | commitCheckpoint | commitToolResult =>
      exact (hnames trivial guard hfence taskId htarget).symm
  | requestEffectApproval effectId approval version g =>
      obtain ⟨_, hreturns⟩ := discard_returns.mp hreturns
      obtain ⟨_, _, _, hrequests, -⟩ := requestEffectApproval_returns hreturns
      cases hfence
      exact howned hrequests.loadsEffect hrequests.guards hrequests.owner htarget
  | markEffectUnknown effectId version evidence g =>
      obtain ⟨_, hreturns⟩ := discard_returns.mp hreturns
      obtain ⟨_, _, _, _, hmarks, -⟩ := markEffectUnknown_returns hreturns
      cases hfence
      exact howned hmarks.loadsEffect hmarks.guards hmarks.owner htarget
  | settleUnexecutedEffect effectId status version call result g =>
      obtain ⟨_, hreturns⟩ := discard_returns.mp hreturns
      obtain ⟨_, _, hsettles, -⟩ := settleUnexecutedEffect_returns hreturns
      cases hfence
      exact howned hsettles.loadsEffect hsettles.guards hsettles.owner htarget
  | releaseExecution g =>
      obtain ⟨_, _, hguards, -⟩ := releaseExecution_returns hreturns
      cases hfence
      rw [Op.target, hguards.row] at htarget
      cases htarget
      exact hguards.taskId_eq
  | prepareEffectBatch agentStep effects version supplied =>
      obtain ⟨_, hreturns⟩ := discard_returns.mp hreturns
      obtain ⟨_, _, -, hguards, -⟩ := prepareEffectBatch_returns hreturns
      cases htarget
      exact (taskId_of_guardsLegacyWrite hguards hfence).symm
  | saveCheckpoint checkpoint supplied =>
      cases htarget
      exact (taskId_of_guardsLegacyWrite (saveCheckpoint_returns hreturns).1 hfence).symm
  | recordStep agentStep supplied =>
      cases htarget
      exact (taskId_of_guardsLegacyWrite (recordStep_returns hreturns).1 hfence).symm
  | recordToolCall owner call result supplied =>
      cases htarget
      exact (taskId_of_guardsLegacyWrite (recordToolCall_returns hreturns).1 hfence).symm
  | _ => cases htarget

theorem sameTask_step {timed : Timed} (hnames : NamesTask s timed)
    (hfence : timed.op.fence s = some guard) (hother : taskId ≠ guard.taskId) :
    s.SameTask (step s timed) taskId := by
  obtain hsame | hreturns := step_cases s timed
  · rw [hsame]
    exact .refl s taskId
  · refine sameTask_of_fenced hreturns (by simp [hfence]) fun htarget => hother ?_
    exact target_of_accepted hnames (accepted_iff.mpr hreturns) hfence htarget

end Runs

section Samples

local instance fencingDigest : Sha256 := Sample.digest

instance (op : Op) : Decidable op.Unchecked := by
  cases op <;> unfold Op.Unchecked <;> infer_instance

instance (s : Store) (timed : Timed) : Decidable (NamesTask s timed) :=
  inferInstanceAs (Decidable (_ → _))

/-- Two sessions, each with its own task and its own live execution. -/
def Sample.twoOwners : List Timed :=
  Sample.started "s" "a" "x" 100 ++ Sample.started "t" "b" "y" 100

/-- The owner of one task runs an effect of the other from its preparation to its result, and writes
its results, its checkpoint and its row. -/
def Sample.strangerWrites : List Timed :=
  [⟨1, .prepareEffects [Sample.effect "e" "b"] 2 (some (Sample.guard "x" "a"))⟩,
    ⟨2, .claimEffect "e" 1 (Sample.guard "x" "a") {}⟩,
    ⟨3, .commitEffect { Sample.effect "e" "b" with status := .succeeded } 2 none none
      (Sample.guard "x" "a") none⟩,
    ⟨4, .commitToolResult "b" { id := "call", name := "read_file" }
      { callId := "call", toolName := "read_file", success := true } none
      (some (Sample.guard "x" "a"))⟩,
    ⟨5, .commitCheckpoint { taskId := "b", sessionId := some "t" } 2 (Sample.guard "x" "a")⟩,
    ⟨6, .updateTask { Sample.task "b" with
        sessionId := some "t", status := .failed, outcome := .failed, runtimeCondition := .ended } 2
      (some (Sample.guard "x" "a"))⟩]

/-- The owner of task `b` prepares an effect of it. -/
def Sample.ownerWrites : List Timed :=
  [⟨1, .prepareEffects [Sample.effect "e" "b"] 2 (some (Sample.guard "y" "b"))⟩]

end Samples

end PatchLoop
