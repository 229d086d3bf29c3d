import PatchLoop.Store.EffectChanges

/-!
# How checkpoints, steps and tool results change

For a row of `checkpoints`, of `agent_steps` or of `tool_calls`, each way in which an operation may
change it. A result that is stored stays: no operation writes a row of `tool_calls` again.
-/

namespace PatchLoop

open Transaction

variable [Sha256] {s s' : Store} {now : Timestamp} {op : Op} {u : Unit}

/-! ### Checkpoints -/

/-- What an operation leaves in the checkpoint of a task. -/
inductive CheckpointChange (s : Store) (now : Timestamp) (taskId : String) :
    Op → Option Checkpoint → Prop where
  | kept (op : Op) : CheckpointChange s now taskId op (s.checkpoints.get? taskId)
  | saved {checkpoint : Checkpoint} {guard : Option LeaseGuard} (hid : taskId = checkpoint.taskId) :
      CheckpointChange s now taskId (.saveCheckpoint checkpoint guard) (some checkpoint)
  | committed {checkpoint : Checkpoint} {version : Nat} {guard : LeaseGuard}
      (hid : taskId = checkpoint.taskId) :
      CheckpointChange s now taskId (.commitCheckpoint checkpoint version guard) (some checkpoint)
  | advanced (op : Op) {checkpoint : Checkpoint} {sequence : Nat} {completed : Option String}
      (hrow : s.checkpoints.get? taskId = some checkpoint) :
      CheckpointChange s now taskId op (some (checkpoint.advanced now sequence completed))

omit [Sha256] in
/-- A cursor moves in the checkpoint of its own task. -/
theorem CheckpointChange.of_advanced {table : Table Checkpoint} {id taskId : String}
    {sequence : Nat} {completed : Option String} (htable : table = s.checkpoints)
    (hop : CheckpointChange s now taskId op (table.get? taskId)) :
    CheckpointChange s now taskId op
      ((match table.get? id with
        | none => table
        | some checkpoint => table.upsert (checkpoint.advanced now sequence completed)).get?
          taskId) := by
  subst htable
  split
  · exact hop
  · rename_i checkpoint hrow
    have hkey : checkpoint.taskId = id := Table.key_of_get? hrow
    rw [Table.get?_upsert]
    split
    · rename_i heq
      have heq : taskId = id := heq.trans hkey
      exact .advanced op (heq ▸ hrow)
    · exact hop

omit [Sha256] in
theorem CheckpointChange.of_upsert {checkpoint : Checkpoint} {taskId : String}
    (hop : taskId = checkpoint.taskId → CheckpointChange s now taskId op (some checkpoint)) :
    CheckpointChange s now taskId op ((s.upsertCheckpoint checkpoint).checkpoints.get? taskId) := by
  rw [Store.upsertCheckpoint_checkpoints, Table.get?_upsert]
  split
  · rename_i heq
    exact hop heq
  · exact .kept op

theorem checkpointChange (hreturns : (exec now op).Returns s u s') (taskId : String) :
    CheckpointChange s now taskId op (s'.checkpoints.get? taskId) := by
  cases op with
  | saveCheckpoint checkpoint guard =>
      obtain ⟨-, rfl⟩ := saveCheckpoint_returns hreturns
      exact .of_upsert .saved
  | commitCheckpoint checkpoint version guard =>
      obtain ⟨_, hreturns⟩ := discard_returns.mp hreturns
      obtain ⟨_, _, _, -, -, -, -, -, -, _, rfl⟩ := commitCheckpoint_returns hreturns
      exact .of_upsert .committed
  | commitEffect effect version resultRef observationRef guard observation =>
      obtain ⟨_, hreturns⟩ := discard_returns.mp hreturns
      obtain ⟨_, _, task, _, -, -, -, rfl⟩ := commitEffect_returns hreturns
      rw [Store.journaledEffect_checkpoints]
      split
      · exact .kept _
      · exact .of_advanced rfl (.kept _)
  | markEffectUnknown effectId version evidence guard =>
      obtain ⟨_, hreturns⟩ := discard_returns.mp hreturns
      obtain ⟨_, _, task, _, -, rfl⟩ := markEffectUnknown_returns hreturns
      rw [Store.journaledEffect_checkpoints]
      split
      · exact .kept _
      · exact .of_advanced rfl (.kept _)
  | settleUnexecutedEffect effectId status version call result guard =>
      obtain ⟨_, hreturns⟩ := discard_returns.mp hreturns
      obtain ⟨_, current, -, rfl | ⟨task, _, -, -, rfl⟩⟩ := settleUnexecutedEffect_returns hreturns
      · exact .kept _
      · rw [Store.journaledEffect_checkpoints]
        split
        · exact .kept _
        · exact .of_advanced rfl (.kept _)
  | resolveRecovery disposition taskId version resolution =>
      obtain ⟨_, hreturns⟩ := discard_returns.mp hreturns
      obtain ⟨rfl, -⟩ | ⟨task, effect, target, hresolves, -, rfl⟩ := resolveRecovery_returns hreturns
      · exact .kept _
      · have hresolved : (((s.resolved now effect disposition resolution).addRecoveryDisposition
            disposition).putTask (task.recovered disposition.kind target)).checkpoints
              = s.checkpoints := by
          cases hresolves.valid <;> rfl
        rw [Store.recovered, Store.journaledResolution_checkpoints]
        split
        · rw [hresolved]
          exact .kept _
        · exact .of_advanced hresolved (by rw [hresolved]; exact .kept _)
  | _ =>
      have htable : s'.checkpoints = s.checkpoints := exec_agrees hreturns .checkpoints rfl
      rw [htable]
      exact .kept _

/-! ### Tool results -/

/-- What an operation leaves under a call id of a task. -/
inductive ToolCallChange (s : Store) (now : Timestamp) (key : String × String) :
    Op → Option ToolCallRow → Prop where
  | kept (op : Op) : ToolCallChange s now key op (s.toolCalls.get? key)
  | recorded {taskId : String} {call : ToolCall} {result : ToolResult} {guard : Option LeaseGuard}
      (hguards : s.GuardsLegacyWrite now taskId guard) (hkey : key = (taskId, call.id))
      (hnew : s.toolCalls.get? key = none) :
      ToolCallChange s now key (.recordToolCall taskId call result guard)
        (some { taskId, call, result, completedAt := now })
  | committed {taskId : String} {call : ToolCall} {result : ToolResult} {version : Option Nat}
      {guard : Option LeaseGuard} (hkey : key = (taskId, call.id))
      (hnew : s.toolCalls.get? key = none) :
      ToolCallChange s now key (.commitToolResult taskId call result version guard)
        (some { taskId, call, result, completedAt := now })
  | observed {effect : Effect} {version : Nat} {resultRef observationRef : Option String}
      {guard : LeaseGuard} {call : ToolCall} {result : ToolResult} {execution : Execution}
      {current : Effect} {task : Task}
      (hcommits : s.Commits now effect version guard execution current task)
      (hcall : call.id = current.providerCallId) (hkey : key = (effect.taskId, call.id))
      (hnew : s.toolCalls.get? key = none) :
      ToolCallChange s now key
        (.commitEffect effect version resultRef observationRef guard (some (call, result)))
        (some { taskId := effect.taskId, call, result, completedAt := now })
  | settled {effectId : String} {status : EffectStatus} {version : Nat} {call : ToolCall}
      {result : ToolResult} {guard : LeaseGuard} {execution : Execution} {current : Effect}
      (hsettles : s.Settles now effectId status version call result guard execution current)
      (hkey : key = (current.taskId, call.id)) (hnew : s.toolCalls.get? key = none) :
      ToolCallChange s now key (.settleUnexecutedEffect effectId status version call result guard)
        (some { taskId := current.taskId, call, result, completedAt := now })
  | confirmed {disposition : RecoveryDisposition} {taskId : String} {version : Nat} {task : Task}
      {effect : Effect} {target : TaskRuntimeCondition} {call : ToolCall} {result : ToolResult}
      (hresolves : s.Resolves disposition taskId version
        { confirmedCall := some call, confirmedResult := some result } task effect target)
      (hcall : call.id = effect.providerCallId) (hkey : key = (effect.taskId, call.id))
      (hnew : s.toolCalls.get? key = none) :
      ToolCallChange s now key
        (.resolveRecovery disposition taskId version
          { confirmedCall := some call, confirmedResult := some result })
        (some { taskId := effect.taskId, call, result, completedAt := now })
  | retried {disposition : RecoveryDisposition} {taskId : String} {version : Nat} {task : Task}
      {effect : Effect} {target : TaskRuntimeCondition} {retry : Effect} {approval : Approval}
      (hresolves : s.Resolves disposition taskId version
        { retryEffect := some retry, retryApproval := some approval } task effect target)
      (hkey : key = (effect.taskId, effect.providerCallId)) (hnew : s.toolCalls.get? key = none) :
      ToolCallChange s now key
        (.resolveRecovery disposition taskId version
          { retryEffect := some retry, retryApproval := some approval })
        (some (unknownRow now effect disposition.id retry.id))

/-- A row that is inserted where none is. -/
theorem ToolCallChange.of_insert {key : String × String} {row : ToolCallRow}
    (hop : key = (row.taskId, row.call.id) → s.toolCalls.get? key = none →
      ToolCallChange s now key op (some row)) :
    ToolCallChange s now key op ((s.addToolCall row).toolCalls.get? key) := by
  by_cases hkey : key = (row.taskId, row.call.id)
  · cases hfree : s.toolCalls.get? (row.taskId, row.call.id) with
    | none =>
        have hget : (s.addToolCall row).toolCalls.get? key = some row := by
          rw [hkey]
          exact Table.get?_insert_self hfree
        rw [hget]
        exact hop hkey (hkey ▸ hfree)
    | some existing =>
        have hget : (s.addToolCall row).toolCalls.get? key = s.toolCalls.get? key := by
          rw [hkey, hfree]
          exact Table.get?_insert_mono s.toolCalls row hfree
        rw [hget]
        exact .kept op
  · have hget : (s.addToolCall row).toolCalls.get? key = s.toolCalls.get? key :=
      Table.get?_insert_of_ne s.toolCalls hkey
    rw [hget]
    exact .kept op

theorem toolCallChange (hreturns : (exec now op).Returns s u s') (key : String × String) :
    ToolCallChange s now key op (s'.toolCalls.get? key) := by
  cases op with
  | recordToolCall taskId call result guard =>
      obtain ⟨hguards, rfl⟩ := recordToolCall_returns hreturns
      exact .of_insert (.recorded hguards)
  | commitToolResult taskId call result version guard =>
      obtain ⟨_, hreturns⟩ := discard_returns.mp hreturns
      obtain ⟨_, -, -, rfl | ⟨-, _, rfl⟩⟩ := commitToolResult_returns hreturns
      · exact .kept _
      · exact .of_insert .committed
  | commitEffect effect version resultRef observationRef guard observation =>
      obtain ⟨_, hreturns⟩ := discard_returns.mp hreturns
      obtain ⟨_, current, task, _, hcommits, hobserves, -, rfl⟩ := commitEffect_returns hreturns
      cases observation with
      | none => exact .kept _
      | some observation =>
          obtain ⟨call, result⟩ := observation
          exact .of_insert (.observed hcommits (hobserves call result rfl).1.1)
  | settleUnexecutedEffect effectId status version call result guard =>
      obtain ⟨_, hreturns⟩ := discard_returns.mp hreturns
      obtain ⟨_, current, hsettles, rfl | ⟨task, _, -, -, rfl⟩⟩ :=
        settleUnexecutedEffect_returns hreturns
      · exact .kept _
      · exact .of_insert (.settled hsettles)
  | resolveRecovery disposition taskId version resolution =>
      obtain ⟨_, hreturns⟩ := discard_returns.mp hreturns
      obtain ⟨rfl, -⟩ | ⟨task, effect, target, hresolves, -, rfl⟩ := resolveRecovery_returns hreturns
      · exact .kept _
      · cases hresolves.valid with
        | confirmResult call result hkind hconfirms =>
            exact .of_insert (.confirmed hresolves hconfirms.1)
        | createRetry retry approval hkind hactive hretries hrequired happroves =>
            exact .of_insert (.retried hresolves)
        | abandon hkind hretry => exact .kept _
  | _ =>
      have htable : s'.toolCalls = s.toolCalls := exec_agrees hreturns .toolCalls rfl
      rw [htable]
      exact .kept _

/-- A result that is stored stays as it is. -/
theorem toolCall_persists {key : String × String} {row : ToolCallRow}
    (hreturns : (exec now op).Returns s u s') (hrow : s.toolCalls.get? key = some row) :
    s'.toolCalls.get? key = some row := by
  have hchange := toolCallChange hreturns key
  generalize s'.toolCalls.get? key = after at hchange ⊢
  cases hchange with
  | kept => exact hrow
  | recorded hguards hkey hnew | committed hkey hnew | observed hcommits hcall hkey hnew
  | settled hsettles hkey hnew | confirmed hresolves hcall hkey hnew
  | retried hresolves hkey hnew => cases hnew.symm.trans hrow

/-! ### Steps -/

/-- What an operation leaves in a step of a task. -/
inductive StepChange (s : Store) (now : Timestamp) (key : String × Nat) :
    Op → Option AgentStep → Prop where
  | kept (op : Op) : StepChange s now key op (s.agentSteps.get? key)
  | recorded {step : AgentStep} {guard : Option LeaseGuard} (hkey : key = (step.taskId, step.index)) :
      StepChange s now key (.recordStep step guard) (some step)
  | batched {step : AgentStep} {effects : List Effect} {version : Nat} {guard : Option LeaseGuard}
      (hcarries : step.Carries effects) (hkey : key = (step.taskId, step.index)) :
      StepChange s now key (.prepareEffectBatch step effects version guard) (some step)

theorem stepChange (hreturns : (exec now op).Returns s u s') (key : String × Nat) :
    StepChange s now key op (s'.agentSteps.get? key) := by
  have hupsert : ∀ step : AgentStep,
      (key = (step.taskId, step.index) → StepChange s now key op (some step)) →
        StepChange s now key op ((s.upsertAgentStep step).agentSteps.get? key) := by
    intro step hop
    rw [Store.upsertAgentStep_agentSteps, Table.get?_upsert]
    split
    · rename_i heq
      exact hop heq
    · exact .kept op
  cases op with
  | recordStep step guard =>
      obtain ⟨-, rfl⟩ := recordStep_returns hreturns
      exact hupsert step .recorded
  | prepareEffectBatch step effects version guard =>
      obtain ⟨_, hreturns⟩ := discard_returns.mp hreturns
      obtain ⟨_, _, -, -, -, hcarries, -, -, hbranch⟩ := prepareEffectBatch_returns hreturns
      have htable : s'.agentSteps = (s.upsertAgentStep step).agentSteps := by
        rcases hbranch with ⟨-, rfl⟩ | ⟨-, rfl⟩
        · rfl
        · rfl
      rw [htable]
      exact hupsert step (.batched hcarries)
  | _ =>
      have htable : s'.agentSteps = s.agentSteps := exec_agrees hreturns .agentSteps rfl
      rw [htable]
      exact .kept _

end PatchLoop
