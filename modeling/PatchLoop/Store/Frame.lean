import PatchLoop.Store.SessionSpec
import PatchLoop.Store.LeaseSpec
import PatchLoop.Store.RecoverySpec

/-!
# What each operation leaves alone

For each operation the tables it may write. Every other table is the same after the operation.
-/

namespace PatchLoop

open Transaction

inductive TableName where
  | sessions | tasks | turns | executions | workspaceLeases | managedCommands | effects | approvals
  | controlRequests | recoveryDispositions | sessionEvents | agentSteps | toolCalls | checkpoints
deriving DecidableEq

/-- The two databases have the same rows in a table. -/
def Store.Agrees (s s' : Store) : TableName → Prop
  | .sessions => s'.sessions = s.sessions
  | .tasks => s'.tasks = s.tasks
  | .turns => s'.turns = s.turns
  | .executions => s'.executions = s.executions
  | .workspaceLeases => s'.workspaceLeases = s.workspaceLeases
  | .managedCommands => s'.managedCommands = s.managedCommands
  | .effects => s'.effects = s.effects
  | .approvals => s'.approvals = s.approvals
  | .controlRequests => s'.controlRequests = s.controlRequests
  | .recoveryDispositions => s'.recoveryDispositions = s.recoveryDispositions
  | .sessionEvents => s'.sessionEvents = s.sessionEvents
  | .agentSteps => s'.agentSteps = s.agentSteps
  | .toolCalls => s'.toolCalls = s.toolCalls
  | .checkpoints => s'.checkpoints = s.checkpoints

/-- The tables that an operation may write. -/
def Op.writes : Op → List TableName
  | .createSession .. | .closeSession .. | .appendEvent .. => [.sessions, .sessionEvents]
  | .appendTurn .. => [.sessions, .sessionEvents, .turns]
  | .startTask .. | .createTask .. | .updateTask .. => [.sessions, .sessionEvents, .tasks]
  | .prepareTaskExecution .. => [.sessions, .tasks]
  | .cancelTask .. => [.sessions, .tasks, .controlRequests]
  | .requestControl .. | .settleControl .. => [.sessions, .sessionEvents, .controlRequests]
  | .commitCheckpoint .. => [.sessions, .sessionEvents, .checkpoints]
  | .saveCheckpoint .. => [.checkpoints]
  | .recordStep .. => [.agentSteps]
  | .recordToolCall .. => [.toolCalls]
  | .commitToolResult .. => [.sessions, .sessionEvents, .toolCalls]
  | .claimExecution .. | .releaseExecution .. | .markCommandRecoveryRequired .. =>
      [.sessions, .sessionEvents, .executions, .tasks]
  | .renewExecution .. => [.executions]
  | .acquireWorkspaceWriter .. | .releaseWorkspaceWriter .. =>
      [.sessions, .sessionEvents, .workspaceLeases]
  | .renewWorkspaceWriter .. => [.workspaceLeases]
  | .registerManagedCommand .. | .finishManagedCommand .. => [.managedCommands]
  | .prepareEffects .. => [.sessions, .sessionEvents, .effects]
  | .prepareEffectBatch .. => [.sessions, .sessionEvents, .effects, .agentSteps]
  | .decideApproval .. => [.sessions, .sessionEvents, .approvals]
  | .requestEffectApproval .. =>
      [.sessions, .sessionEvents, .effects, .approvals, .executions, .tasks]
  | .resolveEffectApproval .. => [.sessions, .sessionEvents, .effects, .approvals, .tasks]
  | .claimEffect .. => [.sessions, .sessionEvents, .effects, .approvals]
  | .commitEffect .. => [.sessions, .sessionEvents, .effects, .toolCalls, .checkpoints]
  | .markEffectUnknown .. => [.sessions, .sessionEvents, .effects, .tasks, .checkpoints]
  | .settleUnexecutedEffect .. =>
      [.sessions, .sessionEvents, .effects, .approvals, .toolCalls, .checkpoints]
  | .resolveRecovery .. =>
      [.sessions, .sessionEvents, .effects, .approvals, .toolCalls, .checkpoints, .tasks,
        .recoveryDispositions]

variable [Sha256] {s s' : Store} {now : Timestamp} {op : Op} {u : Unit}

omit [Sha256] in
@[simp] theorem discard_returns {α : Type} {action : Action α} :
    (discard action).Returns s u s' ↔ ∃ a, action.Returns s a s' := by
  simp [discard]

omit [Sha256] in
theorem agrees_self (table : TableName) : s.Agrees s table := by
  cases table <;> rfl

theorem prepareTaskExecution_agrees {task : Task}
    (hreturns : (exec now (.prepareTaskExecution task)).Returns s u s') (table : TableName)
    (hkept : (Op.writes (.prepareTaskExecution task)).contains table = false) : s.Agrees s' table := by
  obtain ⟨_, hreturns⟩ := discard_returns.mp hreturns
  obtain ⟨current, -, -, -, hstate⟩ := prepareTaskExecution_returns hreturns
  obtain rfl | ⟨-, _, -, -, ⟨-, rfl⟩ | ⟨-, rfl⟩⟩ := hstate
  · unfold Store.taskEnsured
    split <;> cases table <;> first | rfl | cases hkept
  · unfold Store.taskEnsured Store.runtimeSessionEnsured
    split <;> split <;> cases table <;> first | rfl | cases hkept
  · unfold Store.taskEnsured Store.runtimeSessionEnsured
    split <;> split <;> cases table <;> first | rfl | cases hkept

theorem cancelTask_agrees {taskId controlId : String}
    (hreturns : (exec now (.cancelTask taskId controlId)).Returns s u s') (table : TableName)
    (hkept : (Op.writes (.cancelTask taskId controlId)).contains table = false) : s.Agrees s' table := by
  obtain ⟨_, hreturns⟩ := discard_returns.mp hreturns
  obtain ⟨_, -, rfl | ⟨_, rfl⟩ | ⟨-, _, ⟨-, rfl⟩ | ⟨_, -, -, rfl⟩⟩⟩ :=
    cancelTask_returns hreturns
  · exact agrees_self table
  · cases table <;> first | rfl | cases hkept
  · cases table <;> first | rfl | cases hkept
  · cases table <;> first | rfl | cases hkept

theorem resolveRecovery_agrees {disposition : RecoveryDisposition} {taskId : String} {version : Nat}
    {resolution : Resolution}
    (hreturns : (exec now (.resolveRecovery disposition taskId version resolution)).Returns s u s') (table : TableName)
    (hkept : (Op.writes (.resolveRecovery disposition taskId version resolution)).contains table = false) : s.Agrees s' table := by
  obtain ⟨_, hreturns⟩ := discard_returns.mp hreturns
  obtain ⟨rfl, -⟩ | ⟨_, _, _, hresolves, -, rfl⟩ := resolveRecovery_returns hreturns
  · exact agrees_self table
  · cases hresolves.valid <;> cases table <;> first | rfl | cases hkept

theorem exec_agrees (hreturns : (exec now op).Returns s u s') (table : TableName)
    (hkept : op.writes.contains table = false) : s.Agrees s' table := by
  cases op with
  | createSession session =>
      obtain ⟨_, hreturns⟩ := discard_returns.mp hreturns
      obtain ⟨-, -, _, rfl⟩ := createSession_returns hreturns
      cases table <;> first | rfl | cases hkept
  | closeSession sessionId version =>
      obtain ⟨_, hreturns⟩ := discard_returns.mp hreturns
      obtain ⟨_, -, -, -, _, rfl⟩ := closeSession_returns hreturns
      cases table <;> first | rfl | cases hkept
  | appendTurn turn version =>
      obtain ⟨_, hreturns⟩ := discard_returns.mp hreturns
      obtain ⟨-, -, rfl⟩ | ⟨_, -, -, -, -, -, -, _, rfl⟩ := appendTurn_returns hreturns
      · exact agrees_self table
      · cases table <;> first | rfl | cases hkept
  | appendEvent event sequence =>
      obtain ⟨_, hreturns⟩ := discard_returns.mp hreturns
      obtain rfl | ⟨_, -, -, rfl⟩ := appendEvent_returns hreturns
      · exact agrees_self table
      · cases table <;> first | rfl | cases hkept
  | startTask sessionId task version =>
      obtain ⟨_, hreturns⟩ := discard_returns.mp hreturns
      obtain ⟨_, -, -, -, -, -, -, -, _, rfl⟩ := startTask_returns hreturns
      cases table <;> first | rfl | cases hkept
  | prepareTaskExecution task => exact prepareTaskExecution_agrees hreturns table hkept
  | createTask task =>
      obtain ⟨_, hreturns⟩ := discard_returns.mp hreturns
      obtain ⟨-, -, -, ⟨-, rfl⟩ | ⟨_, -, _, rfl⟩⟩ := createTask_returns hreturns
      · cases table <;> first | rfl | cases hkept
      · cases table <;> first | rfl | cases hkept
  | updateTask task version guard =>
      obtain ⟨_, hreturns⟩ := discard_returns.mp hreturns
      obtain ⟨_, -, ⟨-, rfl⟩ | ⟨_, _, -, -, -, _, rfl⟩⟩ := updateTask_returns hreturns
      · cases table <;> first | rfl | cases hkept
      · cases table <;> first | rfl | cases hkept
  | cancelTask taskId controlId => exact cancelTask_agrees hreturns table hkept
  | requestControl request version =>
      obtain ⟨_, hreturns⟩ := discard_returns.mp hreturns
      obtain ⟨_, -, -, _, rfl⟩ := requestControl_returns hreturns
      cases table <;> first | rfl | cases hkept
  | settleControl requestId status version cleanupInfo =>
      obtain ⟨_, hreturns⟩ := discard_returns.mp hreturns
      obtain ⟨_, _, -, -, -, -, _, rfl⟩ := settleControl_returns hreturns
      cases table <;> first | rfl | cases hkept
  | commitCheckpoint checkpoint version guard =>
      obtain ⟨_, hreturns⟩ := discard_returns.mp hreturns
      obtain ⟨_, _, _, -, -, -, -, -, -, _, rfl⟩ := commitCheckpoint_returns hreturns
      cases table <;> first | rfl | cases hkept
  | saveCheckpoint checkpoint guard =>
      obtain ⟨-, rfl⟩ := saveCheckpoint_returns hreturns
      cases table <;> first | rfl | cases hkept
  | recordStep agentStep guard =>
      obtain ⟨-, rfl⟩ := recordStep_returns hreturns
      cases table <;> first | rfl | cases hkept
  | recordToolCall taskId call result guard =>
      obtain ⟨-, rfl⟩ := recordToolCall_returns hreturns
      cases table <;> first | rfl | cases hkept
  | commitToolResult taskId call result version guard =>
      obtain ⟨_, hreturns⟩ := discard_returns.mp hreturns
      obtain ⟨_, -, -, rfl | ⟨-, _, rfl⟩⟩ := commitToolResult_returns hreturns
      · exact agrees_self table
      · cases table <;> first | rfl | cases hkept
  | claimExecution execution version =>
      obtain ⟨_, hreturns⟩ := discard_returns.mp hreturns
      obtain ⟨_, _, -, -, _, rfl⟩ := claimExecution_returns hreturns
      cases table <;> first | rfl | cases hkept
  | renewExecution guard leaseExpiresAt =>
      obtain ⟨_, hreturns⟩ := discard_returns.mp hreturns
      obtain ⟨_, -, -, rfl⟩ := renewExecution_returns hreturns
      cases table <;> first | rfl | cases hkept
  | releaseExecution guard =>
      obtain ⟨_, _, -, -, _, rfl⟩ := releaseExecution_returns hreturns
      cases table <;> first | rfl | cases hkept
  | acquireWorkspaceWriter lease guard =>
      obtain ⟨_, hreturns⟩ := discard_returns.mp hreturns
      obtain ⟨_, _, -, -, -, _, rfl⟩ := acquireWorkspaceWriter_returns hreturns
      cases table <;> first | rfl | cases hkept
  | renewWorkspaceWriter guard leaseExpiresAt =>
      obtain ⟨_, hreturns⟩ := discard_returns.mp hreturns
      obtain ⟨_, -, -, rfl⟩ := renewWorkspaceWriter_returns hreturns
      cases table <;> first | rfl | cases hkept
  | releaseWorkspaceWriter guard =>
      obtain ⟨_, _, -, -, _, rfl⟩ := releaseWorkspaceWriter_returns hreturns
      cases table <;> first | rfl | cases hkept
  | registerManagedCommand identity guard =>
      obtain ⟨_, hreturns⟩ := discard_returns.mp hreturns
      obtain ⟨_, -, -, -, rfl⟩ := registerManagedCommand_returns hreturns
      cases table <;> first | rfl | cases hkept
  | finishManagedCommand identity =>
      obtain ⟨_, hreturns⟩ := discard_returns.mp hreturns
      obtain ⟨-, -, rfl⟩ | ⟨_, -, -, -, -, -, rfl⟩ := finishManagedCommand_returns hreturns
      · exact agrees_self table
      · cases table <;> first | rfl | cases hkept
  | markCommandRecoveryRequired identity cleanupInfo =>
      obtain ⟨_, hreturns⟩ := discard_returns.mp hreturns
      obtain ⟨_, _, -, -, -, _, rfl⟩ := markCommandRecoveryRequired_returns hreturns
      cases table <;> first | rfl | cases hkept
  | prepareEffects effects version guard =>
      obtain ⟨_, hreturns⟩ := discard_returns.mp hreturns
      obtain ⟨-, rfl⟩ | ⟨_, _, -, -, rfl | ⟨-, -, -, rfl⟩⟩ := prepareEffects_returns hreturns
      · exact agrees_self table
      · exact agrees_self table
      · cases table <;> first | rfl | cases hkept
  | prepareEffectBatch agentStep effects version guard =>
      obtain ⟨_, hreturns⟩ := discard_returns.mp hreturns
      obtain ⟨_, _, -, -, -, -, -, -, ⟨-, rfl⟩ | ⟨-, rfl⟩⟩ := prepareEffectBatch_returns hreturns
      · cases table <;> first | rfl | cases hkept
      · cases table <;> first | rfl | cases hkept
  | decideApproval approval version =>
      obtain ⟨_, hreturns⟩ := discard_returns.mp hreturns
      obtain rfl | ⟨-, -, -, -, rfl⟩ | ⟨_, -, -, -, -, -, -, rfl⟩ := decideApproval_returns hreturns
      · exact agrees_self table
      · cases table <;> first | rfl | cases hkept
      · cases table <;> first | rfl | cases hkept
  | requestEffectApproval effectId approval version guard =>
      obtain ⟨_, hreturns⟩ := discard_returns.mp hreturns
      obtain ⟨_, _, _, -, ⟨-, rfl⟩ | ⟨-, -, -, -, -, -, rfl⟩⟩ := requestEffectApproval_returns hreturns
      · cases table <;> first | rfl | cases hkept
      · cases table <;> first | rfl | cases hkept
  | resolveEffectApproval approvalId approved source version workspaceRef policyVersion
      configVersion =>
      obtain ⟨_, hreturns⟩ := discard_returns.mp hreturns
      obtain rfl | ⟨_, _, _, _, -, -, rfl⟩ := resolveEffectApproval_returns hreturns
      · exact agrees_self table
      · cases table <;> first | rfl | cases hkept
  | claimEffect effectId version guard conditions =>
      obtain ⟨_, hreturns⟩ := discard_returns.mp hreturns
      obtain ⟨_, _, _, _, consumed, -, -, -, -, rfl⟩ := claimEffect_returns hreturns
      cases consumed with
      | none => cases table <;> first | rfl | cases hkept
      | some approval => cases table <;> first | rfl | cases hkept
  | commitEffect effect version resultRef observationRef guard observation =>
      obtain ⟨_, hreturns⟩ := discard_returns.mp hreturns
      obtain ⟨_, _, _, _, -, -, -, rfl⟩ := commitEffect_returns hreturns
      cases table <;> first | rfl | cases hkept
  | markEffectUnknown effectId version evidence guard =>
      obtain ⟨_, hreturns⟩ := discard_returns.mp hreturns
      obtain ⟨_, _, _, _, -, rfl⟩ := markEffectUnknown_returns hreturns
      cases table <;> first | rfl | cases hkept
  | settleUnexecutedEffect effectId status version call result guard =>
      obtain ⟨_, hreturns⟩ := discard_returns.mp hreturns
      obtain ⟨_, _, -, rfl | ⟨_, _, -, -, rfl⟩⟩ := settleUnexecutedEffect_returns hreturns
      · exact agrees_self table
      · cases table <;> first | rfl | cases hkept
  | resolveRecovery disposition taskId version resolution =>
      exact resolveRecovery_agrees hreturns table hkept

/-- A step changes nothing, or its operation returned. -/
theorem step_cases (s : Store) (timed : Timed) :
    step s timed = s ∨ (exec timed.now timed.op).Returns s () (step s timed) := by
  obtain hsame | ⟨u, hreturns⟩ := commit_cases (exec timed.now timed.op) s
  · exact Or.inl hsame
  · exact Or.inr hreturns

theorem accepted_iff {timed : Timed} :
    Accepted s timed ↔ (exec timed.now timed.op).Returns s () (step s timed) := by
  rw [Accepted, isOk_iff]
  exact ⟨fun ⟨_, hreturns⟩ => hreturns, fun hreturns => ⟨(), hreturns⟩⟩

/-- A table that an operation does not write is the same after a step with it. -/
theorem step_agrees {timed : Timed} (table : TableName)
    (hkept : timed.op.writes.contains table = false) : s.Agrees (step s timed) table := by
  obtain hsame | hreturns := step_cases s timed
  · rw [hsame]
    exact agrees_self table
  · exact exec_agrees hreturns table hkept

end PatchLoop
