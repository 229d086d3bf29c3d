import PatchLoop.Runtime.CallRuns

/-!
# Control requests after a restart

A process that resumes a task looks for a pending request before it has restored the prompt cache, and
the report that a pause or a cancellation needs cannot be built without it. The request is acknowledged at
most: no process that resumes a task settles a request that it finds pending.
-/

namespace PatchLoop

open Transaction
open Process (Assertion Ensures Keeps keeps_bind keeps_pure keeps_throw keeps_read)

/-- A control request of the task is pending. -/
def Store.AsksControl (s : Store) (taskId requestId : String) : Prop :=
  ∃ request, s.controlRequests.get? requestId = some request ∧ request.taskId = taskId ∧ request.status.Pending

/-- The operation does not settle the request. -/
def Op.SparesControl (requestId : String) : Op → Prop
  | .settleControl id status _ _ => id = requestId → status.Pending
  | _ => True

/-- The call settles no such request, and does not delete the task with its requests. -/
def Call.SparesControl (taskId requestId : String) : Call → Prop
  | .op timed => timed.op.SparesControl requestId
  | .deleteTask id => id ≠ taskId
  | .saveTask .. => True

/-! ### The store -/

section Stored

variable [Sha256] {s s' : Store} {taskId requestId : String}

omit [Sha256] in
theorem Store.AsksControl.of_rows (hasks : s.AsksControl taskId requestId)
    (hrows : ∀ request, s.controlRequests.get? requestId = some request →
      s'.controlRequests.get? requestId = some request) : s'.AsksControl taskId requestId := by
  obtain ⟨request, hrow, hpending⟩ := hasks
  exact ⟨request, hrows request hrow, hpending⟩

theorem asksControl_exec {now : Timestamp} {op : Op} (hspares : op.SparesControl requestId)
    (hreturns : (exec now op).Returns s () s') (hasks : s.AsksControl taskId requestId) :
    s'.AsksControl taskId requestId := by
  by_cases hkept : op.writes.contains .controlRequests = false
  · have hagrees : s'.controlRequests = s.controlRequests := exec_agrees hreturns .controlRequests hkept
    exact hasks.of_rows fun request hrow => hagrees ▸ hrow
  · cases op with
    | cancelTask id controlId =>
        obtain ⟨_, hreturns⟩ := discard_returns.mp hreturns
        obtain ⟨task, -, rfl | ⟨added, rfl⟩ | ⟨-, added, ⟨-, rfl⟩ | ⟨session, -, -, rfl⟩⟩⟩ :=
          cancelTask_returns hreturns
        · exact hasks
        · exact hasks.of_rows fun request hrow => Table.get?_insert_mono _ added hrow
        · exact hasks.of_rows fun request hrow => Table.get?_insert_mono _ added hrow
        · exact hasks.of_rows fun request hrow => Table.get?_insert_mono _ added hrow
    | requestControl added version =>
        obtain ⟨_, hreturns⟩ := discard_returns.mp hreturns
        obtain ⟨_, -, -, _, rfl⟩ := requestControl_returns hreturns
        exact hasks.of_rows fun request hrow => Table.get?_insert_mono _ added hrow
    | settleControl id status version cleanupInfo =>
        obtain ⟨_, hreturns⟩ := discard_returns.mp hreturns
        obtain ⟨current, _, hcurrent, -, -, -, _, rfl⟩ := settleControl_returns hreturns
        obtain ⟨request, hrow, htask, hpending⟩ := hasks
        have hkey : (current.moved now status cleanupInfo).id = id := Table.key_of_get? hcurrent
        have hget := Table.get?_set_row hcurrent requestId hkey
        by_cases hid : requestId = id
        · rw [if_pos hid] at hget
          subst hid
          obtain rfl : current = request := Option.some.inj (hcurrent.symm.trans hrow)
          exact ⟨_, hget, htask, hspares rfl⟩
        · rw [if_neg hid] at hget
          exact ⟨request, hget.trans hrow, htask, hpending⟩
    | _ => exact absurd rfl hkept

theorem asksControl_callStep {call : Call} (hspares : call.SparesControl taskId requestId)
    (hasks : s.AsksControl taskId requestId) : (callStep s call).AsksControl taskId requestId := by
  obtain hsame | hreturns := callStep_cases s call
  · rw [hsame]
    exact hasks
  · cases call with
    | op timed => exact asksControl_exec hspares (callOp_returns.mp hreturns).1 hasks
    | saveTask now task guard =>
        obtain ⟨-, -, heq⟩ := saveTask_returns.mp hreturns
        rw [heq]
        exact hasks
    | deleteTask id =>
        obtain ⟨-, heq⟩ := deleteTask_returns hreturns
        rw [heq]
        obtain ⟨request, hrow, htask, hpending⟩ := hasks
        refine ⟨request, Table.get?_filter.mpr ⟨hrow, ?_⟩, htask, hpending⟩
        rw [decide_eq_true_eq, htask]
        exact Ne.symm hspares

end Stored

/-! ### The process -/

/-- The prompt cache is not there, and a request of the task is pending. -/
def Awaiting (host : Host) (requestId : String) : Assertion Mark System := fun sys _ =>
  sys.runtime.promptCache = none ∧ sys.store.AsksControl host.taskId requestId

section Fields

variable {host : Host} {requestId : String}

theorem awaiting_modifyRuntime {change : Runtime → Runtime}
    (hcache : ∀ runtime, (change runtime).promptCache = runtime.promptCache) :
    Keeps (Awaiting host requestId) (modifyRuntime change) :=
  Process.ensures_update fun sys _ h => ⟨(hcache sys.runtime).trans h.1, h.2⟩

theorem awaiting_setTask {task : Task} : Keeps (Awaiting host requestId) (setTask task) :=
  awaiting_modifyRuntime fun _ => rfl

theorem awaiting_modifyGateway {change : ToolGateway.State → ToolGateway.State} :
    Keeps (Awaiting host requestId) (modifyGateway change) :=
  awaiting_modifyRuntime fun _ => rfl

/-- Nothing is left to verify after what does not return. -/
theorem ensures_bind_fails {α β : Type} {P S : Assertion Mark System} {Q : β → Assertion Mark System}
    {E : Failure → Assertion Mark System} {p : RuntimeProcess α} {next : α → RuntimeProcess β}
    (hp : Ensures P p (fun _ _ _ => False) E S) : Ensures P (p >>= next) Q E S :=
  Process.ensures_bind hp fun _ _ _ h => h.elim

/-- Without the prompt cache there is no report. -/
theorem buildReport_fails {Q : Unit → Assertion Mark System} {S : Assertion Mark System} :
    Ensures (Awaiting host requestId) buildReport Q (fun _ => Awaiting host requestId) S := by
  refine Process.ensures_bind (Q := fun runtime sys past => Awaiting host requestId sys past ∧ runtime.promptCache = none)
    (Process.ensures_read fun _ _ h => ⟨h, h.1⟩) fun runtime => ?_
  split
  · exact Process.ensures_throw fun _ _ h => h.1
  · rename_i hcache
    exact Ensures.of_fact (fun _ _ h => h.2) fun hnone => absurd hnone hcache

end Fields

section Resumed

variable [Sha256] {host : Host} {requestId : String} {α : Type}
  (hothers : ∀ n, ∀ call ∈ host.others n, call.SparesControl host.taskId requestId)

include hothers

theorem awaiting_stable : Process.Stable host.among (Awaiting host requestId) :=
  fun n call hcall _ _ h => ⟨h.1, asksControl_callStep (hothers n call hcall) h.2⟩

theorem awaiting_ask {answer : Nat → Except Failure α} : Keeps (Awaiting host requestId) (ask host answer) :=
  ensures_ask (awaiting_stable hothers) (fun _ _ h => h) (fun _ _ _ _ _ h => h) fun _ _ _ _ _ h => h

theorem awaiting_reads {action : Action α} (hreads : ∀ s a s', action.Returns s a s' → s' = s) :
    Keeps (Awaiting host requestId) (runtimeCall host fun _ => action) := by
  refine ensures_runtimeCall (awaiting_stable hothers) (fun _ _ h => h) ?_ fun _ _ _ h => h
  intro now sys past a store h hreturns
  rw [hreads _ _ _ hreturns]
  exact h

theorem awaiting_query {read : Store → α} :
    Keeps (Awaiting host requestId) (runtimeCall host fun _ => query read) :=
  awaiting_reads hothers fun _ _ _ hreturns => (query_returns.mp hreturns).2

theorem awaiting_call {action : Timestamp → Action α} (op : Timestamp → Op)
    (hop : ∀ now, exec now (op now) = discard (action now)) (hspares : ∀ now, (op now).SparesControl requestId) :
    Keeps (Awaiting host requestId) (runtimeCall host action) := by
  refine ensures_runtimeCall (awaiting_stable hothers) (fun _ _ h => h) ?_ fun _ _ _ h => h
  intro now sys past a store h hreturns
  have hexec : (exec now (op now)).Returns sys.store () store := by
    rw [hop]
    exact discard_returns.mpr ⟨a, hreturns⟩
  exact ⟨h.1, asksControl_exec (hspares now) hexec h.2⟩

theorem awaiting_storing {effectId : Option String} {callId : String} {result : ToolResult}
    {action : Timestamp → Action α} (op : Timestamp → Op) (hop : ∀ now, exec now (op now) = discard (action now))
    (hspares : ∀ now, (op now).SparesControl requestId) :
    Keeps (Awaiting host requestId) (storingCall host effectId callId result action) := by
  refine ensures_markedCall (awaiting_stable hothers) (fun _ _ h => h) ?_ fun _ _ _ h => h
  intro now sys past a store h hreturns
  have hexec : (exec now (op now)).Returns sys.store () store := by
    rw [hop]
    exact discard_returns.mpr ⟨a, hreturns⟩
  exact ⟨h.1, asksControl_exec (hspares now) hexec h.2⟩

theorem awaiting_observeResult {observe : String → ToolGateway.State → ToolResult × ToolGateway.State} :
    Keeps (Awaiting host requestId) (observeResult host observe) := by
  refine Process.ensures_act (awaiting_stable hothers) (fun _ _ h => h) ?_ ?_
  · intro n sys past a sys' h hok
    cases hok
    exact h
  · intro n sys past e h herror
    cases herror

/-! ### Applying a request -/

theorem awaiting_acknowledgeControl {control : ControlRequest} :
    Keeps (Awaiting host requestId) (acknowledgeControl host control) := by
  unfold acknowledgeControl
  split
  · exact awaiting_call hothers (fun _ => .settleControl _ _ _ _) (fun _ => rfl) fun _ _ => by decide
  · exact keeps_pure

theorem awaiting_getPendingControl :
    Ensures (Awaiting host requestId) (runtimeCall host fun _ => getPendingControl host.taskId)
      (fun pending sys past => Awaiting host requestId sys past ∧ pending ≠ none)
      (fun _ => Awaiting host requestId) (Awaiting host requestId) := by
  refine ensures_runtimeCall (awaiting_stable hothers) (fun _ _ h => h) ?_ fun _ _ _ h => h
  intro now sys past pending store h hreturns
  obtain ⟨rfl, rfl⟩ := query_returns.mp hreturns
  obtain ⟨request, hrow, htask, hpending⟩ := h.2
  refine ⟨h, fun hnone => ?_⟩
  have hmem : request ∈ sys.store.pendingControls host.taskId := by
    rw [Store.pendingControls, List.mem_insertionSort, List.mem_filter, decide_eq_true_eq]
    exact ⟨Table.mem_of_get? hrow, htask, hpending⟩
  rw [List.head?_eq_none_iff.mp hnone] at hmem
  cases hmem

theorem awaiting_requireRecovery {effect : Effect} {evidence : Json} : Keeps (Awaiting host requestId) (do
    let (_, task) ← runtimeCall host fun now =>
      markEffectUnknown now effect.id effect.version evidence host.guard
    setTask task
    return decide (task.runtimeCondition = .recoveryRequired)) :=
  keeps_bind (awaiting_call hothers (fun _ => .markEffectUnknown _ _ _ _) (fun _ => rfl) fun _ => trivial)
    fun _ => keeps_bind awaiting_setTask fun _ => keeps_pure

variable [Redactor]

theorem awaiting_cancelPendingEffects {reason : String} {effects : List Effect} :
    Keeps (Awaiting host requestId) (cancelPendingEffects host reason effects) := by
  induction effects with
  | nil => exact keeps_pure
  | cons effect rest ih =>
      unfold cancelPendingEffects
      dsimp only
      split
      · refine keeps_bind (awaiting_observeResult hothers) fun _ => keeps_bind ?_ fun _ => ih
        exact awaiting_storing hothers (fun _ => .settleUnexecutedEffect ..) (fun _ => rfl) fun _ => trivial
      · exact ih

theorem cancelRunning_fails {control : ControlRequest} :
    Ensures (Awaiting host requestId) (cancelRunning host control) (fun _ _ _ => False)
      (fun _ => Awaiting host requestId) (Awaiting host requestId) :=
  Process.ensures_bind (awaiting_acknowledgeControl hothers) fun _ =>
    Process.ensures_bind (awaiting_ask hothers) fun _ => Process.ensures_bind (awaiting_query hothers) fun _ =>
      Process.ensures_bind (awaiting_cancelPendingEffects hothers) fun _ => ensures_bind_fails buildReport_fails

theorem pauseRunning_fails {control : ControlRequest} :
    Ensures (Awaiting host requestId) (pauseRunning host control) (fun _ _ _ => False)
      (fun _ => Awaiting host requestId) (Awaiting host requestId) :=
  Process.ensures_bind (awaiting_acknowledgeControl hothers) fun _ => ensures_bind_fails buildReport_fails

/-- A pending request is taken up, and its application fails. -/
theorem applyPendingControl_fails :
    Ensures (Awaiting host requestId) (applyPendingControl host) (fun _ _ _ => False)
      (fun _ => Awaiting host requestId) (Awaiting host requestId) := by
  refine Process.ensures_bind (awaiting_getPendingControl hothers) fun pending => ?_
  refine Ensures.of_fact (fun _ _ h => h.2) fun hsome => ?_
  cases pending with
  | none => exact absurd rfl hsome
  | some control =>
      refine Ensures.before ?_ fun _ _ h => h.1
      dsimp only
      split
      · exact ensures_bind_fails (cancelRunning_fails hothers)
      · exact ensures_bind_fails (pauseRunning_fails hothers)

/-! ### After the restart -/

theorem awaiting_confirmEffect {effect : Effect} {evidence : Json} {result : ToolResult}
    {persisted : Option ToolResult} :
    Keeps (Awaiting host requestId) (confirmEffect host effect evidence result persisted) := by
  have hrest : Keeps (Awaiting host requestId) (do
      let runtime ← getRuntime
      if runtime.gateway.history.all fun item => item.callId ≠ result.callId then appendHistory result) := by
    refine keeps_bind keeps_read fun runtime => ?_
    split
    · exact awaiting_modifyGateway
    · exact keeps_pure
  cases persisted with
  | some found =>
      refine keeps_bind (Process.ensures_note fun _ _ h => h) fun _ => keeps_bind ?_ fun _ => hrest
      exact awaiting_call hothers (fun _ => .commitEffect ..) (fun _ => rfl) fun _ => trivial
  | none =>
      refine keeps_bind ?_ fun _ => hrest
      exact awaiting_storing hothers (fun _ => .commitEffect ..) (fun _ => rfl) fun _ => trivial

theorem awaiting_reconcileEffects {effects : List Effect} :
    Keeps (Awaiting host requestId) (reconcileEffects host effects) := by
  induction effects with
  | nil => exact keeps_pure
  | cons effect rest ih =>
      unfold reconcileEffects
      split
      · refine keeps_bind (awaiting_query hothers) fun disposition => ?_
        split
        · exact ih
        · exact awaiting_requireRecovery hothers
      · split
        · exact ih
        · refine keeps_bind (awaiting_query hothers) fun persisted => keeps_bind keeps_read fun files =>
            keeps_bind orException_keeps fun reconciliation => ?_
          cases reconciliation with
          | confirmedResult evidence result => exact keeps_bind (awaiting_confirmEffect hothers) fun _ => ih
          | recoveryRequired evidence => exact awaiting_requireRecovery hothers

variable [Uuid5]

theorem awaiting_resumeOwned {fuel : Nat} {checkpoint : Checkpoint} :
    Keeps (Awaiting host requestId) (resumeOwned host fuel checkpoint) := by
  refine keeps_bind keeps_read fun runtime => ?_
  split
  · exact keeps_throw
  · refine keeps_bind awaiting_modifyGateway fun _ => keeps_bind (awaiting_query hothers) fun effects =>
      keeps_bind (awaiting_reconcileEffects hothers) fun recovering => ?_
    split
    · exact keeps_pure
    · exact ensures_bind_fails (applyPendingControl_fails hothers)

/-- `AgentRuntime.resume` -/
def resumeRunning (host : Host) (fuel : Nat) (task : Task) (checkpoint : Checkpoint) : RuntimeProcess Unit :=
  withExecutionOwnership host task (resumeOwned host fuel checkpoint)

theorem awaiting_resumeRunning {fuel : Nat} {task : Task} {checkpoint : Checkpoint} :
    Keeps (Awaiting host requestId) (resumeRunning host fuel task checkpoint) := by
  refine keeps_bind ?_ fun prepared => keeps_bind ?_ fun _ => keeps_bind awaiting_setTask fun _ =>
    awaiting_resumeOwned hothers
  · exact awaiting_call hothers (fun _ => .prepareTaskExecution _) (fun _ => rfl) fun _ => trivial
  · exact awaiting_reads hothers fun _ _ _ hreturns => (requireTask_returns.mp hreturns).2

end Resumed

/-! ### The request -/

/-- The task comes back as the request asks for, with the request settled. -/
def ControlApplied (taskId requestId : String) (ran : Ran Mark Failure System Unit) : Prop :=
  ran.ending = .returned () ∧ ∃ request task,
    ran.world.state.store.controlRequests.get? requestId = some request ∧ request.status = .settled
    ∧ ran.world.state.store.LoadsTask taskId task
    ∧ match request.kind with
      | .pause => task.runtimeCondition = .paused
      | .cancel => task.status = .cancelled

section Claims

variable [Sha256] [Uuid5] [Redactor]

/-- A fresh process that resumes a task leaves every request pending that it finds, however it ends. -/
theorem resumed_request_pending {host : Host} {requestId : String} {sys : System} {fuel : Nat} {task : Task}
    {checkpoint : Checkpoint} {ran : Ran Mark Failure System Unit}
    (hothers : ∀ n, ∀ call ∈ host.others n, call.SparesControl host.taskId requestId)
    (hfresh : sys.runtime.promptCache = none) (hasks : sys.store.AsksControl host.taskId requestId)
    (hran : resumeRunning host fuel task checkpoint ⟨sys, 0⟩ = ran) :
    ran.world.state.store.AsksControl host.taskId requestId ∧ ¬ ControlApplied host.taskId requestId ran := by
  have hkeeps : Keeps (Awaiting host requestId) (resumeRunning host fuel task checkpoint) :=
    awaiting_resumeRunning hothers
  have hpending : ran.world.state.store.AsksControl host.taskId requestId := by
    have hends := hkeeps ⟨sys, 0⟩ [] ⟨hfresh, hasks⟩
    rw [hran] at hends
    split at hends
    · exact hends.2
    · exact hends.2
    · exact hends.2
  refine ⟨hpending, ?_⟩
  rintro ⟨-, settled, _, hsettled, hstatus, -⟩
  obtain ⟨request, hrow, -, hstill⟩ := hpending
  obtain rfl : request = settled := Option.some.inj (hrow.symm.trans hsettled)
  rw [hstatus] at hstill
  revert hstill
  decide

end Claims

/-! ### A pause that is never applied -/

section Samples

local instance resumedControlsDigest : Sha256 := Sample.digest
local instance resumedControlsUuid : Uuid5 := Sample.uuid5
local instance resumedControlsRedactor : Redactor := Sample.redactor

namespace Sample

/-- A process that is stopped after the first checkpoint of task `a`, while its pause is requested. -/
def pausing : System :=
  let stopped : Host := { host { content := "done" } with stops := (· = 9) }
  let store := (incarnate (system (runFrom {} (started "s" "a" "x" 100))) ⟨stopped, 1⟩).1.store
  let request : ControlRequest := { id := "pause", taskId := "a", kind := .pause, requestedAt := 1 }
  system (runCalls store [.op ⟨1, .requestControl request 3⟩])

/-- The process that resumes the task. -/
def resuming : Host := host { content := "done" }

def pausedTask : Task := (pausing.store.tasks.get? "a").getD (task "a")

def pausedCheckpoint : Checkpoint := (pausing.store.checkpoints.get? "a").getD { taskId := "a" }

def resumed : Ran Mark Failure System Unit := resumeRunning resuming 1 pausedTask pausedCheckpoint ⟨pausing, 0⟩

theorem pausing_fresh : pausing.runtime.promptCache = none := rfl

theorem pausing_asks : pausing.store.AsksControl "a" "pause" := by
  obtain ⟨request, hrow⟩ : ∃ request, pausing.store.controlRequests.get? "pause" = some request :=
    Option.isSome_iff_exists.mp (by decide +kernel)
  have hrequest : (pausing.store.controlRequests.get? "pause").all
      (fun request => request.taskId = "a" ∧ request.status = .requested) = true := by decide +kernel
  rw [hrow, Option.all_some, decide_eq_true_eq] at hrequest
  refine ⟨request, hrow, hrequest.1, ?_⟩
  rw [hrequest.2]
  decide

end Sample

theorem resumed_pause_pending :
    Sample.resumed.world.state.store.AsksControl Sample.resuming.taskId "pause"
      ∧ ¬ ControlApplied Sample.resuming.taskId "pause" Sample.resumed := by
  have hran : resumeRunning Sample.resuming 1 Sample.pausedTask Sample.pausedCheckpoint ⟨Sample.pausing, 0⟩
      = Sample.resumed := rfl
  exact resumed_request_pending (fun _ _ hcall => absurd hcall List.not_mem_nil) Sample.pausing_fresh
    Sample.pausing_asks hran

/-- The task is running and has a checkpoint and no effects, and its pause is requested. It is resumed, and the resumption
raises with the task as it was and the request acknowledged. -/
theorem pause_lost_at_restart :
    Sample.pausing.store.AsksControl "a" "pause" ∧ Sample.pausing.store.effects.rows = []
    ∧ Sample.pausing.store.tasks.get? "a" = some Sample.pausedTask ∧ Sample.pausedTask.status = .running
    ∧ Sample.pausing.store.checkpoints.get? "a" = some Sample.pausedCheckpoint
    ∧ Sample.resumed.ending = .raised (.exception "prompt-cache coordinator was not initialized")
    ∧ Sample.resumed.world.state.store.tasks.get? "a" = some Sample.pausedTask
    ∧ ((Sample.resumed.world.state.store.controlRequests.get? "pause").map ControlRequest.status)
      = some .acknowledged
    ∧ ¬ ControlApplied "a" "pause" Sample.resumed := by
  have hending : Sample.resumed.ending = .raised (.exception "prompt-cache coordinator was not initialized") := by
    decide +kernel
  refine ⟨Sample.pausing_asks, by decide +kernel, by decide +kernel, by decide +kernel, by decide +kernel, hending,
    by decide +kernel, by decide +kernel, ?_⟩
  rintro ⟨hreturned, -⟩
  rw [hending] at hreturned
  cases hreturned

end Samples

end PatchLoop
