import PatchLoop.Runtime.Runs

/-!
# What the handling of a call keeps

`_execute_or_replay`, `_reconcile_effects` and the cancellation of pending effects, for every assertion
that the calls of the store that keep a result are known to keep.
-/

namespace PatchLoop

open Transaction
open Process (Assertion Ensures Keeps keeps_bind keeps_pure keeps_throw keeps_read)

variable [Sha256] [Redactor] {host : Host} {I : Assertion Mark System}

/-- The result is stored under the call id of a task. -/
def Store.HoldsResult (s : Store) (taskId callId : String) (result : ToolResult) : Prop :=
  ∃ row, s.toolCalls.get? (taskId, callId) = some row ∧ row.result = result

/-- For a call and its effect, the assertion survives each way in which a result of the call is stored,
and the observation of a result that is stored under the id of the call. -/
structure Stores (host : Host) (I : Assertion Mark System) (effectId : String) (call : ToolCall) :
    Prop where
  settles : ∀ (effect : Effect) (executable : ToolCall) result status, effect.id = effectId → executable.id = call.id →
    Keeps I (settleUnexecuted host effect executable result status)
  commits : ∀ (effect : Effect) (executable : ToolCall) result, effect.id = effectId → executable.id = call.id →
    Keeps I (commitClaimedEffect host effect executable result)
  records : ∀ (effect : Effect) result, effect.id = effectId →
    Keeps I (recordResult host (some effect) call result)
  refuses : ∀ result : ToolResult,
    Keeps I (storingCall host (some effectId) call.redact.id result.redact fun now =>
      commitToolResult now host.taskId call.redact result.redact none (some host.guard))
  finds : ∀ sys past result, I sys past → sys.store.HoldsResult host.taskId call.id result →
    I sys (past ++ [.found (some effectId) call.id result])

namespace Tame

variable (hI : Tame host I)

include hI

omit [Redactor] in
theorem invokeGateway {approvalConsumed : Bool} {call : ToolCall} :
    Keeps I (invokeGateway host approvalConsumed call) := by
  refine Process.ensures_act hI.stable (fun _ _ h => h) ?_ fun _ _ _ _ h _ => h
  intro n sys past a sys' hP hok
  dsimp only at hok
  split at hok
  · cases hok
  · cases hok
    exact hI.files _ past _ (hI.runtime sys past _ rfl hP)

omit [Redactor] in
/-- A result joins the history of the gateway unless one for its call is there. -/
theorem appendUnseen {result : ToolResult} : Keeps I (do
    let runtime ← getRuntime
    if runtime.gateway.history.all fun item => item.callId ≠ result.callId then
      PatchLoop.appendHistory result
    return result) := by
  refine keeps_bind getRuntime_keeps fun runtime => ?_
  dsimp only
  split
  · exact keeps_bind hI.appendHistory fun _ => keeps_pure
  · exact keeps_pure

theorem yieldForEffectApproval [Uuid5] {effect : Effect} :
    Keeps I (yieldForEffectApproval host effect) := by
  unfold PatchLoop.yieldForEffectApproval
  repeat' split
  · exact keeps_pure
  · exact keeps_pure
  · exact keeps_throw
  · exact keeps_pure
  · refine keeps_bind hI.effectConfigVersion fun _ => keeps_bind getRuntime_keeps fun _ =>
      keeps_bind ?_ fun _ => keeps_bind hI.setTask fun _ => keeps_throw
    exact hI.call (fun now => .requestEffectApproval _ _ _ _) (fun _ => rfl) fun _ => trivial

omit [Redactor] in
theorem getToolResult {taskId callId : String} :
    Ensures I (runtimeCall host fun _ => PatchLoop.getToolResult taskId callId)
      (fun persisted sys past => I sys past
        ∧ ∀ result ∈ persisted, sys.store.HoldsResult taskId callId result) (fun _ => I) I := by
  refine hI.reads (H := fun persisted store =>
    ∀ result ∈ persisted, store.HoldsResult taskId callId result) fun s persisted s' hreturns => ?_
  obtain ⟨rfl, rfl⟩ := query_returns.mp hreturns
  exact ⟨rfl, fun result hresult => by simpa [Store.HoldsResult] using hresult⟩

/-! ### One call -/

variable {effect : Effect} {call : ToolCall} (hstores : Stores host I effect.id call)

include hstores

theorem replayResult {persisted : ToolResult} :
    Ensures (fun sys past => I sys past ∧ sys.store.HoldsResult host.taskId call.id persisted)
      (replayResult host (some effect) call persisted) (fun _ => I) (fun _ => I) I := by
  refine Process.ensures_bind (Q := fun _ => I) (Process.ensures_note ?_) fun _ => ?_
  · exact fun sys past h => hstores.finds sys past persisted h.1 h.2
  · refine keeps_bind hI.getRecoveryDisposition fun disposition => ?_
    dsimp only
    split
    · exact keeps_bind hI.modifyGateway fun _ => hI.appendUnseen
    · exact hI.appendUnseen

theorem blockRepeatedEffect : Keeps I (blockRepeatedEffect host (some effect) call) :=
  keeps_bind hI.appendHistory fun _ => keeps_bind hI.modifyGateway fun _ =>
    keeps_bind (hstores.records effect _ rfl) fun _ => keeps_pure

theorem runCall {claimed : Effect} {executable : ToolCall} (hclaimed : claimed.id = effect.id)
    (hexecutable : executable.id = call.id) :
    Keeps I (runCall host (some (claimed, executable)) call) := by
  refine keeps_bind hI.ask fun known => ?_
  have hstore (result : ToolResult) :
      Keeps I (do let _ ← commitClaimedEffect host claimed executable result) :=
    keeps_bind (hstores.commits claimed executable result hclaimed hexecutable) fun _ => keeps_pure
  dsimp only
  split
  · exact keeps_bind hI.appendHistory fun _ => keeps_bind (hstore _) fun _ => keeps_pure
  · exact keeps_bind hI.invokeGateway fun _ => keeps_bind hI.assertOwnership fun _ =>
      keeps_bind (hstore _) fun _ => keeps_pure

theorem claimAndRun {executable : ToolCall} {expectedInputSequence : Nat}
    (hexecutable : executable.id = call.id) :
    Keeps I (claimAndRun host effect call executable expectedInputSequence) := by
  refine keeps_bind hI.effectConfigVersion fun configVersion => ?_
  refine keeps_bind getRuntime_keeps fun runtime => ?_
  refine Process.ensures_bind_of (B := I) (H := fun claimed => claimed.id = effect.id) ?_
    fun claimed hclaimed => ?_
  · refine ensures_runtimeCall hI.stable (fun _ _ h => h) ?_ fun _ _ _ h => h
    intro now sys past claimed store hP hreturns
    have hplain := hI.plain now (.claimEffect _ _ _ _) sys past store trivial hP
      (discard_returns.mpr ⟨claimed, hreturns⟩)
    obtain ⟨_, current, _, _, _, hclaims, -, rfl, -, -⟩ := claimEffect_returns hreturns
    exact ⟨hplain, hclaims.loadsEffect.id_eq⟩
  · refine keeps_bind hI.assertOwnership fun _ => keeps_bind currentFiles_keeps fun files => ?_
    split
    · exact keeps_bind hI.appendHistory fun _ => hstores.commits claimed executable _ hclaimed hexecutable
    · exact runCall hI hstores hclaimed hexecutable

omit [Redactor] hI hstores in
theorem revalidated_id {context : ToolContext} {gateway : ToolGateway} {executable : ToolCall}
    (hok : revalidateEffectCall gateway context effect call = .ok executable) :
    executable.id = call.id := by
  unfold revalidateEffectCall at hok
  dsimp only at hok
  split at hok
  · cases hok
  split at hok
  · cases hok
  split at hok
  · cases hok
  repeat (split at hok; cases hok)
  cases hok
  rfl

theorem executeEffect {expectedInputSequence : Nat} :
    Keeps I (executeEffect host effect call expectedInputSequence) := by
  unfold PatchLoop.executeEffect
  split
  · exact keeps_bind hI.observeResult fun _ =>
      keeps_bind (hstores.settles effect call _ _ rfl rfl) fun _ => keeps_pure
  · split
    · exact keeps_bind hI.appendHistory fun _ => keeps_bind (hstores.refuses _) fun _ => keeps_pure
    · refine keeps_bind getRuntime_keeps fun runtime => ?_
      split
      · exact keeps_bind hI.observeResult fun _ =>
          keeps_bind (hstores.settles effect call _ _ rfl rfl) fun _ => keeps_pure
      · rename_i executable hok
        have hexecutable : executable.id = call.id := revalidated_id hok
        refine keeps_bind currentFiles_keeps fun files => ?_
        split
        · exact keeps_bind hI.observeResult fun _ =>
            keeps_bind (hstores.settles effect executable _ _ rfl hexecutable) fun _ => keeps_pure
        · exact claimAndRun hI hstores hexecutable

/-- The handling of a call keeps the assertion. -/
theorem executeOrReplay [Uuid5] {expectedInputSequence : Nat} :
    Keeps I (executeOrReplay host call (some effect) expectedInputSequence) := by
  refine keeps_bind hI.assertOwnership fun _ => ?_
  refine Process.ensures_bind_of (B := I) (H := fun current : Effect =>
    current.id = effect.id) ?_ fun current hid => ?_
  · exact hI.requireEffect.weaken (fun _ _ h => h) (fun _ _ _ h => ⟨h.1, h.2.id_eq⟩)
      (fun _ _ _ h => h) fun _ _ h => h
  rw [← hid] at hstores
  refine keeps_bind hI.yieldForEffectApproval fun _ => ?_
  refine Process.ensures_bind_of (B := I) (H := fun effect => effect = some current)
    (Process.ensures_pure fun _ _ h => ⟨h, rfl⟩) ?_
  rintro _ rfl
  refine Process.ensures_bind hI.getToolResult fun persisted => ?_
  · cases persisted with
    | some result =>
        exact (replayResult hI hstores).before fun sys past h => ⟨h.1, h.2 result rfl⟩
    | none =>
        have hrest : Keeps I (do
            let known ← PatchLoop.ask host fun moment => .ok (host.isKnownFailedAction moment call)
            if known = true ∧ ((some current).bind Effect.retryOfEffectId) = none then
              PatchLoop.blockRepeatedEffect host (some current) call
            else PatchLoop.executeEffect host current call expectedInputSequence) := by
          refine keeps_bind hI.ask fun known => ?_
          split
          · exact blockRepeatedEffect hI hstores
          · exact executeEffect hI hstores
        exact hrest.before fun _ _ h => h.1

end Tame

/-! ### Several effects -/

/-- The effects are rows of the task, as a process has listed them. -/
def Store.Lists (s : Store) (taskId : String) (effects : List Effect) : Prop :=
  ∀ effect ∈ effects, s.effects.get? effect.id = some effect ∧ effect.taskId = taskId

namespace Tame

variable (hI : Tame host I)

include hI

omit [Redactor] in
theorem listedEffects {taskId : String} :
    Ensures I (runtimeCall host fun _ => PatchLoop.listEffects taskId)
      (fun effects sys past => I sys past ∧ sys.store.Lists taskId effects) (fun _ => I) I := by
  refine hI.reads (H := fun effects store => store.Lists taskId effects)
    fun s effects s' hreturns => ?_
  obtain ⟨rfl, rfl⟩ := query_returns.mp hreturns
  refine ⟨rfl, fun effect hmem => ?_⟩
  rw [List.mem_insertionSort, List.mem_filter, decide_eq_true_eq] at hmem
  exact ⟨Table.get?_of_mem hmem.1, hmem.2⟩

theorem cancelPendingEffects {reason : String} {effects : List Effect}
    (hsettles : ∀ effect ∈ effects, ∀ result,
      Keeps I (settleUnexecuted host effect effect.call result .cancelled)) :
    Keeps I (cancelPendingEffects host reason effects) := by
  induction effects with
  | nil => exact keeps_pure
  | cons effect rest ih =>
      have hrest : Keeps I (PatchLoop.cancelPendingEffects host reason rest) :=
        ih fun other hother => hsettles other (List.mem_cons_of_mem _ hother)
      unfold PatchLoop.cancelPendingEffects
      dsimp only
      split
      · exact keeps_bind hI.observeResult fun _ =>
          keeps_bind (hsettles effect List.mem_cons_self _) fun _ => hrest
      · exact hrest

variable (hcancels : ∀ reason effects,
  Ensures (fun sys past => I sys past ∧ sys.store.Lists host.taskId effects)
    (PatchLoop.cancelPendingEffects host reason effects) (fun _ => I) (fun _ => I) I)

include hcancels

theorem cancelRunning {control : ControlRequest} : Keeps I (cancelRunning host control) :=
  keeps_bind hI.acknowledgeControl fun _ => keeps_bind hI.ask fun _ =>
    Process.ensures_bind hI.listedEffects fun effects =>
      Process.ensures_bind (hcancels _ effects) fun _ =>
        keeps_bind buildReport_keeps fun _ => keeps_bind hI.transitionTask fun _ =>
          keeps_bind hI.persistTask fun _ => hI.finishControl

theorem applyPendingControl : Keeps I (applyPendingControl host) := by
  refine keeps_bind hI.getPendingControl fun pending => ?_
  cases pending with
  | none => exact keeps_pure
  | some control =>
      dsimp only
      split
      · exact keeps_bind (hI.cancelRunning hcancels) fun _ => keeps_pure
      · exact keeps_bind hI.pauseRunning fun _ => keeps_pure

end Tame

/-- For an effect that was executing, the assertion survives its confirmation by the result that was
read under its call id, if there was one. -/
def Confirms (host : Host) (I : Assertion Mark System) (effect : Effect) : Prop :=
  ∀ evidence result persisted, Ensures (fun sys past => I sys past
      ∧ ∀ found ∈ persisted, sys.store.HoldsResult host.taskId effect.providerCallId found)
    (confirmEffect host effect evidence result persisted) (fun _ => I) (fun _ => I) I

namespace Tame

variable (hI : Tame host I)

include hI

omit [Redactor] in
theorem requireRecovery {effect : Effect} {evidence : Json} : Keeps I (do
    let (_, task) ← runtimeCall host fun now =>
      markEffectUnknown now effect.id effect.version evidence host.guard
    PatchLoop.setTask task
    return decide (task.runtimeCondition = .recoveryRequired)) :=
  keeps_bind (hI.call (fun _ => .markEffectUnknown _ _ _ _) (fun _ => rfl) fun _ => trivial)
    fun _ => keeps_bind hI.setTask fun _ => keeps_pure

/-- After a restart, the effects that were executing are confirmed or require recovery. -/
theorem reconcileEffects {effects : List Effect}
    (hconfirms : ∀ effect ∈ effects, Confirms host I effect) :
    Keeps I (reconcileEffects host effects) := by
  induction effects with
  | nil => exact keeps_pure
  | cons effect rest ih =>
      have hrest : Keeps I (PatchLoop.reconcileEffects host rest) :=
        ih fun other hother => hconfirms other (List.mem_cons_of_mem _ hother)
      unfold PatchLoop.reconcileEffects
      split
      · refine keeps_bind hI.getRecoveryDisposition fun disposition => ?_
        split
        · exact hrest
        · exact hI.requireRecovery
      · split
        · exact hrest
        · refine Process.ensures_bind hI.getToolResult fun persisted => ?_
          refine Process.ensures_bind (Q := fun _ sys past => I sys past ∧ ∀ found ∈ persisted,
            sys.store.HoldsResult host.taskId effect.providerCallId found)
            (Process.ensures_read fun _ _ h => h) fun files => ?_
          refine Process.ensures_bind_of (ensures_orException fun _ _ _ h => h.1)
            fun reconciliation _ => ?_
          cases reconciliation with
          | confirmedResult evidence result =>
              exact Process.ensures_bind
                (hconfirms effect List.mem_cons_self evidence result persisted) fun _ => hrest
          | recoveryRequired evidence => exact hI.requireRecovery.before fun _ _ h => h.1

end Tame

end PatchLoop
