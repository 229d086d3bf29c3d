import PatchLoop.Store.EffectSpec

/-!
# What a recovery resolution does

A disposition of an unknown effect confirms its result, retries it under a new approval, or abandons
the task.
-/

namespace PatchLoop

open Transaction

variable [Sha256] {s s' : Store} {now : Timestamp}

/-! ### Validation -/

/-- What `validate_recovery_resolution` accepts, with the condition it leaves the task in. -/
inductive ValidResolution (task : Task) (unknown : Effect) (disposition : RecoveryDisposition) :
    Resolution → TaskRuntimeCondition → Prop where
  | confirmResult (call : ToolCall) (result : ToolResult)
      (hkind : disposition.kind = .confirmResult) (hconfirms : ConfirmsEffect unknown call result) :
      ValidResolution task unknown disposition
        { confirmedCall := some call, confirmedResult := some result }
        (if task.outcome = .active then .idle else .ended)
  | createRetry (retry : Effect) (approval : Approval)
      (hkind : disposition.kind = .createRetry) (hactive : task.outcome = .active)
      (hretries : RetriesEffect task unknown disposition retry)
      (hrequired : retry.policyResult.get? "decision" = some (.str "require_approval"))
      (happroves : ApprovesRetry task retry approval) :
      ValidResolution task unknown disposition
        { retryEffect := some retry, retryApproval := some approval } .waitingForApproval
  | abandon (hkind : disposition.kind = .abandon) (hretry : disposition.retryEffectId = none) :
      ValidResolution task unknown disposition {} .ended

theorem validateRecoveryResolution_returns {task : Task} {unknown : Effect}
    {disposition : RecoveryDisposition} {resolution : Resolution} {target : TaskRuntimeCondition}
    (hreturns : (validateRecoveryResolution task unknown disposition resolution).Returns s target
      s') :
    s' = s ∧ ValidResolution task unknown disposition resolution target := by
  simp only [validateRecoveryResolution, bind_returns, raiseIf_returns, pure_returns, existsAndEq,
    exists_const, true_and, and_assoc, not_not] at hreturns
  obtain ⟨-, -, -, hbranch, -⟩ := hreturns
  unfold validateKind at hbranch
  split at hbranch
  · rename_i hkind
    unfold validateConfirmation at hbranch
    split at hbranch
    · simp only [bind_returns, raiseIf_returns, pure_returns, existsAndEq, exists_const, true_and,
        and_assoc, not_not] at hbranch
      obtain ⟨hconfirms, rfl, rfl⟩ := hbranch
      exact ⟨rfl, .confirmResult _ _ hkind hconfirms⟩
    · exact absurd hbranch throw_returns
  · rename_i hkind
    simp only [validateRetry, bind_returns, raiseIf_returns, existsAndEq, exists_const, true_and,
      and_assoc, not_not] at hbranch
    obtain ⟨-, hactive, hbranch⟩ := hbranch
    split at hbranch
    · simp only [bind_returns, raiseIf_returns, pure_returns, existsAndEq, exists_const, true_and,
        and_assoc, not_not, not_or, ne_eq] at hbranch
      obtain ⟨hretries, hrequired, -, happroves, rfl, rfl⟩ := hbranch
      exact ⟨rfl, .createRetry _ _ hkind hactive hretries hrequired happroves⟩
    · exact absurd hbranch throw_returns
  · rename_i hkind
    unfold validateAbandonment at hbranch
    split at hbranch
    · simp only [bind_returns, raiseIf_returns, pure_returns, existsAndEq, exists_const, true_and,
        and_assoc, not_not] at hbranch
      obtain ⟨hretry, rfl, rfl⟩ := hbranch
      exact ⟨rfl, .abandon hkind hretry⟩
    · exact absurd hbranch throw_returns

/-! ### The writes -/

/-- The row of `tool_calls` that a retry writes for the effect it retries. -/
def unknownRow (now : Timestamp) (effect : Effect) (dispositionId retryId : String) :
    ToolCallRow where
  taskId := effect.taskId
  call := {
    id := effect.providerCallId
    name := effect.toolName
    arguments := effect.argumentsSummary }
  result := unknownObservation effect dispositionId retryId
  completedAt := now

/-- The database after the writes of a resolution itself. -/
def Store.resolved (s : Store) (now : Timestamp) (effect : Effect)
    (disposition : RecoveryDisposition) (resolution : Resolution) : Store :=
  match resolution with
  | ⟨some call, some result, _, _⟩ =>
      (s.addToolCall { taskId := effect.taskId, call, result, completedAt := now }).putEffect
        (effect.confirmed result disposition.evidence)
  | ⟨_, _, some retry, some approval⟩ =>
      ((s.addEffects [retry.waitingRetry approval.id]).addApproval approval).addToolCall
        (unknownRow now effect disposition.id retry.id)
  | _ => s

theorem writeResolution_returns {task : Task} {effect : Effect} {disposition : RecoveryDisposition}
    {resolution : Resolution} {target : TaskRuntimeCondition} {u : Unit}
    (hvalid : ValidResolution task effect disposition resolution target)
    (hreturns : (writeResolution now effect disposition resolution).Returns s u s') :
    s' = s.resolved now effect disposition resolution
      ∧ (∀ retry approval, resolution.retryEffect = some retry →
          resolution.retryApproval = some approval →
            s.effectByIdOrIdentity retry = none ∧ s.FreshEffect (retry.waitingRetry approval.id)
              ∧ s.approvals.get? approval.id = none
              ∧ s.approvalOfEffect approval.effectId = none) := by
  cases hvalid with
  | confirmResult call result hkind hconfirms =>
      simp only [writeResolution, writeConfirmation, bind_returns, query_returns,
        matchToolCall_returns, modify_returns, writeEffect_returns, pure_returns, existsAndEq,
        exists_const, true_and, and_assoc] at hreturns
      obtain ⟨-, -, rfl⟩ := hreturns
      exact ⟨rfl, by simp⟩
  | createRetry retry approval hkind hactive hretries hrequired happroves =>
      simp only [writeResolution, writeRetry, bind_returns, query_returns, raiseIf_returns,
        insertEffect_returns, insertApproval_returns, insertToolCall_returns, existsAndEq,
        exists_const, true_and, and_assoc, not_not, ne_eq] at hreturns
      obtain ⟨hnone, -, hfresh, hid, heffect, -, -, rfl⟩ := hreturns
      refine ⟨rfl, ?_⟩
      rintro retry' approval' ⟨⟩ ⟨⟩
      exact ⟨hnone, hfresh, hid, heffect⟩
  | abandon hkind hretry =>
      simp only [writeResolution, pure_returns, true_and] at hreturns
      obtain rfl := hreturns
      exact ⟨rfl, by simp⟩

/-- The session in which a resolution is journalled, which an abandoned task leaves. -/
def Store.resolutionSession (s : Store) (task : Task) (disposition : RecoveryDisposition) :
    Option Session :=
  (s.sessionOf task).map fun session =>
    if disposition.kind = .abandon then session.withoutActive task.id else session

def RecoveryDisposition.entry (disposition : RecoveryDisposition) (taskId : String) : Entry where
  id := journalEventId "recovery.resolved" disposition.id disposition.kind.value
  type := "recovery.resolved"
  taskId := some taskId
  data := .obj [("disposition_id", .str disposition.id),
    ("effect_id", .str disposition.unknownEffectId), ("kind", .str disposition.kind.value)]

/-- The database after the journal entry of a resolution. -/
@[simps] def Store.journaledResolution (s : Store) (now : Timestamp) (task : Task)
    (disposition : RecoveryDisposition) : Store :=
  { s with
    sessions := match s.resolutionSession task disposition with
      | none => s.sessions
      | some session => (s.journaled now session (disposition.entry task.id)).sessions
    sessionEvents := match s.resolutionSession task disposition with
      | none => s.sessionEvents
      | some session => (s.journaled now session (disposition.entry task.id)).sessionEvents
    checkpoints := match s.resolutionSession task disposition with
      | none => s.checkpoints
      | some session => (s.advanced now task.id (session.eventSequence + 1) none).checkpoints }

/-- The session of the resolution is there, and its entry can be journalled. -/
def Store.CanJournalResolution (s : Store) (task : Task) (disposition : RecoveryDisposition) :
    Prop :=
  task.sessionId = none ∨ ∃ session, s.resolutionSession task disposition = some session
    ∧ s.CanJournal session (disposition.entry task.id)

@[simp] theorem journalResolution_returns {task : Task} {disposition : RecoveryDisposition}
    {u : Unit} :
    (journalResolution now task disposition).Returns s u s'
      ↔ s.CanJournalResolution task disposition
        ∧ s' = s.journaledResolution now task disposition := by
  unfold journalResolution Store.CanJournalResolution
  cases htask : task.sessionId with
  | none =>
      have hnone : s.resolutionSession task disposition = none := by
        simp [Store.resolutionSession, Store.sessionOf, htask]
      simp [Store.journaledResolution, hnone]
  | some sessionId =>
      simp only [bind_returns, requireSession_returns, journal_returns,
        advanceCheckpointEventCursor_returns, existsAndEq, true_and, and_assoc, reduceCtorEq,
        false_or]
      constructor
      · rintro ⟨session, hsession, hjournal, rfl⟩
        have hsome : s.resolutionSession task disposition = some
            (if disposition.kind = .abandon then session.withoutActive task.id else session) := by
          simp [Store.resolutionSession, Store.sessionOf, htask, hsession]
        refine ⟨⟨_, hsome, hjournal⟩, ?_⟩
        simp only [Store.journaledResolution, hsome]
        rfl
      · rintro ⟨⟨_, hsome, hjournal⟩, rfl⟩
        simp only [Store.resolutionSession, Store.sessionOf, htask, Option.bind_some,
          Option.map_eq_some_iff] at hsome
        obtain ⟨session, hsession, rfl⟩ := hsome
        have hsome : s.resolutionSession task disposition = some
            (if disposition.kind = .abandon then session.withoutActive task.id else session) := by
          simp [Store.resolutionSession, Store.sessionOf, htask, hsession]
        refine ⟨session, hsession, hjournal, ?_⟩
        simp only [Store.journaledResolution, hsome]
        rfl

/-! ### The operation -/

/-- What a resolution finds: an unknown effect of a task in recovery, without a disposition. -/
structure Store.Resolves (s : Store) (disposition : RecoveryDisposition) (taskId : String)
    (version : Nat) (resolution : Resolution) (task : Task) (effect : Effect)
    (target : TaskRuntimeCondition) : Prop where
  loadsTask : s.LoadsTask taskId task
  free : s.dispositionByIdOrEffect disposition.id disposition.unknownEffectId = none
  version_eq : task.version = version
  recovery : task.runtimeCondition = .recoveryRequired
  loadsEffect : s.LoadsEffect disposition.unknownEffectId effect
  owner : effect.taskId = taskId
  unknown : effect.status = .unknown
  valid : ValidResolution task effect disposition resolution target
  fresh : ∀ retry approval, resolution.retryEffect = some retry →
    resolution.retryApproval = some approval →
      s.effectByIdOrIdentity retry = none ∧ s.FreshEffect (retry.waitingRetry approval.id)
        ∧ s.approvals.get? approval.id = none ∧ s.approvalOfEffect approval.effectId = none

/-- The database that a resolution leaves. -/
def Store.recovered (s : Store) (now : Timestamp) (disposition : RecoveryDisposition)
    (resolution : Resolution) (task : Task) (effect : Effect) (target : TaskRuntimeCondition) :
    Store :=
  (((s.resolved now effect disposition resolution).addRecoveryDisposition disposition).putTask
    (task.recovered disposition.kind target)).journaledResolution now task disposition

/-- A repeated disposition changes nothing. -/
theorem resolveRecovery_returns {disposition : RecoveryDisposition} {taskId : String}
    {version : Nat} {resolution : Resolution} {result : Task}
    (hreturns : (resolveRecovery now disposition taskId version resolution).Returns s result s') :
    (s' = s ∧ s.dispositionByIdOrEffect disposition.id disposition.unknownEffectId ≠ none)
      ∨ ∃ task effect target,
        s.Resolves disposition taskId version resolution task effect target
          ∧ (((s.resolved now effect disposition resolution).addRecoveryDisposition
              disposition).putTask (task.recovered disposition.kind target)).CanJournalResolution
            task disposition
          ∧ s' = s.recovered now disposition resolution task effect target := by
  simp only [resolveRecovery, bind_returns, validateRetryEffect_returns,
    validateApprovals_returns, requireTask_returns, query_returns, existsAndEq, exists_const,
    true_and, and_assoc] at hreturns
  obtain ⟨-, -, task, htask, hbranch⟩ := hreturns
  split at hbranch
  · rename_i existing hexisting
    simp only [bind_returns, raiseIf_returns, pure_returns, existsAndEq, exists_const, true_and,
      and_assoc] at hbranch
    obtain ⟨-, -, rfl⟩ := hbranch
    exact Or.inl ⟨rfl, by simp [hexisting]⟩
  · rename_i hfree
    simp only [bind_returns, checkVersion_returns, raiseIf_returns, requireEffect_returns,
      insertRecoveryDisposition_returns, writeTask_returns, journalResolution_returns, pure_returns,
      existsAndEq, exists_const, true_and, and_assoc, not_or, not_not, ne_eq] at hbranch
    obtain ⟨hversion, hrecovery, effect, heffect, howner, hunknown, target, _, hvalid, _, _, hwrite,
      -, -, -, -, hjournal, -, rfl⟩ := hbranch
    obtain ⟨rfl, hresolution⟩ := validateRecoveryResolution_returns hvalid
    obtain ⟨rfl, hfresh⟩ := writeResolution_returns hresolution hwrite
    exact Or.inr ⟨task, effect, target, ⟨htask, hfree, hversion version rfl, hrecovery, heffect,
      howner, hunknown, hresolution, hfresh⟩, hjournal, rfl⟩

end PatchLoop
