import PatchLoop.Lib.Sequences
import PatchLoop.Runtime.Runs
import PatchLoop.Safety.ActiveTask

/-!
# Confirming the result of an unknown effect

`confirm_persisted_result` makes the call anew from the row of the effect, and the store compares its
arguments with the fingerprint of the effect. The fingerprint is that of the arguments as the gateway
normalized them, the row holds what the redactor left of them. When a confirmation is accepted, for every
effect that was prepared from a response.
-/

namespace PatchLoop

open Transaction

/-! ### What an effect keeps -/

/-- The rows are of one call with one set of arguments. -/
structure Effect.SameCall (effect other : Effect) : Prop where
  id : effect.id = other.id
  taskId : effect.taskId = other.taskId
  providerCallId : effect.providerCallId = other.providerCallId
  toolName : effect.toolName = other.toolName
  arguments : effect.argumentsSummary = other.argumentsSummary
  fingerprint : effect.argumentsFingerprint = other.argumentsFingerprint

theorem Effect.SameCall.refl (effect : Effect) : effect.SameCall effect := ⟨rfl, rfl, rfl, rfl, rfl, rfl⟩

theorem Effect.SameCall.trans {first second third : Effect} (hfirst : first.SameCall second)
    (hsecond : second.SameCall third) : first.SameCall third :=
  ⟨hfirst.id.trans hsecond.id, hfirst.taskId.trans hsecond.taskId,
    hfirst.providerCallId.trans hsecond.providerCallId, hfirst.toolName.trans hsecond.toolName,
    hfirst.arguments.trans hsecond.arguments, hfirst.fingerprint.trans hsecond.fingerprint⟩

/-- The call neither commits the effect nor deletes its task. -/
def Call.Spares (effectId taskId : String) : Call → Prop
  | .op ⟨_, .commitEffect effect ..⟩ => effect.id ≠ effectId
  | .deleteTask other => other ≠ taskId
  | _ => True

section Kept

variable [Sha256] {s s' : Store} {now : Timestamp} {op : Op}

/-- What an operation leaves of the row of an effect is about the same call. -/
theorem sameCall_after {effect : Effect} (hreturns : (exec now op).Returns s () s')
    (hspares : (Call.op ⟨now, op⟩).Spares effect.id effect.taskId)
    (hrow : s.effects.get? effect.id = some effect) :
    ∃ effect', s'.effects.get? effect.id = some effect' ∧ effect'.SameCall effect := by
  have hchange := effectChange hreturns effect.id
  have hloaded : ∀ {id : String} {current : Effect}, s.LoadsEffect id current →
      effect.id = current.id → current = effect := by
    intro id current hload hid
    have hcurrent := hload.row_of_id
    rw [← hid, hrow] at hcurrent
    exact (Option.some.inj hcurrent).symm
  generalize hafter : s'.effects.get? effect.id = row at hchange
  cases hchange with
  | kept op => exact ⟨effect, hrow, .refl effect⟩
  | prepared hprepares hmem hid hnew =>
      rw [hrow] at hnew
      cases hnew
  | batched hguards hcarries hmem hid hnew =>
      rw [hrow] at hnew
      cases hnew
  | requested hrequests hprepared hid =>
      obtain rfl := hloaded hrequests.loadsEffect hid
      exact ⟨_, rfl, rfl, rfl, rfl, rfl, rfl, rfl⟩
  | decided hresolves hid =>
      obtain rfl := hloaded hresolves.loadsEffect hid
      split
      · exact ⟨_, rfl, rfl, rfl, rfl, rfl, rfl, rfl⟩
      · exact ⟨_, rfl, rfl, rfl, rfl, rfl, rfl, rfl⟩
  | claimed hclaims hid =>
      obtain rfl := hloaded hclaims.loadsEffect hid
      exact ⟨_, rfl, rfl, rfl, rfl, rfl, rfl, rfl⟩
  | committed hcommits hid =>
      have hcommitted := hcommits.loadsEffect.id_eq
      exact absurd (hcommitted.symm.trans hid.symm) hspares
  | markedUnknown hmarks hid =>
      obtain rfl := hloaded hmarks.loadsEffect hid
      unfold Effect.markedUnknown
      split
      · exact ⟨_, rfl, rfl, rfl, rfl, rfl, rfl, rfl⟩
      · exact ⟨_, rfl, .refl _⟩
  | settled hsettles hid =>
      obtain rfl := hloaded hsettles.loadsEffect hid
      exact ⟨_, rfl, rfl, rfl, rfl, rfl, rfl, rfl⟩
  | confirmed hresolves hkind hid =>
      obtain rfl := hloaded hresolves.loadsEffect hid
      exact ⟨_, rfl, rfl, rfl, rfl, rfl, rfl, rfl⟩
  | retried hresolves hid hnew =>
      rw [hrow] at hnew
      cases hnew

theorem sameCall_callStep {effect : Effect} {call : Call}
    (hspares : call.Spares effect.id effect.taskId)
    (hrow : s.effects.get? effect.id = some effect) :
    ∃ effect', (callStep s call).effects.get? effect.id = some effect'
      ∧ effect'.SameCall effect := by
  obtain hsame | hreturns := callStep_cases s call
  · rw [hsame]
    exact ⟨effect, hrow, .refl effect⟩
  · generalize callStep s call = s' at hreturns ⊢
    cases call with
    | op timed => exact sameCall_after (callOp_returns.mp hreturns).1 hspares hrow
    | saveTask now task guard =>
        obtain ⟨-, -, rfl⟩ := saveTask_returns.mp hreturns
        exact ⟨effect, hrow, .refl effect⟩
    | deleteTask taskId =>
        obtain ⟨-, rfl⟩ := deleteTask_returns hreturns
        refine ⟨effect, Table.get?_filter.mpr ⟨hrow, ?_⟩, .refl effect⟩
        simpa using Ne.symm hspares

/-- A run that spares the effect keeps the call that its row is about. -/
theorem sameCall_run {effect : Effect} {history : List Call}
    (hspares : ∀ call ∈ history, call.Spares effect.id effect.taskId)
    (hrow : s.effects.get? effect.id = some effect) :
    ∃ effect', (runCalls s history).effects.get? effect.id = some effect'
      ∧ effect'.SameCall effect := by
  induction history generalizing s effect with
  | nil => exact ⟨effect, hrow, .refl effect⟩
  | cons call rest ih =>
      obtain ⟨hfirst, hrest⟩ := List.forall_mem_cons.mp hspares
      obtain ⟨next, hnext, hsame⟩ := sameCall_callStep hfirst hrow
      rw [← hsame.id] at hnext
      rw [← hsame.id, ← hsame.taskId] at hrest
      obtain ⟨last, hlast, hlater⟩ := ih hrest hnext
      rw [hsame.id] at hlast
      exact ⟨last, hlast, hlater.trans hsame⟩

end Kept

/-! ### The row that a preparation inserts -/

section Prepared

variable [Sha256] {s s' : Store} {now : Timestamp}

/-- The effects of a batch that are new, in their order. -/
theorem splitPrepared_new {effects prepared newEffects : List Effect}
    {result : List Effect × List Effect}
    (hreturns : (splitPrepared (fun _ _ => none) effects prepared newEffects).Returns s result s')
    {effect : Effect} (hmem : effect ∈ effects) (hnew : s.effectByIdOrIdentity effect = none) :
    effect ∈ result.2 := by
  have hkept : ∀ {rest prepared newEffects : List Effect} {result : List Effect × List Effect},
      (splitPrepared (fun _ _ => none) rest prepared newEffects).Returns s result s' →
        effect ∈ newEffects → effect ∈ result.2 := by
    intro rest
    induction rest with
    | nil =>
        intro prepared newEffects result hreturns hmem
        obtain ⟨rfl, -⟩ := pure_returns.mp hreturns
        exact hmem
    | cons other rest ih =>
        intro prepared newEffects result hreturns hmem
        simp only [splitPrepared, bind_returns, query_returns, Option.or_none] at hreturns
        obtain ⟨_, _, ⟨rfl, rfl⟩, hbranch⟩ := hreturns
        split at hbranch
        · simp only [bind_returns, validateEffect_returns, assertIdentityCompatible_returns]
            at hbranch
          obtain ⟨_, _, ⟨-, rfl⟩, _, _, ⟨-, rfl⟩, hrest⟩ := hbranch
          exact ih hrest hmem
        · exact ih hbranch (List.mem_append_left _ hmem)
  induction effects generalizing prepared newEffects with
  | nil => cases hmem
  | cons other rest ih =>
      simp only [splitPrepared, bind_returns, query_returns, Option.or_none] at hreturns
      obtain ⟨_, _, ⟨rfl, rfl⟩, hbranch⟩ := hreturns
      rcases List.mem_cons.mp hmem with rfl | hmem
      · rw [hnew] at hbranch
        exact hkept hbranch (List.mem_append_right _ (List.mem_singleton_self _))
      · split at hbranch
        · simp only [bind_returns, validateEffect_returns, assertIdentityCompatible_returns]
            at hbranch
          obtain ⟨_, _, ⟨-, rfl⟩, _, _, ⟨-, rfl⟩, hrest⟩ := hbranch
          exact ih hrest hmem
        · exact ih hbranch hmem

omit [Sha256] in
/-- A new effect has its row after the insertion. -/
theorem get?_addEffects_mem {effects : List Effect} (hfresh : s.FreshEffects effects)
    {effect : Effect} (hmem : effect ∈ effects) :
    (s.addEffects effects).effects.get? effect.id = some effect := by
  induction effects generalizing s with
  | nil => cases hmem
  | cons first rest ih =>
      obtain ⟨hfirst, hrest⟩ := hfresh
      have hcons : (s.addEffects (first :: rest)).effects
          = ((s.addEffects [first]).addEffects rest).effects := rfl
      rw [hcons]
      rcases List.mem_cons.mp hmem with rfl | hmem
      · have hinserted : (s.addEffects [effect]).effects.get? effect.id = some effect :=
          Table.get?_insert_self hfirst.id
        rcases get?_addEffects hrest effect.id with hsame | ⟨hnone, -⟩
        · rw [hsame, hinserted]
        · rw [hinserted] at hnone
          cases hnone
      · exact ih hrest hmem

/-- A prepared batch leaves the row of each of its effects that were not there. -/
theorem prepareEffectBatch_row {step : AgentStep} {effects result : List Effect} {version : Nat}
    {guard : Option LeaseGuard}
    (hreturns : (prepareEffectBatch now step effects version guard).Returns s result s')
    {effect : Effect} (hmem : effect ∈ effects) (hnew : s.effectByIdOrIdentity effect = none) :
    s'.effects.get? effect.id = some effect := by
  simp only [prepareEffectBatch, bind_returns, raiseIf_returns, validateEffects_returns,
    requireTask_returns, assertLegacyWriteGuard_returns, checkVersion_returns, query_returns,
    modify_returns, insertEffects_returns, ite_returns, pure_returns, journalTask_returns,
    existsAndEq, exists_const, true_and, and_assoc, not_not] at hreturns
  obtain ⟨-, -, -, -, task, -, -, -, -, ⟨prepared, newEffects⟩, t, hsplit, hfresh, hrest⟩ := hreturns
  obtain ⟨rfl, -⟩ := splitPrepared_returns hsplit
  have hinserted := get?_addEffects_mem hfresh (splitPrepared_new hsplit hmem hnew)
  rcases hrest with ⟨-, -, rfl⟩ | ⟨-, -, -, rfl⟩
  · exact hinserted
  · exact hinserted

end Prepared

/-! ### When a confirmation is accepted -/

section Accepted

variable [Sha256] {s s' : Store} {now : Timestamp} {task : Task} {effect : Effect}
  {disposition : RecoveryDisposition} {call : ToolCall} {result : ToolResult}

/-- The condition in which a confirmation leaves its task. -/
def Task.confirmedCondition (task : Task) : TaskRuntimeCondition :=
  if task.outcome = .active then .idle else .ended

/-- A confirmation of an unknown effect that has no disposition, of a task in recovery. -/
structure Store.AwaitsConfirmation (s : Store) (task : Task) (effect : Effect)
    (disposition : RecoveryDisposition) : Prop where
  loadsTask : s.LoadsTask task.id task
  recovery : task.runtimeCondition = .recoveryRequired
  loadsEffect : s.LoadsEffect disposition.unknownEffectId effect
  owner : effect.taskId = task.id
  unknown : effect.status = .unknown
  free : s.dispositionByIdOrEffect disposition.id disposition.unknownEffectId = none
  kind : disposition.kind = .confirmResult
  plain : disposition.retryEffectId = none
  evidence : disposition.evidence.isEmptyObject = false

/-- The rows that a confirmation writes. -/
def Store.confirmedRows (s : Store) (now : Timestamp) (task : Task) (effect : Effect)
    (disposition : RecoveryDisposition) (call : ToolCall) (result : ToolResult) : Store :=
  (((s.addToolCall { taskId := effect.taskId, call, result, completedAt := now }).putEffect
    (effect.confirmed result disposition.evidence)).addRecoveryDisposition disposition).putTask
      (task.recovered disposition.kind task.confirmedCondition)

/-- The call and the result are those of the effect, and no other ones are stored for the call. -/
def Store.TakesConfirmation (s : Store) (effect : Effect) (call : ToolCall) (result : ToolResult) :
    Prop :=
  ConfirmsEffect effect call result
    ∧ ∀ row ∈ s.toolCalls.get? (effect.taskId, call.id), row.call = call ∧ row.result = result

theorem validateRecoveryResolution_confirms
    (hawaits : s.AwaitsConfirmation task effect disposition) {target : TaskRuntimeCondition} :
    (validateRecoveryResolution task effect disposition
        { confirmedCall := some call, confirmedResult := some result }).Returns s target s'
      ↔ ConfirmsEffect effect call result ∧ target = task.confirmedCondition ∧ s' = s := by
  have hallowed : task.confirmedCondition ∈ disposition.kind.allowed := by
    rw [hawaits.kind]
    unfold Task.confirmedCondition
    split <;> decide
  have hkind : validateKind task effect disposition
      { confirmedCall := some call, confirmedResult := some result }
        = validateConfirmation task effect
          { confirmedCall := some call, confirmedResult := some result } := by
    rw [validateKind, hawaits.kind]
  simp only [validateRecoveryResolution, hkind, validateConfirmation, bind_returns, raiseIf_returns,
    pure_returns, existsAndEq, exists_const, true_and, and_assoc, not_not, not_or]
  constructor
  · rintro ⟨-, -, -, -, hconfirms, -, rfl, rfl⟩
    exact ⟨hconfirms, rfl, rfl⟩
  · rintro ⟨hconfirms, rfl, rfl⟩
    refine ⟨hawaits.recovery, hawaits.owner, hawaits.unknown, ?_, hconfirms, hallowed, rfl, rfl⟩
    rw [hawaits.evidence]
    exact Bool.false_ne_true

/-- A confirmation returns where the call and result are the effect's and its entry can be journalled. -/
theorem resolveRecovery_confirms_iff (hawaits : s.AwaitsConfirmation task effect disposition) :
    (exec now (.resolveRecovery disposition task.id task.version
        { confirmedCall := some call, confirmedResult := some result })).Returns s () s'
      ↔ s.TakesConfirmation effect call result
        ∧ (s.confirmedRows now task effect disposition call result).CanJournalAll now task
          [disposition.entry task.id]
        ∧ s' = (s.confirmedRows now task effect disposition call result).journaledResolution now task
          disposition := by
  have hid : effect.id = disposition.unknownEffectId := hawaits.loadsEffect.id_eq
  have hrow : s.effects.get? effect.id = some effect := hid ▸ hawaits.loadsEffect.1
  have htaskRow : s.tasks.get? (task.recovered disposition.kind task.confirmedCondition).id ≠ none := by
    rw [show s.tasks.get? (task.recovered disposition.kind task.confirmedCondition).id = some task from
      hawaits.loadsTask.1]
    exact Option.some_ne_none _
  have hcan : ∀ t : Store, t.CanJournalResolution task disposition
      ↔ t.CanJournalAll now task [disposition.entry task.id] := by
    intro t
    have hsame : t.resolutionSession task disposition = t.sessionOf task := by
      simp [Store.resolutionSession, hawaits.kind]
    simp only [Store.CanJournalResolution, hsame, Store.CanJournalAll, Store.CanJournalFor, and_true]
  have hthere : ∀ t : Store, t.effects = s.effects.set (effect.confirmed result disposition.evidence) →
      t.HasEffect (some disposition.unknownEffectId) := by
    intro t ht
    have hset : (s.effects.set (effect.confirmed result disposition.evidence)).get? effect.id
        = some (effect.confirmed result disposition.evidence) := Table.get?_set_self hrow
    rw [Store.HasEffect, Option.all_some, ht, ← hid, hset]
    rfl
  simp only [exec, discard_returns, resolveRecovery, bind_returns, validateRetryEffect_returns,
    validateApprovals_returns, requireTask_returns, query_returns, existsAndEq, exists_const,
    true_and, and_assoc]
  constructor
  · rintro ⟨_, -, -, task', htask', hbranch⟩
    cases Option.some.inj (hawaits.loadsTask.1.symm.trans htask'.1)
    rw [hawaits.free] at hbranch
    simp only [bind_returns, checkVersion_returns, raiseIf_returns, requireEffect_returns,
      insertRecoveryDisposition_returns, writeTask_returns, journalResolution_returns, pure_returns,
      writeResolution, writeConfirmation, query_returns, matchToolCall_returns, modify_returns,
      writeEffect_returns, existsAndEq, exists_const, true_and, and_assoc, not_or, not_not, ne_eq]
      at hbranch
    obtain ⟨-, -, effect', heffect', -, -, target, t, hvalid, hbranch⟩ := hbranch
    cases Option.some.inj (hawaits.loadsEffect.1.symm.trans heffect'.1)
    obtain ⟨hconfirms, rfl, rfl⟩ := (validateRecoveryResolution_confirms hawaits).mp hvalid
    obtain ⟨hsame, -, -, -, -, -, hjournal, -, rfl⟩ := hbranch
    exact ⟨⟨hconfirms, hsame⟩, (hcan _).mp hjournal, rfl⟩
  · rintro ⟨⟨hconfirms, hsame⟩, hjournal, rfl⟩
    refine ⟨task.recovered disposition.kind task.confirmedCondition, by simp, by simp, task,
      hawaits.loadsTask, ?_⟩
    rw [hawaits.free]
    have hvalid : (validateRecoveryResolution task effect disposition
        { confirmedCall := some call, confirmedResult := some result }).Returns s
          task.confirmedCondition s :=
      (validateRecoveryResolution_confirms hawaits).mpr ⟨hconfirms, rfl, rfl⟩
    simp only [bind_returns, checkVersion_returns, raiseIf_returns, requireEffect_returns,
      insertRecoveryDisposition_returns, writeTask_returns, journalResolution_returns, pure_returns,
      writeResolution, writeConfirmation, query_returns, matchToolCall_returns, modify_returns,
      writeEffect_returns, existsAndEq, exists_const, true_and, and_assoc, not_or, not_not, ne_eq]
    refine ⟨fun _ hversion => Option.some.inj hversion, hawaits.recovery, effect, hawaits.loadsEffect,
      hawaits.owner, hawaits.unknown, task.confirmedCondition, s, hvalid, hsame, ?_, ?_, ?_, ?_,
      htaskRow, (hcan _).mpr hjournal, rfl, rfl⟩
    · change s.effects.get? effect.id ≠ none
      rw [hrow]
      exact Option.some_ne_none _
    · exact hawaits.free
    · exact hthere _ rfl
    · rw [hawaits.plain]
      rfl

omit [Sha256] in
theorem sessionOf_resolution {t : Store} (hkind : disposition.kind = .confirmResult) :
    t.resolutionSession task disposition = t.sessionOf task := by
  simp [Store.resolutionSession, hkind]

/-- When a confirmation is accepted. -/
theorem confirmation_accepted_iff (hbook : s.Bookkept task)
    (hawaits : s.AwaitsConfirmation task effect disposition) :
    Call.Accepted s (.op ⟨now, .resolveRecovery disposition task.id task.version
        { confirmedCall := some call, confirmedResult := some result }⟩)
      ↔ s.TakesConfirmation effect call result ∧ s.Takes task [(disposition.entry task.id).id] := by
  have hrow : s.tasks.get? task.id = some task := hawaits.loadsTask.1
  have hsteady : ∀ id, ((s.confirmedRows now task effect disposition call result).tasks.get? id).isSome
      = (s.tasks.get? id).isSome := isSome_set hrow rfl
  have htakes : (s.confirmedRows now task effect disposition call result).Takes task
      [(disposition.entry task.id).id] ↔ s.Takes task [(disposition.entry task.id).id] :=
    takes_congr (s := s) (t := s.confirmedRows ..) rfl rfl hsteady
  have hentry : (disposition.entry task.id).Of task := ⟨rfl, by simp [RecoveryDisposition.entry]⟩
  have hrows : (s.confirmedRows now task effect disposition call result).Bookkept task :=
    hbook.of_writes rfl rfl hsteady
  have hsessions : ((s.confirmedRows now task effect disposition call result).journaledResolution now
      task disposition).sessions = ((s.confirmedRows now task effect disposition call
        result).journaledAll now task [disposition.entry task.id]).sessions := by
    rw [Store.journaledResolution_sessions, sessionOf_resolution hawaits.kind]
    rfl
  rw [← htakes]
  exact accepted_journalled hrows (List.forall_mem_singleton.mpr hentry) (List.cons_ne_nil _ _) rfl
    hsessions rfl fun s' => resolveRecovery_confirms_iff hawaits

/-- An accepted confirmation ends the effect by its result. -/
theorem confirmation_effect (hawaits : s.AwaitsConfirmation task effect disposition)
    (haccepted : Call.Accepted s (.op ⟨now, .resolveRecovery disposition task.id task.version
        { confirmedCall := some call, confirmedResult := some result }⟩)) :
    (callStep s (.op ⟨now, .resolveRecovery disposition task.id task.version
        { confirmedCall := some call, confirmedResult := some result }⟩)).effects.get? effect.id
      = some (effect.confirmed result disposition.evidence) := by
  have hid : effect.id = disposition.unknownEffectId := hawaits.loadsEffect.id_eq
  have hrow : s.effects.get? (effect.confirmed result disposition.evidence).id = some effect :=
    hid ▸ hawaits.loadsEffect.1
  rw [callStep_journalled (fun _ => resolveRecovery_confirms_iff hawaits) haccepted]
  exact Table.get?_set_self hrow

end Accepted

/-! ### Effects of a response -/

section Response

variable [Sha256] [Uuid5]

/-- An effect as `persist_model_response_batch` makes it for one call: the fingerprint is that of its own
arguments, and it has no credentials. -/
structure Effect.AsNormalized (effect : Effect) (taskId : String) : Prop where
  taskId : effect.taskId = taskId
  fingerprint : effect.argumentsFingerprint = Effect.argumentsDigest effect.argumentsSummary
  plain : effect.credentialBindings = []

theorem prepareEffect_normalized {gateway : ToolGateway} {context : ToolContext} {files : Files}
    {taskId : String} {step : AgentStep} {batch : Batch} {call : ToolCall}
    (hbatch : ∀ effect ∈ batch.effects, effect.AsNormalized taskId) :
    ∀ effect ∈ (prepareEffect gateway context files taskId step batch call).effects,
      effect.AsNormalized taskId := by
  unfold prepareEffect
  dsimp only
  intro effect hmem
  split at hmem
  · rcases List.mem_append.mp hmem with hold | hnew
    · exact hbatch effect hold
    · rw [List.mem_singleton] at hnew
      subst hnew
      exact ⟨rfl, rfl, rfl⟩
  · rcases List.mem_append.mp hmem with hold | hnew
    · exact hbatch effect hold
    · rw [List.mem_singleton] at hnew
      subst hnew
      exact ⟨rfl, rfl, rfl⟩
  · rcases List.mem_append.mp hmem with hold | hnew
    · exact hbatch effect hold
    · rw [List.mem_singleton] at hnew
      subst hnew
      exact ⟨rfl, rfl, rfl⟩

theorem persistModelResponseBatch_normalized {gateway : ToolGateway} {context : ToolContext}
    {files : Files} {taskId : String} {step : AgentStep} {response : ModelResponse} :
    ∀ effect ∈ (persistModelResponseBatch gateway context files taskId step response).2.1,
      effect.AsNormalized taskId := by
  have hfold : ∀ (calls : List ToolCall) (batch : Batch),
      (∀ effect ∈ batch.effects, effect.AsNormalized taskId) →
        ∀ effect ∈ (calls.foldl (prepareEffect gateway context files taskId step) batch).effects,
          effect.AsNormalized taskId := by
    intro calls
    induction calls with
    | nil => exact fun batch hbatch => hbatch
    | cons call rest ih => exact fun batch hbatch => ih _ (prepareEffect_normalized hbatch)
  exact hfold response.toolCalls _ fun effect hmem => absurd hmem List.not_mem_nil

variable [Redactor]

omit [Uuid5] in
/-- What the store keeps of the call of such an effect. -/
theorem persisted_sameCall {effect stored : Effect} {taskId : String}
    (hnormalized : effect.AsNormalized taskId) (hstored : effect.persisted = some stored) :
    stored.SameCall { effect with
      providerCallId := Redactor.redactText effect.providerCallId
      toolName := Redactor.redactText effect.toolName
      argumentsSummary := effect.argumentsSummary.redact.redact } := by
  rw [Effect.persisted, hnormalized.plain] at hstored
  cases hstored
  exact ⟨rfl, rfl, rfl, rfl, rfl, rfl⟩

end Response

/-! ### Confirmations -/

section Service

variable [Redactor]

/-- The fields that `RecoveryDisposition` constrains. -/
def RecoveryDisposition.FieldsValid (disposition : RecoveryDisposition) : Prop :=
  disposition.decisionSource ≠ "" ∧ disposition.decisionSource.length ≤ 256

/-- The disposition that `RecoveryService.confirm_result` makes, with its new id. -/
def confirmation (now : Timestamp) (id unknownEffectId : String) (evidence : Json)
    (decisionSource : String) : RecoveryDisposition where
  id := id
  unknownEffectId := unknownEffectId
  kind := .confirmResult
  evidence := evidence
  decisionSource := decisionSource
  createdAt := now

/-- The call and the result that `confirm_persisted_result` makes from the row of the effect. -/
def Effect.confirmedCall (effect : Effect) : ToolCall where
  id := effect.providerCallId
  name := effect.toolName
  arguments := effect.argumentsSummary

def Effect.confirmedResult (effect : Effect) (success : Bool) (output : String) : ToolResult where
  callId := effect.providerCallId
  toolName := effect.toolName
  success := success
  output := output

/-- `RecoveryService.confirm_persisted_result`, for the task and the effect that it has read. -/
def confirmCall (task : Task) (effect : Effect) (success : Bool) (output : String)
    (disposition : RecoveryDisposition) : Call :=
  .op ⟨disposition.createdAt, .resolveRecovery disposition.redact task.id task.version {
    confirmedCall := some effect.confirmedCall.redact
    confirmedResult := some (effect.confirmedResult success output).redact }⟩

/-- The confirmation is accepted, and the effect ends by the stated result. -/
def Store.Confirms [Sha256] (s : Store) (task : Task) (effect : Effect) (success : Bool)
    (output : String) (disposition : RecoveryDisposition) : Prop :=
  disposition.FieldsValid ∧ disposition.redact.FieldsValid
    ∧ (confirmCall task effect success output disposition).Accepted s
    ∧ ∃ row, (callStep s (confirmCall task effect success output disposition)).effects.get? effect.id
        = some row ∧ row.status = if success then .succeeded else .failed

/-- What a confirmation of an effect needs, in terms of the effect as it was prepared: the redactor leaves
the digest of the normalized arguments, and a call id and a tool name that it has been through; no other
call or result is stored under the call id; and the journal takes the entry. -/
structure Store.Confirmable [Sha256] (s : Store) (task : Task) (prepared effect : Effect)
    (success : Bool) (output : String) (disposition : RecoveryDisposition) : Prop where
  arguments : Effect.argumentsDigest prepared.argumentsSummary.redact.redact.redact
    = Effect.argumentsDigest prepared.argumentsSummary
  callId : Redactor.redactText (Redactor.redactText prepared.providerCallId)
    = Redactor.redactText prepared.providerCallId
  toolName : Redactor.redactText (Redactor.redactText prepared.toolName)
    = Redactor.redactText prepared.toolName
  observation : ∀ row ∈ s.toolCalls.get? (task.id, Redactor.redactText prepared.providerCallId),
    row.call = effect.confirmedCall.redact
      ∧ row.result = (effect.confirmedResult success output).redact
  fields : disposition.FieldsValid ∧ disposition.redact.FieldsValid
  journal : s.Takes task [(disposition.redact.entry task.id).id]

omit [Redactor] in
theorem Store.dispositionByIdOrEffect_none {s : Store} {id effectId : String}
    (hid : s.recoveryDispositions.get? id = none) (heffect : s.dispositionOfEffect effectId = none) :
    s.dispositionByIdOrEffect id effectId = none := by
  rw [Store.dispositionByIdOrEffect, hid, heffect]
  rfl

theorem isEmptyObject_redact (evidence : Json) : evidence.redact.isEmptyObject = evidence.isEmptyObject := by
  cases evidence with
  | obj fields => cases fields <;> rfl
  | _ => rfl

end Service

section Runs

variable [Sha256] [Uuid5] [Redactor]

omit [Uuid5] in
/-- The checks of a confirmation, for an effect whose row is still about the call it was prepared for. -/
theorem takesConfirmation_iff {s : Store} {taskId : String} {prepared effect : Effect} {success : Bool}
    {output : String} (hdigest : ∀ text, Sha256.hexdigest text ≠ "")
    (hnormalized : prepared.AsNormalized taskId)
    (hsame : effect.SameCall { prepared with
      providerCallId := Redactor.redactText prepared.providerCallId
      toolName := Redactor.redactText prepared.toolName
      argumentsSummary := prepared.argumentsSummary.redact.redact }) :
    s.TakesConfirmation effect effect.confirmedCall.redact
        (effect.confirmedResult success output).redact
      ↔ Effect.argumentsDigest prepared.argumentsSummary.redact.redact.redact
          = Effect.argumentsDigest prepared.argumentsSummary
        ∧ Redactor.redactText (Redactor.redactText prepared.providerCallId)
          = Redactor.redactText prepared.providerCallId
        ∧ Redactor.redactText (Redactor.redactText prepared.toolName)
          = Redactor.redactText prepared.toolName
        ∧ ∀ row ∈ s.toolCalls.get? (taskId, Redactor.redactText prepared.providerCallId),
          row.call = effect.confirmedCall.redact
            ∧ row.result = (effect.confirmedResult success output).redact := by
  have htask : effect.taskId = taskId := hsame.taskId.trans hnormalized.taskId
  have hcall : effect.providerCallId = Redactor.redactText prepared.providerCallId :=
    hsame.providerCallId
  have htool : effect.toolName = Redactor.redactText prepared.toolName := hsame.toolName
  have harguments : effect.argumentsSummary = prepared.argumentsSummary.redact.redact :=
    hsame.arguments
  have heffective : effect.effectiveFingerprint
      = Effect.argumentsDigest prepared.argumentsSummary := by
    have hrecorded : effect.argumentsFingerprint
        = Effect.argumentsDigest prepared.argumentsSummary :=
      hsame.fingerprint.trans hnormalized.fingerprint
    have hsome : Effect.argumentsDigest prepared.argumentsSummary ≠ "" := hdigest _
    rw [Effect.effectiveFingerprint, hrecorded, if_neg hsome]
  have hredacted : effect.confirmedCall.redact
      = { id := Redactor.redactText (Redactor.redactText prepared.providerCallId)
          name := Redactor.redactText (Redactor.redactText prepared.toolName)
          arguments := prepared.argumentsSummary.redact.redact.redact } := by
    rw [Effect.confirmedCall, hcall, htool, harguments]
    rfl
  constructor
  · rintro ⟨⟨hcallId, hname, hdigests, -, -⟩, hrow⟩
    rw [htask, hcallId, hcall] at hrow
    rw [hredacted, hcall] at hcallId
    rw [hredacted, htool] at hname
    rw [hredacted, heffective] at hdigests
    exact ⟨hdigests, hcallId, hname, hrow⟩
  · rintro ⟨hdigests, hcallId, hname, hrow⟩
    have hid : effect.confirmedCall.redact.id = effect.providerCallId := by
      rw [hredacted, hcall]
      exact hcallId
    refine ⟨⟨hid, ?_, ?_, rfl, rfl⟩, ?_⟩
    · rw [hredacted, htool]
      exact hname
    · rw [hredacted, heffective]
      exact hdigests
    · rw [hid, htask, hcall]
      exact hrow

/-- The call inserts the effect, as one of those that a response asks for. -/
structure Store.Prepares (s : Store) (batch : Call) (taskId : String) (prepared stored : Effect) :
    Prop where
  made : ∃ (gateway : ToolGateway) (context : ToolContext) (files : Files) (step : AgentStep)
    (response : ModelResponse) (persisted : List Effect) (preparedAt : Timestamp) (version : Nat)
    (guard : Option LeaseGuard),
      let made := persistModelResponseBatch gateway context files taskId step response
      prepared ∈ made.2.1 ∧ made.2.1.mapM Effect.persisted = some persisted
        ∧ batch = .op ⟨preparedAt, .prepareEffectBatch made.1.redact persisted version guard⟩
  kept : prepared.persisted = some stored
  accepted : batch.Accepted s
  fresh : s.effectByIdOrIdentity stored = none

/-- The effect is unknown and has no disposition, and its task is in recovery. -/
structure Store.Unresolved (s : Store) (task : Task) (effect : Effect) : Prop where
  loadsEffect : s.LoadsEffect effect.id effect
  unknown : effect.status = .unknown
  undisposed : s.dispositionOfEffect effect.id = none
  loadsTask : s.LoadsTask task.id task
  recovery : task.runtimeCondition = .recoveryRequired

/-- The prepared effect has its row, which is about the call of the response as the redactor leaves it. -/
theorem Store.Prepares.row {s : Store} {batch : Call} {taskId : String} {prepared stored : Effect}
    (hprepares : s.Prepares batch taskId prepared stored) :
    (callStep s batch).effects.get? stored.id = some stored
      ∧ prepared.AsNormalized taskId := by
  obtain ⟨gateway, context, files, step, response, persisted, preparedAt, version, guard, hmem,
    hpersisted, rfl⟩ := hprepares.made
  obtain ⟨result, hreturns⟩ :=
    discard_returns.mp (callOp_returns.mp (callAccepted_iff.mp hprepares.accepted)).1
  refine ⟨?_, persistModelResponseBatch_normalized prepared hmem⟩
  obtain ⟨other, hother, hsame⟩ := Sequence.exists_of_forall₂ (Sequence.forall₂_of_mapM_some hpersisted) hmem
  rw [hprepares.kept] at hsame
  exact prepareEffectBatch_row hreturns (Option.some.inj hsame ▸ hother) hprepares.fresh

/-- An effect is prepared from a response, and is unknown later. Its result can be confirmed exactly where
the redactor leaves the digest of the normalized arguments, the call id and the tool name, no other result
is stored for the call, the source of the decision keeps its length, and the journal takes the entry. -/
theorem confirmation_accepted {s : Store} (hinitial : s.Initial)
    (hdigest : ∀ text, Sha256.hexdigest text ≠ "") {earlier later : List Call} {batch : Call}
    {prepared stored unknown : Effect} {task : Task}
    (hprepares : (runCalls s earlier).Prepares batch task.id prepared stored)
    (hspares : ∀ call ∈ later, call.Spares prepared.id task.id) (hid : unknown.id = prepared.id)
    (hunresolved : (runCalls s (earlier ++ batch :: later)).Unresolved task unknown)
    {id : String} (hfresh : (runCalls s (earlier ++ batch :: later)).recoveryDispositions.get? id = none)
    {evidence : Json} (hevidence : evidence.isEmptyObject = false) (confirmedAt : Timestamp)
    (decisionSource output : String) (success : Bool) :
    (runCalls s (earlier ++ batch :: later)).Confirms task unknown success output
        (confirmation confirmedAt id unknown.id evidence decisionSource)
      ↔ (runCalls s (earlier ++ batch :: later)).Confirmable task prepared unknown success output
        (confirmation confirmedAt id unknown.id evidence decisionSource) := by
  obtain ⟨hrow, hnormalized⟩ := hprepares.row
  have hstored := persisted_sameCall hnormalized hprepares.kept
  have hstoredId : stored.id = prepared.id := hstored.id
  have hstoredTask : stored.taskId = task.id := hstored.taskId.trans hnormalized.taskId
  rw [← hstoredId, ← hstoredTask] at hspares
  -- The row is still about the call that it was prepared for.
  obtain ⟨row, hrow', hsame⟩ := sameCall_run hspares hrow
  have hcounted : (runCalls s (earlier ++ batch :: later)).JournalCounted :=
    Run.preserved_after Store.JournalCounted (fun _ _ => journalCounted_callStep) _
      (journalCounted_initial hinitial)
  have hbound : (runCalls s (earlier ++ batch :: later)).TasksBound :=
    Run.preserved_after Store.TasksBound (fun _ _ => tasksBound_callStep) _
      (tasksBound_initial hinitial)
  have hfinal : runCalls (callStep (runCalls s earlier) batch) later
      = runCalls s (earlier ++ batch :: later) := (runCalls_append s earlier (batch :: later)).symm
  rw [hfinal, hstoredId, ← hid] at hrow'
  generalize runCalls s (earlier ++ batch :: later) = final at hunresolved hfresh hcounted hbound hrow' ⊢
  obtain ⟨hunknown, hstatus, hundisposed, htask, hrecovery⟩ := hunresolved
  cases Option.some.inj (hunknown.1.symm.trans hrow')
  have hcall := hsame.trans hstored
  have hbook : final.Bookkept task := by
    refine ⟨hcounted, hbound task (Table.mem_of_get? htask.1), ?_⟩
    rw [Store.HasTask, Option.all_some, htask.1]
    rfl
  have hawaits : final.AwaitsConfirmation task unknown
      (confirmation confirmedAt id unknown.id evidence decisionSource).redact := by
    refine ⟨htask, hrecovery, hunknown, ?_, hstatus, ?_, rfl, rfl, ?_⟩
    · exact hcall.taskId.trans hnormalized.taskId
    · exact Store.dispositionByIdOrEffect_none hfresh hundisposed
    · exact (isEmptyObject_redact evidence).trans hevidence
  have hchecks : final.TakesConfirmation unknown unknown.confirmedCall.redact
      (unknown.confirmedResult success output).redact ↔ _ :=
    takesConfirmation_iff hdigest hnormalized hcall
  have haccepted : (confirmCall task unknown success output
      (confirmation confirmedAt id unknown.id evidence decisionSource)).Accepted final ↔ _ :=
    confirmation_accepted_iff hbook hawaits
  rw [hchecks] at haccepted
  constructor
  · rintro ⟨hfields, hredacted, hconfirmed, -⟩
    obtain ⟨⟨harguments, hcallId, htoolName, hobservation⟩, hjournal⟩ := haccepted.mp hconfirmed
    exact ⟨harguments, hcallId, htoolName, hobservation, ⟨hfields, hredacted⟩, hjournal⟩
  · rintro ⟨harguments, hcallId, htoolName, hobservation, ⟨hfields, hredacted⟩, hjournal⟩
    have hconfirmed := haccepted.mpr ⟨⟨harguments, hcallId, htoolName, hobservation⟩, hjournal⟩
    exact ⟨hfields, hredacted, hconfirmed, _, confirmation_effect hawaits hconfirmed, rfl⟩

end Runs

section Samples

local instance confirmationDigest : Sha256 := Sample.digest
local instance confirmationUuid : Uuid5 := Sample.uuid5

namespace Sample

/-- A redactor that hides passwords. -/
@[reducible] def passwords : Redactor := ⟨id, (· = "password")⟩

/-- A gateway whose tool signs in. -/
def signInGateway : ToolGateway where
  tools := [{ name := "sign_in", backend := .other fun _ files _ _ => (.ok "", files) }]
  policy := {}
  resolvePath := .ok

def signInStep : AgentStep where
  id := "step"
  taskId := "a"
  index := 0

def signIn : ModelResponse where
  toolCalls := [{ id := "c", name := "sign_in", arguments := .obj [("password", .str "secret")] }]

def signInBatch : AgentStep × List Effect × ToolContext :=
  persistModelResponseBatch signInGateway {} (fun _ => none) "a" signInStep signIn

def signInEffect : Effect :=
  signInBatch.2.1.head (by decide +kernel)

def signInCalls : List Call :=
  (started "s" "a" "x" 100).map .op

variable [Redactor]

def signInStored : Effect := signInEffect.persisted.getD signInEffect

/-- The effect of the call is prepared, claimed, and then unknown. -/
def signInPrepared : Call :=
  .op ⟨1, .prepareEffectBatch signInBatch.1.redact [signInStored] 2 (some (guard "x" "a"))⟩

def signInLost : List Call :=
  [.op ⟨2, .claimEffect signInEffect.id 1 (guard "x" "a") {}⟩,
    .op ⟨3, .markEffectUnknown signInEffect.id 2 (.obj []) (guard "x" "a")⟩]

def signInUnknown : Effect :=
  { signInStored with status := .unknown, version := 3 }

def recoveringTask : Task :=
  { task "a" with sessionId := some "s", runtimeCondition := .recoveryRequired, version := 3 }

/-- What an operator has seen of the call. -/
def seen : RecoveryDisposition :=
  confirmation 4 "d" signInEffect.id (.obj [("seen", .str "by the operator")]) "operator"

end Sample

end Samples

section Samples

local instance seenDigest : Sha256 := Sample.digest
local instance seenUuid : Uuid5 := Sample.uuid5
local instance seenRedactor : Redactor := Sample.redactor

theorem confirmation_accepted_seen :
    (runCalls {} (Sample.signInCalls ++ Sample.signInPrepared :: Sample.signInLost)).Confirms
      Sample.recoveringTask Sample.signInUnknown true "signed in" Sample.seen := by
  have hdigest : ∀ text, Sha256.hexdigest text ≠ "" := by
    intro text hempty
    have hparts := String.append_eq_empty_iff.mp hempty
    exact absurd (String.append_eq_empty_iff.mp hparts.1).1 (by decide)
  have hprepares : (runCalls {} Sample.signInCalls).Prepares Sample.signInPrepared
      Sample.recoveringTask.id Sample.signInEffect Sample.signInStored := by
    refine ⟨⟨Sample.signInGateway, {}, fun _ => none, Sample.signInStep, Sample.signIn,
      [Sample.signInStored], 1, 2, some (Sample.guard "x" "a"), ?_, ?_, rfl⟩, ?_, ?_, ?_⟩
    · exact List.head_mem _
    all_goals decide +kernel
  have hspares : ∀ call ∈ Sample.signInLost,
      call.Spares Sample.signInEffect.id Sample.recoveringTask.id := by
    simp [Sample.signInLost, Call.Spares]
  have hunresolved :
      (runCalls {} (Sample.signInCalls ++ Sample.signInPrepared :: Sample.signInLost)).Unresolved
        Sample.recoveringTask Sample.signInUnknown := by
    refine ⟨⟨?_, ?_⟩, ?_, ?_, ⟨?_, ?_⟩, ?_⟩ <;> decide +kernel
  have hsession :
      (runCalls {} (Sample.signInCalls ++ Sample.signInPrepared :: Sample.signInLost)).sessionOf
          Sample.recoveringTask
        = some { Sample.session "s" with
          activeTaskId := some "a", version := 2, eventSequence := 6 } := by decide +kernel
  have hid : Sample.signInUnknown.id = Sample.signInEffect.id := rfl
  have hfresh :
      (runCalls {} (Sample.signInCalls ++ Sample.signInPrepared :: Sample.signInLost)).recoveryDispositions.get? "d"
        = none := by decide +kernel
  refine (confirmation_accepted (Or.inl rfl) hdigest hprepares hspares hid hunresolved hfresh rfl 4
    "operator" "signed in" true).mpr ⟨?_, rfl, rfl, ?_, ?_, ?_⟩
  · decide +kernel
  · decide +kernel
  · refine ⟨⟨?_, ?_⟩, ?_, ?_⟩ <;> decide +kernel
  · intro session hother
    cases Option.some.inj (hsession.symm.trans hother)
    refine ⟨?_, ?_, ?_⟩ <;> decide +kernel

end Samples

section Samples

local instance hiddenDigest : Sha256 := Sample.digest
local instance hiddenUuid : Uuid5 := Sample.uuid5
local instance hiddenRedactor : Redactor := Sample.passwords

/-- The redactor hides an argument of the call, and its result can never be confirmed. -/
theorem hidden_argument_not_confirmed :
    (runCalls {} Sample.signInCalls).Prepares Sample.signInPrepared "a" Sample.signInEffect
        Sample.signInStored
      ∧ (∀ call ∈ Sample.signInLost, call.Spares Sample.signInEffect.id "a")
      ∧ (runCalls {} (Sample.signInCalls ++ Sample.signInPrepared :: Sample.signInLost)).Unresolved
        Sample.recoveringTask Sample.signInUnknown
      ∧ ¬ (runCalls {} (Sample.signInCalls ++ Sample.signInPrepared :: Sample.signInLost)).Confirms
        Sample.recoveringTask Sample.signInUnknown true "signed in" Sample.seen := by
  refine ⟨?_, ?_, ?_, ?_⟩
  · refine ⟨⟨Sample.signInGateway, {}, fun _ => none, Sample.signInStep, Sample.signIn,
      [Sample.signInStored], 1, 2, some (Sample.guard "x" "a"), ?_, ?_, rfl⟩, ?_, ?_, ?_⟩
    · exact List.head_mem _
    all_goals decide +kernel
  · simp [Sample.signInLost, Call.Spares]
  · refine ⟨⟨?_, ?_⟩, ?_, ?_, ⟨?_, ?_⟩, ?_⟩ <;> decide +kernel
  · rintro ⟨-, -, hconfirmed, -⟩
    exact absurd hconfirmed (by decide +kernel)

end Samples

end PatchLoop
