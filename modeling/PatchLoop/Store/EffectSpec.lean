import PatchLoop.Store.Journal

/-!
# What the effect operations do

For each operation on effects and approvals, the checks it has passed when it returns and the
database it leaves. Later proofs use these facts and never unfold an operation.
-/

namespace PatchLoop

open Transaction

variable [Sha256] {s s' : Store} {now : Timestamp}

/-! ### Preparation -/

omit [Sha256] in
@[simp] theorem validateEffect_returns {effect : Effect} {u : Unit} :
    (validateEffect effect).Returns s u s' ↔ effect.Valid ∧ s' = s := by
  simp [validateEffect]

@[simp] theorem assertIdentityCompatible_returns {effect other : Effect} {u : Unit} :
    (assertIdentityCompatible effect other).Returns s u s'
      ↔ effect.IdentityCompatible other ∧ s' = s := by
  simp [assertIdentityCompatible]

omit [Sha256] in
@[simp] theorem validateEffects_returns {effects : List Effect} {u : PUnit} :
    (effects.forM validateEffect).Returns s u s' ↔ (∀ effect ∈ effects, effect.Valid) ∧ s' = s := by
  induction effects generalizing s with
  | nil => simp
  | cons effect rest ih =>
      have hcons : (effect :: rest).forM validateEffect
          = (validateEffect effect >>= fun _ => rest.forM validateEffect) := rfl
      rw [hcons, bind_returns]
      simp only [validateEffect_returns, ih, List.forall_mem_cons, exists_const]
      constructor
      · rintro ⟨_, ⟨heffect, rfl⟩, hrest, rfl⟩
        exact ⟨⟨heffect, hrest⟩, rfl⟩
      · rintro ⟨⟨heffect, hrest⟩, rfl⟩
        exact ⟨_, ⟨heffect, rfl⟩, hrest, rfl⟩

omit [Sha256] in
@[simp] theorem validateRetryEffect_returns {row : Option Effect} {u : PUnit} :
    (row.forM validateEffect).Returns s u s' ↔ (∀ effect ∈ row, effect.Valid) ∧ s' = s := by
  cases row with
  | none => simp [Option.forM]
  | some effect => simp [Option.forM]

/-- The split of a batch reads only. Its new effects are effects of the batch that the table does
not hold, neither under their id nor under their identity. -/
theorem splitPrepared_returns {pending : List Effect → Effect → Option Effect}
    {effects prepared newEffects : List Effect} {result : List Effect × List Effect}
    (hreturns : (splitPrepared pending effects prepared newEffects).Returns s result s') :
    s' = s ∧ ∀ effect ∈ result.2, effect ∈ newEffects
      ∨ effect ∈ effects ∧ s.effectByIdOrIdentity effect = none := by
  induction effects generalizing prepared newEffects with
  | nil =>
      obtain ⟨rfl, rfl⟩ := pure_returns.mp hreturns
      exact ⟨rfl, fun effect hmem => Or.inl hmem⟩
  | cons effect rest ih =>
      simp only [splitPrepared, bind_returns, query_returns] at hreturns
      obtain ⟨_, _, ⟨rfl, rfl⟩, hbranch⟩ := hreturns
      split at hbranch
      · simp only [bind_returns, validateEffect_returns, assertIdentityCompatible_returns]
          at hbranch
        obtain ⟨_, _, ⟨-, rfl⟩, _, _, ⟨-, rfl⟩, hrest⟩ := hbranch
        obtain ⟨hstate, hnew⟩ := ih hrest
        refine ⟨hstate, fun candidate hmem => (hnew candidate hmem).imp_right ?_⟩
        exact fun h => ⟨List.mem_cons_of_mem _ h.1, h.2⟩
      · rename_i hnone
        obtain ⟨hstate, hnew⟩ := ih hbranch
        refine ⟨hstate, fun candidate hmem => ?_⟩
        rcases hnew candidate hmem with hold | ⟨hrest, hfree⟩
        · rcases List.mem_append.mp hold with hold | hself
          · exact Or.inl hold
          · rw [List.mem_singleton] at hself
            subst hself
            exact Or.inr ⟨List.mem_cons_self, (Option.or_eq_none_iff.mp hnone).1⟩
        · exact Or.inr ⟨List.mem_cons_of_mem _ hrest, hfree⟩

/-- What a batch of effects finds: its task, with a guard when the task is session-bound. -/
structure Store.PreparesEffects (s : Store) (now : Timestamp) (effects : List Effect)
    (guard : Option LeaseGuard) (task : Task) : Prop where
  loadsTask : s.LoadsTask task.id task
  guards : s.GuardsTask now task guard
  owner : ∀ effect ∈ effects, effect.taskId = task.id
  valid : ∀ effect ∈ effects, effect.Valid

/-- A batch that is there already, or an empty one, changes nothing. -/
theorem prepareEffects_returns {effects : List Effect} {version : Nat}
    {guard : Option LeaseGuard} {result : List Effect}
    (hreturns : (prepareEffects now effects version guard).Returns s result s') :
    (effects = [] ∧ s' = s) ∨ ∃ task newEffects,
      s.PreparesEffects now effects guard task
        ∧ (∀ effect ∈ newEffects, effect ∈ effects ∧ s.effectByIdOrIdentity effect = none)
        ∧ (s' = s ∨ task.version = version ∧ s.FreshEffects newEffects
          ∧ (s.addEffects newEffects).CanJournalFor task (preparedEntry task.id newEffects [])
          ∧ s' = (s.addEffects newEffects).journaledFor now task
            (preparedEntry task.id newEffects [])) := by
  unfold prepareEffects at hreturns
  split at hreturns
  · exact Or.inl ⟨rfl, (pure_returns.mp hreturns).2⟩
  · rename_i first rest
    simp only [bind_returns, validateEffects_returns, raiseIf_returns, requireTask_returns,
      assertTaskGuard_returns, ite_returns, pure_returns, checkVersion_returns,
      insertEffects_returns, journalTask_returns, existsAndEq, exists_const, true_and, and_assoc]
      at hreturns
    obtain ⟨hvalid, hsame, task, htask, hguard, ⟨prepared, newEffects⟩, _, hsplit, hrest⟩ :=
      hreturns
    obtain ⟨rfl, hnew⟩ := splitPrepared_returns hsplit
    have hid := htask.id_eq
    have howner : ∀ effect ∈ first :: rest, effect.taskId = task.id := by
      intro effect hmem
      by_contra hne
      exact hsame ⟨effect, hmem, by rwa [hid] at hne⟩
    refine Or.inr ⟨task, newEffects, ⟨by rw [hid]; exact htask, hguard, howner, hvalid⟩,
      fun effect hmem => (hnew effect hmem).resolve_left List.not_mem_nil, ?_⟩
    rcases hrest with ⟨-, -, rfl⟩ | ⟨-, hversion, hfresh, hjournal, -, rfl⟩
    · exact Or.inl rfl
    · exact Or.inr ⟨hversion version rfl, hfresh, hjournal, rfl⟩

theorem prepareEffectBatch_returns {step : AgentStep} {effects : List Effect} {version : Nat}
    {guard : Option LeaseGuard} {result : List Effect}
    (hreturns : (prepareEffectBatch now step effects version guard).Returns s result s') :
    ∃ task newEffects,
      s.LoadsTask step.taskId task ∧ s.GuardsLegacyWrite now step.taskId guard
        ∧ task.version = version ∧ step.Carries effects
        ∧ (s.upsertAgentStep step).FreshEffects newEffects
        ∧ (∀ effect ∈ newEffects, effect ∈ effects ∧ effect.Valid
          ∧ s.effectByIdOrIdentity effect = none)
        ∧ ((newEffects = [] ∧ s' = (s.upsertAgentStep step).addEffects newEffects)
          ∨ ((s.upsertAgentStep step).addEffects newEffects).CanJournalFor task
              (preparedEntry task.id newEffects [("step_id", .str step.id)])
            ∧ s' = ((s.upsertAgentStep step).addEffects newEffects).journaledFor now task
              (preparedEntry task.id newEffects [("step_id", .str step.id)])) := by
  simp only [prepareEffectBatch, bind_returns, raiseIf_returns, validateEffects_returns,
    requireTask_returns, assertLegacyWriteGuard_returns, checkVersion_returns, query_returns,
    modify_returns, insertEffects_returns, ite_returns, pure_returns, journalTask_returns,
    existsAndEq, exists_const, true_and, and_assoc, not_not] at hreturns
  obtain ⟨-, -, hcarries, hvalid, task, htask, hguard, hversion, -, ⟨prepared, newEffects⟩, _,
    hsplit, hfresh, hrest⟩ := hreturns
  obtain ⟨rfl, hnew⟩ := splitPrepared_returns hsplit
  refine ⟨task, newEffects, htask, hguard, by simpa using hversion, hcarries, hfresh, ?_, ?_⟩
  · intro effect hmem
    obtain ⟨hold, hnone⟩ := (hnew effect hmem).resolve_left List.not_mem_nil
    exact ⟨hold, hvalid effect hold, hnone⟩
  rcases hrest with ⟨hempty, -, rfl⟩ | ⟨-, hjournal, -, rfl⟩
  · exact Or.inl ⟨hempty, rfl⟩
  · exact Or.inr ⟨hjournal, rfl⟩

/-- What stands already comes first, else the effect itself. -/
theorem splitPrepared_prepared {effects prepared newEffects : List Effect}
    {result : List Effect × List Effect}
    (hreturns : (splitPrepared (fun _ _ => none) effects prepared newEffects).Returns s result s') :
    result.1 = prepared ++ effects.map fun effect => (s.effectByIdOrIdentity effect).getD effect := by
  induction effects generalizing prepared newEffects with
  | nil =>
      obtain ⟨rfl, -⟩ := pure_returns.mp hreturns
      simp
  | cons effect rest ih =>
      simp only [splitPrepared, bind_returns, query_returns, Option.or_none] at hreturns
      obtain ⟨_, _, ⟨rfl, rfl⟩, hbranch⟩ := hreturns
      split at hbranch
      · rename_i known hknown
        simp only [bind_returns, validateEffect_returns, assertIdentityCompatible_returns]
          at hbranch
        obtain ⟨_, _, ⟨-, rfl⟩, _, _, ⟨-, rfl⟩, hrest⟩ := hbranch
        rw [ih hrest, List.map_cons, hknown, List.append_assoc]
        rfl
      · rename_i hnone
        rw [ih hbranch, List.map_cons, hnone, List.append_assoc]
        rfl

/-- The effects of a batch as they stand after it. -/
theorem prepareEffectBatch_result {step : AgentStep} {effects : List Effect} {version : Nat}
    {guard : Option LeaseGuard} {result : List Effect}
    (hreturns : (prepareEffectBatch now step effects version guard).Returns s result s') :
    result = effects.map fun effect => (s.effectByIdOrIdentity effect).getD effect := by
  simp only [prepareEffectBatch, bind_returns, raiseIf_returns, validateEffects_returns,
    requireTask_returns, assertLegacyWriteGuard_returns, checkVersion_returns, query_returns,
    modify_returns, insertEffects_returns, ite_returns, pure_returns, journalTask_returns,
    existsAndEq, exists_const, true_and, and_assoc, not_not] at hreturns
  obtain ⟨-, -, -, -, task, -, -, -, -, ⟨prepared, newEffects⟩, _, hsplit, -, hrest⟩ := hreturns
  rcases hrest with ⟨-, rfl, -⟩ | ⟨-, -, rfl, -⟩
  · exact splitPrepared_prepared hsplit
  · exact splitPrepared_prepared hsplit

/-! ### Approvals -/

omit [Sha256] in
@[simp] theorem validateApproval_returns {approval : Approval} {u : Unit} :
    (validateApproval approval).Returns s u s' ↔ approval.Valid ∧ s' = s := by
  simp [validateApproval]

omit [Sha256] in
@[simp] theorem validateApprovals_returns {row : Option Approval} {u : PUnit} :
    (row.forM validateApproval).Returns s u s' ↔ (∀ approval ∈ row, approval.Valid) ∧ s' = s := by
  cases row with
  | none => simp [Option.forM]
  | some approval => simp [Option.forM]

/-- A decision inserts the first approval of an effect, or decides its pending one. -/
theorem decideApproval_returns {approval result : Approval} {version : Option Nat}
    (hreturns : (decideApproval now approval version).Returns s result s') :
    s' = s
      ∨ (s.approvals.get? approval.id = none ∧ s.approvalOfEffect approval.effectId = none
        ∧ s.HasEffect (some approval.effectId)
        ∧ (s.addApproval approval).CanJournalApproval approval "approval.requested"
        ∧ s' = (s.addApproval approval).journaledApproval now approval "approval.requested")
      ∨ ∃ existing, s.approvalOfEffect approval.effectId = some existing
        ∧ existing.id = approval.id ∧ existing.status = .pending
        ∧ approval.status ∈ [ApprovalStatus.approved, .denied, .expired]
        ∧ s.approvals.get? approval.id ≠ none
        ∧ (s.putApproval approval).CanJournalApproval approval "approval.decided"
        ∧ s' = (s.putApproval approval).journaledApproval now approval "approval.decided" := by
  simp only [decideApproval, bind_returns, validateApproval_returns, requireEffect_returns,
    query_returns, existsAndEq, exists_const, true_and, and_assoc] at hreturns
  obtain ⟨-, _, -, hbranch⟩ := hreturns
  split at hbranch
  · simp only [bind_returns, insertApproval_returns, journalApproval_returns, pure_returns,
      existsAndEq, exists_const, true_and, and_assoc] at hbranch
    obtain ⟨hid, heffect, hforeign, hjournal, -, rfl⟩ := hbranch
    exact Or.inr (Or.inl ⟨hid, heffect, hforeign, hjournal, rfl⟩)
  · rename_i existing hexisting
    simp only [bind_returns, validateApproval_returns, raiseIf_returns, ite_returns, pure_returns,
      checkVersion_returns, writeApproval_returns, journalApproval_returns, existsAndEq,
      exists_const, true_and, and_assoc, not_or, not_not] at hbranch
    rcases hbranch with ⟨-, hid, ⟨-, -, rfl⟩ | ⟨-, -, hpending, hstatus, -, hrow, hjournal, -,
      rfl⟩⟩
    · exact Or.inl rfl
    · exact Or.inr (Or.inr ⟨existing, hexisting, hid, hpending, hstatus, hrow, hjournal, rfl⟩)

/-- The checks that both branches of an approval request share. -/
structure Store.RequestsApproval (s : Store) (now : Timestamp) (effectId : String)
    (approval : Approval) (version : Nat) (guard : LeaseGuard) (execution : Execution)
    (current : Effect) (task : Task) : Prop where
  guards : s.Guards now guard execution
  loadsEffect : s.LoadsEffect effectId current
  owner : current.taskId = execution.taskId
  version_eq : current.version = version
  effectId_eq : approval.effectId = effectId
  loadsTask : s.LoadsTask current.taskId task

/-- A new request of a prepared effect leaves it waiting; a repeated one finds it waiting. Both
yield the execution and the task. -/
theorem requestEffectApproval_returns {effectId : String} {approval : Approval} {version : Nat}
    {guard : LeaseGuard} {result : Effect × Approval × Task}
    (hreturns : (requestEffectApproval now effectId approval version guard).Returns s result s') :
    ∃ execution current task,
      s.RequestsApproval now effectId approval version guard execution current task
        ∧ ((current.status = .waitingForApproval
            ∧ s' = (s.putExecution execution.waiting).putTask task.waiting)
          ∨ (current.status = .prepared ∧ approval.status = .pending
            ∧ s.approvals.get? approval.id = none ∧ s.approvalOfEffect effectId = none
            ∧ task.runtimeCondition = .running
            ∧ ((((s.putEffect (current.waiting approval.id)).addApproval approval).putExecution
                execution.waiting).putTask task.waiting).CanJournalApproval approval
                  "approval.requested"
            ∧ s' = ((((s.putEffect (current.waiting approval.id)).addApproval approval).putExecution
                execution.waiting).putTask task.waiting).journaledApproval now approval
                  "approval.requested")) := by
  simp only [requestEffectApproval, bind_returns, validateApproval_returns, assertGuard_returns,
    requireEffect_returns, raiseIf_returns, checkVersion_returns, ite_returns, query_returns,
    requireTask_returns, writeEffect_returns, insertApproval_returns, writeExecution_returns,
    writeTask_returns, journalApproval_returns, pure_returns, existsAndEq, exists_const, true_and,
    and_assoc, not_not, ne_eq] at hreturns
  obtain ⟨-, execution, hguard, current, heffect, howner, hversion, happroval, hbranch⟩ := hreturns
  have hversion : current.version = version := hversion version rfl
  rcases hbranch with ⟨hwaiting, hrepeat⟩ | ⟨-, hprepared, hpending, htaken, task, htask, hrunning,
    -, -, -, -, -, -, hjournal, -, rfl⟩
  · simp only [repeatEffectApproval, bind_returns, query_returns, validateApprovals_returns,
      existsAndEq, exists_const, true_and, and_assoc] at hrepeat
    obtain ⟨-, hmatch⟩ := hrepeat
    split at hmatch
    · exact absurd hmatch throw_returns
    · simp only [bind_returns, requireTask_returns, writeExecution_returns, writeTask_returns,
        pure_returns, existsAndEq, exists_const, true_and, and_assoc] at hmatch
      obtain ⟨task, htask, -, -, -, rfl⟩ := hmatch
      exact ⟨execution, current, task, ⟨hguard, heffect, howner, hversion, happroval, htask⟩,
        Or.inl ⟨hwaiting, rfl⟩⟩
  · simp only [Bool.or_eq_true, not_or, Option.isSome_iff_ne_none, not_not] at htaken
    exact ⟨execution, current, task, ⟨hguard, heffect, howner, hversion, happroval, htask⟩,
      Or.inr ⟨hprepared, hpending, htaken.1, htaken.2, hrunning, hjournal, rfl⟩⟩

/-- What the decision of a pending approval finds, and whether its binding still holds. -/
structure Store.ResolvesApproval (s : Store) (approvalId : String) (version : Nat)
    (workspaceRef policyVersion configVersion : String) (current : Approval) (effect : Effect)
    (task : Task) (actualConfig : String) : Prop where
  row : s.approvals.get? approvalId = some current
  pending : current.status = .pending
  version_eq : current.version = version
  loadsEffect : s.LoadsEffect current.effectId effect
  loadsTask : s.LoadsTask effect.taskId task
  config : (task.sessionId = none ∧ actualConfig = configVersion)
    ∨ ∃ session, s.sessionOf task = some session ∧ actualConfig = session.configVersion

omit [Sha256] in
@[simp] theorem actualConfigVersion_returns {task : Task} {default config : String} :
    (actualConfigVersion task default).Returns s config s'
      ↔ ((task.sessionId = none ∧ config = default)
        ∨ ∃ session, s.sessionOf task = some session ∧ config = session.configVersion)
        ∧ s' = s := by
  unfold actualConfigVersion Store.sessionOf
  cases task.sessionId with
  | none => simp
  | some sessionId =>
      simp only [bind_returns, requireSession_returns, pure_returns, Option.bind_some]
      constructor
      · rintro ⟨session, _, ⟨hsession, rfl⟩, rfl, rfl⟩
        exact ⟨Or.inr ⟨session, hsession, rfl⟩, rfl⟩
      · rintro ⟨⟨⟨⟩, -⟩ | ⟨session, hsession, rfl⟩, rfl⟩
        exact ⟨session, _, ⟨hsession, rfl⟩, rfl, rfl⟩

/-- The database that the decision of a pending approval leaves. -/
def Store.decided (s : Store) (now : Timestamp) (current : Approval) (effect : Effect) (task : Task)
    (bound approved : Bool) (source : String) : Store :=
  let decision := if bound then current.decided now approved source else current.expired now source
  let released := if bound then effect.resolved approved else effect.unbound
  (((s.putApproval decision).putEffect released).putTask task.resumed).journaledApproval now decision
    (if bound then "approval.decided" else "approval.expired")

/-- The entry of the decision can be journalled once its rows are written. -/
def Store.CanJournalDecision (s : Store) (now : Timestamp) (current : Approval) (effect : Effect)
    (task : Task) (bound approved : Bool) (source : String) : Prop :=
  let decision := if bound then current.decided now approved source else current.expired now source
  let released := if bound then effect.resolved approved else effect.unbound
  (((s.putApproval decision).putEffect released).putTask task.resumed).CanJournalApproval decision
    (if bound then "approval.decided" else "approval.expired")

/-- A repeated decision changes nothing. -/
theorem resolveEffectApproval_returns {approvalId : String} {approved : Bool} {source : String}
    {version : Nat} {workspaceRef policyVersion configVersion : String}
    {result : Approval × Effect × Task}
    (hreturns : (resolveEffectApproval now approvalId approved source version workspaceRef
      policyVersion configVersion).Returns s result s') :
    s' = s ∨ ∃ current effect task actualConfig,
      s.ResolvesApproval approvalId version workspaceRef policyVersion configVersion current effect
          task actualConfig
        ∧ s.CanJournalDecision now current effect task
          (current.Bound effect task actualConfig workspaceRef policyVersion configVersion)
          approved source
        ∧ s' = s.decided now current effect task
          (current.Bound effect task actualConfig workspaceRef policyVersion configVersion)
          approved source := by
  simp only [resolveEffectApproval, bind_returns, query_returns, requireApproval_returns,
    requireEffect_returns, requireTask_returns, ite_returns, repeatDecision, raiseIf_returns,
    checkVersion_returns, actualConfigVersion_returns, writeDecision, writeApproval_returns,
    writeEffect_returns, writeTask_returns, journalApproval_returns, pure_returns, existsAndEq,
    exists_const, true_and, and_assoc, not_not, ne_eq] at hreturns
  obtain ⟨current, hrow, -, effect, heffect, task, htask, hbranch⟩ := hreturns
  rcases hbranch with ⟨-, -, -, rfl⟩ | ⟨hpending, hversion, actualConfig, hconfig, -, -, -,
    hjournal, -, rfl⟩
  · exact Or.inl rfl
  · exact Or.inr ⟨current, effect, task, actualConfig, ⟨hrow, hpending, hversion version rfl, heffect,
      htask, hconfig⟩, hjournal, rfl⟩

/-! ### Claiming -/

omit [Sha256] in
@[simp] theorem checkInputSequence_returns {task : Task} {expected : Option Nat} {u : Unit} :
    (checkInputSequence task expected).Returns s u s'
      ↔ (∀ sessionId ∈ task.sessionId, ∀ sequence ∈ expected,
          s.lastTurnSequence sessionId = sequence) ∧ s' = s := by
  unfold checkInputSequence
  cases expected with
  | none => simp
  | some sequence =>
      cases task.sessionId with
      | none => simp
      | some sessionId => simp

omit [Sha256] in
/-- A condition on an optional argument holds where the argument is supplied. -/
theorem supplied_iff {α : Type} {P : α → Prop} [DecidablePred P] {value : Option α} :
    ¬ (value.any fun a => decide (¬ P a)) = true ↔ ∀ a ∈ value, P a := by
  cases value with
  | none => simp
  | some a => simp

/-- What a claim finds: a prepared effect that may run, and the task and the session it runs for. -/
structure Store.Claims (s : Store) (now : Timestamp) (effectId : String) (version : Nat)
    (guard : LeaseGuard) (conditions : ClaimConditions) (execution : Execution) (current : Effect)
    (task : Task) (actualConfig : String) : Prop where
  guards : s.Guards now guard execution
  loadsEffect : s.LoadsEffect effectId current
  version_eq : current.version = version
  prepared : current.status = .prepared
  loadsTask : s.LoadsTask current.taskId task
  uncontrolled : s.pendingControls task.id = []
  config : ∃ text, ((task.sessionId = none ∧ text = conditions.configVersion.getD "")
      ∨ ∃ session, s.sessionOf task = some session ∧ text = session.configVersion)
    ∧ actualConfig = suppliedOr (some text) "1"
  fingerprint : ∀ text ∈ conditions.effectFingerprint, current.contentFingerprint = text
  workspace : ∀ text ∈ conditions.workspaceRef, text = task.repository
  configVersion : ∀ text ∈ conditions.configVersion, text = actualConfig
  executable : current.preparationError = none ∧ current.persistedDecision ≠ "deny"
  decision : ∀ text ∈ conditions.policyDecision, text = current.persistedDecision

/-- The approval that a claim consumes, as it is before and after. -/
structure Store.Consumes (s : Store) (current : Effect) (task : Task) (actualConfig : String)
    (conditions : ClaimConditions) (approval : Approval) : Prop where
  linked : current.approvalId = some approval.id
  row : s.approvals.get? approval.id = some approval
  approved : approval.status = .approved
  matched : approval.MatchesExecutionConditions current
    (suppliedOr conditions.workspaceRef task.repository)
    (suppliedOr conditions.policyVersion approval.policyVersion)
    (suppliedOr conditions.configVersion actualConfig)

theorem consumedApproval_returns {current : Effect} {task : Task} {conditions : ClaimConditions}
    {actualConfig : String} {consumed : Option Approval}
    (hreturns : (consumedApproval current conditions task.repository actualConfig).Returns s
      consumed s') :
    s' = s ∧ ((current.approvalId = none ∧ current.persistedDecision ≠ "require_approval"
        ∧ consumed = none)
      ∨ ∃ approval, s.Consumes current task actualConfig conditions approval
        ∧ consumed = some approval.consumed) := by
  unfold consumedApproval at hreturns
  split at hreturns
  · rename_i approvalId hlinked
    simp only [bind_returns, query_returns, requireApproval_returns, consumeApproval,
      raiseIf_returns, pure_returns, existsAndEq, exists_const, true_and, and_assoc, not_not, ne_eq]
      at hreturns
    obtain ⟨approval, hrow, -, happroved, hmatched, rfl, rfl⟩ := hreturns
    have hid : approval.id = approvalId := Table.key_of_get? hrow
    rw [← hid] at hrow hlinked
    exact ⟨rfl, Or.inr ⟨approval, ⟨hlinked, hrow, happroved, hmatched⟩, rfl⟩⟩
  · rename_i hnone
    simp only [bind_returns, raiseIf_returns, pure_returns, existsAndEq, exists_const, true_and,
      and_assoc] at hreturns
    obtain ⟨hdecision, rfl, rfl⟩ := hreturns
    exact ⟨rfl, Or.inl ⟨hnone, hdecision, rfl⟩⟩

/-- The entry that a claim journals. -/
def Effect.claimEntry (effect : Effect) (taskId : String) : Entry where
  id := journalEventId "effect.claimed" effect.id (toString effect.version)
  type := "effect.claimed"
  taskId := some taskId
  traceId := some effect.providerCallId
  data := .obj [("effect_id", .str effect.id)]

/-- The database after the approval that a claim consumes has been written. -/
def Store.approvalConsumed (s : Store) (now : Timestamp) : Option Approval → Store
  | none => s
  | some approval => (s.putApproval approval).journaledApproval now approval "approval.consumed"

/-- The database that a claim leaves. -/
def Store.claimed (s : Store) (now : Timestamp) (current : Effect) (task : Task)
    (consumed : Option Approval) : Store :=
  ((s.putEffect (current.claimed consumed.isSome)).approvalConsumed now consumed).journaledFor now
    task ((current.claimed consumed.isSome).claimEntry task.id)

/-- The entries of a claim can be journalled, the one of the approval it consumes first. -/
def Store.CanJournalClaim (s : Store) (now : Timestamp) (current : Effect) (task : Task)
    (consumed : Option Approval) : Prop :=
  let claimed := current.claimed consumed.isSome
  (∀ approval ∈ consumed, ((s.putEffect claimed).putApproval approval).CanJournalApproval approval
      "approval.consumed")
    ∧ ((s.putEffect claimed).approvalConsumed now consumed).CanJournalFor task
      (claimed.claimEntry task.id)

theorem writeClaim_returns {current claimed : Effect} {task : Task} {consumed : Option Approval}
    (hreturns : (writeClaim now current task consumed).Returns s claimed s') :
    claimed = current.claimed consumed.isSome ∧ s.CanJournalClaim now current task consumed
      ∧ s' = s.claimed now current task consumed := by
  simp only [writeClaim, bind_returns, writeEffect_returns, forM_option_returns,
    writeApproval_returns, journalApproval_returns, journalTask_returns, pure_returns, existsAndEq,
    exists_const, true_and, and_assoc] at hreturns
  obtain ⟨-, t, hconsumed, hjournal, rfl, rfl⟩ := hreturns
  refine ⟨rfl, ?_⟩
  rcases hconsumed with ⟨rfl, rfl⟩ | ⟨approval, rfl, -, happroval, rfl⟩
  · exact ⟨⟨by simp, hjournal⟩, rfl⟩
  · refine ⟨⟨?_, hjournal⟩, rfl⟩
    rintro _ ⟨⟩
    exact happroval

/-- A claim runs the effect, and consumes the approval that the effect is linked to; an effect that
requires approval is linked to one. -/
theorem claimEffect_returns {effectId : String} {version : Nat} {guard : LeaseGuard}
    {conditions : ClaimConditions} {claimed : Effect}
    (hreturns : (claimEffect now effectId version guard conditions).Returns s claimed s') :
    ∃ execution current task actualConfig consumed,
      s.Claims now effectId version guard conditions execution current task actualConfig
        ∧ ((current.approvalId = none ∧ current.persistedDecision ≠ "require_approval"
            ∧ consumed = none)
          ∨ ∃ approval, s.Consumes current task actualConfig conditions approval
            ∧ consumed = some approval.consumed)
        ∧ claimed = current.claimed consumed.isSome ∧ s.CanJournalClaim now current task consumed
        ∧ s' = s.claimed now current task consumed := by
  simp only [claimEffect, bind_returns, assertGuard_returns, requireEffect_returns,
    checkVersion_returns, raiseIf_returns, requireTask_returns, query_returns,
    checkInputSequence_returns, actualConfigVersion_returns, existsAndEq, exists_const, true_and,
    and_assoc, not_not, ne_eq, not_or, List.head?_eq_none_iff] at hreturns
  obtain ⟨execution, hguard, current, heffect, hversion, hprepared, task, htask, hcontrols, -, text,
    hconfig, hfingerprint, hworkspace, hconfigVersion, hpreparation, hdeny, hdecision, consumed, _,
    hconsumed, hwrite⟩ := hreturns
  obtain ⟨rfl, happroval⟩ := consumedApproval_returns hconsumed
  obtain ⟨rfl, hjournal, rfl⟩ := writeClaim_returns hwrite
  refine ⟨execution, current, task, suppliedOr (some text) "1", consumed, ⟨hguard, heffect,
    hversion version rfl, hprepared, htask, hcontrols, ⟨text, hconfig, rfl⟩, ?_, ?_, ?_,
    ⟨hpreparation, hdeny⟩, ?_⟩, happroval, rfl, hjournal, rfl⟩
  · exact supplied_iff.mp hfingerprint
  · exact supplied_iff.mp hworkspace
  · exact supplied_iff.mp hconfigVersion
  · exact supplied_iff.mp hdecision

/-! ### Results -/

omit [Sha256] in
@[simp] theorem matchObservation_returns {current : Effect} {call : ToolCall} {result : ToolResult}
    {u : Unit} :
    (matchObservation current call result).Returns s u s'
      ↔ (call.id = current.providerCallId ∧ result.callId = call.id) ∧ s' = s := by
  simp [matchObservation]

omit [Sha256] in
@[simp] theorem matchToolCall_returns {existing : Option ToolCallRow} {call : ToolCall}
    {result : ToolResult} {u : Unit} :
    (matchToolCall existing call result).Returns s u s'
      ↔ (∀ row ∈ existing, row.call = call ∧ row.result = result) ∧ s' = s := by
  unfold matchToolCall
  cases existing with
  | none => simp
  | some row => simp

/-- The database with the observation of an effect, unless its call has one already. -/
@[simps] def Store.observed (s : Store) (now : Timestamp) (taskId : String)
    (observation : Option (ToolCall × ToolResult)) : Store :=
  { s with
    toolCalls := match observation with
      | none => s.toolCalls
      | some (call, result) =>
          s.toolCalls.insert { taskId, call, result, completedAt := now } }

/-- What a commit finds: an executing effect that the committed one is compatible with. -/
structure Store.Commits (s : Store) (now : Timestamp) (effect : Effect) (version : Nat)
    (guard : LeaseGuard) (execution : Execution) (current : Effect) (task : Task) : Prop where
  guards : s.Guards now guard execution
  loadsEffect : s.LoadsEffect effect.id current
  version_eq : current.version = version
  compatible : current.IdentityCompatible effect
  executing : current.status = .executing
  terminal : effect.status ∈ [EffectStatus.succeeded, .failed, .unknown]
  loadsTask : s.LoadsTask effect.taskId task
  bound : task.sessionId ≠ none

theorem commitEffect_returns {effect committed : Effect} {version : Nat}
    {resultRef observationRef : Option String} {guard : LeaseGuard}
    {observation : Option (ToolCall × ToolResult)}
    (hreturns : (commitEffect now effect version resultRef observationRef guard observation).Returns
      s committed s') :
    ∃ execution current task, ∃ entry : { entry //
        ((s.putEffect committed).observed now effect.taskId observation).CanJournalFor task entry },
      s.Commits now effect version guard execution current task
      ∧ (∀ call result, observation = some (call, result) →
          (call.id = current.providerCallId ∧ result.callId = call.id)
          ∧ ∀ row ∈ s.toolCalls.get? (effect.taskId, call.id),
              row.call = call ∧ row.result = result)
      ∧ committed = effect.committed resultRef observationRef current.version
      ∧ s' = ((s.putEffect committed).observed now effect.taskId observation).journaledEffect now
          task entry (some effect.id) := by
  simp only [commitEffect, bind_returns, validateEffect_returns, assertGuard_returns,
    requireEffect_returns, checkVersion_returns, assertIdentityCompatible_returns, raiseIf_returns,
    forM_option_returns, matchObservation_returns, matchToolCall_returns, query_returns,
    writeEffect_returns, requireTask_returns, journalEffect_returns, pure_returns, modify_returns,
    existsAndEq, exists_const, true_and, and_assoc, not_not, ne_eq] at hreturns
  obtain ⟨-, execution, hguard, current, heffect, hversion, hcompatible, hexecuting, hterminal, t,
    hmatch, -, t', hobserved, task, htask, hbound, hjournal, rfl, rfl⟩ := hreturns
  have hversion : current.version = version := hversion version rfl
  rcases hmatch with ⟨rfl, rfl⟩ | ⟨⟨call, result⟩, rfl, hcall, hresult, hexisting, rfl⟩
  · rcases hobserved with ⟨-, rfl⟩ | ⟨_, habsurd, -⟩
    · exact ⟨execution, current, task, ⟨_, hjournal⟩, ⟨hguard, heffect, hversion, hcompatible, hexecuting,
        hterminal, htask, hbound⟩, by simp, rfl, rfl⟩
    · cases habsurd
  · rcases hobserved with ⟨habsurd, -⟩ | ⟨_, hsame, rfl⟩
    · cases habsurd
    · cases hsame
      refine ⟨execution, current, task, ⟨_, hjournal⟩, ⟨hguard, heffect, hversion, hcompatible, hexecuting,
        hterminal, htask, hbound⟩, ?_, rfl, rfl⟩
      intro call' result' heq
      cases heq
      exact ⟨⟨hcall, hresult⟩, hexisting⟩

/-- What marking an effect unknown finds: an effect of the guard's own task that is executing, or
unknown already. -/
structure Store.MarksUnknown (s : Store) (now : Timestamp) (effectId : String) (version : Nat)
    (guard : LeaseGuard) (execution : Execution) (current : Effect) (task : Task) : Prop where
  guards : s.Guards now guard execution
  loadsEffect : s.LoadsEffect effectId current
  owner : current.taskId = execution.taskId
  version_eq : current.version = version
  uncertain : current.status ∈ [EffectStatus.executing, .unknown]
  loadsTask : s.LoadsTask current.taskId task

theorem markEffectUnknown_returns {effectId : String} {version : Nat} {evidence : Json}
    {guard : LeaseGuard} {result : Effect × Task}
    (hreturns : (markEffectUnknown now effectId version evidence guard).Returns s result s') :
    ∃ execution current task, ∃ entry : { entry //
        ((s.putEffect (current.markedUnknown evidence)).putTask task.inRecovery).CanJournalFor task
          entry },
      s.MarksUnknown now effectId version guard execution current task
        ∧ s' = ((s.putEffect (current.markedUnknown evidence)).putTask
            task.inRecovery).journaledEffect now task entry
              (some (current.markedUnknown evidence).id) := by
  simp only [markEffectUnknown, bind_returns, assertGuard_returns, requireEffect_returns,
    raiseIf_returns, checkVersion_returns, writeEffect_returns, requireTask_returns,
    writeTask_returns, journalEffect_returns, pure_returns, existsAndEq, exists_const, true_and,
    and_assoc, not_not, ne_eq] at hreturns
  obtain ⟨execution, hguard, current, heffect, howner, hversion, hstatus, -, task, htask, -, hjournal,
    -, rfl⟩ := hreturns
  exact ⟨execution, current, task, ⟨_, hjournal⟩, ⟨hguard, heffect, howner, hversion version rfl, hstatus,
    htask⟩, rfl⟩

/-- The database after the pending approval of a settled effect has expired. -/
@[simps] def Store.approvalExpired (s : Store) (now : Timestamp) (effect : Effect) : Store :=
  { s with
    approvals := match effect.approvalId.bind fun id => s.approvals.get? id with
      | none => s.approvals
      | some approval =>
          if approval.status = .pending then
            s.approvals.set (approval.expired now "effect_settled")
          else s.approvals }

omit [Sha256] in
theorem expireEffectApproval_returns {effect : Effect} {u : Unit}
    (hreturns : (expireEffectApproval now effect).Returns s u s') :
    s' = s.approvalExpired now effect := by
  simp only [expireEffectApproval, bind_returns, query_returns, forM_option_returns,
    validateApproval_returns, doIf_returns, writeApproval_returns, existsAndEq, exists_const,
    true_and, and_assoc] at hreturns
  rcases hreturns with ⟨hnone, rfl⟩ | ⟨approval, hsome, -, ⟨hpending, -, rfl⟩ | ⟨hpending, rfl⟩⟩
  · rw [Store.approvalExpired, hnone]
  · simp only [Store.approvalExpired, hsome, if_pos hpending]
    rfl
  · simp only [Store.approvalExpired, hsome, if_neg hpending]

/-- What settling an effect without running it finds. -/
structure Store.Settles (s : Store) (now : Timestamp) (effectId : String) (status : EffectStatus)
    (version : Nat) (call : ToolCall) (result : ToolResult) (guard : LeaseGuard)
    (execution : Execution) (current : Effect) : Prop where
  guards : s.Guards now guard execution
  loadsEffect : s.LoadsEffect effectId current
  owner : current.taskId = execution.taskId
  version_eq : current.version = version
  target : status ∈ [EffectStatus.denied, .cancelled]
  unexecuted : current.status ∈ [EffectStatus.prepared, .waitingForApproval, status]
  repeats : ∀ row, s.toolCalls.get? (current.taskId, call.id) = some row →
    row.call = call ∧ row.result = result ∧ current.status = status
  call_eq : call.id = current.providerCallId
  result_eq : result.callId = call.id

/-- A repeated settlement changes nothing. -/
theorem settleUnexecutedEffect_returns {effectId : String} {status : EffectStatus} {version : Nat}
    {call : ToolCall} {result : ToolResult} {guard : LeaseGuard} {settled : Effect}
    (hreturns : (settleUnexecutedEffect now effectId status version call result guard).Returns s
      settled s') :
    ∃ execution current, s.Settles now effectId status version call result guard execution current
      ∧ (s' = s ∨ ∃ task, ∃ entry : { entry //
          (((s.putEffect (current.settled status)).approvalExpired now current).addToolCall
            { taskId := current.taskId, call, result, completedAt := now }).CanJournalFor task entry },
        s.LoadsTask current.taskId task
        ∧ s.toolCalls.get? (current.taskId, call.id) = none
        ∧ s' = (((s.putEffect (current.settled status)).approvalExpired now current).addToolCall
            { taskId := current.taskId, call, result, completedAt := now }).journaledEffect now task
              entry (some current.id)) := by
  simp only [settleUnexecutedEffect, bind_returns, assertGuard_returns, requireEffect_returns,
    raiseIf_returns, checkVersion_returns, matchObservation_returns, query_returns, ite_returns,
    pure_returns, writeEffect_returns, insertToolCall_returns, requireTask_returns,
    journalEffect_returns, existsAndEq, exists_const, true_and, and_assoc, not_not, ne_eq]
    at hreturns
  obtain ⟨htarget, execution, hguard, current, heffect, howner, hversion, hstatus, hcall, hresult,
    hrepeats, hbranch⟩ := hreturns
  have hrepeats : ∀ row, s.toolCalls.get? (current.taskId, call.id) = some row →
      row.call = call ∧ row.result = result ∧ current.status = status := by
    intro row hrow
    rw [hrow] at hrepeats
    simpa only [Option.any_some, decide_eq_true_eq, not_or, not_not] using hrepeats
  refine ⟨execution, current, ⟨hguard, heffect, howner, hversion version rfl, htarget, hstatus,
    hrepeats, hcall, hresult⟩, ?_⟩
  rcases hbranch with ⟨-, -, rfl⟩ | ⟨-, -, _, t, hexpire, hfree, task, htask, hjournal, -, rfl⟩
  · exact Or.inl rfl
  · obtain rfl := expireEffectApproval_returns hexpire
    exact Or.inr ⟨task, ⟨_, hjournal⟩, htask, hfree, rfl⟩

end PatchLoop
