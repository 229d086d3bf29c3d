import PatchLoop.Store.Frame

/-!
# How effect and approval rows change

For a row of `effects` or of `approvals`, each way in which an operation may change it, with what the
operation has checked.
-/

namespace PatchLoop

open Transaction

variable [Sha256] {s s' : Store} {now : Timestamp} {op : Op} {u : Unit}

/-! ### Effects -/

/-- What an operation leaves in an effect row. -/
inductive EffectChange (s : Store) (now : Timestamp) (id : String) : Op → Option Effect → Prop where
  | kept (op : Op) : EffectChange s now id op (s.effects.get? id)
  | prepared {effects : List Effect} {version : Nat} {guard : Option LeaseGuard} {task : Task}
      {effect : Effect} (hprepares : s.PreparesEffects now effects guard task)
      (hmem : effect ∈ effects) (hid : id = effect.id) (hnew : s.effects.get? id = none) :
      EffectChange s now id (.prepareEffects effects version guard) (some effect)
  | batched {agentStep : AgentStep} {effects : List Effect} {version : Nat}
      {guard : Option LeaseGuard} {effect : Effect}
      (hguards : s.GuardsLegacyWrite now agentStep.taskId guard)
      (hcarries : agentStep.Carries effects) (hmem : effect ∈ effects) (hid : id = effect.id)
      (hnew : s.effects.get? id = none) (hvalid : effect.Valid) :
      EffectChange s now id (.prepareEffectBatch agentStep effects version guard) (some effect)
  | requested {effectId : String} {approval : Approval} {version : Nat} {guard : LeaseGuard}
      {execution : Execution} {current : Effect} {task : Task}
      (hrequests : s.RequestsApproval now effectId approval version guard execution current task)
      (hprepared : current.status = .prepared) (hid : id = current.id) :
      EffectChange s now id (.requestEffectApproval effectId approval version guard)
        (some (current.waiting approval.id))
  | decided {approvalId : String} {approved : Bool} {source : String} {version : Nat}
      {workspaceRef policyVersion configVersion : String} {current : Approval} {effect : Effect}
      {task : Task} {actualConfig : String}
      (hresolves : s.ResolvesApproval approvalId version workspaceRef policyVersion configVersion
        current effect task actualConfig) (hid : id = effect.id) :
      EffectChange s now id
        (.resolveEffectApproval approvalId approved source version workspaceRef policyVersion
          configVersion)
        (some (if current.Bound effect task actualConfig workspaceRef policyVersion configVersion
          then effect.resolved approved else effect.unbound))
  | claimed {effectId : String} {version : Nat} {guard : LeaseGuard} {conditions : ClaimConditions}
      {execution : Execution} {current : Effect} {task : Task} {actualConfig : String}
      {consumed : Bool}
      (hclaims : s.Claims now effectId version guard conditions execution current task actualConfig)
      (hid : id = current.id) :
      EffectChange s now id (.claimEffect effectId version guard conditions)
        (some (current.claimed consumed))
  | committed {effect : Effect} {version : Nat} {resultRef observationRef : Option String}
      {guard : LeaseGuard} {observation : Option (ToolCall × ToolResult)} {execution : Execution}
      {current : Effect} {task : Task}
      (hcommits : s.Commits now effect version guard execution current task)
      (hid : id = current.id) :
      EffectChange s now id (.commitEffect effect version resultRef observationRef guard observation)
        (some (effect.committed resultRef observationRef current.version))
  | markedUnknown {effectId : String} {version : Nat} {evidence : Json} {guard : LeaseGuard}
      {execution : Execution} {current : Effect} {task : Task}
      (hmarks : s.MarksUnknown now effectId version guard execution current task)
      (hid : id = current.id) :
      EffectChange s now id (.markEffectUnknown effectId version evidence guard)
        (some (current.markedUnknown evidence))
  | settled {effectId : String} {status : EffectStatus} {version : Nat} {call : ToolCall}
      {result : ToolResult} {guard : LeaseGuard} {execution : Execution} {current : Effect}
      (hsettles : s.Settles now effectId status version call result guard execution current)
      (hid : id = current.id) :
      EffectChange s now id (.settleUnexecutedEffect effectId status version call result guard)
        (some (current.settled status))
  | confirmed {disposition : RecoveryDisposition} {taskId : String} {version : Nat}
      {task : Task} {effect : Effect} {target : TaskRuntimeCondition} {call : ToolCall}
      {result : ToolResult}
      (hresolves : s.Resolves disposition taskId version
        { confirmedCall := some call, confirmedResult := some result } task effect target)
      (hkind : disposition.kind = .confirmResult) (hid : id = effect.id) :
      EffectChange s now id
        (.resolveRecovery disposition taskId version
          { confirmedCall := some call, confirmedResult := some result })
        (some (effect.confirmed result disposition.evidence))
  | retried {disposition : RecoveryDisposition} {taskId : String} {version : Nat}
      {task : Task} {effect : Effect} {target : TaskRuntimeCondition} {retry : Effect}
      {approval : Approval}
      (hresolves : s.Resolves disposition taskId version
        { retryEffect := some retry, retryApproval := some approval } task effect target)
      (hid : id = retry.id) (hnew : s.effects.get? id = none) :
      EffectChange s now id
        (.resolveRecovery disposition taskId version
          { retryEffect := some retry, retryApproval := some approval })
        (some (retry.waitingRetry approval.id))

omit [Sha256] in
/-- An insertion of effects leaves a row as it was, or puts one of the effects where none was. -/
theorem get?_addEffects {effects : List Effect} (hfresh : s.FreshEffects effects) (id : String) :
    (s.addEffects effects).effects.get? id = s.effects.get? id
      ∨ s.effects.get? id = none
        ∧ ∃ effect ∈ effects, id = effect.id
          ∧ (s.addEffects effects).effects.get? id = some effect := by
  induction effects generalizing s with
  | nil => exact Or.inl rfl
  | cons effect rest ih =>
      obtain ⟨hfirst, hrest⟩ := hfresh
      have hget := Table.get?_insert effect hfirst.id id
      have hsingle : (s.addEffects [effect]).effects.get? id
          = if id = effect.id then some effect else s.effects.get? id := hget
      have hcons : (s.addEffects (effect :: rest)).effects
          = ((s.addEffects [effect]).addEffects rest).effects := rfl
      rw [hcons]
      rcases ih hrest with hsame | ⟨hnone, other, hmem, hid, hother⟩
      · rw [hsame, hsingle]
        by_cases hid : id = effect.id
        · rw [if_pos hid]
          refine Or.inr ⟨by rw [hid]; exact hfirst.id, effect, List.mem_cons_self, hid, rfl⟩
        · rw [if_neg hid]
          exact Or.inl rfl
      · rw [hsingle] at hnone
        split at hnone
        · cases hnone
        · exact Or.inr ⟨hnone, other, List.mem_cons_of_mem _ hmem, hid, hother⟩

omit [Sha256] in
theorem Store.LoadsEffect.row_of_id {effectId : String} {effect : Effect}
    (hload : s.LoadsEffect effectId effect) : s.effects.get? effect.id = some effect := by
  rw [hload.id_eq]
  exact hload.1

/-- The row of an effect that an operation writes back. -/
theorem EffectChange.of_set {id : String} {current written : Effect}
    (hrow : s.effects.get? current.id = some current)
    (hchange : id = current.id → EffectChange s now id op (some written))
    (htable : s'.effects = s.effects.set written) (hkey : written.id = current.id) :
    EffectChange s now id op (s'.effects.get? id) := by
  rw [htable, Table.get?_set_row hrow id hkey]
  split
  · rename_i hid
    exact hchange hid
  · exact .kept op

theorem effectChange (hreturns : (exec now op).Returns s u s') (id : String) :
    EffectChange s now id op (s'.effects.get? id) := by
  cases op with
  | prepareEffects effects version guard =>
      obtain ⟨_, hreturns⟩ := discard_returns.mp hreturns
      obtain ⟨-, rfl⟩ | ⟨task, newEffects, hprepares, hnew, hbranch⟩ :=
        prepareEffects_returns hreturns
      · exact .kept _
      · obtain rfl | ⟨-, hfresh, -, rfl⟩ := hbranch
        · exact .kept _
        · rw [Store.journaledFor_effects]
          rcases get?_addEffects hfresh id with hsame | ⟨hnone, effect, hmem, hid, hget⟩
          · rw [hsame]
            exact .kept _
          · rw [hget]
            exact .prepared hprepares (hnew effect hmem).1 hid hnone
  | prepareEffectBatch agentStep effects version guard =>
      obtain ⟨_, hreturns⟩ := discard_returns.mp hreturns
      obtain ⟨task, newEffects, -, hguards, -, hcarries, hfresh, hnew, hbranch⟩ :=
        prepareEffectBatch_returns hreturns
      have htable : s'.effects = ((s.upsertAgentStep agentStep).addEffects newEffects).effects := by
        rcases hbranch with ⟨-, rfl⟩ | ⟨-, rfl⟩
        · rfl
        · rfl
      rw [htable]
      rcases get?_addEffects hfresh id with hsame | ⟨hnone, effect, hmem, hid, hget⟩
      · rw [hsame]
        exact .kept _
      · rw [hget]
        exact .batched hguards hcarries (hnew effect hmem).1 hid hnone (hnew effect hmem).2.1
  | requestEffectApproval effectId approval version guard =>
      obtain ⟨_, hreturns⟩ := discard_returns.mp hreturns
      obtain ⟨execution, current, task, hrequests, ⟨-, rfl⟩ | ⟨hprepared, -, -, -, -, -, rfl⟩⟩ :=
        requestEffectApproval_returns hreturns
      · exact .kept _
      · exact .of_set hrequests.loadsEffect.row_of_id (.requested hrequests hprepared) rfl rfl
  | resolveEffectApproval approvalId approved source version workspaceRef policyVersion
      configVersion =>
      obtain ⟨_, hreturns⟩ := discard_returns.mp hreturns
      obtain rfl | ⟨current, effect, task, actualConfig, hresolves, -, rfl⟩ :=
        resolveEffectApproval_returns hreturns
      · exact .kept _
      · refine .of_set hresolves.loadsEffect.row_of_id (.decided hresolves) ?_ ?_
        · simp [Store.decided]
        · split <;> rfl
  | claimEffect effectId version guard conditions =>
      obtain ⟨_, hreturns⟩ := discard_returns.mp hreturns
      obtain ⟨execution, current, task, actualConfig, consumed, hclaims, -, -, -, rfl⟩ :=
        claimEffect_returns hreturns
      have hclaimed : id = current.id → EffectChange s now id (.claimEffect effectId version guard
          conditions) (some (current.claimed consumed.isSome)) := .claimed hclaims
      refine .of_set hclaims.loadsEffect.row_of_id hclaimed ?_ rfl
      cases consumed with
      | none => rfl
      | some approval => rfl
  | commitEffect effect version resultRef observationRef guard observation =>
      obtain ⟨_, hreturns⟩ := discard_returns.mp hreturns
      obtain ⟨execution, current, task, entry, hcommits, -, rfl, rfl⟩ := commitEffect_returns hreturns
      have hid : current.id = effect.id := hcommits.loadsEffect.id_eq
      exact .of_set hcommits.loadsEffect.row_of_id (.committed hcommits) rfl hid.symm
  | markEffectUnknown effectId version evidence guard =>
      obtain ⟨_, hreturns⟩ := discard_returns.mp hreturns
      obtain ⟨execution, current, task, entry, hmarks, rfl⟩ := markEffectUnknown_returns hreturns
      refine .of_set hmarks.loadsEffect.row_of_id (.markedUnknown hmarks) rfl ?_
      unfold Effect.markedUnknown
      split <;> rfl
  | settleUnexecutedEffect effectId status version call result guard =>
      obtain ⟨_, hreturns⟩ := discard_returns.mp hreturns
      obtain ⟨execution, current, hsettles, rfl | ⟨task, entry, -, -, rfl⟩⟩ :=
        settleUnexecutedEffect_returns hreturns
      · exact .kept _
      · exact .of_set hsettles.loadsEffect.row_of_id (.settled hsettles) rfl rfl
  | resolveRecovery disposition taskId version resolution =>
      obtain ⟨_, hreturns⟩ := discard_returns.mp hreturns
      obtain ⟨rfl, -⟩ | ⟨task, effect, target, hresolves, -, rfl⟩ := resolveRecovery_returns hreturns
      · exact .kept _
      · cases hresolves.valid with
        | confirmResult call result hkind hconfirms =>
            exact .of_set hresolves.loadsEffect.row_of_id (.confirmed hresolves hkind) rfl rfl
        | createRetry retry approval hkind hactive hretries hrequired happroves =>
            have hfresh := (hresolves.fresh retry approval rfl rfl).2.1
            change EffectChange s now id _
              ((s.addEffects [retry.waitingRetry approval.id]).effects.get? id)
            have hfresh : s.FreshEffects [retry.waitingRetry approval.id] := ⟨hfresh, trivial⟩
            rcases get?_addEffects hfresh id with hsame | ⟨hnone, written, hmem, hid, hget⟩
            · rw [hsame]
              exact .kept _
            · cases List.mem_singleton.mp hmem
              rw [hget]
              exact .retried hresolves hid hnone
        | abandon hkind hretry => exact .kept _
  | _ =>
      have htable : s'.effects = s.effects := exec_agrees hreturns .effects rfl
      rw [htable]
      exact .kept _

/-- An effect row stays as it is, or its version grows. -/
theorem effect_version_grows {id : String} {row : Effect}
    (hreturns : (exec now op).Returns s u s') (hrow : s.effects.get? id = some row) :
    ∃ row', s'.effects.get? id = some row' ∧ row'.taskId = row.taskId
      ∧ (row' = row ∨ row.version < row'.version) := by
  have hchange := effectChange hreturns id
  have hsame : ∀ {current : Effect} {effectId : String}, s.LoadsEffect effectId current →
      id = current.id → current = row := by
    rintro current effectId hload rfl
    exact Option.some.inj (hload.row_of_id.symm.trans hrow)
  generalize hafter : s'.effects.get? id = after at hchange
  cases hchange with
  | kept => exact ⟨row, hrow, rfl, Or.inl rfl⟩
  | prepared hprepares hmem hid hnew => cases hnew.symm.trans hrow
  | batched hguards hcarries hmem hid hnew hvalid => cases hnew.symm.trans hrow
  | retried hresolves hid hnew => cases hnew.symm.trans hrow
  | requested hrequests hprepared hid =>
      obtain rfl := hsame hrequests.loadsEffect hid
      exact ⟨_, rfl, rfl, Or.inr (Nat.lt_succ_self _)⟩
  | decided hresolves hid =>
      obtain rfl := hsame hresolves.loadsEffect hid
      refine ⟨_, rfl, ?_⟩
      split
      · exact ⟨rfl, Or.inr (Nat.lt_succ_self _)⟩
      · exact ⟨rfl, Or.inr (Nat.lt_succ_self _)⟩
  | claimed hclaims hid =>
      obtain rfl := hsame hclaims.loadsEffect hid
      exact ⟨_, rfl, rfl, Or.inr (Nat.lt_succ_self _)⟩
  | committed hcommits hid =>
      obtain rfl := hsame hcommits.loadsEffect hid
      have hidentity := hcommits.compatible.1 hcommits.loadsEffect.id_eq
      exact ⟨_, rfl, (congrArg Prod.fst hidentity).symm, Or.inr (Nat.lt_succ_self _)⟩
  | markedUnknown hmarks hid =>
      obtain rfl := hsame hmarks.loadsEffect hid
      refine ⟨_, rfl, ?_⟩
      unfold Effect.markedUnknown
      split
      · exact ⟨rfl, Or.inr (Nat.lt_succ_self _)⟩
      · exact ⟨rfl, Or.inl rfl⟩
  | settled hsettles hid =>
      obtain rfl := hsame hsettles.loadsEffect hid
      exact ⟨_, rfl, rfl, Or.inr (Nat.lt_succ_self _)⟩
  | confirmed hresolves hkind hid =>
      obtain rfl := hsame hresolves.loadsEffect hid
      exact ⟨_, rfl, rfl, Or.inr (Nat.lt_succ_self _)⟩

/-! ### Approvals -/

/-- What an operation leaves in an approval row. -/
inductive ApprovalChange (s : Store) (now : Timestamp) (id : String) :
    Op → Option Approval → Prop where
  | kept (op : Op) : ApprovalChange s now id op (s.approvals.get? id)
  | inserted {approval : Approval} {version : Option Nat}
      (hfree : s.approvalOfEffect approval.effectId = none) (hid : id = approval.id)
      (hnew : s.approvals.get? id = none) :
      ApprovalChange s now id (.decideApproval approval version) (some approval)
  | written {approval existing : Approval} {version : Option Nat}
      (hexisting : s.approvalOfEffect approval.effectId = some existing)
      (hpending : existing.status = .pending)
      (hstatus : approval.status ∈ [ApprovalStatus.approved, .denied, .expired])
      (hid : id = existing.id) (hkey : existing.id = approval.id) :
      ApprovalChange s now id (.decideApproval approval version) (some approval)
  | requested {effectId : String} {approval : Approval} {version : Nat} {guard : LeaseGuard}
      {execution : Execution} {current : Effect} {task : Task}
      (hrequests : s.RequestsApproval now effectId approval version guard execution current task)
      (hpending : approval.status = .pending) (hid : id = approval.id)
      (hnew : s.approvals.get? id = none) :
      ApprovalChange s now id (.requestEffectApproval effectId approval version guard)
        (some approval)
  | decided {approvalId : String} {approved : Bool} {source : String} {version : Nat}
      {workspaceRef policyVersion configVersion : String} {current : Approval} {effect : Effect}
      {task : Task} {actualConfig : String}
      (hresolves : s.ResolvesApproval approvalId version workspaceRef policyVersion configVersion
        current effect task actualConfig) (hid : id = current.id) :
      ApprovalChange s now id
        (.resolveEffectApproval approvalId approved source version workspaceRef policyVersion
          configVersion)
        (some (if current.Bound effect task actualConfig workspaceRef policyVersion configVersion
          then current.decided now approved source else current.expired now source))
  | consumed {effectId : String} {version : Nat} {guard : LeaseGuard} {conditions : ClaimConditions}
      {execution : Execution} {current : Effect} {task : Task} {actualConfig : String}
      {approval : Approval}
      (hclaims : s.Claims now effectId version guard conditions execution current task actualConfig)
      (hconsumes : s.Consumes current task actualConfig conditions approval)
      (hid : id = approval.id) :
      ApprovalChange s now id (.claimEffect effectId version guard conditions)
        (some approval.consumed)
  | expired {effectId : String} {status : EffectStatus} {version : Nat} {call : ToolCall}
      {result : ToolResult} {guard : LeaseGuard} {execution : Execution} {current : Effect}
      {approval : Approval}
      (hsettles : s.Settles now effectId status version call result guard execution current)
      (hpending : approval.status = .pending) (hrow : s.approvals.get? approval.id = some approval)
      (hid : id = approval.id) :
      ApprovalChange s now id (.settleUnexecutedEffect effectId status version call result guard)
        (some (approval.expired now "effect_settled"))
  | retried {disposition : RecoveryDisposition} {taskId : String} {version : Nat}
      {task : Task} {effect : Effect} {target : TaskRuntimeCondition} {retry : Effect}
      {approval : Approval}
      (hresolves : s.Resolves disposition taskId version
        { retryEffect := some retry, retryApproval := some approval } task effect target)
      (hpending : approval.status = .pending) (hid : id = approval.id)
      (hnew : s.approvals.get? id = none) :
      ApprovalChange s now id
        (.resolveRecovery disposition taskId version
          { retryEffect := some retry, retryApproval := some approval })
        (some approval)

/-- The row of an approval that an operation inserts. -/
theorem ApprovalChange.of_insert {id : String} {approval : Approval}
    (hnew : s.approvals.get? approval.id = none)
    (hchange : id = approval.id → s.approvals.get? id = none →
      ApprovalChange s now id op (some approval))
    (htable : s'.approvals = s.approvals.insert approval) :
    ApprovalChange s now id op (s'.approvals.get? id) := by
  have hget := Table.get?_insert approval hnew id
  rw [htable, hget]
  split
  · rename_i hid
    exact hchange hid (by rw [hid]; exact hnew)
  · exact .kept op

/-- The row of an approval that an operation writes back. -/
theorem ApprovalChange.of_set {id : String} {current written : Approval}
    (hrow : s.approvals.get? current.id = some current)
    (hchange : id = current.id → ApprovalChange s now id op (some written))
    (htable : s'.approvals = s.approvals.set written) (hkey : written.id = current.id) :
    ApprovalChange s now id op (s'.approvals.get? id) := by
  rw [htable, Table.get?_set_row hrow id hkey]
  split
  · rename_i hid
    exact hchange hid
  · exact .kept op

theorem approvalChange (hreturns : (exec now op).Returns s u s') (id : String) :
    ApprovalChange s now id op (s'.approvals.get? id) := by
  cases op with
  | decideApproval approval version =>
      obtain ⟨_, hreturns⟩ := discard_returns.mp hreturns
      obtain rfl | ⟨hnew, hfree, -, -, rfl⟩ | ⟨existing, hexisting, hkey, hpending, hstatus, hrow, -, rfl⟩ :=
        decideApproval_returns hreturns
      · exact .kept _
      · exact .of_insert hnew (.inserted hfree) rfl
      · have hmem : existing ∈ s.approvals.rows := List.mem_of_find?_eq_some hexisting
        exact .of_set (Table.get?_of_mem hmem)
          (fun hid => .written hexisting hpending hstatus hid hkey) rfl hkey.symm
  | requestEffectApproval effectId approval version guard =>
      obtain ⟨_, hreturns⟩ := discard_returns.mp hreturns
      obtain ⟨execution, current, task, hrequests, ⟨-, rfl⟩ | ⟨-, hpending, hnew, -, -, -, rfl⟩⟩ :=
        requestEffectApproval_returns hreturns
      · exact .kept _
      · exact .of_insert hnew (.requested hrequests hpending) rfl
  | resolveEffectApproval approvalId approved source version workspaceRef policyVersion
      configVersion =>
      obtain ⟨_, hreturns⟩ := discard_returns.mp hreturns
      obtain rfl | ⟨current, effect, task, actualConfig, hresolves, -, rfl⟩ :=
        resolveEffectApproval_returns hreturns
      · exact .kept _
      · have hkey : current.id = approvalId := Table.key_of_get? hresolves.row
        have hrow : s.approvals.get? current.id = some current := by
          rw [hkey]
          exact hresolves.row
        refine .of_set hrow (.decided hresolves) ?_ ?_
        · simp [Store.decided]
        · split <;> rfl
  | claimEffect effectId version guard conditions =>
      obtain ⟨_, hreturns⟩ := discard_returns.mp hreturns
      obtain ⟨execution, current, task, actualConfig, consumed, hclaims, happroval, -, -, rfl⟩ :=
        claimEffect_returns hreturns
      obtain ⟨-, -, rfl⟩ | ⟨approval, hconsumes, rfl⟩ := happroval
      · exact .kept _
      · exact .of_set hconsumes.row (.consumed hclaims hconsumes) rfl rfl
  | settleUnexecutedEffect effectId status version call result guard =>
      obtain ⟨_, hreturns⟩ := discard_returns.mp hreturns
      obtain ⟨execution, current, hsettles, rfl | ⟨task, entry, -, -, rfl⟩⟩ :=
        settleUnexecutedEffect_returns hreturns
      · exact .kept _
      · cases hlinked : current.approvalId.bind fun id => s.approvals.get? id with
        | none =>
            have hsame : ((s.putEffect (current.settled status)).approvalExpired now
                current).approvals = s.approvals := by
              simp [Store.approvalExpired, hlinked]
            change ApprovalChange s now id _ (((s.putEffect (current.settled status)).approvalExpired
              now current).approvals.get? id)
            rw [hsame]
            exact .kept _
        | some approval =>
            obtain ⟨approvalId, -, hrow⟩ := Option.bind_eq_some_iff.mp hlinked
            have hkey : approval.id = approvalId := Table.key_of_get? hrow
            rw [← hkey] at hrow
            by_cases hpending : approval.status = .pending
            · refine .of_set hrow (.expired hsettles hpending hrow) ?_ rfl
              simp [Store.approvalExpired, hlinked, hpending]
            · have hsame : ((s.putEffect (current.settled status)).approvalExpired now
                  current).approvals = s.approvals := by
                simp [Store.approvalExpired, hlinked, hpending]
              change ApprovalChange s now id _ (((s.putEffect (current.settled
                status)).approvalExpired now current).approvals.get? id)
              rw [hsame]
              exact .kept _
  | resolveRecovery disposition taskId version resolution =>
      obtain ⟨_, hreturns⟩ := discard_returns.mp hreturns
      obtain ⟨rfl, -⟩ | ⟨task, effect, target, hresolves, -, rfl⟩ := resolveRecovery_returns hreturns
      · exact .kept _
      · cases hresolves.valid with
        | confirmResult call result hkind hconfirms => exact .kept _
        | createRetry retry approval hkind hactive hretries hrequired happroves =>
            exact .of_insert (hresolves.fresh retry approval rfl rfl).2.2.1
              (.retried hresolves happroves.2.1) rfl
        | abandon hkind hretry => exact .kept _
  | _ =>
      have htable : s'.approvals = s.approvals := exec_agrees hreturns .approvals rfl
      rw [htable]
      exact .kept _

/-! ### Dispositions -/

/-- A resolution gives the effect it names its disposition, and no other one. -/
theorem dispositionOfEffect_recovered {disposition : RecoveryDisposition} {taskId : String}
    {version : Nat} {resolution : Resolution} {task : Task} {effect : Effect}
    {target : TaskRuntimeCondition}
    (hresolves : s.Resolves disposition taskId version resolution task effect target)
    (effectId : String) :
    (s.recovered now disposition resolution task effect target).dispositionOfEffect effectId
      = (s.dispositionOfEffect effectId).or
        (if disposition.unknownEffectId = effectId then some disposition else none) := by
  have hfree : s.recoveryDispositions.get? disposition.id = none :=
    (Option.or_eq_none_iff.mp hresolves.free).1
  have htable : (s.recovered now disposition resolution task effect target).recoveryDispositions
      = s.recoveryDispositions.insert disposition := by
    cases hresolves.valid <;> rfl
  rw [Store.dispositionOfEffect, htable, Table.rows_insert hfree, List.find?_append]
  refine congrArg (Option.or _) ?_
  rw [List.find?_cons]
  by_cases heq : disposition.unknownEffectId = effectId
  · simp [heq]
  · simp [heq]

/-- The effect of a resolution has a disposition after it. -/
theorem disposed_of_resolves {disposition : RecoveryDisposition} {taskId : String} {version : Nat}
    {resolution : Resolution} {task : Task} {effect : Effect} {target : TaskRuntimeCondition}
    (hreturns : (exec now (.resolveRecovery disposition taskId version resolution)).Returns s u s')
    (hresolves : s.Resolves disposition taskId version resolution task effect target) :
    s'.dispositionOfEffect disposition.unknownEffectId = some disposition := by
  obtain ⟨_, hreturns⟩ := discard_returns.mp hreturns
  obtain ⟨-, htaken⟩ | ⟨task, effect, target, hresolves, -, rfl⟩ := resolveRecovery_returns hreturns
  · exact absurd hresolves.free htaken
  · have hnone : s.dispositionOfEffect disposition.unknownEffectId = none :=
      (Option.or_eq_none_iff.mp hresolves.free).2
    rw [dispositionOfEffect_recovered hresolves, hnone]
    simp

/-- The disposition of an effect stays what it is, unless a resolution gives the effect its first. -/
theorem dispositionChange (hreturns : (exec now op).Returns s u s') (effectId : String) :
    s'.dispositionOfEffect effectId = s.dispositionOfEffect effectId
      ∨ ∃ disposition taskId version resolution task effect target,
          op = .resolveRecovery disposition taskId version resolution
            ∧ s.Resolves disposition taskId version resolution task effect target
            ∧ disposition.unknownEffectId = effectId
            ∧ s'.dispositionOfEffect effectId = some disposition := by
  cases op with
  | resolveRecovery disposition taskId version resolution =>
      obtain ⟨_, hreturns⟩ := discard_returns.mp hreturns
      obtain ⟨rfl, -⟩ | ⟨task, effect, target, hresolves, -, rfl⟩ := resolveRecovery_returns hreturns
      · exact Or.inl rfl
      · have hnone : s.dispositionOfEffect disposition.unknownEffectId = none :=
          (Option.or_eq_none_iff.mp hresolves.free).2
        rw [dispositionOfEffect_recovered hresolves]
        by_cases heq : disposition.unknownEffectId = effectId
        · rw [← heq, hnone]
          exact Or.inr ⟨_, _, _, _, _, _, _, rfl, hresolves, rfl, by simp⟩
        · rw [if_neg heq]
          exact Or.inl (Option.or_none)
  | _ =>
      have htable : s'.recoveryDispositions = s.recoveryDispositions :=
        exec_agrees hreturns .recoveryDispositions rfl
      exact Or.inl (by rw [Store.dispositionOfEffect, htable]; rfl)

end PatchLoop
