import PatchLoop.Runtime.Runs
import PatchLoop.Safety.ActiveTask

/-!
# A second approval of an effect

An approval that expired leaves its effect prepared and its own row in the table, and a request is
refused where the table has a row of the effect. When a prepared effect can be put to approval, approved
and claimed, and that an expiry before it is what stands in the way.
-/

namespace PatchLoop

open Transaction

/-! ### The three calls -/

/-- The answer of an approver who grants the request, for the task as it is. -/
def grantCall (now : Timestamp) (approval : Approval) (source : String) (task : Task)
    (policyVersion configVersion : String) : Call :=
  .op ⟨now, .resolveEffectApproval approval.id true source approval.version task.repository
    policyVersion configVersion⟩

section Calls

variable [Sha256] (s : Store)

def requestCall (now : Timestamp) (effect : Effect) (approval : Approval) (guard : LeaseGuard) :
    Call :=
  .op ⟨now, .requestEffectApproval effect.id approval effect.version guard⟩

/-- The conditions under which the runtime claims an effect that requires approval. -/
def renewalConditions (task : Task) (effect : Effect) (policyVersion configVersion : String) :
    ClaimConditions where
  effectFingerprint := some effect.contentFingerprint
  workspaceRef := some task.repository
  policyVersion := some policyVersion
  configVersion := some configVersion
  policyDecision := some "require_approval"
  expectedInputSequence := task.sessionId.map s.lastTurnSequence

/-- The claim of the effect as the request and its approval have left it. -/
def claimCall (now : Timestamp) (task : Task) (effect : Effect)
    (policyVersion configVersion : String) (guard : LeaseGuard) : Call :=
  .op ⟨now, .claimEffect effect.id (effect.version + 2) guard
    (renewalConditions s task effect policyVersion configVersion)⟩

end Calls

/-- `_effect_config_version`: the version that counts for a task. -/
def Store.ConfigVersion (s : Store) (task : Task) (configVersion : String) : Prop :=
  (task.sessionId = none ∧ configVersion = "1")
    ∨ ∃ session, s.sessionOf task = some session ∧ configVersion = session.configVersion

/-- A prepared effect of a running task that requires approval and has none, and a guard that is live
when the request is made and when the effect is claimed. -/
structure Store.Awaits (s : Store) (task : Task) (effect : Effect) (guard : LeaseGuard)
    (execution : Execution) (requestedAt claimedAt : Timestamp) : Prop where
  guards : s.Guards requestedAt guard execution
  owner : execution.taskId = effect.taskId
  live : claimedAt < execution.leaseExpiresAt
  loadsEffect : s.LoadsEffect effect.id effect
  loadsTask : s.LoadsTask effect.taskId task
  running : task.runtimeCondition = .running
  prepared : effect.status = .prepared
  unlinked : effect.approvalId = none
  gated : effect.persistedDecision = "require_approval"
  executable : effect.preparationError = none
  called : effect.providerCallId ≠ ""

/-! ### The entry of an approval -/

section Entries

variable [Sha256] {s : Store} {written : Task} {effect : Effect} {approval : Approval}
  {eventType : String} (now : Timestamp) (task : Task)

theorem journalEntry_of : (approval.journalEntry eventType task.id).Of task :=
  ⟨rfl, by simp [Approval.journalEntry]⟩

variable (heffect : s.LoadsEffect approval.effectId effect)
  (htask : s.LoadsTask effect.taskId written) (hid : written.id = task.id)
  (hsession : written.sessionId = task.sessionId)
include heffect htask hid hsession

/-- The entry of an approval goes to the session of the effect's task, whatever else of the task has
changed. -/
theorem canJournalApproval_iff :
    s.CanJournalApproval approval eventType
      ↔ s.CanJournalAll now task [approval.journalEntry eventType task.id] := by
  have hsame : s.CanJournalFor written (approval.journalEntry eventType written.id)
      ↔ s.CanJournalFor task (approval.journalEntry eventType task.id) := by
    simp only [Store.CanJournalFor, Store.sessionOf, hid, hsession]
  constructor
  · rintro ⟨other, row, hother, hrow, hcan⟩
    cases Option.some.inj (heffect.1.symm.trans hother.1)
    cases Option.some.inj (htask.1.symm.trans hrow.1)
    exact ⟨hsame.mp hcan, trivial⟩
  · rintro ⟨hcan, -⟩
    exact ⟨effect, written, heffect, htask, hsame.mpr hcan⟩

theorem journaledApproval_eq :
    s.journaledApproval now approval eventType
      = s.journaledAll now task [approval.journalEntry eventType task.id] := by
  have hsome : s.taskOfApproval approval = some written := by
    rw [Store.taskOfApproval, heffect.1]
    exact htask.1
  rw [journaledApproval_of_some hsome]
  simp only [Store.journaledAll, Store.journaledFor, Store.sessionOf, hid, hsession]

end Entries

/-! ### The request -/

section Request

variable [Sha256] {s s' : Store} {now requestedAt claimedAt : Timestamp} {task : Task}
  {effect : Effect} {guard : LeaseGuard} {execution : Execution} {approval : Approval}

/-- The rows that a request writes. -/
def Store.requested (s : Store) (execution : Execution) (effect : Effect) (task : Task)
    (approval : Approval) : Store :=
  (((s.putEffect (effect.waiting approval.id)).addApproval approval).putExecution
    execution.waiting).putTask task.waiting

omit [Sha256] in
theorem Store.Awaits.taskId (hawaits : s.Awaits task effect guard execution requestedAt claimedAt) :
    task.id = effect.taskId :=
  hawaits.loadsTask.id_eq

omit [Sha256] in
theorem Store.Awaits.taskRow (hawaits : s.Awaits task effect guard execution requestedAt claimedAt) :
    s.tasks.get? task.id = some task :=
  hawaits.taskId ▸ hawaits.loadsTask.1

omit [Sha256] in
/-- A running task has not ended. -/
theorem Store.Awaits.active (hawaits : s.Awaits task effect guard execution requestedAt claimedAt) :
    task.outcome = .active := by
  obtain ⟨-, hended⟩ := hawaits.loadsTask.2
  by_contra houtcome
  have hrunning := hawaits.running
  rcases hended houtcome with hcondition | hcondition
  · rw [hrunning] at hcondition
    cases hcondition
  · rw [hrunning] at hcondition
    cases hcondition

omit [Sha256] in
/-- A task that differs in its condition and version only is loaded as well. -/
theorem Store.Awaits.loads (hawaits : s.Awaits task effect guard execution requestedAt claimedAt)
    {written : Task} (hstatus : written.status = task.status)
    (houtcome : written.outcome = task.outcome) : written.ValidStateDimensions := by
  refine ⟨?_, fun hended => absurd ?_ hended⟩
  · rw [hstatus, houtcome]
    exact hawaits.loadsTask.2.1
  · rw [houtcome]
    exact hawaits.active

omit [Sha256] in
/-- The effect and its task, in the database of the rows of a request. -/
theorem loads_requested (hawaits : s.Awaits task effect guard execution requestedAt claimedAt) :
    (s.requested execution effect task approval).LoadsEffect effect.id (effect.waiting approval.id)
      ∧ (s.requested execution effect task approval).LoadsTask effect.taskId task.waiting := by
  refine ⟨⟨?_, hawaits.loadsEffect.2⟩, ⟨?_, hawaits.loads rfl rfl⟩⟩
  · have hrow : s.effects.get? (effect.waiting approval.id).id = some effect :=
      hawaits.loadsEffect.1
    exact Table.get?_set_self hrow
  · have hrow : s.tasks.get? task.waiting.id = some task := hawaits.taskRow
    have hset := Table.get?_set_self hrow
    exact hawaits.taskId ▸ hset

omit [Sha256] in
theorem bookkept_requested (hbook : s.Bookkept task)
    (hawaits : s.Awaits task effect guard execution requestedAt claimedAt) :
    (s.requested execution effect task approval).Bookkept task :=
  hbook.of_writes rfl rfl (isSome_set hawaits.taskRow rfl)

/-- A request returns where the table has no approval of the effect or of this id, and the entry can
be journalled. -/
theorem requestEffectApproval_iff
    (hawaits : s.Awaits task effect guard execution requestedAt claimedAt)
    (heffect : approval.effectId = effect.id) (hpending : approval.status = .pending)
    (hvalid : approval.Valid) :
    (exec requestedAt (.requestEffectApproval effect.id approval effect.version guard)).Returns s ()
        s'
      ↔ (s.approvals.get? approval.id = none ∧ s.approvalOfEffect effect.id = none)
        ∧ (s.requested execution effect task approval).CanJournalAll requestedAt task
            [approval.journalEntry "approval.requested" task.id]
        ∧ s' = (s.requested execution effect task approval).journaledAll requestedAt task
            [approval.journalEntry "approval.requested" task.id] := by
  obtain ⟨hloads, hloadsTask⟩ :
      (s.requested execution effect task approval).LoadsEffect effect.id (effect.waiting approval.id)
        ∧ (s.requested execution effect task approval).LoadsTask effect.taskId task.waiting :=
    loads_requested hawaits
  rw [← heffect] at hloads
  have hcan : (s.requested execution effect task approval).CanJournalApproval approval
      "approval.requested" ↔ _ :=
    canJournalApproval_iff requestedAt task hloads hloadsTask rfl rfl
  have hjournaled : (s.requested execution effect task approval).journaledApproval requestedAt
      approval "approval.requested" = _ :=
    journaledApproval_eq requestedAt task hloads hloadsTask rfl rfl
  rw [← hcan, ← hjournaled]
  constructor
  · intro hreturns
    obtain ⟨result, hreturns⟩ := discard_returns.mp hreturns
    obtain ⟨execution', current, task', hrequests, hbranch⟩ := requestEffectApproval_returns hreturns
    cases Option.some.inj (hawaits.guards.row.symm.trans hrequests.guards.row)
    cases Option.some.inj (hawaits.loadsEffect.1.symm.trans hrequests.loadsEffect.1)
    cases Option.some.inj (hawaits.loadsTask.1.symm.trans hrequests.loadsTask.1)
    rcases hbranch with ⟨hwaiting, -⟩ | ⟨-, -, hfresh, hfree, -, hjournal, hafter⟩
    · rw [hawaits.prepared] at hwaiting
      cases hwaiting
    · exact ⟨⟨hfresh, hfree⟩, hjournal, hafter⟩
  · rintro ⟨⟨hfresh, hfree⟩, hjournal, rfl⟩
    refine discard_returns.mpr ⟨(effect.waiting approval.id, approval, task.waiting), ?_⟩
    have hexecution : s.executions.get? execution.waiting.id ≠ none := by
      have hid : execution.waiting.id = guard.executionId := Table.key_of_get? hawaits.guards.row
      simp [hid, hawaits.guards.row]
    have hthere : (s.putEffect (effect.waiting approval.id)).HasEffect (some approval.effectId) := by
      rw [Store.HasEffect, Option.all_some, show (s.putEffect (effect.waiting
        approval.id)).effects.get? approval.effectId = _ from hloads.1]
      rfl
    simp only [requestEffectApproval, bind_returns, validateApproval_returns, assertGuard_returns,
      requireEffect_returns, raiseIf_returns, checkVersion_returns, ite_returns, query_returns,
      requireTask_returns, writeEffect_returns, insertApproval_returns, writeExecution_returns,
      writeTask_returns, journalApproval_returns, pure_returns, existsAndEq, exists_const, true_and,
      and_assoc, not_not, ne_eq]
    refine ⟨hvalid, execution, hawaits.guards, effect, hawaits.loadsEffect, hawaits.owner.symm,
      fun _ hversion => Option.some.inj hversion, heffect, Or.inr ⟨?_, hawaits.prepared, hpending,
        ?_, task, hawaits.loadsTask, hawaits.running, ?_, hfresh, ?_, hthere, hexecution, ?_,
        hjournal, rfl, rfl⟩⟩
    · rw [hawaits.prepared]
      decide
    · simp [hfresh, hfree]
    · have hrow := hawaits.loadsEffect.1
      simp [Effect.waiting, hrow]
    · rw [heffect]
      exact hfree
    · have hrow := hawaits.taskRow
      change s.tasks.get? task.id ≠ none
      simp [hrow]

/-- When a request is accepted. -/
theorem requestCall_accepted (hbook : s.Bookkept task)
    (hawaits : s.Awaits task effect guard execution requestedAt claimedAt)
    (heffect : approval.effectId = effect.id) (hpending : approval.status = .pending)
    (hvalid : approval.Valid) :
    Call.Accepted s (requestCall requestedAt effect approval guard)
      ↔ (s.approvals.get? approval.id = none ∧ s.approvalOfEffect effect.id = none)
        ∧ s.Takes task [(approval.journalEntry "approval.requested" task.id).id] := by
  have hsteady : ∀ id, ((s.tasks.set task.waiting).get? id).isSome = (s.tasks.get? id).isSome :=
    isSome_set hawaits.taskRow rfl
  have htakes : (s.requested execution effect task approval).Takes task
      [(approval.journalEntry "approval.requested" task.id).id]
        ↔ s.Takes task [(approval.journalEntry "approval.requested" task.id).id] :=
    takes_congr (s := s) (t := s.requested execution effect task approval) rfl rfl hsteady
  rw [← htakes]
  exact accepted_journalled (bookkept_requested hbook hawaits)
    (List.forall_mem_singleton.mpr (journalEntry_of task)) (List.cons_ne_nil _ _) rfl rfl rfl
    (fun s' => requestEffectApproval_iff hawaits heffect hpending hvalid)

end Request

/-! ### The decision -/

section Decision

variable {s s' : Store} {now : Timestamp} {task : Task} {effect : Effect} {approval : Approval}
  {policyVersion configVersion source : String}

/-- A pending approval of an effect and its task, as they are in the database. -/
structure Store.Pends (s : Store) (task : Task) (effect : Effect) (approval : Approval) : Prop where
  row : s.approvals.get? approval.id = some approval
  valid : approval.Valid
  pending : approval.status = .pending
  loadsEffect : s.LoadsEffect approval.effectId effect
  loadsTask : s.LoadsTask effect.taskId task

/-- The approval after a grant, and the effect: where the binding does not hold the approval expires. -/
def Approval.answered (approval : Approval) (now : Timestamp) (bound : Bool) (source : String) :
    Approval :=
  if bound then approval.decided now true source else approval.expired now source

def Effect.answered (effect : Effect) (bound : Bool) : Effect :=
  if bound then effect.resolved true else effect.unbound

/-- The rows that a decision writes. -/
def Store.answered (s : Store) (now : Timestamp) (effect : Effect) (task : Task)
    (approval : Approval) (bound : Bool) (source : String) : Store :=
  ((s.putApproval (approval.answered now bound source)).putEffect
    (effect.answered bound)).putTask task.resumed

/-- The entry of a decision. -/
def Approval.answerEntry [Sha256] (approval : Approval) (now : Timestamp) (taskId : String)
    (bound : Bool) (source : String) : Entry :=
  (approval.answered now bound source).journalEntry
    (if bound then "approval.decided" else "approval.expired") taskId

theorem resumed_id (task : Task) : task.resumed.id = task.id := by
  unfold Task.resumed
  split <;> rfl

theorem resumed_sessionId (task : Task) : task.resumed.sessionId = task.sessionId := by
  unfold Task.resumed
  split <;> rfl

theorem resumed_valid (hvalid : task.ValidStateDimensions)
    (hactive : task.outcome = .active) : task.resumed.ValidStateDimensions := by
  unfold Task.resumed
  split
  · exact ⟨hvalid.1, fun hended => absurd hactive hended⟩
  · exact hvalid

theorem loads_answered (hpends : s.Pends task effect approval) (hactive : task.outcome = .active)
    (bound : Bool) :
    (s.answered now effect task approval bound source).LoadsEffect
        (approval.answered now bound source).effectId (effect.answered bound)
      ∧ (s.answered now effect task approval bound source).LoadsTask (effect.answered bound).taskId
        task.resumed := by
  have hid : effect.id = approval.effectId := hpends.loadsEffect.id_eq
  have htaskId : task.id = effect.taskId := hpends.loadsTask.id_eq
  have heffect : s.effects.get? effect.id = some effect := hid ▸ hpends.loadsEffect.1
  have htask : s.tasks.get? task.resumed.id = some task := by
    rw [resumed_id, htaskId]
    exact hpends.loadsTask.1
  have hkey : Keyed.key task.resumed = effect.taskId := (resumed_id task).trans htaskId
  have hset := Table.get?_set_self htask
  rw [hkey] at hset
  have hvalid := resumed_valid hpends.loadsTask.2 hactive
  cases bound with
  | true =>
      have hreference : (approval.answered now true source).effectId = effect.id := hid.symm
      have hwritten : (s.effects.set (effect.resolved true)).get? effect.id
          = some (effect.resolved true) := Table.get?_set_self heffect
      rw [hreference]
      exact ⟨⟨hwritten, hpends.loadsEffect.2⟩, hset, hvalid⟩
  | false =>
      have hreference : (approval.answered now false source).effectId = effect.id := hid.symm
      have hwritten : (s.effects.set effect.unbound).get? effect.id = some effect.unbound :=
        Table.get?_set_self heffect
      rw [hreference]
      exact ⟨⟨hwritten, hpends.loadsEffect.2⟩, hset, hvalid⟩

theorem configVersion_eq {actualConfig : String}
    (hconfig : s.ConfigVersion task configVersion)
    (hactual : (task.sessionId = none ∧ actualConfig = configVersion)
      ∨ ∃ session, s.sessionOf task = some session ∧ actualConfig = session.configVersion) :
    actualConfig = configVersion := by
  rcases hactual with ⟨-, hactual⟩ | ⟨session, hsession, hactual⟩
  · exact hactual
  · rcases hconfig with ⟨hnone, -⟩ | ⟨other, hother, hconfig⟩
    · rw [Store.sessionOf, hnone] at hsession
      cases hsession
    · cases Option.some.inj (hsession.symm.trans hother)
      rw [hactual, hconfig]

variable [Sha256]

/-- The approval is for the effect as it is, under these versions. -/
structure Approval.Covering (approval : Approval) (effect : Effect)
    (policyVersion configVersion : String) : Prop where
  effectId : approval.effectId = effect.id
  effectFingerprint : approval.effectFingerprint = effect.contentFingerprint
  argumentsFingerprint : approval.argumentsFingerprint = effect.argumentsFingerprint
  policyVersion : approval.policyVersion = policyVersion
  configVersion : approval.configVersion = configVersion

theorem bound_iff (hcovers : approval.Covering effect policyVersion configVersion) :
    approval.Bound effect task configVersion task.repository policyVersion configVersion
      ↔ approval.workspaceRef = task.repository := by
  simp [Approval.Bound, Approval.MatchesExecutionConditions, hcovers.effectId,
    hcovers.effectFingerprint, hcovers.argumentsFingerprint, hcovers.policyVersion,
    hcovers.configVersion]

/-- The decision is written where its entry can be journalled. -/
theorem writeDecision_iff (hpends : s.Pends task effect approval) (hactive : task.outcome = .active)
    (bound : Bool) :
    (∃ result, (writeDecision now approval effect task bound true source).Returns s result s')
      ↔ (s.answered now effect task approval bound source).CanJournalAll now task
          [approval.answerEntry now task.id bound source]
        ∧ s' = (s.answered now effect task approval bound source).journaledAll now task
          [approval.answerEntry now task.id bound source] := by
  obtain ⟨hloads, hloadsTask⟩ := @loads_answered s now task effect approval source hpends hactive bound
  have hcan := @canJournalApproval_iff _ _ _ _ _ (if bound then "approval.decided" else
    "approval.expired") now task hloads hloadsTask (resumed_id task) (resumed_sessionId task)
  have hjournaled := @journaledApproval_eq _ _ _ _ _ (if bound then "approval.decided" else
    "approval.expired") now task hloads hloadsTask (resumed_id task) (resumed_sessionId task)
  rw [Approval.answerEntry, ← hcan, ← hjournaled]
  have heffectRow : s.effects.get? (effect.answered bound).id ≠ none := by
    have hid : (effect.answered bound).id = approval.effectId := by
      cases bound <;> exact hpends.loadsEffect.id_eq
    rw [hid, hpends.loadsEffect.1]
    exact Option.some_ne_none _
  have happrovalRow : s.approvals.get? (approval.answered now bound source).id ≠ none := by
    have hid : (approval.answered now bound source).id = approval.id := by
      cases bound <;> rfl
    rw [hid, hpends.row]
    exact Option.some_ne_none _
  have htaskRow : s.tasks.get? task.resumed.id ≠ none := by
    rw [resumed_id, hpends.loadsTask.id_eq, hpends.loadsTask.1]
    exact Option.some_ne_none _
  simp only [writeDecision, bind_returns, writeApproval_returns, writeEffect_returns,
    writeTask_returns, journalApproval_returns, pure_returns, existsAndEq, exists_const, true_and,
    and_assoc]
  constructor
  · rintro ⟨-, -, -, hjournal, rfl⟩
    exact ⟨hjournal, rfl⟩
  · rintro ⟨hjournal, rfl⟩
    exact ⟨happrovalRow, heffectRow, htaskRow, hjournal, rfl⟩

/-- A decision that grants the request returns where its entry can be journalled. Where the redactor has
changed the workspace of the request, it does not grant it: the request expires. -/
theorem resolveEffectApproval_iff (hpends : s.Pends task effect approval)
    (hactive : task.outcome = .active) (hconfig : s.ConfigVersion task configVersion)
    (hcovers : approval.Covering effect policyVersion configVersion) :
    (exec now (.resolveEffectApproval approval.id true source approval.version task.repository
        policyVersion configVersion)).Returns s () s'
      ↔ True ∧ (s.answered now effect task approval
            (approval.workspaceRef = task.repository) source).CanJournalAll now task
            [approval.answerEntry now task.id (approval.workspaceRef = task.repository) source]
        ∧ s' = (s.answered now effect task approval
            (approval.workspaceRef = task.repository) source).journaledAll now task
            [approval.answerEntry now task.id (approval.workspaceRef = task.repository) source] := by
  have hwrites := @writeDecision_iff s s' now task effect approval source _ hpends hactive
    (approval.workspaceRef = task.repository)
  rw [true_and, ← hwrites]
  simp only [exec, discard_returns, resolveEffectApproval, bind_returns, query_returns,
    requireApproval_returns, requireEffect_returns, requireTask_returns, ite_returns, repeatDecision,
    raiseIf_returns, checkVersion_returns, actualConfigVersion_returns, pure_returns, existsAndEq,
    exists_const, true_and, and_assoc, not_not, ne_eq]
  constructor
  · rintro ⟨result, current, hrow, -, other, hother, row, hrowTask, hbranch⟩
    cases Option.some.inj (hpends.row.symm.trans hrow)
    cases Option.some.inj (hpends.loadsEffect.1.symm.trans hother.1)
    cases Option.some.inj (hpends.loadsTask.1.symm.trans hrowTask.1)
    rcases hbranch with ⟨hdecided, -⟩ | ⟨-, -, actualConfig, hactual, hwrite⟩
    · exact absurd hpends.pending hdecided
    · cases configVersion_eq hconfig hactual
      simp only [bound_iff hcovers] at hwrite
      exact ⟨result, hwrite⟩
  · rintro ⟨result, hwrite⟩
    refine ⟨result, approval, hpends.row, hpends.valid, effect, hpends.loadsEffect, task,
      hpends.loadsTask, Or.inr ⟨hpends.pending, fun _ hversion => Option.some.inj hversion,
        configVersion, ?_, ?_⟩⟩
    · exact hconfig.imp (fun hnone => ⟨hnone.1, rfl⟩) id
    · simp only [bound_iff hcovers]
      exact hwrite

omit [Sha256] in
theorem bookkept_answered (hbook : s.Bookkept task) (hpends : s.Pends task effect approval)
    (bound : Bool) : (s.answered now effect task approval bound source).Bookkept task := by
  have hrow : s.tasks.get? task.id = some task := by
    rw [hpends.loadsTask.id_eq]
    exact hpends.loadsTask.1
  exact hbook.of_writes rfl rfl (isSome_set hrow (resumed_id task))

/-- When a grant is accepted. -/
theorem grantCall_accepted (hbook : s.Bookkept task) (hpends : s.Pends task effect approval)
    (hactive : task.outcome = .active) (hconfig : s.ConfigVersion task configVersion)
    (hcovers : approval.Covering effect policyVersion configVersion) :
    Call.Accepted s (grantCall now approval source task policyVersion configVersion)
      ↔ s.Takes task
        [(approval.answerEntry now task.id (approval.workspaceRef = task.repository) source).id] := by
  have hrow : s.tasks.get? task.id = some task := by
    rw [hpends.loadsTask.id_eq]
    exact hpends.loadsTask.1
  have hsteady := isSome_set hrow (resumed_id task)
  have htakes : (s.answered now effect task approval (approval.workspaceRef = task.repository)
      source).Takes task
        [(approval.answerEntry now task.id (approval.workspaceRef = task.repository) source).id]
      ↔ _ := takes_congr (s := s) (t := s.answered ..) rfl rfl hsteady
  rw [← htakes, ← true_and (Store.Takes _ _ _)]
  exact accepted_journalled (bookkept_answered hbook hpends _)
    (List.forall_mem_singleton.mpr (journalEntry_of task)) (List.cons_ne_nil _ _) rfl rfl rfl
    (fun s' => resolveEffectApproval_iff hpends hactive hconfig hcovers)

end Decision

/-! ### The claim -/

section Claim

variable {s s' : Store} {now : Timestamp} {task : Task} {effect : Effect} {approval : Approval}
  {guard : LeaseGuard} {execution : Execution} {policyVersion configVersion : String}

/-- A prepared effect with an approval that covers it, and a live guard. -/
structure Store.Granted [Sha256] (s : Store) (now : Timestamp) (task : Task) (effect : Effect)
    (approval : Approval) (guard : LeaseGuard) (execution : Execution)
    (policyVersion configVersion : String) : Prop where
  guards : s.Guards now guard execution
  loadsEffect : s.LoadsEffect effect.id effect
  loadsTask : s.LoadsTask effect.taskId task
  prepared : effect.status = .prepared
  linked : effect.approvalId = some approval.id
  gated : effect.persistedDecision = "require_approval"
  executable : effect.preparationError = none
  called : effect.providerCallId ≠ ""
  row : s.approvals.get? approval.id = some approval
  valid : approval.Valid
  approved : approval.status = .approved
  covers : approval.Covering effect policyVersion configVersion
  workspace : approval.workspaceRef = task.repository
  config : s.ConfigVersion task configVersion
  configNamed : configVersion ≠ ""

variable [Sha256]

/-- The rows that a claim with an approval writes. -/
def Store.claimedRows (s : Store) (effect : Effect) (approval : Approval) : Store :=
  (s.putEffect (effect.claimed true)).putApproval approval.consumed

/-- The entries of a claim with an approval. -/
def claimEntries (task : Task) (effect : Effect) (approval : Approval) : List Entry :=
  [approval.consumed.journalEntry "approval.consumed" task.id,
    (effect.claimed true).claimEntry task.id]

omit [Sha256] in
theorem suppliedOr_self {text default : String} (hdefault : text = "" → default = text) :
    suppliedOr (some text) default = text := by
  by_cases hempty : text = ""
  · simp only [suppliedOr, hempty, if_true]
    rw [hdefault hempty, hempty]
  · simp only [suppliedOr, hempty, if_false]

/-- The approval that the claim consumes. -/
theorem consumedApproval_granted
    (hgranted : s.Granted now task effect approval guard execution policyVersion configVersion) :
    (consumedApproval effect (renewalConditions s task effect policyVersion configVersion)
      task.repository configVersion).Returns s (some approval.consumed) s := by
  have hworkspace : suppliedOr (some task.repository) task.repository = task.repository :=
    suppliedOr_self fun _ => rfl
  have hpolicy : suppliedOr (some policyVersion) approval.policyVersion = policyVersion :=
    suppliedOr_self fun _ => hgranted.covers.policyVersion
  have hconfig : suppliedOr (some configVersion) configVersion = configVersion :=
    suppliedOr_self fun _ => rfl
  have hmatches : approval.MatchesExecutionConditions effect task.repository policyVersion
      configVersion :=
    ⟨hgranted.covers.effectId, hgranted.covers.effectFingerprint,
      hgranted.covers.argumentsFingerprint, hgranted.workspace, hgranted.covers.policyVersion,
      hgranted.covers.configVersion⟩
  have hconsumed : (consumeApproval approval effect
      (suppliedOr (some task.repository) task.repository)
      (suppliedOr (some policyVersion) approval.policyVersion)
      (suppliedOr (some configVersion) configVersion)).Returns s approval.consumed s := by
    rw [hworkspace, hpolicy, hconfig]
    refine bind_returns.mpr ⟨(), s, raiseIf_returns.mpr ⟨not_not.mpr hgranted.approved, rfl⟩, ?_⟩
    exact bind_returns.mpr ⟨(), s, raiseIf_returns.mpr ⟨not_not.mpr hmatches, rfl⟩,
      pure_returns.mpr ⟨rfl, rfl⟩⟩
  unfold consumedApproval
  rw [hgranted.linked]
  refine bind_returns.mpr ⟨some approval, s, query_returns.mpr ⟨hgranted.row, rfl⟩, ?_⟩
  refine bind_returns.mpr ⟨approval, s,
    requireApproval_returns.mpr ⟨rfl, hgranted.valid, rfl⟩, ?_⟩
  exact bind_returns.mpr ⟨approval.consumed, s, hconsumed, pure_returns.mpr ⟨rfl, rfl⟩⟩

/-- The effect and its task, after the rows of the claim are written. -/
theorem loads_claimedRows
    (hgranted : s.Granted now task effect approval guard execution policyVersion configVersion) :
    (s.claimedRows effect approval).LoadsEffect approval.consumed.effectId (effect.claimed true)
      ∧ (s.claimedRows effect approval).LoadsTask (effect.claimed true).taskId task := by
  refine ⟨⟨?_, hgranted.loadsEffect.2⟩, hgranted.loadsTask⟩
  have hid : approval.consumed.effectId = effect.id := hgranted.covers.effectId
  have hwritten : (s.effects.set (effect.claimed true)).get? effect.id
      = some (effect.claimed true) := Table.get?_set_self hgranted.loadsEffect.1
  rw [hid]
  exact hwritten

theorem claimEffect_iff
    (hgranted : s.Granted now task effect approval guard execution policyVersion configVersion) :
    (exec now (.claimEffect effect.id effect.version guard
        (renewalConditions s task effect policyVersion configVersion))).Returns s () s'
      ↔ s.pendingControls task.id = []
        ∧ (s.claimedRows effect approval).CanJournalAll now task (claimEntries task effect approval)
        ∧ s' = (s.claimedRows effect approval).journaledAll now task
          (claimEntries task effect approval) := by
  obtain ⟨hloads, hloadsTask⟩ := loads_claimedRows hgranted
  have hcan := @canJournalApproval_iff _ _ _ _ _ "approval.consumed" now task hloads hloadsTask rfl
    rfl
  have hjournaled := @journaledApproval_eq _ _ _ _ _ "approval.consumed" now task hloads hloadsTask
    rfl rfl
  constructor
  · intro hreturns
    obtain ⟨claimed, hreturns⟩ := discard_returns.mp hreturns
    obtain ⟨execution', current, task', actualConfig, consumed, hclaims, happroval, -, hjournal,
      hafter⟩ := claimEffect_returns hreturns
    cases Option.some.inj (hgranted.loadsEffect.1.symm.trans hclaims.loadsEffect.1)
    cases Option.some.inj (hgranted.loadsTask.1.symm.trans hclaims.loadsTask.1)
    rcases happroval with ⟨hunlinked, -⟩ | ⟨other, hconsumes, rfl⟩
    · rw [hgranted.linked] at hunlinked
      cases hunlinked
    · have hother := hgranted.linked.symm.trans hconsumes.linked
      have hrow := hconsumes.row
      rw [← Option.some.inj hother, hgranted.row] at hrow
      cases hrow
      obtain ⟨hfirst, hsecond⟩ := hjournal
      have hfirst := hcan.mp (hfirst _ rfl)
      refine ⟨hclaims.uncontrolled, ⟨hfirst.1, ?_, trivial⟩, ?_⟩
      · have hsecond : ((s.claimedRows effect approval).journaledApproval now approval.consumed
            "approval.consumed").CanJournalFor task ((effect.claimed true).claimEntry task.id) :=
          hsecond
        rw [hjournaled] at hsecond
        exact hsecond
      · have hafter : s' = ((s.claimedRows effect approval).journaledApproval now approval.consumed
            "approval.consumed").journaledFor now task ((effect.claimed true).claimEntry task.id) :=
          hafter
        rw [hjournaled] at hafter
        exact hafter
  · rintro ⟨huncontrolled, ⟨hfirst, hsecond, -⟩, rfl⟩
    have hjournal := hcan.mpr ⟨hfirst, trivial⟩
    have hwrites : (writeClaim now effect task (some approval.consumed)).Returns s
        (effect.claimed true) ((s.claimedRows effect approval).journaledAll now task
          (claimEntries task effect approval)) := by
      have heffectRow : s.effects.get? (effect.claimed true).id ≠ none := by
        rw [show s.effects.get? (effect.claimed true).id = _ from hgranted.loadsEffect.1]
        exact Option.some_ne_none _
      have happrovalRow : s.approvals.get? approval.consumed.id ≠ none := by
        rw [show s.approvals.get? approval.consumed.id = _ from hgranted.row]
        exact Option.some_ne_none _
      refine bind_returns.mpr ⟨(), _, writeEffect_returns.mpr ⟨heffectRow, rfl⟩, ?_⟩
      refine bind_returns.mpr ⟨(), (s.claimedRows effect approval).journaledAll now task
        [approval.consumed.journalEntry "approval.consumed" task.id],
          forM_option_returns.mpr (Or.inr ⟨_, rfl, ?_⟩), ?_⟩
      · refine bind_returns.mpr ⟨(), _, writeApproval_returns.mpr ⟨happrovalRow, rfl⟩, ?_⟩
        exact journalApproval_returns.mpr ⟨hjournal, hjournaled.symm⟩
      · exact bind_returns.mpr ⟨_, _, journalTask_returns.mpr ⟨hsecond, rfl, rfl⟩,
          pure_returns.mpr ⟨rfl, rfl⟩⟩
    have hactual : suppliedOr (some configVersion) "1" = configVersion :=
      suppliedOr_self fun hempty => absurd hempty hgranted.configNamed
    simp only [exec, discard_returns, claimEffect, bind_returns, assertGuard_returns,
      requireEffect_returns, checkVersion_returns, raiseIf_returns, requireTask_returns,
      query_returns, checkInputSequence_returns, actualConfigVersion_returns, existsAndEq,
      exists_const, true_and, and_assoc, not_not, ne_eq, not_or, List.head?_eq_none_iff]
    refine ⟨effect.claimed true, execution, hgranted.guards, effect, hgranted.loadsEffect,
      fun _ hversion => Option.some.inj hversion, hgranted.prepared, task, hgranted.loadsTask, ?_, ?_,
      configVersion, ?_, ?_, ?_, ?_, hgranted.executable, ?_, ?_, some approval.consumed, s, ?_,
      hwrites⟩
    · exact huncontrolled
    · rintro sessionId hsession sequence hsequence
      rw [Option.mem_def] at hsession hsequence
      simp only [renewalConditions, hsession, Option.map_some] at hsequence
      exact Option.some.inj hsequence
    · exact hgranted.config.imp (fun hnone => ⟨hnone.1, rfl⟩) id
    · simp [renewalConditions]
    · simp [renewalConditions]
    · simp [renewalConditions, hactual]
    · rw [hgranted.gated]
      decide
    · simp [renewalConditions, hgranted.gated]
    · rw [hactual]
      exact consumedApproval_granted hgranted

/-- When a claim with an approval is accepted. -/
theorem claimEffect_accepted (hbook : s.Bookkept task)
    (hgranted : s.Granted now task effect approval guard execution policyVersion configVersion) :
    Call.Accepted s (.op ⟨now, .claimEffect effect.id effect.version guard
        (renewalConditions s task effect policyVersion configVersion)⟩)
      ↔ s.pendingControls task.id = []
        ∧ s.Takes task ((claimEntries task effect approval).map Entry.id) := by
  have htakes : (s.claimedRows effect approval).Takes task
      ((claimEntries task effect approval).map Entry.id)
        ↔ s.Takes task ((claimEntries task effect approval).map Entry.id) :=
    takes_congr (s := s) (t := s.claimedRows effect approval) rfl rfl fun _ => rfl
  have hclaimed : ((effect.claimed true).claimEntry task.id).Of task :=
    ⟨rfl, fun hempty => hgranted.called (Option.some.inj hempty)⟩
  have hentries : ∀ entry ∈ claimEntries task effect approval, entry.Of task :=
    List.forall_mem_cons.mpr ⟨journalEntry_of task, List.forall_mem_singleton.mpr hclaimed⟩
  have hrows : (s.claimedRows effect approval).Bookkept task :=
    hbook.of_writes rfl rfl fun _ => rfl
  rw [← htakes]
  exact accepted_journalled hrows hentries (List.cons_ne_nil _ _) rfl rfl rfl
    fun s' => claimEffect_iff hgranted

end Claim

/-! ### Renewal -/

section Renewal

variable [Sha256] {s : Store} {requestedAt grantedAt claimedAt : Timestamp} {task : Task}
  {effect : Effect} {guard : LeaseGuard} {execution : Execution} {approval : Approval}
  {policyVersion configVersion source : String}

/-- The effect can be put to this approval: the request is accepted and leaves it waiting, and once the
request is granted the effect can be claimed. -/
def Store.Renews (s : Store) (task : Task) (effect : Effect) (approval : Approval)
    (guard : LeaseGuard) (policyVersion configVersion source : String)
    (requestedAt grantedAt claimedAt : Timestamp) : Prop :=
  let request := requestCall requestedAt effect approval guard
  let grant := grantCall grantedAt approval source task policyVersion configVersion
  request.Accepted s
    ∧ (callStep s request).effects.get? effect.id = some (effect.waiting approval.id)
    ∧ grant.Accepted (callStep s request)
    ∧ (claimCall s claimedAt task effect policyVersion configVersion guard).Accepted
      (callStep (callStep s request) grant)

/-- The ids under which the request, the grant and the claim are journalled. -/
def renewalIds (effect : Effect) (approval : Approval) : List String :=
  [journalEventId "approval.requested" approval.id (toString approval.version),
    journalEventId "approval.decided" approval.id (toString (approval.version + 1)),
    journalEventId "approval.consumed" approval.id (toString (approval.version + 2)),
    journalEventId "effect.claimed" effect.id (toString (effect.version + 3))]

/-- What stands in the way of an approval: one that the effect has had, one under the same id, a control
request, a workspace that the redactor changes, or a journal that has an entry's id. -/
structure Store.Renewable (s : Store) (task : Task) (effect : Effect) (approval : Approval) :
    Prop where
  unapproved : s.approvalOfEffect effect.id = none
  fresh : s.approvals.get? approval.id = none
  uncontrolled : s.pendingControls task.id = []
  workspace : approval.workspaceRef = task.repository
  journal : s.Takes task (renewalIds effect approval)

/-- A request as it is first made. -/
structure Approval.Asks (approval : Approval) (effect : Effect)
    (policyVersion configVersion : String) : Prop where
  covers : approval.Covering effect policyVersion configVersion
  pending : approval.status = .pending
  undecided : approval.decisionSource = none

theorem Approval.Asks.valid (hasks : approval.Asks effect policyVersion configVersion) :
    approval.Valid := by
  intro text htext
  rw [hasks.undecided] at htext
  cases htext

/-- The database after an accepted request. -/
def Store.afterRequest (s : Store) (now : Timestamp) (execution : Execution) (effect : Effect)
    (task : Task) (approval : Approval) : Store :=
  (s.requested execution effect task approval).journaledAll now task
    [approval.journalEntry "approval.requested" task.id]

/-- The database after an accepted grant. -/
def Store.afterGrant (s : Store) (now : Timestamp) (effect : Effect) (task : Task)
    (approval : Approval) (bound : Bool) (source : String) : Store :=
  (s.answered now effect task approval bound source).journaledAll now task
    [approval.answerEntry now task.id bound source]

omit [Sha256] in
theorem Store.Bookkept.journaledAll {entries : List Entry} {now : Timestamp}
    (hbook : s.Bookkept task) (hcan : s.CanJournalAll now task entries) :
    (s.journaledAll now task entries).Bookkept task := by
  induction entries generalizing s with
  | nil => exact hbook
  | cons entry rest ih => exact ih (hbook.journaledFor hcan.1) hcan.2

omit [Sha256] in
/-- What a session takes after some entries, in the database in which they are written with rows that
do not concern the journal. -/
theorem takes_after {t : Store} {now : Timestamp} {entry : Entry} {ids : List String}
    (hbook : t.Bookkept task) (hentry : entry.Of task) (hsessions : t.sessions = s.sessions)
    (hevents : t.sessionEvents = s.sessionEvents)
    (htasks : ∀ id, (t.tasks.get? id).isSome = (s.tasks.get? id).isSome)
    (htakes : s.Takes task [entry.id]) :
    (t.journaledAll now task [entry]).Bookkept task
      ∧ ((t.journaledAll now task [entry]).Takes task ids ↔ s.Takes task (entry.id :: ids)) := by
  have hentries : ∀ other ∈ [entry], other.Of task := List.forall_mem_singleton.mpr hentry
  have hsame : ∀ ids, t.Takes task ids ↔ s.Takes task ids := fun _ =>
    takes_congr hsessions hevents htasks
  have hcan : t.CanJournalAll now task [entry] := by
    refine (canJournalAll_iff hbook hentries).mpr fun session hsession => ?_
    obtain ⟨-, hnodup, hfree⟩ := (hsame _).mpr htakes session hsession
    exact ⟨hnodup, fun other hother => hfree _ (List.mem_map_of_mem hother)⟩
  refine ⟨hbook.journaledAll hcan, ?_⟩
  rw [takes_append hbook hentries ((hsame _).mpr htakes), hsame]
  rfl

omit [Sha256] in
/-- The configuration of the session is the same after entries and rows of another kind. -/
theorem configVersion_after {t : Store} {now : Timestamp} {written : Task} {entries : List Entry}
    (hconfig : s.ConfigVersion task configVersion) (hsessions : t.sessions = s.sessions)
    (hreference : written.sessionId = task.sessionId) :
    (t.journaledAll now task entries).ConfigVersion written configVersion := by
  have hsame : ∀ u : Store, u.sessionOf written = u.sessionOf task := by
    intro u
    rw [Store.sessionOf, Store.sessionOf, hreference]
  rcases hconfig with ⟨hnone, hconfig⟩ | ⟨session, hsession, hconfig⟩
  · exact Or.inl ⟨hreference.trans hnone, hconfig⟩
  · have hbefore : t.sessionOf task = some session := by
      rw [Store.sessionOf, hsessions]
      exact hsession
    have hafter := @sessionOf_journaledAll t now task session entries hbefore
    exact Or.inr ⟨_, (hsame _).trans hafter, hconfig⟩

omit [Sha256] in
theorem resumed_repository (task : Task) : task.resumed.repository = task.repository := by
  unfold Task.resumed
  split <;> rfl

omit [Sha256] in
/-- A session that takes several entries takes the first. -/
theorem takes_head {id : String} {ids : List String} (htakes : s.Takes task (id :: ids)) :
    s.Takes task [id] := by
  intro session hsession
  obtain ⟨hthere, -, hfree⟩ := htakes session hsession
  refine ⟨hthere, List.nodup_singleton id, List.forall_mem_singleton.mpr ?_⟩
  exact hfree id List.mem_cons_self

omit [Sha256] in
theorem takes_of_reference {written : Task} {ids : List String}
    (hreference : written.sessionId = task.sessionId) : s.Takes written ids ↔ s.Takes task ids := by
  simp only [Store.Takes, Store.sessionOf, hreference]

/-- The conditions of the claim are those of the task and the effect before the grant. -/
theorem renewalConditions_afterGrant :
    renewalConditions (s.afterGrant grantedAt effect task approval true source) task.resumed
        (effect.resolved true) policyVersion configVersion
      = renewalConditions s task effect policyVersion configVersion := by
  have hfingerprint : (effect.resolved true).contentFingerprint = effect.contentFingerprint := rfl
  have hturns : (s.afterGrant grantedAt effect task approval true source).lastTurnSequence
      = s.lastTurnSequence := rfl
  rw [renewalConditions, renewalConditions, hfingerprint, hturns, resumed_repository,
    resumed_sessionId]

/-- A claim after the grant is accepted where no control request is pending and the journal takes its
entries. -/
theorem claim_afterGrant (hbook : s.Bookkept task) (hpends : s.Pends task effect approval)
    (hgranted : (s.afterGrant grantedAt effect task approval true source).Granted claimedAt
      task.resumed (effect.resolved true) (approval.decided grantedAt true source) guard execution
      policyVersion configVersion)
    (htakes : s.Takes task [(approval.answerEntry grantedAt task.id true source).id]) :
    Call.Accepted (s.afterGrant grantedAt effect task approval true source)
        (.op ⟨claimedAt, .claimEffect effect.id (effect.version + 1) guard
          (renewalConditions s task effect policyVersion configVersion)⟩)
      ↔ s.pendingControls task.id = []
        ∧ s.Takes task [(approval.answerEntry grantedAt task.id true source).id,
          journalEventId "approval.consumed" approval.id (toString (approval.version + 2)),
          journalEventId "effect.claimed" effect.id (toString (effect.version + 2))] := by
  have hrow : s.tasks.get? task.id = some task := by
    rw [hpends.loadsTask.id_eq]
    exact hpends.loadsTask.1
  obtain ⟨hbook₂, htakes₂⟩ := @takes_after s task
    (s.answered grantedAt effect task approval true source) grantedAt
    (approval.answerEntry grantedAt task.id true source)
    [journalEventId "approval.consumed" approval.id (toString (approval.version + 2)),
      journalEventId "effect.claimed" effect.id (toString (effect.version + 2))]
    (bookkept_answered hbook hpends true) (journalEntry_of task) rfl rfl
    (isSome_set hrow (resumed_id task)) htakes
  have hresumed : (s.afterGrant grantedAt effect task approval true source).Bookkept
      task.resumed := by
    refine ⟨hbook₂.counted, ?_, ?_⟩
    · rw [resumed_sessionId]
      exact hbook₂.session
    · rw [resumed_id]
      exact hbook₂.task
  have haccepted := claimEffect_accepted hresumed hgranted
  rw [renewalConditions_afterGrant, takes_of_reference (resumed_sessionId task)] at haccepted
  rw [← htakes₂]
  have hcontrols : (s.afterGrant grantedAt effect task approval true source).pendingControls
      task.resumed.id = s.pendingControls task.id := by
    rw [resumed_id]
    rfl
  rw [hcontrols] at haccepted
  exact haccepted

section Rounds

variable (hbook : s.Bookkept task)
  (hawaits : s.Awaits task effect guard execution requestedAt claimedAt)
  (hasks : approval.Asks effect policyVersion configVersion)
include hawaits hasks

/-- The request waits for its decision. -/
theorem pends_requested (hfresh : s.approvals.get? approval.id = none) :
    (s.afterRequest requestedAt execution effect task approval).Pends task.waiting
      (effect.waiting approval.id) approval := by
  obtain ⟨hloads, hloadsTask⟩ :
      (s.requested execution effect task approval).LoadsEffect effect.id (effect.waiting approval.id)
        ∧ (s.requested execution effect task approval).LoadsTask effect.taskId task.waiting :=
    loads_requested hawaits
  refine ⟨Table.get?_insert_self hfresh, hasks.valid, hasks.pending, ?_, hloadsTask⟩
  rw [hasks.covers.effectId]
  exact hloads

/-- The effect may be claimed once its request is granted. -/
theorem granted_afterGrant (hfresh : s.approvals.get? approval.id = none)
    (hworkspace : approval.workspaceRef = task.repository)
    (hconfig : s.ConfigVersion task configVersion) (hnamed : configVersion ≠ "")
    (hsource : source ≠ "" ∧ source.length ≤ 256) :
    ((s.afterRequest requestedAt execution effect task approval).afterGrant grantedAt
        (effect.waiting approval.id) task.waiting approval true source).Granted claimedAt
      task.waiting.resumed ((effect.waiting approval.id).resolved true)
      (approval.decided grantedAt true source) guard execution.waiting policyVersion
      configVersion := by
  have hpends := pends_requested hawaits hasks hfresh
  obtain ⟨hloads, hloadsTask⟩ := @loads_answered _ grantedAt _ _ _ source hpends hawaits.active true
  have hid : (approval.answered grantedAt true source).effectId = effect.id := hasks.covers.effectId
  rw [hid] at hloads
  have hexecution : s.executions.get? execution.waiting.id = some execution :=
    Table.get?_of_mem (Table.mem_of_get? hawaits.guards.row)
  have hguardId : execution.waiting.id = guard.executionId :=
    Table.key_of_get? hawaits.guards.row
  have hexecution' : (s.executions.set execution.waiting).get? execution.waiting.id
      = some execution.waiting := Table.get?_set_self hexecution
  rw [hguardId] at hexecution'
  have hguards : s.Guards requestedAt guard execution := hawaits.guards
  have hactive : execution.waiting.status.Active := by
    change ExecutionStatus.Active .waitingForApproval
    decide
  refine ⟨⟨hexecution', hguards.fields, hawaits.live, hactive⟩, hloads, hloadsTask, rfl, rfl,
    hawaits.gated, hawaits.executable, hawaits.called, ?_, ?_, rfl, ?_, ?_, ?_, hnamed⟩
  · exact Table.get?_set_self hpends.row
  · rintro text htext
    cases htext
    exact hsource
  · obtain ⟨heffect, hfingerprint, harguments, hpolicy, hconfiguration⟩ := hasks.covers
    exact ⟨heffect, hfingerprint, harguments, hpolicy, hconfiguration⟩
  · have hrepository : task.waiting.resumed.repository = task.repository := by
      unfold Task.resumed
      split <;> rfl
    rw [hrepository]
    exact hworkspace
  · have hwaiting : (s.afterRequest requestedAt execution effect task approval).ConfigVersion
        task.waiting configVersion := configVersion_after hconfig rfl rfl
    exact configVersion_after hwaiting rfl (resumed_sessionId _)

/-- An effect whose request has expired may not be claimed. -/
theorem claim_refused_of_expired (hfresh : s.approvals.get? approval.id = none) :
    ¬ (claimCall s claimedAt task effect policyVersion configVersion guard).Accepted
      ((s.afterRequest requestedAt execution effect task approval).afterGrant grantedAt
        (effect.waiting approval.id) task.waiting approval false source) := by
  intro haccepted
  have hpends := pends_requested hawaits hasks hfresh
  obtain ⟨hloads, -⟩ := @loads_answered _ grantedAt _ _ _ source hpends hawaits.active false
  have hid : (approval.answered grantedAt false source).effectId = effect.id := hasks.covers.effectId
  rw [hid] at hloads
  obtain ⟨claimed, hreturns⟩ :=
    discard_returns.mp (callOp_returns.mp (callAccepted_iff.mp haccepted)).1
  obtain ⟨_, current, _, _, _, hclaims, happroval, -⟩ := claimEffect_returns hreturns
  cases Option.some.inj (hloads.1.symm.trans hclaims.loadsEffect.1)
  rcases happroval with ⟨-, hgated, -⟩ | ⟨other, hconsumes, -⟩
  · exact hgated hawaits.gated
  · have hlinked := hconsumes.linked
    cases hlinked

include hbook

/-- Once the request is made: its grant and the claim are accepted where the workspace of the request is
the task's, no control request is pending and the journal takes the entries. -/
theorem grant_claim_iff (hfresh : s.approvals.get? approval.id = none)
    (hrequested : s.Takes task [(approval.journalEntry "approval.requested" task.id).id])
    (hconfig : s.ConfigVersion task configVersion) (hnamed : configVersion ≠ "")
    (hsource : source ≠ "" ∧ source.length ≤ 256) :
    (grantCall grantedAt approval source task policyVersion configVersion).Accepted
          (s.afterRequest requestedAt execution effect task approval)
        ∧ (claimCall s claimedAt task effect policyVersion configVersion guard).Accepted
          (callStep (s.afterRequest requestedAt execution effect task approval)
            (grantCall grantedAt approval source task policyVersion configVersion))
      ↔ approval.workspaceRef = task.repository ∧ s.pendingControls task.id = []
        ∧ s.Takes task (renewalIds effect approval) := by
  have hactive : task.waiting.outcome = .active := hawaits.active
  have hcovers : approval.Covering (effect.waiting approval.id) policyVersion configVersion :=
    ⟨hasks.covers.effectId, hasks.covers.effectFingerprint, hasks.covers.argumentsFingerprint,
      hasks.covers.policyVersion, hasks.covers.configVersion⟩
  have hpends := @pends_requested _ _ requestedAt _ _ _ _ _ _ _ _ hawaits hasks hfresh
  have hsteady : ∀ id, ((s.requested execution effect task approval).tasks.get? id).isSome
      = (s.tasks.get? id).isSome := isSome_set hawaits.taskRow rfl
  -- What the session takes after the request.
  have hround : ∀ ids, (s.afterRequest requestedAt execution effect task approval).Bookkept
        task.waiting
      ∧ ((s.afterRequest requestedAt execution effect task approval).Takes task.waiting ids
        ↔ s.Takes task ((approval.journalEntry "approval.requested" task.id).id :: ids)) :=
    fun ids => by
      obtain ⟨hbook', htakes⟩ := @takes_after s task (s.requested execution effect task approval)
        requestedAt _ ids (bookkept_requested hbook hawaits) (journalEntry_of task) rfl rfl hsteady
        hrequested
      exact ⟨⟨hbook'.counted, hbook'.session, hbook'.task⟩, htakes⟩
  have hconfig₁ : (s.afterRequest requestedAt execution effect task approval).ConfigVersion
      task.waiting configVersion := configVersion_after hconfig rfl rfl
  have hbook₁ := (hround []).1
  have hgrant : (grantCall grantedAt approval source task policyVersion configVersion).Accepted
      (s.afterRequest requestedAt execution effect task approval)
        ↔ s.Takes task [(approval.journalEntry "approval.requested" task.id).id,
          (approval.answerEntry grantedAt task.id (approval.workspaceRef = task.repository)
            source).id] :=
    Iff.trans (@grantCall_accepted _ grantedAt task.waiting _ approval _ _ source _ hbook₁ hpends
      hactive hconfig₁ hcovers)
      (hround _).2
  have hafter : (grantCall grantedAt approval source task policyVersion configVersion).Accepted
      (s.afterRequest requestedAt execution effect task approval) →
        callStep (s.afterRequest requestedAt execution effect task approval)
            (grantCall grantedAt approval source task policyVersion configVersion)
          = (s.afterRequest requestedAt execution effect task approval).afterGrant grantedAt
            (effect.waiting approval.id) task.waiting approval
            (approval.workspaceRef = task.repository) source :=
    callStep_journalled fun _ => @resolveEffectApproval_iff _ _ grantedAt task.waiting _ approval _ _
      source _ hpends hactive hconfig₁ hcovers
  by_cases hworkspace : approval.workspaceRef = task.repository
  · have hbound : decide (approval.workspaceRef = task.repository) = true := decide_eq_true hworkspace
    rw [hbound] at hgrant hafter
    have hgranted := @granted_afterGrant _ _ requestedAt grantedAt claimedAt _ _ _ _ _ _ _ source
      hawaits hasks hfresh hworkspace hconfig hnamed hsource
    have hclaim := fun htakes => @claim_afterGrant _ _ grantedAt claimedAt task.waiting _ _ _ approval
      _ _ source hbook₁ hpends hgranted htakes
    constructor
    · rintro ⟨haccepted, hrest⟩
      rw [hafter haccepted] at hrest
      have htakes := (hround _).2.mpr (hgrant.mp haccepted)
      obtain ⟨huncontrolled, htakes⟩ := (hclaim htakes).mp hrest
      exact ⟨hworkspace, huncontrolled, (hround _).2.mp htakes⟩
    · rintro ⟨-, huncontrolled, hjournal⟩
      have htakes := (hround _).2.mpr hjournal
      have hfirst : (s.afterRequest requestedAt execution effect task approval).Takes task.waiting
          [(approval.answerEntry grantedAt task.id true source).id] := takes_head htakes
      have haccepted := hgrant.mpr ((hround _).2.mp hfirst)
      rw [hafter haccepted]
      exact ⟨haccepted, (hclaim hfirst).mpr ⟨huncontrolled, htakes⟩⟩
  · have hbound : decide (approval.workspaceRef = task.repository) = false :=
      decide_eq_false hworkspace
    rw [hbound] at hafter
    constructor
    · rintro ⟨haccepted, hrest⟩
      rw [hafter haccepted] at hrest
      exact absurd hrest (claim_refused_of_expired hawaits hasks hfresh)
    · rintro ⟨hsame, -⟩
      exact absurd hsame hworkspace

theorem renews_iff (hconfig : s.ConfigVersion task configVersion) (hnamed : configVersion ≠ "")
    (hsource : source ≠ "" ∧ source.length ≤ 256) :
    s.Renews task effect approval guard policyVersion configVersion source requestedAt grantedAt
        claimedAt
      ↔ s.Renewable task effect approval := by
  have hrequested := requestCall_accepted hbook hawaits hasks.covers.effectId hasks.pending hasks.valid
  have hstep := callStep_journalled (s := s) (fun _ => requestEffectApproval_iff hawaits
    hasks.covers.effectId hasks.pending hasks.valid)
  constructor
  · rintro ⟨hrequest, -, hrest⟩
    obtain ⟨⟨hfresh, hunapproved⟩, htakes⟩ := hrequested.mp hrequest
    rw [show callStep s (requestCall requestedAt effect approval guard)
      = s.afterRequest requestedAt execution effect task approval from hstep hrequest] at hrest
    obtain ⟨hworkspace, huncontrolled, hjournal⟩ :=
      (grant_claim_iff hbook hawaits hasks hfresh htakes hconfig hnamed hsource).mp hrest
    exact ⟨hunapproved, hfresh, huncontrolled, hworkspace, hjournal⟩
  · rintro ⟨hunapproved, hfresh, huncontrolled, hworkspace, hjournal⟩
    have htakes : s.Takes task [(approval.journalEntry "approval.requested" task.id).id] :=
      takes_head hjournal
    have hrequest := hrequested.mpr ⟨⟨hfresh, hunapproved⟩, htakes⟩
    have hafter : callStep s (requestCall requestedAt effect approval guard)
        = s.afterRequest requestedAt execution effect task approval := hstep hrequest
    have hrest := (@grant_claim_iff _ s requestedAt grantedAt claimedAt _ _ _ _ _ _ _ source hbook
      hawaits hasks hfresh htakes hconfig hnamed hsource).mpr ⟨hworkspace, huncontrolled, hjournal⟩
    rw [← hafter] at hrest
    refine ⟨hrequest, ?_, hrest⟩
    rw [hafter]
    exact (loads_requested hawaits).1.1

end Rounds

end Renewal

/-! ### Runs -/

/-- The lengths that the fields of an `Approval` must have. -/
def Approval.FieldsValid (approval : Approval) : Prop :=
  (approval.actionSummary ≠ "" ∧ approval.actionSummary.length ≤ 2000)
    ∧ approval.resourceSummary.length ≤ 2000
    ∧ (approval.policyVersion ≠ "" ∧ approval.policyVersion.length ≤ 128)
    ∧ approval.configVersion ≠ "" ∧ approval.configVersion.length ≤ 128

instance (approval : Approval) : Decidable approval.FieldsValid :=
  inferInstanceAs (Decidable ((_ ∧ _) ∧ _ ∧ (_ ∧ _) ∧ _ ∧ _))

section Runs

variable [Sha256] [Uuid5] [Redactor]

/-- The effect can be put to the approval that `build_approval` makes for it, and claimed once it is
approved. -/
def Store.RenewsApproval (s : Store) (task : Task) (effect : Effect) (guard : LeaseGuard)
    (policyVersion configVersion source : String) (requestedAt grantedAt claimedAt : Timestamp) :
    Prop :=
  let built := buildApproval task effect policyVersion configVersion requestedAt
  built.FieldsValid ∧ built.redact.FieldsValid
    ∧ s.Renews task effect built.redact guard policyVersion configVersion source requestedAt
      grantedAt claimedAt

/-- What an approval needs: the effect has had none and its id is new, no control request is pending, the
redactor leaves the workspace of the task, the summaries are not too long, and the journal has none of the
ids of its entries. -/
structure Store.ApprovalRenewable (s : Store) (task : Task) (effect : Effect) (built : Approval) :
    Prop where
  unapproved : s.approvalOfEffect effect.id = none
  fresh : s.approvals.get? built.id = none
  uncontrolled : s.pendingControls task.id = []
  workspace : Redactor.redactText task.repository = task.repository
  fields : built.FieldsValid ∧ built.redact.FieldsValid
  journal : s.Takes task (renewalIds effect built)

/-- A prepared effect that requires approval and has none, under a live guard of its running task, can be
put to approval and then claimed, exactly where the effect has had no approval before, no control
request is pending, and neither the redactor, the lengths of the fields nor the ids of the journal stand
in the way. An effect whose approval expired has had one. -/
theorem approval_renewed {s : Store} {history : List Call} (hinitial : s.Initial) {task : Task}
    {effect : Effect} {guard : LeaseGuard} {execution : Execution}
    {requestedAt grantedAt claimedAt : Timestamp} {policyVersion configVersion source : String}
    (hawaits : (runCalls s history).Awaits task effect guard execution requestedAt claimedAt)
    (hconfig : (runCalls s history).ConfigVersion task configVersion)
    (hsource : source ≠ "" ∧ source.length ≤ 256) :
    (runCalls s history).RenewsApproval task effect guard policyVersion configVersion source
        requestedAt grantedAt claimedAt
      ↔ (runCalls s history).ApprovalRenewable task effect
        (buildApproval task effect policyVersion configVersion requestedAt) := by
  have hcounted : (runCalls s history).JournalCounted :=
    Run.preserved_after Store.JournalCounted (fun _ _ => journalCounted_callStep) history
      (journalCounted_initial hinitial)
  have hbound : (runCalls s history).TasksBound :=
    Run.preserved_after Store.TasksBound (fun _ _ => tasksBound_callStep) history
      (tasksBound_initial hinitial)
  generalize runCalls s history = s at hawaits hconfig hcounted hbound ⊢
  have hrow := hawaits.taskRow
  have hbook : s.Bookkept task := by
    refine ⟨hcounted, hbound task (Table.mem_of_get? hrow), ?_⟩
    rw [Store.HasTask, Option.all_some, hrow]
    rfl
  have hasks : (buildApproval task effect policyVersion configVersion requestedAt).redact.Asks effect
      policyVersion configVersion := ⟨⟨rfl, rfl, rfl, rfl, rfl⟩, rfl, rfl⟩
  constructor
  · rintro ⟨hbuilt, hredacted, hrenews⟩
    obtain ⟨hunapproved, hfresh, huncontrolled, hworkspace, hjournal⟩ :=
      (renews_iff hbook hawaits hasks hconfig hbuilt.2.2.2.1 hsource).mp hrenews
    exact ⟨hunapproved, hfresh, huncontrolled, hworkspace, ⟨hbuilt, hredacted⟩, hjournal⟩
  · rintro ⟨hunapproved, hfresh, huncontrolled, hworkspace, ⟨hbuilt, hredacted⟩, hjournal⟩
    refine ⟨hbuilt, hredacted, ?_⟩
    exact (renews_iff hbook hawaits hasks hconfig hbuilt.2.2.2.1 hsource).mpr
      ⟨hunapproved, hfresh, huncontrolled, hworkspace, hjournal⟩

end Runs

section Samples

local instance approvalRenewalDigest : Sha256 := Sample.digest
local instance approvalRenewalUuid : Uuid5 := Sample.uuid5
local instance approvalRenewalRedactor : Redactor := Sample.redactor

/-- An effect that requires approval. -/
def Sample.gated : Effect :=
  { Sample.effect "e" "a" with policyResult := .obj [("decision", .str "require_approval")] }

/-- It is prepared. -/
def Sample.gatedCalls : List Call :=
  (Sample.started "s" "a" "x" 100).map .op
    ++ [.op ⟨1, .prepareEffects [Sample.gated] 2 (some (Sample.guard "x" "a"))⟩]

/-- Its approval is requested, and expires since the policy has changed; the task is run again. -/
def Sample.expiredCalls : List Call :=
  Sample.gatedCalls
    ++ [requestCall 2 Sample.gated
        (buildApproval (Sample.task "a") Sample.gated "1" "1" 2) (Sample.guard "x" "a"),
      .op ⟨3, .resolveEffectApproval
        (buildApproval (Sample.task "a") Sample.gated "1" "1" 2).id true "operator" 1 "/repo" "2" "1"⟩,
      .op ⟨4, .releaseExecution (Sample.guard "x" "a")⟩,
      .op ⟨5, .claimExecution (Sample.execution "y" "s" "a" 100) none⟩]

/-- The running task, and the execution that owns it. -/
def Sample.runningTask (version : Nat) : Task :=
  { Sample.task "a" with sessionId := some "s", runtimeCondition := .running, version }

def Sample.owning (id : String) (generation : Nat) : Execution :=
  { Sample.execution id "s" "a" 100 with status := .running, generation }

theorem approval_renewed_first :
    (runCalls {} Sample.gatedCalls).RenewsApproval (Sample.runningTask 2) Sample.gated
      (Sample.guard "x" "a") "1" "1" "operator" 2 3 4 := by
  have hawaits : (runCalls {} Sample.gatedCalls).Awaits (Sample.runningTask 2) Sample.gated
      (Sample.guard "x" "a") (Sample.owning "x" 1) 2 4 := by
    refine ⟨⟨?_, ?_, ?_, ?_⟩, ?_, ?_, ⟨?_, ?_⟩, ⟨?_, ?_⟩, ?_, ?_, ?_, ?_, ?_, ?_⟩ <;> decide +kernel
  have hsession : (runCalls {} Sample.gatedCalls).sessionOf (Sample.runningTask 2)
      = some { Sample.session "s" with
        activeTaskId := some "a", version := 2, eventSequence := 4 } := by decide +kernel
  refine (approval_renewed (Or.inl rfl) hawaits (Or.inr ⟨_, hsession, rfl⟩) (by decide)).mpr ?_
  refine ⟨?_, ?_, ?_, rfl, ?_, ?_⟩
  · decide +kernel
  · decide +kernel
  · decide +kernel
  · decide +kernel
  · intro session hother
    cases Option.some.inj (hsession.symm.trans hother)
    refine ⟨?_, ?_, ?_⟩ <;> decide +kernel

/-- The effect of the expired approval awaits a new one, and its request is refused. -/
theorem expired_approval_not_renewed :
    ((runCalls {} Sample.expiredCalls).approvalOfEffect "e").map Approval.status = some .expired
      ∧ (runCalls {} Sample.expiredCalls).Awaits (Sample.runningTask 5)
        { Sample.gated with version := 3 }
        { Sample.guard "y" "a" with generation := 2 } (Sample.owning "y" 2) 6 8
      ∧ (runCalls {} Sample.expiredCalls).ConfigVersion (Sample.runningTask 5) "1"
      ∧ ¬ (runCalls {} Sample.expiredCalls).RenewsApproval (Sample.runningTask 5)
        { Sample.gated with version := 3 }
        { Sample.guard "y" "a" with generation := 2 } "2" "1" "operator" 6 7 8 := by
  have hrows : ((runCalls {} Sample.expiredCalls).approvalOfEffect "e").map Approval.status = some .expired
      ∧ (runCalls {} Sample.expiredCalls).executions.get? "y" = some (Sample.owning "y" 2)
      ∧ (runCalls {} Sample.expiredCalls).effects.get? "e" = some { Sample.gated with version := 3 }
      ∧ (runCalls {} Sample.expiredCalls).tasks.get? "a" = some (Sample.runningTask 5)
      ∧ (runCalls {} Sample.expiredCalls).sessionOf (Sample.runningTask 5)
        = some { Sample.session "s" with
          activeTaskId := some "a", version := 2, eventSequence := 8 } := by
    decide +kernel
  obtain ⟨hexpired, hexecution, heffect, htask, hsession⟩ := hrows
  refine ⟨hexpired, ?_, Or.inr ⟨_, hsession, rfl⟩, ?_⟩
  · refine ⟨⟨hexecution, ?_, ?_, ?_⟩, ?_, ?_, ⟨heffect, ?_⟩, ⟨htask, ?_⟩, ?_, ?_, ?_, ?_, ?_, ?_⟩ <;>
      decide +kernel
  · rintro ⟨-, -, hrequest, -⟩
    exact absurd hrequest (by decide +kernel)

end Samples

end PatchLoop
