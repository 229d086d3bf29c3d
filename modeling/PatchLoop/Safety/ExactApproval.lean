import PatchLoop.Store.EffectChanges

/-!
# One-time exact approvals

An effect that requires approval runs only on an approval of exactly this effect, which the same
transaction consumes. An approval that was consumed, denied or expired is never written again.
-/

namespace PatchLoop

open Transaction

namespace ApprovalStatus

/-- No decision changes the approval any more. -/
def Final (status : ApprovalStatus) : Prop :=
  status ∈ [ApprovalStatus.consumed, .denied, .expired]

instance (status : ApprovalStatus) : Decidable status.Final :=
  inferInstanceAs (Decidable (_ ∈ _))

/-- How far an approval has come. -/
def rank : ApprovalStatus → Nat
  | pending => 0
  | approved => 1
  | consumed | denied | expired => 2

theorem rank_of_final {status : ApprovalStatus} (hfinal : status.Final) :
    status.rank = ApprovalStatus.consumed.rank := by
  cases status <;> first | rfl | exact absurd hfinal (by decide)

end ApprovalStatus

/-- The approval is for exactly this effect, and for the conditions that the claim supplies; an empty
policy version counts as not supplied. -/
structure Approval.Covers [Sha256] (approval : Approval) (effect : Effect) (task : Task)
    (conditions : ClaimConditions) : Prop where
  effectId : approval.effectId = effect.id
  effectFingerprint : approval.effectFingerprint = effect.contentFingerprint
  argumentsFingerprint : approval.argumentsFingerprint = effect.argumentsFingerprint
  workspace : approval.workspaceRef = task.repository
  policyVersion : ∀ text ∈ conditions.policyVersion, text ≠ "" → approval.policyVersion = text
  configVersion : ∀ text ∈ conditions.configVersion, approval.configVersion = text

section Steps

variable [Sha256] {s s' : Store} {now : Timestamp} {op : Op} {id : String}

omit [Sha256] in
theorem suppliedOr_of_ne {text default : String} (hne : text ≠ "") :
    suppliedOr (some text) default = text := by
  simp [suppliedOr, hne]

omit [Sha256] in
theorem suppliedOr_ne_empty {value : Option String} {default : String} (hdefault : default ≠ "") :
    suppliedOr value default ≠ "" := by
  cases value with
  | none => exact hdefault
  | some text =>
      by_cases hempty : text = ""
      · simp [suppliedOr, hempty, hdefault]
      · rw [suppliedOr_of_ne hempty]
        exact hempty

theorem covers_of_consumes {effectId : String} {version : Nat} {guard : LeaseGuard}
    {conditions : ClaimConditions} {execution : Execution} {current : Effect} {task : Task}
    {actualConfig : String} {approval : Approval}
    (hclaims : s.Claims now effectId version guard conditions execution current task actualConfig)
    (hconsumes : s.Consumes current task actualConfig conditions approval) :
    approval.Covers current task conditions := by
  obtain ⟨heffect, hcontent, harguments, hworkspace, hpolicy, hconfig⟩ := hconsumes.matched
  refine ⟨heffect, hcontent, harguments, ?_, ?_, ?_⟩
  · rw [hworkspace]
    cases hsupplied : conditions.workspaceRef with
    | none => rfl
    | some text =>
        have htext : text = task.repository := hclaims.workspace text hsupplied
        by_cases hempty : text = ""
        · simp [suppliedOr, hempty]
        · rw [suppliedOr_of_ne hempty]
          exact htext
  · intro text hsupplied hne
    rw [hpolicy, Option.mem_def.mp hsupplied]
    exact suppliedOr_of_ne hne
  · intro text hsupplied
    have htext : text = actualConfig := hclaims.configVersion text hsupplied
    obtain ⟨_, -, hactual⟩ := hclaims.config
    have hne : text ≠ "" := by
      rw [htext, hactual]
      exact suppliedOr_ne_empty (by decide)
    rw [hconfig, Option.mem_def.mp hsupplied]
    exact suppliedOr_of_ne hne

/-- Only a claim makes an effect that is there execute. -/
theorem claimed_of_executing {effect effect' : Effect}
    (hchange : EffectChange s now id op (some effect')) (hrow : s.effects.get? id = some effect)
    (hbefore : effect.status ≠ .executing) (hafter : effect'.status = .executing) :
    ∃ version guard conditions, op = .claimEffect id version guard conditions := by
  generalize hsome : some effect' = row at hchange
  cases hchange with
  | kept op =>
      cases Option.some.inj (hsome.trans hrow)
      exact absurd hafter hbefore
  | prepared hprepares hmem hid hnew => cases hnew.symm.trans hrow
  | batched hguards hcarries hmem hid hnew => cases hnew.symm.trans hrow
  | requested hrequests hprepared hid =>
      cases hsome
      exact absurd hafter (by simp [Effect.waiting])
  | @decided approvalId approved source version workspaceRef policyVersion configVersion current
      effect'' task actualConfig hresolves hid =>
      cases hsome
      refine absurd hafter ?_
      split
      · cases approved <;> simp [Effect.resolved]
      · simp [Effect.unbound]
  | @claimed effectId version guard conditions execution current task actualConfig consumed hclaims
      hid =>
      have hkey : current.id = effectId := hclaims.loadsEffect.id_eq
      exact ⟨version, guard, conditions, by rw [hid, hkey]⟩
  | @committed committed version resultRef observationRef guard observation execution current task
      hcommits hid =>
      cases hsome
      have hterminal := hcommits.terminal
      change committed.status = .executing at hafter
      rw [hafter] at hterminal
      exact absurd hterminal (by decide)
  | @markedUnknown effectId version evidence guard execution current task hmarks hid =>
      cases hsome
      cases Option.some.inj (hmarks.loadsEffect.row_of_id.symm.trans (hid ▸ hrow))
      unfold Effect.markedUnknown at hafter
      split at hafter
      · cases hafter
      · exact absurd hafter hbefore
  | @settled effectId status version call result guard execution current hsettles hid =>
      cases hsome
      have htarget := hsettles.target
      change status = .executing at hafter
      rw [hafter] at htarget
      exact absurd htarget (by decide)
  | @confirmed disposition taskId version task current target call result hresolves hkind hid =>
      cases hsome
      change (if result.success then EffectStatus.succeeded else .failed) = .executing at hafter
      split at hafter
      · cases hafter
      · cases hafter
  | retried hresolves hid hnew => cases hnew.symm.trans hrow

/-- What is left of the store's approvals when a claim consumes one of them. -/
theorem claim_consumes {effect : Effect} {version : Nat} {guard : LeaseGuard}
    {conditions : ClaimConditions}
    (hreturns : (exec now (.claimEffect id version guard conditions)).Returns s () s')
    (hrow : s.effects.get? id = some effect)
    (hdecision : effect.persistedDecision = "require_approval") :
    ∃ approval task, s.tasks.get? effect.taskId = some task
      ∧ s.approvals.get? approval.id = some approval ∧ approval.status = .approved
      ∧ approval.Covers effect task conditions
      ∧ s'.approvals.get? approval.id = some approval.consumed
      ∧ ∀ other ≠ approval.id, s'.approvals.get? other = s.approvals.get? other := by
  obtain ⟨_, hreturns⟩ := discard_returns.mp hreturns
  obtain ⟨execution, current, task, actualConfig, consumed, hclaims, happroval, -, -, rfl⟩ :=
    claimEffect_returns hreturns
  have hcurrent : current = effect := Option.some.inj (hclaims.loadsEffect.1.symm.trans hrow)
  subst hcurrent
  obtain ⟨-, hne, -⟩ | ⟨approval, hconsumes, rfl⟩ := happroval
  · exact absurd hdecision hne
  · have htable : (s.claimed now current task (some approval.consumed)).approvals
        = s.approvals.set approval.consumed := rfl
    refine ⟨approval, task, hclaims.loadsTask.1, hconsumes.row, hconsumes.approved,
      covers_of_consumes hclaims hconsumes, ?_, ?_⟩
    · rw [htable, Table.get?_set_row hconsumes.row]
      · exact if_pos rfl
      · rfl
    · intro other hother
      rw [htable, Table.get?_set_row hconsumes.row]
      · exact if_neg hother
      · rfl

/-- An approval row stays, and its status never goes back; once final, it is not written again. -/
theorem approval_kept {approval : Approval} {row : Option Approval}
    (hchange : ApprovalChange s now id op row) (hrow : s.approvals.get? id = some approval) :
    ∃ approval', row = some approval' ∧ approval.status.rank ≤ approval'.status.rank
      ∧ (approval.status.Final → approval' = approval) := by
  have hwritten : ∀ {current approval' : Approval}, current.status = .pending →
      id = current.id → s.approvals.get? current.id = some current →
        ∃ written, some approval' = some written
          ∧ approval.status.rank ≤ written.status.rank
          ∧ (approval.status.Final → written = approval) := by
    intro current approval' hpending hid hcurrent
    have heq : current = approval := Option.some.inj (hcurrent.symm.trans (hid ▸ hrow))
    rw [heq] at hpending
    refine ⟨approval', rfl, ?_, ?_⟩
    · rw [hpending]
      exact Nat.zero_le _
    · intro hfinal
      rw [hpending] at hfinal
      exact absurd hfinal (by decide)
  cases hchange with
  | kept op => exact ⟨approval, hrow, Nat.le_refl _, fun _ => rfl⟩
  | inserted hfree hid hnew => cases hnew.symm.trans hrow
  | written hexisting hpending hstatus hid hkey =>
      exact hwritten hpending hid (Table.get?_of_mem (List.mem_of_find?_eq_some hexisting))
  | requested hrequests hpending hid hnew => cases hnew.symm.trans hrow
  | decided hresolves hid =>
      have hkey := Table.key_of_get? hresolves.row
      exact hwritten hresolves.pending hid (by
        have hcurrent := hresolves.row
        rwa [← hkey] at hcurrent)
  | consumed hclaims hconsumes hid =>
      cases Option.some.inj (hconsumes.row.symm.trans (hid ▸ hrow))
      refine ⟨_, rfl, ?_, ?_⟩
      · rw [hconsumes.approved]
        change ApprovalStatus.approved.rank ≤ ApprovalStatus.consumed.rank
        decide
      · intro hfinal
        rw [hconsumes.approved] at hfinal
        exact absurd hfinal (by decide)
  | expired hsettles hpending hold hid => exact hwritten hpending hid hold
  | retried hresolves hpending hid hnew => cases hnew.symm.trans hrow

end Steps

section Runs

variable [Sha256] {s : Store}

def Store.approvalStatus (s : Store) (approvalId : String) : Option ApprovalStatus :=
  (s.approvals.get? approvalId).map Approval.status

def Store.approvalRank (s : Store) (approvalId : String) : Nat :=
  ((s.approvalStatus approvalId).map ApprovalStatus.rank).getD 0

/-- The approval is consumed after the step and was not before it. -/
def EntersConsumed (approvalId : String) (s s' : Store) : Prop :=
  s.approvalStatus approvalId ≠ some .consumed ∧ s'.approvalStatus approvalId = some .consumed

instance (approvalId : String) : DecidableRel (EntersConsumed approvalId) :=
  fun _ _ => inferInstanceAs (Decidable (_ ∧ _))

theorem approval_step (timed : Timed) {approvalId : String} {approval : Approval}
    (hrow : s.approvals.get? approvalId = some approval) :
    ∃ approval', (step s timed).approvals.get? approvalId = some approval'
      ∧ approval.status.rank ≤ approval'.status.rank
      ∧ (approval.status.Final → approval' = approval) := by
  obtain hsame | hreturns := step_cases s timed
  · exact ⟨approval, by rw [hsame]; exact hrow, Nat.le_refl _, fun _ => rfl⟩
  · exact approval_kept (approvalChange hreturns approvalId) hrow

theorem approvalRank_step (timed : Timed) (approvalId : String) :
    s.approvalRank approvalId ≤ (step s timed).approvalRank approvalId := by
  unfold Store.approvalRank Store.approvalStatus
  cases hrow : s.approvals.get? approvalId with
  | none => exact Nat.zero_le _
  | some approval =>
      obtain ⟨approval', hrow', hle, -⟩ := approval_step timed hrow
      rw [hrow']
      exact hle

/-- An approval that is consumed by a step was not final before it. -/
theorem approvalRank_consumed {timed : Timed} {approvalId : String}
    (henters : EntersConsumed approvalId s (step s timed)) :
    s.approvalRank approvalId < ApprovalStatus.consumed.rank
      ∧ ApprovalStatus.consumed.rank ≤ (step s timed).approvalRank approvalId := by
  obtain ⟨hbefore, hafter⟩ := henters
  constructor
  · unfold Store.approvalRank
    unfold Store.approvalStatus at hbefore hafter ⊢
    cases hrow : s.approvals.get? approvalId with
    | none => decide
    | some approval =>
        obtain ⟨approval', hrow', -, hfinal⟩ := approval_step timed hrow
        rw [hrow'] at hafter
        rw [hrow] at hbefore
        have hopen : ¬ approval.status.Final := fun h => hbefore (by
          rw [← hafter, hfinal h])
        change approval.status.rank < ApprovalStatus.consumed.rank
        revert hopen
        cases approval.status <;> decide
  · unfold Store.approvalRank
    rw [hafter]
    exact Nat.le_refl _

/-- In every state, an effect that requires approval and is not executing begins to execute only in a
claim that consumes an approved approval of exactly this effect and writes no other approval; over
every run an approval is consumed at most once, and a final one keeps its row. -/
theorem approvals_are_exact_and_used_once (s : Store) :
    (∀ timed effectId effect effect', s.effects.get? effectId = some effect →
        effect.status ≠ .executing → effect.persistedDecision = "require_approval" →
        (step s timed).effects.get? effectId = some effect' → effect'.status = .executing →
          ∃ version guard conditions approval task,
            timed.op = .claimEffect effectId version guard conditions
              ∧ s.tasks.get? effect.taskId = some task
              ∧ s.approvals.get? approval.id = some approval ∧ approval.status = .approved
              ∧ approval.Covers effect task conditions
              ∧ (step s timed).approvals.get? approval.id = some approval.consumed
              ∧ ∀ other ≠ approval.id,
                  (step s timed).approvals.get? other = s.approvals.get? other)
      ∧ (∀ history approvalId, Run.count step (EntersConsumed approvalId) s history ≤ 1)
      ∧ (∀ history approvalId approval, s.approvals.get? approvalId = some approval →
          approval.status.Final →
            (runFrom s history).approvals.get? approvalId = some approval) := by
  refine ⟨?_, ?_, ?_⟩
  · intro timed effectId effect effect' hrow hbefore hdecision hrow' hafter
    obtain hsame | hreturns := step_cases s timed
    · rw [hsame, hrow] at hrow'
      cases hrow'
      exact absurd hafter hbefore
    · have hchange := effectChange hreturns effectId
      rw [hrow'] at hchange
      obtain ⟨version, guard, conditions, hop⟩ := claimed_of_executing hchange hrow hbefore hafter
      rw [hop] at hreturns
      obtain ⟨approval, task, hclaim⟩ := claim_consumes hreturns hrow hdecision
      exact ⟨version, guard, conditions, approval, task, hop, hclaim⟩
  · intro history approvalId
    exact Run.count_le_one (fun s => s.approvalRank approvalId) ApprovalStatus.consumed.rank
      (fun _ timed _ => approvalRank_step timed approvalId) (fun _ _ _ => approvalRank_consumed)
      (Run.everyStep_true s history)
  · intro history approvalId approval hrow hfinal
    refine Run.preserved_after (fun t : Store =>
      t.approvals.get? approvalId = some approval) ?_ history hrow
    intro t timed hkept
    obtain ⟨approval', hrow', -, hsame⟩ := approval_step timed hkept
    rw [hrow', hsame hfinal]

end Runs

section Samples

local instance exactApprovalDigest : Sha256 := Sample.digest

/-- An effect whose persisted decision is `require_approval`. -/
def Sample.gatedEffect : Effect :=
  { Sample.effect "e" "a" with policyResult := .obj [("decision", .str "require_approval")] }

/-- Its approval is requested and given. -/
def Sample.approved : List Timed :=
  Sample.started "s" "a" "x" 100
    ++ [⟨1, .prepareEffects [Sample.gatedEffect] 2 (some (Sample.guard "x" "a"))⟩,
      ⟨2, .requestEffectApproval "e" (Sample.approval "p" Sample.gatedEffect) 1
        (Sample.guard "x" "a")⟩,
      ⟨3, .resolveEffectApproval "p" true "operator" 1 "/repo" "1" "1"⟩]

/-- A claim that supplies an empty policy version consumes an approval of another version, and a
batch may insert an effect that is executing already: no approval is consumed for it. -/
theorem empty_policy_version_is_not_compared :
    (((runFrom {} Sample.approved).approvals.get? "p").map Approval.policyVersion = some "1"
        ∧ Accepted (runFrom {} Sample.approved)
            ⟨4, .claimEffect "e" 3 (Sample.guard "x" "a") { policyVersion := some "" }⟩
        ∧ ((runFrom {} (Sample.approved
            ++ [⟨4, .claimEffect "e" 3 (Sample.guard "x" "a")
              { policyVersion := some "" }⟩])).approvals.get? "p").map Approval.status
          = some .consumed)
      ∧ (let executing := { Sample.gatedEffect with status := .executing }
        let s := runFrom {} (Sample.started "s" "a" "x" 100)
        (step s ⟨1, .prepareEffects [executing] 2 (some (Sample.guard "x" "a"))⟩).effects.get? "e"
          = some executing) := by
  decide +kernel

end Samples

end PatchLoop
