import PatchLoop.Store.EffectChanges

/-!
# The lifecycle of an effect

The operations write the status of an effect directly. What they make of it is nevertheless the
table of `Effect.transition`, with two more moves: a prepared effect may be cancelled without being
run, and an unknown one may be confirmed. The decision of an approval keeps to this only when the
effect still waits for it.
-/

namespace PatchLoop

open Transaction

/-! ### The lifecycle -/

/-- One move of the lifecycle; an unknown effect moves where its result is confirmed. -/
inductive LifecycleStep (confirms : Prop) : EffectStatus → EffectStatus → Prop where
  | kept (status : EffectStatus) : LifecycleStep confirms status status
  | transition {status target : EffectStatus} (hallowed : target ∈ status.allowed) :
      LifecycleStep confirms status target
  | cancelled : LifecycleStep confirms .prepared .cancelled
  | confirmed {target : EffectStatus} (hconfirms : confirms)
      (hresult : target ∈ [EffectStatus.succeeded, .failed]) : LifecycleStep confirms .unknown target

namespace EffectStatus

/-- The effect is over. -/
def Terminal (status : EffectStatus) : Prop :=
  status ∈ [EffectStatus.succeeded, .failed, .denied, .cancelled]

instance (status : EffectStatus) : Decidable status.Terminal :=
  inferInstanceAs (Decidable (_ ∈ _))

/-- How far an effect has come. -/
def rank : EffectStatus → Nat
  | prepared | waitingForApproval => 0
  | executing => 1
  | unknown => 2
  | succeeded | failed | denied | cancelled => 3

theorem allowed_of_terminal {status : EffectStatus} (hterminal : status.Terminal) :
    status.allowed = [] := by
  cases status <;> first | rfl | exact absurd hterminal (by decide)

end EffectStatus

section

variable {confirms : Prop} {status target : EffectStatus}

theorem LifecycleStep.rank_le (hstep : LifecycleStep confirms status target) :
    status.rank ≤ target.rank := by
  cases hstep with
  | kept => exact Nat.le_refl _
  | transition hallowed => cases status <;> cases target <;> revert hallowed <;> decide
  | cancelled => decide
  | confirmed hconfirms hresult => cases target <;> revert hresult <;> decide

/-- A step into `EXECUTING` starts below it. -/
theorem LifecycleStep.rank_lt (hstep : LifecycleStep confirms status .executing)
    (hne : status ≠ .executing) : status.rank < EffectStatus.executing.rank := by
  cases hstep with
  | kept => exact absurd rfl hne
  | transition hallowed => cases status <;> revert hallowed <;> decide
  | confirmed hconfirms hresult => exact absurd hresult (by decide)

theorem LifecycleStep.eq_of_terminal (hstep : LifecycleStep confirms status target)
    (hterminal : status.Terminal) : target = status := by
  cases hstep with
  | kept => rfl
  | transition hallowed =>
      rw [EffectStatus.allowed_of_terminal hterminal] at hallowed
      cases hallowed
  | cancelled => exact absurd hterminal (by decide)
  | confirmed hconfirms hresult => exact absurd hterminal (by decide)

theorem LifecycleStep.confirms_of_unknown (hstep : LifecycleStep confirms .unknown target)
    (hleft : target ≠ .unknown) : confirms := by
  cases hstep with
  | kept => exact absurd rfl hleft
  | transition hallowed => cases hallowed
  | confirmed hconfirms hresult => exact hconfirms

end

/-! ### The store follows the lifecycle -/

/-- A decision about a pending approval finds its effect prepared or waiting. -/
def DecidesInTime (s : Store) (timed : Timed) : Prop :=
  match timed.op with
  | .resolveEffectApproval approvalId _ _ _ _ _ _ =>
      ∀ approval ∈ s.approvals.get? approvalId, approval.status = .pending →
        ∀ effect ∈ s.effects.get? approval.effectId,
          effect.status ∈ [EffectStatus.prepared, .waitingForApproval]
  | _ => True

/-- The operation confirms the result of an effect. -/
def Op.Confirms (op : Op) (effectId : String) : Prop :=
  ∃ disposition taskId version call result,
    op = .resolveRecovery disposition taskId version
        { confirmedCall := some call, confirmedResult := some result }
      ∧ disposition.kind = .confirmResult ∧ disposition.unknownEffectId = effectId

section Steps

variable [Sha256] {s s' : Store} {now : Timestamp} {op : Op} {id : String}

omit [Sha256] in
theorem Store.LoadsEffect.eq_of_row {effectId : String} {current effect : Effect}
    (hload : s.LoadsEffect effectId current) (hid : id = current.id)
    (hrow : s.effects.get? id = some effect) : current = effect := by
  rw [hid, hload.row_of_id] at hrow
  exact Option.some.inj hrow

/-- An effect row stays with its task, and its status makes a move of the lifecycle. -/
theorem effect_kept {effect : Effect} {row : Option Effect}
    (hdecides : DecidesInTime s ⟨now, op⟩) (hchange : EffectChange s now id op row)
    (hrow : s.effects.get? id = some effect) :
    ∃ effect', row = some effect' ∧ effect'.taskId = effect.taskId
      ∧ LifecycleStep (op.Confirms id) effect.status effect'.status := by
  cases hchange with
  | kept op => exact ⟨effect, hrow, rfl, .kept _⟩
  | prepared hprepares hmem hid hnew => cases hnew.symm.trans hrow
  | batched hguards hcarries hmem hid hnew => cases hnew.symm.trans hrow
  | requested hrequests hprepared hid =>
      obtain rfl := hrequests.loadsEffect.eq_of_row hid hrow
      refine ⟨_, rfl, rfl, .transition ?_⟩
      rw [hprepared]
      change EffectStatus.waitingForApproval ∈ EffectStatus.prepared.allowed
      decide
  | @decided approvalId approved source version workspaceRef policyVersion configVersion current
      effect' task actualConfig hresolves hid =>
      obtain rfl := hresolves.loadsEffect.eq_of_row hid hrow
      have hstatus : effect'.status ∈ [EffectStatus.prepared, .waitingForApproval] :=
        hdecides current hresolves.row hresolves.pending effect' hresolves.loadsEffect.1
      refine ⟨_, rfl, ?_, ?_⟩
      · split <;> rfl
      · have hwritten : (if current.Bound effect' task actualConfig workspaceRef policyVersion
            configVersion then effect'.resolved approved else effect'.unbound).status
              ∈ [EffectStatus.prepared, .denied] := by
          split
          · cases approved <;> simp [Effect.resolved]
          · simp [Effect.unbound]
        generalize (if current.Bound effect' task actualConfig workspaceRef policyVersion
            configVersion then effect'.resolved approved else effect'.unbound).status = target
          at hwritten ⊢
        simp only [List.mem_cons, List.not_mem_nil, or_false] at hstatus hwritten
        rcases hstatus with hstatus | hstatus
        · rcases hwritten with rfl | rfl
          · rw [hstatus]
            exact .kept _
          · exact .transition (by rw [hstatus]; decide)
        · rcases hwritten with rfl | rfl
          · exact .transition (by rw [hstatus]; decide)
          · exact .transition (by rw [hstatus]; decide)
  | claimed hclaims hid =>
      obtain rfl := hclaims.loadsEffect.eq_of_row hid hrow
      refine ⟨_, rfl, rfl, .transition ?_⟩
      rw [hclaims.prepared]
      change EffectStatus.executing ∈ EffectStatus.prepared.allowed
      decide
  | @committed committed version resultRef observationRef guard observation execution current task
      hcommits hid =>
      obtain rfl := hcommits.loadsEffect.eq_of_row hid hrow
      have hkey : current.identityKey = committed.identityKey :=
        hcommits.compatible.1 hcommits.loadsEffect.id_eq
      refine ⟨_, rfl, (congrArg Prod.fst hkey).symm, .transition ?_⟩
      rw [hcommits.executing]
      exact hcommits.terminal
  | @markedUnknown effectId version evidence guard execution current task hmarks hid =>
      obtain rfl := hmarks.loadsEffect.eq_of_row hid hrow
      refine ⟨_, rfl, ?_, ?_⟩
      · unfold Effect.markedUnknown
        split <;> rfl
      · unfold Effect.markedUnknown
        split
        · rename_i hexecuting
          rw [hexecuting]
          exact .transition (by change EffectStatus.unknown ∈ _; decide)
        · exact .kept _
  | @settled effectId status version call result guard execution current hsettles hid =>
      obtain rfl := hsettles.loadsEffect.eq_of_row hid hrow
      refine ⟨_, rfl, rfl, ?_⟩
      change LifecycleStep _ current.status status
      have hunexecuted := hsettles.unexecuted
      have htarget := hsettles.target
      simp only [List.mem_cons, List.not_mem_nil, or_false] at hunexecuted htarget
      rcases hunexecuted with hstatus | hstatus | hstatus
      · rcases htarget with rfl | rfl
        · exact .transition (by rw [hstatus]; decide)
        · rw [hstatus]
          exact .cancelled
      · rcases htarget with rfl | rfl
        · exact .transition (by rw [hstatus]; decide)
        · exact .transition (by rw [hstatus]; decide)
      · rw [hstatus]
        exact .kept _
  | @confirmed disposition taskId version task current target call result hresolves hkind hid =>
      obtain rfl := hresolves.loadsEffect.eq_of_row hid hrow
      refine ⟨_, rfl, rfl, ?_⟩
      rw [hresolves.unknown]
      have hkey : current.id = disposition.unknownEffectId := hresolves.loadsEffect.id_eq
      refine .confirmed ⟨disposition, taskId, version, call, result, rfl, hkind,
        hkey.symm.trans hid.symm⟩ ?_
      change (if result.success then EffectStatus.succeeded else .failed) ∈ _
      cases result.success <;> decide
  | retried hresolves hid hnew => cases hnew.symm.trans hrow

end Steps

section Runs

variable [Sha256] {s : Store}

def Store.statusOf (s : Store) (effectId : String) : Option EffectStatus :=
  (s.effects.get? effectId).map Effect.status

/-- How far the effect has come; one that is not there yet has not started. -/
def Store.effectRank (s : Store) (effectId : String) : Nat :=
  ((s.statusOf effectId).map EffectStatus.rank).getD 0

/-- The effect is executing after the step and was not before it. -/
def EntersExecuting (effectId : String) (s s' : Store) : Prop :=
  s.statusOf effectId ≠ some .executing ∧ s'.statusOf effectId = some .executing

instance (effectId : String) : DecidableRel (EntersExecuting effectId) :=
  fun _ _ => inferInstanceAs (Decidable (_ ∧ _))

theorem statusOf_step {timed : Timed} {effectId : String} {status : EffectStatus}
    (hdecides : DecidesInTime s timed) (hstatus : s.statusOf effectId = some status) :
    ∃ target, (step s timed).statusOf effectId = some target
      ∧ LifecycleStep (timed.op.Confirms effectId) status target := by
  obtain ⟨effect, hrow, rfl⟩ := Option.map_eq_some_iff.mp hstatus
  obtain hsame | hreturns := step_cases s timed
  · exact ⟨effect.status, by rw [hsame]; exact hstatus, .kept _⟩
  · have hchange : EffectChange s timed.now effectId timed.op _ := effectChange hreturns effectId
    obtain ⟨effect', hrow', -, hstep⟩ := effect_kept hdecides hchange hrow
    exact ⟨effect'.status, by rw [Store.statusOf, hrow']; rfl, hstep⟩

theorem effectRank_step {timed : Timed} (effectId : String) (hdecides : DecidesInTime s timed) :
    s.effectRank effectId ≤ (step s timed).effectRank effectId := by
  unfold Store.effectRank
  cases hstatus : s.statusOf effectId with
  | none => exact Nat.zero_le _
  | some status =>
      obtain ⟨target, htarget, hstep⟩ := statusOf_step hdecides hstatus
      rw [htarget]
      exact hstep.rank_le

/-- An effect enters `EXECUTING` from below. -/
theorem effectRank_enters {timed : Timed} {effectId : String} (hdecides : DecidesInTime s timed)
    (henters : EntersExecuting effectId s (step s timed)) :
    s.effectRank effectId < EffectStatus.executing.rank
      ∧ EffectStatus.executing.rank ≤ (step s timed).effectRank effectId := by
  obtain ⟨hbefore, hafter⟩ := henters
  constructor
  · unfold Store.effectRank
    cases hstatus : s.statusOf effectId with
    | none => exact Nat.zero_lt_one
    | some status =>
        obtain ⟨target, htarget, hstep⟩ := statusOf_step hdecides hstatus
        cases Option.some.inj (htarget.symm.trans hafter)
        exact hstep.rank_lt fun heq => hbefore (by rw [hstatus, heq])
  · unfold Store.effectRank
    rw [hafter]
    exact Nat.le_refl _

/-- In a run whose decisions all find their effect prepared or waiting, every effect enters
`EXECUTING` at most once, an effect that is over keeps its status, and an unknown one leaves
`UNKNOWN` only when its result is confirmed. -/
theorem effects_execute_at_most_once {history : List Timed}
    (hdecides : Run.EveryStep step DecidesInTime s history) (effectId : String) :
    Run.count step (EntersExecuting effectId) s history ≤ 1
      ∧ (∀ earlier later status, history = earlier ++ later →
          (runFrom s earlier).statusOf effectId = some status → status.Terminal →
            (runFrom s history).statusOf effectId = some status)
      ∧ (∀ earlier timed later, history = earlier ++ timed :: later →
          (runFrom s earlier).statusOf effectId = some .unknown →
          (step (runFrom s earlier) timed).statusOf effectId ≠ some .unknown →
            timed.op.Confirms effectId) := by
  refine ⟨?_, ?_, ?_⟩
  · exact Run.count_le_one (fun s => s.effectRank effectId) EffectStatus.executing.rank
      (fun _ _ => effectRank_step effectId) (fun _ _ => effectRank_enters) hdecides
  · rintro earlier later status rfl hstatus hterminal
    have hlater := (Run.everyStep_append.mp hdecides).2
    rw [runFrom, Run.after_append]
    refine Run.invariant_after (fun s : Store => s.statusOf effectId = some status) ?_ hlater
      hstatus
    intro t timed hkept hintime
    obtain ⟨target, htarget, hstep⟩ := statusOf_step hintime hkept
    rw [htarget, hstep.eq_of_terminal hterminal]
  · rintro earlier timed later rfl hunknown hleft
    have hintime : DecidesInTime (runFrom s earlier) timed := hdecides.at
    obtain ⟨target, htarget, hstep⟩ := statusOf_step hintime hunknown
    exact hstep.confirms_of_unknown fun heq => hleft (by rw [htarget, heq])

end Runs

section Samples

local instance lifecycleDigest : Sha256 := Sample.digest

instance (s : Store) (timed : Timed) : Decidable (DecidesInTime s timed) := by
  unfold DecidesInTime
  split <;> infer_instance

/-- One effect runs and succeeds, while an approval that was requested for it is still pending. -/
def Sample.succeeded : List Timed :=
  Sample.started "s" "a" "x" 100
    ++ [⟨1, .prepareEffects [Sample.effect "e" "a"] 2 (some (Sample.guard "x" "a"))⟩,
      ⟨2, .decideApproval (Sample.approval "p" (Sample.effect "e" "a")) none⟩,
      ⟨3, .claimEffect "e" 1 (Sample.guard "x" "a") {}⟩,
      ⟨4, .commitEffect { Sample.effect "e" "a" with status := .succeeded } 2 none none
        (Sample.guard "x" "a") none⟩]

/-- The decision of that approval prepares the effect again, and it is run again. -/
def Sample.reopened : List Timed :=
  Sample.succeeded
    ++ [⟨5, .resolveEffectApproval "p" true "operator" 1 "/repo" "1" "1"⟩,
      ⟨6, .claimEffect "e" 4 (Sample.guard "x" "a") {}⟩]

theorem effects_execute_at_most_once_succeeded :
    Run.count step (EntersExecuting "e") {} Sample.succeeded ≤ 1
      ∧ (runFrom {} Sample.succeeded).statusOf "e" = some .succeeded :=
  ⟨(effects_execute_at_most_once (by decide +kernel) "e").1, by decide +kernel⟩

/-- The effect succeeds and is executed a second time. -/
theorem effect_executes_twice :
    (runFrom {} Sample.succeeded).statusOf "e" = some .succeeded
      ∧ (runFrom {} Sample.reopened).statusOf "e" = some .executing
      ∧ Run.count step (EntersExecuting "e") {} Sample.reopened = 2 := by
  decide +kernel

end Samples

end PatchLoop
