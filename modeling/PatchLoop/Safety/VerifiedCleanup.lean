import PatchLoop.Execution.Ownership
import PatchLoop.Store.LeaseChanges
import PatchLoop.Store.TaskChanges

/-!
# Verified cleanup before takeover

Whatever the other callers of the store do between the calls of `acquire`: when it returns, the
commands of the task's expired executions have finished, and so have those that the last holder of
the workspace had registered. A command whose cleanup fails leaves its task in need of recovery.
-/

namespace PatchLoop

open Transaction

variable {s s' : Store} {now : Timestamp}

/-! ### What a call leaves of commands and leases -/

section Calls

/-- The clock has not gone back before the call. -/
def Call.NotBefore (now : Timestamp) : Call → Prop
  | .op timed => now ≤ timed.now
  | .saveTask time _ _ => now ≤ time
  | .deleteTask _ => True

/-- The call registers a command under this id. -/
def Call.Registers (id : String) : Call → Prop
  | .op ⟨_, .registerManagedCommand identity _⟩ => identity.id = id
  | _ => False

/-- Every command of an expired execution of the task has finished, or is still to be reconciled. -/
def Store.CleanExcept (s : Store) (taskId : String) (now : Timestamp) (todo : List String) : Prop :=
  ∀ identity ∈ s.managedCommands.rows, s.ExpiredCommand taskId now identity →
    identity.status.Unfinished → identity.id ∈ todo

/-- The row of the command is gone or has finished. -/
def Store.Closed (s : Store) (id : String) : Prop :=
  ∀ identity ∈ s.managedCommands.get? id, ¬ identity.status.Unfinished

/-- A lease that runs at a later time has not expired. -/
theorem live_after {time leaseExpiresAt : Timestamp} (hclock : now ≤ time)
    (hlive : time < leaseExpiresAt) : ¬ leaseExpiresAt ≤ now :=
  Nat.not_le.mpr (Nat.lt_of_le_of_lt hclock hlive)

variable [Sha256] {op : Op} {u : Unit}

/-- An execution with an expired lease was there before, with the same lease. -/
theorem expired_before {time : Timestamp} (hclock : now ≤ time)
    (hreturns : (exec time op).Returns s u s') {id : String} {execution : Execution}
    (hrow : s'.executions.get? id = some execution) (hexpired : execution.leaseExpiresAt ≤ now) :
    ∃ before, s.executions.get? id = some before ∧ before.taskId = execution.taskId
      ∧ before.leaseExpiresAt = execution.leaseExpiresAt := by
  have hchange := executionChange hreturns id
  rw [hrow] at hchange
  generalize hafter : some execution = after at hchange
  cases hchange with
  | kept hop => exact ⟨execution, hafter.symm, rfl, rfl⟩
  | @claimed claim version session task hclaims hid =>
      cases hafter
      exact absurd hexpired (live_after hclock hclaims.future)
  | superseded hclaims hbefore hcontends hactive =>
      cases hafter
      exact ⟨_, hbefore, rfl, rfl⟩
  | passed hclaims hid hinactive => exact ⟨execution, hafter.symm, rfl, rfl⟩
  | @renewed guard leaseExpiresAt current hguards hid =>
      cases hafter
      obtain ⟨_, hreturns⟩ := discard_returns.mp hreturns
      obtain ⟨_, -, hfuture, -⟩ := renewExecution_returns hreturns
      exact absurd hexpired (live_after hclock hfuture)
  | released hguards hid =>
      cases hafter
      exact ⟨_, (congrArg s.executions.get? hid).trans hguards.row_of_id, rfl, rfl⟩
  | waiting hguards hid =>
      cases hafter
      exact ⟨_, (congrArg s.executions.get? hid).trans hguards.row_of_id, rfl, rfl⟩
  | recoveryMarked hmarked hid =>
      cases hafter
      have hkey := Table.key_of_get? hmarked
      exact ⟨_, (congrArg s.executions.get? (hid.trans hkey)).trans hmarked, rfl, rfl⟩

/-- An operation keeps the commands of expired executions finished. -/
theorem cleanExcept_after {time : Timestamp} {taskId : String} {todo : List String}
    (hclock : now ≤ time) (hclean : s.CleanExcept taskId now todo)
    (hreturns : (exec time op).Returns s u s') : s'.CleanExcept taskId now todo := by
  intro identity hmem hexpired hopen
  obtain ⟨execution, hrow, htask, hlease⟩ := hexpired
  obtain ⟨before, hbefore, hsame, hkept⟩ := expired_before hclock hreturns hrow hlease
  have hexpired : ∀ old : ManagedCommandIdentity, old.executionId = identity.executionId →
      s.ExpiredCommand taskId now old := by
    intro old hid
    exact ⟨before, hid ▸ hbefore, hsame.trans htask, hkept ▸ hlease⟩
  have hget : s'.managedCommands.get? identity.id = some identity := Table.get?_of_mem hmem
  have hchange := commandChange hreturns identity.id
  rw [hget] at hchange
  generalize hafter : some identity = after at hchange
  cases hchange with
  | kept op => exact hclean identity (Table.mem_of_get? hafter.symm) (hexpired identity rfl) hopen
  | @registered registered guard owner hguards howner hnew hid =>
      cases hafter
      -- the guard of the registration is live, so the execution has not expired
      obtain ⟨_, hreturns⟩ := discard_returns.mp hreturns
      obtain ⟨_, -, -, -, rfl⟩ := registerManagedCommand_returns hreturns
      rw [howner] at hbefore
      cases Option.some.inj (hguards.row_of_id.symm.trans hbefore)
      exact absurd (hkept ▸ hlease) (live_after hclock hguards.unexpired)
  | @finished finished current hrow hold hsame hid =>
      cases hafter
      have howner : current.executionId = identity.executionId := congrArg Prod.fst hsame
      have hkey : current.id = identity.id := Table.key_of_get? hrow
      rw [← hkey]
      exact hclean current (Table.mem_of_get? hrow) (hexpired current howner) hold

/-- A call keeps the commands of expired executions finished. -/
theorem cleanExcept_callStep {call : Call} {taskId : String} {todo : List String}
    (hclock : call.NotBefore now) (hclean : s.CleanExcept taskId now todo) :
    (callStep s call).CleanExcept taskId now todo := by
  obtain hsame | hreturns := callStep_cases s call
  · rw [hsame]
    exact hclean
  · generalize callStep s call = s' at hreturns ⊢
    cases call with
    | op timed => exact cleanExcept_after hclock hclean (callOp_returns.mp hreturns).1
    | saveTask time task guard =>
        obtain ⟨-, -, rfl⟩ := saveTask_returns.mp hreturns
        exact hclean
    | deleteTask deleted =>
        obtain ⟨-, rfl⟩ := deleteTask_returns hreturns
        intro identity hmem hexpired hopen
        obtain ⟨execution, hrow, hexpires⟩ := hexpired
        exact hclean identity (Table.mem_filter.mp hmem).1
          ⟨execution, (Table.get?_filter.mp hrow).1, hexpires⟩ hopen

/-- Only the registration of a command with this id reopens it. -/
theorem closed_after {time : Timestamp} {id : String} (hclosed : s.Closed id)
    (hother : ¬ (Call.op ⟨time, op⟩).Registers id) (hreturns : (exec time op).Returns s u s') :
    s'.Closed id := by
  intro identity hrow
  have hchange := commandChange hreturns id
  rw [Option.mem_def.mp hrow] at hchange
  generalize hafter : some identity = after at hchange
  cases hchange with
  | kept op => exact hclosed identity hafter.symm
  | registered hguards howner hnew hid => exact absurd hid.symm hother
  | finished hrow hold hsame hid => exact absurd hold (hclosed _ hrow)

theorem closed_callStep {call : Call} {id : String} (hclosed : s.Closed id)
    (hother : ¬ call.Registers id) : (callStep s call).Closed id := by
  obtain hsame | hreturns := callStep_cases s call
  · rw [hsame]
    exact hclosed
  · generalize callStep s call = s' at hreturns ⊢
    cases call with
    | op timed => exact closed_after hclosed hother (callOp_returns.mp hreturns).1
    | saveTask time task guard =>
        obtain ⟨-, -, rfl⟩ := saveTask_returns.mp hreturns
        exact hclosed
    | deleteTask deleted =>
        obtain ⟨-, rfl⟩ := deleteTask_returns hreturns
        exact fun identity hrow => hclosed identity (Table.get?_filter.mp hrow).1

/-- A command that has finished stays so while no task is deleted. -/
theorem finished_step {timed : Timed} {id : String} {identity : ManagedCommandIdentity}
    (hrow : s.managedCommands.get? id = some identity) (hfinished : ¬ identity.status.Unfinished) :
    (step s timed).managedCommands.get? id = some identity := by
  obtain hsame | hreturns := step_cases s timed
  · rw [hsame]
    exact hrow
  · have hchange := commandChange hreturns id
    generalize (step s timed).managedCommands.get? id = after at hchange ⊢
    obtain ⟨time, op⟩ := timed
    cases hchange with
    | kept => exact hrow
    | registered hguards howner hnew hid => cases hnew.symm.trans hrow
    | finished hold hopen hsame hid =>
        cases Option.some.inj (hold.symm.trans hrow)
        exact absurd hopen hfinished

end Calls

/-! ### The calls of a manager -/

section Manager

variable [Sha256] {env : Surroundings} {w w' : SharedState Store} {α : Type} {a : α}
  {action : Action α} {e : StoreError}

/-- The other callers and the manager's own operations preserve the property; the manager registers
no command. -/
structure Surroundings.Keeps (env : Surroundings) (now : Timestamp) (Inv : Store → Prop) : Prop where
  others : ∀ n, ∀ call ∈ env.others n, ∀ s, Inv s → Inv (callStep s call)
  own : ∀ op s s', (∀ identity guard, op ≠ .registerManagedCommand identity guard) → Inv s →
    (exec now op).Returns s () s' → Inv s'

/-- The store when the next call of the manager runs. -/
abbrev Surroundings.arrival (env : Surroundings) (w : SharedState Store) : Store :=
  Client.arrival callStep env.others w

theorem callStore_returns (hreturns : (callStore env action).Returns w a w') :
    action.Returns (env.arrival w) a w'.state := by
  obtain ⟨hreturns, -⟩ := Client.call_returns.mp hreturns
  simp only [checkingReferences, bind_returns, get_returns, raiseIf_returns, pure_returns,
    existsAndEq, true_and] at hreturns
  obtain ⟨_, haction, -⟩ := hreturns
  exact haction

theorem callStore_raises (hraises : (callStore env action).Raises w e w') :
    (action.Raises (env.arrival w) e ∨ e = .integrityError "sessions.active_task_id")
      ∧ w'.state = env.arrival w := by
  obtain ⟨hraises, hstate, -⟩ := Client.call_raises.mp hraises
  simp only [checkingReferences, bind_raises, get_raises, raiseIf_raises, pure_raises,
    get_returns, existsAndEq, true_and, false_or, and_false, exists_false, or_false] at hraises
  refine ⟨?_, hstate⟩
  rcases hraises with hraises | ⟨_, _, -, -, rfl⟩
  · exact Or.inl hraises
  · exact Or.inr rfl

namespace Surroundings.Keeps

variable {Inv : Store → Prop} (hkeeps : env.Keeps now Inv)

include hkeeps

theorem arrival (hinv : Inv w.state) : Inv (env.arrival w) :=
  Client.inv_arrival hkeeps.others hinv

/-- A call that returned. -/
theorem returns (op : Op) (hop : exec now op = discard action)
    (hother : ∀ identity guard, op ≠ .registerManagedCommand identity guard)
    (hreturns : (callStore env action).Returns w a w') (hinv : Inv w.state) : Inv w'.state := by
  refine hkeeps.own op (env.arrival w) w'.state hother (hkeeps.arrival hinv) ?_
  rw [hop]
  exact discard_returns.mpr ⟨a, callStore_returns hreturns⟩

/-- A call that raised. -/
theorem raises (hraises : (callStore env action).Raises w e w') (hinv : Inv w.state) :
    Inv w'.state := by
  rw [(callStore_raises hraises).2]
  exact hkeeps.arrival hinv

end Surroundings.Keeps

/-! ### Reconciling -/

omit [Sha256] in
/-- The row of a command is closed after `finish_managed_command` has reported it finished. -/
theorem closed_of_finish {identity result : ManagedCommandIdentity} {id : String}
    (hreturns : (finishManagedCommand identity).Returns s result s')
    (hfinished : ¬ result.status.Unfinished) (hid : identity.id = id) : s'.Closed id := by
  subst hid
  obtain ⟨hrow, -, rfl⟩ | ⟨current, hrow, -, -, -, rfl, rfl⟩ := finishManagedCommand_returns hreturns
  · intro row hget
    cases Option.some.inj (hrow.symm.trans hget)
    exact hfinished
  · intro row hget
    have hset : (s.managedCommands.set result).get? result.id = some result :=
      Table.get?_set_self hrow
    cases Option.some.inj (hset.symm.trans hget)
    exact hfinished

/-- A property of the commands that are still to be reconciled. -/
structure Reconciling (env : Surroundings) (now : Timestamp) (Inv : List String → Store → Prop) :
    Prop where
  keeps : ∀ todo, env.Keeps now (Inv todo)
  closed : ∀ id todo s, Inv (id :: todo) s → s.Closed id → Inv todo s

section Reconciling

variable {Inv : List String → Store → Prop} (hreconciling : Reconciling env now Inv)

include hreconciling

theorem finish_returns {identity result : ManagedCommandIdentity} {todo : List String}
    (hinv : Inv todo w.state)
    (hreturns : (callStore env (finishManagedCommand identity)).Returns w result w') :
    Inv todo w'.state :=
  (hreconciling.keeps todo).returns (.finishManagedCommand identity) rfl (by simp) hreturns hinv

theorem recordCleanupFailure_returns {identity : ManagedCommandIdentity} {message : String}
    {todo : List String} {u : Unit} (hinv : Inv (identity.id :: todo) w.state)
    (hreturns : (recordCleanupFailure env now identity message).Returns w u w') :
    Inv todo w'.state := by
  obtain ⟨recorded, w₁, hfinish, hreturns⟩ := Client.bind_returns.mp hreturns
  have hinv₁ := finish_returns hreconciling hinv hfinish
  split at hreturns
  · obtain ⟨_, _, -, hthrow⟩ := Client.bind_returns.mp hreturns
    exact absurd hthrow Client.throw_returns
  · rename_i hfinished
    obtain ⟨-, rfl⟩ := Client.pure_returns.mp hreturns
    exact hreconciling.closed _ _ _ hinv₁
      (closed_of_finish (callStore_returns hfinish) hfinished rfl)

/-- One round of `_reconcile_commands`, whatever `reconcile_managed_command` reports. -/
theorem reconcileCommand_returns {identity : ManagedCommandIdentity} {todo : List String} {u : Unit}
    (hinv : Inv (identity.id :: todo) w.state)
    (hreconcile : (reconcileCommand env now identity).Returns w u w') : Inv todo w'.state := by
  obtain ⟨_, _, hget, hreturns⟩ := Client.bind_returns.mp hreconcile
  cases hget
  split at hreturns
  · rename_i reason hcleanup
    rcases Client.tryCatch_returns.mp hreturns with hfinished | ⟨exc, w₂, hraised, hreturns⟩
    · obtain ⟨recorded, w₂, hfinish, hpure⟩ := Client.bind_returns.mp hfinished
      obtain ⟨-, rfl⟩ := Client.pure_returns.mp hpure
      have hinv₂ := finish_returns hreconciling hinv hfinish
      refine hreconciling.closed _ _ _ hinv₂ (closed_of_finish (callStore_returns hfinish) ?_ rfl)
      obtain ⟨-, hopen, -⟩ | ⟨-, -, -, -, -, rfl, -⟩ :=
        finishManagedCommand_returns (callStore_returns hfinish)
      · exact hopen
      · simp [ManagedCommandIdentity.reconciled, ManagedCommandStatus.Unfinished]
    · refine recordCleanupFailure_returns hreconciling ?_ hreturns
      rcases Client.bind_raises.mp hraised with hraised | ⟨_, _, -, hpure⟩
      · exact (hreconciling.keeps _).raises hraised hinv
      · exact absurd hpure Client.pure_raises
  · exact recordCleanupFailure_returns hreconciling hinv hreturns

/-- When `_reconcile_commands` returns, no command is left to be reconciled. -/
theorem reconcileCommands_returns {commands : List ManagedCommandIdentity} {u : Unit}
    (hinv : Inv (commands.map ManagedCommandIdentity.id) w.state)
    (hreturns : (reconcileCommands env now commands).Returns w u w') : Inv [] w'.state := by
  induction commands generalizing w with
  | nil =>
      obtain ⟨-, rfl⟩ := Client.pure_returns.mp hreturns
      exact hinv
  | cons identity rest ih =>
      obtain ⟨_, w₁, hfirst, hrest⟩ := Client.bind_returns.mp hreturns
      exact ih (reconcileCommand_returns hreconciling hinv hfirst) hrest

end Reconciling

/-! ### Acquiring -/

theorem keeps_cleanExcept {taskId : String} {todo : List String}
    (hclock : ∀ n, ∀ call ∈ env.others n, call.NotBefore now) :
    env.Keeps now fun s => s.CleanExcept taskId now todo where
  others n call hcall _ hclean := cleanExcept_callStep (hclock n call hcall) hclean
  own _ _ _ _ hclean hreturns := cleanExcept_after (Nat.le_refl now) hclean hreturns

theorem keeps_closed {id : String} {P : Prop}
    (hothers : ∀ n, ∀ call ∈ env.others n, ¬ call.Registers id) :
    env.Keeps now fun s => P ∨ s.Closed id where
  others n call hcall _ hclosed :=
    hclosed.imp_right fun hclosed => closed_callStep hclosed (hothers n call hcall)
  own op _ _ hop hclosed hreturns := by
    refine hclosed.imp_right fun hclosed => closed_after hclosed ?_ hreturns
    cases op with
    | registerManagedCommand identity guard => exact absurd rfl (hop identity guard)
    | _ => exact fun hregisters => hregisters

/-- The commands of the task's expired executions. -/
theorem reconciling_task {taskId : String}
    (hclock : ∀ n, ∀ call ∈ env.others n, call.NotBefore now) :
    Reconciling env now fun todo s => s.CleanExcept taskId now todo where
  keeps _ := keeps_cleanExcept hclock
  closed id todo s hclean hclosed := by
    intro identity hmem hexpired hopen
    rcases List.mem_cons.mp (hclean identity hmem hexpired hopen) with hid | htodo
    · have hrow : s.managedCommands.get? id = some identity := by
        rw [← hid]
        exact Table.get?_of_mem hmem
      exact absurd hopen (hclosed identity hrow)
    · exact htodo

/-- One command. -/
theorem reconciling_command {id : String}
    (hothers : ∀ n, ∀ call ∈ env.others n, ¬ call.Registers id) :
    Reconciling env now fun todo s => id ∈ todo ∨ s.Closed id where
  keeps _ := keeps_closed hothers
  closed head todo s hinv hclosed := by
    rcases hinv with hmem | hdone
    · rcases List.mem_cons.mp hmem with rfl | htodo
      · exact Or.inr hclosed
      · exact Or.inl htodo
    · exact Or.inr hdone

/-- A property that does not speak about commands that are still to be reconciled. -/
theorem Surroundings.Keeps.reconciling {Inv : Store → Prop} (hkeeps : env.Keeps now Inv) :
    Reconciling env now fun _ s => Inv s where
  keeps _ := hkeeps
  closed _ _ _ hinv _ := hinv

theorem query_callStore {read : Store → α} (hreturns : (callStore env (query read)).Returns w a w') :
    read (env.arrival w) = a ∧ w'.state = env.arrival w :=
  query_returns.mp (callStore_returns hreturns)

omit [Sha256] in
theorem newToken_returns {token result : String} {differentFrom : Option String}
    (hreturns : (newToken token differentFrom).Returns w result w') : w' = w := by
  unfold newToken at hreturns
  split at hreturns
  · exact absurd hreturns Client.throw_returns
  · exact (Client.pure_returns.mp hreturns).2

theorem claimCandidate_returns {request : AcquireRequest} {execution : Execution}
    (hreturns : (claimCandidate env request).Returns w execution w') :
    (callStore env (claimExecution request.now request.candidate request.expectedVersion)).Returns w
      execution w' := by
  rcases Client.tryCatch_returns.mp hreturns with hclaimed | ⟨_, _, -, hhandled⟩
  · exact hclaimed
  · obtain ⟨_, _, -, hthrow⟩ := Client.bind_returns.mp hhandled
    exact absurd hthrow Client.throw_returns

theorem acquireWorkspace_returns {request : AcquireRequest} {execution : Execution}
    {workspaceId repositoryPath : String} {lease : WorkspaceLease}
    (hreturns : (acquireWorkspace env request execution workspaceId repositoryPath).Returns w lease
      w') : (takeWorkspace env request execution workspaceId repositoryPath).Returns w lease w' := by
  rcases Client.tryCatch_returns.mp hreturns with htaken | ⟨_, _, -, hhandled⟩
  · exact htaken
  · obtain ⟨_, _, -, hhandled⟩ := Client.bind_returns.mp hhandled
    obtain ⟨_, _, -, hthrow⟩ := Client.bind_returns.mp hhandled
    exact absurd hthrow Client.throw_returns

/-- `acquire` has reconciled the commands of the task when it has claimed the execution. -/
theorem acquireExecution_returns {request : AcquireRequest} {execution : Execution}
    (hclock : ∀ n, ∀ call ∈ env.others n, call.NotBefore request.now)
    (hreturns : (acquireExecution env request).Returns w execution w') :
    w'.state.CleanExcept request.taskId request.now [] := by
  obtain ⟨commands, w₁, hread, hreturns⟩ := Client.bind_returns.mp hreturns
  obtain ⟨_, w₂, hreconcile, hreturns⟩ := Client.bind_returns.mp hreturns
  obtain ⟨_, w₃, htoken, hclaim⟩ := Client.bind_returns.mp hreturns
  obtain ⟨hcommands, hstate⟩ := query_callStore hread
  have hstart : w₁.state.CleanExcept request.taskId request.now
      (commands.map ManagedCommandIdentity.id) := by
    rw [hstate, ← hcommands]
    intro identity hmem hexpired hopen
    exact List.mem_map_of_mem (mem_unfinishedCommands.mpr ⟨hmem, hexpired, hopen⟩)
  have hclean := reconcileCommands_returns (reconciling_task hclock) hstart hreconcile
  rw [← newToken_returns htoken] at hclean
  exact (keeps_cleanExcept hclock).returns
    (.claimExecution request.candidate request.expectedVersion) rfl (by simp)
    (claimCandidate_returns hclaim) hclean

/-- How the workspace was taken. -/
theorem takeWorkspace_returns {request : AcquireRequest} {execution : Execution}
    {workspaceId repositoryPath : String} {lease : WorkspaceLease}
    (hreturns : (takeWorkspace env request execution workspaceId repositoryPath).Returns w lease w') :
    ∃ w₁ w₂, w₁.state = env.arrival w
      ∧ (reconcileCommands env request.now ((env.arrival w).unfinishedCommands
          ((env.arrival w).HolderCommand workspaceId request.now))).Returns w₁ () w₂
      ∧ (callStore env (acquireWorkspaceWriter request.now
          (request.lease execution workspaceId repositoryPath) execution.guard)).Returns w₂ lease
          w' := by
  obtain ⟨commands, w₁, hread, hreturns⟩ := Client.bind_returns.mp hreturns
  obtain ⟨_, w₂, hreconcile, hreturns⟩ := Client.bind_returns.mp hreturns
  obtain ⟨_, w₃, htoken, hacquire⟩ := Client.bind_returns.mp hreturns
  obtain ⟨rfl, hstate⟩ := query_callStore hread
  obtain rfl := newToken_returns htoken
  exact ⟨w₁, w₃, hstate, hreconcile, hacquire⟩

/-- What the calls keep holds when the workspace is taken. -/
theorem Surroundings.Keeps.takeWorkspace {request : AcquireRequest} {execution : Execution}
    {workspaceId repositoryPath : String} {lease : WorkspaceLease} {Inv : Store → Prop}
    (hkeeps : env.Keeps request.now Inv) (hinv : Inv w.state)
    (hreturns : (takeWorkspace env request execution workspaceId repositoryPath).Returns w lease w') :
    Inv w'.state := by
  obtain ⟨w₁, w₂, hstate, hreconcile, hacquire⟩ := takeWorkspace_returns hreturns
  have hinv₁ : Inv w₁.state := by
    rw [hstate]
    exact hkeeps.arrival hinv
  have hinv₂ : Inv w₂.state := reconcileCommands_returns hkeeps.reconciling hinv₁ hreconcile
  exact hkeeps.returns (.acquireWorkspaceWriter _ _) rfl (by simp) hacquire hinv₂

/-- A command that the last holder had registered is closed when the workspace is taken. -/
theorem takeWorkspace_closes {request : AcquireRequest} {execution : Execution}
    {workspaceId repositoryPath : String} {lease : WorkspaceLease} {identity : ManagedCommandIdentity}
    (hothers : ∀ n, ∀ call ∈ env.others n, ¬ call.Registers identity.id)
    (hmem : identity ∈ (env.arrival w).managedCommands.rows)
    (hholder : (env.arrival w).HolderCommand workspaceId request.now identity)
    (hreturns : (takeWorkspace env request execution workspaceId repositoryPath).Returns w lease w') :
    w'.state.Closed identity.id := by
  obtain ⟨w₁, w₂, hstate, hreconcile, hacquire⟩ := takeWorkspace_returns hreturns
  have hread : identity.id ∈ ((env.arrival w).unfinishedCommands
        ((env.arrival w).HolderCommand workspaceId request.now)).map ManagedCommandIdentity.id
      ∨ w₁.state.Closed identity.id := by
    by_cases hopen : identity.status.Unfinished
    · exact Or.inl (List.mem_map_of_mem (mem_unfinishedCommands.mpr ⟨hmem, hholder, hopen⟩))
    · refine Or.inr fun row hrow => ?_
      have hget : (env.arrival w).managedCommands.get? identity.id = some identity :=
        Table.get?_of_mem hmem
      rw [hstate, hget] at hrow
      cases hrow
      exact hopen
  have hclosed := reconcileCommands_returns (reconciling_command hothers) hread hreconcile
  have hkeeps : env.Keeps request.now fun s => False ∨ s.Closed identity.id := keeps_closed hothers
  have hafter := hkeeps.returns (.acquireWorkspaceWriter _ _) rfl (by simp) hacquire
    (hclosed.imp_left fun hmem => by cases hmem)
  exact hafter.resolve_left id

/-! ### A cleanup that fails -/

omit [Sha256] in
/-- The condition of a task. -/
def Store.conditionOf (s : Store) (taskId : String) : Option TaskRuntimeCondition :=
  (s.tasks.get? taskId).map Task.runtimeCondition

omit [Sha256] in
/-- The task and the execution of a command are in need of recovery. -/
def Store.LeftInRecovery (s : Store) (taskId : String) (identity : ManagedCommandIdentity) : Prop :=
  s.conditionOf taskId = some .recoveryRequired
    ∧ ∃ execution ∈ s.executions.get? identity.executionId,
      execution.taskId = taskId ∧ execution.status = .recoveryRequired

theorem leftInRecovery_of_mark {identity : ManagedCommandIdentity} {info taskId : String}
    (hreturns : (markCommandRecoveryRequired now identity info).Returns s taskId s') :
    s'.LeftInRecovery taskId identity := by
  obtain ⟨execution, task, hrow, hload, rfl, entry, rfl⟩ :=
    markCommandRecoveryRequired_returns hreturns
  constructor
  · have hrow' : s.tasks.get? task.recoveryMarked.id = some task := hload.row_of_id
    have hget : (s.tasks.set task.recoveryMarked).get? task.recoveryMarked.id
        = some task.recoveryMarked := Table.get?_set_self hrow'
    exact congrArg (Option.map Task.runtimeCondition) hget
  · have hkey : (execution.ended .recoveryRequired).id = identity.executionId :=
      Table.key_of_get? hrow
    have hget : (s.executions.set (execution.ended .recoveryRequired)).get? identity.executionId
        = some (execution.ended .recoveryRequired) := by
      rw [Table.get?_set_row hrow identity.executionId hkey, if_pos rfl]
    exact ⟨_, hget, hload.id_eq.symm, rfl⟩

omit [Sha256] in
theorem finishManagedCommand_raises {identity : ManagedCommandIdentity} {taskId id : String} :
    ¬ (finishManagedCommand identity).Raises s (.recoveryRequired taskId (some id)) := by
  simp [finishManagedCommand]

omit [Sha256] in
theorem requireTask_raises {id : String} {taskId effectId : String} :
    ¬ (requireTask id).Raises s (.recoveryRequired taskId (some effectId)) := by
  simp [requireTask]

omit [Sha256] in
theorem requireSession_raises {id : String} {taskId effectId : String} :
    ¬ (requireSession id).Raises s (.recoveryRequired taskId (some effectId)) := by
  simp [requireSession]

omit [Sha256] in
theorem journal_raises {session : Session} {entry : Entry} {taskId effectId : String} :
    ¬ (journal now session entry).Raises s (.recoveryRequired taskId (some effectId)) := by
  simp [journal, insertEvent, writeSession]

omit [Sha256] in
theorem journalTask_raises {task : Task} {entry : Entry} {taskId effectId : String} :
    ¬ (journalTask now task entry).Raises s (.recoveryRequired taskId (some effectId)) := by
  unfold journalTask
  split
  · simp
  · simp [requireSession_raises, journal_raises]

omit [Sha256] in
theorem assertGuard_raises {guard : LeaseGuard} {taskId effectId : String} :
    ¬ (assertGuard now guard).Raises s (.recoveryRequired taskId (some effectId)) := by
  simp [assertGuard]

omit [Sha256] in
theorem expireExecutions_raises {resourceId : String} {active : List Execution}
    {taskId effectId : String} :
    ¬ (expireExecutions now resourceId active).Raises s
      (.recoveryRequired taskId (some effectId)) := by
  induction active generalizing s with
  | nil => simp [expireExecutions]
  | cons row rest ih => simp [expireExecutions, writeExecution, ih]

theorem markCommandRecoveryRequired_raises {identity : ManagedCommandIdentity}
    {info taskId id : String} :
    ¬ (markCommandRecoveryRequired now identity info).Raises s
      (.recoveryRequired taskId (some id)) := by
  simp [markCommandRecoveryRequired, writeExecution, requireTask_raises, writeTask,
    journalTask_raises]

theorem claimExecution_raises {execution : Execution} {version : Option Nat} {taskId id : String} :
    ¬ (claimExecution now execution version).Raises s (.recoveryRequired taskId (some id)) := by
  have hversion : ∀ {s : Store} {entity : String} {actual : Nat},
      ¬ (checkVersion entity actual version).Raises s (.recoveryRequired taskId (some id)) := by
    intro s entity actual
    cases version <;> simp [checkVersion]
  simp [claimExecution, requireSession_raises, expireExecutions_raises, requireTask_raises, hversion,
    insertExecution, writeTask, journal_raises]

theorem acquireWorkspaceWriter_raises {lease : WorkspaceLease} {guard : LeaseGuard}
    {taskId id : String} :
    ¬ (acquireWorkspaceWriter now lease guard).Raises s (.recoveryRequired taskId (some id)) := by
  simp [acquireWorkspaceWriter, assertGuard_raises, requireSession_raises, journal_raises]

theorem releaseExecution_raises {guard : LeaseGuard} {taskId id : String} :
    ¬ (releaseExecution now guard).Raises s (.recoveryRequired taskId (some id)) := by
  simp [releaseExecution, assertGuard_raises, writeExecution, requireTask_raises, writeTask,
    journalTask_raises]

/-- A call that raises `RecoveryRequired` for a command is none of the manager's store calls. -/
theorem callStore_raises_recovery {taskId id : String}
    (haction : ∀ s, ¬ action.Raises s (.recoveryRequired taskId (some id))) :
    ¬ (callStore env action).Raises w (.recoveryRequired taskId (some id)) w' := by
  intro hraises
  rcases (callStore_raises hraises).1 with hraised | heq
  · exact haction _ hraised
  · cases heq

theorem recordCleanupFailure_raises {identity : ManagedCommandIdentity} {message taskId id : String}
    (hraises : (recordCleanupFailure env now identity message).Raises w
      (.recoveryRequired taskId (some id)) w') :
    identity.id = id ∧ w'.state.LeftInRecovery taskId identity := by
  rcases Client.bind_raises.mp hraises with hfinish | ⟨recorded, w₁, -, hraises⟩
  · exact absurd hfinish (callStore_raises_recovery fun _ => finishManagedCommand_raises)
  · split at hraises
    · rcases Client.bind_raises.mp hraises with hmark | ⟨marked, w₂, hmark, hthrow⟩
      · exact absurd hmark (callStore_raises_recovery fun _ => markCommandRecoveryRequired_raises)
      · obtain ⟨heq, rfl⟩ := Client.throw_raises.mp hthrow
        cases heq
        exact ⟨rfl, leftInRecovery_of_mark (callStore_returns hmark)⟩
    · exact absurd hraises Client.pure_raises

theorem reconcileCommand_raises {identity : ManagedCommandIdentity} {taskId id : String}
    (hreconcile : (reconcileCommand env now identity).Raises w (.recoveryRequired taskId (some id))
      w') : identity.id = id ∧ w'.state.LeftInRecovery taskId identity := by
  rcases Client.bind_raises.mp hreconcile with hget | ⟨_, _, hget, hraises⟩
  · cases hget
  · cases hget
    split at hraises
    · obtain ⟨exc, w₁, -, hraises⟩ := Client.tryCatch_raises.mp hraises
      exact recordCleanupFailure_raises hraises
    · exact recordCleanupFailure_raises hraises

theorem reconcileCommands_raises {commands : List ManagedCommandIdentity} {taskId id : String}
    (hraises : (reconcileCommands env now commands).Raises w (.recoveryRequired taskId (some id))
      w') : ∃ identity ∈ commands, identity.id = id ∧ w'.state.LeftInRecovery taskId identity := by
  induction commands generalizing w with
  | nil => exact absurd hraises Client.pure_raises
  | cons identity rest ih =>
      rcases Client.bind_raises.mp hraises with hfirst | ⟨_, w₁, -, hrest⟩
      · exact ⟨identity, List.mem_cons_self, reconcileCommand_raises hfirst⟩
      · obtain ⟨other, hmem, hleft⟩ := ih hrest
        exact ⟨other, List.mem_cons_of_mem identity hmem, hleft⟩

omit [Sha256] in
theorem newToken_raises {token taskId id : String} {differentFrom : Option String} :
    ¬ (newToken token differentFrom).Raises w (.recoveryRequired taskId (some id)) w' := by
  unfold newToken
  split
  · simp
  · exact Client.pure_raises

theorem reportConflict_raises {execution : Execution} {scope : String → String} {advice : String}
    {exc : StoreError} : ¬ (reportConflict env now execution scope advice exc).Raises w e w' := by
  intro hraises
  cases exc with
  | leaseConflict resourceId holderId =>
      obtain ⟨_, _, -, hpure⟩ := Client.tryCatch_raises.mp hraises
      exact absurd hpure Client.pure_raises
  | _ => exact absurd hraises Client.pure_raises

theorem query_callStore_raises {read : Store → α} {taskId id : String} :
    ¬ (callStore env (query read)).Raises w (.recoveryRequired taskId (some id)) w' :=
  callStore_raises_recovery fun _ => query_raises

/-- `acquire` raises `RecoveryRequired` for a command of the task. -/
theorem acquireExecution_raises {request : AcquireRequest} {taskId id : String}
    (hraises : (acquireExecution env request).Raises w (.recoveryRequired taskId (some id)) w') :
    ∃ identity ∈ (env.arrival w).unfinishedCommands
        ((env.arrival w).ExpiredCommand request.taskId request.now),
      identity.id = id ∧ w'.state.LeftInRecovery taskId identity := by
  rcases Client.bind_raises.mp hraises with hread | ⟨commands, w₁, hread, hraises⟩
  · exact absurd hread query_callStore_raises
  obtain ⟨rfl, -⟩ := query_callStore hread
  rcases Client.bind_raises.mp hraises with hreconcile | ⟨_, w₂, -, hraises⟩
  · exact reconcileCommands_raises hreconcile
  rcases Client.bind_raises.mp hraises with htoken | ⟨_, w₃, -, hclaim⟩
  · exact absurd htoken newToken_raises
  obtain ⟨exc, w₄, hraised, hhandled⟩ := Client.tryCatch_raises.mp hclaim
  rcases Client.bind_raises.mp hhandled with hreport | ⟨_, w₅, -, hthrow⟩
  · exact absurd hreport reportConflict_raises
  · obtain ⟨rfl, -⟩ := Client.throw_raises.mp hthrow
    exact absurd hraised (callStore_raises_recovery fun _ => claimExecution_raises)

/-- The workspace is not taken because the cleanup of a command of its last holder failed. -/
theorem takeWorkspace_raises {request : AcquireRequest} {execution : Execution}
    {workspaceId repositoryPath taskId id : String}
    (hraises : (takeWorkspace env request execution workspaceId repositoryPath).Raises w
      (.recoveryRequired taskId (some id)) w') :
    ∃ identity ∈ (env.arrival w).unfinishedCommands
        ((env.arrival w).HolderCommand workspaceId request.now),
      identity.id = id ∧ w'.state.LeftInRecovery taskId identity := by
  rcases Client.bind_raises.mp hraises with hread | ⟨commands, w₁, hread, hraises⟩
  · exact absurd hread query_callStore_raises
  obtain ⟨rfl, -⟩ := query_callStore hread
  rcases Client.bind_raises.mp hraises with hreconcile | ⟨_, w₂, -, hraises⟩
  · exact reconcileCommands_raises hreconcile
  rcases Client.bind_raises.mp hraises with htoken | ⟨_, w₃, -, hacquire⟩
  · exact absurd htoken newToken_raises
  · exact absurd hacquire (callStore_raises_recovery fun _ => acquireWorkspaceWriter_raises)

/-- A released execution leaves a task that is in need of recovery as it is. -/
theorem conditionOf_release {guard : LeaseGuard} {taskId : String} {u : Unit}
    (hreturns : (releaseExecution now guard).Returns s u s')
    (hcondition : s.conditionOf taskId = some .recoveryRequired) :
    s'.conditionOf taskId = some .recoveryRequired := by
  have hexec : (exec now (.releaseExecution guard)).Returns s u s' := hreturns
  have hchange := taskChange hexec taskId
  unfold Store.conditionOf at hcondition ⊢
  generalize s'.tasks.get? taskId = row at hchange ⊢
  cases hchange with
  | kept => exact hcondition
  | idled hguards hload hid =>
      rw [hid, hload.row_of_id] at hcondition
      have hrequired := Option.some.inj hcondition
      simp [Task.idled, hrequired]

/-- Before the manager raises the error of a workspace, it releases the execution. -/
theorem acquireWorkspace_raises {request : AcquireRequest} {execution : Execution}
    {workspaceId repositoryPath taskId id : String}
    (hraises : (acquireWorkspace env request execution workspaceId repositoryPath).Raises w
      (.recoveryRequired taskId (some id)) w') :
    ∃ identity ∈ (env.arrival w).unfinishedCommands
        ((env.arrival w).HolderCommand workspaceId request.now),
      identity.id = id ∧ ∃ w₁, w₁.state.LeftInRecovery taskId identity
        ∧ (callStore env (releaseExecution request.now execution.guard)).Returns w₁ () w' := by
  obtain ⟨exc, w₁, htake, hhandled⟩ := Client.tryCatch_raises.mp hraises
  rcases Client.bind_raises.mp hhandled with hreport | ⟨_, w₂, hreport, hhandled⟩
  · exact absurd hreport reportConflict_raises
  rcases Client.bind_raises.mp hhandled with hrelease | ⟨_, w₃, hrelease, hthrow⟩
  · exact absurd hrelease (callStore_raises_recovery fun _ => releaseExecution_raises)
  obtain ⟨rfl, rfl⟩ := Client.throw_raises.mp hthrow
  obtain ⟨-, rfl⟩ := Client.pure_returns.mp hreport
  obtain ⟨identity, hmem, hid, hleft⟩ := takeWorkspace_raises htake
  exact ⟨identity, hmem, hid, w₂, hleft, hrelease⟩

end Manager

section Samples

local instance verifiedCleanupDigest : Sha256 := Sample.digest

/-- Nobody else uses the store, and this is what becomes of every process. -/
def Sample.alone (cleanup : Except String String) : Surroundings where
  others _ := []
  cleanup _ _ := cleanup

/-- A new execution of the task "a", which may write to a workspace. -/
def Sample.request (now : Timestamp) (workspace : Option (String × String)) : AcquireRequest where
  sessionId := "s"
  taskId := "a"
  ownerId := "owner"
  workspace := workspace
  now := now
  ttl := 60
  executionId := "z"
  executionToken := "token-z"
  workspaceToken := "writer-z"

/-- A command that an execution of the task "a" or "b" has started. -/
def Sample.startedCommand (executionId : String) : ManagedCommandIdentity where
  id := "c"
  executionId := executionId
  backend := "local"
  processId := 7
  processStartMarker := "marker"
  startedAt := 1

/-- The execution "x" of the task runs a command, for this time. -/
def Sample.commanded (leaseExpiresAt : Timestamp) : List Timed :=
  Sample.started "s" "a" "x" leaseExpiresAt ++
    [⟨1, .registerManagedCommand (Sample.startedCommand "x") (Sample.guard "x" "a")⟩]

/-- The execution is released while its command runs, long before its lease expires. -/
def Sample.released : List Timed :=
  Sample.commanded 100 ++ [⟨2, .releaseExecution (Sample.guard "x" "a")⟩]

/-- The execution "y" of another task holds the workspace and runs a command, until time ten. -/
def Sample.occupied : List Timed :=
  Sample.started "t" "b" "y" 10 ++
    [⟨1, .acquireWorkspaceWriter {
        workspaceId := "w", repositoryPath := "/repo", sessionId := "t", taskId := "b"
        executionId := "y", ownerId := "owner-y", leaseToken := "writer-y"
        leaseExpiresAt := 10 } (Sample.guard "y" "b")⟩,
      ⟨1, .registerManagedCommand (Sample.startedCommand "y") (Sample.guard "y" "b")⟩,
      ⟨2, .createSession (Sample.session "s")⟩, ⟨2, .startTask "s" (Sample.task "a") 1⟩]

end Samples

end PatchLoop
