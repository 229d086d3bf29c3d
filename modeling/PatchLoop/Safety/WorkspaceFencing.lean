import PatchLoop.Safety.ExecutionLease
import PatchLoop.Safety.WorkspaceLease
import PatchLoop.Store.TaskChanges

/-!
# Workspace fencing of results

`claim_effect` and `commit_effect` check the execution lease of their caller and no workspace lease.
A result is fenced by the workspace of its repository as long as no live execution stands beside a
writer that is not its own: which operations may bring one there, and what follows when none does.
-/

namespace PatchLoop

open Transaction

/-- A live execution works on a repository whose workspace another execution holds. -/
def Store.Intrudes (s : Store) (now : Timestamp) (row : Execution) (lease : WorkspaceLease) : Prop :=
  now < lease.leaseExpiresAt ∧ row.Live now ∧ row.id ≠ lease.executionId
    ∧ ∃ task, s.tasks.get? row.taskId = some task ∧ task.repository = lease.repositoryPath

/-- The three operations that could set a live execution beside the writer of another: a writer is
acquired while no other execution of a task on the repository is live; an execution is claimed, and
a task is moved to a repository, while no other execution holds its workspace. -/
def KeepsWritersApart (s : Store) (timed : Timed) : Prop :=
  match timed.op with
  | .acquireWorkspaceWriter lease _ =>
      ∀ row ∈ s.executions.rows, row.Live timed.now → row.id ≠ lease.executionId →
        ∀ task ∈ s.tasks.get? row.taskId, task.repository ≠ lease.repositoryPath
  | .claimExecution execution _ =>
      ∀ lease ∈ s.workspaceLeases.rows, timed.now < lease.leaseExpiresAt →
        execution.id ≠ lease.executionId →
          ∀ task ∈ s.tasks.get? execution.taskId, task.repository ≠ lease.repositoryPath
  | .updateTask task _ _ =>
      ∀ lease ∈ s.workspaceLeases.rows, timed.now < lease.leaseExpiresAt →
        ∀ row ∈ s.executions.rows, row.Live timed.now → row.taskId = task.id →
          row.id ≠ lease.executionId → task.repository ≠ lease.repositoryPath
  | _ => True

/-- No execution intrudes on a workspace, and the task of every execution has its row. -/
structure Store.WritersApart (s : Store) (now : Timestamp) : Prop where
  apart : ∀ row ∈ s.executions.rows, ∀ lease ∈ s.workspaceLeases.rows, ¬ s.Intrudes now row lease
  known : ∀ row ∈ s.executions.rows, s.tasks.get? row.taskId ≠ none

theorem Store.WritersApart.later {s : Store} {now next : Timestamp} (hapart : s.WritersApart now)
    (hle : now ≤ next) : s.WritersApart next where
  apart row hrow lease hlease := by
    rintro ⟨hunexpired, ⟨hactive, hlive⟩, hother, htask⟩
    exact hapart.apart row hrow lease hlease ⟨Nat.lt_of_le_of_lt hle hunexpired,
      ⟨hactive, Nat.lt_of_le_of_lt hle hlive⟩, hother, htask⟩
  known := hapart.known

section Steps

variable [Sha256] {s s' : Store} {now : Timestamp} {op : Op} {id : String}

omit [Sha256] in
/-- A lease that runs after an operation ran before it, for the same execution and repository, or the
operation has acquired it. -/
theorem lease_before {lease : WorkspaceLease}
    (hchange : WorkspaceChange s now id op (some lease)) (hruns : now < lease.leaseExpiresAt) :
    (∃ old ∈ s.workspaceLeases.rows, now < old.leaseExpiresAt
        ∧ old.executionId = lease.executionId ∧ old.repositoryPath = lease.repositoryPath)
      ∨ ∃ requested guard, op = .acquireWorkspaceWriter requested guard
        ∧ requested.executionId = lease.executionId
        ∧ requested.repositoryPath = lease.repositoryPath := by
  generalize hsome : some lease = row at hchange
  cases hchange with
  | kept op => exact Or.inl ⟨lease, Table.mem_of_get? hsome.symm, hruns, rfl, rfl⟩
  | acquired hacquires hid =>
      cases hsome
      exact Or.inr ⟨_, _, rfl, rfl, rfl⟩
  | renewed hguards hid =>
      cases hsome
      exact Or.inl ⟨_, Table.mem_of_get? hguards.row_of_id, hguards.unexpired, rfl, rfl⟩
  | released hguards hid =>
      cases hsome
      exact absurd hruns (Nat.lt_irrefl _)

omit [Sha256] in
/-- An execution that is live after an operation was live before it, or the operation has claimed it.
-/
theorem execution_before {row : Execution} (hchange : ExecutionChange s now id op (some row))
    (hlive : row.Live now) :
    (∃ old ∈ s.executions.rows, old.Live now ∧ old.SameClaim row)
      ∨ ∃ execution version session task, op = .claimExecution execution version
        ∧ s.ClaimsExecution now execution version session task
        ∧ row = execution.claimed (s.lastGeneration execution.taskId + 1) := by
  rcases active_after hchange hlive.1 with ⟨old, hold, -, -, -⟩
    | ⟨execution, version, session, task, hop, hclaims, -, hnew⟩
  · obtain ⟨row', hrow', hsame, hstep⟩ := execution_kept hchange hold
    cases Option.some.inj hrow'
    obtain ⟨-, hpasses⟩ := hstep.passes_before (Nat.le_refl 0) ⟨rfl, hlive.2, hlive.1⟩
    exact Or.inl ⟨old, Table.mem_of_get? hold, ⟨hpasses.isOpen, hpasses.unexpired⟩, hsame⟩
  · exact Or.inr ⟨execution, version, session, task, hop, hclaims, hnew⟩

/-- A task row stays, and only an update changes its repository. -/
theorem repository_kept {task : Task} {row : Option Task} (hchange : TaskChange s now id op row)
    (hrow : s.tasks.get? id = some task) :
    ∃ task', row = some task' ∧ (task'.repository = task.repository
      ∨ ∃ requested version guard, op = .updateTask requested version guard ∧ id = requested.id
        ∧ task'.repository = requested.repository) := by
  have hsame : ∀ {taskId : String} {current written : Task}, s.LoadsTask taskId current →
      id = current.id → written.repository = current.repository →
        ∃ task', some written = some task' ∧ (task'.repository = task.repository
          ∨ ∃ requested version guard, op = .updateTask requested version guard ∧ id = requested.id
            ∧ task'.repository = requested.repository) := by
    intro taskId current written hload hid hrepository
    have heq : current = task := Option.some.inj (hload.row_of_id.symm.trans (hid ▸ hrow))
    exact ⟨written, rfl, Or.inl (hrepository.trans (congrArg Task.repository heq))⟩
  cases hchange with
  | kept op => exact ⟨task, hrow, Or.inl rfl⟩
  | started hvalid houtcome hid hnew => cases hnew.symm.trans hrow
  | ensured hvalid hid hnew => cases hnew.symm.trans hrow
  | @bound requested current session hvalid hid hcurrent hfree =>
      rcases get?_taskEnsured s requested id with hsame' | ⟨-, hnew, -⟩
      · rw [hsame', hrow] at hcurrent
        cases hcurrent
        exact ⟨_, rfl, Or.inl rfl⟩
      · cases hnew.symm.trans hrow
  | created hvalid hid hnew => cases hnew.symm.trans hrow
  | updated hupdates hid =>
      have hkey := hupdates.loadsTask.id_eq
      exact ⟨_, rfl, Or.inr ⟨_, _, _, rfl, hid.trans hkey, rfl⟩⟩
  | cancelled hload hstatus hid => exact hsame hload hid rfl
  | claimed hclaims hid => exact hsame hclaims.loadsTask hid rfl
  | idled hguards hload hid => exact hsame hload hid (by unfold Task.idled; split <;> rfl)
  | recoveryMarked hexecution hload hid => exact hsame hload hid rfl
  | waiting hrequests hbranch hid => exact hsame hrequests.loadsTask hid rfl
  | resumed hresolves hid =>
      exact hsame hresolves.loadsTask hid (by unfold Task.resumed; split <;> rfl)
  | inRecovery hmarks hid =>
      exact hsame hmarks.loadsTask hid (by unfold Task.inRecovery; split <;> rfl)
  | recovered hresolves hid => exact hsame hresolves.loadsTask hid rfl

theorem known_after (hknown : ∀ row ∈ s.executions.rows, s.tasks.get? row.taskId ≠ none)
    (hreturns : (exec now op).Returns s () s') :
    ∀ row ∈ s'.executions.rows, s'.tasks.get? row.taskId ≠ none := by
  have hkept : ∀ taskId, s.tasks.get? taskId ≠ none → s'.tasks.get? taskId ≠ none := by
    intro taskId hsome
    obtain ⟨task, htask⟩ := Option.ne_none_iff_exists'.mp hsome
    obtain ⟨task', htask', -⟩ := repository_kept (taskChange hreturns taskId) htask
    simp [htask']
  intro row hrow
  refine hkept row.taskId ?_
  have hchange := executionChange hreturns row.id
  rw [show s'.executions.get? row.id = some row from Table.get?_of_mem hrow] at hchange
  cases hold : s.executions.get? row.id with
  | some old =>
      obtain ⟨row', hrow', hsame, -⟩ := execution_kept hchange hold
      cases Option.some.inj hrow'
      have htask : row.taskId = old.taskId := congrArg LeaseGuard.taskId hsame.guard
      rw [htask]
      exact hknown old (Table.mem_of_get? hold)
  | none =>
      generalize hsome : some row = after at hchange
      cases hchange with
      | claimed hclaims hid =>
          cases hsome
          have hload := hclaims.loadsTask.1
          simp [Execution.claimed, hload]
      | kept op hop => cases hsome.trans hold
      | superseded hclaims hrow' hcontends hactive => cases hrow'.symm.trans hold
      | passed hclaims hid hinactive => cases hsome.trans hold
      | renewed hguards hid => cases hguards.row_of_id.symm.trans (hid ▸ hold)
      | released hguards hid => cases hguards.row_of_id.symm.trans (hid ▸ hold)
      | waiting hguards hid => cases hguards.row_of_id.symm.trans (hid ▸ hold)
      | @recoveryMarked identity cleanupInfo execution hrow' hid =>
          have hkey : execution.id = identity.executionId := Table.key_of_get? hrow'
          rw [hid, hkey, hrow'] at hold
          cases hold

theorem writersApart_after (hapart : s.WritersApart now) (hkeeps : KeepsWritersApart s ⟨now, op⟩)
    (hreturns : (exec now op).Returns s () s') : s'.WritersApart now where
  known := known_after hapart.known hreturns
  apart row hrow lease hlease := by
    rintro ⟨hruns, hlive, hother, task', htask', hrepository⟩
    have hrowChange := executionChange hreturns row.id
    rw [show s'.executions.get? row.id = some row from Table.get?_of_mem hrow] at hrowChange
    have hleaseChange := workspaceChange hreturns lease.workspaceId
    rw [show s'.workspaceLeases.get? lease.workspaceId = some lease from
      Table.get?_of_mem hlease] at hleaseChange
    -- The task was there before, and unless the operation moved it, on the same repository.
    have htask : ∀ task, s.tasks.get? row.taskId = some task →
        task'.repository = task.repository
          ∨ ∃ requested version guard, op = .updateTask requested version guard
            ∧ row.taskId = requested.id ∧ task'.repository = requested.repository := by
      intro task hold
      obtain ⟨after, hafter, hsame⟩ := repository_kept (taskChange hreturns row.taskId) hold
      cases Option.some.inj (hafter.symm.trans htask')
      exact hsame
    rcases execution_before hrowChange hlive with ⟨old, hold, holdLive, hsame⟩
      | ⟨execution, version, session, task, rfl, hclaims, rfl⟩
    · have hid : row.id = old.id := congrArg LeaseGuard.executionId hsame.guard
      have howner : row.taskId = old.taskId := congrArg LeaseGuard.taskId hsame.guard
      rw [hid] at hother
      obtain ⟨task, hrowTask⟩ := Option.ne_none_iff_exists'.mp (hapart.known old hold)
      rw [howner] at htask
      rcases lease_before hleaseChange hruns with
        ⟨oldLease, holdLease, hleaseRuns, hexecution, hpath⟩
        | ⟨requested, guard, rfl, hexecution, hpath⟩
      · rcases htask task hrowTask with hrepo | ⟨requested, version, guard, rfl, hrequested, hrepo⟩
        · refine hapart.apart old hold oldLease holdLease ⟨hleaseRuns, holdLive, ?_, task,
            hrowTask, ?_⟩
          · rw [hexecution]
            exact hother
          · rw [hpath, ← hrepo]
            exact hrepository
        · refine hkeeps oldLease holdLease hleaseRuns old hold holdLive hrequested ?_ ?_
          · rw [hexecution]
            exact hother
          · rw [hpath, ← hrepo]
            exact hrepository
      · rcases htask task hrowTask with hrepo | ⟨_, _, _, habsurd, -⟩
        · refine hkeeps old hold holdLive ?_ task hrowTask ?_
          · rw [hexecution]
            exact hother
          · rw [hpath, ← hrepo]
            exact hrepository
        · cases habsurd
    · have hload := hclaims.loadsTask.1
      rcases lease_before hleaseChange hruns with
        ⟨oldLease, holdLease, hleaseRuns, hexecution, hpath⟩ | ⟨_, _, habsurd, -⟩
      · rcases htask task hload with hrepo | ⟨_, _, _, habsurd, -⟩
        · refine hkeeps oldLease holdLease hleaseRuns ?_ task hload ?_
          · rw [hexecution]
            exact hother
          · rw [hpath, ← hrepo]
            exact hrepository
        · cases habsurd
      · cases habsurd

end Steps

section Runs

variable [Sha256] {s : Store} {history : List Timed} {start stop : Timestamp}

theorem writersApart_run (hnone : s.executions.rows = [])
    (hclock : Run.Clocked Timed.now start history stop)
    (hkeeps : Run.EveryStep step KeepsWritersApart s history) :
    (runFrom s history).WritersApart stop := by
  refine Run.invariant_clocked (fun now s => Store.WritersApart s now) ?_ ?_ hclock hkeeps
    ⟨by simp [hnone], by simp [hnone]⟩
  · intro now next s hle hapart
    exact hapart.later hle
  · intro s timed hapart hkept
    obtain hsame | hreturns := step_cases s timed
    · rw [hsame]
      exact hapart
    · exact writersApart_after hapart hkept hreturns

/-- The effect whose result a claim or a commit moves on, with the guard it is moved under. -/
def Op.movesResult (op : Op) (effectId : String) (guard : LeaseGuard) : Prop :=
  (∃ version conditions, op = .claimEffect effectId version guard conditions)
    ∨ ∃ effect version resultRef observationRef observation,
        op = .commitEffect effect version resultRef observationRef guard observation
          ∧ effect.id = effectId

/-- A claim or a commit that is accepted has an execution that is live. -/
theorem live_of_movesResult {now : Timestamp} {op : Op} {effectId : String} {guard : LeaseGuard}
    (hmoves : op.movesResult effectId guard) (haccepted : Accepted s ⟨now, op⟩) :
    ∃ row ∈ s.executions.rows, row.Live now ∧ row.id = guard.executionId
      ∧ row.taskId = guard.taskId := by
  have hpasses : s.PassesGuard now guard := by
    refine passesGuard_of_accepted haccepted ?_
    rcases hmoves with ⟨_, _, rfl⟩ | ⟨_, _, _, _, _, rfl, -⟩
    · rfl
    · rfl
  obtain ⟨row, hguards⟩ := passesGuard_iff.mp hpasses
  exact ⟨row, Table.mem_of_get? hguards.row, ⟨hguards.active, hguards.unexpired⟩,
    Table.key_of_get? hguards.row, congrArg LeaseGuard.taskId hguards.fields⟩

/-- An execution holds the workspace of a repository. -/
def Store.HoldsWriter (s : Store) (now : Timestamp) (executionId repository : String) : Prop :=
  ∃ lease ∈ s.workspaceLeases.rows, now < lease.leaseExpiresAt ∧ lease.executionId = executionId
    ∧ lease.repositoryPath = repository

/-- From a database without executions, under a clock that does not go back, and with the three
ownership conditions at every step: while an execution holds the workspace of a repository, no claim
and no commit of a write or execute effect of a task on that repository is accepted under the guard of
another execution of the task. -/
theorem workspace_fences_results (hnone : s.executions.rows = [])
    (hclock : Run.Clocked Timed.now start history stop)
    (hkeeps : Run.EveryStep step KeepsWritersApart s history) :
    ∀ effect task holder, (runFrom s history).effects.get? effect.id = some effect →
      effect.actionKind ∈ ["write", "execute"] →
      (runFrom s history).tasks.get? effect.taskId = some task →
      (runFrom s history).HoldsWriter stop holder task.repository →
      ∀ op guard, op.movesResult effect.id guard → guard.taskId = effect.taskId →
        guard.executionId ≠ holder → ¬ Accepted (runFrom s history) ⟨stop, op⟩ := by
  intro effect task holder _ _ htask hholds op guard hmoves howner hother haccepted
  obtain ⟨lease, hlease, hruns, hexecution, hpath⟩ := hholds
  obtain ⟨row, hrow, hlive, hid, htaskId⟩ := live_of_movesResult hmoves haccepted
  refine (writersApart_run hnone hclock hkeeps).apart row hrow lease hlease ⟨hruns, hlive, ?_, task,
    ?_, hpath.symm⟩
  · rw [hid, hexecution]
    exact hother
  · rw [htaskId, howner]
    exact htask

end Runs

section Samples

local instance workspaceFencingDigest : Sha256 := Sample.digest

instance (execution : Execution) (now : Timestamp) : Decidable (execution.Live now) :=
  inferInstanceAs (Decidable (_ ∧ _))

instance (s : Store) (timed : Timed) : Decidable (KeepsWritersApart s timed) := by
  obtain ⟨now, op⟩ := timed
  apply Op.casesOn (motive := fun op => Decidable (KeepsWritersApart s ⟨now, op⟩)) op <;> intros <;>
    (delta KeepsWritersApart; infer_instance)

def Sample.workspaceLease (executionId sessionId taskId : String) (leaseExpiresAt : Timestamp) :
    WorkspaceLease where
  workspaceId := "w"
  repositoryPath := "/repo"
  sessionId := sessionId
  executionId := executionId
  taskId := taskId
  ownerId := "owner-" ++ executionId
  leaseToken := "writer-" ++ executionId
  leaseExpiresAt := leaseExpiresAt

/-- An execution claims a write under its execution lease and takes the workspace for a while. -/
def Sample.writing (writerExpiresAt : Timestamp) : List Timed :=
  Sample.started "s" "a" "x" 100 ++
    [⟨0, .acquireWorkspaceWriter (Sample.workspaceLease "x" "s" "a" writerExpiresAt)
        (Sample.guard "x" "a")⟩,
      ⟨1, .prepareEffects [Sample.effect "e" "a"] 2 (some (Sample.guard "x" "a"))⟩,
      ⟨2, .claimEffect "e" 1 (Sample.guard "x" "a") {}⟩]

/-- The workspace lease runs out, and another session takes the workspace over; the first execution
still renews its own lease. -/
def Sample.workspaceTaken : List Timed :=
  Sample.writing 10 ++
    [⟨20, .createSession (Sample.session "t")⟩, ⟨20, .startTask "t" (Sample.task "b") 1⟩,
      ⟨20, .claimExecution (Sample.execution "y" "t" "b" 200) none⟩,
      ⟨20, .acquireWorkspaceWriter (Sample.workspaceLease "y" "t" "b" 200) (Sample.guard "y" "b")⟩,
      ⟨21, .renewExecution (Sample.guard "x" "a") 200⟩]

/-- The execution that lost the workspace commits the result of its write. -/
theorem result_crosses_workspace :
    (runFrom {} Sample.workspaceTaken).HoldsWriter 30 "y" "/repo"
      ∧ ((runFrom {} Sample.workspaceTaken).effects.get? "e").map Effect.actionKind = some "write"
      ∧ ((runFrom {} Sample.workspaceTaken).tasks.get? "a").map Task.repository = some "/repo"
      ∧ Accepted (runFrom {} Sample.workspaceTaken) ⟨30, .commitEffect
          { Sample.effect "e" "a" with status := .succeeded } 2 none none (Sample.guard "x" "a")
          none⟩ := by
  unfold Store.HoldsWriter
  decide +kernel

/-- While the first execution holds the workspace, no other commits its result. -/
theorem workspace_fences_results_other :
    ∃ effect task, (runFrom {} (Sample.writing 50)).effects.get? "e" = some effect
      ∧ (runFrom {} (Sample.writing 50)).tasks.get? "a" = some task
      ∧ ¬ Accepted (runFrom {} (Sample.writing 50)) ⟨30, .commitEffect
          { effect with status := .succeeded } 2 none none (Sample.guard "y" "a") none⟩ := by
  obtain ⟨effect, heffect⟩ : ∃ effect, (runFrom {} (Sample.writing 50)).effects.get? "e"
      = some effect := Option.isSome_iff_exists.mp (by decide +kernel)
  obtain ⟨task, htask⟩ : ∃ task, (runFrom {} (Sample.writing 50)).tasks.get? "a"
      = some task := Option.isSome_iff_exists.mp (by decide +kernel)
  have hkind : ((runFrom {} (Sample.writing 50)).effects.get? "e").map
      (fun effect => (effect.id, effect.actionKind, effect.taskId)) = some ("e", "write", "a") := by
    decide +kernel
  have hrepository : ((runFrom {} (Sample.writing 50)).tasks.get? "a").map Task.repository
      = some "/repo" := by decide +kernel
  rw [heffect] at hkind
  rw [htask] at hrepository
  obtain ⟨hid, hwrites, htaskId⟩ : effect.id = "e" ∧ effect.actionKind = "write"
    ∧ effect.taskId = "a" := by simpa using hkind
  have hrepo : task.repository = "/repo" := by simpa using hrepository
  refine ⟨effect, task, heffect, htask, ?_⟩
  have hclock : Run.Clocked Timed.now 0 (Sample.writing 50) 30 := by decide
  have hkeeps : Run.EveryStep step KeepsWritersApart {} (Sample.writing 50) := by decide +kernel
  refine workspace_fences_results rfl hclock hkeeps effect task "x" (by rw [hid]; exact heffect)
    (by simp [hwrites]) (by rw [htaskId]; exact htask) ?_ _ (Sample.guard "y" "a")
    (Or.inr ⟨_, _, _, _, _, rfl, rfl⟩) htaskId.symm (by decide)
  rw [hrepo]
  unfold Store.HoldsWriter
  decide +kernel

end Samples

end PatchLoop
