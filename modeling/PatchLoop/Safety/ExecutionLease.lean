import PatchLoop.Store.LeaseChanges
import PatchLoop.Store.Fence
import PatchLoop.Lib.Lease

/-!
# Execution leases

An execution row is a fenced lease whose guard never changes: it is open while the execution is
active. A claim ends every row of its session and of its task, so at most one is active at a time.
-/

namespace PatchLoop

open Transaction

/-- The execution row as a fenced lease. -/
def Execution.cell (execution : Execution) : Lease.Cell LeaseGuard where
  guard := execution.guard
  expires := execution.leaseExpiresAt
  isOpen := execution.status.Active

/-- The execution is active and its lease still runs. -/
def Execution.Live (execution : Execution) (now : Timestamp) : Prop :=
  execution.status.Active ∧ now < execution.leaseExpiresAt

/-- No two executions of one session or of one task are active, whether expired or not. -/
def Store.OneActive (s : Store) : Prop :=
  ∀ row ∈ s.executions.rows, ∀ row' ∈ s.executions.rows, row.status.Active → row'.status.Active →
    row.Contends row' → row = row'

/-- The rows of an execution agree in what a claim fixes. -/
structure Execution.SameClaim (execution execution' : Execution) : Prop where
  guard : execution'.guard = execution.guard
  session : execution'.sessionId = execution.sessionId

theorem Execution.SameClaim.contends {row row' execution : Execution}
    (hsame : row.SameClaim row') (hcontends : row'.Contends execution) :
    row.Contends execution := by
  have htask : row'.taskId = row.taskId := congrArg LeaseGuard.taskId hsame.guard
  rw [Execution.Contends, hsame.session, htask] at hcontends
  exact hcontends

section Steps

variable {s s' : Store} {now : Timestamp} {op : Op} {id : String}

theorem Store.Guards.eq_of_row {guard : LeaseGuard} {existing execution : Execution}
    (hguards : s.Guards now guard existing) (hid : id = existing.id)
    (hrow : s.executions.get? id = some execution) : existing = execution := by
  rw [hid, hguards.row_of_id] at hrow
  exact Option.some.inj hrow

theorem le_lastGeneration {row : Execution} (hrow : row ∈ s.executions.rows) :
    row.generation ≤ s.lastGeneration row.taskId := by
  have hmem : row.generation ∈ (s.executions.rows.filter fun execution =>
      execution.taskId = row.taskId).map Execution.generation :=
    List.mem_map_of_mem (List.mem_filter.mpr ⟨hrow, by simp⟩)
  rw [Store.lastGeneration]
  generalize (s.executions.rows.filter fun execution =>
      execution.taskId = row.taskId).map Execution.generation = generations at hmem
  induction generations with
  | nil => cases hmem
  | cons first rest ih =>
      rw [List.foldr_cons]
      rcases List.mem_cons.mp hmem with heq | hrest
      · rw [heq]
        exact Nat.le_max_left _ _
      · exact Nat.le_trans (ih hrest) (Nat.le_max_right _ _)

/-- An execution row stays, with its guard and its session, and makes a step of its lease. -/
theorem execution_kept {execution : Execution} {row : Option Execution}
    (hchange : ExecutionChange s now id op row) (hrow : s.executions.get? id = some execution) :
    ∃ execution', row = some execution' ∧ execution.SameClaim execution'
      ∧ Lease.Step (fun _ => 0) now execution.cell execution'.cell := by
  cases hchange with
  | kept op hother => exact ⟨execution, hrow, ⟨rfl, rfl⟩, .kept rfl⟩
  | claimed hclaims hid =>
      have hfresh := hclaims.fresh
      rw [← hid, hrow] at hfresh
      cases hfresh
  | superseded hclaims hsuperseded hcontends hactive =>
      cases Option.some.inj (hsuperseded.symm.trans hrow)
      exact ⟨_, rfl, ⟨rfl, rfl⟩, .ended rfl fun hpasses =>
        ended_released_inactive execution hpasses.isOpen⟩
  | passed hclaims hid hinactive => exact ⟨execution, hrow, ⟨rfl, rfl⟩, .kept rfl⟩
  | renewed hguards hid =>
      obtain rfl := hguards.eq_of_row hid hrow
      exact ⟨_, rfl, ⟨rfl, rfl⟩, .renewed ⟨rfl, hguards.unexpired, hguards.active⟩ rfl⟩
  | released hguards hid =>
      obtain rfl := hguards.eq_of_row hid hrow
      exact ⟨_, rfl, ⟨rfl, rfl⟩, .ended rfl fun hpasses =>
        ended_released_inactive _ hpasses.isOpen⟩
  | waiting hguards hid =>
      obtain rfl := hguards.eq_of_row hid hrow
      exact ⟨_, rfl, ⟨rfl, rfl⟩, .renewed ⟨rfl, hguards.unexpired, hguards.active⟩ rfl⟩
  | @recoveryMarked identity cleanupInfo existing hexisting hid =>
      have hkey : existing.id = identity.executionId := Table.key_of_get? hexisting
      rw [hid, hkey, hexisting] at hrow
      cases Option.some.inj hrow
      refine ⟨_, rfl, ⟨rfl, rfl⟩, .ended rfl fun hpasses => ?_⟩
      have hactive : (ExecutionStatus.recoveryRequired).Active := hpasses.isOpen
      exact absurd hactive (by decide)

/-- An execution that is active after an operation was active before it, in the same session and for
the same task, and a claim did not contend with it; or the operation is its claim. -/
theorem active_after {row : Execution} (hchange : ExecutionChange s now id op (some row))
    (hactive : row.status.Active) :
    (∃ old, s.executions.get? id = some old ∧ old.status.Active ∧ old.SameClaim row
        ∧ ∀ execution version, op = .claimExecution execution version → ¬ old.Contends execution)
      ∨ ∃ execution version session task, op = .claimExecution execution version
        ∧ s.ClaimsExecution now execution version session task ∧ id = execution.id
        ∧ row = execution.claimed (s.lastGeneration execution.taskId + 1) := by
  generalize hafter : some row = after at hchange
  cases hchange with
  | kept op hother =>
      exact Or.inl ⟨row, hafter.symm, hactive, ⟨rfl, rfl⟩, fun execution version h =>
        absurd h (hother execution version)⟩
  | claimed hclaims hid =>
      exact Or.inr ⟨_, _, _, _, rfl, hclaims, hid, Option.some.inj hafter⟩
  | superseded hclaims hrow hcontends hold =>
      cases hafter
      exact absurd hactive (ended_released_inactive _)
  | passed hclaims hid hinactive =>
      refine Or.inl ⟨row, hafter.symm, hactive, ⟨rfl, rfl⟩, ?_⟩
      rintro _ _ ⟨⟩ hcontends
      exact hinactive row hafter.symm hcontends hactive
  | renewed hguards hid =>
      cases hafter
      exact Or.inl ⟨_, by rw [hid]; exact hguards.row_of_id, hguards.active, ⟨rfl, rfl⟩, by simp⟩
  | released hguards hid =>
      cases hafter
      exact absurd hactive (ended_released_inactive _)
  | waiting hguards hid =>
      cases hafter
      exact Or.inl ⟨_, by rw [hid]; exact hguards.row_of_id, hguards.active, ⟨rfl, rfl⟩, by simp⟩
  | recoveryMarked hrow hid =>
      cases hafter
      have hactive : (ExecutionStatus.recoveryRequired).Active := hactive
      exact absurd hactive (by decide)

/-- A new execution row takes the next generation of its task. -/
theorem claimed_of_new {row : Execution} (hchange : ExecutionChange s now id op (some row))
    (hnew : s.executions.get? id = none) :
    ∃ execution : Execution, row = execution.claimed (s.lastGeneration execution.taskId + 1) := by
  generalize hafter : some row = after at hchange
  cases hchange with
  | kept op hother => cases hafter.trans hnew
  | claimed hclaims hid => exact ⟨_, Option.some.inj hafter⟩
  | superseded hclaims hrow hcontends hactive => cases hrow.symm.trans hnew
  | passed hclaims hid hinactive => cases hafter.trans hnew
  | renewed hguards hid =>
      rw [hid, hguards.row_of_id] at hnew
      cases hnew
  | released hguards hid =>
      rw [hid, hguards.row_of_id] at hnew
      cases hnew
  | waiting hguards hid =>
      rw [hid, hguards.row_of_id] at hnew
      cases hnew
  | @recoveryMarked identity cleanupInfo execution hrow hid =>
      have hkey : execution.id = identity.executionId := Table.key_of_get? hrow
      rw [hid, hkey, hrow] at hnew
      cases hnew

/-- The contention of two active rows goes back to the rows they come from. -/
theorem oneActive_after [Sha256] (hone : s.OneActive) (hreturns : (exec now op).Returns s () s') :
    s'.OneActive := by
  have hmem : ∀ row : Execution, ∀ id, s.executions.get? id = some row → row ∈ s.executions.rows :=
    fun row id hrow => Table.mem_of_get? hrow
  intro row hrow row' hrow' hactive hactive' hcontends
  have hget := Table.get?_of_mem hrow
  have hget' := Table.get?_of_mem hrow'
  have hchange := executionChange hreturns row.id
  have hchange' := executionChange hreturns row'.id
  rw [show s'.executions.get? row.id = some row from hget] at hchange
  rw [show s'.executions.get? row'.id = some row' from hget'] at hchange'
  have hid : row.id = row'.id := by
    rcases active_after hchange hactive with ⟨old, hold, holdActive, hsame, hpassed⟩
      | ⟨execution, version, session, task, hop, hclaims, hid, hnew⟩
    · rcases active_after hchange' hactive' with ⟨old', hold', holdActive', hsame', -⟩
        | ⟨execution, version, session, task, hop, hclaims, hid, hnew⟩
      · have hcontends' : old.Contends old' := by
          have htask' : row'.taskId = old'.taskId := congrArg LeaseGuard.taskId hsame'.guard
          have h := hsame.contends hcontends
          rwa [Execution.Contends, hsame'.session, htask'] at h
        have heq := hone old (hmem old _ hold) old' (hmem old' _ hold') holdActive holdActive'
          hcontends'
        have hkey : old.id = row.id := Table.key_of_get? hold
        have hkey' : old'.id = row'.id := Table.key_of_get? hold'
        rw [← hkey, ← hkey', heq]
      · refine absurd ?_ (hpassed execution version hop)
        rw [hnew] at hcontends
        exact hsame.contends hcontends
    · rcases active_after hchange' hactive' with ⟨old', hold', holdActive', hsame', hpassed'⟩
        | ⟨execution', version', session', task', hop', hclaims', hid', hnew'⟩
      · refine absurd ?_ (hpassed' execution version hop)
        rw [hnew] at hcontends
        exact hsame'.contends (hcontends.imp Eq.symm Eq.symm)
      · rw [hop] at hop'
        cases hop'
        rw [hid, hid']
  exact Option.some.inj (hget.symm.trans ((congrArg s'.executions.get? hid).trans hget'))

end Steps

section Runs

variable [Sha256] {s : Store} {history : List Timed} {start stop : Timestamp}

theorem oneActive_run (hnone : s.executions.rows = []) (history : List Timed) :
    (runFrom s history).OneActive := by
  refine Run.preserved_after Store.OneActive ?_ history ?_
  · intro s timed hone
    obtain hsame | hreturns := step_cases s timed
    · rw [hsame]
      exact hone
    · exact oneActive_after hone hreturns
  · intro row hrow
    rw [hnone] at hrow
    cases hrow

/-- An execution row stays over a run, with what its claim has fixed. -/
theorem execution_step (timed : Timed) {id : String} {execution : Execution}
    (hrow : s.executions.get? id = some execution) :
    ∃ execution', (step s timed).executions.get? id = some execution'
      ∧ execution.SameClaim execution'
      ∧ Lease.Step (fun _ => 0) timed.now execution.cell execution'.cell := by
  obtain hsame | hreturns := step_cases s timed
  · exact ⟨execution, by rw [hsame]; exact hrow, ⟨rfl, rfl⟩, .kept rfl⟩
  · exact execution_kept (executionChange hreturns id) hrow

/-- What holds of the generations once `id` has its row and `id'` has none: a later row of `id'` for
the same task has a later generation. -/
def Store.Precedes (s : Store) (id id' : String) (taskId : String) (generation : Nat) : Prop :=
  (∃ row, s.executions.get? id = some row ∧ row.taskId = taskId ∧ row.generation = generation)
    ∧ ∀ row' ∈ s.executions.get? id', row'.taskId = taskId → generation < row'.generation

theorem precedes_step {timed : Timed} {id id' taskId : String} {generation : Nat}
    (hprecedes : s.Precedes id id' taskId generation) :
    (step s timed).Precedes id id' taskId generation := by
  obtain ⟨⟨row, hrow, htask, hgeneration⟩, hlater⟩ := hprecedes
  constructor
  · obtain ⟨after, hafter, hsame, -⟩ := execution_step timed hrow
    exact ⟨after, hafter, (congrArg LeaseGuard.taskId hsame.guard).trans htask,
      (congrArg LeaseGuard.generation hsame.guard).trans hgeneration⟩
  · intro row' hrow' htask'
    cases hold : s.executions.get? id' with
    | some old =>
        obtain ⟨after, hafter, hsame, -⟩ := execution_step timed hold
        cases Option.some.inj (hafter.symm.trans hrow')
        have hgeneration' : row'.generation = old.generation :=
          congrArg LeaseGuard.generation hsame.guard
        have htaskOld : row'.taskId = old.taskId := congrArg LeaseGuard.taskId hsame.guard
        rw [hgeneration']
        exact hlater old hold (htaskOld.symm.trans htask')
    | none =>
        obtain ⟨now, op⟩ := timed
        obtain hsame | hreturns := step_cases s ⟨now, op⟩
        · rw [hsame, hold] at hrow'
          cases hrow'
        · have hchange : ExecutionChange s now id' op _ := executionChange hreturns id'
          rw [Option.mem_def.mp hrow'] at hchange
          obtain ⟨execution, rfl⟩ := claimed_of_new hchange hold
          have hexecution : execution.taskId = taskId := htask'
          have hle := le_lastGeneration (Table.mem_of_get? hrow)
          change generation < s.lastGeneration execution.taskId + 1
          rw [hexecution, ← htask, ← hgeneration]
          exact Nat.lt_succ_of_le hle

/-- A dead guard of an execution stays dead. -/
theorem execution_dead {id : String} {guard : LeaseGuard} {execution : Execution}
    (hclock : Run.Clocked Timed.now start history stop)
    (hrow : s.executions.get? id = some execution)
    (hdead : Lease.Dead (fun _ => 0) start execution.cell guard) :
    ∃ execution', (runFrom s history).executions.get? id = some execution'
      ∧ Lease.Dead (fun _ => 0) stop execution'.cell guard := by
  refine Run.preserved_clocked (fun now (s : Store) => ∃ execution : Execution,
    s.executions.get? id = some execution
      ∧ Lease.Dead (fun _ => 0) now execution.cell guard) ?_ ?_ hclock ⟨execution, hrow, hdead⟩
  · rintro now next s hle ⟨execution, hrow, hdead⟩
    exact ⟨execution, hrow, hdead.later hle⟩
  · rintro s timed ⟨execution, hrow, hdead⟩
    obtain ⟨execution', hrow', -, hstep⟩ := execution_step timed hrow
    exact ⟨execution', hrow', hdead.step hstep⟩

omit [Sha256] in
theorem passesGuard_iff_cell {now : Timestamp} {guard : LeaseGuard} :
    s.PassesGuard now guard
      ↔ ∃ execution, s.executions.get? guard.executionId = some execution
        ∧ execution.cell.Passes now guard := by
  rw [passesGuard_iff]
  constructor
  · rintro ⟨execution, hrow, hfields, hunexpired, hactive⟩
    exact ⟨execution, hrow, hfields, hunexpired, hactive⟩
  · rintro ⟨execution, hrow, hfields, hunexpired, hactive⟩
    exact ⟨execution, hrow, hfields, hunexpired, hactive⟩

/-- A guard of a claimed execution that `_assert_guard` has rejected is rejected ever after. -/
theorem rejected_forever {guard : LeaseGuard} {execution : Execution}
    (hclock : Run.Clocked Timed.now start history stop)
    (hrow : s.executions.get? guard.executionId = some execution)
    (hrejected : ¬ s.PassesGuard start guard) : ¬ (runFrom s history).PassesGuard stop guard := by
  intro hagain
  have hdead : Lease.Dead (fun _ => 0) start execution.cell guard :=
    ⟨Nat.le_refl 0, fun hpasses => hrejected (passesGuard_iff_cell.mpr ⟨execution, hrow, hpasses⟩)⟩
  obtain ⟨execution', hrow', hdead'⟩ := execution_dead hclock hrow hdead
  obtain ⟨found, hfound, hpasses⟩ := passesGuard_iff_cell.mp hagain
  cases Option.some.inj (hfound.symm.trans hrow')
  exact hdead'.fails hpasses

/-- From a database without executions: at every instant two live executions of one session or of one
task are one; of two executions of a task the one claimed later has the greater generation; and a
guard of a claimed execution that has been rejected is rejected at every later time, so that no
fenced operation is accepted with it. -/
theorem executionLeases_safe {s : Store} (hnone : s.executions.rows = []) :
    (∀ history now, ∀ row ∈ (runFrom s history).executions.rows,
        ∀ row' ∈ (runFrom s history).executions.rows, row.Live now → row'.Live now →
          row.sessionId = row'.sessionId ∨ row.taskId = row'.taskId → row = row')
      ∧ (∀ earlier later id id' row row',
          (runFrom s earlier).executions.get? id = some row →
          (runFrom s earlier).executions.get? id' = none →
          (runFrom s (earlier ++ later)).executions.get? id' = some row' →
          row'.taskId = row.taskId → row.generation < row'.generation)
      ∧ (∀ earlier later guard start stop, Run.Clocked Timed.now start later stop →
          (runFrom s earlier).executions.get? guard.executionId ≠ none →
          ¬ (runFrom s earlier).PassesGuard start guard →
            ¬ (runFrom s (earlier ++ later)).PassesGuard stop guard
              ∧ ∀ op : Op, op.fence (runFrom s (earlier ++ later)) = some guard →
                  ¬ Accepted (runFrom s (earlier ++ later)) ⟨stop, op⟩) := by
  refine ⟨?_, ?_, ?_⟩
  · intro history now row hrow row' hrow' hlive hlive' hcontends
    exact oneActive_run hnone history row hrow row' hrow' hlive.1 hlive'.1 hcontends
  · intro earlier later id id' row row' hrow hfree hrow' htask
    have hstart : (runFrom s earlier).Precedes id id' row.taskId row.generation :=
      ⟨⟨row, hrow, rfl, rfl⟩, by simp [hfree]⟩
    have hend : (runFrom (runFrom s earlier) later).Precedes id id' row.taskId row.generation :=
      Run.preserved_after (fun s : Store =>
        s.Precedes id id' row.taskId row.generation) (fun _ _ => precedes_step) later hstart
    rw [runFrom, Run.after_append] at hrow'
    exact hend.2 row' hrow' htask
  · intro earlier later guard start stop hlater hclaimed hrejected
    obtain ⟨execution, hrow⟩ := Option.ne_none_iff_exists'.mp hclaimed
    have hafter : ¬ (runFrom s (earlier ++ later)).PassesGuard stop guard := by
      rw [runFrom, Run.after_append]
      exact rejected_forever hlater hrow hrejected
    exact ⟨hafter, fun op hfence haccepted => hafter (passesGuard_of_accepted haccepted hfence)⟩

end Runs

section Samples

local instance executionLeaseDigest : Sha256 := Sample.digest

/-- The second execution of a session takes over when the lease of the first has run out. -/
def Sample.takeover : List Timed :=
  Sample.started "s" "a" "x" 10 ++ [⟨20, .claimExecution (Sample.execution "y" "s" "a" 100) none⟩]

/-- The superseded owner cannot renew. -/
theorem executionLeases_safe_takeover :
    Run.Clocked Timed.now 0 Sample.takeover 30
      ∧ ¬ Accepted (runFrom {} Sample.takeover) ⟨30, .renewExecution (Sample.guard "x" "a") 50⟩ := by
  refine ⟨by decide, ?_⟩
  have hsafe := (executionLeases_safe (s := {}) rfl).2.2 Sample.takeover [] (Sample.guard "x" "a")
    20 30 (by decide) (by decide +kernel) (by decide +kernel)
  exact hsafe.2 (.renewExecution (Sample.guard "x" "a") 50) rfl

/-- A guard that names an execution before its claim is rejected, and passes after it. -/
theorem unclaimed_guard_revives :
    ¬ ∀ earlier later guard start stop, Run.Clocked Timed.now 0 earlier start →
        Run.Clocked Timed.now start later stop →
        ¬ (runFrom {} earlier).PassesGuard start guard →
          ¬ (runFrom {} (earlier ++ later)).PassesGuard stop guard := by
  intro hforever
  have hrejected := hforever ((Sample.started "s" "a" "x" 10).take 2)
    ((Sample.started "s" "a" "x" 10).drop 2) (Sample.guard "x" "a") 0 5 (by decide) (by decide)
    (by decide +kernel)
  exact hrejected (by decide +kernel)

end Samples

end PatchLoop
