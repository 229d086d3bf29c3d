import PatchLoop.Store.LeaseChanges
import PatchLoop.Lib.Lease

/-!
# Workspace writers

The lease row of a workspace is a fenced lease: the row is reused by every writer, an acquisition
raises its generation, and a release moves its expiry to the present.
-/

namespace PatchLoop

open Transaction

/-- The lease row as a fenced lease, which is always open. -/
def WorkspaceLease.cell (lease : WorkspaceLease) : Lease.Cell WorkspaceLeaseGuard where
  guard := lease.guard
  expires := lease.leaseExpiresAt
  isOpen := True

/-- The generation of a workspace; zero before its first writer. -/
def Store.workspaceGeneration (s : Store) (id : String) : Nat :=
  ((s.workspaceLeases.get? id).map WorkspaceLease.generation).getD 0

section Steps

variable [Sha256] {s s' : Store} {now : Timestamp} {op : Op}

omit [Sha256] in
theorem passesWorkspaceGuard_iff_cell {guard : WorkspaceLeaseGuard} :
    s.PassesWorkspaceGuard now guard
      ↔ ∃ lease, s.workspaceLeases.get? guard.workspaceId = some lease
        ∧ lease.cell.Passes now guard := by
  rw [passesWorkspaceGuard_iff]
  constructor
  · rintro ⟨lease, hrow, hfields, hunexpired⟩
    exact ⟨lease, hrow, hfields, hunexpired, trivial⟩
  · rintro ⟨lease, hrow, hfields, hunexpired, -⟩
    exact ⟨lease, hrow, hfields, hunexpired⟩

omit [Sha256] in
/-- The lease that a guard passes for is the row of its workspace. -/
theorem Store.GuardsWorkspace.eq_of_row {guard : WorkspaceLeaseGuard} {existing lease : WorkspaceLease}
    {id : String} (hguards : s.GuardsWorkspace now guard existing)
    (hid : id = existing.workspaceId) (hrow : s.workspaceLeases.get? id = some lease) :
    existing = lease := by
  rw [hid, hguards.row_of_id] at hrow
  exact Option.some.inj hrow

/-- Whatever the operation, the row of a workspace stays and makes a step of its fenced lease. -/
theorem workspaceLease_step (timed : Timed) {id : String} {lease : WorkspaceLease}
    (hrow : s.workspaceLeases.get? id = some lease) :
    ∃ lease', (step s timed).workspaceLeases.get? id = some lease'
      ∧ Lease.Step WorkspaceLeaseGuard.generation timed.now lease.cell lease'.cell := by
  obtain ⟨now, op⟩ := timed
  obtain hsame | hreturns := step_cases s ⟨now, op⟩
  · exact ⟨lease, by rw [hsame]; exact hrow, .kept rfl⟩
  · have hchange : WorkspaceChange s now id op _ := workspaceChange hreturns id
    generalize (step s ⟨now, op⟩).workspaceLeases.get? id = row at hchange ⊢
    cases hchange with
    | kept op => exact ⟨lease, hrow, .kept rfl⟩
    | acquired hacquires hid =>
        refine ⟨_, rfl, .replaced ?_⟩
        rw [hid] at hrow
        simp [WorkspaceLease.cell, WorkspaceLease.guard, Store.acquiredLease, hrow]
    | renewed hguards hid =>
        obtain rfl := hguards.eq_of_row hid hrow
        exact ⟨_, rfl, .renewed ⟨rfl, hguards.unexpired, trivial⟩ rfl⟩
    | released hguards hid =>
        obtain rfl := hguards.eq_of_row hid hrow
        exact ⟨_, rfl, .ended rfl fun hpasses => Nat.lt_irrefl _ hpasses.unexpired⟩

/-- Only the guard of a lease that still runs lets an operation change the row. -/
theorem workspaceLease_changed {timed : Timed} {id : String} {lease : WorkspaceLease}
    (hrow : s.workspaceLeases.get? id = some lease) (hruns : timed.now < lease.leaseExpiresAt)
    (hchanged : (step s timed).workspaceLeases.get? id ≠ some lease) :
    (∃ leaseExpiresAt, timed.op = .renewWorkspaceWriter lease.guard leaseExpiresAt)
      ∨ timed.op = .releaseWorkspaceWriter lease.guard := by
  obtain ⟨now, op⟩ := timed
  obtain hsame | hreturns := step_cases s ⟨now, op⟩
  · rw [hsame] at hchanged
    exact absurd hrow hchanged
  · have hchange : WorkspaceChange s now id op _ := workspaceChange hreturns id
    generalize (step s ⟨now, op⟩).workspaceLeases.get? id = row at hchange hchanged
    cases hchange with
    | kept op => exact absurd hrow hchanged
    | acquired hacquires hid =>
        rw [hid] at hrow
        exact absurd hruns (Nat.not_lt.mpr (hacquires.expired lease hrow))
    | @renewed guard leaseExpiresAt existing hguards hid =>
        obtain rfl := hguards.eq_of_row hid hrow
        exact Or.inl ⟨leaseExpiresAt, by rw [hguards.fields]⟩
    | @released guard existing hguards hid =>
        obtain rfl := hguards.eq_of_row hid hrow
        exact Or.inr (by rw [hguards.fields])

theorem workspaceGeneration_acquired {lease : WorkspaceLease} {guard : LeaseGuard}
    (haccepted : Accepted s ⟨now, .acquireWorkspaceWriter lease guard⟩) :
    s.workspaceGeneration lease.workspaceId
      < (step s ⟨now, .acquireWorkspaceWriter lease guard⟩).workspaceGeneration
          lease.workspaceId := by
  obtain ⟨_, hreturns⟩ := discard_returns.mp (accepted_iff.mp haccepted)
  obtain ⟨_, _, -, -, -, _, hstate⟩ := acquireWorkspaceWriter_returns hreturns
  have hget := Table.get?_upsert_self s.workspaceLeases (s.acquiredLease lease)
  rw [hstate]
  change _ < (((s.workspaceLeases.upsert (s.acquiredLease lease)).get? (Keyed.key
    (s.acquiredLease lease))).map WorkspaceLease.generation).getD 0
  rw [hget]
  exact Nat.lt_succ_self _

end Steps

section Runs

variable [Sha256] {s : Store} {history : List Timed} {start stop : Timestamp}

/-- The generation of a workspace never goes back. -/
theorem workspaceGeneration_le (s : Store) (history : List Timed) (id : String) :
    s.workspaceGeneration id ≤ (runFrom s history).workspaceGeneration id := by
  refine Run.preserved_after
    (fun t : Store => s.workspaceGeneration id ≤ t.workspaceGeneration id) ?_ history
    (Nat.le_refl _)
  intro t timed hle
  refine Nat.le_trans hle ?_
  cases hrow : t.workspaceLeases.get? id with
  | none => simp [Store.workspaceGeneration, hrow]
  | some lease =>
      obtain ⟨lease', hrow', hstep⟩ := workspaceLease_step timed hrow
      have hgeneration : lease.generation ≤ lease'.generation := hstep.generation_le
      simpa [Store.workspaceGeneration, hrow, hrow'] using hgeneration

/-- The row of a workspace stays over a run, and a guard issued for it stays issued. -/
theorem workspaceLease_issued {guard : WorkspaceLeaseGuard} {lease : WorkspaceLease}
    (hrow : s.workspaceLeases.get? guard.workspaceId = some lease)
    (hissued : Lease.Issued WorkspaceLeaseGuard.generation lease.cell guard)
    (history : List Timed) :
    ∃ lease', (runFrom s history).workspaceLeases.get? guard.workspaceId = some lease'
      ∧ Lease.Issued WorkspaceLeaseGuard.generation lease'.cell guard := by
  refine Run.preserved_after (fun s : Store => ∃ lease : WorkspaceLease,
    s.workspaceLeases.get? guard.workspaceId = some lease
      ∧ Lease.Issued WorkspaceLeaseGuard.generation lease.cell guard) ?_ history
    ⟨lease, hrow, hissued⟩
  rintro s timed ⟨lease, hrow, hissued⟩
  obtain ⟨lease', hrow', hstep⟩ := workspaceLease_step timed hrow
  exact ⟨lease', hrow', hissued.step hstep⟩

/-- A dead workspace guard stays dead. -/
theorem workspaceLease_dead {guard : WorkspaceLeaseGuard} {lease : WorkspaceLease}
    (hclock : Run.Clocked Timed.now start history stop)
    (hrow : s.workspaceLeases.get? guard.workspaceId = some lease)
    (hdead : Lease.Dead WorkspaceLeaseGuard.generation start lease.cell guard) :
    ∃ lease', (runFrom s history).workspaceLeases.get? guard.workspaceId = some lease'
      ∧ Lease.Dead WorkspaceLeaseGuard.generation stop lease'.cell guard := by
  refine Run.preserved_clocked (fun now (s : Store) => ∃ lease : WorkspaceLease,
    s.workspaceLeases.get? guard.workspaceId = some lease
      ∧ Lease.Dead WorkspaceLeaseGuard.generation now lease.cell guard) ?_ ?_ hclock
    ⟨lease, hrow, hdead⟩
  · rintro now next s hle ⟨lease, hrow, hdead⟩
    exact ⟨lease, hrow, hdead.later hle⟩
  · rintro s timed ⟨lease, hrow, hdead⟩
    obtain ⟨lease', hrow', hstep⟩ := workspaceLease_step timed hrow
    exact ⟨lease', hrow', hdead.step hstep⟩

end Runs

end PatchLoop
