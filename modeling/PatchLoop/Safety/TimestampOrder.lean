import PatchLoop.Execution.Ownership
import PatchLoop.Lib.Datetimes
import PatchLoop.Store.LeaseSpec

/-!
# Times as texts

The database keeps the times of its columns as ISO texts, and the queries compare and sort these. They find
what a comparison of the times would find, so that a command is recovered exactly when its owner has lost its
lease.
-/

namespace PatchLoop

open Transaction

/-! ### Columns -/

/-- The text of a time in a column. A time counts the microseconds of the years 1 to 9999. -/
def columnText (time : Timestamp) : String :=
  if hlimit : time < Datetime.limit then (Datetime.ofTimestamp time hlimit).isoformat else ""

theorem columnText_lt_iff {first second : Timestamp} (hfirst : first < Datetime.limit)
    (hsecond : second < Datetime.limit) : columnText first < columnText second ↔ first < second := by
  rw [columnText, columnText, dif_pos hfirst, dif_pos hsecond, Datetime.isoformat_lt_iff,
    ← Datetime.timestamp_lt_iff, Datetime.timestamp_ofTimestamp, Datetime.timestamp_ofTimestamp]

theorem columnText_le_iff {first second : Timestamp} (hfirst : first < Datetime.limit)
    (hsecond : second < Datetime.limit) : columnText first ≤ columnText second ↔ first ≤ second := by
  rw [← not_lt, columnText_lt_iff hsecond hfirst, Nat.not_lt]

theorem columnText_inj {first second : Timestamp} (hfirst : first < Datetime.limit)
    (hsecond : second < Datetime.limit) : columnText first = columnText second ↔ first = second := by
  constructor
  · intro heq
    have hless := (columnText_le_iff hfirst hsecond).mp (le_of_eq heq)
    have hmore := (columnText_le_iff hsecond hfirst).mp (le_of_eq heq.symm)
    exact Nat.le_antisymm hless hmore
  · exact fun heq => by rw [heq]

/-! ### The queries -/

namespace Store

variable (s : Store)

/-- `executions.task_id = ? AND executions.lease_expires_at <= ?` -/
def ExpiredCommandByText (taskId : String) (now : Timestamp) (identity : ManagedCommandIdentity) : Prop :=
  ∃ execution ∈ s.executions.get? identity.executionId,
    execution.taskId = taskId ∧ columnText execution.leaseExpiresAt ≤ columnText now

instance (taskId : String) (now : Timestamp) (identity : ManagedCommandIdentity) :
    Decidable (s.ExpiredCommandByText taskId now identity) :=
  inferInstanceAs (Decidable (∃ _ ∈ _, _))

/-- `workspace_leases.workspace_id = ? AND workspace_leases.lease_expires_at <= ?` -/
def HolderCommandByText (workspaceId : String) (now : Timestamp) (identity : ManagedCommandIdentity) : Prop :=
  ∃ lease ∈ s.workspaceLeases.get? workspaceId,
    lease.executionId = identity.executionId ∧ columnText lease.leaseExpiresAt ≤ columnText now

instance (workspaceId : String) (now : Timestamp) (identity : ManagedCommandIdentity) :
    Decidable (s.HolderCommandByText workspaceId now identity) :=
  inferInstanceAs (Decidable (∃ _ ∈ _, _))

/-- The unfinished commands that a condition selects, `ORDER BY started_at, id`. -/
def unfinishedCommandsByText (selects : ManagedCommandIdentity → Prop) [DecidablePred selects] :
    List ManagedCommandIdentity :=
  (s.managedCommands.rows.filter fun identity => selects identity ∧ identity.status.Unfinished).insertionSort
    fun left right => columnText left.startedAt < columnText right.startedAt
      ∨ columnText left.startedAt = columnText right.startedAt ∧ left.id ≤ right.id

/-- The rows of `recovery_commands_for_task` -/
def commandsForTaskByText (taskId : String) (now : Timestamp) : List ManagedCommandIdentity :=
  s.unfinishedCommandsByText (s.ExpiredCommandByText taskId now)

/-- The rows of `recovery_commands_for_workspace` -/
def commandsForWorkspaceByText (workspaceId : String) (now : Timestamp) : List ManagedCommandIdentity :=
  s.unfinishedCommandsByText (s.HolderCommandByText workspaceId now)

/-- The rows of `get_pending_control`, before `LIMIT 1` -/
def pendingControlsByText (taskId : String) : List ControlRequest :=
  (s.controlRequests.rows.filter fun request =>
      request.taskId = taskId ∧ request.status.Pending).insertionSort
    fun left right => columnText left.requestedAt < columnText right.requestedAt
      ∨ columnText left.requestedAt = columnText right.requestedAt ∧ left.id ≤ right.id

/-- The times that the queries compare are those of datetimes. -/
structure Dated : Prop where
  executions : ∀ execution ∈ s.executions.rows, execution.leaseExpiresAt < Datetime.limit
  workspaceLeases : ∀ lease ∈ s.workspaceLeases.rows, lease.leaseExpiresAt < Datetime.limit
  managedCommands : ∀ identity ∈ s.managedCommands.rows, identity.startedAt < Datetime.limit
  controlRequests : ∀ request ∈ s.controlRequests.rows, request.requestedAt < Datetime.limit

end Store

/-! ### What they find -/

theorem insertionSort_congr {α : Type} {first second : α → α → Prop} [DecidableRel first]
    [DecidableRel second] {items : List α} (hsame : ∀ a ∈ items, ∀ b ∈ items, first a b ↔ second a b) :
    items.insertionSort first = items.insertionSort second := by
  have hmap := List.map_insertionSort (r := first) (s := second) id items hsame
  rwa [List.map_id, List.map_id] at hmap

/-- Rows that are sorted by the texts of their times are sorted by the times. -/
theorem insertionSort_byText {α : Type} {items : List α} {time : α → Timestamp} {id : α → String}
    (hdated : ∀ row ∈ items, time row < Datetime.limit) :
    items.insertionSort (fun left right => columnText (time left) < columnText (time right)
        ∨ columnText (time left) = columnText (time right) ∧ id left ≤ id right)
      = items.insertionSort fun left right => time left < time right
        ∨ time left = time right ∧ id left ≤ id right := by
  refine insertionSort_congr fun left hleft right hright => ?_
  rw [columnText_lt_iff (hdated left hleft) (hdated right hright),
    columnText_inj (hdated left hleft) (hdated right hright)]

section Queries

variable {s : Store} {now : Timestamp}

theorem expiredCommandByText_iff (hdated : s.Dated) (hnow : now < Datetime.limit) {taskId : String}
    {identity : ManagedCommandIdentity} :
    s.ExpiredCommandByText taskId now identity ↔ s.ExpiredCommand taskId now identity := by
  refine exists_congr fun execution => and_congr_right fun hrow => and_congr_right fun _ => ?_
  exact columnText_le_iff (hdated.executions execution (Table.mem_of_get? hrow)) hnow

theorem holderCommandByText_iff (hdated : s.Dated) (hnow : now < Datetime.limit) {workspaceId : String}
    {identity : ManagedCommandIdentity} :
    s.HolderCommandByText workspaceId now identity ↔ s.HolderCommand workspaceId now identity := by
  refine exists_congr fun lease => and_congr_right fun hrow => and_congr_right fun _ => ?_
  exact columnText_le_iff (hdated.workspaceLeases lease (Table.mem_of_get? hrow)) hnow

theorem unfinishedCommandsByText_eq (hdated : s.Dated) {byText byTime : ManagedCommandIdentity → Prop}
    [DecidablePred byText] [DecidablePred byTime] (hsame : ∀ identity, byText identity ↔ byTime identity) :
    s.unfinishedCommandsByText byText = s.unfinishedCommands byTime := by
  have hfilter : (s.managedCommands.rows.filter fun identity => byText identity ∧ identity.status.Unfinished)
      = s.managedCommands.rows.filter fun identity => byTime identity ∧ identity.status.Unfinished := by
    refine List.filter_congr fun identity _ => decide_eq_decide.mpr ?_
    exact and_congr_left' (hsame identity)
  rw [Store.unfinishedCommandsByText, hfilter]
  exact insertionSort_byText fun row hrow => hdated.managedCommands row (List.mem_filter.mp hrow).1

theorem commandsForTaskByText_eq (hdated : s.Dated) (hnow : now < Datetime.limit) (taskId : String) :
    s.commandsForTaskByText taskId now = s.unfinishedCommands (s.ExpiredCommand taskId now) :=
  unfinishedCommandsByText_eq hdated fun _ => expiredCommandByText_iff hdated hnow

theorem commandsForWorkspaceByText_eq (hdated : s.Dated) (hnow : now < Datetime.limit) (workspaceId : String) :
    s.commandsForWorkspaceByText workspaceId now = s.unfinishedCommands (s.HolderCommand workspaceId now) :=
  unfinishedCommandsByText_eq hdated fun _ => holderCommandByText_iff hdated hnow

theorem pendingControlsByText_eq (hdated : s.Dated) (taskId : String) :
    s.pendingControlsByText taskId = s.pendingControls taskId :=
  insertionSort_byText fun row hrow => hdated.controlRequests row (List.mem_filter.mp hrow).1

/-- An owner whose guard is accepted has no command that is recovered. -/
theorem not_recovered_of_guard (hdated : s.Dated) (hnow : now < Datetime.limit) {guard : LeaseGuard}
    {execution : Execution} {s' : Store} (hguard : Returns (assertGuard now guard) s execution s')
    {taskId : String} {identity : ManagedCommandIdentity}
    (hrecovered : identity ∈ s.commandsForTaskByText taskId now) : identity.executionId ≠ execution.id := by
  obtain ⟨hguards, -⟩ := assertGuard_returns.mp hguard
  rw [commandsForTaskByText_eq hdated hnow, mem_unfinishedCommands] at hrecovered
  obtain ⟨-, ⟨row, hrow, -, hexpired⟩, -⟩ := hrecovered
  intro heq
  have hid : execution.id = guard.executionId := Table.key_of_get? hguards.row
  rw [heq, hid, Option.mem_def, hguards.row] at hrow
  obtain rfl := Option.some.inj hrow
  exact absurd hexpired (Nat.not_le.mpr hguards.unexpired)

/-- The commands of the owners that a claim takes over are recovered. -/
theorem recovered_of_claim [Sha256] (hdated : s.Dated) (hnow : now < Datetime.limit)
    {execution claimed : Execution} {version : Option Nat} {s' : Store}
    (hclaim : Returns (claimExecution now execution version) s claimed s') {row : Execution}
    (hrow : row ∈ s.executions.rows) (hactive : row.status.Active) (htask : row.taskId = execution.taskId)
    {identity : ManagedCommandIdentity} (hmem : identity ∈ s.managedCommands.rows)
    (hunfinished : identity.status.Unfinished) (howner : identity.executionId = row.id) :
    identity ∈ s.commandsForTaskByText execution.taskId now := by
  obtain ⟨session, task, hclaims, -⟩ := claimExecution_returns hclaim
  rw [commandsForTaskByText_eq hdated hnow, mem_unfinishedCommands]
  refine ⟨hmem, ⟨row, ?_, htask, hclaims.expired row hrow hactive (Or.inr htask)⟩, hunfinished⟩
  rw [howner]
  exact Table.get?_of_mem hrow

end Queries

/-- ISO texts are in the order of the datetimes; so the queries find by the texts what they would find by the
times, and agree with the guard and with the claim of an execution. -/
theorem isoformat_order [Sha256] :
    (∀ first second : Datetime, (first.isoformat < second.isoformat ↔ first < second)
        ∧ (first.isoformat ≤ second.isoformat ↔ first ≤ second)
        ∧ (first < second ↔ first.timestamp < second.timestamp))
      ∧ ∀ (s : Store) (now : Timestamp), s.Dated → now < Datetime.limit →
        (∀ taskId, s.commandsForTaskByText taskId now = s.unfinishedCommands (s.ExpiredCommand taskId now))
        ∧ (∀ workspaceId, s.commandsForWorkspaceByText workspaceId now
          = s.unfinishedCommands (s.HolderCommand workspaceId now))
        ∧ (∀ taskId, s.pendingControlsByText taskId = s.pendingControls taskId)
        ∧ (∀ guard execution s', Returns (assertGuard now guard) s execution s' →
          ∀ taskId, ∀ identity ∈ s.commandsForTaskByText taskId now, identity.executionId ≠ execution.id)
        ∧ ∀ execution version claimed s', Returns (claimExecution now execution version) s claimed s' →
          ∀ row ∈ s.executions.rows, row.status.Active → row.taskId = execution.taskId →
            ∀ identity ∈ s.managedCommands.rows, identity.status.Unfinished → identity.executionId = row.id →
              identity ∈ s.commandsForTaskByText execution.taskId now := by
  refine ⟨fun first second => ?_, fun s now hdated hnow => ?_⟩
  · exact ⟨Datetime.isoformat_lt_iff, Datetime.isoformat_le_iff, Datetime.timestamp_lt_iff.symm⟩
  · refine ⟨commandsForTaskByText_eq hdated hnow, commandsForWorkspaceByText_eq hdated hnow,
      pendingControlsByText_eq hdated, ?_, ?_⟩
    · intro guard execution s' hguard taskId identity hrecovered
      exact not_recovered_of_guard hdated hnow hguard hrecovered
    · intro execution version claimed s' hclaim row hrow hactive htask identity hmem hunfinished howner
      exact recovered_of_claim hdated hnow hclaim hrow hactive htask hmem hunfinished howner

end PatchLoop
