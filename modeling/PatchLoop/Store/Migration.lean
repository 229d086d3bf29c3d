import PatchLoop.Store.Schema

/-!
# Legacy databases

`_migrate_legacy_runtime_v0` maps each task of a database without sessions to one legacy session.
It runs once, inside the savepoint that upgrades the schema, before any other operation.
-/

namespace PatchLoop

open Transaction

/-- What a legacy database holds: tasks without a session, steps, tool calls and checkpoints. -/
structure Store.Legacy (s : Store) : Prop where
  tasks : ∀ task ∈ s.tasks.rows, task.sessionId = none ∧ task.ValidStateDimensions
  sessions : s.sessions = .empty
  turns : s.turns = .empty
  executions : s.executions = .empty
  workspaceLeases : s.workspaceLeases = .empty
  managedCommands : s.managedCommands = .empty
  effects : s.effects = .empty
  approvals : s.approvals = .empty
  controlRequests : s.controlRequests = .empty
  recoveryDispositions : s.recoveryDispositions = .empty
  sessionEvents : s.sessionEvents = .empty

def legacySessionId (taskId : String) : String := s!"legacy-session-{taskId}"

/-- The condition in which the migration puts a task of this status. -/
def legacyCondition : TaskStatus → TaskRuntimeCondition
  | .created => .idle
  | .running => .recoveryRequired
  | .completed | .failed | .cancelled => .ended

def Task.migrated (task : Task) : Task :=
  { task with
    sessionId := some (legacySessionId task.id)
    runtimeCondition := legacyCondition task.status
    version := 1 }

def Task.legacySession (task : Task) : Session where
  id := legacySessionId task.id
  workspaceRef := if task.repository = "" then "." else task.repository
  activeTaskId := if task.outcome = .active then some task.id else none
  eventSequence := 1

/-- The step and position that recorded the result of a call; the last one counts. -/
def callLocation (steps : List AgentStep) (callId : String) : Option (String × Nat) :=
  (steps.flatMap fun step => step.toolResults.zipIdx.filterMap fun (result, position) =>
    if result.callId = callId then some (step.id, position) else none).getLast?

section Digests

variable [Sha256]

def legacyEffect (task : Task) (steps : List AgentStep) (row : ToolCallRow) (position : Nat) :
    Effect :=
  let location :=
    (callLocation steps row.call.id).getD (s!"legacy-step-{row.call.id}", position)
  { id := journalEventId "legacy.effect" s!"{task.id}:{row.call.id}" "1"
    taskId := task.id
    stepId := location.1
    batchPosition := location.2
    providerCallId := row.call.id
    toolName := row.call.name
    actionKind := "legacy"
    argumentsSummary := row.call.arguments
    status := if row.result.success then .succeeded else .failed
    resultRef := some s!"tool-result:{task.id}:{row.call.id}"
    observationRef := some s!"tool-result:{task.id}:{row.call.id}" }

/-- `_legacy_effects` -/
def Store.legacyEffects (s : Store) (task : Task) : List Effect :=
  let steps := (s.agentSteps.rows.filter fun step => step.taskId = task.id).insertionSort
    fun left right => left.index ≤ right.index
  let rows := (s.toolCalls.rows.filter fun row => row.taskId = task.id).insertionSort
    fun left right => left.completedAt < right.completedAt
      ∨ left.completedAt = right.completedAt ∧ left.call.id ≤ right.call.id
  rows.zipIdx.map fun (row, position) => legacyEffect task steps row position

def Task.legacyEvent (now : Timestamp) (task : Task) (effects : List Effect) : SessionEvent where
  id := journalEventId "legacy.session.migrated" task.id "1"
  sessionId := legacySessionId task.id
  type := "legacy.session.migrated"
  taskId := some task.id
  traceId := some task.id
  sequence := 1
  data := .obj [("effect_ids", .ofStrings (effects.map Effect.id)),
    ("legacy_status", .str task.status.value), ("legacy_task_id", .str task.id),
    ("requires_recovery_review",
      .bool (legacyCondition task.status = .recoveryRequired))]
  timestamp := now

/-- `_adapt_legacy_checkpoint` -/
def adaptLegacyCheckpoint (taskId sessionId : String) : Action Unit := do
  let s ← get
  match s.checkpoints.get? taskId with
  | none => return
  | some checkpoint =>
      set (s.upsertCheckpoint { checkpoint with
        sessionId := some sessionId
        turnId := none
        consumedInputSequence := 0
        eventSequence := 1
        pendingEffectIds := [] })

/-- One round of the migration loop. -/
def migrateLegacyTask (now : Timestamp) (task : Task) : Action Unit := do
  raiseIf (¬ task.ValidStateDimensions) (.valueError "invalid task state dimensions")
  let effects ← query fun s => s.legacyEffects task
  insertSession task.legacySession
  writeTask task.migrated
  insertEffects effects
  adaptLegacyCheckpoint task.id (legacySessionId task.id)
  insertEvent (task.legacyEvent now effects)

def migrateLegacyTasks (now : Timestamp) : List Task → Action Unit
  | [] => pure ()
  | task :: rest => do
      migrateLegacyTask now task
      migrateLegacyTasks now rest

/-- `_migrate_legacy_runtime_v0` -/
def migrateLegacyRuntime (now : Timestamp) : Action Unit := do
  let rows ← query fun s =>
    (s.tasks.rows.filter fun task => task.sessionId = none).insertionSort
      fun left right => left.id ≤ right.id
  migrateLegacyTasks now rows

end Digests

end PatchLoop
