import PatchLoop.Json

/-!
# Tasks, sessions, turns, tool calls

The serializable models of the runtime. Of each model the fields are kept that some modelled
function reads or compares; `created_at` and `updated_at` stamps that nothing reads are left out.
Every string is taken as the store sees it, after secret redaction. A default of the source is the
default of the field.
-/

namespace PatchLoop

/-- A UTC datetime, in microseconds. -/
abbrev Timestamp := Nat

inductive TaskStatus where
  | created | running | completed | failed | cancelled
deriving DecidableEq

inductive SessionStatus where
  | open | closed
deriving DecidableEq

inductive TaskOutcome where
  | active | completed | failed | cancelled
deriving DecidableEq

inductive TaskRuntimeCondition where
  | idle | running | pausing | paused | waitingForApproval | recoveryRequired | ended
deriving DecidableEq

inductive ErrorKind where
  | unknownTool | invalidArguments | pathDenied | executionError | budgetExceeded | providerError
  | permissionDenied | timeout | noProgress | testFailure | syntaxError | commandFailure
deriving DecidableEq

def ErrorKind.value : ErrorKind → String
  | unknownTool => "unknown_tool"
  | invalidArguments => "invalid_arguments"
  | pathDenied => "path_denied"
  | executionError => "execution_error"
  | budgetExceeded => "budget_exceeded"
  | providerError => "provider_error"
  | permissionDenied => "permission_denied"
  | timeout => "timeout"
  | noProgress => "no_progress"
  | testFailure => "test_failure"
  | syntaxError => "syntax_error"
  | commandFailure => "command_failure"

namespace TaskStatus

def value : TaskStatus → String
  | created => "created"
  | running => "running"
  | completed => "completed"
  | failed => "failed"
  | cancelled => "cancelled"

/-- The targets `Task.transition` allows. -/
def allowed : TaskStatus → List TaskStatus
  | created => [running, cancelled]
  | running => [completed, failed, cancelled]
  | completed | failed | cancelled => []

def outcome : TaskStatus → TaskOutcome
  | created | running => .active
  | completed => .completed
  | failed => .failed
  | cancelled => .cancelled

end TaskStatus

def TaskOutcome.value : TaskOutcome → String
  | active => "active"
  | completed => "completed"
  | failed => "failed"
  | cancelled => "cancelled"

def TaskRuntimeCondition.value : TaskRuntimeCondition → String
  | idle => "idle"
  | running => "running"
  | pausing => "pausing"
  | paused => "paused"
  | waitingForApproval => "waiting_for_approval"
  | recoveryRequired => "recovery_required"
  | ended => "ended"

/-- The targets `Task.transition_runtime` allows. -/
def TaskRuntimeCondition.allowed : TaskRuntimeCondition → List TaskRuntimeCondition
  | idle => [running, paused, ended]
  | running => [pausing, waitingForApproval, recoveryRequired, ended]
  | pausing => [paused, recoveryRequired]
  | paused => [running, ended]
  | waitingForApproval => [idle, running, paused, recoveryRequired, ended]
  | recoveryRequired | ended => []

structure Task where
  id : String
  goal : String
  repository : String
  sessionId : Option String := none
  status : TaskStatus := .created
  outcome : TaskOutcome := .active
  runtimeCondition : TaskRuntimeCondition := .idle
  version : Nat := 1
  result : Option String := none
  error : Option String := none
deriving DecidableEq

namespace Task

/-- `validate_state_dimensions`: the check every load of a task row makes. -/
def ValidStateDimensions (task : Task) : Prop :=
  task.status.outcome = task.outcome
    ∧ (task.outcome ≠ .active →
        task.runtimeCondition = .ended ∨ task.runtimeCondition = .recoveryRequired)

instance (task : Task) : Decidable task.ValidStateDimensions :=
  inferInstanceAs (Decidable (_ ∧ _))

/-- `Task.transition`; the error is its `ValueError`. -/
def transition (task : Task) (target : TaskStatus) (message : Option String) :
    Except String Task :=
  if target ∈ task.status.allowed then
    let condition :=
      if target = .running then .running
      else if task.runtimeCondition = .recoveryRequired ∧ target = .cancelled then
        .recoveryRequired
      else .ended
    .ok { task with
      status := target
      outcome := target.outcome
      runtimeCondition := condition
      result := if target = .completed then message else task.result
      error := if target = .failed then message else task.error }
  else .error s!"invalid task transition: {task.status.value} -> {target.value}"

/-- `Task.transition_runtime`; the error is its `ValueError`. -/
def transitionRuntime (task : Task) (target : TaskRuntimeCondition) : Except String Task :=
  if target ∈ task.runtimeCondition.allowed then .ok { task with runtimeCondition := target }
  else .error
    s!"invalid task runtime transition: {task.runtimeCondition.value} -> {target.value}"

end Task

structure Session where
  id : String
  workspaceRef : String
  status : SessionStatus := .open
  activeTaskId : Option String := none
  configVersion : String := "1"
  version : Nat := 1
  eventSequence : Nat := 0
deriving DecidableEq

inductive TurnRole where
  | user | assistant | system
deriving DecidableEq

def TurnRole.value : TurnRole → String
  | user => "user"
  | assistant => "assistant"
  | system => "system"

structure Turn where
  id : String
  sessionId : String
  taskId : Option String := none
  role : TurnRole
  content : String
  resourceRefs : List String := []
  sequence : Nat := 0
  clientSubmissionId : Option String := none
deriving DecidableEq

structure ToolCall where
  id : String
  name : String
  arguments : Json := .obj []
  argumentsError : Option String := none
deriving DecidableEq

structure ToolResult where
  callId : String
  toolName : String
  success : Bool
  output : String := ""
  errorKind : Option ErrorKind := none
  durationMs : String := "0.0"
deriving DecidableEq

/-- `providers.base.ModelResponse`; its token usage is only ever stored and compared. -/
structure ModelResponse where
  content : String := ""
  toolCalls : List ToolCall := []
  usage : Json := .obj []
deriving DecidableEq

inductive StepStatus where
  | pending | running | completed | failed
deriving DecidableEq

structure AgentStep where
  id : String
  taskId : String
  index : Nat
  status : StepStatus := .pending
  modelResponse : Option ModelResponse := none
  effectIds : List String := []
  consumedInputSequence : Nat := 0
  toolResults : List ToolResult := []
deriving DecidableEq

/-! ### Plans and conversations -/

structure PlanItem where
  id : String
  description : String
  status : StepStatus := .pending
  evidence : List String := []
deriving DecidableEq

structure Plan where
  items : List PlanItem
  revision : Nat := 1
deriving DecidableEq

inductive MessageRole where
  | system | user | assistant | tool
deriving DecidableEq

/-- `providers.base.ModelMessage` -/
structure ModelMessage where
  role : MessageRole
  content : String
  toolCalls : List ToolCall := []
  toolCallId : Option String := none
deriving DecidableEq

/-! ### The journal -/

/-- `events.SessionEvent` -/
structure SessionEvent where
  id : String
  sessionId : String
  type : String
  taskId : Option String := none
  traceId : Option String := none
  sequence : Nat := 0
  data : Json := .obj []
  timestamp : Timestamp
deriving DecidableEq

section Digests

variable [Sha256]

/-- `journal_event_id`: the identity of a domain event. -/
def journalEventId (eventType entityId revision : String) : String :=
  "journal-" ++ Sha256.hexdigest s!"{eventType}:{entityId}:{revision}"

def effectCommitEventId (effectId : String) (version : Nat) : String :=
  journalEventId "effect.committed" effectId (toString version)

def leaseOwnerSummary (ownerId : String) : String :=
  "sha256:" ++ String.ofList ((Sha256.hexdigest ownerId).toList.take 16)

end Digests

end PatchLoop
