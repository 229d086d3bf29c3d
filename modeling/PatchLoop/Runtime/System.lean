import PatchLoop.Lib.Process
import PatchLoop.Runtime.Effects
import PatchLoop.Execution.Ownership

/-!
# The runtime and what surrounds it

`AgentRuntime` of `runtime.py` is a process over the store, the repository and its own fields, which
are gone when it is stopped. Other parties call the store between any two of its actions. The model
provider, the memory layers, the context engine and the clock answer as they please: a result about
runs is about all their answers.
-/

namespace PatchLoop

/-! ### State -/

/-- `PromptCacheCoordinator`: the frozen messages of the epoch, in the stable layout. -/
structure PromptCache where
  epochMessages : Option (List ModelMessage)
  prefixMessageCount : Nat
deriving DecidableEq

/-- The fields of `AgentRuntime` and the task object it works on. -/
structure Runtime where
  task : Task
  gateway : ToolGateway.State := {}
  promptCache : Option PromptCache := none
  accountedModelResponseSteps : List Nat := []
  unknownModelUsageSteps : List Nat := []
deriving DecidableEq

structure System where
  store : Store
  files : Files
  runtime : Runtime

@[simps] def System.withStore (sys : System) (store : Store) : System := { sys with store }

@[simps] def System.withRuntime (sys : System) (runtime : Runtime) : System := { sys with runtime }

/-- The exceptions that the runtime tells apart. -/
inductive Failure where
  | store (error : StoreError)
  | leaseLost
  | sandboxCleanup (text : String)
  | approvalPending
  | memoryStore (text : String)
  | budget (text : String)
  | exception (text : String)
deriving DecidableEq

def Failure.text : Failure → String
  | store error => error.text
  | leaseLost => "execution lease is no longer valid"
  | approvalPending => "approval required"
  | sandboxCleanup text | memoryStore text | budget text | exception text => text

/-! ### The trace of a run -/

/-- What the results about runs speak of, in the order in which it happens. -/
inductive Mark where
  /-- Another party's call was accepted. -/
  | outside (call : Call)
  /-- An assistant message with these calls joined the conversation. -/
  | responded (calls : List ToolCall)
  /-- A response was superseded, and a call of it looked at: whether the conversation answers it, the
  status of its effect, and whether the task holds a result under the id of the call. -/
  | superseding (answered : Bool) (status : EffectStatus) (held : Bool)
  /-- Effects were prepared: whether one that stood already in the place of one of them belongs to
  another call id. -/
  | prepared (foreign : Bool)
  /-- The result of a call was stored, for an effect. -/
  | stored (effectId : Option String) (callId : String) (result : ToolResult)
  /-- For an effect there was a stored result under its call id, to be replayed or in the way. -/
  | found (effectId : Option String) (callId : String) (result : ToolResult)

/-! ### Surroundings -/

structure TaskBudget where
  maxSteps : Nat := 20
  maxRepeatedActions : Nat := 3
  maxRepeatedErrors : Nat := 3
  maxToolFailures : Nat := 10
  maxReplans : Nat := 5
deriving DecidableEq

/-- What one process of the runtime finds around it. The functions of a number answer at the action of
the process with this number. -/
structure Host where
  taskId : String
  guard : LeaseGuard
  gateway : ToolGateway
  budget : TaskBudget := {}
  /-- The layout of the prompt cache is the stable one. -/
  stable : Bool := true
  systemPrompt : String := ""
  projectInstructions : String := ""
  taskPlan : Option Plan := none
  /-- The gateway as the process holds it when a task starts. -/
  initialGateway : ToolGateway.State := {}
  others : Nat → List Call := fun _ => []
  stops : Nat → Bool := fun _ => false
  clock : Nat → Timestamp
  newId : Nat → String := fun _ => ""
  duration : Nat → String := fun _ => "0.0"
  ownsLease : Nat → Bool := fun _ => true
  ownsWorkspace : Nat → Bool := fun _ => true
  cleanup : Nat → Except Failure Unit := fun _ => .ok ()
  provider : Nat → Except String ModelResponse
  /-- The request of a step, or why it cannot be built: whether older steps were dropped from it. -/
  buildWindow : Nat → Except Failure Bool := fun _ => .ok false
  timeExceeded : Nat → Bool := fun _ => false
  modelBudgetError : Nat → Option String := fun _ => none
  /-- The message that a summary of an epoch becomes. -/
  summaryMessage : String → Except String String := .ok
  /-- `compact_tool_result` -/
  compactToolResult : ToolResult → String := fun result => result.output
  restoreMemory : Nat → Except Failure Unit := fun _ => .ok ()
  ingestMemory : Nat → Except Failure Unit := fun _ => .ok ()
  hasReadCall : Nat → ToolCall → Bool := fun _ _ => false
  isKnownFailedAction : Nat → ToolCall → Bool := fun _ _ => false

/-- A process of the runtime that returns `α`. -/
abbrev RuntimeProcess (α : Type) := Process Mark Failure System α

variable [Sha256]

/-- The calls of the other parties, which leave the repository alone. -/
def Host.among (host : Host) : Process.Among Mark System Call where
  step sys call :=
    (sys.withStore (callStep sys.store call),
      if call.Accepted sys.store then [.outside call] else [])
  others := host.others
  stops := host.stops

/-- An action of the process. -/
def perform {α : Type} (host : Host) (action : Nat → System → Except Failure (α × System)) :
    RuntimeProcess α :=
  Process.act host.among action

/-- An answer from the surroundings. -/
def ask {α : Type} (host : Host) (answer : Nat → Except Failure α) : RuntimeProcess α :=
  perform host fun moment sys => (answer moment).map (·, sys)

/-- A call of the store by the runtime. -/
def runtimeCall {α : Type} (host : Host) (action : Timestamp → Action α) : RuntimeProcess α :=
  perform host fun moment sys =>
    match (checkingReferences (action (host.clock moment))).run sys.store with
    | .ok (a, store) => .ok (a, sys.withStore store)
    | .error error => .error (.store error)

/-- A call of the store by the runtime that leaves a mark, which depends on the state in which it runs
and on whether it returns. -/
def markedCall {α : Type} (host : Host) (mark : Store → Bool → Option Mark)
    (action : Timestamp → Action α) : RuntimeProcess α := do
  let (entry, outcome) ← perform host fun moment sys =>
    match (checkingReferences (action (host.clock moment))).run sys.store with
    | .ok (a, store) => .ok ((mark sys.store true, Except.ok a), sys.withStore store)
    | .error error => .ok ((mark sys.store false, Except.error error), sys)
  match entry with
  | none => pure ()
  | some entry => Process.note entry
  match outcome with
  | .ok a => return a
  | .error error => throw (.store error)

/-- A call that stores the result of a call for an effect, with what it finds under the call id. -/
def storingCall {α : Type} (host : Host) (effectId : Option String) (callId : String)
    (result : ToolResult) (action : Timestamp → Action α) : RuntimeProcess α :=
  markedCall host (fun store returns =>
    match store.toolCalls.get? (host.taskId, callId) with
    | some row => some (.found effectId callId row.result)
    | none => if returns then some (.stored effectId callId result) else none) action

/-! ### The fields of the runtime -/

def getRuntime : RuntimeProcess Runtime := Process.read System.runtime

def modifyRuntime (change : Runtime → Runtime) : RuntimeProcess Unit :=
  Process.update fun sys => sys.withRuntime (change sys.runtime)

def setTask (task : Task) : RuntimeProcess Unit := modifyRuntime fun runtime => { runtime with task }

def modifyGateway (change : ToolGateway.State → ToolGateway.State) : RuntimeProcess Unit :=
  modifyRuntime fun runtime => { runtime with gateway := change runtime.gateway }

/-- A result of the gateway that reaches no backend. -/
def observeResult (host : Host)
    (observe : String → ToolGateway.State → ToolResult × ToolGateway.State) :
    RuntimeProcess ToolResult :=
  perform host fun moment sys =>
    let (result, gateway) := observe (host.duration moment) sys.runtime.gateway
    .ok (result, sys.withRuntime { sys.runtime with gateway })

/-- The value of a computation that may fail with a `ValueError`. -/
def orException {α : Type} : Except String α → RuntimeProcess α
  | .ok a => pure a
  | .error text => throw (.exception text)

/-- `_assert_ownership` -/
def assertOwnership (host : Host) : RuntimeProcess Unit :=
  ask host fun moment => if host.ownsLease moment then .ok () else .error .leaseLost

/-! ### Queries of the store -/

/-- `list_turns` -/
def listTurns (sessionId : String) (afterSequence : Nat) : Action (List Turn) := do
  let _ ← requireSession sessionId
  Transaction.query fun s =>
    (s.turns.rows.filter fun turn =>
      turn.sessionId = sessionId ∧ afterSequence < turn.sequence).insertionSort
        fun left right => left.sequence ≤ right.sequence

/-- `list_steps` -/
def listSteps (taskId : String) : Action (List AgentStep) :=
  Transaction.query fun s =>
    (s.agentSteps.rows.filter fun step => step.taskId = taskId).insertionSort
      fun left right => left.index ≤ right.index

/-- `list_effects` -/
def listEffects (taskId : String) : Action (List Effect) :=
  Transaction.query fun s =>
    (s.effects.rows.filter fun effect => effect.taskId = taskId).insertionSort
      fun left right => left.stepId < right.stepId
        ∨ left.stepId = right.stepId ∧ left.batchPosition ≤ right.batchPosition

/-- `get_tool_result` -/
def getToolResult (taskId callId : String) : Action (Option ToolResult) :=
  Transaction.query fun s => (s.toolCalls.get? (taskId, callId)).map ToolCallRow.result

/-- `get_pending_control` -/
def getPendingControl (taskId : String) : Action (Option ControlRequest) :=
  Transaction.query fun s => (s.pendingControls taskId).head?

/-- `get_checkpoint`, which loads a `RuntimeCheckpoint`. -/
def getCheckpoint (taskId : String) : Action Checkpoint := do
  let row ← Transaction.query fun s => s.checkpoints.get? taskId
  let checkpoint ← Transaction.orRaise row (.taskNotFound s!"checkpoint:{taskId}")
  Transaction.raiseIf (checkpoint.nextStepIndex = none)
    (.valueError "checkpoint is not a runtime checkpoint")
  return checkpoint

/-- `get_recovery_disposition_for_effect` -/
def getRecoveryDisposition (effectId : String) : Action (Option RecoveryDisposition) :=
  Transaction.query fun s => s.dispositionOfEffect effectId

end PatchLoop
