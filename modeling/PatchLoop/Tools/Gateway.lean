import PatchLoop.Security

/-!
# The tool gateway

`tools/base.py`, `tools/gateway.py` and the state that tools keep in a context. A tool is its
permission, its input model and its backend. The input models, the backends apart from `update_plan`,
the previews of file mutations and the resolution of paths are left open. What the repository holds
is its text files by resolved path; a backend finds it, changes it and may depend on the moment at
which it runs.
-/

namespace PatchLoop

inductive PermissionLevel where
  | read | write | execute
deriving DecidableEq

def PermissionLevel.value : PermissionLevel → String
  | read => "read"
  | write => "write"
  | execute => "execute"

/-- `permission in {WRITE, EXECUTE}` -/
def PermissionLevel.Mutates (permission : PermissionLevel) : Prop :=
  permission = .write ∨ permission = .execute

instance (permission : PermissionLevel) : Decidable permission.Mutates :=
  inferInstanceAs (Decidable (_ ∨ _))

inductive RiskLevel where
  | low | medium | high | critical
deriving DecidableEq

namespace RiskLevel

def value : RiskLevel → String
  | low => "low"
  | medium => "medium"
  | high => "high"
  | critical => "critical"

/-- `RISK_ORDER` -/
def order : RiskLevel → Nat
  | low => 0
  | medium => 1
  | high => 2
  | critical => 3

end RiskLevel

inductive PolicyDecision where
  | allow | deny | requireApproval
deriving DecidableEq

def PolicyDecision.value : PolicyDecision → String
  | allow => "allow"
  | deny => "deny"
  | requireApproval => "require_approval"

structure RiskAssessment where
  risk : RiskLevel
  allowed : Bool
  approvalRequired : Bool := false
  decision : PolicyDecision
  reason : String
deriving DecidableEq

namespace RiskAssessment

/-- `model_dump(mode="json")` -/
def dump (assessment : RiskAssessment) : Json :=
  .obj [("allowed", .bool assessment.allowed),
    ("approval_required", .bool assessment.approvalRequired),
    ("decision", .str assessment.decision.value), ("reason", .str assessment.reason),
    ("risk", .str assessment.risk.value)]

/-- The assessment of a call that is denied for another reason. -/
def denied (assessment : RiskAssessment) (reason : String) : RiskAssessment :=
  { assessment with allowed := false, approvalRequired := false, decision := .deny, reason }

end RiskAssessment

/-! ### Tools -/

/-- The text files of the repository. -/
abbrev Files := String → Option String

def Files.write (files : Files) (path content : String) : Files := fun other =>
  if other = path then some content else files other

/-- `FileChangeTracker.capture_original`: the first baseline of a path stays. -/
def captureOriginal (changes : List (String × Option String)) (path : String)
    (content : Option String) : List (String × Option String) :=
  if changes.any (fun entry => entry.1 = path) then changes else changes ++ [(path, content)]

/-- What tools keep between calls: `ToolContext`. -/
structure ToolContext where
  plan : Option Plan := none
  requiresReplan : Bool := false
  replanCount : Nat := 0
  changes : List (String × Option String) := []
deriving DecidableEq

/-- An exception of a backend, as the gateway reports it. -/
structure ToolError where
  kind : ErrorKind
  text : String
deriving DecidableEq

structure FileMutationPreview where
  path : String
  originalContent : Option String
  targetContent : String
deriving DecidableEq

/-- `Tool.run`. A preview may be asked about a content other than the file's. -/
inductive Backend where
  | updatePlan (items : Nat → Json → List PlanItem)
  | fileMutation (preview : Files → Option String → Json → Except ToolError FileMutationPreview)
      (report : FileMutationPreview → Json → String)
  | other (run : Nat → Files → ToolContext → Json → Except ToolError String × Files)

structure Tool where
  name : String
  permission : PermissionLevel := .read
  validate : Json → Except String Json := .ok
  backend : Backend
  classifyOutput : String → Option ErrorKind := fun _ => none

/-- `model_dump_json` -/
def Plan.dumpJson (plan : Plan) : String :=
  let status : StepStatus → String
    | .pending => "pending"
    | .running => "running"
    | .completed => "completed"
    | .failed => "failed"
  Json.dumps <| .obj [
    ("items", .arr <| plan.items.map fun item =>
      .obj [("id", .str item.id), ("description", .str item.description),
        ("status", .str (status item.status)), ("evidence", .ofStrings item.evidence)]),
    ("revision", .int plan.revision)]

/-- `UpdatePlanTool.run`. The replan is counted before the plan is built, which a second running item
forbids. -/
def updatePlan (items : List PlanItem) (context : ToolContext) :
    Except ToolError String × ToolContext :=
  let counted :=
    if context.requiresReplan then { context with replanCount := context.replanCount + 1 }
    else context
  if 1 < items.countP (·.status = .running) then
    (.error ⟨.invalidArguments, "a plan can have at most one running item"⟩, counted)
  else
    let plan : Plan := { items, revision := (context.plan.map Plan.revision).getD 0 + 1 }
    (.ok plan.dumpJson, { counted with plan := some plan, requiresReplan := false })

def Tool.run (tool : Tool) (moment : Nat) (files : Files) (context : ToolContext)
    (arguments : Json) : Except ToolError String × ToolContext × Files :=
  match tool.backend with
  | .updatePlan items =>
      let (output, context') := updatePlan (items moment arguments) context
      (output, context', files)
  | .fileMutation preview report =>
      match preview files none arguments with
      | .error e => (.error e, context, files)
      | .ok mutation =>
          (.ok (report mutation arguments),
            { context with
              changes := captureOriginal context.changes mutation.path mutation.originalContent },
            files.write mutation.path mutation.targetContent)
  | .other run =>
      let (output, files') := run moment files context arguments
      (output, context, files')

/-! ### Policy -/

structure ToolPolicy where
  allowedPermissions : List PermissionLevel := [.read]
  requirePlanForMutations : Bool := true
  approvalThreshold : Option RiskLevel := none
  /-- `_is_dangerous_command` -/
  isDangerousCommand : List Json → Bool := fun _ => false

/-- A gateway with its tools, its policy and the repository boundary of its context. -/
structure ToolGateway where
  tools : List Tool
  policy : ToolPolicy
  resolvePath : String → Except String String

/-- `tool.permission in allowed_permissions` -/
def ToolPolicy.Allows (policy : ToolPolicy) (tool : Tool) : Prop :=
  tool.permission ∈ policy.allowedPermissions

instance (policy : ToolPolicy) (tool : Tool) : Decidable (policy.Allows tool) :=
  inferInstanceAs (Decidable (_ ∈ _))

/-- `ToolPolicy.version` -/
def ToolPolicy.version [Sha256] (policy : ToolPolicy) : String :=
  let payload : Json := .obj [
    ("allowed_permissions", .ofStrings
      ((policy.allowedPermissions.map PermissionLevel.value).insertionSort (· ≤ ·))),
    ("approval_threshold", .ofOption (policy.approvalThreshold.map RiskLevel.value)),
    ("require_plan_for_mutations", .bool policy.requirePlanForMutations)]
  "tool-policy-v1:" ++ Sha256.hexdigest payload.dumps

namespace ToolGateway

variable (gateway : ToolGateway)

def tool? (name : String) : Option Tool := gateway.tools.find? fun tool => tool.name = name

/-- `name.casefold().endswith("path")` -/
def isPathName (name : String) : Bool := "path".toList.isSuffixOf name.toLower.toList

/-- The first path argument that leaves the repository. -/
def escapingPath (call : ToolCall) : Option String :=
  match call.arguments with
  | .obj fields => fields.findSome? fun
      | (name, .str path) =>
          if isPathName name ∧ (gateway.resolvePath path).isOk = false then some path else none
      | _ => none
  | _ => none

/-- `ToolPolicy._assess` -/
def assess (call : ToolCall) (tool : Tool) : RiskAssessment :=
  let risk : RiskLevel := match tool.permission with
    | .read => .low
    | .write => .medium
    | .execute => .high
  let dangerous := match call.arguments.get? "command" with
    | some (.arr command) => gateway.policy.isDangerousCommand command
    | _ => false
  if dangerous then
    { risk := .critical, allowed := false, decision := .deny
      reason := "dangerous or network-capable command syntax is denied" }
  else match gateway.escapingPath call with
    | some path =>
        { risk := .critical, allowed := false, decision := .deny
          reason := s!"path escapes repository: {path}" }
    | none =>
        if gateway.policy.approvalThreshold.any fun threshold => threshold.order ≤ risk.order then
          { risk, allowed := false, approvalRequired := true, decision := .requireApproval
            reason := s!"{risk.value} action requires operator approval" }
        else
          { risk, allowed := true, decision := .allow
            reason := s!"{tool.permission.value} action is within the authorized scope" }

/-! ### Preparing a call -/

structure Preparation where
  toolName : String
  actionKind : String
  normalizedArguments : Json
  policyResult : RiskAssessment
  error : Option String := none

/-- The arguments that the input model of a permitted tool accepts. -/
def acceptedArguments (call : ToolCall) (tool : Tool) : Except String Json :=
  if ¬ gateway.policy.Allows tool then
    .error s!"permission denied for {tool.permission.value} tool: {call.name}"
  else match call.argumentsError with
    | some text => .error text
    | none => do
        call.arguments.assertExecutable
        tool.validate call.arguments

/-- What a mutation lacks: a plan, or a new plan after a failure. -/
def missingPlan (context : ToolContext) (call : ToolCall) (tool : Tool) : Option String :=
  if gateway.policy.requirePlanForMutations ∧ tool.permission.Mutates then
    if context.plan = none then some s!"an execution plan is required before using {call.name}"
    else if context.requiresReplan then
      some s!"update_plan is required after the previous failure before {call.name}"
    else none
  else none

/-- `ToolGateway.prepare_call` -/
def prepareCall (context : ToolContext) (call : ToolCall) : Preparation :=
  match gateway.tool? call.name with
  | none =>
      { toolName := call.name
        actionKind := "unknown"
        normalizedArguments := call.arguments
        policyResult := { risk := .critical, allowed := false, decision := .deny
                          reason := s!"unknown tool: {call.name}" }
        error := some s!"unknown tool: {call.name}" }
  | some tool =>
      let assessment := gateway.assess call tool
      match gateway.acceptedArguments call tool with
      | .error text =>
          { toolName := call.name
            actionKind := tool.permission.value
            normalizedArguments := call.arguments
            policyResult := assessment.denied text
            error := some text }
      | .ok normalized =>
          match gateway.missingPlan context call tool with
          | some text =>
              { toolName := call.name
                actionKind := tool.permission.value
                normalizedArguments := normalized
                policyResult := assessment.denied text
                error := some text }
          | none =>
              { toolName := call.name
                actionKind := tool.permission.value
                normalizedArguments := normalized
                policyResult := assessment }

/-! ### Executing a call -/

/-- What a gateway changes: the context of its tools, and the results it has given. -/
structure State where
  context : ToolContext := {}
  history : List ToolResult := []
deriving DecidableEq

def failed (call : ToolCall) (kind : ErrorKind) (output : String) : ToolResult where
  callId := call.id
  toolName := call.name
  success := false
  errorKind := some kind
  output := output

/-- `_finish` -/
def State.finish (state : State) (duration : String) (result : ToolResult) : ToolResult × State :=
  let result := { result with durationMs := duration }
  (result, { state with history := state.history ++ [result] })

/-- `text.startswith("path escapes")` decides how a denial is reported. -/
def denialKind (reason : String) : ErrorKind :=
  if startsWith reason "path escapes" then .pathDenied else .permissionDenied

/-- Why `execute` does not reach the backend of a tool. -/
def refusal (context : ToolContext) (approvalConsumed : Bool) (call : ToolCall) (tool : Tool) :
    Option (ErrorKind × String) :=
  if ¬ gateway.policy.Allows tool then
    some (.permissionDenied, s!"permission denied for {tool.permission.value} tool: {call.name}")
  else match call.argumentsError, call.arguments.assertExecutable with
    | some text, _ => some (.invalidArguments, text)
    | none, .error text => some (.invalidArguments, text)
    | none, .ok () =>
        match gateway.missingPlan context call tool with
        | some text => some (.permissionDenied, text)
        | none =>
            let assessment := gateway.assess call tool
            if assessment.decision = .allow
                ∨ approvalConsumed = true ∧ assessment.decision = .requireApproval then none
            else some (denialKind assessment.reason, assessment.reason)

/-- The result of a backend, with the context and the files it leaves. -/
def invoke (moment : Nat) (files : Files) (context : ToolContext) (call : ToolCall) (tool : Tool) :
    ToolResult × ToolContext × Files :=
  match tool.validate call.arguments with
  | .error text => (failed call .invalidArguments text, context, files)
  | .ok arguments =>
      match tool.run moment files context arguments with
      | (.error e, context', files') => (failed call e.kind e.text, context', files')
      | (.ok output, context', files') =>
          ({ callId := call.id
             toolName := call.name
             success := (tool.classifyOutput output).isNone
             output := output
             errorKind := tool.classifyOutput output }, context', files')

/-- A failed mutation asks for a new plan. -/
def ToolContext.afterFailure (context : ToolContext) (permission : PermissionLevel) : ToolContext :=
  if permission.Mutates then { context with requiresReplan := true } else context

/-- `ToolGateway.execute`, where `owned` is what `ownership_assertion` finds; it raises `LeaseLost`
where that fails. -/
def execute (owned : PermissionLevel → Bool) (moment : Nat) (duration : String)
    (approvalConsumed : Bool) (state : State) (files : Files) (call : ToolCall) :
    Option (ToolResult × State × Files) :=
  match gateway.tool? call.name with
  | none =>
      let (result, state) :=
        state.finish duration (failed call .unknownTool s!"unknown tool: {call.name}")
      some (result, state, files)
  | some tool =>
      match gateway.refusal state.context approvalConsumed call tool with
      | some (kind, text) =>
          let (result, state) := state.finish duration (failed call kind text)
          some (result, state, files)
      | none =>
          if owned tool.permission then
            let (result, context, files) := invoke moment files state.context call tool
            let context :=
              if result.success then context else ToolContext.afterFailure context tool.permission
            let (result, state) := { state with context }.finish duration result
            some (result, state, files)
          else none

/-- `_unexecuted_result` -/
def unexecutedResult (call : ToolCall) (reason effectStatus nextAction : String)
    (kind : ErrorKind) : ToolResult :=
  failed call kind <| Json.dumps <| .obj [("backend_invoked", .bool false),
    ("effect_status", .str effectStatus), ("next_action", .str nextAction),
    ("reason", .str reason)]

/-- How `reject_prepared` reports a call. -/
def rejectionKind (context : ToolContext) (call : ToolCall) : ErrorKind :=
  match gateway.tool? call.name with
  | none => .unknownTool
  | some tool =>
      let assessment := (gateway.prepareCall context call).policyResult
      if startsWith assessment.reason "path escapes" then .pathDenied
      else if ¬ gateway.policy.Allows tool ∨ assessment.decision = .deny then .permissionDenied
      else if call.argumentsError ≠ none then .invalidArguments
      else .executionError

/-- `ToolGateway.reject_prepared` -/
def rejectPrepared (duration : String) (state : State) (call : ToolCall) (reason : String) :
    ToolResult × State :=
  let result := unexecutedResult call reason "denied" "choose_alternative"
    (gateway.rejectionKind state.context call)
  let context :=
    if (gateway.prepareCall state.context call).actionKind
        ∈ [PermissionLevel.write.value, PermissionLevel.execute.value] then
      { state.context with requiresReplan := true }
    else state.context
  { state with context }.finish duration result

/-- `ToolGateway.observe_unexecuted` -/
def observeUnexecuted (duration : String) (state : State) (call : ToolCall)
    (reason effectStatus nextAction : String) (kind : ErrorKind) : ToolResult × State :=
  let context := match gateway.tool? call.name with
    | some tool => ToolContext.afterFailure state.context tool.permission
    | none => state.context
  { state with context }.finish duration
    (unexecutedResult call reason effectStatus nextAction kind)

end ToolGateway

end PatchLoop
