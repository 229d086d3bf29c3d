import PatchLoop.Lib.Run
import PatchLoop.Tools.Gateway

/-!
# Preparation and execution agree

`prepare_call` and `execute` pass the same checks in different orders, and report what fails in different
ways. A call gets as far as its tool exactly if the preparation of the same call finds nothing wrong and
allows it, or asks for the approval that was consumed for it, and if the assertion of ownership holds.
-/

namespace PatchLoop

namespace ToolGateway

/-! ### Reaching a tool -/

/-- The tool with a backend that only leaves a mark. -/
def probeTool (tool : Tool) : Tool :=
  { tool with backend := .other fun _ files _ _ => (.ok "", files.write "tool.run" "reached") }

/-- The gateway, but for what its tools do. -/
def probe (gateway : ToolGateway) : ToolGateway :=
  { gateway with tools := gateway.tools.map probeTool }

section Checks

variable {gateway : ToolGateway} {owned : PermissionLevel → Bool} {moment : Nat}
  {duration : String} {approvalConsumed : Bool} {state : State} {files : Files}
  {context : ToolContext} {call : ToolCall} {tool : Tool}

/-- `execute` reaches `tool.run`: a mark that is left there is found. -/
def Reaches (gateway : ToolGateway) (owned : PermissionLevel → Bool) (approvalConsumed : Bool)
    (state : State) (call : ToolCall) : Prop :=
  ∃ result after files,
    gateway.probe.execute owned 0 "" approvalConsumed state (fun _ => none) call
      = some (result, after, files) ∧ files "tool.run" = some "reached"

/-- The preparation of the call finds nothing wrong, and allows it or asks for an approval that was
consumed. -/
def Prepared (gateway : ToolGateway) (approvalConsumed : Bool) (context : ToolContext)
    (call : ToolCall) : Prop :=
  let preparation := gateway.prepareCall context call
  preparation.error = none ∧ (preparation.policyResult.decision = .allow
    ∨ approvalConsumed = true ∧ preparation.policyResult.decision = .requireApproval)

/-- The assertion of ownership does not raise for the call. -/
def Owns (gateway : ToolGateway) (owned : PermissionLevel → Bool) (call : ToolCall) : Prop :=
  ∀ tool, gateway.tool? call.name = some tool → owned tool.permission = true

/-- What both ask of a call before the input model sees it, and then of the policy. -/
structure Passes (gateway : ToolGateway) (approvalConsumed : Bool) (context : ToolContext)
    (call : ToolCall) (tool : Tool) : Prop where
  allowed : gateway.policy.Allows tool
  complete : call.argumentsError = none
  executable : call.arguments.assertExecutable = .ok ()
  planned : gateway.missingPlan context call tool = none
  decided : (gateway.assess call tool).decision = .allow
    ∨ approvalConsumed = true ∧ (gateway.assess call tool).decision = .requireApproval

theorem refusal_eq_none_iff :
    gateway.refusal context approvalConsumed call tool = none
      ↔ gateway.Passes approvalConsumed context call tool := by
  unfold refusal
  constructor
  · intro hnone
    split at hnone
    · cases hnone
    rename_i hallowed
    split at hnone
    · cases hnone
    · cases hnone
    rename_i hcomplete hexecutable
    split at hnone
    · cases hnone
    rename_i hplanned
    dsimp only at hnone
    split at hnone
    · rename_i hdecided
      exact ⟨not_not.mp hallowed, hcomplete, hexecutable, hplanned, hdecided⟩
    · cases hnone
  · rintro ⟨hallowed, hcomplete, hexecutable, hplanned, hdecided⟩
    rw [if_neg (not_not.mpr hallowed), hcomplete, hexecutable]
    dsimp only
    rw [hplanned]
    exact if_pos hdecided

theorem acceptedArguments_eq_ok {arguments : Json} :
    gateway.acceptedArguments call tool = .ok arguments
      ↔ gateway.policy.Allows tool ∧ call.argumentsError = none
        ∧ call.arguments.assertExecutable = .ok () ∧ tool.validate call.arguments = .ok arguments := by
  unfold acceptedArguments
  constructor
  · intro hok
    split at hok
    · cases hok
    rename_i hallowed
    split at hok
    · cases hok
    rename_i hcomplete
    cases hexecutable : call.arguments.assertExecutable with
    | error text =>
        rw [hexecutable] at hok
        cases hok
    | ok u =>
        rw [hexecutable] at hok
        exact ⟨not_not.mp hallowed, hcomplete, rfl, hok⟩
  · rintro ⟨hallowed, hcomplete, hexecutable, hvalid⟩
    rw [if_neg (not_not.mpr hallowed), hcomplete, hexecutable]
    exact hvalid

theorem prepared_iff (htool : gateway.tool? call.name = some tool) :
    gateway.Prepared approvalConsumed context call
      ↔ gateway.Passes approvalConsumed context call tool
        ∧ ∃ arguments, tool.validate call.arguments = .ok arguments := by
  unfold Prepared prepareCall
  rw [htool]
  dsimp only
  cases haccepted : gateway.acceptedArguments call tool with
  | error text =>
      refine ⟨fun hprepared => (by cases hprepared.1), ?_⟩
      rintro ⟨hpasses, arguments, hvalid⟩
      have hok := acceptedArguments_eq_ok.mpr
        ⟨hpasses.allowed, hpasses.complete, hpasses.executable, hvalid⟩
      rw [haccepted] at hok
      cases hok
  | ok arguments =>
      obtain ⟨hallowed, hcomplete, hexecutable, hvalid⟩ := acceptedArguments_eq_ok.mp haccepted
      dsimp only
      cases hplanned : gateway.missingPlan context call tool with
      | some text =>
          refine ⟨fun hprepared => (by cases hprepared.1), fun hboth => ?_⟩
          rw [hboth.1.planned] at hplanned
          cases hplanned
      | none =>
          exact ⟨fun hprepared => ⟨⟨hallowed, hcomplete, hexecutable, hplanned, hprepared.2⟩, _, hvalid⟩,
            fun hboth => ⟨rfl, hboth.1.decided⟩⟩

/-- What `execute` makes of the outcome of a tool. -/
def observed (call : ToolCall) (tool : Tool) (outcome : Except ToolError String × ToolContext × Files) :
    ToolResult × ToolContext × Files :=
  match outcome with
  | (.error e, context, files) => (failed call e.kind e.text, context, files)
  | (.ok output, context, files) =>
      ({ callId := call.id
         toolName := call.name
         success := (tool.classifyOutput output).isNone
         output := output
         errorKind := tool.classifyOutput output }, context, files)

/-- The result of a call that has reached its tool. -/
def completed (duration : String) (state : State) (call : ToolCall) (tool : Tool)
    (outcome : Except ToolError String × ToolContext × Files) : ToolResult × State × Files :=
  let (result, context, files) := observed call tool outcome
  let context :=
    if result.success then context else ToolContext.afterFailure context tool.permission
  let (result, state) := { state with context }.finish duration result
  (result, state, files)

theorem invoke_of_valid {arguments : Json} (hvalid : tool.validate call.arguments = .ok arguments) :
    invoke moment files context call tool
      = observed call tool (tool.run moment files context arguments) := by
  rw [invoke, hvalid]
  rfl

/-- A call that passes is answered by its tool, which is run once. -/
theorem execute_of_passes (htool : gateway.tool? call.name = some tool)
    (hpasses : gateway.Passes approvalConsumed state.context call tool)
    (howned : owned tool.permission = true) {arguments : Json}
    (hvalid : tool.validate call.arguments = .ok arguments) :
    gateway.execute owned moment duration approvalConsumed state files call
      = some (completed duration state call tool
          (tool.run moment files state.context arguments)) := by
  unfold execute
  rw [htool]
  dsimp only
  rw [refusal_eq_none_iff.mpr hpasses]
  dsimp only
  rw [if_pos howned, invoke_of_valid hvalid]
  rfl

/-- What `execute` asks of a call before it runs a tool. -/
def Runs (gateway : ToolGateway) (owned : PermissionLevel → Bool) (approvalConsumed : Bool)
    (context : ToolContext) (call : ToolCall) (tool : Tool) (arguments : Json) : Prop :=
  gateway.tool? call.name = some tool ∧ gateway.Passes approvalConsumed context call tool
    ∧ owned tool.permission = true ∧ tool.validate call.arguments = .ok arguments

/-- A call that fails a check is answered without its tool. -/
theorem execute_of_not_runs
    (hnot : ¬ ∃ tool arguments, gateway.Runs owned approvalConsumed state.context call tool arguments)
    {result : ToolResult} {after : State} {files' : Files}
    (hreturns : gateway.execute owned moment duration approvalConsumed state files call
      = some (result, after, files')) : files' = files := by
  unfold execute at hreturns
  cases htool : gateway.tool? call.name with
  | none =>
      rw [htool] at hreturns
      cases hreturns
      rfl
  | some tool =>
      rw [htool] at hreturns
      dsimp only at hreturns
      cases hrefusal : gateway.refusal state.context approvalConsumed call tool with
      | some refused =>
          rw [hrefusal] at hreturns
          cases hreturns
          rfl
      | none =>
          rw [hrefusal] at hreturns
          dsimp only at hreturns
          by_cases howned : owned tool.permission = true
          · cases hvalid : tool.validate call.arguments with
            | ok arguments =>
                exact absurd ⟨tool, arguments, htool, refusal_eq_none_iff.mp hrefusal, howned, hvalid⟩ hnot
            | error text =>
                rw [if_pos howned, invoke, hvalid] at hreturns
                cases hreturns
                rfl
          · rw [if_neg howned] at hreturns
            cases hreturns

theorem tool?_probe (gateway : ToolGateway) (name : String) :
    gateway.probe.tool? name = (gateway.tool? name).map probeTool := by
  unfold tool? probe
  rw [List.find?_map]
  rfl

theorem passes_probe_iff :
    gateway.probe.Passes approvalConsumed context call (probeTool tool)
      ↔ gateway.Passes approvalConsumed context call tool :=
  ⟨fun hpasses => ⟨hpasses.allowed, hpasses.complete, hpasses.executable, hpasses.planned,
      hpasses.decided⟩,
    fun hpasses => ⟨hpasses.allowed, hpasses.complete, hpasses.executable, hpasses.planned,
      hpasses.decided⟩⟩

theorem reaches_iff_runs :
    gateway.Reaches owned approvalConsumed state call
      ↔ ∃ tool arguments, gateway.Runs owned approvalConsumed state.context call tool arguments := by
  constructor
  · rintro ⟨result, after, files, hreturns, hmark⟩
    by_contra hnot
    have hnone : ¬ ∃ tool arguments,
        gateway.probe.Runs owned approvalConsumed state.context call tool arguments := by
      rintro ⟨probed, arguments, hprobed, hpasses, howned, hvalid⟩
      rw [tool?_probe] at hprobed
      obtain ⟨tool, htool, rfl⟩ := Option.map_eq_some_iff.mp hprobed
      exact hnot ⟨tool, arguments, htool, passes_probe_iff.mp hpasses, howned, hvalid⟩
    have hfiles := execute_of_not_runs hnone hreturns
    rw [hfiles] at hmark
    cases hmark
  · rintro ⟨tool, arguments, htool, hpasses, howned, hvalid⟩
    have hprobed : gateway.probe.tool? call.name = some (probeTool tool) := by
      rw [tool?_probe, htool]
      rfl
    exact ⟨_, _, _, execute_of_passes hprobed (passes_probe_iff.mpr hpasses) howned hvalid, rfl⟩

/-- Where a call reaches its tool, its result is made of the outcome of the tool. -/
theorem execute_of_reaches (hreaches : gateway.Reaches owned approvalConsumed state call) :
    ∃ tool arguments, gateway.tool? call.name = some tool
      ∧ tool.validate call.arguments = .ok arguments
      ∧ gateway.execute owned moment duration approvalConsumed state files call
        = some (completed duration state call tool
            (tool.run moment files state.context arguments)) := by
  obtain ⟨tool, arguments, htool, hpasses, howned, hvalid⟩ := reaches_iff_runs.mp hreaches
  exact ⟨tool, arguments, htool, hvalid, execute_of_passes htool hpasses howned hvalid⟩

theorem reaches_iff_prepared :
    gateway.Reaches owned approvalConsumed state call
      ↔ gateway.Prepared approvalConsumed state.context call ∧ gateway.Owns owned call := by
  rw [reaches_iff_runs]
  constructor
  · rintro ⟨tool, arguments, htool, hpasses, howned, hvalid⟩
    refine ⟨(prepared_iff htool).mpr ⟨hpasses, arguments, hvalid⟩, fun other hother => ?_⟩
    cases htool.symm.trans hother
    exact howned
  · rintro ⟨hprepared, howns⟩
    cases htool : gateway.tool? call.name with
    | none =>
        unfold Prepared prepareCall at hprepared
        rw [htool] at hprepared
        cases hprepared.1
    | some tool =>
        obtain ⟨hpasses, arguments, hvalid⟩ := (prepared_iff htool).mp hprepared
        exact ⟨tool, arguments, htool, hpasses, howns tool htool, hvalid⟩

end Checks

/-! ### The consumed approvals -/

/-- A gateway at work: `_consumed_approval_calls` beside its other state, and the files. -/
structure Working where
  state : State := {}
  files : Files
  consumed : List (String × String) := []

/-- A call of one of the methods of a gateway, and what the host does with its context. -/
inductive Method where
  | execute (taskId : String) (call : ToolCall)
  | executeClaimed (taskId : String) (call : ToolCall) (approvalConsumed : Bool)
  | rejectPrepared (call : ToolCall) (reason : String)
  | observeUnexecuted (call : ToolCall) (reason effectStatus nextAction : String) (kind : ErrorKind)
  | restore (context : ToolContext)

/-- A method with what it finds: the ownership, the moment and the time that it takes. -/
structure Request where
  owned : PermissionLevel → Bool
  moment : Nat
  duration : String
  method : Method

/-- Whether the approval for a call was consumed. -/
def Working.hasConsumed (working : Working) (taskId : String) (call : ToolCall) : Bool :=
  (taskId, call.id) ∈ working.consumed

/-- `self._consumed_approval_calls.add(key)` in `execute_claimed` -/
def Working.claim (working : Working) (taskId : String) (call : ToolCall) (approvalConsumed : Bool) :
    Working :=
  if approvalConsumed then { working with consumed := (taskId, call.id) :: working.consumed }
  else working

/-- `self._consumed_approval_calls.discard(key)` -/
def Working.discard (working : Working) (taskId : String) (call : ToolCall) : Working :=
  { working with consumed := working.consumed.filter (· ≠ (taskId, call.id)) }

/-- `execute`, with the set of consumed approvals. An exception leaves the state as it is. -/
def executeIn (gateway : ToolGateway) (request : Request) (working : Working) (taskId : String)
    (call : ToolCall) : Working :=
  match gateway.execute request.owned request.moment request.duration
      (working.hasConsumed taskId call) working.state working.files call with
  | some (_, state, files) => { working with state, files }
  | none => working

/-- One request to the gateway. -/
def respond (gateway : ToolGateway) (working : Working) (request : Request) : Working :=
  match request.method with
  | .execute taskId call => gateway.executeIn request working taskId call
  | .executeClaimed taskId call approvalConsumed =>
      (gateway.executeIn request (working.claim taskId call approvalConsumed) taskId call).discard
        taskId call
  | .rejectPrepared call reason =>
      { working with state := (gateway.rejectPrepared request.duration working.state call reason).2 }
  | .observeUnexecuted call reason effectStatus nextAction kind =>
      { working with
        state := (gateway.observeUnexecuted request.duration working.state call reason effectStatus
          nextAction kind).2 }
  | .restore context => { working with state := { working.state with context } }

/-- The request reaches a tool. -/
def ReachesIn (gateway : ToolGateway) (working : Working) (request : Request) : Prop :=
  match request.method with
  | .execute taskId call =>
      gateway.Reaches request.owned (working.hasConsumed taskId call) working.state call
  | .executeClaimed taskId call approvalConsumed =>
      gateway.Reaches request.owned
        ((working.claim taskId call approvalConsumed).hasConsumed taskId call) working.state call
  | _ => False

/-- The request is to execute a call that is prepared, where its own approval is all that counts. -/
def PreparedIn (gateway : ToolGateway) (working : Working) (request : Request) : Prop :=
  match request.method with
  | .execute _ call =>
      gateway.Prepared false working.state.context call ∧ gateway.Owns request.owned call
  | .executeClaimed _ call approvalConsumed =>
      gateway.Prepared approvalConsumed working.state.context call ∧ gateway.Owns request.owned call
  | _ => False

section Requests

variable {gateway : ToolGateway} {working : Working} {request : Request}

theorem executeIn_consumed (taskId : String) (call : ToolCall) :
    (gateway.executeIn request working taskId call).consumed = working.consumed := by
  unfold executeIn
  split <;> rfl

/-- Between two requests no approval is left. -/
theorem respond_consumed (hnone : working.consumed = []) :
    (gateway.respond working request).consumed = [] := by
  unfold respond
  split
  · rw [executeIn_consumed, hnone]
  · rename_i taskId call approvalConsumed _
    rw [Working.discard, executeIn_consumed, Working.claim]
    cases approvalConsumed with
    | false => simp [hnone]
    | true => simp [hnone]
  · exact hnone
  · exact hnone
  · exact hnone

theorem after_consumed (hnone : working.consumed = []) (requests : List Request) :
    (Run.after gateway.respond working requests).consumed = [] := by
  induction requests generalizing working with
  | nil => exact hnone
  | cons request rest ih => exact ih (respond_consumed hnone)

theorem reachesIn_iff_preparedIn (hnone : working.consumed = []) :
    gateway.ReachesIn working request ↔ gateway.PreparedIn working request := by
  unfold ReachesIn PreparedIn
  split
  · rename_i taskId call _
    have hconsumed : working.hasConsumed taskId call = false := by
      simp [Working.hasConsumed, hnone]
    rw [hconsumed, reaches_iff_prepared]
  · rename_i taskId call approvalConsumed _
    have hconsumed :
        (working.claim taskId call approvalConsumed).hasConsumed taskId call = approvalConsumed := by
      cases approvalConsumed <;> simp [Working.claim, Working.hasConsumed, hnone]
    rw [hconsumed, reaches_iff_prepared]
  · exact Iff.rfl

end Requests

/-- Execution reaches a tool exactly if the preparation of the same call allows it, or asks for the
approval that was consumed, and the assertion of ownership holds. Whatever was requested before, only the
approval that a request brings itself counts for it. -/
theorem execute_reaches_iff_prepared (gateway : ToolGateway) :
    (∀ owned approvalConsumed state call, gateway.Reaches owned approvalConsumed state call
        ↔ gateway.Prepared approvalConsumed state.context call ∧ gateway.Owns owned call)
      ∧ ∀ (start : Working) (requests : List Request) (request : Request), start.consumed = [] →
        (gateway.ReachesIn (Run.after gateway.respond start requests) request
          ↔ gateway.PreparedIn (Run.after gateway.respond start requests) request) :=
  ⟨fun _ _ _ _ => reaches_iff_prepared,
    fun _ requests _ hnone => reachesIn_iff_preparedIn (after_consumed hnone requests)⟩

/-! ### A lost lease -/

namespace Sample

def reading : ToolGateway where
  tools := [{ name := "read_file", backend := .other fun _ files _ _ => (.ok "", files) }]
  policy := {}
  resolvePath path := .ok path

def readCall : ToolCall := { id := "call", name := "read_file" }

end Sample

/-- A prepared call does not reach its tool where the assertion of ownership raises. -/
theorem prepared_call_not_owned :
    (Sample.reading.prepareCall {} Sample.readCall).error = none
      ∧ (Sample.reading.prepareCall {} Sample.readCall).policyResult.decision = .allow
      ∧ ¬ Sample.reading.Reaches (fun _ => false) false {} Sample.readCall := by
  refine ⟨rfl, rfl, fun hreaches => ?_⟩
  have howned := (reaches_iff_prepared.mp hreaches).2 _ rfl
  cases howned

end ToolGateway

end PatchLoop
