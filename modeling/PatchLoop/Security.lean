import PatchLoop.Execution.Models
import PatchLoop.Lib.Occurrences
import Mathlib.Data.List.Infix

/-!
# Secret redaction

`SecretRedactor` of `security.py`, and the models as the store persists them. The patterns by which a
text is redacted are left open: what is proved holds of every redactor. Identifiers that the program
draws itself hold no secret and stay as they are.
-/

namespace PatchLoop

/-- The patterns of a redactor: what becomes of a text, and which names spell a secret. -/
class Redactor where
  redactText : String → String
  sensitiveName : String → Bool

/-- `SecretRedactor.replacement` -/
def redactedMark : String := "[REDACTED]"

/-- `text.startswith(start)` -/
def startsWith (text start : String) : Bool := start.toList.isPrefixOf text.toList

/-- `needle in text` -/
def occursIn (needle text : String) : Bool := decide (needle.toList <:+: text.toList)

namespace Json

/-- `_is_credential_marker` -/
def isCredentialMarker : Json → Bool
  | .obj [("$credential_ref", .str reference)] => startsWith reference "credential://"
  | _ => false

variable [Redactor]

mutual

/-- `SecretRedactor.redact` -/
def redact : Json → Json
  | .null => .null
  | .bool value => .bool value
  | .int value => .int value
  | .float text => .float text
  | .str text => .str (Redactor.redactText text)
  | .arr items => .arr (redactItems items)
  | .obj fields => .obj (redactFields fields)

def redactItems : List Json → List Json
  | [] => []
  | item :: rest => redact item :: redactItems rest

def redactFields : List (String × Json) → List (String × Json)
  | [] => []
  | (name, value) :: rest =>
      (name, if Redactor.sensitiveName name && !isCredentialMarker value then .str redactedMark
        else redact value) :: redactFields rest

end

end Json

/-! ### Tool arguments -/

namespace Json

/-- `key.replace("~", "~0").replace("/", "~1")` -/
def escapePointer (key : String) : String :=
  String.ofList <| key.toList.flatMap fun c =>
    if c = '~' then ['~', '0'] else if c = '/' then ['~', '1'] else [c]

mutual

/-- `_collect_redacted_paths` -/
def redactedPaths (path : String) : Json → List String
  | .str text => if occursIn redactedMark text then [if path = "" then "/" else path] else []
  | .arr items => redactedItemPaths path 0 items
  | .obj fields => redactedFieldPaths path fields
  | .null | .bool _ | .int _ | .float _ => []

def redactedItemPaths (path : String) : Nat → List Json → List String
  | _, [] => []
  | index, item :: rest =>
      redactedPaths s!"{path}/{index}" item ++ redactedItemPaths path (index + 1) rest

def redactedFieldPaths (path : String) : List (String × Json) → List String
  | [] => []
  | (name, value) :: rest =>
      redactedPaths s!"{path}/{escapePointer name}" value ++ redactedFieldPaths path rest

end

/-- `text.replace(old, new)` -/
def replaceAll (old new : String) (text : List Char) : List Char :=
  new.toList.intercalate (Occurrences.cut old.toList text)

/-- The parts of a JSON pointer. -/
def pointerParts (pointer : String) : List String :=
  ((pointer.toList.splitOn '/').drop 1).map fun part =>
    String.ofList (replaceAll "~0" "~" (replaceAll "~1" "/" part))

/-- The zeros of the decimal digits of Unicode. -/
def decimalZeros : List Nat :=
  [0x30, 0x660, 0x6f0, 0x7c0, 0x966, 0x9e6, 0xa66, 0xae6, 0xb66, 0xbe6, 0xc66, 0xce6, 0xd66, 0xde6,
    0xe50, 0xed0, 0xf20, 0x1040, 0x1090, 0x17e0, 0x1810, 0x1946, 0x19d0, 0x1a80, 0x1a90, 0x1b50,
    0x1bb0, 0x1c40, 0x1c50, 0xa620, 0xa8d0, 0xa900, 0xa9d0, 0xa9f0, 0xaa50, 0xabf0, 0xff10,
    0x104a0, 0x10d30, 0x11066, 0x110f0, 0x11136, 0x111d0, 0x112f0, 0x11450, 0x114d0, 0x11650,
    0x116c0, 0x11730, 0x118e0, 0x11950, 0x11c50, 0x11d50, 0x11da0, 0x11f50, 0x16a60, 0x16ac0,
    0x16b50, 0x1d7ce, 0x1d7d8, 0x1d7e2, 0x1d7ec, 0x1d7f6, 0x1e140, 0x1e2f0, 0x1e4f0, 0x1e950,
    0x1fbf0]

/-- `int(c)`, for a decimal digit -/
def decimalOf (c : Char) : Option Nat :=
  (decimalZeros.find? fun start => start ≤ c.toNat ∧ c.toNat < start + 10).map (c.toNat - ·)

/-- `int(part)`, where `part.isdigit()` holds and it raises no `ValueError` -/
def decimalNumber (part : String) : Option Nat :=
  if part = "" ∨ 4300 < part.length then none
  else (part.toList.mapM decimalOf).map fun digits => digits.foldl (fun number digit => 10 * number + digit) 0

/-- `part.isdigit()` and `int(part) < len(items)`, for an index into a list. -/
def indexOfPart (part : String) (items : List Json) : Option Nat :=
  (decimalNumber part).filter (· < items.length)

/-- `_set_json_pointer`, where the path exists. -/
def setPointer (replacement : Json) : List String → Json → Option Json
  | [], _ => none
  | part :: rest, .obj fields =>
      if fields.any (fun field => field.1 = part) then do
        let changed ← fields.mapM fun field =>
          if field.1 = part then
            (if rest = [] then some replacement else setPointer replacement rest field.2).map
              (field.1, ·)
          else some field
        return .obj changed
      else none
  | part :: rest, .arr items => do
      let index ← indexOfPart part items
      let item ← items[index]?
      let changed ← if rest = [] then some replacement else setPointer replacement rest item
      return .arr (items.set index changed)
  | _ :: _, _ => none

mutual

/-- `assert_executable_tool_arguments`; the error is its `UnresolvedToolArgument`. -/
def assertExecutable : Json → Except String Unit
  | .str text =>
      if occursIn redactedMark text then .error "redacted tool arguments cannot be executed"
      else .ok ()
  | .arr items => assertExecutableItems items
  | .obj fields =>
      if fields.any (fun field => field.1 = "$credential_ref") then
        .error "credential reference must be resolved before execution"
      else assertExecutableFields fields
  | .null | .bool _ | .int _ | .float _ => .ok ()

def assertExecutableItems : List Json → Except String Unit
  | [] => .ok ()
  | item :: rest => do
      assertExecutable item
      assertExecutableItems rest

def assertExecutableFields : List (String × Json) → Except String Unit
  | [] => .ok ()
  | (_, value) :: rest => do
      assertExecutable value
      assertExecutableFields rest

end

end Json

/-! ### Models as they are persisted -/

section Models

variable [Redactor]

def ToolCall.redact (call : ToolCall) : ToolCall :=
  { call with
    id := Redactor.redactText call.id
    name := Redactor.redactText call.name
    arguments := call.arguments.redact
    argumentsError := call.argumentsError.map Redactor.redactText }

def ToolResult.redact (result : ToolResult) : ToolResult :=
  { result with
    callId := Redactor.redactText result.callId
    toolName := Redactor.redactText result.toolName
    output := Redactor.redactText result.output }

def ModelMessage.redact (message : ModelMessage) : ModelMessage :=
  { message with
    content := Redactor.redactText message.content
    toolCalls := message.toolCalls.map ToolCall.redact
    toolCallId := message.toolCallId.map Redactor.redactText }

def ModelResponse.redact (response : ModelResponse) : ModelResponse :=
  { response with
    content := Redactor.redactText response.content
    toolCalls := response.toolCalls.map ToolCall.redact }

def AgentStep.redact (step : AgentStep) : AgentStep :=
  { step with
    modelResponse := step.modelResponse.map ModelResponse.redact
    toolResults := step.toolResults.map ToolResult.redact }

def PlanItem.redact (item : PlanItem) : PlanItem :=
  { item with
    description := Redactor.redactText item.description
    evidence := item.evidence.map Redactor.redactText }

def Plan.redact (plan : Plan) : Plan := { plan with items := plan.items.map PlanItem.redact }

def FileEffectPrecondition.redact (precondition : FileEffectPrecondition) :
    FileEffectPrecondition :=
  { precondition with
    path := Redactor.redactText precondition.path
    originalContent := precondition.originalContent.map Redactor.redactText }

def Effect.redact (effect : Effect) : Effect :=
  { effect with
    providerCallId := Redactor.redactText effect.providerCallId
    toolName := Redactor.redactText effect.toolName
    argumentsSummary := effect.argumentsSummary.redact
    policyResult := effect.policyResult.redact
    preparationError := effect.preparationError.map Redactor.redactText
    filePreconditions := effect.filePreconditions.map FileEffectPrecondition.redact
    redactedArgumentPaths := effect.redactedArgumentPaths.map Redactor.redactText
    reconciliationEvidence := effect.reconciliationEvidence.redact
    resultRef := effect.resultRef.map Redactor.redactText
    observationRef := effect.observationRef.map Redactor.redactText }

/-- The arguments that `persist_tool_arguments` returns: a reference for each declared secret. -/
def persistedArguments (arguments : Json) : List CredentialBinding → Option Json
  | [] => some arguments.redact
  | binding :: rest => do
      let safe ← persistedArguments arguments rest
      Json.setPointer (.obj [("$credential_ref", .str binding.reference)])
        (Json.pointerParts binding.path) safe

/-- `PersistedToolArguments` -/
structure PersistedToolArguments where
  arguments : Json
  credentialBindings : List CredentialBinding := []
  redactedPaths : List String := []
deriving DecidableEq

/-- `persist_tool_arguments`; there is none where it raises the `ValueError` of a path that does not exist. -/
def persistToolArguments (arguments : Json) (bindings : List CredentialBinding) :
    Option PersistedToolArguments := do
  let safe ← persistedArguments arguments bindings.reverse
  return { arguments := safe, credentialBindings := bindings, redactedPaths := Json.redactedPaths "" safe }

inductive ToolArgumentError where
  | valueError (text : String)
  | unresolvedToolArgument (text : String)
deriving DecidableEq

/-- `materialize` -/
def PersistedToolArguments.materialize (persisted : PersistedToolArguments) (resolver : String → String) :
    Except ToolArgumentError Json := do
  let value ← persisted.credentialBindings.foldlM (fun value binding =>
    match Json.setPointer (.str (resolver binding.reference)) (Json.pointerParts binding.path) value with
    | some changed => .ok changed
    | none => .error (.valueError s!"credential path does not exist: {binding.path}")) persisted.arguments
  (Json.assertExecutable value).mapError .unresolvedToolArgument
  return value

/-- `_redacted_effect`, unless a credential path does not exist in the arguments. -/
def Effect.persisted (effect : Effect) : Option Effect := do
  let arguments ← persistedArguments effect.argumentsSummary effect.credentialBindings.reverse
  let normalized := { effect with
    argumentsSummary := arguments
    redactedArgumentPaths := Json.redactedPaths "" arguments }
  return normalized.redact

def Task.redact (task : Task) : Task :=
  { task with
    goal := Redactor.redactText task.goal
    repository := Redactor.redactText task.repository
    result := task.result.map Redactor.redactText
    error := task.error.map Redactor.redactText }

def Turn.redact (turn : Turn) : Turn :=
  { turn with
    content := Redactor.redactText turn.content
    resourceRefs := turn.resourceRefs.map Redactor.redactText
    clientSubmissionId := turn.clientSubmissionId.map Redactor.redactText }

def Approval.redact (approval : Approval) : Approval :=
  { approval with
    workspaceRef := Redactor.redactText approval.workspaceRef
    actionSummary := Redactor.redactText approval.actionSummary
    resourceSummary := Redactor.redactText approval.resourceSummary
    decisionSource := approval.decisionSource.map Redactor.redactText }

def RecoveryDisposition.redact (disposition : RecoveryDisposition) : RecoveryDisposition :=
  { disposition with
    evidence := disposition.evidence.redact
    decisionSource := Redactor.redactText disposition.decisionSource }

/-- An entry of a dictionary from names to texts. -/
def redactEntry (entry : String × Option String) : String × Option String :=
  (entry.1, if Redactor.sensitiveName entry.1 then some redactedMark
    else entry.2.map Redactor.redactText)

end Models

end PatchLoop
