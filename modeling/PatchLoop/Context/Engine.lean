import PatchLoop.PromptCache.Publication
import PatchLoop.Security
import Mathlib.Algebra.GroupWithZero.Nat

/-!
# The context engine

`ContextEngine.build` fits a request to the token budget: it keeps the stable head and the pinned messages
after it, and of the history the groups that fit, the recent ones first and then by their relevance.
-/

namespace PatchLoop

structure ToolSpec where
  name : String
  description : String
  parameters : Json
  permission : String := "read"
deriving DecidableEq

def ToolSpec.dump (tool : ToolSpec) : Json :=
  .obj [("description", .str tool.description), ("name", .str tool.name),
    ("parameters", tool.parameters), ("permission", .str tool.permission)]

structure MessageGroup where
  stepIndex : Nat
  messages : List ModelMessage
  estimatedTokens : Nat
  /-- The number of words that the group shares with the query; all groups divide it by the same. -/
  relevance : Nat
  recent : Bool
deriving DecidableEq

/-- An engine with its limits. What it does by regular expressions, and the texts that it writes through
the JSON reading of another, whose order of keys is not kept here, are left open. -/
structure ContextEngine where
  maxTokens : Nat
  maxToolOutputChars : Nat
  recentSteps : Nat
  /-- `tokenize` -/
  tokenize : String → List String
  /-- `content_guard.inspect(value).safe_text` -/
  inspect : String → String
  /-- `_compact_message_content` -/
  compactMessageContent : String → Nat → String
  /-- The message of `_build_memory`, for groups that were dropped and a limit. -/
  memoryMessage : List MessageGroup → Option Plan → String → Nat → MessageRole → Option ModelMessage
  enoughTokens : 256 ≤ maxTokens
  enoughChars : 128 ≤ maxToolOutputChars
  someSteps : 1 ≤ recentSteps

inductive ContextError where
  | valueError (text : String)
  | contextBudgetError (text : String)
deriving DecidableEq

def refuseIf (refused : Prop) [Decidable refused] (error : ContextError) :
    Except ContextError Unit :=
  if refused then .error error else .ok ()

/-- The window, in the parts from which it is put together. -/
structure ContextWindow where
  base : List ModelMessage
  pinned : List ModelMessage
  memory : List ModelMessage
  selected : List ModelMessage
  droppedSteps : List Nat := []
deriving DecidableEq

/-- `ContextWindow.messages` -/
def ContextWindow.messages (window : ContextWindow) : List ModelMessage :=
  window.base ++ window.pinned ++ window.memory ++ window.selected

/-- `math.ceil(length / 3)` -/
def thirds (length : Nat) : Nat := (length + 2) / 3

/-- `estimate_message` -/
def estimateMessage (message : ModelMessage) : Nat :=
  thirds message.dump.dumpsSpaced.utf8ByteSize + 4

/-- `estimate_messages` -/
def estimateMessages (messages : List ModelMessage) : Nat := (messages.map estimateMessage).sum

/-- `estimate_tools` -/
def estimateTools (tools : List ToolSpec) : Nat :=
  thirds (Json.arr (tools.map ToolSpec.dump)).dumpsSpaced.utf8ByteSize + 16 * tools.length

namespace ContextEngine

variable (engine : ContextEngine)

/-- A message of `_normalize_messages`. -/
def normalizeMessage (message : ModelMessage) : ModelMessage :=
  match message.role with
  | .system | .user => message
  | .tool =>
      { message with
        content :=
          engine.compactMessageContent (engine.inspect message.content) engine.maxToolOutputChars }
  | .assistant =>
      { message with
        content := engine.compactMessageContent message.content (engine.maxToolOutputChars * 2) }

/-- `_exclude_history_values`. Values of one length are taken in the order of the list. -/
def excludeHistoryValues (messages : List ModelMessage) (values : List String)
    (protectedCount : Nat) : List ModelMessage :=
  let excluded := ((values.filter (· ≠ "")).dedup).insertionSort fun value other =>
    other.length ≤ value.length
  messages.take protectedCount
    ++ (messages.drop protectedCount).map fun message =>
      { message with
        content := excluded.foldl
          (fun content value => content.replace value "[SUPERSEDED_MEMORY_OMITTED]")
          message.content }

/-- The messages in groups that each start with a message of the assistant, but perhaps the first. -/
def rawGroups (messages : List ModelMessage) : List (List ModelMessage) :=
  let (groups, current) := messages.foldl (fun (groups, current) message =>
      if message.role = .assistant ∧ current ≠ [] then (groups ++ [current], [message])
      else (groups, current ++ [message])) (([] : List (List ModelMessage)), [])
  if current = [] then groups else groups ++ [current]

/-- `_groups` -/
def groups (messages : List ModelMessage) (goal : String) (plan : Option Plan) : List MessageGroup :=
  let raw := rawGroups messages
  let unfinished (plan : Plan) : String :=
    " " ++ " ".intercalate ((plan.items.filter (·.status ≠ .completed)).map PlanItem.description)
  let query := (engine.tokenize (goal ++ (plan.map unfinished).getD "")).dedup
  raw.mapIdx fun index messages =>
    let words := engine.tokenize (" ".intercalate (messages.map ModelMessage.content))
    { stepIndex := index
      messages
      estimatedTokens := estimateMessages messages
      relevance := (query.filter (· ∈ words)).length
      recent := raw.length - engine.recentSteps ≤ index }

/-- The order in which groups are chosen: recent ones, then relevant ones, then later ones. -/
def Precedes (group other : MessageGroup) : Prop :=
  if group.recent = other.recent then
    other.relevance < group.relevance
      ∨ group.relevance = other.relevance ∧ other.stepIndex ≤ group.stepIndex
  else group.recent = true

instance : DecidableRel Precedes := fun _ _ => by
  unfold Precedes
  infer_instance

/-- The steps of the groups that fit, and the tokens that they leave. -/
def selectGroups (groups : List MessageGroup) (budget : Nat) : List Nat × Nat :=
  (groups.insertionSort Precedes).foldl (fun (chosen, remaining) group =>
    if group.estimatedTokens ≤ remaining then
      (group.stepIndex :: chosen, remaining - group.estimatedTokens)
    else (chosen, remaining)) ([], budget)

/-- The arguments of `build` after the messages, the tools and the plan. -/
structure BuildOptions where
  historyTokenBudget : Option Nat := none
  enableTaskMemory : Bool := true
  excludedHistoryValues : List String := []
  stablePrefixMessageCount : Nat := 2
  pinnedTailMessageCount : Nat := 0
  runtimeMemoryMessage : Option ModelMessage := none
  taskMemoryRole : MessageRole := .system
  taskMemoryInSystem : Bool := true

variable [Redactor]

/-- `_safe_runtime_memory_message` -/
def safeRuntimeMemoryMessage (message : ModelMessage) : ModelMessage :=
  match message.role with
  | .system | .user => message.redact
  | _ => { message with content := engine.inspect message.content }

/-- The history of the window, from what is left of the budget for it: the groups that fit, and a
message about the others. -/
def fitHistory (groups : List MessageGroup) (plan : Option Plan) (goal : String) (historyBudget : Nat)
    (options : BuildOptions) : List MessageGroup × List MessageGroup × Option ModelMessage :=
  let needsCompaction := historyBudget < (groups.map MessageGroup.estimatedTokens).sum
  let reserve := if options.enableTaskMemory ∧ needsCompaction ∧ 96 ≤ historyBudget then
    min 768 (max 96 (historyBudget / 3)) else 0
  let (chosen, remaining) := selectGroups groups (historyBudget - reserve)
  let dropped := groups.filter (·.stepIndex ∉ chosen)
  (groups.filter (·.stepIndex ∈ chosen), dropped,
    if options.enableTaskMemory then
      engine.memoryMessage dropped plan goal (reserve + remaining) options.taskMemoryRole
    else none)

/-- The window with a message about what was dropped, in the system message or after the pinned ones. -/
def assemble (base pinned runtimeMemory : List ModelMessage) (selected dropped : List MessageGroup)
    (taskMemory : Option ModelMessage) (inSystem : Bool) : ContextWindow where
  base := match inSystem, taskMemory, base with
    | true, some memory, first :: rest =>
        { first with content := first.content ++ "\n\n" ++ memory.content } :: rest
    | _, _, base => base
  pinned := pinned
  memory := runtimeMemory ++ if inSystem then [] else taskMemory.toList
  selected := selected.flatMap MessageGroup.messages
  droppedSteps := dropped.map MessageGroup.stepIndex

/-- `build` -/
def build (messages : List ModelMessage) (tools : List ToolSpec) (plan : Option Plan)
    (options : BuildOptions) : Except ContextError ContextWindow := do
  let head := options.stablePrefixMessageCount
  let fixed := head + options.pinnedTailMessageCount
  refuseIf (head < 2) (.valueError "stable prompt prefix must contain system and user messages")
  refuseIf (options.taskMemoryRole ∉ [MessageRole.system, .user])
    (.valueError "task memory role must be system or user")
  refuseIf (messages.length < head) (.valueError "context requires system and user messages")
  let normalized := excludeHistoryValues
    ((messages.map ModelMessage.redact).map engine.normalizeMessage) options.excludedHistoryValues fixed
  let base := normalized.take head
  let pinned := (normalized.drop head).take options.pinnedTailMessageCount
  refuseIf (pinned.length ≠ options.pinnedTailMessageCount)
    (.valueError "pinned tail messages exceed the available context")
  let goal := (base.getLast?.map ModelMessage.content).getD ""
  let groups := engine.groups (normalized.drop fixed) goal plan
  let runtimeMemory := (options.runtimeMemoryMessage.map engine.safeRuntimeMemoryMessage).toList
  let fixedTokens := estimateTools tools + estimateMessages base + estimateMessages pinned
    + estimateMessages runtimeMemory
  refuseIf (engine.maxTokens < fixedTokens) (.contextBudgetError
    s!"mandatory context requires {fixedTokens} tokens, budget is {engine.maxTokens}")
  let available := engine.maxTokens - fixedTokens
  let historyBudget := (options.historyTokenBudget.map (min available)).getD available
  let (selected, dropped, taskMemory) := engine.fitHistory groups plan goal historyBudget options
  let window :=
    assemble base pinned runtimeMemory selected dropped taskMemory options.taskMemoryInSystem
  let estimatedTokens := estimateMessages window.messages + estimateTools tools
  refuseIf (engine.maxTokens < estimatedTokens) (.contextBudgetError
    s!"assembled context requires {estimatedTokens} tokens, budget is {engine.maxTokens}")
  return window

end ContextEngine

end PatchLoop
