import PatchLoop.Context.Engine

/-!
# The prompt cache of a task

An epoch freezes the first messages of the conversation. The coordinator puts what was published of the
memory after them, and a request is the window that the context engine makes of the result, passed through
the coordinator once more.
-/

namespace PatchLoop

/-- `CacheEpochSnapshot`: the frozen messages of an epoch, at least a system and a user message. -/
structure CacheEpoch where
  epochId : String
  prefixMessages : List ModelMessage
  enough : 2 ≤ prefixMessages.length

namespace CacheEpoch

/-- `prefix_message_count` -/
def prefixMessageCount (epoch : CacheEpoch) : Nat := epoch.prefixMessages.length

/-- `bootstrap` -/
def bootstrap (messages : List ModelMessage) (prefixMessageCount : Nat) (epochId : String) :
    Except String CacheEpoch :=
  if h : 2 ≤ prefixMessageCount ∧ prefixMessageCount ≤ messages.length then
    .ok { epochId
          prefixMessages := messages.take prefixMessageCount
          enough := by rw [List.length_take, Nat.min_eq_left h.2]; exact h.1 }
  else .error "an epoch requires at least a system and user prefix"

/-- `materialize` -/
def materialize (epoch : CacheEpoch) (messages : List ModelMessage) :
    Except String (List ModelMessage) :=
  if messages.length < epoch.prefixMessageCount then
    .error "logical history is shorter than the frozen epoch prefix"
  else .ok (epoch.prefixMessages ++ messages.drop epoch.prefixMessageCount)

end CacheEpoch

/-- A coordinator; only the stable layout has an epoch. -/
structure PromptCacheCoordinator where
  cacheEpochId : String
  prefixMessageCount : Nat
  epoch : Option CacheEpoch
  publication : MemoryDeltaPublisher := {}

inductive RequestError where
  | valueError (text : String)
  | publication (error : PublicationError)
  | context (error : ContextError)
deriving DecidableEq

namespace PromptCacheCoordinator

/-- `bootstrap`, in the stable layout. -/
def bootstrap (messages : List ModelMessage) (prefixMessageCount : Nat) (epochId : String) :
    Except String PromptCacheCoordinator := do
  let epoch ← CacheEpoch.bootstrap messages prefixMessageCount epochId
  return { cacheEpochId := epochId, prefixMessageCount, epoch := some epoch }

/-- `publication_messages` -/
def publicationMessages (coordinator : PromptCacheCoordinator) : List ModelMessage :=
  (coordinator.publication.state.map MemoryPublicationSnapshot.messages).getD []

variable [FloatRepr] [Sha256]

/-- The coordinator after a projection, if there is one. -/
def withProjection (coordinator : PromptCacheCoordinator) (epochId : String) :
    Option String → Except PublicationError PromptCacheCoordinator
  | none => .ok coordinator
  | some projection =>
      (coordinator.publication.publish epochId projection).map fun result =>
        { coordinator with publication := result.1 }

/-- `materialize_messages` -/
def materializeMessages (coordinator : PromptCacheCoordinator) (messages : List ModelMessage)
    (memoryProjection : Option String) :
    Except RequestError (PromptCacheCoordinator × List ModelMessage) :=
  match coordinator.epoch with
  | none => .ok (coordinator, messages)
  | some epoch => do
      let request ← (epoch.materialize messages).mapError .valueError
      let coordinator ←
        (coordinator.withProjection epoch.epochId memoryProjection).mapError .publication
      let published := coordinator.publicationMessages
      let tail := request.drop epoch.prefixMessageCount
      return (coordinator,
        if published = [] ∨ tail.take published.length = published then request
        else request.take epoch.prefixMessageCount ++ published ++ tail)

/-- `prepare_request`; its diagnostics only observe the messages. -/
def prepareRequest (coordinator : PromptCacheCoordinator) (messages : List ModelMessage)
    (memoryProjection : Option String) :
    Except RequestError (PromptCacheCoordinator × List ModelMessage) :=
  coordinator.materializeMessages messages memoryProjection

/-- What a retrieval from the memory gives to a request. -/
structure Retrieval where
  /-- `context.provider_projection` -/
  providerProjection : String
  /-- `context.allocation.recent_history_tokens` -/
  recentHistoryTokens : Nat
  /-- `inactive_context_values()` -/
  inactiveContextValues : List String

/-- What a step asks a request for. -/
structure RequestInput where
  messages : List ModelMessage
  tools : List ToolSpec
  plan : Option Plan
  retrieval : Option Retrieval

variable [Redactor]

/-- The options of the window in the stable layout. -/
def RequestInput.options (input : RequestInput) (prefixCount pinned : Nat) :
    ContextEngine.BuildOptions :=
  match input.retrieval with
  | none => {
      stablePrefixMessageCount := prefixCount
      pinnedTailMessageCount := pinned
      taskMemoryInSystem := false }
  | some retrieval => {
      stablePrefixMessageCount := prefixCount
      pinnedTailMessageCount := pinned
      historyTokenBudget := some retrieval.recentHistoryTokens
      enableTaskMemory := false
      excludedHistoryValues := retrieval.inactiveContextValues }

/-- The assembly of a request in `_advance_once`, in the stable layout: the coordinator after it, the
window and the messages for the provider. -/
def assembleRequest (engine : ContextEngine) (coordinator : PromptCacheCoordinator)
    (input : RequestInput) :
    Except RequestError (PromptCacheCoordinator × ContextWindow × List ModelMessage) := do
  let projection := input.retrieval.map Retrieval.providerProjection
  let (coordinator, request) ← coordinator.materializeMessages input.messages projection
  let prefixCount := (coordinator.epoch.map CacheEpoch.prefixMessageCount).getD
    coordinator.prefixMessageCount
  let window ← (engine.build request input.tools input.plan
    (input.options prefixCount coordinator.publicationMessages.length)).mapError .context
  let (coordinator, prepared) ← coordinator.prepareRequest window.messages projection
  return (coordinator, window, prepared)

end PromptCacheCoordinator

end PatchLoop
