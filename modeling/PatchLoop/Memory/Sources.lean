import PatchLoop.Lib.Table
import PatchLoop.Memory.Models
import PatchLoop.PromptCache.Epoch

/-!
# Sources

`MemorySource` with all that it says of its evidence, which is retained elsewhere.
-/

namespace PatchLoop

inductive MemorySourceKind where
  | event
  | toolResult
  | userMessage
  | checkpoint
  | memoryRecord
deriving DecidableEq

def MemorySourceKind.value : MemorySourceKind → String
  | .event => "event"
  | .toolResult => "tool_result"
  | .userMessage => "user_message"
  | .checkpoint => "checkpoint"
  | .memoryRecord => "memory_record"

/-- A pointer to evidence. -/
structure SourcePointer where
  id : String
  taskId : String
  kind : MemorySourceKind
  evidenceHash : String
  eventId : Option String := none
  stepIndex : Option Nat := none
  toolCallId : Option String := none
  checkpointId : Option String := none
  memoryRecordId : Option String := none
  path : Option String := none
  lineStart : Option Nat := none
  lineEnd : Option Nat := none
  capturedAt : Int
deriving DecidableEq

instance : Keyed SourcePointer String := ⟨SourcePointer.id⟩

namespace SourcePointer

/-- What a source of its kind must name. -/
def locator (source : SourcePointer) : Option String :=
  match source.kind with
  | .event | .userMessage => source.eventId
  | .toolResult => source.toolCallId
  | .checkpoint => source.checkpointId
  | .memoryRecord => source.memoryRecordId

/-- What `MemorySource` checks. -/
def validate (source : SourcePointer) : Except MemoryError SourcePointer := do
  requireThat (ValidMemoryId source.id) (.fieldError "id")
  requireThat (source.taskId ≠ "") (.fieldError "task_id")
  requireThat (isFingerprint source.evidenceHash = true) (.fieldError "evidence_hash")
  requireThat (source.lineStart ≠ some 0) (.fieldError "line_start")
  requireThat (source.lineEnd ≠ some 0) (.fieldError "line_end")
  requireThat (source.locator ≠ none)
    (.validationError s!"{source.kind.value} memory source is missing its required locator")
  requireThat (source.lineStart ≠ none ∨ source.lineEnd ≠ none → source.path ≠ none)
    (.validationError "source line numbers require a path")
  requireThat (source.lineEnd ≠ none → source.lineStart ≠ none)
    (.validationError "source line_end requires line_start")
  requireThat (∀ first ∈ source.lineStart, ∀ last ∈ source.lineEnd, first ≤ last)
    (.validationError "source line_end cannot precede line_start")
  return source

end SourcePointer

end PatchLoop
