import PatchLoop.Lib.Table
import PatchLoop.Memory.Compression

/-!
# Reads that were made

The part of `WorkingMemoryManager` by which the runtime skips a read that it has made before: what was read
is known by the arguments of the call, and forgotten when a write names the same path.
-/

namespace PatchLoop

/-- An entry of `_read_signatures`. -/
structure ReadSignature where
  signature : String
  path : String
deriving DecidableEq

instance : Keyed ReadSignature String := ⟨ReadSignature.signature⟩

structure WorkingMemoryManager where
  readSignatures : Table ReadSignature := Table.empty

/-- `call.arguments.get("path")`, if it is a text -/
def ToolCall.rawPath (call : ToolCall) : Option String :=
  match call.arguments.get? "path" with
  | some (.str path) => some path
  | _ => none

/-- `_call_signature` -/
def callSignature [Sha256] (call : ToolCall) : String := hashPayload call.arguments

namespace WorkingMemoryManager

/-- The tools whose success makes the manager forget the reads of a path. -/
def forgettingTools : List String := ["apply_patch", "replace_text", "write_file"]

/-- `has_read_call` -/
def hasReadCall [Sha256] (manager : WorkingMemoryManager) (call : ToolCall) : Bool :=
  call.name = "read_file" && (manager.readSignatures.get? (callSignature call)).isSome

variable [Sha256] [Redactor]

/-- What `observe_tool` does to the signatures. -/
def observeTool (manager : WorkingMemoryManager) (call : ToolCall) (result : ToolResult) :
    WorkingMemoryManager :=
  match call.rawPath with
  | none => manager
  | some rawPath =>
      let safePath := Redactor.redactText rawPath
      let known :=
        if call.name ∈ forgettingTools && result.success then
          manager.readSignatures.filter (·.path ≠ safePath)
        else manager.readSignatures
      if call.name = "read_file" && result.success then
        { readSignatures := (known.upsert { signature := callSignature call, path := safePath }).last 512 }
      else { readSignatures := known }

end WorkingMemoryManager

end PatchLoop
