import PatchLoop.Lib.Fallible
import PatchLoop.Lib.Occurrences
import PatchLoop.Tools.Gateway
import Mathlib.Algebra.GroupWithZero.Nat

/-!
# The write tools

`tools/write.py`. A file of the repository is its text as it is stored; `read_text` translates the ends
of its lines, and `write_text` does not translate them back. Beside such files there are directories and
files that are no UTF-8 text, which none of the tools changes.
-/

namespace PatchLoop

open Occurrences

/-! ### Reading -/

/-- What universal newlines make of a text. -/
def universalNewlines : List Char → List Char
  | [] => []
  | '\r' :: '\n' :: rest => '\n' :: universalNewlines rest
  | '\r' :: rest => '\n' :: universalNewlines rest
  | c :: rest => c :: universalNewlines rest

/-- `read_text`, of every file -/
def readText (stored : Files) : Files := fun path =>
  (stored path).map fun text => String.ofList (universalNewlines text.toList)

/-- What a path may hold beside a text. -/
inductive Obstacle where
  | directory
  | undecodable
deriving DecidableEq

/-- What stands around the files. -/
structure FileSurroundings where
  obstacle : String → Option Obstacle
  /-- `path.parent.is_dir()` -/
  hasParent : String → Bool
  /-- The text of the `OSError` for a path that is not there. -/
  missingText : String → String
  /-- The text of the `UnicodeDecodeError`. -/
  undecodableText : String → String

namespace FileSurroundings

/-- `path.exists()` -/
def Exists (surroundings : FileSurroundings) (files : Files) (path : String) : Prop :=
  (files path).isSome = true ∨ (surroundings.obstacle path).isSome = true

instance (surroundings : FileSurroundings) (files : Files) (path : String) :
    Decidable (surroundings.Exists files path) :=
  inferInstanceAs (Decidable (_ ∨ _))

/-- The text of an existing file, under the path that was asked for. -/
def read (surroundings : FileSurroundings) (files : Files) (path asked : String) :
    Except ToolError String :=
  match files path, surroundings.obstacle path with
  | some text, _ => .ok text
  | none, some .undecodable => .error ⟨.executionError, surroundings.undecodableText path⟩
  | none, some .directory => .error ⟨.executionError, s!"not a file: {asked}"⟩
  | none, none => .error ⟨.executionError, surroundings.missingText path⟩

/-- What a change starts from: the content that an earlier call will leave, or the text of the file. -/
def baseline (surroundings : FileSurroundings) (files : Files) (current : Option String)
    (path asked : String) : Except ToolError String :=
  match current with
  | some content => .ok content
  | none => surroundings.read files path asked

end FileSurroundings

/-! ### Requests -/

/-- `TextEditInput` -/
structure TextEdit where
  oldText : String
  newText : String
  expectedOccurrences : Nat := 1
  nonempty : oldText ≠ ""
  atLeast : 1 ≤ expectedOccurrences
  atMost : expectedOccurrences ≤ 1000

inductive FileChange where
  | create (content : String)
  | write (content : String)
  | replace (edit : TextEdit)
  | patch (edits : List TextEdit)

/-- An accepted request of one of the tools. -/
structure FileMutation where
  path : String
  change : FileChange
  named : path ≠ ""

inductive MutationTool where
  | createFile
  | writeFile
  | replaceText
  | applyPatch
deriving DecidableEq

def MutationTool.name : MutationTool → String
  | .createFile => "create_file"
  | .writeFile => "write_file"
  | .replaceText => "replace_text"
  | .applyPatch => "apply_patch"

/-- What the input models take from elsewhere: which values they read as a whole number, and how they
report what they do not accept. -/
class InputModels where
  readInt : Json → Option Int
  readInt_int : ∀ n, readInt (.int n) = some n
  errorText : String → Json → String

/-- The text under a name, if it is one. -/
def Json.textField (value : Json) (name : String) : Option String :=
  match value.get? name with
  | some (.str text) => some text
  | _ => none

/-- Whether an object has no other names: `extra="forbid"`. -/
def Json.hasOnly (names : List String) : Json → Bool
  | .obj fields => fields.all fun field => field.1 ∈ names
  | _ => false

section Inputs

variable [InputModels]

omit [InputModels] in
theorem toNat_bounds {n : Int} (hbounds : 1 ≤ n ∧ n ≤ 1000) : 1 ≤ n.toNat ∧ n.toNat ≤ 1000 := by
  omega

/-- The edit that the fields of an object describe. -/
def TextEdit.read (value : Json) : Option TextEdit := do
  let oldText ← value.textField "old_text"
  let newText ← value.textField "new_text"
  let expected ← match value.get? "expected_occurrences" with
    | none => some 1
    | some given => InputModels.readInt given
  if haccepted : oldText ≠ "" ∧ 1 ≤ expected ∧ expected ≤ 1000 then
    some {
      oldText, newText
      expectedOccurrences := expected.toNat
      nonempty := haccepted.1
      atLeast := (toNat_bounds haccepted.2).1
      atMost := (toNat_bounds haccepted.2).2 }
  else none

def editNames : List String := ["expected_occurrences", "new_text", "old_text"]

/-- The change that a tool makes of its arguments. -/
def FileChange.read (tool : MutationTool) (arguments : Json) : Option FileChange :=
  match tool with
  | .createFile => do
      guard (arguments.hasOnly ["content", "path"])
      return .create (← arguments.textField "content")
  | .writeFile => do
      guard (arguments.hasOnly ["content", "path"])
      return .write (← arguments.textField "content")
  | .replaceText => do
      guard (arguments.hasOnly ("path" :: editNames))
      return .replace (← TextEdit.read arguments)
  | .applyPatch => do
      guard (arguments.hasOnly ["edits", "path"])
      match arguments.get? "edits" with
      | some (.arr values) => do
          guard (values ≠ [] ∧ values.length ≤ 100)
          return .patch (← values.mapM fun value => do
            guard (value.hasOnly editNames)
            TextEdit.read value)
      | _ => none

/-- `input_model.model_validate` -/
def FileMutation.read (tool : MutationTool) (arguments : Json) : Option FileMutation := do
  let change ← FileChange.read tool arguments
  let path ← arguments.textField "path"
  if hnamed : path ≠ "" then some { path, change, named := hnamed } else none

end Inputs

def TextEdit.fields (edit : TextEdit) : List (String × Json) :=
  [("expected_occurrences", .int edit.expectedOccurrences), ("new_text", .str edit.newText),
    ("old_text", .str edit.oldText)]

/-- `model_dump(mode="json")` -/
def FileMutation.dump (mutation : FileMutation) : Json :=
  match mutation.change with
  | .create content | .write content =>
      .obj [("content", .str content), ("path", .str mutation.path)]
  | .replace edit => .obj (edit.fields ++ [("path", .str mutation.path)])
  | .patch edits =>
      .obj [("edits", .arr (edits.map fun edit => .obj edit.fields)), ("path", .str mutation.path)]

/-! ### Previews -/

/-- An edit, where its text occurs as often as it says. -/
def TextEdit.apply (edit : TextEdit) (label text : String) : Except ToolError String :=
  let found := occurrences edit.oldText.toList text.toList
  if found ≠ edit.expectedOccurrences then
    .error ⟨.executionError,
      label ++ s!"expected {edit.expectedOccurrences} occurrences, found {found}"⟩
  else
    .ok (String.ofList (replaceUpTo edit.oldText.toList edit.newText.toList
      edit.expectedOccurrences text.toList))

/-- The edits one after the other, from the one with the index. -/
def applyEdits : Nat → List TextEdit → String → Except ToolError String
  | _, [], text => .ok text
  | index, edit :: rest, text => do
      let next ← edit.apply s!"edit {index}: " text
      applyEdits (index + 1) rest next

/-- The new text of an existing file. -/
def FileChange.apply (change : FileChange) (original : String) : Except ToolError String :=
  match change with
  | .create content | .write content => .ok content
  | .replace edit => edit.apply "" original
  | .patch edits => applyEdits 0 edits original

section Previews

variable [InputModels]

/-- `preview_file_mutation`, where `current` is the content that an earlier call will leave. A path that
leaves the repository is reported before a missing file. -/
def previewFileMutation (surroundings : FileSurroundings) (resolvePath : String → Except String String)
    (tool : MutationTool) (files : Files) (current : Option String) (arguments : Json) :
    Except ToolError FileMutationPreview :=
  match FileMutation.read tool arguments with
  | none => .error ⟨.invalidArguments, InputModels.errorText tool.name arguments⟩
  | some mutation => do
      let path ← (resolvePath mutation.path).mapError (⟨.pathDenied, ·⟩)
      match mutation.change with
      | .create content =>
          if current.isSome = true ∨ current = none ∧ surroundings.Exists files path then
            .error ⟨.executionError, s!"file already exists: {mutation.path}"⟩
          else if surroundings.hasParent path = false then
            .error ⟨.executionError, s!"parent directory does not exist: {mutation.path}"⟩
          else return { path, originalContent := none, targetContent := content }
      | change => do
          let original ← surroundings.baseline files current path mutation.path
          let target ← change.apply original
          return { path, originalContent := some original, targetContent := target }

/-- The answer of a tool that has written its file. -/
def mutationReport (tool : MutationTool) (preview : FileMutationPreview) (arguments : Json) :
    String :=
  match FileMutation.read tool arguments with
  | none => ""
  | some mutation =>
      match mutation.change with
      | .create content => s!"created {mutation.path} ({content.length} characters)"
      | .write content => s!"wrote {mutation.path} ({content.length} characters)"
      | .replace edit =>
          let original := preview.originalContent.getD ""
          let found := occurrences edit.oldText.toList original.toList
          s!"updated {mutation.path} ({found} replacement(s))"
      | .patch edits =>
          let count := (edits.map TextEdit.expectedOccurrences).sum
          s!"patched {mutation.path} ({edits.length} edit(s), {count} replacement(s))"

/-- The tool as a gateway registers it. -/
def MutationTool.tool (tool : MutationTool) (surroundings : FileSurroundings)
    (resolvePath : String → Except String String) : Tool where
  name := tool.name
  permission := .write
  validate arguments :=
    match FileMutation.read tool arguments with
    | none => .error (InputModels.errorText tool.name arguments)
    | some mutation => .ok mutation.dump
  backend := .fileMutation (previewFileMutation surroundings resolvePath tool) (mutationReport tool)

/-- `run`, on the files as they are stored: the preview reads them, and its target is written as it is. -/
def MutationTool.run (tool : MutationTool) (surroundings : FileSurroundings)
    (resolvePath : String → Except String String) (stored : Files) (context : ToolContext)
    (arguments : Json) : Except ToolError String × ToolContext × Files :=
  match previewFileMutation surroundings resolvePath tool (readText stored) none arguments with
  | .error e => (.error e, context, stored)
  | .ok preview =>
      (.ok (mutationReport tool preview arguments),
        { context with
          changes := captureOriginal context.changes preview.path preview.originalContent },
        stored.write preview.path preview.targetContent)

end Previews

end PatchLoop
