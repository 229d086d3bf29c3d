import PatchLoop.Lib.Paths
import PatchLoop.Memory.Semantic
import PatchLoop.Tools.Gateway

/-!
# The execution tools

The commands that `tools/execute.py` accepts, and what it makes of them. Each argument that may name a file
is taken for a path under both grammars, as the host of a sandbox is not that of the runtime.
-/

namespace PatchLoop

open Paths

inductive Platform where
  | posix
  | windows
deriving DecidableEq

/-- `PurePath(text)`, on a platform -/
def Platform.parse : Platform → List Char → Parsed
  | .posix => Paths.posix
  | .windows => Paths.windows

/-- `PurePath(text).name` -/
def Platform.fileName (platform : Platform) (text : String) : String :=
  String.ofList ((platform.parse text.toList).tail.getLast?.getD [])

/-- `PurePath(text).is_absolute()`: a Windows path needs a drive for it, too. -/
def Platform.isAbsolute (platform : Platform) (text : List Char) : Bool :=
  (platform.parse text).root ≠ [] && (platform = .posix || (platform.parse text).drive ≠ [])

/-- Where the commands are run. -/
structure CommandHost where
  platform : Platform
  /-- `sys.executable` -/
  executable : String

/-- The check of a path that both tools make. -/
def escapesRepository (candidate : List Char) : Bool :=
  Platform.windows.isAbsolute candidate || Platform.posix.isAbsolute candidate
    || parent ∈ (Paths.windows candidate).parts || parent ∈ (Paths.posix candidate).parts

def pythonNames : List String := ["python", "python.exe", "python3", "python3.exe", "py", "py.exe"]

def valueError (text : String) : ToolError := ⟨.executionError, text⟩

/-! ### Options -/

/-- `argument.startswith("-")` -/
def isOption (argument : List Char) : Bool := ['-'].isPrefixOf argument

/-- What follows the first `=`. -/
def afterEquals (argument : List Char) : Option (List Char) :=
  match argument.dropWhile (· ≠ '=') with
  | [] => none
  | _ :: value => some value

/-- What precedes the first `=`. -/
def beforeEquals (argument : List Char) : List Char := argument.takeWhile (· ≠ '=')

/-! ### Tests -/

namespace RunTestsTool

/-- The part of an argument that is checked. -/
def candidateOf (argument : List Char) : List Char := (afterEquals argument).getD argument

/-- The check of one argument. -/
def checkArgument (argument : String) : Except ToolError Unit :=
  let candidate := candidateOf argument.toList
  if isOption argument.toList && candidate = argument.toList then .ok ()
  else if escapesRepository candidate then
    .error (valueError s!"test path escapes repository: {argument}")
  else .ok ()

/-- The command with the interpreter of the host, before its arguments are checked. -/
def runnable [UnicodeForms] (host : CommandHost) (command : List String) :
    Except ToolError (List String) :=
  match command with
  | [] => .error (valueError "test command cannot be empty")
  | first :: arguments =>
      let executable := UnicodeForms.casefold (host.platform.fileName first)
      if executable ∈ pythonNames then
        if arguments.take 2 ∉ [["-m", "pytest"], ["-m", "unittest"]] then
          .error (valueError "Python test command must use '-m pytest' or '-m unittest'")
        else .ok (host.executable :: arguments)
      else if executable ∈ ["pytest", "pytest.exe"] then
        .ok ([host.executable, "-m", "pytest"] ++ arguments)
      else .error (valueError "only pytest and unittest test commands are allowed")

/-- `_normalize_command` -/
def normalizeCommand [UnicodeForms] (host : CommandHost) (command : List String) :
    Except ToolError (List String) := do
  let normalized ← runnable host command
  (normalized.drop 3).forM checkArgument
  return normalized

end RunTestsTool

/-! ### Diagnostics -/

namespace RunCommandTool

/-- `_allowed_git_commands` -/
def allowedGitCommands : List (List String) :=
  [["git", "status"], ["git", "status", "--short"], ["git", "diff"], ["git", "diff", "--stat"],
    ["git", "diff", "--check"]]

/-- The check of one target, of which the file system tells whether it leads out of the repository. -/
def checkTarget (leadsOut : String → Except ToolError Bool) (argument : String) :
    Except ToolError (Option String) :=
  if argument = "-q" then .ok none
  else if isOption argument.toList then
    .error (valueError s!"compileall option is not allowlisted: {argument}")
  else if escapesRepository argument.toList then
    .error (valueError s!"compileall path escapes repository: {argument}")
  else
    match leadsOut argument with
    | .error error => .error error
    | .ok true => .error (valueError s!"compileall path escapes repository: {argument}")
    | .ok false => .ok (some argument)

/-- `_validate_compileall` -/
def validateCompileall (leadsOut : String → Except ToolError Bool) (command : List String) :
    Except ToolError Unit := do
  if command.take 3 ≠ ["python", "-m", "compileall"] then
    throw (valueError ("command is not allowlisted: " ++ " ".intercalate command))
  let targets ← (command.drop 3).mapM (checkTarget leadsOut)
  if (targets.filterMap id).isEmpty then
    throw (valueError "compileall requires a repository-relative target")

/-- `_normalize_command`, of a command that is not empty -/
def normalizeCommand [UnicodeForms] (host : CommandHost) (leadsOut : String → Except ToolError Bool)
    (first : String) (arguments : List String) : Except ToolError (List String) :=
  let executable := UnicodeForms.casefold (host.platform.fileName first)
  if executable ∈ pythonNames then do
    validateCompileall leadsOut ("python" :: arguments)
    return host.executable :: arguments
  else if executable ∈ ["git", "git.exe"] then
    if "git" :: arguments ∉ allowedGitCommands then
      .error (valueError ("command is not allowlisted: " ++ " ".intercalate ("git" :: arguments)))
    else .ok ("git" :: arguments)
  else .error (valueError "command is not allowlisted")

end RunCommandTool

end PatchLoop
