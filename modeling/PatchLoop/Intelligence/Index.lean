import PatchLoop.Lib.Table
import PatchLoop.Lines
import PatchLoop.Texts

/-!
# The repository index

`intelligence/index.py`: the Python files of a repository, what a visitor finds in the syntax tree of each of
them, the references that are resolved across them, and the tests that are mapped to what they test. How Python
reads and parses a file is left open.
-/

namespace PatchLoop

inductive SymbolKind where
  | module | classDef | function | method
deriving DecidableEq

structure CodeSymbol where
  id : String
  name : String
  qualifiedName : String
  kind : SymbolKind
  path : String
  startLine : Nat
  endLine : Nat
  signature : String := ""
  docstring : String := ""
deriving DecidableEq

structure CodeReference where
  name : String
  path : String
  line : Nat
  scope : String
  targetSymbolIds : List String := []
deriving DecidableEq

structure IndexedFile where
  path : String
  module : String
  digest : String
  lineCount : Nat
  isTest : Bool := false
  imports : List String := []
  symbols : List CodeSymbol := []
  references : List CodeReference := []
  parseError : Option String := none
deriving DecidableEq

structure TestMapping where
  sourcePath : String
  testPath : String
  reasons : List String
deriving DecidableEq

structure RepositorySnapshot where
  repository : String
  files : List IndexedFile
  testMappings : List TestMapping := []
deriving DecidableEq

/-- What may be raised while a file is indexed. -/
inductive IndexError where
  | syntaxError (message : String) (line : Option Nat)
  | unicodeDecodeError
  | valueError (message : String)
  | recursionError
deriving DecidableEq

/-! ### Syntax trees -/

/-- A node, with what the visitor reads of it. The children are in the order of `ast.iter_child_nodes`; the
arguments of a function are as `ast.unparse` writes them, and a docstring is cleaned. -/
inductive Node where
  | classDef (name : String) (line : Nat) (endLine : Option Nat) (docstring : String) (children : List Node)
  | functionDef (name arguments : String) (line : Nat) (endLine : Option Nat) (docstring : String)
      (children : List Node)
  | name (id : String) (load : Bool) (line : Nat)
  | attribute (attr : String) (load : Bool) (line : Nat) (children : List Node)
  | importNames (names : List String)
  | importFrom (module : Option String) (names : List String)
  | other (children : List Node)

/-- What the index uses of Python, and what an empty file is to it. -/
class Interpreter where
  /-- `tokenize.open(path).read()`, of the bytes of the file -/
  openPython : List UInt8 → Except IndexError String
  /-- `ast.parse` -/
  parse : String → Except IndexError Node
  /-- A visit of the tree stays within the recursion limit. -/
  visits : Node → Bool
  /-- `hashlib.sha256(data).hexdigest()` -/
  sha256 : List UInt8 → String
  open_empty : openPython [] = .ok ""
  parse_empty : parse "" = .ok (.other [])
  visits_empty : visits (.other []) = true

/-! ### Files -/

/-- What `rglob` comes to. -/
structure RepositoryEntry where
  parts : List String
  bytes : List UInt8
  /-- The path can be resolved, to itself, which is in the repository. -/
  resolvesToItself : Bool := true
  isFile : Bool := true
  isSymlink : Bool := false
deriving DecidableEq

instance : Keyed RepositoryEntry (List String) := ⟨RepositoryEntry.parts⟩

/-- A repository, at the path to which it has been resolved. -/
structure Repository where
  root : String
  entries : Table RepositoryEntry

/-- `IGNORED_DIRECTORIES` -/
def ignoredDirectories : List String :=
  [".git", ".mypy_cache", ".patchloop", ".pytest_cache", ".ruff_cache", ".venv", "__pycache__", "build", "dist"]

namespace RepositoryEntry

/-- `path.name` -/
def fileName (entry : RepositoryEntry) : String := entry.parts.getLast?.getD ""

/-- `path.relative_to(repository).as_posix()` -/
def relative (entry : RepositoryEntry) : String := "/".intercalate entry.parts

/-- The entry is one that `python_files` keeps. -/
def IsPython (entry : RepositoryEntry) : Prop :=
  ".py".toList <:+ entry.fileName.toList ∧ (∀ part ∈ entry.parts, part ∉ ignoredDirectories)
    ∧ entry.resolvesToItself ∧ entry.isFile ∧ ¬ entry.isSymlink

instance (entry : RepositoryEntry) : Decidable entry.IsPython := inferInstanceAs (Decidable (_ ∧ _))

/-- `PurePath.stem` of the name: without the last suffix, if it has one. -/
def stem (entry : RepositoryEntry) : String :=
  let pieces := entry.fileName.toList.splitOn '.'
  let front := ['.'].intercalate pieces.dropLast
  if 1 < pieces.length ∧ front ≠ [] ∧ pieces.getLast? ≠ some [] then String.ofList front else entry.fileName

/-- `module_name` -/
def moduleName (entry : RepositoryEntry) : String :=
  let parts := entry.parts.dropLast ++ [entry.stem]
  let parts := if parts.head? = some "src" then parts.drop 1 else parts
  let parts := if parts.getLast? = some "__init__" then parts.dropLast else parts
  ".".intercalate parts

/-- `is_test_path` -/
def isTestPath (entry : RepositoryEntry) : Bool :=
  "tests" ∈ entry.parts || "test_".toList <+: entry.fileName.toList || "_test.py".toList <:+ entry.fileName.toList

end RepositoryEntry

/-- `python_files` -/
def Repository.pythonFiles (repository : Repository) : List RepositoryEntry :=
  (repository.entries.rows.filter fun entry => entry.IsPython).insertionSort fun first second =>
    ¬ second.parts < first.parts

/-! ### The visitor -/

/-- `_module_symbol` -/
def moduleSymbol (entry : RepositoryEntry) (module : String) (lineCount : Nat) : CodeSymbol where
  id := s!"{entry.relative}:{module}:1"
  name := if module = "" then entry.stem else String.ofList ((module.toList.splitOn '.').getLast?.getD [])
  qualifiedName := module
  kind := .module
  path := entry.relative
  startLine := 1
  endLine := max 1 lineCount

/-- The lists of a visitor. -/
structure VisitorLists where
  symbols : List CodeSymbol := []
  references : List CodeReference := []
  imports : List String := []

def VisitorLists.append (first second : VisitorLists) : VisitorLists where
  symbols := first.symbols ++ second.symbols
  references := first.references ++ second.references
  imports := first.imports ++ second.imports

/-- The parts that say something, with points between them. -/
def joinScope (parts : List String) : String := ".".intercalate (parts.filter (· ≠ ""))

/-- `_definition` -/
def definition (path module : String) (scope : List String) (name : String) (kind : SymbolKind)
    (line : Nat) (endLine : Option Nat) (signature docstring : String) : CodeSymbol :=
  let qualifiedName := joinScope (module :: scope ++ [name])
  { id := s!"{path}:{qualifiedName}:{line}"
    name
    qualifiedName
    kind
    path
    startLine := line
    endLine := if endLine.getD 0 = 0 then line else endLine.getD 0
    signature
    docstring }

/-- A use of a name that is read. -/
def reference (path module : String) (scope : List String) (name : String) (load : Bool) (line : Nat) : VisitorLists :=
  if load then { references := [{ name, path, line, scope := joinScope (module :: scope) }] } else {}

mutual

/-- `visit` -/
def visit (path module : String) (scope : List String) (classDepth : Nat) : Node → VisitorLists
  | .classDef name line endLine docstring children =>
      VisitorLists.append { symbols := [definition path module scope name .classDef line endLine name docstring] }
        (visitAll path module (scope ++ [name]) (classDepth + 1) children)
  | .functionDef name arguments line endLine docstring children =>
      VisitorLists.append
        { symbols := [definition path module scope name (if classDepth = 0 then .function else .method)
            line endLine (name ++ "(" ++ arguments ++ ")") docstring] }
        (visitAll path module (scope ++ [name]) classDepth children)
  | .name id load line => reference path module scope id load line
  | .attribute attr load line children =>
      (reference path module scope attr load line).append (visitAll path module scope classDepth children)
  | .importNames names => { imports := names }
  | .importFrom none _ => {}
  | .importFrom (some source) names =>
      if source = "" then {} else { imports := source :: names.map fun name => source ++ "." ++ name }
  | .other children => visitAll path module scope classDepth children

/-- `generic_visit` -/
def visitAll (path module : String) (scope : List String) (classDepth : Nat) : List Node → VisitorLists
  | [] => {}
  | node :: rest => (visit path module scope classDepth node).append (visitAll path module scope classDepth rest)

end

/-! ### References and mappings -/

/-- The symbols of the files as they are looked up: by name, with their paths and ids. -/
def symbolsByName (files : List IndexedFile) : List (String × String × String) :=
  files.flatMap fun file => file.symbols.map fun symbol => (symbol.name, symbol.path, symbol.id)

/-- The symbols to which a name leads: those of its own file, or all of the name. -/
def resolveName (symbols : List (String × String × String)) (path name : String) : List String :=
  let candidates := symbols.filter (·.1 = name)
  let own := candidates.filter (·.2.1 = path)
  (if own = [] then candidates else own).map (·.2.2)

/-- `_resolve_references` -/
def resolveReferences (files : List IndexedFile) : List IndexedFile :=
  files.map fun file =>
    { file with
      references := file.references.map fun reference =>
        { reference with targetSymbolIds := resolveName (symbolsByName files) file.path reference.name } }

/-- The reasons to map a test to a source, from the imports and the names in the test and from the module and
the symbols of the source. -/
def mappingReasons (imports referenceNames : List String) (module : String)
    (symbols : List (String × SymbolKind)) : List String :=
  let importedSymbols := (symbols.map Prod.fst).filter fun name => module ++ "." ++ name ∈ imports
  let referenced := (symbols.filter fun symbol => symbol.2 ≠ .module ∧ symbol.1 ∈ referenceNames).map Prod.fst
  (if module ≠ "" ∧ module ∈ imports then ["imports module " ++ module] else [])
    ++ (if importedSymbols ≠ [] then ["imports symbols " ++ ", ".intercalate (sortedTexts importedSymbols)] else [])
    ++ (if referenced ≠ [] ∧ (module ∈ imports ∨ importedSymbols ≠ []) then
        ["references " ++ ", ".intercalate (sortedTexts referenced)] else [])

/-- The mapping of a test to a source, if there are reasons for it. -/
def testMapping (test source : IndexedFile) : Option TestMapping :=
  let reasons := mappingReasons test.imports (test.references.map CodeReference.name) source.module
    (source.symbols.map fun symbol => (symbol.name, symbol.kind))
  if reasons = [] then none else some { sourcePath := source.path, testPath := test.path, reasons }

/-- `_map_tests` -/
def mapTests (files : List IndexedFile) : List TestMapping :=
  (files.filter (·.isTest)).flatMap fun test => (files.filter (!·.isTest)).filterMap (testMapping test)

/-! ### The indexer -/

section Indexer

variable [Interpreter]

open Interpreter

/-- A file of which only the module is indexed. -/
def unparsed (entry : RepositoryEntry) (lineCount : Nat) (message : String) (line : Option Nat) : IndexedFile where
  path := entry.relative
  module := entry.moduleName
  digest := sha256 entry.bytes
  lineCount := lineCount
  isTest := entry.isTestPath
  symbols := [moduleSymbol entry entry.moduleName lineCount]
  parseError := some (message ++ " at line " ++ (line.map toString).getD "None")

/-- A file with what a visitor has found in it. -/
def visited (entry : RepositoryEntry) (lineCount : Nat) (tree : Node) : IndexedFile :=
  let found := visit entry.relative entry.moduleName [] 0 tree
  { path := entry.relative
    module := entry.moduleName
    digest := sha256 entry.bytes
    lineCount
    isTest := entry.isTestPath
    imports := sortedTexts found.imports
    symbols := moduleSymbol entry entry.moduleName lineCount :: found.symbols
    references := found.references }

/-- `_index_file` -/
def indexFile (entry : RepositoryEntry) : Except IndexError IndexedFile := do
  let text ← openPython entry.bytes
  let lineCount := (splitLines text).length
  match parse text with
  | .error (.syntaxError message line) => return unparsed entry lineCount message line
  | .error raised => throw raised
  | .ok tree => if visits tree then return visited entry lineCount tree else throw .recursionError

/-- `RepositoryIndexer.build` -/
def Repository.build (repository : Repository) : Except IndexError RepositorySnapshot := do
  let files ← repository.pythonFiles.mapM indexFile
  let files := resolveReferences files
  return { repository := repository.root, files, testMappings := mapTests files }

/-- The value of a key in a dictionary that is built from pairs. -/
def valueOf (pairs : List (String × String)) (name : String) : Option String :=
  (pairs.reverse.find? (·.1 = name)).map Prod.snd

/-- `RepositoryIndexer.is_current` -/
def Repository.isCurrent (repository : Repository) (snapshot : RepositorySnapshot) : Bool :=
  let current := repository.pythonFiles.map fun entry => (entry.relative, sha256 entry.bytes)
  let indexed := snapshot.files.map fun file => (file.path, file.digest)
  snapshot.repository = repository.root
    && ∀ name ∈ current.map Prod.fst ++ indexed.map Prod.fst, valueOf current name = valueOf indexed name

end Indexer

end PatchLoop
