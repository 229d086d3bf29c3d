import PatchLoop.Lines
import PatchLoop.Memory.Semantic
import PatchLoop.Memory.Working
import PatchLoop.Security

/-!
# The facts of an event

`DeterministicSemanticExtractor`: what a goal, a read, an edit, a plan or a test run says of the task, as
drafts of facts. A line of code either assigns a value to a symbol or is an observation.
-/

namespace PatchLoop

/-! ### Lines of code -/

/-- The zeros of the scripts that have decimal digits, each of which is followed by its nine others. -/
def decimalZeros : List Nat :=
  [0x30, 0x660, 0x6f0, 0x7c0, 0x966, 0x9e6, 0xa66, 0xae6, 0xb66, 0xbe6, 0xc66, 0xce6, 0xd66, 0xde6,
    0xe50, 0xed0, 0xf20, 0x1040, 0x1090, 0x17e0, 0x1810, 0x1946, 0x19d0, 0x1a80, 0x1a90, 0x1b50,
    0x1bb0, 0x1c40, 0x1c50, 0xa620, 0xa8d0, 0xa900, 0xa9d0, 0xa9f0, 0xaa50, 0xabf0, 0xff10, 0x104a0,
    0x10d30, 0x11066, 0x110f0, 0x11136, 0x111d0, 0x112f0, 0x11450, 0x114d0, 0x11650, 0x116c0,
    0x11730, 0x118e0, 0x11950, 0x11c50, 0x11d50, 0x11da0, 0x11f50, 0x16a60, 0x16ac0, 0x16b50,
    0x1d7ce, 0x1d7d8, 0x1d7e2, 0x1d7ec, 0x1d7f6, 0x1e140, 0x1e2f0, 0x1e4f0, 0x1e950, 0x1fbf0]

/-- `\d` -/
def isDecimal (c : Char) : Bool :=
  decimalZeros.any fun start => start ≤ c.toNat && c.toNat < start + 10

/-- `_NUMBERED_LINE.match`: the number of a line, and its text without one blank before it. -/
def numberedLine (line : String) : Option (String × String) :=
  match line.toList.span isDecimal with
  | (digit :: digits, ':' :: text) =>
      let text := if text.head?.any isSpace then text.tail else text
      some (String.ofList (digit :: digits), String.ofList text)
  | _ => none

def isNameStart (c : Char) : Bool :=
  ('a' ≤ c && c ≤ 'z') || ('A' ≤ c && c ≤ 'Z') || c = '_'

def isNameChar (c : Char) : Bool :=
  isNameStart c || ('0' ≤ c && c ≤ '9') || c = '.' || c = '-'

/-- `_ASSIGNMENT.match`, of a line that ends with no blank: the symbol, and the value it gets. -/
def assignment (line : String) : Option (String × String) :=
  if line.toList.head?.any isNameStart then
    let (symbol, rest) := line.toList.span isNameChar
    match rest.dropWhile isSpace with
    | '=' :: value =>
        let value := value.dropWhile isSpace
        if value = [] then none else some (String.ofList symbol, String.ofList value)
    | _ => none
  else none

/-- `text.removeprefix(start)`, where the text starts so. -/
def afterStart? (start text : String) : Option String :=
  (start.toList.isPrefixOf? text.toList).map String.ofList

section Lines

variable [UnicodeForms]

/-- The numbered lines of an output that are not empty, by their numbers. -/
def numberedLines (lines : List String) : List (String × String) :=
  (lines.filterMap numberedLine).filterMap fun (number, text) =>
    let value := normalizeFact text
    if value = "" then none else some (number, value)

/-- The lines that a diff adds and that are not empty, by their paths. -/
def addedLines : Option String → List String → List (String × String)
  | _, [] => []
  | path, line :: rest =>
      match afterStart? "+++ b/" line with
      | some next => addedLines (some next) rest
      | none =>
          match path, afterStart? "+" line with
          | some known, some text =>
              let value := normalizeFact text
              if (afterStart? "+++" line).isSome || value = "" then addedLines path rest
              else (known, value) :: addedLines path rest
          | _, _ => addedLines path rest

end Lines

/-! ### Drafts -/

section Extraction

variable [UnicodeForms] [Sha256]

/-- `_digest` -/
def factDigest (value : String) : String :=
  String.ofList ((Sha256.hexdigest (foldFact value)).toList.take 20)

/-- What a line of code says; `place` is the subject of an observation. -/
def codeDraft (scopeId path place value : String) (status : FactEpistemicStatus) (confidence : ℚ) :
    SemanticFactDraft :=
  match assignment value with
  | some (symbol, assigned) =>
      { factType := .codeSymbol
        subject := path ++ ":" ++ symbol
        predicate := "value"
        value := assigned
        epistemicStatus := status
        scope := .repository
        scopeId
        path := some path
        confidence }
  | none =>
      { factType := .codeObservation
        subject := place
        predicate := "content"
        value
        epistemicStatus := status
        scope := .repository
        scopeId
        path := some path
        confidence }

/-- `_file_facts` -/
def fileFacts (scopeId path output : String) : List SemanticFactDraft :=
  (numberedLines ((splitLines output).take 50)).map fun (number, value) =>
    codeDraft scopeId path (path ++ ":line:" ++ number) value .observed (9 / 10)

/-- `_diff_facts` -/
def diffFacts (scopeId diff : String) (status : FactEpistemicStatus) (confidence : ℚ) :
    List SemanticFactDraft :=
  (addedLines none (splitLines diff)).map fun (path, value) =>
    codeDraft scopeId path (path ++ ":change:" ++ factDigest value) value status confidence

/-- `_plan_facts` -/
def planFacts (taskId : String) (plan : Plan) : List SemanticFactDraft :=
  (plan.items.filter (·.status = .completed)).flatMap fun item =>
    item.evidence.zipIdx.filterMap fun (evidence, index) =>
      let value := normalizeFact evidence
      if value = "" then none
      else some {
        factType := .planEvidence
        subject := s!"plan:{normalizeFact item.description}:evidence:{index}"
        predicate := "supports"
        value
        epistemicStatus := .inferred
        scope := .task
        scopeId := taskId
        confidence := 3 / 5 }

/-- `_verification_fact` -/
def verificationFact (taskId : String) (call : ToolCall) (result : ToolResult) : SemanticFactDraft where
  factType := .verification
  subject := "verification:" ++ call.name ++ ":" ++ factDigest call.arguments.dumps
  predicate := "result"
  value :=
    if result.success then "passed"
    else "failed:" ++ (result.errorKind.map ErrorKind.value).getD "unknown"
  epistemicStatus := if result.success then .verified else .observed
  scope := .task
  scopeId := taskId
  confidence := 1

/-- The tools whose diff is observed. -/
def editTools : List String := ["apply_patch", "create_file", "replace_text", "write_file"]

/-- The tools whose success verifies the diff. -/
def testTools : List String := ["run_command", "run_tests"]

/-- `SemanticExtractionEvent` -/
structure SemanticExtractionEvent where
  taskId : String
  repositoryScopeId : String
  call : ToolCall
  result : ToolResult
  plan : Option Plan := none
  diff : String := ""

/-- `extract`, before the drafts are checked. -/
def SemanticExtractionEvent.rawFacts (event : SemanticExtractionEvent) : List SemanticFactDraft :=
  let name := event.call.name
  let success := event.result.success
  let read :=
    if name = "read_file" && success then
      event.call.rawPath.elim [] fun path =>
        fileFacts event.repositoryScopeId path event.result.output
    else []
  let planned :=
    if name = "update_plan" && success then event.plan.elim [] (planFacts event.taskId) else []
  let edited :=
    if name ∈ editTools && success then
      diffFacts event.repositoryScopeId event.diff .observed (19 / 20)
    else []
  let tested :=
    if name ∈ testTools then
      verificationFact event.taskId event.call event.result ::
        if success then diffFacts event.repositoryScopeId event.diff .verified 1 else []
    else []
  read ++ planned ++ edited ++ tested

/-- `extract` -/
def SemanticExtractionEvent.extract (event : SemanticExtractionEvent) :
    Except MemoryError (List SemanticFactDraft) :=
  event.rawFacts.mapM SemanticFactDraft.validate

end Extraction

/-! ### The goal -/

section Goal

/-- `_CONSTRAINT_MARKERS` -/
def constraintMarkers : List String :=
  [" must ", " only ", " do not ", " don't ", " never ", "必须", "只能", "仅", "不要", "禁止", "不得"]

/-- `_PROHIBITION_MARKERS` -/
def prohibitionMarkers : List String := [" do not ", " don't ", " never ", "不要", "禁止", "不得"]

/-- `_SENTENCE_SPLIT.split` -/
def sentences (goal : String) : List String :=
  (goal.toList.splitOnP fun c =>
    c ∈ ['.', '!', '?', '\u3002', '\uff01', '\uff1f', ';', '\uff1b', '\n']).map String.ofList

variable [UnicodeForms] [Sha256]

/-- What a sentence of the goal says of the task, if it constrains it. -/
def goalDraft? (taskId sentence : String) : Option SemanticFactDraft :=
  let value := normalizeFact sentence
  let candidate := " " ++ UnicodeForms.casefold value ++ " "
  if value ≠ "" && constraintMarkers.any (occursIn · candidate) then
    let prohibited := prohibitionMarkers.any (occursIn · candidate)
    some {
      factType := if prohibited then .prohibition else .constraint
      subject := "task:" ++ taskId ++ ":" ++ factDigest value
      predicate := if prohibited then "prohibits" else "requires"
      value
      epistemicStatus := .userAsserted
      scope := .task
      scopeId := taskId
      confidence := 1 }
  else none

/-- `DeterministicSemanticExtractor.initial_facts` -/
def goalFacts (taskId goal : String) : Except MemoryError (List SemanticFactDraft) :=
  ((sentences goal).filterMap (goalDraft? taskId)).mapM SemanticFactDraft.validate

end Goal

end PatchLoop
