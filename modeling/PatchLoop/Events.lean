import PatchLoop.Json.RoundTrip
import PatchLoop.Lines
import PatchLoop.Tools.Write

/-!
# Event traces

`EventLogger` of `events.py`. A trace is a file of records, one line for each event; a logger counts its
events, and takes up the count from what it reads in the file.
-/

namespace PatchLoop

/-- What an event model takes from elsewhere: which values it reads as a moment, and what it puts in for an
identity or a moment that is missing. A moment is kept as it is written. -/
class EventDefaults where
  readMoment : Json → Option String
  readMoment_written : ∀ value text, readMoment value = some text → readMoment (.str text) = some text
  drawId : Json → String
  now : Json → String

/-- The text under a name, where null stands for none. -/
def Json.optionalText (value : Json) (name : String) : Option (Option String) :=
  match value.get? name with
  | none | some .null => some none
  | some (.str text) => some (some text)
  | some _ => none

/-- `json.dumps(value, ensure_ascii=False)` -/
def Json.dumpsPlain (value : Json) : String := value.dumpsWith " "

structure Event where
  id : String
  type : String
  taskId : String
  traceId : Option String := none
  sequence : Nat := 0
  data : Json := .obj []
  timestamp : String
deriving DecidableEq

namespace Event

/-- `model_dump(mode="json")` -/
def dump (event : Event) : Json :=
  .obj [("data", event.data), ("id", .str event.id), ("sequence", .int event.sequence),
    ("task_id", .str event.taskId), ("timestamp", .str event.timestamp),
    ("trace_id", .ofOption event.traceId), ("type", .str event.type)]

section Reading

variable [InputModels] [EventDefaults]

/-- `Event.model_validate`, unless it raises. -/
def read (value : Json) : Option Event := do
  let id ← match value.get? "id" with
    | none => some (EventDefaults.drawId value)
    | some _ => value.textField "id"
  let type ← value.textField "type"
  let taskId ← value.textField "task_id"
  let traceId ← value.optionalText "trace_id"
  let sequence ← match value.get? "sequence" with
    | none => some 0
    | some given => InputModels.readInt given
  guard (0 ≤ sequence)
  let data ← match value.get? "data" with
    | none => some (.obj [])
    | some (.obj fields) => some (.obj fields)
    | some _ => none
  let timestamp ← match value.get? "timestamp" with
    | none => some (EventDefaults.now value)
    | some given => EventDefaults.readMoment given
  return { id, type, taskId, traceId, sequence := sequence.toNat, data, timestamp }

/-- `Event.model_validate_json` -/
def readJson [FloatRepr] (line : String) : Option Event := (Json.loads line).bind read

end Reading

/-- The redacted payload of an event, as an event. The text of a moment holds no secret, and none of the
names of the fields is one of a secret. -/
def redact [Redactor] (event : Event) : Event :=
  { event with
    id := Redactor.redactText event.id
    type := Redactor.redactText event.type
    taskId := Redactor.redactText event.taskId
    traceId := event.traceId.map Redactor.redactText
    data := event.data.redact }

/-- What `emit` sets in an event: `trace_id or task_id`, and the number. -/
def stamped (event : Event) (sequence : Nat) : Event :=
  { event with
    sequence
    traceId := some (match event.traceId with
      | none => event.taskId
      | some traceId => if traceId = "" then event.taskId else traceId) }

end Event

/-! ### The logger -/

/-- A logger with the text of its file, if there is one. -/
structure EventLogger where
  text : Option String
  sequence : Nat

/-- The lines of a file that are not blank. -/
def logLines (text : String) : List String :=
  (splitLines (String.ofList (universalNewlines text.toList))).filter fun line =>
    !line.toList.all isSpace

namespace EventLogger

variable [FloatRepr] [InputModels] [EventDefaults]

/-- `_last_sequence` -/
def lastSequence : Option String → Nat
  | none => 0
  | some text => (logLines text).foldl (fun last line =>
      match Event.readJson line with
      | some event => max last event.sequence
      | none => last) 0

/-- A logger on a file. -/
def create (text : Option String) : EventLogger := { text, sequence := lastSequence text }

/-- `read`, unless it raises. -/
def read (logger : EventLogger) : Option (List Event) :=
  match logger.text with
  | none => some []
  | some text => (logLines text).mapM Event.readJson

omit [FloatRepr] [InputModels] [EventDefaults] in
/-- `emit` -/
def emit [Redactor] (logger : EventLogger) (event : Event) : EventLogger :=
  let record := (event.stamped (logger.sequence + 1)).redact.dump.dumpsPlain
  { text := some (logger.text.getD "" ++ record ++ "\n"), sequence := logger.sequence + 1 }

/-- What happens to a trace: an event is emitted, or another logger is made on its file. -/
inductive Use where
  | emit (event : Event)
  | restart

def step [Redactor] (logger : EventLogger) : Use → EventLogger
  | .emit event => logger.emit event
  | .restart => create logger.text

end EventLogger

end PatchLoop
