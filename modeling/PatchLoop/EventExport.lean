import PatchLoop.Events
import PatchLoop.Lib.Bytes

/-!
# The export of a session journal

`SessionEventExporter` of `events.py`. The export is a file of bytes with a record for each event of the
journal; what an interrupted export left there is repaired, and taken up if it agrees with the journal.
-/

namespace PatchLoop

/-- How moments are written and read, and what is put in for an identity or a moment that is missing. -/
class Moments where
  write : Timestamp → String
  read : Json → Option Timestamp
  read_write : ∀ moment, read (.str (write moment)) = some moment
  drawId : Json → String
  now : Json → Timestamp

namespace SessionEvent

variable [Moments]

/-- `model_dump(mode="json")` -/
def dump (event : SessionEvent) : Json :=
  .obj [("data", event.data), ("id", .str event.id), ("sequence", .int event.sequence),
    ("session_id", .str event.sessionId), ("task_id", .ofOption event.taskId),
    ("timestamp", .str (Moments.write event.timestamp)), ("trace_id", .ofOption event.traceId),
    ("type", .str event.type)]

def fieldNames : List String :=
  ["data", "id", "sequence", "session_id", "task_id", "timestamp", "trace_id", "type"]

/-- The bounds that the model sets to the lengths of its texts. -/
def Bounded (event : SessionEvent) : Prop :=
  (1 ≤ event.id.length ∧ event.id.length ≤ 128) ∧ 1 ≤ event.sessionId.length
    ∧ (1 ≤ event.type.length ∧ event.type.length ≤ 256)
    ∧ (∀ taskId ∈ event.taskId, 1 ≤ taskId.length) ∧ ∀ traceId ∈ event.traceId, 1 ≤ traceId.length

instance (event : SessionEvent) : Decidable event.Bounded :=
  inferInstanceAs (Decidable (_ ∧ _ ∧ _ ∧ _ ∧ _))

variable [InputModels]

/-- `SessionEvent.model_validate`, unless it raises. -/
def read (value : Json) : Option SessionEvent := do
  guard (value.hasOnly fieldNames)
  let id ← match value.get? "id" with
    | none => some (Moments.drawId value)
    | some _ => value.textField "id"
  let sessionId ← value.textField "session_id"
  let type ← value.textField "type"
  let taskId ← value.optionalText "task_id"
  let traceId ← value.optionalText "trace_id"
  let sequence ← match value.get? "sequence" with
    | none => some 0
    | some given => InputModels.readInt given
  guard (0 ≤ sequence)
  let data ← match value.get? "data" with
    | none => some (.obj [])
    | some (.obj fields) => some (.obj fields)
    | some _ => none
  let timestamp ← match value.get? "timestamp" with
    | none => some (Moments.now value)
    | some given => Moments.read given
  let event : SessionEvent :=
    { id, sessionId, type, taskId, traceId, sequence := sequence.toNat, data, timestamp }
  guard event.Bounded
  return event

/-- `SessionEvent.model_validate_json` -/
def readJson [FloatRepr] (line : String) : Option SessionEvent := (Json.loads line).bind read

omit [Moments] [InputModels] in
/-- The redacted payload of an event, as an event. -/
def redact [Redactor] (event : SessionEvent) : SessionEvent :=
  { event with
    id := Redactor.redactText event.id
    sessionId := Redactor.redactText event.sessionId
    type := Redactor.redactText event.type
    taskId := event.taskId.map Redactor.redactText
    traceId := event.traceId.map Redactor.redactText
    data := event.data.redact }

omit [InputModels] in
/-- `_record` -/
def record [Redactor] (event : SessionEvent) : String := event.redact.dump.dumps

end SessionEvent

/-! ### The exporter -/

structure EventExportResult where
  sessionId : String
  exported : Nat
  alreadyPresent : Nat
  repairedTail : Bool
  rewritten : Bool
deriving DecidableEq

/-- The `ValueError`s of the exporter. -/
inductive ExportError where
  | undecodable
  /-- `session event export contains a corrupt middle record` -/
  | corruptMiddleRecord
  /-- `session event export contains another session` -/
  | anotherSession
deriving DecidableEq

/-- What the lines of an export hold. -/
inductive ExportedLines where
  | complete (events : List SessionEvent)
  /-- All but the last line are events. -/
  | tornLast (events : List SessionEvent)
  | failed (error : ExportError)
deriving DecidableEq

namespace SessionEventExporter

variable [Redactor] [FloatRepr] [InputModels] [Moments]

/-- The records of some events, each with a line feed. -/
def rendered (events : List SessionEvent) : List UInt8 :=
  Bytes.encode (unlines (events.map fun event => event.record.toList))

/-- The loop of `_read_complete_prefix`, after some events. -/
def readLines (sessionId : String) : List SessionEvent → List String → ExportedLines
  | events, [] => .complete events
  | events, line :: rest =>
      match SessionEvent.readJson line with
      | none => if rest = [] then .tornLast events else .failed .corruptMiddleRecord
      | some event =>
          if event.sessionId ≠ sessionId then .failed .anotherSession
          else readLines sessionId (events ++ [event]) rest

omit [FloatRepr] [InputModels] in
/-- What is reported of a file with these lines, and what it is left as: a torn last line is dropped. -/
def leaves (repaired : Bool) (raw : List UInt8) :
    ExportedLines → Except ExportError (List SessionEvent × Bool) × Option (List UInt8)
  | .complete events => (.ok (events, repaired), some raw)
  | .tornLast events => (.ok (events, true), some (rendered events))
  | .failed error => (.error error, some raw)

/-- `_read_complete_prefix`, with the file that it leaves. -/
def readCompletePrefix (sessionId : String) (file : Option (List UInt8)) :
    Except ExportError (List SessionEvent × Bool) × Option (List UInt8) :=
  match file with
  | none => (.ok ([], false), none)
  | some raw =>
      let repaired : Bool := raw ≠ [] ∧ raw.getLast? ≠ some Bytes.lineFeed
      let raw := if repaired then Bytes.completeLines raw else raw
      match Bytes.decode raw with
      | none => (.error .undecodable, some raw)
      | some text =>
          leaves repaired raw (readLines sessionId [] (splitLines text))

omit [Redactor] [FloatRepr] [InputModels] [Moments] in
/-- What is in the file is the beginning of the journal. -/
def Agrees (existing journal : List SessionEvent) : Prop :=
  (existing.map SessionEvent.id).Nodup
    ∧ existing.map SessionEvent.id = (journal.map SessionEvent.id).take existing.length
    ∧ ∀ pair ∈ existing.zip journal, pair.1 = pair.2

instance (existing journal : List SessionEvent) : Decidable (Agrees existing journal) :=
  inferInstanceAs (Decidable (_ ∧ _ ∧ _))

/-- `export`, of a session with the journal, with the file that it leaves. -/
def exportJournal (sessionId : String) (journal : List SessionEvent) (file : Option (List UInt8)) :
    Except ExportError EventExportResult × Option (List UInt8) :=
  match readCompletePrefix sessionId file with
  | (.error error, file) => (.error error, file)
  | (.ok (existing, repairedTail), file) =>
      if Agrees existing journal then
        let missing := journal.drop existing.length
        (.ok { sessionId, exported := missing.length, alreadyPresent := existing.length, repairedTail
               rewritten := false },
          some (file.getD [] ++ rendered missing))
      else
        (.ok { sessionId, exported := journal.length, alreadyPresent := 0, repairedTail
               rewritten := true },
          some (rendered journal))

end SessionEventExporter

end PatchLoop
