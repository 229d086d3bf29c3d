import PatchLoop.EventExport
import PatchLoop.Safety.TraceLog

/-!
# Exports converge

An export that was interrupted at some byte leaves the first lines of the journal's records, once the rest
of the last one is dropped. The next export takes them up and completes the file, and a further one finds
it complete, if and only if the records are read as the lines and the events that were written: no
separator is in them, and redaction finds nothing in the events of the journal.
-/

namespace PatchLoop

namespace SessionEvent

section Records

variable [FloatRepr] [InputModels] [Moments] {event other : SessionEvent}

/-- An event as a model holds it. -/
structure Valid (event : SessionEvent) : Prop where
  bounded : event.Bounded
  normal : event.data.Normal
  object : ∃ fields, event.data = .obj fields

/-- There is no separator in a name or a text of the event. -/
def Unseparated (event : SessionEvent) : Prop := event.dump.Unseparated

instance (event : SessionEvent) : Decidable event.Unseparated :=
  inferInstanceAs (Decidable event.dump.Unseparated)

omit [InputModels] in
theorem dump_normal (hnormal : event.data.Normal) : event.dump.Normal := by
  refine ⟨Json.normalFields_iff.mpr ?_, ?_⟩
  · have htask : (Json.ofOption event.taskId).Normal := by cases event.taskId <;> trivial
    have htrace : (Json.ofOption event.traceId).Normal := by cases event.traceId <;> trivial
    simp only [List.forall_mem_cons]
    exact ⟨hnormal, trivial, trivial, trivial, htask, trivial, htrace, trivial, by simp⟩
  · have hnames : fieldNames.Pairwise (· < ·) := by decide
    exact (List.pairwise_map (f := Prod.fst) (R := (· < ·))).mp hnames

omit [FloatRepr] in
/-- An event is read from its dump if it meets the bounds, and nothing else is. -/
theorem read_dump (hobject : ∃ fields, event.data = .obj fields) :
    read event.dump = if event.Bounded then some event else none := by
  obtain ⟨fields, hfields⟩ := hobject
  obtain ⟨id, sessionId, type, taskId, traceId, sequence, data, timestamp⟩ := event
  dsimp only at hfields
  subst hfields
  have hnames : ∀ taskId traceId, (Json.obj [("data", Json.obj fields), ("id", .str id),
      ("sequence", .int sequence), ("session_id", .str sessionId), ("task_id", taskId),
      ("timestamp", .str (Moments.write timestamp)), ("trace_id", traceId),
      ("type", .str type)]).hasOnly fieldNames = true := fun _ _ => rfl
  unfold read dump
  rw [hnames]
  cases taskId <;> cases traceId <;>
    simp [Json.get?, Json.textField, Json.optionalText, InputModels.readInt_int, Moments.read_write,
      Json.ofOption, guard] <;>
    (split <;> rfl)

section Redacted

variable [Redactor]

omit [InputModels] in
theorem isRecord (hnormal : event.data.Normal) : IsRecord event.record.toList := by
  unfold record
  rw [← Json.dumpsWith_empty]
  exact Json.isRecord_dumps (not_lineBreak rfl) (dump_normal (Json.redact_normal _ hnormal))

omit [InputModels] in
theorem unbroken_iff (hnormal : event.data.Normal) :
    event.redact.Unseparated ↔ ∀ c ∈ event.record.toList, isLineBreak c = false := by
  unfold record
  rw [← Json.dumpsWith_empty]
  exact Json.unseparated_iff (not_lineBreak rfl) (dump_normal (Json.redact_normal _ hnormal))

/-- What is read of a record is the redacted event, if anything. -/
theorem readJson_record (hvalid : event.Valid) :
    readJson event.record = if event.redact.Bounded then some event.redact else none := by
  obtain ⟨fields, hfields⟩ := hvalid.object
  have hobject : ∃ fields, event.redact.data = .obj fields :=
    ⟨Json.redactFields fields, by rw [redact, hfields]; rfl⟩
  have hloads : Json.loads event.record = some event.redact.dump :=
    Json.loads_dumps (dump_normal (Json.redact_normal _ hvalid.normal))
  rw [readJson, hloads, Option.bind_some, read_dump hobject]

end Redacted

end Records

end SessionEvent

/-! ### Lines of an export -/

namespace SessionEventExporter

variable [Redactor] [FloatRepr] [InputModels] [Moments] {sessionId : String}
  {journal events seen : List SessionEvent} {raw : List UInt8}

/-- A journal: its events are those of the session, and each has its own identity. -/
structure IsJournal (sessionId : String) (journal : List SessionEvent) : Prop where
  distinct : (journal.map SessionEvent.id).Nodup
  valid : ∀ event ∈ journal, event.Valid
  own : ∀ event ∈ journal, event.sessionId = sessionId

/-- The record of the event is read as the event. -/
structure Settles (event : SessionEvent) : Prop where
  redacted : event.redact = event
  unseparated : event.Unseparated

/-- The records of some events. -/
def recordChars (events : List SessionEvent) : List (List Char) :=
  events.map fun event => event.record.toList

omit [InputModels] in
theorem isRecord_of_valid (hnormal : ∀ event ∈ events, event.data.Normal) :
    ∀ record ∈ recordChars events, IsRecord record := by
  intro record hrecord
  obtain ⟨event, hevent, rfl⟩ := List.mem_map.mp hrecord
  exact SessionEvent.isRecord (hnormal event hevent)

omit [Redactor] in
/-- The lines in which the exporter reads as many events as there are lines. -/
theorem readLines_complete {lines : List String}
    (hread : readLines sessionId seen lines = .complete events) :
    ∃ later, events = seen ++ later
      ∧ List.Forall₂ (fun line event => SessionEvent.readJson line = some event) lines later := by
  induction lines generalizing seen with
  | nil =>
      cases hread
      exact ⟨[], (List.append_nil _).symm, .nil⟩
  | cons line rest ih =>
      rw [readLines] at hread
      split at hread
      · split at hread <;> cases hread
      · rename_i event hevent
        split at hread
        · cases hread
        · obtain ⟨later, rfl, hlater⟩ := ih hread
          exact ⟨event :: later, by rw [List.append_assoc]; rfl, .cons hevent hlater⟩

/-- The records of events that are read as they are. -/
theorem readLines_records (hvalid : ∀ event ∈ events, event.Valid)
    (hown : ∀ event ∈ events, event.sessionId = sessionId)
    (hsettles : ∀ event ∈ events, event.redact = event) :
    readLines sessionId seen (events.map SessionEvent.record) = .complete (seen ++ events) := by
  induction events generalizing seen with
  | nil => rw [List.map_nil, readLines, List.append_nil]
  | cons event rest ih =>
      obtain ⟨hevent, hrest⟩ := List.forall_mem_cons.mp hvalid
      obtain ⟨hsession, howns⟩ := List.forall_mem_cons.mp hown
      obtain ⟨hsame, hsettles⟩ := List.forall_mem_cons.mp hsettles
      have hread : SessionEvent.readJson event.record = some event := by
        rw [SessionEvent.readJson_record hevent, hsame, if_pos hevent.bounded]
      rw [List.map_cons, readLines, hread]
      dsimp only
      rw [if_neg (not_not.mpr hsession), ih hrest howns hsettles, List.append_assoc]
      rfl

omit [FloatRepr] [InputModels] in
theorem rendered_append (first second : List SessionEvent) :
    rendered (first ++ second) = rendered first ++ rendered second := by
  simp [rendered, unlines, Bytes.encode_append]

omit [FloatRepr] [InputModels] in
theorem rendered_eq (events : List SessionEvent) :
    rendered events
      = ((recordChars events).map Bytes.encode).flatMap (· ++ [Bytes.lineFeed]) := by
  induction events with
  | nil => rfl
  | cons event rest ih =>
      have hcons : rendered (event :: rest) = rendered [event] ++ rendered rest :=
        rendered_append [event] rest
      have hsingle : rendered [event] = Bytes.encode event.record.toList ++ [Bytes.lineFeed] := by
        rw [rendered, unlines, List.map_singleton, List.flatMap_singleton, Bytes.encode_append]
        rfl
      rw [hcons, hsingle, ih]
      rfl

/-- What the exporter reads in a file whose complete lines are the records of some events. -/
theorem readCompletePrefix_eq (hkept : Bytes.completeLines raw = rendered events) :
    readCompletePrefix sessionId (some raw)
      = leaves (decide (raw ≠ [] ∧ raw.getLast? ≠ some Bytes.lineFeed)) (rendered events)
          (readLines sessionId [] (splitLines (String.ofList (unlines (recordChars events))))) := by
  have hraw : (if decide (raw ≠ [] ∧ raw.getLast? ≠ some Bytes.lineFeed) = true then
      Bytes.completeLines raw else raw) = rendered events := by
    split
    · exact hkept
    · rename_i hended
      rw [decide_eq_true_eq, not_and_or, not_not, not_not] at hended
      rw [← hkept, Bytes.completeLines_of_ended hended]
  have hdecode : Bytes.decode (rendered events)
      = some (String.ofList (unlines (recordChars events))) := by
    have htext := Bytes.decode_encode (String.ofList (unlines (recordChars events)))
    rwa [String.toList_ofList] at htext
  unfold readCompletePrefix
  dsimp only
  rw [hraw, hdecode]

/-- Complete records that cannot be read are refused. -/
theorem exportJournal_failed {error : ExportError} (hkept : Bytes.completeLines raw = rendered events)
    (hfailed : readLines sessionId [] (splitLines (String.ofList (unlines (recordChars events)))) = .failed error)
    (journal : List SessionEvent) : (exportJournal sessionId journal (some raw)).1 = .error error := by
  rw [exportJournal, readCompletePrefix_eq hkept, hfailed]
  rfl

/-! ### Files that were cut -/

/-- A file that earlier exports have left: none, or the start of the records of the journal. -/
def Torn (journal : List SessionEvent) (file : Option (List UInt8)) : Prop :=
  ∀ raw, file = some raw → raw <+: rendered journal

omit [InputModels] in
theorem completeLines_of_torn (hnormal : ∀ event ∈ journal, event.data.Normal)
    (hcut : raw <+: rendered journal) :
    ∃ count ≤ journal.length, Bytes.completeLines raw = rendered (journal.take count) := by
  have hlines : ∀ line ∈ (recordChars journal).map Bytes.encode, Bytes.lineFeed ∉ line := by
    intro line hline hfeed
    obtain ⟨record, hrecord, rfl⟩ := List.mem_map.mp hline
    obtain ⟨event, hevent, rfl⟩ := List.mem_map.mp hrecord
    have hmem := Bytes.lineFeed_mem_encode.mp hfeed
    unfold SessionEvent.record at hmem
    rw [← Json.dumpsWith_empty] at hmem
    exact Json.not_mem_dumps (not_lineBreak rfl) rfl (by decide)
      (SessionEvent.dump_normal (Json.redact_normal _ (hnormal event hevent))) hmem
  rw [rendered_eq] at hcut
  obtain ⟨count, hcount, hkept⟩ := Bytes.completeLines_of_cut hlines hcut
  refine ⟨count, by simpa [recordChars] using hcount, ?_⟩
  rw [hkept, rendered_eq, recordChars, recordChars, ← List.map_take, ← List.map_take]

omit [Redactor] [FloatRepr] [InputModels] [Moments] in
theorem agrees_take (hdistinct : (journal.map SessionEvent.id).Nodup) (count : Nat) :
    Agrees (journal.take count) journal := by
  have hzip : ∀ (events : List SessionEvent) (count : Nat),
      ∀ pair ∈ (events.take count).zip events, pair.1 = pair.2 := by
    intro events
    induction events with
    | nil =>
        intro count pair hpair
        rw [List.zip_nil_right] at hpair
        cases hpair
    | cons event rest ih =>
        intro count pair hpair
        cases count with
        | zero => cases hpair
        | succ count =>
            rw [List.take_succ_cons, List.zip_cons_cons] at hpair
            rcases List.mem_cons.mp hpair with rfl | hpair
            · rfl
            · exact ih count pair hpair
  refine ⟨?_, ?_, hzip journal count⟩
  · rw [List.map_take]
    exact hdistinct.sublist (List.take_sublist _ _)
  · rw [List.map_take, List.length_take]
    have hlength : (journal.map SessionEvent.id).length = journal.length := List.length_map _
    rw [← hlength, List.take_eq_take_min]

/-- A first export writes the whole journal. -/
theorem export_first (hdistinct : (journal.map SessionEvent.id).Nodup) :
    exportJournal sessionId journal none
      = (.ok { sessionId, exported := journal.length, alreadyPresent := 0, repairedTail := false
               rewritten := false }, some (rendered journal)) := by
  have hagrees : Agrees [] journal := agrees_take hdistinct 0
  unfold exportJournal readCompletePrefix
  dsimp only
  rw [if_pos hagrees]
  rfl

section Converging

variable (hjournal : IsJournal sessionId journal) (hsettles : ∀ event ∈ journal, Settles event)
include hjournal hsettles

/-- The first records are read as the first events. -/
theorem readLines_take (count : Nat) :
    readLines sessionId [] (splitLines (String.ofList (unlines (recordChars (journal.take count)))))
      = .complete (journal.take count) := by
  have hmem : ∀ event ∈ journal.take count, event ∈ journal := fun event => List.mem_of_mem_take
  have hunbroken : ∀ record ∈ recordChars (journal.take count), ∀ c ∈ record, isLineBreak c = false := by
    intro record hrecord
    obtain ⟨event, hevent, rfl⟩ := List.mem_map.mp hrecord
    have hevent := hmem event hevent
    refine (SessionEvent.unbroken_iff (hjournal.valid event hevent).normal).mp ?_
    rw [(hsettles event hevent).redacted]
    exact (hsettles event hevent).unseparated
  have hlines : splitLines (String.ofList (unlines (recordChars (journal.take count))))
      = (journal.take count).map SessionEvent.record := by
    rw [splitLines, String.toList_ofList, splitLinesFrom_unlines hunbroken, recordChars, List.map_map]
    exact List.map_congr_left fun event _ => String.ofList_toList
  rw [hlines]
  exact readLines_records (fun event hevent => hjournal.valid event (hmem event hevent))
    (fun event hevent => hjournal.own event (hmem event hevent))
    (fun event hevent => (hsettles event (hmem event hevent)).redacted)

/-- From every file that was left, an export completes the records. -/
theorem export_torn {file : Option (List UInt8)} (htorn : Torn journal file) :
    ∃ result, exportJournal sessionId journal file = (.ok result, some (rendered journal)) := by
  obtain ⟨count, repaired, left, hread, hleft⟩ : ∃ count repaired left,
      readCompletePrefix sessionId file = (.ok (journal.take count, repaired), left)
        ∧ left.getD [] = rendered (journal.take count) := by
    cases file with
    | none => exact ⟨0, false, none, by rw [List.take_zero]; rfl, by rw [List.take_zero]; rfl⟩
    | some raw =>
        obtain ⟨count, -, hkept⟩ :=
          completeLines_of_torn (fun event hevent => (hjournal.valid event hevent).normal) (htorn raw rfl)
        refine ⟨count, decide (raw ≠ [] ∧ raw.getLast? ≠ some Bytes.lineFeed),
          some (rendered (journal.take count)), ?_, rfl⟩
        rw [readCompletePrefix_eq hkept, readLines_take hjournal hsettles count]
        rfl
  have hdrop : journal.drop (journal.take count).length = journal.drop count := by
    rw [List.length_take, List.drop_eq_drop_min, Nat.min_eq_left (Nat.min_le_right _ _),
      ← List.drop_eq_drop_min]
  unfold exportJournal
  rw [hread]
  dsimp only
  rw [if_pos (agrees_take hjournal.distinct count), hleft, hdrop, ← rendered_append,
    List.take_append_drop]
  exact ⟨_, rfl⟩

/-- An export of what has been exported changes nothing. -/
theorem export_again :
    exportJournal sessionId journal (some (rendered journal))
      = (.ok { sessionId, exported := 0, alreadyPresent := journal.length, repairedTail := false
               rewritten := false }, some (rendered journal)) := by
  have hended : Bytes.Ended (rendered journal) := by
    rw [rendered_eq]
    exact Bytes.ended_lines _
  have hread := readLines_take hjournal hsettles journal.length
  have hagrees := agrees_take hjournal.distinct journal.length
  rw [List.take_length] at hread hagrees
  have hwhole : ¬ (rendered journal ≠ [] ∧ (rendered journal).getLast? ≠ some Bytes.lineFeed) := by
    rw [not_and_or, not_not, not_not]
    exact hended
  have hleft : readCompletePrefix sessionId (some (rendered journal))
      = (.ok (journal, false), some (rendered journal)) := by
    rw [readCompletePrefix_eq (Bytes.completeLines_of_ended hended), hread, decide_eq_false hwhole]
    rfl
  unfold exportJournal
  rw [hleft]
  dsimp only
  rw [if_pos hagrees, List.drop_length, Option.getD_some]
  have hnone : rendered [] = [] := rfl
  rw [hnone, List.append_nil]
  rfl

end Converging

omit [Redactor] [FloatRepr] [InputModels] [Moments] in
theorem eq_of_agrees (hagrees : Agrees events journal) (hlength : events.length = journal.length) :
    events = journal := by
  obtain ⟨-, -, hpairs⟩ := hagrees
  refine List.ext_getElem hlength fun index hevents hthere => ?_
  have hindex : index < (events.zip journal).length := by
    rw [List.length_zip]
    omega
  have hpair := hpairs _ (List.getElem_mem hindex)
  rwa [List.getElem_zip] at hpair

omit [InputModels] in
/-- Where a file of records has as many lines as records, these are the lines. -/
theorem splitLines_of_length (hnormal : ∀ event ∈ journal, event.data.Normal)
    (hlength : (splitLines (String.ofList (unlines (recordChars journal)))).length = journal.length) :
    (∀ event ∈ journal, event.redact.Unseparated)
      ∧ splitLines (String.ofList (unlines (recordChars journal))) = journal.map SessionEvent.record := by
  rw [splitLines, String.toList_ofList] at hlength ⊢
  have hunbroken : ∀ record ∈ recordChars journal, ∀ c ∈ record, isLineBreak c = false := by
    have hall : ∀ (line : List Char) c, c ∈ line → isSpace c = false → (fun _ => true) line = true :=
      fun _ _ _ _ => rfl
    have hcount := (countP_unlines hall (isRecord_of_valid hnormal)).2
    rw [List.length_map] at hlength
    rw [List.countP_eq_length.mpr fun _ _ => rfl, hlength, recordChars, List.length_map] at hcount
    intro record hrecord c hc
    by_contra hbreak
    rw [Bool.not_eq_false] at hbreak
    exact Nat.lt_irrefl _ (hcount ⟨record, hrecord, c, hc, hbreak⟩)
  constructor
  · intro event hevent
    exact (SessionEvent.unbroken_iff (hnormal event hevent)).mpr
      (hunbroken _ (List.mem_map_of_mem hevent))
  · rw [splitLinesFrom_unlines hunbroken, recordChars, List.map_map]
    exact List.map_congr_left fun event _ => String.ofList_toList

/-- Where nothing is left to export, the lines of the records are read as the journal. -/
theorem complete_of_again {file : Option (List UInt8)} {present : Nat} {left : Option (List UInt8)}
    (hfile : file = some (rendered journal)) (hpresent : present = journal.length)
    (hexport : exportJournal sessionId journal file
      = (.ok { sessionId, exported := 0, alreadyPresent := present, repairedTail := false
               rewritten := false }, left)) :
    readLines sessionId [] (splitLines (String.ofList (unlines (recordChars journal))))
      = .complete journal := by
  have hended : Bytes.Ended (rendered journal) := by
    rw [rendered_eq]
    exact Bytes.ended_lines _
  subst hfile
  unfold exportJournal at hexport
  rw [readCompletePrefix_eq (Bytes.completeLines_of_ended hended)] at hexport
  generalize readLines sessionId []
    (splitLines (String.ofList (unlines (recordChars journal)))) = lines at hexport ⊢
  cases lines with
  | failed error =>
      dsimp only [leaves] at hexport
      cases hexport
  | tornLast events =>
      dsimp only [leaves] at hexport
      split at hexport
      · exact Bool.noConfusion
          (congrArg EventExportResult.repairedTail (Except.ok.inj (Prod.mk.inj hexport).1))
      · exact Bool.noConfusion
          (congrArg EventExportResult.rewritten (Except.ok.inj (Prod.mk.inj hexport).1))
  | complete events =>
      dsimp only [leaves] at hexport
      by_cases hagrees : Agrees events journal
      · rw [if_pos hagrees] at hexport
        have hresult := Except.ok.inj (Prod.mk.inj hexport).1
        have hlength : events.length = present := congrArg EventExportResult.alreadyPresent hresult
        rw [eq_of_agrees hagrees (hlength.trans hpresent)]
      · rw [if_neg hagrees] at hexport
        exact Bool.noConfusion
          (congrArg EventExportResult.rewritten (Except.ok.inj (Prod.mk.inj hexport).1))

/-- From each file that an interrupted export left, an export completes the records of the journal, and a
further one finds them complete and leaves the file as it is, if and only if each event of the journal is
read from its record. -/
theorem export_converges_iff (hjournal : IsJournal sessionId journal) :
    (∀ file, Torn journal file →
      (∃ result, exportJournal sessionId journal file = (.ok result, some (rendered journal)))
        ∧ exportJournal sessionId journal (some (rendered journal))
          = (.ok { sessionId, exported := 0, alreadyPresent := journal.length, repairedTail := false
                   rewritten := false }, some (rendered journal)))
      ↔ ∀ event ∈ journal, Settles event := by
  constructor
  · intro hconverges
    have htorn : Torn journal none := fun _ hnone => by cases hnone
    have hread := complete_of_again rfl rfl (hconverges none htorn).2
    obtain ⟨later, rfl, hevents⟩ := readLines_complete hread
    obtain ⟨hunseparated, hlines⟩ := splitLines_of_length
      (fun event hevent => (hjournal.valid event hevent).normal) hevents.length_eq
    rw [hlines, List.forall₂_map_left_iff, List.forall₂_same] at hevents
    intro event hevent
    have hsame := hevents event hevent
    rw [SessionEvent.readJson_record (hjournal.valid event hevent)] at hsame
    split at hsame
    · have hredacted := Option.some.inj hsame
      have hseparated := hunseparated event hevent
      rw [hredacted] at hseparated
      exact ⟨hredacted, hseparated⟩
    · cases hsame
  · intro hsettles file htorn
    exact ⟨export_torn hjournal hsettles htorn, export_again hjournal hsettles⟩

end SessionEventExporter

/-! ### A journal with a separator -/

section Samples

namespace Sample

/-- Every moment is written alike. -/
@[reducible] def journalMoments : Moments where
  write moment := String.ofList (List.replicate moment '0')
  read
    | .str text => some text.length
    | _ => none
  read_write moment := by
    change some (String.ofList (List.replicate moment '0')).length = some moment
    rw [String.length_ofList, List.length_replicate]
  drawId _ := "id"
  now _ := 0

def exported (output : String) : SessionEvent where
  id := "e"
  sessionId := "s"
  type := "tool.finished"
  taskId := some "t"
  data := .obj [("output", .str output)]
  timestamp := 3

end Sample

local instance journalExportFloat : FloatRepr := Sample.traceFloat
local instance journalExportMoments : Moments := Sample.journalMoments
local instance journalExportInputs : InputModels := Sample.inputModels
local instance journalExportRedactor : Redactor := Sample.tracePassword

open SessionEventExporter

theorem exported_bounded (output : String) : (Sample.exported output).Bounded := by
  have hsame : (Sample.exported output).Bounded ↔ (Sample.exported "").Bounded := Iff.rfl
  exact hsame.mpr (by decide)

theorem isJournal_exported (output : String) : IsJournal "s" [Sample.exported output] where
  distinct := List.nodup_singleton _
  valid := List.forall_mem_singleton.mpr ⟨exported_bounded output, ⟨⟨trivial, trivial⟩, List.pairwise_singleton _ _⟩, ⟨_, rfl⟩⟩
  own := List.forall_mem_singleton.mpr rfl

/-- An export that was cut within its record. -/
theorem export_converges_cut :
    IsJournal "s" [Sample.exported "a\n"] ∧ (∀ event ∈ [Sample.exported "a\n"], Settles event)
      ∧ Torn [Sample.exported "a\n"] (some (rendered [Sample.exported "a\n"]).dropLast)
      ∧ ∃ result, exportJournal "s" [Sample.exported "a\n"]
          (some (rendered [Sample.exported "a\n"]).dropLast)
        = (.ok result, some (rendered [Sample.exported "a\n"])) := by
  have hsettles : ∀ event ∈ [Sample.exported "a\n"], Settles event :=
    List.forall_mem_singleton.mpr ⟨by decide, by decide⟩
  have htorn : Torn [Sample.exported "a\n"] (some (rendered [Sample.exported "a\n"]).dropLast) := by
    intro raw hraw
    rw [← Option.some.inj hraw]
    exact List.dropLast_prefix _
  exact ⟨isJournal_exported _, hsettles, htorn,
    ((export_converges_iff (isJournal_exported _)).mpr hsettles _ htorn).1⟩

/-- An export does not read again what it wrote of an output with a line separator. -/
theorem export_corrupt_at_separator :
    IsJournal "s" [Sample.exported "a\u2028b"] ∧ Torn [Sample.exported "a\u2028b"] none
      ∧ (exportJournal "s" [Sample.exported "a\u2028b"] none).2
        = some (rendered [Sample.exported "a\u2028b"])
      ∧ (exportJournal "s" [Sample.exported "a\u2028b"] (some (rendered [Sample.exported "a\u2028b"]))).1
        = .error .corruptMiddleRecord := by
  have hended : Bytes.Ended (rendered [Sample.exported "a\u2028b"]) := by
    rw [rendered_eq]
    exact Bytes.ended_lines _
  have hlines : readLines "s" [] (splitLines (String.ofList (unlines
      (recordChars [Sample.exported "a\u2028b"])))) = .failed .corruptMiddleRecord := by
    rw [splitLines, String.toList_ofList]
    decide +kernel
  refine ⟨isJournal_exported _, fun _ => nofun,
    congrArg Prod.snd (export_first (isJournal_exported _).distinct),
    exportJournal_failed (Bytes.completeLines_of_ended hended) hlines _⟩

end Samples

end PatchLoop
