import PatchLoop.Events
import PatchLoop.Json.Separators
import PatchLoop.Lib.Run
import PatchLoop.Lib.Sequences
import PatchLoop.Safety.EditedFiles

/-!
# What is read of a trace

A record of a trace is written with a line feed after it, and read back as the lines that `splitlines`
finds. The records are read as the events that were emitted, numbered from one, if and only if there is no
line separator in a name or a text of them, however often another logger takes up the file.
-/

namespace PatchLoop

/-! ### Redacted values -/

section Redaction

variable [Redactor]

theorem Json.redactItems_eq (items : List Json) : Json.redactItems items = items.map Json.redact := by
  induction items with
  | nil => rfl
  | cons item rest ih => rw [Json.redactItems, ih, List.map_cons]

theorem Json.redactFields_names (fields : List (String × Json)) :
    (Json.redactFields fields).map Prod.fst = fields.map Prod.fst := by
  induction fields with
  | nil => rfl
  | cons field rest ih => rw [Json.redactFields, List.map_cons, List.map_cons, ih]

theorem Json.mem_redactFields {fields : List (String × Json)} {field : String × Json}
    (hmem : field ∈ Json.redactFields fields) :
    field.2 = .str redactedMark ∨ ∃ other ∈ fields, field.2 = other.2.redact := by
  induction fields with
  | nil => cases hmem
  | cons other rest ih =>
      rw [Json.redactFields] at hmem
      rcases List.mem_cons.mp hmem with rfl | hmem
      · dsimp only
        split
        · exact Or.inl rfl
        · exact Or.inr ⟨other, List.mem_cons_self, rfl⟩
      · exact (ih hmem).imp_right fun ⟨found, hfound, heq⟩ =>
          ⟨found, List.mem_cons_of_mem _ hfound, heq⟩

theorem Json.redact_normal [FloatRepr] (value : Json) : value.Normal → value.redact.Normal := by
  induction value using Json.induct with
  | hnull => exact id
  | hbool value => exact id
  | hint value => exact id
  | hfloat text => exact id
  | hstr text => exact fun _ => trivial
  | harr items ih =>
      intro hnormal
      have hitems := Json.normalItems_iff.mp hnormal
      rw [Json.redact, Json.redactItems_eq]
      refine Json.normalItems_iff.mpr fun item hmem => ?_
      obtain ⟨other, hother, rfl⟩ := List.mem_map.mp hmem
      exact ih other hother (hitems other hother)
  | hobj fields ih =>
      intro hnormal
      have hfields := Json.normalFields_iff.mp hnormal.1
      refine ⟨Json.normalFields_iff.mpr fun field hmem => ?_, ?_⟩
      · rcases Json.mem_redactFields hmem with heq | ⟨other, hother, heq⟩
        · rw [heq]
          trivial
        · rw [heq]
          exact ih other hother (hfields other hother)
      · have hsorted := List.pairwise_map.mpr hnormal.2
        rw [← Json.redactFields_names] at hsorted
        exact List.pairwise_map.mp hsorted

end Redaction

/-! ### Records -/

namespace Event

variable [FloatRepr] [InputModels] [EventDefaults]

/-- An event as a model holds it: its data is an object, and its moment is written as moments are. -/
structure Valid (event : Event) : Prop where
  normal : event.data.Normal
  object : ∃ fields, event.data = .obj fields
  moment : EventDefaults.readMoment (.str event.timestamp) = some event.timestamp

/-- There is no separator in a name or a text of the event. -/
def Unseparated (event : Event) : Prop := event.dump.Unseparated

instance (event : Event) : Decidable event.Unseparated := inferInstanceAs (Decidable event.dump.Unseparated)

variable {event : Event}

omit [InputModels] [EventDefaults] in
theorem dump_normal (hnormal : event.data.Normal) : event.dump.Normal := by
  refine ⟨Json.normalFields_iff.mpr ?_, ?_⟩
  · have htrace : (Json.ofOption event.traceId).Normal := by cases event.traceId <;> trivial
    simp only [List.forall_mem_cons]
    exact ⟨hnormal, trivial, trivial, trivial, trivial, htrace, trivial, by simp⟩
  · have hnames : ["data", "id", "sequence", "task_id", "timestamp", "trace_id", "type"].Pairwise
        (· < ·) := by decide
    exact (List.pairwise_map (f := Prod.fst) (R := (· < ·))).mp hnames

/-- An event is read as it was written. -/
theorem readJson_dump (hvalid : event.Valid) : readJson event.dump.dumpsPlain = some event := by
  have hblank : Json.Blank " " := List.forall_mem_singleton.mpr rfl
  have hloads := Json.loads_dumpsWith hblank (dump_normal hvalid.normal)
  unfold readJson Json.dumpsPlain
  rw [hloads, Option.bind_some]
  obtain ⟨fields, hfields⟩ := hvalid.object
  have hmoment := hvalid.moment
  obtain ⟨id, type, taskId, traceId, sequence, data, timestamp⟩ := event
  dsimp only at hfields hmoment
  subst hfields
  cases traceId with
  | none => simp [read, dump, Json.get?, Json.textField, Json.optionalText, InputModels.readInt_int,
      hmoment, Json.ofOption]
  | some traceId => simp [read, dump, Json.get?, Json.textField, Json.optionalText,
      InputModels.readInt_int, hmoment, Json.ofOption]

omit [InputModels] in
theorem Valid.stamped (hvalid : event.Valid) (sequence : Nat) : (event.stamped sequence).Valid :=
  ⟨hvalid.normal, hvalid.object, hvalid.moment⟩

omit [InputModels] in
theorem Valid.redact [Redactor] (hvalid : event.Valid) : event.redact.Valid where
  normal := Json.redact_normal _ hvalid.normal
  object := by
    obtain ⟨fields, hfields⟩ := hvalid.object
    exact ⟨Json.redactFields fields, by rw [Event.redact, hfields]; rfl⟩
  moment := hvalid.moment

omit [InputModels] [EventDefaults] in
theorem unbroken_iff (hnormal : event.data.Normal) :
    event.Unseparated ↔ ∀ c ∈ event.dump.dumpsPlain.toList, isLineBreak c = false :=
  Json.unseparated_iff (not_lineBreak rfl) (dump_normal hnormal)

omit [InputModels] [EventDefaults] in
theorem isRecord (hnormal : event.data.Normal) : IsRecord event.dump.dumpsPlain.toList :=
  Json.isRecord_dumps (not_lineBreak rfl) (dump_normal hnormal)

end Event

/-! ### Files of records -/

section Files

variable {records : List (List Char)} {text : String}

theorem not_mem_unlines (hrecords : ∀ record ∈ records, IsRecord record) : '\r' ∉ unlines records := by
  intro hmem
  obtain ⟨record, hrecord, hmem⟩ := List.mem_flatMap.mp hmem
  rcases List.mem_append.mp hmem with hmem | hmem
  · exact (hrecords record hrecord).unreturned hmem
  · exact absurd (List.mem_singleton.mp hmem) (by decide)

/-- The lines that a logger reads in a file of records. -/
theorem logLines_eq (hrecords : ∀ record ∈ records, IsRecord record) (htext : text.toList = unlines records) :
    logLines text
      = ((splitLinesFrom [] (unlines records)).filter fun line => !line.all isSpace).map String.ofList := by
  have hread : universalNewlines text.toList = unlines records := by
    rw [htext]
    exact universalNewlines_eq (not_mem_unlines hrecords)
  unfold logLines splitLines
  rw [hread, String.toList_ofList, List.filter_map]
  refine congrArg (List.map String.ofList) (List.filter_congr fun line _ => ?_)
  rw [Function.comp_apply, String.toList_ofList]

theorem logLines_unbroken (hrecords : ∀ record ∈ records, IsRecord record)
    (htext : text.toList = unlines records)
    (hunbroken : ∀ record ∈ records, ∀ c ∈ record, isLineBreak c = false) :
    logLines text = records.map String.ofList := by
  rw [logLines_eq hrecords htext, splitLinesFrom_unlines hunbroken, List.filter_eq_self.mpr]
  intro record hrecord
  obtain ⟨c, rest, rfl, hc⟩ := (hrecords record hrecord).first
  rw [List.all_cons, hc, Bool.false_and, Bool.not_false]

/-- Where a logger reads as many lines as there are records, no record is split. -/
theorem unbroken_of_length (hrecords : ∀ record ∈ records, IsRecord record)
    (htext : text.toList = unlines records) (hlength : (logLines text).length = records.length) :
    ∀ record ∈ records, ∀ c ∈ record, isLineBreak c = false := by
  have hkept : ∀ (line : List Char) c, c ∈ line → isSpace c = false → (!line.all isSpace) = true := by
    intro line c hc hspace
    rw [Bool.not_eq_true', List.all_eq_false]
    exact ⟨c, hc, by rw [hspace]; exact Bool.false_ne_true⟩
  have hcount := (countP_unlines hkept hrecords).2
  rw [logLines_eq hrecords htext, List.length_map, ← List.countP_eq_length_filter] at hlength
  intro record hrecord c hc
  by_contra hbreak
  rw [Bool.not_eq_false] at hbreak
  exact absurd (hcount ⟨record, hrecord, c, hc, hbreak⟩) (by omega)

end Files

/-! ### Runs of loggers -/

namespace EventLogger

variable [Redactor] [FloatRepr] [InputModels] [EventDefaults]

def Use.event? : Use → Option Event
  | .emit event => some event
  | .restart => none

/-- The events that are emitted. -/
def emitted (uses : List Use) : List Event := uses.filterMap Use.event?

/-- The events as they should be read: redacted, and numbered from one. -/
def numbered (events : List Event) : List Event :=
  events.zipIdx.map fun (event, index) => (event.stamped (index + 1)).redact

/-- The record of an event, with some number. -/
def IsEntry (event entry : Event) : Prop := ∃ number, entry = (event.stamped number).redact

/-- What a logger has written for some events; the numbers are those that it should give as long as there
are no separators. -/
structure Written (logger : EventLogger) (events entries : List Event) : Prop where
  text : (logger.text.getD "").toList = unlines (entries.map fun entry => entry.dump.dumpsPlain.toList)
  started : logger.text = none → entries = []
  emitted : List.Forall₂ IsEntry events entries
  counted : (∀ entry ∈ entries, entry.Unseparated) →
    entries = numbered events ∧ logger.sequence = events.length

variable {logger : EventLogger} {events entries : List Event}

omit [FloatRepr] [InputModels] [EventDefaults] in
theorem numbered_append (events : List Event) (event : Event) :
    numbered (events ++ [event])
      = numbered events ++ [(event.stamped (events.length + 1)).redact] := by
  simp [numbered, List.zipIdx_append]

omit [FloatRepr] [InputModels] [EventDefaults] in
/-- The number of an entry is in none of its texts. -/
theorem IsEntry.unseparated_iff {event entry other : Event} (hentry : IsEntry event entry)
    (hother : IsEntry event other) : entry.Unseparated ↔ other.Unseparated := by
  obtain ⟨number, rfl⟩ := hentry
  obtain ⟨other, rfl⟩ := hother
  exact Iff.rfl

omit [InputModels] in
theorem valid_of_entries (hentries : List.Forall₂ IsEntry events entries)
    (hvalid : ∀ event ∈ events, event.Valid) : ∀ entry ∈ entries, entry.Valid := by
  induction hentries with
  | nil => exact fun _ hmem => absurd hmem List.not_mem_nil
  | cons hentry _ ih =>
      obtain ⟨hevent, hrest⟩ := List.forall_mem_cons.mp hvalid
      obtain ⟨number, rfl⟩ := hentry
      exact List.forall_mem_cons.mpr ⟨(hevent.stamped number).redact, ih hrest⟩

omit [FloatRepr] [InputModels] [EventDefaults] in
theorem numbered_entries (events : List Event) : List.Forall₂ IsEntry events (numbered events) := by
  induction events using List.reverseRecOn with
  | nil => exact .nil
  | append_singleton events event ih =>
      rw [numbered_append]
      exact List.rel_append ih (.cons ⟨_, rfl⟩ .nil)

omit [FloatRepr] [InputModels] [EventDefaults] in
theorem unseparated_congr {others : List Event} (hentries : List.Forall₂ IsEntry events entries)
    (hothers : List.Forall₂ IsEntry events others) :
    (∀ entry ∈ entries, entry.Unseparated) ↔ ∀ other ∈ others, other.Unseparated := by
  induction hentries generalizing others with
  | nil =>
      cases hothers
      exact Iff.rfl
  | cons hentry _ ih =>
      cases hothers with
      | cons hother hrest =>
          rw [List.forall_mem_cons, List.forall_mem_cons, hentry.unseparated_iff hother, ih hrest]

/-! ### What is in the file -/

section Reading

variable {text : String}

omit [Redactor] [InputModels] in
theorem isRecord_of_valid (hvalid : ∀ entry ∈ entries, entry.Valid) :
    ∀ record ∈ entries.map fun entry => entry.dump.dumpsPlain.toList, IsRecord record := by
  intro record hrecord
  obtain ⟨entry, hentry, rfl⟩ := List.mem_map.mp hrecord
  exact Event.isRecord (hvalid entry hentry).normal

omit [Redactor] [InputModels] in
/-- The lines of entries without separators. -/
theorem logLines_entries (hvalid : ∀ entry ∈ entries, entry.Valid)
    (htext : text.toList = unlines (entries.map fun entry => entry.dump.dumpsPlain.toList))
    (hunseparated : ∀ entry ∈ entries, entry.Unseparated) :
    logLines text = entries.map fun entry => entry.dump.dumpsPlain := by
  rw [logLines_unbroken (isRecord_of_valid hvalid) htext, List.map_map]
  · exact List.map_congr_left fun entry _ => String.ofList_toList
  · intro record hrecord
    obtain ⟨entry, hentry, rfl⟩ := List.mem_map.mp hrecord
    exact (Event.unbroken_iff (hvalid entry hentry).normal).mp (hunseparated entry hentry)

omit [Redactor] in
theorem mapM_readJson (hvalid : ∀ entry ∈ entries, entry.Valid) :
    (entries.map fun entry => entry.dump.dumpsPlain).mapM Event.readJson = some entries := by
  induction entries with
  | nil => rfl
  | cons entry rest ih =>
      obtain ⟨hentry, hrest⟩ := List.forall_mem_cons.mp hvalid
      rw [List.map_cons, List.mapM_cons, Event.readJson_dump hentry, ih hrest]
      rfl

/-- Where the entries are numbered from one and are not split, the count is taken up. -/
theorem lastSequence_numbered (hvalid : ∀ event ∈ events, event.Valid)
    (htext : text.toList = unlines ((numbered events).map fun entry => entry.dump.dumpsPlain.toList))
    (hunseparated : ∀ entry ∈ numbered events, entry.Unseparated) :
    lastSequence (some text) = events.length := by
  have hentries := valid_of_entries (numbered_entries events) hvalid
  unfold lastSequence
  dsimp only
  rw [logLines_entries hentries htext hunseparated, List.foldl_map]
  clear htext hunseparated hentries
  induction events using List.reverseRecOn with
  | nil => rfl
  | append_singleton events event ih =>
      obtain ⟨hevents, hevent⟩ := List.forall_mem_append.mp hvalid
      have hlast := ((hevent event (List.mem_singleton_self _)).stamped (events.length + 1)).redact
      rw [numbered_append, List.foldl_append, ih hevents, List.foldl_cons, Event.readJson_dump hlast,
        List.length_append]
      exact Nat.max_eq_right (Nat.le_succ _)

end Reading

/-! ### What a step does -/

omit [InputModels] [EventDefaults] [FloatRepr] in
theorem Written.emit (hwritten : Written logger events entries) (event : Event) :
    Written (logger.emit event) (events ++ [event])
      (entries ++ [(event.stamped (logger.sequence + 1)).redact]) where
  text := by
    have htext := hwritten.text
    simp only [EventLogger.emit, Option.getD_some, String.toList_append, htext, unlines, List.map_append,
      List.flatMap_append, List.map_cons, List.map_nil, List.flatMap_cons, List.flatMap_nil,
      List.append_nil, List.append_assoc]
    rfl
  started hnone := by cases hnone
  emitted := List.rel_append hwritten.emitted (.cons ⟨_, rfl⟩ .nil)
  counted hunseparated := by
    obtain ⟨hentries, hsequence⟩ :=
      hwritten.counted fun entry hentry => hunseparated entry (List.mem_append_left _ hentry)
    rw [numbered_append, hentries, hsequence, List.length_append]
    exact ⟨rfl, congrArg (· + 1) hsequence⟩

theorem Written.restart (hwritten : Written logger events entries)
    (hvalid : ∀ event ∈ events, event.Valid) : Written (create logger.text) events entries where
  text := hwritten.text
  started := hwritten.started
  emitted := hwritten.emitted
  counted hunseparated := by
    obtain ⟨hentries, -⟩ := hwritten.counted hunseparated
    refine ⟨hentries, ?_⟩
    have htext := hwritten.text
    change lastSequence logger.text = events.length
    cases hfile : logger.text with
    | none =>
        have hnone := hwritten.started hfile
        have hlength := hwritten.emitted.length_eq
        rw [hnone] at hlength
        exact hlength.symm
    | some text =>
        rw [hfile, Option.getD_some, hentries] at htext
        rw [hentries] at hunseparated
        exact lastSequence_numbered hvalid htext hunseparated

/-- A run adds an entry for each event that is emitted. -/
theorem written_after (uses : List Use) (hwritten : Written logger events entries)
    (hvalid : ∀ event ∈ events ++ emitted uses, event.Valid) :
    ∃ later, Written (Run.after EventLogger.step logger uses) (events ++ emitted uses) later := by
  induction uses generalizing logger events entries with
  | nil => exact ⟨entries, by rw [emitted, List.filterMap_nil, List.append_nil]; exact hwritten⟩
  | cons use rest ih =>
      cases use with
      | emit event =>
          have hevents : events ++ emitted (.emit event :: rest) = (events ++ [event]) ++ emitted rest := by
            rw [List.append_assoc]
            rfl
          rw [hevents] at hvalid ⊢
          exact ih (hwritten.emit event) hvalid
      | restart =>
          exact ih (hwritten.restart fun event hevent => hvalid event (List.mem_append_left _ hevent))
            hvalid

/-- The events that a logger starts with, and those that it emits. -/
theorem written_create (uses : List Use) (hvalid : ∀ event ∈ emitted uses, event.Valid) :
    ∃ entries, Written (Run.after EventLogger.step (create none) uses) (emitted uses) entries := by
  have hstart : Written (create none) [] [] := ⟨rfl, fun _ => rfl, .nil, fun _ => ⟨rfl, rfl⟩⟩
  obtain ⟨entries, hwritten⟩ := written_after uses hstart hvalid
  exact ⟨entries, by rwa [List.nil_append] at hwritten⟩

/-- What was written is read back as it should be where no entry holds a separator. -/
theorem Written.read_iff (hwritten : Written logger events entries) (hvalid : ∀ event ∈ events, event.Valid) :
    logger.read = some (numbered events) ↔ ∀ event ∈ numbered events, event.Unseparated := by
  have hentries := valid_of_entries hwritten.emitted hvalid
  rw [← unseparated_congr hwritten.emitted (numbered_entries _)]
  have hlength : entries.length = (numbered events).length :=
    hwritten.emitted.length_eq.symm.trans (numbered_entries _).length_eq
  have htext := hwritten.text
  cases hfile : logger.text with
  | none =>
      have hnone := hwritten.started hfile
      rw [hnone] at hlength ⊢
      unfold read
      rw [hfile, List.eq_nil_of_length_eq_zero hlength.symm]
      exact ⟨fun _ _ hmem => absurd hmem List.not_mem_nil, fun _ => rfl⟩
  | some text =>
      rw [hfile, Option.getD_some] at htext
      unfold read
      rw [hfile]
      dsimp only
      constructor
      · intro hread entry hentry
        have hlines := (Sequence.forall₂_of_mapM_some hread).length_eq
        rw [← hlength] at hlines
        refine (Event.unbroken_iff (hentries entry hentry).normal).mpr ?_
        exact unbroken_of_length (isRecord_of_valid hentries) htext (by rw [hlines, List.length_map])
          _ (List.mem_map_of_mem hentry)
      · intro hunseparated
        rw [logLines_entries hentries htext hunseparated, mapM_readJson hentries,
          (hwritten.counted hunseparated).1]

/-- A trace is read as its events, redacted and numbered from one in the order in which they were emitted,
if and only if no name and no text of theirs holds a separator. -/
theorem trace_read_iff (uses : List Use) (hvalid : ∀ event ∈ emitted uses, event.Valid) :
    (Run.after EventLogger.step (create none) uses).read = some (numbered (emitted uses))
      ↔ ∀ event ∈ numbered (emitted uses), event.Unseparated := by
  obtain ⟨entries, hwritten⟩ := written_create uses hvalid
  exact hwritten.read_iff hvalid

end EventLogger

/-! ### A trace with a restart -/

section Samples

namespace Sample

theorem traceFloat_isFloat (_ : String) : Json.IsFloat "0.0" :=
  Or.inr (Or.inr ⟨['0'], ['.', '0'], [], ⟨rfl, rfl, rfl, Or.inl (by decide)⟩, rfl⟩)

@[reducible] def traceFloat : FloatRepr where
  repr _ := "0.0"
  isFloat := traceFloat_isFloat
  repr_repr _ := rfl

/-- A text is how a moment is written. -/
@[reducible] def traceDefaults : EventDefaults where
  readMoment
    | .str text => some text
    | _ => none
  readMoment_written _ _ _ := rfl
  drawId _ := "id"
  now _ := "2024-01-01T00:00:00Z"

/-- A redactor that knows just the name of a password. -/
@[reducible] def tracePassword : Redactor := ⟨id, (· = "password")⟩

def traced (output : String) : Event where
  id := "e"
  type := "tool.finished"
  taskId := "t"
  data := .obj [("output", .str output), ("password", .str "hunter2")]
  timestamp := "2024-01-01T00:00:00Z"

end Sample

local instance traceLogFloat : FloatRepr := Sample.traceFloat
local instance traceLogDefaults : EventDefaults := Sample.traceDefaults
local instance traceLogInputs : InputModels := Sample.inputModels
local instance traceLogRedactor : Redactor := Sample.tracePassword

open EventLogger

theorem Sample.traced_valid (output : String) : (Sample.traced output).Valid :=
  ⟨⟨⟨trivial, trivial, trivial⟩, List.pairwise_pair.mpr (show "output" < "password" by decide)⟩,
    ⟨_, rfl⟩, rfl⟩

theorem trace_read_restarted :
    (Run.after EventLogger.step (create none) [.emit (Sample.traced "a"), .restart, .emit (Sample.traced "b\n")]).read
      = some (numbered [Sample.traced "a", Sample.traced "b\n"]) := by
  refine (trace_read_iff _ fun event hevent => ?_).mpr (by decide +kernel)
  have hmem : event ∈ [Sample.traced "a", Sample.traced "b\n"] := hevent
  rw [List.mem_cons, List.mem_singleton] at hmem
  rcases hmem with rfl | rfl
  · exact Sample.traced_valid "a"
  · exact Sample.traced_valid "b\n"

/-- A line separator in the output of a tool splits its record. -/
theorem trace_split_at_separator :
    (Run.after EventLogger.step (create none) [.emit (Sample.traced "a\u2028b")]).read
      ≠ some (numbered [Sample.traced "a\u2028b"]) := by
  have hvalid : ∀ event ∈ [Sample.traced "a\u2028b"], event.Valid :=
    List.forall_mem_singleton.mpr (Sample.traced_valid _)
  obtain ⟨entries, hwritten⟩ := written_create [.emit (Sample.traced "a\u2028b")] hvalid
  have hsplit : ¬ ∀ event ∈ numbered [Sample.traced "a\u2028b"], event.Unseparated := by decide +kernel
  exact fun hread => hsplit ((hwritten.read_iff hvalid).mp hread)

end Samples

end PatchLoop
