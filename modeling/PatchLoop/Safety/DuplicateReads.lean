import PatchLoop.Lib.Run
import PatchLoop.Memory.Working
import PatchLoop.Redaction
import PatchLoop.Safety.EpochRollover

/-!
# Reads that are skipped

A read is answered without reading where the same call was made before. The file is the one that was read
in every run, exactly where each call that changes a file which was read is a write that names the path as
the read did.
-/

namespace PatchLoop

/-- The tools that can change a file. -/
def changingTools : List String :=
  ["create_file", "write_file", "replace_text", "apply_patch", "run_command", "run_tests"]

theorem ToolCall.rawPath_eq {call other : ToolCall} (harguments : call.arguments = other.arguments) :
    call.rawPath = other.rawPath := by
  rw [ToolCall.rawPath, ToolCall.rawPath, harguments]

section Memory

variable [Sha256]

theorem WorkingMemoryManager.hasReadCall_iff {manager : WorkingMemoryManager} {call : ToolCall} :
    manager.hasReadCall call = true ↔ call.name = "read_file"
      ∧ ∃ entry ∈ manager.readSignatures.rows, entry.signature = callSignature call := by
  rw [WorkingMemoryManager.hasReadCall, Bool.and_eq_true, decide_eq_true_eq, Option.isSome_iff_exists]
  refine and_congr_right fun _ => ⟨?_, ?_⟩
  · rintro ⟨entry, hget⟩
    exact ⟨entry, Table.mem_of_get? hget, Table.key_of_get? hget⟩
  · rintro ⟨entry, hmem, hsignature⟩
    have hget : manager.readSignatures.get? entry.signature = some entry := Table.get?_of_mem hmem
    rw [hsignature] at hget
    exact ⟨entry, hget⟩

variable [Redactor]

/-- What is known after a call was known before and is not forgotten, or is what the call has read. -/
theorem WorkingMemoryManager.mem_observeTool {manager : WorkingMemoryManager} {call : ToolCall}
    {result : ToolResult} {entry : ReadSignature}
    (hmem : entry ∈ (manager.observeTool call result).readSignatures.rows) :
    (entry ∈ manager.readSignatures.rows
        ∧ (call.name ∈ forgettingTools → result.success = true → ∀ rawPath,
          call.rawPath = some rawPath → Redactor.redactText rawPath ≠ entry.path)
        ∧ (call.name = "read_file" → result.success = true → ∀ rawPath,
          call.rawPath = some rawPath → entry.signature ≠ callSignature call))
      ∨ (call.name = "read_file" ∧ result.success = true ∧ ∃ rawPath, call.rawPath = some rawPath
        ∧ entry = { signature := callSignature call, path := Redactor.redactText rawPath }) := by
  unfold observeTool at hmem
  cases hpath : call.rawPath with
  | none =>
      rw [hpath] at hmem
      refine Or.inl ⟨hmem, ?_, ?_⟩
      · exact fun _ _ rawPath hraw => by cases hraw
      · exact fun _ _ rawPath hraw => by cases hraw
  | some rawPath =>
      rw [hpath] at hmem
      dsimp only at hmem
      -- What is left of what was known.
      set known := if call.name ∈ forgettingTools && result.success then
          manager.readSignatures.filter (·.path ≠ Redactor.redactText rawPath)
        else manager.readSignatures with hknown
      have hleft : ∀ other ∈ known.rows, other ∈ manager.readSignatures.rows
          ∧ (call.name ∈ forgettingTools → result.success = true →
            Redactor.redactText rawPath ≠ other.path) := by
        intro other hother
        rw [hknown] at hother
        split at hother
        · obtain ⟨hold, hne⟩ := Table.mem_filter.mp hother
          exact ⟨hold, fun _ _ => Ne.symm (of_decide_eq_true hne)⟩
        · rename_i hnot
          refine ⟨hother, fun hname hok => absurd ?_ hnot⟩
          rw [Bool.and_eq_true, decide_eq_true_eq]
          exact ⟨hname, hok⟩
      split at hmem
      · rename_i hread
        rw [Bool.and_eq_true, decide_eq_true_eq] at hread
        have hrow := Table.mem_last hmem
        by_cases hsignature : entry.signature = callSignature call
        · refine Or.inr ⟨hread.1, hread.2, rawPath, rfl, ?_⟩
          have hget := Table.get?_of_mem hrow
          rw [Table.get?_upsert] at hget
          have hkey : Keyed.key entry = Keyed.key
              ({ signature := callSignature call, path := Redactor.redactText rawPath } : ReadSignature) :=
            hsignature
          rw [if_pos hkey] at hget
          exact (Option.some.inj hget).symm
        · rcases Table.mem_upsert hrow with rfl | hold
          · exact absurd rfl hsignature
          · obtain ⟨hmemOld, hforgotten⟩ := hleft entry hold
            refine Or.inl ⟨hmemOld, fun hname hok path hraw => ?_, fun _ _ _ _ => hsignature⟩
            rw [← Option.some.inj hraw]
            exact hforgotten hname hok
      · rename_i hread
        obtain ⟨hmemOld, hforgotten⟩ := hleft entry hmem
        refine Or.inl ⟨hmemOld, fun hname hok path hraw => ?_, fun hname hok _ _ => absurd ?_ hread⟩
        · rw [← Option.some.inj hraw]
          exact hforgotten hname hok
        · rw [Bool.and_eq_true, decide_eq_true_eq]
          exact ⟨hname, hok⟩

/-- What is known stays after a call that is no read, unless it is forgotten. -/
theorem WorkingMemoryManager.mem_observeTool_of_kept {manager : WorkingMemoryManager} {call : ToolCall}
    {result : ToolResult} {entry : ReadSignature} (hmem : entry ∈ manager.readSignatures.rows)
    (hread : call.name ≠ "read_file")
    (hkept : call.name ∈ forgettingTools → ∀ rawPath, call.rawPath = some rawPath →
      Redactor.redactText rawPath ≠ entry.path) :
    entry ∈ (manager.observeTool call result).readSignatures.rows := by
  unfold observeTool
  cases hpath : call.rawPath with
  | none => exact hmem
  | some rawPath =>
      dsimp only
      rw [if_neg (by simp [hread])]
      dsimp only
      split
      · rename_i hforget
        rw [Bool.and_eq_true, decide_eq_true_eq] at hforget
        refine Table.mem_filter.mpr ⟨hmem, decide_eq_true (Ne.symm ?_)⟩
        exact hkept hforget.1 rawPath hpath
      · exact hmem

end Memory

section Reads

variable {World : Type}

/-- A call, what its execution gives and the files after it. A call that was answered before, that is
blocked or that may not be executed has its result before the runtime looks for an earlier read. -/
structure ToolInput (World : Type) where
  call : ToolCall
  result : ToolResult
  world : World
  settled : Bool := false

/-- A call as it was answered, and the files before and after. -/
structure Answer (World : Type) where
  call : ToolCall
  result : ToolResult
  skipped : Bool
  before : World
  after : World

/-- The runtime of a task: what it has read, the files, and the answers so far. -/
structure ReadingTask (World : Type) where
  memory : WorkingMemoryManager := {}
  world : World
  answers : List (Answer World) := []

/-- What a read is answered that was made before. -/
def skippedRead (call : ToolCall) : ToolResult :=
  let path := call.rawPath.getD "the requested path"
  { callId := call.id
    toolName := call.name
    success := true
    output := s!"Skipped duplicate read of unchanged file {path}. "
      ++ "Use the earlier observation in memory and continue the active plan." }

/-- A read that was executed, by a call with these arguments. -/
def Answer.Reads (answer : Answer World) (call : ToolCall) : Prop :=
  answer.call.name = "read_file" ∧ answer.call.arguments = call.arguments
    ∧ answer.result.success = true ∧ answer.skipped = false

/-- A call that succeeds and changes the content of the file that a path leads to. -/
def Answer.Changes {Content : Type} (contentAt : World → String → Content) (answer : Answer World)
    (path : String) : Prop :=
  answer.result.success = true ∧ answer.call.name ∈ changingTools
    ∧ contentAt answer.before path ≠ contentAt answer.after path

namespace ReadingTask

variable [Sha256]

/-- How `_execute_or_replay` answers a call. -/
def answer (task : ReadingTask World) (input : ToolInput World) : Answer World :=
  if !input.settled && task.memory.hasReadCall input.call then
    { call := input.call, result := skippedRead input.call, skipped := true,
      before := task.world, after := task.world }
  else
    { call := input.call, result := input.result, skipped := false,
      before := task.world, after := input.world }

variable [Redactor]

/-- A call is answered, and the memory observes its result. -/
def step (task : ReadingTask World) (input : ToolInput World) : ReadingTask World :=
  let answer := task.answer input
  { memory := task.memory.observeTool input.call answer.result
    world := answer.after
    answers := task.answers ++ [answer] }

variable {Content : Type} (contentAt : World → String → Content)

/-- A call that would be skipped was executed before, and since it was executed last nothing has changed
the file. -/
def SkipsSoundly (task : ReadingTask World) (call : ToolCall) : Prop :=
  task.memory.hasReadCall call = true →
    ∃ earlier read later path, task.answers = earlier ++ read :: later ∧ read.Reads call
      ∧ call.rawPath = some path
      ∧ ∀ answer ∈ later, ¬ answer.Reads call ∧ ¬ answer.Changes contentAt path

/-- Where the call changes a file that a call was made to read, it is a write that names the path as that
call does. -/
def Notices (calls : Set ToolCall) (task : ReadingTask World) (input : ToolInput World) : Prop :=
  ∀ call ∈ calls, task.memory.hasReadCall call = true → ∀ path, call.rawPath = some path →
    input.result.success = true → input.call.name ∈ changingTools →
    contentAt task.world path ≠ contentAt input.world path →
      input.call.name ∈ WorkingMemoryManager.forgettingTools
        ∧ ∃ rawPath, input.call.rawPath = some rawPath
          ∧ Redactor.redactText rawPath = Redactor.redactText path

/-- Every signature is that of a read, and since it was executed last nothing has changed the file. -/
def Tracks (calls : Set ToolCall) (task : ReadingTask World) : Prop :=
  ∀ entry ∈ task.memory.readSignatures.rows, ∃ earlier read later path,
    task.answers = earlier ++ read :: later ∧ read.call ∈ calls ∧ read.Reads read.call
      ∧ read.call.rawPath = some path ∧ callSignature read.call = entry.signature
      ∧ Redactor.redactText path = entry.path
      ∧ ∀ answer ∈ later, ¬ answer.Reads read.call ∧ ¬ answer.Changes contentAt path

/-- The path of a signature is that of a call which has it. -/
def Entered (calls : Set ToolCall) (task : ReadingTask World) : Prop :=
  ∀ entry ∈ task.memory.readSignatures.rows, ∃ call ∈ calls, ∃ path,
    callSignature call = entry.signature ∧ call.rawPath = some path
      ∧ Redactor.redactText path = entry.path

variable {contentAt} {calls : Set ToolCall} {task : ReadingTask World} {input : ToolInput World}

theorem Entered.step (hentered : task.Entered calls) (hinput : input.call ∈ calls) :
    (task.step input).Entered calls := by
  intro entry hentry
  rcases WorkingMemoryManager.mem_observeTool hentry with ⟨hold, -, -⟩ | ⟨-, -, rawPath, hpath, rfl⟩
  · exact hentered entry hold
  · exact ⟨input.call, hinput, rawPath, rfl, hpath, rfl⟩

omit [Redactor] in
theorem answer_call : (task.answer input).call = input.call := by
  unfold answer
  split <;> rfl

omit [Redactor] in
theorem answer_executed (hread : (!input.settled && task.memory.hasReadCall input.call) = false) :
    task.answer input = {
      call := input.call
      result := input.result
      skipped := false
      before := task.world
      after := input.world } := by
  unfold answer
  rw [hread]
  rfl

omit [Redactor] in
/-- A call that changes a file was not skipped. -/
theorem answer_of_changing (task : ReadingTask World) (hname : input.call.name ∈ changingTools) :
    task.answer input = {
      call := input.call
      result := input.result
      skipped := false
      before := task.world
      after := input.world } := by
  apply answer_executed
  rw [WorkingMemoryManager.hasReadCall, Bool.and_eq_false_iff, Bool.and_eq_false_iff,
    decide_eq_false_iff_not]
  right
  left
  intro hread
  rw [hread] at hname
  exact absurd hname (by decide)

/-- A change that the memory does not notice leaves a signature of the file. -/
theorem SkipsSoundly.notices
    (hdistinct : ∀ call ∈ calls, ∀ other ∈ calls, callSignature call = callSignature other →
      call.arguments = other.arguments) (hentered : task.Entered calls)
    (hsound : ∀ call ∈ calls, (task.step input).SkipsSoundly contentAt call) :
    task.Notices contentAt calls input := by
  intro call hcall hread path hpath hok hname hchanges
  by_contra hnot
  obtain ⟨hreadName, entry, hentry, hsignature⟩ := WorkingMemoryManager.hasReadCall_iff.mp hread
  obtain ⟨other, hother, otherPath, hotherSignature, hotherPath, hsafe⟩ := hentered entry hentry
  have hsame : otherPath = path := by
    have harguments := hdistinct other hother call hcall (hotherSignature.trans hsignature)
    rw [ToolCall.rawPath_eq harguments, hpath] at hotherPath
    exact (Option.some.inj hotherPath).symm
  subst hsame
  have hanswer := answer_of_changing task hname
  have hnoRead : input.call.name ≠ "read_file" := by
    intro hinput
    rw [hinput] at hname
    exact absurd hname (by decide)
  have hstill : (task.step input).memory.hasReadCall call = true := by
    refine WorkingMemoryManager.hasReadCall_iff.mpr ⟨hreadName, entry, ?_, hsignature⟩
    refine WorkingMemoryManager.mem_observeTool_of_kept hentry hnoRead fun hforget rawPath hraw heq => ?_
    exact hnot ⟨hforget, rawPath, hraw, heq.trans hsafe.symm⟩
  obtain ⟨earlier, found, later, foundPath, hanswers, hreads, hfoundPath, hlater⟩ :=
    hsound call hcall hstill
  obtain rfl := Option.some.inj (hpath.symm.trans hfoundPath)
  -- The change stands after the read, as it is no read.
  have hlast : task.answers ++ [task.answer input] = earlier ++ found :: later := hanswers
  rcases List.eq_nil_or_concat later with rfl | ⟨rest, last, rfl⟩
  · have hfound := (List.append_inj' hlast rfl).2
    rw [List.cons.injEq] at hfound
    rw [← hfound.1, hanswer] at hreads
    exact hnoRead hreads.1
  · rw [List.concat_eq_append] at hlast hlater
    have hsplit : task.answers ++ [task.answer input] = (earlier ++ found :: rest) ++ [last] := by
      rw [hlast, List.append_assoc, List.cons_append]
    have hend := (List.append_inj' hsplit rfl).2
    rw [List.cons.injEq] at hend
    refine (hlater last (List.mem_append_right _ List.mem_cons_self)).2 ?_
    rw [← hend.1, hanswer]
    exact ⟨hok, hname, hchanges⟩

/-- Where changes are noticed, every signature stays that of the file. -/
theorem Tracks.step
    (hdistinct : ∀ call ∈ calls, ∀ other ∈ calls, callSignature call = callSignature other →
      call.arguments = other.arguments)
    (htracks : task.Tracks contentAt calls) (hinput : input.call ∈ calls)
    (hnotices : task.Notices contentAt calls input) :
    (task.step input).Tracks contentAt calls := by
  intro entry hentry
  rcases WorkingMemoryManager.mem_observeTool hentry with
    ⟨hold, hforgotten, hother⟩ | ⟨hname, hok, rawPath, hpath, rfl⟩
  · -- The signature was known: the call is neither that read nor a change of the file.
    obtain ⟨earlier, read, later, path, hanswers, hcall, hreads, hpath, hsignature, hsafe, hlater⟩ :=
      htracks entry hold
    refine ⟨earlier, read, later ++ [task.answer input], path, ?_, hcall, hreads, hpath, hsignature,
      hsafe, ?_⟩
    · change task.answers ++ [task.answer input] = _
      rw [hanswers, List.append_assoc, List.cons_append]
    · intro answer hanswer
      rcases List.mem_append.mp hanswer with hanswer | hanswer
      · exact hlater answer hanswer
      · rw [List.mem_singleton.mp hanswer]
        constructor
        · rintro ⟨hreadName, harguments, hreadOk, -⟩
          rw [answer_call] at hreadName harguments
          refine hother hreadName hreadOk path ?_ ?_
          · rw [ToolCall.rawPath_eq harguments, hpath]
          · rw [← hsignature, callSignature, callSignature, harguments]
        · rintro ⟨hchangeOk, hchangeName, hchanges⟩
          rw [answer_call] at hchangeName
          have hanswerIs := answer_of_changing task hchangeName
          rw [hanswerIs] at hchangeOk hchanges
          have hknown : task.memory.hasReadCall read.call = true :=
            WorkingMemoryManager.hasReadCall_iff.mpr ⟨hreads.1, entry, hold, hsignature.symm⟩
          obtain ⟨hforget, rawPath, hraw, heq⟩ :=
            hnotices read.call hcall hknown path hpath hchangeOk hchangeName hchanges
          have hresult : (task.answer input).result.success = true := by
            rw [hanswerIs]
            exact hchangeOk
          exact hforgotten hforget hresult rawPath hraw (heq.trans hsafe)
  · cases hread : !input.settled && task.memory.hasReadCall input.call with
    | false =>
        refine ⟨task.answers, task.answer input, [], rawPath, rfl, ?_, ?_, ?_, ?_, rfl, ?_⟩
        · rw [answer_call]
          exact hinput
        · refine ⟨?_, rfl, hok, ?_⟩
          · rw [answer_call]
            exact hname
          · rw [answer_executed hread]
        · rw [answer_call]
          exact hpath
        · rw [answer_call]
        · exact fun answer hanswer => by cases hanswer
    | true =>
        -- A skipped read stands for the read that was executed.
        obtain ⟨-, old, hold, hsignature⟩ :=
          WorkingMemoryManager.hasReadCall_iff.mp (Bool.and_eq_true_iff.mp hread).2
        obtain ⟨earlier, found, later, path, hanswers, hcall, hreads, hfoundPath, hfound, -, hlater⟩ :=
          htracks old hold
        have hcallSignature : callSignature found.call = callSignature input.call :=
          hfound.trans hsignature
        have hsame : path = rawPath := by
          have harguments := hdistinct found.call hcall input.call hinput hcallSignature
          rw [ToolCall.rawPath_eq harguments, hpath] at hfoundPath
          exact (Option.some.inj hfoundPath).symm
        subst hsame
        refine ⟨earlier, found, later ++ [task.answer input], path, ?_, hcall, hreads, hfoundPath,
          hcallSignature, rfl, ?_⟩
        · change task.answers ++ [task.answer input] = _
          rw [hanswers, List.append_assoc, List.cons_append]
        · intro answer hanswer
          rcases List.mem_append.mp hanswer with hanswer | hanswer
          · exact hlater answer hanswer
          · rw [List.mem_singleton.mp hanswer]
            constructor
            · rintro ⟨-, -, -, hexecuted⟩
              unfold ReadingTask.answer at hexecuted
              rw [hread] at hexecuted
              cases hexecuted
            · rintro ⟨-, hchanging, -⟩
              rw [answer_call, hname] at hchanging
              exact absurd hchanging (by decide)

theorem Tracks.sound
    (hdistinct : ∀ call ∈ calls, ∀ other ∈ calls, callSignature call = callSignature other →
      call.arguments = other.arguments)
    (htracks : task.Tracks contentAt calls) {call : ToolCall} (hcall : call ∈ calls) :
    task.SkipsSoundly contentAt call := by
  intro hread
  obtain ⟨-, entry, hentry, hsignature⟩ := WorkingMemoryManager.hasReadCall_iff.mp hread
  obtain ⟨earlier, found, later, path, hanswers, hfoundCall, hreads, hpath, hfound, -, hlater⟩ :=
    htracks entry hentry
  have harguments := hdistinct found.call hfoundCall call hcall (hfound.trans hsignature)
  refine ⟨earlier, found, later, path, hanswers, ?_, ?_, ?_⟩
  · exact ⟨hreads.1, harguments, hreads.2.2⟩
  · rw [← ToolCall.rawPath_eq harguments, hpath]
  · intro answer hanswer
    obtain ⟨hnoRead, hnoChange⟩ := hlater answer hanswer
    refine ⟨fun hagain => hnoRead ?_, hnoChange⟩
    exact ⟨hagain.1, hagain.2.1.trans harguments.symm, hagain.2.2⟩

/-- In every run of the calls of a task, over any files: a call is only skipped where nothing has changed
the file since it was read, after each beginning of the run, if and only if every call that changes a file
which a call was made to read is a write that names the path as that call does. -/
theorem skips_soundly_iff (contentAt : World → String → Content) (calls : Set ToolCall)
    (hdistinct : ∀ call ∈ calls, ∀ other ∈ calls, callSignature call = callSignature other →
      call.arguments = other.arguments)
    (world : World) (inputs : List (ToolInput World)) (hinputs : ∀ input ∈ inputs, input.call ∈ calls) :
    (∀ earlier later, inputs = earlier ++ later → ∀ call ∈ calls,
        (Run.after step { world } earlier).SkipsSoundly contentAt call)
      ↔ Run.EveryStep step (Notices contentAt calls) { world } inputs := by
  have hknown : Run.EveryStep step (fun _ input => input.call ∈ calls) { world } inputs :=
    Run.everyStep_of_forall fun input hinput _ => hinputs input hinput
  constructor
  · intro hsound
    refine Run.everyStep_of_splits fun earlier input later hsplit => ?_
    have hentered : (Run.after step { world } earlier).Entered calls := by
      rw [hsplit] at hknown
      refine Run.invariant_after (Entered calls) (fun task input hentered hinput => hentered.step hinput)
        (Run.everyStep_append.mp hknown).1 ?_
      exact fun entry hentry => by cases hentry
    refine SkipsSoundly.notices hdistinct hentered fun call hcall => ?_
    have hnext := hsound (earlier ++ [input]) later (by rw [hsplit, List.append_assoc]; rfl) call hcall
    rwa [Run.after_append] at hnext
  · rintro hnotices earlier later rfl call hcall
    refine Tracks.sound hdistinct ?_ hcall
    refine Run.invariant_after (Tracks contentAt calls)
      (fun task input htracks hstep => htracks.step hdistinct hstep.1 hstep.2)
      ((Run.everyStep_append.mp hknown).1.and (Run.everyStep_append.mp hnotices).1) ?_
    exact fun entry hentry => by cases hentry

end ReadingTask

end Reads

section Samples

open ReadingTask

local instance duplicateReadsDigest : Sha256 := Sample.hexDigest

local instance duplicateReadsAlphabet : Alphabet := ⟨fun _ => false⟩

local instance duplicateReadsRedactor : Redactor := secretRedactor

/-- A workspace of one file, which two paths lead to. -/
def Sample.contentAt (world path : String) : Option String :=
  if path ∈ ["a.py", "./a.py"] then some world else none

def Sample.readCall (id : String) : ToolCall where
  id := id
  name := "read_file"
  arguments := .obj [("path", .str "a.py")]

def Sample.fileRead : ToolInput String where
  call := Sample.readCall "call-1"
  result := { callId := "call-1", toolName := "read_file", success := true, output := "x = 1" }
  world := "x = 1"

def Sample.writeTo (path : String) : ToolInput String where
  call := {
    id := "call-2"
    name := "write_file"
    arguments := .obj [("content", .str "x = 2"), ("path", .str path)] }
  result := { callId := "call-2", toolName := "write_file", success := true }
  world := "x = 2"

/-- A write that names the path as the read did is noticed. -/
theorem skips_soundly_after_write :
    (Run.after ReadingTask.step { world := "x = 1" }
      [Sample.fileRead, Sample.writeTo "a.py"]).SkipsSoundly Sample.contentAt Sample.fileRead.call := by
  have hne : callSignature Sample.fileRead.call ≠ callSignature (Sample.writeTo "a.py").call := by
    decide +kernel
  refine (skips_soundly_iff Sample.contentAt {Sample.fileRead.call, (Sample.writeTo "a.py").call} ?_
    "x = 1" [Sample.fileRead, Sample.writeTo "a.py"] ?_).mpr ⟨?_, ?_, trivial⟩ _ [] rfl
      Sample.fileRead.call (Or.inl rfl)
  · rintro call (rfl | rfl) other (rfl | rfl) hsame
    · rfl
    · exact absurd hsame hne
    · exact absurd hsame.symm hne
    · rfl
  · intro input hinput
    rcases List.mem_pair.mp hinput with rfl | rfl
    · exact Or.inl rfl
    · exact Or.inr rfl
  · intro call _ _ path _ _ hname
    exact absurd hname (by decide)
  · rintro call (rfl | rfl) hread path hpath - - -
    · exact ⟨by decide, "a.py", rfl, congrArg Redactor.redactText (Option.some.inj hpath)⟩
    · exact absurd hread (by decide +kernel)

/-- The same file under another path is changed, and the read of it is skipped. -/
theorem read_skipped_after_change :
    ¬ (Run.after ReadingTask.step { world := "x = 1" }
      [Sample.fileRead, Sample.writeTo "./a.py"]).SkipsSoundly Sample.contentAt
        (Sample.readCall "call-3") := by
  set start : ReadingTask String := { world := "x = 1" } with hstart
  have hwritten : (start.step Sample.fileRead).answer (Sample.writeTo "./a.py") = {
      call := (Sample.writeTo "./a.py").call
      result := (Sample.writeTo "./a.py").result
      skipped := false
      before := "x = 1"
      after := "x = 2" } :=
    answer_of_changing _ (by decide)
  intro hsound
  obtain ⟨earlier, read, later, path, hanswers, hreads, hpath, hlater⟩ := hsound (by decide +kernel)
  obtain rfl : "a.py" = path := Option.some.inj hpath
  change [start.answer Sample.fileRead,
    (start.step Sample.fileRead).answer (Sample.writeTo "./a.py")] = _ at hanswers
  rw [hwritten] at hanswers
  cases earlier with
  | nil =>
      obtain ⟨-, hrest⟩ := List.cons.inj hanswers
      rw [← hrest] at hlater
      exact (hlater _ List.mem_cons_self).2 ⟨rfl, by decide, by decide⟩
  | cons first rest =>
      -- The read is not the first answer, and the second is no read.
      rw [List.cons_append] at hanswers
      obtain ⟨-, hrest⟩ := List.cons.inj hanswers
      have hmem : read ∈ rest ++ read :: later := List.mem_append_right _ List.mem_cons_self
      rw [← hrest, List.mem_singleton] at hmem
      rw [hmem] at hreads
      exact absurd hreads.1 (by decide)

end Samples

end PatchLoop
