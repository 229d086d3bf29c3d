import PatchLoop.Lib.Run
import PatchLoop.Memory.Episodic
import PatchLoop.Redaction
import PatchLoop.Safety.EpochRollover
import PatchLoop.Safety.MemoryCompression

/-!
# Which actions are known to fail

After any tool events, an action that is known to fail did fail, and nothing has recovered it since. The
first failure of an action is known until something recovers it, or too many other actions fail.
-/

namespace PatchLoop

open EpisodicMemoryManager

/-! ### Events -/

namespace ToolEvent

/-- A failure that another try does not mend. -/
def FailsForGood (event : ToolEvent) : Prop :=
  event.result.success = false ∧ event.result.errorKind.any (· ∈ blockableFailures) = true

/-- Whether an event recovers a failure of a call: a verification that succeeds does, and the tool of the
call where it is not that of the plan. -/
def Recovers (event : ToolEvent) (call : ToolCall) : Prop :=
  event.result.success = true ∧ event.call.name ≠ "update_plan"
    ∧ (event.call.name ∈ verificationTools ∨ event.call.name = call.name)

end ToolEvent

section Actions

variable [Redactor]

/-- Calls of one tool whose arguments are the same after redaction. -/
def SameAction (call other : ToolCall) : Prop :=
  call.name = other.name ∧ call.arguments.redact = other.arguments.redact

variable [Sha256]

theorem SameAction.fingerprint {call other : ToolCall} (hsame : SameAction call other) :
    actionFingerprint call = actionFingerprint other := by
  rw [actionFingerprint, actionFingerprint, hsame.1, hsame.2]

/-- The other actions that fail in some events. -/
def otherFailures (call : ToolCall) (events : List ToolEvent) : List String :=
  ((events.filter fun event => !event.result.success).map fun event =>
    actionFingerprint event.call).dedup.filter (· ≠ actionFingerprint call)

theorem mem_otherFailures {call : ToolCall} {events : List ToolEvent} {fingerprint : String} :
    fingerprint ∈ otherFailures call events
      ↔ (∃ event ∈ events, event.result.success = false ∧ actionFingerprint event.call = fingerprint)
        ∧ fingerprint ≠ actionFingerprint call := by
  rw [otherFailures, List.mem_filter, List.mem_dedup, List.mem_map, decide_eq_true_eq]
  refine and_congr_left fun _ => ⟨?_, ?_⟩
  · rintro ⟨event, hmem, hfingerprint⟩
    obtain ⟨hmem, hfailed⟩ := List.mem_filter.mp hmem
    exact ⟨event, hmem, by simpa using hfailed, hfingerprint⟩
  · rintro ⟨event, hmem, hfailed, hfingerprint⟩
    exact ⟨event, List.mem_filter.mpr ⟨hmem, by simp [hfailed]⟩, hfingerprint⟩

end Actions

theorem EpisodeReference.validate_eq_ok {reference valid : EpisodeReference}
    (hok : reference.validate = .ok valid) : valid = reference := by
  unfold EpisodeReference.validate at hok
  simp only [Except.bind_eq_ok_iff, Except.pure_eq_ok_iff] at hok
  obtain ⟨-, -, -, -, -, -, -, -, -, -, -, -, -, -, -, -, -, -, -, -, rfl⟩ := hok
  rfl

namespace EpisodicMemoryManager

/-- An item is among the last ones where fewer stand after it. -/
theorem lastItems_of_lt {α : Type} (earlier : List α) (item : α) {later : List α} {count : Nat}
    (hfew : later.length < count) :
    ∃ kept, lastItems (earlier ++ item :: later) count = kept ++ item :: later := by
  unfold lastItems
  have hdrop : (earlier ++ item :: later).length - count ≤ earlier.length := by
    rw [List.length_append, List.length_cons]
    omega
  exact ⟨_, List.drop_append_of_le_length hdrop⟩

theorem mem_of_mem_lastItems {α : Type} {items : List α} {count : Nat} {item : α}
    (hmem : item ∈ lastItems items count) : item ∈ items :=
  List.mem_of_mem_drop hmem

theorem applyReference_taskId (manager : EpisodicMemoryManager) (reference : EpisodeReference)
    (callId : Option String) : (manager.applyReference reference callId).taskId = manager.taskId := rfl

theorem mem_recoveryIds {manager : EpisodicMemoryManager} {event : ToolEvent} {id : String} :
    id ∈ manager.recoveryIds event.call event.result
      ↔ ∃ failure ∈ manager.unresolvedFailures, failure.id = id ∧ event.result.success = true
        ∧ event.call.name ≠ "update_plan"
        ∧ (event.call.name ∈ verificationTools ∨ event.call.name = failure.toolName) := by
  unfold recoveryIds
  by_cases hnone : event.result.success = false ∨ event.call.name = "update_plan"
  · rw [if_pos (by simpa using hnone)]
    constructor
    · exact fun hmem => by cases hmem
    · rintro ⟨failure, -, -, hok, hplan, -⟩
      rcases hnone with hfailed | hname
      · rw [hfailed] at hok
        cases hok
      · exact absurd hname hplan
  · rw [if_neg (by simpa using hnone)]
    rw [not_or, Bool.not_eq_false] at hnone
    by_cases hverification : event.call.name ∈ verificationTools
    · rw [if_pos hverification, List.mem_map]
      constructor
      · exact fun ⟨failure, hmem, hid⟩ =>
          ⟨failure, hmem, hid, hnone.1, hnone.2, Or.inl hverification⟩
      · exact fun ⟨failure, hmem, hid, _⟩ => ⟨failure, hmem, hid⟩
    · rw [if_neg hverification, List.mem_map]
      constructor
      · rintro ⟨failure, hmem, hid⟩
        obtain ⟨hmem, hname⟩ := List.mem_filter.mp hmem
        exact ⟨failure, hmem, hid, hnone.1, hnone.2, Or.inr (of_decide_eq_true hname).symm⟩
      · rintro ⟨failure, hmem, hid, -, -, hname⟩
        refine ⟨failure, List.mem_filter.mpr ⟨hmem, ?_⟩, hid⟩
        exact decide_eq_true (hname.resolve_left hverification).symm

section Steps

variable [Redactor] [Sha256]

/-- The manager after an event: one that is not recorded, or raises, leaves it. -/
def step (manager : EpisodicMemoryManager) (event : ToolEvent) : EpisodicMemoryManager :=
  match manager.observeTool event with
  | .ok (some (next, _)) => next
  | _ => manager

/-- Whether an event is recorded. -/
def Records (manager : EpisodicMemoryManager) (event : ToolEvent) : Prop :=
  ∃ written, manager.observeTool event = .ok (some written)

/-- The events that are recorded, of those that are observed. -/
def recorded (manager : EpisodicMemoryManager) : List ToolEvent → List ToolEvent
  | [] => []
  | event :: rest =>
      match manager.observeTool event with
      | .ok (some (next, _)) => event :: next.recorded rest
      | _ => manager.recorded rest

theorem step_of_records {manager : EpisodicMemoryManager} {event : ToolEvent}
    (hrecords : manager.Records event) :
    manager.step event = manager.applyReference (manager.referenceOf event) (some event.call.id) := by
  obtain ⟨⟨next, reference⟩, hok⟩ := hrecords
  unfold step
  rw [hok]
  unfold observeTool at hok
  split at hok
  · cases hok
  · obtain ⟨valid, hvalid, hok⟩ := Except.bind_eq_ok_iff.mp hok
    obtain rfl := EpisodeReference.validate_eq_ok hvalid
    have heq := Option.some.inj (Except.pure_eq_ok_iff.mp hok)
    exact (congrArg Prod.fst heq).symm

theorem step_of_not_records {manager : EpisodicMemoryManager} {event : ToolEvent}
    (hnot : ¬ manager.Records event) : manager.step event = manager := by
  unfold step
  split
  · rename_i written _ hok
    exact absurd ⟨_, hok⟩ hnot
  · rfl

theorem recorded_cons (manager : EpisodicMemoryManager) (event : ToolEvent) (rest : List ToolEvent)
    [Decidable (manager.Records event)] :
    manager.recorded (event :: rest)
      = if manager.Records event then event :: (manager.step event).recorded rest
        else manager.recorded rest := by
  rw [recorded]
  unfold step
  split
  · rename_i next reference hok
    rw [if_pos ⟨_, hok⟩]
  · rename_i hnone
    rw [if_neg]
    rintro ⟨⟨next, reference⟩, hok⟩
    exact hnone next reference hok

/-- What is not recorded changes nothing, so that a run is one of the events that are. -/
theorem recorded_spec (manager : EpisodicMemoryManager) (events : List ToolEvent) :
    Run.after step manager events = Run.after step manager (manager.recorded events)
      ∧ Run.EveryStep step Records manager (manager.recorded events) := by
  classical
  induction events generalizing manager with
  | nil => exact ⟨rfl, trivial⟩
  | cons event rest ih =>
      rw [recorded_cons, Run.after_cons]
      by_cases hrecords : manager.Records event
      · rw [if_pos hrecords, Run.after_cons]
        obtain ⟨hafter, hevery⟩ := ih (manager.step event)
        exact ⟨hafter, hrecords, hevery⟩
      · rw [if_neg hrecords, step_of_not_records hrecords]
        exact ih manager

theorem step_taskId {manager : EpisodicMemoryManager} {event : ToolEvent}
    (hrecords : manager.Records event) : (manager.step event).taskId = manager.taskId := by
  rw [step_of_records hrecords, applyReference_taskId]

/-- A failure is added, unless its action is there. -/
theorem unresolved_failed {manager : EpisodicMemoryManager} {event : ToolEvent}
    (hrecords : manager.Records event) (hfailed : event.result.success = false) :
    (manager.step event).unresolvedFailures
      = if manager.unresolvedFailures.any
          (·.actionFingerprint = actionFingerprint event.call) then manager.unresolvedFailures
        else lastItems (manager.unresolvedFailures ++ [manager.referenceOf event]) 128 := by
  have hrecovers : (manager.referenceOf event).recoversEpisodeIds = [] := by
    simp [referenceOf, recoveryIds, hfailed]
  have houtcome : (manager.referenceOf event).outcome = .failed := by
    simp [referenceOf, outcomeOf, hfailed]
  have hfingerprint : (manager.referenceOf event).actionFingerprint = actionFingerprint event.call :=
    rfl
  rw [step_of_records hrecords, applyReference, unresolvedAfter, hrecovers, houtcome, hfingerprint]
  simp only [ne_eq, not_true_eq_false, if_false, true_and, ite_not]

/-- A success takes away what it recovers. -/
theorem unresolved_succeeded {manager : EpisodicMemoryManager} {event : ToolEvent}
    (hrecords : manager.Records event) (hok : event.result.success = true) :
    (manager.step event).unresolvedFailures = manager.unresolvedFailures.filter
      (·.id ∉ manager.recoveryIds event.call event.result) := by
  have houtcome : (manager.referenceOf event).outcome ≠ .failed := by
    have hsome : ∀ recovered, outcomeOf event.call event.result recovered ≠ .failed := by
      intro recovered
      unfold outcomeOf
      rw [hok]
      simp only [Bool.not_true, Bool.false_eq_true, if_false]
      split
      · exact fun heq => by cases heq
      · split
        · exact fun heq => by cases heq
        · split <;> exact fun heq => by cases heq
    exact hsome _
  have hrecovers : (manager.referenceOf event).recoversEpisodeIds
      = manager.recoveryIds event.call event.result := rfl
  rw [step_of_records hrecords, applyReference, unresolvedAfter, hrecovers]
  simp only [houtcome, false_and, if_false]
  split
  · rfl
  · rename_i hnone
    rw [not_not] at hnone
    rw [hnone]
    exact (List.filter_eq_self.mpr fun failure _ => by simp).symm

/-! ### What is unresolved -/

/-- The failure that is made of an event. -/
structure MadeOf (taskId : String) (event : ToolEvent) (failure : EpisodeReference) : Prop where
  id : failure.id = stableId "episode" [taskId, event.call.id]
  toolName : failure.toolName = event.call.name
  fingerprint : failure.actionFingerprint = actionFingerprint event.call
  errorKind : failure.errorKind = event.result.errorKind
  failed : event.result.success = false

theorem madeOf_reference (manager : EpisodicMemoryManager) {event : ToolEvent}
    (hfailed : event.result.success = false) :
    MadeOf manager.taskId event (manager.referenceOf event) where
  id := rfl
  toolName := rfl
  fingerprint := rfl
  errorKind := by simp [referenceOf, hfailed]
  failed := hfailed

/-- Every unresolved failure is that of an event that nothing has recovered since. -/
def Outstanding (manager : EpisodicMemoryManager) (history : List ToolEvent) : Prop :=
  ∀ failure ∈ manager.unresolvedFailures, ∃ before event after,
    history = before ++ event :: after ∧ MadeOf manager.taskId event failure
      ∧ ∀ later ∈ after, ¬ later.Recovers event.call

theorem Outstanding.next {manager : EpisodicMemoryManager} {history : List ToolEvent}
    (houtstanding : manager.Outstanding history) {event : ToolEvent}
    (hrecords : manager.Records event) :
    (manager.step event).Outstanding (history ++ [event]) := by
  -- A failure that was there stays outstanding unless the event recovers it.
  have hkept : ∀ failure ∈ manager.unresolvedFailures,
      (event.result.success = true → failure.id ∉ manager.recoveryIds event.call event.result) →
        ∃ before failed after, history ++ [event] = before ++ failed :: after
          ∧ MadeOf manager.taskId failed failure ∧ ∀ later ∈ after, ¬ later.Recovers failed.call := by
    intro failure hfailure hstays
    obtain ⟨before, failed, after, hhistory, hmade, hnone⟩ := houtstanding failure hfailure
    refine ⟨before, failed, after ++ [event], ?_, hmade, ?_⟩
    · rw [hhistory, List.append_assoc, List.cons_append]
    · intro later hlater
      rcases List.mem_append.mp hlater with hlater | hlater
      · exact hnone later hlater
      · rw [List.mem_singleton.mp hlater]
        rintro ⟨hok, hplan, hname⟩
        refine hstays hok (mem_recoveryIds.mpr ⟨failure, hfailure, rfl, hok, hplan, ?_⟩)
        rw [hmade.toolName]
        exact hname
  intro failure hfailure
  rw [step_taskId hrecords]
  cases hresult : event.result.success with
  | false =>
      rw [unresolved_failed hrecords hresult] at hfailure
      have hstays : event.result.success = true →
          failure.id ∉ manager.recoveryIds event.call event.result := by
        rw [hresult]
        exact fun hok => by cases hok
      split at hfailure
      · exact hkept failure hfailure hstays
      · rcases List.mem_append.mp (mem_of_mem_lastItems hfailure) with hold | hnew
        · exact hkept failure hold hstays
        · rw [List.mem_singleton.mp hnew]
          refine ⟨history, event, [], rfl, madeOf_reference manager hresult, ?_⟩
          exact fun later hlater => by cases hlater
  | true =>
      rw [unresolved_succeeded hrecords hresult] at hfailure
      obtain ⟨hmem, hstays⟩ := List.mem_filter.mp hfailure
      exact hkept failure hmem fun _ => of_decide_eq_true hstays

theorem Outstanding.run {manager : EpisodicMemoryManager} {history events : List ToolEvent}
    (houtstanding : manager.Outstanding history) (hrun : Run.EveryStep step Records manager events) :
    (Run.after step manager events).Outstanding (history ++ events) := by
  induction events generalizing manager history with
  | nil => rwa [List.append_nil]
  | cons event rest ih =>
      have hnext := ih (houtstanding.next hrun.1) hrun.2
      rwa [List.append_assoc, List.singleton_append] at hnext

/-- The failure of an event is unresolved, and those that came after it are of other actions. -/
def Keeps (manager : EpisodicMemoryManager) (event : ToolEvent) (after : List ToolEvent) : Prop :=
  ∃ earlier failure later, manager.unresolvedFailures = earlier ++ failure :: later
    ∧ MadeOf manager.taskId event failure ∧ (later.map EpisodeReference.actionFingerprint).Nodup
    ∧ ∀ other ∈ later, other.actionFingerprint ∈ otherFailures event.call after

/-- The first failure of an action is added. -/
theorem keeps_first {manager : EpisodicMemoryManager} {event : ToolEvent}
    (hrecords : manager.Records event) (hfailed : event.result.success = false)
    (hnew : ∀ failure ∈ manager.unresolvedFailures,
      failure.actionFingerprint ≠ actionFingerprint event.call) :
    (manager.step event).Keeps event [] := by
  have hnone : ¬ manager.unresolvedFailures.any
      (·.actionFingerprint = actionFingerprint event.call) = true := by
    simpa [List.any_eq_true] using hnew
  have hroom : ([] : List EpisodeReference).length < 128 := by decide
  obtain ⟨kept, hkept⟩ := lastItems_of_lt manager.unresolvedFailures (manager.referenceOf event) hroom
  refine ⟨kept, manager.referenceOf event, [], ?_, ?_, List.nodup_nil, ?_⟩
  · rw [unresolved_failed hrecords hfailed, if_neg hnone, hkept]
  · rw [step_taskId hrecords]
    exact madeOf_reference manager hfailed
  · exact fun other hother => by cases hother

/-- The ids of the episodes of the events are distinct. -/
def DistinctIds (taskId : String) (history : List ToolEvent) : Prop :=
  (history.map fun event => stableId "episode" [taskId, event.call.id]).Nodup

theorem Keeps.next {manager : EpisodicMemoryManager} {before after : List ToolEvent}
    {event next : ToolEvent} (hkeeps : manager.Keeps event after)
    (houtstanding : manager.Outstanding (before ++ event :: after))
    (hids : DistinctIds manager.taskId (before ++ event :: after))
    (hrecords : manager.Records next) (hopen : ¬ next.Recovers event.call)
    (hfew : (otherFailures event.call (after ++ [next])).length < 128) :
    (manager.step next).Keeps event (after ++ [next]) := by
  obtain ⟨earlier, failure, later, hfailures, hmade, hnodup, hothers⟩ := hkeeps
  have hgrown : ∀ other ∈ later, other.actionFingerprint
      ∈ otherFailures event.call (after ++ [next]) := by
    intro other hother
    obtain ⟨⟨found, hfound, hrest⟩, hne⟩ := mem_otherFailures.mp (hothers other hother)
    exact mem_otherFailures.mpr ⟨⟨found, List.mem_append_left _ hfound, hrest⟩, hne⟩
  have hmem : failure ∈ manager.unresolvedFailures := by
    rw [hfailures]
    exact List.mem_append_right _ List.mem_cons_self
  unfold Keeps
  rw [step_taskId hrecords]
  cases hresult : next.result.success with
  | false =>
      rw [unresolved_failed hrecords hresult]
      split
      · exact ⟨earlier, failure, later, hfailures, hmade, hnodup, hgrown⟩
      · rename_i hnew
        have hfresh : ∀ other ∈ manager.unresolvedFailures,
            other.actionFingerprint ≠ actionFingerprint next.call := by
          simpa [List.any_eq_true] using hnew
        have hothersNext : ∀ other ∈ later ++ [manager.referenceOf next],
            other.actionFingerprint ∈ otherFailures event.call (after ++ [next]) := by
          intro other hother
          rcases List.mem_append.mp hother with hother | hother
          · exact hgrown other hother
          · rw [List.mem_singleton.mp hother]
            refine mem_otherFailures.mpr
              ⟨⟨next, List.mem_append_right _ List.mem_cons_self, hresult, rfl⟩, fun heq => ?_⟩
            exact hfresh failure hmem (hmade.fingerprint.trans heq.symm)
        have hnodupNext : ((later ++ [manager.referenceOf next]).map
            EpisodeReference.actionFingerprint).Nodup := by
          rw [List.map_append, List.map_singleton, List.nodup_append]
          refine ⟨hnodup, List.nodup_singleton _, ?_⟩
          intro fingerprint hfingerprint other hother heq
          obtain ⟨found, hfound, rfl⟩ := List.mem_map.mp hfingerprint
          rw [List.mem_singleton.mp hother] at heq
          refine hfresh found ?_ heq
          rw [hfailures]
          exact List.mem_append_right _ (List.mem_cons_of_mem failure hfound)
        -- There are no more failures after this one than other actions that failed.
        have hlength : (later ++ [manager.referenceOf next]).length < 128 := by
          have hsubset : (later ++ [manager.referenceOf next]).map EpisodeReference.actionFingerprint
              ⊆ otherFailures event.call (after ++ [next]) := by
            intro fingerprint hfingerprint
            obtain ⟨other, hother, rfl⟩ := List.mem_map.mp hfingerprint
            exact hothersNext other hother
          have hle := (List.subperm_of_subset hnodupNext hsubset).length_le
          rw [List.length_map] at hle
          omega
        obtain ⟨kept, hkept⟩ := lastItems_of_lt earlier failure hlength
        refine ⟨kept, failure, later ++ [manager.referenceOf next], ?_, hmade, hnodupNext,
          hothersNext⟩
        rw [hfailures, List.append_assoc, List.cons_append, hkept]
  | true =>
      -- What recovers another failure of the same id recovers this one.
      have hstays : failure.id ∉ manager.recoveryIds next.call next.result := by
        intro hrecovered
        obtain ⟨other, hother, hid, hok, hplan, hname⟩ := mem_recoveryIds.mp hrecovered
        refine hopen ⟨hok, hplan, hname.imp_right fun hname => ?_⟩
        obtain ⟨first, found, rest, hhistory, hmadeOther, -⟩ := houtstanding other hother
        have hsame : found = event := by
          have hfound : found ∈ before ++ event :: after := by
            rw [hhistory]
            exact List.mem_append_right _ List.mem_cons_self
          refine List.inj_on_of_nodup_map hids hfound
            (List.mem_append_right _ List.mem_cons_self) ?_
          exact hmadeOther.id.symm.trans (hid.trans hmade.id)
        rw [hname, hmadeOther.toolName, hsame]
      rw [unresolved_succeeded hrecords hresult, hfailures, List.filter_append, List.filter_cons,
        if_pos (decide_eq_true hstays)]
      refine ⟨_, failure, _, rfl, hmade, ?_, ?_⟩
      · exact hnodup.sublist (List.filter_sublist.map _)
      · exact fun other hother => hgrown other (List.mem_filter.mp hother).1

theorem otherFailures_append (call : ToolCall) (first second : List ToolEvent) :
    (otherFailures call first).length ≤ (otherFailures call (first ++ second)).length := by
  refine (List.subperm_of_subset ((List.nodup_dedup _).filter _) fun fingerprint hmem => ?_).length_le
  obtain ⟨⟨found, hfound, hrest⟩, hne⟩ := mem_otherFailures.mp hmem
  exact mem_otherFailures.mpr ⟨⟨found, List.mem_append_left _ hfound, hrest⟩, hne⟩

theorem Keeps.run {manager : EpisodicMemoryManager} {before after rest : List ToolEvent}
    {event : ToolEvent} (hkeeps : manager.Keeps event after)
    (houtstanding : manager.Outstanding (before ++ event :: after))
    (hids : DistinctIds manager.taskId (before ++ event :: (after ++ rest)))
    (hrun : Run.EveryStep step Records manager rest)
    (hopen : ∀ later ∈ rest, ¬ later.Recovers event.call)
    (hfew : (otherFailures event.call (after ++ rest)).length < 128) :
    (Run.after step manager rest).Keeps event (after ++ rest) := by
  induction rest generalizing manager after with
  | nil => rwa [List.append_nil]
  | cons next rest ih =>
      have happend : after ++ next :: rest = (after ++ [next]) ++ rest := by
        rw [List.append_assoc, List.singleton_append]
      rw [happend] at hids hfew ⊢
      have hsome := otherFailures_append event.call (after ++ [next]) rest
      have hearlier : DistinctIds manager.taskId (before ++ event :: after) := by
        refine hids.sublist (List.Sublist.map _ ?_)
        refine (List.Sublist.cons_cons event ?_).append_left before
        rw [List.append_assoc]
        exact List.sublist_append_left after _
      have hnext := hkeeps.next houtstanding hearlier hrun.1 (hopen next List.mem_cons_self)
        (hsome.trans_lt hfew)
      have hstill := houtstanding.next hrun.1
      rw [List.append_assoc, List.cons_append] at hstill
      refine ih hnext hstill ?_ hrun.2 (fun later hlater => hopen later (List.mem_cons_of_mem _ hlater))
        hfew
      rw [step_taskId hrun.1]
      exact hids

theorem after_taskId {manager : EpisodicMemoryManager} {events : List ToolEvent}
    (hrun : Run.EveryStep step Records manager events) :
    (Run.after step manager events).taskId = manager.taskId := by
  induction events generalizing manager with
  | nil => rfl
  | cons event rest ih => exact (ih hrun.2).trans (step_taskId hrun.1)

end Steps

end EpisodicMemoryManager

section Known

variable [Redactor] [Sha256]

open EpisodicMemoryManager

omit [Sha256] in
theorem recovers_of_sameAction {call other : ToolCall} (hsame : SameAction call other)
    (event : ToolEvent) : event.Recovers call ↔ event.Recovers other := by
  unfold ToolEvent.Recovers
  rw [hsame.1]

/-- After any events, of which some are recorded: an action that is known to fail has failed for good, and
nothing has recovered it since. Conversely it is known, if its first failure since something recovered it
is for good, and fewer than 128 other actions fail after that. -/
theorem known_failed_actions (taskId goal : String) (events : List ToolEvent) (call : ToolCall)
    (hdistinct : ∀ event ∈ EpisodicMemoryManager.recorded { taskId, goal } events,
      actionFingerprint event.call = actionFingerprint call → SameAction event.call call) :
    ((Run.after EpisodicMemoryManager.step { taskId, goal } events).isKnownFailedAction call = true →
        ∃ before event after, EpisodicMemoryManager.recorded { taskId, goal } events
            = before ++ event :: after ∧ event.FailsForGood ∧ SameAction event.call call
          ∧ ∀ later ∈ after, ¬ later.Recovers call)
      ∧ (DistinctIds taskId (EpisodicMemoryManager.recorded { taskId, goal } events) →
        ∀ before event after, EpisodicMemoryManager.recorded { taskId, goal } events
            = before ++ event :: after → event.FailsForGood → SameAction event.call call →
          (∀ later ∈ after, ¬ later.Recovers call) →
          (∀ first failed rest, before = first ++ failed :: rest → failed.result.success = false →
            SameAction failed.call call → ∃ later ∈ rest, later.Recovers call) →
          (otherFailures call after).length < 128 →
          (Run.after EpisodicMemoryManager.step { taskId, goal } events).isKnownFailedAction call = true) := by
  set start : EpisodicMemoryManager := { taskId, goal }
  obtain ⟨hafter, hrun⟩ := recorded_spec start events
  have hempty : start.Outstanding [] := fun failure hfailure => by cases hfailure
  rw [hafter]
  generalize start.recorded events = history at *
  constructor
  · intro hknown
    obtain ⟨failure, hfailure, hmatch⟩ := List.any_eq_true.mp hknown
    rw [Bool.and_eq_true, decide_eq_true_eq] at hmatch
    obtain ⟨before, event, after, hhistory, hmade, hopen⟩ :=
      hempty.run hrun failure hfailure
    rw [List.nil_append] at hhistory
    have hmem : event ∈ history := by
      rw [hhistory]
      exact List.mem_append_right _ List.mem_cons_self
    have hsame := hdistinct event hmem (hmade.fingerprint.symm.trans hmatch.1)
    refine ⟨before, event, after, hhistory, ⟨hmade.failed, ?_⟩, hsame, ?_⟩
    · rw [← hmade.errorKind]
      exact hmatch.2
    · exact fun later hlater hrecovers =>
        hopen later hlater ((recovers_of_sameAction hsame later).mpr hrecovers)
  · rintro hids before event after rfl hfails hsame hopen hfirst hfew
    obtain ⟨hrunBefore, hrecords, hrunAfter⟩ := Run.everyStep_append.mp hrun
    have houtstanding := hempty.run hrunBefore
    rw [List.nil_append] at houtstanding
    -- The action has no unresolved failure before the event.
    have hnew : ∀ failure ∈ (Run.after EpisodicMemoryManager.step start before).unresolvedFailures,
        failure.actionFingerprint ≠ actionFingerprint event.call := by
      intro failure hfailure heq
      obtain ⟨first, failed, rest, hbefore, hmade, hrest⟩ := houtstanding failure hfailure
      have hmem : failed ∈ before ++ event :: after := by
        rw [hbefore]
        exact List.mem_append_left _ (List.mem_append_right _ List.mem_cons_self)
      have hsameFailed := hdistinct failed hmem
        (hmade.fingerprint.symm.trans (heq.trans hsame.fingerprint))
      obtain ⟨later, hlater, hrecovers⟩ := hfirst first failed rest hbefore hmade.failed hsameFailed
      exact hrest later hlater ((recovers_of_sameAction hsameFailed later).mpr hrecovers)
    have hkeeps := keeps_first hrecords hfails.1 hnew
    have htask : ((Run.after EpisodicMemoryManager.step start before).step event).taskId = taskId := by
      rw [step_taskId hrecords, after_taskId hrunBefore]
    have hothers : otherFailures event.call after = otherFailures call after := by
      rw [otherFailures, otherFailures, hsame.fingerprint]
    obtain ⟨earlier, failure, later, hfailures, hmade, -⟩ := hkeeps.run
      (houtstanding.next hrecords) (by rw [htask]; exact hids) hrunAfter
      (fun later hlater hrecovers =>
        hopen later hlater ((recovers_of_sameAction hsame later).mp hrecovers))
      (by rw [List.nil_append, hothers]; exact hfew)
    rw [Run.after_append, Run.after_cons]
    refine List.any_eq_true.mpr ⟨failure, ?_, ?_⟩
    · rw [hfailures]
      exact List.mem_append_right _ List.mem_cons_self
    · rw [Bool.and_eq_true, decide_eq_true_eq, hmade.errorKind]
      exact ⟨hmade.fingerprint.trans hsame.fingerprint, hfails.2⟩

end Known

section Samples

open EpisodicMemoryManager

local instance failedActionsDigest : Sha256 := Sample.hexDigest

local instance failedActionsAlphabet : Alphabet := ⟨fun _ => false⟩

local instance failedActionsRedactor : Redactor := secretRedactor

def Sample.patchCall (id : String) : ToolCall where
  id := id
  name := "apply_patch"
  arguments := .obj [("patch", .str "-x = 1")]

def Sample.patchFails : ToolEvent where
  call := Sample.patchCall "call-1"
  result := {
    callId := "call-1"
    toolName := "apply_patch"
    success := false
    errorKind := some .executionError }

def Sample.fileWritten : ToolEvent where
  call := {
    id := "call-2"
    name := "write_file"
    arguments := .obj [("content", .str "x = 1"), ("path", .str "a.py")] }
  result := { callId := "call-2", toolName := "write_file", success := true }

theorem known_failed_actions_of_patch :
    (Run.after EpisodicMemoryManager.step { taskId := "task", goal := "goal" }
      [Sample.patchFails, Sample.fileWritten]).isKnownFailedAction (Sample.patchCall "call-3")
      = true := by
  have hrecorded : EpisodicMemoryManager.recorded { taskId := "task", goal := "goal" }
      [Sample.patchFails, Sample.fileWritten] = [Sample.patchFails, Sample.fileWritten] := by
    decide +kernel
  have hdistinct : ∀ event ∈ [Sample.patchFails, Sample.fileWritten],
      actionFingerprint event.call = actionFingerprint (Sample.patchCall "call-3") →
        SameAction event.call (Sample.patchCall "call-3") := by
    intro event hevent hsame
    rcases List.mem_pair.mp hevent with rfl | rfl
    · exact ⟨rfl, rfl⟩
    · exact absurd hsame (by decide +kernel)
  refine (known_failed_actions "task" "goal" [Sample.patchFails, Sample.fileWritten]
    (Sample.patchCall "call-3") (by rwa [hrecorded])).2 ?_ [] Sample.patchFails [Sample.fileWritten]
      hrecorded ⟨rfl, by decide⟩ ⟨rfl, rfl⟩ ?_ ?_ (by decide +kernel)
  · rw [hrecorded]
    unfold DistinctIds
    decide +kernel
  · intro later hlater hrecovers
    rw [List.mem_singleton.mp hlater] at hrecovers
    exact absurd hrecovers.2.2 (by decide)
  · intro first failed rest hnone
    cases first <;> cases hnone

/-- A call that fails for its arguments. -/
def Sample.refused (id name : String) (arguments : Json) : ToolEvent where
  call := { id, name, arguments }
  result := {
    callId := id
    toolName := name
    success := false
    errorKind := some .invalidArguments }

def Sample.planUpdated : ToolEvent where
  call := { id := "call-2", name := "update_plan", arguments := .obj [("items", .arr [])] }
  result := { callId := "call-2", toolName := "update_plan", success := true }

/-- A patch that failed is blocked after another tool has changed the workspace, a call is for the failure
of one that has another secret, and a refused plan is after another plan was taken. -/
theorem blocked_beyond_recovery :
    (Run.after EpisodicMemoryManager.step { taskId := "task", goal := "goal" }
        [Sample.patchFails, Sample.fileWritten]).isKnownFailedAction (Sample.patchCall "call-3") = true
      ∧ (Run.after EpisodicMemoryManager.step { taskId := "task", goal := "goal" }
          [Sample.refused "call-1" "connect" (.obj [("password", .str "one")])]).isKnownFailedAction
            { id := "call-2", name := "connect", arguments := .obj [("password", .str "two")] } = true
      ∧ (Run.after EpisodicMemoryManager.step { taskId := "task", goal := "goal" }
          [Sample.refused "call-1" "update_plan" (.obj []), Sample.planUpdated]).isKnownFailedAction
            { id := "call-3", name := "update_plan" } = true := by
  rw [failedActionsDigest, Sample.hexDigest_eq]
  refine ⟨?_, ?_, ?_⟩
  · decide +kernel
  · decide +kernel
  · decide +kernel

end Samples

end PatchLoop
