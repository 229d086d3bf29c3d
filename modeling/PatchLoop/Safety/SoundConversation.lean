import PatchLoop.Runtime.CallRuns
import PatchLoop.Safety.PairedCalls

/-!
# Tool calls and their answers

What a checkpoint of a run says to the provider: every tool call of every assistant message is answered
once. It holds while responses have distinct call ids and while a response that newer input supersedes
is one whose unanswered calls could all still be cancelled.
-/

namespace PatchLoop

open Transaction
open Process (Assertion Ensures Keeps While keeps_bind keeps_pure keeps_throw keeps_read
  ensures_bind_while)

variable [Sha256]

/-! ### What is kept between two recordings -/

/-- The second database has the conversation, the steps and the results of the task as the first one
has them, and no older effects. -/
structure Store.Continues (s s' : Store) (taskId : String) : Prop where
  checkpoint : ∀ checkpoint, s'.checkpoints.get? taskId = some checkpoint →
    ∃ before, s.checkpoints.get? taskId = some before ∧ checkpoint.messages = before.messages
      ∧ checkpoint.epochMessages = before.epochMessages
  steps : ∀ index, s'.agentSteps.get? (taskId, index) = s.agentSteps.get? (taskId, index)
  results : ∀ callId row, s.toolCalls.get? (taskId, callId) = some row →
    s'.toolCalls.get? (taskId, callId) = some row
  effects : ∀ id row, s.effects.get? id = some row → row.taskId = taskId →
    ∃ row', s'.effects.get? id = some row' ∧ row'.taskId = taskId
      ∧ (row' = row ∨ row.version < row'.version)

/-- The operation records neither the conversation nor a step of the task. -/
def Op.Continues (taskId : String) : Op → Prop
  | .saveCheckpoint checkpoint _ => checkpoint.taskId ≠ taskId
  | .commitCheckpoint checkpoint _ _ => checkpoint.taskId ≠ taskId
  | .recordStep step _ => step.taskId ≠ taskId
  | .prepareEffectBatch step _ _ _ => step.taskId ≠ taskId
  | _ => True

variable {s s' : Store} {now : Timestamp} {op : Op} {taskId : String} {u : Unit}

omit [Sha256] in
theorem Store.Continues.of_same (hcheckpoints : s'.checkpoints = s.checkpoints)
    (hsteps : s'.agentSteps = s.agentSteps) (hcalls : s'.toolCalls = s.toolCalls)
    (heffects : s'.effects = s.effects) : s.Continues s' taskId where
  checkpoint checkpoint hrow := ⟨checkpoint, hcheckpoints ▸ hrow, rfl, rfl⟩
  steps _ := by rw [hsteps]
  results _ _ hrow := hcalls ▸ hrow
  effects _ row hrow htask := ⟨row, heffects ▸ hrow, htask, Or.inl rfl⟩

theorem continues_after (hop : op.Continues taskId) (hreturns : (exec now op).Returns s u s') :
    s.Continues s' taskId where
  checkpoint checkpoint hrow := by
    have hchange := checkpointChange hreturns taskId
    rw [hrow] at hchange
    generalize hafter : some checkpoint = after at hchange
    cases hchange with
    | kept => exact ⟨checkpoint, hafter.symm, rfl, rfl⟩
    | saved hid => exact absurd hid.symm hop
    | committed hid => exact absurd hid.symm hop
    | advanced _ hbefore =>
        cases hafter
        exact ⟨_, hbefore, rfl, rfl⟩
  steps index := by
    have hchange := stepChange hreturns (taskId, index)
    generalize s'.agentSteps.get? (taskId, index) = after at hchange ⊢
    cases hchange with
    | kept => rfl
    | recorded hkey => exact absurd (congrArg Prod.fst hkey).symm hop
    | batched hcarries hkey => exact absurd (congrArg Prod.fst hkey).symm hop
  results _ _ hrow := toolCall_persists hreturns hrow
  effects id row hrow htask := by
    obtain ⟨row', hrow', htask', hversion⟩ := effect_version_grows hreturns hrow
    exact ⟨row', hrow', htask'.trans htask, hversion⟩

omit [Sha256] in
theorem continues_withoutTask {id : String} (hother : id ≠ taskId) :
    s.Continues (s.withoutTask id) taskId where
  checkpoint checkpoint hrow := ⟨checkpoint, (Table.get?_filter.mp hrow).1, rfl, rfl⟩
  steps index := by
    refine Option.ext fun step => ?_
    refine Table.get?_filter.trans (and_iff_left_of_imp fun hrow => ?_)
    have hkey : (step.taskId, step.index) = (taskId, index) := Table.key_of_get? hrow
    exact decide_eq_true fun heq => hother (heq.symm.trans (congrArg Prod.fst hkey))
  results callId row hrow := by
    have hkey : (row.taskId, row.call.id) = (taskId, callId) := Table.key_of_get? hrow
    exact Table.get?_filter.mpr ⟨hrow, decide_eq_true fun heq =>
      hother (heq.symm.trans (congrArg Prod.fst hkey))⟩
  effects effectId row hrow htask := by
    refine ⟨row, Table.get?_filter.mpr ⟨hrow, decide_eq_true ?_⟩, htask, Or.inl rfl⟩
    exact fun heq => hother (heq.symm.trans htask)

/-- A call of another party. -/
theorem continues_callStep {call : Call} (houtside : call.Outside taskId) :
    s.Continues (callStep s call) taskId := by
  obtain hsame | hreturns := callStep_cases s call
  · rw [hsame]
    exact .of_same rfl rfl rfl rfl
  · generalize callStep s call = s' at hreturns ⊢
    cases call with
    | op timed =>
        refine continues_after ?_ (callOp_returns.mp hreturns).1
        obtain ⟨now, op⟩ := timed
        cases op <;> first | exact houtside | trivial
    | saveTask time task guard =>
        obtain ⟨-, -, rfl⟩ := saveTask_returns.mp hreturns
        exact .of_same rfl rfl rfl rfl
    | deleteTask id =>
        obtain ⟨-, rfl⟩ := deleteTask_returns hreturns
        exact continues_withoutTask houtside

/-! ### Assertions that continue -/

/-- What a step of a run must do: a response has distinct call ids, and where it is superseded, a call
without an answer can still be cancelled, and a call with an answer that could be cancelled has a
stored result, which is in the way. -/
def Mark.KeepsPairing [Redactor] : Mark → Prop
  | .responded calls => DistinctIds calls
  | .superseding answered status held =>
      if answered = true then
        status ∈ [EffectStatus.prepared, .waitingForApproval] → held = true
      else status ∈ [EffectStatus.prepared, .waitingForApproval]
  | _ => True

section Assertions

variable [Redactor] {host : Host} {P : System → Prop}

/-- The property H as long as the run does what it must. -/
abbrev Holding (P : System → Prop) : Assertion Mark System :=
  While Mark.KeepsPairing fun sys _ => P sys

/-- The property speaks of the conversation, the steps and the results of the task, and of the prompt
cache. -/
def Continuing (taskId : String) (P : System → Prop) : Prop :=
  ∀ sys sys', sys.store.Continues sys'.store taskId →
    sys'.runtime.promptCache = sys.runtime.promptCache → P sys → P sys'

omit [Sha256] [Redactor] in
theorem Continuing.and {P' : System → Prop} (hP : Continuing taskId P) (hP' : Continuing taskId P') :
    Continuing taskId fun sys => P sys ∧ P' sys :=
  fun sys sys' hcontinues hcache hboth =>
    ⟨hP sys sys' hcontinues hcache hboth.1, hP' sys sys' hcontinues hcache hboth.2⟩

omit [Sha256] in
theorem holding_append {sys : System} {past entries : List Mark} (hP : Holding P sys past)
    (hfine : ∀ entry ∈ past ++ entries, entry.KeepsPairing) : P sys :=
  hP fun entry hentry => hfine entry (List.mem_append_left _ hentry)

theorem tame_holding (hserves : host.Serves taskId) (hP : Continuing taskId P) :
    Tame host (Holding P) where
  stable n call hcall sys past hholding := by
    intro hfine
    exact hP sys _ (continues_callStep (hserves.others n call hcall)) rfl (holding_append hholding hfine)
  runtime sys past runtime hcache hholding := fun hfine =>
    hP sys _ (.of_same rfl rfl rfl rfl) hcache (hholding hfine)
  files sys past files hholding := fun hfine =>
    hP sys _ (.of_same rfl rfl rfl rfl) rfl (hholding hfine)
  plain now op sys past store hplain hholding hreturns := fun hfine => by
    refine hP sys _ (continues_after ?_ hreturns) rfl (hholding hfine)
    cases op <;> first | exact hplain.elim | trivial

/-! ### Storing results -/

theorem marked_holding {α : Type} {mark : Store → Bool → Option Mark}
    {action : Timestamp → Action α} (hserves : host.Serves taskId) (hP : Continuing taskId P)
    (op : Timestamp → Op)
    (hop : ∀ now s a s', (action now).Returns s a s' → (exec now (op now)).Returns s () s')
    (hcontinues : ∀ now, (op now).Continues taskId) :
    Keeps (Holding P) (markedCall host mark action) := by
  refine ensures_markedCall (tame_holding hserves hP).stable (fun _ _ h => h) ?_ ?_
  · intro now sys past a store hholding hreturns hfine
    exact hP sys _ (continues_after (hcontinues now) (hop now _ _ _ hreturns)) rfl
      (holding_append hholding hfine)
  · exact fun error sys past hholding hfine => holding_append hholding hfine

theorem call_holding {α : Type} {action : Timestamp → Action α} (hserves : host.Serves taskId)
    (hP : Continuing taskId P) (op : Timestamp → Op)
    (hop : ∀ now s a s', (action now).Returns s a s' → (exec now (op now)).Returns s () s')
    (hcontinues : ∀ now, (op now).Continues taskId) : Keeps (Holding P) (runtimeCall host action) :=
  ensures_runtimeCall (tame_holding hserves hP).stable (fun _ _ h => h)
    (fun now sys _ _ _ hholding hreturns hfine =>
      hP sys _ (continues_after (hcontinues now) (hop now _ _ _ hreturns)) rfl (hholding hfine))
    fun _ _ _ h => h

theorem settle_holding (hserves : host.Serves taskId) (hP : Continuing taskId P) {effect : Effect}
    {call : ToolCall} {result : ToolResult} {status : EffectStatus} :
    Keeps (Holding P) (settleUnexecuted host effect call result status) :=
  marked_holding hserves hP (fun _ => .settleUnexecutedEffect _ _ _ _ _ _)
    (fun _ _ _ _ hreturns => discard_returns.mpr ⟨_, hreturns⟩) fun _ => trivial

theorem stores_holding (hserves : host.Serves taskId) (hP : Continuing taskId P) {effectId : String}
    {call : ToolCall} : Stores host (Holding P) effectId call where
  settles _ _ _ _ _ _ := settle_holding hserves hP
  commits _ _ _ _ _ :=
    keeps_bind (marked_holding hserves hP (fun _ => .commitEffect _ _ _ _ _ _)
      (fun _ _ _ _ hreturns => discard_returns.mpr ⟨_, hreturns⟩) fun _ => trivial)
      fun _ => keeps_pure
  records _ _ _ :=
    marked_holding hserves hP (fun _ => .recordToolCall _ _ _ _) (fun _ _ _ _ hreturns => hreturns)
      fun _ => trivial
  refuses _ :=
    marked_holding hserves hP (fun _ => .commitToolResult _ _ _ _ _)
      (fun _ _ _ _ hreturns => discard_returns.mpr ⟨_, hreturns⟩) fun _ => trivial
  finds _ _ _ hholding _ := fun hfine => holding_append hholding hfine

theorem confirms_holding (hserves : host.Serves taskId) (hP : Continuing taskId P) {effect : Effect} :
    Confirms host (Holding P) effect := by
  have hI := tame_holding hserves hP
  intro evidence result persisted
  refine Process.Ensures.before (B := Holding P) ?_ fun _ _ h => h.1
  have hunseen : Keeps (Holding P) (do
      let runtime ← getRuntime
      if runtime.gateway.history.all fun item => item.callId ≠ result.callId then
        PatchLoop.appendHistory result) := by
    refine keeps_bind getRuntime_keeps fun runtime => ?_
    split
    · exact hI.appendHistory
    · exact keeps_pure
  cases persisted with
  | some found =>
      refine keeps_bind (Process.ensures_note fun sys past hholding hfine =>
        holding_append hholding hfine) fun _ => keeps_bind ?_ fun _ => hunseen
      exact call_holding hserves hP (fun _ => .commitEffect _ _ _ _ _ _)
        (fun _ _ _ _ hreturns => discard_returns.mpr ⟨_, hreturns⟩) fun _ => trivial
  | none =>
      refine keeps_bind ?_ fun _ => hunseen
      exact marked_holding hserves hP (fun _ => .commitEffect _ _ _ _ _ _)
        (fun _ _ _ _ hreturns => discard_returns.mpr ⟨_, hreturns⟩) fun _ => trivial

end Assertions

/-! ### The invariant -/

section Invariant

variable [Redactor]

/-- In the stable layout, the epoch is frozen with messages that neither call a tool nor answer a
call. -/
def FrozenPlain (stable : Bool) (epochMessages : Option (List ModelMessage)) : Prop :=
  stable = true → ∃ epoch, epochMessages = some epoch ∧ ∀ message ∈ epoch, message.Plain

/-- A checkpoint from which a run can go on. -/
structure Checkpoint.Sound (stable : Bool) (checkpoint : Checkpoint) : Prop where
  pairs : LastingPairs checkpoint.messages
  frozen : FrozenPlain stable checkpoint.epochMessages

/-- A step has one effect for each call of its response. -/
def AgentStep.Aligned (step : AgentStep) : Prop :=
  ∀ response ∈ step.modelResponse, step.effectIds.length = response.toolCalls.length

/-- What the runtime keeps of a task is sound. -/
structure System.Sound (taskId : String) (stable : Bool) (sys : System) : Prop where
  checkpoint : ∀ checkpoint, sys.store.checkpoints.get? taskId = some checkpoint →
    checkpoint.Sound stable
  steps : ∀ index step, sys.store.agentSteps.get? (taskId, index) = some step → step.Aligned
  cache : ∀ cache ∈ sys.runtime.promptCache, FrozenPlain stable cache.epochMessages

variable {stable : Bool}

omit [Sha256] in
theorem continuing_sound : Continuing taskId (System.Sound taskId stable) := by
  intro sys sys' hcontinues hcache hsound
  refine ⟨?_, ?_, ?_⟩
  · intro checkpoint hrow
    obtain ⟨before, hbefore, hmessages, hepoch⟩ := hcontinues.checkpoint checkpoint hrow
    obtain ⟨hpairs, hfrozen⟩ := hsound.checkpoint before hbefore
    exact ⟨hmessages ▸ hpairs, hepoch ▸ hfrozen⟩
  · intro index step hrow
    rw [hcontinues.steps] at hrow
    exact hsound.steps index step hrow
  · rw [hcache]
    exact hsound.cache

omit [Sha256] in
theorem FrozenPlain.redact {epochMessages : Option (List ModelMessage)}
    (hfrozen : FrozenPlain stable epochMessages) :
    FrozenPlain stable (epochMessages.map (·.map ModelMessage.redact)) := by
  intro hstable
  obtain ⟨epoch, rfl, hplain⟩ := hfrozen hstable
  refine ⟨_, rfl, fun message hmem => ?_⟩
  obtain ⟨other, hother, rfl⟩ := List.mem_map.mp hmem
  exact (hplain other hother).redact_iterate 1

omit [Sha256] in
theorem Checkpoint.Sound.redact {checkpoint : Checkpoint} (hsound : checkpoint.Sound stable) :
    checkpoint.redact.Sound stable :=
  ⟨hsound.pairs.redact, hsound.frozen.redact⟩

omit [Sha256] in
theorem AgentStep.Aligned.redact {step : AgentStep} (haligned : step.Aligned) :
    step.redact.Aligned := by
  intro response hresponse
  obtain ⟨raw, hraw, rfl⟩ := Option.map_eq_some_iff.mp hresponse
  rw [ModelResponse.redact, List.length_map]
  exact haligned raw hraw

end Invariant

/-! ### Recording -/

/-- What the operation records is sound. -/
def Op.RecordsSound [Redactor] (stable : Bool) : Op → Prop
  | .saveCheckpoint checkpoint _ => checkpoint.Sound stable
  | .commitCheckpoint checkpoint _ _ => checkpoint.Sound stable
  | .recordStep step _ => step.Aligned
  | .prepareEffectBatch step _ _ _ => step.Aligned
  | _ => True

section Recording

variable [Redactor] {stable : Bool} {host : Host} (hserves : host.Serves taskId)

include hserves

/-- A process of the runtime keeps what it keeps of the task sound. -/
abbrev KeepsSound {α : Type} (taskId : String) (stable : Bool) (p : RuntimeProcess α) : Prop :=
  Keeps (Holding (System.Sound taskId stable)) p

/-- A process of the runtime keeps what it keeps of the task sound, and what it returns satisfies the
condition. -/
abbrev EnsuresSound {α : Type} (taskId : String) (stable : Bool) (p : RuntimeProcess α)
    (H : α → Prop) : Prop :=
  Ensures (Holding (System.Sound taskId stable)) p
    (fun a => Holding fun sys => sys.Sound taskId stable ∧ H a)
    (fun _ => Holding (System.Sound taskId stable)) (Holding (System.Sound taskId stable))

section Rules

variable {α β : Type} {H : α → Prop} {H' : β → Prop} {p : RuntimeProcess α}
  {next : α → RuntimeProcess β}

omit [Sha256] hserves in
theorem ensuresSound_bind (hp : EnsuresSound taskId stable p H)
    (hnext : ∀ a, H a → EnsuresSound taskId stable (next a) H') :
    EnsuresSound taskId stable (p >>= next) H' :=
  ensures_bind_while hp hnext

omit [Sha256] hserves in
theorem keepsSound_bind (hp : KeepsSound taskId stable p)
    (hnext : ∀ a, EnsuresSound taskId stable (next a) H') :
    EnsuresSound taskId stable (p >>= next) H' :=
  Process.ensures_bind hp hnext

omit [Sha256] hserves in
theorem ensuresSound_then (hp : EnsuresSound taskId stable p H)
    (hnext : ∀ a, H a → KeepsSound taskId stable (next a)) :
    KeepsSound taskId stable (p >>= next) :=
  ensures_bind_while hp hnext

omit [Sha256] hserves in
theorem ensuresSound_pure {a : α} (ha : H a) :
    EnsuresSound taskId stable (pure a : RuntimeProcess α) H :=
  Process.ensures_pure fun _ _ hholding hfine => ⟨hholding hfine, ha⟩

omit [Sha256] hserves in
theorem ensuresSound_throw {failure : Failure} :
    EnsuresSound taskId stable (throw failure : RuntimeProcess α) H :=
  Process.ensures_throw fun _ _ hholding => hholding

end Rules

theorem tame_sound (stable : Bool) : Tame host (Holding (System.Sound taskId stable)) :=
  tame_holding hserves continuing_sound

omit hserves in
theorem sound_after (op : Op) {sys : System} {store : Store} (hrecords : op.RecordsSound stable)
    (hreturns : (exec now op).Returns sys.store () store) (hsound : sys.Sound taskId stable) :
    (sys.withStore store).Sound taskId stable := by
  refine ⟨fun checkpoint hrow => ?_, fun index step hrow => ?_, hsound.cache⟩
  · have hchange := checkpointChange hreturns taskId
    rw [System.withStore_store] at hrow
    rw [hrow] at hchange
    generalize hafter : some checkpoint = after at hchange
    cases hchange with
    | kept => exact hsound.checkpoint checkpoint hafter.symm
    | saved hid =>
        cases hafter
        exact hrecords
    | committed hid =>
        cases hafter
        exact hrecords
    | advanced _ hbefore =>
        cases hafter
        obtain ⟨hpairs, hfrozen⟩ := hsound.checkpoint _ hbefore
        exact ⟨hpairs, hfrozen⟩
  · have hchange := stepChange hreturns (taskId, index)
    rw [System.withStore_store] at hrow
    rw [hrow] at hchange
    generalize hafter : some step = after at hchange
    cases hchange with
    | kept => exact hsound.steps index step hafter.symm
    | recorded hkey =>
        cases hafter
        exact hrecords
    | batched hcarries hkey =>
        cases hafter
        exact hrecords

theorem persistCheckpoint_sound {checkpoint : Checkpoint} (hsound : checkpoint.Sound stable) :
    KeepsSound taskId stable (persistCheckpoint host checkpoint) := by
  refine ensures_runtimeCall (tame_sound hserves stable).stable (fun _ _ h => h) ?_ fun _ _ _ h => h
  intro now sys past _ store hholding hreturns hfine
  have hnow : { checkpoint with updatedAt := now }.Sound stable := ⟨hsound.pairs, hsound.frozen⟩
  exact sound_after (.saveCheckpoint _ _) hnow.redact hreturns (hholding hfine)

theorem recordAgentStep_sound {step : AgentStep} (haligned : step.Aligned) :
    KeepsSound taskId stable (recordAgentStep host step) := by
  refine ensures_runtimeCall (tame_sound hserves stable).stable (fun _ _ h => h) ?_ fun _ _ _ h => h
  intro now sys past _ store hholding hreturns hfine
  exact sound_after (.recordStep _ _) haligned.redact hreturns (hholding hfine)

omit [Sha256] hserves in
theorem persistedEffects_sound {effects : List Effect} :
    EnsuresSound taskId stable (persistedEffects effects) fun persisted =>
      persisted.length = effects.length := by
  unfold persistedEffects
  split
  · rename_i persisted hmap
    exact ensuresSound_pure (Sequence.forall₂_of_mapM_some hmap).length_eq.symm
  · exact ensuresSound_throw

theorem prepareBatch_sound {step : AgentStep} {effects : List Effect} (haligned : step.Aligned) :
    EnsuresSound taskId stable (prepareBatch host step effects) fun result =>
      result.length = effects.length := by
  refine ensuresSound_bind (persistedEffects_sound) fun persisted hlength => ?_
  refine keepsSound_bind getRuntime_keeps fun runtime => ?_
  refine ensures_markedCall (tame_sound hserves stable).stable (fun _ _ h => h) ?_ ?_
  · intro now sys past result store hholding hreturns hfine
    refine ⟨sound_after (.prepareEffectBatch _ _ _ _) haligned.redact
      (discard_returns.mpr ⟨result, hreturns⟩) (holding_append hholding hfine), ?_⟩
    rw [prepareEffectBatch_result hreturns]
    exact (List.length_map _).trans hlength
  · exact fun error sys past hholding hfine => holding_append hholding hfine

omit [Sha256] hserves in
/-- The prompt cache of the runtime as it is read. -/
theorem getRuntime_sound : EnsuresSound taskId stable getRuntime fun runtime =>
    ∀ cache ∈ runtime.promptCache, FrozenPlain stable cache.epochMessages :=
  Process.ensures_read fun _ _ hholding hfine => ⟨hholding hfine, (hholding hfine).cache⟩

theorem buildCheckpoint_sound {nextStepIndex consumed : Nat} {messages : List ModelMessage}
    {counters : Counters} {pending : List String} {request : Option Nat}
    (hpairs : LastingPairs messages) :
    EnsuresSound taskId stable
      (buildCheckpoint host nextStepIndex messages counters consumed pending request)
      fun checkpoint => checkpoint.Sound stable := by
  refine keepsSound_bind (tame_sound hserves stable).currentEventSequence fun sequence => ?_
  refine ensuresSound_bind getRuntime_sound fun runtime hcache => ?_
  split
  · exact ensuresSound_throw
  · rename_i cache hsome
    exact ensuresSound_pure ⟨hpairs, hcache cache hsome⟩

/-! ### A step and its response -/

omit [Sha256] hserves in
theorem lastingPairs_inputs (turns : List Turn) : LastingPairs (inputMessages taskId turns) := by
  refine lastingPairs_plain fun message hmem => ?_
  obtain ⟨turn, -, rfl⟩ := List.mem_map.mp hmem
  exact ⟨nofun, nofun⟩

theorem consumePendingInputs_sound {state : Checkpoint} (hstate : state.Sound stable) :
    EnsuresSound taskId stable (consumePendingInputs host state) fun state' =>
      state'.Sound stable := by
  refine keepsSound_bind (tame_sound hserves stable).pendingInputTurns fun turns => ?_
  split
  · exact ensuresSound_pure hstate
  · have hupdated : { state with
        messages := state.messages ++ inputMessages host.taskId turns
        consumedInputSequence := lastSequence turns state.consumedInputSequence }.Sound stable :=
      ⟨hstate.pairs.append (lastingPairs_inputs turns), hstate.frozen⟩
    exact keepsSound_bind (persistCheckpoint_sound hserves hupdated) fun _ =>
      ensuresSound_pure hupdated

theorem persistedResponseStep_sound {stepIndex : Nat} :
    EnsuresSound taskId stable (persistedResponseStep host stepIndex) fun found =>
      ∀ step ∈ found, step.Aligned := by
  refine ensuresSound_bind (H := fun steps => ∀ step ∈ steps, step.Aligned) ?_
    fun steps hsteps => ?_
  · refine ensures_runtimeCall (tame_sound hserves stable).stable (fun _ _ h => h) ?_ fun _ _ _ h => h
    intro now sys past steps store hholding hreturns hfine
    obtain ⟨rfl, rfl⟩ := query_returns.mp hreturns
    refine ⟨hholding hfine, fun step hmem => ?_⟩
    rw [List.mem_insertionSort, List.mem_filter, decide_eq_true_eq, hserves.task] at hmem
    obtain ⟨hrow, rfl⟩ := hmem
    exact (hholding hfine).steps step.index step (Table.get?_of_mem hrow)
  · exact ensuresSound_pure fun step hfound => hsteps step (List.mem_of_find?_eq_some hfound)

theorem findRetry_sound {effects : List Effect} :
    KeepsSound taskId stable (findRetry host effects) := by
  induction effects with
  | nil => exact keeps_pure
  | cons effect rest ih =>
      unfold findRetry
      repeat' split
      · refine keeps_bind (tame_sound hserves stable).getRecoveryDisposition fun disposition => ?_
        split
        · exact keeps_pure
        · exact ih
      · exact ih
      · exact ih

theorem getCheckpoint_sound :
    EnsuresSound taskId stable (runtimeCall host fun _ => getCheckpoint host.taskId)
      fun checkpoint => checkpoint.Sound stable := by
  refine ensures_runtimeCall (tame_sound hserves stable).stable (fun _ _ h => h) ?_ fun _ _ _ h => h
  intro now sys past checkpoint store hholding hreturns hfine
  simp only [getCheckpoint, bind_returns, query_returns, orRaise_returns, raiseIf_returns,
    pure_returns, existsAndEq, exists_const, true_and, and_assoc, hserves.task] at hreturns
  obtain ⟨hrow, -, rfl, rfl⟩ := hreturns
  exact ⟨hholding hfine, (hholding hfine).checkpoint _ hrow⟩

theorem materializeRecoveryRetryStep_sound {stepIndex : Nat} :
    EnsuresSound taskId stable (materializeRecoveryRetryStep host stepIndex) fun found =>
      ∀ step ∈ found, step.Aligned := by
  refine keepsSound_bind (tame_sound hserves stable).listEffects fun effects => ?_
  refine keepsSound_bind (findRetry_sound hserves) fun found => ?_
  cases found with
  | none => exact ensuresSound_pure (by simp)
  | some retry =>
      refine ensuresSound_bind (getCheckpoint_sound hserves) fun checkpoint _ => ?_
      have haligned : ∀ consumed, AgentStep.Aligned {
          id := retry.stepId
          taskId := host.taskId
          index := stepIndex
          status := .running
          consumedInputSequence := consumed
          modelResponse := some {
            content := "Execute the explicitly requested recovery retry."
            toolCalls := [retry.call] }
          effectIds := [retry.id] } := by
        rintro consumed response ⟨⟩
        rfl
      refine ensuresSound_bind (prepareBatch_sound hserves (haligned _)) fun _ _ => ?_
      refine ensuresSound_pure ?_
      rintro step ⟨⟩
      exact haligned _

theorem beginStep_sound {state : Checkpoint} {stepIndex : Nat} (hstate : state.Sound stable) :
    EnsuresSound taskId stable (beginStep host state stepIndex) fun begun =>
      begun.1.Sound stable ∧ begun.2.Aligned := by
  refine ensuresSound_bind (persistedResponseStep_sound hserves) fun persisted hpersisted => ?_
  have hrest (rest : Option AgentStep → RuntimeProcess (Checkpoint × AgentStep))
      (hsome : ∀ step, rest (some step) = pure (state, step))
      (hnone : rest none = do
        let state ← consumePendingInputs host state
        let stepId ← ask host fun moment => .ok (host.newId moment)
        let step : AgentStep := {
          id := stepId
          taskId := host.taskId
          index := stepIndex
          status := .running
          consumedInputSequence := state.consumedInputSequence }
        recordAgentStep host step
        return (state, step))
      (found : Option AgentStep) (hfound : ∀ step ∈ found, step.Aligned) :
      EnsuresSound taskId stable (rest found) fun begun =>
        begun.1.Sound stable ∧ begun.2.Aligned := by
    cases found with
    | some step =>
        rw [hsome]
        exact ensuresSound_pure ⟨hstate, hfound step rfl⟩
    | none =>
        rw [hnone]
        refine ensuresSound_bind (consumePendingInputs_sound hserves hstate) fun state hstate => ?_
        refine keepsSound_bind (tame_sound hserves stable).ask fun stepId => ?_
        have haligned : AgentStep.Aligned {
            id := stepId
            taskId := host.taskId
            index := stepIndex
            status := .running
            consumedInputSequence := state.consumedInputSequence } := by
          rintro response ⟨⟩
        refine keepsSound_bind (recordAgentStep_sound hserves haligned) fun _ => ?_
        exact ensuresSound_pure ⟨hstate, haligned⟩
  dsimp only
  cases persisted with
  | some step =>
      exact ensuresSound_bind (ensuresSound_pure hpersisted) (hrest _ (fun _ => rfl) rfl)
  | none =>
      exact ensuresSound_bind (materializeRecoveryRetryStep_sound hserves)
        (hrest _ (fun _ => rfl) rfl)

end Recording

end PatchLoop
