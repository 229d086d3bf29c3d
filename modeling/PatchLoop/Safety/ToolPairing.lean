import PatchLoop.Safety.SoundConversation

/-!
# Every tool call is answered once

The loop of the runtime, from one response to the next. A batch that runs to its end answers its calls
one after the other. A batch that newer input supersedes is answered up to the call that was next, and
the calls from there on are answered by their cancellation, if they can still be cancelled.
-/

namespace PatchLoop

open Transaction
open Process (Ensures Keeps While keeps_bind keeps_pure keeps_throw ensures_bind_while)

/-! ### The effects of a response -/

section Batch

variable [Sha256] [Uuid5] (gateway : ToolGateway) (context : ToolContext) (files : Files)
  (taskId : String) (step : AgentStep)

theorem prepareEffect_length (batch : Batch) (call : ToolCall) :
    (prepareEffect gateway context files taskId step batch call).effects.length
      = batch.effects.length + 1 := by
  unfold prepareEffect
  dsimp only
  split <;> exact List.length_append

theorem prepareEffects_length (calls : List ToolCall) (batch : Batch) :
    (calls.foldl (prepareEffect gateway context files taskId step) batch).effects.length
      = batch.effects.length + calls.length := by
  induction calls generalizing batch with
  | nil => rfl
  | cons call rest ih =>
      rw [List.foldl_cons, ih, prepareEffect_length, List.length_cons]
      omega

theorem persistModelResponseBatch_length (response : ModelResponse) :
    (persistModelResponseBatch gateway context files taskId step response).2.1.length
      = response.toolCalls.length :=
  (prepareEffects_length gateway context files taskId step response.toolCalls _).trans (Nat.zero_add _)

theorem persistModelResponseBatch_aligned (response : ModelResponse) :
    (persistModelResponseBatch gateway context files taskId step response).1.Aligned := by
  rintro response ⟨⟩
  exact (List.length_map _).trans (persistModelResponseBatch_length gateway context files taskId step response)

end Batch

/-- A step with its response, whose calls have an effect each. -/
structure Responded.Sound [Redactor] (stable : Bool) (responded : Responded) : Prop where
  state : responded.state.Sound stable
  step : responded.step.Aligned
  effects : responded.effects.length = responded.response.toolCalls.length

theorem Responded.calls_fst (responded : Responded) :
    responded.calls.map Prod.fst = responded.response.toolCalls := by
  rw [Responded.calls, List.map_map]
  exact List.zipIdx_map_fst 0 _

theorem Responded.Sound.calls_snd [Redactor] {stable : Bool} {responded : Responded}
    (hsound : responded.Sound stable) : ∀ entry ∈ responded.calls, ∃ effect, entry.2 = some effect := by
  intro entry hentry
  obtain ⟨⟨call, position⟩, hmem, rfl⟩ := List.mem_map.mp hentry
  have hposition : position < responded.effects.length := by
    rw [hsound.effects]
    have hlt := List.snd_lt_add_of_mem_zipIdx hmem
    omega
  exact ⟨_, List.getElem?_eq_getElem hposition⟩

section Response

variable [Sha256] [Redactor] {stable : Bool} {host : Host} {taskId : String} (hserves : host.Serves taskId)

include hserves

theorem effectsForStep_sound {step : AgentStep} :
    EnsuresSound taskId stable (effectsForStep host step) fun effects =>
      effects.length = step.effectIds.length := by
  refine keepsSound_bind (tame_sound hserves stable).listEffects fun listed => ?_
  refine (ensures_orException fun _ _ _ h => h).weaken (fun _ _ h => h) ?_ (fun _ _ _ h => h)
    fun _ _ h => h
  rintro effects sys past ⟨hholding, hmap⟩ hfine
  exact ⟨hholding hfine, (Sequence.forall₂_of_mapM_ok hmap).length_eq.symm⟩

theorem requestResponse_sound [Uuid5] {state : Checkpoint} {step : AgentStep}
    (hstate : state.Sound stable) :
    EnsuresSound taskId stable (requestResponse host state step) fun responded =>
      responded.Sound stable := by
  have hI := tame_sound hserves stable
  refine ensuresSound_bind (buildCheckpoint_sound hserves hstate.pairs) fun state hstate => ?_
  refine keepsSound_bind (persistCheckpoint_sound hserves hstate) fun _ => ?_
  refine keepsSound_bind hI.assertOwnership fun _ => keepsSound_bind hI.ask fun response => ?_
  refine keepsSound_bind hI.assertOwnership fun _ => keepsSound_bind getRuntime_keeps fun runtime => ?_
  refine keepsSound_bind currentFiles_keeps fun files => ?_
  have haligned := persistModelResponseBatch_aligned host.gateway runtime.gateway.context files
    host.taskId step response
  have hlength := persistModelResponseBatch_length host.gateway runtime.gateway.context files
    host.taskId step response
  revert haligned hlength
  rcases persistModelResponseBatch host.gateway runtime.gateway.context files host.taskId step
    response with ⟨step, effects, context⟩
  intro haligned hlength
  refine keepsSound_bind hI.modifyGateway fun _ => ?_
  refine ensuresSound_bind (prepareBatch_sound hserves haligned) fun effects heffects => ?_
  refine keepsSound_bind hI.currentEventSequence fun sequence => ?_
  have hupdated : { state with
      eventSequence := sequence
      pendingEffectIds := effects.map Effect.id
      pendingModelRequestStep := none }.Sound stable := ⟨hstate.pairs, hstate.frozen⟩
  refine keepsSound_bind (persistCheckpoint_sound hserves hupdated) fun _ => ?_
  exact ensuresSound_pure ⟨hupdated, haligned, heffects.trans hlength⟩

theorem obtainResponse_sound [Uuid5] {state : Checkpoint} {step : AgentStep}
    (hstate : state.Sound stable) (hstep : step.Aligned) :
    EnsuresSound taskId stable (obtainResponse host state step) fun responded =>
      responded.Sound stable := by
  unfold obtainResponse
  split
  · exact requestResponse_sound hserves hstate
  · rename_i response hresponse
    refine ensuresSound_bind (effectsForStep_sound hserves) fun effects heffects => ?_
    refine keepsSound_bind getRuntime_keeps fun runtime => ?_
    refine keepsSound_bind orException_keeps fun context => ?_
    refine keepsSound_bind (tame_sound hserves stable).modifyGateway fun _ => ?_
    exact ensuresSound_pure ⟨hstate, hstep, heffects.trans (hstep response hresponse)⟩

theorem accountResponse_sound {state : Checkpoint} {stepIndex : Nat} (hstate : state.Sound stable) :
    EnsuresSound taskId stable (accountResponse host state stepIndex) fun state' =>
      state'.Sound stable := by
  refine keepsSound_bind getRuntime_keeps fun runtime => ?_
  split
  · exact ensuresSound_pure hstate
  · have hupdated : { state with
        accountedModelResponseSteps := runtime.accountedModelResponseSteps ++ [stepIndex] }.Sound
          stable := ⟨hstate.pairs, hstate.frozen⟩
    refine keepsSound_bind ((tame_sound hserves stable).modifyRuntime fun _ => rfl) fun _ => ?_
    exact keepsSound_bind (persistCheckpoint_sound hserves hupdated) fun _ =>
      ensuresSound_pure hupdated

end Response

/-! ### A response that newer input supersedes -/

/-- The task holds a result under the call id, and its effect is still the one that was read, or has
moved on since. -/
structure Store.Blocks (s : Store) (taskId callId : String) (effect : Effect) : Prop where
  held : ∃ row, s.toolCalls.get? (taskId, callId) = some row
  effect : ∃ row, s.effects.get? effect.id = some row ∧ row.taskId = taskId
    ∧ (row = effect ∨ effect.version < row.version)

theorem continuing_blocks {taskId : String} (callId : String) (effect : Effect) :
    Continuing taskId fun sys => sys.store.Blocks taskId callId effect := by
  rintro sys sys' hcontinues - ⟨⟨row, hrow⟩, current, hcurrent, htask, hversion⟩
  refine ⟨⟨row, hcontinues.results callId row hrow⟩, ?_⟩
  obtain ⟨current', hcurrent', htask', hversion'⟩ :=
    hcontinues.effects effect.id current hcurrent htask
  refine ⟨current', hcurrent', htask', ?_⟩
  rcases hversion with rfl | hlt
  · rcases hversion' with rfl | hlt'
    · exact Or.inl rfl
    · exact Or.inr hlt'
  · rcases hversion' with rfl | hlt'
    · exact Or.inr hlt
    · exact Or.inr (hlt.trans hlt')

/-- An effect that can still be cancelled is not, where a result stands already. -/
theorem settle_blocked [Sha256] {s s' : Store} {now : Timestamp} {effect settled : Effect} {call : ToolCall}
    {result : ToolResult} {guard : LeaseGuard} (hblocks : s.Blocks guard.taskId call.id effect)
    (hopen : effect.status ∈ [EffectStatus.prepared, .waitingForApproval]) :
    ¬ (settleUnexecutedEffect now effect.id .cancelled effect.version call result guard).Returns s
      settled s' := by
  intro hreturns
  obtain ⟨execution, current, hsettles, -⟩ := settleUnexecutedEffect_returns hreturns
  obtain ⟨⟨row, hheld⟩, stood, hstood, -, hversion⟩ := hblocks
  cases hsettles.loadsEffect.1.symm.trans hstood
  have heq : current = effect := by
    rcases hversion with heq | hlt
    · exact heq
    · have := hsettles.version_eq
      omega
  subst heq
  have htask : current.taskId = guard.taskId := 
    hsettles.owner.trans (congrArg LeaseGuard.taskId hsettles.guards.fields)
  obtain ⟨-, -, hstatus⟩ := hsettles.repeats row (htask ▸ hheld)
  rw [hstatus] at hopen
  simp at hopen

section Superseding

variable [Sha256] [Redactor] {stable : Bool} {host : Host} {taskId : String} (hserves : host.Serves taskId)

include hserves

theorem tame_blocked (callId : String) (effect : Effect) :
    Tame host (Holding fun sys => sys.Sound taskId stable
      ∧ sys.store.Blocks taskId callId effect) :=
  tame_holding hserves (continuing_sound.and (continuing_blocks callId effect))

/-- Where a result stands already, an effect that can still be cancelled is not cancelled. -/
theorem settleUnexecuted_blocked {effect : Effect} {call : ToolCall} {result : ToolResult}
    (hopen : effect.status ∈ [EffectStatus.prepared, .waitingForApproval]) :
    Ensures (Holding fun sys => sys.Sound taskId stable
        ∧ sys.store.Blocks taskId call.redact.id effect)
      (settleUnexecuted host effect call result .cancelled) (fun _ => Holding fun _ => False)
      (fun _ => Holding (System.Sound taskId stable)) (Holding (System.Sound taskId stable)) := by
  refine ensures_markedCall (tame_blocked hserves call.redact.id effect).stable
    (fun sys past hholding hfine => (hholding hfine).1) ?_ ?_
  · intro now sys past settled store hholding hreturns hfine
    have hblocks := (holding_append hholding hfine).2
    rw [← hserves.guard] at hblocks
    exact settle_blocked hblocks hopen hreturns
  · exact fun error sys past hholding hfine => (holding_append hholding hfine).1

/-- The calls from the first one without an answer on are answered. -/
theorem supersedeCalls_sound {calls : List (ToolCall × Option Effect)} {answered : Nat}
    {progress : Progress} (heffects : ∀ entry ∈ calls, ∃ effect, entry.2 = some effect) :
    EnsuresSound taskId stable (supersedeCalls host answered calls progress) fun progress' =>
      ∃ answers, progress'.messages = progress.messages ++ answers
        ∧ (∀ message ∈ answers, message.role = .tool)
        ∧ answers.map ModelMessage.toolCallId = (calls.drop answered).map (some ·.1.id) := by
  induction calls generalizing answered progress with
  | nil =>
      refine ensuresSound_pure ⟨[], (List.append_nil _).symm, by simp, ?_⟩
      rw [List.drop_nil]
      rfl
  | cons entry rest ih =>
      obtain ⟨call, found⟩ := entry
      obtain ⟨effect, hsome⟩ := heffects _ List.mem_cons_self
      cases hsome
      have hI := tame_sound hserves stable
      have ih {answered : Nat} {progress : Progress} := @ih answered progress
        fun entry hentry => heffects entry (List.mem_cons_of_mem _ hentry)
      unfold supersedeCalls
      refine Process.ensures_bind hI.requireEffect fun current => ?_
      refine Process.ensures_bind (Process.ensures_read fun _ _ h => ⟨h, rfl⟩)
        (Q := fun held sys past => (Holding (System.Sound taskId stable) sys past
          ∧ sys.store.LoadsEffect effect.id current)
          ∧ held = (decide (current.taskId = host.taskId)
            && (sys.store.toolCalls.get? (host.taskId, call.redact.id)).isSome)) fun held => ?_
      refine ensures_bind_while (B := fun sys _ => sys.Sound taskId stable
          ∧ (held = true → sys.store.Blocks taskId call.redact.id current))
        (H := fun _ => Mark.KeepsPairing (.superseding (decide (0 < answered)) current.status held))
        (Process.ensures_note ?_) fun _ hkeeps => ?_
      · rintro sys past ⟨⟨hholding, hload⟩, hheld⟩ hfine
        refine ⟨⟨holding_append hholding hfine, fun htrue => ?_⟩, hfine _ (by simp)⟩
        rw [htrue, eq_comm, Bool.and_eq_true, decide_eq_true_eq, Option.isSome_iff_exists] at hheld
        obtain ⟨htask, hrow⟩ := hheld
        rw [hserves.task] at htask hrow
        exact ⟨hrow, current, hload.id_eq.symm ▸ hload.1, htask, Or.inl rfl⟩
      · cases answered with
        | zero =>
            have hopen : current.status ∈ [EffectStatus.prepared, .waitingForApproval] := hkeeps
            rw [if_neg (not_not.mpr hopen)]
            refine Process.Ensures.before (B := Holding (System.Sound taskId stable)) ?_
              fun sys past hholding hfine => (hholding hfine).1
            refine keepsSound_bind hI.observeResult fun result => ?_
            refine keepsSound_bind (settle_holding hserves continuing_sound) fun _ => ?_
            refine ih.weaken (fun _ _ h => h) ?_ (fun _ _ _ h => h) fun _ _ h => h
            intro progress' sys past hholding hfine
            obtain ⟨hsound, answers, hmessages, htool, hids⟩ := hholding hfine
            refine ⟨hsound, toolMessage call result.output :: answers, ?_, ?_, ?_⟩
            · rw [hmessages, List.append_assoc]
              rfl
            · exact List.forall_mem_cons.mpr ⟨rfl, htool⟩
            · rw [List.map_cons, hids]
              rfl
        | succ answered =>
            have hheld : current.status ∈ [EffectStatus.prepared, .waitingForApproval] →
                held = true := hkeeps
            split
            · exact ih.before fun sys past hholding hfine => (hholding hfine).1
            · rename_i hnot
              have hopen := not_not.mp hnot
              refine Process.Ensures.before (B := Holding fun sys => sys.Sound taskId stable
                  ∧ sys.store.Blocks taskId call.redact.id current) ?_
                fun sys past hholding hfine => ⟨(hholding hfine).1, (hholding hfine).2 (hheld hopen)⟩
              have hends : ∀ sys past, Holding (fun sys => sys.Sound taskId stable
                  ∧ sys.store.Blocks taskId call.redact.id current) sys past →
                  Holding (System.Sound taskId stable) sys past :=
                fun sys past hholding hfine => (hholding hfine).1
              refine Process.ensures_bind ((tame_blocked hserves _ _).observeResult.weaken (fun _ _ h => h)
                (fun _ _ _ h => h) (fun _ => hends) hends) fun result => ?_
              refine Process.ensures_bind (settleUnexecuted_blocked hserves hopen) fun _ => ?_
              exact Process.ensures_of_not_fine.before fun _ _ hnever hfine => hnever hfine

end Superseding

/-! ### The conversation of a step -/

section Conversation

variable [Sha256] [Redactor] {stable : Bool}

/-- The message that a response becomes. -/
def Responded.message (responded : Responded) : ModelMessage where
  role := .assistant
  content := responded.response.content
  toolCalls := responded.response.toolCalls

/-- The conversation of a step answers the first calls of the response, in their order. -/
structure Progress.AnswersFirst (progress : Progress) (responded : Responded) (answered : Nat) :
    Prop where
  distinct : DistinctIds responded.response.toolCalls
  answers : ∃ before answers, progress.messages = before ++ responded.message :: answers
    ∧ LastingPairs before ∧ (∀ message ∈ answers, message.role = .tool)
    ∧ answers.map ModelMessage.toolCallId
      = (responded.response.toolCalls.take answered).map (some ·.id)

variable {progress progress' : Progress} {responded : Responded} {answered : Nat}

omit [Sha256] in
theorem Progress.AnswersFirst.append (hanswers : progress.AnswersFirst responded answered)
    {more : List ModelMessage} (hmessages : progress'.messages = progress.messages ++ more)
    (htool : ∀ message ∈ more, message.role = .tool) (answered' : Nat)
    (hids : (responded.response.toolCalls.take answered).map (some ·.id)
        ++ more.map ModelMessage.toolCallId
      = (responded.response.toolCalls.take answered').map (some ·.id)) :
    progress'.AnswersFirst responded answered' := by
  obtain ⟨hdistinct, before, answers, hsplit, hpairs, hrole, hanswered⟩ := hanswers
  refine ⟨hdistinct, before, answers ++ more, ?_, hpairs, ?_, ?_⟩
  · rw [hmessages, hsplit, List.append_assoc, List.cons_append]
  · intro message hmem
    rcases List.mem_append.mp hmem with hmem | hmem
    · exact hrole message hmem
    · exact htool message hmem
  · rw [List.map_append, hanswered, hids]

omit [Sha256] in
/-- Once all calls are answered the conversation is paired. -/
theorem Progress.AnswersFirst.pairs
    (hanswers : progress.AnswersFirst responded responded.response.toolCalls.length) :
    LastingPairs progress.messages := by
  obtain ⟨hdistinct, before, answers, hsplit, hpairs, hrole, hanswered⟩ := hanswers
  rw [List.take_length] at hanswered
  rw [hsplit]
  exact hpairs.append (lastingPairs_response rfl hdistinct hrole hanswered)

/-- A step that goes on from a sound checkpoint. -/
def Advance.Sound (stable : Bool) : Advance → Prop
  | .returned => True
  | .progressed checkpoint => checkpoint.Sound stable

variable {host : Host} {taskId : String} (hserves : host.Serves taskId)

include hserves

theorem supersedeResponse_sound (hsound : responded.Sound stable)
    (hanswers : progress.AnswersFirst responded answered) {turns : List Turn} :
    EnsuresSound taskId stable (supersedeResponse host responded answered progress turns)
      fun advance => advance.Sound stable := by
  have hI := tame_sound hserves stable
  unfold supersedeResponse
  split
  · exact ensuresSound_throw
  · refine ensuresSound_bind (supersedeCalls_sound hserves hsound.calls_snd) ?_
    rintro progress' ⟨more, hmessages, htool, hids⟩
    have hpairs : LastingPairs progress'.messages := by
      refine (hanswers.append hmessages htool responded.response.toolCalls.length ?_).pairs
      have hdrop : (responded.calls.drop answered).map (some ·.1.id)
          = (responded.response.toolCalls.drop answered).map (some ·.id) := by
        rw [← responded.calls_fst, ← List.map_drop, List.map_map]
        rfl
      rw [hids, hdrop, ← List.map_append, List.take_append_drop, List.take_length]
    refine keepsSound_bind hI.modifyGateway fun _ => ?_
    have haligned : AgentStep.Aligned { responded.step with
        status := .completed
        toolResults := progress'.toolResults } := hsound.step
    refine keepsSound_bind (recordAgentStep_sound hserves haligned) fun _ => ?_
    refine ensuresSound_bind (buildCheckpoint_sound hserves
      (hpairs.append (lastingPairs_inputs turns))) fun checkpoint hcheckpoint => ?_
    refine keepsSound_bind (persistCheckpoint_sound hserves hcheckpoint) fun _ => ?_
    exact keepsSound_bind hI.persistTask fun _ => ensuresSound_pure hcheckpoint

theorem isRecoveryRetryPlaceholder_sound {effect : Option Effect} :
    KeepsSound taskId stable (isRecoveryRetryPlaceholder host effect) := by
  unfold isRecoveryRetryPlaceholder
  split
  · exact keeps_pure
  · split
    · exact keeps_pure
    · exact keeps_bind (tame_sound hserves stable).getRecoveryDisposition fun _ => keeps_pure

/-- The result of the next call answers it. -/
theorem observeCall_sound {call : ToolCall} {effect : Option Effect} {result : ToolResult}
    (hanswers : progress.AnswersFirst responded answered)
    (hcall : responded.response.toolCalls[answered]? = some call) :
    EnsuresSound taskId stable (observeCall host call effect result progress) fun observed =>
      ∀ progress', observed = .ok progress' → progress'.AnswersFirst responded (answered + 1) := by
  have hnext {counters : Counters} {toolResults : List ToolResult} :
      Progress.AnswersFirst {
        counters
        toolResults
        messages := progress.messages ++ [toolMessage call (host.compactToolResult result)] }
        responded (answered + 1) := by
    refine hanswers.append rfl (List.forall_mem_singleton.mpr rfl) _ ?_
    rw [List.take_add_one, hcall, List.map_append]
    rfl
  unfold observeCall
  refine keepsSound_bind (tame_sound hserves stable).ask fun _ => ?_
  split
  · refine ensuresSound_pure ?_
    rintro progress' ⟨⟩
    exact hnext
  · refine keepsSound_bind (isRecoveryRetryPlaceholder_sound hserves) fun placeholder => ?_
    split
    · refine ensuresSound_pure ?_
      rintro progress' ⟨⟩
      exact hnext
    · split
      · refine ensuresSound_pure ?_
        rintro progress' ⟨⟩
        exact hnext
      · exact ensuresSound_pure nofun

/-! ### A batch -/

theorem applyPendingControl_sound : KeepsSound taskId stable (applyPendingControl host) := by
  have hI := tame_sound hserves stable
  refine hI.applyPendingControl fun reason effects => ?_
  refine (hI.cancelPendingEffects fun effect _ result => ?_).before fun _ _ h => h.1
  exact settle_holding hserves continuing_sound

/-- A batch whose first calls are answered answers all, or ends its step early. -/
theorem runBatch_sound [Uuid5] (hsound : responded.Sound stable)
    {calls : List (ToolCall × Option Effect)} (hcalls : responded.calls.drop answered = calls)
    (hanswers : progress.AnswersFirst responded answered) :
    EnsuresSound taskId stable (runBatch host responded answered calls progress) fun ended =>
      match ended with
      | .inl advance => advance.Sound stable
      | .inr progress => LastingPairs progress.messages := by
  have hI := tame_sound hserves stable
  induction calls generalizing answered progress with
  | nil =>
      refine ensuresSound_pure (hanswers.append (List.append_nil _).symm (by simp) _ ?_).pairs
      have hlength := congrArg List.length (responded.calls_fst)
      rw [List.length_map] at hlength
      have hle := List.drop_eq_nil_iff.mp hcalls
      rw [List.take_of_length_le (by omega), List.take_length]
      exact List.append_nil _
  | cons entry rest ih =>
      obtain ⟨call, found⟩ := entry
      have hentry : responded.calls[answered]? = some (call, found) := by
        rw [← List.head?_drop, hcalls]
        rfl
      obtain ⟨effect, hsome⟩ := hsound.calls_snd _ (List.mem_of_getElem? hentry)
      cases hsome
      have hcall : responded.response.toolCalls[answered]? = some call := by
        rw [← responded.calls_fst, List.getElem?_map, hentry]
        rfl
      have hrest : responded.calls.drop (answered + 1) = rest := by
        rw [← List.tail_drop, hcalls]
        rfl
      have hsupersede (turns : List Turn) :
          EnsuresSound taskId stable (do
            return .inl (← supersedeResponse host responded answered progress turns))
            fun ended : Advance ⊕ Progress => match ended with
              | .inl advance => advance.Sound stable
              | .inr progress => LastingPairs progress.messages :=
        ensuresSound_bind (supersedeResponse_sound hserves hsound hanswers) fun _ hadvance =>
          ensuresSound_pure hadvance
      unfold runBatch
      refine keepsSound_bind (applyPendingControl_sound hserves) fun applied => ?_
      split
      · exact ensuresSound_pure trivial
      refine keepsSound_bind hI.pendingInputTurns fun turns => ?_
      split
      · exact hsupersede turns
      refine keepsSound_bind (Process.keeps_tryCatch ?_ fun failure => ?_) fun outcome => ?_
      · exact keeps_bind (hI.executeOrReplay (stores_holding hserves continuing_sound)) fun _ =>
          keeps_pure
      · split
        · exact keeps_pure
        · exact keeps_throw
      split
      · exact keepsSound_bind hI.pendingInputTurns hsupersede
      · refine keepsSound_bind (applyPendingControl_sound hserves) fun applied => ?_
        split
        · exact ensuresSound_pure trivial
        · exact ensuresSound_throw
      · refine ensuresSound_bind (observeCall_sound hserves hanswers hcall) fun observed hobserved => ?_
        split
        · exact keepsSound_bind hI.failTask fun _ => ensuresSound_pure trivial
        · exact ih hrest (hobserved _ rfl)

/-! ### The end of a step -/

/-- In the stable layout the next epoch starts with the frozen messages and a summary. -/
theorem compressEpoch_sound {messages : List ModelMessage} (hmessages : LastingPairs messages) :
    EnsuresSound taskId true (compressEpoch host messages) LastingPairs := by
  have hI := tame_sound hserves true
  refine keepsSound_bind hI.assertOwnership fun _ => keepsSound_bind hI.ask fun answer => ?_
  refine keepsSound_bind hI.assertOwnership fun _ => ?_
  split
  · exact ensuresSound_pure hmessages
  · split
    · exact ensuresSound_pure hmessages
    · refine keepsSound_bind orException_keeps fun summary => ?_
      refine ensuresSound_bind getRuntime_sound fun runtime hcache => ?_
      split
      · exact ensuresSound_throw
      · rename_i epoch hepoch
        obtain ⟨cache, hruntime, hsome⟩ := Option.bind_eq_some_iff.mp hepoch
        obtain ⟨frozen, hfrozen, hplain⟩ := hcache cache hruntime rfl
        cases hsome.symm.trans hfrozen
        have hplain : ∀ message ∈ epoch ++ [{ role := .system, content := summary }],
            ModelMessage.Plain message := by
          intro message hmem
          rcases List.mem_append.mp hmem with hmem | hmem
          · exact hplain message hmem
          · cases List.mem_singleton.mp hmem
            exact ⟨nofun, nofun⟩
        refine keepsSound_bind (Process.ensures_update fun sys past hholding hfine => ?_) fun _ =>
          ensuresSound_pure (lastingPairs_plain hplain)
        refine ⟨(hholding hfine).checkpoint, (hholding hfine).steps, ?_⟩
        rintro cache ⟨⟩ -
        exact ⟨_, rfl, hplain⟩

theorem completeTask_sound {step : AgentStep} {summary : String} (hstep : step.Aligned) :
    KeepsSound taskId stable (completeTask host step summary) := by
  have hI := tame_sound hserves stable
  have haligned : AgentStep.Aligned { step with status := .completed } := hstep
  exact keeps_bind buildReport_keeps fun _ => keeps_bind hI.transitionTask fun _ =>
    keeps_bind (recordAgentStep_sound hserves haligned) fun _ =>
      keeps_bind hI.appendAssistantTurn fun _ => hI.persistTask

variable (hstable : host.stable = stable)

include hstable

theorem finishStep_sound {dropped : Bool} (hsound : responded.Sound stable)
    (hpairs : LastingPairs progress.messages) :
    EnsuresSound taskId stable (finishStep host responded dropped progress) fun advance =>
      advance.Sound stable := by
  have hI := tame_sound hserves stable
  have haligned : AgentStep.Aligned { responded.step with toolResults := progress.toolResults } :=
    hsound.step
  have hrest (messages : List ModelMessage) (hmessages : LastingPairs messages) :
      EnsuresSound taskId stable (do
        let checkpoint ← buildCheckpoint host (responded.step.index + 1) messages
          progress.counters responded.state.consumedInputSequence [] none
        persistCheckpoint host checkpoint
        persistTask host
        return Advance.progressed checkpoint) fun advance => advance.Sound stable :=
    ensuresSound_bind (buildCheckpoint_sound hserves hmessages) fun checkpoint hcheckpoint =>
      keepsSound_bind (persistCheckpoint_sound hserves hcheckpoint) fun _ =>
        keepsSound_bind hI.persistTask fun _ => ensuresSound_pure hcheckpoint
  refine keepsSound_bind getRuntime_keeps fun runtime => keepsSound_bind currentFiles_keeps fun files => ?_
  dsimp only
  split
  · exact keepsSound_bind hI.failTask fun _ => ensuresSound_pure trivial
  · split
    · exact keepsSound_bind (completeTask_sound hserves haligned) fun _ => ensuresSound_pure trivial
    · have hcompleted : AgentStep.Aligned { responded.step with
          toolResults := progress.toolResults
          status := .completed } := hsound.step
      refine keepsSound_bind (recordAgentStep_sound hserves hcompleted) fun _ => ?_
      refine keepsSound_bind hI.ask fun _ => ?_
      split
      · rename_i hcompress
        obtain rfl : stable = true := by
          rw [← hstable]
          exact (Bool.and_eq_true_iff.mp hcompress).1
        exact ensuresSound_bind (compressEpoch_sound hserves hpairs) hrest
      · exact ensuresSound_bind (ensuresSound_pure hpairs) hrest

theorem followResponse_sound [Uuid5] {dropped : Bool} (hsound : responded.Sound stable) :
    EnsuresSound taskId stable (followResponse host responded dropped) fun advance =>
      advance.Sound stable := by
  have hI := tame_sound hserves stable
  refine ensures_bind_while (B := fun sys _ => sys.Sound taskId stable)
    (H := fun _ => Mark.KeepsPairing (.responded responded.response.toolCalls))
    (Process.ensures_note ?_) fun _ hdistinct => ?_
  · exact fun sys past hholding hfine => ⟨holding_append hholding hfine, hfine _ (by simp)⟩
  have hanswers {counters : Counters} : Progress.AnswersFirst {
      messages := responded.state.messages ++ [responded.message]
      counters
      toolResults := responded.step.toolResults } responded 0 :=
    ⟨hdistinct, _, [], rfl, hsound.state.pairs, by simp, rfl⟩
  refine keepsSound_bind hI.pendingInputTurns fun turns => ?_
  dsimp only
  split
  · exact supersedeResponse_sound hserves hsound hanswers
  split
  · split
    · exact keepsSound_bind hI.failTask fun _ => ensuresSound_pure trivial
    · exact keepsSound_bind (completeTask_sound hserves hsound.step) fun _ =>
        ensuresSound_pure trivial
  split
  · exact keepsSound_bind hI.failTask fun _ => ensuresSound_pure trivial
  · refine ensuresSound_bind (runBatch_sound hserves hsound List.drop_zero hanswers)
      fun ended hended => ?_
    split
    · exact ensuresSound_pure hended
    · exact finishStep_sound hserves hstable hsound hended

theorem advanceBody_sound [Uuid5] {state : Checkpoint} (hstate : state.Sound stable) :
    EnsuresSound taskId stable (advanceBody host state) fun advance => advance.Sound stable := by
  have hI := tame_sound hserves stable
  refine keepsSound_bind hI.ask fun timeExceeded => ?_
  split
  · exact keepsSound_bind hI.failTask fun _ => ensuresSound_pure trivial
  split
  · exact keepsSound_bind hI.failTask fun _ => ensuresSound_pure trivial
  refine keepsSound_bind (applyPendingControl_sound hserves) fun applied => ?_
  split
  · exact ensuresSound_pure trivial
  refine ensuresSound_bind (beginStep_sound hserves hstate) ?_
  rintro ⟨state, step⟩ ⟨hstate, hstep⟩
  refine keepsSound_bind hI.ask fun dropped => ?_
  refine ensuresSound_bind (obtainResponse_sound hserves hstate hstep) fun responded hsound => ?_
  refine keepsSound_bind (applyPendingControl_sound hserves) fun applied => ?_
  split
  · exact ensuresSound_pure trivial
  refine ensuresSound_bind (accountResponse_sound hserves hsound.state) fun state hstate => ?_
  refine keepsSound_bind hI.ask fun budgetError => ?_
  split
  · exact keepsSound_bind hI.failTask fun _ => ensuresSound_pure trivial
  · exact followResponse_sound hserves hstable ⟨hstate, hsound.step, hsound.effects⟩

theorem advanceOnce_sound [Uuid5] {state : Checkpoint} (hstate : state.Sound stable) :
    EnsuresSound taskId stable (advanceOnce host state) fun advance => advance.Sound stable := by
  refine Process.ensures_tryCatch (advanceBody_sound hserves hstable hstate) fun failure => ?_
  unfold handleFailure
  split
  · exact ensuresSound_pure trivial
  · exact ensuresSound_throw
  · exact ensuresSound_throw
  · exact ensuresSound_throw
  · exact keepsSound_bind (tame_sound hserves stable).failTask fun _ => ensuresSound_pure trivial

/-! ### One process -/

theorem executeSteps_sound [Uuid5] {fuel : Nat} {state : Checkpoint} (hstate : state.Sound stable) :
    KeepsSound taskId stable (executeSteps host fuel state) := by
  induction fuel generalizing state with
  | zero => exact Process.keeps_stop
  | succ fuel ih =>
      unfold executeSteps
      refine ensuresSound_then (advanceOnce_sound hserves hstable hstate) fun advance hadvance => ?_
      split
      · exact ih hadvance
      · refine keeps_bind getRuntime_keeps fun runtime => ?_
        split
        · exact ih hstate
        · exact keeps_pure

omit [Sha256] [Redactor] hserves hstable in
theorem initialMessages_plain (host : Host) (task : Task) :
    ∀ message ∈ initialMessages host task, message.Plain := by
  intro message hmem
  simp only [initialMessages, List.mem_append, List.mem_singleton] at hmem
  rcases hmem with (rfl | hmem) | rfl
  · exact ⟨nofun, nofun⟩
  · split at hmem
    · cases List.mem_singleton.mp hmem
      exact ⟨nofun, nofun⟩
    · cases hmem
  · exact ⟨nofun, nofun⟩

omit hstable in
theorem sessionHistory_sound :
    EnsuresSound taskId stable (sessionHistory host) fun history =>
      ∀ message ∈ history.1, message.Plain := by
  refine keepsSound_bind (tame_sound hserves stable).pendingInputTurns fun turns => ensuresSound_pure ?_
  intro message hmem
  obtain ⟨turn, -, rfl⟩ := List.mem_map.mp hmem
  refine ⟨fun hrole => ?_, fun _ => rfl⟩
  have hnot : turn.role.messageRole ≠ .tool := by cases turn.role <;> nofun
  exact hnot hrole

theorem runOwned_sound [Uuid5] {fuel : Nat} : KeepsSound taskId stable (runOwned host fuel) := by
  have hI := tame_sound hserves stable
  refine keeps_bind hI.transitionTask fun _ => keeps_bind hI.modifyGateway fun _ => ?_
  refine keeps_bind hI.ask fun _ => keeps_bind getRuntime_keeps fun runtime => ?_
  refine ensuresSound_then (sessionHistory_sound hserves) ?_
  rintro ⟨history, consumed⟩ hhistory
  have hinitial := initialMessages_plain host runtime.task
  have hplain : ∀ message ∈ initialMessages host runtime.task ++ history, message.Plain := by
    intro message hmem
    rcases List.mem_append.mp hmem with hmem | hmem
    · exact hinitial message hmem
    · exact hhistory message hmem
  refine keeps_bind (Process.ensures_update fun sys past hholding hfine => ?_) fun _ => ?_
  · refine ⟨(hholding hfine).checkpoint, (hholding hfine).steps, ?_⟩
    rintro cache ⟨⟩ htrue
    exact ⟨_, if_pos (hstable.trans htrue), hinitial⟩
  refine keeps_bind hI.persistTask fun _ => keeps_bind hI.ask fun _ => ?_
  refine ensuresSound_then (buildCheckpoint_sound hserves (lastingPairs_plain hplain))
    fun state hstate => ?_
  exact keeps_bind (persistCheckpoint_sound hserves hstate) fun _ =>
    executeSteps_sound hserves hstable hstate

omit hstable in
theorem reconcilePendingModelRequest_sound {checkpoint : Checkpoint}
    (hcheckpoint : checkpoint.Sound stable) :
    EnsuresSound taskId stable (reconcilePendingModelRequest host checkpoint) fun updated =>
      updated.Sound stable := by
  unfold reconcilePendingModelRequest
  split
  · exact ensuresSound_pure hcheckpoint
  · refine ensuresSound_bind (persistedResponseStep_sound hserves) fun persisted _ => ?_
    have hupdated (unknown : List Nat) : { checkpoint with
        pendingModelRequestStep := none
        unknownModelUsageSteps := unknown }.Sound stable := ⟨hcheckpoint.pairs, hcheckpoint.frozen⟩
    exact keepsSound_bind (persistCheckpoint_sound hserves (hupdated _)) fun _ =>
      ensuresSound_pure (hupdated _)

theorem resumeOwned_sound [Uuid5] {fuel : Nat} {checkpoint : Checkpoint}
    (hcheckpoint : checkpoint.Sound stable) :
    KeepsSound taskId stable (resumeOwned host fuel checkpoint) := by
  have hI := tame_sound hserves stable
  refine keeps_bind getRuntime_keeps fun runtime => ?_
  split
  · exact keeps_throw
  refine keeps_bind hI.modifyGateway fun _ => keeps_bind hI.listEffects fun effects => ?_
  refine keeps_bind (hI.reconcileEffects fun effect _ =>
    confirms_holding hserves continuing_sound) fun required => ?_
  split
  · exact keeps_pure
  refine keeps_bind (applyPendingControl_sound hserves) fun applied => ?_
  split
  · exact keeps_pure
  refine ensuresSound_then (reconcilePendingModelRequest_sound hserves hcheckpoint)
    fun checkpoint hcheckpoint => ?_
  refine keeps_bind (Process.ensures_update fun sys past hholding hfine => ?_) fun _ => ?_
  · refine ⟨(hholding hfine).checkpoint, (hholding hfine).steps, ?_⟩
    rintro cache ⟨⟩ htrue
    obtain ⟨epoch, hepoch, hplain⟩ := hcheckpoint.frozen htrue
    refine ⟨epoch, ?_, hplain⟩
    rw [Checkpoint.promptCache, hepoch]
    exact if_pos (hstable.trans htrue)
  refine keeps_bind (Process.keeps_tryCatch (keeps_bind hI.ask fun _ => keeps_pure) fun failure =>
    keeps_pure) fun restored => ?_
  split
  · exact executeSteps_sound hserves hstable hcheckpoint
  · exact hI.failTask

theorem resumeTask_sound [Uuid5] (fuel : Nat) : KeepsSound taskId stable (resumeTask host fuel) := by
  have hI := tame_sound hserves stable
  have hrequire {id : String} : KeepsSound taskId stable (runtimeCall host fun _ => requireTask id) :=
    (hI.reads (H := fun _ _ => True) fun _ _ _ hreturns =>
      ⟨(requireTask_returns.mp hreturns).2, trivial⟩).weaken (fun _ _ h => h) (fun _ _ _ h => h.1)
        (fun _ _ _ h => h) fun _ _ h => h
  have howned {task : Task} {action : RuntimeProcess Unit}
      (haction : KeepsSound taskId stable action) :
      KeepsSound taskId stable (withExecutionOwnership host task action) :=
    keeps_bind (hI.call (fun _ => .prepareTaskExecution _) (fun _ => rfl) fun _ => trivial)
      fun prepared => keeps_bind hrequire fun task => keeps_bind hI.setTask fun _ => haction
  refine keeps_bind hrequire fun task => ?_
  refine keeps_bind (Process.ensures_update fun sys past hholding hfine => ?_) fun _ => ?_
  · exact ⟨(hholding hfine).checkpoint, (hholding hfine).steps, nofun⟩
  split
  · exact keeps_pure
  split
  · exact howned (runOwned_sound hserves hstable)
  · exact ensuresSound_then (getCheckpoint_sound hserves) fun checkpoint hcheckpoint =>
      howned (resumeOwned_sound hserves hstable hcheckpoint)

end Conversation

/-! ### Runs -/

section Runs

variable [Sha256] [Uuid5] [Redactor] {taskId : String} {stable : Bool}

theorem runIncarnations_sound {incarnations : List Incarnation}
    (hserves : ∀ incarnation ∈ incarnations, incarnation.host.Serves taskId)
    (hstable : ∀ incarnation ∈ incarnations, incarnation.host.stable = stable) {sys : System}
    (hsound : sys.Sound taskId stable) :
    Holding (System.Sound taskId stable) (runIncarnations sys incarnations).1
      (runIncarnations sys incarnations).2 := by
  refine @Process.arrive_keeps _ _ _ (Holding (System.Sound taskId stable)) _ _ ?_ sys []
    fun _ => hsound
  intro incarnation hmem sys past hholding
  have hends := resumeTask_sound (hserves incarnation hmem) (hstable incarnation hmem)
    incarnation.fuel ⟨sys, 0⟩ past hholding
  unfold incarnate
  revert hends
  dsimp only
  cases (resumeTask incarnation.host incarnation.fuel ⟨sys, 0⟩).ending with
  | returned a => exact id
  | raised failure => exact id
  | stopped => exact id

/-- However often the runtime is stopped and started again on a new task, in the conversation of a
checkpoint of the task every tool call is answered once, as long as every response has distinct call
ids, and whatever newer input supersedes can still be answered. -/
theorem checkpoint_calls_paired {sys : System} {incarnations : List Incarnation}
    (hserves : ∀ incarnation ∈ incarnations, incarnation.host.Serves taskId)
    (hstable : ∀ incarnation ∈ incarnations, incarnation.host.stable = stable)
    (hcheckpoint : sys.store.checkpoints.get? taskId = none)
    (hsteps : ∀ index, sys.store.agentSteps.get? (taskId, index) = none)
    (hcache : sys.runtime.promptCache = none)
    (hkeeps : ∀ entry ∈ (runIncarnations sys incarnations).2, entry.KeepsPairing) :
    ∀ checkpoint, (runIncarnations sys incarnations).1.store.checkpoints.get? taskId
      = some checkpoint → PairedCalls checkpoint.messages := by
  have hsound : sys.Sound taskId stable := by
    refine ⟨?_, ?_, ?_⟩
    · rw [hcheckpoint]
      nofun
    · intro index step hstep
      rw [hsteps index] at hstep
      cases hstep
    · rw [hcache]
      nofun
  intro checkpoint hrow
  exact ((runIncarnations_sound hserves hstable hsound hkeeps).checkpoint checkpoint hrow).pairs.pairedCalls

end Runs

section Samples

local instance toolPairingDigest : Sha256 := Sample.digest
local instance toolPairingUuid : Uuid5 := Sample.uuid5
local instance toolPairingRedactor : Redactor := Sample.redactor

/-- A response with one call, of a tool that does not exist. -/
def Sample.asking : ModelResponse where
  content := "look"
  toolCalls := [{ id := "c", name := "search" }]

/-- The process is stopped when the call has its result, and no checkpoint holds it yet. -/
def Sample.stopped : Incarnation := ⟨{ Sample.host Sample.asking with stops := (· = 37) }, 1⟩

/-- The next process replays the result. -/
def Sample.replayed : List Incarnation := [Sample.stopped, ⟨Sample.host Sample.asking, 1⟩]

/-- The next process finds a new turn of the user. -/
def Sample.interrupted : List Incarnation :=
  [Sample.stopped, ⟨{ Sample.host Sample.asking with others := Sample.interrupting "wait" }, 1⟩]

/-- The mark is none of a superseded response, and of no response with more than one call. -/
def Mark.plainly : Mark → Bool
  | .responded calls => calls.length ≤ 1
  | .superseding .. => false
  | _ => true

theorem Mark.keepsPairing_of_plainly {mark : Mark} (hplain : mark.plainly = true) :
    mark.KeepsPairing := by
  cases mark with
  | responded calls =>
      intro n
      have hlength : calls.length ≤ 1 := of_decide_eq_true hplain
      match calls with
      | [] => exact List.nodup_nil
      | [call] => exact List.nodup_singleton _
  | superseding => cases hplain
  | _ => trivial

/-- Task `a` is claimed, and no process has worked on it. -/
def Sample.claimed : System := Sample.system (runFrom {} (Sample.started "s" "a" "x" 100))

theorem stopped_serves : Sample.stopped.host.Serves "a" :=
  ⟨rfl, rfl, fun _ _ hcall => absurd hcall List.not_mem_nil⟩

theorem interrupting_outside {taskId content : String} :
    ∀ n, ∀ call ∈ Sample.interrupting content n, call.Outside taskId := by
  rintro (_ | n) call hcall
  · cases List.mem_singleton.mp hcall
    trivial
  · cases hcall

theorem checkpoint_calls_paired_replayed :
    ∃ checkpoint, (runIncarnations Sample.claimed Sample.replayed).1.store.checkpoints.get? "a"
      = some checkpoint ∧ PairedCalls checkpoint.messages := by
  obtain ⟨hkeeps, hsome⟩ : (runIncarnations Sample.claimed Sample.replayed).2.all Mark.plainly = true
      ∧ ((runIncarnations Sample.claimed Sample.replayed).1.store.checkpoints.get? "a").isSome := by
    decide +kernel
  have hsteps : Sample.claimed.store.agentSteps.rows = [] := by decide +kernel
  have hserves : ∀ incarnation ∈ Sample.replayed, incarnation.host.Serves "a" := by
    refine List.forall_mem_cons.mpr ⟨stopped_serves, List.forall_mem_singleton.mpr ?_⟩
    exact ⟨rfl, rfl, fun _ _ hcall => absurd hcall List.not_mem_nil⟩
  have hstable : ∀ incarnation ∈ Sample.replayed, incarnation.host.stable = false :=
    List.forall_mem_cons.mpr ⟨rfl, List.forall_mem_singleton.mpr rfl⟩
  have hempty : ∀ index, Sample.claimed.store.agentSteps.get? ("a", index) = none := by
    intro index
    rw [Table.get?, hsteps]
    rfl
  obtain ⟨checkpoint, hrow⟩ : ∃ checkpoint,
      (runIncarnations Sample.claimed Sample.replayed).1.store.checkpoints.get? "a"
        = some checkpoint := Option.isSome_iff_exists.mp hsome
  refine ⟨checkpoint, hrow, ?_⟩
  exact checkpoint_calls_paired hserves hstable (by decide +kernel) hempty rfl
    (fun entry hentry => Mark.keepsPairing_of_plainly (List.all_eq_true.mp hkeeps entry hentry))
    checkpoint hrow

/-- The turn supersedes the response whose call has its result already: the next checkpoint holds the
call without an answer. -/
theorem checkpoint_call_unanswered :
    (∀ incarnation ∈ Sample.interrupted, incarnation.host.Serves "a")
      ∧ ∃ checkpoint, (runIncarnations Sample.claimed Sample.interrupted).1.store.checkpoints.get? "a"
        = some checkpoint ∧ ¬ PairedCalls checkpoint.messages := by
  refine ⟨?_, ?_⟩
  · refine List.forall_mem_cons.mpr ⟨stopped_serves, List.forall_mem_singleton.mpr ?_⟩
    exact ⟨rfl, rfl, interrupting_outside⟩
  have hmessages : ((runIncarnations Sample.claimed Sample.interrupted).1.store.checkpoints.get?
      "a").map Checkpoint.messages = some [
        { role := .system, content := "" }, { role := .user, content := "fix the test" },
        { role := .assistant, content := "look", toolCalls := [{ id := "c", name := "search" }] },
        { role := .user, content := "wait" }] := by
    decide +kernel
  obtain ⟨checkpoint, hrow, hsplit⟩ := Option.map_eq_some_iff.mp hmessages
  refine ⟨checkpoint, hrow, fun hpaired => ?_⟩
  have hanswered := hpaired.answered [_, _] _ [_] hsplit rfl _ List.mem_cons_self
  exact absurd hanswered (by decide)

end Samples

end PatchLoop
