import PatchLoop.EventExport
import PatchLoop.Safety.RecoveryGate
import PatchLoop.Safety.StableRedaction
import PatchLoop.Safety.TraceLog
import PatchLoop.Store.EffectSpec
import PatchLoop.Store.SessionSpec

/-!
# Content that is submitted again

The store redacts what it is given, and again what it writes. As a redacted value is redacted to itself,
the row that is read back is the value that was compared, and the same content is taken for the same.
-/

namespace PatchLoop

open Transaction

section Redacted

variable [Alphabet]

local instance repeatedRedactor : Redactor := secretRedactor

/-! ### Values -/

theorem Json.isCredentialMarker_redact {value : Json} (hmarker : value.isCredentialMarker = true) :
    value.redact.isCredentialMarker = true := by
  unfold isCredentialMarker at hmarker
  split at hmarker
  · rename_i reference
    have hplain : SecretRedactor.plainName "$credential_ref" ∉ SecretRedactor.sensitiveNames := by
      decide +kernel
    have hname : Redactor.sensitiveName "$credential_ref" = false := decide_eq_false hplain
    rw [redact, redactFields, redactFields, hname, Bool.false_and, if_neg Bool.false_ne_true, redact]
    exact SecretRedactor.startsWith_redactText hmarker
  · cases hmarker

theorem Json.redactFields_redactFields {fields : List (String × Json)}
    (hvalues : ∀ field ∈ fields, field.2.redact.redact = field.2.redact) :
    redactFields (redactFields fields) = redactFields fields := by
  induction fields with
  | nil => rfl
  | cons field rest ih =>
      obtain ⟨name, value⟩ := field
      obtain ⟨hvalue, hrest⟩ := List.forall_mem_cons.mp hvalues
      rw [redactFields, redactFields, ih hrest]
      congr 2
      by_cases hreplaced : (Redactor.sensitiveName name && !value.isCredentialMarker) = true
      · rw [if_pos hreplaced]
        have hname := (Bool.and_eq_true _ _ ▸ hreplaced).1
        rw [hname]
        rfl
      · rw [if_neg hreplaced]
        have hkept : ¬ (Redactor.sensitiveName name && !value.redact.isCredentialMarker) = true := by
          intro hagain
          rw [Bool.and_eq_true, Bool.not_eq_true'] at hreplaced hagain
          refine hreplaced ⟨hagain.1, ?_⟩
          by_contra hmarker
          rw [Bool.not_eq_false] at hmarker
          rw [isCredentialMarker_redact hmarker] at hagain
          cases hagain.2
        rw [if_neg hkept, hvalue]

theorem Json.redact_redact (value : Json) : value.redact.redact = value.redact := by
  induction value using Json.induct with
  | hnull => rfl
  | hbool value => rfl
  | hint value => rfl
  | hfloat text => rfl
  | hstr text => exact congrArg Json.str (SecretRedactor.redactText_redactText text)
  | harr items ih =>
      rw [Json.redact, Json.redact, Json.redactItems_eq, Json.redactItems_eq, List.map_map]
      exact congrArg Json.arr (List.map_congr_left ih)
  | hobj fields ih =>
      rw [Json.redact, Json.redact]
      exact congrArg Json.obj (Json.redactFields_redactFields ih)

theorem redactText_redactText (text : String) :
    Redactor.redactText (Redactor.redactText text) = Redactor.redactText text :=
  SecretRedactor.redactText_redactText text

theorem map_redactText (text : Option String) :
    (text.map Redactor.redactText).map Redactor.redactText = text.map Redactor.redactText := by
  cases text with
  | none => rfl
  | some text => exact congrArg some (redactText_redactText text)

theorem ToolCall.redact_redact (call : ToolCall) : call.redact.redact = call.redact := by
  simp only [ToolCall.redact, redactText_redactText, Json.redact_redact, map_redactText]

theorem ToolResult.redact_redact (result : ToolResult) : result.redact.redact = result.redact := by
  simp only [ToolResult.redact, redactText_redactText]

theorem SessionEvent.redact_redact (event : SessionEvent) : event.redact.redact = event.redact := by
  simp only [SessionEvent.redact, redactText_redactText, Json.redact_redact, map_redactText]

theorem Approval.redact_redact (approval : Approval) : approval.redact.redact = approval.redact := by
  simp only [Approval.redact, redactText_redactText, map_redactText]

theorem FileEffectPrecondition.redact_redact (precondition : FileEffectPrecondition) :
    precondition.redact.redact = precondition.redact := by
  simp only [FileEffectPrecondition.redact, redactText_redactText, map_redactText]

theorem Effect.redact_redact (effect : Effect) : effect.redact.redact = effect.redact := by
  have hpaths : (effect.redactedArgumentPaths.map Redactor.redactText).map Redactor.redactText
      = effect.redactedArgumentPaths.map Redactor.redactText := by
    rw [List.map_map]
    exact List.map_congr_left fun path _ => redactText_redactText path
  have hfiles : (effect.filePreconditions.map FileEffectPrecondition.redact).map
        FileEffectPrecondition.redact
      = effect.filePreconditions.map FileEffectPrecondition.redact := by
    rw [List.map_map]
    exact List.map_congr_left fun precondition _ => precondition.redact_redact
  simp only [Effect.redact, redactText_redactText, Json.redact_redact, map_redactText, hpaths, hfiles]

end Redacted

/-! ### Submissions -/

section Submitted

variable [Sha256] {s s' : Store} {now later : Timestamp}

theorem commitToolResult_stored {taskId : String} {call : ToolCall} {result stored : ToolResult}
    {version : Option Nat} {guard : Option LeaseGuard}
    (hreturns : (commitToolResult now taskId call result version guard).Returns s stored s') :
    stored = result ∧ result.callId = call.id
      ∧ ∃ row, s'.toolCalls.get? (taskId, call.id) = some row ∧ row.call = call ∧ row.result = result := by
  simp only [commitToolResult, bind_returns, raiseIf_returns, requireTask_returns,
    assertTaskGuard_returns, query_returns, matchToolCall_returns, existsAndEq, exists_const,
    true_and, and_assoc, not_not] at hreturns
  obtain ⟨hcall, task, htask, hguard, hmatch, hbranch⟩ := hreturns
  split at hbranch
  · rename_i row hrow
    obtain ⟨rfl, rfl⟩ := pure_returns.mp hbranch
    obtain ⟨hsame, hresult⟩ := hmatch row hrow
    exact ⟨hresult, hcall, row, hrow, hsame, hresult⟩
  · rename_i hfree
    simp only [bind_returns, checkVersion_returns, insertToolCall_returns, journalTask_returns,
      pure_returns, existsAndEq, exists_const, true_and, and_assoc] at hbranch
    obtain ⟨-, -, hjournal, rfl, rfl⟩ := hbranch
    refine ⟨rfl, hcall, { taskId, call, result := stored, completedAt := now }, ?_, rfl, rfl⟩
    rw [Store.journaledFor_toolCalls]
    exact Table.get?_insert_self hfree

theorem commitToolResult_again {taskId : String} {call : ToolCall} {result : ToolResult}
    {version : Option Nat} {guard : Option LeaseGuard} {task : Task} {row : ToolCallRow}
    (hid : result.callId = call.id) (htask : s.LoadsTask taskId task)
    (hguard : s.GuardsTask later task guard) (hrow : s.toolCalls.get? (taskId, call.id) = some row)
    (hcall : row.call = call) (hresult : row.result = result) :
    (commitToolResult later taskId call result version guard).Returns s result s := by
  simp only [commitToolResult, bind_returns, raiseIf_returns, requireTask_returns,
    assertTaskGuard_returns, query_returns, matchToolCall_returns, existsAndEq, exists_const,
    true_and, and_assoc, not_not]
  refine ⟨hid, task, htask, hguard, ?_, ?_⟩
  · rw [hrow]
    rintro _ ⟨⟩
    exact ⟨hcall, hresult⟩
  · rw [hrow]
    exact pure_returns.mpr ⟨hresult.symm, rfl⟩

omit [Sha256] in
theorem appendEvent_again {event stored : SessionEvent} {sequence : Option Nat}
    (hreturns : (appendEvent event sequence).Returns s stored s') :
    stored = { event with sequence := stored.sequence } ∧ s'.sessionEvents.get? event.id = some stored
      ∧ ∀ other, (appendEvent event other).Returns s' stored s' := by
  have hknown : ∀ {t : Store}, (∃ session, t.sessions.get? event.sessionId = some session) →
      t.sessionEvents.get? event.id = some stored → stored = { event with sequence := stored.sequence } →
      ∀ other, (appendEvent event other).Returns t stored t := by
    rintro t ⟨session, hsession⟩ hrow hsame other
    simp only [appendEvent, bind_returns, requireSession_returns, query_returns, existsAndEq,
      true_and, and_assoc]
    refine ⟨session, hsession, ?_⟩
    rw [hrow]
    simp only [bind_returns, raiseIf_returns, pure_returns, existsAndEq, exists_const, true_and,
      and_assoc, not_not]
    exact ⟨hsame, trivial⟩
  simp only [appendEvent, bind_returns, requireSession_returns, query_returns, existsAndEq,
    true_and, and_assoc] at hreturns
  obtain ⟨session, hsession, hbranch⟩ := hreturns
  split at hbranch
  · rename_i persisted hrow
    simp only [bind_returns, raiseIf_returns, pure_returns, existsAndEq, exists_const, true_and,
      and_assoc, not_not] at hbranch
    obtain ⟨hsame, rfl, rfl⟩ := hbranch
    exact ⟨hsame, hrow, hknown ⟨session, hsession⟩ hrow hsame⟩
  · rename_i hfree
    simp only [bind_returns, checkVersion_returns, insertEvent_returns, writeSession_returns,
      pure_returns, existsAndEq, exists_const, true_and, and_assoc] at hbranch
    obtain ⟨-, -, -, -, rfl, rfl⟩ := hbranch
    have hrow : (s.sessionEvents.insert { event with sequence := session.eventSequence + 1 }).get? event.id
        = some { event with sequence := session.eventSequence + 1 } := Table.get?_insert_self hfree
    have hkey : session.id = event.sessionId := Table.key_of_get? hsession
    have hput : (s.sessions.set { session with eventSequence := session.eventSequence + 1 }).get?
        event.sessionId = some { session with eventSequence := session.eventSequence + 1 } := by
      rw [Table.get?_set_row hsession event.sessionId (by exact hkey), if_pos rfl]
    refine ⟨rfl, hrow, hknown ?_ ?_ rfl⟩
    · exact ⟨_, hput⟩
    · exact hrow

theorem decideApproval_known {approval : Approval} {version : Option Nat} {effect : Effect}
    (hvalid : approval.Valid) (heffect : s.LoadsEffect approval.effectId effect)
    (hrow : s.approvalOfEffect approval.effectId = some approval) :
    (decideApproval now approval version).Returns s approval s := by
  simp only [decideApproval, bind_returns, validateApproval_returns, requireEffect_returns,
    query_returns, existsAndEq, exists_const, true_and, and_assoc]
  refine ⟨hvalid, effect, heffect, ?_⟩
  rw [hrow]
  simp [hvalid]

theorem decideApproval_again {approval stored : Approval} {version : Option Nat}
    (hreturns : (decideApproval now approval version).Returns s stored s') :
    stored = approval ∧ s'.approvalOfEffect approval.effectId = some approval
      ∧ ∀ later other, (decideApproval later approval other).Returns s' approval s' := by
  simp only [decideApproval, bind_returns, validateApproval_returns, requireEffect_returns,
    query_returns, existsAndEq, exists_const, true_and, and_assoc] at hreturns
  obtain ⟨hvalid, effect, heffect, hbranch⟩ := hreturns
  have hknown : s'.effects = s.effects → s'.approvalOfEffect approval.effectId = some approval →
      s'.approvalOfEffect approval.effectId = some approval
        ∧ ∀ later other, (decideApproval later approval other).Returns s' approval s' := by
    intro heffects hrow
    have hload : s'.LoadsEffect approval.effectId effect := by
      unfold Store.LoadsEffect at heffect ⊢
      rw [heffects]
      exact heffect
    exact ⟨hrow, fun later other => decideApproval_known hvalid hload hrow⟩
  split at hbranch
  · rename_i hnone
    simp only [bind_returns, insertApproval_returns, journalApproval_returns, pure_returns,
      existsAndEq, exists_const, true_and, and_assoc] at hbranch
    obtain ⟨hid, -, -, -, rfl, rfl⟩ := hbranch
    refine ⟨rfl, hknown rfl ?_⟩
    have hrows : (s.approvals.insert stored).rows = s.approvals.rows ++ [stored] :=
      Table.rows_insert hid
    unfold Store.approvalOfEffect at hnone ⊢
    rw [Store.journaledApproval_approvals, Store.addApproval_approvals, hrows, List.find?_append,
      hnone]
    simp
  · rename_i existing hexisting
    simp only [bind_returns, validateApproval_returns, raiseIf_returns, ite_returns, pure_returns,
      checkVersion_returns, writeApproval_returns, journalApproval_returns, existsAndEq,
      exists_const, true_and, and_assoc, not_or, not_not] at hbranch
    rcases hbranch with ⟨-, hid, ⟨rfl, rfl, rfl⟩ | ⟨-, -, -, -, -, -, -, rfl, rfl⟩⟩
    · exact ⟨rfl, hknown rfl hexisting⟩
    · refine ⟨rfl, hknown rfl ?_⟩
      exact Table.find?_rows_set hexisting hid (decide_eq_true rfl)

/-- What a commit leaves of its observation, and of its effect. -/
theorem commitEffect_stored {effect committed : Effect} {version : Nat}
    {resultRef observationRef : Option String} {guard : LeaseGuard} {call : ToolCall}
    {result : ToolResult}
    (hreturns : (commitEffect now effect version resultRef observationRef guard
      (some (call, result))).Returns s committed s') :
    (∃ row, s'.toolCalls.get? (effect.taskId, call.id) = some row ∧ row.call = call
        ∧ row.result = result)
      ∧ ∀ later other t, ¬ (commitEffect later effect version resultRef observationRef guard
        (some (call, result))).Returns s' other t := by
  obtain ⟨execution, current, task, entry, hcommits, hobserved, rfl, rfl⟩ :=
    commitEffect_returns hreturns
  obtain ⟨-, hexisting⟩ := hobserved call result rfl
  constructor
  · rw [Store.journaledEffect_toolCalls, Store.journaledFor_toolCalls, Store.observed_toolCalls,
      Store.putEffect_toolCalls]
    dsimp only
    cases hrow : s.toolCalls.get? (effect.taskId, call.id) with
    | none => exact ⟨_, Table.get?_insert_self hrow, rfl, rfl⟩
    | some row => exact ⟨row, Table.get?_insert_mono _ _ hrow, hexisting row hrow⟩
  · intro later other t hagain
    obtain ⟨_, found, _, _, hfound, -⟩ := commitEffect_returns hagain
    -- The effect that was committed has a later version.
    have hrow : ((s.effects.set (effect.committed resultRef observationRef current.version)).get?
        effect.id) = some (effect.committed resultRef observationRef current.version) := by
      rw [Table.get?_set_row hcommits.loadsEffect.1 effect.id (by rfl), if_pos rfl]
    have hsame := hfound.loadsEffect.1
    rw [Store.journaledEffect_effects, Store.journaledFor_effects, Store.observed_effects,
      Store.putEffect_effects, hrow] at hsame
    have hversion := hfound.version_eq
    rw [← Option.some.inj hsame] at hversion
    have hcurrent := hcommits.version_eq
    dsimp only [Effect.committed] at hversion
    omega

end Submitted

section Recognised

variable [Alphabet] [Sha256]

local instance recognisedRedactor : Redactor := secretRedactor

/-- Redaction changes no text, value or model that was redacted already. So a tool result, an event or an
approval that is submitted again is taken for the row that is stored, and nothing changes; and a commit
finds that the observation stored for its call is the one it was given, though an effect that was committed
is not committed again. -/
theorem redaction_stable :
    (∀ text, Redactor.redactText (Redactor.redactText text) = Redactor.redactText text)
      ∧ (∀ value : Json, value.redact.redact = value.redact)
      ∧ (∀ call : ToolCall, call.redact.redact = call.redact)
      ∧ (∀ result : ToolResult, result.redact.redact = result.redact)
      ∧ (∀ effect : Effect, effect.redact.redact = effect.redact)
      ∧ (∀ event : SessionEvent, event.redact.redact = event.redact)
      ∧ (∀ approval : Approval, approval.redact.redact = approval.redact)
      ∧ (∀ s s' now taskId (call : ToolCall) (result : ToolResult) version guard stored,
          (commitToolResult now taskId call.redact result.redact version guard).Returns s stored s' →
          stored = result.redact ∧ ∀ later task other supplied, s'.LoadsTask taskId task →
            s'.GuardsTask later task supplied →
            (commitToolResult later taskId call.redact result.redact other supplied).Returns s' stored s')
      ∧ (∀ s s' (event : SessionEvent) sequence stored,
          (appendEvent event.redact sequence).Returns s stored s' →
          stored = { event.redact with sequence := stored.sequence }
            ∧ ∀ other, (appendEvent event.redact other).Returns s' stored s')
      ∧ (∀ s s' now (approval : Approval) version stored,
          (decideApproval now approval.redact version).Returns s stored s' →
          stored = approval.redact
            ∧ ∀ later other, (decideApproval later approval.redact other).Returns s' stored s')
      ∧ ∀ s s' now (effect : Effect) version resultRef observationRef guard (call : ToolCall)
          (result : ToolResult) committed,
          (commitEffect now effect.redact version resultRef observationRef guard
            (some (call.redact, result.redact))).Returns s committed s' →
          (matchToolCall (s'.toolCalls.get? (effect.taskId, call.redact.id)) call.redact
              result.redact).Returns s' () s'
            ∧ ∀ later other t, ¬ (commitEffect later effect.redact version resultRef observationRef guard
              (some (call.redact, result.redact))).Returns s' other t := by
  refine ⟨redactText_redactText, Json.redact_redact, ToolCall.redact_redact, ToolResult.redact_redact,
    Effect.redact_redact, SessionEvent.redact_redact, Approval.redact_redact, ?_, ?_, ?_, ?_⟩
  · intro s s' now taskId call result version guard stored hreturns
    obtain ⟨rfl, hid, row, hrow, hcall, hresult⟩ := commitToolResult_stored hreturns
    exact ⟨rfl, fun later task other supplied htask hguard =>
      commitToolResult_again hid htask hguard hrow hcall hresult⟩
  · intro s s' event sequence stored hreturns
    obtain ⟨hstored, -, hagain⟩ := appendEvent_again hreturns
    exact ⟨hstored, hagain⟩
  · intro s s' now approval version stored hreturns
    obtain ⟨rfl, -, hagain⟩ := decideApproval_again hreturns
    exact ⟨rfl, hagain⟩
  · intro s s' now effect version resultRef observationRef guard call result committed hreturns
    obtain ⟨⟨row, hrow, hcall, hresult⟩, hagain⟩ := commitEffect_stored hreturns
    refine ⟨matchToolCall_returns.mpr ⟨?_, rfl⟩, hagain⟩
    intro found hfound
    have hrow : s'.toolCalls.get? (effect.taskId, call.redact.id) = some row := hrow
    rw [hrow] at hfound
    obtain rfl := Option.some.inj hfound
    exact ⟨hcall, hresult⟩

end Recognised

section Samples

local instance repeatedContentDigest : Sha256 := Sample.digest

/-- An effect is claimed and committed with the result of its call. -/
def Sample.committedOnce : List Timed :=
  Sample.executing ++ [⟨3, .commitEffect { Sample.effect "e" "a" with status := .succeeded } 2 none
    none (Sample.guard "x" "a") (some ({ id := "call-e", name := "write_file" },
      { callId := "call-e", toolName := "write_file", success := true }))⟩]

/-- The commit of an effect is accepted once. The same commit is refused afterwards, while its lease is
live, and so it is at the version that the first one left. -/
theorem repeated_commit_refused :
    Run.EveryStep step Accepted {} Sample.committedOnce
      ∧ ∀ version ∈ [2, 3], ¬ Accepted (runFrom {} Sample.committedOnce) ⟨4, .commitEffect
          { Sample.effect "e" "a" with status := .succeeded } version none none
          (Sample.guard "x" "a") (some ({ id := "call-e", name := "write_file" },
            { callId := "call-e", toolName := "write_file", success := true }))⟩ := by
  decide +kernel

end Samples

end PatchLoop
