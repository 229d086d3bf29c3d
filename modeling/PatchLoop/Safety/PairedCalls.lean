import PatchLoop.Lib.Sequences
import PatchLoop.Runtime.Loop
import Mathlib.Data.List.TakeWhile

/-!
# Conversations in which every call is answered

A provider accepts a conversation in which every tool call of an assistant message is answered by one
tool message before the next assistant message, and every tool message answers a call. Such
conversations can be put one after the other; a response with its answers is one.
-/

namespace PatchLoop

/-- How many tool messages answer the call before the next assistant message. -/
def answersBeforeNext (callId : String) (later : List ModelMessage) : Nat :=
  (later.takeWhile fun message => message.role ≠ .assistant).countP fun message =>
    message.role = .tool ∧ message.toolCallId = some callId

/-- The last assistant message. -/
def lastAssistant (earlier : List ModelMessage) : Option ModelMessage :=
  (earlier.filter fun message => message.role = .assistant).getLast?

/-- Every tool call is answered once before the next assistant message, and every tool message answers
a call of the assistant message before it. -/
structure PairedCalls (messages : List ModelMessage) : Prop where
  answered : ∀ earlier message later, messages = earlier ++ message :: later →
    message.role = .assistant → ∀ call ∈ message.toolCalls, answersBeforeNext call.id later = 1
  called : ∀ earlier message later, messages = earlier ++ message :: later → message.role = .tool →
    ∃ response, lastAssistant earlier = some response
      ∧ ∃ call ∈ response.toolCalls, message.toolCallId = some call.id

/-- The message neither calls a tool nor answers a call. -/
def ModelMessage.Plain (message : ModelMessage) : Prop :=
  message.role ≠ .tool ∧ (message.role = .assistant → message.toolCalls = [])

/-! ### Building paired conversations -/

theorem lastAssistant_append {first second : List ModelMessage} {response : ModelMessage}
    (hlast : lastAssistant second = some response) :
    lastAssistant (first ++ second) = some response := by
  rw [lastAssistant, List.filter_append, List.getLast?_append]
  rw [lastAssistant] at hlast
  rw [hlast]
  rfl

/-- Before its first assistant message a paired conversation has no tool message. -/
theorem PairedCalls.takeWhile_not_tool {messages : List ModelMessage} (hpaired : PairedCalls messages) :
    ∀ message ∈ messages.takeWhile fun message => message.role ≠ .assistant,
      message.role ≠ .tool := by
  intro message hmem htool
  obtain ⟨before, after, hsplit⟩ := List.append_of_mem hmem
  have hmessages : messages = before ++ message :: (after
      ++ messages.dropWhile fun message => message.role ≠ .assistant) := by
    conv_lhs => rw [← List.takeWhile_append_dropWhile
      (p := fun message : ModelMessage => decide (message.role ≠ .assistant)) (l := messages)]
    rw [hsplit, List.append_assoc]
    rfl
  obtain ⟨response, hlast, -⟩ := hpaired.called _ _ _ hmessages htool
  have hresponse : response ∈ before.filter fun message => message.role = .assistant :=
    List.mem_of_getLast? hlast
  obtain ⟨hbefore, hrole⟩ := List.mem_filter.mp hresponse
  have hnot := List.mem_takeWhile_imp (hsplit ▸ List.mem_append_left _ hbefore :
    response ∈ messages.takeWhile fun message => message.role ≠ .assistant)
  simp only [decide_eq_true_eq] at hrole hnot
  exact hnot hrole

/-- What comes after a paired conversation answers none of its calls. -/
theorem PairedCalls.append {first second : List ModelMessage} (hfirst : PairedCalls first)
    (hsecond : PairedCalls second) : PairedCalls (first ++ second) := by
  constructor
  · intro earlier message later hsplit hrole call hcall
    rcases Sequence.append_eq_append_cons hsplit with ⟨rest, hleft, rfl⟩ | ⟨before, -, hright⟩
    · have hcount := hfirst.answered earlier message rest hleft hrole call hcall
      unfold answersBeforeNext at hcount ⊢
      by_cases hall : ∀ other ∈ rest, decide (other.role ≠ .assistant) = true
      · rw [List.takeWhile_append_of_pos hall, List.countP_append]
        have hnone : (second.takeWhile fun message => message.role ≠ .assistant).countP
            (fun message => message.role = .tool ∧ message.toolCallId = some call.id) = 0 := by
          rw [List.countP_eq_zero]
          intro other hmem hanswers
          exact hsecond.takeWhile_not_tool other hmem (of_decide_eq_true hanswers).1
        rw [hnone, Nat.add_zero]
        rwa [List.takeWhile_eq_self_iff.mpr hall] at hcount
      · rw [List.takeWhile_append, if_neg]
        · exact hcount
        · intro hlength
          exact hall (List.takeWhile_eq_self_iff.mp
            ((List.takeWhile_prefix _).eq_of_length hlength))
    · exact hsecond.answered before message later hright hrole call hcall
  · intro earlier message later hsplit hrole
    rcases Sequence.append_eq_append_cons hsplit with ⟨rest, hleft, rfl⟩ | ⟨before, rfl, hright⟩
    · exact hfirst.called earlier message rest hleft hrole
    · obtain ⟨response, hlast, hcalls⟩ := hsecond.called before message later hright hrole
      exact ⟨response, lastAssistant_append hlast, hcalls⟩

theorem pairedCalls_plain {messages : List ModelMessage}
    (hplain : ∀ message ∈ messages, message.Plain) : PairedCalls messages := by
  constructor
  · rintro earlier message later rfl hrole call hcall
    have hnone := (hplain message (by simp)).2 hrole
    rw [hnone] at hcall
    cases hcall
  · rintro earlier message later rfl hrole
    exact absurd hrole (hplain message (by simp)).1

/-- A response whose call ids are distinct, with an answer to each call. -/
theorem pairedCalls_response {response : ModelMessage} {answers : List ModelMessage}
    (hrole : response.role = .assistant) (hdistinct : (response.toolCalls.map ToolCall.id).Nodup)
    (htool : ∀ message ∈ answers, message.role = .tool)
    (hanswers : answers.map ModelMessage.toolCallId = response.toolCalls.map (some ·.id)) :
    PairedCalls (response :: answers) := by
  have hnot : ∀ message ∈ answers, message.role ≠ .assistant := by
    intro message hmem heq
    rw [htool message hmem] at heq
    cases heq
  constructor
  · intro earlier message later hsplit hassistant call hcall
    cases earlier with
    | nil =>
        obtain ⟨rfl, rfl⟩ := List.cons.inj hsplit
        rw [answersBeforeNext, List.takeWhile_eq_self_iff.mpr
          fun other hother => decide_eq_true (hnot other hother)]
        have hcount : answers.countP (fun message => message.role = .tool
            ∧ message.toolCallId = some call.id)
              = (answers.map ModelMessage.toolCallId).count (some call.id) := by
          rw [List.count, List.countP_map]
          refine List.countP_congr fun other hother => ?_
          simp [htool other hother]
        have hmap : response.toolCalls.map (some ·.id)
            = (response.toolCalls.map ToolCall.id).map some := by
          rw [List.map_map]
          rfl
        rw [hcount, hanswers, hmap]
        refine List.count_eq_one_of_mem (hdistinct.map (Option.some_injective _)) ?_
        exact List.mem_map_of_mem (List.mem_map_of_mem hcall)
    | cons first earlier =>
        obtain ⟨-, hanswers⟩ := List.cons.inj hsplit
        exact absurd hassistant (hnot message (hanswers ▸ by simp))
  · intro earlier message later hsplit hmessage
    cases earlier with
    | nil =>
        obtain ⟨rfl, rfl⟩ := List.cons.inj hsplit
        rw [hrole] at hmessage
        cases hmessage
    | cons first earlier =>
        obtain ⟨rfl, rfl⟩ := List.cons.inj hsplit
        refine ⟨response, ?_, ?_⟩
        · have hnone : earlier.filter (fun message => message.role = .assistant) = [] := by
            rw [List.filter_eq_nil_iff]
            intro other hother heq
            exact hnot other (List.mem_append_left _ hother) (of_decide_eq_true heq)
          simp [lastAssistant, hrole, hnone]
        · have hmem : message.toolCallId ∈ response.toolCalls.map (some ·.id) := by
            rw [← hanswers]
            exact List.mem_map_of_mem (by simp)
          obtain ⟨call, hcall, heq⟩ := List.mem_map.mp hmem
          exact ⟨call, hcall, heq.symm⟩

/-! ### Redaction -/

section Redaction

variable [Redactor]

/-- The conversation after so many passes through the redactor. -/
def redactedMessages (n : Nat) (messages : List ModelMessage) : List ModelMessage :=
  messages.map ModelMessage.redact^[n]

/-- The ids of the calls stay distinct, however often they are redacted. -/
def DistinctIds (calls : List ToolCall) : Prop :=
  ∀ n, ((calls.map ToolCall.id).map Redactor.redactText^[n]).Nodup

/-- The conversation is paired, and stays so however often it is redacted. -/
def LastingPairs (messages : List ModelMessage) : Prop :=
  ∀ n, PairedCalls (redactedMessages n messages)

theorem redact_iterate_role (n : Nat) (message : ModelMessage) :
    (ModelMessage.redact^[n] message).role = message.role := by
  induction n generalizing message with
  | zero => rfl
  | succ n ih => exact ih message.redact

theorem redact_iterate_toolCallId (n : Nat) (message : ModelMessage) :
    (ModelMessage.redact^[n] message).toolCallId
      = message.toolCallId.map Redactor.redactText^[n] := by
  induction n generalizing message with
  | zero => simp
  | succ n ih =>
      rw [Function.iterate_succ_apply, ih, Function.iterate_succ, ModelMessage.redact, Option.map_map]

theorem redact_iterate_ids (n : Nat) (message : ModelMessage) :
    (ModelMessage.redact^[n] message).toolCalls.map ToolCall.id
      = (message.toolCalls.map ToolCall.id).map Redactor.redactText^[n] := by
  induction n generalizing message with
  | zero => simp
  | succ n ih =>
      rw [Function.iterate_succ_apply, ih, Function.iterate_succ, ModelMessage.redact]
      simp [Function.comp_def, ToolCall.redact]

theorem ModelMessage.Plain.redact_iterate {message : ModelMessage} (hplain : message.Plain) (n : Nat) :
    (ModelMessage.redact^[n] message).Plain := by
  refine ⟨by rw [redact_iterate_role]; exact hplain.1, fun hrole => ?_⟩
  rw [redact_iterate_role] at hrole
  have hids := redact_iterate_ids n message
  rw [hplain.2 hrole] at hids
  exact List.map_eq_nil_iff.mp hids

theorem LastingPairs.append {first second : List ModelMessage} (hfirst : LastingPairs first)
    (hsecond : LastingPairs second) : LastingPairs (first ++ second) := by
  intro n
  rw [redactedMessages, List.map_append]
  exact (hfirst n).append (hsecond n)

theorem lastingPairs_plain {messages : List ModelMessage}
    (hplain : ∀ message ∈ messages, message.Plain) : LastingPairs messages := by
  intro n
  refine pairedCalls_plain fun message hmem => ?_
  obtain ⟨other, hother, rfl⟩ := List.mem_map.mp hmem
  exact (hplain other hother).redact_iterate n

theorem lastingPairs_response {response : ModelMessage} {answers : List ModelMessage}
    (hrole : response.role = .assistant) (hdistinct : DistinctIds response.toolCalls)
    (htool : ∀ message ∈ answers, message.role = .tool)
    (hanswers : answers.map ModelMessage.toolCallId = response.toolCalls.map (some ·.id)) :
    LastingPairs (response :: answers) := by
  intro n
  refine pairedCalls_response ?_ ?_ ?_ ?_
  · rw [redact_iterate_role]
    exact hrole
  · rw [redact_iterate_ids]
    exact hdistinct n
  · intro message hmem
    obtain ⟨other, hother, rfl⟩ := List.mem_map.mp hmem
    rw [redact_iterate_role]
    exact htool other hother
  · have hids := redact_iterate_ids n response
    calc (answers.map ModelMessage.redact^[n]).map ModelMessage.toolCallId
        = (answers.map ModelMessage.toolCallId).map (Option.map Redactor.redactText^[n]) := by
          rw [List.map_map, List.map_map]
          exact List.map_congr_left fun message _ => redact_iterate_toolCallId n message
      _ = ((response.toolCalls.map ToolCall.id).map Redactor.redactText^[n]).map some := by
          rw [hanswers]
          simp [Function.comp_def]
      _ = (ModelMessage.redact^[n] response).toolCalls.map (some ·.id) := by
          rw [← hids, List.map_map]
          rfl

theorem LastingPairs.redact {messages : List ModelMessage} (hpairs : LastingPairs messages) :
    LastingPairs (messages.map ModelMessage.redact) := by
  intro n
  have hnext := hpairs (n + 1)
  rw [redactedMessages, Function.iterate_succ, ← List.map_map] at hnext
  exact hnext

theorem LastingPairs.pairedCalls {messages : List ModelMessage} (hpairs : LastingPairs messages) :
    PairedCalls messages := by
  simpa [redactedMessages] using hpairs 0

end Redaction

end PatchLoop
