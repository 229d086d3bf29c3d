import PatchLoop.Context.TaskMemory
import PatchLoop.Lib.Fallible
import PatchLoop.Safety.RequestShape
import Mathlib.Data.List.Induction

/-!
# Compaction keeps calls with their answers

A window leaves out whole groups of the history, each from one message of the assistant to the next. In a
conversation whose calls are answered one for one no call is open where a group starts, so that the groups
that are kept are such a conversation again. Redaction may take two ids to one text, but it takes the id of
a call and the id of its answer to the same one.
-/

namespace PatchLoop

/-! ### Calls and answers -/

/-- The calls that wait for an answer after a message, where the message may stand there: one of the
assistant only if none waits, and one of a tool only if it answers one that does. -/
def answerCalls (pending : List String) (message : ModelMessage) : Option (List String) :=
  match message.role, message.toolCallId with
  | .assistant, _ => if pending = [] then some (message.toolCalls.map ToolCall.id) else none
  | .tool, some callId => if callId ∈ pending then some (pending.erase callId) else none
  | .tool, none => none
  | .system, _ | .user, _ => some pending

/-- Each tool message answers a call of the assistant message before it, and each call is answered once. -/
def WellPaired (messages : List ModelMessage) : Prop := messages.foldlM answerCalls [] = some []

instance (messages : List ModelMessage) : Decidable (WellPaired messages) := by
  unfold WellPaired
  infer_instance

theorem answerCalls_assistant {pending after : List String} {message : ModelMessage}
    (hrole : message.role = .assistant) (hnext : answerCalls pending message = some after) :
    pending = [] ∧ after = message.toolCalls.map ToolCall.id := by
  unfold answerCalls at hnext
  rw [hrole] at hnext
  dsimp only at hnext
  split at hnext
  · rename_i hnone
    cases hnext
    exact ⟨hnone, rfl⟩
  · cases hnext

theorem answerCalls_tool {pending after : List String} {message : ModelMessage}
    (hrole : message.role = .tool) (hnext : answerCalls pending message = some after) :
    ∃ callId ∈ pending, message.toolCallId = some callId ∧ after = pending.erase callId := by
  unfold answerCalls at hnext
  rw [hrole] at hnext
  cases hanswer : message.toolCallId with
  | none =>
      rw [hanswer] at hnext
      cases hnext
  | some callId =>
      rw [hanswer] at hnext
      dsimp only at hnext
      split at hnext
      · rename_i hwaits
        cases hnext
        exact ⟨callId, hwaits, rfl, rfl⟩
      · cases hnext

/-- A message that is neither the assistant's nor a tool's passes. -/
theorem answerCalls_other {message : ModelMessage} (hassistant : message.role ≠ .assistant)
    (htool : message.role ≠ .tool) (pending : List String) :
    answerCalls pending message = some pending := by
  unfold answerCalls
  cases hrole : message.role with
  | assistant => exact absurd hrole hassistant
  | tool => exact absurd hrole htool
  | system => rfl
  | user => rfl

theorem wellPaired_nil : WellPaired [] := rfl

theorem wellPaired_singleton_iff {message : ModelMessage} :
    WellPaired [message]
      ↔ message.role ≠ .tool ∧ (message.role = .assistant → message.toolCalls = []) := by
  have hsingle : WellPaired [message] ↔ answerCalls [] message = some [] := by
    rw [WellPaired, List.foldlM_cons]
    cases answerCalls [] message <;> rfl
  rw [hsingle]
  by_cases hassistant : message.role = .assistant
  · have hnext : answerCalls [] message = some (message.toolCalls.map ToolCall.id) := by
      rw [answerCalls, hassistant]
      rfl
    simp [hnext, hassistant]
  by_cases htool : message.role = .tool
  · refine ⟨fun hnext => ?_, fun hplain => absurd htool hplain.1⟩
    obtain ⟨callId, hmem, -⟩ := answerCalls_tool htool hnext
    cases hmem
  · exact ⟨fun _ => ⟨htool, fun hrole => absurd hrole hassistant⟩,
      fun _ => answerCalls_other hassistant htool []⟩

theorem WellPaired.append {first second : List ModelMessage} (hfirst : WellPaired first)
    (hsecond : WellPaired second) : WellPaired (first ++ second) := by
  rw [WellPaired, List.foldlM_append, hfirst]
  exact hsecond

theorem WellPaired.flatten {groups : List (List ModelMessage)}
    (hgroups : ∀ group ∈ groups, WellPaired group) : WellPaired groups.flatten := by
  induction groups with
  | nil => exact wellPaired_nil
  | cons group rest ih =>
      obtain ⟨hgroup, hrest⟩ := List.forall_mem_cons.mp hgroups
      exact hgroup.append (ih hrest)

theorem wellPaired_cons_iff {message : ModelMessage} {rest : List ModelMessage}
    (hrest : WellPaired rest) : WellPaired (message :: rest) ↔ WellPaired [message] := by
  -- before its first assistant message the rest answers nothing, so what waits then waits for ever
  have hclosed : ∀ (messages : List ModelMessage) (pending after : List String),
      messages.foldlM answerCalls [] = some after → messages.foldlM answerCalls pending = some [] →
        pending = [] := by
    intro messages
    induction messages with
    | nil =>
        intro pending after _ hpending
        exact Option.some.inj hpending
    | cons first later ih =>
        intro pending after hnone hpending
        rw [List.foldlM_cons] at hnone hpending
        obtain ⟨start, hstart, hnone⟩ := Option.bind_eq_some_iff.mp hnone
        obtain ⟨next, hnext, hpending⟩ := Option.bind_eq_some_iff.mp hpending
        by_cases hassistant : first.role = .assistant
        · exact (answerCalls_assistant hassistant hnext).1
        by_cases htool : first.role = .tool
        · obtain ⟨callId, hmem, -⟩ := answerCalls_tool htool hstart
          cases hmem
        · rw [answerCalls_other hassistant htool] at hstart hnext
          cases hstart
          cases hnext
          exact ih pending after hnone hpending
  constructor
  · intro hwhole
    rw [WellPaired, List.foldlM_cons] at hwhole
    obtain ⟨next, hnext, hwhole⟩ := Option.bind_eq_some_iff.mp hwhole
    have hnone := hclosed rest next [] hrest hwhole
    rw [hnone] at hnext
    rw [WellPaired, List.foldlM_cons, hnext]
    rfl
  · exact fun hmessage => hmessage.append hrest

/-! ### Rewriting messages -/

/-- The message plays the same part, under other ids. -/
structure Relabelled (label : String → String) (message after : ModelMessage) : Prop where
  role : after.role = message.role
  calls : after.toolCalls.map ToolCall.id = (message.toolCalls.map ToolCall.id).map label
  answer : after.toolCallId = message.toolCallId.map label

/-- The calls that wait are relabelled with the messages, perhaps in another order. -/
theorem answerCalls_relabelled {label : String → String} {message after : ModelMessage}
    {pending next waiting : List String} (hafter : Relabelled label message after)
    (hwaiting : waiting.Perm (pending.map label)) (hnext : answerCalls pending message = some next) :
    ∃ still, answerCalls waiting after = some still ∧ still.Perm (next.map label) := by
  by_cases hassistant : message.role = .assistant
  · obtain ⟨rfl, rfl⟩ := answerCalls_assistant hassistant hnext
    refine ⟨_, ?_, List.Perm.refl _⟩
    have hnone : waiting = [] := List.perm_nil.mp hwaiting
    rw [answerCalls, hafter.role, hassistant]
    exact (if_pos hnone).trans (congrArg some hafter.calls)
  by_cases htool : message.role = .tool
  · obtain ⟨callId, hmem, hanswer, rfl⟩ := answerCalls_tool htool hnext
    have hlabel : label callId ∈ waiting := hwaiting.mem_iff.mpr (List.mem_map_of_mem hmem)
    refine ⟨waiting.erase (label callId), ?_, ?_⟩
    · rw [answerCalls, hafter.role, htool, hafter.answer, hanswer]
      exact if_pos hlabel
    · refine List.cons_perm_iff_perm_erase.mp ?_ |>.2.symm
      exact ((List.perm_cons_erase hmem).map label).symm.trans hwaiting.symm
  · rw [answerCalls_other hassistant htool] at hnext
    cases hnext
    refine ⟨waiting, answerCalls_other ?_ ?_ waiting, hwaiting⟩
    · rwa [hafter.role]
    · rwa [hafter.role]

theorem foldlM_relabelled {label : String → String} {messages after : List ModelMessage}
    (hafter : List.Forall₂ (Relabelled label) messages after) {pending waiting out : List String}
    (hwaiting : waiting.Perm (pending.map label))
    (hout : messages.foldlM answerCalls pending = some out) :
    ∃ still, after.foldlM answerCalls waiting = some still ∧ still.Perm (out.map label) := by
  induction hafter generalizing pending waiting with
  | nil =>
      cases hout
      exact ⟨waiting, rfl, hwaiting⟩
  | cons hfirst _ ih =>
      rw [List.foldlM_cons] at hout
      obtain ⟨next, hnext, hout⟩ := Option.bind_eq_some_iff.mp hout
      obtain ⟨still, hstill, hperm⟩ := answerCalls_relabelled hfirst hwaiting hnext
      rw [List.foldlM_cons, hstill]
      exact ih hperm hout

theorem Relabelled.wellPaired_iff {label : String → String} {message after : ModelMessage}
    (hafter : Relabelled label message after) : WellPaired [after] ↔ WellPaired [message] := by
  have hcalls : after.toolCalls = [] ↔ message.toolCalls = [] := by
    rw [← List.map_eq_nil_iff (f := ToolCall.id), hafter.calls, List.map_eq_nil_iff,
      List.map_eq_nil_iff]
  rw [wellPaired_singleton_iff, wellPaired_singleton_iff, hafter.role, hcalls]

theorem WellPaired.relabelled {label : String → String} {messages after : List ModelMessage}
    (hafter : List.Forall₂ (Relabelled label) messages after) (hpaired : WellPaired messages) :
    WellPaired after := by
  obtain ⟨still, hstill, hperm⟩ := foldlM_relabelled hafter (List.Perm.refl []) hpaired
  rwa [List.perm_nil.mp hperm] at hstill

/-! ### Groups -/

/-- The messages in groups, each from a message of the assistant to the next. The first one may start
before any message of the assistant. -/
structure IsGrouping (groups : List (List ModelMessage)) (messages : List ModelMessage) : Prop where
  whole : groups.flatten = messages
  nonempty : ∀ group ∈ groups, group ≠ []
  inside : ∀ group ∈ groups, ∀ message ∈ group.tail, message.role ≠ .assistant
  heads : ∀ group ∈ groups.tail, ∃ message ∈ group.head?, message.role = .assistant

theorem isGrouping_singleton (message : ModelMessage) : IsGrouping [[message]] [message] where
  whole := rfl
  nonempty group hgroup := by
    cases List.mem_singleton.mp hgroup
    exact List.cons_ne_nil _ _
  inside group hgroup other hother := by
    cases List.mem_singleton.mp hgroup
    cases hother
  heads group hgroup := by cases hgroup

/-- A message of the assistant starts a group. -/
theorem IsGrouping.start {groups : List (List ModelMessage)} {messages : List ModelMessage}
    (hgroups : IsGrouping groups messages) {message : ModelMessage}
    (hassistant : message.role = .assistant) :
    IsGrouping (groups ++ [[message]]) (messages ++ [message]) := by
  constructor
  · rw [List.flatten_append, hgroups.whole]
    rfl
  · intro group hgroup
    rcases List.mem_append.mp hgroup with hgroup | hgroup
    · exact hgroups.nonempty group hgroup
    · cases List.mem_singleton.mp hgroup
      exact List.cons_ne_nil _ _
  · intro group hgroup other hother
    rcases List.mem_append.mp hgroup with hgroup | hgroup
    · exact hgroups.inside group hgroup other hother
    · cases List.mem_singleton.mp hgroup
      cases hother
  · intro group hgroup
    cases groups with
    | nil => cases hgroup
    | cons first rest =>
        rcases List.mem_append.mp hgroup with hgroup | hgroup
        · exact hgroups.heads group hgroup
        · cases List.mem_singleton.mp hgroup
          exact ⟨message, rfl, hassistant⟩

/-- Any other message belongs to the last group. -/
theorem IsGrouping.extend {groups : List (List ModelMessage)} {last messages : List ModelMessage}
    (hgroups : IsGrouping (groups ++ [last]) messages) {message : ModelMessage}
    (hother : message.role ≠ .assistant) :
    IsGrouping (groups ++ [last ++ [message]]) (messages ++ [message]) := by
  have hlast : last ∈ groups ++ [last] := List.mem_append_right groups List.mem_cons_self
  obtain ⟨first, rest, rfl⟩ := List.exists_cons_of_ne_nil (hgroups.nonempty last hlast)
  constructor
  · rw [← hgroups.whole]
    simp
  · intro group hgroup
    rcases List.mem_append.mp hgroup with hgroup | hgroup
    · exact hgroups.nonempty group (List.mem_append_left _ hgroup)
    · cases List.mem_singleton.mp hgroup
      exact List.cons_ne_nil _ _
  · intro group hgroup other hmem
    rcases List.mem_append.mp hgroup with hgroup | hgroup
    · exact hgroups.inside group (List.mem_append_left _ hgroup) other hmem
    · cases List.mem_singleton.mp hgroup
      rcases List.mem_append.mp hmem with hmem | hmem
      · exact hgroups.inside _ hlast other hmem
      · cases List.mem_singleton.mp hmem
        exact hother
  · intro group hgroup
    cases groups with
    | nil => cases hgroup
    | cons head later =>
        rcases List.mem_append.mp hgroup with hgroup | hgroup
        · exact hgroups.heads group (List.mem_append_left _ hgroup)
        · cases List.mem_singleton.mp hgroup
          exact hgroups.heads (first :: rest) (List.mem_append_right later List.mem_cons_self)

/-- The groups with the one that is being filled. -/
def closeGroups (state : List (List ModelMessage) × List ModelMessage) : List (List ModelMessage) :=
  if state.2 = [] then state.1 else state.1 ++ [state.2]

/-- One round of the loop of `_groups`. -/
def growGroups (state : List (List ModelMessage) × List ModelMessage) (message : ModelMessage) :
    List (List ModelMessage) × List ModelMessage :=
  if message.role = .assistant ∧ state.2 ≠ [] then (state.1 ++ [state.2], [message])
  else (state.1, state.2 ++ [message])

theorem ContextEngine.rawGroups_eq (messages : List ModelMessage) :
    ContextEngine.rawGroups messages = closeGroups (messages.foldl growGroups ([], [])) := rfl

theorem isGrouping_growGroups {state : List (List ModelMessage) × List ModelMessage}
    {messages : List ModelMessage} (hgroups : IsGrouping (closeGroups state) messages)
    (hstart : state.2 = [] → state.1 = []) (message : ModelMessage) :
    IsGrouping (closeGroups (growGroups state message)) (messages ++ [message])
      ∧ (growGroups state message).2 ≠ [] := by
  obtain ⟨groups, current⟩ := state
  by_cases hempty : current = []
  · subst hempty
    obtain rfl : groups = [] := hstart rfl
    have hnone : messages = [] := hgroups.whole.symm
    subst hnone
    have hnext : growGroups ([], []) message = ([], [message]) :=
      if_neg fun hboth => hboth.2 rfl
    rw [hnext]
    exact ⟨isGrouping_singleton message, List.cons_ne_nil _ _⟩
  · have hclosed : closeGroups (groups, current) = groups ++ [current] := if_neg hempty
    rw [hclosed] at hgroups
    by_cases hassistant : message.role = .assistant
    · have hnext : growGroups (groups, current) message = (groups ++ [current], [message]) :=
        if_pos ⟨hassistant, hempty⟩
      rw [hnext]
      exact ⟨hgroups.start hassistant, List.cons_ne_nil _ _⟩
    · have hnext : growGroups (groups, current) message = (groups, current ++ [message]) :=
        if_neg fun hboth => hassistant hboth.1
      have hsome : current ++ [message] ≠ [] := List.append_ne_nil_of_right_ne_nil _ (by simp)
      rw [hnext]
      refine ⟨?_, hsome⟩
      rw [closeGroups, if_neg hsome]
      exact hgroups.extend hassistant

theorem ContextEngine.rawGroups_isGrouping (messages : List ModelMessage) :
    IsGrouping (ContextEngine.rawGroups messages) messages := by
  have hrun : ∀ messages : List ModelMessage,
      IsGrouping (closeGroups (messages.foldl growGroups ([], []))) messages
        ∧ ((messages.foldl growGroups ([], [])).2 = [] →
          (messages.foldl growGroups ([], [])).1 = []) := by
    intro messages
    induction messages using List.reverseRecOn with
    | nil =>
        refine ⟨⟨rfl, ?_, ?_, ?_⟩, fun _ => rfl⟩
        all_goals
          intro group hgroup
          cases hgroup
    | append_singleton earlier message ih =>
        obtain ⟨hgroups, hstart⟩ := ih
        obtain ⟨hnext, hsome⟩ := isGrouping_growGroups hgroups hstart message
        rw [List.foldl_append]
        exact ⟨hnext, fun hnone => absurd hnone hsome⟩
  rw [ContextEngine.rawGroups_eq]
  exact (hrun messages).1

/-- No call is open where a group starts. -/
theorem WellPaired.of_flatten {groups : List (List ModelMessage)}
    (hheads : ∀ group ∈ groups.tail, ∃ message ∈ group.head?, message.role = .assistant)
    (hpaired : WellPaired groups.flatten) : ∀ group ∈ groups, WellPaired group := by
  induction groups with
  | nil =>
      intro group hgroup
      cases hgroup
  | cons first rest ih =>
      rw [WellPaired, List.flatten_cons, List.foldlM_append] at hpaired
      obtain ⟨pending, hfirst, hrest⟩ := Option.bind_eq_some_iff.mp hpaired
      have hclosed : pending = [] := by
        cases rest with
        | nil => exact Option.some.inj hrest
        | cons second later =>
            obtain ⟨message, hhead, hassistant⟩ := hheads second List.mem_cons_self
            obtain ⟨tail, rfl⟩ := List.head?_eq_some_iff.mp hhead
            rw [List.flatten_cons, List.cons_append, List.foldlM_cons] at hrest
            obtain ⟨next, hnext, -⟩ := Option.bind_eq_some_iff.mp hrest
            exact (answerCalls_assistant hassistant hnext).1
      subst hclosed
      refine List.forall_mem_cons.mpr ⟨hfirst, ih (fun group hgroup => ?_) hrest⟩
      exact hheads group (List.mem_of_mem_tail hgroup)

/-! ### The window -/

namespace ContextEngine

section Windows

variable [Redactor] {engine : ContextEngine} {messages : List ModelMessage} {tools : List ToolSpec}
  {plan : Option Plan} {options : BuildOptions} {window : ContextWindow}

/-- The messages as `build` goes on with them: redacted, shortened, and without superseded memory. -/
def normalized (engine : ContextEngine) (messages : List ModelMessage) (options : BuildOptions) :
    List ModelMessage :=
  excludeHistoryValues ((messages.map ModelMessage.redact).map engine.normalizeMessage)
    options.excludedHistoryValues (options.stablePrefixMessageCount + options.pinnedTailMessageCount)

/-- The messages after the stable prefix and the pinned tail. -/
def BuildOptions.history (options : BuildOptions) (messages : List ModelMessage) :
    List ModelMessage :=
  messages.drop (options.stablePrefixMessageCount + options.pinnedTailMessageCount)

theorem relabelled_redact (message : ModelMessage) :
    Relabelled Redactor.redactText message message.redact where
  role := rfl
  calls := by simp [ModelMessage.redact, ToolCall.redact]
  answer := rfl

theorem relabelled_normalize (engine : ContextEngine) (message : ModelMessage) :
    Relabelled Redactor.redactText message (engine.normalizeMessage message.redact) := by
  obtain ⟨hrole, hcalls, hanswer⟩ := relabelled_redact message
  unfold normalizeMessage
  split <;> exact ⟨hrole, hcalls, hanswer⟩

theorem relabelled_normalized (engine : ContextEngine) (messages : List ModelMessage)
    (options : BuildOptions) :
    List.Forall₂ (Relabelled Redactor.redactText) messages (engine.normalized messages options) := by
  have hkept : List.Forall₂ (Relabelled Redactor.redactText) messages
      ((messages.map ModelMessage.redact).map engine.normalizeMessage) := by
    rw [List.map_map, List.forall₂_map_right_iff, List.forall₂_same]
    exact fun message _ => relabelled_normalize engine message
  unfold normalized excludeHistoryValues
  generalize options.stablePrefixMessageCount + options.pinnedTailMessageCount = fixed
  conv =>
    arg 2
    rw [← List.take_append_drop fixed messages]
  refine List.rel_append (List.forall₂_take fixed hkept) ?_
  rw [List.forall₂_map_right_iff]
  exact (List.forall₂_drop fixed hkept).imp fun message after hafter =>
    ⟨hafter.role, hafter.calls, hafter.answer⟩

theorem safeRuntimeMemoryMessage_relabelled (engine : ContextEngine) (message : ModelMessage) :
    ∃ label, Relabelled label message (engine.safeRuntimeMemoryMessage message) := by
  unfold safeRuntimeMemoryMessage
  split
  · exact ⟨_, relabelled_redact message⟩
  · exact ⟨_, relabelled_redact message⟩
  · exact ⟨id, rfl, (List.map_id _).symm, (Option.map_id_apply).symm⟩

omit [Redactor] in
/-- The groups, each with its place. -/
theorem groups_map (engine : ContextEngine) (messages : List ModelMessage) (goal : String)
    (plan : Option Plan) :
    (engine.groups messages goal plan).map (fun group => (group.messages, group.stepIndex))
      = (rawGroups messages).zipIdx := by
  unfold groups
  rw [List.mapIdx_eq_zipIdx_map, List.map_map]
  exact List.map_id _

omit [Redactor] in
/-- Every group is kept in its place, or its place is reported. -/
theorem fitHistory_parts {selected dropped : List MessageGroup} {memory : Option ModelMessage}
    {history : List ModelMessage} {goal query : String} {budget : Nat}
    (hfit : engine.fitHistory (engine.groups history goal plan) plan query budget options
      = (selected, dropped, memory)) :
    (dropped.map MessageGroup.stepIndex).Sublist (List.range (rawGroups history).length)
      ∧ selected.flatMap MessageGroup.messages
        = ((rawGroups history).zipIdx.filter fun place =>
            place.2 ∉ dropped.map MessageGroup.stepIndex).flatMap Prod.fst := by
  have hplaces := engine.groups_map history goal plan
  generalize engine.groups history goal plan = groups at hfit hplaces
  obtain ⟨chosen, rfl, rfl⟩ : ∃ chosen : List Nat,
      selected = groups.filter (·.stepIndex ∈ chosen)
        ∧ dropped = groups.filter (·.stepIndex ∉ chosen) := by
    cases hfit
    exact ⟨_, rfl, rfl⟩
  have hsteps : groups.map MessageGroup.stepIndex = List.range (rawGroups history).length := by
    have hsnd := congrArg (List.map Prod.snd) hplaces
    rw [List.map_map, List.zipIdx_map_snd, ← List.range_eq_range'] at hsnd
    exact hsnd
  constructor
  · rw [← hsteps]
    exact List.filter_sublist.map _
  · have hkept : ((rawGroups history).zipIdx.filter fun place => place.2 ∈ chosen)
        = (groups.filter (·.stepIndex ∈ chosen)).map
          fun group => (group.messages, group.stepIndex) := by
      rw [← hplaces, List.filter_map]
      rfl
    have hfilter : (rawGroups history).zipIdx.filter (fun place =>
          place.2 ∉ (groups.filter (·.stepIndex ∉ chosen)).map MessageGroup.stepIndex)
        = (rawGroups history).zipIdx.filter fun place => place.2 ∈ chosen := by
      refine List.filter_congr fun place hplace => ?_
      rw [← hplaces] at hplace
      obtain ⟨group, hgroup, rfl⟩ := List.mem_map.mp hplace
      by_cases hchosen : group.stepIndex ∈ chosen
      · have hnot : group.stepIndex
            ∉ (groups.filter (·.stepIndex ∉ chosen)).map MessageGroup.stepIndex := by
          intro hmem
          obtain ⟨other, hother, hsame⟩ := List.mem_map.mp hmem
          have hdropped := of_decide_eq_true (List.mem_filter.mp hother).2
          rw [hsame] at hdropped
          exact hdropped hchosen
        rw [decide_eq_true hnot, decide_eq_true hchosen]
      · have hmem : group.stepIndex
            ∈ (groups.filter (·.stepIndex ∉ chosen)).map MessageGroup.stepIndex :=
          List.mem_map_of_mem (List.mem_filter.mpr ⟨hgroup, decide_eq_true hchosen⟩)
        rw [decide_eq_false (not_not.mpr hmem), decide_eq_false hchosen]
    rw [hfilter, hkept, List.flatMap_map]

/-- A window in its parts. -/
theorem build_assembles (hwindow : engine.build messages tools plan options = .ok window) :
    (options.taskMemoryRole = .system ∨ options.taskMemoryRole = .user)
      ∧ ∃ selected dropped taskMemory budget goal query,
        engine.fitHistory (engine.groups (options.history (engine.normalized messages options)) goal
            plan) plan query budget options = (selected, dropped, taskMemory)
        ∧ window = assemble
            ((engine.normalized messages options).take options.stablePrefixMessageCount)
            (((engine.normalized messages options).drop options.stablePrefixMessageCount).take
              options.pinnedTailMessageCount)
            (options.runtimeMemoryMessage.map engine.safeRuntimeMemoryMessage).toList
            selected dropped taskMemory options.taskMemoryInSystem := by
  unfold build at hwindow
  simp only [Except.bind_eq_ok_iff, refuseIf_eq_ok, Except.pure_eq_ok_iff] at hwindow
  obtain ⟨-, -, -, hrole, -, -, -, -, -, -, -, -, rfl⟩ := hwindow
  refine ⟨?_, _, _, _, _, _, _, rfl, rfl⟩
  rw [or_iff_not_imp_left]
  simpa using hrole

omit [Redactor] in
/-- The message about dropped groups neither calls a tool nor answers a call. -/
theorem wellPaired_taskMemory [FloatRepr] [PathPattern] {groups selected dropped : List MessageGroup}
    {taskMemory : Option ModelMessage} {goal : String} {budget : Nat}
    (hrole : options.taskMemoryRole = .system ∨ options.taskMemoryRole = .user)
    (hfit : engine.withTaskMemory.fitHistory groups plan goal budget options
      = (selected, dropped, taskMemory)) : WellPaired taskMemory.toList := by
  cases htold : taskMemory with
  | none => exact wellPaired_nil
  | some message =>
      subst htold
      have hbuilt : ∃ limit, engine.buildMemory dropped plan goal limit options.taskMemoryRole
          = some message := by
        obtain ⟨-, hrest⟩ := Prod.mk.inj hfit
        obtain ⟨rfl, hmessage⟩ := Prod.mk.inj hrest
        split at hmessage
        · exact ⟨_, hmessage⟩
        · cases hmessage
      obtain ⟨limit, hbuilt⟩ := hbuilt
      obtain ⟨-, content, rfl⟩ := buildMemory_eq_some hbuilt
      refine wellPaired_singleton_iff.mpr ⟨?_, fun _ => rfl⟩
      rcases hrole with hrole | hrole <;> simp [hrole]

omit [Redactor] in
/-- The first message may be longer in the window. -/
theorem assemble_base (base pinned runtimeMemory : List ModelMessage)
    (selected dropped : List MessageGroup) (taskMemory : Option ModelMessage) (inSystem : Bool) :
    ∃ note : String,
      (assemble base pinned runtimeMemory selected dropped taskMemory inSystem).base
        = base.modifyHead fun first => { first with content := first.content ++ note } := by
  have hsame : base = base.modifyHead fun first => { first with content := first.content ++ "" } := by
    cases base with
    | nil => rfl
    | cons first rest => rw [List.modifyHead_cons, String.append_empty]
  cases base with
  | nil =>
      refine ⟨"", ?_⟩
      unfold assemble
      cases inSystem <;> cases taskMemory <;> rfl
  | cons first rest =>
      cases inSystem with
      | false => exact ⟨"", hsame⟩
      | true =>
          cases taskMemory with
          | none => exact ⟨"", hsame⟩
          | some memory =>
              refine ⟨"\n\n" ++ memory.content, ?_⟩
              rw [List.modifyHead_cons, ← String.append_assoc]
              rfl

omit [Redactor] in
theorem relabelled_modifyHead {label : String → String} {earlier after : List ModelMessage}
    (hafter : List.Forall₂ (Relabelled label) earlier after) (note : String) :
    List.Forall₂ (Relabelled label) earlier
      (after.modifyHead fun first => { first with content := first.content ++ note }) := by
  cases hafter with
  | nil => exact .nil
  | cons hfirst hrest => exact .cons ⟨hfirst.role, hfirst.calls, hfirst.answer⟩ hrest

/-- In a window the stable messages, the first one with a note, and the pinned ones stand in place.
The history is made of whole groups, each kept in its order or reported once, and is well paired as
the history before; so is what stands after the pinned messages, if the runtime memory is, and the
whole window, if the messages in place are. -/
theorem build_wellPaired [FloatRepr] [PathPattern] (engine : ContextEngine)
    (messages : List ModelMessage) (tools : List ToolSpec) (plan : Option Plan) (options : BuildOptions)
    (window : ContextWindow) (hpaired : WellPaired (options.history messages))
    (hwindow : engine.withTaskMemory.build messages tools plan options = .ok window) :
    let normalized := engine.normalized messages options
    (∃ note : String, window.base = (normalized.take options.stablePrefixMessageCount).modifyHead
        fun first => { first with content := first.content ++ note })
      ∧ window.pinned = (normalized.drop options.stablePrefixMessageCount).take
          options.pinnedTailMessageCount
      ∧ WellPaired window.selected
      ∧ (WellPaired (window.memory ++ window.selected)
        ↔ ∀ message ∈ options.runtimeMemoryMessage, WellPaired [message])
      ∧ (WellPaired (messages.take
            (options.stablePrefixMessageCount + options.pinnedTailMessageCount)) →
          (∀ message ∈ options.runtimeMemoryMessage, WellPaired [message]) →
        WellPaired window.messages)
      ∧ ∃ groups, IsGrouping groups (options.history normalized)
        ∧ (∀ group ∈ groups, WellPaired group)
        ∧ window.droppedSteps.Sublist (List.range groups.length)
        ∧ window.selected = (groups.zipIdx.filter fun place =>
            place.2 ∉ window.droppedSteps).flatMap Prod.fst := by
  intro normalized
  obtain ⟨hrole, selected, dropped, taskMemory, budget, goal, query, hfit, rfl⟩ :=
    build_assembles hwindow
  have hafter := engine.relabelled_normalized messages options
  have hgrouping := rawGroups_isGrouping (options.history normalized)
  have hhistory : WellPaired (options.history normalized) :=
    hpaired.relabelled (List.forall₂_drop _ hafter)
  have hgroups : ∀ group ∈ rawGroups (options.history normalized), WellPaired group := by
    refine WellPaired.of_flatten hgrouping.heads ?_
    rwa [hgrouping.whole]
  obtain ⟨hdropped, hselected⟩ := fitHistory_parts hfit
  have hkept : WellPaired (selected.flatMap MessageGroup.messages) := by
    rw [hselected]
    refine WellPaired.flatten fun group hgroup => ?_
    obtain ⟨⟨kept, place⟩, hplace, rfl⟩ := List.mem_map.mp hgroup
    exact hgroups kept (List.fst_mem_of_mem_zipIdx (List.mem_of_mem_filter hplace))
  obtain ⟨note, hbase⟩ := assemble_base (normalized.take options.stablePrefixMessageCount)
    ((normalized.drop options.stablePrefixMessageCount).take options.pinnedTailMessageCount)
    (options.runtimeMemoryMessage.map engine.safeRuntimeMemoryMessage).toList selected dropped
    taskMemory options.taskMemoryInSystem
  have htail : WellPaired ((options.runtimeMemoryMessage.map engine.safeRuntimeMemoryMessage).toList
      ++ (if options.taskMemoryInSystem then [] else taskMemory.toList)
      ++ selected.flatMap MessageGroup.messages)
        ↔ ∀ message ∈ options.runtimeMemoryMessage, WellPaired [message] := by
    have hrest : WellPaired ((if options.taskMemoryInSystem then [] else taskMemory.toList)
        ++ selected.flatMap MessageGroup.messages) := by
      refine WellPaired.append ?_ hkept
      split
      · exact wellPaired_nil
      · exact wellPaired_taskMemory hrole hfit
    rw [List.append_assoc]
    cases options.runtimeMemoryMessage with
    | none => exact ⟨fun _ message hmessage => (by cases hmessage), fun _ => hrest⟩
    | some message =>
        obtain ⟨label, hlabel⟩ := engine.safeRuntimeMemoryMessage_relabelled message
        refine (wellPaired_cons_iff hrest).trans (hlabel.wellPaired_iff.trans ?_)
        simp
  refine ⟨⟨note, hbase⟩, rfl, hkept, htail, fun hfront hruntime => ?_, _, hgrouping, hgroups, hdropped,
    hselected⟩
  rw [List.take_add] at hfront
  have hstart := hfront.relabelled (List.rel_append
    (relabelled_modifyHead (List.forall₂_take options.stablePrefixMessageCount hafter) note)
    (List.forall₂_take options.pinnedTailMessageCount (List.forall₂_drop _ hafter)))
  rw [← hbase] at hstart
  rw [ContextWindow.messages, List.append_assoc]
  exact hstart.append (htail.mpr hruntime)

end Windows

end ContextEngine

/-! ### A window of one call -/

section Samples

local instance windowPairingRedactor : Redactor := Sample.passwordTexts

local instance windowPairingFloat : FloatRepr := Sample.floatRepr

local instance windowPairingPaths : PathPattern := ⟨fun _ => []⟩

namespace Sample

def answeredCall : List ModelMessage :=
  [{ role := .system, content := "instructions" }, { role := .user, content := "goal" },
    { role := .assistant, content := "", toolCalls := [{ id := "call", name := "read_file" }] },
    { role := .tool, content := "text", toolCallId := some "call" },
    { role := .user, content := "and then" }]

end Sample

theorem ContextEngine.build_wellPaired_answered :
    ∃ window, Sample.engine.withTaskMemory.build Sample.answeredCall [] none {} = .ok window
      ∧ WellPaired window.selected := by
  obtain ⟨window, hwindow⟩ : ∃ window,
      Sample.engine.withTaskMemory.build Sample.answeredCall [] none {} = .ok window :=
    Except.isOk_eq_true_iff.mp (by decide +kernel)
  exact ⟨window, hwindow, (ContextEngine.build_wellPaired Sample.engine Sample.answeredCall [] none {}
    window (by decide +kernel) hwindow).2.2.1⟩

end Samples

end PatchLoop
