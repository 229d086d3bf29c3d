import PatchLoop.Safety.WindowPairing

/-!
# Windows stay within the budget

The tokens of a message are estimated from the bytes of its JSON text, rounded up for each message. What is
added to the system message costs no more there than it would as a message of its own, so that the budget
that was split between the groups and the task memory holds for the window that is put together.
-/

namespace PatchLoop

/-! ### Estimates -/

theorem thirds_add (first second : Nat) : thirds (first + second) ≤ thirds first + thirds second := by
  unfold thirds
  omega

theorem thirds_mono {less more : Nat} (hle : less ≤ more) : thirds less ≤ thirds more := by
  unfold thirds
  omega

theorem estimateMessages_append (first second : List ModelMessage) :
    estimateMessages (first ++ second) = estimateMessages first + estimateMessages second := by
  unfold estimateMessages
  rw [List.map_append, List.sum_append]

theorem estimateMessages_cons (first : ModelMessage) (rest : List ModelMessage) :
    estimateMessages (first :: rest) = estimateMessage first + estimateMessages rest := by
  unfold estimateMessages
  rw [List.map_cons, List.sum_cons]

/-- The bytes of the text of a message beside those of its content. -/
def ModelMessage.frameSize (message : ModelMessage) : Nat :=
  ("\x7b" ++ (Json.quote "content" ++ ": ")).utf8ByteSize
    + (", " ++ ", ".intercalate (Json.dumpsSpacedFields [("role", .str message.role.value),
        ("tool_call_id", .ofOption message.toolCallId),
        ("tool_calls", .arr (message.toolCalls.map ToolCall.dump))]) ++ "\x7d").utf8ByteSize

theorem utf8ByteSize_dump (message : ModelMessage) :
    message.dump.dumpsSpaced.utf8ByteSize
      = (Json.quote message.content).utf8ByteSize + message.frameSize := by
  have htext : message.dump.dumpsSpaced = "\x7b" ++ (Json.quote "content" ++ ": ")
      ++ Json.quote message.content ++ (", " ++ ", ".intercalate (Json.dumpsSpacedFields
        [("role", .str message.role.value), ("tool_call_id", .ofOption message.toolCallId),
        ("tool_calls", .arr (message.toolCalls.map ToolCall.dump))]) ++ "\x7d") := by
    simp only [ModelMessage.dump, Json.dumpsSpaced, Json.dumpsSpacedFields, Json.dumps,
      String.intercalate_cons_cons, String.intercalate_singleton, String.append_assoc]
  rw [htext, ModelMessage.frameSize]
  simp only [String.utf8ByteSize_append]
  omega

theorem utf8ByteSize_quote_append (first second : String) :
    (Json.quote (first ++ second)).utf8ByteSize + 2
      = (Json.quote first).utf8ByteSize + (Json.quote second).utf8ByteSize := by
  unfold Json.quote
  rw [String.toList_append, List.flatMap_append, String.ofList_append]
  simp only [String.utf8ByteSize_append]
  have hmark : "\"".utf8ByteSize = 1 := rfl
  omega

/-- A text costs no more at the end of another message than in a message of its own. -/
theorem estimateMessage_merge (first memory : ModelMessage) :
    estimateMessage { first with content := first.content ++ "\n\n" ++ memory.content }
      ≤ estimateMessage first + estimateMessage memory := by
  have hframe : ModelMessage.frameSize
      { first with content := first.content ++ "\n\n" ++ memory.content } = first.frameSize := rfl
  have hbreak : (Json.quote "\n\n").utf8ByteSize = 6 := by decide
  have hfirst := utf8ByteSize_quote_append (first.content ++ "\n\n") memory.content
  have hstart := utf8ByteSize_quote_append first.content "\n\n"
  have hroom : 2 ≤ memory.frameSize := by
    have hcontent : ("\x7b" ++ (Json.quote "content" ++ ": ")).utf8ByteSize = 12 := by decide
    rw [ModelMessage.frameSize, hcontent]
    omega
  unfold estimateMessage
  rw [utf8ByteSize_dump, utf8ByteSize_dump, utf8ByteSize_dump, hframe]
  have hsum := thirds_add ((Json.quote first.content).utf8ByteSize + first.frameSize)
    ((Json.quote memory.content).utf8ByteSize + memory.frameSize)
  have hbytes : (Json.quote (first.content ++ "\n\n" ++ memory.content)).utf8ByteSize + first.frameSize
      ≤ (Json.quote first.content).utf8ByteSize + first.frameSize
        + ((Json.quote memory.content).utf8ByteSize + memory.frameSize) := by omega
  have hmono := thirds_mono hbytes
  dsimp only
  omega

/-! ### The groups that are chosen -/

/-- The tokens of the groups at the places. -/
def tokensAt (chosen : List Nat) (groups : List MessageGroup) : Nat :=
  ((groups.filter (·.stepIndex ∈ chosen)).map MessageGroup.estimatedTokens).sum

theorem tokensAt_perm {groups others : List MessageGroup} (chosen : List Nat)
    (hperm : groups.Perm others) : tokensAt chosen groups = tokensAt chosen others :=
  ((hperm.filter _).map _).sum_nat

/-- One round of the loop that chooses groups. -/
def chooseGroup (state : List Nat × Nat) (group : MessageGroup) : List Nat × Nat :=
  if group.estimatedTokens ≤ state.2 then
    (group.stepIndex :: state.1, state.2 - group.estimatedTokens)
  else state

/-- The groups that are chosen and what is left make up the budget. -/
theorem tokensAt_chooseGroup {state : List Nat × Nat} {earlier : List MessageGroup}
    {group : MessageGroup} {budget : Nat} (hbudget : tokensAt state.1 earlier + state.2 = budget)
    (hchosen : state.1 ⊆ earlier.map MessageGroup.stepIndex)
    (hnew : group.stepIndex ∉ earlier.map MessageGroup.stepIndex) :
    tokensAt (chooseGroup state group).1 (earlier ++ [group]) + (chooseGroup state group).2 = budget
      ∧ (chooseGroup state group).1 ⊆ (earlier ++ [group]).map MessageGroup.stepIndex := by
  have hout : group.stepIndex ∉ state.1 := fun hmem => hnew (hchosen hmem)
  have hmore : state.1 ⊆ (earlier ++ [group]).map MessageGroup.stepIndex := by
    rw [List.map_append]
    exact fun place hplace => List.mem_append_left _ (hchosen hplace)
  unfold chooseGroup
  split
  · rename_i hfits
    have hsame : earlier.filter (·.stepIndex ∈ group.stepIndex :: state.1)
        = earlier.filter (·.stepIndex ∈ state.1) := by
      refine List.filter_congr fun other hother => ?_
      have hne : other.stepIndex ≠ group.stepIndex := by
        intro heq
        exact hnew (heq ▸ List.mem_map_of_mem hother)
      simp [hne]
    have htokens : tokensAt (group.stepIndex :: state.1) (earlier ++ [group])
        = tokensAt state.1 earlier + group.estimatedTokens := by
      unfold tokensAt
      rw [List.filter_append, hsame, List.map_append, List.sum_append]
      simp
    refine ⟨?_, List.cons_subset.mpr ⟨?_, hmore⟩⟩
    · rw [htokens]
      omega
    · exact List.mem_map_of_mem (List.mem_append_right _ List.mem_cons_self)
  · refine ⟨?_, hmore⟩
    have htokens : tokensAt state.1 (earlier ++ [group]) = tokensAt state.1 earlier := by
      unfold tokensAt
      rw [List.filter_append]
      simp [hout]
    rw [htokens]
    exact hbudget

theorem tokensAt_selectGroups {groups : List MessageGroup} {budget remaining : Nat}
    {chosen : List Nat} (hdistinct : (groups.map MessageGroup.stepIndex).Nodup)
    (hselect : ContextEngine.selectGroups groups budget = (chosen, remaining)) :
    tokensAt chosen groups + remaining = budget := by
  have hrun : ∀ ranked : List MessageGroup, (ranked.map MessageGroup.stepIndex).Nodup →
      tokensAt (ranked.foldl chooseGroup ([], budget)).1 ranked
          + (ranked.foldl chooseGroup ([], budget)).2 = budget
        ∧ (ranked.foldl chooseGroup ([], budget)).1 ⊆ ranked.map MessageGroup.stepIndex := by
    intro ranked hranked
    induction ranked using List.reverseRecOn with
    | nil => exact ⟨Nat.zero_add budget, List.Subset.refl []⟩
    | append_singleton earlier group ih =>
        rw [List.map_append, List.nodup_append] at hranked
        obtain ⟨hearlier, -, hapart⟩ := hranked
        obtain ⟨hbudget, hchosen⟩ := ih hearlier
        rw [List.foldl_append]
        refine tokensAt_chooseGroup hbudget hchosen fun hmem => ?_
        exact hapart _ hmem _ (List.mem_map_of_mem List.mem_cons_self) rfl
  have hperm := List.perm_insertionSort ContextEngine.Precedes groups
  have hranked := hrun (groups.insertionSort ContextEngine.Precedes)
    ((hperm.map _).nodup_iff.mpr hdistinct)
  have hstate : (groups.insertionSort ContextEngine.Precedes).foldl chooseGroup ([], budget)
      = (chosen, remaining) := hselect
  rw [hstate, tokensAt_perm chosen hperm] at hranked
  exact hranked.1

/-! ### The window -/

namespace ContextEngine

section Windows

variable [Redactor] {engine : ContextEngine} {messages : List ModelMessage} {tools : List ToolSpec}
  {plan : Option Plan} {options : BuildOptions} {window : ContextWindow}

/-- What every window of the request holds. -/
def fixedTokens (engine : ContextEngine) (messages : List ModelMessage) (tools : List ToolSpec)
    (options : BuildOptions) : Nat :=
  let normalized := engine.normalized messages options
  estimateTools tools + estimateMessages (normalized.take options.stablePrefixMessageCount)
    + estimateMessages ((normalized.drop options.stablePrefixMessageCount).take
      options.pinnedTailMessageCount)
    + estimateMessages (options.runtimeMemoryMessage.map engine.safeRuntimeMemoryMessage).toList

/-- The text of the error where that exceeds the budget. -/
def mandatoryText (engine : ContextEngine) (messages : List ModelMessage) (tools : List ToolSpec)
    (options : BuildOptions) : String :=
  let fixedTokens := engine.fixedTokens messages tools options
  s!"mandatory context requires {fixedTokens} tokens, budget is {engine.maxTokens}"

/-- `history_budget_tokens` -/
def historyBudget (engine : ContextEngine) (messages : List ModelMessage) (tools : List ToolSpec)
    (options : BuildOptions) : Nat :=
  let available := engine.maxTokens - engine.fixedTokens messages tools options
  (options.historyTokenBudget.map (min available)).getD available

/-- The arguments that `build` accepts. -/
structure BuildOptions.Admits (options : BuildOptions) (messages : List ModelMessage) : Prop where
  head : 2 ≤ options.stablePrefixMessageCount
  role : options.taskMemoryRole ∈ [MessageRole.system, .user]
  long : options.stablePrefixMessageCount + options.pinnedTailMessageCount ≤ messages.length

omit [Redactor] in
theorem groups_estimated (engine : ContextEngine) (history : List ModelMessage) (goal : String)
    (plan : Option Plan) :
    ∀ group ∈ engine.groups history goal plan,
      group.estimatedTokens = estimateMessages group.messages := by
  intro group hgroup
  unfold groups at hgroup
  rw [List.mapIdx_eq_zipIdx_map] at hgroup
  obtain ⟨place, -, rfl⟩ := List.mem_map.mp hgroup
  rfl

omit [Redactor] in
theorem estimateMessages_flatMap {groups : List MessageGroup}
    (hestimated : ∀ group ∈ groups, group.estimatedTokens = estimateMessages group.messages) :
    estimateMessages (groups.flatMap MessageGroup.messages)
      = (groups.map MessageGroup.estimatedTokens).sum := by
  induction groups with
  | nil => rfl
  | cons group rest ih =>
      obtain ⟨hgroup, hrest⟩ := List.forall_mem_cons.mp hestimated
      rw [List.flatMap_cons, estimateMessages_append, ih hrest, List.map_cons, List.sum_cons, hgroup]

omit [Redactor] in
/-- The groups that are kept and the message about the others share the budget for the history. -/
theorem fitHistory_le [FloatRepr] [PathPattern] {history : List ModelMessage} {goal query : String}
    {budget : Nat} {selected dropped : List MessageGroup} {taskMemory : Option ModelMessage}
    (hfit : engine.withTaskMemory.fitHistory (engine.withTaskMemory.groups history goal plan) plan query
      budget options = (selected, dropped, taskMemory)) :
    estimateMessages (selected.flatMap MessageGroup.messages) + estimateMessages taskMemory.toList
      ≤ budget := by
  have hestimated := engine.withTaskMemory.groups_estimated history goal plan
  have hdistinct : ((engine.withTaskMemory.groups history goal plan).map
      MessageGroup.stepIndex).Nodup := by
    have hplaces := congrArg (List.map Prod.snd) (engine.withTaskMemory.groups_map history goal plan)
    rw [List.map_map, List.zipIdx_map_snd, ← List.range_eq_range'] at hplaces
    have hsteps : (engine.withTaskMemory.groups history goal plan).map MessageGroup.stepIndex
        = List.range (rawGroups history).length := hplaces
    rw [hsteps]
    exact List.nodup_range
  generalize engine.withTaskMemory.groups history goal plan = groups at hfit hestimated hdistinct
  obtain ⟨reserve, chosen, remaining, hreserve, hselect, rfl, hmemory⟩ : ∃ reserve chosen remaining,
      reserve ≤ budget ∧ selectGroups groups (budget - reserve) = (chosen, remaining)
        ∧ selected = groups.filter (·.stepIndex ∈ chosen)
        ∧ ∀ message ∈ taskMemory, engine.buildMemory dropped plan query (reserve + remaining)
          options.taskMemoryRole = some message := by
    cases hfit
    refine ⟨_, _, _, ?_, rfl, rfl, fun message hmessage => ?_⟩
    · split
      · rename_i hroom
        omega
      · exact Nat.zero_le _
    · split at hmessage
      · exact hmessage
      · cases hmessage
  have htokens := tokensAt_selectGroups hdistinct hselect
  have hselected : estimateMessages ((groups.filter (·.stepIndex ∈ chosen)).flatMap
      MessageGroup.messages) = tokensAt chosen groups :=
    estimateMessages_flatMap fun group hgroup => hestimated group (List.mem_of_mem_filter hgroup)
  have htold : estimateMessages taskMemory.toList ≤ reserve + remaining := by
    cases htask : taskMemory with
    | none => exact Nat.zero_le _
    | some message =>
        exact (buildMemory_eq_some (hmemory message htask)).1
  rw [hselected]
  omega

omit [Redactor] in
/-- Putting the parts together adds nothing to their tokens. -/
theorem estimateMessages_assemble (base pinned runtimeMemory : List ModelMessage)
    (selected dropped : List MessageGroup) (taskMemory : Option ModelMessage) (inSystem : Bool) :
    estimateMessages
        (assemble base pinned runtimeMemory selected dropped taskMemory inSystem).messages
      ≤ estimateMessages base + estimateMessages pinned + estimateMessages runtimeMemory
        + (estimateMessages (selected.flatMap MessageGroup.messages)
          + estimateMessages taskMemory.toList) := by
  have hparts : estimateMessages
      (assemble base pinned runtimeMemory selected dropped taskMemory inSystem).messages
        = estimateMessages
            (assemble base pinned runtimeMemory selected dropped taskMemory inSystem).base
          + estimateMessages pinned + (estimateMessages runtimeMemory
            + estimateMessages (if inSystem then [] else taskMemory.toList))
          + estimateMessages (selected.flatMap MessageGroup.messages) := by
    rw [ContextWindow.messages, estimateMessages_append, estimateMessages_append,
      estimateMessages_append]
    exact congrArg (_ + _ + · + _) (estimateMessages_append _ _)
  have hnone : estimateMessages [] = 0 := rfl
  rw [hparts]
  cases inSystem with
  | false =>
      change estimateMessages base + _ + (_ + estimateMessages taskMemory.toList) + _ ≤ _
      omega
  | true =>
      change _ + _ + (_ + estimateMessages []) + _ ≤ _
      cases taskMemory with
      | none =>
          change estimateMessages base + _ + _ + _ ≤ _
          omega
      | some memory =>
          have htold : estimateMessages (some memory).toList = estimateMessage memory := Nat.add_zero _
          cases base with
          | nil =>
              change estimateMessages [] + _ + _ + _ ≤ _
              omega
          | cons first rest =>
              have hmerge := estimateMessage_merge first memory
              change estimateMessages (_ :: rest) + _ + _ + _ ≤ _
              rw [estimateMessages_cons, estimateMessages_cons]
              omega

theorem pinned_length (engine : ContextEngine) (messages : List ModelMessage)
    (options : BuildOptions) (hhead : options.stablePrefixMessageCount ≤ messages.length) :
    (((engine.normalized messages options).drop options.stablePrefixMessageCount).take
        options.pinnedTailMessageCount).length = options.pinnedTailMessageCount
      ↔ options.stablePrefixMessageCount + options.pinnedTailMessageCount ≤ messages.length := by
  have hlength := (engine.relabelled_normalized messages options).length_eq
  rw [List.length_take, List.length_drop, ← hlength]
  omega

/-- The history that goes into the window, what of it does not, and the message about that. -/
def fitted (engine : ContextEngine) (messages : List ModelMessage) (tools : List ToolSpec)
    (plan : Option Plan) (options : BuildOptions) :
    List MessageGroup × List MessageGroup × Option ModelMessage :=
  let normalized := engine.normalized messages options
  let goal := (((normalized.take options.stablePrefixMessageCount).getLast?).map
    ModelMessage.content).getD ""
  engine.fitHistory (engine.groups (options.history normalized) goal plan) plan goal
    (engine.historyBudget messages tools options) options

/-- The window that `build` puts together. -/
def assembled (engine : ContextEngine) (messages : List ModelMessage) (tools : List ToolSpec)
    (plan : Option Plan) (options : BuildOptions) : ContextWindow :=
  let normalized := engine.normalized messages options
  let (selected, dropped, taskMemory) := engine.fitted messages tools plan options
  assemble (normalized.take options.stablePrefixMessageCount)
    ((normalized.drop options.stablePrefixMessageCount).take options.pinnedTailMessageCount)
    (options.runtimeMemoryMessage.map engine.safeRuntimeMemoryMessage).toList selected dropped
    taskMemory options.taskMemoryInSystem

theorem build_eq :
    engine.build messages tools plan options = (do
      refuseIf (options.stablePrefixMessageCount < 2)
        (.valueError "stable prompt prefix must contain system and user messages")
      refuseIf (options.taskMemoryRole ∉ [MessageRole.system, .user])
        (.valueError "task memory role must be system or user")
      refuseIf (messages.length < options.stablePrefixMessageCount)
        (.valueError "context requires system and user messages")
      refuseIf ((((engine.normalized messages options).drop options.stablePrefixMessageCount).take
          options.pinnedTailMessageCount).length ≠ options.pinnedTailMessageCount)
        (.valueError "pinned tail messages exceed the available context")
      let fixedTokens := engine.fixedTokens messages tools options
      refuseIf (engine.maxTokens < fixedTokens) (.contextBudgetError
        s!"mandatory context requires {fixedTokens} tokens, budget is {engine.maxTokens}")
      let window := engine.assembled messages tools plan options
      let estimatedTokens := estimateMessages window.messages + estimateTools tools
      refuseIf (engine.maxTokens < estimatedTokens) (.contextBudgetError
        s!"assembled context requires {estimatedTokens} tokens, budget is {engine.maxTokens}")
      return window) :=
  rfl

omit [Redactor] in
theorem refuseIf_bind_of {α : Type} {refused : Prop} [Decidable refused] {error : ContextError}
    {rest : Unit → Except ContextError α} (hrefused : refused) :
    (refuseIf refused error >>= rest) = .error error := by
  rw [refuseIf, if_pos hrefused]
  rfl

omit [Redactor] in
theorem refuseIf_bind_of_not {α : Type} {refused : Prop} [Decidable refused] {error : ContextError}
    {rest : Unit → Except ContextError α} (hkept : ¬ refused) :
    (refuseIf refused error >>= rest) = rest () := by
  rw [refuseIf, if_neg hkept]
  rfl

/-- Where its arguments are not accepted, `build` says so. -/
theorem build_of_not_admits (hnot : ¬ options.Admits messages) :
    ∃ text, engine.build messages tools plan options = .error (.valueError text) := by
  rw [build_eq]
  by_cases hhead : options.stablePrefixMessageCount < 2
  · exact ⟨_, refuseIf_bind_of hhead⟩
  rw [refuseIf_bind_of_not hhead]
  by_cases hrole : options.taskMemoryRole ∉ [MessageRole.system, .user]
  · exact ⟨_, refuseIf_bind_of hrole⟩
  rw [refuseIf_bind_of_not hrole]
  by_cases hshort : messages.length < options.stablePrefixMessageCount
  · exact ⟨_, refuseIf_bind_of hshort⟩
  rw [refuseIf_bind_of_not hshort]
  have hpinned := engine.pinned_length messages options (Nat.le_of_not_lt hshort)
  exact ⟨_, refuseIf_bind_of fun hlong =>
    hnot ⟨Nat.le_of_not_lt hhead, not_not.mp hrole, hpinned.mp hlong⟩⟩

/-- Where they are, only the two budget checks are left. -/
theorem build_of_admits (hadmits : options.Admits messages) :
    engine.build messages tools plan options = (do
      let fixedTokens := engine.fixedTokens messages tools options
      refuseIf (engine.maxTokens < fixedTokens) (.contextBudgetError
        s!"mandatory context requires {fixedTokens} tokens, budget is {engine.maxTokens}")
      let window := engine.assembled messages tools plan options
      let estimatedTokens := estimateMessages window.messages + estimateTools tools
      refuseIf (engine.maxTokens < estimatedTokens) (.contextBudgetError
        s!"assembled context requires {estimatedTokens} tokens, budget is {engine.maxTokens}")
      return window) := by
  have hshort : options.stablePrefixMessageCount ≤ messages.length :=
    (Nat.le_add_right _ _).trans hadmits.long
  have hpinned := (engine.pinned_length messages options hshort).mpr hadmits.long
  rw [build_eq, refuseIf_bind_of_not (Nat.not_lt_of_le hadmits.head),
    refuseIf_bind_of_not (not_not.mpr hadmits.role),
    refuseIf_bind_of_not (Nat.not_lt_of_le hshort), refuseIf_bind_of_not (not_not.mpr hpinned)]

/-- The window takes no more than what is fixed and the budget for the history. -/
theorem estimate_assembled_le [FloatRepr] [PathPattern] (engine : ContextEngine)
    (messages : List ModelMessage) (tools : List ToolSpec) (plan : Option Plan)
    (options : BuildOptions) :
    estimateMessages (engine.withTaskMemory.assembled messages tools plan options).messages
        + estimateTools tools
      ≤ engine.fixedTokens messages tools options
        + engine.historyBudget messages tools options := by
  rcases hfit : engine.withTaskMemory.fitted messages tools plan options
    with ⟨selected, dropped, taskMemory⟩
  have hhistory := fitHistory_le hfit
  have hparts := estimateMessages_assemble
    ((engine.normalized messages options).take options.stablePrefixMessageCount)
    (((engine.normalized messages options).drop options.stablePrefixMessageCount).take
      options.pinnedTailMessageCount)
    (options.runtimeMemoryMessage.map engine.safeRuntimeMemoryMessage).toList selected dropped
    taskMemory options.taskMemoryInSystem
  have hwindow : engine.withTaskMemory.assembled messages tools plan options
      = assemble ((engine.normalized messages options).take options.stablePrefixMessageCount)
        (((engine.normalized messages options).drop options.stablePrefixMessageCount).take
          options.pinnedTailMessageCount)
        (options.runtimeMemoryMessage.map engine.safeRuntimeMemoryMessage).toList selected dropped
        taskMemory options.taskMemoryInSystem := by
    unfold assembled
    rw [hfit]
    rfl
  rw [hwindow]
  unfold fixedTokens
  change _ ≤ engine.historyBudget messages tools options at hhistory
  dsimp only
  omega

theorem historyBudget_le (engine : ContextEngine) (messages : List ModelMessage)
    (tools : List ToolSpec) (options : BuildOptions) :
    engine.historyBudget messages tools options
      ≤ engine.maxTokens - engine.fixedTokens messages tools options := by
  unfold historyBudget
  cases options.historyTokenBudget with
  | none => exact Nat.le_refl _
  | some budget => exact Nat.min_le_left _ _

end Windows

end ContextEngine

end PatchLoop
