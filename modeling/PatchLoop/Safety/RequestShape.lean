import PatchLoop.Lib.Bytes
import PatchLoop.Lib.Fallible
import PatchLoop.PromptCache.Coordinator
import PatchLoop.Safety.PublishedMemory

/-!
# The shape of a request

In the stable layout a request is the frozen head of its epoch, then what was published of the memory, then
the history that was selected. The publications pass through the redactor on their way, and are recognised
only if it leaves them as they are.
-/

namespace PatchLoop

/-! ### The epoch -/

theorem CacheEpoch.materialize_eq_ok {epoch : CacheEpoch} {messages out : List ModelMessage} :
    epoch.materialize messages = .ok out
      ↔ epoch.prefixMessageCount ≤ messages.length
        ∧ out = epoch.prefixMessages ++ messages.drop epoch.prefixMessageCount := by
  unfold CacheEpoch.materialize
  split
  · rename_i hshort
    exact ⟨fun hok => (by cases hok), fun hok => absurd hok.1 (Nat.not_le_of_lt hshort)⟩
  · rename_i hlong
    rw [Except.ok.injEq, eq_comm]
    exact ⟨fun hout => ⟨Nat.le_of_not_lt hlong, hout⟩, fun hok => hok.2⟩

theorem CacheEpoch.drop_frozen (epoch : CacheEpoch) (tail : List ModelMessage) :
    (epoch.prefixMessages ++ tail).drop epoch.prefixMessageCount = tail :=
  List.drop_left

theorem CacheEpoch.take_frozen (epoch : CacheEpoch) (tail : List ModelMessage) :
    (epoch.prefixMessages ++ tail).take epoch.prefixMessageCount = epoch.prefixMessages :=
  List.take_left

/-- The messages of a valid snapshot have different fingerprints. -/
theorem MemoryPublicationSnapshot.nodup_of_valid [Sha256] {snapshot : MemoryPublicationSnapshot}
    {u : Unit} (hvalid : snapshot.validatePublication = .ok u) :
    snapshot.messageFingerprints.Nodup := by
  by_contra hdouble
  unfold MemoryPublicationSnapshot.validatePublication at hvalid
  simp only [hdouble, not_false_eq_true, if_true] at hvalid
  split at hvalid
  · cases hvalid
  split at hvalid <;> cases hvalid

/-! ### Materializing -/

/-- What stands after the publications: the tail, without the publications where it starts with them. -/
def afterPublications (published tail : List ModelMessage) : List ModelMessage :=
  if tail.take published.length = published then tail.drop published.length else tail

theorem afterPublications_append (published rest : List ModelMessage) :
    afterPublications published (published ++ rest) = rest := by
  rw [afterPublications, List.take_left, if_pos rfl, List.drop_left]

namespace PromptCacheCoordinator

section Materializing

variable [FloatRepr] [Sha256] {coordinator next : PromptCacheCoordinator} {epoch : CacheEpoch}

/-- What `materialize_messages` returns in the stable layout. -/
theorem materializeMessages_eq_ok {messages out : List ModelMessage} {projection : Option String}
    (hepoch : coordinator.epoch = some epoch) :
    coordinator.materializeMessages messages projection = .ok (next, out)
      ↔ epoch.prefixMessageCount ≤ messages.length
        ∧ coordinator.withProjection epoch.epochId projection = .ok next
        ∧ out = epoch.prefixMessages ++ next.publicationMessages
          ++ afterPublications next.publicationMessages (messages.drop epoch.prefixMessageCount) := by
  unfold materializeMessages
  rw [hepoch]
  simp only [Except.bind_eq_ok_iff, Except.mapError_eq_ok_iff, Except.pure_eq_ok_iff,
    CacheEpoch.materialize_eq_ok, Prod.mk.injEq]
  have hout : ∀ published : List ModelMessage,
      (if published = [] ∨ ((epoch.prefixMessages ++ messages.drop epoch.prefixMessageCount).drop
            epoch.prefixMessageCount).take published.length = published
        then epoch.prefixMessages ++ messages.drop epoch.prefixMessageCount
        else (epoch.prefixMessages ++ messages.drop epoch.prefixMessageCount).take
            epoch.prefixMessageCount ++ published
          ++ (epoch.prefixMessages ++ messages.drop epoch.prefixMessageCount).drop
            epoch.prefixMessageCount)
      = epoch.prefixMessages ++ published
        ++ afterPublications published (messages.drop epoch.prefixMessageCount) := by
    intro published
    rw [epoch.drop_frozen, epoch.take_frozen, afterPublications]
    generalize messages.drop epoch.prefixMessageCount = tail
    by_cases hempty : published = []
    · simp [hempty]
    · by_cases hstarts : tail.take published.length = published
      · rw [if_pos (Or.inr hstarts), if_pos hstarts, List.append_assoc]
        congr 1
        conv_lhs => rw [← List.take_append_drop published.length tail, hstarts]
      · rw [if_neg (not_or.mpr ⟨hempty, hstarts⟩), if_neg hstarts]
  constructor
  · rintro ⟨request, ⟨hlong, rfl⟩, moved, hmoved, rfl, rfl⟩
    exact ⟨hlong, hmoved, hout _⟩
  · rintro ⟨hlong, hmoved, rfl⟩
    exact ⟨_, ⟨hlong, rfl⟩, next, hmoved, rfl, hout _⟩

theorem withProjection_epoch {epochId : String} {projection : Option String}
    (hmoved : coordinator.withProjection epochId projection = .ok next) :
    next.epoch = coordinator.epoch := by
  cases projection with
  | none =>
      cases hmoved
      rfl
  | some projection =>
      obtain ⟨result, -, rfl⟩ := Except.map_eq_ok_iff.mp hmoved
      rfl

/-- Publications are system messages that are only text. -/
def IsPublication (message : ModelMessage) : Prop :=
  message.role = .system ∧ message.toolCalls = [] ∧ message.toolCallId = none

omit [FloatRepr] in
theorem stateFor_fields {epochId snapshotFingerprint currentFingerprint : String} {payload : Json}
    {messages : List ModelMessage} {deltaCount : Nat} {snapshot : MemoryPublicationSnapshot}
    (hstate : stateFor epochId snapshotFingerprint currentFingerprint payload messages deltaCount
      = .ok snapshot) :
    snapshot.epochId = epochId ∧ snapshot.currentFingerprint = currentFingerprint
      ∧ snapshot.messages = messages ∧ messages.Nodup := by
  obtain ⟨⟨⟩, hvalid, hsnapshot⟩ := Except.bind_eq_ok_iff.mp hstate
  cases hsnapshot
  exact ⟨rfl, rfl, rfl, (MemoryPublicationSnapshot.nodup_of_valid hvalid).of_map _⟩

omit [FloatRepr] in
/-- A payload is either taken for known, or becomes the current one of the epoch with one more message. -/
theorem publishPayload_cases {publisher after : MemoryDeltaPublisher} {epochId : String}
    {payload : Json} {message : Option ModelMessage}
    (hreturns : publisher.publishPayload epochId payload = .ok (after, message)) :
    (after = publisher ∧ publisher.publishPayload epochId payload = .ok (publisher, none)
        ∧ (MemoryDeltaPublisher.published epochId payload (publisher.stateIn epochId)).2 = none)
      ∨ ∃ snapshot new, after.stateIn epochId = some snapshot
        ∧ snapshot.currentFingerprint = payloadFingerprint payload ∧ IsPublication new
        ∧ (MemoryDeltaPublisher.published epochId payload (publisher.stateIn epochId)).2 = some new
        ∧ snapshot.messages
          = ((publisher.stateIn epochId).map MemoryPublicationSnapshot.messages).getD [] ++ [new]
        ∧ snapshot.messages.Nodup := by
  have hkept := hreturns
  unfold MemoryDeltaPublisher.publishPayload at hreturns
  cases hstate : publisher.stateIn epochId with
  | none =>
      rw [hstate] at hreturns
      obtain ⟨snapshot, hsnapshot, hreturns⟩ := Except.bind_eq_ok_iff.mp hreturns
      obtain ⟨hid, hcurrent, hmessages, hnodup⟩ := stateFor_fields hsnapshot
      cases hreturns
      exact Or.inr ⟨snapshot, _, MemoryDeltaPublisher.stateIn_eq_some.mpr ⟨rfl, hid⟩, hcurrent,
        ⟨rfl, rfl, rfl⟩, rfl, hmessages, hmessages ▸ hnodup⟩
  | some old =>
      rw [hstate] at hreturns
      dsimp only at hreturns
      rw [MemoryDeltaPublisher.published]
      split at hreturns
      · rename_i hcurrent
        have hskips : old.Skips payload := Or.inl hcurrent
        cases hreturns
        exact Or.inl ⟨rfl, hkept, by rw [if_pos hskips]⟩
      rename_i hchanged
      split at hreturns
      · cases hreturns
      split at hreturns
      · rename_i hold
        have hskips : old.Skips payload := Or.inr hold
        cases hreturns
        exact Or.inl ⟨rfl, hkept, by rw [if_pos hskips]⟩
      · rename_i hnew
        have hunknown : ¬ old.Skips payload := fun hskips => hskips.elim hchanged hnew
        obtain ⟨snapshot, hsnapshot, hreturns⟩ := Except.bind_eq_ok_iff.mp hreturns
        obtain ⟨hid, hcurrent, hmessages, hnodup⟩ := stateFor_fields hsnapshot
        cases hreturns
        refine Or.inr ⟨snapshot, _, MemoryDeltaPublisher.stateIn_eq_some.mpr ⟨rfl, hid⟩, hcurrent,
          ⟨rfl, rfl, rfl⟩, ?_, hmessages, hmessages ▸ hnodup⟩
        rw [if_neg hunknown]

/-- A projection that was just published is published no second time. -/
theorem publish_again {publisher after : MemoryDeltaPublisher} {epochId projection : String}
    {message : Option ModelMessage}
    (hreturns : publisher.publish epochId projection = .ok (after, message)) :
    after.publish epochId projection = .ok (after, none) := by
  unfold MemoryDeltaPublisher.publish at hreturns ⊢
  split at hreturns
  · cases hreturns
  · rename_i payload hread
    rcases publishPayload_cases hreturns with ⟨rfl, hkept, -⟩ | ⟨snapshot, -, hstate, hcurrent, -⟩
    · exact hkept
    · unfold MemoryDeltaPublisher.publishPayload
      rw [hstate]
      dsimp only
      rw [if_pos hcurrent]
      rfl

theorem withProjection_again {epochId : String} {projection : Option String}
    (hmoved : coordinator.withProjection epochId projection = .ok next) :
    next.withProjection epochId projection = .ok next := by
  cases projection with
  | none => rfl
  | some projection =>
      obtain ⟨⟨after, message⟩, hreturns, rfl⟩ := Except.map_eq_ok_iff.mp hmoved
      exact Except.map_eq_ok_iff.mpr ⟨_, publish_again hreturns, rfl⟩

/-- `materialize_messages` changes nothing of what it has made. -/
theorem materializeMessages_again {messages out : List ModelMessage} {projection : Option String}
    (hepoch : coordinator.epoch = some epoch)
    (hout : coordinator.materializeMessages messages projection = .ok (next, out))
    {again : Option String} (hagain : again = projection ∨ again = none) :
    next.materializeMessages out again = .ok (next, out) := by
  obtain ⟨-, hmoved, rfl⟩ := (materializeMessages_eq_ok hepoch).mp hout
  have hnext : next.epoch = some epoch := (withProjection_epoch hmoved).trans hepoch
  refine (materializeMessages_eq_ok hnext).mpr ⟨?_, ?_, ?_⟩
  · rw [List.append_assoc, List.length_append]
    exact Nat.le_add_right _ _
  · rcases hagain with rfl | rfl
    · exact withProjection_again hmoved
    · rfl
  · rw [List.append_assoc epoch.prefixMessages, epoch.drop_frozen, afterPublications_append,
      List.append_assoc]

/-- A coordinator of the epoch: what it publishes belongs to it. -/
structure In (coordinator : PromptCacheCoordinator) (epoch : CacheEpoch) : Prop where
  current : coordinator.epoch = some epoch
  published : ∀ snapshot ∈ coordinator.publication.state,
    snapshot.epochId = epoch.epochId ∧ snapshot.messages.Nodup
      ∧ ∀ message ∈ snapshot.messages, IsPublication message

omit [FloatRepr] [Sha256] in
theorem In.stateIn (hin : coordinator.In epoch) :
    coordinator.publication.stateIn epoch.epochId = coordinator.publication.state := by
  rw [MemoryDeltaPublisher.stateIn]
  cases hstate : coordinator.publication.state with
  | none => rfl
  | some snapshot =>
      have hid := (hin.published snapshot hstate).1
      simp [hid]

/-- The message that a projection adds to what is published. -/
def newPublication (coordinator : PromptCacheCoordinator) (epochId : String)
    (projection : Option String) : Option ModelMessage :=
  (projection.bind projectionPayload).bind fun payload =>
    (MemoryDeltaPublisher.published epochId payload (coordinator.publication.stateIn epochId)).2

/-- A projection only appends its message to what was published. -/
theorem In.withProjection (hin : coordinator.In epoch) {projection : Option String}
    (hmoved : coordinator.withProjection epoch.epochId projection = .ok next) :
    next.In epoch ∧ next.publicationMessages = coordinator.publicationMessages
      ++ (coordinator.newPublication epoch.epochId projection).toList := by
  cases projection with
  | none =>
      cases hmoved
      exact ⟨hin, (List.append_nil _).symm⟩
  | some projection =>
      obtain ⟨⟨after, message⟩, hreturns, rfl⟩ := Except.map_eq_ok_iff.mp hmoved
      unfold MemoryDeltaPublisher.publish at hreturns
      rw [newPublication, Option.bind_some]
      split at hreturns
      · cases hreturns
      rename_i payload hread
      rw [hread, Option.bind_some]
      rcases publishPayload_cases hreturns with
        ⟨hsame, -, hnone⟩ | ⟨snapshot, new, hstate, -, hnew, hsome, hmessages, hnodup⟩
      · rw [hsame, hnone]
        exact ⟨hin, (List.append_nil _).symm⟩
      · rw [hsome]
        rw [hin.stateIn] at hmessages
        obtain ⟨hrow, hid⟩ := MemoryDeltaPublisher.stateIn_eq_some.mp hstate
        refine ⟨⟨hin.current, fun other hother => ?_⟩, ?_⟩
        · cases Option.some.inj (hrow.symm.trans hother)
          refine ⟨hid, hnodup, fun found hfound => ?_⟩
          rw [hmessages] at hfound
          rcases List.mem_append.mp hfound with hfound | hfound
          · cases hold : coordinator.publication.state with
            | none =>
                rw [hold] at hfound
                cases hfound
            | some old =>
                rw [hold] at hfound
                exact (hin.published old hold).2.2 found hfound
          · exact List.mem_singleton.mp hfound ▸ hnew
        · change (after.state.map MemoryPublicationSnapshot.messages).getD [] = _
          rw [hrow]
          exact hmessages

end Materializing

end PromptCacheCoordinator

/-! ### The window -/

section Window

variable {engine : ContextEngine} {messages : List ModelMessage} {tools : List ToolSpec}
  {plan : Option Plan} {options : ContextEngine.BuildOptions} {window : ContextWindow}

theorem refuseIf_eq_ok {refused : Prop} [Decidable refused] {error : ContextError} {u : Unit} :
    refuseIf refused error = .ok u ↔ ¬ refused := by
  unfold refuseIf
  split
  · rename_i hrefused
    exact ⟨fun hok => (by cases hok), fun hnot => absurd hrefused hnot⟩
  · rename_i hkept
    exact ⟨fun _ => hkept, fun _ => rfl⟩

namespace ContextEngine

theorem excludeHistoryValues_take (messages : List ModelMessage) (values : List String)
    {protectedCount : Nat} (hlong : protectedCount ≤ messages.length) :
    (excludeHistoryValues messages values protectedCount).take protectedCount
      = messages.take protectedCount := by
  unfold excludeHistoryValues
  exact List.take_left' (List.length_take_of_le hlong)

theorem excludeHistoryValues_length (messages : List ModelMessage) (values : List String)
    (protectedCount : Nat) :
    (excludeHistoryValues messages values protectedCount).length = messages.length := by
  unfold excludeHistoryValues
  rw [List.length_append, List.length_map, ← List.length_append, List.take_append_drop]

theorem assemble_base_length (base pinned runtimeMemory : List ModelMessage)
    (selected dropped : List MessageGroup) (taskMemory : Option ModelMessage) (inSystem : Bool) :
    (assemble base pinned runtimeMemory selected dropped taskMemory inSystem).base.length
      = base.length := by
  unfold assemble
  dsimp only
  split <;> rfl

variable [Redactor]

/-- A window keeps the number of stable messages and, redacted and normalized, the pinned ones. -/
theorem build_parts (hwindow : engine.build messages tools plan options = .ok window) :
    window.base.length = options.stablePrefixMessageCount
      ∧ window.pinned = ((messages.drop options.stablePrefixMessageCount).take
          options.pinnedTailMessageCount).map fun message => engine.normalizeMessage message.redact := by
  unfold build at hwindow
  simp only [Except.bind_eq_ok_iff, refuseIf_eq_ok, Except.pure_eq_ok_iff] at hwindow
  obtain ⟨-, -, -, -, -, hhead, -, hpinned, -, -, -, -, rfl⟩ := hwindow
  generalize options.stablePrefixMessageCount = head at hhead hpinned ⊢
  generalize options.pinnedTailMessageCount = pinned at hpinned ⊢
  generalize hmapped : (messages.map ModelMessage.redact).map engine.normalizeMessage = mapped
    at hpinned ⊢
  have hlength : mapped.length = messages.length := by rw [← hmapped]; simp
  have hlong : head + pinned ≤ mapped.length := by
    have hall := not_not.mp hpinned
    rw [List.length_take, List.length_drop, excludeHistoryValues_length] at hall
    omega
  constructor
  · rw [assemble_base_length, List.length_take, excludeHistoryValues_length]
    omega
  · change ((excludeHistoryValues mapped _ (head + pinned)).drop head).take pinned = _
    rw [List.take_drop, excludeHistoryValues_take _ _ hlong, ← List.take_drop, ← hmapped]
    simp only [← List.map_drop, ← List.map_take, List.map_map]
    rfl

end ContextEngine

end Window

/-! ### Requests -/

namespace PromptCacheCoordinator

section Requests

variable [FloatRepr] [Sha256] {coordinator next : PromptCacheCoordinator} {epoch : CacheEpoch}

omit [FloatRepr] [Sha256] in
theorem In.nodup (hin : coordinator.In epoch) : coordinator.publicationMessages.Nodup := by
  rw [publicationMessages]
  cases hstate : coordinator.publication.state with
  | none => exact List.nodup_nil
  | some snapshot => exact (hin.published snapshot hstate).2.1

omit [FloatRepr] [Sha256] in
theorem In.isPublication (hin : coordinator.In epoch) {message : ModelMessage}
    (hmessage : message ∈ coordinator.publicationMessages) : IsPublication message := by
  rw [publicationMessages] at hmessage
  cases hstate : coordinator.publication.state with
  | none =>
      rw [hstate] at hmessage
      cases hmessage
  | some snapshot =>
      rw [hstate] at hmessage
      exact (hin.published snapshot hstate).2.2 message hmessage

omit [FloatRepr] [Sha256] in
theorem In.of_bootstrap {messages : List ModelMessage} {prefixMessageCount : Nat} {epochId : String}
    (hstart : bootstrap messages prefixMessageCount epochId = .ok coordinator) :
    ∃ epoch : CacheEpoch, coordinator.In epoch ∧ epoch.epochId = epochId
      ∧ epoch.prefixMessages = messages.take prefixMessageCount
      ∧ coordinator.publicationMessages = [] := by
  obtain ⟨epoch, hepoch, hcoordinator⟩ := Except.bind_eq_ok_iff.mp hstart
  cases hcoordinator
  unfold CacheEpoch.bootstrap at hepoch
  split at hepoch
  · cases hepoch
    refine ⟨_, ⟨rfl, fun snapshot hsnapshot => ?_⟩, rfl, rfl, rfl⟩
    cases hsnapshot
  · cases hepoch

/-- The coordinator after a request was asked for, whether or not there was a window for it. -/
def requested (coordinator : PromptCacheCoordinator) (input : RequestInput) :
    PromptCacheCoordinator :=
  match coordinator.materializeMessages input.messages
      (input.retrieval.map Retrieval.providerProjection) with
  | .ok (next, _) => next
  | .error _ => coordinator

theorem In.requested (hin : coordinator.In epoch) (input : RequestInput) :
    (coordinator.requested input).In epoch
      ∧ coordinator.publicationMessages <+: (coordinator.requested input).publicationMessages := by
  unfold PromptCacheCoordinator.requested
  split
  · rename_i after out hout
    obtain ⟨-, hmoved, -⟩ := (materializeMessages_eq_ok hin.current).mp hout
    obtain ⟨hafter, hmessages⟩ := hin.withProjection hmoved
    exact ⟨hafter, ⟨_, hmessages.symm⟩⟩
  · exact ⟨hin, List.prefix_rfl⟩

/-- What was published stays at the front, over any requests of the epoch. -/
theorem In.after (hin : coordinator.In epoch) (inputs : List RequestInput) :
    (Run.after PromptCacheCoordinator.requested coordinator inputs).In epoch
      ∧ coordinator.publicationMessages
        <+: (Run.after PromptCacheCoordinator.requested coordinator inputs).publicationMessages := by
  induction inputs generalizing coordinator with
  | nil => exact ⟨hin, List.prefix_rfl⟩
  | cons input rest ih =>
      obtain ⟨hnext, hextends⟩ := hin.requested input
      obtain ⟨hafter, hrest⟩ := ih hnext
      exact ⟨hafter, hextends.trans hrest⟩

variable [Redactor] {engine : ContextEngine} {input : RequestInput} {window : ContextWindow}
  {prepared : List ModelMessage}

omit [FloatRepr] [Sha256] in
/-- The context engine passes a publication through the redactor, and does nothing else to it. -/
theorem IsPublication.normalizeMessage {message : ModelMessage} (hmessage : IsPublication message) :
    engine.normalizeMessage message.redact
      = { message with content := Redactor.redactText message.content } := by
  obtain ⟨hrole, hcalls, hid⟩ := hmessage
  have hredact : message.redact
      = { message with content := Redactor.redactText message.content } := by
    rw [ModelMessage.redact, hcalls, hid]
    rfl
  rw [hredact, ContextEngine.normalizeMessage, hrole]

/-- The messages as they leave the redactor. -/
def redacted (messages : List ModelMessage) : List ModelMessage :=
  messages.map fun message => { message with content := Redactor.redactText message.content }

omit [FloatRepr] [Sha256] in
theorem redacted_eq_self {messages : List ModelMessage} :
    redacted messages = messages
      ↔ ∀ message ∈ messages, Redactor.redactText message.content = message.content := by
  constructor
  · intro hsame message hmessage
    have hid := List.map_eq_map_iff.mp (hsame.trans (List.map_id messages).symm) message hmessage
    exact congrArg ModelMessage.content hid
  · intro hsame
    exact (List.map_congr_left fun message hmessage => by rw [hsame message hmessage]; rfl).trans
      (List.map_id messages)

omit [FloatRepr] [Sha256] [Redactor] in
theorem RequestInput.options_counts (input : RequestInput) (prefixCount pinned : Nat) :
    (input.options prefixCount pinned).stablePrefixMessageCount = prefixCount
      ∧ (input.options prefixCount pinned).pinnedTailMessageCount = pinned := by
  unfold RequestInput.options
  cases input.retrieval with
  | none => exact ⟨rfl, rfl⟩
  | some retrieval => exact ⟨rfl, rfl⟩

omit [FloatRepr] [Sha256] in
/-- The window for a request that starts with the frozen messages and the publications has the latter
redacted behind its base. -/
theorem window_messages {options : ContextEngine.BuildOptions} {tools : List ToolSpec}
    {plan : Option Plan} {published tail : List ModelMessage}
    (hpublished : ∀ message ∈ published, IsPublication message)
    (hhead : options.stablePrefixMessageCount = epoch.prefixMessageCount)
    (hpinned : options.pinnedTailMessageCount = published.length)
    (hwindow : engine.build (epoch.prefixMessages ++ published ++ tail) tools plan options
      = .ok window) :
    window.messages.drop epoch.prefixMessageCount
      = redacted published ++ (window.memory ++ window.selected) := by
  obtain ⟨hbase, hkept⟩ := ContextEngine.build_parts hwindow
  rw [hhead] at hbase hkept
  rw [hpinned, List.append_assoc, epoch.drop_frozen, List.take_left] at hkept
  have hredacted : window.pinned = redacted published :=
    hkept.trans (List.map_congr_left fun message hmessage =>
      (hpublished message hmessage).normalizeMessage)
  rw [ContextWindow.messages, List.append_assoc, List.append_assoc, ← hbase, List.drop_left,
    hredacted]

/-- What a request consists of: the prefix, the publications, what is left of the redacted publications
behind them, and the rest of the window. -/
theorem In.assembleRequest (hin : coordinator.In epoch)
    (hrequest : assembleRequest engine coordinator input = .ok (next, window, prepared)) :
    coordinator.withProjection epoch.epochId (input.retrieval.map Retrieval.providerProjection)
        = .ok next
      ∧ next.materializeMessages window.messages (input.retrieval.map Retrieval.providerProjection)
        = .ok (next, prepared)
      ∧ prepared = epoch.prefixMessages ++ next.publicationMessages
        ++ afterPublications next.publicationMessages
          (redacted next.publicationMessages ++ (window.memory ++ window.selected)) := by
  unfold PromptCacheCoordinator.assembleRequest at hrequest
  obtain ⟨⟨moved, request⟩, hrequested, hrequest⟩ := Except.bind_eq_ok_iff.mp hrequest
  obtain ⟨built, hbuilt, hrequest⟩ := Except.bind_eq_ok_iff.mp hrequest
  obtain ⟨⟨again, messages⟩, hprepared, hrequest⟩ := Except.bind_eq_ok_iff.mp hrequest
  obtain ⟨hnext, hwindow, hmessages⟩ : again = next ∧ built = window ∧ messages = prepared := by
    cases hrequest
    exact ⟨rfl, rfl, rfl⟩
  subst hnext hwindow hmessages
  obtain ⟨-, hmoved, hshape⟩ := (materializeMessages_eq_ok hin.current).mp hrequested
  obtain ⟨hinMoved, -⟩ := hin.withProjection hmoved
  obtain ⟨-, hagain, hmessages⟩ := (materializeMessages_eq_ok hinMoved.current).mp hprepared
  have hsame : again = moved := Except.ok.inj (hagain.symm.trans (withProjection_again hmoved))
  subst hsame
  rw [Except.mapError_eq_ok_iff, hinMoved.current, hshape] at hbuilt
  obtain ⟨hhead, hpinned⟩ := RequestInput.options_counts input epoch.prefixMessageCount
    again.publicationMessages.length
  rw [window_messages (fun _ => hinMoved.isPublication) hhead hpinned hbuilt] at hmessages
  exact ⟨hmoved, hprepared, hmessages⟩

/-- Materializing these messages again, with the projection of the request or without one, changes
nothing. -/
def Settled (coordinator : PromptCacheCoordinator) (input : RequestInput)
    (messages : List ModelMessage) : Prop :=
  ∀ projection, projection = input.retrieval.map Retrieval.providerProjection ∨ projection = none →
    coordinator.materializeMessages messages projection = .ok (coordinator, messages)

/-- The shape of the next request of a coordinator that started an epoch with these frozen messages,
after earlier requests of the epoch. -/
structure StableShape (start : PromptCacheCoordinator) (frozen : List ModelMessage)
    (earlier : List RequestInput) (input : RequestInput) (next : PromptCacheCoordinator)
    (window : ContextWindow) (prepared : List ModelMessage) : Prop where
  shape : prepared = frozen ++ next.publicationMessages ++ (window.memory ++ window.selected)
  once : next.publicationMessages.Nodup
  extendsEarlier : ∀ first rest, earlier = first ++ rest →
    (Run.after requested start first).publicationMessages <+: next.publicationMessages
  materialized : ∀ request, (Run.after requested start earlier).materializeMessages input.messages
      (input.retrieval.map Retrieval.providerProjection) = .ok (next, request) →
    next.Settled input request
  again : next.Settled input prepared

/-- The publications of the epoch, with the one that the request adds, are left as they are by the
redactor. -/
def LeavesPublications (coordinator : PromptCacheCoordinator) (epochId : String)
    (input : RequestInput) : Prop :=
  ∀ message ∈ coordinator.publicationMessages
      ++ (coordinator.newPublication epochId
        (input.retrieval.map Retrieval.providerProjection)).toList,
    Redactor.redactText message.content = message.content

omit [FloatRepr] [Sha256] in
/-- The publications stand once in a request exactly where the redactor leaves them. -/
theorem afterPublications_redacted (published rest : List ModelMessage) :
    afterPublications published (redacted published ++ rest) = rest
      ↔ ∀ message ∈ published, Redactor.redactText message.content = message.content := by
  rw [← redacted_eq_self]
  constructor
  · intro honce
    have hlength : (redacted published).length = published.length := List.length_map _
    rw [afterPublications, ← hlength, List.take_left] at honce
    by_cases hsame : redacted published = published
    · exact hsame
    · rw [if_neg hsame] at honce
      have hnil : redacted published = [] := List.append_left_eq_self.mp honce
      rw [hnil, List.length_nil] at hlength
      rw [hnil, List.length_eq_zero_iff.mp hlength.symm]
  · intro hsame
    rw [hsame, afterPublications_append]

/-- A request of an epoch has the stable shape if and only if the redactor leaves the publications up to
it. -/
theorem request_shape (engine : ContextEngine) {messages prepared : List ModelMessage}
    {prefixMessageCount : Nat} {epochId : String} {start next : PromptCacheCoordinator}
    {earlier : List RequestInput} {input : RequestInput} {window : ContextWindow}
    (hstart : bootstrap messages prefixMessageCount epochId = .ok start)
    (hrequest : (Run.after requested start earlier).assembleRequest engine input
      = .ok (next, window, prepared)) :
    StableShape start (messages.take prefixMessageCount) earlier input next window prepared
      ↔ (Run.after requested start earlier).LeavesPublications epochId input := by
  obtain ⟨epoch, hin, rfl, hfrozen, -⟩ := In.of_bootstrap hstart
  obtain ⟨hcoordinator, -⟩ := hin.after earlier
  obtain ⟨hmoved, hprepared, hshape⟩ := hcoordinator.assembleRequest hrequest
  obtain ⟨hnext, hpublished⟩ := hcoordinator.withProjection hmoved
  have hparts : (Run.after requested start earlier).LeavesPublications epoch.epochId input
      ↔ ∀ message ∈ next.publicationMessages,
        Redactor.redactText message.content = message.content := by
    rw [LeavesPublications, ← hpublished]
  rw [hparts, ← afterPublications_redacted next.publicationMessages (window.memory ++ window.selected)]
  constructor
  · intro hstable
    have hsame := hshape.symm.trans hstable.shape
    rw [← hfrozen] at hsame
    exact List.append_cancel_left hsame
  · intro honce
    refine ⟨?_, hnext.nodup, ?_, ?_, ?_⟩
    · rw [hshape, honce, hfrozen]
    · rintro first rest rfl
      rw [Run.after_append] at hpublished
      exact ((hin.after first).1.after rest).2.trans ⟨_, hpublished.symm⟩
    · exact fun request hrequested projection hprojection =>
        materializeMessages_again hcoordinator.current hrequested hprojection
    · exact fun projection hprojection =>
        materializeMessages_again hnext.current hprepared hprojection

end Requests

end PromptCacheCoordinator

section Samples

local instance requestShapeDigest : Sha256 := Sample.digest

local instance requestShapeFloat : FloatRepr := Sample.floatRepr

namespace Sample

/-- Whether a text, in reverse, ends with the name of a password. -/
def namesPassword (seen : List Char) : Bool :=
  "password=".toList.reverse.isPrefixOf seen || "password=\"".toList.reverse.isPrefixOf seen

/-- Writes the mark over what follows the name of a password, up to a quotation mark. -/
def markPasswords : Bool → List Char → List Char → List Char
  | _, _, [] => []
  | true, seen, c :: rest =>
      if c = '"' then c :: markPasswords false [] rest else markPasswords true seen rest
  | false, seen, c :: rest =>
      if namesPassword seen ∧ c ≠ '"' then redactedMark.toList ++ markPasswords true [] rest
      else c :: markPasswords false (c :: seen) rest

@[reducible] def passwordTexts : Redactor where
  redactText text := String.ofList (markPasswords false [] text.toList)
  sensitiveName _ := false

/-- An engine for short messages. -/
def engine : ContextEngine where
  maxTokens := 4096
  maxToolOutputChars := 4096
  recentSteps := 1
  tokenize _ := []
  inspect text := text
  compactMessageContent text _ := text
  memoryMessage _ _ _ _ _ := none
  enoughTokens := by decide
  enoughChars := by decide
  someSteps := by decide

def conversation : List ModelMessage :=
  [{ role := .system, content := "instructions" }, { role := .user, content := "goal" },
    { role := .assistant, content := "reply" }]

/-- A request with a memory of these facts. -/
def requestWith (texts : List String) : PromptCacheCoordinator.RequestInput where
  messages := conversation
  tools := []
  plan := none
  retrieval := some {
    providerProjection := projection texts
    recentHistoryTokens := 1024
    inactiveContextValues := [] }

end Sample

local instance requestShapeRedactor : Redactor := Sample.passwordTexts

/-- The passwords are marked in the bytes of an ASCII text, which need not be decoded. -/
theorem requestShapeRedactor_eq : requestShapeRedactor =
    { redactText := fun text => String.ofList (Sample.markPasswords false [] (Bytes.characters text))
      sensitiveName := fun _ => false } := by
  simp only [requestShapeRedactor, Sample.passwordTexts, Bytes.characters_eq]

open PromptCacheCoordinator

theorem conversation_enough : 2 ≤ (Sample.conversation.take 2).length := by decide

theorem publication_budget : 64 ≤ 2048 := by decide

/-- The coordinator that starts an epoch with the conversation. -/
def Sample.coordinator : PromptCacheCoordinator where
  cacheEpochId := "e"
  prefixMessageCount := 2
  publication := { budget := publication_budget }
  epoch := some
    { epochId := "e"
      prefixMessages := Sample.conversation.take 2
      enough := conversation_enough }

/-- A password in the memory, as the redactor leaves it there. -/
def Sample.hiddenPassword : String := "password=\"[REDACTED]\""

instance (coordinator : PromptCacheCoordinator) (epochId : String) (input : RequestInput) :
    Decidable (coordinator.LeavesPublications epochId input) :=
  inferInstanceAs (Decidable (∀ message ∈ _, _))

theorem Sample.bootstrap_conversation :
    bootstrap Sample.conversation 2 "e" = .ok Sample.coordinator := rfl

/-- A request is assembled with one fact in the memory, whose publication the redactor leaves, and with a hidden
password, which it leaves in the memory. The lengths are those of the request, of its publications and of what the
window adds. -/
theorem Sample.assembled :
    ((Sample.coordinator.assembleRequest Sample.engine (Sample.requestWith ["a"])).isOk
        ∧ Sample.coordinator.LeavesPublications "e" (Sample.requestWith ["a"]))
      ∧ Redactor.redactText Sample.hiddenPassword = Sample.hiddenPassword
      ∧ (Sample.coordinator.assembleRequest Sample.engine
        (Sample.requestWith [Sample.hiddenPassword])).toOption.map
          (fun result => (result.2.2.length, result.1.publicationMessages.length,
            (result.2.1.memory ++ result.2.1.selected).length)) = some (5, 1, 1) := by
  refine ⟨⟨?_, by decide +kernel⟩, by decide +kernel, ?_⟩ <;>
    · rw [requestShapeRedactor_eq]
      decide +kernel

theorem request_shape_first :
    ∃ next window prepared,
      Sample.coordinator.assembleRequest Sample.engine (Sample.requestWith ["a"])
        = .ok (next, window, prepared)
      ∧ StableShape Sample.coordinator (Sample.conversation.take 2) [] (Sample.requestWith ["a"]) next
        window prepared := by
  obtain ⟨⟨next, window, prepared⟩, hrequest⟩ := Except.isOk_eq_true_iff.mp Sample.assembled.1.1
  have hfirst : (Run.after requested Sample.coordinator []).assembleRequest Sample.engine
      (Sample.requestWith ["a"]) = .ok (next, window, prepared) := hrequest
  have hleaves : (Run.after requested Sample.coordinator []).LeavesPublications "e"
      (Sample.requestWith ["a"]) := Sample.assembled.1.2
  exact ⟨next, window, prepared, hrequest,
    (request_shape Sample.engine Sample.bootstrap_conversation hfirst).mpr hleaves⟩

/-- The redactor leaves the text of a hidden password, but not its JSON in a publication, which then
stands twice in the request. -/
theorem hidden_password_published_twice :
    Redactor.redactText Sample.hiddenPassword = Sample.hiddenPassword
      ∧ ∃ next window prepared,
        Sample.coordinator.assembleRequest Sample.engine (Sample.requestWith [Sample.hiddenPassword])
          = .ok (next, window, prepared)
        ∧ ¬ StableShape Sample.coordinator (Sample.conversation.take 2) []
          (Sample.requestWith [Sample.hiddenPassword]) next window prepared := by
  obtain ⟨-, hleaves, hlengths⟩ := Sample.assembled
  refine ⟨hleaves, ?_⟩
  obtain ⟨⟨next, window, prepared⟩, hresult, hlengths⟩ := Option.map_eq_some_iff.mp hlengths
  have hrequest := Except.toOption_eq_some.mp hresult
  refine ⟨next, window, prepared, hrequest, fun hstable => ?_⟩
  have hshape := congrArg List.length hstable.shape
  rw [List.length_append, List.length_append] at hshape
  obtain ⟨hall, hpublished, hrest⟩ : prepared.length = 5 ∧ next.publicationMessages.length = 1
      ∧ (window.memory ++ window.selected).length = 1 := by
    simpa only [Prod.mk.injEq] using hlengths
  have hfrozen : (Sample.conversation.take 2).length = 2 := rfl
  omega

end Samples

end PatchLoop
