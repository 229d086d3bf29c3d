import PatchLoop.Lib.Bytes
import PatchLoop.Lib.Fallible
import PatchLoop.Lib.Run
import PatchLoop.PromptCache.Epoch

/-!
# Rollovers of an epoch

From a bootstrap, over any rollovers, an epoch rolls over exactly while its id has room to grow and the
message of the summary has an id of its own.
-/

namespace PatchLoop

section Rollovers

variable [Sha256]

namespace CacheEpochSnapshot

theorem length_lt_nextId (epoch : CacheEpochSnapshot) :
    epoch.epochId.length < epoch.nextId.length := by
  have hdot : (".g" : String).length = 2 := rfl
  have hlength : epoch.nextId.length
      = epoch.epochId.length + 2 + (toString (epoch.generation + 1)).length := by
    simp only [nextId, String.length_append, toString, hdot]
  omega

/-- The epoch that requests are made in. -/
def epoch (snapshot : CacheEpochSnapshot) : CacheEpoch where
  epochId := snapshot.epochId
  prefixMessages := snapshot.prefixMessages
  enough := snapshot.enough

variable [Redactor]

theorem ofMessages_eq_ok {epochId : String} {generation : Nat} {messages : List ModelMessage}
    {boundary : Option CacheEpochBoundary} {epoch : CacheEpochSnapshot}
    (hok : ofMessages epochId generation messages boundary = .ok epoch) :
    epoch.epochId = epochId ∧ epoch.generation = generation ∧ epoch.prefixMessages = messages
      ∧ epoch.prefixMessageIds = messages.map ModelMessage.messageId
      ∧ epoch.lastBoundary = boundary := by
  unfold ofMessages at hok
  split_ifs at hok
  cases hok
  exact ⟨rfl, rfl, rfl, rfl, rfl⟩

/-- Digests apart, a snapshot is refused for the length of its id, the number of its messages or a
repeated id. -/
theorem ofMessages_isOk_iff {epochId : String} {generation : Nat} {messages : List ModelMessage}
    {boundary : Option CacheEpochBoundary}
    (hdigest : ∀ text, isFingerprint (Sha256.hexdigest text) = true) :
    (∃ epoch, ofMessages epochId generation messages boundary = .ok epoch)
      ↔ (1 ≤ epochId.length ∧ epochId.length ≤ 128) ∧ 2 ≤ messages.length
        ∧ (messages.map ModelMessage.messageId).Nodup := by
  unfold ofMessages
  have hpattern : isFingerprint (joinedFingerprint (messages.map ModelMessage.fingerprint)) = true :=
    hdigest _
  constructor
  · rintro ⟨epoch, hok⟩
    split_ifs at hok with hid henough hunique
    exact ⟨hid, henough, hunique⟩
  · rintro ⟨hid, henough, hunique⟩
    rw [dif_pos hid, dif_pos henough, dif_pos hpattern, dif_pos hunique]
    exact ⟨_, rfl⟩

theorem bootstrap_epoch {messages : List ModelMessage} {count : Nat} {epochId : String}
    {snapshot : CacheEpochSnapshot} (hok : bootstrap messages count epochId = .ok snapshot) :
    CacheEpoch.bootstrap messages count epochId = .ok snapshot.epoch := by
  unfold bootstrap at hok
  split at hok
  · cases hok
  · rename_i hcount
    obtain ⟨hid, -, hmessages, -⟩ := ofMessages_eq_ok hok
    have hroom : 2 ≤ count ∧ count ≤ messages.length := by omega
    unfold CacheEpoch.bootstrap
    rw [dif_pos hroom]
    simp only [epoch, hid, hmessages]

variable [SummaryText]

/-- What a rollover makes, if it makes anything. -/
theorem rollover_eq_ok {epoch next : CacheEpochSnapshot} {summary : String}
    {boundary : CacheEpochBoundary} (hok : epoch.rollover summary boundary = .ok next) :
    ∃ message, summaryMessage summary = some message
      ∧ ofMessages epoch.nextId (epoch.generation + 1) (epoch.prefixMessages ++ [message])
        (some boundary) = .ok next := by
  unfold rollover at hok
  split at hok
  · cases hok
  · split at hok
    · cases hok
    · rename_i message hmessage
      exact ⟨message, hmessage, hok⟩

end CacheEpochSnapshot

/-! ### Runs -/

/-- The epochs of a task, the current one and those before it. -/
structure CacheEpochs where
  current : CacheEpochSnapshot
  earlier : List CacheEpochSnapshot := []

namespace CacheEpochs

open CacheEpochSnapshot

/-- Of the epochs of a run: the frozen ids are the messages' own, and the epoch ids grow. -/
structure Growing (epochs : CacheEpochs) : Prop where
  ids : epochs.current.prefixMessageIds
    = epochs.current.prefixMessages.map ModelMessage.messageId
  shorter : ∀ epoch ∈ epochs.earlier, epoch.epochId.length < epochs.current.epochId.length

/-- An id that is longer than the current one is none of those in use. -/
theorem Growing.fresh {epochs : CacheEpochs} (hgrowing : epochs.Growing) :
    ∀ epoch ∈ epochs.current :: epochs.earlier, epochs.current.nextId ≠ epoch.epochId := by
  intro epoch hmem hsame
  have hgrows := epochs.current.length_lt_nextId
  rw [hsame] at hgrows
  rcases List.mem_cons.mp hmem with rfl | hearlier
  · exact lt_irrefl _ hgrows
  · exact lt_asymm (hgrowing.shorter epoch hearlier) hgrows

variable [Redactor]

theorem Growing.bootstrap {messages : List ModelMessage} {count : Nat} {epochId : String}
    {first : CacheEpochSnapshot}
    (hfirst : CacheEpochSnapshot.bootstrap messages count epochId = .ok first) :
    Growing { current := first } := by
  unfold CacheEpochSnapshot.bootstrap at hfirst
  split at hfirst
  · cases hfirst
  · obtain ⟨-, -, hmessages, hids, -⟩ := ofMessages_eq_ok hfirst
    exact ⟨by rw [hids, hmessages], fun epoch hmem => by cases hmem⟩

variable [SummaryText]

/-- A rollover; one that raises leaves the epoch as it is. -/
def rolled (epochs : CacheEpochs) (input : String × CacheEpochBoundary) : CacheEpochs :=
  match epochs.current.rollover input.1 input.2 with
  | .ok next => { current := next, earlier := epochs.current :: epochs.earlier }
  | .error _ => epochs

/-- What is asked of a rollover. -/
def Advances (epochs : CacheEpochs) (summary : String) (boundary : CacheEpochBoundary) : Prop :=
  ∃ next, epochs.current.rollover summary boundary = .ok next
    ∧ next.generation = epochs.current.generation + 1
    ∧ (∀ epoch ∈ epochs.current :: epochs.earlier, next.epochId ≠ epoch.epochId)
    ∧ (∃ text, next.prefixMessages = epochs.current.prefixMessages
        ++ [{ role := .system, content := epochSummaryStart ++ text }])
    ∧ next.lastBoundary = some boundary

/-- The next id is short enough, and the summary makes a message whose id is not frozen yet. -/
def HasRoom (epoch : CacheEpochSnapshot) (summary : String) : Prop :=
  epoch.nextId.length ≤ 128
    ∧ ∃ message, summaryMessage summary = some message ∧ message.messageId ∉ epoch.prefixMessageIds

theorem Growing.rolled {epochs : CacheEpochs} (hgrowing : epochs.Growing)
    (input : String × CacheEpochBoundary) : (epochs.rolled input).Growing := by
  unfold CacheEpochs.rolled
  split
  · rename_i next hok
    obtain ⟨message, -, hmade⟩ := rollover_eq_ok hok
    obtain ⟨hid, -, hmessages, hids, -⟩ := ofMessages_eq_ok hmade
    refine ⟨by rw [hids, hmessages], ?_⟩
    intro epoch hmem
    have hgrows := epochs.current.length_lt_nextId
    rw [← hid] at hgrows
    rcases List.mem_cons.mp hmem with rfl | hearlier
    · exact hgrows
    · exact (hgrowing.shorter epoch hearlier).trans hgrows
  · exact hgrowing

theorem advances_iff (hdigest : ∀ text, isFingerprint (Sha256.hexdigest text) = true)
    {epochs : CacheEpochs} (hgrowing : epochs.Growing) {summary : String}
    {boundary : CacheEpochBoundary} (hsafe : safeSummary summary ≠ "") :
    epochs.Advances summary boundary ↔ HasRoom epochs.current summary := by
  constructor
  · rintro ⟨next, hok, -⟩
    obtain ⟨message, hmessage, hmade⟩ := rollover_eq_ok hok
    obtain ⟨⟨-, hbound⟩, -, hunique⟩ := (ofMessages_isOk_iff hdigest).mp ⟨next, hmade⟩
    refine ⟨hbound, message, hmessage, ?_⟩
    rw [hgrowing.ids]
    rw [List.map_append, List.nodup_append] at hunique
    intro hfrozen
    exact hunique.2.2 _ hfrozen _ (List.mem_singleton.mpr rfl) rfl
  · rintro ⟨hbound, message, hmessage, hfresh⟩
    have hunique : ((epochs.current.prefixMessages ++ [message]).map
        ModelMessage.messageId).Nodup := by
      rw [List.map_append, ← hgrowing.ids]
      refine epochs.current.uniqueIds.append (List.nodup_singleton _) ?_
      intro id hfrozen hnew
      rw [List.mem_singleton.mp hnew] at hfrozen
      exact hfresh hfrozen
    have henough : 2 ≤ (epochs.current.prefixMessages ++ [message]).length := by
      have := epochs.current.enough
      rw [List.length_append]
      omega
    have hsome : 1 ≤ epochs.current.nextId.length :=
      Nat.one_le_of_lt epochs.current.length_lt_nextId
    obtain ⟨next, hmade⟩ : ∃ next, ofMessages epochs.current.nextId (epochs.current.generation + 1)
        (epochs.current.prefixMessages ++ [message]) (some boundary) = .ok next :=
      (ofMessages_isOk_iff hdigest).mpr ⟨⟨hsome, hbound⟩, henough, hunique⟩
    have hok : epochs.current.rollover summary boundary = .ok next := by
      unfold rollover
      rw [if_neg hsafe, hmessage]
      exact hmade
    obtain ⟨hid, hgeneration, hmessages, -, hboundary⟩ := ofMessages_eq_ok hmade
    obtain ⟨text, -, rfl⟩ := Option.map_eq_some_iff.mp hmessage
    refine ⟨next, hok, hgeneration, ?_, ⟨text, hmessages⟩, hboundary⟩
    rw [hid]
    exact hgrowing.fresh

/-- In every state that rollovers of a bootstrapped epoch reach, the next rollover, with a summary of
which the guard leaves something, gives a snapshot of the next generation under a fresh id, with the
message of the summary after the frozen ones, if and only if the next id has at most 128 characters and
the message has an id other than those of the frozen messages. -/
theorem rollover_advances_iff (hdigest : ∀ text, isFingerprint (Sha256.hexdigest text) = true)
    {messages : List ModelMessage} {count : Nat} {epochId : String} {first : CacheEpochSnapshot}
    (hfirst : CacheEpochSnapshot.bootstrap messages count epochId = .ok first)
    (run : List (String × CacheEpochBoundary)) {summary : String} (boundary : CacheEpochBoundary)
    (hsafe : safeSummary summary ≠ "") :
    (Run.after rolled { current := first } run).Advances summary boundary
      ↔ HasRoom (Run.after rolled { current := first } run).current summary := by
  have hgrowing : (Run.after rolled { current := first } run).Growing :=
    Run.preserved_after Growing (fun epochs input hepochs => hepochs.rolled input) run
      (Growing.bootstrap hfirst)
  exact advances_iff hdigest hgrowing hsafe

end CacheEpochs

end Rollovers

section Samples

open CacheEpochs

/-- The number that is written in a text, with one digit for each character. -/
def Sample.numberOf (text : String) : Nat :=
  text.toList.foldl (fun number c => number * 131 + c.toNat) 7

def Sample.hexDigits (number : Nat) : List Char :=
  (List.range 64).map fun place => Json.hexDigit (number / 16 ^ place % 16)

theorem Sample.isFingerprint_hexDigits (number : Nat) :
    isFingerprint (String.ofList (Sample.hexDigits number)) = true := by
  have hdigits : ∀ n < 16, ('0' ≤ Json.hexDigit n ∧ Json.hexDigit n ≤ '9')
      ∨ ('a' ≤ Json.hexDigit n ∧ Json.hexDigit n ≤ 'f') := by
    decide
  simp only [isFingerprint, String.length_ofList, String.toList_ofList, Sample.hexDigits,
    List.length_map, List.length_range, List.all_map, Bool.and_eq_true, decide_true, true_and,
    List.all_eq_true, Function.comp_apply, Bool.or_eq_true, decide_eq_true_eq]
  intro place hplace
  exact hdigits _ (Nat.mod_lt _ (by decide))

/-- 64 digits for each text. -/
@[reducible] def Sample.hexDigest : Sha256 :=
  ⟨fun text => String.ofList (Sample.hexDigits (Sample.numberOf text))⟩

/-- The same digits, from the bytes of an ASCII text, which need not be decoded. -/
@[reducible] def Sample.byteDigest : Sha256 :=
  ⟨fun text => String.ofList (Sample.hexDigits
    ((Bytes.characters text).foldl (fun number c => number * 131 + c.toNat) 7))⟩

theorem Sample.hexDigest_eq : Sample.hexDigest = Sample.byteDigest := by
  simp only [Sample.hexDigest, Sample.numberOf, Sample.byteDigest, Bytes.characters_eq]

/-- Summaries that are no JSON, and that the guard leaves. -/
@[reducible] def Sample.plainSummaries : SummaryText where
  inspect text := text
  loads _ := .decodeError
  str _ := ""

local instance epochRolloverDigest : Sha256 := Sample.hexDigest

local instance epochRolloverSummaries : SummaryText := Sample.plainSummaries

local instance epochRolloverRedactor : Redactor where
  redactText text := text
  sensitiveName _ := false

def Sample.frozen : List ModelMessage :=
  [{ role := .system, content := "instructions" }, { role := .user, content := "goal" }]

/-- The summary has a message, whose id is neither of the two that are frozen. -/
theorem Sample.ids_distinct : safeSummary "tests pass" ≠ ""
    ∧ ∃ message ∈ summaryMessage "tests pass",
      ((Sample.frozen.take 2 ++ [message]).map ModelMessage.messageId).Nodup := by
  rw [epochRolloverDigest, Sample.hexDigest_eq]
  decide +kernel

theorem Sample.bootstrapped :
    ∃ first, CacheEpochSnapshot.bootstrap Sample.frozen 2 "task" = .ok first := by
  obtain ⟨message, -, hunique⟩ := Sample.ids_distinct.2
  rw [List.map_append, List.nodup_append] at hunique
  rw [CacheEpochSnapshot.bootstrap, if_neg (by decide)]
  exact (CacheEpochSnapshot.ofMessages_isOk_iff fun _ => Sample.isFingerprint_hexDigits _).mpr
    ⟨by decide, by decide, hunique.1⟩

theorem Sample.hasRoom {first : CacheEpochSnapshot}
    (hfirst : CacheEpochSnapshot.bootstrap Sample.frozen 2 "task" = .ok first) :
    HasRoom first "tests pass" := by
  have hmade : CacheEpochSnapshot.ofMessages "task" 0 (Sample.frozen.take 2) none = .ok first := by
    rwa [CacheEpochSnapshot.bootstrap, if_neg (by decide)] at hfirst
  obtain ⟨hid, hgeneration, -, hids, -⟩ := CacheEpochSnapshot.ofMessages_eq_ok hmade
  obtain ⟨message, hmessage, hunique⟩ := Sample.ids_distinct.2
  rw [List.map_append, List.nodup_append] at hunique
  refine ⟨?_, message, hmessage, fun hfrozen => ?_⟩
  · rw [CacheEpochSnapshot.nextId, hid, hgeneration]
    decide +kernel
  · rw [hids] at hfrozen
    exact hunique.2.2 _ hfrozen _ (List.mem_singleton_self _) rfl

/-- The first summary of an epoch is frozen after its two messages. -/
theorem rollover_advances_first :
    ∃ first, CacheEpochSnapshot.bootstrap Sample.frozen 2 "task" = .ok first
      ∧ Advances { current := first } "tests pass" .explicitCompression := by
  obtain ⟨first, hfirst⟩ := Sample.bootstrapped
  refine ⟨first, hfirst, ?_⟩
  exact (rollover_advances_iff (fun _ => Sample.isFingerprint_hexDigits _) hfirst []
    .explicitCompression Sample.ids_distinct.1).mpr (Sample.hasRoom hfirst)

/-- The same summary again makes the message that is frozen already, and the rollover is refused. -/
theorem repeated_summary_refused :
    ∃ first, CacheEpochSnapshot.bootstrap Sample.frozen 2 "task" = .ok first
      ∧ ¬ (Run.after rolled { current := first } [("tests pass", .explicitCompression)]).Advances
        "tests pass" .explicitCompression := by
  have hdigest : ∀ text, isFingerprint (Sha256.hexdigest text) = true :=
    fun _ => Sample.isFingerprint_hexDigits _
  have hsafe := Sample.ids_distinct.1
  obtain ⟨first, hfirst⟩ := Sample.bootstrapped
  have hgrowing := Growing.bootstrap hfirst
  obtain ⟨next, hnext, -⟩ := (advances_iff hdigest hgrowing hsafe).mpr (Sample.hasRoom hfirst)
  refine ⟨first, hfirst, fun hagain => ?_⟩
  obtain ⟨-, message, hmessage, hfresh⟩ :=
    (advances_iff hdigest (hgrowing.rolled ("tests pass", .explicitCompression)) hsafe).mp hagain
  obtain ⟨frozen, hfrozen, hmade⟩ := CacheEpochSnapshot.rollover_eq_ok hnext
  have hids := (CacheEpochSnapshot.ofMessages_eq_ok hmade).2.2.2.1
  cases Option.some.inj (hfrozen.symm.trans hmessage)
  refine hfresh ?_
  rw [rolled, hnext, hids, List.map_append]
  exact List.mem_append_right _ (List.mem_singleton_self _)

end Samples

end PatchLoop
