import PatchLoop.Redaction
import PatchLoop.Safety.CompressedFacts
import PatchLoop.Safety.EpochRollover

/-!
# Runs of the semantic memory

From the empty memory, in every run whose events are admitted, nothing is raised and the facts stay
consistent, also where a compression comes between two events.
-/

namespace PatchLoop

/-- What happens to a semantic memory: the drafts of its goal, those of a tool call, or a compression of
the records among which its own are. -/
inductive SemanticInput where
  | goal (drafts : List TimedDraft)
  | tool (callId : String) (stepIndex : Nat) (drafts : List TimedDraft)
  | compression (records : Table MemoryRecord) (sources : List MemorySource) (rollup : Bool)

namespace SemanticMemoryManager

section Perform

variable [UnicodeForms] [Sha256] [Redactor] [MemoryText]

/-- What the memory becomes, and what `_resolve` raises. -/
def perform (manager : SemanticMemoryManager) : SemanticInput →
    SemanticMemoryManager × Option MemoryError
  | .goal drafts => manager.initialFacts drafts
  | .tool callId stepIndex drafts => manager.observeTool callId stepIndex drafts
  | .compression records sources rollup =>
      match compress manager.taskId records.rows sources rollup with
      | .ok batch =>
          if batch.report.isNone then (manager, none)
          else (manager.synchronizeRecords (batch.writes.foldl Table.upsert records), none)
      | .error _ => (manager, none)

def step (manager : SemanticMemoryManager) (input : SemanticInput) : SemanticMemoryManager :=
  (manager.perform input).1

end Perform

end SemanticMemoryManager

/-! ### Conditions -/

section Conditions

/-- The records that a compression sees: the facts, and others that have no slot. -/
structure SeenBy (manager : SemanticMemoryManager) (records : Table MemoryRecord) : Prop where
  facts : records.rows.filter isTypedSemanticRecord = manager.records.rows
  others : ∀ record ∈ records.rows, isTypedSemanticRecord record = false →
    record.text? "slot_key" = none

variable [UnicodeForms] [Sha256] [Redactor]

/-- What an input asks for. -/
def Admits (manager : SemanticMemoryManager) : SemanticInput → Prop
  | .goal drafts => FactEvent.Admitted
      { taskId := manager.taskId
        records := manager.records
        sourceOf := SemanticMemoryManager.userSource manager.taskId
        drafts }
  | .tool callId stepIndex drafts => FactEvent.Admitted
      { taskId := manager.taskId
        records := manager.records
        sourceOf := SemanticMemoryManager.toolSource manager.taskId callId stepIndex
          (drafts.filterMap (·.draft.path))
        drafts }
  | .compression records _ _ => SeenBy manager records

end Conditions

/-! ### Consistency -/

/-- A record and the one that supersedes it. -/
def Supersedes (records : List MemoryRecord) (record later : MemoryRecord) : Prop :=
  record ∈ records ∧ later ∈ records ∧ record.supersededById = some later.id

/-- What holds of the records after each input. The validator of chains looks for links that lead back,
and for cycles. -/
structure Consistent (records : List MemoryRecord) : Prop where
  oneActive : ∀ record ∈ records, ∀ other ∈ records, record.status = .active →
    other.status = .active → recordSlot record = recordSlot other → record = other
  chains : validateSupersessionChain records = .ok ()
  links : ∀ previous ∈ records, ∀ record ∈ records, record.supersedesId = some previous.id →
    recordSlot previous = recordSlot record ∧ recordAuthority previous ≤ recordAuthority record
  superseded : ∀ record ∈ records, record.status = .superseded → ∃ last,
    Relation.TransGen (Supersedes records) record last ∧ [record, last].Sublist records
      ∧ record.createdAt ≤ last.createdAt ∧ last.status ≠ .superseded
      ∧ last.get? "conflicts_with_id" = none
  rejected : ∀ record ∈ records, record.get? "conflicts_with_id" ≠ none →
    record.status = .invalidated

section Chains

variable [Sha256] {taskId : String} {records : List MemoryRecord}

/-- What supersedes a record stands after it. -/
theorem Sound.replacement_after (hsound : Sound taskId records) {before after : List MemoryRecord}
    {record : MemoryRecord} (hrecords : records = before ++ record :: after)
    (hsuperseded : record.status = .superseded) :
    ∃ replacement ∈ after, record.supersededById = some replacement.id
      ∧ replacement.supersedesId = some record.id ∧ record.createdAt ≤ replacement.createdAt := by
  have hmem : record ∈ records := by
    rw [hrecords]
    exact List.mem_append_right _ List.mem_cons_self
  obtain ⟨id, hid⟩ := Option.ne_none_iff_exists'.mp ((hsound.superseded record hmem).mp hsuperseded)
  obtain ⟨replacement, hreplacement, rfl, hback⟩ := hsound.linked.replacement record hmem id hid
  refine ⟨replacement, ?_, hid, hback, ?_⟩
  · have hplace := hreplacement
    rw [hrecords, List.mem_append, List.mem_cons] at hplace
    rcases hplace with hbefore | rfl | hafter
    · have horder := hsound.inOrder
      rw [hrecords, List.pairwise_append] at horder
      exact absurd hback (horder.2.2 replacement hbefore record List.mem_cons_self)
    · obtain ⟨rank, hrank⟩ := hsound.linked.ranked
      exact absurd (hrank replacement hmem _ hback) (lt_irrefl _)
    · exact hafter
  · obtain ⟨previous, hprevious, hsame, -, hfollows⟩ :=
      hsound.linked.previous replacement hreplacement _ hback
    obtain rfl := eq_of_id hsound.linked.nodup hprevious hmem hsame
    exact hfollows.createdAt

/-- By induction on what stands after a record: its chain ends with one that was accepted. -/
theorem Sound.chain_ends (hsound : Sound taskId records) {after : List MemoryRecord} :
    ∀ {before : List MemoryRecord} {record : MemoryRecord}, records = before ++ record :: after →
      record.status = .superseded → ∃ last,
        Relation.TransGen (Supersedes records) record last ∧ last ∈ after
          ∧ record.createdAt ≤ last.createdAt ∧ last.status ≠ .superseded
          ∧ last.get? "conflicts_with_id" = none := by
  induction hlength : after.length using Nat.strong_induction_on generalizing after with
  | _ length ih =>
      intro before record hrecords hsuperseded
      obtain ⟨replacement, hafter, hid, hback, hlater⟩ :=
        hsound.replacement_after hrecords hsuperseded
      have hmem : record ∈ records := by
        rw [hrecords]
        exact List.mem_append_right _ List.mem_cons_self
      have hmemReplacement : replacement ∈ records := by
        rw [hrecords]
        exact List.mem_append_right _ (List.mem_cons_of_mem record hafter)
      have hstep : Supersedes records record replacement := ⟨hmem, hmemReplacement, hid⟩
      by_cases hstill : replacement.status = .superseded
      · obtain ⟨between, rest, rfl⟩ := List.append_of_mem hafter
        have hshorter : rest.length < length := by
          rw [← hlength, List.length_append, List.length_cons]
          omega
        have hsplit : records = (before ++ record :: between) ++ replacement :: rest := by
          rw [hrecords, List.append_assoc, List.cons_append]
        obtain ⟨last, hchain, hlast, hlastLater, hopen, haccepted⟩ :=
          ih rest.length hshorter rfl hsplit hstill
        refine ⟨last, hchain.head hstep, ?_, hlater.trans hlastLater, hopen, haccepted⟩
        exact List.mem_append_right _ (List.mem_cons_of_mem replacement hlast)
      · refine ⟨replacement, .single hstep, hafter, hlater, hstill, ?_⟩
        by_contra hconflict
        have hnone := (hsound.rejected replacement hmemReplacement hconflict).2
        rw [hback] at hnone
        cases hnone

theorem Sound.consistent (hsound : Sound taskId records) : Consistent records where
  oneActive := hsound.oneActive
  chains := hsound.linked.validate
  links previous hprevious record hrecord hid := by
    obtain ⟨found, hfound, hsame, -, hfollows⟩ := hsound.linked.previous record hrecord _ hid
    obtain rfl := eq_of_id hsound.linked.nodup hfound hprevious hsame
    exact ⟨hfollows.slot, hfollows.authority⟩
  superseded record hrecord hsuperseded := by
    obtain ⟨before, after, hrecords⟩ := List.append_of_mem hrecord
    obtain ⟨last, hchain, hlast, hrest⟩ := hsound.chain_ends hrecords hsuperseded
    refine ⟨last, hchain, ?_, hrest⟩
    rw [hrecords]
    refine List.Sublist.trans ?_ (List.sublist_append_right before _)
    exact (List.singleton_sublist.mpr hlast).cons_cons record
  rejected record hrecord hconflict := (hsound.rejected record hrecord hconflict).1

end Chains

/-! ### Runs -/

section Compressions

variable [Sha256]

/-- The first letter of an id tells a summary from a fact. -/
theorem stableId_summary_ne (values others : List String) :
    stableId "semantic-fact" values ≠ stableId "compressed-memory" others := by
  have hfact : (stableId "semantic-fact" values).toList.head? = some 's' := by
    rw [stableId, String.toList_append, List.head?_append]
    rfl
  have hsummary : (stableId "compressed-memory" others).toList.head? = some 'c' := by
    rw [stableId, String.toList_append, List.head?_append]
    rfl
  intro heq
  rw [heq, hsummary] at hfact
  exact absurd hfact (by decide)

/-- The active records have slots of their own: those with a slot are facts. -/
theorem SeenBy.slotsApart {manager : SemanticMemoryManager} {records : Table MemoryRecord}
    (hseen : SeenBy manager records) (hsound : Sound manager.taskId manager.records.rows) :
    SlotsApart (activeRecords manager.taskId records.rows) := by
  have hfact : ∀ record ∈ activeRecords manager.taskId records.rows, ∀ slot,
      record.text? "slot_key" = some slot →
        record ∈ manager.records.rows ∧ record.status = .active ∧ recordSlot record = slot := by
    intro record hrecord slot hslot
    obtain ⟨hmem, hkeep⟩ := List.mem_filter.mp hrecord
    refine ⟨?_, (of_decide_eq_true hkeep).2, ?_⟩
    · rw [← hseen.facts]
      refine List.mem_filter.mpr ⟨hmem, ?_⟩
      by_contra huntyped
      rw [Bool.not_eq_true] at huntyped
      rw [hseen.others record hmem huntyped] at hslot
      cases hslot
    · rw [recordSlot, hslot, Option.getD_some]
  intro record hrecord other hother slot hslot hslotOther
  obtain ⟨hmem, hactive, heq⟩ := hfact record hrecord slot hslot
  obtain ⟨hmemOther, hactiveOther, heqOther⟩ := hfact other hother slot hslotOther
  exact hsound.oneActive record hmem other hmemOther hactive hactiveOther (heq.trans heqOther.symm)

/-- What a compression writes does no harm. -/
theorem SeenBy.harmless {manager : SemanticMemoryManager} {records : Table MemoryRecord}
    (hseen : SeenBy manager records) (hsound : Sound manager.taskId manager.records.rows)
    {record : MemoryRecord} (hwritten : Written records.rows record) : Harmless records record := by
  cases hwritten with
  | invalidated input hinput hactive hrecord =>
      subst hrecord
      cases htyped : isTypedSemanticRecord input with
      | true =>
          refine Or.inr ⟨input, hinput, htyped, ?_, rfl⟩
          rw [hactive]
          exact fun hne => by cases hne
      | false =>
          refine Or.inl ⟨htyped, fun old hold htypedOld hid => ?_⟩
          obtain rfl := eq_of_id records.nodup hold hinput hid
          rw [htyped] at htypedOld
          cases htypedOld
  | summary huntyped values hid =>
      refine Or.inl ⟨huntyped, fun old hold htyped => ?_⟩
      have hmem : old ∈ manager.records.rows := by
        rw [← hseen.facts]
        exact List.mem_filter.mpr ⟨hold, htyped⟩
      rw [(hsound.facts old hmem).id, hid]
      exact stableId_summary_ne _ _

end Compressions

section Runs

variable [UnicodeForms] [Sha256] [Redactor] [MemoryText]

/-- A memory of a task, with sound facts. -/
def SoundMemory (taskId : String) (manager : SemanticMemoryManager) : Prop :=
  manager.taskId = taskId ∧ Sound taskId manager.records.rows

/-- An input that is admitted raises nothing, and keeps the facts sound. -/
theorem perform_sound (hdigest : ∀ text, IsHexDigest (Sha256.hexdigest text)) {taskId : String}
    (htask : taskId ≠ "") {manager : SemanticMemoryManager} (hsound : SoundMemory taskId manager)
    {input : SemanticInput} (hadmits : Admits manager input) :
    (manager.perform input).2 = none ∧ SoundMemory taskId (manager.step input) := by
  obtain ⟨rfl, hsound⟩ := hsound
  unfold SemanticMemoryManager.step
  cases input with
  | goal drafts =>
      obtain ⟨hnone, hnext⟩ := resolve_sound hdigest htask hsound hadmits
      exact ⟨hnone, rfl, hnext⟩
  | tool callId stepIndex drafts =>
      obtain ⟨hnone, hnext⟩ := resolve_sound hdigest htask hsound hadmits
      exact ⟨hnone, rfl, hnext⟩
  | compression records sources rollup =>
      have hseen : SeenBy manager records := hadmits
      unfold SemanticMemoryManager.perform
      dsimp only
      cases hbatch : compress manager.taskId records.rows sources rollup with
      | error error => exact ⟨rfl, rfl, hsound⟩
      | ok batch =>
          have hwrites := compress_writes (List.Nodup.of_map _ records.nodup)
            (hseen.slotsApart hsound) hbatch
          dsimp only
          split
          · exact ⟨rfl, rfl, hsound⟩
          · refine ⟨rfl, rfl, Sound.writes ?_ fun record hrecord => ?_⟩
            · rwa [hseen.facts]
            · exact hseen.harmless hsound (hwrites record hrecord)

end Runs

section Samples

/-- The forms of texts in ASCII. -/
@[reducible] def Sample.asciiForms : UnicodeForms where
  nfkc text := text
  casefold text := String.ofList (text.toList.map Char.toLower)

local instance factRunsForms : UnicodeForms := Sample.asciiForms

local instance factRunsDigest : Sha256 := Sample.hexDigest

local instance factRunsAlphabet : Alphabet := ⟨fun _ => false⟩

local instance factRunsRedactor : Redactor := secretRedactor

local instance factRunsText : MemoryText where
  foldCase text := String.ofList (text.toList.map Char.toLower)
  str json := json.dumps

theorem Sample.isHexDigest (text : String) : IsHexDigest (Sha256.hexdigest text) := by
  have hdigest := Sample.isFingerprint_hexDigits (Sample.numberOf text)
  rw [isFingerprint, Bool.and_eq_true, decide_eq_true_eq, List.all_eq_true] at hdigest
  refine ⟨hdigest.1, fun c hc => ?_⟩
  have hdigit := hdigest.2 c hc
  simpa [or_comm] using hdigit

/-- What a line `x = 1` of a file makes. -/
def Sample.symbolDraft : SemanticFactDraft where
  factType := .codeSymbol
  subject := "a.py:x"
  predicate := "value"
  value := "1"
  epistemicStatus := .observed
  scope := .repository
  scopeId := "repository"
  path := some "a.py"

/-- What the goal "never touch a.py" makes. -/
def Sample.goalDraft (taskId : String) : SemanticFactDraft where
  factType := .prohibition
  subject := "task:" ++ taskId ++ ":0"
  predicate := "prohibits"
  value := "never touch a.py"
  epistemicStatus := .userAsserted
  scope := .task
  scopeId := taskId
  confidence := 1

def Sample.symbolDrafts : List TimedDraft := [{ draft := Sample.symbolDraft, now := 0 }]

/-- The event of a read, from the empty memory. -/
def Sample.symbolEvent : FactEvent where
  taskId := "task"
  records := Table.empty
  sourceOf := SemanticMemoryManager.toolSource "task" "call-1" 1
    (Sample.symbolDrafts.filterMap (·.draft.path))
  drafts := Sample.symbolDrafts

theorem Sample.symbolDraft_redact : Sample.symbolDraft.redact.toOption = some Sample.symbolDraft := by
  decide +kernel

theorem Sample.symbolEvent_redacted : Sample.symbolEvent.redacted = [Sample.symbolDraft] := by
  rw [FactEvent.redacted, redactedDrafts]
  change List.filterMap _ Sample.symbolDrafts = _
  rw [Sample.symbolDrafts, List.filterMap_cons, Sample.symbolDraft_redact]
  rfl

/-- Texts that are all the same are sorted to one text, or to none. -/
theorem sortedTexts_of_forall_eq {texts : List String} {text : String}
    (hsame : ∀ other ∈ texts, other = text) :
    sortedTexts texts = [] ∨ sortedTexts texts = [text] := by
  have hsorted : ∀ other ∈ sortedTexts texts, other = text :=
    fun other hother => hsame other (mem_sortedTexts.mp hother)
  have hnodup := sortedTexts_nodup texts
  generalize sortedTexts texts = sorted at hsorted hnodup
  cases sorted with
  | nil => exact Or.inl rfl
  | cons first rest =>
      obtain rfl := hsorted first List.mem_cons_self
      cases rest with
      | nil => exact Or.inr rfl
      | cons second rest =>
          have hsecond := hsorted second (List.mem_cons_of_mem _ List.mem_cons_self)
          exact absurd (hsecond ▸ List.mem_cons_self) (List.nodup_cons.mp hnodup).1

theorem Sample.symbolEvent_admitted : Sample.symbolEvent.Admitted := by
  have hdraft : ∀ draft ∈ Sample.symbolEvent.redacted, draft = Sample.symbolDraft := by
    intro draft hmem
    rw [Sample.symbolEvent_redacted] at hmem
    exact List.mem_singleton.mp hmem
  have hempty : ∀ record, record ∉ Sample.symbolEvent.records.rows := fun _ => List.not_mem_nil
  constructor
  · intro timed htimed
    change timed ∈ [_] at htimed
    obtain rfl := List.mem_singleton.mp htimed
    refine ⟨Sample.symbolDraft, ?_, fun htask => by cases htask⟩
    have hredact := Sample.symbolDraft_redact
    generalize Sample.symbolDraft.redact = result at hredact
    cases result with
    | error error => cases hredact
    | ok draft => exact congrArg Except.ok (Option.some.inj hredact)
  · exact fun record hrecord => absurd hrecord (hempty record)
  · exact List.pairwise_singleton (fun earlier later : TimedDraft => earlier.now ≤ later.now) _
  · exact fun draft _ => Or.inr fun record hrecord => absurd hrecord (hempty record)
  · constructor
    · -- Of one source there are two lists of sources, and their ids differ.
      have hknown : ∀ identity, Sample.symbolEvent.Known identity →
          identity = Sample.symbolDraft.identity []
            ∨ identity = Sample.symbolDraft.identity
              [Sample.symbolEvent.sourceId Sample.symbolDraft] := by
        rintro identity (⟨record, hrecord, -⟩ | ⟨draft, hmem, sourceIds, hsources, rfl⟩)
        · exact absurd hrecord (hempty record)
        · obtain rfl := hdraft draft hmem
          have hone : ∀ id ∈ sourceIds, id = Sample.symbolEvent.sourceId Sample.symbolDraft := by
            intro id hid
            rcases hsources id hid with ⟨record, hrecord, -⟩ | ⟨draft, hmem, rfl⟩
            · exact absurd hrecord (hempty record)
            · rw [hdraft draft hmem]
          rcases sortedTexts_of_forall_eq hone with hnone | hone
          · exact Or.inl (congrArg (FactIdentity.mk _ _ _) hnone)
          · exact Or.inr (congrArg (FactIdentity.mk _ _ _) hone)
      have hne : (Sample.symbolDraft.identity []).id Sample.symbolEvent.taskId
          ≠ (Sample.symbolDraft.identity
            [Sample.symbolEvent.sourceId Sample.symbolDraft]).id Sample.symbolEvent.taskId := by
        rw [factRunsDigest, Sample.hexDigest_eq]
        decide +kernel
      intro identity other hidentity hother hid
      rcases hknown identity hidentity with rfl | rfl <;> rcases hknown other hother with rfl | rfl
      · rfl
      · exact absurd hid hne
      · exact absurd hid.symm hne
      · rfl
    · exact fun record hrecord => absurd hrecord (hempty record)
    · intro draft hmem other hother _
      rw [hdraft draft hmem, hdraft other hother]
      exact ⟨rfl, rfl⟩

end Samples

end PatchLoop
