import PatchLoop.Safety.Retrieval

/-!
# Retrieved facts

The semantic memory keeps one active fact for each slot, and retrieval shows active records only. So what
the model is shown of the facts is never out of date.
-/

namespace PatchLoop

/-- Of the facts among the records, those that are selected have been neither superseded nor rejected, and
no two of them are about the same thing. -/
structure ShowsCurrent {F : Type} (records : List MemoryRecord) (selections : List (RetrievalSelection F)) :
    Prop where
  accepted : ∀ item ∈ selections, ∀ fact ∈ records, isTypedSemanticRecord fact = true →
    item.recordId = some fact.id → fact.supersededById = none ∧ fact.get? "conflicts_with_id" = none
  oneOfSlot : ∀ item ∈ selections, ∀ other ∈ selections, ∀ fact ∈ records, ∀ otherFact ∈ records,
    isTypedSemanticRecord fact = true → isTypedSemanticRecord otherFact = true →
      item.recordId = some fact.id → other.recordId = some otherFact.id →
        recordSlot fact = recordSlot otherFact → item.id = other.id

section Facts

variable {F : Type} [Floats F] [Sha256] [Redactor] [InstructionPatterns] [UnicodeForms] [MemoryText]
variable {retriever : CrossLayerMemoryRetriever} {args : RetrievalArguments}

omit [Sha256] in
/-- What is selected for a record stands for one that may be shown. -/
theorem exists_shown (hids : (args.records.map MemoryRecord.id).Nodup)
    {context : LayeredMemoryContext F} (hretrieve : retrieve retriever args = .ok context)
    {item : RetrievalSelection F} (hitem : item ∈ context.selections) (hrecord : isRecord item = true) :
    ∃ record ∈ args.records, isRetrievable args.taskId args.repositoryScopeId record = true
      ∧ IsCandidate record item := by
  obtain ⟨allocation, query, candidates, -, hquery, hcandidates, rfl⟩ :=
    (retrieve_eq_ok_iff hids).mp hretrieve
  have hpresentable :=
    presentable hids hcandidates allocation args.workingRender args.episodicRender
  obtain ⟨omitted, -, hperm, -⟩ := contextOf_perm retriever query hpresentable
  rcases List.mem_append.mp (hperm.mem_iff.mp (List.mem_append_left _ hitem)) with hdirect | hcandidate
  · rw [(hpresentable.shown item hdirect).1] at hrecord
    cases hrecord
  · have hshown := exists_record hcandidates hcandidate
    rwa [buildQuery_taskId hquery] at hshown

omit [InstructionPatterns] in
/-- After a run the facts are sound. -/
theorem facts_sound_after (hdigest : ∀ text, IsHexDigest (Sha256.hexdigest text)) {taskId : String}
    (htask : taskId ≠ "") {inputs : List SemanticInput}
    (hrun : Run.EveryStep SemanticMemoryManager.step Admits { taskId } inputs) :
    SoundMemory taskId (Run.after SemanticMemoryManager.step { taskId } inputs) :=
  Run.invariant_after (SoundMemory taskId)
    (fun _ _ hsound hadmits => (perform_sound hdigest htask hsound hadmits).2) hrun ⟨rfl, Sound.nil taskId⟩

/-- After every run of the semantic memory whose events are admitted, what is retrieved of its facts is
current. -/
theorem retrieved_facts_current (hdigest : ∀ text, IsHexDigest (Sha256.hexdigest text)) {taskId : String}
    (htask : taskId ≠ "") {inputs : List SemanticInput}
    (hrun : Run.EveryStep SemanticMemoryManager.step Admits { taskId } inputs)
    (hfacts : args.records.filter isTypedSemanticRecord
      = (Run.after SemanticMemoryManager.step { taskId } inputs).records.rows)
    (hids : (args.records.map MemoryRecord.id).Nodup)
    {context : LayeredMemoryContext F} (hretrieve : retrieve retriever args = .ok context) :
    ShowsCurrent args.records context.selections := by
  have hsound := (facts_sound_after hdigest htask hrun).2
  rw [← hfacts] at hsound
  have hactive : ∀ item ∈ context.selections, ∀ fact ∈ args.records, item.recordId = some fact.id →
      fact.status = .active ∧ IsCandidate fact item := by
    intro item hitem fact hfact hid
    have hrecord : isRecord item = true := by rw [isRecord, hid, Option.isSome_some]
    obtain ⟨record, hmem, hretrievable, his⟩ := exists_shown hids hretrieve hitem hrecord
    have hsame : record.id = fact.id := Option.some.inj (his.recordId.symm.trans hid)
    obtain rfl := eq_of_id hids hmem hfact hsame
    simp only [isRetrievable, Bool.and_eq_true, decide_eq_true_eq] at hretrievable
    exact ⟨hretrievable.1.1.2, his⟩
  constructor
  · intro item hitem fact hfact htyped hid
    have hstatus := (hactive item hitem fact hfact hid).1
    have hmem := List.mem_filter.mpr ⟨hfact, htyped⟩
    constructor
    · by_contra hsuperseded
      rw [(hsound.superseded fact hmem).mpr hsuperseded] at hstatus
      cases hstatus
    · by_contra hconflict
      rw [(hsound.rejected fact hmem hconflict).1] at hstatus
      cases hstatus
  · intro item hitem other hother fact hfact otherFact hotherFact htyped htypedOther hid hidOther hslot
    obtain ⟨hstatus, his⟩ := hactive item hitem fact hfact hid
    obtain ⟨hstatusOther, hisOther⟩ := hactive other hother otherFact hotherFact hidOther
    have hsame := hsound.oneActive fact (List.mem_filter.mpr ⟨hfact, htyped⟩) otherFact
      (List.mem_filter.mpr ⟨hotherFact, htypedOther⟩) hstatus hstatusOther hslot
    rw [his.id, hisOther.id, hsame]

end Facts

section Samples

local instance retrievedFactsFloats : Floats ℚ := Sample.decimals

local instance retrievedFactsForms : UnicodeForms := Sample.asciiForms

local instance retrievedFactsDigest : Sha256 := Sample.hexDigest

local instance retrievedFactsAlphabet : Alphabet := ⟨fun _ => false⟩

local instance retrievedFactsRedactor : Redactor := secretRedactor

local instance retrievedFactsPatterns : InstructionPatterns where
  block text := (text, false)

local instance retrievedFactsText : MemoryText where
  foldCase text := String.ofList (text.toList.map Char.toLower)
  str json := json.dumps

/-- The memory after a read of a file that has a line `x = 1`. -/
def Sample.readMemory : SemanticMemoryManager :=
  Run.after SemanticMemoryManager.step { taskId := "task" } [.tool "call-1" 1 Sample.symbolDrafts]

def Sample.factArguments : RetrievalArguments :=
  { Sample.arguments with repositoryScopeId := "repository", records := Sample.readMemory.records.rows }

theorem Sample.records_of_memory (memory : SemanticMemoryManager) :
    RetrievalArguments.records { Sample.arguments with
      repositoryScopeId := "repository", records := memory.records.rows } = memory.records.rows := rfl

theorem Sample.factArguments_records : Sample.factArguments.records = Sample.readMemory.records.rows :=
  Sample.records_of_memory Sample.readMemory

theorem Sample.fact_offered :
    ((buildQuery Sample.factArguments.taskId Sample.factArguments.goal Sample.factArguments.plan
        Sample.factArguments.working Sample.factArguments.changedPaths).bind fun query =>
      (recordCandidates (F := ℚ) query Sample.factArguments.repositoryScopeId Sample.factArguments.records
          Sample.factArguments.sources).bind fun candidates =>
        if candidates.length = 1 then .ok () else .error (.valueError "")).isOk = true := by
  rw [Sample.factArguments, Sample.readMemory, retrievedFactsDigest, Sample.hexDigest_eq]
  decide +kernel

/-- The fact that a read has found is a candidate of the retrieval. -/
theorem retrieved_facts_current_read : ∃ (context : LayeredMemoryContext ℚ)
    (candidates : List (RetrievalSelection ℚ)),
    retrieve (Sample.retriever 12 (by decide)) Sample.factArguments = .ok context
      ∧ recordCandidates context.query "repository" Sample.factArguments.records [] = .ok candidates
      ∧ candidates.length = 1
      ∧ ShowsCurrent Sample.factArguments.records context.selections := by
  have hdigest : ∀ text, IsHexDigest (Sha256.hexdigest text) := Sample.isHexDigest
  have hadmits : Admits { taskId := "task" } (.tool "call-1" 1 Sample.symbolDrafts) :=
    Sample.symbolEvent_admitted
  have hrun : Run.EveryStep SemanticMemoryManager.step Admits { taskId := "task" }
      [.tool "call-1" 1 Sample.symbolDrafts] := ⟨hadmits, trivial⟩
  have hsound := (facts_sound_after hdigest (by decide) hrun).2
  have htyped : Sample.readMemory.records.rows.filter isTypedSemanticRecord
      = Sample.readMemory.records.rows :=
    List.filter_eq_self.mpr fun fact hfact => (hsound.facts fact hfact).typed
  have hids := Sample.readMemory.records.nodup
  rw [← Sample.factArguments_records] at htyped hids
  obtain ⟨nothing, hoffered⟩ := Except.isOk_eq_true_iff.mp Sample.fact_offered
  obtain ⟨query, hquery, hoffered⟩ := Except.bind_eq_ok_iff.mp hoffered
  obtain ⟨candidates, hcandidates, hone⟩ := Except.bind_eq_ok_iff.mp hoffered
  obtain ⟨allocation, hallocation⟩ : ∃ allocation, allocate 8000 none = .ok allocation := ⟨_, rfl⟩
  obtain ⟨context, hretrieve, hcontext⟩ :=
    exists_retrieved (Sample.retriever 12 (by decide)) hids hallocation hquery hcandidates
  refine ⟨context, candidates, hretrieve, ?_, ?_, ?_⟩
  · rw [hcontext]
    exact hcandidates
  · by_contra hmore
    rw [if_neg hmore] at hone
    cases hone
  · exact retrieved_facts_current hdigest (by decide) hrun (htyped.trans Sample.factArguments_records) hids
      hretrieve

end Samples

end PatchLoop
