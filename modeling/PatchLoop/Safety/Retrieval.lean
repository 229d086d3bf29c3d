import PatchLoop.Lib.Fallible
import PatchLoop.Runtime.Runs
import PatchLoop.Safety.FactRuns
import PatchLoop.Safety.RetrievalBudget

/-!
# Retrieval

What a retrieval that returns has done with the records and the two states it was given.
-/

namespace PatchLoop

open Buckets

section Retrieving

variable {F : Type} [Floats F] [Redactor] [InstructionPatterns] [UnicodeForms] [MemoryText]

open LayeredMemoryContext (limit?)

/-! ### What is presented -/

section Presenting

variable {query : RetrievalQuery} {scopeId : String} {records : List MemoryRecord}
variable {sources : List SourcePointer} {candidates : List (RetrievalSelection F)}

omit [Redactor] [InstructionPatterns] [UnicodeForms] [MemoryText] in
theorem mem_retrievable {taskId : String} {record : MemoryRecord} :
    record ∈ retrievable taskId scopeId records
      ↔ record ∈ records ∧ isRetrievable taskId scopeId record = true := by
  rw [retrievable, mem_sortBy, List.mem_filter]

/-- Each candidate stands for a record that may be shown. -/
theorem exists_record (hcandidates : recordCandidates query scopeId records sources = .ok candidates)
    {item : RetrievalSelection F} (hitem : item ∈ candidates) :
    ∃ record ∈ records, isRetrievable query.taskId scopeId record = true ∧ IsCandidate record item := by
  obtain ⟨record, hrecord, his⟩ :=
    Sequence.exists_of_forall₂ (recordCandidates_forall₂ hcandidates).flip hitem
  obtain ⟨hmem, hretrievable⟩ := mem_retrievable.mp hrecord
  exact ⟨record, hmem, hretrievable, his⟩

theorem candidates_ids (hcandidates : recordCandidates query scopeId records sources = .ok candidates) :
    candidates.map RetrievalSelection.id
      = (retrievable query.taskId scopeId records).map fun record => "record:" ++ record.id := by
  have hall := recordCandidates_forall₂ hcandidates
  clear hcandidates
  generalize retrievable query.taskId scopeId records = active at hall ⊢
  induction hall with
  | nil => rfl
  | cons his _ ih => rw [List.map_cons, List.map_cons, ih, his.id]

theorem candidates_nodup (hids : (records.map MemoryRecord.id).Nodup)
    (hcandidates : recordCandidates query scopeId records sources = .ok candidates) :
    (candidates.map RetrievalSelection.id).Nodup := by
  rw [candidates_ids hcandidates]
  have hactive : ((retrievable query.taskId scopeId records).map MemoryRecord.id).Nodup := by
    have hperm : (retrievable query.taskId scopeId records).Perm
        (records.filter (isRetrievable query.taskId scopeId)) := sortBy_perm
    exact (hperm.map MemoryRecord.id).nodup_iff.mpr (hids.sublist (List.filter_sublist.map _))
  have hmap : (retrievable query.taskId scopeId records).map (fun record => "record:" ++ record.id)
      = ((retrievable query.taskId scopeId records).map MemoryRecord.id).map ("record:" ++ ·) := by
    rw [List.map_map]
    rfl
  rw [hmap]
  exact hactive.map fun id other heq => (String.append_right_inj "record:").mp heq

omit [Redactor] [InstructionPatterns] [UnicodeForms] [MemoryText] in
theorem record_ne {text id : String} (htext : text.toList.head? ≠ some 'r') : "record:" ++ id ≠ text := by
  rintro rfl
  refine htext ?_
  rw [String.toList_append]
  rfl

/-- What a retrieval makes of its arguments is presentable. -/
theorem presentable (hids : (records.map MemoryRecord.id).Nodup)
    (hcandidates : recordCandidates query scopeId records sources = .ok candidates)
    (allocation : ContextLayerAllocation) (working episodic : Option String) :
    Presentable allocation (directSelections allocation working episodic) candidates := by
  obtain ⟨first, second, hdirect, hfirst, hsecond⟩ :=
    @directSelections_eq F _ _ _ allocation working episodic
  rw [hdirect]
  have hshown : ∀ item ∈ first.toList ++ second.toList,
      item.recordId = none ∧ item.pinned = true ∧ item.id.toList.head? ≠ some 'r' := by
    intro item hitem
    rcases List.mem_append.mp hitem with hmem | hmem
    · have his := hfirst item (Option.mem_toList.mp hmem)
      exact ⟨his.direct, his.pinned, by rw [his.id]; decide⟩
    · have his := hsecond item (Option.mem_toList.mp hmem)
      exact ⟨his.direct, his.pinned, by rw [his.id]; decide⟩
  refine ⟨?_, fun item hitem => ?_, fun item hitem => ?_, fun item hitem => ?_, fun layer limit hlimit => ?_⟩
  · rw [List.map_append]
    refine List.nodup_append.mpr ⟨?_, candidates_nodup hids hcandidates, ?_⟩
    · cases first with
      | none => cases second <;> simp
      | some one =>
          cases second with
          | none => simp
          | some two =>
              have hone := (hfirst one rfl).id
              have htwo := (hsecond two rfl).id
              simp [hone, htwo]
    · intro id hid other hother heq
      obtain ⟨item, hitem, rfl⟩ := List.mem_map.mp hid
      obtain ⟨candidate, hcandidate, rfl⟩ := List.mem_map.mp hother
      obtain ⟨record, -, -, his⟩ := exists_record hcandidates hcandidate
      rw [his.id] at heq
      exact record_ne (hshown item hitem).2.2 heq.symm
  · rw [isRecord, (hshown item hitem).1]
    exact ⟨rfl, (hshown item hitem).2.1⟩
  · obtain ⟨record, -, -, his⟩ := exists_record hcandidates hitem
    rw [isRecord, his.recordId]
    exact ⟨rfl, his.unpinned⟩
  · obtain ⟨record, -, -, his⟩ := exists_record hcandidates hitem
    rw [his.layer]
    split
    · exact Or.inl rfl
    · exact Or.inr rfl
  · rw [layerTokens_append]
    have hone : ∀ shown : Option (RetrievalSelection F), ∀ other identifier budget,
        (∀ item ∈ shown, IsDirect other identifier budget item) →
          layerTokens shown.toList layer ≤ if other = layer then budget else 0 := by
      intro shown other identifier budget his
      cases shown with
      | none => exact Nat.zero_le _
      | some item =>
          have hitem := his item rfl
          rw [Option.toList_some]
          split
          · rename_i heq
            rw [layerTokens_of_forall fun one hone => by rw [List.mem_singleton.mp hone, hitem.layer, heq]]
            exact hitem.within
          · rename_i hne
            rw [layerTokens_of_forall_ne (fun one hone => by rw [List.mem_singleton.mp hone, hitem.layer]) hne]
    have hleft := hone first _ _ _ hfirst
    have hright := hone second _ _ _ hsecond
    cases layer with
    | recentHistory => cases hlimit
    | working =>
        cases hlimit
        rw [if_pos rfl] at hleft
        rw [if_neg (by decide)] at hright
        omega
    | semantic =>
        rw [if_neg (by decide)] at hleft hright
        omega
    | episodic =>
        cases hlimit
        rw [if_neg (by decide)] at hleft
        rw [if_pos rfl] at hright
        omega

end Presenting

/-! ### The query -/

omit [Redactor] [InstructionPatterns] [UnicodeForms] [MemoryText] in
theorem RetrievalQuery.validate_eq_ok {query found : RetrievalQuery} (hvalid : query.validate = .ok found) :
    found = query := by
  revert hvalid
  rw [RetrievalQuery.validate]
  repeat' split
  all_goals intro hvalid; cases hvalid
  rfl

omit [UnicodeForms] [MemoryText] in
theorem buildQuery_taskId {taskId goal : String} {plan : Option Plan}
    {working : Option WorkingMemorySnapshot} {changedPaths : List String} {query : RetrievalQuery}
    (hquery : buildQuery taskId goal plan working changedPaths = .ok query) : query.taskId = taskId := by
  rw [RetrievalQuery.validate_eq_ok hquery]

/-! ### What is retrieved -/

section Retrieved

variable {retriever : CrossLayerMemoryRetriever} {args : RetrievalArguments}

/-- A retrieval has made a budget, a query and candidates, or failed in one of these. -/
theorem retrieve_eq_ok_iff (hids : (args.records.map MemoryRecord.id).Nodup)
    {context : LayeredMemoryContext F} :
    retrieve retriever args = .ok context ↔ ∃ allocation query candidates,
      allocate args.totalContextTokens args.retrievalTokenCap = .ok allocation
        ∧ buildQuery args.taskId args.goal args.plan args.working args.changedPaths = .ok query
        ∧ recordCandidates query args.repositoryScopeId args.records args.sources = .ok candidates
        ∧ context = contextOf retriever query allocation
            (directSelections allocation args.workingRender args.episodicRender) candidates := by
  rw [retrieve, Except.bind_eq_ok_iff]
  constructor
  · rintro ⟨allocation, hallocation, hrest⟩
    obtain ⟨query, hquery, hrest⟩ := Except.bind_eq_ok_iff.mp hrest
    obtain ⟨candidates, hcandidates, hvalid⟩ := Except.bind_eq_ok_iff.mp hrest
    rw [contextOf_validate retriever query
      (presentable hids hcandidates allocation args.workingRender args.episodicRender)] at hvalid
    cases hvalid
    exact ⟨allocation, query, candidates, hallocation, hquery, hcandidates, rfl⟩
  · rintro ⟨allocation, query, candidates, hallocation, hquery, hcandidates, rfl⟩
    refine ⟨allocation, hallocation, ?_⟩
    refine Except.bind_eq_ok_iff.mpr ⟨query, hquery, Except.bind_eq_ok_iff.mpr
      ⟨candidates, hcandidates, ?_⟩⟩
    exact contextOf_validate retriever query (presentable hids hcandidates allocation _ _)

/-- Where a budget, a query and the candidates can be made, the retrieval returns. -/
theorem exists_retrieved (retriever : CrossLayerMemoryRetriever)
    (hids : (args.records.map MemoryRecord.id).Nodup) {allocation : ContextLayerAllocation}
    {query : RetrievalQuery} {candidates : List (RetrievalSelection F)}
    (hallocation : allocate args.totalContextTokens args.retrievalTokenCap = .ok allocation)
    (hquery : buildQuery args.taskId args.goal args.plan args.working args.changedPaths = .ok query)
    (hcandidates : recordCandidates query args.repositoryScopeId args.records args.sources = .ok candidates) :
    ∃ context : LayeredMemoryContext F, retrieve retriever args = .ok context ∧ context.query = query :=
  ⟨_, (retrieve_eq_ok_iff hids).mpr ⟨allocation, query, candidates, hallocation, hquery, hcandidates, rfl⟩, rfl⟩

/-- A retrieval only fails where the budget is too small, or the query or a candidate is not valid: what is
selected is within the share of each layer, no selection comes up twice, and what is rendered of them, if
anything is, is within the shares of all layers. -/
theorem retrieve_fits (hids : (args.records.map MemoryRecord.id).Nodup)
    {allocation : ContextLayerAllocation} {query : RetrievalQuery}
    {candidates : List (RetrievalSelection F)}
    (hallocation : allocate args.totalContextTokens args.retrievalTokenCap = .ok allocation)
    (hquery : buildQuery args.taskId args.goal args.plan args.working args.changedPaths = .ok query)
    (hcandidates : recordCandidates query args.repositoryScopeId args.records args.sources
      = .ok candidates) :
    ∃ context : LayeredMemoryContext F, retrieve retriever args = .ok context
      ∧ (context.selections.map RetrievalSelection.id).Nodup
      ∧ (∀ layer limit, limit? allocation layer = some limit →
          layerTokens context.selections layer ≤ limit)
      ∧ (context.rendered = renderContext query allocation context.selections
            ∧ estimateText context.rendered ≤ allocation.retrievalTokens
          ∨ context.selections = [] ∧ context.rendered = "") := by
  have hpresentable :=
    presentable hids hcandidates allocation args.workingRender args.episodicRender
  refine ⟨_, (retrieve_eq_ok_iff hids).mpr
    ⟨allocation, query, candidates, hallocation, hquery, hcandidates, rfl⟩, ?_, ?_, ?_⟩
  · obtain ⟨omitted, -, hperm, -⟩ := contextOf_perm retriever query hpresentable
    have hall := (hperm.map RetrievalSelection.id).nodup_iff.mpr hpresentable.distinct
    rw [List.map_append] at hall
    exact (List.nodup_append.mp hall).1
  · exact fun layer limit hlimit => contextOf_layers retriever query hpresentable hlimit
  · exact contextOf_rendered retriever query

/-- A retrieval loses nothing and makes nothing up: each of the two states and each candidate is selected as
it is or named as omitted, not both. A selected record is one of the task's or the repository's that is still
active, there are not too many of them, in all or about one thing, and as long as one is left neither of the
two states has been given up. -/
theorem retrieve_accounts (hids : (args.records.map MemoryRecord.id).Nodup)
    {context : LayeredMemoryContext F} (hretrieve : retrieve retriever args = .ok context) :
    ∃ candidates, recordCandidates context.query args.repositoryScopeId args.records args.sources
          = .ok candidates
      ∧ (context.selections.map RetrievalSelection.id ++ context.omittedIds).Perm
          ((directSelections context.allocation args.workingRender args.episodicRender
            ++ candidates).map RetrievalSelection.id)
      ∧ (∀ item ∈ context.selections,
          item ∈ directSelections context.allocation args.workingRender args.episodicRender
            ∨ item ∈ candidates ∧ ∃ record ∈ args.records, item.recordId = some record.id
                ∧ isRetrievable args.taskId args.repositoryScopeId record = true)
      ∧ (context.selections.filter isRecord).length ≤ retriever.maxResults
          - (directSelections (F := F) context.allocation args.workingRender args.episodicRender).length
      ∧ (∀ key, (context.selections.filter isRecord).countP (·.diversityKey = key)
          ≤ retriever.maxPerDiversityKey)
      ∧ ∀ item ∈ directSelections context.allocation args.workingRender args.episodicRender,
          item ∉ context.selections → context.selections.filter isRecord = [] := by
  obtain ⟨allocation, query, candidates, -, hquery, hcandidates, rfl⟩ :=
    (retrieve_eq_ok_iff hids).mp hretrieve
  have hpresentable :=
    presentable hids hcandidates allocation args.workingRender args.episodicRender
  rw [contextOf_query, contextOf_allocation]
  obtain ⟨omitted, homitted, hperm, hpinned⟩ := contextOf_perm retriever query hpresentable
  have hids := (hperm.map RetrievalSelection.id).nodup_iff.mpr hpresentable.distinct
  rw [List.map_append] at hids
  have hrecords := selected_records_sublist retriever query hpresentable
  refine ⟨candidates, hcandidates, ?_, ?_, ?_, ?_, ?_⟩
  · rw [homitted]
    refine List.Perm.trans ?_ (hperm.map RetrievalSelection.id)
    rw [List.map_append]
    exact (sortedTexts_perm (List.nodup_append.mp hids).2.1).append_left _
  · intro item hitem
    rcases List.mem_append.mp (hperm.mem_iff.mp (List.mem_append_left _ hitem)) with hdirect | hcandidate
    · exact Or.inl hdirect
    · obtain ⟨record, hrecord, hretrievable, his⟩ := exists_record hcandidates hcandidate
      rw [buildQuery_taskId hquery] at hretrievable
      exact Or.inr ⟨hcandidate, record, hrecord, his.recordId, hretrievable⟩
  · calc _ ≤ (diverseRecords retriever allocation _ candidates).length := hrecords.length_le
      _ ≤ (selectRecords retriever allocation _ candidates).1.length := List.length_filter_le _ _
      _ ≤ _ := (selectRecords_within retriever hpresentable).2
  · exact fun key => (hrecords.countP_le).trans
      (countP_accepted_le (selectRecords_nodup retriever hpresentable) key)
  · intro item hitem hout
    have hgiven : item ∈ omitted := by
      rcases List.mem_append.mp (hperm.mem_iff.mpr (List.mem_append_left _ hitem)) with hin | hgiven
      · exact absurd hin hout
      · exact hgiven
    refine List.filter_eq_nil_iff.mpr fun other hother hrecord => ?_
    have hall := hpinned item hgiven (hpresentable.shown item hitem).2 other hother
    rcases List.mem_append.mp (hperm.mem_iff.mp (List.mem_append_left _ hother)) with hdirect | hcandidate
    · rw [(hpresentable.shown other hdirect).1] at hrecord
      cases hrecord
    · rw [(hpresentable.records other hcandidate).2] at hall
      cases hall

/-- There is no place for a candidate: the records that were selected are as many as they may be, or enough of
them are about the same thing, or they leave no room for it in its layer, or the text of those that are left
next to each other would be too long. -/
def NoPlace (retriever : CrossLayerMemoryRetriever) (context : LayeredMemoryContext F)
    (direct candidates : List (RetrievalSelection F)) (item : RetrievalSelection F) : Prop :=
  RecordsFull retriever direct (selectRecords retriever context.allocation direct candidates).1 item.layer
  ∨ retriever.maxPerDiversityKey ≤ (selectRecords retriever context.allocation direct candidates).1.countP
      (·.diversityKey = item.diversityKey)
  ∨ (∃ limit, limit? context.allocation item.layer = some limit
      ∧ limit < layerTokens (direct ++ (selectRecords retriever context.allocation direct candidates).1)
          item.layer + item.estimatedTokens)
  ∨ context.allocation.retrievalTokens < estimateText (renderContext context.query context.allocation
      (enforceGlobalDiversity retriever
        (direct ++ (selectRecords retriever context.allocation direct candidates).1)).1)

/-- A candidate is omitted for want of a place only. -/
theorem retrieve_omits (hids : (args.records.map MemoryRecord.id).Nodup)
    {context : LayeredMemoryContext F} (hretrieve : retrieve retriever args = .ok context)
    {candidates : List (RetrievalSelection F)}
    (hcandidates : recordCandidates context.query args.repositoryScopeId args.records args.sources
      = .ok candidates)
    {item : RetrievalSelection F} (hitem : item ∈ candidates) (hout : item ∉ context.selections) :
    NoPlace retriever context
      (directSelections context.allocation args.workingRender args.episodicRender) candidates item := by
  obtain ⟨allocation, query, found, -, -, hfound, rfl⟩ := (retrieve_eq_ok_iff hids).mp hretrieve
  rw [contextOf_query, hfound] at hcandidates
  cases hcandidates
  rw [NoPlace, contextOf_allocation, contextOf_query]
  exact contextOf_maximal retriever query
    (presentable hids hfound allocation args.workingRender args.episodicRender) hitem hout

end Retrieved

end Retrieving

section Samples

/-- A decimal fraction of so many digits, the nearest one. -/
def Sample.decimal (digits : Nat) (value : ℚ) : String :=
  let scaled := (value * 10 ^ digits + 1 / 2).floor.toNat
  let fraction := toString (scaled % 10 ^ digits)
  toString (scaled / 10 ^ digits) ++ "."
    ++ String.ofList (List.replicate (digits - fraction.length) '0') ++ fraction

/-- The fraction without the zeros at its end, the first one apart. -/
def Sample.shortest (value : ℚ) : String :=
  let kept := ((Sample.decimal 6 value).toList.reverse.dropWhile (· = '0')).reverse
  String.ofList (if kept.getLast? = some '.' then kept ++ ['0'] else kept)

/-- Numbers with at most six digits after the point. -/
@[reducible] def Sample.decimals : Floats ℚ where
  ofRat value := value
  ofFraction numerator denominator := numerator / denominator
  add := (· + ·)
  sub := (· - ·)
  mul := (· * ·)
  div := (· / ·)
  sum values := values.sum
  round value := (value * 10 ^ 6 + 1 / 2).floor / 10 ^ 6
  repr := Sample.shortest
  fixed := Sample.decimal 3

local instance retrievalFloats : Floats ℚ := Sample.decimals

local instance retrievalForms : UnicodeForms := Sample.asciiForms

local instance retrievalRedactor : Redactor := Sample.redactor

local instance retrievalPatterns : InstructionPatterns where
  block text := (text, false)

local instance retrievalText : MemoryText where
  foldCase text := text
  str json := json.dumps

def Sample.remembered : MemoryRecord where
  id := "r1"
  taskId := "task"
  kind := .semantic
  scopeId := "task"
  content := [("fact_type", .str "constraint")]
  retrievalText := "Keep x"
  createdAt := 0

def Sample.arguments : RetrievalArguments where
  taskId := "task"
  repositoryScopeId := "repo"
  goal := "Keep x"
  plan := none
  working := none
  workingRender := some "step 1"
  episodicRender := none
  changedPaths := []
  records := [Sample.remembered]
  sources := []
  totalContextTokens := 8000

def Sample.retriever (maxResults : Nat) (hpositive : 1 ≤ maxResults) : CrossLayerMemoryRetriever where
  maxResults
  positive := hpositive
  diverse := by decide

theorem Sample.candidates_isOk :
    ((buildQuery Sample.arguments.taskId Sample.arguments.goal Sample.arguments.plan Sample.arguments.working
        Sample.arguments.changedPaths).bind fun query =>
      recordCandidates (F := ℚ) query Sample.arguments.repositoryScopeId Sample.arguments.records
        Sample.arguments.sources).isOk = true := by
  decide +kernel

theorem Sample.retrieved_isOk :
    (retrieve (F := ℚ) (Sample.retriever 12 (by decide)) Sample.arguments).isOk = true := by
  obtain ⟨candidates, hcandidates⟩ := Except.isOk_eq_true_iff.mp Sample.candidates_isOk
  obtain ⟨query, hquery, hcandidates⟩ := Except.bind_eq_ok_iff.mp hcandidates
  obtain ⟨allocation, hallocation⟩ : ∃ allocation,
      allocate Sample.arguments.totalContextTokens Sample.arguments.retrievalTokenCap = .ok allocation := ⟨_, rfl⟩
  obtain ⟨context, hcontext, -⟩ :=
    exists_retrieved (Sample.retriever 12 (by decide)) (by decide) hallocation hquery hcandidates
  exact Except.isOk_eq_true_iff.mpr ⟨context, hcontext⟩

/-- Where the state takes the one place, the record is omitted. -/
theorem Sample.omitted_isOk :
    ((retrieve (F := ℚ) (Sample.retriever 1 (by decide)) Sample.arguments).bind fun context =>
      (recordCandidates context.query "repo" Sample.arguments.records []).bind fun candidates =>
        if candidates.any (· ∉ context.selections) then .ok () else .error (.valueError "")).isOk = true := by
  decide +kernel

/-- The record and the state fit. -/
theorem retrieve_fits_record : ∃ (allocation : ContextLayerAllocation) (context : LayeredMemoryContext ℚ),
    allocate 8000 none = .ok allocation
      ∧ retrieve (Sample.retriever 12 (by decide)) Sample.arguments = .ok context
      ∧ (context.selections.map RetrievalSelection.id).Nodup
      ∧ (∀ layer limit, LayeredMemoryContext.limit? allocation layer = some limit →
          layerTokens context.selections layer ≤ limit) := by
  obtain ⟨context, hcontext⟩ := Except.isOk_eq_true_iff.mp Sample.retrieved_isOk
  obtain ⟨allocation, query, candidates, hallocation, hquery, hcandidates, -⟩ :=
    (retrieve_eq_ok_iff (by decide)).mp hcontext
  obtain ⟨found, hfound, hids, hlayers, -⟩ :=
    retrieve_fits (by decide) hallocation hquery hcandidates
  exact ⟨allocation, found, hallocation, hfound, hids, hlayers⟩

/-- The record and the state are accounted for. -/
theorem retrieve_accounts_record : ∃ (context : LayeredMemoryContext ℚ)
    (candidates : List (RetrievalSelection ℚ)),
    retrieve (Sample.retriever 12 (by decide)) Sample.arguments = .ok context
      ∧ recordCandidates context.query "repo" [Sample.remembered] [] = .ok candidates
      ∧ (context.selections.map RetrievalSelection.id ++ context.omittedIds).Perm
          ((directSelections context.allocation (some "step 1") none
            ++ candidates).map RetrievalSelection.id) := by
  obtain ⟨context, hcontext⟩ := Except.isOk_eq_true_iff.mp Sample.retrieved_isOk
  obtain ⟨candidates, hcandidates, hperm, -⟩ := retrieve_accounts (by decide) hcontext
  exact ⟨context, candidates, hcontext, hcandidates, hperm⟩

/-- The record is omitted as the state takes the one place. -/
theorem retrieve_omits_record : ∃ (context : LayeredMemoryContext ℚ)
    (candidates : List (RetrievalSelection ℚ)) (item : RetrievalSelection ℚ),
    retrieve (Sample.retriever 1 (by decide)) Sample.arguments = .ok context
      ∧ item ∈ candidates ∧ item ∉ context.selections
      ∧ NoPlace (Sample.retriever 1 (by decide)) context
          (directSelections context.allocation (some "step 1") none) candidates item := by
  obtain ⟨nothing, hok⟩ := Except.isOk_eq_true_iff.mp Sample.omitted_isOk
  obtain ⟨context, hcontext, hrest⟩ := Except.bind_eq_ok_iff.mp hok
  obtain ⟨candidates, hcandidates, hany⟩ := Except.bind_eq_ok_iff.mp hrest
  split at hany
  · rename_i hsome
    obtain ⟨item, hitem, hout⟩ := List.any_eq_true.mp hsome
    exact ⟨context, candidates, item, hcontext, hitem, of_decide_eq_true hout,
      retrieve_omits (by decide) hcontext hcandidates hitem (of_decide_eq_true hout)⟩
  · cases hany

end Samples

end PatchLoop
