import PatchLoop.Memory.Retrieval
import PatchLoop.Safety.FactChains
import PatchLoop.Lib.Sequences

/-!
# The budget of retrieval

What retrieval selects fits the share of each layer and, rendered, the share of all of them, so that the
check of the context never fails. Each candidate is selected or named as omitted.
-/

namespace PatchLoop

open Buckets

section Selections

variable {F : Type}

theorem sortedTexts_perm {texts : List String} (htexts : texts.Nodup) : (sortedTexts texts).Perm texts := by
  rw [sortedTexts, List.Nodup.dedup htexts]
  exact List.perm_insertionSort _ _

/-! ### Tokens -/

theorem tokensOf_perm {selections others : List (RetrievalSelection F)} (hperm : selections.Perm others) :
    tokensOf selections = tokensOf others :=
  (hperm.map RetrievalSelection.estimatedTokens).sum_eq

theorem tokensOf_append (selections others : List (RetrievalSelection F)) :
    tokensOf (selections ++ others) = tokensOf selections + tokensOf others := by
  rw [tokensOf, List.map_append, List.sum_append]
  rfl

theorem tokensOf_sublist_le {selections others : List (RetrievalSelection F)}
    (hsub : selections.Sublist others) : tokensOf selections ≤ tokensOf others :=
  (hsub.map RetrievalSelection.estimatedTokens).sum_le_sum fun _ _ => Nat.zero_le _

theorem layerTokens_append (selections others : List (RetrievalSelection F)) (layer : RetrievalLayer) :
    layerTokens (selections ++ others) layer = layerTokens selections layer + layerTokens others layer := by
  rw [layerTokens, List.filter_append, tokensOf_append]
  rfl

theorem layerTokens_sublist_le {selections others : List (RetrievalSelection F)}
    (hsub : selections.Sublist others) (layer : RetrievalLayer) :
    layerTokens selections layer ≤ layerTokens others layer :=
  tokensOf_sublist_le (hsub.filter _)

theorem layerTokens_perm {selections others : List (RetrievalSelection F)}
    (hperm : selections.Perm others) (layer : RetrievalLayer) :
    layerTokens selections layer = layerTokens others layer :=
  tokensOf_perm (hperm.filter _)

theorem layerTokens_of_forall {selections : List (RetrievalSelection F)} {layer : RetrievalLayer}
    (hlayer : ∀ item ∈ selections, item.layer = layer) : layerTokens selections layer = tokensOf selections := by
  rw [layerTokens, List.filter_eq_self.mpr fun item hitem => decide_eq_true (hlayer item hitem)]

theorem layerTokens_of_forall_ne {selections : List (RetrievalSelection F)} {layer other : RetrievalLayer}
    (hlayer : ∀ item ∈ selections, item.layer = layer) (hne : layer ≠ other) :
    layerTokens selections other = 0 := by
  have hnone : selections.filter (·.layer = other) = [] := by
    refine List.filter_eq_nil_iff.mpr fun item hitem => ?_
    rw [hlayer item hitem]
    simpa using hne
  rw [layerTokens, hnone]
  rfl

theorem layerTokens_sorted {ρ : Type} [LinearOrder ρ] {rank : RetrievalSelection F → ρ}
    {facts episodes : List (RetrievalSelection F)} (hfacts : ∀ item ∈ facts, item.layer = .semantic)
    (hepisodes : ∀ item ∈ episodes, item.layer = .episodic) (layer : RetrievalLayer) :
    layerTokens (sortBy rank (facts ++ episodes)) layer = match layer with
      | .semantic => tokensOf facts
      | .episodic => tokensOf episodes
      | _ => 0 := by
  rw [layerTokens_perm sortBy_perm, layerTokens_append]
  cases layer with
  | semantic =>
      rw [layerTokens_of_forall hfacts, layerTokens_of_forall_ne hepisodes (by decide), Nat.add_zero]
  | episodic =>
      rw [layerTokens_of_forall_ne hfacts (by decide), layerTokens_of_forall hepisodes, Nat.zero_add]
  | working =>
      rw [layerTokens_of_forall_ne hfacts (by decide), layerTokens_of_forall_ne hepisodes (by decide)]
  | recentHistory =>
      rw [layerTokens_of_forall_ne hfacts (by decide), layerTokens_of_forall_ne hepisodes (by decide)]

/-! ### The shares -/

/-- A text that is cut for a budget is within it. -/
theorem estimateText_truncateToTokens (value : String) (budget : Nat)
    (htext : truncateToTokens value budget ≠ "") :
    estimateText (truncateToTokens value budget) ≤ budget := by
  revert htext
  rw [truncateToTokens]
  split
  · exact fun htext => absurd rfl htext
  · split
    · rename_i hfits
      exact fun _ => hfits
    · dsimp only
      split
      · exact fun htext => absurd rfl htext
      · split
        · rename_i hfits
          exact fun _ => hfits
        · exact fun htext => absurd rfl htext

section Direct

variable [Floats F] [Redactor] [InstructionPatterns]

/-- What a direct selection is made of. -/
structure IsDirect (layer : RetrievalLayer) (identifier : String) (budget : Nat)
    (item : RetrievalSelection F) : Prop where
  id : item.id = identifier
  layer : item.layer = layer
  direct : item.recordId = none
  pinned : item.pinned = true
  within : item.estimatedTokens ≤ budget

theorem directSelection_isDirect {identifier : String} {layer : RetrievalLayer} {text : String}
    {budget : Nat} {reason : String} {item : RetrievalSelection F}
    (hitem : directSelection identifier layer text budget reason = some item) :
    IsDirect layer identifier budget item := by
  rw [directSelection] at hitem
  split at hitem
  · cases hitem
  · rename_i hsome
    cases hitem
    exact ⟨rfl, rfl, rfl, rfl, estimateText_truncateToTokens _ _ fun h => hsome (Or.inr h)⟩

theorem renderedSelection_isDirect {identifier : String} {layer : RetrievalLayer} {render : Option String}
    {budget : Nat} {reason : String} {item : RetrievalSelection F}
    (hitem : item ∈ renderedSelection identifier layer render budget reason) :
    IsDirect layer identifier budget item := by
  rw [Option.mem_def] at hitem
  unfold renderedSelection at hitem
  split at hitem
  · cases hitem
  · split at hitem
    · cases hitem
    · exact directSelection_isDirect hitem

/-- At most one selection for each of the two states. -/
theorem directSelections_eq (allocation : ContextLayerAllocation) (working episodic : Option String) :
    ∃ first second : Option (RetrievalSelection F),
      directSelections allocation working episodic = first.toList ++ second.toList
        ∧ (∀ item ∈ first, IsDirect .working "working-snapshot" allocation.workingTokens item)
        ∧ ∀ item ∈ second,
            IsDirect .episodic "episodic-recovery-snapshot" allocation.episodicTokens item :=
  ⟨_, _, rfl, fun _ => renderedSelection_isDirect, fun _ => renderedSelection_isDirect⟩

end Direct

/-! ### Candidates -/

theorem RetrievalSelection.validate_eq_ok [Floats F] {selection found : RetrievalSelection F}
    (hvalid : selection.validate = .ok found) : found = selection := by
  revert hvalid
  rw [RetrievalSelection.validate]
  repeat' split
  all_goals intro hvalid; cases hvalid
  rfl

/-- What a candidate takes from its record. -/
structure IsCandidate (record : MemoryRecord) (item : RetrievalSelection F) : Prop where
  id : item.id = "record:" ++ record.id
  recordId : item.recordId = some record.id
  layer : item.layer = if record.kind = .semantic then .semantic else .episodic
  unpinned : item.pinned = false

section Candidates

variable [Floats F] [Redactor] [InstructionPatterns] [UnicodeForms] [MemoryText]
variable {query : RetrievalQuery} {scopeId : String} {records : List MemoryRecord}
variable {sources : List SourcePointer} {candidates : List (RetrievalSelection F)}

theorem recordCandidate_isCandidate {count : Nat} {record : MemoryRecord} {index : Nat}
    {item : RetrievalSelection F} (hitem : recordCandidate query sources count record index = .ok item) :
    IsCandidate record item := by
  have heq := RetrievalSelection.validate_eq_ok hitem
  rw [heq]
  exact ⟨rfl, rfl, rfl, rfl⟩

theorem recordCandidates_forall₂
    (hcandidates : recordCandidates query scopeId records sources = .ok candidates) :
    List.Forall₂ IsCandidate (retrievable query.taskId scopeId records) candidates := by
  have hall := Sequence.forall₂_of_mapM_ok hcandidates
  have hpairs : List.Forall₂ (fun (entry : MemoryRecord × Nat) item => IsCandidate entry.1 item)
      (retrievable query.taskId scopeId records).zipIdx candidates :=
    hall.imp fun entry item hitem => recordCandidate_isCandidate hitem
  have hfirst := List.forall₂_map_left_iff.mpr hpairs
  rwa [List.zipIdx_map_fst] at hfirst

end Candidates

/-! ### Selecting -/

section Selecting

variable [Floats F]

theorem mem_of_nextCandidate [UnicodeForms] {selected remaining : List (RetrievalSelection F)}
    {item : RetrievalSelection F} (hnext : nextCandidate selected remaining = some item) :
    item ∈ remaining :=
  mem_sortBy.mp (List.mem_of_head? hnext)

theorem exists_nextCandidate [UnicodeForms] (selected remaining : List (RetrievalSelection F))
    (hsome : remaining ≠ []) : ∃ item ∈ remaining, nextCandidate selected remaining = some item := by
  cases hnext : nextCandidate selected remaining with
  | none =>
      have hsorted := List.head?_eq_none_iff.mp hnext
      exact absurd (List.perm_nil.mp (hsorted ▸ sortBy_perm.symm)) hsome
  | some item => exact ⟨item, mem_of_nextCandidate hnext, rfl⟩

variable (retriever : CrossLayerMemoryRetriever)

section Diverse

variable [UnicodeForms] (candidates : List (RetrievalSelection F)) (tokenBudget resultLimit : Nat)

omit [Floats F] [UnicodeForms] in
variable {retriever} {tokenBudget} in
/-- What may not be added may not be added later. -/
theorem not_mayAdd_append {selected : List (RetrievalSelection F)} {item other : RetrievalSelection F}
    (hfull : mayAdd retriever tokenBudget selected item = false) :
    mayAdd retriever tokenBudget (selected ++ [other]) item = false := by
  have hcount : selected.countP (·.diversityKey = item.diversityKey)
      ≤ (selected ++ [other]).countP (·.diversityKey = item.diversityKey) :=
    (List.sublist_append_left selected [other]).countP_le
  rw [mayAdd, Bool.and_eq_false_iff, decide_eq_false_iff_not, decide_eq_false_iff_not] at hfull ⊢
  rw [tokensOf_append]
  omega

/-- Each candidate is selected or omitted, and as long as more could be selected none that is omitted may be
added. -/
theorem selectDiverse_perm : ∃ omitted : List (RetrievalSelection F),
    (selectDiverse retriever candidates tokenBudget resultLimit).2 = omitted.map RetrievalSelection.id
      ∧ ((selectDiverse retriever candidates tokenBudget resultLimit).1 ++ omitted).Perm candidates
      ∧ (resultLimit ≤ (selectDiverse retriever candidates tokenBudget resultLimit).1.length
          ∨ ∀ item ∈ omitted, mayAdd retriever tokenBudget
              (selectDiverse retriever candidates tokenBudget resultLimit).1 item = false) := by
  refine ⟨_, rfl, Selection.pick_perm (fun _ _ _ => mem_of_nextCandidate) _ candidates [] [], ?_⟩
  have hmaximal := @Selection.pick_maximal _ _ nextCandidate
    (fun selected => decide (resultLimit ≤ selected.length)) (mayAdd retriever tokenBudget)
    exists_nextCandidate (fun _ _ _ => not_mayAdd_append) _ candidates [] []
    (Nat.le_refl candidates.length) fun _ hnone => absurd hnone List.not_mem_nil
  exact hmaximal.imp_left of_decide_eq_true

theorem layer_of_selectDiverse {layer : RetrievalLayer} {item : RetrievalSelection F}
    (hitem : item ∈ (selectDiverse retriever (candidates.filter (·.layer = layer)) tokenBudget
      resultLimit).1) : item.layer = layer := by
  obtain ⟨omitted, -, hperm, -⟩ := selectDiverse_perm retriever (candidates.filter (·.layer = layer))
    tokenBudget resultLimit
  exact of_decide_eq_true (List.mem_filter.mp (hperm.mem_iff.mp (List.mem_append_left _ hitem))).2

/-- What is selected is within the limits, in all and for each key. -/
theorem selectDiverse_within :
    (selectDiverse retriever candidates tokenBudget resultLimit).1.length ≤ resultLimit
      ∧ tokensOf (selectDiverse retriever candidates tokenBudget resultLimit).1 ≤ tokenBudget
      ∧ ∀ key, (selectDiverse retriever candidates tokenBudget resultLimit).1.countP
          (·.diversityKey = key) ≤ retriever.maxPerDiversityKey := by
  rw [selectDiverse]
  refine Selection.pick_preserves (P := fun selected => selected.length ≤ resultLimit
    ∧ tokensOf selected ≤ tokenBudget
    ∧ ∀ key, selected.countP (·.diversityKey = key) ≤ retriever.maxPerDiversityKey) ?_ _ _ _
    ⟨Nat.zero_le _, Nat.zero_le _, fun _ => Nat.zero_le _⟩
  intro selected item hmore haccepts hbefore
  obtain ⟨hlength, -, hkeys⟩ := hbefore
  rw [decide_eq_false_iff_not, Nat.not_le] at hmore
  rw [mayAdd, Bool.and_eq_true, decide_eq_true_eq, decide_eq_true_eq] at haccepts
  refine ⟨?_, ?_, fun key => ?_⟩
  · rw [List.length_append, List.length_singleton]
    omega
  · rw [tokensOf_append]
    exact haccepts.2
  · rw [List.countP_append, List.countP_singleton]
    by_cases hkey : item.diversityKey = key
    · subst hkey
      rw [if_pos (decide_eq_true rfl)]
      exact haccepts.1
    · rw [if_neg (by simpa using hkey)]
      exact hkeys key

/-- What is not selected could not be added to what is. -/
theorem selectDiverse_maximal {item : RetrievalSelection F} (hitem : item ∈ candidates)
    (hout : item ∉ (selectDiverse retriever candidates tokenBudget resultLimit).1) :
    resultLimit ≤ (selectDiverse retriever candidates tokenBudget resultLimit).1.length
      ∨ retriever.maxPerDiversityKey ≤ (selectDiverse retriever candidates tokenBudget resultLimit).1.countP
          (·.diversityKey = item.diversityKey)
      ∨ tokenBudget < tokensOf (selectDiverse retriever candidates tokenBudget resultLimit).1
          + item.estimatedTokens := by
  obtain ⟨omitted, -, hperm, hfull⟩ := selectDiverse_perm retriever candidates tokenBudget resultLimit
  have homitted : item ∈ omitted := by
    rcases List.mem_append.mp (hperm.mem_iff.mpr hitem) with hin | homitted
    · exact absurd hin hout
    · exact homitted
  refine hfull.imp_right fun hall => ?_
  have hitemFull := hall item homitted
  rw [mayAdd, Bool.and_eq_false_iff, decide_eq_false_iff_not, decide_eq_false_iff_not] at hitemFull
  omega

/-- What is selected of a layer: as much of it as the budget, the limit and the keys leave room for. -/
structure FillsLayer (layer : RetrievalLayer) (selected : List (RetrievalSelection F)) : Prop where
  ofLayer : ∀ item ∈ selected, item.layer = layer
  length : selected.length ≤ resultLimit
  tokens : tokensOf selected ≤ tokenBudget
  full : ∀ item ∈ candidates, item.layer = layer → item ∉ selected →
    resultLimit ≤ selected.length
      ∨ retriever.maxPerDiversityKey ≤ selected.countP (·.diversityKey = item.diversityKey)
      ∨ tokenBudget < tokensOf selected + item.estimatedTokens

theorem selectDiverse_fills (layer : RetrievalLayer) :
    FillsLayer retriever candidates tokenBudget resultLimit layer
      (selectDiverse retriever (candidates.filter (·.layer = layer)) tokenBudget resultLimit).1 := by
  obtain ⟨hlength, htokens, -⟩ := selectDiverse_within retriever (candidates.filter (·.layer = layer))
    tokenBudget resultLimit
  refine ⟨fun item => layer_of_selectDiverse _ _ _ _, hlength, htokens, ?_⟩
  intro item hitem hlayer hout
  exact selectDiverse_maximal retriever _ tokenBudget resultLimit
    (List.mem_filter.mpr ⟨hitem, decide_eq_true hlayer⟩) hout

end Diverse

/-- The ids of the records that `_enforce_global_diversity` accepts. -/
def acceptedIds (records : List (RetrievalSelection F)) : List String :=
  (Selection.capped RetrievalSelection.diversityKey retriever.maxPerDiversityKey
    (sortBy globalPriority records)).map RetrievalSelection.id

variable {retriever} {direct records : List (RetrievalSelection F)}

theorem enforceGlobalDiversity_eq (hdirect : ∀ item ∈ direct, isRecord item = false)
    (hrecords : ∀ item ∈ records, isRecord item = true) :
    enforceGlobalDiversity retriever (direct ++ records)
      = (direct ++ records.filter (·.id ∈ acceptedIds retriever records),
          (records.filter (·.id ∉ acceptedIds retriever records)).map RetrievalSelection.id) := by
  have hshown : (direct ++ records).filter (! isRecord ·) = direct := by
    rw [List.filter_append, List.filter_eq_self.mpr, List.filter_eq_nil_iff.mpr, List.append_nil]
    · intro item hitem
      rw [hrecords item hitem]
      decide
    · intro item hitem
      rw [hdirect item hitem]
      rfl
  have hothers : (direct ++ records).filter isRecord = records := by
    rw [List.filter_append, List.filter_eq_nil_iff.mpr, List.filter_eq_self.mpr hrecords, List.nil_append]
    intro item hitem
    rw [hdirect item hitem]
    decide
  rw [enforceGlobalDiversity, hshown, hothers]
  rfl

/-- Among the accepted records no key comes up too often. -/
theorem countP_accepted_le (hids : (records.map RetrievalSelection.id).Nodup) (key : String) :
    (records.filter (·.id ∈ acceptedIds retriever records)).countP (·.diversityKey = key)
      ≤ retriever.maxPerDiversityKey := by
  have hsub : (Selection.capped RetrievalSelection.diversityKey retriever.maxPerDiversityKey
      (sortBy globalPriority records)).Sublist (sortBy globalPriority records) :=
    Selection.capped_sublist _
  have hrecords : records.Nodup := hids.of_map
  have hcapped := hsub.nodup (sortBy_perm.nodup_iff.mpr hrecords)
  have hperm : (records.filter (·.id ∈ acceptedIds retriever records)).Perm
      (Selection.capped RetrievalSelection.diversityKey retriever.maxPerDiversityKey
        (sortBy globalPriority records)) := by
    refine (List.perm_ext_iff_of_nodup (hrecords.filter _) hcapped).mpr fun item => ?_
    rw [List.mem_filter, decide_eq_true_eq, acceptedIds, List.mem_map]
    constructor
    · rintro ⟨hitem, other, hother, hid⟩
      have hmem : other ∈ records := mem_sortBy.mp (hsub.subset hother)
      rwa [← List.inj_on_of_nodup_map hids hmem hitem hid]
    · intro hitem
      exact ⟨mem_sortBy.mp (hsub.subset hitem), item, hitem, rfl⟩
  rw [hperm.countP_eq]
  exact Selection.countP_capped_le _ key

/-- A record that is not accepted has a key that came up often enough. -/
theorem countP_of_not_accepted {item : RetrievalSelection F} (hitem : item ∈ records)
    (hout : item.id ∉ acceptedIds retriever records) :
    retriever.maxPerDiversityKey ≤ records.countP (·.diversityKey = item.diversityKey) := by
  have hcapped : item ∉ Selection.capped RetrievalSelection.diversityKey retriever.maxPerDiversityKey
      (sortBy globalPriority records) := fun hin => hout (List.mem_map_of_mem hin)
  calc retriever.maxPerDiversityKey
    _ ≤ (Selection.capped RetrievalSelection.diversityKey retriever.maxPerDiversityKey
          (sortBy globalPriority records)).countP (·.diversityKey = item.diversityKey) :=
        Selection.capped_maximal (mem_sortBy.mpr hitem) hcapped
    _ ≤ (sortBy globalPriority records).countP (·.diversityKey = item.diversityKey) :=
        (Selection.capped_sublist _).countP_le
    _ = records.countP (·.diversityKey = item.diversityKey) := sortBy_perm.countP_eq _

end Selecting

/-! ### Fitting -/

section Fitting

variable [Floats F]

theorem mem_of_nextRemoved {kept : List (RetrievalSelection F)} {item : RetrievalSelection F}
    (hnext : nextRemoved kept = some item) : item ∈ kept := by
  rw [nextRemoved, Option.orElse_eq_some] at hnext
  rcases hnext with hfirst | ⟨-, hsecond⟩
  · exact (List.mem_filter.mp (mem_sortBy.mp (List.mem_of_head? hfirst))).1
  · exact mem_sortBy.mp (List.mem_of_head? hsecond)

theorem exists_nextRemoved (kept : List (RetrievalSelection F)) (hsome : kept ≠ []) :
    ∃ item ∈ kept, nextRemoved kept = some item := by
  cases hnext : nextRemoved kept with
  | none =>
      rw [nextRemoved, Option.orElse_eq_none] at hnext
      have hsorted := List.head?_eq_none_iff.mp hnext.2
      exact absurd (List.perm_nil.mp (hsorted ▸ sortBy_perm.symm)) hsome
  | some item => exact ⟨item, mem_of_nextRemoved hnext, rfl⟩

/-- What is pinned is given up only where everything is. -/
theorem pinned_of_nextRemoved {kept : List (RetrievalSelection F)} {item : RetrievalSelection F}
    (hnext : nextRemoved kept = some item) (hpinned : item.pinned = true) :
    ∀ other ∈ kept, other.pinned = true := by
  rw [nextRemoved, Option.orElse_eq_some] at hnext
  rcases hnext with hfirst | ⟨hnone, -⟩
  · have hitem := (List.mem_filter.mp (mem_sortBy.mp (List.mem_of_head? hfirst))).2
    rw [hpinned] at hitem
    cases hitem
  · have hfilter := List.perm_nil.mp (List.head?_eq_none_iff.mp hnone ▸ sortBy_perm.symm)
    intro other hother
    by_contra hunpinned
    exact List.filter_eq_nil_iff.mp hfilter other hother (by simpa using hunpinned)

variable (query : RetrievalQuery) (allocation : ContextLayerAllocation)
variable (selections : List (RetrievalSelection F))

theorem fitRender_sublist : (fitRender query allocation selections).1.Sublist selections :=
  Selection.giveUp_sublist _ selections []

/-- Each selection is kept or given up, those that are pinned last. -/
theorem fitRender_perm : ∃ given : List (RetrievalSelection F),
    (fitRender query allocation selections).2.1 = given.map RetrievalSelection.id
      ∧ ((fitRender query allocation selections).1 ++ given).Perm selections
      ∧ ∀ item ∈ given, item.pinned = true →
          ∀ other ∈ (fitRender query allocation selections).1, other.pinned = true := by
  refine ⟨_, rfl, ?_, ?_⟩
  · refine (Selection.giveUp_perm (fun _ _ => mem_of_nextRemoved) _ selections []).trans ?_
    rw [List.append_nil]
  · have hlast : ∀ kept (item : RetrievalSelection F), nextRemoved kept = some item →
        (! item.pinned) = false → ∀ other ∈ kept, (! other.pinned) = false := by
      intro kept item hnext hpinned other hother
      rw [Bool.not_eq_false'] at hpinned ⊢
      exact pinned_of_nextRemoved hnext hpinned other hother
    intro item hitem hpinned other hother
    rw [← Bool.not_eq_false'] at hpinned ⊢
    exact Selection.giveUp_first hlast _ selections (fun _ hnone => by cases hnone) item hitem hpinned
      other hother

/-- What is rendered fits; nothing is, if nothing that is selected is left. -/
theorem fitRender_rendered :
    ((fitRender query allocation selections).2.2
        = renderContext query allocation (fitRender query allocation selections).1
      ∧ estimateText (fitRender query allocation selections).2.2 ≤ allocation.retrievalTokens)
    ∨ ((fitRender query allocation selections).1 = []
      ∧ (fitRender query allocation selections).2.2 = "") := by
  have hleft := @Selection.giveUp_fits _ _ (fun kept => kept.isEmpty || fitsRendered query allocation kept)
    _ exists_nextRemoved _ _ [] (Nat.le_refl selections.length)
  rw [fitRender]
  dsimp only
  split
  · rename_i hfits
    exact Or.inl ⟨rfl, of_decide_eq_true hfits⟩
  · rename_i hfits
    refine Or.inr ⟨?_, rfl⟩
    rcases hleft with hnil | hright
    · exact hnil
    · rw [Bool.or_eq_true] at hright
      rcases hright with hempty | hfit
      · exact List.isEmpty_iff.mp hempty
      · exact absurd hfit hfits

end Fitting

/-! ### The context -/

section Context

variable [Floats F]

open LayeredMemoryContext (limit? exceeds)

/-- Selections and candidates as `retrieve` has them. -/
structure Presentable (allocation : ContextLayerAllocation) (direct candidates : List (RetrievalSelection F)) :
    Prop where
  distinct : ((direct ++ candidates).map RetrievalSelection.id).Nodup
  shown : ∀ item ∈ direct, isRecord item = false ∧ item.pinned = true
  records : ∀ item ∈ candidates, isRecord item = true ∧ item.pinned = false
  layers : ∀ item ∈ candidates, item.layer = .semantic ∨ item.layer = .episodic
  within : ∀ layer limit, limit? allocation layer = some limit → layerTokens direct layer ≤ limit

variable [UnicodeForms] (retriever : CrossLayerMemoryRetriever) (query : RetrievalQuery)
variable {allocation : ContextLayerAllocation} {direct candidates : List (RetrievalSelection F)}

omit [Floats F] [UnicodeForms] in
theorem candidates_perm (hpresentable : Presentable allocation direct candidates) :
    (candidates.filter (·.layer = .semantic) ++ candidates.filter (·.layer = .episodic)).Perm
      candidates := by
  have hothers : candidates.filter (·.layer = .episodic)
      = candidates.filter fun item => ! decide (item.layer = .semantic) := by
    refine List.filter_congr fun item hitem => ?_
    rcases hpresentable.layers item hitem with hlayer | hlayer <;>
      · rw [hlayer]
        decide
  rw [hothers]
  exact List.filter_append_perm _ _

/-- Each candidate is selected or omitted before the records are compared with each other. -/
theorem selectRecords_perm (hpresentable : Presentable allocation direct candidates) :
    ∃ omitted : List (RetrievalSelection F),
      (selectRecords retriever allocation direct candidates).2 = omitted.map RetrievalSelection.id
        ∧ ((selectRecords retriever allocation direct candidates).1 ++ omitted).Perm candidates := by
  obtain ⟨facts, hfacts, hfactsPerm, -⟩ := selectDiverse_perm retriever
    (candidates.filter (·.layer = .semantic)) (allocation.semanticTokens - layerTokens direct .semantic)
    (semanticShare (retriever.maxResults - direct.length))
  obtain ⟨episodes, hepisodes, hepisodesPerm, -⟩ := selectDiverse_perm retriever
    (candidates.filter (·.layer = .episodic)) (allocation.episodicTokens - layerTokens direct .episodic)
    (retriever.maxResults - (direct ++ (selectDiverse retriever (candidates.filter (·.layer = .semantic))
      (allocation.semanticTokens - layerTokens direct .semantic)
      (semanticShare (retriever.maxResults - direct.length))).1).length)
  refine ⟨facts ++ episodes, ?_, ?_⟩
  · rw [selectRecords, List.map_append, ← hfacts, ← hepisodes]
  · rw [selectRecords]
    dsimp only
    refine ((sortBy_perm.append_right _).trans ?_).trans (candidates_perm hpresentable)
    refine List.Perm.trans ?_ (hfactsPerm.append hepisodesPerm)
    rw [List.append_assoc, List.append_assoc]
    refine List.Perm.append_left _ ?_
    rw [← List.append_assoc, ← List.append_assoc]
    exact List.perm_append_comm.append_right _

theorem mem_of_selectRecords (hpresentable : Presentable allocation direct candidates)
    {item : RetrievalSelection F}
    (hitem : item ∈ (selectRecords retriever allocation direct candidates).1) : item ∈ candidates := by
  obtain ⟨omitted, -, hperm⟩ := selectRecords_perm retriever hpresentable
  exact hperm.mem_iff.mp (List.mem_append_left _ hitem)

/-- The records that are selected have no id twice. -/
theorem selectRecords_nodup (hpresentable : Presentable allocation direct candidates) :
    ((selectRecords retriever allocation direct candidates).1.map RetrievalSelection.id).Nodup := by
  obtain ⟨omitted, -, hperm⟩ := selectRecords_perm retriever hpresentable
  have hids := hpresentable.distinct
  rw [List.map_append] at hids
  have hboth := ((hperm.map RetrievalSelection.id).nodup_iff).mpr (List.nodup_append.mp hids).2.1
  rw [List.map_append] at hboth
  exact (List.nodup_append.mp hboth).1

/-- The records that are left after they were compared with each other. -/
abbrev diverseRecords (allocation : ContextLayerAllocation) (direct candidates : List (RetrievalSelection F)) :
    List (RetrievalSelection F) :=
  (selectRecords retriever allocation direct candidates).1.filter
    (·.id ∈ acceptedIds retriever (selectRecords retriever allocation direct candidates).1)

theorem diverse_eq (hpresentable : Presentable allocation direct candidates) :
    enforceGlobalDiversity retriever (direct ++ (selectRecords retriever allocation direct candidates).1)
      = (direct ++ diverseRecords retriever allocation direct candidates,
          ((selectRecords retriever allocation direct candidates).1.filter (·.id ∉ acceptedIds retriever
            (selectRecords retriever allocation direct candidates).1)).map RetrievalSelection.id) :=
  enforceGlobalDiversity_eq (fun item hitem => (hpresentable.shown item hitem).1)
    fun item hitem => (hpresentable.records item (mem_of_selectRecords retriever hpresentable hitem)).1

theorem selections_sublist (hpresentable : Presentable allocation direct candidates) :
    (contextOf retriever query allocation direct candidates).selections.Sublist
      (direct ++ diverseRecords retriever allocation direct candidates) := by
  have hsub := fitRender_sublist query allocation (enforceGlobalDiversity retriever
    (direct ++ (selectRecords retriever allocation direct candidates).1)).1
  rw [diverse_eq retriever hpresentable] at hsub
  rw [contextOf]
  dsimp only
  rw [diverse_eq retriever hpresentable]
  exact hsub

/-- The records among the selections are some of those that were left. -/
theorem selected_records_sublist (hpresentable : Presentable allocation direct candidates) :
    ((contextOf retriever query allocation direct candidates).selections.filter isRecord).Sublist
      (diverseRecords retriever allocation direct candidates) := by
  have hnone : direct.filter isRecord = [] := by
    refine List.filter_eq_nil_iff.mpr fun item hitem => ?_
    rw [(hpresentable.shown item hitem).1]
    exact Bool.false_ne_true
  have hsub := (selections_sublist retriever query hpresentable).filter isRecord
  rw [List.filter_append, hnone, List.nil_append] at hsub
  exact hsub.trans List.filter_sublist

/-- Each selection and each candidate is selected or given up, those that are pinned last. -/
theorem contextOf_perm (hpresentable : Presentable allocation direct candidates) :
    ∃ omitted : List (RetrievalSelection F),
      (contextOf retriever query allocation direct candidates).omittedIds
          = sortedTexts (omitted.map RetrievalSelection.id)
        ∧ ((contextOf retriever query allocation direct candidates).selections ++ omitted).Perm
            (direct ++ candidates)
        ∧ ∀ item ∈ omitted, item.pinned = true →
            ∀ other ∈ (contextOf retriever query allocation direct candidates).selections,
              other.pinned = true := by
  obtain ⟨early, hearly, hearlyPerm⟩ := selectRecords_perm retriever hpresentable
  obtain ⟨given, hgiven, hgivenPerm, hpinned⟩ := fitRender_perm query allocation
    (direct ++ diverseRecords retriever allocation direct candidates)
  rw [contextOf]
  dsimp only
  rw [diverse_eq retriever hpresentable, hearly, hgiven, ← List.map_append, ← List.map_append]
  dsimp only
  generalize (fitRender query allocation
    (direct ++ diverseRecords retriever allocation direct candidates)).1 = selections at hgivenPerm hpinned ⊢
  have hdropped : (diverseRecords retriever allocation direct candidates
      ++ (selectRecords retriever allocation direct candidates).1.filter (·.id ∉ acceptedIds retriever
        (selectRecords retriever allocation direct candidates).1)).Perm
      (selectRecords retriever allocation direct candidates).1 := by
    simp only [decide_not]
    exact List.filter_append_perm _ _
  generalize (selectRecords retriever allocation direct candidates).1.filter (fun item => decide (item.id ∉
    acceptedIds retriever (selectRecords retriever allocation direct candidates).1)) = dropped
    at hdropped ⊢
  have hperm : (selections ++ (early ++ dropped ++ given)).Perm (direct ++ candidates) := by
    refine List.perm_iff_count.mpr fun item => ?_
    have hfitted := hgivenPerm.count_eq item
    have hdiverse := hdropped.count_eq item
    have hselected := hearlyPerm.count_eq item
    rw [List.count_append] at hfitted hdiverse hselected
    rw [List.count_append] at hfitted
    rw [List.count_append, List.count_append, List.count_append, List.count_append]
    omega
  have hids := (hperm.map RetrievalSelection.id).nodup_iff.mpr hpresentable.distinct
  refine ⟨_, congrArg sortedTexts (List.filter_eq_self.mpr ?_), hperm, ?_⟩
  · intro id hid
    rw [List.map_append] at hids
    exact decide_eq_true fun hselected => (List.nodup_append.mp hids).2.2 id hselected id hid rfl
  · intro item hitem hitemPinned
    rcases List.mem_append.mp hitem with hearlier | hgivenMem
    · have hcandidate : item ∈ candidates := by
        rcases List.mem_append.mp hearlier with hfirst | hsecond
        · exact hearlyPerm.mem_iff.mp (List.mem_append_right _ hfirst)
        · exact mem_of_selectRecords retriever hpresentable
            (hdropped.mem_iff.mp (List.mem_append_right _ hsecond))
      rw [(hpresentable.records item hcandidate).2] at hitemPinned
      cases hitemPinned
    · exact hpinned item hgivenMem hitemPinned

/-- The records are the facts and the episodes that fill their layers, in the order of their scores. -/
theorem selectRecords_fills : ∃ facts episodes : List (RetrievalSelection F),
    FillsLayer retriever candidates (allocation.semanticTokens - layerTokens direct .semantic)
        (semanticShare (retriever.maxResults - direct.length)) .semantic facts
      ∧ FillsLayer retriever candidates (allocation.episodicTokens - layerTokens direct .episodic)
        (retriever.maxResults - (direct ++ facts).length) .episodic episodes
      ∧ (selectRecords retriever allocation direct candidates).1
        = sortBy (fun item => toLex (OrderDual.toDual item.score, item.id)) (facts ++ episodes) :=
  ⟨_, _, selectDiverse_fills retriever candidates _ _ .semantic,
    selectDiverse_fills retriever candidates _ _ .episodic, rfl⟩

/-- The records fit into what the direct selections leave of each layer, and of the results. -/
theorem selectRecords_within (hpresentable : Presentable allocation direct candidates) :
    (∀ layer limit, limit? allocation layer = some limit →
        layerTokens (direct ++ (selectRecords retriever allocation direct candidates).1) layer ≤ limit)
      ∧ (selectRecords retriever allocation direct candidates).1.length
          ≤ retriever.maxResults - direct.length := by
  obtain ⟨facts, episodes, hfacts, hepisodes, hrecords⟩ :=
    @selectRecords_fills F _ _ retriever allocation direct candidates
  have hfactsTokens := hfacts.tokens
  have hepisodesTokens := hepisodes.tokens
  rw [hrecords]
  refine ⟨fun layer limit hlimit => ?_, ?_⟩
  · have hdirect := hpresentable.within layer limit hlimit
    rw [layerTokens_append, layerTokens_sorted hfacts.ofLayer hepisodes.ofLayer]
    cases layer with
    | recentHistory => cases hlimit
    | working => exact hdirect
    | semantic =>
        cases hlimit
        dsimp only
        omega
    | episodic =>
        cases hlimit
        dsimp only
        omega
  · have hfactsLength := hfacts.length
    have hepisodesLength := hepisodes.length
    rw [semanticShare] at hfactsLength
    rw [List.length_append] at hepisodesLength
    rw [sortBy_perm.length_eq, List.length_append]
    omega

@[simp] theorem contextOf_allocation :
    (contextOf retriever query allocation direct candidates).allocation = allocation := rfl

@[simp] theorem contextOf_query :
    (contextOf retriever query allocation direct candidates).query = query := rfl

theorem contextOf_layers (hpresentable : Presentable allocation direct candidates) {layer : RetrievalLayer}
    {limit : Nat} (hlimit : limit? allocation layer = some limit) :
    layerTokens (contextOf retriever query allocation direct candidates).selections layer ≤ limit := by
  calc layerTokens (contextOf retriever query allocation direct candidates).selections layer
    _ ≤ layerTokens (direct ++ diverseRecords retriever allocation direct candidates) layer :=
        layerTokens_sublist_le (selections_sublist retriever query hpresentable) layer
    _ ≤ layerTokens (direct ++ (selectRecords retriever allocation direct candidates).1) layer :=
        layerTokens_sublist_le (List.filter_sublist.append_left direct) layer
    _ ≤ limit := (selectRecords_within retriever hpresentable).1 layer limit hlimit

/-- What is rendered is what is selected, within the shares of all layers, or nothing is. -/
theorem contextOf_rendered :
    ((contextOf retriever query allocation direct candidates).rendered
        = renderContext query allocation (contextOf retriever query allocation direct candidates).selections
      ∧ estimateText (contextOf retriever query allocation direct candidates).rendered
        ≤ allocation.retrievalTokens)
    ∨ ((contextOf retriever query allocation direct candidates).selections = []
      ∧ (contextOf retriever query allocation direct candidates).rendered = "") :=
  fitRender_rendered query allocation _

theorem contextOf_estimatedTokens_le :
    (contextOf retriever query allocation direct candidates).estimatedTokens
      ≤ allocation.retrievalTokens := by
  change (if (contextOf retriever query allocation direct candidates).rendered = "" then 0
    else estimateText (contextOf retriever query allocation direct candidates).rendered) ≤ _
  split
  · exact Nat.zero_le _
  · rename_i hsome
    rcases @contextOf_rendered F _ _ retriever query allocation direct candidates with ⟨-, hfits⟩ | ⟨-, hnone⟩
    · exact hfits
    · exact absurd hnone hsome

/-- No check of the context fails. -/
theorem contextOf_validate (hpresentable : Presentable allocation direct candidates) :
    (contextOf retriever query allocation direct candidates).validate
      = .ok (contextOf retriever query allocation direct candidates) := by
  obtain ⟨omitted, -, hperm, -⟩ := contextOf_perm retriever query hpresentable
  have hids := (hperm.map RetrievalSelection.id).nodup_iff.mpr hpresentable.distinct
  rw [List.map_append] at hids
  have hused : (contextOf retriever query allocation direct candidates).usedTokens.find?
      (exceeds allocation) = none := by
    refine List.find?_eq_none.mpr fun entry hentry => ?_
    obtain ⟨layer, -, rfl⟩ := List.mem_map.mp hentry
    rw [exceeds]
    cases hlimit : limit? allocation layer with
    | none => exact Bool.false_ne_true
    | some limit =>
        have hle := contextOf_layers retriever query hpresentable hlimit
        rw [Option.any_some, decide_eq_true_eq, Nat.not_lt]
        exact hle
  rw [LayeredMemoryContext.validate, if_neg (not_not.mpr (List.nodup_append.mp hids).1), contextOf_allocation,
    if_neg (Nat.not_lt.mpr (contextOf_estimatedTokens_le retriever query)), hused]

/-- The records that were selected are as many as a layer may have: the facts have a share of the places. -/
def RecordsFull (retriever : CrossLayerMemoryRetriever) (direct records : List (RetrievalSelection F)) :
    RetrievalLayer → Prop
  | .semantic =>
      semanticShare (retriever.maxResults - direct.length) ≤ records.countP (·.layer = .semantic)
  | _ => retriever.maxResults - direct.length ≤ records.length

/-- A candidate that is not among the records that were selected found no place. -/
theorem selectRecords_maximal (hpresentable : Presentable allocation direct candidates)
    {item : RetrievalSelection F} (hitem : item ∈ candidates)
    (hout : item ∉ (selectRecords retriever allocation direct candidates).1) :
    RecordsFull retriever direct (selectRecords retriever allocation direct candidates).1 item.layer
    ∨ retriever.maxPerDiversityKey ≤ (selectRecords retriever allocation direct candidates).1.countP
        (·.diversityKey = item.diversityKey)
    ∨ ∃ limit, limit? allocation item.layer = some limit
        ∧ limit < layerTokens (direct ++ (selectRecords retriever allocation direct candidates).1) item.layer
            + item.estimatedTokens := by
  obtain ⟨facts, episodes, hfacts, hepisodes, hrecords⟩ :=
    @selectRecords_fills F _ _ retriever allocation direct candidates
  rw [hrecords, mem_sortBy, List.mem_append, not_or] at hout
  rw [hrecords, sortBy_perm.countP_eq, List.countP_append, layerTokens_append,
    layerTokens_sorted hfacts.ofLayer hepisodes.ofLayer]
  rcases hpresentable.layers item hitem with hlayer | hlayer
  · have hdirect := hpresentable.within .semantic _ rfl
    have hfull := hfacts.full item hitem hlayer hout.1
    rw [hlayer]
    rcases hfull with hmany | hkey | htokens
    · refine Or.inl ?_
      have hcount : facts.countP (·.layer = .semantic) = facts.length :=
        List.countP_eq_length.mpr fun fact hfact => decide_eq_true (hfacts.ofLayer fact hfact)
      rw [RecordsFull, sortBy_perm.countP_eq, List.countP_append]
      omega
    · exact Or.inr (Or.inl (by omega))
    · refine Or.inr (Or.inr ⟨_, rfl, ?_⟩)
      dsimp only
      omega
  · have hdirect := hpresentable.within .episodic _ rfl
    have hfull := hepisodes.full item hitem hlayer hout.2
    rw [List.length_append] at hfull
    rw [hlayer]
    rcases hfull with hmany | hkey | htokens
    · refine Or.inl ?_
      rw [RecordsFull, sortBy_perm.length_eq, List.length_append]
      · omega
      · exact RetrievalLayer.noConfusion
    · exact Or.inr (Or.inl (by omega))
    · refine Or.inr (Or.inr ⟨_, rfl, ?_⟩)
      dsimp only
      omega

/-- A candidate is omitted for a reason only: there are enough records, there is enough about its key, its
layer has no room for it, or the text of all of them would be too long. -/
theorem contextOf_maximal (hpresentable : Presentable allocation direct candidates)
    {item : RetrievalSelection F} (hitem : item ∈ candidates)
    (hout : item ∉ (contextOf retriever query allocation direct candidates).selections) :
    RecordsFull retriever direct (selectRecords retriever allocation direct candidates).1 item.layer
    ∨ retriever.maxPerDiversityKey ≤ (selectRecords retriever allocation direct candidates).1.countP
        (·.diversityKey = item.diversityKey)
    ∨ (∃ limit, limit? allocation item.layer = some limit
        ∧ limit < layerTokens (direct ++ (selectRecords retriever allocation direct candidates).1) item.layer
            + item.estimatedTokens)
    ∨ allocation.retrievalTokens < estimateText (renderContext query allocation
        (enforceGlobalDiversity retriever
          (direct ++ (selectRecords retriever allocation direct candidates).1)).1) := by
  rw [diverse_eq retriever hpresentable]
  dsimp only
  by_cases hselected : item ∈ (selectRecords retriever allocation direct candidates).1
  · by_cases haccepted :
        item.id ∈ acceptedIds retriever (selectRecords retriever allocation direct candidates).1
    · refine Or.inr (Or.inr (Or.inr ?_))
      by_contra hfits
      refine hout ?_
      have hall : fitsRendered query allocation
          (direct ++ diverseRecords retriever allocation direct candidates) = true :=
        decide_eq_true (Nat.not_lt.mp hfits)
      rw [contextOf]
      dsimp only
      rw [diverse_eq retriever hpresentable, fitRender,
        Selection.giveUp_of_fits (by rw [hall, Bool.or_true])]
      exact List.mem_append_right _ (List.mem_filter.mpr ⟨hselected, decide_eq_true haccepted⟩)
    · exact Or.inr (Or.inl (countP_of_not_accepted hselected haccepted))
  · exact (selectRecords_maximal retriever hpresentable hitem hselected).imp_right
      (Or.imp_right Or.inl)

end Context

end Selections

end PatchLoop
