import PatchLoop.Safety.Retrieval

/-!
# The order of the records

Retrieval depends on the records and the sources that there are, not on the order in which they are listed.
-/

namespace PatchLoop

open Buckets

/-! ### Lists in another order -/

section Keys

variable {α κ : Type} [DecidableEq κ] {key : α → κ} {items others : List α} {k : κ}

theorem find?_key_eq_some_iff (hkeys : (items.map key).Nodup) {a : α} :
    items.find? (key · = k) = some a ↔ a ∈ items ∧ key a = k := by
  constructor
  · intro hfind
    exact ⟨List.mem_of_find?_eq_some hfind, by simpa using List.find?_some hfind⟩
  · rintro ⟨hmem, rfl⟩
    obtain ⟨found, hfound⟩ : ∃ found, items.find? (key · = key a) = some found :=
      Option.isSome_iff_exists.mp (List.find?_isSome.mpr ⟨a, hmem, decide_eq_true rfl⟩)
    have hsame : key found = key a := by simpa using List.find?_some hfound
    rw [hfound, List.inj_on_of_nodup_map hkeys (List.mem_of_find?_eq_some hfound) hmem hsame]

/-- Where keys come up once, what is found for a key does not depend on the order. -/
theorem find?_of_perm (hperm : items.Perm others) (hkeys : (others.map key).Nodup) :
    items.find? (key · = k) = others.find? (key · = k) := by
  ext a
  rw [find?_key_eq_some_iff ((hperm.map key).nodup_iff.mpr hkeys), find?_key_eq_some_iff hkeys,
    hperm.mem_iff]

end Keys

/-! ### Records and sources -/

theorem retrievable_of_perm {taskId scopeId : String} {records others : List MemoryRecord}
    (hperm : records.Perm others) (hids : (others.map MemoryRecord.id).Nodup) :
    retrievable taskId scopeId records = retrievable taskId scopeId others := by
  refine sortBy_congr ?_ (hperm.filter _)
  intro record hrecord other hother hrank
  have hid : record.id = other.id := congrArg (fun rank => (ofLex rank).2) hrank
  exact List.inj_on_of_nodup_map hids (List.mem_filter.mp hrecord).1 (List.mem_filter.mp hother).1 hid

theorem sourceOf_of_perm {taskId : String} {sources others : List SourcePointer}
    (hperm : sources.Perm others) (hids : (others.map SourcePointer.id).Nodup) :
    sourceOf taskId sources = sourceOf taskId others := by
  funext id
  refine find?_of_perm ?_ ?_
  · exact ((List.reverse_perm _).trans (hperm.filter _)).trans (List.reverse_perm _).symm
  · rw [List.map_reverse, List.nodup_reverse]
    exact hids.sublist (List.filter_sublist.map _)

section Retrieving

variable {F : Type} [Floats F] [Redactor] [InstructionPatterns] [UnicodeForms] [MemoryText]

theorem recordCandidates_of_perm {query : RetrievalQuery} {scopeId : String}
    {records otherRecords : List MemoryRecord} {sources otherSources : List SourcePointer}
    (hrecords : records.Perm otherRecords) (hids : (otherRecords.map MemoryRecord.id).Nodup)
    (hsources : sources.Perm otherSources) (hsourceIds : (otherSources.map SourcePointer.id).Nodup) :
    recordCandidates (F := F) query scopeId records sources
      = recordCandidates query scopeId otherRecords otherSources := by
  have hcandidate : recordCandidate (F := F) query sources = recordCandidate query otherSources := by
    funext count record index
    unfold recordCandidate
    rw [sourceOf_of_perm hsources hsourceIds]
  rw [recordCandidates, recordCandidates, retrievable_of_perm hrecords hids, hcandidate]

/-- The order in which the store lists the records and the sources changes nothing of what is retrieved. -/
theorem retrieve_unordered {retriever : CrossLayerMemoryRetriever} {args : RetrievalArguments}
    {records : List MemoryRecord} {sources : List SourcePointer}
    (hids : (args.records.map MemoryRecord.id).Nodup) (hsourceIds : (args.sources.map SourcePointer.id).Nodup)
    (hrecords : records.Perm args.records) (hsources : sources.Perm args.sources) :
    retrieve (F := F) retriever { args with records, sources } = retrieve retriever args := by
  rw [retrieve, retrieve]
  dsimp only
  refine congrArg _ (funext fun allocation => ?_)
  refine congrArg _ (funext fun query => ?_)
  rw [recordCandidates_of_perm hrecords hids hsources hsourceIds]

end Retrieving

section Samples

local instance retrievalOrderFloats : Floats ℚ := Sample.decimals

local instance retrievalOrderForms : UnicodeForms := Sample.asciiForms

local instance retrievalOrderRedactor : Redactor := Sample.redactor

local instance retrievalOrderPatterns : InstructionPatterns where
  block text := (text, false)

local instance retrievalOrderText : MemoryText where
  foldCase text := String.ofList (text.toList.map Char.toLower)
  str json := json.dumps

/-- A record that was made at the same time. -/
def Sample.rememberedLater : MemoryRecord :=
  { Sample.remembered with id := "r2", retrievalText := "Keep y" }

def Sample.twoRecords : RetrievalArguments :=
  { Sample.arguments with records := [Sample.rememberedLater, Sample.remembered] }

/-- The retrieval does not tell which of two records comes first. -/
theorem retrieve_unordered_records :
    retrieve (F := ℚ) (Sample.retriever 12 (by decide))
        { Sample.twoRecords with records := [Sample.remembered, Sample.rememberedLater], sources := [] }
      = retrieve (Sample.retriever 12 (by decide)) Sample.twoRecords :=
  retrieve_unordered (by decide) (by decide) (List.Perm.swap _ _ _) (List.Perm.refl _)

end Samples

end PatchLoop
