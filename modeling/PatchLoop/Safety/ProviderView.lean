import PatchLoop.Json.RoundTrip
import PatchLoop.Memory.Retrieval
import PatchLoop.Safety.EpochRollover
import PatchLoop.Safety.PublishedMemory
import PatchLoop.Safety.Retrieval

/-!
# The provider's view of memory

The view depends on what the selections say, in no way on how they were ranked.
-/

namespace PatchLoop

open Buckets

namespace ProviderItem

/-! ### Items as JSON -/

section Canonical

variable [FloatRepr]

theorem normalItems_texts (texts : List String) : Json.NormalItems (texts.map Json.str) := by
  induction texts with
  | nil => exact trivial
  | cons text rest ih => exact ⟨trivial, ih⟩

theorem canonical_normal (item : ProviderItem) : item.canonical.Normal := by
  have hkeys : ∀ fields : List (String × Json), (fields.map Prod.fst).Pairwise (· < ·) →
      fields.Pairwise fun field later => field.1 < later.1 := fun fields => List.pairwise_map.mp
  cases item with
  | state text => exact ⟨⟨trivial, trivial⟩, List.pairwise_singleton _ _⟩
  | record semanticType stableScope text paths =>
      have hshort : (["scope", "text", "type"] : List String).Pairwise (· < ·) := by decide
      have hlong : (["paths", "scope", "text", "type"] : List String).Pairwise (· < ·) := by decide
      rw [canonical, pathFields]
      split
      · exact ⟨⟨trivial, trivial, trivial, trivial⟩, hkeys _ hshort⟩
      · exact ⟨⟨normalItems_texts paths, trivial, trivial, trivial, trivial⟩, hkeys _ hlong⟩

end Canonical

theorem textArray_injective {texts others : List String} (heq : textArray texts = textArray others) :
    texts = others := by
  have hmap : texts.map Json.str = others.map Json.str := Json.arr.inj heq
  exact List.map_injective_iff.mpr (fun _ _ => Json.str.inj) hmap

theorem pathFields_append_injective {paths others : List String} {rest later : List (String × Json)}
    (hlength : rest.length = later.length) (heq : pathFields paths ++ rest = pathFields others ++ later) :
    paths = others ∧ rest = later := by
  obtain ⟨hfields, hrest⟩ := List.append_inj' heq hlength
  refine ⟨?_, hrest⟩
  rw [pathFields, pathFields] at hfields
  split at hfields
  · rename_i hnone
    split at hfields
    · rename_i hnoneToo
      rw [hnone, hnoneToo]
    · cases hfields
  · split at hfields
    · cases hfields
    · exact textArray_injective (Prod.mk.inj (List.cons.inj hfields).1).2

/-- What is written tells the items apart. -/
theorem canonical_injective {item other : ProviderItem} (heq : item.canonical = other.canonical) :
    item = other := by
  cases item with
  | state text =>
      cases other with
      | state text' =>
          have hfield := (List.cons.inj (Json.obj.inj heq)).1
          rw [Json.str.inj (Prod.mk.inj hfield).2]
      | record semanticType' stableScope' text' paths' =>
          have hlength := congrArg List.length (Json.obj.inj heq)
          rw [List.length_append] at hlength
          simp at hlength
  | record semanticType stableScope text paths =>
      cases other with
      | state text' =>
          have hlength := congrArg List.length (Json.obj.inj heq)
          rw [List.length_append] at hlength
          simp at hlength
      | record semanticType' stableScope' text' paths' =>
          rw [canonical, canonical] at heq
          have hfields := Json.obj.inj heq
          obtain ⟨hpaths, hrest⟩ := pathFields_append_injective (by rfl) hfields
          obtain ⟨hscope, hrest⟩ := List.cons.inj hrest
          obtain ⟨htext, hrest⟩ := List.cons.inj hrest
          have htype := (List.cons.inj hrest).1
          rw [hpaths, Json.str.inj (Prod.mk.inj hscope).2, Json.str.inj (Prod.mk.inj htext).2,
            Json.str.inj (Prod.mk.inj htype).2]

theorem dumps_canonical_injective [FloatRepr] {item other : ProviderItem}
    (heq : item.canonical.dumps = other.canonical.dumps) : item = other := by
  have hloads := Json.loads_dumps item.canonical_normal
  rw [heq, Json.loads_dumps other.canonical_normal] at hloads
  exact (canonical_injective (Option.some.inj hloads)).symm

end ProviderItem

/-! ### The view -/

section View

variable {F : Type} [UnicodeForms] [Sha256]

omit [UnicodeForms] in
/-- The last part of the sort key is the digest. -/
theorem ProviderItem.digest_of_sortKey {item other : ProviderItem} (heq : item.sortKey = other.sortKey) :
    Sha256.hexdigest item.canonical.dumps = Sha256.hexdigest other.canonical.dumps := by
  have hlast : ∀ one : ProviderItem, (ofLex (ofLex one.sortKey).2).2 = Sha256.hexdigest one.canonical.dumps := by
    intro one
    cases one <;> rfl
  rw [← hlast, ← hlast, heq]

/-- Two selections that say the same, whatever their scores, their ids, the reasons for them and the order in
which they were selected, give the model the same text. -/
theorem providerProjection_unranked {selections others : List (RetrievalSelection F)}
    (hitems : (selections.filterMap providerItem).Perm (others.filterMap providerItem))
    (hdigest : ∀ first ∈ others.filterMap providerItem, ∀ second ∈ others.filterMap providerItem,
      Sha256.hexdigest first.2.canonical.dumps = Sha256.hexdigest second.2.canonical.dumps →
        first.2.canonical.dumps = second.2.canonical.dumps) :
    LayeredMemoryContext.providerProjection selections
      = LayeredMemoryContext.providerProjection others := by
  -- an item has no number in it, so that any way to write numbers serves to read it back
  have : FloatRepr := Sample.floatRepr
  have hbucket : ∀ category : String,
      sortBy ProviderItem.sortKey (((selections.filterMap providerItem).filter (·.1 = category)).map Prod.snd)
        = sortBy ProviderItem.sortKey
            (((others.filterMap providerItem).filter (·.1 = category)).map Prod.snd) := by
    intro category
    refine sortBy_congr ?_ ((hitems.filter _).map Prod.snd)
    intro item hitem other hother hkey
    obtain ⟨first, hfirst, rfl⟩ := List.mem_map.mp hitem
    obtain ⟨second, hsecond, rfl⟩ := List.mem_map.mp hother
    exact ProviderItem.dumps_canonical_injective (hdigest first (List.mem_filter.mp hfirst).1 second
      (List.mem_filter.mp hsecond).1 (ProviderItem.digest_of_sortKey hkey))
  rw [LayeredMemoryContext.providerProjection, LayeredMemoryContext.providerProjection]
  simp only [hbucket]

end View

section Samples

local instance providerViewFloats : Floats ℚ := Sample.decimals

local instance providerViewForms : UnicodeForms := Sample.asciiForms

local instance providerViewDigest : Sha256 := Sample.hexDigest

/-- A fact that was selected with a score. -/
def Sample.scoredFact (id text : String) (score : ℚ) : RetrievalSelection ℚ where
  id := "record:" ++ id
  layer := .semantic
  text
  score
  estimatedTokens := 6
  reason := "hybrid"
  recordId := some id
  diversityKey := id
  semanticType := "code_symbol"
  stableScope := "task"

/-- Two facts that change places as their scores do. -/
theorem providerProjection_unranked_facts :
    LayeredMemoryContext.providerProjection [Sample.scoredFact "a" "x is 1" (9 / 10),
        Sample.scoredFact "b" "y is 2" (1 / 2)]
      = LayeredMemoryContext.providerProjection [Sample.scoredFact "b" "y is 2" (4 / 5),
        Sample.scoredFact "a" "x is 1" (3 / 5)] :=
  providerProjection_unranked (by decide +kernel) (by decide +kernel)

end Samples

end PatchLoop
