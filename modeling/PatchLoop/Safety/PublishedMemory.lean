import PatchLoop.Json.RoundTrip
import PatchLoop.Lib.Bytes
import PatchLoop.Lib.Patches
import PatchLoop.Lib.Run
import PatchLoop.PromptCache.Publication
import PatchLoop.Store.Operation

/-!
# What publications replay to

The messages of an epoch replay to the payload that the publisher holds, category by category. A
projection is lost where its delta was published before in the epoch: the publisher takes it for known and
keeps the old payload.
-/

namespace PatchLoop

open Patches

/-! ### Items by their text -/

section Items

variable [FloatRepr]

theorem canonicalItem_inj {item other : Json} (hitem : item.Normal) (hother : other.Normal)
    (hsame : canonicalItem item = canonicalItem other) : item = other := by
  have hloads := Json.loads_dumps hitem
  rw [show item.dumps = other.dumps from hsame, Json.loads_dumps hother] at hloads
  exact (Option.some.inj hloads).symm

omit [FloatRepr] in
theorem mem_keys_setField {name : String} {value : Json} {fields : List (String × Json)}
    {key : String} :
    key ∈ (Json.setField name value fields).map Prod.fst
      ↔ key = name ∨ key ∈ fields.map Prod.fst := by
  induction fields with
  | nil => simp [Json.setField]
  | cons field rest ih =>
      rw [Json.setField]
      split
      · rename_i hname
        simp [hname]
      · split
        · simp
        · rw [List.map_cons, List.mem_cons, ih, List.map_cons, List.mem_cons]
          exact or_left_comm

omit [FloatRepr] in
theorem mem_keys_dictOf {pairs : List (String × Json)} {key : String} :
    key ∈ (Json.dictOf pairs).map Prod.fst ↔ key ∈ pairs.map Prod.fst := by
  have hfold : ∀ (pairs fields : List (String × Json)),
      key ∈ (pairs.foldl (fun fields pair => Json.setField pair.1 pair.2 fields) fields).map Prod.fst
        ↔ key ∈ fields.map Prod.fst ∨ key ∈ pairs.map Prod.fst := by
    intro pairs
    induction pairs with
    | nil => simp
    | cons pair rest ih =>
        intro fields
        rw [List.foldl_cons, ih, mem_keys_setField, List.map_cons, List.mem_cons, or_assoc,
          or_left_comm]
  rw [Json.dictOf, hfold]
  simp

omit [FloatRepr] in
theorem mem_of_mem_dictOf {pairs : List (String × Json)} {pair : String × Json}
    (hmem : pair ∈ Json.dictOf pairs) : pair ∈ pairs := by
  have hfold : ∀ (pairs fields : List (String × Json)),
      pair ∈ pairs.foldl (fun fields pair => Json.setField pair.1 pair.2 fields) fields →
        pair ∈ fields ∨ pair ∈ pairs := by
    intro pairs
    induction pairs with
    | nil => exact fun fields hmem => Or.inl hmem
    | cons first rest ih =>
        intro fields hmem
        rcases ih _ hmem with hmem | hmem
        · rcases Json.mem_setField hmem with rfl | hmem
          · exact Or.inr List.mem_cons_self
          · exact Or.inl hmem
        · exact Or.inr (List.mem_cons_of_mem _ hmem)
  rcases hfold pairs [] hmem with hmem | hmem
  · cases hmem
  · exact hmem

omit [FloatRepr] in
theorem mem_keys_keyed {items : List Json} {key : String} :
    key ∈ (keyed items).map Prod.fst ↔ ∃ item ∈ items, canonicalItem item = key := by
  rw [keyed, mem_keys_dictOf]
  simp

/-- An item is in the difference if it is one of the items and none of the others. -/
theorem mem_difference {items others : List Json} (hitems : ∀ item ∈ items, item.Normal)
    (hothers : ∀ item ∈ others, item.Normal) {item : Json} :
    item ∈ difference items others ↔ item ∈ items ∧ item ∉ others := by
  have hkeyed : ∀ entry ∈ keyed items, entry.2 ∈ items ∧ entry.1 = canonicalItem entry.2 := by
    intro entry hmem
    obtain ⟨found, hfound, rfl⟩ := List.mem_map.mp (mem_of_mem_dictOf hmem)
    exact ⟨hfound, rfl⟩
  rw [difference, List.mem_map]
  constructor
  · rintro ⟨entry, hmem, rfl⟩
    obtain ⟨hentry, hnew⟩ := List.mem_filter.mp hmem
    obtain ⟨hmem, hkey⟩ := hkeyed entry hentry
    refine ⟨hmem, fun hother => ?_⟩
    have hkeys : entry.1 ∈ (keyed others).map Prod.fst :=
      mem_keys_keyed.mpr ⟨entry.2, hother, hkey.symm⟩
    simp [hkeys] at hnew
  · rintro ⟨hmem, hnew⟩
    have hkeys : canonicalItem item ∈ (keyed items).map Prod.fst :=
      mem_keys_keyed.mpr ⟨item, hmem, rfl⟩
    obtain ⟨entry, hentry, hsame⟩ := List.mem_map.mp hkeys
    obtain ⟨hfound, hkey⟩ := hkeyed entry hentry
    have heq : entry.2 = item :=
      canonicalItem_inj (hitems _ hfound) (hitems _ hmem) (hkey.symm.trans hsame)
    refine ⟨entry, List.mem_filter.mpr ⟨hentry, ?_⟩, heq⟩
    simp only [decide_eq_true_eq]
    intro hother
    obtain ⟨other, hmemOther, hkeyOther⟩ := mem_keys_keyed.mp hother
    have hsameOther : other = item :=
      canonicalItem_inj (hothers _ hmemOther) (hitems _ hmem) (hkeyOther.trans hsame)
    exact hnew (hsameOther ▸ hmemOther)

/-! ### Payloads by their categories -/

omit [FloatRepr] in
theorem get?_ofCategories (entry : String → Option (List Json)) (category : String) :
    (ofCategories entry).get? category
      = if category ∈ categories then (entry category).map .arr else none := by
  have hfind : ∀ names : List String,
      (names.filterMap fun name => (entry name).map fun items => (name, Json.arr items)).find?
          (fun field => field.1 = category)
        = if category ∈ names then (entry category).map fun items => (category, .arr items)
          else none := by
    intro names
    induction names with
    | nil => rfl
    | cons name rest ih =>
        rw [List.filterMap_cons]
        cases hentry : entry name with
        | none =>
            rw [Option.map_none, ih]
            by_cases hname : category = name
            · subst hname
              simp [hentry]
            · simp [hname]
        | some items =>
            rw [Option.map_some, List.find?_cons]
            by_cases hname : name = category
            · subst hname
              simp [hentry]
            · simp [hname, ih, Ne.symm hname]
  rw [ofCategories, Json.get?, hfind]
  by_cases hcategory : category ∈ categories
  · rw [if_pos hcategory, if_pos hcategory, Option.map_map]
    rfl
  · rw [if_neg hcategory, if_neg hcategory]
    rfl

omit [FloatRepr] in
theorem itemsOf_ofCategories (entry : String → Option (List Json)) (category : String) :
    (ofCategories entry).itemsOf category
      = if category ∈ categories then (entry category).getD [] else [] := by
  rw [Json.itemsOf, get?_ofCategories]
  by_cases hcategory : category ∈ categories
  · rw [if_pos hcategory, if_pos hcategory]
    cases entry category <;> rfl
  · rw [if_neg hcategory, if_neg hcategory]

omit [FloatRepr] in
@[simp] theorem getD_unlessEmpty (items : List Json) : (unlessEmpty items).getD [] = items := by
  unfold unlessEmpty
  split
  · rename_i hempty
    rw [hempty]
    rfl
  · rfl

omit [FloatRepr] in
theorem ofCategories_congr {entry other : String → Option (List Json)}
    (hsame : ∀ category ∈ categories, entry category = other category) :
    ofCategories entry = ofCategories other := by
  refine congrArg Json.obj (List.filterMap_congr fun category hcategory => ?_)
  rw [hsame category hcategory]

theorem ofCategories_normal {entry : String → Option (List Json)}
    (hnormal : ∀ category ∈ categories, ∀ items ∈ entry category, ∀ item ∈ items, item.Normal) :
    (ofCategories entry).Normal := by
  constructor
  · refine Json.normalFields_iff.mpr fun field hmem => ?_
    obtain ⟨category, hcategory, hfield⟩ := List.mem_filterMap.mp hmem
    obtain ⟨items, hitems, rfl⟩ := Option.map_eq_some_iff.mp hfield
    exact Json.normalItems_iff.mpr (hnormal category hcategory items hitems)
  · have hsorted : categories.Pairwise (· < ·) := by decide
    refine List.Pairwise.filterMap _ (fun name later hlt field hfield other hother => ?_) hsorted
    obtain ⟨items, -, rfl⟩ := Option.map_eq_some_iff.mp hfield
    obtain ⟨items, -, rfl⟩ := Option.map_eq_some_iff.mp hother
    exact hlt

/-- The items of each category, whatever their order and however often they occur. -/
def Json.view (payload : Json) (category : String) : Set Json :=
  {item | item ∈ payload.itemsOf category}

/-- A payload as `_projection_payload` makes it. -/
structure IsPayload (payload : Json) : Prop where
  normal : payload.Normal
  isObject : payload.isObject = true
  items : ∀ category, ∀ item ∈ payload.itemsOf category,
    category ∈ categories ∧ item.Normal ∧ item.isObject = true

theorem IsPayload.normalItems {payload : Json} (hpayload : IsPayload payload) (category : String) :
    ∀ item ∈ payload.itemsOf category, item.Normal :=
  fun item hmem => (hpayload.items category item hmem).2.1

theorem IsPayload.itemsOf_eq_nil {payload : Json} (hpayload : IsPayload payload) {category : String}
    (hcategory : category ∉ categories) : payload.itemsOf category = [] :=
  List.eq_nil_iff_forall_not_mem.mpr fun item hmem =>
    hcategory (hpayload.items category item hmem).1

/-- What a part of a delta says of a category. -/
theorem deltaItems_part {delta items others : Json} {part : String} (hitems : IsPayload items)
    (hothers : IsPayload others)
    (hpart : delta.get? part = some (ofCategories fun category =>
      unlessEmpty (difference (items.itemsOf category) (others.itemsOf category))))
    (category : String) :
    (delta.deltaItems part category).getD []
      = difference (items.itemsOf category) (others.itemsOf category) := by
  rw [Json.deltaItems, hpart, Option.bind_some, get?_ofCategories]
  by_cases hcategory : category ∈ categories
  · rw [if_pos hcategory, unlessEmpty]
    by_cases hempty : difference (items.itemsOf category) (others.itemsOf category) = []
    · rw [if_pos hempty, hempty]
      rfl
    · rw [if_neg hempty]
      change List.filter Json.isObject _ = _
      refine List.filter_eq_self.mpr fun item hmem => ?_
      have hdifference := (mem_difference (hitems.normalItems category)
        (hothers.normalItems category)).mp hmem
      exact (hitems.items category item hdifference.1).2.2
  · rw [if_neg hcategory, hitems.itemsOf_eq_nil hcategory]
    rfl

omit [FloatRepr] in
theorem mem_applyDeltaTo {payload delta : Json} {category : String} {item : Json} :
    item ∈ applyDeltaTo payload delta category
      ↔ (item ∈ payload.itemsOf category
          ∧ canonicalItem item ∉ ((delta.deltaItems "removed" category).getD []).map canonicalItem)
        ∨ item ∈ (delta.deltaItems "added" category).getD [] := by
  unfold applyDeltaTo
  cases delta.deltaItems "added" category with
  | none => simp
  | some added => simp

/-- Applying the delta between two payloads patches the view with the patch between their views. -/
theorem view_applyDelta {payload previous current : Json} (hprevious : IsPayload previous)
    (hcurrent : IsPayload current) (hview : payload.view = previous.view) :
    (applyDelta payload (payloadDelta previous current)).view
      = (between previous.view current.view).apply payload.view := by
  have hadded : ∀ category, ((payloadDelta previous current).deltaItems "added" category).getD []
      = difference (current.itemsOf category) (previous.itemsOf category) :=
    deltaItems_part hcurrent hprevious (by simp [payloadDelta, Json.get?])
  have hremoved : ∀ category, ((payloadDelta previous current).deltaItems "removed" category).getD []
      = difference (previous.itemsOf category) (current.itemsOf category) :=
    deltaItems_part hprevious hcurrent (by simp [payloadDelta, Json.get?])
  funext category
  have hmem : ∀ item, item ∈ payload.itemsOf category ↔ item ∈ previous.itemsOf category :=
    fun item => Set.ext_iff.mp (congrFun hview category) item
  have hprev := hprevious.normalItems category
  have hcur := hcurrent.normalItems category
  ext item
  change item ∈ (applyDelta payload (payloadDelta previous current)).itemsOf category
    ↔ (item ∈ payload.itemsOf category
        ∧ ¬ (item ∈ previous.itemsOf category ∧ item ∉ current.itemsOf category))
      ∨ item ∈ current.itemsOf category ∧ item ∉ previous.itemsOf category
  rw [applyDelta, itemsOf_ofCategories, getD_unlessEmpty]
  by_cases hcategory : category ∈ categories
  · rw [if_pos hcategory, mem_applyDeltaTo, hadded, hremoved, mem_difference hcur hprev, hmem]
    have hkeys : item ∈ previous.itemsOf category →
        (canonicalItem item ∈ (difference (previous.itemsOf category) (current.itemsOf category)).map
            canonicalItem
          ↔ item ∈ previous.itemsOf category ∧ item ∉ current.itemsOf category) := by
      intro hitem
      rw [← mem_difference hprev hcur]
      constructor
      · intro hkey
        obtain ⟨other, hother, hsame⟩ := List.mem_map.mp hkey
        have hfound := (mem_difference hprev hcur).mp hother
        exact canonicalItem_inj (hprev _ hfound.1) (hprev _ hitem) hsame ▸ hother
      · exact fun hdifference => List.mem_map.mpr ⟨item, hdifference, rfl⟩
    constructor
    · rintro (⟨hitem, hkept⟩ | hitem)
      · exact Or.inl ⟨hitem, fun hremove => hkept ((hkeys hitem).mpr hremove)⟩
      · exact Or.inr hitem
    · rintro (⟨hitem, hkept⟩ | hitem)
      · exact Or.inl ⟨hitem, fun hremove => hkept ((hkeys hitem).mp hremove)⟩
      · exact Or.inr hitem
  · rw [if_neg hcategory, hmem, hprevious.itemsOf_eq_nil hcategory,
      hcurrent.itemsOf_eq_nil hcategory]
    simp

theorem payloadDelta_normal {previous current : Json} (hprevious : IsPayload previous)
    (hcurrent : IsPayload current) : (payloadDelta previous current).Normal := by
  have hpart : ∀ {items others : Json}, IsPayload items → IsPayload others →
      (ofCategories fun category =>
        unlessEmpty (difference (items.itemsOf category) (others.itemsOf category))).Normal := by
    intro items others hitems hothers
    refine ofCategories_normal fun category _ found hfound item hmem => ?_
    rw [unlessEmpty] at hfound
    split at hfound
    · cases hfound
    · cases hfound
      have hdifference := (mem_difference (fun item hmem => (hitems.items category item hmem).2.1)
        (fun item hmem => (hothers.items category item hmem).2.1)).mp hmem
      exact (hitems.items category item hdifference.1).2.1
  refine ⟨⟨hpart hcurrent hprevious, hpart hprevious hcurrent, trivial⟩, ?_⟩
  have hlt : "added" < "removed" := by decide
  exact List.pairwise_pair.mpr hlt

theorem get?_normal {value : Json} (hnormal : value.Normal) {name : String} {found : Json}
    (hget : value.get? name = some found) : found.Normal := by
  cases value with
  | obj fields =>
      obtain ⟨field, hfield, rfl⟩ := Option.map_eq_some_iff.mp hget
      exact Json.normalFields_iff.mp hnormal.1 field (List.mem_of_find?_eq_some hfield)
  | _ => cases hget

theorem itemsOf_normal {payload : Json} (hnormal : payload.Normal) (category : String) :
    ∀ item ∈ payload.itemsOf category, item.Normal := by
  unfold Json.itemsOf
  split
  · rename_i items hitems
    exact Json.normalItems_iff.mp (get?_normal hnormal hitems)
  · simp

/-- What a projection is read as. -/
theorem projectionPayload_isPayload {projection : String} {payload : Json}
    (hread : projectionPayload projection = some payload) : IsPayload payload := by
  have hempty : IsPayload (.obj []) := ⟨⟨trivial, List.Pairwise.nil⟩, rfl, by simp [Json.itemsOf, Json.get?]⟩
  unfold projectionPayload at hread
  dsimp only at hread
  split at hread
  · cases hread
    exact hempty
  · obtain ⟨found, hloads, hread⟩ := Option.bind_eq_some_iff.mp hread
    have hfound := Json.loads_normal hloads
    cases hread
    split
    · refine ⟨ofCategories_normal fun category _ items hitems item hmem => ?_, rfl,
        fun category item hmem => ?_⟩
      · obtain ⟨all, hall, rfl⟩ := Option.map_eq_some_iff.mp hitems
        rw [unlessEmpty] at hall
        split at hall
        · cases hall
        · cases hall
          exact itemsOf_normal hfound category item (List.mem_filter.mp hmem).1
      · rw [itemsOf_ofCategories] at hmem
        split at hmem
        · rename_i hcategory
          rw [unlessEmpty] at hmem
          split at hmem
          · cases hmem
          · obtain ⟨hitem, hobject⟩ := List.mem_filter.mp hmem
            exact ⟨hcategory, itemsOf_normal hfound category item hitem, hobject⟩
        · cases hmem
    · exact hempty

omit [FloatRepr] in
theorem toList_lines (first second text : String) :
    (first ++ "\n" ++ second ++ "\n" ++ text).toList
      = first.toList ++ '\n' :: (second.toList ++ '\n' :: text.toList) := by
  simp

/-- After two lines an object without line separators is read, of which the categories are kept. -/
theorem projectionPayload_lines {first second : String} {payload : Json}
    (hfirst : ∀ c ∈ first.toList, isLineBreak c = false) (hsecond : ∀ c ∈ second.toList, isLineBreak c = false)
    (hnormal : payload.Normal) (hobject : payload.isObject = true)
    (hbreaks : ∀ c ∈ payload.dumps.toList, isLineBreak c = false) :
    projectionPayload (first ++ "\n" ++ second ++ "\n" ++ payload.dumps)
      = some (ofCategories fun category =>
        (unlessEmpty (payload.itemsOf category)).map (List.filter Json.isObject)) := by
  have hne : payload.dumps.toList ≠ [] := by
    rw [← Json.dumpsWith_empty]
    exact List.ne_nil_of_length_pos (Json.length_dumps_pos hnormal)
  have hlines : splitLines (first ++ "\n" ++ second ++ "\n" ++ payload.dumps)
      = [first, second, payload.dumps] := by
    rw [splitLines, toList_lines, splitLinesFrom_break hfirst (by decide) (by decide),
      splitLinesFrom_break hsecond (by decide) (by decide), splitLinesFrom_line hbreaks (Or.inr hne)]
    simp
  rw [projectionPayload, hlines]
  simp only [List.length_cons, List.length_nil, List.drop_succ_cons, List.drop_zero,
    String.intercalate_singleton, Json.loads_dumps hnormal]
  exact congrArg some (if_pos hobject)

/-- A projection of the memory whose text has no line separator is read as it was written. -/
theorem projectionPayload_provider {buckets : String → List Json}
    (hbuckets : ∀ category ∈ categories, ∀ item ∈ buckets category,
      item.Normal ∧ item.isObject = true)
    (hbreaks : ∀ c ∈ (ofCategories fun category => unlessEmpty (buckets category)).dumps.toList,
      isLineBreak c = false) :
    projectionPayload (providerProjection buckets)
      = some (ofCategories fun category => unlessEmpty (buckets category)) := by
  have hnormal : (ofCategories fun category => unlessEmpty (buckets category)).Normal := by
    refine ofCategories_normal fun category hcategory items hitems item hmem => ?_
    rw [unlessEmpty] at hitems
    split at hitems
    · cases hitems
    · cases hitems
      exact (hbuckets category hcategory item hmem).1
  refine (projectionPayload_lines (not_lineBreak (by rfl)) (not_lineBreak (by rfl)) hnormal rfl hbreaks).trans ?_
  refine congrArg some (ofCategories_congr fun category hcategory => ?_)
  rw [itemsOf_ofCategories, if_pos hcategory, getD_unlessEmpty, unlessEmpty]
  by_cases hempty : buckets category = []
  · rw [if_pos hempty]
    rfl
  · rw [if_neg hempty, Option.map_some]
    exact congrArg some (List.filter_eq_self.mpr fun item hmem =>
      (hbuckets category hcategory item hmem).2)

/-! ### Messages -/

omit [FloatRepr] in
theorem afterWord_append (word rest : List Char) : Json.afterWord word (word ++ rest) = some rest := by
  induction word with
  | nil => rfl
  | cons c cs ih => rw [List.cons_append, Json.afterWord, if_pos rfl, ih]

theorem parseMessage_publicationMessage (start : String) {payload : Json} (hnormal : payload.Normal)
    (hobject : payload.isObject = true) :
    parseMessage (publicationMessage start payload) start = some payload := by
  rw [parseMessage, publicationMessage, String.toList_append, afterWord_append]
  simp only [Option.bind_eq_bind, Option.bind_some, String.ofList_toList, Json.loads_dumps hnormal,
    hobject, if_true]
  rfl

end Items

/-! ### The publisher -/

section Publisher

variable [Sha256]

namespace MemoryPublicationSnapshot

/-- The snapshot that starts an epoch. -/
def first (epochId : String) (payload : Json) : MemoryPublicationSnapshot where
  epochId := epochId
  snapshotFingerprint := payloadFingerprint payload
  currentFingerprint := payloadFingerprint payload
  currentPayload := payload
  messages := [publicationMessage memorySnapshotPrefix payload]
  messageFingerprints := [messageFingerprint (publicationMessage memorySnapshotPrefix payload)]

/-- The snapshot with the delta to a payload. -/
def extended (snapshot : MemoryPublicationSnapshot) (payload : Json) : MemoryPublicationSnapshot :=
  { snapshot with
    currentFingerprint := payloadFingerprint payload
    currentPayload := payload
    messages := snapshot.messages ++ [snapshot.deltaMessage payload]
    messageFingerprints :=
      (snapshot.messages ++ [snapshot.deltaMessage payload]).map messageFingerprint
    deltaCount := snapshot.deltaCount + 1 }

/-- A payload that the publisher takes for known: it has the current fingerprint, or the delta to it has
that of a message. -/
def Skips (snapshot : MemoryPublicationSnapshot) (payload : Json) : Prop :=
  snapshot.currentFingerprint = payloadFingerprint payload
    ∨ messageFingerprint (snapshot.deltaMessage payload) ∈ snapshot.messageFingerprints

instance (snapshot : MemoryPublicationSnapshot) (payload : Json) :
    Decidable (snapshot.Skips payload) :=
  inferInstanceAs (Decidable (_ ∨ _))

/-- The delta to a payload keeps to the budget, where one is needed. -/
def Fits (snapshot : MemoryPublicationSnapshot) (payload : Json) (maxDeltaTokens : Nat) : Prop :=
  snapshot.currentFingerprint ≠ payloadFingerprint payload →
    estimateTokens (snapshot.deltaMessage payload).content ≤ maxDeltaTokens

instance (snapshot : MemoryPublicationSnapshot) (payload : Json) (maxDeltaTokens : Nat) :
    Decidable (snapshot.Fits payload maxDeltaTokens) :=
  inferInstanceAs (Decidable (_ → _))

variable [FloatRepr]

/-- A snapshot as the publisher makes it: its messages replay to its payload. -/
structure Sound (snapshot : MemoryPublicationSnapshot) : Prop where
  epochId : ValidEpochId snapshot.epochId
  payload : IsPayload snapshot.currentPayload
  current : payloadFingerprint snapshot.currentPayload = snapshot.currentFingerprint
  fingerprints : snapshot.messageFingerprints = snapshot.messages.map messageFingerprint
  distinct : snapshot.messageFingerprints.Nodup
  count : snapshot.messages.length = snapshot.deltaCount + 1
  replayed : ∃ payload, snapshot.replay = some payload ∧ payload.view = snapshot.currentPayload.view

theorem Sound.first {epochId : String} {payload : Json} (hepoch : ValidEpochId epochId)
    (hpayload : IsPayload payload) : (first epochId payload).Sound where
  epochId := hepoch
  payload := hpayload
  current := rfl
  fingerprints := rfl
  distinct := List.nodup_singleton _
  count := rfl
  replayed := by
    refine ⟨payload, ?_, rfl⟩
    rw [replay, MemoryPublicationSnapshot.first]
    simp only [parseMessage_publicationMessage _ hpayload.normal hpayload.isObject]
    rfl

omit [Sha256] in
/-- A delta at the end of the messages is applied to what the others replay to. -/
theorem replay_concat {snapshot : MemoryPublicationSnapshot} {payload : Json}
    (hreplay : snapshot.replay = some payload) (hmessages : snapshot.messages ≠ [])
    {next : MemoryPublicationSnapshot} {message : ModelMessage} {delta : Json}
    (hnext : next.messages = snapshot.messages ++ [message])
    (hdelta : parseMessage message memoryDeltaPrefix = some delta) :
    next.replay = some (applyDelta payload delta) := by
  cases hcases : snapshot.messages with
  | nil => exact absurd hcases hmessages
  | cons start deltas =>
      rw [replay, hcases] at hreplay
      obtain ⟨initial, hinitial, hfold⟩ := Option.bind_eq_some_iff.mp hreplay
      rw [replay, hnext, hcases, List.cons_append]
      simp only [hinitial, Option.bind_eq_bind, Option.bind_some, List.foldlM_append, hfold,
        List.foldlM_cons, List.foldlM_nil, hdelta, Option.map_some]
      rfl

/-- A message with a new fingerprint keeps them distinct. -/
theorem Sound.nodup_concat {snapshot : MemoryPublicationSnapshot} {message : ModelMessage}
    (hsound : snapshot.Sound) (hnew : messageFingerprint message ∉ snapshot.messageFingerprints) :
    ((snapshot.messages ++ [message]).map messageFingerprint).Nodup := by
  rw [List.map_append, ← hsound.fingerprints]
  refine List.nodup_append.mpr ⟨hsound.distinct, List.nodup_singleton _, ?_⟩
  rintro fingerprint hmem other hother rfl
  rw [List.map_singleton, List.mem_singleton] at hother
  exact hnew (hother ▸ hmem)

theorem Sound.extended {snapshot : MemoryPublicationSnapshot} {payload : Json}
    (hsound : snapshot.Sound) (hpayload : IsPayload payload) (hnew : ¬ snapshot.Skips payload) :
    (snapshot.extended payload).Sound where
  epochId := hsound.epochId
  payload := hpayload
  current := rfl
  fingerprints := rfl
  distinct := hsound.nodup_concat fun hmem => hnew (Or.inr hmem)
  count := by
    rw [MemoryPublicationSnapshot.extended, List.length_append, hsound.count]
    rfl
  replayed := by
    obtain ⟨old, hreplay, hview⟩ := hsound.replayed
    have hmessages : snapshot.messages ≠ [] := by
      intro hempty
      have hcount := hsound.count
      rw [hempty] at hcount
      cases hcount
    refine ⟨_, replay_concat hreplay hmessages rfl (parseMessage_publicationMessage _
      (payloadDelta_normal hsound.payload hpayload) rfl), ?_⟩
    rw [view_applyDelta hsound.payload hpayload hview, hview, apply_between]
    rfl

end MemoryPublicationSnapshot

theorem stateFor_eq {epochId snapshotFingerprint : String} {payload : Json}
    {messages : List ModelMessage} {deltaCount : Nat} (hepoch : ValidEpochId epochId)
    (hdistinct : (messages.map messageFingerprint).Nodup) (hcount : deltaCount = messages.length - 1) :
    stateFor epochId snapshotFingerprint (payloadFingerprint payload) payload messages deltaCount
      = .ok { epochId, snapshotFingerprint, messages, deltaCount
              currentFingerprint := payloadFingerprint payload
              currentPayload := payload
              messageFingerprints := messages.map messageFingerprint } := by
  simp [stateFor, MemoryPublicationSnapshot.validatePublication, hepoch, hdistinct, hcount]
  rfl

theorem stateFor_invalid {epochId snapshotFingerprint currentFingerprint : String} {payload : Json}
    {messages : List ModelMessage} {deltaCount : Nat} (hepoch : ¬ ValidEpochId epochId) :
    stateFor epochId snapshotFingerprint currentFingerprint payload messages deltaCount
      = .error (.fieldError "epoch_id") := by
  simp [stateFor, MemoryPublicationSnapshot.validatePublication, hepoch]
  rfl

namespace MemoryDeltaPublisher

/-- Each delta keeps to the budget of the publisher. -/
def Fits (publisher : MemoryDeltaPublisher) (epochId : String) (payload : Json) : Prop :=
  ∀ snapshot ∈ publisher.stateIn epochId, snapshot.Fits payload publisher.maxDeltaTokens

/-- What publishing a payload makes of the state in its epoch, and the message that it publishes. -/
def published (epochId : String) (payload : Json) :
    Option MemoryPublicationSnapshot → MemoryPublicationSnapshot × Option ModelMessage
  | none =>
      (.first epochId payload, some (publicationMessage memorySnapshotPrefix payload))
  | some snapshot =>
      if snapshot.Skips payload then (snapshot, none)
      else (snapshot.extended payload, some (snapshot.deltaMessage payload))

variable [FloatRepr]

def Sound (publisher : MemoryDeltaPublisher) : Prop :=
  ∀ snapshot ∈ publisher.state, snapshot.Sound

variable {publisher : MemoryDeltaPublisher} {epochId : String} {payload : Json}

omit [Sha256] [FloatRepr] in
theorem stateIn_eq_some {snapshot : MemoryPublicationSnapshot} :
    publisher.stateIn epochId = some snapshot
      ↔ publisher.state = some snapshot ∧ snapshot.epochId = epochId := by
  simp [stateIn, Option.filter_eq_some_iff]

/-- Publishing a payload whose delta fits. -/
theorem publishPayload_eq (hsound : publisher.Sound) (hepoch : ValidEpochId epochId)
    (hfits : publisher.Fits epochId payload) :
    publisher.publishPayload epochId payload
      = .ok ({ publisher with
            state := some (published epochId payload (publisher.stateIn epochId)).1 },
          (published epochId payload (publisher.stateIn epochId)).2) := by
  unfold publishPayload
  cases hstate : publisher.stateIn epochId with
  | none =>
      dsimp only
      have hfirst : stateFor epochId (payloadFingerprint payload) (payloadFingerprint payload) payload
          [publicationMessage memorySnapshotPrefix payload] 0 = .ok (.first epochId payload) :=
        stateFor_eq hepoch (List.nodup_singleton _) rfl
      rw [hfirst]
      rfl
  | some snapshot =>
      obtain ⟨hrow, rfl⟩ := stateIn_eq_some.mp hstate
      have hsnapshot := hsound snapshot hrow
      have hkept : ({ publisher with state := some snapshot } : MemoryDeltaPublisher) = publisher := by
        rw [← hrow]
      dsimp only
      by_cases hcurrent : snapshot.currentFingerprint = payloadFingerprint payload
      · have hskips : snapshot.Skips payload := Or.inl hcurrent
        rw [if_pos hcurrent, published, if_pos hskips, hkept]
        rfl
      · have hbudget := hfits snapshot hstate hcurrent
        rw [if_neg hcurrent, if_neg (Nat.not_lt.mpr hbudget)]
        by_cases hold : messageFingerprint (snapshot.deltaMessage payload) ∈ snapshot.messageFingerprints
        · have hskips : snapshot.Skips payload := Or.inr hold
          rw [if_pos hold, published, if_pos hskips, hkept]
          rfl
        · have hnew : ¬ snapshot.Skips payload := by
            rintro (hskips | hskips)
            · exact hcurrent hskips
            · exact hold hskips
          rw [if_neg hold, published, if_neg hnew, stateFor_eq hepoch (hsnapshot.nodup_concat hold)]
          · rfl
          · rw [List.length_append, hsnapshot.count]
            rfl

/-- A publisher whose delta fits and whose epoch has no valid id publishes nothing. -/
theorem publishPayload_invalid (hsound : publisher.Sound) (hepoch : ¬ ValidEpochId epochId) :
    publisher.publishPayload epochId payload = .error (.fieldError "epoch_id") := by
  unfold publishPayload
  cases hstate : publisher.stateIn epochId with
  | none =>
      dsimp only
      rw [stateFor_invalid hepoch]
      rfl
  | some snapshot =>
      obtain ⟨hrow, rfl⟩ := stateIn_eq_some.mp hstate
      exact absurd (hsound snapshot hrow).epochId hepoch

theorem published_sound (hsound : publisher.Sound) (hepoch : ValidEpochId epochId)
    (hpayload : IsPayload payload) :
    (published epochId payload (publisher.stateIn epochId)).1.Sound := by
  cases hstate : publisher.stateIn epochId with
  | none => exact .first hepoch hpayload
  | some snapshot =>
      have hsnapshot := hsound snapshot (stateIn_eq_some.mp hstate).1
      rw [published]
      split
      · exact hsnapshot
      · rename_i hnew
        exact hsnapshot.extended hpayload hnew

omit [FloatRepr] in
theorem published_epochId :
    (published epochId payload (publisher.stateIn epochId)).1.epochId = epochId := by
  cases hstate : publisher.stateIn epochId with
  | none => rfl
  | some snapshot =>
      rw [published]
      split
      · exact (stateIn_eq_some.mp hstate).2
      · exact (stateIn_eq_some.mp hstate).2

/-! ### Runs of a publisher -/

/-- A call of `publish` with an epoch and a projection; the caller keeps a publisher whose call raises. -/
def feed (publisher : MemoryDeltaPublisher) (call : String × String) : MemoryDeltaPublisher :=
  match publisher.publish call.1 call.2 with
  | .ok (next, _) => next
  | .error _ => publisher

/-- The delta of the call, if there is one, keeps to the budget. -/
def FitsCall (publisher : MemoryDeltaPublisher) (call : String × String) : Prop :=
  ∀ payload ∈ projectionPayload call.2, publisher.Fits call.1 payload

/-- What a call makes of the state. -/
def stateAfter (call : String × String) (state : Option MemoryPublicationSnapshot) :
    Option MemoryPublicationSnapshot :=
  match projectionPayload call.2 with
  | none => state
  | some payload =>
      if ValidEpochId call.1 then
        some (published call.1 payload (state.filter fun snapshot => snapshot.epochId = call.1)).1
      else state

theorem feed_eq (hsound : publisher.Sound) {call : String × String}
    (hfits : publisher.FitsCall call) :
    publisher.feed call = { publisher with state := stateAfter call publisher.state } := by
  unfold feed publish stateAfter
  cases hread : projectionPayload call.2 with
  | none => rfl
  | some payload =>
      dsimp only
      by_cases hepoch : ValidEpochId call.1
      · rw [if_pos hepoch, publishPayload_eq hsound hepoch (hfits payload hread)]
        rfl
      · rw [if_neg hepoch, publishPayload_invalid hsound hepoch]

/-- In an epoch a payload that is read is published. -/
theorem stateAfter_of_read {epochId projection : String} {payload : Json}
    (hread : projectionPayload projection = some payload) (hepoch : ValidEpochId epochId)
    (state : Option MemoryPublicationSnapshot) :
    stateAfter (epochId, projection) state
      = some (published epochId payload (state.filter fun snapshot => snapshot.epochId = epochId)).1 := by
  rw [stateAfter, hread]
  exact if_pos hepoch

theorem feed_state (hsound : publisher.Sound) {call : String × String}
    (hfits : publisher.FitsCall call) :
    (publisher.feed call).state = stateAfter call publisher.state := by
  rw [feed_eq hsound hfits]

theorem sound_feed (hsound : publisher.Sound) {call : String × String}
    (hfits : publisher.FitsCall call) : (publisher.feed call).Sound := by
  intro snapshot hsnapshot
  rw [feed_state hsound hfits, stateAfter] at hsnapshot
  split at hsnapshot
  · exact hsound snapshot hsnapshot
  · rename_i payload hread
    split at hsnapshot
    · rename_i hepoch
      cases hsnapshot
      exact published_sound hsound hepoch (projectionPayload_isPayload hread)
    · exact hsound snapshot hsnapshot

theorem sound_after {fresh : MemoryDeltaPublisher} (hfresh : fresh.state = none)
    {history : List (String × String)} (hfits : Run.EveryStep feed FitsCall fresh history) :
    (Run.after feed fresh history).Sound := by
  refine Run.invariant_after Sound (fun _ _ hsound hcall => sound_feed hsound hcall) hfits ?_
  intro snapshot hsnapshot
  rw [hfresh] at hsnapshot
  cases hsnapshot

/-- Publishers that are fed the same calls have published the same. -/
theorem state_after_eq {fresh other : MemoryDeltaPublisher} (hsame : fresh.state = other.state)
    (hsound : fresh.Sound) {history : List (String × String)}
    (hfits : Run.EveryStep feed FitsCall fresh history)
    (hother : Run.EveryStep feed FitsCall other history) :
    (Run.after feed fresh history).state = (Run.after feed other history).state := by
  induction history generalizing fresh other with
  | nil => exact hsame
  | cons call rest ih =>
      have hothers : other.Sound := by
        rw [Sound, ← hsame]
        exact hsound
      refine ih ?_ (sound_feed hsound hfits.1) hfits.2 hother.2
      rw [feed_state hsound hfits.1, feed_state hothers hother.1, hsame]

/-! ### What a call publishes -/

/-- The call returns, and the messages of its epoch then replay to the payload of the projection. -/
def PublishesCurrent (publisher : MemoryDeltaPublisher) (epochId projection : String) : Prop :=
  ∃ next message snapshot payload replayed,
    publisher.publish epochId projection = .ok (next, message)
      ∧ next.state = some snapshot ∧ snapshot.epochId = epochId
      ∧ projectionPayload projection = some payload
      ∧ snapshot.replay = some replayed ∧ replayed.view = payload.view

/-- A call only appends to the messages of its epoch. -/
def Appends (publisher : MemoryDeltaPublisher) (epochId projection : String) : Prop :=
  ∀ next message, publisher.publish epochId projection = .ok (next, message) →
    ∀ snapshot ∈ publisher.stateIn epochId, ∃ snapshot' ∈ next.stateIn epochId,
      snapshot'.messages = snapshot.messages ++ message.toList

/-- What a call needs to publish the projection: it can be read, and a payload that is taken for known has
the items that were published. -/
def Publishable (publisher : MemoryDeltaPublisher) (epochId projection : String) : Prop :=
  ∃ payload, projectionPayload projection = some payload
    ∧ ∀ snapshot ∈ publisher.stateIn epochId, snapshot.Skips payload →
      snapshot.currentPayload.view = payload.view

theorem publishesCurrent_iff (hsound : publisher.Sound) (hepoch : ValidEpochId epochId)
    {projection : String} (hfits : publisher.FitsCall (epochId, projection)) :
    publisher.PublishesCurrent epochId projection ↔ publisher.Publishable epochId projection := by
  cases hread : projectionPayload projection with
  | none =>
      constructor
      · rintro ⟨-, -, -, payload, -, -, -, -, hpayload, -⟩
        rw [hread] at hpayload
        cases hpayload
      · rintro ⟨payload, hpayload, -⟩
        rw [hread] at hpayload
        cases hpayload
  | some payload =>
      have hpayload := projectionPayload_isPayload hread
      have hpublish : publisher.publish epochId projection
          = .ok ({ publisher with
                state := some (published epochId payload (publisher.stateIn epochId)).1 },
              (published epochId payload (publisher.stateIn epochId)).2) := by
        rw [publish, hread]
        exact publishPayload_eq hsound hepoch (hfits payload hread)
      obtain ⟨replayed, hreplay, hview⟩ := (published_sound hsound hepoch hpayload).replayed
      have hcurrent : publisher.PublishesCurrent epochId projection
          ↔ (published epochId payload (publisher.stateIn epochId)).1.currentPayload.view
            = payload.view := by
        constructor
        · rintro ⟨next, message, snapshot, payload', replayed', hreturns, hstate, -, hread', hreplay',
            hview'⟩
          rw [hpublish] at hreturns
          cases hreturns
          cases hstate
          cases Option.some.inj (hread.symm.trans hread')
          cases Option.some.inj (hreplay.symm.trans hreplay')
          exact hview.symm.trans hview'
        · intro hsame
          exact ⟨_, _, _, payload, replayed, hpublish, rfl, published_epochId, hread, hreplay,
            hview.trans hsame⟩
      have hneeds : publisher.Publishable epochId projection
          ↔ ∀ snapshot ∈ publisher.stateIn epochId, snapshot.Skips payload →
            snapshot.currentPayload.view = payload.view := by
        constructor
        · rintro ⟨payload', hread', hknown⟩
          cases Option.some.inj (hread.symm.trans hread')
          exact hknown
        · exact fun hknown => ⟨payload, hread, hknown⟩
      rw [hcurrent, hneeds]
      cases publisher.stateIn epochId with
      | none => exact ⟨by simp, fun _ => rfl⟩
      | some snapshot =>
          by_cases hskips : snapshot.Skips payload
          · rw [published, if_pos hskips]
            constructor
            · rintro hsame _ hsnapshot -
              cases hsnapshot
              exact hsame
            · exact fun hknown => hknown snapshot rfl hskips
          · rw [published, if_neg hskips]
            constructor
            · rintro - _ hsnapshot hknown
              cases hsnapshot
              exact absurd hknown hskips
            · exact fun _ => rfl

theorem appends (hsound : publisher.Sound) (hepoch : ValidEpochId epochId) {projection : String}
    (hfits : publisher.FitsCall (epochId, projection)) :
    publisher.Appends epochId projection := by
  intro next message hreturns snapshot hsnapshot
  rw [publish] at hreturns
  split at hreturns
  · cases hreturns
  · rename_i payload hread
    rw [publishPayload_eq hsound hepoch (hfits payload hread)] at hreturns
    cases hreturns
    rw [show publisher.stateIn epochId = some snapshot from hsnapshot, published]
    obtain ⟨-, hid⟩ := stateIn_eq_some.mp hsnapshot
    split
    · exact ⟨snapshot, stateIn_eq_some.mpr ⟨rfl, hid⟩, (List.append_nil _).symm⟩
    · exact ⟨snapshot.extended payload, stateIn_eq_some.mpr ⟨rfl, hid⟩, rfl⟩

/-- A new publisher is fed projections whose deltas keep to its budget. Then a further call publishes the
memory that is current exactly where its projection can be read and is not wrongly taken for known; the
messages of an epoch are only ever appended to, and another publisher that is fed the same publishes the
same. -/
theorem memory_published (fresh other : MemoryDeltaPublisher) (history : List (String × String))
    (epochId projection : String) (hfresh : fresh.state = none) (hother : other.state = none)
    (hepoch : ValidEpochId epochId)
    (hfits : Run.EveryStep feed FitsCall fresh (history ++ [(epochId, projection)]))
    (hfitsOther : Run.EveryStep feed FitsCall other (history ++ [(epochId, projection)])) :
    ((Run.after feed fresh history).PublishesCurrent epochId projection
        ↔ (Run.after feed fresh history).Publishable epochId projection)
      ∧ (Run.after feed fresh history).Appends epochId projection
      ∧ (Run.after feed fresh (history ++ [(epochId, projection)])).state
        = (Run.after feed other (history ++ [(epochId, projection)])).state := by
  obtain ⟨hearlier, hcall, -⟩ := Run.everyStep_append.mp hfits
  have hsound := sound_after hfresh hearlier
  have hstart : fresh.Sound := by
    intro snapshot hsnapshot
    rw [hfresh] at hsnapshot
    cases hsnapshot
  exact ⟨publishesCurrent_iff hsound hepoch hcall, appends hsound hepoch hcall,
    state_after_eq (hfresh.trans hother.symm) hstart hfits hfitsOther⟩

end MemoryDeltaPublisher

end Publisher

section Samples

local instance publishedMemoryDigest : Sha256 := Sample.digest

namespace Sample

/-- Every number is zero. -/
@[reducible] def floatRepr : FloatRepr where
  repr _ := "0.0"
  isFloat _ := Or.inr (Or.inr ⟨['0'], ['.', '0'], [], ⟨rfl, rfl, rfl, Or.inl (by decide)⟩, rfl⟩)
  repr_repr _ := rfl

/-- The projection of facts with these texts. -/
def projection (texts : List String) : String :=
  "PATCHLOOP_PROVIDER_MEMORY_V1\nUntrusted retrieved context only.\n"
    ++ Json.dumps (.obj [("facts", .arr (texts.map fun text => .obj [("text", .str text)]))])

end Sample

local instance publishedMemoryFloat : FloatRepr := Sample.floatRepr

open MemoryDeltaPublisher

instance (publisher : MemoryDeltaPublisher) (call : String × String) :
    Decidable (publisher.FitsCall call) :=
  inferInstanceAs (Decidable (∀ payload ∈ projectionPayload call.2,
    ∀ snapshot ∈ publisher.stateIn call.1, snapshot.Fits payload publisher.maxDeltaTokens))

/-- The payload of facts with these texts. -/
def Sample.facts (texts : List String) : Json :=
  .obj [("facts", .arr (texts.map fun text => .obj [("text", .str text)]))]

/-- A projection of facts is read, where no line separator stands in their texts. -/
theorem Sample.projection_read {texts : List String} (hsome : texts ≠ [])
    (hbreaks : ∀ c ∈ (Sample.facts texts).dumps.toList, isLineBreak c = false) :
    projectionPayload (Sample.projection texts) = some (Sample.facts texts) := by
  have hheader : "PATCHLOOP_PROVIDER_MEMORY_V1\nUntrusted retrieved context only.\n"
      = "PATCHLOOP_PROVIDER_MEMORY_V1" ++ "\n" ++ "Untrusted retrieved context only." ++ "\n" := rfl
  have htext : Sample.projection texts = "PATCHLOOP_PROVIDER_MEMORY_V1" ++ "\n"
      ++ "Untrusted retrieved context only." ++ "\n" ++ (Sample.facts texts).dumps :=
    congrArg (· ++ (Sample.facts texts).dumps) hheader
  have hnormal : (Sample.facts texts).Normal := by
    simp [Sample.facts, Json.Normal, Json.NormalFields, Json.normalItems_iff]
  have hobjects : (texts.map fun text => Json.obj [("text", .str text)]).filter Json.isObject
      = texts.map fun text => Json.obj [("text", .str text)] := by
    simp [Json.isObject]
  refine (congrArg projectionPayload htext).trans
    ((projectionPayload_lines (not_lineBreak (by rfl)) (not_lineBreak (by rfl)) hnormal rfl hbreaks).trans ?_)
  simp [Sample.facts, ofCategories, categories, Json.itemsOf, Json.get?, unlessEmpty, hsome, hobjects]

/-- The projections of the facts `a` and `b` are read, and one with a line separator is not. -/
theorem Sample.projections_read :
    projectionPayload (Sample.projection ["a"]) = some (Sample.facts ["a"])
      ∧ projectionPayload (Sample.projection ["a", "b"]) = some (Sample.facts ["a", "b"])
      ∧ projectionPayload (Sample.projection ["a\u2028b"]) = none :=
  ⟨Sample.projection_read (List.cons_ne_nil _ _) (not_lineBreak (by decide +kernel)),
    Sample.projection_read (List.cons_ne_nil _ _) (not_lineBreak (by decide +kernel)), by decide +kernel⟩

/-- The snapshots of an epoch into which a fact enters and which it leaves. -/
def Sample.oneFact : MemoryPublicationSnapshot := .first "e" (Sample.facts ["a"])

def Sample.bothFacts : MemoryPublicationSnapshot := Sample.oneFact.extended (Sample.facts ["a", "b"])

def Sample.oneAgain : MemoryPublicationSnapshot := Sample.bothFacts.extended (Sample.facts ["a"])

/-- The text of a message is quoted from its bytes, which need not be decoded. -/
theorem Sample.messageFingerprint_eq (start : String) (payload : Json) :
    messageFingerprint (publicationMessage start payload)
      = Sha256.hexdigest ("\x7b" ++ ", ".intercalate
        ((Json.quote "content" ++ ": " ++ ("\""
            ++ String.ofList ((Bytes.characters (start ++ payload.dumps)).flatMap Json.escapeChar) ++ "\""))
          :: Json.dumpsSpacedFields [("role", .str "system"), ("tool_call_id", .null), ("tool_calls", .arr [])])
        ++ "\x7d") := by
  rw [Bytes.characters_eq, messageFingerprint, ModelMessage.dump, Json.dumpsSpaced, Json.dumpsSpacedFields]
  rfl

/-- The next payload is new to a snapshot and fits the least budget. -/
theorem Sample.payloads_new :
    (¬ Sample.oneFact.Skips (Sample.facts ["a", "b"]) ∧ Sample.oneFact.Fits (Sample.facts ["a", "b"]) 64)
      ∧ ¬ Sample.bothFacts.Skips (Sample.facts ["a"]) ∧ Sample.bothFacts.Fits (Sample.facts ["a"]) 64 := by
  refine ⟨⟨?_, by decide +kernel⟩, ?_, by decide +kernel⟩
  · rintro (hcurrent | hmessage)
    · exact absurd hcurrent (by decide +kernel)
    · revert hmessage
      simp only [Sample.oneFact, MemoryPublicationSnapshot.first, MemoryPublicationSnapshot.deltaMessage,
        Sample.messageFingerprint_eq]
      decide +kernel
  · rintro (hcurrent | hmessage)
    · exact absurd hcurrent (by decide +kernel)
    · revert hmessage
      simp only [Sample.bothFacts, Sample.oneFact, MemoryPublicationSnapshot.first,
        MemoryPublicationSnapshot.extended, MemoryPublicationSnapshot.deltaMessage,
        List.map_append, List.map_cons, List.map_nil, Sample.messageFingerprint_eq]
      decide +kernel

theorem fitsCall_of_read {publisher : MemoryDeltaPublisher} {epochId projection : String} {payload : Json}
    (hread : projectionPayload projection = some payload)
    (hfits : ∀ snapshot ∈ publisher.state, snapshot.Fits payload publisher.maxDeltaTokens) :
    publisher.FitsCall (epochId, projection) := by
  intro found hfound snapshot hsnapshot
  cases Option.some.inj (hread.symm.trans hfound)
  exact hfits snapshot (stateIn_eq_some.mp hsnapshot).1

section Steps

variable {limit : Nat} {hlimit : 64 ≤ limit}

/-- Each projection of the memory fits the publisher that it is given to. -/
theorem Sample.fits_fresh :
    (⟨none, limit, hlimit⟩ : MemoryDeltaPublisher).FitsCall ("e", Sample.projection ["a"]) :=
  fitsCall_of_read Sample.projections_read.1 fun _ hsnapshot => nomatch hsnapshot

theorem Sample.fits_snapshot {snapshot : MemoryPublicationSnapshot} {projection : String} {payload : Json}
    (hread : projectionPayload projection = some payload) (hfits : snapshot.Fits payload 64) :
    (⟨some snapshot, limit, hlimit⟩ : MemoryDeltaPublisher).FitsCall ("e", projection) := by
  refine fitsCall_of_read hread fun found hfound => ?_
  cases hfound
  exact fun hne => (hfits hne).trans hlimit

theorem Sample.fits_oneFact :
    (⟨some Sample.oneFact, limit, hlimit⟩ : MemoryDeltaPublisher).FitsCall
      ("e", Sample.projection ["a", "b"]) :=
  Sample.fits_snapshot Sample.projections_read.2.1 Sample.payloads_new.1.2

theorem Sample.fits_bothFacts :
    (⟨some Sample.bothFacts, limit, hlimit⟩ : MemoryDeltaPublisher).FitsCall ("e", Sample.projection ["a"]) :=
  Sample.fits_snapshot Sample.projections_read.1 Sample.payloads_new.2.2

theorem Sample.fits_oneAgain :
    (⟨some Sample.oneAgain, limit, hlimit⟩ : MemoryDeltaPublisher).FitsCall
      ("e", Sample.projection ["a", "b"]) :=
  Sample.fits_snapshot Sample.projections_read.2.1 Sample.payloads_new.1.2

theorem Sample.validEpoch : ValidEpochId "e" := by decide

theorem Sample.oneFact_sound : Sample.oneFact.Sound :=
  .first Sample.validEpoch (projectionPayload_isPayload Sample.projections_read.1)

theorem Sample.bothFacts_sound : Sample.bothFacts.Sound :=
  Sample.oneFact_sound.extended (projectionPayload_isPayload Sample.projections_read.2.1) Sample.payloads_new.1.1

theorem Sample.oneAgain_sound : Sample.oneAgain.Sound :=
  Sample.bothFacts_sound.extended (projectionPayload_isPayload Sample.projections_read.1)
    Sample.payloads_new.2.1

theorem Sample.feed_fresh :
    feed ⟨none, limit, hlimit⟩ ("e", Sample.projection ["a"]) = ⟨some Sample.oneFact, limit, hlimit⟩ := by
  have hstart : (⟨none, limit, hlimit⟩ : MemoryDeltaPublisher).Sound := fun _ hsnapshot => nomatch hsnapshot
  rw [feed_eq hstart Sample.fits_fresh, stateAfter_of_read Sample.projections_read.1 Sample.validEpoch]
  rfl

/-- A payload that is new extends the snapshot. -/
theorem Sample.feed_new {snapshot : MemoryPublicationSnapshot} {projection : String} {payload : Json}
    (hsound : snapshot.Sound) (hepoch : snapshot.epochId = "e")
    (hread : projectionPayload projection = some payload) (hnew : ¬ snapshot.Skips payload)
    (hfits : (⟨some snapshot, limit, hlimit⟩ : MemoryDeltaPublisher).FitsCall ("e", projection)) :
    feed ⟨some snapshot, limit, hlimit⟩ ("e", projection)
      = ⟨some (snapshot.extended payload), limit, hlimit⟩ := by
  have hstart : (⟨some snapshot, limit, hlimit⟩ : MemoryDeltaPublisher).Sound := by
    intro found hfound
    cases hfound
    exact hsound
  have hkept : (some snapshot).filter (fun snapshot => snapshot.epochId = "e") = some snapshot :=
    Option.filter_eq_some_iff.mpr ⟨rfl, decide_eq_true hepoch⟩
  rw [feed_eq hstart hfits, stateAfter_of_read hread Sample.validEpoch, hkept, published, if_neg hnew]

theorem Sample.feed_oneFact :
    feed ⟨some Sample.oneFact, limit, hlimit⟩ ("e", Sample.projection ["a", "b"])
      = ⟨some Sample.bothFacts, limit, hlimit⟩ :=
  Sample.feed_new Sample.oneFact_sound rfl Sample.projections_read.2.1 Sample.payloads_new.1.1 Sample.fits_oneFact

theorem Sample.feed_bothFacts :
    feed ⟨some Sample.bothFacts, limit, hlimit⟩ ("e", Sample.projection ["a"])
      = ⟨some Sample.oneAgain, limit, hlimit⟩ :=
  Sample.feed_new Sample.bothFacts_sound rfl Sample.projections_read.1 Sample.payloads_new.2.1
    Sample.fits_bothFacts

/-- A publisher of any budget is fed the two projections. -/
theorem Sample.fits_second :
    Run.EveryStep feed FitsCall ⟨none, limit, hlimit⟩
      ([("e", Sample.projection ["a"])] ++ [("e", Sample.projection ["a", "b"])]) := by
  refine ⟨Sample.fits_fresh, ?_, trivial⟩
  rw [Sample.feed_fresh]
  exact Sample.fits_oneFact

end Steps

theorem memory_published_second :
    (Run.after feed {} [("e", Sample.projection ["a"])]).PublishesCurrent "e"
      (Sample.projection ["a", "b"]) := by
  have hpublished := memory_published {} { maxDeltaTokens := 64 } [("e", Sample.projection ["a"])] "e"
    (Sample.projection ["a", "b"]) rfl rfl Sample.validEpoch Sample.fits_second Sample.fits_second
  refine hpublished.1.mpr
    ⟨Sample.facts ["a", "b"], Sample.projections_read.2.1, fun snapshot hsnapshot hknown => ?_⟩
  rw [Run.after_cons, Run.after_nil, Sample.feed_fresh] at hsnapshot
  cases (stateIn_eq_some.mp hsnapshot).1
  exact absurd hknown Sample.payloads_new.1.1

/-- A fact enters the memory and leaves it. -/
def Sample.returning : List (String × String) :=
  [("e", Sample.projection ["a"]), ("e", Sample.projection ["a", "b"]), ("e", Sample.projection ["a"])]

/-- When the fact returns, its delta is that of its entrance and is not published. A text with a line
separator cannot be read. -/
theorem returning_fact_not_published :
    Run.EveryStep feed FitsCall {} (Sample.returning ++ [("e", Sample.projection ["a", "b"])])
      ∧ ¬ (Run.after feed {} Sample.returning).PublishesCurrent "e" (Sample.projection ["a", "b"])
      ∧ ¬ PublishesCurrent {} "e" (Sample.projection ["a\u2028b"]) := by
  refine ⟨⟨Sample.fits_fresh, ?_, ?_, ?_, trivial⟩, ?_, ?_⟩
  · rw [Sample.feed_fresh]
    exact Sample.fits_oneFact
  · rw [Sample.feed_fresh, Sample.feed_oneFact]
    exact Sample.fits_bothFacts
  · rw [Sample.feed_fresh, Sample.feed_oneFact, Sample.feed_bothFacts]
    exact Sample.fits_oneAgain
  · have hlast : Run.after feed {} Sample.returning = { state := some Sample.oneAgain } := by
      rw [Sample.returning, Run.after_cons, Run.after_cons, Run.after_cons, Run.after_nil, Sample.feed_fresh,
        Sample.feed_oneFact, Sample.feed_bothFacts]
    rw [hlast, publishesCurrent_iff _ Sample.validEpoch Sample.fits_oneAgain]
    · -- The delta from the one fact to both is the message of the entrance.
      have hskips : Sample.oneAgain.Skips (Sample.facts ["a", "b"]) := by
        refine Or.inr (List.mem_map_of_mem ?_)
        exact List.mem_append_left _ (List.mem_append_right _ (List.mem_singleton_self _))
      rintro ⟨payload, hread, hknown⟩
      cases Option.some.inj (Sample.projections_read.2.1.symm.trans hread)
      have hview := hknown Sample.oneAgain (stateIn_eq_some.mpr ⟨rfl, rfl⟩) hskips
      have hmem : Json.obj [("text", .str "b")] ∈ Sample.oneAgain.currentPayload.view "facts" := by
        rw [hview]
        exact List.mem_cons_of_mem _ List.mem_cons_self
      exact absurd (List.mem_singleton.mp hmem) (by decide)
    · intro snapshot hsnapshot
      cases hsnapshot
      exact Sample.oneAgain_sound
  · rintro ⟨-, -, -, payload, -, -, -, -, hread, -⟩
    rw [Sample.projections_read.2.2] at hread
    cases hread

end Samples

end PatchLoop
