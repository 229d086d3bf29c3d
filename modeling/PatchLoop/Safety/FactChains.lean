import PatchLoop.Lib.Fallible
import PatchLoop.Memory.Semantic
import PatchLoop.Safety.MemoryCompression
import PatchLoop.Safety.SupersessionChains
import Mathlib.Tactic.NormNum

/-!
# Chains of facts

The facts of a task are linked in chains, and each chain has grown in time and in authority. A fact is added
at the end of the records, alone or in the place of the one it supersedes.
-/

namespace PatchLoop

/-! ### Contents -/

theorem Json.get?_setField_of_ne {name other : String} {value : Json} {fields : List (String × Json)}
    (hne : other ≠ name) :
    (Json.obj (setField name value fields)).get? other = (Json.obj fields).get? other := by
  simp only [get?]
  induction fields with
  | nil => simp [setField, Ne.symm hne]
  | cons field rest ih =>
      unfold setField
      split
      · rename_i hname
        subst hname
        simp [Ne.symm hne]
      · split
        · simp [List.find?_cons, Ne.symm hne]
        · simp only [List.find?_cons]
          split
          · rfl
          · exact ih

theorem get?_of_text? {record : MemoryRecord} {name text : String}
    (htext : record.text? name = some text) : record.get? name = some (.str text) := by
  unfold MemoryRecord.text? at htext
  split at htext
  · rename_i found hget
    rw [hget, Option.some.inj htext]
  · cases htext

theorem mem_sortedTexts {text : String} {texts : List String} :
    text ∈ sortedTexts texts ↔ text ∈ texts := by
  rw [sortedTexts, List.mem_insertionSort, List.mem_dedup]

theorem sortedTexts_nodup (texts : List String) : (sortedTexts texts).Nodup :=
  (List.perm_insertionSort _ _).nodup_iff.mpr (List.nodup_dedup texts)

theorem FactEpistemicStatus.value_injective {status other : FactEpistemicStatus}
    (hvalue : status.value = other.value) : status = other := by
  cases status <;> cases other <;> first | rfl | exact absurd hvalue (by decide)

section Facts

variable [UnicodeForms] [Sha256]

/-- What a record says of the fact that a draft makes. -/
structure Describes (draft : SemanticFactDraft) (record : MemoryRecord) : Prop where
  slot : recordSlot record = draft.slotKey
  value : record.text? "normalized_value" = some draft.normalizedValue
  status : record.text? "epistemic_status" = some draft.epistemicStatus.value
  authority : recordAuthority record = draft.authority
  typed : isTypedSemanticRecord record = true

/-- A content that has what the content of a draft has. -/
theorem Describes.of_content {draft : SemanticFactDraft} {record : MemoryRecord}
    (hkind : record.kind = .semantic)
    (hcontent : ∀ name ≠ "conflicts_with_id",
      record.get? name = (Json.obj draft.content).get? name) :
    Describes draft record := by
  have hslot : record.get? "slot_key" = some (.str draft.slotKey) := hcontent _ (by decide)
  have hvalue : record.get? "normalized_value" = some (.str draft.normalizedValue) :=
    hcontent _ (by decide)
  have hstatus : record.get? "epistemic_status" = some (.str draft.epistemicStatus.value) :=
    hcontent _ (by decide)
  have hauthority : record.get? "authority" = some (.int draft.authority) :=
    hcontent _ (by decide)
  have hschema : record.get? "semantic_schema" = some (.str "1.0") := hcontent _ (by decide)
  constructor
  · simp only [recordSlot, MemoryRecord.text?, hslot, Option.getD_some]
  · simp only [MemoryRecord.text?, hvalue]
  · simp only [MemoryRecord.text?, hstatus]
  · simp only [recordAuthority, hauthority, intOf, Option.map_some, stepNumber, Option.getD_some]
  · simp only [isTypedSemanticRecord, hkind, hschema, and_self, decide_true]

theorem factRecord_eq_ok {taskId : String} {draft : SemanticFactDraft} {sourceIds : List String}
    {now : Int} {record : MemoryRecord}
    (hok : factRecord taskId draft sourceIds now = .ok record) :
    ∃ hash, record = { draft.fact taskId sourceIds now with contentHash := hash } := by
  obtain ⟨-, hrecord⟩ := MemoryRecord.validateRecord_eq_ok.mp hok
  exact ⟨_, hrecord⟩

theorem Describes.fact {taskId : String} {draft : SemanticFactDraft} {sourceIds : List String}
    {now : Int} {record : MemoryRecord}
    (hok : factRecord taskId draft sourceIds now = .ok record) : Describes draft record := by
  obtain ⟨hash, rfl⟩ := factRecord_eq_ok hok
  exact of_content rfl fun name _ => rfl

/-- What only changes the life of a record leaves what it says. -/
theorem Describes.of_same {draft : SemanticFactDraft} {record other : MemoryRecord}
    (hdescribes : Describes draft record) (hkind : other.kind = record.kind)
    (hcontent : other.content = record.content) : Describes draft other := by
  have hget : ∀ name, other.get? name = record.get? name := fun name => by
    rw [MemoryRecord.get?, MemoryRecord.get?, hcontent]
  have htext : ∀ name, other.text? name = record.text? name := fun name => by
    rw [MemoryRecord.text?, MemoryRecord.text?, hget]
  obtain ⟨hslot, hvalue, hstatus, hauthority, htyped⟩ := hdescribes
  constructor
  · rw [← hslot, recordSlot, recordSlot, htext]
  · rw [← hvalue, htext]
  · rw [← hstatus, htext]
  · rw [← hauthority, recordAuthority, recordAuthority, hget]
  · rw [← htyped, isTypedSemanticRecord, isTypedSemanticRecord, hkind, hget]

theorem Describes.conflicting {taskId : String} {draft : SemanticFactDraft} {sourceIds : List String}
    {now : Int} {candidate current : MemoryRecord}
    (hok : factRecord taskId draft sourceIds now = .ok candidate) :
    Describes draft (candidate.conflicting current) := by
  obtain ⟨hash, rfl⟩ := factRecord_eq_ok hok
  exact of_content rfl fun name hname => Json.get?_setField_of_ne hname

end Facts

/-! ### Chains -/

section Chains

/-- What a record shares with the one that it supersedes, and what it has more of. -/
structure Follows (previous record : MemoryRecord) : Prop where
  taskId : previous.taskId = record.taskId
  kind : previous.kind = record.kind
  scope : previous.scope = record.scope
  scopeId : previous.scopeId = record.scopeId
  createdAt : previous.createdAt ≤ record.createdAt
  slot : recordSlot previous = recordSlot record
  authority : recordAuthority previous ≤ recordAuthority record

/-- Records whose links lead to each other, and back in time. -/
structure Linked (records : List MemoryRecord) : Prop where
  nodup : (records.map MemoryRecord.id).Nodup
  previous : ∀ record ∈ records, ∀ id, record.supersedesId = some id →
    ∃ previous ∈ records, previous.id = id ∧ previous.supersededById = some record.id
      ∧ Follows previous record
  replacement : ∀ record ∈ records, ∀ id, record.supersededById = some id →
    ∃ replacement ∈ records, replacement.id = id ∧ replacement.supersedesId = some record.id
  ranked : ∃ rank : String → Nat, ∀ record ∈ records, ∀ id, record.supersedesId = some id →
    rank id < rank record.id

theorem Linked.validate {records : List MemoryRecord} (hlinked : Linked records) :
    validateSupersessionChain records = .ok () := by
  obtain ⟨rank, hrank⟩ := hlinked.ranked
  have hlinks : Links records := by
    refine ⟨hlinked.nodup, fun record hmem id hid => ?_, hlinked.replacement⟩
    obtain ⟨previous, hfound, hkey, hback, -⟩ := hlinked.previous record hmem id hid
    exact ⟨previous, hfound, hkey, hback⟩
  refine validateSupersessionChain_eq_ok.mpr ⟨hlinked.nodup, hlinks, fun record hmem previous hprevious hid => ?_,
    fun record hmem => ?_⟩
  · obtain ⟨found, hfound, hkey, -, hfollows⟩ := hlinked.previous record hmem previous.id hid
    obtain rfl := hlinks.eq_of_key hfound hprevious hkey
    exact ⟨⟨hfollows.taskId, hfollows.kind, hfollows.scope, hfollows.scopeId⟩, hfollows.createdAt⟩
  · induction hlevel : rank record.id using Nat.strongRecOn generalizing record with
    | ind level ih =>
        refine Acc.intro record fun previous hback => ?_
        obtain ⟨hprevious, hid⟩ := hback
        exact ih (rank previous.id) (hlevel ▸ hrank record hmem _ hid) previous hprevious rfl

/-- A record in the place of another: the links stay together. -/
theorem Linked.supersede {records others : List MemoryRecord} (hlinked : Linked records)
    {current candidate : MemoryRecord} (hcurrent : current ∈ records)
    (hopen : current.supersededById = none) (hnew : ∀ record ∈ records, record.id ≠ candidate.id)
    (hsingle : candidate.supersededById = none) (hfollows : Follows current candidate)
    (hothers : ∀ record, record ∈ others ↔ record = current.supersededBy candidate
      ∨ record = { candidate with supersedesId := some current.id }
      ∨ (record ∈ records ∧ record.id ≠ current.id))
    (hnodup : (others.map MemoryRecord.id).Nodup) : Linked others := by
  have hold : current.supersededBy candidate ∈ others := (hothers _).mpr (Or.inl rfl)
  have hcandidate : { candidate with supersedesId := some current.id } ∈ others :=
    (hothers _).mpr (Or.inr (Or.inl rfl))
  -- Nothing superseded the current record.
  have hlast : ∀ record ∈ records, record.supersedesId ≠ some current.id := by
    intro record hmem hid
    obtain ⟨previous, hprevious, hpreviousId, hback, -⟩ := hlinked.previous record hmem _ hid
    have hsame := find?_id hlinked.nodup hprevious
    rw [hpreviousId, find?_id hlinked.nodup hcurrent] at hsame
    obtain rfl := Option.some.inj hsame
    rw [hopen] at hback
    cases hback
  -- A record that was linked to is there still, with the links it had.
  have hkept : ∀ previous ∈ records, ∃ kept ∈ others, kept.id = previous.id
      ∧ kept.supersedesId = previous.supersedesId ∧ (previous.id ≠ current.id → kept = previous) := by
    intro previous hmem
    by_cases hid : previous.id = current.id
    · have hsame := find?_id hlinked.nodup hmem
      rw [hid, find?_id hlinked.nodup hcurrent] at hsame
      obtain rfl := Option.some.inj hsame
      exact ⟨_, hold, rfl, rfl, fun hne => absurd rfl hne⟩
    · exact ⟨previous, (hothers _).mpr (Or.inr (Or.inr ⟨hmem, hid⟩)), rfl, rfl, fun _ => rfl⟩
  constructor
  · exact hnodup
  · intro record hmem id hid
    rcases (hothers record).mp hmem with rfl | rfl | ⟨hmem, hne⟩
    · obtain ⟨previous, hprevious, rfl, hback, hfollow⟩ := hlinked.previous current hcurrent id hid
      have hne : previous.id ≠ current.id := fun heq => hlast current hcurrent (heq ▸ hid)
      refine ⟨previous, (hothers _).mpr (Or.inr (Or.inr ⟨hprevious, hne⟩)), rfl, hback, ?_⟩
      exact ⟨hfollow.taskId, hfollow.kind, hfollow.scope, hfollow.scopeId, hfollow.createdAt,
        hfollow.slot, hfollow.authority⟩
    · obtain rfl := Option.some.inj hid
      refine ⟨_, hold, rfl, rfl, ?_⟩
      exact ⟨hfollows.taskId, hfollows.kind, hfollows.scope, hfollows.scopeId, hfollows.createdAt,
        hfollows.slot, hfollows.authority⟩
    · obtain ⟨previous, hprevious, rfl, hback, hfollow⟩ := hlinked.previous record hmem id hid
      have hneCurrent : previous.id ≠ current.id := fun heq => hlast record hmem (heq ▸ hid)
      exact ⟨previous, (hothers _).mpr (Or.inr (Or.inr ⟨hprevious, hneCurrent⟩)), rfl, hback, hfollow⟩
  · intro record hmem id hid
    rcases (hothers record).mp hmem with rfl | rfl | ⟨hmem, hne⟩
    · obtain rfl := Option.some.inj hid
      exact ⟨_, hcandidate, rfl, rfl⟩
    · have hnone : candidate.supersededById = some id := hid
      rw [hsingle] at hnone
      cases hnone
    · obtain ⟨replacement, hreplacement, rfl, hback⟩ := hlinked.replacement record hmem id hid
      obtain ⟨kept, hmemKept, hkeptId, hkeptBack, -⟩ := hkept replacement hreplacement
      exact ⟨kept, hmemKept, hkeptId, hkeptBack.trans hback⟩
  · obtain ⟨rank, hrank⟩ := hlinked.ranked
    refine ⟨Function.update rank candidate.id (rank current.id + 1), ?_⟩
    have hidOf : ∀ id, (∃ record ∈ records, record.id = id) → id ≠ candidate.id := by
      rintro id ⟨record, hmem, rfl⟩
      exact hnew record hmem
    intro record hmem id hid
    rcases (hothers record).mp hmem with rfl | rfl | ⟨hmem, hne⟩
    · obtain ⟨previous, hprevious, hpreviousId, -⟩ := hlinked.previous current hcurrent id hid
      have hlower := hrank current hcurrent id hid
      have hcurrentNe : (current.supersededBy candidate).id ≠ candidate.id := hnew current hcurrent
      rw [Function.update_of_ne (hidOf id ⟨previous, hprevious, hpreviousId⟩),
        Function.update_of_ne hcurrentNe]
      exact hlower
    · obtain rfl := Option.some.inj hid
      rw [Function.update_of_ne (hnew current hcurrent), Function.update_self]
      exact Nat.lt_succ_self _
    · obtain ⟨previous, hprevious, hpreviousId, -⟩ := hlinked.previous record hmem id hid
      rw [Function.update_of_ne (hidOf id ⟨previous, hprevious, hpreviousId⟩),
        Function.update_of_ne (hnew record hmem)]
      exact hrank record hmem id hid

theorem mem_rows_append {records : List MemoryRecord} {candidate record : MemoryRecord}
    (hmem : record ∈ records ++ [candidate]) : record ∈ records ∨ record = candidate := by
  rcases List.mem_append.mp hmem with hold | hnew
  · exact Or.inl hold
  · exact Or.inr (List.mem_singleton.mp hnew)

/-- A record without links, beside the others. -/
theorem Linked.append {records : List MemoryRecord} (hlinked : Linked records)
    {candidate : MemoryRecord} (hnew : ∀ record ∈ records, record.id ≠ candidate.id)
    (hfirst : candidate.supersedesId = none) (hlast : candidate.supersededById = none) :
    Linked (records ++ [candidate]) := by
  constructor
  · rw [List.map_append, List.map_singleton, List.nodup_append]
    refine ⟨hlinked.nodup, List.nodup_singleton _, ?_⟩
    intro id hid other hother
    obtain ⟨record, hrecord, rfl⟩ := List.mem_map.mp hid
    rw [List.mem_singleton.mp hother]
    exact hnew record hrecord
  · intro record hrecord id hid
    rcases mem_rows_append hrecord with hrecord | rfl
    · obtain ⟨previous, hprevious, hrest⟩ := hlinked.previous record hrecord id hid
      exact ⟨previous, List.mem_append_left _ hprevious, hrest⟩
    · rw [hfirst] at hid
      cases hid
  · intro record hrecord id hid
    rcases mem_rows_append hrecord with hrecord | rfl
    · obtain ⟨replacement, hreplacement, hrest⟩ := hlinked.replacement record hrecord id hid
      exact ⟨replacement, List.mem_append_left _ hreplacement, hrest⟩
    · rw [hlast] at hid
      cases hid
  · obtain ⟨rank, hrank⟩ := hlinked.ranked
    refine ⟨rank, fun record hrecord id hid => ?_⟩
    rcases mem_rows_append hrecord with hrecord | rfl
    · exact hrank record hrecord id hid
    · rw [hfirst] at hid
      cases hid

/-- The records with a new one at their end, which supersedes one of them. -/
def withReplacement (records : List MemoryRecord) (current candidate : MemoryRecord) :
    List MemoryRecord :=
  (records.map fun record =>
    if record.id = current.id then current.supersededBy candidate else record)
      ++ [{ candidate with supersedesId := some current.id }]

theorem eq_of_id {records : List MemoryRecord} (hnodup : (records.map MemoryRecord.id).Nodup)
    {record other : MemoryRecord} (hmem : record ∈ records) (hother : other ∈ records)
    (hid : record.id = other.id) : record = other := by
  have hsame := find?_id hnodup hmem
  rw [hid, find?_id hnodup hother] at hsame
  exact (Option.some.inj hsame).symm

theorem mem_withReplacement {records : List MemoryRecord} {current candidate record : MemoryRecord}
    (hcurrent : current ∈ records) :
    record ∈ withReplacement records current candidate
      ↔ record = current.supersededBy candidate
        ∨ record = { candidate with supersedesId := some current.id }
        ∨ (record ∈ records ∧ record.id ≠ current.id) := by
  rw [withReplacement, List.mem_append, List.mem_singleton, List.mem_map]
  constructor
  · rintro (⟨old, hold, heq⟩ | rfl)
    · by_cases hid : old.id = current.id
      · rw [if_pos hid] at heq
        exact Or.inl heq.symm
      · rw [if_neg hid] at heq
        exact Or.inr (Or.inr ⟨heq ▸ hold, heq ▸ hid⟩)
    · exact Or.inr (Or.inl rfl)
  · rintro (rfl | rfl | ⟨hold, hid⟩)
    · exact Or.inl ⟨current, hcurrent, if_pos rfl⟩
    · exact Or.inr rfl
    · exact Or.inl ⟨record, hold, if_neg hid⟩

end Chains

/-! ### Facts of a task -/

/-- What the id of a record is made of. -/
def identityOf (record : MemoryRecord) : FactIdentity where
  slot := recordSlot record
  value := (record.text? "normalized_value").getD ""
  status := (record.text? "epistemic_status").getD ""
  sources := sortedTexts record.sourceIds

/-- What a round leaves of a record beside its links and its status. -/
structure SameFact (record other : MemoryRecord) : Prop where
  identity : identityOf other = identityOf record
  sourceIds : other.sourceIds = record.sourceIds
  scope : other.scope = record.scope
  scopeId : other.scopeId = record.scopeId
  createdAt : other.createdAt = record.createdAt

theorem SameFact.rfl {record : MemoryRecord} : SameFact record record :=
  ⟨.refl _, .refl _, .refl _, .refl _, .refl _⟩

section Described

variable [UnicodeForms] [Sha256]

theorem Describes.identityOf {draft : SemanticFactDraft} {record : MemoryRecord}
    (hdescribes : Describes draft record) :
    identityOf record = draft.identity record.sourceIds := by
  simp only [PatchLoop.identityOf, SemanticFactDraft.identity, hdescribes.slot, hdescribes.value,
    hdescribes.status, Option.getD_some]

end Described

section Sound

variable [Sha256]

/-- A fact of a task, with the id that its content gives it. -/
structure IsFact (taskId : String) (record : MemoryRecord) : Prop where
  task : record.taskId = taskId
  typed : isTypedSemanticRecord record = true
  id : record.id = (identityOf record).id taskId

/-- The facts that a manager holds. -/
structure Sound (taskId : String) (records : List MemoryRecord) : Prop where
  linked : Linked records
  inOrder : records.Pairwise fun earlier later => earlier.supersedesId ≠ some later.id
  facts : ∀ record ∈ records, IsFact taskId record
  oneActive : ∀ record ∈ records, ∀ other ∈ records, record.status = .active →
    other.status = .active → recordSlot record = recordSlot other → record = other
  superseded : ∀ record ∈ records, record.status = .superseded ↔ record.supersededById ≠ none
  rejected : ∀ record ∈ records, record.get? "conflicts_with_id" ≠ none →
    record.status = .invalidated ∧ record.supersedesId = none

theorem Sound.nil (taskId : String) : Sound taskId [] := by
  constructor
  · constructor
    · exact List.nodup_nil
    · exact fun record hmem => by cases hmem
    · exact fun record hmem => by cases hmem
    · exact ⟨fun _ => 0, fun record hmem => by cases hmem⟩
  · exact List.Pairwise.nil
  all_goals exact fun record hmem => by cases hmem

/-- A first fact of a slot, or a rejected one. -/
theorem Sound.append {taskId : String} {records : List MemoryRecord} (hsound : Sound taskId records)
    {candidate : MemoryRecord} (hnew : ∀ record ∈ records, record.id ≠ candidate.id)
    (hfact : IsFact taskId candidate) (hfirst : candidate.supersedesId = none)
    (hlast : candidate.supersededById = none) (hstatus : candidate.status ≠ .superseded)
    (hactive : candidate.status = .active → ∀ record ∈ records, record.status = .active →
      recordSlot record ≠ recordSlot candidate)
    (hrejected : candidate.get? "conflicts_with_id" ≠ none → candidate.status = .invalidated) :
    Sound taskId (records ++ [candidate]) := by
  constructor
  · exact hsound.linked.append hnew hfirst hlast
  · rw [List.pairwise_append]
    refine ⟨hsound.inOrder, List.pairwise_singleton _ _, ?_⟩
    intro record hrecord other hother hid
    rw [List.mem_singleton.mp hother] at hid
    obtain ⟨previous, hprevious, heq, -⟩ := hsound.linked.previous record hrecord _ hid
    exact hnew previous hprevious heq
  · intro record hrecord
    rcases mem_rows_append hrecord with hrecord | rfl
    · exact hsound.facts record hrecord
    · exact hfact
  · intro record hrecord other hother hactiveRecord hactiveOther hslot
    rcases mem_rows_append hrecord with hold | rfl <;> rcases mem_rows_append hother with hold' | rfl
    · exact hsound.oneActive record hold other hold' hactiveRecord hactiveOther hslot
    · exact absurd hslot (hactive hactiveOther record hold hactiveRecord)
    · exact absurd hslot.symm (hactive hactiveRecord other hold' hactiveOther)
    · rfl
  · intro record hrecord
    rcases mem_rows_append hrecord with hrecord | rfl
    · exact hsound.superseded record hrecord
    · exact ⟨fun hsuperseded => absurd hsuperseded hstatus, fun hne => absurd hlast hne⟩
  · intro record hrecord hconflict
    rcases mem_rows_append hrecord with hrecord | rfl
    · exact hsound.rejected record hrecord hconflict
    · exact ⟨hrejected hconflict, hfirst⟩

/-- A fact in the place of the active one. -/
theorem Sound.supersede {taskId : String} {records : List MemoryRecord} (hsound : Sound taskId records)
    {current candidate : MemoryRecord} (hcurrent : current ∈ records)
    (hactive : current.status = .active) (hnew : ∀ record ∈ records, record.id ≠ candidate.id)
    (hfact : IsFact taskId candidate) (hlast : candidate.supersededById = none)
    (hstatus : candidate.status = .active) (hfollows : Follows current candidate)
    (hrejected : candidate.get? "conflicts_with_id" = none) :
    Sound taskId (withReplacement records current candidate) := by
  have hopen : current.supersededById = none := by
    by_contra hne
    have hsuperseded := (hsound.superseded current hcurrent).mpr hne
    rw [hactive] at hsuperseded
    cases hsuperseded
  have hunique : ∀ record ∈ records, record.id = current.id → record = current :=
    fun record hmem hid => eq_of_id hsound.linked.nodup hmem hcurrent hid
  have hmem : ∀ record, record ∈ withReplacement records current candidate ↔ _ :=
    fun record => mem_withReplacement hcurrent
  have hids : (records.map (fun record : MemoryRecord =>
      if record.id = current.id then current.supersededBy candidate else record)).map
        MemoryRecord.id = records.map MemoryRecord.id := by
    rw [List.map_map]
    refine List.map_congr_left fun record _ => ?_
    by_cases hid : record.id = current.id
    · simp only [Function.comp_apply, if_pos hid]
      exact hid.symm
    · simp only [Function.comp_apply, if_neg hid]
  have hnodup : ((withReplacement records current candidate).map MemoryRecord.id).Nodup := by
    rw [withReplacement, List.map_append, hids, List.map_singleton, List.nodup_append]
    refine ⟨hsound.linked.nodup, List.nodup_singleton _, ?_⟩
    intro id hid other hother
    obtain ⟨record, hrecord, rfl⟩ := List.mem_map.mp hid
    rw [List.mem_singleton.mp hother]
    exact hnew record hrecord
  constructor
  · exact hsound.linked.supersede hcurrent hopen hnew hlast hfollows hmem hnodup
  · rw [withReplacement, List.pairwise_append, List.pairwise_map]
    refine ⟨?_, List.pairwise_singleton _ _, ?_⟩
    · refine hsound.inOrder.imp_of_mem fun {earlier later} hearlier hlater hne => ?_
      -- The record that is superseded keeps its id and what it supersedes.
      by_cases hid : earlier.id = current.id <;> by_cases hid' : later.id = current.id
      · rw [if_pos hid, if_pos hid']
        rw [hunique earlier hearlier hid, hunique later hlater hid'] at hne
        exact hne
      · rw [if_pos hid, if_neg hid']
        rw [hunique earlier hearlier hid] at hne
        exact hne
      · rw [if_neg hid, if_pos hid']
        rw [hunique later hlater hid'] at hne
        exact hne
      · rw [if_neg hid, if_neg hid']
        exact hne
    · intro record hrecord other hother hid
      rw [List.mem_singleton.mp hother] at hid
      obtain ⟨old, hold, rfl⟩ := List.mem_map.mp hrecord
      have hsame : old.supersedesId = some candidate.id := by
        by_cases heq : old.id = current.id
        · rw [if_pos heq] at hid
          rw [hunique old hold heq]
          exact hid
        · rwa [if_neg heq] at hid
      obtain ⟨previous, hprevious, heq, -⟩ := hsound.linked.previous old hold _ hsame
      exact hnew previous hprevious heq
  · intro record hrecord
    rcases (hmem record).mp hrecord with rfl | rfl | ⟨hold, -⟩
    · have hcurrentFact := hsound.facts current hcurrent
      exact ⟨hcurrentFact.task, hcurrentFact.typed, hcurrentFact.id⟩
    · exact ⟨hfact.task, hfact.typed, hfact.id⟩
    · exact hsound.facts record hold
  · -- The only active record of the slot is the new one.
    have hother : ∀ record ∈ records, record.id ≠ current.id → record.status = .active →
        recordSlot record ≠ recordSlot candidate := by
      intro record hold hid hactiveRecord hslot
      rw [← hfollows.slot] at hslot
      exact hid (congrArg MemoryRecord.id
        (hsound.oneActive record hold current hcurrent hactiveRecord hactive hslot))
    intro record hrecord other hmemOther hactiveRecord hactiveOther hslot
    rcases (hmem record).mp hrecord with rfl | rfl | ⟨hold, hid⟩
    · cases hactiveRecord
    · rcases (hmem other).mp hmemOther with rfl | rfl | ⟨hold', hid'⟩
      · cases hactiveOther
      · rfl
      · exact absurd hslot.symm (hother other hold' hid' hactiveOther)
    · rcases (hmem other).mp hmemOther with rfl | rfl | ⟨hold', hid'⟩
      · cases hactiveOther
      · exact absurd hslot (hother record hold hid hactiveRecord)
      · exact hsound.oneActive record hold other hold' hactiveRecord hactiveOther hslot
  · intro record hrecord
    rcases (hmem record).mp hrecord with rfl | rfl | ⟨hold, -⟩
    · exact ⟨fun _ => Option.some_ne_none _, fun _ => rfl⟩
    · constructor
      · intro hsuperseded
        have hsuperseded : candidate.status = .superseded := hsuperseded
        rw [hstatus] at hsuperseded
        cases hsuperseded
      · exact fun hne => absurd hlast hne
    · exact hsound.superseded record hold
  · intro record hrecord hconflict
    rcases (hmem record).mp hrecord with rfl | rfl | ⟨hold, -⟩
    · have hinvalid := (hsound.rejected current hcurrent hconflict).1
      rw [hactive] at hinvalid
      cases hinvalid
    · exact absurd hrejected hconflict
    · exact hsound.rejected record hold hconflict

end Sound

section Made

variable [UnicodeForms] [Sha256]

/-- What a round says of the record that it makes. -/
structure MadeFrom (draft : SemanticFactDraft) (sourceIds : List String) (now : Int)
    (record : MemoryRecord) : Prop where
  describes : Describes draft record
  sourceIds : record.sourceIds = sourceIds
  scope : record.scope = draft.scope
  scopeId : record.scopeId = draft.scopeId
  createdAt : record.createdAt = now

/-- What is known of the record of a draft. -/
structure Made (taskId : String) (draft : SemanticFactDraft) (sourceIds : List String) (now : Int)
    (record : MemoryRecord) : Prop where
  from_ : MadeFrom draft sourceIds now record
  fact : IsFact taskId record
  kind : record.kind = .semantic
  id : record.id = (draft.identity sourceIds).id taskId
  status : record.status = .active
  first : record.supersedesId = none
  last : record.supersededById = none
  accepted : record.get? "conflicts_with_id" = none

theorem factRecord_made {taskId : String} {draft : SemanticFactDraft} {sourceIds : List String}
    {now : Int} {record : MemoryRecord} (hok : factRecord taskId draft sourceIds now = .ok record) :
    Made taskId draft sourceIds now record := by
  have hdescribes := Describes.fact hok
  obtain ⟨hash, rfl⟩ := factRecord_eq_ok hok
  refine ⟨⟨hdescribes, rfl, rfl, rfl, rfl⟩, ⟨rfl, hdescribes.typed, ?_⟩, rfl, rfl, rfl, rfl, rfl, ?_⟩
  · rw [hdescribes.identityOf]
    rfl
  · rfl

end Made

/-! ### Rows -/

theorem get?_eq_none {records : Table MemoryRecord} {id : String}
    (hnew : ∀ record ∈ records.rows, record.id ≠ id) : records.get? id = none := by
  rw [Table.get?_eq_none_iff]
  intro hmem
  obtain ⟨record, hrecord, hid⟩ := List.mem_map.mp hmem
  exact hnew record hrecord hid

theorem rows_supersede {records : Table MemoryRecord} {current candidate : MemoryRecord}
    (hcurrent : current ∈ records.rows) (hnew : ∀ record ∈ records.rows, record.id ≠ candidate.id) :
    ((records.upsert (current.supersededBy candidate)).upsert
        { candidate with supersedesId := some current.id }).rows
      = withReplacement records.rows current candidate := by
  have hold : records.get? (Keyed.key (current.supersededBy candidate)) = some current :=
    Table.get?_of_mem hcurrent
  have hrows := Table.rows_upsert_old hold
  have hfree : (records.upsert (current.supersededBy candidate)).get?
      (Keyed.key { candidate with supersedesId := some current.id }) = none := by
    apply get?_eq_none
    intro record hrecord
    rcases Table.mem_upsert hrecord with rfl | hrecord
    · exact hnew current hcurrent
    · exact hnew record hrecord
  rw [Table.rows_upsert_new hfree, hrows]
  rfl

/-! ### Ids -/

theorem validMemoryId_stableId [Sha256] (hdigest : ∀ text, IsHexDigest (Sha256.hexdigest text))
    (start : String) (hstart : ValidMemoryId start) (hshort : start.length ≤ 95) (values : List String) :
    ValidMemoryId (stableId start values) := by
  obtain ⟨-, hdigits⟩ := hdigest (":".intercalate values)
  unfold ValidMemoryId at hstart ⊢
  rw [stableId, String.toList_append, String.toList_append, String.toList_ofList, String.toList_ofList]
  rw [← String.length_toList] at hshort
  cases hlist : start.toList with
  | nil =>
      rw [hlist] at hstart
      exact hstart.elim
  | cons c rest =>
      rw [hlist] at hstart hshort
      obtain ⟨hfirst, -, hrest⟩ := hstart
      refine ⟨hfirst, ?_, ?_⟩
      · rw [List.length_cons] at hshort
        simp only [List.append_eq, List.length_append, List.length_singleton, List.length_take]
        omega
      · intro d hd
        rcases List.mem_append.mp hd with hd | hd
        · rcases List.mem_append.mp hd with hd | hd
          · exact hrest d hd
          · exact Or.inr (List.mem_singleton.mp hd)
        · left
          rcases hdigits d (List.mem_of_mem_take hd) with hletter | hnumber
          · have hle : d ≤ 'z' := le_trans hletter.2 (by decide)
            simp [isIdentifierStart, hletter.1, hle]
          · simp [isIdentifierStart, hnumber.1, hnumber.2]

section Drafts

variable [UnicodeForms] [Sha256] [Redactor]

theorem SemanticFactDraft.redact_eq_ok {raw draft : SemanticFactDraft}
    (hok : raw.redact = .ok draft) :
    draft.scopeId ≠ "" ∧ 0 ≤ draft.confidence ∧ draft.confidence ≤ 1 := by
  unfold redact validate at hok
  simp only [Except.bind_eq_ok_iff, requireThat_eq_ok, Except.pure_eq_ok_iff] at hok
  obtain ⟨-, -, -, -, -, -, -, hscope, -, hconfidence, rfl⟩ := hok
  exact ⟨hscope, hconfidence⟩

/-- The draft of a fact passes the checks of a record. -/
theorem factRecord_ok (hdigest : ∀ text, IsHexDigest (Sha256.hexdigest text)) {taskId : String}
    (htask : taskId ≠ "") {raw draft : SemanticFactDraft} (hredacted : raw.redact = .ok draft)
    (hscope : draft.scope = .task → draft.scopeId = taskId) {sourceIds : List String}
    (hsome : sourceIds ≠ []) (hnodup : sourceIds.Nodup) (now : Int) :
    ∃ hash, factRecord taskId draft sourceIds now
      = .ok { draft.fact taskId sourceIds now with contentHash := hash } := by
  obtain ⟨hscopeId, hconfidence⟩ := SemanticFactDraft.redact_eq_ok hredacted
  refine ⟨_, MemoryRecord.validateRecord_eq_ok.mpr ⟨?_, rfl⟩⟩
  have hretrieval : draft.retrieval ≠ "" := by
    intro hempty
    have hlength := congrArg String.length hempty
    have hstart : (toString "Fact type=").length = 10 := rfl
    have hnone : ("" : String).length = 0 := rfl
    simp only [SemanticFactDraft.retrieval, String.length_append, hstart, hnone] at hlength
    omega
  have himportance : 0 ≤ min 1 (2 / 5 + (draft.authority : ℚ) / 200)
      ∧ min 1 (2 / 5 + (draft.authority : ℚ) / 200) ≤ 1 := by
    refine ⟨?_, min_le_left _ _⟩
    unfold SemanticFactDraft.authority
    cases draft.epistemicStatus <;> norm_num [FactEpistemicStatus.authority]
  constructor
  · exact validMemoryId_stableId hdigest "semantic-fact" (by decide) (by decide) _
  · exact htask
  · exact hscopeId
  · exact List.cons_ne_nil _ _
  · exact hretrieval
  · exact himportance
  · exact hconfidence
  · exact hscope
  · exact fun hworking => by cases hworking
  · exact fun _ => hsome
  · exact hnodup
  · exact ⟨fun hnone => (by cases hnone), fun hnone => (by cases hnone)⟩
  · exact fun hsuperseded => by cases hsuperseded
  · exact fun _ => rfl
  · exact fun hmem => by cases hmem
  · exact List.nodup_nil
  · exact fun _ => rfl
  · exact fun hpos => absurd hpos (lt_irrefl _)
  · exact fun _ => ⟨rfl, rfl⟩
  · exact fun hpos => absurd hpos (lt_irrefl _)
  · exact Or.inl rfl

end Drafts

section Active

variable [Sha256]

theorem activeFact_eq_some {records : Table MemoryRecord} {taskId : String}
    (hsound : Sound taskId records.rows) {slot : String} {record : MemoryRecord} :
    activeFact records slot = some record
      ↔ record ∈ records.rows ∧ record.status = .active ∧ recordSlot record = slot := by
  unfold activeFact
  constructor
  · intro hfind
    have hmem := List.mem_reverse.mp (List.mem_of_find?_eq_some hfind)
    have hkeep := List.find?_some hfind
    simp only [decide_eq_true_eq] at hkeep
    exact ⟨hmem, hkeep⟩
  · rintro ⟨hmem, hactive, hslot⟩
    cases hfind : records.rows.reverse.find? fun record =>
        record.status = .active ∧ recordSlot record = slot with
    | none =>
        have hnone := List.find?_eq_none.mp hfind record (List.mem_reverse.mpr hmem)
        simp [hactive, hslot] at hnone
    | some found =>
        have hfound := List.mem_reverse.mp (List.mem_of_find?_eq_some hfind)
        have hkeep := List.find?_some hfind
        simp only [decide_eq_true_eq] at hkeep
        rw [hsound.oneActive found hfound record hmem hkeep.1 hactive (hkeep.2.trans hslot.symm)]

end Active

end PatchLoop
