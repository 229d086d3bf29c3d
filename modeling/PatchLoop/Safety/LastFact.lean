import PatchLoop.Lib.Register
import PatchLoop.Safety.FactRuns

/-!
# The fact that an event leaves in a slot

The resolution of an event treats each slot as a register, to which it offers a draft once: what it leaves
active is what the drafts give without those that were seen. This is what all of them give exactly when
the last draft that nothing outranks is the one that is new last.
-/

namespace PatchLoop

open Register

/-- What a record writes in its slot. -/
def MemoryRecord.write (record : MemoryRecord) : Write (Option String) Int :=
  ⟨record.text? "normalized_value", recordAuthority record⟩

theorem FactEpistemicStatus.authority_injective {status other : FactEpistemicStatus}
    (hauthority : status.authority = other.authority) : status = other := by
  cases status <;> cases other <;> first | rfl | exact absurd hauthority (by decide)

theorem get?_eq_iff_text? {record : MemoryRecord} {name text : String} :
    record.get? name = some (.str text) ↔ record.text? name = some text := by
  constructor
  · intro hget
    rw [MemoryRecord.text?, hget]
  · exact get?_of_text?

/-- The validator of chains finds the ids of records distinct. -/
theorem nodup_of_validate {records : List MemoryRecord}
    (hok : validateSupersessionChain records = .ok ()) :
    (records.map MemoryRecord.id).Nodup := by
  obtain ⟨_, hnodup, -⟩ := Except.bind_eq_ok_iff.mp hok
  exact requireThat_eq_ok.mp hnodup

/-- A chain that is accepted has a new id at its end. -/
theorem new_of_chain {records : List MemoryRecord} {current candidate : MemoryRecord}
    (hchain : validateSupersessionChain ((records.filter
        (·.id ≠ (current.supersededBy candidate).id)) ++ [current.supersededBy candidate,
          { candidate with supersedesId := some (current.supersededBy candidate).id }]) = .ok ()) :
    ∀ record ∈ records, record.id ≠ candidate.id := by
  have hids := nodup_of_validate hchain
  rw [List.map_append, List.nodup_append] at hids
  obtain ⟨-, hlast, hapart⟩ := hids
  intro record hrecord hid
  by_cases hold : record.id = current.id
  · have hne : (current.supersededBy candidate).id ≠ candidate.id := by simpa using hlast
    exact hne (hold.symm.trans hid)
  · refine hapart record.id (List.mem_map_of_mem (List.mem_filter.mpr ⟨hrecord, ?_⟩)) candidate.id
      ?_ hid
    · exact decide_eq_true hold
    · exact List.mem_cons_of_mem _ List.mem_cons_self

section Rounds

variable [UnicodeForms] [Sha256]

/-- What a draft writes in its slot. -/
def SemanticFactDraft.write (draft : SemanticFactDraft) : Write (Option String) Int :=
  ⟨some draft.normalizedValue, draft.authority⟩

/-- What the drafts write in a slot, in order. -/
def writesOf (slot : String) (drafts : List SemanticFactDraft) : List (Write (Option String) Int) :=
  (drafts.filter (·.slotKey = slot)).map SemanticFactDraft.write

theorem writesOf_concat (slot : String) (done : List SemanticFactDraft) (draft : SemanticFactDraft) :
    writesOf slot (done ++ [draft])
      = writesOf slot done ++ if draft.slotKey = slot then [draft.write] else [] := by
  rw [writesOf, writesOf, List.filter_append, List.map_append, List.filter_singleton]
  by_cases hslot : draft.slotKey = slot
  · rw [decide_eq_true hslot, if_pos hslot]
    rfl
  · rw [decide_eq_false hslot, if_neg hslot]
    rfl

theorem Describes.write {draft : SemanticFactDraft} {record : MemoryRecord}
    (hdescribes : Describes draft record) : record.write = draft.write := by
  rw [MemoryRecord.write, SemanticFactDraft.write, hdescribes.value, hdescribes.authority]

/-- In its slot a draft is known by what it writes. -/
theorem SemanticFactDraft.key_eq_iff {draft other : SemanticFactDraft} :
    draft.key = other.key ↔ draft.slotKey = other.slotKey ∧ draft.write = other.write := by
  simp only [key, write, Prod.mk.injEq, Write.mk.injEq, Option.some_inj]
  refine and_congr_right fun _ => and_congr_right fun _ => ?_
  exact ⟨congrArg FactEpistemicStatus.authority, FactEpistemicStatus.authority_injective⟩

/-- What a round can do with a draft. -/
inductive Round (taskId : String) (source : MemorySource) (now : Int) (draft : SemanticFactDraft)
    (resolution : FactResolution) : FactResolution → Prop
  | seen (hkey : draft.key ∈ resolution.seen) : Round taskId source now draft resolution
      resolution.suppress
  | same {current : MemoryRecord} (hkey : draft.key ∉ resolution.seen)
      (hcurrent : resolution.active draft.slotKey = some current)
      (hauthority : draft.authority ≤ recordAuthority current)
      (hkept : current.write.value = draft.write.value
        ∨ draft.authority < recordAuthority current) :
      Round taskId source now draft resolution
        { resolution with seen := draft.key :: resolution.seen }.suppress
  | first {candidate : MemoryRecord} (hkey : draft.key ∉ resolution.seen)
      (hnone : resolution.active draft.slotKey = none)
      (hmade : factRecord taskId draft [source.id] now = .ok candidate) :
      Round taskId source now draft resolution
        ({ resolution with
          seen := draft.key :: resolution.seen
          sources := resolution.sources.upsert source }.create draft.slotKey candidate)
  | later {current candidate : MemoryRecord} {sourceIds : List String}
      (hkey : draft.key ∉ resolution.seen)
      (hcurrent : resolution.active draft.slotKey = some current)
      (hauthority : recordAuthority current ≤ draft.authority)
      (hsources : ∀ id ∈ sourceIds, id ∈ current.sourceIds ∨ id = source.id)
      (hmade : factRecord taskId draft sourceIds now = .ok candidate)
      (hnew : ∀ record ∈ resolution.records.rows, record.id ≠ candidate.id) :
      Round taskId source now draft resolution
        ({ resolution with
          seen := draft.key :: resolution.seen
          sources := resolution.sources.upsert source }.supersede draft.slotKey
            (current.supersededBy candidate) { candidate with supersedesId := some current.id })
  | rejected {current candidate : MemoryRecord} (hkey : draft.key ∉ resolution.seen)
      (hcurrent : resolution.active draft.slotKey = some current)
      (hauthority : draft.authority < recordAuthority current)
      (hdiffers : current.write.value ≠ draft.write.value)
      (hmade : factRecord taskId draft [source.id] now = .ok candidate) :
      Round taskId source now draft resolution
        ({ resolution with
          seen := draft.key :: resolution.seen
          sources := resolution.sources.upsert source }.reject (candidate.conflicting current))

theorem round_of_contest {taskId : String} {source : MemorySource} {now : Int}
    {draft : SemanticFactDraft} {resolution next : FactResolution} (hkey : draft.key ∉ resolution.seen)
    {current candidate : MemoryRecord} (hcurrent : resolution.active draft.slotKey = some current)
    (hdiffers : ¬ (current.get? "normalized_value" = some (.str draft.normalizedValue)
      ∧ draft.authority ≤ recordAuthority current))
    (hmade : factRecord taskId draft [source.id] now = .ok candidate)
    (hok : FactResolution.contest { resolution with
        seen := draft.key :: resolution.seen
        sources := resolution.sources.upsert source } taskId draft source now current candidate
          (decide (current.get? "normalized_value" = some (.str draft.normalizedValue)))
        = .ok next) :
    Round taskId source now draft resolution next := by
  unfold FactResolution.contest at hok
  by_cases hsame : current.get? "normalized_value" = some (.str draft.normalizedValue)
  · have hauthority : ¬ draft.authority ≤ recordAuthority current := fun hle => hdiffers ⟨hsame, hle⟩
    simp only [decide_eq_true hsame, Bool.true_or, if_true] at hok
    obtain ⟨merged, hmerged, hok⟩ := Except.bind_eq_ok_iff.mp hok
    obtain ⟨_, hchain, hok⟩ := Except.bind_eq_ok_iff.mp hok
    obtain rfl := Except.pure_eq_ok_iff.mp hok
    refine .later hkey hcurrent (by omega) (fun id hid => ?_) hmerged (new_of_chain hchain)
    rw [mem_sortedTexts, List.mem_append, List.mem_singleton] at hid
    exact hid
  · simp only [decide_eq_false hsame, Bool.false_or, Bool.false_eq_true, if_false] at hok
    split at hok
    · rename_i haccept
      obtain ⟨accepted, haccepted, hok⟩ := Except.bind_eq_ok_iff.mp hok
      obtain rfl := Except.pure_eq_ok_iff.mp haccepted
      obtain ⟨_, hchain, hok⟩ := Except.bind_eq_ok_iff.mp hok
      obtain rfl := Except.pure_eq_ok_iff.mp hok
      refine .later hkey hcurrent (of_decide_eq_true haccept) (fun id hid => ?_) hmade
        (new_of_chain hchain)
      exact Or.inr (List.mem_singleton.mp hid)
    · rename_i hreject
      obtain rfl := Except.pure_eq_ok_iff.mp hok
      rw [decide_eq_true_eq, not_le] at hreject
      exact .rejected hkey hcurrent hreject (fun hvalue => hsame (get?_eq_iff_text?.mpr hvalue)) hmade

variable [Redactor]

/-- A round that returns does one of these. -/
theorem round_of_resolveDraft {taskId : String} {sourceOf : Option String → MemorySource} {now : Int}
    {raw draft : SemanticFactDraft} {resolution next : FactResolution} (hraw : raw.redact = .ok draft)
    (hok : resolution.resolveDraft taskId sourceOf raw now = .ok next) :
    Round taskId (sourceOf draft.path) now draft resolution next := by
  unfold FactResolution.resolveDraft at hok
  rw [hraw] at hok
  change (if draft.key ∈ resolution.seen then _ else _) = _ at hok
  split at hok
  · rename_i hkey
    obtain rfl := Except.pure_eq_ok_iff.mp hok
    exact .seen hkey
  rename_i hkey
  cases hcurrent : resolution.active draft.slotKey with
  | none =>
      simp only [hcurrent, Option.any_none, Bool.false_and, Option.map_none, Option.getD_none,
        Bool.false_eq_true, if_false] at hok
      obtain ⟨candidate, hmade, hok⟩ := Except.bind_eq_ok_iff.mp hok
      rw [if_neg (by simp)] at hok
      obtain rfl := Except.pure_eq_ok_iff.mp hok
      exact .first hkey hcurrent hmade
  | some current =>
      simp only [hcurrent, Option.any_some, Option.map_some, Option.getD_some] at hok
      split at hok
      · rename_i hsame
        obtain rfl := Except.pure_eq_ok_iff.mp hok
        rw [Bool.and_eq_true, decide_eq_true_eq, decide_eq_true_eq] at hsame
        exact .same hkey hcurrent hsame.2 (Or.inl (get?_eq_iff_text?.mp hsame.1))
      rename_i hdiffers
      rw [Bool.and_eq_true, decide_eq_true_eq, decide_eq_true_eq] at hdiffers
      obtain ⟨candidate, hmade, hok⟩ := Except.bind_eq_ok_iff.mp hok
      split at hok
      · rename_i hold
        obtain rfl := Except.pure_eq_ok_iff.mp hok
        have hless : draft.authority < recordAuthority current := by
          simp only [Bool.and_eq_true, decide_eq_true_eq] at hold
          exact hold.2
        exact .same hkey hcurrent hless.le (Or.inr hless)
      · exact round_of_contest hkey hcurrent hdiffers hmade hok

end Rounds

/-! ### The active facts -/

section Active

/-- What a search finds in a list that was changed, where no more was made to be found and what was found
before was left. -/
theorem find?_map_of_kept {α : Type} {p : α → Bool} {f : α → α} {items : List α}
    (hfewer : ∀ a ∈ items, p (f a) = true → p a = true) (hkept : ∀ a, items.find? p = some a → f a = a) :
    (items.map f).find? p = items.find? p := by
  induction items with
  | nil => rfl
  | cons a rest ih =>
      rw [List.map_cons, List.find?_cons, List.find?_cons]
      cases hp : p a with
      | true =>
          have hsame : f a = a := hkept a (by rw [List.find?_cons, hp])
          simp only [hsame, hp]
      | false =>
          have hnot : p (f a) = false := by
            by_contra hne
            rw [Bool.not_eq_false] at hne
            rw [hfewer a List.mem_cons_self hne] at hp
            cases hp
          simp only [hnot]
          refine ih (fun b hb => hfewer b (List.mem_cons_of_mem a hb)) fun b hb => hkept b ?_
          rw [List.find?_cons, hp]
          exact hb

theorem mem_of_activeFact {records : Table MemoryRecord} {slot : String} {record : MemoryRecord}
    (hactive : activeFact records slot = some record) :
    record ∈ records.rows ∧ record.status = .active ∧ recordSlot record = slot := by
  refine ⟨List.mem_reverse.mp (List.mem_of_find?_eq_some hactive), ?_⟩
  have hkeep := List.find?_some hactive
  simpa using hkeep

/-- A new record at the end. -/
theorem activeFact_append {records others : Table MemoryRecord} {record : MemoryRecord}
    (hrows : others.rows = records.rows ++ [record]) (slot : String) :
    activeFact others slot
      = if record.status = .active ∧ recordSlot record = slot then some record
        else activeFact records slot := by
  unfold activeFact
  rw [hrows, List.reverse_append, List.reverse_singleton, List.singleton_append, List.find?_cons]
  split
  · rename_i hkeep
    rw [if_pos (of_decide_eq_true hkeep)]
  · rename_i hkeep
    rw [if_neg (of_decide_eq_false hkeep)]

/-- A record written over another, in slots of which neither is active, or where what was active is left. -/
theorem activeFact_set {records others : Table MemoryRecord} {record : MemoryRecord}
    (hrows : others.rows = records.rows.map fun old => if old.id = record.id then record else old)
    {slot : String} (hinactive : ¬ (record.status = .active ∧ recordSlot record = slot))
    (hother : ∀ old, activeFact records slot = some old → old.id ≠ record.id) :
    activeFact others slot = activeFact records slot := by
  unfold activeFact
  rw [hrows, ← List.map_reverse]
  refine find?_map_of_kept (fun old _ hkeep => ?_) fun old hold => if_neg (hother old hold)
  by_cases hid : old.id = record.id
  · rw [if_pos hid] at hkeep
    exact absurd (of_decide_eq_true hkeep) hinactive
  · rwa [if_neg hid] at hkeep

theorem activeFact_upsert_of_not {records : Table MemoryRecord} {record : MemoryRecord} {slot : String}
    (hinactive : ¬ (record.status = .active ∧ recordSlot record = slot))
    (hother : ∀ old, activeFact records slot = some old → old.id ≠ record.id) :
    activeFact (records.upsert record) slot = activeFact records slot := by
  cases hget : records.get? (Keyed.key record) with
  | none => rw [activeFact_append (Table.rows_upsert_new hget), if_neg hinactive]
  | some old => exact activeFact_set (Table.rows_upsert_old hget) hinactive hother

/-- A record for a slot in which none was active. -/
theorem activeFact_upsert_first {records : Table MemoryRecord} {record : MemoryRecord}
    (hactive : record.status = .active) (hnone : activeFact records (recordSlot record) = none) :
    activeFact (records.upsert record) (recordSlot record) = some record := by
  have hempty := List.find?_eq_none.mp hnone
  have hmem : record ∈ (records.upsert record).rows :=
    Table.mem_of_get? (Table.get?_upsert_self records record)
  cases hfind : activeFact (records.upsert record) (recordSlot record) with
  | none =>
      have hnot := List.find?_eq_none.mp hfind record (List.mem_reverse.mpr hmem)
      simp [hactive] at hnot
  | some found =>
      obtain ⟨hfound, hactiveFound, hslot⟩ := mem_of_activeFact hfind
      rcases Table.mem_upsert hfound with rfl | hold
      · rfl
      · have hnot := hempty found (List.mem_reverse.mpr hold)
        simp [hactiveFound, hslot] at hnot

end Active

section Viewing

variable [UnicodeForms] [Sha256] [Redactor]

/-- A record whose id is made of what it says, of what is known during the event. -/
structure OwnRecord (event : FactEvent) (record : MemoryRecord) : Prop where
  id : record.id = (identityOf record).id event.taskId
  value : (record.text? "normalized_value").isSome
  known : event.Known (identityOf record)
  sources : ∀ id ∈ record.sourceIds, event.KnownSource id

theorem OwnRecord.of_same {event : FactEvent} {record other : MemoryRecord}
    (hown : OwnRecord event record) (hid : other.id = record.id)
    (hidentity : identityOf other = identityOf record) (hsources : other.sourceIds = record.sourceIds)
    (hvalue : (other.text? "normalized_value").isSome) : OwnRecord event other := by
  obtain ⟨hrecord, -, hknown, hsourcesKnown⟩ := hown
  exact ⟨by rw [hid, hidentity, hrecord], hvalue, hidentity ▸ hknown, hsources ▸ hsourcesKnown⟩

theorem OwnRecord.fact {event : FactEvent} {draft : SemanticFactDraft} {sourceIds : List String}
    {now : Int} {record : MemoryRecord} (hdraft : draft ∈ event.redacted)
    (hknown : ∀ id ∈ sourceIds, event.KnownSource id)
    (hmade : factRecord event.taskId draft sourceIds now = .ok record) : OwnRecord event record := by
  have hrecord := factRecord_made hmade
  refine ⟨hrecord.fact.id, ?_, ?_, ?_⟩
  · rw [hrecord.from_.describes.value]
    rfl
  · rw [hrecord.from_.describes.identityOf, hrecord.from_.sourceIds]
    exact Or.inr ⟨draft, hdraft, sourceIds, hknown, rfl⟩
  · rw [hrecord.from_.sourceIds]
    exact hknown

theorem OwnRecord.conflicting {event : FactEvent} {draft : SemanticFactDraft} {sourceIds : List String}
    {now : Int} {record current : MemoryRecord} (hown : OwnRecord event record)
    (hmade : factRecord event.taskId draft sourceIds now = .ok record) :
    OwnRecord event (record.conflicting current) := by
  have hdescribes : Describes draft (record.conflicting current) := Describes.conflicting hmade
  refine hown.of_same rfl ?_ rfl ?_
  · rw [hdescribes.identityOf, (Describes.fact hmade).identityOf]
    rfl
  · rw [hdescribes.value]
    rfl

/-- The resolution after some of the drafts of an event: what is active are the facts of the records, and
each slot holds what a register holds to which each of its drafts was offered once. -/
structure Viewing (event : FactEvent) (done : List SemanticFactDraft) (resolution : FactResolution) :
    Prop where
  own : ∀ record ∈ resolution.records.rows, OwnRecord event record
  active : ∀ slot, resolution.active slot = activeFact resolution.records slot
  seen : ∀ draft, SemanticFactDraft.key draft ∈ resolution.seen ↔ ∃ other ∈ done, draft.key = other.key
  view : ∀ slot, (resolution.active slot).map MemoryRecord.write
    = offered ((activeFact event.records slot).map MemoryRecord.write) (firsts [] (writesOf slot done))

/-- What a round does to the active facts. -/
structure Offers (draft : SemanticFactDraft) (resolution next : FactResolution) : Prop where
  active : ∀ slot, next.active slot = activeFact next.records slot
  others : ∀ slot ≠ draft.slotKey, next.active slot = resolution.active slot
  own : (next.active draft.slotKey).map MemoryRecord.write
    = offer ((resolution.active draft.slotKey).map MemoryRecord.write) draft.write

section Step

variable {event : FactEvent} {done : List SemanticFactDraft} {resolution next : FactResolution}
  {draft : SemanticFactDraft}

theorem Viewing.seen_iff (hviewing : Viewing event done resolution) :
    draft.key ∈ resolution.seen ↔ draft.write ∈ writesOf draft.slotKey done := by
  rw [hviewing.seen draft, writesOf, List.mem_map]
  constructor
  · rintro ⟨other, hmem, hkey⟩
    obtain ⟨hslot, hwrite⟩ := SemanticFactDraft.key_eq_iff.mp hkey
    exact ⟨other, List.mem_filter.mpr ⟨hmem, decide_eq_true hslot.symm⟩, hwrite.symm⟩
  · rintro ⟨other, hmem, hwrite⟩
    obtain ⟨hmem, hslot⟩ := List.mem_filter.mp hmem
    exact ⟨other, hmem,
      SemanticFactDraft.key_eq_iff.mpr ⟨(of_decide_eq_true hslot).symm, hwrite.symm⟩⟩

/-- A draft that was seen is not offered again. -/
theorem Viewing.skip (hviewing : Viewing event done resolution) (hkey : draft.key ∈ resolution.seen)
    (hrecords : next.records = resolution.records) (hactive : next.active = resolution.active)
    (hseen : next.seen = resolution.seen) : Viewing event (done ++ [draft]) next := by
  constructor
  · rw [hrecords]
    exact hviewing.own
  · rw [hrecords, hactive]
    exact hviewing.active
  · intro other
    rw [hseen, hviewing.seen other]
    obtain ⟨earlier, hearlier, hsame⟩ := (hviewing.seen draft).mp hkey
    constructor
    · exact fun ⟨found, hfound, heq⟩ => ⟨found, List.mem_append_left _ hfound, heq⟩
    · rintro ⟨found, hfound, heq⟩
      rcases List.mem_append.mp hfound with hfound | hfound
      · exact ⟨found, hfound, heq⟩
      · rw [List.mem_singleton.mp hfound] at heq
        exact ⟨earlier, hearlier, heq.trans hsame⟩
  · intro slot
    rw [hactive, hviewing.view slot, writesOf_concat]
    by_cases hslot : draft.slotKey = slot
    · subst hslot
      rw [if_pos rfl, firsts_concat, if_pos (Or.inr (hviewing.seen_iff.mp hkey)), List.append_nil]
    · rw [if_neg hslot, List.append_nil]

/-- A draft that was not seen is offered to its slot. -/
theorem Viewing.take (hviewing : Viewing event done resolution) (hkey : draft.key ∉ resolution.seen)
    (hown : ∀ record ∈ next.records.rows, OwnRecord event record)
    (hoffers : Offers draft resolution next) (hseen : next.seen = draft.key :: resolution.seen) :
    Viewing event (done ++ [draft]) next := by
  constructor
  · exact hown
  · exact hoffers.active
  · intro other
    rw [hseen, List.mem_cons, hviewing.seen other]
    constructor
    · rintro (heq | ⟨found, hfound, heq⟩)
      · exact ⟨draft, List.mem_append_right _ List.mem_cons_self, heq⟩
      · exact ⟨found, List.mem_append_left _ hfound, heq⟩
    · rintro ⟨found, hfound, heq⟩
      rcases List.mem_append.mp hfound with hfound | hfound
      · exact Or.inr ⟨found, hfound, heq⟩
      · exact Or.inl (List.mem_singleton.mp hfound ▸ heq)
  · intro slot
    rw [writesOf_concat]
    by_cases hslot : draft.slotKey = slot
    · subst hslot
      have hnew : ¬ (draft.write ∈ ([] : List (Write (Option String) Int))
          ∨ draft.write ∈ writesOf draft.slotKey done) := by
        rw [← hviewing.seen_iff]
        simpa using hkey
      rw [if_pos rfl, firsts_concat, if_neg hnew, offered_append, hoffers.own,
        hviewing.view draft.slotKey]
      rfl
    · rw [if_neg hslot, List.append_nil, hoffers.others slot (Ne.symm hslot), hviewing.view slot]

/-- The fact of the slot stays where the draft says the same, or has less authority. -/
theorem Viewing.offers_same (hviewing : Viewing event done resolution) {current : MemoryRecord}
    (hcurrent : resolution.active draft.slotKey = some current)
    (hauthority : draft.authority ≤ recordAuthority current)
    (hkept : current.write.value = draft.write.value ∨ draft.authority < recordAuthority current)
    (hrecords : next.records = resolution.records) (hactive : next.active = resolution.active) :
    Offers draft resolution next := by
  refine ⟨?_, fun slot _ => by rw [hactive], ?_⟩
  · rw [hrecords, hactive]
    exact hviewing.active
  · rw [hactive, hcurrent, Option.map_some, Register.offer]
    split
    · rename_i hle
      have hle : recordAuthority current ≤ draft.authority := hle
      refine congrArg some ?_
      rcases hkept with hvalue | hless
      · have hsame : current.write.authority = draft.write.authority := le_antisymm hle hauthority
        cases hwrite : draft.write
        cases hwrite' : current.write
        rw [hwrite, hwrite'] at hvalue hsame
        simp_all
      · omega
    · rfl

theorem Viewing.offers_first {taskId : String} (hviewing : Viewing event done resolution)
    (hids : ∀ identity other, event.Known identity → event.Known other →
      identity.id event.taskId = other.id event.taskId → identity = other)
    {sourceIds : List String} {now : Int} {candidate : MemoryRecord}
    (hown : OwnRecord event candidate)
    (hmade : factRecord taskId draft sourceIds now = .ok candidate)
    (hnone : resolution.active draft.slotKey = none)
    (hrecords : next.records = resolution.records.upsert candidate)
    (hactive : next.active = Function.update resolution.active draft.slotKey (some candidate)) :
    Offers draft resolution next := by
  have hfact := factRecord_made hmade
  have hslot : recordSlot candidate = draft.slotKey := hfact.from_.describes.slot
  have hupdate : ∀ slot ≠ draft.slotKey, next.active slot = resolution.active slot := by
    intro slot hne
    rw [hactive, Function.update_of_ne hne]
  refine ⟨fun slot => ?_, hupdate, ?_⟩
  · by_cases heq : slot = draft.slotKey
    · subst heq
      rw [hrecords, hactive, Function.update_self, ← hslot, activeFact_upsert_first hfact.status]
      rw [hslot, ← hviewing.active, hnone]
    · rw [hupdate slot heq, hviewing.active slot, hrecords, activeFact_upsert_of_not]
      · exact fun hsame => heq (hsame.2.symm.trans hslot)
      · intro old hold hid
        obtain ⟨hmem, -, hslotOld⟩ := mem_of_activeFact hold
        have hownOld := hviewing.own old hmem
        rw [hownOld.id, hown.id] at hid
        have hsame := hids _ _ hownOld.known hown.known hid
        have hslots : recordSlot old = recordSlot candidate := congrArg FactIdentity.slot hsame
        exact heq (hslotOld.symm.trans (hslots.trans hslot))
  · rw [hactive, Function.update_self, hnone, Option.map_some, hfact.from_.describes.write]
    rfl

theorem Viewing.offers_later {taskId : String} (hviewing : Viewing event done resolution)
    {current candidate : MemoryRecord} {sourceIds : List String} {now : Int}
    (hcurrent : resolution.active draft.slotKey = some current)
    (hauthority : recordAuthority current ≤ draft.authority)
    (hmade : factRecord taskId draft sourceIds now = .ok candidate)
    (hnew : ∀ record ∈ resolution.records.rows, record.id ≠ candidate.id)
    (hrecords : next.records = (resolution.records.upsert (current.supersededBy candidate)).upsert
      { candidate with supersedesId := some current.id })
    (hactive : next.active = Function.update resolution.active draft.slotKey
      (some { candidate with supersedesId := some current.id })) :
    Offers draft resolution next := by
  have hfact := factRecord_made hmade
  have hslot : recordSlot { candidate with supersedesId := some current.id } = draft.slotKey :=
    hfact.from_.describes.slot
  have hupdate : ∀ slot ≠ draft.slotKey, next.active slot = resolution.active slot := by
    intro slot hne
    rw [hactive, Function.update_of_ne hne]
  obtain ⟨hmem, -, hslotCurrent⟩ := mem_of_activeFact ((hviewing.active _).symm.trans hcurrent)
  -- The candidate comes after the records, of which one is superseded.
  have hold : resolution.records.get? (Keyed.key (current.supersededBy candidate)) = some current :=
    Table.get?_of_mem hmem
  have hrows : (resolution.records.upsert (current.supersededBy candidate)).rows
      = resolution.records.rows.map fun old =>
        if old.id = (current.supersededBy candidate).id then current.supersededBy candidate else old :=
    Table.rows_upsert_old hold
  have hfree : (resolution.records.upsert (current.supersededBy candidate)).get?
      (Keyed.key { candidate with supersedesId := some current.id }) = none := by
    refine get?_eq_none fun record hrecord => ?_
    rcases Table.mem_upsert hrecord with rfl | hold
    · exact hnew current hmem
    · exact hnew record hold
  refine ⟨fun slot => ?_, hupdate, ?_⟩
  · rw [hrecords, activeFact_append (Table.rows_upsert_new hfree)]
    by_cases heq : slot = draft.slotKey
    · subst heq
      rw [hactive, Function.update_self, if_pos ⟨hfact.status, hslot⟩]
    · rw [hupdate slot heq, hviewing.active slot, if_neg fun hsame => heq (hsame.2.symm.trans hslot)]
      refine (activeFact_set hrows (fun hsame => by cases hsame.1) fun old hold hid => ?_).symm
      obtain ⟨hmemOld, -, hslotOld⟩ := mem_of_activeFact hold
      obtain rfl := eq_of_id resolution.records.nodup hmemOld hmem hid
      exact heq (hslotOld.symm.trans hslotCurrent)
  · rw [hactive, Function.update_self, hcurrent, Option.map_some, Option.map_some, Register.offer]
    have hle : current.write.authority ≤ draft.write.authority := hauthority
    rw [if_pos hle, ← hfact.from_.describes.write]
    rfl

theorem Viewing.offers_rejected (hviewing : Viewing event done resolution)
    (hids : ∀ identity other, event.Known identity → event.Known other →
      identity.id event.taskId = other.id event.taskId → identity = other)
    {sourceIds : List String} {now : Int} {current candidate : MemoryRecord}
    (hown : OwnRecord event (candidate.conflicting current))
    (hmade : factRecord event.taskId draft sourceIds now = .ok candidate)
    (hcurrent : resolution.active draft.slotKey = some current)
    (hauthority : draft.authority < recordAuthority current)
    (hdiffers : current.write.value ≠ draft.write.value)
    (hrecords : next.records = resolution.records.upsert (candidate.conflicting current))
    (hactive : next.active = resolution.active) : Offers draft resolution next := by
  have hdescribes : Describes draft (candidate.conflicting current) := Describes.conflicting hmade
  refine ⟨fun slot => ?_, fun slot _ => by rw [hactive], ?_⟩
  · rw [hactive, hviewing.active slot, hrecords, activeFact_upsert_of_not]
    · exact fun hsame => by cases hsame.1
    · -- A record of the same id says the same, and the active one does not.
      intro old hold hid
      obtain ⟨hmem, -, hslotOld⟩ := mem_of_activeFact hold
      have hownOld := hviewing.own old hmem
      rw [hownOld.id, hown.id] at hid
      have hsame := hids _ _ hownOld.known hown.known hid
      have hslot : recordSlot old = draft.slotKey :=
        (congrArg FactIdentity.slot hsame).trans hdescribes.slot
      rw [← hslotOld, hslot, ← hviewing.active, hcurrent] at hold
      obtain rfl := Option.some.inj hold
      have hvalue : (current.text? "normalized_value").getD "" = draft.normalizedValue := by
        have hvalues := congrArg FactIdentity.value hsame
        rw [hdescribes.identityOf] at hvalues
        exact hvalues
      obtain ⟨value, hsome⟩ := Option.isSome_iff_exists.mp hownOld.value
      rw [hsome, Option.getD_some] at hvalue
      refine hdiffers ?_
      change current.text? "normalized_value" = some draft.normalizedValue
      rw [hsome, hvalue]
  · rw [hactive, hcurrent, Option.map_some, Register.offer, if_neg]
    exact not_le_of_gt hauthority

/-- A round takes the next draft. -/
theorem Viewing.round (hviewing : Viewing event done resolution)
    (hids : ∀ identity other, event.Known identity → event.Known other →
      identity.id event.taskId = other.id event.taskId → identity = other)
    (hdraft : draft ∈ event.redacted) {now : Int}
    (hround : Round event.taskId (event.sourceOf draft.path) now draft resolution next) :
    Viewing event (done ++ [draft]) next := by
  have hsource : ∀ id ∈ [(event.sourceOf draft.path).id], event.KnownSource id := by
    intro id hid
    rw [List.mem_singleton.mp hid]
    exact Or.inr ⟨draft, hdraft, rfl⟩
  cases hround with
  | seen hkey => exact hviewing.skip hkey rfl rfl rfl
  | same hkey hcurrent hauthority hkept =>
      exact hviewing.take hkey hviewing.own
        (hviewing.offers_same hcurrent hauthority hkept rfl rfl) rfl
  | first hkey hnone hmade =>
      have hown := OwnRecord.fact hdraft hsource hmade
      refine hviewing.take hkey (fun record hrecord => ?_)
        (hviewing.offers_first hids hown hmade hnone rfl rfl) rfl
      rcases Table.mem_upsert hrecord with rfl | hold
      · exact hown
      · exact hviewing.own record hold
  | @later current candidate sourceIds hkey hcurrent hauthority hsources hmade hnew =>
      obtain ⟨hmem, -, -⟩ := mem_of_activeFact ((hviewing.active _).symm.trans hcurrent)
      have hknown : ∀ id ∈ sourceIds, event.KnownSource id := by
        intro id hid
        rcases hsources id hid with hold | rfl
        · exact (hviewing.own current hmem).sources id hold
        · exact hsource _ List.mem_cons_self
      have hown := OwnRecord.fact hdraft hknown hmade
      have hownCurrent := hviewing.own current hmem
      refine hviewing.take hkey (fun record hrecord => ?_)
        (hviewing.offers_later hcurrent hauthority hmade hnew rfl rfl) rfl
      rcases Table.mem_upsert hrecord with rfl | hrecord
      · exact hown.of_same rfl rfl rfl hown.value
      · rcases Table.mem_upsert hrecord with rfl | hold
        · exact hownCurrent.of_same rfl rfl rfl hownCurrent.value
        · exact hviewing.own record hold
  | @rejected current candidate hkey hcurrent hauthority hdiffers hmade =>
      have hown : OwnRecord event (candidate.conflicting current) :=
        (OwnRecord.fact hdraft hsource hmade).conflicting hmade
      refine hviewing.take hkey (fun record hrecord => ?_)
        (hviewing.offers_rejected hids hown hmade hcurrent hauthority hdiffers rfl rfl) rfl
      rcases Table.mem_upsert hrecord with rfl | hold
      · exact hown
      · exact hviewing.own record hold

theorem resolveAll_of_error {taskId : String} {sourceOf : Option String → MemorySource}
    {timed : TimedDraft} {rest : List TimedDraft} {error : MemoryError}
    (herror : resolution.resolveDraft taskId sourceOf timed.draft timed.now = .error error) :
    resolution.resolveAll taskId sourceOf (timed :: rest) = (resolution, some error) := by
  unfold FactResolution.resolveAll
  generalize resolution.resolveDraft taskId sourceOf timed.draft timed.now = result at herror ⊢
  subst herror
  rfl

/-- What each round keeps is kept by all of them: by induction on the drafts that are left. -/
theorem rounds_induction {P : List SemanticFactDraft → FactResolution → Prop}
    (hround : ∀ {done draft now resolution next}, draft ∈ event.redacted → P done resolution →
      Round event.taskId (event.sourceOf draft.path) now draft resolution next →
        P (done ++ [draft]) next)
    {rest : List TimedDraft} (hstart : P done resolution)
    (hrest : redactedDrafts rest ⊆ event.redacted)
    (hreturns : (resolution.resolveAll event.taskId event.sourceOf rest).2 = none) :
    P (done ++ redactedDrafts rest) (resolution.resolveAll event.taskId event.sourceOf rest).1 := by
  induction rest generalizing done resolution with
  | nil =>
      have hnone : done ++ redactedDrafts [] = done := List.append_nil done
      rw [hnone]
      exact hstart
  | cons timed rest ih =>
      cases hresult : resolution.resolveDraft event.taskId event.sourceOf timed.draft timed.now with
      | error error =>
          rw [resolveAll_of_error hresult] at hreturns
          exact absurd hreturns (Option.some_ne_none error)
      | ok next =>
          obtain ⟨draft, hraw, -⟩ := Except.bind_eq_ok_iff.mp hresult
          have hdrafts : redactedDrafts (timed :: rest) = draft :: redactedDrafts rest := by
            rw [redactedDrafts, List.filterMap_cons, hraw]
            rfl
          rw [resolveAll_of_ok hresult] at hreturns ⊢
          rw [hdrafts] at hrest ⊢
          obtain ⟨hdraft, hrest⟩ := List.cons_subset.mp hrest
          have hnext := hround hdraft hstart (round_of_resolveDraft hraw hresult)
          have hend := ih hnext hrest hreturns
          rwa [List.append_assoc, List.singleton_append] at hend

/-- The start of an event, whose records have the ids that their contents give them. -/
theorem Viewing.start (hfacts : ∀ record ∈ event.records.rows,
      record.id = (identityOf record).id event.taskId
        ∧ (record.text? "normalized_value").isSome) :
    Viewing event [] (FactResolution.start event.records) := by
  constructor
  · intro record hrecord
    obtain ⟨hid, hvalue⟩ := hfacts record hrecord
    exact ⟨hid, hvalue, Or.inl ⟨record, hrecord, rfl⟩, fun id hid => Or.inl ⟨record, hrecord, hid⟩⟩
  · exact fun slot => rfl
  · intro draft
    constructor
    · exact fun hseen => by cases hseen
    · rintro ⟨other, hother, -⟩
      cases hother
  · exact fun slot => rfl

/-- The value of the active fact of a slot. -/
theorem Viewing.last_value (hviewing : Viewing event done resolution) (slot : String) :
    (activeFact resolution.records slot).map (fun record => record.write.value)
      = (offered ((activeFact event.records slot).map MemoryRecord.write)
          (firsts [] (writesOf slot done))).map Write.value := by
  have hvalue := congrArg (Option.map Write.value) (hviewing.view slot)
  rwa [Option.map_map, hviewing.active slot] at hvalue

end Step

/-- Where the resolution of an event returns, the value that it leaves active in each slot is what the
drafts of the slot give one after the other, if and only if in each slot the last draft that nothing
outranks is the one that is new last. -/
theorem last_fact_wins_iff {event : FactEvent}
    (hfacts : ∀ record ∈ event.records.rows, record.id = (identityOf record).id event.taskId
      ∧ (record.text? "normalized_value").isSome)
    (hids : ∀ identity other, event.Known identity → event.Known other →
      identity.id event.taskId = other.id event.taskId → identity = other)
    (hreturns : (resolve event.taskId event.records event.sourceOf event.drafts).2 = none) :
    (∀ slot, (activeFact (resolve event.taskId event.records event.sourceOf event.drafts).1.records
          slot).map (fun record => record.write.value)
        = (offered ((activeFact event.records slot).map MemoryRecord.write)
          (writesOf slot event.redacted)).map Write.value)
      ↔ ∀ slot, EndsNew (tops ((activeFact event.records slot).map MemoryRecord.write)
          (writesOf slot event.redacted)) := by
  have hend : Viewing event event.redacted
      (resolve event.taskId event.records event.sourceOf event.drafts).1 :=
    rounds_induction (fun hdraft hviewing hround => hviewing.round hids hdraft hround)
      (Viewing.start hfacts) (List.Subset.refl _) hreturns
  refine forall_congr' fun slot => ?_
  rw [hend.last_value, ← offered_firsts_value_eq_iff]

end Viewing

section Samples

local instance lastFactForms : UnicodeForms := Sample.asciiForms

local instance lastFactDigest : Sha256 := Sample.hexDigest

local instance lastFactAlphabet : Alphabet := ⟨fun _ => false⟩

local instance lastFactRedactor : Redactor := secretRedactor

/-- A read of one line leaves its value. -/
theorem last_fact_wins_of_read :
    (activeFact (resolve Sample.symbolEvent.taskId Sample.symbolEvent.records
          Sample.symbolEvent.sourceOf Sample.symbolEvent.drafts).1.records
            Sample.symbolDraft.slotKey).map (fun record => record.write.value)
        = (offered ((activeFact Sample.symbolEvent.records Sample.symbolDraft.slotKey).map
            MemoryRecord.write)
          (writesOf Sample.symbolDraft.slotKey Sample.symbolEvent.redacted)).map Write.value := by
  refine (last_fact_wins_iff (fun record hrecord => absurd hrecord List.not_mem_nil)
    Sample.symbolEvent_admitted.distinct.ids ?_).mpr (fun slot => ?_) _
  · rw [factRunsDigest, Sample.hexDigest_eq]
    decide +kernel
  · rw [Sample.symbolEvent_redacted]
    intro last hlast item hitem
    -- There is one write at most, and it is the last one.
    have hone : ∀ write ∈ tops ((activeFact Sample.symbolEvent.records slot).map MemoryRecord.write)
        (writesOf slot [Sample.symbolDraft]), write = Sample.symbolDraft.write := by
      intro write hwrite
      obtain ⟨draft, hdraft, rfl⟩ := List.mem_map.mp (List.mem_filter.mp hwrite).1
      rw [List.mem_singleton.mp (List.mem_filter.mp hdraft).1]
    rw [hone item hitem, hone last (List.mem_of_getLast? hlast)]

/-- The lines `x = 1`, `x = 2` and `x = 1` of one file. -/
def Sample.repeatedEvent : FactEvent :=
  { Sample.symbolEvent with
    drafts := [{ draft := Sample.symbolDraft, now := 0 },
      { draft := { Sample.symbolDraft with value := "2" }, now := 1 },
      { draft := Sample.symbolDraft, now := 2 }] }

/-- The last line is taken for the first one, so that the value of the second stays. -/
theorem repeated_value_lost :
    (resolve Sample.repeatedEvent.taskId Sample.repeatedEvent.records Sample.repeatedEvent.sourceOf
        Sample.repeatedEvent.drafts).2 = none
      ∧ (activeFact (resolve Sample.repeatedEvent.taskId Sample.repeatedEvent.records
          Sample.repeatedEvent.sourceOf Sample.repeatedEvent.drafts).1.records
            Sample.symbolDraft.slotKey).map (fun record => record.write.value) = some (some "2")
      ∧ (offered none (writesOf Sample.symbolDraft.slotKey Sample.repeatedEvent.redacted)).map
          Write.value = some (some "1") := by
  rw [lastFactDigest, Sample.hexDigest_eq]
  decide +kernel

end Samples

end PatchLoop
