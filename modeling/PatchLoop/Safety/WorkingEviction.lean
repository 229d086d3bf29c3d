import PatchLoop.Json.Sizes
import PatchLoop.Memory.WorkingMemory

/-!
# What the working memory gives up

The working memory gives up the fewest of its items and events, in the order of their ranks, and only where
what it may not give up is too large already does a change of it fail.
-/

namespace PatchLoop

namespace WorkingMemory

/-- The memory without these items and events. -/
def without (memory : WorkingMemory) (given : List Choice) : WorkingMemory :=
  { memory with
    items := memory.items.filter fun item => ! (mayEvict item && decide (itemChoice item ∈ given))
    phaseEvents := memory.phaseEvents.filter fun event => eventChoice event ∉ given
    evictedCount := memory.evictedCount + given.length }

/-- The memory without all that it may give up. -/
def bare (memory : WorkingMemory) : WorkingMemory := memory.without memory.choices

/-! ### The choices -/

theorem mem_choices {memory : WorkingMemory} {choice : Choice} : choice ∈ memory.choices
    ↔ (∃ item ∈ memory.items.rows, mayEvict item = true ∧ itemChoice item = choice)
      ∨ ∃ event ∈ memory.phaseEvents.rows, eventChoice event = choice := by
  simp only [choices, List.mem_append, List.mem_map, List.mem_filter, and_assoc]

/-- A choice tells the key of its item. -/
theorem key_eq_of_itemChoice {item other : WorkingMemoryItem} (hsame : itemChoice item = itemChoice other) :
    item.key = other.key :=
  congrArg (fun choice : Choice => (ofLex (ofLex (ofLex choice).2).2).1) hsame

theorem callId_eq_of_eventChoice {event other : WorkingMemoryEvent}
    (hsame : eventChoice event = eventChoice other) : event.callId = other.callId :=
  congrArg (fun choice : Choice => (ofLex (ofLex (ofLex choice).2).2).1) hsame

/-- The choice of an item is not that of an event. -/
theorem itemChoice_ne_eventChoice (item : WorkingMemoryItem) (event : WorkingMemoryEvent) :
    itemChoice item ≠ eventChoice event := by
  intro hsame
  have htype := congrArg (fun choice : Choice => (ofLex (ofLex (ofLex choice).2).2).2) hsame
  exact absurd htype (by decide : "item" ≠ "event")

theorem item_eq_of_key {memory : WorkingMemory} {item other : WorkingMemoryItem}
    (hitem : item ∈ memory.items.rows) (hother : other ∈ memory.items.rows) (hkey : item.key = other.key) :
    item = other :=
  List.inj_on_of_nodup_map memory.items.nodup hitem hother hkey

theorem event_eq_of_callId {memory : WorkingMemory} {event other : WorkingMemoryEvent}
    (hevent : event ∈ memory.phaseEvents.rows) (hother : other ∈ memory.phaseEvents.rows)
    (hcall : event.callId = other.callId) : event = other :=
  List.inj_on_of_nodup_map memory.phaseEvents.nodup hevent hother hcall

theorem choices_nodup (memory : WorkingMemory) : memory.choices.Nodup := by
  refine List.nodup_append.mpr ⟨?_, ?_, ?_⟩
  · have hrows := memory.items.nodup.of_map.filter mayEvict
    refine hrows.map_on fun item hitem other hother hsame => ?_
    exact item_eq_of_key (List.mem_filter.mp hitem).1 (List.mem_filter.mp hother).1
      (key_eq_of_itemChoice hsame)
  · refine memory.phaseEvents.nodup.of_map.map_on fun event hevent other hother hsame => ?_
    exact event_eq_of_callId hevent hother (callId_eq_of_eventChoice hsame)
  · intro choice hitem other hevent hsame
    obtain ⟨item, -, rfl⟩ := List.mem_map.mp hitem
    obtain ⟨event, -, rfl⟩ := List.mem_map.mp hevent
    exact itemChoice_ne_eventChoice item event hsame

/-! ### One eviction -/

/-- What an eviction leaves of the items. -/
theorem rows_items_evict {memory : WorkingMemory} {choice : Choice} (hchoice : choice ∈ memory.choices) :
    (memory.evict choice).items.rows
      = memory.items.rows.filter fun item => ! (mayEvict item && decide (itemChoice item = choice)) := by
  rcases mem_choices.mp hchoice with ⟨evicted, hrow, hmay, rfl⟩ | ⟨event, -, rfl⟩
  · change memory.items.rows.filter (fun item => decide (item.key ≠ evicted.key)) = _
    refine List.filter_congr fun item hitem => ?_
    by_cases hkey : item.key = evicted.key
    · obtain rfl := item_eq_of_key hitem hrow hkey
      simp [hmay]
    · have hne : itemChoice item ≠ itemChoice evicted := fun hsame => hkey (key_eq_of_itemChoice hsame)
      simp [hkey, hne]
  · change memory.items.rows = _
    symm
    refine List.filter_eq_self.mpr fun item _ => ?_
    simp [itemChoice_ne_eventChoice item event]

/-- What an eviction leaves of the events. -/
theorem rows_events_evict {memory : WorkingMemory} {choice : Choice} (hchoice : choice ∈ memory.choices) :
    (memory.evict choice).phaseEvents.rows
      = memory.phaseEvents.rows.filter fun event => eventChoice event ≠ choice := by
  rcases mem_choices.mp hchoice with ⟨evicted, -, -, rfl⟩ | ⟨evicted, hrow, rfl⟩
  · change memory.phaseEvents.rows = _
    symm
    refine List.filter_eq_self.mpr fun event _ => ?_
    exact decide_eq_true (Ne.symm (itemChoice_ne_eventChoice evicted event))
  · change memory.phaseEvents.rows.filter (fun event => decide (event.callId ≠ evicted.callId)) = _
    refine List.filter_congr fun event hevent => ?_
    by_cases hcall : event.callId = evicted.callId
    · obtain rfl := event_eq_of_callId hevent hrow hcall
      simp
    · have hne : eventChoice event ≠ eventChoice evicted :=
        fun hsame => hcall (callId_eq_of_eventChoice hsame)
      simp [hcall, hne]

theorem mem_choices_evict {memory : WorkingMemory} {choice other : Choice}
    (hchoice : choice ∈ memory.choices) :
    other ∈ (memory.evict choice).choices ↔ other ∈ memory.choices ∧ other ≠ choice := by
  rw [mem_choices, mem_choices, rows_items_evict hchoice, rows_events_evict hchoice]
  constructor
  · rintro (⟨item, hitem, hmay, rfl⟩ | ⟨event, hevent, rfl⟩)
    · obtain ⟨hrow, hkept⟩ := List.mem_filter.mp hitem
      exact ⟨Or.inl ⟨item, hrow, hmay, rfl⟩, by simpa [hmay] using hkept⟩
    · obtain ⟨hrow, hkept⟩ := List.mem_filter.mp hevent
      exact ⟨Or.inr ⟨event, hrow, rfl⟩, of_decide_eq_true hkept⟩
  · rintro ⟨⟨item, hrow, hmay, rfl⟩ | ⟨event, hrow, rfl⟩, hne⟩
    · exact Or.inl ⟨item, List.mem_filter.mpr ⟨hrow, by simp [hmay, hne]⟩, hmay, rfl⟩
    · exact Or.inr ⟨event, List.mem_filter.mpr ⟨hrow, decide_eq_true hne⟩, rfl⟩

/-- An eviction takes its choice away, and no other. -/
theorem evicts : Shedding.Evicts choices evict := by
  intro memory choice hchoice
  have hgone : choice ∉ (memory.evict choice).choices :=
    fun hmem => (mem_choices_evict hchoice).mp hmem |>.2 rfl
  refine (List.perm_ext_iff_of_nodup memory.choices_nodup ?_).mpr fun other => ?_
  · exact List.nodup_cons.mpr ⟨hgone, choices_nodup _⟩
  · rw [List.mem_cons, mem_choices_evict hchoice]
    by_cases hsame : other = choice
    · simp [hsame, hchoice]
    · simp [hsame]

/-! ### Some evictions -/

theorem without_evict {memory : WorkingMemory} {choice : Choice} (hchoice : choice ∈ memory.choices)
    (rest : List Choice) : (memory.evict choice).without rest = memory.without (choice :: rest) := by
  have hitems : (memory.evict choice).items.filter
        (fun item => ! (mayEvict item && decide (itemChoice item ∈ rest)))
      = memory.items.filter fun item => ! (mayEvict item && decide (itemChoice item ∈ choice :: rest)) := by
    apply Table.ext
    change (memory.evict choice).items.rows.filter _ = memory.items.rows.filter _
    rw [rows_items_evict hchoice, List.filter_filter]
    refine List.filter_congr fun item _ => ?_
    by_cases hsame : itemChoice item = choice
    · simp +contextual [hsame]
    · simp [hsame]
  have hevents : (memory.evict choice).phaseEvents.filter (fun event => decide (eventChoice event ∉ rest))
      = memory.phaseEvents.filter fun event => eventChoice event ∉ choice :: rest := by
    apply Table.ext
    change (memory.evict choice).phaseEvents.rows.filter _ = memory.phaseEvents.rows.filter _
    rw [rows_events_evict hchoice, List.filter_filter]
    refine List.filter_congr fun event _ => ?_
    by_cases hsame : eventChoice event = choice
    · simp [hsame]
    · simp [hsame]
  have hcount : (memory.evict choice).evictedCount + rest.length
      = memory.evictedCount + (choice :: rest).length := by
    rw [List.length_cons]
    change memory.evictedCount + 1 + rest.length = _
    omega
  rw [without, without, hitems, hevents, hcount]
  rfl

theorem without_nil (memory : WorkingMemory) : memory.without [] = memory := by
  have hitems : memory.items.filter (fun item => ! (mayEvict item && decide (itemChoice item ∈ [])))
      = memory.items :=
    Table.ext (List.filter_eq_self.mpr fun item _ => by simp)
  have hevents : memory.phaseEvents.filter (fun event => decide (eventChoice event ∉ []))
      = memory.phaseEvents :=
    Table.ext (List.filter_eq_self.mpr fun event _ => by simp)
  rw [without, hitems, hevents]
  rfl

/-- What is given up one after the other is missing afterwards. -/
theorem foldl_evict {memory : WorkingMemory} {given : List Choice} (hnodup : given.Nodup)
    (hgiven : ∀ choice ∈ given, choice ∈ memory.choices) :
    given.foldl evict memory = memory.without given := by
  induction given generalizing memory with
  | nil => rw [List.foldl_nil, without_nil]
  | cons choice rest ih =>
      obtain ⟨hfresh, hrest⟩ := List.nodup_cons.mp hnodup
      have hchoice : choice ∈ memory.choices := hgiven choice List.mem_cons_self
      rw [List.foldl_cons, ih hrest, without_evict hchoice]
      intro other hother
      refine (mem_choices_evict hchoice).mpr ⟨hgiven other (List.mem_cons_of_mem choice hother), ?_⟩
      rintro rfl
      exact hfresh hother

/-- What is given up, in its order. -/
def inOrder (memory : WorkingMemory) : List Choice := Shedding.ordered choices memory

/-- The memory without the first of its choices. -/
def after (memory : WorkingMemory) (count : Nat) : WorkingMemory :=
  memory.without (memory.inOrder.take count)

theorem stage_eq (memory : WorkingMemory) (count : Nat) :
    Shedding.stage choices evict memory count = memory.after count := by
  have hperm : memory.inOrder.Perm memory.choices := List.perm_insertionSort _ _
  refine foldl_evict ?_ fun choice hchoice => hperm.mem_iff.mp (List.mem_of_mem_take hchoice)
  exact (hperm.nodup_iff.mpr memory.choices_nodup).sublist (List.take_sublist _ _)

theorem stage_all (memory : WorkingMemory) :
    Shedding.stage choices evict memory memory.choices.length = memory.bare := by
  have hperm : memory.inOrder.Perm memory.choices := List.perm_insertionSort _ _
  rw [stage_eq, after, List.take_of_length_le (Nat.le_of_eq hperm.length_eq), bare, without, without,
    hperm.length_eq]
  simp only [hperm.mem_iff]

/-! ### Sizes -/

/-- A memory that has no item and no event that the other lacks. -/
structure Within (fewer memory : WorkingMemory) : Prop where
  items : fewer.items.rows.Sublist memory.items.rows
  events : fewer.phaseEvents.rows.Sublist memory.phaseEvents.rows
  tokenBudget : fewer.tokenBudget = memory.tokenBudget
  revision : fewer.revision = memory.revision

/-- Where more is given up, less is left. -/
theorem within_bare (memory : WorkingMemory) (count : Nat) : Within memory.bare (memory.after count) := by
  have hperm : memory.inOrder.Perm memory.choices := List.perm_insertionSort _ _
  have hgiven : ∀ choice ∈ memory.inOrder.take count, choice ∈ memory.choices :=
    fun choice hchoice => hperm.mem_iff.mp (List.mem_of_mem_take hchoice)
  refine ⟨List.monotone_filter_right _ fun item hkept => ?_,
    List.monotone_filter_right _ fun event hkept => ?_, rfl, rfl⟩
  · rw [Bool.not_eq_true', Bool.and_eq_false_iff, decide_eq_false_iff_not] at hkept ⊢
    exact hkept.imp_right fun hfresh hmem => hfresh (hgiven _ hmem)
  · rw [decide_eq_true_iff] at hkept ⊢
    exact fun hmem => hkept (hgiven _ hmem)

section Sizes

variable {fewer memory : WorkingMemory}

theorem textsOfKind_subperm (hwithin : Within fewer memory) (kind : WorkingMemoryItemKind) :
    (fewer.textsOfKind kind).Subperm (memory.textsOfKind kind) := by
  have hperm : ∀ m : WorkingMemory, (m.textsOfKind kind).Perm
      ((m.items.rows.filter (·.kind = kind)).map WorkingMemoryItem.text) :=
    fun m => ((List.perm_insertionSort _ _).filter _).map _
  have hsub := ((hwithin.items.filter fun item => decide (item.kind = kind)).map
    WorkingMemoryItem.text).subperm
  exact (hperm fewer).subperm.trans (hsub.trans (hperm memory).symm.subperm)

theorem labelled_le (hwithin : Within fewer memory) (kind : WorkingMemoryItemKind × String) :
    Json.fieldBytes (fewer.labelled kind).toList ≤ Json.fieldBytes (memory.labelled kind).toList := by
  obtain ⟨kind, label⟩ := kind
  have htexts := textsOfKind_subperm hwithin kind
  unfold labelled
  dsimp only
  rw [hwithin.tokenBudget]
  by_cases hsmall : memory.tokenBudget < 256 ∧ (kind = .keyEvidence ∨ kind = .recentResult)
  · rw [if_pos hsmall, if_pos hsmall]
  · rw [if_neg hsmall, if_neg hsmall]
    by_cases hnone : fewer.textsOfKind kind = []
    · rw [if_pos hnone]
      exact Nat.zero_le _
    · have hsome : memory.textsOfKind kind ≠ [] := by
        intro hnil
        rw [hnil] at htexts
        exact hnone (List.subperm_nil.mp htexts)
      rw [if_neg hnone, if_neg hsome]
      obtain ⟨middle, hperm, hsublist⟩ := htexts
      exact Json.fieldBytes_singleton_le
        (Json.size_arr_le ⟨middle.map Json.str, hperm.map Json.str, hsublist.map Json.str⟩)

theorem contextPayload_le (hwithin : Within fewer memory) :
    fewer.contextPayload.size ≤ memory.contextPayload.size := by
  have hlabels : Json.fieldBytes (WorkingMemoryItemKind.labels.filterMap fewer.labelled)
      ≤ Json.fieldBytes (WorkingMemoryItemKind.labels.filterMap memory.labelled) :=
    Json.fieldBytes_filterMap_le fun kind _ => labelled_le hwithin kind
  have hevents : Json.fieldBytes
        (if fewer.phaseEvents.rows ≠ [] ∧ 256 ≤ memory.tokenBudget then
          [("recent_events", .arr (fewer.phaseEvents.rows.map eventJson))] else [])
      ≤ Json.fieldBytes
        (if memory.phaseEvents.rows ≠ [] ∧ 256 ≤ memory.tokenBudget then
          [("recent_events", .arr (memory.phaseEvents.rows.map eventJson))] else []) := by
    by_cases hshown : fewer.phaseEvents.rows ≠ [] ∧ 256 ≤ memory.tokenBudget
    · have hsome : memory.phaseEvents.rows ≠ [] := by
        intro hnil
        have hsub := hwithin.events
        rw [hnil] at hsub
        exact hshown.1 (List.sublist_nil.mp hsub)
      rw [if_pos hshown, if_pos ⟨hsome, hshown.2⟩]
      exact Json.fieldBytes_singleton_le (Json.size_arr_le (hwithin.events.map eventJson).subperm)
    · rw [if_neg hshown]
      exact Nat.zero_le _
  unfold contextPayload
  refine Json.size_obj_le ?_
  rw [Json.fieldBytes_append, Json.fieldBytes_append, Json.fieldBytes_append, Json.fieldBytes_append,
    hwithin.tokenBudget, hwithin.revision]
  exact Nat.add_le_add (Nat.add_le_add_left hlabels _) hevents

theorem estimateCurrent_le (hwithin : Within fewer memory) :
    fewer.estimateCurrent ≤ memory.estimateCurrent := by
  have hsize := contextPayload_le hwithin
  have hbytes : ∀ m : WorkingMemory,
      m.render.utf8ByteSize = workingMemoryPrefix.utf8ByteSize + m.contextPayload.size :=
    fun m => String.utf8ByteSize_append
  rw [estimateCurrent, estimateCurrent, estimateText, estimateText, hbytes, hbytes]
  omega

end Sizes

/-! ### All evictions -/

/-- A memory gives up the fewest of its items and events, in the order of their ranks, steps and names,
after which it fits. It fails exactly if it does not fit without any of them. -/
theorem rebalance_exact (memory : WorkingMemory) :
    (∃ count ≤ memory.choices.length,
        memory.rebalance = .ok { memory.after count with
          maxEstimatedTokens := max memory.maxEstimatedTokens (memory.after count).estimateCurrent }
        ∧ memory.bare.fits = true ∧ (memory.after count).fits = true
        ∧ ∀ fewer < count, (memory.after fewer).fits = false)
      ∨ (∃ text, memory.rebalance = .error (.budgetError text)) ∧ memory.bare.fits = false := by
  rcases @Shedding.shed_cases _ _ _ fits _ _ evicts _ _ (Nat.le_refl memory.choices.length) with
    ⟨count, hcount, hshed, hfits, hbefore⟩ | ⟨hshed, hnever⟩
  · rw [stage_eq] at hshed hfits
    have hbare : memory.bare.fits = true := by
      refine decide_eq_true ?_
      calc memory.bare.estimateCurrent ≤ (memory.after count).estimateCurrent :=
            estimateCurrent_le (within_bare memory count)
        _ ≤ (memory.after count).tokenBudget := of_decide_eq_true hfits
    refine Or.inl ⟨count, hcount, ?_, hbare, hfits, fun fewer hfewer => ?_⟩
    · rw [rebalance, hshed]
      rfl
    · rw [← stage_eq]
      exact hbefore fewer hfewer
  · refine Or.inr ⟨?_, ?_⟩
    · rw [rebalance, hshed]
      exact ⟨_, rfl⟩
    · rw [← stage_all]
      exact hnever _ (Nat.le_refl _)

end WorkingMemory

end PatchLoop
