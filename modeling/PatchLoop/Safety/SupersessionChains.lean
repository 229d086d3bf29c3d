import PatchLoop.Lib.Chains
import PatchLoop.Memory.Semantic
import PatchLoop.Safety.MemoryCompression

/-!
# Supersession chains

`validate_supersession_chain` looks at every record and its two neighbours, and walks back from every record.
It accepts exactly the records that are put together from chains of supersession.
-/

namespace PatchLoop

theorem find?_id {records : List MemoryRecord} (hnodup : (records.map MemoryRecord.id).Nodup)
    {record : MemoryRecord} (hmem : record ∈ records) :
    records.find? (·.id = record.id) = some record := by
  have hget : (⟨records, hnodup⟩ : Table MemoryRecord).get? record.id = some record :=
    Table.get?_of_mem hmem
  exact hget

/-! ### What is accepted -/

/-- Records of one task, kind and scope. -/
def SameBoundary (first second : MemoryRecord) : Prop :=
  first.taskId = second.taskId ∧ first.kind = second.kind
    ∧ first.scope = second.scope ∧ first.scopeId = second.scopeId

/-- Records of which each replaces the one before it, from an original one to a current one. -/
structure SupersessionChain (chain : List MemoryRecord) : Prop where
  nonempty : chain ≠ []
  original : ∀ record ∈ chain.head?, record.supersedesId = none
  current : ∀ record ∈ chain.getLast?, record.supersededById = none
  linked : chain.IsChain fun previous record =>
    previous.supersededById = some record.id ∧ record.supersedesId = some previous.id
  boundary : chain.Pairwise SameBoundary
  times : chain.Pairwise fun previous record => previous.createdAt ≤ record.createdAt

/-- Records of distinct ids that are put together from chains. -/
structure Decomposes (records : List MemoryRecord) : Prop where
  nodup : (records.map MemoryRecord.id).Nodup
  chains : ∃ chains : List (List MemoryRecord), chains.flatten.Perm records
    ∧ ∀ chain ∈ chains, SupersessionChain chain

theorem Decomposes.perm {records others : List MemoryRecord} (hdecomposes : Decomposes records)
    (hperm : others.Perm records) : Decomposes others := by
  obtain ⟨hnodup, chains, hchains, hall⟩ := hdecomposes
  exact ⟨(hperm.map MemoryRecord.id).nodup_iff.mpr hnodup, chains, hchains.trans hperm.symm, hall⟩

/-! ### The checks of neighbours -/

section Neighbours

variable {records : List MemoryRecord}

theorem checkPrevious_eq_ok {record : MemoryRecord} :
    checkPrevious records record = .ok ()
      ↔ ∀ id, record.supersedesId = some id → ∃ previous, records.find? (·.id = id) = some previous
        ∧ previous.supersededById = some record.id ∧ SameBoundary previous record
        ∧ previous.createdAt ≤ record.createdAt := by
  unfold checkPrevious
  cases record.supersedesId with
  | none => simp
  | some id =>
      cases hfind : records.find? (·.id = id) with
      | none => simp [hfind]
      | some previous =>
          simp only [Option.some.injEq, forall_eq', hfind, exists_eq_left', Except.bind_eq_ok_iff,
            requireThat_eq_ok]
          constructor
          · rintro ⟨_, hback, _, hboundary, htimes⟩
            exact ⟨hback, hboundary, htimes⟩
          · rintro ⟨hback, hboundary, htimes⟩
            exact ⟨(), hback, (), hboundary, htimes⟩

theorem checkReplacement_eq_ok {record : MemoryRecord} :
    checkReplacement records record = .ok ()
      ↔ ∀ id, record.supersededById = some id → ∃ replacement, records.find? (·.id = id) = some replacement
        ∧ replacement.supersedesId = some record.id := by
  unfold checkReplacement
  cases record.supersededById with
  | none => simp
  | some id =>
      cases hfind : records.find? (·.id = id) with
      | none => simp [hfind]
      | some replacement => simp [hfind, requireThat_eq_ok]

theorem find?_eq_some_iff (hnodup : (records.map MemoryRecord.id).Nodup) {id : String}
    {record : MemoryRecord} :
    records.find? (·.id = id) = some record ↔ record ∈ records ∧ record.id = id := by
  constructor
  · intro hfind
    exact ⟨List.mem_of_find?_eq_some hfind, by simpa using List.find?_some hfind⟩
  · rintro ⟨hmem, rfl⟩
    exact find?_id hnodup hmem

/-- The links of the records, as their neighbours are checked. -/
abbrev Links (records : List MemoryRecord) : Prop :=
  Chains.Bidirectional MemoryRecord.supersedesId MemoryRecord.supersededById records

/-- A record stays within the boundary of the one that it supersedes, and is not older. -/
def Succeeds (previous record : MemoryRecord) : Prop :=
  SameBoundary previous record ∧ previous.createdAt ≤ record.createdAt

theorem checks_eq_ok (hnodup : (records.map MemoryRecord.id).Nodup) :
    (∀ record ∈ records, checkPrevious records record = .ok () ∧ checkReplacement records record = .ok ())
      ↔ Links records ∧ ∀ record ∈ records, ∀ previous ∈ records,
        record.supersedesId = some previous.id → Succeeds previous record := by
  simp only [checkPrevious_eq_ok, checkReplacement_eq_ok, find?_eq_some_iff hnodup]
  constructor
  · intro hchecks
    refine ⟨⟨hnodup, fun record hrecord id hid => ?_, fun record hrecord id hid => ?_⟩, ?_⟩
    · obtain ⟨previous, ⟨hmem, hkey⟩, hback, -⟩ := (hchecks record hrecord).1 id hid
      exact ⟨previous, hmem, hkey, hback⟩
    · obtain ⟨replacement, ⟨hmem, hkey⟩, hback⟩ := (hchecks record hrecord).2 id hid
      exact ⟨replacement, hmem, hkey, hback⟩
    · intro record hrecord previous hprevious hid
      obtain ⟨found, ⟨hmem, hkey⟩, -, hsucceeds⟩ := (hchecks record hrecord).1 previous.id hid
      obtain rfl := List.inj_on_of_nodup_map hnodup hmem hprevious hkey
      exact hsucceeds
  · rintro ⟨hlinks, hsucceeds⟩ record hrecord
    constructor
    · intro id hid
      obtain ⟨previous, hmem, rfl, hback⟩ := hlinks.back record hrecord id hid
      exact ⟨previous, ⟨hmem, rfl⟩, hback, hsucceeds record hrecord previous hmem hid⟩
    · intro id hid
      obtain ⟨replacement, hmem, hkey, hback⟩ := hlinks.forth record hrecord id hid
      exact ⟨replacement, ⟨hmem, hkey⟩, hback⟩

end Neighbours

/-! ### The walks -/

section Walking

variable {records : List MemoryRecord}

/-- `by_id.get(current.supersedes_id)` -/
def previousIn (records : List MemoryRecord) (record : MemoryRecord) : Option MemoryRecord :=
  record.supersedesId.bind fun previousId => records.find? (·.id = previousId)

/-- What is raised depends on whether the walk ends. -/
theorem walkChain_of_walk {steps : Nat} {visited : List String} {current : Option MemoryRecord} {ends : Bool}
    (hwalk : Chains.walk (previousIn records) steps visited current = some ends) :
    walkChain records steps visited current = .ok () ↔ ends = true := by
  induction steps generalizing visited current with
  | zero =>
      cases current with
      | none =>
          cases hwalk
          exact iff_of_true rfl rfl
      | some record => cases hwalk
  | succ steps ih =>
      cases current with
      | none =>
          cases hwalk
          exact iff_of_true rfl rfl
      | some record =>
          by_cases hagain : Keyed.key record ∈ visited
          · rw [Chains.walk, if_pos hagain] at hwalk
            rw [walkChain, if_pos (show record.id ∈ visited from hagain)]
            cases hwalk
            simp
          · rw [Chains.walk, if_neg hagain] at hwalk
            rw [walkChain, if_neg (show record.id ∉ visited from hagain)]
            exact ih hwalk

theorem previousIn_mem {record previous : MemoryRecord} (hprevious : previous ∈ previousIn records record) :
    previous ∈ records := by
  obtain ⟨id, -, hfind⟩ := Option.bind_eq_some_iff.mp hprevious
  exact List.mem_of_find?_eq_some hfind

/-- A walk from a record is over after as many steps as there are records, and one more. -/
theorem walk_ends {origin : MemoryRecord} (hmem : origin ∈ records) {steps : Nat}
    (hsteps : records.length < steps) :
    ∃ ends, Chains.walk (previousIn records) steps [] (some origin) = some ends := by
  refine Chains.exists_walk (fun _ _ _ => previousIn_mem) List.nodup_nil (List.nil_subset _) ?_ ?_
  · rw [List.length_nil]
    omega
  · intro record hrecord
    rwa [← Option.some.inj hrecord]

theorem previousIn_eq_some_iff (hnodup : (records.map MemoryRecord.id).Nodup)
    {record previous : MemoryRecord} :
    previousIn records record = some previous
      ↔ Chains.Back MemoryRecord.supersedesId records previous record := by
  rw [previousIn, Option.bind_eq_some_iff]
  simp only [find?_eq_some_iff hnodup]
  constructor
  · rintro ⟨id, hid, hmem, rfl⟩
    exact ⟨hmem, hid⟩
  · rintro ⟨hmem, hid⟩
    exact ⟨previous.id, hid, hmem, rfl⟩

/-- The walk from a record is accepted exactly if one cannot go back from it for ever. -/
theorem walkChain_eq_ok_iff (hnodup : (records.map MemoryRecord.id).Nodup) {origin : MemoryRecord}
    (hmem : origin ∈ records) {steps : Nat} (hsteps : records.length < steps) :
    walkChain records steps [] (some origin) = .ok ()
      ↔ Acc (Chains.Back MemoryRecord.supersedesId records) origin := by
  have hback : (fun previous record => previousIn records record = some previous)
      = Chains.Back MemoryRecord.supersedesId records :=
    funext₂ fun previous record => propext (previousIn_eq_some_iff hnodup)
  obtain ⟨ends, hwalk⟩ := walk_ends hmem hsteps
  rw [walkChain_of_walk hwalk, ← hback]
  constructor
  · rintro rfl
    exact Chains.acc_of_walk hwalk
  · intro hacc
    have hkeys : ∀ first ∈ records, ∀ second ∈ records, first.id = second.id → first = second :=
      fun first hfirst second hsecond => List.inj_on_of_nodup_map hnodup hfirst hsecond
    have hne : Chains.walk (previousIn records) steps [] (some origin) ≠ some false :=
      Chains.walk_ne_false hacc hkeys (fun _ _ _ => previousIn_mem) hmem (by simp)
    rw [hwalk] at hne
    simpa using hne

end Walking

/-! ### Chains -/

section Chained

variable {records : List MemoryRecord}

/-- What the validator checks, of one record after the other. -/
theorem validateSupersessionChain_eq_ok :
    validateSupersessionChain records = .ok ()
      ↔ (records.map MemoryRecord.id).Nodup ∧ Links records
        ∧ (∀ record ∈ records, ∀ previous ∈ records,
          record.supersedesId = some previous.id → Succeeds previous record)
        ∧ ∀ record ∈ records, Acc (Chains.Back MemoryRecord.supersedesId records) record := by
  have hchecks : (records.forM fun record => do
      checkPrevious records record
      checkReplacement records record) = .ok ()
      ↔ ∀ record ∈ records,
        checkPrevious records record = .ok () ∧ checkReplacement records record = .ok () := by
    rw [Except.forM_eq_ok_iff]
    refine forall₂_congr fun record _ => ?_
    rw [Except.bind_eq_ok_iff]
    exact ⟨fun ⟨_, hprevious, hreplacement⟩ => ⟨hprevious, hreplacement⟩,
      fun ⟨hprevious, hreplacement⟩ => ⟨(), hprevious, hreplacement⟩⟩
  have hwalks (hnodup : (records.map MemoryRecord.id).Nodup) :
      (records.forM fun origin => walkChain records (records.length + 1) [] (some origin)) = .ok ()
        ↔ ∀ record ∈ records, Acc (Chains.Back MemoryRecord.supersedesId records) record := by
    rw [Except.forM_eq_ok_iff]
    exact forall₂_congr fun record hmem => walkChain_eq_ok_iff hnodup hmem (Nat.lt_succ_self _)
  unfold validateSupersessionChain
  rw [Except.bind_eq_ok_iff]
  constructor
  · rintro ⟨_, hdistinct, hrest⟩
    have hnodup := requireThat_eq_ok.mp hdistinct
    obtain ⟨_, hneighbours, hends⟩ := Except.bind_eq_ok_iff.mp hrest
    obtain ⟨hlinks, hsucceeds⟩ := (checks_eq_ok hnodup).mp (hchecks.mp hneighbours)
    exact ⟨hnodup, hlinks, hsucceeds, (hwalks hnodup).mp hends⟩
  · rintro ⟨hnodup, hlinks, hsucceeds, hends⟩
    refine ⟨(), requireThat_eq_ok.mpr hnodup, Except.bind_eq_ok_iff.mpr ⟨(), ?_, (hwalks hnodup).mpr hends⟩⟩
    exact hchecks.mpr ((checks_eq_ok hnodup).mpr ⟨hlinks, hsucceeds⟩)

instance : Trans Succeeds Succeeds Succeeds where
  trans := fun ⟨⟨htask, hkind, hscope, hscopeId⟩, htimes⟩ ⟨⟨htask', hkind', hscope', hscopeId'⟩, htimes'⟩ =>
    ⟨⟨htask.trans htask', hkind.trans hkind', hscope.trans hscope', hscopeId.trans hscopeId'⟩,
      htimes.trans htimes'⟩

/-- Along a chain of links the boundary stays and the times do not decrease. -/
theorem supersessionChain_of_isChain {chain : List MemoryRecord}
    (hchain : Chains.IsChain MemoryRecord.supersedesId MemoryRecord.supersededById chain)
    (hsucceeds : ∀ record ∈ chain, ∀ previous ∈ chain,
      record.supersedesId = some previous.id → Succeeds previous record) : SupersessionChain chain := by
  have hsteps : chain.IsChain Succeeds :=
    hchain.linked.imp_of_mem_imp fun previous record hprevious hrecord hlink =>
      hsucceeds record hrecord previous hprevious hlink.2
  have hall : chain.Pairwise Succeeds := List.isChain_iff_pairwise.mp hsteps
  exact ⟨hchain.nonempty, hchain.first, hchain.last, hchain.linked, hall.imp And.left, hall.imp And.right⟩

theorem SupersessionChain.isChain {chain : List MemoryRecord} (hchain : SupersessionChain chain) :
    Chains.IsChain MemoryRecord.supersedesId MemoryRecord.supersededById chain :=
  ⟨hchain.nonempty, hchain.original, hchain.current, hchain.linked⟩

/-- The validator accepts exactly the records that are put together from chains. -/
theorem validate_iff_decomposes :
    validateSupersessionChain records = .ok () ↔ Decomposes records := by
  rw [validateSupersessionChain_eq_ok]
  constructor
  · rintro ⟨hnodup, hlinks, hsucceeds, hacyclic⟩
    obtain ⟨chains, hperm, hchains⟩ := Chains.exists_chains hlinks hacyclic
    refine ⟨hnodup, chains, hperm, fun chain hchain => ?_⟩
    have hmem : ∀ record ∈ chain, record ∈ records := fun record hrecord =>
      hperm.mem_iff.mp (List.mem_flatten.mpr ⟨chain, hchain, hrecord⟩)
    exact supersessionChain_of_isChain (hchains chain hchain) fun record hrecord previous hprevious =>
      hsucceeds record (hmem record hrecord) previous (hmem previous hprevious)
  · rintro ⟨hnodup, chains, hperm, hchains⟩
    have hkeys : ∀ first ∈ records, ∀ second ∈ records, first.id = second.id → first = second :=
      fun first hfirst second hsecond => List.inj_on_of_nodup_map hnodup hfirst hsecond
    have hmem : ∀ chain ∈ chains, chain ⊆ records := fun chain hchain record hrecord =>
      hperm.mem_iff.mp (List.mem_flatten.mpr ⟨chain, hchain, hrecord⟩)
    refine ⟨hnodup, ?_, fun record hrecord previous hprevious hid => ?_, fun record hrecord => ?_⟩
    · exact Chains.bidirectional_of_chains hnodup hperm fun chain hchain => (hchains chain hchain).isChain
    · obtain ⟨chain, hchain, hin⟩ := List.mem_flatten.mp (hperm.mem_iff.mpr hrecord)
      obtain ⟨earlier, found, later, rfl, hkey, -⟩ :=
        (hchains chain hchain).isChain.stands_before hin hid
      obtain rfl := hkeys found (hmem _ hchain (by simp)) previous hprevious hkey
      have hboundary := (List.pairwise_append.mp (hchains _ hchain).boundary).2.1
      have htimes := (List.pairwise_append.mp (hchains _ hchain).times).2.1
      exact ⟨(List.pairwise_cons.mp hboundary).1 record List.mem_cons_self,
        (List.pairwise_cons.mp htimes).1 record List.mem_cons_self⟩
    · obtain ⟨chain, hchain, hin⟩ := List.mem_flatten.mp (hperm.mem_iff.mpr hrecord)
      exact (hchains chain hchain).isChain.acc hkeys (hmem chain hchain) record hin

/-- The walks of the validator end; it accepts exactly the records that are put together from chains, in
whatever order they are given. -/
theorem validateSupersessionChain_exact (records : List MemoryRecord) :
    (∀ origin ∈ records, ∀ steps, records.length < steps →
        ∃ ends, Chains.walk (previousIn records) steps [] (some origin) = some ends
          ∧ (walkChain records steps [] (some origin) = .ok () ↔ ends = true))
      ∧ (validateSupersessionChain records = .ok () ↔ Decomposes records)
      ∧ ∀ others : List MemoryRecord, others.Perm records →
        (validateSupersessionChain others = .ok () ↔ validateSupersessionChain records = .ok ()) := by
  refine ⟨fun origin horigin steps hsteps => ?_, validate_iff_decomposes, fun others hperm => ?_⟩
  · obtain ⟨ends, hwalk⟩ := walk_ends horigin hsteps
    exact ⟨ends, hwalk, walkChain_of_walk hwalk⟩
  · rw [validate_iff_decomposes, validate_iff_decomposes]
    exact ⟨fun hothers => hothers.perm hperm.symm, fun hrecords => hrecords.perm hperm⟩

end Chained

end PatchLoop
