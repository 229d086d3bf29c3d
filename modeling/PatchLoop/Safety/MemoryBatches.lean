import PatchLoop.Lib.Fallible
import PatchLoop.Memory.Store
import PatchLoop.Redaction
import PatchLoop.Safety.EpochRollover
import PatchLoop.Safety.MemoryCompression

/-!
# Batches of memory

What a batch that is accepted leaves in the memory store, and where every link of it names a record that is
there. A batch that is written once more changes nothing.
-/

namespace PatchLoop

open Interning Transaction

section Batches

variable [Sha256]

/-! ### What the writes do -/

omit [Sha256] in
theorem checked_returns {α : Type} {result : Except MemoryError α} {s s' : MemoryTables} {a : α} :
    Returns (checked result) s a s' ↔ result = .ok a ∧ s' = s := by
  cases result with
  | error e => exact iff_of_false throw_returns (by simp)
  | ok b =>
      rw [checked, pure_returns, Except.ok.injEq]
      exact and_congr_left' eq_comm

omit [Sha256] in
theorem keepIn_returns {α : Type} [Keyed α String] {read : MemoryTables → Table α}
    {write : MemoryTables → Table α → MemoryTables} {tag : α → String × String}
    {collision : MemoryStoreError} {item kept : α} {s s' : MemoryTables} :
    Returns (keepIn read write tag collision item) s kept s'
      ↔ ∃ table, keepFirst tag collision (read s) item = .ok (kept, table) ∧ s' = write s table := by
  unfold keepIn
  rw [bind_returns]
  constructor
  · rintro ⟨_, _, hget, hkeep⟩
    obtain ⟨rfl, rfl⟩ := get_returns.mp hget
    split at hkeep
    · rename_i found table hfound
      simp only [bind_returns, set_returns, pure_returns] at hkeep
      obtain ⟨-, -, rfl, rfl, rfl⟩ := hkeep
      exact ⟨table, hfound, rfl⟩
    · exact absurd hkeep throw_returns
  · rintro ⟨table, hkeep, rfl⟩
    refine ⟨s, s, get_returns.mpr ⟨rfl, rfl⟩, ?_⟩
    rw [hkeep]
    simp

/-- The ids are those of rows of a task. -/
def RowsOf {α : Type} [Keyed α String] (table : Table α) (taskOf : α → String) (taskId : String)
    (ids : List String) : Prop :=
  ∀ id ∈ ids, ∃ row, table.get? id = some row ∧ taskOf row = taskId

omit [Sha256] in
theorem requireRows_returns {α : Type} [Keyed α String] {read : MemoryTables → Table α}
    {taskOf : α → String} {ids : List String} {taskId unknownText foreignText : String}
    {s s' : MemoryTables} {u : Unit} :
    Returns (requireRows read taskOf ids taskId unknownText foreignText) s u s'
      ↔ RowsOf (read s) taskOf taskId ids ∧ s' = s := by
  have hmissing : ¬ (ids.filter fun id => ((read s).get? id).isNone).dedup ≠ []
      ↔ ∀ id ∈ ids, ∃ row, (read s).get? id = some row := by
    rw [not_not, List.dedup_eq_nil, List.filter_eq_nil_iff]
    refine forall₂_congr fun id _ => ?_
    rw [Bool.not_eq_true, Option.isNone_eq_false_iff, Option.isSome_iff_exists]
  unfold requireRows
  simp only [bind_returns, query_returns, raiseIf_returns]
  constructor
  · rintro ⟨_, _, ⟨rfl, rfl⟩, _, _, ⟨hsome, rfl⟩, hforeign, rfl⟩
    refine ⟨fun id hid => ?_, rfl⟩
    obtain ⟨row, hrow⟩ := hmissing.mp hsome id hid
    refine ⟨row, hrow, ?_⟩
    by_contra hne
    exact hforeign ⟨id, hid, row, hrow, hne⟩
  · rintro ⟨hrows, rfl⟩
    refine ⟨_, _, ⟨rfl, rfl⟩, (), _, ⟨hmissing.mpr fun id hid => ?_, rfl⟩, ?_, rfl⟩
    · obtain ⟨row, hrow, -⟩ := hrows id hid
      exact ⟨row, hrow⟩
    · rintro ⟨id, hid, row, hrow, hne⟩
      obtain ⟨found, hfound, htask⟩ := hrows id hid
      rw [Option.mem_def, hfound] at hrow
      exact hne (Option.some.inj hrow ▸ htask)

/-- What writing a record does: nothing where an equal one is there under another id. -/
theorem writeRecord_returns {record persisted : MemoryRecord} {s s' : MemoryTables}
    (hreturns : Returns (writeRecord record) s persisted s') :
    RowsOf s.sources SourcePointer.taskId record.taskId record.sourceIds
      ∧ ((holder recordTag s.records.rows (recordTag record) = some persisted
          ∧ persisted.id ≠ record.id ∧ s' = s)
        ∨ ((∀ row, holder recordTag s.records.rows (recordTag record) = some row → row.id = record.id)
          ∧ (∀ row, s.records.get? record.id = some row → recordIdentity row = recordIdentity record)
          ∧ persisted = record ∧ s' = { s with records := s.records.upsert record })) := by
  unfold writeRecord requireSources at hreturns
  simp only [bind_returns, requireRows_returns, get_returns] at hreturns
  obtain ⟨-, _, ⟨hsources, rfl⟩, _, _, ⟨rfl, rfl⟩, hreturns⟩ := hreturns
  refine ⟨hsources, ?_⟩
  split at hreturns
  · rename_i row hrow
    obtain ⟨hheld, hne⟩ := Option.filter_eq_some_iff.mp hrow
    obtain ⟨rfl, rfl⟩ := pure_returns.mp hreturns
    exact Or.inl ⟨hheld, by simpa using hne, rfl⟩
  · rename_i hnone
    simp only [bind_returns, raiseIf_returns, set_returns, pure_returns] at hreturns
    obtain ⟨-, _, ⟨hsame, rfl⟩, -, _, rfl, rfl, rfl⟩ := hreturns
    refine Or.inr ⟨fun row hrow => ?_, fun row hrow => ?_, rfl, rfl⟩
    · have hkept := Option.filter_eq_none_iff.mp hnone row hrow
      simpa using hkept
    · by_contra hne
      exact hsame ⟨row, hrow, hne⟩

/-! ### The sources -/

/-- The ids under which sources are stored that come after others. -/
def storedSources (stored sources : List SourcePointer) : IdMap :=
  sources.reverse.map fun source => (source.id, heldAs sourceTag (stored ++ sources) source)

/-- What saving sources does. -/
theorem saveSources_returns {sources persisted : List SourcePointer} {ids ids' : IdMap}
    {s s' : MemoryTables} (hreturns : Returns (saveSources sources ids) s (persisted, ids') s')
    {stored : List SourcePointer}
    (hstored : ∀ tag, holder sourceTag s.sources.rows tag = holder sourceTag stored tag) :
    s'.records = s.records ∧ s'.compactions = s.compactions
      ∧ (∀ tag, holder sourceTag s'.sources.rows tag = holder sourceTag (stored ++ sources) tag)
      ∧ ids' = (sources.reverse.map fun source =>
          (source.id, heldAs sourceTag (stored ++ sources) source)) ++ ids
      ∧ (∀ id source, s.sources.get? id = some source → s'.sources.get? id = some source)
      ∧ ((∀ source ∈ sources, (holder sourceTag s.sources.rows (sourceTag source)).isSome)
        → s'.sources = s.sources) := by
  induction sources generalizing ids s stored persisted with
  | nil =>
      obtain ⟨heq, rfl⟩ := pure_returns.mp hreturns
      cases heq
      exact ⟨rfl, rfl, by simpa using hstored, rfl, fun _ _ hget => hget, fun _ => rfl⟩
  | cons source rest ih =>
      unfold saveSources at hreturns
      simp only [bind_returns] at hreturns
      obtain ⟨kept, t, hwrite, ⟨others, ids''⟩, t', hrest, hreturn⟩ := hreturns
      obtain ⟨heq, rfl⟩ := pure_returns.mp hreturn
      cases heq
      obtain ⟨table, hkept, rfl⟩ := keepIn_returns.mp hwrite
      have hnext : ∀ tag, holder sourceTag table.rows tag = holder sourceTag (stored ++ [source]) tag := by
        intro tag
        rw [holder_keepFirst hkept, holder_append, holder_append, hstored]
      have hall : stored ++ [source] ++ rest = stored ++ source :: rest := by simp
      obtain ⟨hrecords, hcompactions, hholders, hids, hgets, hsame⟩ := ih hrest hnext
      rw [hall] at hholders hids
      have hheld : heldAs sourceTag (stored ++ source :: rest) source = kept.id := by
        refine heldAs_of_holder ?_
        rw [← hall, holder_append, ← hnext, keepFirst_holder hkept]
        rfl
      refine ⟨hrecords, hcompactions, hholders, ?_, fun id old hold => hgets id old ?_, fun hthere => ?_⟩
      · rw [hids, List.reverse_cons, List.map_append, List.append_assoc]
        simp [hheld]
      · rcases keepFirst_eq_ok hkept with ⟨-, rfl⟩ | ⟨-, rfl, hrows⟩
        · exact hold
        · rw [Table.get?, hrows, List.find?_append]
          exact congrArg (Option.or · _) hold
      · obtain ⟨hfirst, hothers⟩ := List.forall_mem_cons.mp hthere
        rcases keepFirst_eq_ok hkept with ⟨-, rfl⟩ | ⟨hnone, -, -⟩
        · exact hsame hothers
        · rw [hnone] at hfirst
          cases hfirst

/-! ### The records -/

/-- The records that are written: those that are held under their own ids, as they are renamed by what comes
before them. -/
def writtenRecords (held : MemoryRecord → String) (sourceIds : IdMap) :
    IdMap → List MemoryRecord → List MemoryRecord
  | _, [] => []
  | ids, record :: rest =>
      (if held record = record.id then [record.renamed sourceIds ids] else [])
        ++ writtenRecords held sourceIds ((record.id, held record) :: ids) rest

/-- A record with the sources that stand for its own. -/
abbrev MemoryRecord.resolved (sourceIds : IdMap) (record : MemoryRecord) : MemoryRecord :=
  record.renamed sourceIds []

/-- The rows of a table say of which task they are, as do their identities. -/
def Apart (taskId : String) (records : Table MemoryRecord) : Prop :=
  ∀ row ∈ records.rows, ∀ record : MemoryRecord, record.taskId = taskId →
    recordIdentity record = recordIdentity row → row.taskId = taskId

theorem Apart.upsert {taskId : String} {records : Table MemoryRecord} (hapart : Apart taskId records)
    {record : MemoryRecord} (htask : record.taskId = taskId) : Apart taskId (records.upsert record) := by
  intro row hrow other hother hidentity
  rcases Table.mem_upsert hrow with rfl | hold
  · exact htask
  · exact hapart row hold other hother hidentity

/-- Every row of a table stays there under its id, as one of its task. -/
def Kept (before after : Table MemoryRecord) : Prop :=
  ∀ id row, before.get? id = some row → ∃ kept, after.get? id = some kept ∧ kept.taskId = row.taskId

omit [Sha256] in
theorem Kept.refl (records : Table MemoryRecord) : Kept records records := fun _ row hrow => ⟨row, hrow, rfl⟩

omit [Sha256] in
theorem Kept.trans {first second third : Table MemoryRecord} (hfirst : Kept first second)
    (hsecond : Kept second third) : Kept first third := by
  intro id row hrow
  obtain ⟨kept, hkept, htask⟩ := hfirst id row hrow
  obtain ⟨last, hlast, hsame⟩ := hsecond id kept hkept
  exact ⟨last, hlast, hsame.trans htask⟩

omit [Sha256] in
theorem Kept.upsert {records : Table MemoryRecord} {record : MemoryRecord}
    (hsame : ∀ old, records.get? record.id = some old → record.taskId = old.taskId) :
    Kept records (records.upsert record) := by
  intro id row hrow
  rw [Table.get?_upsert]
  by_cases hid : id = record.id
  · rw [hid] at hrow ⊢
    exact ⟨record, if_pos rfl, hsame row hrow⟩
  · exact ⟨row, (if_neg hid).trans hrow, rfl⟩

omit [Sha256] in
theorem RowsOf.kept {before after : Table MemoryRecord} (hkept : Kept before after) {taskId : String}
    {ids : List String} (hrows : RowsOf before MemoryRecord.taskId taskId ids) :
    RowsOf after MemoryRecord.taskId taskId ids := by
  intro id hid
  obtain ⟨row, hrow, htask⟩ := hrows id hid
  obtain ⟨kept, hkept, hsame⟩ := hkept id row hrow
  exact ⟨kept, hkept, hsame.trans htask⟩

/-- The ids by which tags are held. -/
abbrev holderId (records : List MemoryRecord) (tag : String × String) : Option String :=
  (holder recordTag records tag).map MemoryRecord.id

theorem holderId_append {first second : List MemoryRecord} {tag : String × String} :
    holderId (first ++ second) tag = (holderId first tag).or (holderId second tag) := by
  rw [holderId, holder_append, Option.map_or]

theorem holderId_singleton (record : MemoryRecord) (tag : String × String) :
    holderId [record] tag = if recordTag record = tag then some record.id else none := by
  by_cases htag : recordTag record = tag
  · simp [holderId, holder, htag]
  · simp [holderId, holder, htag]

theorem canonicalizeRecord_eq_ok {record canonical : MemoryRecord} {sourceIds ids : IdMap}
    (hhash : record.contentHash = record.computeContentHash)
    (hok : canonicalizeRecord record sourceIds ids = .ok canonical) :
    canonical = record.renamed sourceIds ids ∧ canonical.Checked := by
  obtain ⟨hchecked, rfl⟩ := MemoryRecord.validateRecord_eq_ok.mp hok
  have hsame : { record.renamed sourceIds ids with
      contentHash := (record.renamed sourceIds ids).computeContentHash } = record.renamed sourceIds ids := by
    have heq : (record.renamed sourceIds ids).contentHash
        = (record.renamed sourceIds ids).computeContentHash := hhash
    rw [← heq]
  rw [hsame]
  exact ⟨rfl, hchecked⟩

/-- What saving one record does. -/
theorem saveRecord_returns {taskId : String} {record canonical persisted : MemoryRecord}
    {sourceIds ids : IdMap} {s s' : MemoryTables} (htask : record.taskId = taskId)
    (hhash : record.contentHash = record.computeContentHash)
    (hok : canonicalizeRecord record sourceIds ids = .ok canonical)
    (hwrite : Returns (writeRecord canonical) s persisted s') (hapart : Apart taskId s.records)
    {stored : List MemoryRecord} (hstored : holderId s.records.rows = holderId stored)
    (rest : List MemoryRecord) :
    s'.sources = s.sources ∧ s'.compactions = s.compactions ∧ Apart taskId s'.records
      ∧ Kept s.records s'.records
      ∧ holderId s'.records.rows = holderId (stored ++ [record.resolved sourceIds])
      ∧ persisted.id = heldAs recordTag (stored ++ record.resolved sourceIds :: rest)
        (record.resolved sourceIds)
      ∧ ((persisted.id ≠ record.id ∧ s'.records = s.records
          ∧ s.records.get? persisted.id = some persisted)
        ∨ (persisted.id = record.id ∧ persisted = record.renamed sourceIds ids
          ∧ s'.records = s.records.upsert (record.renamed sourceIds ids)
          ∧ (record.renamed sourceIds ids).Checked
          ∧ RowsOf s.sources SourcePointer.taskId taskId (record.renamed sourceIds ids).sourceIds)) := by
  obtain ⟨rfl, hchecked⟩ := canonicalizeRecord_eq_ok hhash hok
  obtain ⟨hsources, hcases⟩ := writeRecord_returns hwrite
  have htag : recordTag (record.renamed sourceIds ids) = recordTag (record.resolved sourceIds) := rfl
  have hkey : (record.renamed sourceIds ids).taskId = taskId := htask
  rw [hkey] at hsources
  have hheld : ∀ id, holderId (stored ++ [record.resolved sourceIds]) (recordTag (record.resolved sourceIds))
      = some id → id = heldAs recordTag (stored ++ record.resolved sourceIds :: rest)
        (record.resolved sourceIds) := by
    intro id hid
    obtain ⟨held, hheld, rfl⟩ := Option.map_eq_some_iff.mp hid
    have hfound : holder recordTag (stored ++ record.resolved sourceIds :: rest)
        (recordTag (record.resolved sourceIds)) = some held := by
      rw [List.append_cons, holder_append, hheld]
      rfl
    exact (heldAs_of_holder hfound).symm
  rcases hcases with ⟨hfound, hne, rfl⟩ | ⟨hown, hsame, rfl, rfl⟩
  · have hid : holderId stored (recordTag (record.resolved sourceIds)) = some persisted.id := by
      rw [← hstored, ← htag, holderId, hfound]
      rfl
    obtain ⟨held, hmem, -⟩ := Option.map_eq_some_iff.mp hid
    have hnext : holderId (stored ++ [record.resolved sourceIds]) = holderId stored :=
      funext fun tag => congrArg (Option.map _)
        (holder_concat_of_mem (mem_of_holder hmem) (tag_of_holder hmem))
    refine ⟨rfl, rfl, hapart, Kept.refl _, hstored.trans hnext.symm, hheld _ (by rw [hnext, hid]),
      Or.inl ⟨hne, rfl, ?_⟩⟩
    exact Table.get?_of_mem (mem_of_holder hfound)
  · have hold : ∀ old, s.records.get? record.id = some old → old.taskId = taskId :=
      fun old hold => hapart old (Table.mem_of_get? hold) _ hkey (hsame old hold).symm
    have hnext : holderId (s.records.upsert (record.renamed sourceIds ids)).rows
        = holderId (stored ++ [record.resolved sourceIds]) := by
      funext tag
      refine (holder_upsert (fun old hget => ?_) tag).trans ?_
      · exact Prod.ext ((hold old hget).trans hkey.symm) (hsame old hget)
      · have heq := congrFun hstored tag
        have hlone : holderId [record.renamed sourceIds ids] tag
            = holderId [record.resolved sourceIds] tag := by
          rw [holderId_singleton, holderId_singleton, htag]
          rfl
        exact holderId_append.trans (by rw [heq, hlone, ← holderId_append])
    refine ⟨rfl, rfl, hapart.upsert hkey, Kept.upsert fun old hget => hkey.trans (hold old hget).symm, hnext,
      hheld _ ?_, Or.inr ⟨rfl, rfl, rfl, hchecked, hsources⟩⟩
    rw [holderId_append, ← hstored, holderId_singleton, if_pos rfl]
    cases hfound : holder recordTag s.records.rows (recordTag (record.resolved sourceIds)) with
    | none =>
        rw [holderId, hfound]
        rfl
    | some row =>
        rw [holderId, hfound, Option.map_some, Option.some_or, hown row hfound]

/-- The status of the row of an id. -/
def statusIn (records : Table MemoryRecord) (id : String) : Option MemoryStatus :=
  (records.get? id).map MemoryRecord.status

/-- Every record that is held under another id has the status of the row by which it is held, when the records
before it have been written. -/
def StatusesAgree (held : MemoryRecord → String) (sourceIds : IdMap) (records : Table MemoryRecord) :
    IdMap → List MemoryRecord → Prop
  | _, [] => True
  | ids, record :: rest =>
      (held record ≠ record.id → statusIn records (held record) = some record.status)
        ∧ StatusesAgree held sourceIds
          (if held record = record.id then records.upsert (record.renamed sourceIds ids) else records)
          ((record.id, held record) :: ids) rest

omit [Sha256] in
theorem statusesAgree_of_own {held : MemoryRecord → String} {given : List MemoryRecord}
    (hown : ∀ record ∈ given, held record = record.id) (sourceIds : IdMap) (records : Table MemoryRecord)
    (ids : IdMap) : StatusesAgree held sourceIds records ids given := by
  induction given generalizing records ids with
  | nil => exact True.intro
  | cons record rest ih =>
      obtain ⟨hfirst, hrest⟩ := List.forall_mem_cons.mp hown
      exact ⟨fun hne => absurd hfirst hne, ih hrest _ _⟩

/-- What saving records does. -/
theorem saveRecords_returns {taskId : String} {sourceIds : IdMap} {given persisted : List MemoryRecord}
    {ids ids' : IdMap} {s s' : MemoryTables}
    (hreturns : Returns (saveRecords sourceIds given ids) s (persisted, ids') s')
    (htask : ∀ record ∈ given, record.taskId = taskId)
    (hhash : ∀ record ∈ given, record.contentHash = record.computeContentHash)
    (hapart : Apart taskId s.records) {stored : List MemoryRecord}
    (hstored : holderId s.records.rows = holderId stored) {held : MemoryRecord → String}
    (hheld : ∀ record ∈ given, held record
      = heldAs recordTag (stored ++ given.map (MemoryRecord.resolved sourceIds)) (record.resolved sourceIds)) :
    s'.sources = s.sources ∧ s'.compactions = s.compactions
      ∧ s'.records = upserts s.records (writtenRecords held sourceIds ids given)
      ∧ Apart taskId s'.records ∧ Kept s.records s'.records
      ∧ holderId s'.records.rows = holderId (stored ++ given.map (MemoryRecord.resolved sourceIds))
      ∧ ids' = (given.reverse.map fun record => (record.id, held record)) ++ ids
      ∧ (∀ record ∈ writtenRecords held sourceIds ids given, record.Checked
        ∧ record.taskId = taskId ∧ RowsOf s.sources SourcePointer.taskId taskId record.sourceIds)
      ∧ (List.Forall₂ (fun record saved => saved.status = record.status) given persisted
        ↔ StatusesAgree held sourceIds s.records ids given) := by
  induction given generalizing ids s stored persisted with
  | nil =>
      obtain ⟨heq, rfl⟩ := pure_returns.mp hreturns
      cases heq
      exact ⟨rfl, rfl, rfl, hapart, Kept.refl _, by simpa using hstored, rfl, by simp [writtenRecords],
        by simp [StatusesAgree]⟩
  | cons record rest ih =>
      obtain ⟨hfirst, htask⟩ := List.forall_mem_cons.mp htask
      obtain ⟨hown, hhash⟩ := List.forall_mem_cons.mp hhash
      obtain ⟨hheldFirst, hheld⟩ := List.forall_mem_cons.mp hheld
      unfold saveRecords at hreturns
      simp only [bind_returns, checked_returns] at hreturns
      obtain ⟨canonical, s, ⟨hok, rfl⟩, kept, t, hwrite, ⟨others, ids''⟩, t', hrest, hreturn⟩ := hreturns
      obtain ⟨heq, rfl⟩ := pure_returns.mp hreturn
      cases heq
      obtain ⟨hsources, hcompactions, hapart', hkeeps, hnext, hid, hcases⟩ :=
        saveRecord_returns hfirst hown hok hwrite hapart hstored (rest.map (MemoryRecord.resolved sourceIds))
      have hall : stored ++ [record.resolved sourceIds] ++ rest.map (MemoryRecord.resolved sourceIds)
          = stored ++ (record :: rest).map (MemoryRecord.resolved sourceIds) := by simp
      have hkept : held record = kept.id := hheldFirst.trans hid.symm
      rw [← hall] at hheld
      obtain ⟨hsources', hcompactions', hrecords', hapart'', hkeeps', hholders, hids, hwritten, hstatuses⟩ :=
        ih hrest htask hhash hapart' hnext hheld
      rw [hall] at hholders
      rw [hkept.symm] at hids hwritten hstatuses hrecords'
      have hstep : t.records
          = if held record = record.id then s.records.upsert (record.renamed sourceIds ids)
            else s.records := by
        rcases hcases with ⟨hne, hsame, -⟩ | ⟨heq, -, hupsert, -⟩
        · rw [if_neg (hkept ▸ hne), hsame]
        · rw [if_pos (hkept ▸ heq), hupsert]
      refine ⟨hsources'.trans hsources, hcompactions'.trans hcompactions, ?_, hapart'', hkeeps.trans hkeeps',
        hholders, ?_, ?_, ?_⟩
      · rw [hrecords', hstep, writtenRecords, upserts, upserts, List.foldl_append]
        split <;> rfl
      · rw [hids]
        simp
      · rw [writtenRecords]
        intro written hmem
        rcases List.mem_append.mp hmem with hmem | hmem
        · rcases hcases with ⟨hne, -, -⟩ | ⟨-, -, -, hchecked, hrows⟩
          · rw [if_neg (hkept ▸ hne)] at hmem
            cases hmem
          · split at hmem
            · rw [List.mem_singleton.mp hmem]
              exact ⟨hchecked, hfirst, hrows⟩
            · cases hmem
        · rw [← hsources]
          exact hwritten written hmem
      · rw [List.forall₂_cons, StatusesAgree, ← hstep, hstatuses]
        refine and_congr_left fun _ => ?_
        rcases hcases with ⟨hne, -, hget⟩ | ⟨heq, hsame, -⟩
        · rw [statusIn, hkept, hget]
          simp [hne]
        · rw [hkept]
          refine iff_of_true ?_ fun hne => absurd heq hne
          rw [hsame]
          rfl

/-! ### The reports -/

/-- The ids of a report's records. -/
def CompressionReport.entries (report : CompressionReport) : List String :=
  report.inputRecordIds ++ report.outputRecordIds ++ report.protectedRecordIds ++ report.removedRecordIds

omit [Sha256] in
theorem validateReport_subset {report valid : CompressionReport} (hok : report.validateReport = .ok valid) :
    valid = report ∧ report.protectedRecordIds ⊆ report.inputRecordIds
      ∧ report.removedRecordIds ⊆ report.inputRecordIds := by
  unfold CompressionReport.validateReport at hok
  simp only [Except.bind_eq_ok_iff, requireThat_eq_ok, Except.pure_eq_ok_iff] at hok
  obtain ⟨-, -, -, -, -, -, -, -, -, -, -, -, -, hprotected, -, hremoved, -, -, -, -, -, -, -, -, rfl⟩ := hok
  exact ⟨rfl, hprotected, hremoved⟩

omit [Sha256] in
/-- The records of a report are those of its inputs and outputs. -/
theorem rowsOf_entries {report : CompressionReport} {records : Table MemoryRecord}
    (hprotected : report.protectedRecordIds ⊆ report.inputRecordIds)
    (hremoved : report.removedRecordIds ⊆ report.inputRecordIds)
    (hrows : RowsOf records MemoryRecord.taskId report.taskId (report.inputRecordIds ++ report.outputRecordIds)) :
    RowsOf records MemoryRecord.taskId report.taskId report.entries := by
  intro id hid
  refine hrows id ?_
  rcases List.mem_append.mp hid with hid | hid
  · rcases List.mem_append.mp hid with hid | hid
    · exact hid
    · exact List.mem_append_left _ (hprotected hid)
  · exact List.mem_append_left _ (hremoved hid)

/-- What saving reports does. -/
theorem saveCompactions_returns {recordIds : IdMap} {reports persisted : List CompressionReport}
    {s s' : MemoryTables} (hreturns : Returns (saveCompactions recordIds reports) s persisted s') :
    s'.sources = s.sources ∧ s'.records = s.records
      ∧ (∀ row ∈ s.compactions.rows, row ∈ s'.compactions.rows)
      ∧ (∀ report ∈ reports, ∃ held ∈ s'.compactions.rows,
        compactionTag held = compactionTag (report.renamed recordIds))
      ∧ (∀ row ∈ s'.compactions.rows, row ∈ s.compactions.rows
        ∨ RowsOf s.records MemoryRecord.taskId row.taskId row.entries)
      ∧ ((∀ report ∈ reports, ∃ held ∈ s.compactions.rows,
          compactionTag held = compactionTag (report.renamed recordIds))
        → s'.compactions = s.compactions) := by
  induction reports generalizing s persisted with
  | nil =>
      obtain ⟨-, rfl⟩ := pure_returns.mp hreturns
      exact ⟨rfl, rfl, fun _ hrow => hrow, by simp, fun _ hrow => Or.inl hrow, fun _ => rfl⟩
  | cons report rest ih =>
      unfold saveCompactions writeCompaction requireCompactionRecords at hreturns
      simp only [bind_returns, checked_returns, requireRows_returns, keepIn_returns] at hreturns
      obtain ⟨canonical, _, ⟨hok, rfl⟩, kept, t, ⟨-, s, ⟨hrows, rfl⟩, table, hkept, rfl⟩, others, t', hrest,
        hreturn⟩ := hreturns
      obtain ⟨-, rfl⟩ := pure_returns.mp hreturn
      obtain ⟨rfl, hprotected, hremoved⟩ := validateReport_subset hok
      obtain ⟨hsources, hrecords, hmono, hholders, hnew, hsame⟩ := ih hrest
      have hmono' : ∀ row ∈ s.compactions.rows, row ∈ table.rows := by
        intro row hrow
        rcases keepFirst_eq_ok hkept with ⟨-, rfl⟩ | ⟨-, -, heq⟩
        · exact hrow
        · rw [heq]
          exact List.mem_append_left _ hrow
      have hfirst := keepFirst_holder hkept
      refine ⟨hsources, hrecords, fun row hrow => hmono row (hmono' row hrow), ?_, fun row hrow => ?_, ?_⟩
      · intro other hother
        rcases List.mem_cons.mp hother with rfl | hother
        · exact ⟨kept, hmono kept (mem_of_holder hfirst), tag_of_holder hfirst⟩
        · exact hholders other hother
      · rcases hnew row hrow with hold | hrows'
        · rcases keepFirst_eq_ok hkept with ⟨-, rfl⟩ | ⟨-, rfl, heq⟩
          · exact Or.inl hold
          · rw [heq] at hold
            rcases List.mem_append.mp hold with hold | hlast
            · exact Or.inl hold
            · rw [List.mem_singleton.mp hlast]
              exact Or.inr (rowsOf_entries hprotected hremoved hrows)
        · exact Or.inr hrows'
      · intro hthere
        obtain ⟨hthereFirst, hthere⟩ := List.forall_mem_cons.mp hthere
        rcases keepFirst_eq_ok hkept with ⟨-, rfl⟩ | ⟨hnone, -, -⟩
        · exact hsame hthere
        · obtain ⟨held, hheld, htag⟩ := hthereFirst
          exact absurd htag (holder_eq_none_iff.mp hnone held hheld)

/-! ### Links -/

/-- The ids of the records to which a record refers. -/
def MemoryRecord.links (record : MemoryRecord) : List String :=
  record.derivedFromIds ++ record.supersedesId.toList ++ record.supersededById.toList

section Written

variable {held : MemoryRecord → String} {sourceIds ids : IdMap} {given : List MemoryRecord} {id : String}

/-- The ids under which records are held, the newest first. -/
def heldIds (held : MemoryRecord → String) (given : List MemoryRecord) : IdMap :=
  given.reverse.map fun record => (record.id, held record)

omit [Sha256] in
theorem rename_of_mem (hmem : id ∈ given.map MemoryRecord.id) :
    ∃ record ∈ given, record.id = id ∧ (heldIds held given).rename id = held record := by
  unfold IdMap.rename heldIds
  rw [List.find?_map]
  cases hfind : given.reverse.find? ((fun entry : String × String => decide (entry.1 = id))
      ∘ fun record => (record.id, held record)) with
  | none =>
      obtain ⟨record, hrecord, rfl⟩ := List.mem_map.mp hmem
      have hnone := List.find?_eq_none.mp hfind record (List.mem_reverse.mpr hrecord)
      simp at hnone
  | some record =>
      refine ⟨record, List.mem_reverse.mp (List.mem_of_find?_eq_some hfind), ?_, rfl⟩
      simpa using List.find?_some hfind

omit [Sha256] in
theorem rename_of_not_mem (hnot : id ∉ given.map MemoryRecord.id) : (heldIds held given).rename id = id := by
  unfold IdMap.rename heldIds
  rw [List.find?_map, List.find?_eq_none.mpr]
  · rfl
  · intro record hrecord
    have hne : record.id ≠ id := fun heq =>
      hnot (heq ▸ List.mem_map_of_mem (List.mem_reverse.mp hrecord))
    simpa using hne

omit [Sha256] in
theorem links_renamed (record : MemoryRecord) :
    (record.renamed sourceIds ids).links = record.links.map ids.rename := by
  simp [MemoryRecord.links, MemoryRecord.renamed, Option.toList_map]

omit [Sha256] in
theorem writtenRecords_congr {other : MemoryRecord → String} (hsame : ∀ record ∈ given, held record = other record) :
    writtenRecords held sourceIds ids given = writtenRecords other sourceIds ids given := by
  induction given generalizing ids with
  | nil => rfl
  | cons record rest ih =>
      obtain ⟨hfirst, hrest⟩ := List.forall_mem_cons.mp hsame
      rw [writtenRecords, writtenRecords, hfirst, ih hrest]

omit [Sha256] in
theorem id_of_written {written : MemoryRecord} (hmem : written ∈ writtenRecords held sourceIds ids given) :
    ∃ record ∈ given, record.id = written.id ∧ held record = written.id := by
  induction given generalizing ids with
  | nil => cases hmem
  | cons record rest ih =>
      rw [writtenRecords] at hmem
      rcases List.mem_append.mp hmem with hfirst | hrest
      · split at hfirst
        · rename_i hown
          rw [List.mem_singleton.mp hfirst]
          exact ⟨record, List.mem_cons_self, rfl, hown⟩
        · cases hfirst
      · obtain ⟨other, hother, hid⟩ := ih hrest
        exact ⟨other, List.mem_cons_of_mem _ hother, hid⟩

omit [Sha256] in
theorem written_of_own {record : MemoryRecord} (hmem : record ∈ given) (hown : held record = record.id) :
    ∃ written ∈ writtenRecords held sourceIds ids given, written.id = record.id := by
  induction given generalizing ids with
  | nil => cases hmem
  | cons first rest ih =>
      rw [writtenRecords]
      rcases List.mem_cons.mp hmem with rfl | hmem
      · rw [if_pos hown]
        exact ⟨_, List.mem_append_left _ (List.mem_singleton_self _), rfl⟩
      · obtain ⟨written, hwritten, hid⟩ := ih hmem
        exact ⟨written, List.mem_append_right _ hwritten, hid⟩

omit [Sha256] in
/-- The last record that is written under an id. -/
theorem exists_of_latestWith {written : MemoryRecord}
    (hlast : latestWith (writtenRecords held sourceIds ids given) id = some written) :
    ∃ earlier record later, given = earlier ++ record :: later ∧ record.id = id ∧ held record = id
      ∧ (∀ again ∈ later, again.id = id → held again ≠ id)
      ∧ written = record.renamed sourceIds (heldIds held earlier ++ ids) := by
  induction given generalizing ids with
  | nil => cases hlast
  | cons record rest ih =>
      rw [writtenRecords, latestWith_append] at hlast
      cases hrest : latestWith (writtenRecords held sourceIds ((record.id, held record) :: ids) rest) id with
      | some found =>
          rw [hrest] at hlast
          obtain rfl := Option.some.inj hlast
          obtain ⟨earlier, other, later, rfl, hid, hown, hagain, rfl⟩ := ih hrest
          refine ⟨record :: earlier, other, later, rfl, hid, hown, hagain, ?_⟩
          simp [heldIds]
      | none =>
          rw [hrest, Option.none_or] at hlast
          obtain ⟨hmem, hid⟩ := mem_of_latestWith hlast
          split at hmem
          · rename_i hown
            obtain rfl := List.mem_singleton.mp hmem
            have hkey : record.id = id := hid
            refine ⟨[], record, rest, rfl, hkey, hown.trans hkey, fun again hagain heq hheld => ?_, rfl⟩
            obtain ⟨written, hwritten, hlater⟩ := written_of_own hagain (hheld.trans heq.symm)
            exact latestWith_eq_none_iff.mp hrest written hwritten (hlater.trans heq)
          · cases hmem

omit [Sha256] in
theorem latestWith_of_last {record : MemoryRecord} {earlier later : List MemoryRecord}
    (hown : held record = record.id)
    (hagain : ∀ again ∈ later, again.id = record.id → held again ≠ record.id) :
    latestWith (writtenRecords held sourceIds ids (earlier ++ record :: later)) record.id
      = some (record.renamed sourceIds (heldIds held earlier ++ ids)) := by
  induction earlier generalizing ids with
  | nil =>
      have hnone : latestWith (writtenRecords held sourceIds ((record.id, held record) :: ids) later)
          record.id = none := by
        refine latestWith_eq_none_iff.mpr fun written hwritten hid => ?_
        obtain ⟨again, hmem, heq, hheld⟩ := id_of_written hwritten
        exact hagain again hmem (heq.trans hid) (hheld.trans hid)
      rw [List.nil_append, writtenRecords, latestWith_append, hnone, Option.none_or, if_pos hown]
      simp [latestWith, heldIds, Keyed.key, MemoryRecord.renamed]
  | cons first rest ih =>
      rw [List.cons_append, writtenRecords, latestWith_append, ih, Option.some_or]
      simp [heldIds]

end Written

/-! ### Batches -/

/-- What the tables must hold: every id that is stored names a row of its task. -/
structure MemoryTables.Closed (tables : MemoryTables) : Prop where
  sources : ∀ record ∈ tables.records.rows,
    RowsOf tables.sources SourcePointer.taskId record.taskId record.sourceIds
  links : ∀ record ∈ tables.records.rows,
    RowsOf tables.records MemoryRecord.taskId record.taskId record.links
  entries : ∀ report ∈ tables.compactions.rows,
    RowsOf tables.records MemoryRecord.taskId report.taskId report.entries

namespace MemoryBatch

/-- The ids under which the sources of a batch are stored. -/
def sourceIds (tables : MemoryTables) (batch : MemoryBatch) : IdMap :=
  storedSources tables.sources.rows batch.sources

/-- The id under which a record of a batch is stored: that of the first of the stored records and of those of
the batch that has its identity. -/
def heldId (tables : MemoryTables) (batch : MemoryBatch) (record : MemoryRecord) : String :=
  heldAs recordTag (tables.records.rows ++ batch.records.map (MemoryRecord.resolved (batch.sourceIds tables)))
    (record.resolved (batch.sourceIds tables))

/-- The ids under which the records of a batch are stored. -/
def recordIds (tables : MemoryTables) (batch : MemoryBatch) : IdMap :=
  heldIds (batch.heldId tables) batch.records

/-- When a batch is stored as it says: a record that is held under another id has the status of the row that
holds it, and what a record refers to comes before it, is there already, or is held under its own id. -/
structure Fits (tables : MemoryTables) (batch : MemoryBatch) : Prop where
  statuses : StatusesAgree (batch.heldId tables) (batch.sourceIds tables) tables.records [] batch.records
  links : ∀ earlier record later, batch.records = earlier ++ record :: later →
    batch.heldId tables record = record.id →
    (∀ again ∈ later, again.id = record.id → batch.heldId tables again ≠ record.id) →
    ∀ link ∈ record.links, link ∈ earlier.map MemoryRecord.id
      ∨ (∃ row, tables.records.get? link = some row ∧ row.taskId = record.taskId)
      ∨ ∃ other ∈ later, other.id = link ∧ batch.heldId tables other = link

/-- What a batch should leave: all of it is there, writing it once more changes nothing, every id names a row,
and each record that is returned has the status that was given. -/
structure Settled [Redactor] (batch safe : MemoryBatch) (tables tables' : MemoryTables)
    (result : MemoryWriteResult) : Prop where
  sources : ∀ source ∈ safe.sources, ∃ row ∈ tables'.sources.rows, sourceTag row = sourceTag source
  records : ∀ record ∈ safe.records, ∃ row, tables'.records.get? (safe.heldId tables record) = some row
    ∧ recordTag row = recordTag (record.resolved (safe.sourceIds tables))
  compactions : ∀ report ∈ safe.compactions, ∃ row ∈ tables'.compactions.rows,
    compactionTag row = compactionTag (report.renamed (safe.recordIds tables))
  again : ∀ runtime now guard, (saveBatch runtime now guard batch).commit tables' = tables'
  closed : tables'.Closed
  statuses : List.Forall₂ (fun record saved => saved.status = record.status) safe.records result.records

/-! ### Saving a batch -/

variable [Redactor] {runtime : Store} {now : Timestamp} {guard : Option LeaseGuard} {batch safe : MemoryBatch}
  {tables tables' : MemoryTables} {result : MemoryWriteResult} {taskId : String}

omit [Sha256] [Redactor] in
theorem task_of_single (hsingle : ¬ 1 < safe.taskIds.length) :
    ∃ taskId, ∀ record ∈ safe.records, record.taskId = taskId := by
  have hmem : ∀ record ∈ safe.records, record.taskId ∈ safe.taskIds := by
    intro record hrecord
    exact List.mem_dedup.mpr (List.mem_append_left _ (List.mem_append_right _ (List.mem_map_of_mem hrecord)))
  cases htasks : safe.taskIds with
  | nil =>
      rw [htasks] at hmem
      exact ⟨"", fun record hrecord => absurd (hmem record hrecord) List.not_mem_nil⟩
  | cons taskId rest =>
      rw [htasks] at hmem hsingle
      have hnil : rest = [] := List.eq_nil_of_length_eq_zero (by
        rw [List.length_cons] at hsingle
        omega)
      subst hnil
      exact ⟨taskId, fun record hrecord => List.mem_singleton.mp (hmem record hrecord)⟩

theorem hash_of_redact (hsafe : batch.redact = .ok safe) :
    ∀ record ∈ safe.records, record.contentHash = record.computeContentHash := by
  unfold redact at hsafe
  simp only [Except.bind_eq_ok_iff, Except.pure_eq_ok_iff] at hsafe
  obtain ⟨sources, -, records, hrecords, compactions, -, rfl⟩ := hsafe
  intro record hrecord
  obtain ⟨given, -, hgiven⟩ :=
    Sequence.exists_of_forall₂ (Sequence.forall₂_of_mapM_ok hrecords).flip hrecord
  obtain ⟨-, rfl⟩ := MemoryRecord.validateRecord_eq_ok.mp hgiven
  rfl

/-- What an accepted batch leaves. -/
structure Saved (safe : MemoryBatch) (taskId : String) (tables tables' : MemoryTables)
    (result : MemoryWriteResult) : Prop where
  sources : ∀ tag, holder sourceTag tables'.sources.rows tag
    = holder sourceTag (tables.sources.rows ++ safe.sources) tag
  keptSources : ∀ id source, tables.sources.get? id = some source → tables'.sources.get? id = some source
  sameSources : (∀ source ∈ safe.sources, (holder sourceTag tables.sources.rows (sourceTag source)).isSome) →
    tables'.sources = tables.sources
  records : tables'.records = upserts tables.records
    (writtenRecords (safe.heldId tables) (safe.sourceIds tables) [] safe.records)
  apart : Apart taskId tables'.records
  kept : Kept tables.records tables'.records
  holders : holderId tables'.records.rows
    = holderId (tables.records.rows ++ safe.records.map (MemoryRecord.resolved (safe.sourceIds tables)))
  written : ∀ record ∈ writtenRecords (safe.heldId tables) (safe.sourceIds tables) [] safe.records,
    record.Checked ∧ record.taskId = taskId
      ∧ RowsOf tables'.sources SourcePointer.taskId taskId record.sourceIds
  statuses : List.Forall₂ (fun record saved => saved.status = record.status) safe.records result.records
    ↔ StatusesAgree (safe.heldId tables) (safe.sourceIds tables) tables.records [] safe.records
  keptCompactions : ∀ row ∈ tables.compactions.rows, row ∈ tables'.compactions.rows
  compactions : ∀ report ∈ safe.compactions, ∃ held ∈ tables'.compactions.rows,
    compactionTag held = compactionTag (report.renamed (safe.recordIds tables))
  newCompactions : ∀ row ∈ tables'.compactions.rows, row ∈ tables.compactions.rows
    ∨ RowsOf tables'.records MemoryRecord.taskId row.taskId row.entries
  sameCompactions : (∀ report ∈ safe.compactions, ∃ held ∈ tables.compactions.rows,
    compactionTag held = compactionTag (report.renamed (safe.recordIds tables))) →
    tables'.compactions = tables.compactions

omit [Sha256] [Redactor] in
theorem assertMemoryGuards_returns {taskIds : List String} {s s' : MemoryTables} {u : Unit}
    (hguard : Returns (assertMemoryGuards runtime now guard taskIds) s u s') : s' = s := by
  unfold assertMemoryGuards at hguard
  split at hguard
  · exact (pure_returns.mp hguard).2
  · split at hguard
    · exact (pure_returns.mp hguard).2
    · exact absurd hguard throw_returns

/-- An accepted batch is of one task, and what it leaves is determined by the tables and the batch. -/
theorem saveBatch_returns (hsafe : batch.redact = .ok safe)
    (hreturns : Returns (saveBatch runtime now guard batch) tables result tables') :
    ¬ 1 < safe.taskIds.length
      ∧ ∀ taskId, (∀ record ∈ safe.records, record.taskId = taskId) → Apart taskId tables.records →
        safe.Saved taskId tables tables' result := by
  unfold saveBatch at hreturns
  simp only [bind_returns, checked_returns, raiseIf_returns] at hreturns
  obtain ⟨found, _, ⟨hfound, hstart⟩, _, _, ⟨hsingle, hsame⟩, _, s, hguard, ⟨sources, sourceIds⟩, s1, hsources,
    ⟨records, recordIds⟩, s2, hrecords, compactions, s3, hcompactions, hreturn⟩ := hreturns
  obtain rfl : found = safe := Except.ok.inj (hfound.symm.trans hsafe)
  rw [hsame, hstart] at hguard
  obtain ⟨rfl, rfl⟩ := pure_returns.mp hreturn
  obtain rfl := assertMemoryGuards_returns hguard
  refine ⟨hsingle, fun taskId htask hapart => ?_⟩
  obtain ⟨hrecords1, hcompactions1, hholders, rfl, hgets, hsameSources⟩ :=
    saveSources_returns hsources fun _ => rfl
  rw [List.append_nil] at hrecords
  change Returns (saveRecords (found.sourceIds s) found.records []) s1 (records, recordIds) s2 at hrecords
  rw [← hrecords1] at hapart
  have hheld : ∀ record ∈ found.records, found.heldId s record
      = heldAs recordTag (s.records.rows ++ found.records.map (MemoryRecord.resolved (found.sourceIds s)))
        (record.resolved (found.sourceIds s)) := fun _ _ => rfl
  obtain ⟨hsources2, hcompactions2, hwrites, hapart2, hkept, hholders2, rfl, hwritten, hstatuses⟩ :=
    saveRecords_returns hrecords htask (hash_of_redact hsafe) hapart
      (congrArg holderId (congrArg Table.rows hrecords1)) hheld
  rw [List.append_nil] at hcompactions
  change Returns (saveCompactions (found.recordIds s) found.compactions) s2 compactions tables' at hcompactions
  obtain ⟨hsources3, hrecords3, hmono, hthere, hnew, hsame⟩ := saveCompactions_returns hcompactions
  rw [hcompactions2, hcompactions1] at hmono hnew hsame
  rw [hrecords1] at hwrites hkept hstatuses
  rw [← hrecords3] at hwrites hapart2 hkept hholders2 hnew
  have hlast : tables'.sources = s1.sources := hsources3.trans hsources2
  rw [← hlast] at hholders hgets hsameSources hwritten
  exact ⟨hholders, hgets, hsameSources, hwrites, hapart2, hkept, hholders2, hwritten, hstatuses, hmono, hthere, hnew,
    hsame⟩

namespace Saved

variable {record : MemoryRecord} {id : String}

omit [Redactor] in
/-- Every record of a batch is there, with its identity, under the id that it is held by. -/
theorem row_of_held (hsaved : safe.Saved taskId tables tables' result) (hmem : record ∈ safe.records) :
    ∃ row, tables'.records.get? (safe.heldId tables record) = some row
      ∧ recordTag row = recordTag (record.resolved (safe.sourceIds tables)) := by
  obtain ⟨held, hheld⟩ := exists_holder recordTag
    (List.mem_append_right tables.records.rows (List.mem_map_of_mem hmem))
  have hid : safe.heldId tables record = held.id := heldAs_of_holder hheld
  have hholder : holderId tables'.records.rows (recordTag (record.resolved (safe.sourceIds tables)))
      = some held.id := by
    rw [hsaved.holders, holderId, hheld]
    rfl
  obtain ⟨row, hrow, hkey⟩ := Option.map_eq_some_iff.mp hholder
  refine ⟨row, ?_, tag_of_holder hrow⟩
  rw [hid, ← hkey]
  exact Table.get?_of_mem (mem_of_holder hrow)

omit [Redactor] in
/-- A row is one that is written last under its id, or one that was there. -/
theorem row_cases (hsaved : safe.Saved taskId tables tables' result) {row : MemoryRecord}
    (hrow : tables'.records.get? id = some row) :
    latestWith (writtenRecords (safe.heldId tables) (safe.sourceIds tables) [] safe.records) id = some row
      ∨ tables.records.get? id = some row := by
  rw [hsaved.records, get?_upserts] at hrow
  rcases Option.or_eq_some_iff.mp hrow with hlast | ⟨-, hold⟩
  · exact Or.inl hlast
  · exact Or.inr hold

omit [Redactor] in
/-- The rows are closed when the links of the written records name rows. -/
theorem closed_of_links (hsaved : safe.Saved taskId tables tables' result) (hclosed : tables.Closed)
    (hlinks : ∀ id row,
      latestWith (writtenRecords (safe.heldId tables) (safe.sourceIds tables) [] safe.records) id = some row →
        RowsOf tables'.records MemoryRecord.taskId taskId row.links) : tables'.Closed where
  sources row hrow := by
    rcases hsaved.row_cases (Table.get?_of_mem hrow) with hlast | hold
    · obtain ⟨-, htask, hsources⟩ := hsaved.written row (mem_of_latestWith hlast).1
      rwa [htask]
    · intro id hid
      obtain ⟨source, hsource, htask⟩ := hclosed.sources row (Table.mem_of_get? hold) id hid
      exact ⟨source, hsaved.keptSources id source hsource, htask⟩
  links row hrow := by
    rcases hsaved.row_cases (Table.get?_of_mem hrow) with hlast | hold
    · rw [(hsaved.written row (mem_of_latestWith hlast).1).2.1]
      exact hlinks _ row hlast
    · exact (hclosed.links row (Table.mem_of_get? hold)).kept hsaved.kept
  entries row hrow := by
    rcases hsaved.newCompactions row hrow with hold | hrows
    · exact (hclosed.entries row hold).kept hsaved.kept
    · exact hrows

omit [Redactor] in
/-- A record that passes the checks does not refer to itself. -/
theorem not_mem_links (hchecked : record.Checked) : record.id ∉ record.links := by
  intro hmem
  rcases List.mem_append.mp hmem with hmem | hsuperseded
  · rcases List.mem_append.mp hmem with hderived | hsupersedes
    · exact hchecked.notDerived hderived
    · exact hchecked.supersession.1 (Option.mem_toList.mp hsupersedes)
  · exact hchecked.supersession.2 (Option.mem_toList.mp hsuperseded)

omit [Redactor] in
/-- Every id names a row exactly when what a record refers to comes before it, is there, or is held under its own
id. -/
theorem closed_iff (hsaved : safe.Saved taskId tables tables' result) (hclosed : tables.Closed)
    (htask : ∀ record ∈ safe.records, record.taskId = taskId) :
    tables'.Closed ↔ ∀ earlier record later, safe.records = earlier ++ record :: later →
      safe.heldId tables record = record.id →
      (∀ again ∈ later, again.id = record.id → safe.heldId tables again ≠ record.id) →
      ∀ link ∈ record.links, link ∈ earlier.map MemoryRecord.id
        ∨ (∃ row, tables.records.get? link = some row ∧ row.taskId = record.taskId)
        ∨ ∃ other ∈ later, other.id = link ∧ safe.heldId tables other = link := by
  constructor
  · intro hclosed' earlier record later hrecords hown hagain link hlink
    have hmem : record ∈ safe.records := by
      rw [hrecords]
      exact List.mem_append_right _ List.mem_cons_self
    have hlast : latestWith (writtenRecords (safe.heldId tables) (safe.sourceIds tables) [] safe.records) record.id
        = some (record.renamed (safe.sourceIds tables) (heldIds (safe.heldId tables) earlier ++ [])) := by
      rw [hrecords]
      exact latestWith_of_last hown hagain
    have hrow : tables'.records.get? record.id = some (record.renamed (safe.sourceIds tables)
        (heldIds (safe.heldId tables) earlier ++ [])) := by
      rw [hsaved.records, get?_upserts, hlast, Option.some_or]
    by_cases hearlier : link ∈ earlier.map MemoryRecord.id
    · exact Or.inl hearlier
    · refine Or.inr ?_
      have hsame : IdMap.rename (heldIds (safe.heldId tables) earlier ++ []) link = link := by
        rw [List.append_nil, rename_of_not_mem hearlier]
      have hrenamed : link ∈ (record.renamed (safe.sourceIds tables)
          (heldIds (safe.heldId tables) earlier ++ [])).links := by
        rw [links_renamed]
        exact List.mem_map.mpr ⟨link, hlink, hsame⟩
      obtain ⟨found, hfound, hfoundTask⟩ := hclosed'.links _ (Table.mem_of_get? hrow) link hrenamed
      rcases hsaved.row_cases hfound with hwritten | hold
      · obtain ⟨before, other, after, hsplit, hid, hheld, -, -⟩ := exists_of_latestWith hwritten
        have hother : other ∈ earlier ++ record :: later := by
          rw [← hrecords, hsplit]
          exact List.mem_append_right _ List.mem_cons_self
        rcases List.mem_append.mp hother with hother | hother
        · exact absurd (hid ▸ List.mem_map_of_mem hother) hearlier
        · rcases List.mem_cons.mp hother with rfl | hother
          · have hchecked := (hsaved.written _ (mem_of_latestWith hlast).1).1
            exact absurd (hid ▸ hrenamed) (not_mem_links hchecked)
          · exact Or.inr ⟨other, hother, hid, hheld⟩
      · exact Or.inl ⟨found, hold, hfoundTask⟩
  · intro hfits
    refine hsaved.closed_of_links hclosed fun id row hlast => ?_
    obtain ⟨earlier, record, later, hrecords, hid, hown, hagain, rfl⟩ := exists_of_latestWith hlast
    have hmem : record ∈ safe.records := by
      rw [hrecords]
      exact List.mem_append_right _ List.mem_cons_self
    have hheld : ∀ other ∈ safe.records, ∃ row, tables'.records.get? (safe.heldId tables other) = some row
        ∧ row.taskId = taskId := by
      intro other hother
      obtain ⟨row, hrow, htag⟩ := hsaved.row_of_held hother
      exact ⟨row, hrow, (congrArg Prod.fst htag).trans (htask other hother)⟩
    intro link hlink
    rw [links_renamed, List.append_nil] at hlink
    obtain ⟨given, hgiven, rfl⟩ := List.mem_map.mp hlink
    by_cases hearlier : given ∈ earlier.map MemoryRecord.id
    · obtain ⟨other, hother, -, hrename⟩ :
          ∃ other ∈ earlier, other.id = given ∧ (heldIds (safe.heldId tables) earlier).rename given
            = safe.heldId tables other := rename_of_mem hearlier
      rw [hrename]
      exact hheld other (hrecords ▸ List.mem_append_left _ hother)
    · rw [rename_of_not_mem hearlier]
      subst hid
      rcases hfits earlier record later hrecords hown hagain given hgiven with hbefore | hold | ⟨other, hother, hid,
        hown'⟩
      · exact absurd hbefore hearlier
      · obtain ⟨row, hrow, hrowTask⟩ := hold
        obtain ⟨kept, hkept, hkeptTask⟩ := hsaved.kept given row hrow
        exact ⟨kept, hkept, hkeptTask.trans (hrowTask.trans (htask record hmem))⟩
      · obtain ⟨row, hrow, hrowTask⟩ := hheld other (by
          rw [hrecords]
          exact List.mem_append_right _ (List.mem_cons_of_mem _ hother))
        rw [hown'] at hrow
        exact ⟨row, hrow, hrowTask⟩

omit [Redactor] in
/-- What is there holds the items of the batch as they were held when they came. -/
theorem sourceIds_again (hsaved : safe.Saved taskId tables tables' result) :
    safe.sourceIds tables' = safe.sourceIds tables := by
  refine List.map_congr_left fun source hsource => ?_
  have hmem : source ∈ safe.sources := List.mem_reverse.mp hsource
  rw [heldAs_again hmem (congrArg (Option.map SourcePointer.id) (hsaved.sources (sourceTag source)))]

omit [Redactor] in
theorem heldId_again (hsaved : safe.Saved taskId tables tables' result) (hmem : record ∈ safe.records) :
    safe.heldId tables' record = safe.heldId tables record := by
  unfold heldId
  rw [hsaved.sourceIds_again]
  exact heldAs_again (List.mem_map_of_mem hmem) (congrFun hsaved.holders _)

omit [Redactor] in
theorem recordIds_again (hsaved : safe.Saved taskId tables tables' result) :
    safe.recordIds tables' = safe.recordIds tables :=
  List.map_congr_left fun record hrecord => by rw [hsaved.heldId_again (List.mem_reverse.mp hrecord)]

omit [Redactor] in
/-- The batch, written once more, leaves what is there. -/
theorem eq_again {again : MemoryWriteResult} {tables'' : MemoryTables}
    (hsaved : safe.Saved taskId tables tables' result) (hagain : safe.Saved taskId tables' tables'' again) :
    tables'' = tables' := by
  have hsources : tables''.sources = tables'.sources := by
    refine hagain.sameSources fun source hsource => ?_
    obtain ⟨held, hheld⟩ := exists_holder sourceTag (List.mem_append_right tables.sources.rows hsource)
    rw [hsaved.sources, hheld]
    rfl
  have hwritten : writtenRecords (safe.heldId tables') (safe.sourceIds tables') [] safe.records
      = writtenRecords (safe.heldId tables) (safe.sourceIds tables) [] safe.records := by
    rw [hsaved.sourceIds_again]
    exact writtenRecords_congr fun record hrecord => hsaved.heldId_again hrecord
  have hrecords : tables''.records = tables'.records := by
    rw [hagain.records, hwritten, hsaved.records, upserts_upserts]
  have hcompactions : tables''.compactions = tables'.compactions := by
    refine hagain.sameCompactions ?_
    rw [hsaved.recordIds_again]
    exact hsaved.compactions
  cases tables''
  cases tables'
  cases hsources
  cases hrecords
  cases hcompactions
  rfl

end Saved

/-- A batch that raises leaves the tables, and one that is accepted is all there, changes nothing when it is written
once more, and leaves ids of rows and the statuses that were given exactly where it fits. -/
theorem batches_settle_iff (hsafe : batch.redact = .ok safe) (hclosed : tables.Closed)
    (hapart : ∀ taskId, Apart taskId tables.records) :
    (∀ e, Raises (saveBatch runtime now guard batch) tables e →
        (saveBatch runtime now guard batch).commit tables = tables)
      ∧ ∀ result tables', Returns (saveBatch runtime now guard batch) tables result tables' →
        (Settled batch safe tables tables' result ↔ safe.Fits tables) := by
  refine ⟨fun e hraises => ?_, fun result tables' hreturns => ?_⟩
  · rcases commit_cases (saveBatch runtime now guard batch) tables with hsame | ⟨result, hreturns⟩
    · exact hsame
    · rw [Returns, hraises] at hreturns
      cases hreturns
  obtain ⟨taskId, htask⟩ := task_of_single (saveBatch_returns hsafe hreturns).1
  have hsaved := (saveBatch_returns hsafe hreturns).2 taskId htask (hapart taskId)
  constructor
  · intro hsettled
    exact ⟨hsaved.statuses.mp hsettled.statuses, (hsaved.closed_iff hclosed htask).mp hsettled.closed⟩
  · intro hfits
    refine ⟨?_, fun record hrecord => hsaved.row_of_held hrecord, hsaved.compactions, ?_,
      (hsaved.closed_iff hclosed htask).mpr hfits.links, hsaved.statuses.mpr hfits.statuses⟩
    · intro source hsource
      obtain ⟨held, hheld⟩ := exists_holder sourceTag (List.mem_append_right tables.sources.rows hsource)
      rw [← hsaved.sources] at hheld
      exact ⟨held, mem_of_holder hheld, tag_of_holder hheld⟩
    · intro runtime' now' guard'
      rcases commit_cases (saveBatch runtime' now' guard' batch) tables' with hsame | ⟨again, hagain⟩
      · exact hsame
      · exact hsaved.eq_again ((saveBatch_returns hsafe hagain).2 taskId htask hsaved.apart)

omit [Redactor] in
theorem heldId_of_first {record : MemoryRecord} {rest : List MemoryRecord} (hrows : tables.records.rows = [])
    (hrecords : safe.records = record :: rest) : safe.heldId tables record = record.id := by
  have hheld : holder recordTag (tables.records.rows ++ safe.records.map (MemoryRecord.resolved (safe.sourceIds tables)))
      (recordTag (record.resolved (safe.sourceIds tables))) = some (record.resolved (safe.sourceIds tables)) := by
    rw [hrows, hrecords, List.nil_append, List.map_cons, holder_cons_self]
  have hid := heldAs_of_holder hheld
  exact hid

end MemoryBatch

end Batches

/-! ### A value that comes back -/

section Samples

local instance memoryBatchesDigest : Sha256 := Sample.hexDigest

local instance memoryBatchesAlphabet : Alphabet := ⟨fun _ => false⟩

local instance memoryBatchesRedactor : Redactor := secretRedactor

namespace Sample

def unleased : Store where
  tasks := Table.empty.insert { id := "task", goal := "goal", repository := "repository" }

def readSource : SourcePointer where
  id := "read"
  taskId := "task"
  kind := .toolResult
  evidenceHash := Sha256.hexdigest "x = 1"
  toolCallId := some "call-1"
  capturedAt := 0

/-- What a file says. -/
def statedFact (id text : String) : MemoryRecord where
  id := id
  taskId := "task"
  kind := .semantic
  scopeId := "task"
  content := [("value", .str text)]
  retrievalText := text
  sourceIds := ["read"]
  createdAt := 0

/-- A fact that is stated. -/
def stated : MemoryBatch where
  sources := [readSource]
  records := [statedFact "first" "x = 1"]

/-- A fact that is stated, and stated again after another one. -/
def restated : MemoryBatch where
  sources := [readSource]
  records := [statedFact "first" "x = 1",
    { statedFact "other" "x = 2" with status := .superseded, supersededById := some "second" },
    { statedFact "second" "x = 1" with supersedesId := some "other" }]

/-- Records with their hashes. -/
def hashed (batch : MemoryBatch) : MemoryBatch :=
  { batch with records := batch.records.map fun record => { record with contentHash := record.computeContentHash } }

theorem closed_empty : MemoryTables.Closed {} where
  sources _ hrecord := absurd hrecord List.not_mem_nil
  links _ hrecord := absurd hrecord List.not_mem_nil
  entries _ hreport := absurd hreport List.not_mem_nil

/-- A fact that refers to nothing fits an empty memory. -/
theorem fits_stated : (hashed stated).Fits {} where
  statuses := by
    refine statusesAgree_of_own (fun record hrecord => ?_) _ _ _
    rw [List.mem_singleton.mp hrecord]
    exact MemoryBatch.heldId_of_first rfl rfl
  links earlier record later hrecords _ _ link hlink := by
    have hmem : record ∈ (hashed stated).records := by
      rw [hrecords]
      exact List.mem_append_right _ List.mem_cons_self
    rw [List.mem_singleton.mp hmem] at hlink
    cases hlink

end Sample

/-- A fact that is stated in a file is there, and the memory is as it should be. -/
theorem MemoryBatch.stated_settles : ∃ result tables',
    Returns (saveBatch Sample.unleased 0 none Sample.stated) {} result tables'
      ∧ MemoryBatch.Settled Sample.stated (Sample.hashed Sample.stated) {} tables' result := by
  have haccepted : ((saveBatch Sample.unleased 0 none Sample.stated).run {}).isOk = true := by
    rw [memoryBatchesDigest, Sample.hexDigest_eq]
    decide +kernel
  obtain ⟨result, hreturns⟩ := isOk_iff.mp haccepted
  have hredact : Sample.stated.redact = .ok (Sample.hashed Sample.stated) := by decide +kernel
  have hapart : ∀ taskId, Apart taskId ({} : MemoryTables).records :=
    fun taskId row hrow => absurd hrow List.not_mem_nil
  have hsettles := (MemoryBatch.batches_settle_iff hredact Sample.closed_empty hapart).2 _ _ hreturns
  exact ⟨result, _, hreturns, hsettles.mpr Sample.fits_stated⟩

/-- A fact that is stated again is held as it was first, so that the other one names a record that is not there. -/
theorem restated_not_settled :
    (∀ record ∈ Sample.restated.records, ∀ link ∈ record.links, link ∈ Sample.restated.records.map MemoryRecord.id)
      ∧ ∃ result tables', Returns (saveBatch Sample.unleased 0 none Sample.restated) {} result tables'
        ∧ ¬ MemoryBatch.Settled Sample.restated (Sample.hashed Sample.restated) {} tables' result := by
  refine ⟨by decide, ?_⟩
  have hrows : ((saveBatch Sample.unleased 0 none Sample.restated).run {}).toOption.map
      (fun saved => saved.2.records.rows.map fun row => (row.id, row.links))
        = some [("first", []), ("other", ["second"])] := by
    rw [memoryBatchesDigest, Sample.hexDigest_eq]
    decide +kernel
  cases hrun : (saveBatch Sample.unleased 0 none Sample.restated).run {} with
  | error e =>
      rw [hrun] at hrows
      cases hrows
  | ok saved =>
      rw [hrun] at hrows
      replace hrows : saved.2.records.rows.map (fun row => (row.id, row.links))
          = [("first", []), ("other", ["second"])] := Option.some.inj hrows
      refine ⟨saved.1, saved.2, hrun, fun hsettled => ?_⟩
      have hmem : ("other", ["second"]) ∈ saved.2.records.rows.map fun row => (row.id, row.links) := by
        rw [hrows]
        exact List.mem_cons_of_mem _ List.mem_cons_self
      obtain ⟨row, hrow, heq⟩ := List.mem_map.mp hmem
      have hlink : "second" ∈ row.links := by
        rw [(Prod.mk.inj heq).2]
        exact List.mem_singleton_self _
      obtain ⟨named, hnamed, -⟩ := hsettled.closed.links row hrow "second" hlink
      have hids : (named.id, named.links) ∈ saved.2.records.rows.map fun row => (row.id, row.links) :=
        List.mem_map_of_mem (Table.mem_of_get? hnamed)
      have hkey : named.id = "second" := Table.key_of_get? hnamed
      rw [hrows, hkey] at hids
      simp at hids

end Samples

end PatchLoop
