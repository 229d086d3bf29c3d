import Mathlib.Data.List.ReduceOption
import PatchLoop.Safety.WorkingBudget

/-!
# A working memory that is restored

A process may end after any call and another one restore the working memory from its last snapshot. The
memory that is restored has its items in another order, and no call can tell: whatever the calls are and
wherever restarts come between them, what is rendered, what is promoted, which call fails and what a
snapshot says are those of a process that never ended.
-/

namespace PatchLoop

namespace WorkingMemory

/-- The same memory, but for the order of its items. -/
def Alike (memory other : WorkingMemory) : Prop :=
  ∃ items : Table WorkingMemoryItem, items.rows.Perm memory.items.rows
    ∧ other = { memory with items := items }

theorem Alike.refl (memory : WorkingMemory) : Alike memory memory := ⟨memory.items, .refl _, rfl⟩

theorem Alike.trans {memory other third : WorkingMemory} (hfirst : Alike memory other)
    (hsecond : Alike other third) : Alike memory third := by
  obtain ⟨items, hitems, rfl⟩ := hfirst
  obtain ⟨rest, hrest, rfl⟩ := hsecond
  exact ⟨rest, hrest.trans hitems, rfl⟩

/-! ### What is seen -/

section Seen

variable {memory other : WorkingMemory}

theorem sortedItems_alike (halike : Alike memory other) : other.sortedItems = memory.sortedItems := by
  obtain ⟨items, hperm, rfl⟩ := halike
  refine Buckets.sortBy_eq ?_ ?_ Buckets.sortBy_pairwise
  · intro item hitem second hsecond hrank
    have hkey : item.key = second.key := congrArg (fun rank => (ofLex (ofLex rank).2).2) hrank
    exact List.inj_on_of_nodup_map items.nodup hitem hsecond hkey
  · exact Buckets.sortBy_perm.trans hperm.symm

theorem contextPayload_alike (halike : Alike memory other) :
    other.contextPayload = memory.contextPayload := by
  have htexts : ∀ kind, other.textsOfKind kind = memory.textsOfKind kind := by
    intro kind
    rw [textsOfKind, sortedItems_alike halike, textsOfKind]
  obtain ⟨items, hperm, rfl⟩ := halike
  have hlabelled : labelled { memory with items := items } = memory.labelled := by
    funext ⟨kind, label⟩
    unfold labelled
    dsimp only
    rw [htexts kind]
  unfold contextPayload
  rw [hlabelled]

theorem estimateCurrent_alike (halike : Alike memory other) :
    other.estimateCurrent = memory.estimateCurrent := by
  rw [estimateCurrent, render, contextPayload_alike halike, estimateCurrent, render]

theorem currentSnapshot_alike (halike : Alike memory other) :
    other.currentSnapshot = memory.currentSnapshot := by
  have hitems := sortedItems_alike halike
  have hestimate := estimateCurrent_alike halike
  obtain ⟨items, hperm, rfl⟩ := halike
  unfold currentSnapshot
  rw [hitems, hestimate]

end Seen

/-! ### Calls -/

section Calls

variable {memory other : WorkingMemory}

theorem choices_alike (halike : Alike memory other) : memory.choices.Perm other.choices := by
  obtain ⟨items, hperm, rfl⟩ := halike
  exact ((hperm.symm.filter mayEvict).map itemChoice).append_right _

theorem filter_alike (halike : Alike memory other) (keep : WorkingMemoryItem → Bool) :
    Alike { memory with items := memory.items.filter keep }
      { other with items := other.items.filter keep } := by
  obtain ⟨items, hperm, rfl⟩ := halike
  exact ⟨items.filter keep, hperm.filter keep, rfl⟩

theorem evict_alike (halike : Alike memory other) (choice : Choice) :
    Alike (memory.evict choice) (other.evict choice) := by
  obtain ⟨items, hperm, rfl⟩ := halike
  unfold evict
  dsimp only
  split
  · exact ⟨items.filter _, hperm.filter _, rfl⟩
  · exact ⟨items, hperm, rfl⟩

theorem rebalance_alike (halike : Alike memory other) :
    Except.Alike Alike memory.rebalance other.rebalance := by
  have hbudget : ∀ {m o : WorkingMemory}, Alike m o → o.tokenBudget = m.tokenBudget := by
    rintro m o ⟨items, hperm, rfl⟩
    rfl
  have hfits : ∀ m o, Alike m o → m.fits = o.fits := by
    intro m o h
    rw [fits, fits, estimateCurrent_alike h, hbudget h]
  have hshed := fun fuel => @Shedding.shed_alike _ _ _ fits choices evict Alike hfits
    (fun _ _ => choices_alike) (fun _ _ c h => evict_alike h c) fuel _ _ halike
  unfold rebalance
  rw [← (choices_alike halike).length_eq]
  rcases hshed memory.choices.length with ⟨shed, shed', hok, hok', hrelated⟩ | ⟨shed, shed', herror, herror', hrelated⟩
  · rw [hok, hok']
    refine .ok ?_
    rw [estimateCurrent_alike hrelated]
    obtain ⟨items, hperm, rfl⟩ := hrelated
    exact ⟨items, hperm, rfl⟩
  · rw [herror, herror']
    dsimp only
    rw [estimateCurrent_alike hrelated, hbudget hrelated]
    exact .error _

theorem changed_alike (halike : Alike memory other) :
    Except.Alike Alike memory.changed other.changed := by
  obtain ⟨items, hperm, rfl⟩ := halike
  exact rebalance_alike ⟨items, hperm, rfl⟩

theorem resolveOpenQuestion_alike (halike : Alike memory other) (key : String) :
    Except.Alike Alike (memory.resolveOpenQuestion key) (other.resolveOpenQuestion key) := by
  have hfound : other.items.get? ("question:" ++ key) = memory.items.get? ("question:" ++ key) := by
    obtain ⟨items, hperm, rfl⟩ := halike
    exact Table.get?_of_perm hperm _
  unfold resolveOpenQuestion
  rw [hfound]
  split
  · exact changed_alike (filter_alike halike _)
  · exact .ok halike

variable [Redactor]

theorem upsert_alike (halike : Alike memory other) (key : String) (kind : WorkingMemoryItemKind)
    (text : String) (pinned : Bool) (stepIndex : Nat) (sourceId : Option String) :
    Except.Alike Alike (memory.upsert key kind text pinned stepIndex sourceId)
      (other.upsert key kind text pinned stepIndex sourceId) := by
  obtain ⟨items, hperm, rfl⟩ := halike
  refine (Except.Alike.of_eq _).bind ?_
  rintro item _ rfl
  exact .ok ⟨items.upsert item, Table.upsert_perm hperm item, rfl⟩

theorem syncChangedPaths_alike (halike : Alike memory other) (paths : List String) (stepIndex : Nat) :
    Except.Alike Alike (memory.syncChangedPaths paths stepIndex)
      (other.syncChangedPaths paths stepIndex) := by
  refine Except.Alike.bind (.foldlM (filter_alike halike _) ?_) fun _ _ => changed_alike
  exact fun m o path h => upsert_alike h _ _ _ _ _ _

variable [Sha256] [UnicodeForms]

theorem pinConstraint_alike (halike : Alike memory other) (text : String) (stepIndex : Nat) :
    Except.Alike Alike (memory.pinConstraint text stepIndex) (other.pinConstraint text stepIndex) :=
  (upsert_alike halike _ _ _ _ _ _).bind fun _ _ => changed_alike

theorem pinProhibition_alike (halike : Alike memory other) (text : String) (stepIndex : Nat) :
    Except.Alike Alike (memory.pinProhibition text stepIndex) (other.pinProhibition text stepIndex) :=
  (upsert_alike halike _ _ _ _ _ _).bind fun _ _ => changed_alike

omit [Sha256] [UnicodeForms] in
theorem addOpenQuestion_alike (halike : Alike memory other) (key text : String) (stepIndex : Nat) :
    Except.Alike Alike (memory.addOpenQuestion key text stepIndex)
      (other.addOpenQuestion key text stepIndex) :=
  (upsert_alike halike _ _ _ _ _ _).bind fun _ _ => changed_alike

/-! ### Promotions -/

omit [Redactor] [Sha256] [UnicodeForms] in
theorem queuePromotion_alike (halike : Alike memory other) (key : String) (source : SourcePointer)
    (records : List MemoryRecord) :
    Alike (memory.queuePromotion key source records) (other.queuePromotion key source records) := by
  obtain ⟨items, hperm, rfl⟩ := halike
  unfold queuePromotion
  dsimp only
  generalize lastItems (memory.promotedKeys.filter (· ≠ key) ++ [key]) 256 = keys
  exact ⟨items, hperm, rfl⟩

omit [Redactor] [UnicodeForms] in
theorem promoteCompletedPlanItem_alike (halike : Alike memory other) (description : String)
    (evidence : List String) (source : SourcePointer) (promotionKey : String) (now : Int) :
    Except.Alike Alike (memory.promoteCompletedPlanItem description evidence source promotionKey now)
      (other.promoteCompletedPlanItem description evidence source promotionKey now) := by
  obtain ⟨items, hperm, rfl⟩ := halike
  refine (Except.Alike.of_eq _).bind ?_
  rintro semantic _ rfl
  refine (Except.Alike.of_eq _).bind ?_
  rintro episodic _ rfl
  unfold queuePromotion
  dsimp only
  generalize lastItems (memory.promotedKeys.filter (· ≠ promotionKey) ++ [promotionKey]) 256 = keys
  exact .ok ⟨items, hperm, rfl⟩

omit [Redactor] [UnicodeForms] in
theorem promoteVerification_alike (halike : Alike memory other) (source : SourcePointer)
    (result : ToolResult) (summary : String) (stepIndex : Nat) (now : Int) :
    Except.Alike Alike (memory.promoteVerification source result summary stepIndex now)
      (other.promoteVerification source result summary stepIndex now) := by
  have hqueued := fun key records => queuePromotion_alike halike key source records
  have hsame := halike
  obtain ⟨items, hperm, rfl⟩ := halike
  unfold promoteVerification
  dsimp only
  split
  · exact .ok hsame
  · refine (Except.Alike.of_eq _).bind ?_
    rintro record _ rfl
    exact .ok (hqueued _ [record])

theorem syncPlanItem_alike (halike : Alike memory other) (stepIndex : Nat)
    (source : Option SourcePointer) (now : Int) (item : PlanItem) :
    Except.Alike Alike (syncPlanItem stepIndex source now memory item)
      (syncPlanItem stepIndex source now other item) := by
  have hkeys : other.promotedKeys = memory.promotedKeys := by
    obtain ⟨items, hperm, rfl⟩ := halike
    rfl
  unfold syncPlanItem
  dsimp only
  rw [hkeys]
  split
  · split
    · exact .ok halike
    · split
      · exact .ok halike
      · exact promoteCompletedPlanItem_alike halike _ _ _ _ _
  · exact upsert_alike halike _ _ _ _ _ _

theorem syncPlan_alike (halike : Alike memory other) (plan : Option Plan) (stepIndex : Nat)
    (source : Option SourcePointer) (now : Int) :
    Except.Alike Alike (memory.syncPlan plan stepIndex source now)
      (other.syncPlan plan stepIndex source now) := by
  refine Except.Alike.bind (.foldlM (filter_alike halike _) ?_) fun _ _ => changed_alike
  exact fun m o item h => syncPlanItem_alike h stepIndex source now item

/-! ### Observations -/

theorem forgetRead_alike (halike : Alike memory other) (call : ToolCall) (result : ToolResult) :
    Alike (memory.forgetRead call result) (other.forgetRead call result) := by
  have hsame := halike
  obtain ⟨items, hperm, rfl⟩ := halike
  unfold forgetRead
  split
  · exact hsame
  · split
    · exact ⟨items.filter _, hperm.filter _, rfl⟩
    · exact hsame

omit [Redactor] [Sha256] [UnicodeForms] in
theorem appendEvent_alike (halike : Alike memory other) (event : WorkingMemoryEvent) :
    Except.Alike Alike (memory.appendEvent event) (other.appendEvent event) := by
  have hsame := halike
  obtain ⟨items, hperm, rfl⟩ := halike
  unfold appendEvent
  dsimp only
  split
  · exact .ok hsame
  · refine (Except.Alike.of_eq _).bind ?_
    rintro checked _ rfl
    split
    · exact .ok ⟨items, hperm, rfl⟩
    · exact .ok ⟨items, hperm, rfl⟩

theorem rememberRead_alike (halike : Alike memory other) (call : ToolCall) (result : ToolResult)
    (stepIndex : Nat) (source : SourcePointer) :
    Except.Alike Alike (memory.rememberRead call result stepIndex source)
      (other.rememberRead call result stepIndex source) := by
  have hsame := halike
  obtain ⟨items, hperm, rfl⟩ := halike
  unfold rememberRead
  split
  · exact .ok hsame
  · split
    · dsimp only
      refine upsert_alike ?_ _ _ _ _ _ _
      exact ⟨items, hperm, rfl⟩
    · exact .ok hsame

omit [Sha256] in
theorem rememberEvidence_alike (halike : Alike memory other) (result : ToolResult) (summary : String)
    (stepIndex : Nat) (source : SourcePointer) :
    Except.Alike Alike (memory.rememberEvidence result summary stepIndex source)
      (other.rememberEvidence result summary stepIndex source) := by
  have hterm : other.matchingTerm summary = memory.matchingTerm summary := by
    obtain ⟨items, hperm, rfl⟩ := halike
    rfl
  unfold rememberEvidence
  rw [hterm]
  split
  · exact .ok halike
  · split
    · exact upsert_alike halike _ _ _ _ _ _
    · exact .ok halike

omit [Sha256] [UnicodeForms] in
theorem rememberError_alike (halike : Alike memory other) (result : ToolResult) (summary : String)
    (stepIndex : Nat) (source : SourcePointer) :
    Except.Alike Alike (memory.rememberError result summary stepIndex source)
      (other.rememberError result summary stepIndex source) := by
  unfold rememberError
  dsimp only
  split
  · exact .ok (filter_alike halike _)
  · exact upsert_alike halike _ _ _ _ _ _

theorem observePlan_alike (halike : Alike memory other) (call : ToolCall) (result : ToolResult)
    (stepIndex : Nat) (plan : Option Plan) (source : SourcePointer) (now : Int) :
    Except.Alike Alike (memory.observePlan call result stepIndex plan source now)
      (other.observePlan call result stepIndex plan source now) := by
  unfold observePlan
  split
  · exact syncPlan_alike halike plan stepIndex source now
  · exact .ok halike

omit [Redactor] [UnicodeForms] in
theorem observeVerification_alike (halike : Alike memory other) (call : ToolCall) (result : ToolResult)
    (summary : String) (stepIndex : Nat) (source : SourcePointer) (now : Int) :
    Except.Alike Alike (memory.observeVerification call result summary stepIndex source now)
      (other.observeVerification call result summary stepIndex source now) := by
  unfold observeVerification
  split
  · exact promoteVerification_alike halike source result summary stepIndex now
  · exact .ok halike

/-- What is handed over is the same too. -/
def AlikeWith {β : Type} (first second : WorkingMemory × β) : Prop :=
  Alike first.1 second.1 ∧ first.2 = second.2

theorem observeTool_alike [FloatRepr] (halike : Alike memory other) (call : ToolCall)
    (result : ToolResult) (stepIndex : Nat) (plan : Option Plan) (changedPaths : List String)
    (now : Int) :
    Except.Alike AlikeWith (memory.observeTool call result stepIndex plan changedPaths now)
      (other.observeTool call result stepIndex plan changedPaths now) := by
  have hsource : other.toolSource call result stepIndex now = memory.toolSource call result stepIndex now := by
    obtain ⟨items, hperm, rfl⟩ := halike
    rfl
  unfold observeTool
  dsimp only
  rw [hsource]
  refine (Except.Alike.of_eq _).bind ?_
  rintro source _ rfl
  refine (appendEvent_alike (forgetRead_alike halike call result) _).bind fun _ _ halike => ?_
  refine (upsert_alike halike _ _ _ _ _ _).bind fun _ _ halike => ?_
  refine (rememberRead_alike halike _ _ _ _).bind fun _ _ halike => ?_
  refine (rememberEvidence_alike halike _ _ _ _).bind fun _ _ halike => ?_
  refine (rememberError_alike halike _ _ _ _).bind fun _ _ halike => ?_
  refine (syncChangedPaths_alike halike _ _).bind fun _ _ halike => ?_
  refine (observePlan_alike halike _ _ _ _ _ _).bind fun _ _ halike => ?_
  refine (observeVerification_alike halike _ _ _ _ _ _).bind fun _ _ halike => ?_
  refine (changed_alike halike).bind fun _ _ halike => ?_
  obtain ⟨items, hperm, rfl⟩ := halike
  exact .ok ⟨⟨items, hperm, rfl⟩, rfl⟩

variable [FloatRepr]

theorem perform_alike (halike : Alike memory other) (op : WorkingOp) :
    Except.Alike AlikeWith (memory.perform op) (other.perform op) := by
  cases op with
  | pinConstraint text stepIndex =>
      exact (pinConstraint_alike halike text stepIndex).bind fun _ _ h => .ok ⟨h, rfl⟩
  | pinProhibition text stepIndex =>
      exact (pinProhibition_alike halike text stepIndex).bind fun _ _ h => .ok ⟨h, rfl⟩
  | addOpenQuestion key text stepIndex =>
      exact (addOpenQuestion_alike halike key text stepIndex).bind fun _ _ h => .ok ⟨h, rfl⟩
  | resolveOpenQuestion key =>
      exact (resolveOpenQuestion_alike halike key).bind fun _ _ h => .ok ⟨h, rfl⟩
  | syncPlan plan stepIndex =>
      exact (syncPlan_alike halike plan stepIndex none 0).bind fun _ _ h => .ok ⟨h, rfl⟩
  | syncChangedPaths paths stepIndex =>
      exact (syncChangedPaths_alike halike paths stepIndex).bind fun _ _ h => .ok ⟨h, rfl⟩
  | observeTool call result stepIndex plan changedPaths now =>
      exact observeTool_alike halike call result stepIndex plan changedPaths now

end Calls

/-! ### Restarts -/

section Restarts

variable [UnicodeForms] [WordForms]

/-- Another process restores the memory from its snapshot. -/
def resume (goal : String) (memory : WorkingMemory) : Except WorkingMemoryError WorkingMemory := do
  let snapshot ← memory.snapshot
  restore memory.taskId goal memory.tokenBudget snapshot

/-- Nothing waits to be handed over. -/
structure Drained (memory : WorkingMemory) : Prop where
  sources : memory.pendingSources = Table.empty
  records : memory.pendingRecords = Table.empty

/-- What holds between two calls. -/
structure Between (goal : String) (memory : WorkingMemory) : Prop where
  steady : Steady memory memory
  fitting : Fitting memory
  drained : Drained memory
  tasked : memory.taskId ≠ ""
  budgeted : 128 ≤ memory.tokenBudget
  goalTerms : memory.goalTerms = goalTermsOf goal

omit [UnicodeForms] [WordForms] in
theorem rebalance_of_fitting {memory : WorkingMemory} (hfitting : Fitting memory) :
    memory.rebalance = .ok memory := by
  have hfits : memory.fits = true := decide_eq_true hfitting.fits
  have hshed : ∀ fuel, Shedding.shed fits choices evict fuel memory = .ok memory := by
    intro fuel
    cases fuel with
    | zero => rw [Shedding.shed, if_pos hfits]
    | succ fuel => rw [Shedding.shed, if_pos hfits]
  rw [rebalance, hshed]
  dsimp only
  rw [max_eq_left hfitting.counted]

omit [UnicodeForms] [WordForms] in
/-- The rows of a table, in any order, are its rows again once they are inserted. -/
theorem rows_reinserted {α : Type} [Keyed α String] {table : Table α} {rows : List α}
    (hperm : rows.Perm table.rows) : (rows.foldl Table.upsert Table.empty).rows = rows := by
  have hnodup : (rows.map Keyed.key).Nodup := (hperm.map Keyed.key).nodup_iff.mpr table.nodup
  rw [Table.rows_foldl_upsert]
  · rfl
  · exact hnodup

/-- What is restored is the memory itself, but for the order of its items. -/
theorem resume_alike {goal : String} {memory : WorkingMemory} (hbetween : Between goal memory) :
    ∃ restored, memory.resume goal = .ok restored ∧ Alike memory restored := by
  have hsnapshot : memory.snapshot = .ok memory.currentSnapshot :=
    snapshot_eq_ok hbetween.steady hbetween.fitting hbetween.tasked hbetween.budgeted
  have hevents : memory.phaseEvents.rows.foldl Table.upsert Table.empty = memory.phaseEvents :=
    Table.ext (rows_reinserted (.refl _))
  set items := memory.sortedItems.foldl Table.upsert Table.empty with hitems
  have halike : Alike memory { memory with items := items } := by
    refine ⟨items, ?_, rfl⟩
    rw [hitems, rows_reinserted memory.sortedItems_perm]
    exact memory.sortedItems_perm
  have hfitting : Fitting { memory with items := items } := by
    have hestimate := estimateCurrent_alike halike
    refine ⟨?_, ?_⟩
    · rw [hestimate]
      exact hbetween.fitting.fits
    · rw [hestimate]
      exact hbetween.fitting.counted
  refine ⟨_, ?_, halike⟩
  have hmaximum : max memory.maxEstimatedTokens memory.estimateCurrent = memory.maxEstimatedTokens :=
    max_eq_left hbetween.fitting.counted
  rw [resume, hsnapshot, ← rebalance_of_fitting hfitting]
  change restore memory.taskId goal memory.tokenBudget memory.currentSnapshot = _
  unfold restore currentSnapshot
  rw [if_neg (Nat.not_lt.mpr hbetween.budgeted), if_neg (not_not.mpr rfl), if_neg (not_not.mpr rfl)]
  dsimp only
  rw [hmaximum, hevents, ← hitems, ← hbetween.goalTerms, ← hbetween.drained.sources,
    ← hbetween.drained.records]

section Drained

variable [Redactor] [Sha256]

omit [WordForms] in
theorem drained_closed : Closed Drained where
  counted _ _ _ hdrained := ⟨hdrained.sources, hdrained.records⟩
  upserted _ _ _ hdrained := ⟨hdrained.sources, hdrained.records⟩
  filtered _ _ _ hdrained := ⟨hdrained.sources, hdrained.records⟩
  evicted _ _ _ hdrained := ⟨hdrained.sources, hdrained.records⟩

variable [FloatRepr]

omit [WordForms] in
/-- What a call has queued it hands over. -/
theorem perform_drained {memory : WorkingMemory} (op : WorkingOp) (hdrained : Drained memory) :
    Except.All (fun after => Drained after.1) (memory.perform op) := by
  cases op with
  | pinConstraint text stepIndex =>
      exact (pinConstraint_all drained_closed text stepIndex hdrained).bind fun _ hafter => .ok hafter
  | pinProhibition text stepIndex =>
      exact (pinProhibition_all drained_closed text stepIndex hdrained).bind fun _ hafter => .ok hafter
  | addOpenQuestion key text stepIndex =>
      exact (addOpenQuestion_all drained_closed key text stepIndex hdrained).bind
        fun _ hafter => .ok hafter
  | resolveOpenQuestion key =>
      exact (resolveOpenQuestion_all drained_closed key hdrained).bind fun _ hafter => .ok hafter
  | syncPlan plan stepIndex =>
      refine (syncPlan_all drained_closed ?_ plan stepIndex hdrained).bind fun _ hafter => .ok hafter
      exact fun _ _ _ _ hsource => absurd hsource (by simp)
  | syncChangedPaths paths stepIndex =>
      exact (syncChangedPaths_all drained_closed paths stepIndex hdrained).bind fun _ hafter => .ok hafter
  | observeTool call result stepIndex plan changedPaths now =>
      unfold perform observeTool
      have hany : ∀ {α : Type} {result : Except WorkingMemoryError α},
          Except.All (fun _ => True) result := fun _ _ => trivial
      refine hany.bind fun source _ => hany.bind fun memory _ => hany.bind fun memory _ => ?_
      refine hany.bind fun memory _ => hany.bind fun memory _ => hany.bind fun memory _ => ?_
      refine hany.bind fun memory _ => hany.bind fun memory _ => hany.bind fun memory _ => ?_
      exact hany.bind fun after _ => .ok ⟨rfl, rfl⟩

/-- A call that returns leaves a memory that can be restored. -/
theorem perform_between {goal : String} {memory : WorkingMemory} (op : WorkingOp)
    (hbetween : Between goal memory) :
    Except.All (fun after => Between goal after.1) (memory.perform op) := by
  intro after hafter
  have hsteady : Steady memory after.1 :=
    perform_all (steady_closed memory) op hbetween.steady after hafter
  exact {
    steady := { hsteady with taskId := rfl, tokenBudget := rfl, goalTerms := rfl }
    fitting := perform_fitting op hbetween.fitting after hafter
    drained := perform_drained op hbetween.drained after hafter
    tasked := by rw [hsteady.taskId]; exact hbetween.tasked
    budgeted := by rw [hsteady.tokenBudget]; exact hbetween.budgeted
    goalTerms := by rw [hsteady.goalTerms]; exact hbetween.goalTerms }

omit [FloatRepr] in
theorem start_between {taskId goal : String} {tokenBudget : Nat} {first : WorkingMemory}
    (htask : taskId ≠ "") (hstart : start taskId goal tokenBudget = .ok first) : Between goal first := by
  have hclosed := steady_closed { taskId, tokenBudget, goalTerms := goalTermsOf goal }
  have hsteady : Steady { taskId, tokenBudget, goalTerms := goalTermsOf goal } first :=
    start_all hclosed.toClosed ⟨rfl, rfl, rfl, Nat.zero_le _, List.nodup_nil, Nat.zero_le _⟩ first hstart
  obtain ⟨hfitting, hbudget⟩ := start_fitting first hstart
  exact {
    steady := { hsteady with taskId := rfl, tokenBudget := rfl, goalTerms := rfl }
    fitting := hfitting
    drained := start_all drained_closed ⟨rfl, rfl⟩ first hstart
    tasked := by rw [hsteady.taskId]; exact htask
    budgeted := by rw [hsteady.tokenBudget]; exact hbudget
    goalTerms := hsteady.goalTerms }

/-! ### Runs with restarts -/

/-- A run in which another process may take over between two calls. -/
def runResumed (goal : String) (memory : WorkingMemory) :
    List (Option WorkingOp) → Except WorkingMemoryError (WorkingMemory × List MemoryPromotionBatch)
  | [] => .ok (memory, [])
  | none :: rest => do
      let restored ← memory.resume goal
      restored.runResumed goal rest
  | some op :: rest => do
      let (next, batch) ← memory.perform op
      let (last, batches) ← next.runResumed goal rest
      return (last, batch :: batches)

/-- What a run shows: the snapshot and the text of its last state, and what it handed over. -/
def shown (result : WorkingMemory × List MemoryPromotionBatch) :
    WorkingMemorySnapshot × String × List MemoryPromotionBatch :=
  (result.1.currentSnapshot, result.1.render, result.2)

theorem runResumed_alike {goal : String} {memory other : WorkingMemory} (hbetween : Between goal memory)
    (halike : Alike memory other) (steps : List (Option WorkingOp)) :
    Except.Alike AlikeWith (memory.run steps.reduceOption) (other.runResumed goal steps) := by
  induction steps generalizing memory other with
  | nil => exact .ok ⟨halike, rfl⟩
  | cons step rest ih =>
      cases step with
      | none =>
          have hsame : other.resume goal = memory.resume goal := by
            have hsnapshot := currentSnapshot_alike halike
            have hids : other.taskId = memory.taskId ∧ other.tokenBudget = memory.tokenBudget := by
              obtain ⟨items, hperm, rfl⟩ := halike
              exact ⟨rfl, rfl⟩
            rw [resume, snapshot, hsnapshot, hids.1, hids.2]
            rfl
          obtain ⟨restored, hrestored, hrelated⟩ := resume_alike hbetween
          rw [List.reduceOption_cons_of_none, runResumed, hsame, hrestored]
          exact ih hbetween hrelated
      | some op =>
          rw [List.reduceOption_cons_of_some, runResumed, run]
          refine ((perform_alike halike op).with_all (perform_between op hbetween)).bind ?_
          rintro ⟨next, batch⟩ ⟨next', _⟩ ⟨hnext, hrelated, rfl⟩
          refine (ih hnext hrelated).bind ?_
          rintro ⟨last, batches⟩ ⟨last', _⟩ ⟨hlast, rfl⟩
          exact .ok ⟨hlast, rfl⟩

/-- Wherever other processes take over between the calls of a task, and however often, the same calls
fail, the same is handed over, and the snapshots and the texts of the memory are those of one process. -/
theorem resumed_as_run {taskId goal : String} {tokenBudget : Nat} {first : WorkingMemory}
    (htask : taskId ≠ "") (hstart : start taskId goal tokenBudget = .ok first)
    (steps : List (Option WorkingOp)) :
    (first.runResumed goal steps).map shown = (first.run steps.reduceOption).map shown := by
  have halike := runResumed_alike (start_between htask hstart) (Alike.refl first) steps
  symm
  refine halike.map_eq ?_
  rintro ⟨last, batches⟩ ⟨last', _⟩ ⟨hlast, rfl⟩
  have hrender : last'.render = last.render := by
    rw [render, contextPayload_alike hlast, render]
  rw [shown, shown, currentSnapshot_alike hlast, hrender]

end Drained

end Restarts

section Samples

local instance restoredMemoryDigest : Sha256 := Sample.hexDigest

local instance restoredMemoryForms : UnicodeForms := Sample.asciiForms

local instance restoredMemoryRedactor : Redactor := Sample.redactor

local instance restoredMemoryFloat : FloatRepr := Sample.floatRepr

local instance restoredMemoryWords : WordForms := ⟨Char.isAlphanum⟩

/-- Another process takes over before the test run that fails, and one after it. -/
theorem resumed_as_run_twice : ∃ first, start "task" Sample.rulesGoal 128 = .ok first
    ∧ (first.runResumed Sample.rulesGoal (none :: Sample.observed.map some ++ [none])).map shown
      = (first.run (none :: Sample.observed.map some ++ [none]).reduceOption).map shown := by
  obtain ⟨first, _, _, hfirst, -⟩ := Sample.observed_run
  exact ⟨first, hfirst, resumed_as_run (by decide) hfirst _⟩

end Samples

end WorkingMemory

end PatchLoop
