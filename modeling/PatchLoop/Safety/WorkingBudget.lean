import PatchLoop.Lib.Fallible
import PatchLoop.Memory.WorkingMemory
import PatchLoop.Runtime.Runs
import PatchLoop.Safety.FactRuns
import PatchLoop.Safety.WindowPairing

/-!
# The budget of the working memory

Whatever a task observes, its working memory fits the budget after each call that returns, its snapshot
passes the checks of a snapshot, and the rules that the goal states are still there.
-/

namespace PatchLoop

/-- A call of the working memory, as the layered memory and its clients make it. -/
inductive WorkingOp where
  | pinConstraint (text : String) (stepIndex : Nat)
  | pinProhibition (text : String) (stepIndex : Nat)
  | addOpenQuestion (key text : String) (stepIndex : Nat)
  | resolveOpenQuestion (key : String)
  | syncPlan (plan : Option Plan) (stepIndex : Nat)
  | syncChangedPaths (paths : List String) (stepIndex : Nat)
  | observeTool (call : ToolCall) (result : ToolResult) (stepIndex : Nat) (plan : Option Plan)
      (changedPaths : List String) (now : Int)

namespace WorkingMemory

section Runs

variable [Redactor] [Sha256] [UnicodeForms] [FloatRepr]

/-- What a call leaves, with what it hands over. -/
def perform (memory : WorkingMemory) (op : WorkingOp) :
    Except WorkingMemoryError (WorkingMemory × MemoryPromotionBatch) :=
  let silently (memory : WorkingMemory) :
      Except WorkingMemoryError (WorkingMemory × MemoryPromotionBatch) := .ok (memory, {})
  match op with
  | .pinConstraint text stepIndex => memory.pinConstraint text stepIndex >>= silently
  | .pinProhibition text stepIndex => memory.pinProhibition text stepIndex >>= silently
  | .addOpenQuestion key text stepIndex => memory.addOpenQuestion key text stepIndex >>= silently
  | .resolveOpenQuestion key => memory.resolveOpenQuestion key >>= silently
  | .syncPlan plan stepIndex => memory.syncPlan plan stepIndex none 0 >>= silently
  | .syncChangedPaths paths stepIndex => memory.syncChangedPaths paths stepIndex >>= silently
  | .observeTool call result stepIndex plan changedPaths now =>
      memory.observeTool call result stepIndex plan changedPaths now

/-- A run ends at the first call that fails. -/
def run (memory : WorkingMemory) :
    List WorkingOp → Except WorkingMemoryError (WorkingMemory × List MemoryPromotionBatch)
  | [] => .ok (memory, [])
  | op :: rest => do
      let (next, batch) ← memory.perform op
      let (last, batches) ← next.run rest
      return (last, batch :: batches)

end Runs

/-! ### What calls preserve -/

/-- The key of a rule that the goal or a client has stated. -/
def isRuleKey (key : String) : Bool := startsWith key "constraint:" || startsWith key "prohibition:"

/-- No key starts with this text and is the key of a rule. -/
def Apart (front : String) : Prop :=
  ∀ rule ∈ ["constraint:", "prohibition:"],
    ¬ rule.toList <+: front.toList ∧ ¬ front.toList <+: rule.toList

instance (front : String) : Decidable (Apart front) := List.decidableBAll _ _

theorem isRuleKey_of_startsWith {front key : String} (hfront : Apart front)
    (hkey : startsWith key front = true) : isRuleKey key = false := by
  have hrule : ∀ rule ∈ ["constraint:", "prohibition:"], startsWith key rule = false := by
    intro rule hmem
    by_contra hstarts
    rw [Bool.not_eq_false] at hstarts
    rcases List.prefix_or_prefix_of_prefix (List.isPrefixOf_iff_prefix.mp hstarts)
      (List.isPrefixOf_iff_prefix.mp hkey) with hprefix | hprefix
    · exact (hfront rule hmem).1 hprefix
    · exact (hfront rule hmem).2 hprefix
  rw [isRuleKey, hrule _ List.mem_cons_self, hrule _ (List.mem_cons_of_mem _ List.mem_cons_self)]
  rfl

theorem isRuleKey_append {front : String} (hfront : Apart front) (rest : String) :
    isRuleKey (front ++ rest) = false := by
  refine isRuleKey_of_startsWith hfront ?_
  rw [startsWith, String.toList_append]
  exact List.isPrefixOf_iff_prefix.mpr (List.prefix_append _ _)

/-- A rule is not among the keys that start with this text. -/
theorem keeps_rules {front : String} (hfront : Apart front) (item : WorkingMemoryItem)
    (hrule : isRuleKey item.key = true) : startsWith item.key front = false := by
  by_contra hstarts
  rw [Bool.not_eq_false] at hstarts
  rw [isRuleKey_of_startsWith hfront hstarts] at hrule
  cases hrule

/-- A rule does not have this key. -/
theorem keeps_other_rules {front rest : String} (hfront : Apart front) (item : WorkingMemoryItem)
    (hrule : isRuleKey item.key = true) : decide (item.key ≠ front ++ rest) = true := by
  rw [decide_eq_true_iff]
  intro hkey
  rw [hkey, isRuleKey_append hfront] at hrule
  cases hrule

section Closure

variable [Redactor] [Sha256] [UnicodeForms]

/-- A rule as it was stated: pinned, under the digest of its text. -/
def Stated (item : WorkingMemoryItem) : Prop :=
  item.pinned = true ∧ (item.kind = .constraint ∨ item.kind = .prohibition)
    ∧ ∃ text, item.key = item.kind.value ++ ":" ++ digest text ∧ item.text = shownText text

/-- A property that no write of a call breaks: a rule is only written over by one that was stated, and
is never removed. -/
structure Closed (P : WorkingMemory → Prop) : Prop where
  counted : ∀ memory revision maximum, P memory →
    P { memory with revision := revision, maxEstimatedTokens := maximum }
  upserted : ∀ memory item, isRuleKey item.key = false ∨ Stated item → P memory →
    P { memory with items := memory.items.upsert item }
  filtered : ∀ memory keep, (∀ item, isRuleKey item.key = true → keep item = true) → P memory →
    P { memory with items := memory.items.filter keep }
  evicted : ∀ memory, ∀ choice ∈ memory.choices, P memory → P (memory.evict choice)

/-- A property that no event and no promotion breaks either. -/
structure ClosedUnderPromotions (P : WorkingMemory → Prop) : Prop extends Closed P where
  happened : ∀ memory events count, P memory →
    P { memory with phaseEvents := events, evictedCount := count }
  queued : ∀ memory key source records, P memory → P (memory.queuePromotion key source records)
  drained : ∀ memory, P memory → P memory.drainPromotions.1

/-- A property that no write of an observation breaks. -/
structure ClosedUnderTools (P : WorkingMemory → Prop) : Prop extends ClosedUnderPromotions P where
  read : ∀ memory reads, (reads : Table ReadSignature).rows.length ≤ 512 → P memory →
    P { memory with readSignatures := reads }
  forgot : ∀ memory keep, P memory →
    P { memory with readSignatures := memory.readSignatures.filter keep }

end Closure

section Calls

variable [Redactor] [Sha256] [UnicodeForms] {P : WorkingMemory → Prop} {memory : WorkingMemory}

theorem rebalance_all (hclosed : Closed P) (hmemory : P memory) : Except.All P memory.rebalance := by
  intro after hafter
  unfold rebalance at hafter
  split at hafter
  · rename_i shed hshed
    cases hafter
    have hkept : P shed := Shedding.shed_preserves hclosed.evicted hmemory hshed
    exact hclosed.counted shed shed.revision _ hkept
  · cases hafter

theorem changed_all (hclosed : Closed P) (hmemory : P memory) : Except.All P memory.changed :=
  rebalance_all hclosed (hclosed.counted memory (memory.revision + 1) memory.maxEstimatedTokens hmemory)

theorem upsert_all (hclosed : Closed P) {key : String} {kind : WorkingMemoryItemKind} {text : String}
    {pinned : Bool} {stepIndex : Nat} {sourceId : Option String}
    (hrule : isRuleKey key = false) (hmemory : P memory) :
    Except.All P (memory.upsert key kind text pinned stepIndex sourceId) := by
  intro after hafter
  simp only [upsert, Except.bind_eq_ok_iff, Except.pure_eq_ok_iff] at hafter
  obtain ⟨item, hitem, rfl⟩ := hafter
  unfold WorkingMemoryItem.make at hitem
  split at hitem
  · split at hitem
    · cases hitem
      exact hclosed.upserted memory _ (Or.inl hrule) hmemory
    · cases hitem
  · cases hitem

/-- A rule is pinned under the digest of its text. -/
theorem upsert_stated (hclosed : Closed P) {key : String} {kind : WorkingMemoryItemKind} {text : String}
    {stepIndex : Nat} {sourceId : Option String} (hkey : key = kind.value ++ ":" ++ digest text)
    (hkind : kind = .constraint ∨ kind = .prohibition) (hmemory : P memory) :
    Except.All P (memory.upsert key kind text true stepIndex sourceId) := by
  intro after hafter
  simp only [upsert, Except.bind_eq_ok_iff, Except.pure_eq_ok_iff] at hafter
  obtain ⟨item, hitem, rfl⟩ := hafter
  unfold WorkingMemoryItem.make at hitem
  split at hitem
  · split at hitem
    · cases hitem
      exact hclosed.upserted memory _ (Or.inr ⟨rfl, hkind, text, hkey, rfl⟩) hmemory
    · cases hitem
  · cases hitem

theorem addOpenQuestion_all (hclosed : Closed P) (key text : String) (stepIndex : Nat)
    (hmemory : P memory) : Except.All P (memory.addOpenQuestion key text stepIndex) :=
  (upsert_all hclosed (isRuleKey_append (by decide) key) hmemory).bind
    fun _ => changed_all hclosed

theorem resolveOpenQuestion_all (hclosed : Closed P) (key : String) (hmemory : P memory) :
    Except.All P (memory.resolveOpenQuestion key) := by
  unfold resolveOpenQuestion
  split
  · refine changed_all hclosed (hclosed.filtered memory _ (fun item hrule => ?_) hmemory)
    exact keeps_other_rules (by decide) item hrule
  · exact .ok hmemory

theorem syncChangedPaths_all (hclosed : Closed P) (paths : List String) (stepIndex : Nat)
    (hmemory : P memory) : Except.All P (memory.syncChangedPaths paths stepIndex) := by
  unfold syncChangedPaths
  refine Except.All.bind (.foldlM ?_ ?_) fun _ => changed_all hclosed
  · refine hclosed.filtered memory _ (fun item hrule => ?_) hmemory
    rw [keeps_rules (by decide) item hrule]
    rfl
  · intro memory path _ hmemory
    exact upsert_all hclosed (isRuleKey_append (by decide) path) hmemory

theorem pinConstraint_all (hclosed : Closed P) (text : String) (stepIndex : Nat) (hmemory : P memory) :
    Except.All P (memory.pinConstraint text stepIndex) :=
  (upsert_stated hclosed rfl (Or.inl rfl) hmemory).bind fun _ => changed_all hclosed

theorem pinProhibition_all (hclosed : Closed P) (text : String) (stepIndex : Nat)
    (hmemory : P memory) : Except.All P (memory.pinProhibition text stepIndex) :=
  (upsert_stated hclosed rfl (Or.inr rfl) hmemory).bind fun _ => changed_all hclosed

/-- A plan is taken over item by item. -/
theorem syncPlan_all (hclosed : Closed P) {source : Option SourcePointer} {now : Int}
    (hpromotes : ∀ memory item source' promotionKey, source = some source' → P memory →
      Except.All P (promoteCompletedPlanItem memory (squeeze (PlanItem.description item))
        item.evidence source' promotionKey now))
    (plan : Option Plan) (stepIndex : Nat) (hmemory : P memory) :
    Except.All P (memory.syncPlan plan stepIndex source now) := by
  unfold syncPlan
  refine Except.All.bind (.foldlM ?_ ?_) fun _ => changed_all hclosed
  · refine hclosed.filtered memory _ (fun item hrule => ?_) hmemory
    rw [keeps_rules (by decide) item hrule]
    rfl
  · intro memory item _ hmemory
    unfold syncPlanItem
    split
    · split
      · exact .ok hmemory
      · dsimp only
        split
        · exact .ok hmemory
        · exact hpromotes memory item _ _ rfl hmemory
    · exact upsert_all hclosed (isRuleKey_append (by decide) _) hmemory

/-! ### Observations -/

theorem promoteCompletedPlanItem_all (hclosed : ClosedUnderPromotions P) {description : String}
    {evidence : List String} {source : SourcePointer} {promotionKey : String} {now : Int}
    (hmemory : P memory) :
    Except.All P (memory.promoteCompletedPlanItem description evidence source promotionKey now) := by
  unfold promoteCompletedPlanItem
  refine .bind (P := fun _ => True) (fun _ _ => trivial) fun semantic _ => ?_
  refine .bind (P := fun _ => True) (fun _ _ => trivial) fun episodic _ => ?_
  have hqueued := hclosed.queued memory promotionKey source [semantic, episodic] hmemory
  exact .ok (hclosed.happened _ Table.empty _ hqueued)

theorem promoteVerification_all (hclosed : ClosedUnderPromotions P) {source : SourcePointer}
    {result : ToolResult} {summary : String} {stepIndex : Nat} {now : Int} (hmemory : P memory) :
    Except.All P (memory.promoteVerification source result summary stepIndex now) := by
  unfold promoteVerification
  dsimp only
  split
  · exact .ok hmemory
  · refine .bind (P := fun _ => True) (fun _ _ => trivial) fun record _ => ?_
    exact .ok (hclosed.queued memory _ source [record] hmemory)

theorem forgetRead_all (hclosed : ClosedUnderTools P) {call : ToolCall} {result : ToolResult}
    (hmemory : P memory) : P (memory.forgetRead call result) := by
  unfold forgetRead
  split
  · exact hmemory
  · split
    · rename_i rawPath _ _
      have hforgot : P { memory with
          readSignatures := memory.readSignatures.filter (·.path ≠ Redactor.redactText rawPath) } :=
        hclosed.forgot memory _ hmemory
      refine hclosed.filtered _ _ (fun item hrule => ?_) hforgot
      exact keeps_other_rules (by decide) item hrule
    · exact hmemory

theorem appendEvent_all (hclosed : ClosedUnderPromotions P) {event : WorkingMemoryEvent}
    (hmemory : P memory) : Except.All P (memory.appendEvent event) := by
  intro after hafter
  unfold appendEvent at hafter
  split at hafter
  · cases hafter
    exact hmemory
  · simp only [Except.bind_eq_ok_iff] at hafter
    obtain ⟨checked, -, hafter⟩ := hafter
    split at hafter
    · cases hafter
      exact hclosed.happened memory _ _ hmemory
    · cases hafter
      exact hclosed.happened memory _ _ hmemory

omit [Redactor] [Sha256] [UnicodeForms] in
theorem length_last_le {reads : Table ReadSignature} (count : Nat) :
    (reads.last count).rows.length ≤ count := by
  rw [Table.last, List.length_drop]
  omega

theorem rememberRead_all (hclosed : ClosedUnderTools P) {call : ToolCall} {result : ToolResult}
    {stepIndex : Nat} {source : SourcePointer} (hmemory : P memory) :
    Except.All P (memory.rememberRead call result stepIndex source) := by
  unfold rememberRead
  split
  · exact .ok hmemory
  · split
    · refine upsert_all hclosed.toClosed (isRuleKey_append (by decide) _) ?_
      exact hclosed.read memory _ (length_last_le 512) hmemory
    · exact .ok hmemory

theorem rememberEvidence_all (hclosed : Closed P) {result : ToolResult} {summary : String}
    {stepIndex : Nat} {source : SourcePointer} (hmemory : P memory) :
    Except.All P (memory.rememberEvidence result summary stepIndex source) := by
  unfold rememberEvidence
  split
  · exact .ok hmemory
  · split
    · exact upsert_all hclosed (isRuleKey_append (by decide) _) hmemory
    · exact .ok hmemory

theorem rememberError_all (hclosed : Closed P) {result : ToolResult} {summary : String}
    {stepIndex : Nat} {source : SourcePointer} (hmemory : P memory) :
    Except.All P (memory.rememberError result summary stepIndex source) := by
  unfold rememberError
  dsimp only
  split
  · exact .ok (hclosed.filtered memory _ (keeps_other_rules (by decide)) hmemory)
  · exact upsert_all hclosed (isRuleKey_append (by decide) _) hmemory

theorem observePlan_all (hclosed : ClosedUnderPromotions P) {call : ToolCall} {result : ToolResult}
    {stepIndex : Nat} {plan : Option Plan} {source : SourcePointer} {now : Int} (hmemory : P memory) :
    Except.All P (memory.observePlan call result stepIndex plan source now) := by
  unfold observePlan
  split
  · refine syncPlan_all hclosed.toClosed ?_ plan stepIndex hmemory
    exact fun _ _ _ _ _ hmemory => promoteCompletedPlanItem_all hclosed hmemory
  · exact .ok hmemory

theorem observeVerification_all (hclosed : ClosedUnderPromotions P) {call : ToolCall} {result : ToolResult}
    {summary : String} {stepIndex : Nat} {source : SourcePointer} {now : Int} (hmemory : P memory) :
    Except.All P (memory.observeVerification call result summary stepIndex source now) := by
  unfold observeVerification
  split
  · exact promoteVerification_all hclosed hmemory
  · exact .ok hmemory

theorem observeTool_all [FloatRepr] (hclosed : ClosedUnderTools P) {call : ToolCall}
    {result : ToolResult} {stepIndex : Nat} {plan : Option Plan} {changedPaths : List String}
    {now : Int} (hmemory : P memory) :
    Except.All (fun after => P after.1)
      (memory.observeTool call result stepIndex plan changedPaths now) := by
  have htools := hclosed.toClosed
  unfold observeTool
  refine .bind (P := fun _ => True) (fun _ _ => trivial) fun source _ => ?_
  refine .bind (appendEvent_all hclosed.toClosedUnderPromotions (forgetRead_all hclosed hmemory)) fun memory hmemory => ?_
  refine .bind (upsert_all htools (isRuleKey_append (by decide) _) hmemory)
    fun memory hmemory => ?_
  refine .bind (rememberRead_all hclosed hmemory) fun memory hmemory => ?_
  refine .bind (rememberEvidence_all htools hmemory) fun memory hmemory => ?_
  refine .bind (rememberError_all htools hmemory) fun memory hmemory => ?_
  refine .bind (syncChangedPaths_all htools changedPaths stepIndex hmemory) fun memory hmemory => ?_
  refine .bind (observePlan_all hclosed.toClosedUnderPromotions hmemory) fun memory hmemory => ?_
  refine .bind (observeVerification_all hclosed.toClosedUnderPromotions hmemory) fun memory hmemory => ?_
  refine .bind (changed_all htools hmemory) fun memory hmemory => ?_
  exact .ok (hclosed.drained memory hmemory)

variable [FloatRepr]

theorem perform_all (hclosed : ClosedUnderTools P) (op : WorkingOp) (hmemory : P memory) :
    Except.All (fun after => P after.1) (memory.perform op) := by
  have htools := hclosed.toClosed
  cases op with
  | pinConstraint text stepIndex =>
      exact (pinConstraint_all htools text stepIndex hmemory).bind fun _ hafter => .ok hafter
  | pinProhibition text stepIndex =>
      exact (pinProhibition_all htools text stepIndex hmemory).bind fun _ hafter => .ok hafter
  | addOpenQuestion key text stepIndex =>
      exact (addOpenQuestion_all htools key text stepIndex hmemory).bind fun _ hafter => .ok hafter
  | resolveOpenQuestion key =>
      exact (resolveOpenQuestion_all htools key hmemory).bind fun _ hafter => .ok hafter
  | syncPlan plan stepIndex =>
      refine (syncPlan_all htools ?_ plan stepIndex hmemory).bind fun _ hafter => .ok hafter
      exact fun _ _ _ _ hsource => absurd hsource (by simp)
  | syncChangedPaths paths stepIndex =>
      exact (syncChangedPaths_all htools paths stepIndex hmemory).bind fun _ hafter => .ok hafter
  | observeTool call result stepIndex plan changedPaths now => exact observeTool_all hclosed hmemory

/-- What every call preserves, a run preserves. -/
theorem run_all (hperform : ∀ memory op, P memory → Except.All (fun after => P after.1) (perform memory op))
    (ops : List WorkingOp) (hmemory : P memory) :
    Except.All (fun after => P after.1) (memory.run ops) := by
  induction ops generalizing memory with
  | nil => exact .ok hmemory
  | cons op rest ih =>
      unfold run
      refine (hperform memory op hmemory).bind fun next hnext => ?_
      exact (ih hnext).bind fun last hlast => .ok hlast

end Calls

/-! ### Sizes -/

/-- What was fixed at the start, and the sizes of what is remembered. -/
structure Steady (first memory : WorkingMemory) : Prop where
  taskId : memory.taskId = first.taskId
  tokenBudget : memory.tokenBudget = first.tokenBudget
  goalTerms : memory.goalTerms = first.goalTerms
  reads : memory.readSignatures.rows.length ≤ 512
  promotedOnce : memory.promotedKeys.Nodup
  promotedFew : memory.promotedKeys.length ≤ 256

theorem length_lastItems_le {α : Type} (items : List α) (count : Nat) :
    (lastItems items count).length ≤ count := by
  rw [lastItems, List.length_drop]
  omega

theorem lastItems_sublist {α : Type} (items : List α) (count : Nat) :
    (lastItems items count).Sublist items :=
  List.drop_sublist _ _

theorem queuePromotion_steady {first memory : WorkingMemory} (hsteady : Steady first memory)
    (key : String) (source : SourcePointer) (records : List MemoryRecord) :
    Steady first (memory.queuePromotion key source records) := by
  unfold queuePromotion
  refine ⟨hsteady.taskId, hsteady.tokenBudget, hsteady.goalTerms, hsteady.reads, ?_, ?_⟩
  · have hother : (memory.promotedKeys.filter (· ≠ key) ++ [key]).Nodup := by
      refine List.nodup_append.mpr ⟨hsteady.promotedOnce.filter _, List.nodup_singleton key, ?_⟩
      rintro other hmem _ hkey rfl
      rw [List.mem_singleton] at hkey
      exact of_decide_eq_true (List.mem_filter.mp hmem).2 hkey
    dsimp only
    exact hother.sublist (lastItems_sublist _ _)
  · dsimp only
    exact length_lastItems_le _ 256

/-- What is rendered fits, and was counted. -/
structure Fitting (memory : WorkingMemory) : Prop where
  fits : memory.estimateCurrent ≤ memory.tokenBudget
  counted : memory.estimateCurrent ≤ memory.maxEstimatedTokens

theorem rebalance_fitting (memory : WorkingMemory) : Except.All Fitting memory.rebalance := by
  intro after hafter
  unfold rebalance at hafter
  split at hafter
  · rename_i shed hshed
    cases hafter
    have hfits : shed.fits = true := Shedding.fits_of_shed hshed
    exact ⟨of_decide_eq_true hfits, Nat.le_max_right _ _⟩
  · cases hafter

section Sizes

variable [Redactor] [Sha256] [UnicodeForms] {first memory : WorkingMemory}

theorem steady_closed (first : WorkingMemory) : ClosedUnderTools (Steady first) where
  counted _ _ _ hsteady := { hsteady with }
  upserted _ _ _ hsteady := { hsteady with }
  filtered _ _ _ hsteady := { hsteady with }
  evicted _ _ _ hsteady := { hsteady with }
  happened _ _ _ hsteady := { hsteady with }
  read _ _ hlength hsteady := { hsteady with reads := hlength }
  forgot _ keep hsteady :=
    { hsteady with reads := Nat.le_trans (List.length_filter_le keep _) hsteady.reads }
  queued _ key source records hsteady := queuePromotion_steady hsteady key source records
  drained _ hsteady := { hsteady with }

omit [Redactor] [Sha256] [UnicodeForms] in
theorem changed_fitting (memory : WorkingMemory) : Except.All Fitting memory.changed :=
  rebalance_fitting _

theorem perform_fitting [FloatRepr] (op : WorkingOp) (hfitting : Fitting memory) :
    Except.All (fun after => Fitting after.1) (memory.perform op) := by
  have hchanged : ∀ {α : Type} {first : Except WorkingMemoryError α}
      {rest : α → WorkingMemory}, Except.All Fitting (first >>= fun a => (rest a).changed) :=
    .bind (P := fun _ => True) (fun _ _ => trivial) fun a _ => changed_fitting _
  cases op with
  | pinConstraint text stepIndex => exact hchanged.bind fun _ hafter => .ok hafter
  | pinProhibition text stepIndex => exact hchanged.bind fun _ hafter => .ok hafter
  | addOpenQuestion key text stepIndex => exact hchanged.bind fun _ hafter => .ok hafter
  | resolveOpenQuestion key =>
      refine .bind (P := Fitting) ?_ fun _ hafter => .ok hafter
      unfold resolveOpenQuestion
      split
      · exact changed_fitting _
      · exact .ok hfitting
  | syncPlan plan stepIndex => exact hchanged.bind fun _ hafter => .ok hafter
  | syncChangedPaths paths stepIndex => exact hchanged.bind fun _ hafter => .ok hafter
  | observeTool call result stepIndex plan changedPaths now =>
      unfold perform observeTool
      have hany : ∀ {α : Type} {result : Except WorkingMemoryError α},
          Except.All (fun _ => True) result := fun _ _ => trivial
      refine hany.bind fun source _ => hany.bind fun memory _ => hany.bind fun memory _ => ?_
      refine hany.bind fun memory _ => hany.bind fun memory _ => hany.bind fun memory _ => ?_
      refine hany.bind fun memory _ => hany.bind fun memory _ => hany.bind fun memory _ => ?_
      exact (changed_fitting memory).bind fun after hafter => .ok ⟨hafter.fits, hafter.counted⟩

end Sizes

/-! ### Reads -/

section Reads

variable [Redactor] [Sha256] [UnicodeForms] {memory : WorkingMemory}

theorem reads_closed (reads : Table ReadSignature) :
    ClosedUnderPromotions fun memory => memory.readSignatures = reads where
  counted _ _ _ hreads := hreads
  upserted _ _ _ hreads := hreads
  filtered _ _ _ hreads := hreads
  evicted _ _ _ hreads := hreads
  happened _ _ _ hreads := hreads
  queued _ _ _ _ hreads := by
    unfold queuePromotion
    exact hreads
  drained _ hreads := hreads

/-- The reads that a read adds. -/
theorem rememberRead_reads (call : ToolCall) (result : ToolResult) (stepIndex : Nat)
    (source : SourcePointer) :
    Except.All (fun after => after.readSignatures =
        match call.rawPath with
        | none => memory.readSignatures
        | some rawPath =>
            if call.name = "read_file" && result.success then
              (memory.readSignatures.upsert
                { signature := callSignature call, path := Redactor.redactText rawPath }).last 512
            else memory.readSignatures)
      (memory.rememberRead call result stepIndex source) := by
  unfold rememberRead
  cases call.rawPath with
  | none => exact .ok rfl
  | some rawPath =>
      dsimp only
      split
      · exact upsert_all (reads_closed _).toClosed (isRuleKey_append (by decide) _) rfl
      · exact .ok rfl

/-- What an observation does to the reads is what the manager of reads does. -/
theorem observeTool_reads [FloatRepr] (call : ToolCall) (result : ToolResult) (stepIndex : Nat)
    (plan : Option Plan) (changedPaths : List String) (now : Int) :
    Except.All (fun after => { readSignatures := after.1.readSignatures }
        = WorkingMemoryManager.observeTool { readSignatures := memory.readSignatures } call result)
      (memory.observeTool call result stepIndex plan changedPaths now) := by
  set known := (memory.forgetRead call result).readSignatures with hknown
  have hclosed := reads_closed known
  unfold observeTool
  refine .bind (P := fun _ => True) (fun _ _ => trivial) fun source _ => ?_
  refine .bind (appendEvent_all hclosed hknown.symm) fun memory hmemory => ?_
  refine .bind (upsert_all hclosed.toClosed (isRuleKey_append (by decide) _) hmemory)
    fun memory hmemory => ?_
  refine .bind (rememberRead_reads call result stepIndex source) fun memory hreads => ?_
  rw [hmemory] at hreads
  have hpromotions := reads_closed memory.readSignatures
  have hafter := hpromotions.toClosed
  refine .bind (rememberEvidence_all hafter rfl) fun memory hmemory => ?_
  refine .bind (rememberError_all hafter hmemory) fun memory hmemory => ?_
  refine .bind (syncChangedPaths_all hafter changedPaths stepIndex hmemory) fun memory hmemory => ?_
  refine .bind (observePlan_all hpromotions hmemory) fun memory hmemory => ?_
  refine .bind (observeVerification_all hpromotions hmemory) fun memory hmemory => ?_
  refine .bind (changed_all hafter hmemory) fun memory hmemory => ?_
  refine .ok ?_
  change WorkingMemoryManager.mk memory.readSignatures = _
  rw [hmemory, hreads, hknown]
  unfold forgetRead WorkingMemoryManager.observeTool
  cases call.rawPath with
  | none => rfl
  | some rawPath =>
      dsimp only
      split
      · split
        · rfl
        · rfl
      · split
        · rfl
        · rfl

end Reads

/-! ### Rules -/

section Rules

variable [Redactor] [Sha256] [UnicodeForms] {memory : WorkingMemory} {key : String}

/-- A rule with this key is there. -/
def Holds (key : String) (memory : WorkingMemory) : Prop :=
  ∃ item, memory.items.get? key = some item ∧ Stated item

theorem holds_evict (hholds : Holds key memory) {choice : Choice} (hchoice : choice ∈ memory.choices) :
    Holds key (memory.evict choice) := by
  obtain ⟨item, hitem, hstated⟩ := hholds
  rcases List.mem_append.mp hchoice with hitems | hevents
  · obtain ⟨evicted, hmem, rfl⟩ := List.mem_map.mp hitems
    obtain ⟨hrow, hmay⟩ := List.mem_filter.mp hmem
    have hkey : key ≠ evicted.key := by
      rintro rfl
      cases hitem.symm.trans (Table.get?_of_mem hrow)
      rw [mayEvict, hstated.1] at hmay
      cases hmay
    refine ⟨item, ?_, hstated⟩
    have htable : (memory.evict (itemChoice evicted)).items
        = memory.items.filter (·.key ≠ evicted.key) := rfl
    have hkept : decide (item.key ≠ evicted.key) = true := by
      rw [decide_eq_true_iff, show item.key = key from Table.key_of_get? hitem]
      exact hkey
    rw [htable, Table.get?_filter]
    exact ⟨hitem, hkept⟩
  · obtain ⟨event, -, rfl⟩ := List.mem_map.mp hevents
    exact ⟨item, hitem, hstated⟩

theorem holds_closed (hrule : isRuleKey key = true) : ClosedUnderTools (Holds key) where
  counted _ _ _ hholds := hholds
  upserted memory item hitem hholds := by
    obtain ⟨old, hold, hstated⟩ := hholds
    unfold Holds
    rw [Table.get?_upsert]
    by_cases hkey : key = Keyed.key item
    · rw [if_pos hkey]
      refine ⟨item, rfl, hitem.resolve_left fun hfalse => ?_⟩
      rw [hkey, show Keyed.key item = item.key from rfl, hfalse] at hrule
      cases hrule
    · rw [if_neg hkey]
      exact ⟨old, hold, hstated⟩
  filtered memory keep hkeep hholds := by
    obtain ⟨item, hitem, hstated⟩ := hholds
    refine ⟨item, Table.get?_filter.mpr ⟨hitem, hkeep item ?_⟩, hstated⟩
    rw [show item.key = key from Table.key_of_get? hitem]
    exact hrule
  evicted memory choice hchoice hholds := holds_evict hholds hchoice
  happened _ _ _ hholds := hholds
  read _ _ _ hholds := hholds
  forgot _ _ hholds := hholds
  queued _ _ _ _ hholds := by
    unfold Holds queuePromotion
    exact hholds
  drained _ hholds := hholds

/-- A rule is rendered under the label of its kind, whatever the budget is. -/
def Shows (memory : WorkingMemory) (kind : WorkingMemoryItemKind) (text : String) : Prop :=
  ∃ label fields texts, (kind, label) ∈ WorkingMemoryItemKind.labels
    ∧ memory.contextPayload = .obj fields ∧ (label, .arr texts) ∈ fields ∧ .str text ∈ texts

omit [Sha256] [UnicodeForms] [Redactor] in
theorem shows_item {item : WorkingMemoryItem} (hitem : item ∈ memory.items.rows)
    (hkind : item.kind = .constraint ∨ item.kind = .prohibition) :
    memory.Shows item.kind item.text := by
  obtain ⟨label, hlabel⟩ : ∃ label, (item.kind, label) ∈ WorkingMemoryItemKind.labels := by
    rcases hkind with hkind | hkind
    · exact ⟨"constraints", by rw [hkind]; decide⟩
    · exact ⟨"prohibitions", by rw [hkind]; decide⟩
  have htext : item.text ∈ memory.textsOfKind item.kind := by
    refine List.mem_map_of_mem (List.mem_filter.mpr ⟨?_, decide_eq_true rfl⟩)
    exact (List.mem_insertionSort _).mpr hitem
  have hlabelled : memory.labelled (item.kind, label)
      = some (label, .arr ((memory.textsOfKind item.kind).map Json.str)) := by
    have hlarge : ¬ (memory.tokenBudget < 256
        ∧ (item.kind = .keyEvidence ∨ item.kind = .recentResult)) := by
      rintro ⟨-, hother⟩
      rcases hkind with hkind | hkind
      · rw [hkind] at hother
        exact absurd hother (by decide)
      · rw [hkind] at hother
        exact absurd hother (by decide)
    rw [labelled, if_neg hlarge, if_neg (List.ne_nil_of_mem htext)]
  refine ⟨label, _, _, hlabel, rfl, ?_, List.mem_map_of_mem htext⟩
  refine List.mem_append.mpr (Or.inl (List.mem_append.mpr (Or.inr ?_)))
  exact List.mem_filterMap.mpr ⟨_, hlabel, hlabelled⟩

omit [Redactor] in
/-- The key of a rule has its kind and its digest. -/
theorem key_inj {kind other : WorkingMemoryItemKind} {text stated : String}
    (hkind : kind = .constraint ∨ kind = .prohibition)
    (hother : other = .constraint ∨ other = .prohibition)
    (hkey : kind.value ++ ":" ++ digest text = other.value ++ ":" ++ digest stated) :
    kind = other ∧ digest text = digest stated := by
  have hsame : kind = other := by
    have hchars := congrArg (fun key => key.toList.head?) hkey
    simp only [String.toList_append] at hchars
    rcases hkind with rfl | rfl
    · rcases hother with rfl | rfl
      · rfl
      · exact absurd hchars (by simp [WorkingMemoryItemKind.value])
    · rcases hother with rfl | rfl
      · exact absurd hchars (by simp [WorkingMemoryItemKind.value])
      · rfl
  subst hsame
  exact ⟨rfl, String.append_right_inj _ |>.mp hkey⟩

omit [Redactor] [Sha256] in
theorem rule_of_sentenceKind {sentence : String} {kind : WorkingMemoryItemKind}
    (hkind : sentenceKind sentence = some kind) : kind = .constraint ∨ kind = .prohibition := by
  unfold sentenceKind at hkind
  dsimp only at hkind
  split at hkind
  · cases hkind
  · split at hkind
    · exact Or.inr (Option.some.inj hkind).symm
    · exact Or.inl (Option.some.inj hkind).symm

omit [Redactor] in
theorem isRuleKey_of_kind {kind : WorkingMemoryItemKind} {text : String}
    (hkind : kind = .constraint ∨ kind = .prohibition) :
    isRuleKey (kind.value ++ ":" ++ digest text) = true := by
  have hstarts : ∀ front rest : String, startsWith (front ++ rest) front = true := by
    intro front rest
    rw [startsWith, String.toList_append]
    exact List.isPrefixOf_iff_prefix.mpr (List.prefix_append _ _)
  rcases hkind with rfl | rfl
  · exact Bool.or_eq_true_iff.mpr (Or.inl (hstarts "constraint:" _))
  · exact Bool.or_eq_true_iff.mpr (Or.inr (hstarts "prohibition:" _))

theorem pinSentence_all {P : WorkingMemory → Prop} (hclosed : Closed P) (sentence : String)
    (hmemory : P memory) : Except.All P (memory.pinSentence sentence) := by
  unfold pinSentence
  split
  · exact .ok hmemory
  · rename_i kind hkind
    exact upsert_stated hclosed rfl (rule_of_sentenceKind hkind) hmemory

/-- A sentence that states a rule is there once it is pinned. -/
theorem holds_pinSentence {sentence : String} {kind : WorkingMemoryItemKind}
    (hkind : sentenceKind sentence = some kind) (memory : WorkingMemory) :
    Except.All (Holds (kind.value ++ ":" ++ digest sentence)) (memory.pinSentence sentence) := by
  intro after hafter
  simp only [pinSentence, hkind, upsert, Except.bind_eq_ok_iff, Except.pure_eq_ok_iff] at hafter
  obtain ⟨item, hitem, rfl⟩ := hafter
  unfold WorkingMemoryItem.make at hitem
  split at hitem
  · split at hitem
    · cases hitem
      exact ⟨_, Table.get?_upsert_self _ _, rfl, rule_of_sentenceKind hkind, sentence, rfl, rfl⟩
    · cases hitem
  · cases hitem

variable [WordForms]

/-- A sentence of the goal that states a rule is there from the start. -/
theorem holds_start {taskId goal sentence : String} {tokenBudget : Nat} {kind : WorkingMemoryItemKind}
    (hsentence : sentence ∈ sentencesOf (Redactor.redactText (squeeze goal)))
    (hkind : sentenceKind sentence = some kind) :
    Except.All (Holds (kind.value ++ ":" ++ digest sentence)) (start taskId goal tokenBudget) := by
  have hrule : isRuleKey (kind.value ++ ":" ++ digest sentence) = true :=
    isRuleKey_of_kind (rule_of_sentenceKind hkind)
  have hclosed := (holds_closed hrule).toClosed
  unfold start
  split
  · exact .error _
  · unfold initializeGoal
    refine .bind (P := fun _ => True) (fun _ _ => trivial) fun memory _ => ?_
    refine .bind (.foldlM_of_mem hsentence (holds_pinSentence hkind) ?_ memory) fun _ =>
      changed_all hclosed
    exact fun memory other hmemory => pinSentence_all hclosed other hmemory

variable [FloatRepr]

/-- Whatever a task observes, every rule that its goal states is shown to the model, in a text that has
the digest of the sentence. -/
theorem rules_shown {taskId goal sentence : String} {tokenBudget : Nat} {first memory : WorkingMemory}
    {ops : List WorkingOp} {batches : List MemoryPromotionBatch} {kind : WorkingMemoryItemKind}
    (hstart : start taskId goal tokenBudget = .ok first) (hrun : first.run ops = .ok (memory, batches))
    (hsentence : sentence ∈ sentencesOf (Redactor.redactText (squeeze goal)))
    (hkind : sentenceKind sentence = some kind) :
    ∃ text, digest text = digest sentence ∧ memory.Shows kind (shownText text) := by
  have hrule := rule_of_sentenceKind hkind
  have hruleKey : isRuleKey (kind.value ++ ":" ++ digest sentence) = true := isRuleKey_of_kind hrule
  have hclosed := holds_closed hruleKey
  have hfirst : Holds (kind.value ++ ":" ++ digest sentence) first :=
    holds_start hsentence hkind first hstart
  have hlast : Holds (kind.value ++ ":" ++ digest sentence) memory :=
    run_all (fun _ op => perform_all hclosed op) ops hfirst _ hrun
  obtain ⟨item, hitem, -, hitemKind, text, hkey, htext⟩ := hlast
  have hitemKey : item.key = kind.value ++ ":" ++ digest sentence := Table.key_of_get? hitem
  obtain ⟨rfl, hdigest⟩ := key_inj hitemKind hrule (hkey.symm.trans hitemKey)
  have hshows := shows_item (Table.mem_of_get? hitem) hitemKind
  rw [htext] at hshows
  exact ⟨text, hdigest, hshows⟩

/-! ### Snapshots -/

omit [Redactor] [Sha256] [UnicodeForms] [WordForms] [FloatRepr] in
theorem sortedItems_perm (memory : WorkingMemory) : memory.sortedItems.Perm memory.items.rows :=
  List.perm_insertionSort _ _

omit [Redactor] [Sha256] [UnicodeForms] [WordForms] [FloatRepr] in
/-- What is snapshot passes its own checks. -/
theorem snapshot_eq_ok {first : WorkingMemory} (hsteady : Steady first memory)
    (hfitting : Fitting memory) (htask : memory.taskId ≠ "") (hbudget : 128 ≤ memory.tokenBudget) :
    memory.snapshot = .ok memory.currentSnapshot := by
  have hkeys : (memory.sortedItems.map WorkingMemoryItem.key).Nodup :=
    (memory.sortedItems_perm.map WorkingMemoryItem.key).nodup_iff.mpr memory.items.nodup
  have hcalls : (memory.phaseEvents.rows.map WorkingMemoryEvent.callId).Nodup := memory.phaseEvents.nodup
  have hestimate : memory.estimateCurrent ≤ max memory.maxEstimatedTokens memory.estimateCurrent :=
    Nat.le_max_right _ _
  unfold snapshot WorkingMemorySnapshot.validate currentSnapshot
  rw [if_neg htask, if_neg (Nat.not_lt.mpr hbudget), if_neg (Nat.not_lt.mpr hsteady.reads),
    if_neg (Nat.not_lt.mpr hsteady.promotedFew), if_neg (not_not.mpr hkeys),
    if_neg (not_not.mpr hcalls), if_neg (not_not.mpr hsteady.promotedOnce),
    if_neg (Nat.not_lt.mpr hfitting.fits), if_neg (Nat.not_lt.mpr hestimate)]

omit [FloatRepr] in
/-- What holds of an empty memory holds of one that is started. -/
theorem start_all {P : WorkingMemory → Prop} (hclosed : Closed P) {taskId goal : String}
    {tokenBudget : Nat} (hempty : P { taskId, tokenBudget, goalTerms := goalTermsOf goal }) :
    Except.All P (start taskId goal tokenBudget) := by
  unfold start
  split
  · exact .error _
  · unfold initializeGoal
    refine .bind (upsert_all hclosed (by decide) hempty) fun memory hmemory => ?_
    refine .bind (.foldlM hmemory fun memory sentence _ => ?_) fun _ => changed_all hclosed
    exact pinSentence_all hclosed sentence

omit [FloatRepr] in
theorem start_fitting {taskId goal : String} {tokenBudget : Nat} :
    Except.All (fun memory => Fitting memory ∧ 128 ≤ tokenBudget) (start taskId goal tokenBudget) := by
  unfold start
  split
  · exact .error _
  · rename_i hbudget
    unfold initializeGoal
    refine .bind (P := fun _ => True) (fun _ _ => trivial) fun memory _ => ?_
    refine .bind (P := fun _ => True) (fun _ _ => trivial) fun memory _ => ?_
    exact (changed_fitting memory).mono fun after hafter => ⟨hafter, Nat.not_lt.mp hbudget⟩

/-- The state of a memory that was started and has run. -/
theorem run_steady {taskId goal : String} {tokenBudget : Nat} {first : WorkingMemory}
    {ops : List WorkingOp} {batches : List MemoryPromotionBatch}
    (hstart : start taskId goal tokenBudget = .ok first)
    (hrun : first.run ops = .ok (memory, batches)) :
    Steady { taskId, tokenBudget, goalTerms := goalTermsOf goal } memory ∧ Fitting memory
      ∧ 128 ≤ tokenBudget := by
  have hclosed := steady_closed { taskId, tokenBudget, goalTerms := goalTermsOf goal }
  have hfirst : Steady { taskId, tokenBudget, goalTerms := goalTermsOf goal } first :=
    start_all hclosed.toClosed ⟨rfl, rfl, rfl, Nat.zero_le _, List.nodup_nil, Nat.zero_le _⟩ first hstart
  obtain ⟨hfitting, hbudget⟩ := start_fitting first hstart
  exact ⟨run_all (fun _ op => perform_all hclosed op) ops hfirst _ hrun,
    run_all (fun _ op => perform_fitting op) ops hfitting _ hrun, hbudget⟩

/-- Whatever a task observes, what its working memory renders fits the budget after each call, and the
snapshot that a checkpoint keeps of it passes its checks. -/
theorem working_memory_fits {taskId goal : String} {tokenBudget : Nat} {first memory : WorkingMemory}
    {ops : List WorkingOp} {batches : List MemoryPromotionBatch} (htask : taskId ≠ "")
    (hstart : start taskId goal tokenBudget = .ok first)
    (hrun : first.run ops = .ok (memory, batches)) :
    estimateText memory.render ≤ tokenBudget ∧ memory.snapshot = .ok memory.currentSnapshot := by
  obtain ⟨hsteady, hfitting, hbudget⟩ := run_steady hstart hrun
  refine ⟨?_, ?_⟩
  · have hfits := hfitting.fits
    rw [hsteady.tokenBudget] at hfits
    exact hfits
  · refine snapshot_eq_ok hsteady hfitting ?_ ?_
    · rw [hsteady.taskId]
      exact htask
    · rw [hsteady.tokenBudget]
      exact hbudget

end Rules

section Samples

local instance workingBudgetDigest : Sha256 := Sample.hexDigest

local instance workingBudgetForms : UnicodeForms := Sample.asciiForms

local instance workingBudgetRedactor : Redactor := Sample.redactor

local instance workingBudgetFloat : FloatRepr := Sample.floatRepr

local instance workingBudgetWords : WordForms := ⟨Char.isAlphanum⟩

def Sample.rulesGoal : String := "Fix x. Never do z."

/-- A test run that fails. -/
def Sample.observed : List WorkingOp :=
  [.observeTool { id := "c", name := "run_tests", arguments := .obj [] }
    { callId := "c", toolName := "run_tests", success := false, output := "1 failed" } 1 none [] 0]

theorem Sample.observed_isOk :
    ((start "task" Sample.rulesGoal 128).bind fun first => first.run Sample.observed).isOk = true := by
  rw [workingBudgetDigest, Sample.hexDigest_eq]
  decide +kernel

theorem Sample.observed_run : ∃ first memory batches,
    start "task" Sample.rulesGoal 128 = .ok first
      ∧ first.run Sample.observed = .ok (memory, batches) := by
  obtain ⟨⟨memory, batches⟩, hok⟩ := Except.isOk_eq_true_iff.mp Sample.observed_isOk
  obtain ⟨first, hfirst, hrun⟩ := Except.bind_eq_ok_iff.mp hok
  exact ⟨first, memory, batches, hfirst, hrun⟩

/-- The rule of the goal is shown after a failure. -/
theorem rules_shown_after_failure : ∃ first memory batches,
    start "task" Sample.rulesGoal 128 = .ok first
      ∧ first.run Sample.observed = .ok (memory, batches)
      ∧ ∃ text, digest text = digest "Never do z"
        ∧ memory.Shows .prohibition (shownText text) := by
  obtain ⟨first, memory, batches, hfirst, hrun⟩ := Sample.observed_run
  refine ⟨first, memory, batches, hfirst, hrun, rules_shown hfirst hrun ?_ ?_⟩
  · decide +kernel
  · decide +kernel

/-- After the failure the memory fits the least budget that it may have. -/
theorem working_memory_fits_after_failure : ∃ first memory batches,
    start "task" Sample.rulesGoal 128 = .ok first
      ∧ first.run Sample.observed = .ok (memory, batches)
      ∧ estimateText memory.render ≤ 128 ∧ memory.snapshot = .ok memory.currentSnapshot := by
  obtain ⟨first, memory, batches, hfirst, hrun⟩ := Sample.observed_run
  exact ⟨first, memory, batches, hfirst, hrun, working_memory_fits (by decide) hfirst hrun⟩

end Samples

end WorkingMemory

end PatchLoop
