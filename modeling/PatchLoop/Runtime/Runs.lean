import PatchLoop.Runtime.Loop
import PatchLoop.Store.ResultChanges

/-!
# Runs of the runtime

A task is worked on by one process after the other: each takes up what the one before it has left in
the store, when that one has been stopped, has paused or has ended. What a run preserves is what each
action of a process preserves, its own and those of the other parties. The methods that touch neither
the conversation nor the results of calls are verified here, for every assertion that does not speak of
the fields they change.
-/

namespace PatchLoop

open Transaction
open Process (Assertion Ensures Keeps keeps_bind keeps_pure keeps_throw keeps_read)

/-! ### The fields of the runtime -/

section Fields

variable {α : Type} {I : Assertion Mark System}

theorem getRuntime_keeps : Keeps I getRuntime := keeps_read

theorem currentFiles_keeps : Keeps I currentFiles := keeps_read

theorem ensures_orException {P S : Assertion Mark System} {value : Except String α}
    {E : Failure → Assertion Mark System}
    (hE : ∀ text sys past, P sys past → E (.exception text) sys past) :
    Ensures P (orException value) (fun a sys past => P sys past ∧ value = .ok a) E S := by
  cases value with
  | ok a => exact Process.ensures_pure fun _ _ h => ⟨h, rfl⟩
  | error text => exact Process.ensures_throw (hE text)

theorem orException_keeps {value : Except String α} : Keeps I (orException value) := by
  cases value with
  | ok a => exact keeps_pure
  | error text => exact keeps_throw

theorem buildReport_keeps : Keeps I buildReport := by
  refine keeps_bind getRuntime_keeps fun runtime => ?_
  split
  · exact keeps_throw
  · exact keeps_pure

end Fields

variable [Sha256]

/-! ### Other parties -/

/-- The call is none by which a process of the runtime records the conversation of the task and the
results of its calls, and does not delete the task. -/
def Call.Outside (taskId : String) : Call → Prop
  | .op ⟨_, .saveCheckpoint checkpoint _⟩ => checkpoint.taskId ≠ taskId
  | .op ⟨_, .commitCheckpoint checkpoint _ _⟩ => checkpoint.taskId ≠ taskId
  | .op ⟨_, .recordStep step _⟩ => step.taskId ≠ taskId
  | .op ⟨_, .prepareEffectBatch step _ _ _⟩ => step.taskId ≠ taskId
  | .op ⟨_, .recordToolCall id _ _ _⟩ => id ≠ taskId
  | .op ⟨_, .commitToolResult id _ _ _ _⟩ => id ≠ taskId
  | .op ⟨_, .commitEffect effect _ _ _ _ _⟩ => effect.taskId ≠ taskId
  | .op ⟨_, .settleUnexecutedEffect _ _ _ _ _ guard⟩ => guard.taskId ≠ taskId
  | .deleteTask id => id ≠ taskId
  | _ => True

/-- The host runs the task under a lease of the task. -/
structure Host.Serves (host : Host) (taskId : String) : Prop where
  task : host.taskId = taskId
  guard : host.guard.taskId = taskId
  others : ∀ n, ∀ call ∈ host.others n, call.Outside taskId

/-- A process of the runtime, which crosses at most so many step boundaries. -/
structure Incarnation where
  host : Host
  fuel : Nat

section Incarnations

variable [Uuid5] [Redactor]

/-- A process on the store and the repository that it finds. -/
def incarnate (sys : System) (incarnation : Incarnation) : System × List Mark :=
  let ran := resumeTask incarnation.host incarnation.fuel ⟨sys, 0⟩
  (ran.world.state, ran.trace)

/-- One process after the other, with all that they leave in the trace. -/
def runIncarnations (sys : System) (incarnations : List Incarnation) : System × List Mark :=
  Process.arrive incarnate sys incarnations

end Incarnations

/-! ### A sample process -/

namespace Sample

/-- A name-based id that keeps the name. -/
@[reducible] def uuid5 : Uuid5 := ⟨fun name => s!"uuid5({name})"⟩

/-- A redactor that finds no secret. -/
@[reducible] def redactor : Redactor := ⟨id, fun _ => false⟩

/-- A store in which task `a` of session `s` is claimed under execution `x`, and an empty repository. -/
def system (s : Store) : System where
  store := s
  files := fun _ => none
  runtime := { task := task "a" }

/-- A process that owns execution `x` of task `a`, whose provider always answers this, with no tools. -/
def host (response : ModelResponse) : Host where
  taskId := "a"
  guard := guard "x" "a"
  gateway := { tools := [], policy := {}, resolvePath := .ok }
  stable := false
  clock := fun _ => 1
  newId := fun moment => s!"id-{moment}"
  provider := fun _ => .ok response

/-- A user turn that other parties append before the first action of a process. -/
def interrupting (content : String) : Nat → List Call
  | 0 => [.op ⟨1, .appendTurn { id := "u", sessionId := "s", role := .user, content } none⟩]
  | _ => []

end Sample

/-! ### Actions -/

variable {host : Host} {α : Type} {P S : Assertion Mark System} {Q : α → Assertion Mark System}
  {E : Failure → Assertion Mark System}

theorem ensures_ask {answer : Nat → Except Failure α} (hstable : Process.Stable host.among P)
    (hS : ∀ sys past, P sys past → S sys past)
    (hQ : ∀ n a sys past, answer n = .ok a → P sys past → Q a sys past)
    (hE : ∀ n e sys past, answer n = .error e → P sys past → E e sys past) :
    Ensures P (ask host answer) Q E S := by
  refine Process.ensures_act hstable hS ?_ ?_
  · intro n sys past a sys' hP hok
    cases hanswer : answer n with
    | error e => simp [hanswer, Except.map] at hok
    | ok a' =>
        simp only [hanswer, Except.map, Except.ok.injEq, Prod.mk.injEq] at hok
        obtain ⟨rfl, rfl⟩ := hok
        exact hQ n _ _ _ hanswer hP
  · intro n sys past e hP herror
    cases hanswer : answer n with
    | error e' =>
        simp only [hanswer, Except.map, Except.error.injEq] at herror
        subst herror
        exact hE n _ _ _ hanswer hP
    | ok a => simp [hanswer, Except.map] at herror

omit [Sha256] in
/-- The check of references changes nothing. -/
theorem checkingReferences_returns {action : Action α} {s s' : Store} {a : α}
    (hreturns : (checkingReferences action).Returns s a s') : action.Returns s a s' := by
  simp only [checkingReferences, bind_returns, get_returns, raiseIf_returns, pure_returns,
    existsAndEq, true_and] at hreturns
  exact hreturns.choose_spec.1

theorem ensures_runtimeCall {action : Timestamp → Action α}
    (hstable : Process.Stable host.among P) (hS : ∀ sys past, P sys past → S sys past)
    (hQ : ∀ now sys past a store, P sys past → (action now).Returns sys.store a store →
      Q a (sys.withStore store) past)
    (hE : ∀ error sys past, P sys past → E (.store error) sys past) :
    Ensures P (runtimeCall host action) Q E S := by
  refine Process.ensures_act hstable hS ?_ ?_
  · intro n sys past a sys' hP hok
    split at hok
    · rename_i result store hrun
      cases hok
      exact hQ _ _ _ _ _ hP (checkingReferences_returns hrun)
    · cases hok
  · intro n sys past e hP herror
    split at herror
    · cases herror
    · cases herror
      exact hE _ _ _ hP

theorem ensures_markedCall {mark : Store → Bool → Option Mark} {action : Timestamp → Action α}
    (hstable : Process.Stable host.among P) (hS : ∀ sys past, P sys past → S sys past)
    (hQ : ∀ now sys past a store, P sys past → (action now).Returns sys.store a store →
      Q a (sys.withStore store) (past ++ (mark sys.store true).toList))
    (hE : ∀ error sys past, P sys past →
      E (.store error) sys (past ++ (mark sys.store false).toList)) :
    Ensures P (markedCall host mark action) Q E S := by
  let noted : Option Mark × Except StoreError α → Assertion Mark System :=
    fun result sys past =>
      (∀ a, result.2 = .ok a → Q a sys (past ++ result.1.toList))
        ∧ ∀ error, result.2 = .error error → E (.store error) sys (past ++ result.1.toList)
  refine Process.ensures_bind (Q := noted) (Process.ensures_act hstable hS ?_ ?_) ?_
  · intro n sys past result sys' hP hok
    split at hok
    · rename_i a store hrun
      cases hok
      refine ⟨fun b hb => ?_, fun error herror => (by cases herror)⟩
      cases hb
      exact hQ _ _ _ _ _ hP (checkingReferences_returns hrun)
    · cases hok
      refine ⟨fun b hb => (by cases hb), fun error herror => ?_⟩
      cases herror
      exact hE _ _ _ hP
  · intro n sys past e hP herror
    split at herror
    · cases herror
    · cases herror
  · rintro ⟨entry, outcome⟩
    cases outcome with
    | ok a =>
        have hrest : Ensures (noted (none, .ok a)) (pure a) Q E S := by
          refine Process.ensures_pure fun sys past hnoted => ?_
          have hdone := hnoted.1 a rfl
          rwa [Option.toList_none, List.append_nil] at hdone
        cases entry with
        | none => exact hrest
        | some entry =>
            refine Process.ensures_bind (Process.ensures_note fun sys past hnoted => ?_) fun _ => hrest
            simpa [noted] using hnoted
    | error error =>
        have hrest : Ensures (noted (none, .error error))
            (throw (.store error) : RuntimeProcess α) Q E S := by
          refine Process.ensures_throw fun sys past hnoted => ?_
          have hfailed := hnoted.2 error rfl
          rwa [Option.toList_none, List.append_nil] at hfailed
        cases entry with
        | none => exact hrest
        | some entry =>
            refine Process.ensures_bind (Process.ensures_note fun sys past hnoted => ?_) fun _ => hrest
            simpa [noted] using hnoted

/-! ### Assertions that the plain methods keep -/

/-- The operations of the runtime that touch neither the conversation nor the results of calls. -/
def Op.Plain : Op → Prop
  | .updateTask .. | .settleControl .. | .appendTurn .. | .prepareTaskExecution ..
  | .requestEffectApproval .. | .claimEffect .. | .markEffectUnknown .. => True
  | _ => False

/-- The assertion survives the other parties, the plain operations, and changes of the repository and
of the fields of the runtime other than the prompt cache. -/
structure Tame (host : Host) (I : Assertion Mark System) : Prop where
  stable : Process.Stable host.among I
  runtime : ∀ sys past runtime, runtime.promptCache = sys.runtime.promptCache → I sys past →
    I (sys.withRuntime runtime) past
  files : ∀ sys past files, I sys past → I { sys with files } past
  plain : ∀ now op sys past store, op.Plain → I sys past →
    (exec now op).Returns sys.store () store → I (sys.withStore store) past

namespace Tame

variable {I : Assertion Mark System} (hI : Tame host I)

include hI

theorem ask {answer : Nat → Except Failure α} : Keeps I (ask host answer) :=
  ensures_ask hI.stable (fun _ _ h => h) (fun _ _ _ _ _ h => h) fun _ _ _ _ _ h => h

/-- A call that reads the store. -/
theorem reads {action : Action α} {H : α → Store → Prop}
    (hreads : ∀ s a s', action.Returns s a s' → s' = s ∧ H a s) :
    Ensures I (runtimeCall host fun _ => action) (fun a sys past => I sys past ∧ H a sys.store)
      (fun _ => I) I := by
  refine ensures_runtimeCall hI.stable (fun _ _ h => h) ?_ fun _ _ _ h => h
  intro now sys past a store hP hreturns
  obtain ⟨rfl, hholds⟩ := hreads _ _ _ hreturns
  exact ⟨hP, hholds⟩

theorem query {read : Store → α} : Keeps I (runtimeCall host fun _ => Transaction.query read) :=
  (hI.reads (H := fun _ _ => True) fun _ _ _ hreturns =>
    ⟨(query_returns.mp hreturns).2, trivial⟩).weaken (fun _ _ h => h) (fun _ _ _ h => h.1)
      (fun _ _ _ h => h) fun _ _ h => h

/-- A plain operation. -/
theorem call {action : Timestamp → Action α} (op : Timestamp → Op)
    (hop : ∀ now, exec now (op now) = discard (action now)) (hplain : ∀ now, (op now).Plain) :
    Keeps I (runtimeCall host action) := by
  refine ensures_runtimeCall hI.stable (fun _ _ h => h) ?_ fun _ _ _ h => h
  intro now sys past a store hP hreturns
  refine hI.plain now (op now) sys past store (hplain now) hP ?_
  rw [hop]
  exact discard_returns.mpr ⟨a, hreturns⟩

theorem modifyRuntime {change : Runtime → Runtime}
    (hcache : ∀ runtime, (change runtime).promptCache = runtime.promptCache) :
    Keeps I (modifyRuntime change) :=
  Process.ensures_update fun sys past hP => hI.runtime sys past _ (hcache sys.runtime) hP

theorem setTask {task : Task} : Keeps I (setTask task) := hI.modifyRuntime fun _ => rfl

theorem modifyGateway {change : ToolGateway.State → ToolGateway.State} :
    Keeps I (modifyGateway change) :=
  hI.modifyRuntime fun _ => rfl

theorem observeResult
    {observe : String → ToolGateway.State → ToolResult × ToolGateway.State} :
    Keeps I (observeResult host observe) := by
  refine Process.ensures_act hI.stable (fun _ _ h => h) ?_ ?_
  · intro n sys past a sys' hP hok
    cases hok
    exact hI.runtime sys past _ rfl hP
  · intro n sys past e hP herror
    cases herror

theorem assertOwnership : Keeps I (assertOwnership host) := hI.ask

theorem requireSession {sessionId : String} :
    Keeps I (runtimeCall host fun _ => requireSession sessionId) :=
  (hI.reads (H := fun _ _ => True) fun _ _ _ hreturns =>
    ⟨(requireSession_returns.mp hreturns).2, trivial⟩).weaken (fun _ _ h => h) (fun _ _ _ h => h.1)
      (fun _ _ _ h => h) fun _ _ h => h

/-- The effect of an id that is read has this id. -/
theorem requireEffect {effectId : String} :
    Ensures I (runtimeCall host fun _ => requireEffect effectId)
      (fun effect sys past => I sys past ∧ sys.store.LoadsEffect effectId effect) (fun _ => I) I :=
  hI.reads fun _ _ _ hreturns => (requireEffect_returns.mp hreturns).symm

theorem getRecoveryDisposition {effectId : String} :
    Keeps I (runtimeCall host fun _ => getRecoveryDisposition effectId) :=
  hI.query

end Tame

namespace Tame

variable {I : Assertion Mark System} (hI : Tame host I)

include hI

theorem transitionTask {target : TaskStatus} {message : Option String} :
    Keeps I (transitionTask target message) :=
  keeps_bind getRuntime_keeps fun _ => keeps_bind orException_keeps fun _ => hI.setTask

theorem transitionCondition {target : TaskRuntimeCondition} :
    Keeps I (transitionCondition target) :=
  keeps_bind getRuntime_keeps fun _ => keeps_bind orException_keeps fun _ => hI.setTask

theorem appendHistory {result : ToolResult} : Keeps I (appendHistory result) := hI.modifyGateway

theorem effectConfigVersion : Keeps I (effectConfigVersion host) := by
  refine keeps_bind getRuntime_keeps fun runtime => ?_
  split
  · exact keeps_pure
  · exact keeps_bind hI.requireSession fun _ => keeps_pure

theorem currentEventSequence : Keeps I (currentEventSequence host) := by
  refine keeps_bind getRuntime_keeps fun runtime => ?_
  split
  · exact keeps_pure
  · exact keeps_bind hI.requireSession fun _ => keeps_pure

theorem getPendingControl {taskId : String} :
    Keeps I (runtimeCall host fun _ => getPendingControl taskId) :=
  hI.query

theorem listSteps {taskId : String} : Keeps I (runtimeCall host fun _ => listSteps taskId) :=
  hI.query

theorem listEffects {taskId : String} : Keeps I (runtimeCall host fun _ => listEffects taskId) :=
  hI.query

theorem listTurns {sessionId : String} {afterSequence : Nat} :
    Keeps I (runtimeCall host fun _ => listTurns sessionId afterSequence) := by
  refine (hI.reads (H := fun _ _ => True) fun s _ s' hreturns => ⟨?_, trivial⟩).weaken
    (fun _ _ h => h) (fun _ _ _ h => h.1) (fun _ _ _ h => h) fun _ _ h => h
  simp only [PatchLoop.listTurns, bind_returns, requireSession_returns, query_returns, existsAndEq,
    true_and, and_assoc] at hreturns
  exact hreturns.choose_spec.2.2

theorem pendingInputTurns {afterSequence : Nat} :
    Keeps I (pendingInputTurns host afterSequence) := by
  refine keeps_bind getRuntime_keeps fun runtime => ?_
  split
  · exact keeps_pure
  · exact hI.listTurns

section Persisting

variable [Redactor]

theorem persistTask : Keeps I (persistTask host) :=
  keeps_bind getRuntime_keeps fun _ =>
    keeps_bind (hI.call (fun _ => .updateTask _ _ _) (fun _ => rfl) fun _ => trivial) fun _ =>
      hI.setTask

theorem failTask {message : String} : Keeps I (failTask host message) :=
  keeps_bind buildReport_keeps fun _ => keeps_bind hI.transitionTask fun _ => hI.persistTask

theorem appendAssistantTurn {content : String} : Keeps I (appendAssistantTurn host content) := by
  refine keeps_bind getRuntime_keeps fun runtime => ?_
  split
  · exact keeps_pure
  · split
    · exact keeps_pure
    · refine keeps_bind hI.ask fun _ => ?_
      refine keeps_bind ?_ fun _ => keeps_pure
      exact hI.call (fun now => .appendTurn _ none) (fun _ => rfl) fun _ => trivial

omit [Redactor] in
theorem acknowledgeControl {control : ControlRequest} :
    Keeps I (acknowledgeControl host control) := by
  unfold PatchLoop.acknowledgeControl
  split
  · exact hI.call (fun now => .settleControl _ _ _ _) (fun _ => rfl) fun _ => trivial
  · exact keeps_pure

omit [Redactor] in
theorem finishControl {control : ControlRequest} : Keeps I (finishControl host control) := by
  refine keeps_bind hI.acknowledgeControl fun _ => keeps_bind ?_ fun _ => keeps_pure
  exact hI.call (fun now => .settleControl _ _ _ _) (fun _ => rfl) fun _ => trivial

theorem pauseRunning {control : ControlRequest} : Keeps I (pauseRunning host control) := by
  refine keeps_bind hI.acknowledgeControl fun _ => keeps_bind buildReport_keeps fun _ =>
    keeps_bind getRuntime_keeps fun runtime => ?_
  have hrest {acknowledged : ControlRequest} : Keeps I (do
      PatchLoop.ask host host.cleanup
      PatchLoop.transitionCondition .paused
      PatchLoop.persistTask host
      PatchLoop.finishControl host acknowledged) :=
    keeps_bind hI.ask fun _ => keeps_bind hI.transitionCondition fun _ =>
      keeps_bind hI.persistTask fun _ => hI.finishControl
  dsimp only
  split
  · exact keeps_bind hI.transitionCondition fun _ => keeps_bind hI.persistTask fun _ => hrest
  · exact hrest

end Persisting

end Tame

end PatchLoop
