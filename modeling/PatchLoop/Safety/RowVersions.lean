import PatchLoop.Lib.Versions
import PatchLoop.Store.TaskChanges
import PatchLoop.Store.EffectChanges
import PatchLoop.Store.JournalChanges

/-!
# Expected versions

A client names the version of the row that it has read, and the store compares it with the row that is
there. An operation writes a row with a higher version or leaves it alone, so a write that is accepted
is a write over exactly the row that was read. A session counts its events without a new version: its
row is compared up to the count.
-/

namespace PatchLoop

open Transaction

/-- A row whose version an operation may compare. -/
inductive VersionedRow where
  | session (id : String)
  | task (id : String)
  | effect (id : String)
  | approval (id : String)
  | control (id : String)
deriving DecidableEq

/-- A session row without its count of events. -/
def Session.uncounted (session : Session) : Session := { session with eventSequence := 0 }

def Store.versionOf (s : Store) : VersionedRow → Option Nat
  | .session id => (s.sessions.get? id).map Session.version
  | .task id => (s.tasks.get? id).map Task.version
  | .effect id => (s.effects.get? id).map Effect.version
  | .approval id => (s.approvals.get? id).map Approval.version
  | .control id => (s.controlRequests.get? id).map ControlRequest.version

/-- The two databases have the same row. -/
def Store.SameRow (s s' : Store) : VersionedRow → Prop
  | .session id => (s'.sessions.get? id).map Session.uncounted
      = (s.sessions.get? id).map Session.uncounted
  | .task id => s'.tasks.get? id = s.tasks.get? id
  | .effect id => s'.effects.get? id = s.effects.get? id
  | .approval id => s'.approvals.get? id = s.approvals.get? id
  | .control id => s'.controlRequests.get? id = s.controlRequests.get? id

/-- The row that an operation is for, with the version that its caller expects there. -/
def Op.expects : Op → Option (VersionedRow × Nat)
  | .closeSession sessionId version => some (.session sessionId, version)
  | .appendTurn turn version => version.map fun v => (.session turn.sessionId, v)
  | .startTask sessionId _ version => some (.session sessionId, version)
  | .updateTask task version _ => some (.task task.id, version)
  | .requestControl request version => some (.task request.taskId, version)
  | .settleControl requestId _ version _ => some (.control requestId, version)
  | .commitCheckpoint checkpoint version _ => some (.task checkpoint.taskId, version)
  | .commitToolResult taskId _ _ version _ => version.map fun v => (.task taskId, v)
  | .claimExecution execution version => version.map fun v => (.task execution.taskId, v)
  | .prepareEffects effects version _ => effects.head?.map fun effect => (.task effect.taskId, version)
  | .prepareEffectBatch step _ version _ => some (.task step.taskId, version)
  | .decideApproval approval version => version.map fun v => (.approval approval.id, v)
  | .requestEffectApproval effectId _ version _ => some (.effect effectId, version)
  | .resolveEffectApproval approvalId _ _ version _ _ _ => some (.approval approvalId, version)
  | .claimEffect effectId version _ _ => some (.effect effectId, version)
  | .commitEffect effect version _ _ _ _ => some (.effect effect.id, version)
  | .markEffectUnknown effectId version _ _ => some (.effect effectId, version)
  | .settleUnexecutedEffect effectId _ version _ _ _ => some (.effect effectId, version)
  | .resolveRecovery _ taskId version _ => some (.task taskId, version)
  | _ => none

/-! ### Rows rise -/

section Rows

variable [Sha256] {s s' : Store} {now : Timestamp} {op : Op}

theorem task_rises (hreturns : (exec now op).Returns s () s') (id : String) :
    Run.Rises Task.version (s.tasks.get? id) (s'.tasks.get? id) := by
  have hchange := taskChange hreturns id
  generalize s'.tasks.get? id = after at hchange
  cases hchange with
  | kept => exact .refl _
  | started hvalid houtcome hid hnew hsession =>
      rw [hnew]
      exact .of_none _
  | ensured hvalid hid hnew hsession =>
      rw [hnew]
      exact .of_none _
  | created hvalid hid hnew hsession =>
      rw [hnew]
      exact .of_none _
  | @bound task current session hvalid hid hrow hfree =>
      rcases get?_taskEnsured s task id with hsame | ⟨-, hnone, -⟩
      · rw [hsame] at hrow
        exact .write hrow rfl (Or.inr (Nat.lt_succ_self _))
      · rw [hnone]
        exact .of_none _
  | updated hupdates hid =>
      subst hid
      exact .write hupdates.loadsTask.row_of_id rfl (Or.inr (Nat.lt_succ_self _))
  | cancelled hload hstatus hid =>
      subst hid
      exact .write hload.row_of_id rfl (Or.inr (Nat.lt_succ_self _))
  | claimed hclaims hid =>
      subst hid
      exact .write hclaims.loadsTask.row_of_id rfl (Or.inr (Nat.lt_succ_self _))
  | idled hguards hload hid =>
      subst hid
      refine .write hload.row_of_id rfl ?_
      unfold Task.idled
      split
      · exact Or.inr (Nat.lt_succ_self _)
      · exact Or.inl rfl
  | recoveryMarked hrow hload hid =>
      subst hid
      exact .write hload.row_of_id rfl (Or.inr (Nat.lt_succ_self _))
  | waiting hrequests hbranch hid =>
      subst hid
      exact .write hrequests.loadsTask.row_of_id rfl (Or.inr (Nat.lt_succ_self _))
  | resumed hresolves hid =>
      subst hid
      refine .write hresolves.loadsTask.row_of_id rfl ?_
      unfold Task.resumed
      split
      · exact Or.inr (Nat.lt_succ_self _)
      · exact Or.inl rfl
  | inRecovery hmarks hid =>
      subst hid
      refine .write hmarks.loadsTask.row_of_id rfl ?_
      unfold Task.inRecovery
      split
      · exact Or.inl rfl
      · exact Or.inr (Nat.lt_succ_self _)
  | recovered hresolves hid =>
      subst hid
      exact .write hresolves.loadsTask.row_of_id rfl (Or.inr (Nat.lt_succ_self _))

theorem effect_rises (hreturns : (exec now op).Returns s () s') (id : String) :
    Run.Rises Effect.version (s.effects.get? id) (s'.effects.get? id) := by
  intro row hrow
  obtain ⟨row', hrow', -, hgrows⟩ := effect_version_grows hreturns hrow
  exact ⟨row', hrow', hgrows⟩

/-- A decision over an approval that is there takes its next version. -/
theorem decideApproval_version {approval result : Approval} {version : Option Nat}
    (hreturns : (decideApproval now approval version).Returns s result s') :
    s' = s ∨ s.approvals.get? approval.id = none
      ∨ ∃ existing, s.approvals.get? approval.id = some existing
        ∧ approval.version = existing.version + 1 ∧ ∀ v ∈ version, existing.version = v := by
  simp only [decideApproval, bind_returns, validateApproval_returns, requireEffect_returns,
    query_returns, existsAndEq, exists_const, true_and, and_assoc] at hreturns
  obtain ⟨-, _, -, hbranch⟩ := hreturns
  split at hbranch
  · simp only [bind_returns, insertApproval_returns, journalApproval_returns, pure_returns,
      existsAndEq, exists_const, true_and, and_assoc] at hbranch
    exact Or.inr (Or.inl hbranch.1)
  · rename_i existing hexisting
    simp only [bind_returns, validateApproval_returns, raiseIf_returns, ite_returns, pure_returns,
      checkVersion_returns, writeApproval_returns, journalApproval_returns, existsAndEq,
      exists_const, true_and, and_assoc, not_or, not_not] at hbranch
    rcases hbranch with ⟨-, hid, ⟨-, -, rfl⟩ | ⟨-, hexpected, -, -, hnext, -, -, -, -⟩⟩
    · exact Or.inl rfl
    · have hrow : s.approvals.get? existing.id = some existing :=
        Table.get?_of_mem (List.mem_of_find?_eq_some hexisting)
      rw [hid] at hrow
      exact Or.inr (Or.inr ⟨existing, hrow, hnext, hexpected⟩)

theorem approval_rises (hreturns : (exec now op).Returns s () s') (id : String) :
    Run.Rises Approval.version (s.approvals.get? id) (s'.approvals.get? id) := by
  have hchange := approvalChange hreturns id
  generalize hafter : s'.approvals.get? id = after at hchange
  cases hchange with
  | kept => exact .refl _
  | inserted hfree hid hnew =>
      rw [hnew]
      exact .of_none _
  | @written approval existing version hexisting hpending hstatus hid hkey =>
      obtain ⟨_, hdecides⟩ := discard_returns.mp hreturns
      have hrow : s.approvals.get? id = some existing := by
        rw [hid]
        exact Table.get?_of_mem (List.mem_of_find?_eq_some hexisting)
      have hid' : approval.id = id := by rw [hid, hkey]
      rcases decideApproval_version hdecides with hsame | hnone | ⟨current, hcurrent, hnext, -⟩
      · rw [hsame, hrow] at hafter
        exact .write hrow rfl (Or.inl (Option.some.inj hafter).symm)
      · rw [hid', hrow] at hnone
        cases hnone
      · rw [hid', hrow] at hcurrent
        cases hcurrent
        exact .write hrow rfl (Or.inr (by omega))
  | requested hrequests hpending hid hnew =>
      rw [hnew]
      exact .of_none _
  | @decided _ _ _ _ _ _ _ current _ _ _ hresolves hid =>
      have hkey : current.id = _ := Table.key_of_get? hresolves.row
      subst hid
      refine .write (hkey ▸ hresolves.row) rfl (Or.inr ?_)
      split
      · exact Nat.lt_succ_self _
      · exact Nat.lt_succ_self _
  | consumed hclaims hconsumes hid =>
      subst hid
      exact .write hconsumes.row rfl (Or.inr (Nat.lt_succ_self _))
  | expired hsettles hpending hrow hid =>
      subst hid
      exact .write hrow rfl (Or.inr (Nat.lt_succ_self _))
  | retried hresolves hpending hid hnew =>
      rw [hnew]
      exact .of_none _

omit [Sha256] in
/-- A control request that is added leaves the ones that are there. -/
theorem control_rises_add {t : Store} {request : ControlRequest} (id : String)
    (htable : t.controlRequests = s.controlRequests.insert request) :
    Run.Rises ControlRequest.version (s.controlRequests.get? id) (t.controlRequests.get? id) := by
  rw [htable]
  exact fun row hrow => ⟨row, Table.get?_insert_mono _ request hrow, Or.inl rfl⟩

theorem control_rises (hreturns : (exec now op).Returns s () s') (id : String) :
    Run.Rises ControlRequest.version (s.controlRequests.get? id) (s'.controlRequests.get? id) := by
  cases op with
  | cancelTask taskId controlId =>
      obtain ⟨_, hreturns⟩ := discard_returns.mp hreturns
      obtain ⟨task, -, rfl | ⟨_, rfl⟩ | ⟨-, _, ⟨-, rfl⟩ | ⟨_, -, -, rfl⟩⟩⟩ :=
        cancelTask_returns hreturns
      · exact .refl _
      · exact control_rises_add id rfl
      · exact control_rises_add id rfl
      · exact control_rises_add id rfl
  | requestControl request version =>
      obtain ⟨_, hreturns⟩ := discard_returns.mp hreturns
      obtain ⟨_, -, -, _, rfl⟩ := requestControl_returns hreturns
      exact control_rises_add id rfl
  | settleControl requestId status version cleanupInfo =>
      obtain ⟨_, hreturns⟩ := discard_returns.mp hreturns
      obtain ⟨current, _, hrow, -, -, -, _, rfl⟩ := settleControl_returns hreturns
      have hkey : current.id = requestId := Table.key_of_get? hrow
      rw [← hkey] at hrow
      rw [Store.journaledFor_controlRequests, Store.putControlRequest_controlRequests,
        Table.get?_set_row hrow id]
      · split
        · rename_i hid
          subst hid
          exact .write hrow rfl (Or.inr (Nat.lt_succ_self _))
        · exact .refl _
      · rfl
  | _ =>
      have htable : s'.controlRequests = s.controlRequests :=
        exec_agrees hreturns .controlRequests rfl
      rw [htable]
      exact .refl _

omit [Sha256] in
/-- A session row is kept, but for its count, or gets a higher version. -/
theorem session_rises_put {session row : Session} (hrow : s.sessions.get? session.id = some row)
    (hrewrites : session = { row with eventSequence := session.eventSequence }
      ∨ row.version < session.version) (id : String) :
    Run.Rises Session.version ((s.sessions.get? id).map Session.uncounted)
      (((s.putSession session).sessions.get? id).map Session.uncounted) := by
  refine .map fun old hold => ?_
  rw [Store.putSession_sessions, Table.get?_set_row hrow id rfl]
  split
  · rename_i hid
    subst hid
    cases Option.mem_unique hold hrow
    refine ⟨session, rfl, hrewrites.imp_left fun hsame => ?_⟩
    rw [hsame]
    rfl
  · exact ⟨old, hold, Or.inl rfl⟩

omit [Sha256] in
theorem session_rises_path {created : Session → Prop} {moved : Session → Session → Prop}
    (hpath : Store.JournalPath created moved s s')
    (hmoved : ∀ row session, moved row session →
      session = { row with eventSequence := session.eventSequence } ∨ row.version < session.version)
    (id : String) :
    Run.Rises Session.version ((s.sessions.get? id).map Session.uncounted)
      ((s'.sessions.get? id).map Session.uncounted) := by
  induction hpath with
  | same hsessions hevents =>
      rw [hsessions]
      exact .refl _
  | trans hfirst hsecond ihfirst ihsecond => exact ihfirst.trans ihsecond
  | @addSession t session hnew hcreated =>
      exact .map fun old hold => ⟨old, Table.get?_insert_mono _ session hold, Or.inl rfl⟩
  | putSession row hrow hcount hrewrites => exact session_rises_put hrow (hmoved _ _ hrewrites) id
  | @addEvent t session event row hrow hnext hid hsequence hfresh hrewrites =>
      have hrow' : (t.addSessionEvent event).sessions.get? session.id = some row := hrow
      exact session_rises_put hrow' (hmoved _ _ hrewrites) id

theorem session_rises (hreturns : (exec now op).Returns s () s') (id : String) :
    Run.Rises Session.version ((s.sessions.get? id).map Session.uncounted)
      ((s'.sessions.get? id).map Session.uncounted) :=
  session_rises_path (sessionPath hreturns) (fun _ _ hrewrites => hrewrites.2) id

/-- What an operation that returns does to a row, a step does. -/
theorem step_rises {ρ : Type} {version : ρ → Nat} {row : Store → Option ρ}
    (hreturned : ∀ {s s' : Store} {now : Timestamp} {op : Op}, (exec now op).Returns s () s' →
      Run.Rises version (row s) (row s')) (s : Store) (timed : Timed) :
    Run.Rises version (row s) (row (step s timed)) := by
  obtain hsame | hreturns := step_cases s timed
  · rw [hsame]
    exact .refl _
  · exact hreturned hreturns

/-- A row that is there stays there. -/
theorem versionOf_stays (s : Store) (history : List Timed) {row : VersionedRow} {version : Nat}
    (hrow : s.versionOf row = some version) : ∃ later, (runFrom s history).versionOf row = some later := by
  have hone : ∀ {ρ : Type} {version' : ρ → Nat} (rowOf : Store → Option ρ),
      (∀ {s s' : Store} {now : Timestamp} {op : Op}, (exec now op).Returns s () s' →
        Run.Rises version' (rowOf s) (rowOf s')) →
      (rowOf s).map version' = some version →
        ∃ later, (rowOf (runFrom s history)).map version' = some later := by
    intro ρ version' rowOf hreturned hold
    obtain ⟨old, hold, -⟩ := Option.map_eq_some_iff.mp hold
    obtain ⟨new, hnew, -⟩ := Run.rises_after (step_rises hreturned) s history old hold
    exact ⟨version' new, Option.map_eq_some_iff.mpr ⟨new, hnew, rfl⟩⟩
  cases row with
  | session id =>
      obtain ⟨later, hlater⟩ := hone (fun t => (t.sessions.get? id).map Session.uncounted)
        (fun hreturns => session_rises hreturns id) (by rw [Option.map_map]; exact hrow)
      rw [Option.map_map] at hlater
      exact ⟨later, hlater⟩
  | task id => exact hone (fun t => t.tasks.get? id) (fun h => task_rises h id) hrow
  | effect id => exact hone (fun t => t.effects.get? id) (fun h => effect_rises h id) hrow
  | approval id => exact hone (fun t => t.approvals.get? id) (fun h => approval_rises h id) hrow
  | control id => exact hone (fun t => t.controlRequests.get? id) (fun h => control_rises h id) hrow

/-- A version that is read at two moments of a run belongs to one row. -/
theorem sameRow_after (s : Store) (history : List Timed) {row : VersionedRow} {version : Nat}
    (hbefore : s.versionOf row = some version)
    (hafter : (runFrom s history).versionOf row = some version) :
    s.SameRow (runFrom s history) row := by
  have hone : ∀ {ρ : Type} {version' : ρ → Nat} (rowOf : Store → Option ρ),
      (∀ {s s' : Store} {now : Timestamp} {op : Op}, (exec now op).Returns s () s' →
        Run.Rises version' (rowOf s) (rowOf s')) →
      (rowOf s).map version' = some version → (rowOf (runFrom s history)).map version' = some version →
        rowOf (runFrom s history) = rowOf s := by
    intro ρ version' rowOf hreturned hold hnew
    obtain ⟨old, hold, hversion⟩ := Option.map_eq_some_iff.mp hold
    obtain ⟨new, hnew, hversion'⟩ := Option.map_eq_some_iff.mp hnew
    have hrises : Run.Rises version' (rowOf s) (rowOf (runFrom s history)) :=
      Run.rises_after (step_rises hreturned) s history
    rw [hold, hnew, hrises.eq hold hnew (hversion'.trans hversion.symm)]
  cases row with
  | session id =>
      have hcount : ∀ t : Store, ((t.sessions.get? id).map Session.uncounted).map Session.version
          = (t.sessions.get? id).map Session.version := by
        intro t
        rw [Option.map_map]
        rfl
      exact hone (fun t => (t.sessions.get? id).map Session.uncounted)
        (fun hreturns => session_rises hreturns id) ((hcount s).trans hbefore)
        ((hcount _).trans hafter)
  | task id => exact hone (fun t => t.tasks.get? id) (fun h => task_rises h id) hbefore hafter
  | effect id =>
      exact hone (fun t => t.effects.get? id) (fun h => effect_rises h id) hbefore hafter
  | approval id =>
      exact hone (fun t => t.approvals.get? id) (fun h => approval_rises h id) hbefore hafter
  | control id =>
      exact hone (fun t => t.controlRequests.get? id) (fun h => control_rises h id) hbefore
        hafter

/-! ### Operations compare -/

theorem appendTurn_version {turn result : Turn} {version : Option Nat}
    (hreturns : (appendTurn now turn version).Returns s result s') (hchanged : s' ≠ s) :
    ∃ session, s.sessions.get? turn.sessionId = some session
      ∧ ∀ v ∈ version, session.version = v := by
  simp only [appendTurn, bind_returns, requireSession_returns, raiseIf_returns, query_returns,
    existsAndEq, exists_const, true_and, and_assoc] at hreturns
  obtain ⟨session, hsession, -, hbranch⟩ := hreturns
  split at hbranch
  · simp only [appendNewTurn, bind_returns, checkVersion_returns, existsAndEq, exists_const,
      true_and, and_assoc] at hbranch
    exact ⟨session, hsession, hbranch.1⟩
  · simp only [bind_returns, raiseIf_returns, pure_returns, existsAndEq, exists_const, true_and,
      and_assoc] at hbranch
    exact absurd hbranch.2.2 hchanged

theorem commitToolResult_version {taskId : String} {call : ToolCall} {result committed : ToolResult}
    {version : Option Nat} {guard : Option LeaseGuard}
    (hreturns : (commitToolResult now taskId call result version guard).Returns s committed s')
    (hchanged : s' ≠ s) :
    ∃ task, s.tasks.get? taskId = some task ∧ ∀ v ∈ version, task.version = v := by
  simp only [commitToolResult, bind_returns, raiseIf_returns, requireTask_returns,
    assertTaskGuard_returns, query_returns, matchToolCall_returns, existsAndEq, exists_const,
    true_and, and_assoc] at hreturns
  obtain ⟨-, task, htask, -, -, hbranch⟩ := hreturns
  split at hbranch
  · exact absurd (pure_returns.mp hbranch).2 hchanged
  · simp only [bind_returns, checkVersion_returns, existsAndEq, exists_const, true_and,
      and_assoc] at hbranch
    exact ⟨task, htask.1, hbranch.1⟩

/-- An operation that changes something has found the version that its caller expects. -/
theorem compares (hreturns : (exec now op).Returns s () s') (hchanged : s' ≠ s) {row : VersionedRow}
    {version : Nat} (hexpects : op.expects = some (row, version)) (hthere : s.versionOf row ≠ none) :
    s.versionOf row = some version := by
  have hrow : ∀ {α : Type} {read : Option α} {current : α} {versionIn : α → Nat},
      read = some current → versionIn current = version → read.map versionIn = some version := by
    rintro α read current versionIn rfl rfl
    rfl
  cases op with
  | closeSession sessionId expected =>
      cases hexpects
      obtain ⟨_, hreturns⟩ := discard_returns.mp hreturns
      obtain ⟨session, hsession, hversion, -, -⟩ := closeSession_returns hreturns
      exact hrow hsession hversion
  | appendTurn turn expected =>
      obtain ⟨v, rfl, heq⟩ := Option.map_eq_some_iff.mp hexpects
      cases heq
      obtain ⟨_, hreturns⟩ := discard_returns.mp hreturns
      obtain ⟨session, hsession, hversion⟩ := appendTurn_version hreturns hchanged
      exact hrow hsession (hversion _ rfl)
  | startTask sessionId task expected =>
      cases hexpects
      obtain ⟨_, hreturns⟩ := discard_returns.mp hreturns
      obtain ⟨session, -, hsession, hversion, -⟩ := startTask_returns hreturns
      exact hrow hsession hversion
  | updateTask task expected guard =>
      cases hexpects
      obtain ⟨_, hreturns⟩ := discard_returns.mp hreturns
      obtain ⟨current, hupdates, -⟩ := updateTask_returns hreturns
      exact hrow hupdates.loadsTask.1 hupdates.version_eq
  | requestControl request expected =>
      cases hexpects
      obtain ⟨_, hreturns⟩ := discard_returns.mp hreturns
      obtain ⟨task, hload, hversion, -⟩ := requestControl_returns hreturns
      exact hrow hload.1 hversion
  | settleControl requestId status expected cleanupInfo =>
      cases hexpects
      obtain ⟨_, hreturns⟩ := discard_returns.mp hreturns
      obtain ⟨current, -, hcurrent, hversion, -⟩ := settleControl_returns hreturns
      exact hrow hcurrent hversion
  | commitCheckpoint checkpoint expected guard =>
      cases hexpects
      obtain ⟨_, hreturns⟩ := discard_returns.mp hreturns
      obtain ⟨-, task, -, -, hload, hversion, -⟩ := commitCheckpoint_returns hreturns
      exact hrow hload.1 hversion
  | commitToolResult taskId call result expected guard =>
      obtain ⟨v, rfl, heq⟩ := Option.map_eq_some_iff.mp hexpects
      cases heq
      obtain ⟨_, hreturns⟩ := discard_returns.mp hreturns
      obtain ⟨task, htask, hversion⟩ := commitToolResult_version hreturns hchanged
      exact hrow htask (hversion _ rfl)
  | claimExecution execution expected =>
      obtain ⟨v, rfl, heq⟩ := Option.map_eq_some_iff.mp hexpects
      cases heq
      obtain ⟨_, hreturns⟩ := discard_returns.mp hreturns
      obtain ⟨_, task, hclaims, -⟩ := claimExecution_returns hreturns
      exact hrow hclaims.loadsTask.1 (hclaims.version_eq _ rfl)
  | prepareEffects effects expected guard =>
      obtain ⟨effect, hfirst, heq⟩ := Option.map_eq_some_iff.mp hexpects
      cases heq
      obtain ⟨_, hreturns⟩ := discard_returns.mp hreturns
      obtain ⟨-, rfl⟩ | ⟨task, _, hprepares, -, rfl | ⟨hversion, -⟩⟩ := prepareEffects_returns hreturns
      · exact absurd rfl hchanged
      · exact absurd rfl hchanged
      · have howner : effect.taskId = task.id :=
          hprepares.owner effect (List.mem_of_mem_head? hfirst)
        rw [howner]
        exact hrow hprepares.loadsTask.1 hversion
  | prepareEffectBatch agentStep effects expected guard =>
      cases hexpects
      obtain ⟨_, hreturns⟩ := discard_returns.mp hreturns
      obtain ⟨task, -, hload, -, hversion, -⟩ := prepareEffectBatch_returns hreturns
      exact hrow hload.1 hversion
  | decideApproval approval expected =>
      obtain ⟨v, rfl, heq⟩ := Option.map_eq_some_iff.mp hexpects
      cases heq
      obtain ⟨_, hreturns⟩ := discard_returns.mp hreturns
      rcases decideApproval_version hreturns with hsame | hnone | ⟨existing, hexisting, -, hversion⟩
      · exact absurd hsame hchanged
      · exact absurd (by simp [Store.versionOf, hnone]) hthere
      · exact hrow hexisting (hversion _ rfl)
  | requestEffectApproval effectId approval expected guard =>
      cases hexpects
      obtain ⟨_, hreturns⟩ := discard_returns.mp hreturns
      obtain ⟨_, current, _, hrequests, -⟩ := requestEffectApproval_returns hreturns
      exact hrow hrequests.loadsEffect.1 hrequests.version_eq
  | resolveEffectApproval approvalId approved source expected workspaceRef policyVersion
      configVersion =>
      cases hexpects
      obtain ⟨_, hreturns⟩ := discard_returns.mp hreturns
      obtain rfl | ⟨current, _, _, _, hresolves, -⟩ := resolveEffectApproval_returns hreturns
      · exact absurd rfl hchanged
      · exact hrow hresolves.row hresolves.version_eq
  | claimEffect effectId expected guard conditions =>
      cases hexpects
      obtain ⟨_, hreturns⟩ := discard_returns.mp hreturns
      obtain ⟨_, current, _, _, _, hclaims, -⟩ := claimEffect_returns hreturns
      exact hrow hclaims.loadsEffect.1 hclaims.version_eq
  | commitEffect effect expected resultRef observationRef guard observation =>
      cases hexpects
      obtain ⟨_, hreturns⟩ := discard_returns.mp hreturns
      obtain ⟨_, current, _, _, hcommits, -⟩ := commitEffect_returns hreturns
      exact hrow hcommits.loadsEffect.1 hcommits.version_eq
  | markEffectUnknown effectId expected evidence guard =>
      cases hexpects
      obtain ⟨_, hreturns⟩ := discard_returns.mp hreturns
      obtain ⟨_, current, _, _, hmarks, -⟩ := markEffectUnknown_returns hreturns
      exact hrow hmarks.loadsEffect.1 hmarks.version_eq
  | settleUnexecutedEffect effectId status expected call result guard =>
      cases hexpects
      obtain ⟨_, hreturns⟩ := discard_returns.mp hreturns
      obtain ⟨_, current, hsettles, -⟩ := settleUnexecutedEffect_returns hreturns
      exact hrow hsettles.loadsEffect.1 hsettles.version_eq
  | resolveRecovery disposition taskId expected resolution =>
      cases hexpects
      obtain ⟨_, hreturns⟩ := discard_returns.mp hreturns
      obtain ⟨rfl, -⟩ | ⟨task, _, _, hresolves, -⟩ := resolveRecovery_returns hreturns
      · exact absurd rfl hchanged
      · exact hrow hresolves.loadsTask.1 hresolves.version_eq
  | _ => cases hexpects

/-- Whatever other clients do in between, a write that names the version that its caller has read is
made over the row that its caller has read, or it changes nothing. -/
theorem no_lost_update {s : Store} (earlier between : List Timed) {timed : Timed}
    {row : VersionedRow} {version : Nat} (hread : (runFrom s earlier).versionOf row = some version)
    (hexpects : timed.op.expects = some (row, version))
    (hchanged : runFrom s (earlier ++ between ++ [timed]) ≠ runFrom s (earlier ++ between)) :
    (runFrom s earlier).SameRow (runFrom s (earlier ++ between)) row := by
  have hlast : runFrom s (earlier ++ between ++ [timed])
      = step (runFrom s (earlier ++ between)) timed := runFrom_append s _ [timed]
  rw [hlast] at hchanged
  have hreturns : (exec timed.now timed.op).Returns (runFrom s (earlier ++ between)) ()
      (step (runFrom s (earlier ++ between)) timed) :=
    (step_cases _ timed).resolve_left hchanged
  rw [runFrom_append] at hreturns hchanged ⊢
  have hthere : (runFrom (runFrom s earlier) between).versionOf row ≠ none := by
    intro hnone
    obtain ⟨v, hv⟩ := versionOf_stays (runFrom s earlier) between hread
    rw [hnone] at hv
    cases hv
  exact sameRow_after (runFrom s earlier) between hread (compares hreturns hchanged hexpects hthere)

end Rows

section Samples

local instance versionsDigest : Sha256 := Sample.digest

/-- One client cancels the running task with the version it has read, while the owner works on. -/
def Sample.cancelling : Timed :=
  ⟨3, .updateTask { Sample.task "a" with
      sessionId := some "s"
      status := .cancelled
      outcome := .cancelled
      runtimeCondition := .ended } 2 (some (Sample.guard "x" "a"))⟩

theorem no_lost_update_cancelling :
    (runFrom {} (Sample.started "s" "a" "x" 100)).SameRow
      (runFrom {} (Sample.started "s" "a" "x" 100
        ++ [⟨2, .renewExecution (Sample.guard "x" "a") 200⟩])) (.task "a") := by
  have hread : (runFrom {} (Sample.started "s" "a" "x" 100)).versionOf (.task "a") = some 2 := by
    decide +kernel
  have hexpects : Sample.cancelling.op.expects = some (.task "a", 2) := rfl
  refine no_lost_update _ _ hread hexpects ?_
  intro hsame
  have hstatus := congrArg (fun t : Store => (t.tasks.get? "a").map Task.status) hsame
  revert hstatus
  decide +kernel

end Samples

end PatchLoop
