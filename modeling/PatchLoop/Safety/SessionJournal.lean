import PatchLoop.Lib.Numbered
import PatchLoop.Store.Calls
import PatchLoop.Store.MigrationSpec
import PatchLoop.Store.TaskChanges

/-!
# The journal of a session

The events of a session form a numbered log, and the session's row counts them. An operation that
journals reads the count, adds the event with the next number and writes the count back; one that
writes the row for another reason keeps the count. So the numbers have no gap and no event is written
twice, and a reader that comes back with the last number it saw misses nothing.
-/

namespace PatchLoop

open Transaction

/-- The events of a session, oldest first. -/
def Store.eventsOf (s : Store) (sessionId : String) : List SessionEvent :=
  s.sessionEvents.rows.filter fun event => event.sessionId = sessionId

/-- The journal of one session. -/
structure Store.Journaled (s : Store) (sessionId : String) : Prop where
  numbered : Numbered SessionEvent.sequence (s.eventsOf sessionId)
  counted : ∀ session, s.sessions.get? sessionId = some session →
    session.eventSequence = (s.eventsOf sessionId).length
  unknown : s.sessions.get? sessionId = none → s.eventsOf sessionId = []

section Writes

variable {s s' : Store} {session : Session} {event : SessionEvent} {sessionId : String}

theorem Store.Journaled.of_same (hjournaled : s.Journaled sessionId)
    (hsessions : s'.sessions = s.sessions) (hevents : s'.sessionEvents = s.sessionEvents) :
    s'.Journaled sessionId := by
  have hsame : s'.eventsOf sessionId = s.eventsOf sessionId := by
    rw [Store.eventsOf, Store.eventsOf, hevents]
  constructor
  · rw [hsame]
    exact hjournaled.numbered
  · rw [hsame, hsessions]
    exact hjournaled.counted
  · rw [hsame, hsessions]
    exact hjournaled.unknown

/-- A new session has no events yet. -/
theorem Store.Journaled.addSession (hjournaled : s.Journaled sessionId)
    (hnew : s.sessions.get? session.id = none)
    (hempty : session.id = sessionId → session.eventSequence = 0) :
    (s.addSession session).Journaled sessionId := by
  have hget : (s.addSession session).sessions.get? sessionId
      = if sessionId = session.id then some session else s.sessions.get? sessionId :=
    Table.get?_insert session hnew sessionId
  refine ⟨hjournaled.numbered, ?_, ?_⟩
  · intro row hrow
    rw [hget] at hrow
    split at hrow
    · rename_i hid
      cases hrow
      have hnone : s.eventsOf sessionId = [] := hjournaled.unknown (hid ▸ hnew)
      change session.eventSequence = (s.eventsOf sessionId).length
      rw [hempty hid.symm, hnone]
      rfl
    · exact hjournaled.counted row hrow
  · intro hnone
    rw [hget] at hnone
    split at hnone
    · cases hnone
    · exact hjournaled.unknown hnone

/-- A session row that is written with the count it has. -/
theorem Store.Journaled.putSession (hjournaled : s.Journaled sessionId) {row : Session}
    (hrow : s.sessions.get? session.id = some row)
    (hcount : session.eventSequence = row.eventSequence) :
    (s.putSession session).Journaled sessionId := by
  have hget : (s.putSession session).sessions.get? sessionId
      = if sessionId = session.id then some session else s.sessions.get? sessionId :=
    Table.get?_set_row hrow sessionId rfl
  refine ⟨hjournaled.numbered, ?_, ?_⟩
  · intro written hwritten
    rw [hget] at hwritten
    split at hwritten
    · rename_i hid
      cases hwritten
      rw [hcount]
      exact hjournaled.counted row (hid ▸ hrow)
    · exact hjournaled.counted written hwritten
  · intro hnone
    rw [hget] at hnone
    split at hnone
    · cases hnone
    · exact hjournaled.unknown hnone

theorem eventsOf_add (hfresh : s.sessionEvents.get? event.id = none) :
    ((s.addSessionEvent event).putSession session).eventsOf sessionId
      = s.eventsOf sessionId ++ [event].filter fun event => event.sessionId = sessionId := by
  change ((s.sessionEvents.insert event).rows.filter _) = _
  rw [Table.rows_insert hfresh, List.filter_append]
  rfl

/-- One more event in the next place of its session. -/
theorem Store.Journaled.addEvent (hjournaled : s.Journaled sessionId) {row : Session}
    (hrow : s.sessions.get? session.id = some row)
    (hnext : session.eventSequence = row.eventSequence + 1) (hid : event.sessionId = session.id)
    (hsequence : event.sequence = session.eventSequence)
    (hfresh : s.sessionEvents.get? event.id = none) :
    ((s.addSessionEvent event).putSession session).Journaled sessionId := by
  have hget : ((s.addSessionEvent event).putSession session).sessions.get? sessionId
      = if sessionId = session.id then some session else s.sessions.get? sessionId :=
    Table.get?_set_row hrow sessionId rfl
  by_cases hsession : sessionId = session.id
  · have hevents : ((s.addSessionEvent event).putSession session).eventsOf sessionId
        = s.eventsOf sessionId ++ [event] := by
      rw [eventsOf_add hfresh]
      simp [hid, hsession]
    have hcount : row.eventSequence = (s.eventsOf sessionId).length :=
      hjournaled.counted row (hsession ▸ hrow)
    rw [if_pos hsession] at hget
    refine ⟨?_, ?_, ?_⟩
    · rw [hevents]
      refine hjournaled.numbered.append ?_
      rw [hsequence, hnext, hcount]
    · intro written hwritten
      cases hget.symm.trans hwritten
      rw [hevents, hnext, hcount, List.length_append]
      rfl
    · intro hnone
      cases hget.symm.trans hnone
  · have hevents : ((s.addSessionEvent event).putSession session).eventsOf sessionId
        = s.eventsOf sessionId := by
      rw [eventsOf_add hfresh]
      have hother : ¬ event.sessionId = sessionId := fun h => hsession (h.symm.trans hid)
      simp [hother]
    rw [if_neg hsession] at hget
    refine ⟨?_, ?_, ?_⟩
    · rw [hevents]
      exact hjournaled.numbered
    · rw [hevents, hget]
      exact hjournaled.counted
    · rw [hevents, hget]
      exact hjournaled.unknown

/-- The writes of an operation keep the journal of a session in order and lose no event. -/
theorem journaled_path {created : Session → Prop} {moved : Session → Session → Prop}
    (hpath : Store.JournalPath created moved s s')
    (hempty : ∀ session, created session → session.id = sessionId → session.eventSequence = 0) :
    (s.Journaled sessionId → s'.Journaled sessionId)
      ∧ s.sessionEvents.rows <+: s'.sessionEvents.rows := by
  induction hpath with
  | same hsessions hevents =>
      exact ⟨fun hjournaled => hjournaled.of_same hsessions hevents,
        hevents ▸ List.prefix_refl _⟩
  | trans hfirst hsecond ihfirst ihsecond =>
      exact ⟨ihsecond.1 ∘ ihfirst.1, ihfirst.2.trans ihsecond.2⟩
  | addSession hnew hcreated =>
      exact ⟨fun hjournaled => hjournaled.addSession hnew (hempty _ hcreated), List.prefix_refl _⟩
  | putSession row hrow hcount hmoved =>
      exact ⟨fun hjournaled => hjournaled.putSession hrow hcount, List.prefix_refl _⟩
  | @addEvent s session event row hrow hnext hid hsequence hfresh hmoved =>
      refine ⟨fun hjournaled => hjournaled.addEvent hrow hnext hid hsequence hfresh, ?_⟩
      change s.sessionEvents.rows <+: (s.sessionEvents.insert event).rows
      rw [Table.rows_insert hfresh]
      exact List.prefix_append _ _

end Writes

/-! ### Cursors -/

/-- The event cursor of a checkpoint is not ahead of the session of its task, which is read in the
database before. -/
def Store.CursorWithin (s before : Store) (checkpoint : Checkpoint) : Prop :=
  ∀ task session sessionId, before.tasks.get? checkpoint.taskId = some task →
    task.sessionId = some sessionId → s.sessions.get? sessionId = some session →
      checkpoint.eventSequence ≤ session.eventSequence

section Cursors

variable {s s' t : Store} {now : Timestamp} {task : Task} {checkpoint : Checkpoint}

theorem get?_journaled_session {session row : Session} {entry : Entry} {id : String}
    (hrow : s.sessions.get? id = some row) (hid : session.id = id) :
    (s.journaled now session entry).sessions.get? id
      = some { session with eventSequence := session.eventSequence + 1 } := by
  have hset := Table.get?_set_row hrow id
    (show Keyed.key { session with eventSequence := session.eventSequence + 1 } = id from hid)
  rwa [if_pos rfl] at hset

theorem mem_advanced {taskId : String} {sequence : Nat} {completedEffectId : Option String}
    (hmem : checkpoint ∈ (s.advanced now taskId sequence completedEffectId).checkpoints.rows) :
    checkpoint ∈ s.checkpoints.rows
      ∨ (checkpoint.taskId = taskId ∧ checkpoint.eventSequence = sequence) := by
  rw [Store.advanced_checkpoints] at hmem
  split at hmem
  · exact Or.inl hmem
  · rename_i old hold
    rcases Table.mem_upsert hmem with rfl | hkept
    · exact Or.inr ⟨Table.key_of_get? hold, rfl⟩
    · exact Or.inl hkept

/-- The cursor that follows the entry of an effect is the count of the session. -/
theorem cursor_of_journaledEffect {entry : Entry} {completedEffectId : Option String}
    (htask : s.tasks.get? task.id = some task)
    (hmem : checkpoint ∈ (t.journaledEffect now task entry completedEffectId).checkpoints.rows) :
    checkpoint ∈ t.checkpoints.rows
      ∨ (t.journaledEffect now task entry completedEffectId).CursorWithin s checkpoint := by
  rw [Store.journaledEffect_checkpoints] at hmem
  cases hsession : t.sessionOf task with
  | none => exact Or.inl (by simpa only [hsession] using hmem)
  | some session =>
      simp only [hsession] at hmem
      refine (mem_advanced hmem).imp_right ?_
      rintro ⟨hid, hsequence⟩ loaded row sessionId hloaded hbound hrow
      rw [hid] at hloaded
      cases Option.some.inj (htask.symm.trans hloaded)
      have hget : t.sessions.get? sessionId = some session := by
        rwa [Store.sessionOf, hbound] at hsession
      rw [Store.journaledEffect_sessions, journaledFor_of_some hsession,
        get?_journaled_session hget (Table.key_of_get? hget)] at hrow
      cases hrow
      exact Nat.le_of_eq hsequence

end Cursors

section Steps

variable [Sha256] {s s' : Store} {now : Timestamp} {op : Op} {sessionId : String}

theorem cursor_of_resolution {t : Store} {task : Task} {checkpoint : Checkpoint}
    {disposition : RecoveryDisposition} (htask : s.tasks.get? task.id = some task)
    (hmem : checkpoint ∈ (t.journaledResolution now task disposition).checkpoints.rows) :
    checkpoint ∈ t.checkpoints.rows
      ∨ (t.journaledResolution now task disposition).CursorWithin s checkpoint := by
  rw [Store.journaledResolution_checkpoints] at hmem
  cases hsession : t.resolutionSession task disposition with
  | none => exact Or.inl (by simpa only [hsession] using hmem)
  | some session =>
      simp only [hsession] at hmem
      refine (mem_advanced hmem).imp_right ?_
      rintro ⟨hid, hsequence⟩ loaded row sessionId hloaded hbound hrow
      rw [hid] at hloaded
      cases Option.some.inj (htask.symm.trans hloaded)
      obtain ⟨old, hold, rfl⟩ := Option.map_eq_some_iff.mp hsession
      have hget : t.sessions.get? sessionId = some old := by
        rwa [Store.sessionOf, hbound] at hold
      have hkey : (if disposition.kind = .abandon then old.withoutActive task.id else old).id
          = sessionId := by
        rw [apply_ite Session.id, Session.withoutActive_id, ite_self]
        exact Table.key_of_get? hget
      simp only [Store.journaledResolution_sessions, hsession,
        get?_journaled_session hget hkey] at hrow
      cases hrow
      exact Nat.le_of_eq hsequence

/-- An operation other than `save_checkpoint` stores no cursor ahead of the journal. -/
theorem cursor_of_returns (hreturns : (exec now op).Returns s () s')
    (hop : ∀ checkpoint guard, op ≠ .saveCheckpoint checkpoint guard) {checkpoint : Checkpoint}
    (hmem : checkpoint ∈ s'.checkpoints.rows) :
    checkpoint ∈ s.checkpoints.rows ∨ s'.CursorWithin s checkpoint := by
  by_cases hwrites : op.writes.contains .checkpoints = false
  · have hkept : s'.checkpoints = s.checkpoints := exec_agrees hreturns .checkpoints hwrites
    exact Or.inl (hkept ▸ hmem)
  · cases op with
    | saveCheckpoint saved guard => exact absurd rfl (hop saved guard)
    | commitCheckpoint committed version guard =>
        obtain ⟨_, hreturns⟩ := discard_returns.mp hreturns
        obtain ⟨_, task, session, -, htask, -, hbound, hsession, hrefers, _, rfl⟩ :=
          commitCheckpoint_returns hreturns
        rcases Table.mem_upsert hmem with rfl | hkept
        · refine Or.inr ?_
          intro loaded row sessionId hloaded hloadedBound hrow
          cases Option.some.inj (htask.1.symm.trans hloaded)
          have hget : s.sessions.get? sessionId = some session := by
            rwa [← hbound, hloadedBound] at hsession
          have hrow := (get?_journaled_session (s := s.upsertCheckpoint checkpoint) hget
            (Table.key_of_get? hget)).symm.trans hrow
          cases hrow
          exact Nat.le_succ_of_le hrefers.event_le
        · exact Or.inl hkept
    | commitEffect effect version resultRef observationRef guard observation =>
        obtain ⟨_, hreturns⟩ := discard_returns.mp hreturns
        obtain ⟨_, _, task, _, hcommits, -, -, rfl⟩ := commitEffect_returns hreturns
        have hcursor := cursor_of_journaledEffect hcommits.loadsTask.row_of_id hmem
        exact hcursor
    | markEffectUnknown effectId version evidence guard =>
        obtain ⟨_, hreturns⟩ := discard_returns.mp hreturns
        obtain ⟨_, _, task, _, hmarks, rfl⟩ := markEffectUnknown_returns hreturns
        have hcursor := cursor_of_journaledEffect hmarks.loadsTask.row_of_id hmem
        exact hcursor
    | settleUnexecutedEffect effectId status version call result guard =>
        obtain ⟨_, hreturns⟩ := discard_returns.mp hreturns
        obtain ⟨_, _, -, rfl | ⟨task, _, htask, -, rfl⟩⟩ := settleUnexecutedEffect_returns hreturns
        · exact Or.inl hmem
        · have hcursor := cursor_of_journaledEffect htask.row_of_id hmem
          exact hcursor
    | resolveRecovery disposition taskId version resolution =>
        obtain ⟨_, hreturns⟩ := discard_returns.mp hreturns
        obtain ⟨rfl, -⟩ | ⟨task, _, _, hresolves, -, rfl⟩ := resolveRecovery_returns hreturns
        · exact Or.inl hmem
        · have hcursor := cursor_of_resolution hresolves.loadsTask.row_of_id hmem
          refine hcursor.imp_left fun hkept => ?_
          cases hresolves.valid <;> exact hkept
    | _ => exact absurd rfl hwrites

/-! ### Calls -/

/-- The session is created without events, if a client creates it. -/
def Call.CreatesEmpty (call : Call) (sessionId : String) : Prop :=
  ∀ now session, call = .op ⟨now, .createSession session⟩ → session.id = sessionId →
    session.eventSequence = 0

/-- A call keeps the journal of a session in order and loses no event. -/
theorem journaled_callStep (call : Call) (hempty : call.CreatesEmpty sessionId) :
    (s.Journaled sessionId → (callStep s call).Journaled sessionId)
      ∧ s.sessionEvents.rows <+: (callStep s call).sessionEvents.rows := by
  obtain hsame | hreturns := callStep_cases s call
  · rw [hsame]
    exact ⟨id, List.prefix_refl _⟩
  · generalize callStep s call = s' at hreturns ⊢
    cases call with
    | op timed =>
        refine journaled_path (journalPath (callOp_returns.mp hreturns).1) ?_
        intro session hcreates hid
        obtain ⟨now, op⟩ := timed
        cases op with
        | createSession created =>
            obtain rfl : session = created := hcreates
            exact hempty now session rfl hid
        | prepareTaskExecution task => exact hcreates
        | _ => exact hcreates.elim
    | saveTask now task guard =>
        obtain ⟨-, -, rfl⟩ := saveTask_returns.mp hreturns
        exact ⟨fun hjournaled => hjournaled.of_same rfl rfl, List.prefix_refl _⟩
    | deleteTask taskId =>
        obtain ⟨-, rfl⟩ := deleteTask_returns hreturns
        exact ⟨fun hjournaled => hjournaled.of_same rfl rfl, List.prefix_refl _⟩

theorem journaled_run {history : List Call} (hempty : ∀ call ∈ history, call.CreatesEmpty sessionId) :
    (s.Journaled sessionId → (runCalls s history).Journaled sessionId)
      ∧ s.sessionEvents.rows <+: (runCalls s history).sessionEvents.rows := by
  induction history generalizing s with
  | nil => exact ⟨id, List.prefix_refl _⟩
  | cons call rest ih =>
      obtain ⟨hstep, hearlier⟩ := journaled_callStep (s := s) call (hempty call List.mem_cons_self)
      obtain ⟨hrest, hrestPrefix⟩ := ih (s := callStep s call)
        fun other hother => hempty other (List.mem_cons_of_mem _ hother)
      exact ⟨hrest ∘ hstep, hearlier.trans hrestPrefix⟩

/-- A call other than `save_checkpoint` stores no cursor ahead of the journal. -/
theorem cursor_callStep {call : Call}
    (hcall : ∀ now checkpoint guard, call ≠ .op ⟨now, .saveCheckpoint checkpoint guard⟩)
    {checkpoint : Checkpoint} (hmem : checkpoint ∈ (callStep s call).checkpoints.rows) :
    checkpoint ∈ s.checkpoints.rows ∨ (callStep s call).CursorWithin s checkpoint := by
  obtain hsame | hreturns := callStep_cases s call
  · rw [hsame] at hmem
    exact Or.inl hmem
  · generalize callStep s call = s' at hreturns hmem ⊢
    cases call with
    | op timed =>
        refine cursor_of_returns (callOp_returns.mp hreturns).1 ?_ hmem
        intro saved guard hop
        exact hcall timed.now saved guard (by rw [← hop])
    | saveTask now task guard =>
        obtain ⟨-, -, rfl⟩ := saveTask_returns.mp hreturns
        exact Or.inl hmem
    | deleteTask taskId =>
        obtain ⟨-, rfl⟩ := deleteTask_returns hreturns
        exact Or.inl (Table.mem_filter.mp hmem).1

/-- A migrated session has one event and counts it. -/
theorem journaled_initial (hinitial : s.Initial) (sessionId : String) : s.Journaled sessionId := by
  have hnone : ∀ t : Store, t.sessions = .empty → t.sessionEvents = .empty →
      t.Journaled sessionId := by
    intro t hsessions hevents
    have hempty : t.eventsOf sessionId = [] := by
      rw [Store.eventsOf, hevents]
      rfl
    refine ⟨hempty ▸ Numbered.nil, fun session hsession => ?_, fun _ => hempty⟩
    rw [hsessions] at hsession
    cases hsession
  refine initial_induction (fun t => t.Journaled sessionId) (hnone {} rfl rfl)
    (fun legacy hlegacy => hnone legacy hlegacy.sessions hlegacy.sessionEvents) ?_ hinitial
  intro t t' now task hjournaled hround
  obtain ⟨hnew, -, -, hfresh, checkpoints, rfl⟩ := migrateLegacyTask_returns hround
  -- the round inserts the session with its count at one, which is a session without events
  -- that takes one event
  have hadded : (t.addSession { task.legacySession with eventSequence := 0 }).Journaled sessionId :=
    hjournaled.addSession hnew fun _ => rfl
  have hrow : (t.addSession { task.legacySession with eventSequence := 0 }).sessions.get?
      task.legacySession.id = some { task.legacySession with eventSequence := 0 } :=
    Table.get?_insert_self hnew
  have hcounted : (((t.addSession { task.legacySession with eventSequence := 0 }).addSessionEvent
      (task.legacyEvent now (t.legacyEffects task))).putSession task.legacySession).Journaled
        sessionId :=
    hadded.addEvent hrow rfl rfl rfl hfresh
  have hsessions : (t.sessions.insert { task.legacySession with eventSequence := 0 }).set
      task.legacySession = t.sessions.insert task.legacySession := Table.set_insert hnew rfl
  exact hcounted.of_same hsessions.symm rfl

/-! ### Reading the journal -/

omit [Sha256] in
/-- What `list_events` returns is the log of the session without its first events. -/
theorem listEvents_returns {afterSequence : Nat} {events : List SessionEvent}
    (hjournaled : s.Journaled sessionId) :
    (listEvents sessionId afterSequence).Returns s events s'
      ↔ s.sessions.get? sessionId ≠ none ∧ events = (s.eventsOf sessionId).drop afterSequence
        ∧ s' = s := by
  have hlisted : ((s.sessionEvents.rows.filter fun event =>
      event.sessionId = sessionId ∧ afterSequence < event.sequence).insertionSort
        fun left right => left.sequence ≤ right.sequence)
        = (s.eventsOf sessionId).drop afterSequence := by
    have habove : (s.sessionEvents.rows.filter fun event =>
        event.sessionId = sessionId ∧ afterSequence < event.sequence)
          = (s.eventsOf sessionId).drop afterSequence := by
      rw [← hjournaled.numbered.filter_above, Store.eventsOf, List.filter_filter]
      refine List.filter_congr fun event _ => ?_
      rw [Bool.decide_and, Bool.and_comm]
    rw [habove]
    refine List.Pairwise.insertionSort_eq ?_
    exact ((hjournaled.numbered.pairwise_lt).sublist (List.drop_sublist _ _)).imp Nat.le_of_lt
  simp only [listEvents, bind_returns, requireSession_returns, query_returns, existsAndEq,
    true_and, and_assoc, hlisted]
  constructor
  · rintro ⟨session, hsession, rfl, rfl⟩
    exact ⟨by simp [hsession], rfl, rfl⟩
  · rintro ⟨hsession, rfl, rfl⟩
    obtain ⟨session, hsession⟩ := Option.ne_none_iff_exists'.mp hsession
    exact ⟨session, hsession, rfl, rfl⟩

/-- In every state of every run the events of a session that starts without events, or that the
migration made, carry the numbers one to the count in the session's row. No call removes or changes an
event, none but `save_checkpoint` stores a cursor ahead of the journal, and a reader that asks for
the events above a number, and later for those above the last number there was, gets each event once. -/
theorem session_journal_integrity (hinitial : s.Initial) {history : List Call}
    (hempty : ∀ call ∈ history, call.CreatesEmpty sessionId) :
    (∀ session, (runCalls s history).sessions.get? sessionId = some session →
      ((runCalls s history).eventsOf sessionId).map SessionEvent.sequence
        = List.range' 1 session.eventSequence)
      ∧ (∀ earlier later, history = earlier ++ later →
        (runCalls s earlier).sessionEvents.rows <+: (runCalls s history).sessionEvents.rows)
      ∧ (∀ earlier call later, history = earlier ++ call :: later →
        (∀ now checkpoint guard, call ≠ .op ⟨now, .saveCheckpoint checkpoint guard⟩) →
        ∀ checkpoint ∈ (runCalls s (earlier ++ [call])).checkpoints.rows,
          checkpoint ∈ (runCalls s earlier).checkpoints.rows
            ∨ (runCalls s (earlier ++ [call])).CursorWithin (runCalls s earlier) checkpoint)
      ∧ ∀ earlier later seen first rest session, history = earlier ++ later →
        (runCalls s earlier).sessions.get? sessionId = some session →
        (listEvents sessionId seen).Returns (runCalls s earlier) first (runCalls s earlier) →
        (listEvents sessionId (max seen session.eventSequence)).Returns (runCalls s history) rest
          (runCalls s history) →
        (first ++ rest).Nodup ∧ ∀ event, event ∈ first ++ rest
          ↔ event ∈ (runCalls s history).sessionEvents.rows ∧ event.sessionId = sessionId
            ∧ seen < event.sequence := by
  have hstart := journaled_initial hinitial sessionId
  have hjournaled := (journaled_run hempty).1 hstart
  refine ⟨?_, ?_, ?_, ?_⟩
  · intro session hsession
    rw [hjournaled.counted session hsession]
    exact hjournaled.numbered
  · rintro earlier later rfl
    rw [runCalls_append]
    exact (journaled_run fun call hcall => hempty call (List.mem_append_right _ hcall)).2
  · rintro earlier call later rfl hcall checkpoint hmem
    rw [runCalls_append] at hmem ⊢
    exact cursor_callStep hcall hmem
  · rintro earlier later seen first rest session rfl hsession hfirst hrest
    have hearlier : (runCalls s earlier).Journaled sessionId :=
      (journaled_run fun call hcall => hempty call (List.mem_append_left _ hcall)).1 hstart
    obtain ⟨-, rfl, -⟩ := (listEvents_returns hearlier).mp hfirst
    obtain ⟨-, rfl, -⟩ := (listEvents_returns hjournaled).mp hrest
    have hgrows : (runCalls s earlier).eventsOf sessionId
        <+: (runCalls s (earlier ++ later)).eventsOf sessionId := by
      rw [runCalls_append]
      exact List.IsPrefix.filter _
        (journaled_run fun call hcall => hempty call (List.mem_append_right _ hcall)).2
    rw [hearlier.counted session hsession, Numbered.drop_append_drop hgrows]
    constructor
    · refine List.Nodup.sublist (List.drop_sublist _ _) ?_
      exact List.Nodup.of_map _ hjournaled.numbered.nodup
    · intro event
      rw [← hjournaled.numbered.filter_above, List.mem_filter, Store.eventsOf, List.mem_filter,
        decide_eq_true_iff, decide_eq_true_iff, and_assoc]

end Steps

section Samples

local instance sessionJournalDigest : Sha256 := Sample.digest

/-- A session in which a task is started. -/
def Sample.journaled : List Call :=
  [.op ⟨0, .createSession (Sample.session "s")⟩, .op ⟨0, .startTask "s" (Sample.task "a") 1⟩]

/-- Its two events carry the numbers one and two. -/
theorem session_journal_integrity_started :
    ((runCalls {} Sample.journaled).eventsOf "s").map SessionEvent.sequence = List.range' 1 2 := by
  have hempty : ∀ call ∈ Sample.journaled, call.CreatesEmpty "s" := by
    intro call hcall now session heq hid
    simp only [Sample.journaled, List.mem_cons, List.not_mem_nil, or_false] at hcall
    rcases hcall with rfl | rfl
    · cases heq
      rfl
    · cases heq
  have hcount : ((runCalls {} Sample.journaled).sessions.get? "s").map Session.eventSequence
      = some 2 := by decide +kernel
  obtain ⟨session, hsession, hsequence⟩ := Option.map_eq_some_iff.mp hcount
  have hnumbers := (session_journal_integrity (Or.inl rfl) hempty).1 session hsession
  rwa [hsequence] at hnumbers

end Samples

end PatchLoop
