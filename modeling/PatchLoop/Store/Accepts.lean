import PatchLoop.Store.Calls
import PatchLoop.Store.JournalChanges
import PatchLoop.Store.TaskChanges

/-!
# When the journal takes an entry

An operation on a task is refused where the session of the task cannot take its journal entry. In a
database whose sessions have counted their events this depends on two things: the id of the entry is
free, and the active task of the session is there.
-/

namespace PatchLoop

open Transaction

variable {s s' t : Store} {now : Timestamp} {task : Task} {entry : Entry}

/-! ### Sessions that are written back -/

/-- The tasks of a database are the same after its rows of one task were written back. -/
theorem isSome_set {written current : Task} (hrow : s.tasks.get? current.id = some current)
    (hkey : written.id = current.id) (id : String) :
    ((s.tasks.set written).get? id).isSome = (s.tasks.get? id).isSome := by
  rw [Table.get?_set_row hrow id hkey]
  split
  · rename_i hid
    rw [hid, hrow]
    rfl
  · rfl

section Sessions

variable {session : Session}

/-- The next number of a session is free in a journal that its sessions have counted. -/
theorem next_free (hcounted : s.JournalCounted) (hrow : s.sessions.get? session.id = some session) :
    ∀ other ∈ s.sessionEvents.rows, other.sessionId = session.id →
      other.sequence ≠ session.eventSequence + 1 := by
  intro other hother hsame hnext
  obtain ⟨counting, hcounting, hle⟩ := hcounted other hother
  rw [hsame] at hcounting
  cases Option.some.inj (hrow.symm.trans hcounting)
  omega

/-- A session is journalled with an active task that is there. -/
theorem referencesTasks_journaled {written : Session} {entry : Entry}
    (hrow : s.sessions.get? session.id = some session) (hsessions : s'.sessions = s.sessions)
    (hid : written.id = session.id) (hactive : s'.HasTask written.activeTaskId) :
    (s'.journaled now written entry).ReferencesTasks s := by
  intro other hother
  have hget : (s'.sessions.set { written with
      eventSequence := written.eventSequence + 1 }).get? other.id = some other :=
    Table.get?_of_mem hother
  have hrow' : s'.sessions.get? session.id = some session := hsessions ▸ hrow
  have hkey : ({ written with eventSequence := written.eventSequence + 1 } : Session).id
      = session.id := hid
  rw [Table.get?_set_row hrow' other.id hkey] at hget
  split at hget
  · cases hget
    exact Or.inr hactive
  · exact Or.inl (hsessions ▸ hget)

end Sessions

/-- One session that changed refers to an active task that is there. -/
theorem referencesTasks_iff {session written : Session}
    (hrow : s.sessions.get? session.id = some session) (hkey : written.id = session.id)
    (hchanged : written ≠ session)
    (hsessions : ∀ id, s'.sessions.get? id
      = if id = session.id then some written else s.sessions.get? id) :
    s'.ReferencesTasks s ↔ s'.HasTask written.activeTaskId := by
  constructor
  · intro hreferences
    have hwritten : s'.sessions.get? written.id = some written := by
      rw [hsessions, hkey, if_pos rfl]
    rcases hreferences written (Table.mem_of_get? hwritten) with hsame | hactive
    · rw [hkey, hrow] at hsame
      exact absurd (Option.some.inj hsame).symm hchanged
    · exact hactive
  · intro hactive other hother
    have hget : s'.sessions.get? other.id = some other := Table.get?_of_mem hother
    rw [hsessions] at hget
    split at hget
    · cases hget
      exact Or.inr hactive
    · exact Or.inl hget

/-! ### Entries -/

/-- Entries of one operation, journalled one after the other. -/
def Store.journaledAll (s : Store) (now : Timestamp) (task : Task) : List Entry → Store
  | [] => s
  | entry :: rest => (s.journaledFor now task entry).journaledAll now task rest

def Store.CanJournalAll (s : Store) (now : Timestamp) (task : Task) : List Entry → Prop
  | [] => True
  | entry :: rest =>
      s.CanJournalFor task entry ∧ (s.journaledFor now task entry).CanJournalAll now task rest

/-- What journalling relies on: sessions have counted their events, and the task and its session are
there. -/
structure Store.Bookkept (s : Store) (task : Task) : Prop where
  counted : s.JournalCounted
  session : s.HasSession task.sessionId
  task : s.HasTask (some task.id)

/-- An entry of an operation on the task. -/
structure Entry.Of (entry : Entry) (task : Task) : Prop where
  task : entry.taskId = some task.id
  trace : entry.traceId ≠ some ""

theorem canJournalFor_iff (hbook : s.Bookkept task) (hentry : entry.Of task) :
    s.CanJournalFor task entry
      ↔ ∀ session, s.sessionOf task = some session → s.sessionEvents.get? entry.id = none := by
  constructor
  · rintro (hnone | ⟨row, -, hcan⟩) session hsession
    · rw [Store.sessionOf, hnone] at hsession
      cases hsession
    · exact hcan.fresh
  · intro hfree
    have hbound := hbook.session
    cases hreference : task.sessionId with
    | none => exact Or.inl hreference
    | some sessionId =>
        obtain ⟨session, hrow⟩ : ∃ session, s.sessions.get? sessionId = some session := by
          rw [hreference] at hbound
          simpa [Store.HasSession, Option.isSome_iff_exists] using hbound
        have hsession : s.sessionOf task = some session := by
          rw [Store.sessionOf, hreference]
          exact hrow
        have hcurrent : s.sessions.get? session.id = some session :=
          Table.get?_of_mem (Table.mem_of_get? hrow)
        refine Or.inr ⟨session, hsession, hentry.trace, hfree session hsession,
          next_free hbook.counted hcurrent, ?_⟩
        rw [hentry.task]
        exact hbook.task

theorem Store.Bookkept.journaledFor (hbook : s.Bookkept task) (hcan : s.CanJournalFor task entry) :
    (s.journaledFor now task entry).Bookkept task := by
  have hpath : Store.JournalPath (fun _ => False) (fun _ _ => True) s
      (s.journaledFor now task entry) := .of_journaledFor (fun _ _ => trivial) hcan
  have hgrows : s.JournalGrows (s.journaledFor now task entry) := .of_path hpath
  exact ⟨hgrows.counted hbook.counted, hgrows.hasSession hbook.session, hbook.task⟩

/-- What journalling finds after writes that leave it alone. -/
theorem Store.Bookkept.of_writes (hbook : s.Bookkept task)
    (hsessions : t.sessions = s.sessions) (hevents : t.sessionEvents = s.sessionEvents)
    (htasks : ∀ id, (t.tasks.get? id).isSome = (s.tasks.get? id).isSome) : t.Bookkept task := by
  obtain ⟨hcounted, hsession, htask⟩ := hbook
  refine ⟨?_, ?_, ?_⟩
  · rw [Store.JournalCounted, hsessions, hevents]
    exact hcounted
  · rw [Store.HasSession, hsessions]
    exact hsession
  · rw [Store.HasTask, Option.all_some, htasks]
    exact htask

/-- The session of the task is written back with one more event. -/
theorem get?_journaledFor {session : Session} (hsession : s.sessionOf task = some session)
    (id : String) :
    (s.journaledFor now task entry).sessions.get? id
      = if id = session.id then some { session with eventSequence := session.eventSequence + 1 }
        else s.sessions.get? id := by
  obtain ⟨sessionId, -, hrow⟩ := Option.bind_eq_some_iff.mp hsession
  have hcurrent : s.sessions.get? session.id = some session :=
    Table.get?_of_mem (Table.mem_of_get? hrow)
  have hkey : ({ session with eventSequence := session.eventSequence + 1 } : Session).id
      = session.id := rfl
  rw [journaledFor_of_some hsession]
  exact Table.get?_set_row hcurrent id hkey

theorem sessionOf_journaledFor {session : Session} (hsession : s.sessionOf task = some session) :
    (s.journaledFor now task entry).sessionOf task
      = some { session with eventSequence := session.eventSequence + 1 } := by
  obtain ⟨sessionId, hreference, hrow⟩ := Option.bind_eq_some_iff.mp hsession
  have hkey : sessionId = session.id := (Table.key_of_get? hrow).symm
  rw [Store.sessionOf, hreference, Option.bind_some, get?_journaledFor hsession, if_pos hkey]

/-- An event of another id is there after an entry if it was there before. -/
theorem event_journaledFor {session : Session} (hsession : s.sessionOf task = some session)
    (hfree : s.sessionEvents.get? entry.id = none) (id : String) :
    (s.journaledFor now task entry).sessionEvents.get? id = none
      ↔ id ≠ entry.id ∧ s.sessionEvents.get? id = none := by
  have hfresh : s.sessionEvents.get? (entry.event now session).id = none := hfree
  have hevent : (s.journaledFor now task entry).sessionEvents
      = s.sessionEvents.insert (entry.event now session) := by
    rw [journaledFor_of_some hsession]
    rfl
  rw [hevent, Table.get?_insert _ hfresh]
  change (if id = entry.id then _ else _) = none ↔ _
  by_cases hid : id = entry.id
  · simp [hid]
  · simp [hid]

/-- Entries of an operation on a task are journalled where their ids are free and differ. -/
theorem canJournalAll_iff {entries : List Entry} (hbook : s.Bookkept task)
    (hentries : ∀ entry ∈ entries, entry.Of task) :
    s.CanJournalAll now task entries
      ↔ ∀ session, s.sessionOf task = some session →
        (entries.map Entry.id).Nodup ∧ ∀ entry ∈ entries, s.sessionEvents.get? entry.id = none := by
  induction entries generalizing s with
  | nil => simp [Store.CanJournalAll]
  | cons entry rest ih =>
      rw [Store.CanJournalAll]
      have hfirst := canJournalFor_iff hbook (hentries entry List.mem_cons_self)
      have hrest : ∀ other ∈ rest, other.Of task := fun other hother =>
        hentries other (List.mem_cons_of_mem _ hother)
      constructor
      · rintro ⟨hcan, hcans⟩ session hsession
        have hfree := hfirst.mp hcan session hsession
        obtain ⟨hnodup, hothers⟩ :=
          (ih (hbook.journaledFor hcan) hrest).mp hcans _ (sessionOf_journaledFor hsession)
        have hother := fun other hmem =>
          (event_journaledFor hsession hfree _).mp (hothers other hmem)
        refine ⟨List.nodup_cons.mpr ⟨?_, hnodup⟩, List.forall_mem_cons.mpr ⟨hfree, ?_⟩⟩
        · intro hmem
          obtain ⟨other, hmem, hid⟩ := List.mem_map.mp hmem
          exact (hother other hmem).1 hid
        · intro other hmem
          exact (hother other hmem).2
      · intro hfree
        have hcan : s.CanJournalFor task entry := hfirst.mpr fun session hsession =>
          (List.forall_mem_cons.mp (hfree session hsession).2).1
        refine ⟨hcan, (ih (hbook.journaledFor hcan) hrest).mpr ?_⟩
        intro session' hsession'
        cases hsession : s.sessionOf task with
        | none =>
            rw [journaledFor_of_none hsession, hsession] at hsession'
            cases hsession'
        | some session =>
            obtain ⟨hnodup, hall⟩ := hfree session hsession
            obtain ⟨hfirstFree, hall⟩ := List.forall_mem_cons.mp hall
            obtain ⟨hnot, hnodup⟩ := List.nodup_cons.mp hnodup
            refine ⟨hnodup, fun other hmem => (event_journaledFor hsession hfirstFree _).mpr ?_⟩
            refine ⟨fun hid => hnot ?_, hall other hmem⟩
            exact List.mem_map.mpr ⟨other, hmem, hid⟩

theorem get?_journaledAll {session : Session} {entries : List Entry}
    (hsession : s.sessionOf task = some session) (id : String) :
    (s.journaledAll now task entries).sessions.get? id
      = if id = session.id then
          some { session with eventSequence := session.eventSequence + entries.length }
        else s.sessions.get? id := by
  induction entries generalizing s session with
  | nil =>
      obtain ⟨sessionId, -, hrow⟩ := Option.bind_eq_some_iff.mp hsession
      have hcurrent : s.sessions.get? session.id = some session :=
        Table.get?_of_mem (Table.mem_of_get? hrow)
      split
      · rename_i hid
        rw [Store.journaledAll, hid]
        exact hcurrent
      · rfl
  | cons entry rest ih =>
      have hcount : session.eventSequence + 1 + rest.length
          = session.eventSequence + (rest.length + 1) := by omega
      rw [Store.journaledAll, ih (sessionOf_journaledFor hsession), List.length_cons]
      by_cases hid : id = session.id
      · simp only [hid, if_true, hcount]
      · simp only [hid, if_false, get?_journaledFor hsession]

theorem sessionOf_journaledAll {session : Session} {entries : List Entry}
    (hsession : s.sessionOf task = some session) :
    (s.journaledAll now task entries).sessionOf task
      = some { session with eventSequence := session.eventSequence + entries.length } := by
  obtain ⟨sessionId, hreference, hrow⟩ := Option.bind_eq_some_iff.mp hsession
  have hkey : sessionId = session.id := (Table.key_of_get? hrow).symm
  rw [Store.sessionOf, hreference, Option.bind_some, get?_journaledAll hsession, if_pos hkey]

theorem journaledAll_of_none (hsession : s.sessionOf task = none) (entries : List Entry) :
    s.journaledAll now task entries = s := by
  induction entries with
  | nil => rfl
  | cons entry rest ih => rw [Store.journaledAll, journaledFor_of_none hsession, ih]

theorem tasks_journaledAll (entries : List Entry) :
    (s.journaledAll now task entries).tasks = s.tasks := by
  induction entries generalizing s with
  | nil => rfl
  | cons entry rest ih => rw [Store.journaledAll, ih, Store.journaledFor_tasks]

theorem event_journaledAll {session : Session} {entries : List Entry}
    (hsession : s.sessionOf task = some session) (hcan : s.CanJournalAll now task entries)
    (id : String) :
    (s.journaledAll now task entries).sessionEvents.get? id = none
      ↔ id ∉ entries.map Entry.id ∧ s.sessionEvents.get? id = none := by
  induction entries generalizing s session with
  | nil => simp [Store.journaledAll]
  | cons entry rest ih =>
      obtain ⟨hfirst, hrest⟩ := hcan
      have hfree : s.sessionEvents.get? entry.id = none := by
        rcases hfirst with hnone | ⟨row, -, hfirst⟩
        · rw [Store.sessionOf, hnone] at hsession
          cases hsession
        · exact hfirst.fresh
      rw [Store.journaledAll, ih (sessionOf_journaledFor hsession) hrest,
        event_journaledFor hsession hfree, List.map_cons, List.mem_cons, not_or]
      tauto

/-! ### Operations -/

/-- The session of a task can take entries under these ids, one after the other. -/
def Store.Takes (s : Store) (task : Task) (ids : List String) : Prop :=
  ∀ session, s.sessionOf task = some session →
    s.HasTask session.activeTaskId ∧ ids.Nodup ∧ ∀ id ∈ ids, s.sessionEvents.get? id = none

/-- Writes that leave sessions and events alone and neither add nor remove a task change nothing for
the journal. -/
theorem takes_congr (hsessions : t.sessions = s.sessions)
    (hevents : t.sessionEvents = s.sessionEvents)
    (htasks : ∀ id, (t.tasks.get? id).isSome = (s.tasks.get? id).isSome) {ids : List String} :
    t.Takes task ids ↔ s.Takes task ids := by
  have hthere : ∀ reference, t.HasTask reference ↔ s.HasTask reference := by
    intro reference
    cases reference with
    | none => exact Iff.rfl
    | some id => rw [Store.HasTask, Store.HasTask, Option.all_some, Option.all_some, htasks id]
  simp only [Store.Takes, Store.sessionOf, hsessions, hevents, hthere]

/-- An operation that journals its entries last is accepted where the session takes them. -/
theorem journalled_iff {entries : List Entry} (hbook : t.Bookkept task)
    (hentries : ∀ entry ∈ entries, entry.Of task) (hsome : entries ≠ [])
    (hsessions : t.sessions = s.sessions) :
    (t.CanJournalAll now task entries ∧ (t.journaledAll now task entries).ReferencesTasks s)
      ↔ t.Takes task (entries.map Entry.id) := by
  rw [canJournalAll_iff hbook hentries]
  cases hsession : t.sessionOf task with
  | none =>
      have hsame : t.ReferencesTasks s := by
        intro other hother
        rw [hsessions] at hother
        exact Or.inl (Table.get?_of_mem hother)
      simp [Store.Takes, hsession, journaledAll_of_none hsession, hsame]
  | some session =>
      obtain ⟨sessionId, -, hrow⟩ := Option.bind_eq_some_iff.mp hsession
      have hcurrent : s.sessions.get? session.id = some session := by
        rw [← hsessions]
        exact Table.get?_of_mem (Table.mem_of_get? hrow)
      have hchanged : ({ session with eventSequence := session.eventSequence + entries.length }
          : Session) ≠ session := by
        intro hsame
        have hcount := congrArg Session.eventSequence hsame
        have hlength : 0 < entries.length := List.length_pos_iff.mpr hsome
        simp only at hcount
        omega
      have hsessions' : ∀ id, (t.journaledAll now task entries).sessions.get? id
          = if id = session.id then
              some { session with eventSequence := session.eventSequence + entries.length }
            else s.sessions.get? id := by
        intro id
        rw [get?_journaledAll hsession, hsessions]
      have hkey : ({ session with eventSequence := session.eventSequence + entries.length }
          : Session).id = session.id := rfl
      have hreferences := referencesTasks_iff hcurrent hkey hchanged hsessions'
      have hthere : (t.journaledAll now task entries).HasTask session.activeTaskId
          ↔ t.HasTask session.activeTaskId := by
        unfold Store.HasTask
        rw [tasks_journaledAll]
      rw [hreferences, hthere]
      simp only [Store.Takes, hsession, Option.some.injEq, forall_eq', List.mem_map,
        forall_exists_index, and_imp, forall_apply_eq_imp_iff₂]
      tauto

/-- What the session takes after it took some entries. -/
theorem takes_append {entries : List Entry} {ids : List String} (hbook : s.Bookkept task)
    (hentries : ∀ entry ∈ entries, entry.Of task) (htakes : s.Takes task (entries.map Entry.id)) :
    (s.journaledAll now task entries).Takes task ids
      ↔ s.Takes task (entries.map Entry.id ++ ids) := by
  have hcan : s.CanJournalAll now task entries := by
    refine (canJournalAll_iff hbook hentries).mpr fun session hsession => ?_
    obtain ⟨-, hnodup, hfree⟩ := htakes session hsession
    exact ⟨hnodup, fun entry hentry => hfree _ (List.mem_map_of_mem hentry)⟩
  cases hsession : s.sessionOf task with
  | none => simp [Store.Takes, hsession, journaledAll_of_none hsession]
  | some session =>
      obtain ⟨hactive, hnodup, hfree⟩ := htakes session hsession
      have hthere : (s.journaledAll now task entries).HasTask session.activeTaskId
          ↔ s.HasTask session.activeTaskId := by
        unfold Store.HasTask
        rw [tasks_journaledAll]
      simp only [Store.Takes, sessionOf_journaledAll hsession, hsession, Option.some.injEq,
        forall_eq', hthere, event_journaledAll hsession hcan, List.nodup_append, List.mem_append]
      constructor
      · rintro ⟨-, hrest, hids⟩
        refine ⟨hactive, ⟨hnodup, hrest, ?_⟩, ?_⟩
        · rintro id hid other hother rfl
          exact (hids id hother).1 hid
        · rintro id (hid | hid)
          · exact hfree id hid
          · exact (hids id hid).2
      · rintro ⟨-, ⟨-, hrest, hdiffer⟩, hids⟩
        refine ⟨hactive, hrest, fun id hid => ⟨fun hold => ?_, hids id (Or.inr hid)⟩⟩
        exact hdiffer id hold id hid rfl

section Accepted

variable [Sha256] {op : Op} {entries : List Entry} {P : Prop}

/-- A call is accepted of which it is known when its operation gets to its entries; what it writes after
them is neither a session nor a task. -/
theorem accepted_journalled {final : Store} (hbook : t.Bookkept task)
    (hentries : ∀ entry ∈ entries, entry.Of task) (hsome : entries ≠ [])
    (hsessions : t.sessions = s.sessions)
    (hfinal : final.sessions = (t.journaledAll now task entries).sessions)
    (htasks : final.tasks = (t.journaledAll now task entries).tasks)
    (hexec : ∀ s', (exec now op).Returns s () s'
      ↔ P ∧ t.CanJournalAll now task entries ∧ s' = final) :
    Call.Accepted s (.op ⟨now, op⟩) ↔ P ∧ t.Takes task (entries.map Entry.id) := by
  have hreferences : final.ReferencesTasks s
      ↔ (t.journaledAll now task entries).ReferencesTasks s := by
    simp only [Store.ReferencesTasks, Store.HasTask, hfinal, htasks]
  rw [← @journalled_iff s t now task entries hbook hentries hsome hsessions, ← hreferences]
  constructor
  · intro haccepted
    obtain ⟨hreturns, hreferences⟩ := callOp_returns.mp (callAccepted_iff.mp haccepted)
    obtain ⟨hP, hcan, hafter⟩ := (hexec _).mp hreturns
    exact ⟨hP, hcan, hafter ▸ hreferences⟩
  · rintro ⟨hP, hcan, hreferences⟩
    have hreturns := (hexec _).mpr ⟨hP, hcan, rfl⟩
    exact callAccepted_of_returns (u := ()) (callOp_returns.mpr ⟨hreturns, hreferences⟩)

theorem callStep_journalled {final : Store}
    (hexec : ∀ s', (exec now op).Returns s () s'
      ↔ P ∧ t.CanJournalAll now task entries ∧ s' = final)
    (haccepted : Call.Accepted s (.op ⟨now, op⟩)) : callStep s (.op ⟨now, op⟩) = final :=
  ((hexec _).mp (callOp_returns.mp (callAccepted_iff.mp haccepted)).1).2.2

end Accepted

/-! ### The sessions of tasks -/

/-- The session of every task is there. -/
def Store.TasksBound (s : Store) : Prop :=
  ∀ task ∈ s.tasks.rows, s.HasSession task.sessionId

variable [Sha256] {op : Op}

omit [Sha256] in
theorem tasksBound_of_prepare {result : Task} (hbound : s.TasksBound)
    (hreturns : (prepareTaskExecution task).Returns s result s') : s'.TasksBound := by
  have hgrows := journalGrows_of_prepare hreturns
  obtain ⟨current, -, hcurrent, hreference, hbranch⟩ := prepareTaskExecution_returns hreturns
  have hensured : ∀ id row, (s.taskEnsured task).tasks.get? id = some row →
      s.HasSession row.sessionId := by
    intro id row hrow
    rcases get?_taskEnsured s task id with heq | ⟨hid, hnew, heq⟩
    · exact hbound row (Table.mem_of_get? (heq ▸ hrow))
    · cases Option.some.inj (heq.symm.trans hrow)
      exact hreference (hid ▸ hnew)
  intro task' hmem
  have hrow' : s'.tasks.get? task'.id = some task' := Table.get?_of_mem hmem
  rcases hbranch with rfl | ⟨hfree, session, -, hsession, hstate⟩
  · exact hgrows.hasSession (hensured _ _ hrow')
  · have htables : s'.tasks = (s.taskEnsured task).tasks.set (current.boundTo session)
        ∧ s'.sessions.get? session.id ≠ none := by
      have htasks : ((s.taskEnsured task).runtimeSessionEnsured current).tasks
          = (s.taskEnsured task).tasks := by
        unfold Store.runtimeSessionEnsured
        split <;> rfl
      rcases hstate with ⟨-, rfl⟩ | ⟨-, rfl⟩
      · exact ⟨by rw [Store.putTask_tasks, htasks], by simp [hsession]⟩
      · refine ⟨by rw [Store.putSession_tasks, Store.putTask_tasks, htasks], ?_⟩
        rw [Store.putSession_sessions, Store.putTask_sessions, Table.get?_set, hsession]
        split <;> simp
    obtain ⟨htasks, hthere⟩ := htables
    have hkey : (current.boundTo session).id = task.id := Table.key_of_get? hcurrent
    rw [htasks, Table.get?_set_row hcurrent task'.id hkey] at hrow'
    split at hrow'
    · cases hrow'
      simpa [Store.HasSession, Task.boundTo, Option.isSome_iff_ne_none] using hthere
    · exact hgrows.hasSession (hensured _ _ hrow')

theorem tasksBound_after (hbound : s.TasksBound) (hreturns : (exec now op).Returns s () s') :
    s'.TasksBound := by
  intro task' hmem
  have hgrows := journalGrows hreturns
  have hkept : ∀ {id : String} {task written : Task}, s.tasks.get? id = some task →
      written.sessionId = task.sessionId → s'.HasSession written.sessionId := by
    intro id task written hrow hsession
    rw [hsession]
    exact hgrows.hasSession (hbound task (Table.mem_of_get? hrow))
  have hchange := taskChange hreturns task'.id
  rw [show s'.tasks.get? task'.id = some task' from Table.get?_of_mem hmem] at hchange
  generalize task'.id = id at hchange
  generalize hafter : some task' = row at hchange
  cases hchange with
  | kept op => exact hkept hafter.symm rfl
  | started hvalid houtcome hid hnew hsession =>
      cases hafter
      exact hgrows.hasSession hsession
  | ensured hvalid hid hnew hsession =>
      cases hafter
      exact hgrows.hasSession hsession
  | bound =>
      obtain ⟨_, hreturns⟩ := discard_returns.mp hreturns
      exact tasksBound_of_prepare hbound hreturns task' hmem
  | created hvalid hid hnew hsession =>
      cases hafter
      exact hgrows.hasSession hsession
  | updated hupdates =>
      cases hafter
      exact hkept hupdates.loadsTask.1 hupdates.session_eq.symm
  | cancelled hload =>
      cases hafter
      exact hkept hload.1 rfl
  | claimed hclaims =>
      cases hafter
      exact hkept hclaims.loadsTask.1 rfl
  | idled hguards hload =>
      cases hafter
      unfold Task.idled
      split <;> exact hkept hload.1 rfl
  | recoveryMarked hexecution hload =>
      cases hafter
      exact hkept hload.1 rfl
  | waiting hrequests =>
      cases hafter
      exact hkept hrequests.loadsTask.1 rfl
  | resumed hresolves =>
      cases hafter
      unfold Task.resumed
      split <;> exact hkept hresolves.loadsTask.1 rfl
  | inRecovery hmarks =>
      cases hafter
      unfold Task.inRecovery
      split <;> exact hkept hmarks.loadsTask.1 rfl
  | recovered hresolves =>
      cases hafter
      exact hkept hresolves.loadsTask.1 rfl

theorem tasksBound_callStep {call : Call} (hbound : s.TasksBound) :
    (callStep s call).TasksBound := by
  obtain hsame | hreturns := callStep_cases s call
  · rw [hsame]
    exact hbound
  · generalize callStep s call = s' at hreturns ⊢
    cases call with
    | op timed => exact tasksBound_after hbound (callOp_returns.mp hreturns).1
    | saveTask now task guard =>
        obtain ⟨-, hsession, rfl⟩ := saveTask_returns.mp hreturns
        intro row hmem
        rcases Table.mem_upsert hmem with rfl | hold
        · exact hsession
        · exact hbound row hold
    | deleteTask taskId =>
        obtain ⟨-, rfl⟩ := deleteTask_returns hreturns
        intro row hmem
        exact hbound row (Table.mem_filter.mp hmem).1

end PatchLoop
