import PatchLoop.Store.EffectChanges
import PatchLoop.Store.JournalChanges

/-!
# What the migration of a legacy database does

Each task gets its legacy session, in which one event is counted, and effects that have ended.
-/

namespace PatchLoop

open Transaction

/-- A migrated database as far as the loop has come: a task is still to be migrated, or it is and has
its session. -/
structure Store.Migrating (s : Store) (legacy : Store) (todo : List Task) : Prop where
  legacyTasks : ∀ task ∈ todo, task ∈ legacy.tasks.rows
  tasks : ∀ task ∈ s.tasks.rows, task ∈ todo
    ∨ ∃ old ∈ legacy.tasks.rows, task = old.migrated ∧ s.HasSession task.sessionId
  effects : ∀ effect ∈ s.effects.rows, effect.status ∈ [EffectStatus.succeeded, .failed]
  journal : s.JournalCounted

variable [Sha256] {s s' legacy : Store} {now : Timestamp} {u : Unit}

theorem legacyEffect_status {task : Task} {effect : Effect} (hmem : effect ∈ s.legacyEffects task) :
    effect.status ∈ [EffectStatus.succeeded, .failed] := by
  obtain ⟨⟨row, position⟩, -, rfl⟩ := List.mem_map.mp hmem
  simp only [legacyEffect]
  split <;> simp

omit [Sha256] in
theorem adaptLegacyCheckpoint_returns {taskId sessionId : String}
    (hreturns : (adaptLegacyCheckpoint taskId sessionId).Returns s u s') :
    ∃ checkpoints, s' = { s with checkpoints := checkpoints } := by
  simp only [adaptLegacyCheckpoint, bind_returns, get_returns, existsAndEq, true_and] at hreturns
  split at hreturns
  · obtain ⟨-, rfl⟩ := pure_returns.mp hreturns
    exact ⟨s'.checkpoints, rfl⟩
  · rw [set_returns.mp hreturns]
    exact ⟨_, rfl⟩

/-- The database after one round of the migration loop, its checkpoint apart. -/
def Store.migrated (s : Store) (now : Timestamp) (task : Task) : Store :=
  (((s.addSession task.legacySession).putTask task.migrated).addEffects
    (s.legacyEffects task)).addSessionEvent (task.legacyEvent now (s.legacyEffects task))

theorem migrateLegacyTask_returns {task : Task}
    (hreturns : (migrateLegacyTask now task).Returns s u s') :
    s.sessions.get? task.legacySession.id = none ∧ s.tasks.get? task.id ≠ none
      ∧ ((s.addSession task.legacySession).putTask task.migrated).FreshEffects
          (s.legacyEffects task)
      ∧ s.sessionEvents.get? (task.legacyEvent now (s.legacyEffects task)).id = none
      ∧ ∃ checkpoints, s' = { s.migrated now task with checkpoints := checkpoints } := by
  simp only [migrateLegacyTask, bind_returns, raiseIf_returns, query_returns, insertSession_returns,
    writeTask_returns, insertEffects_returns, insertEvent_returns, existsAndEq, exists_const,
    true_and, and_assoc] at hreturns
  obtain ⟨-, hsession, -, htask, hfresh, _, t, hadapt, hevent, -, -, rfl⟩ := hreturns
  obtain ⟨checkpoints, rfl⟩ := adaptLegacyCheckpoint_returns hadapt
  exact ⟨hsession, htask, hfresh, hevent, checkpoints, rfl⟩

theorem journalGrows_of_migrated {task : Task}
    (hsession : s.sessions.get? task.legacySession.id = none) :
    s.JournalGrows (s.migrated now task) := by
  have hadded : s.JournalGrows (s.addSession task.legacySession) := .of_addSession hsession
  refine ⟨hadded.sessions, fun event hevent => ?_⟩
  change event ∈ (s.sessionEvents.insert (task.legacyEvent now (s.legacyEffects task))).rows at hevent
  unfold Table.insert at hevent
  split at hevent
  · exact Or.inl hevent
  · rcases List.mem_append.mp hevent with hold | hnew
    · exact Or.inl hold
    · cases List.mem_singleton.mp hnew
      refine Or.inr ⟨task.legacySession, ?_, Nat.le_refl 1⟩
      exact Table.get?_insert_self hsession

/-- One round of the loop. -/
theorem migrating_step {task : Task} {rest : List Task} (hmigrating : s.Migrating legacy (task :: rest))
    (hreturns : (migrateLegacyTask now task).Returns s u s') : s'.Migrating legacy rest := by
  obtain ⟨hsession, hrow, hfresh, -, checkpoints, rfl⟩ := migrateLegacyTask_returns hreturns
  have hgrows : s.JournalGrows { s.migrated now task with checkpoints := checkpoints } :=
    (journalGrows_of_migrated hsession).trans (.of_same rfl rfl)
  refine ⟨fun other hother => hmigrating.legacyTasks other (List.mem_cons_of_mem _ hother), ?_, ?_,
    hgrows.counted hmigrating.journal⟩
  · intro written hmem
    change written ∈ (s.tasks.set task.migrated).rows at hmem
    obtain ⟨old, hold, hwritten⟩ := List.mem_map.mp hmem
    by_cases hid : old.id = task.id
    · obtain rfl : task.migrated = written := by
        rw [← hwritten]
        exact (if_pos hid).symm
      refine Or.inr ⟨task, hmigrating.legacyTasks task List.mem_cons_self, rfl, ?_⟩
      have hget : (s.sessions.insert task.legacySession).get? (legacySessionId task.id)
          = some task.legacySession := Table.get?_insert_self hsession
      change ((s.sessions.insert task.legacySession).get? (legacySessionId task.id)).isSome = true
      rw [hget]
      rfl
    · obtain rfl : old = written := by
        rw [← hwritten]
        exact (if_neg hid).symm
      rcases hmigrating.tasks old hold with htodo | ⟨source, hsource, heq, hbound⟩
      · rcases List.mem_cons.mp htodo with rfl | hrest
        · exact absurd rfl hid
        · exact Or.inl hrest
      · exact Or.inr ⟨source, hsource, heq, hgrows.hasSession hbound⟩
  · intro effect hmem
    have hget : ((s.addSession task.legacySession).putTask task.migrated |>.addEffects
        (s.legacyEffects task)).effects.get? effect.id = some effect := Table.get?_of_mem hmem
    rcases get?_addEffects hfresh effect.id with hsame | ⟨-, added, hadded, -, hnew⟩
    · have hold : s.effects.get? effect.id = some effect := hsame.symm.trans hget
      exact hmigrating.effects effect (Table.mem_of_get? hold)
    · cases Option.some.inj (hnew.symm.trans hget)
      exact legacyEffect_status hadded

/-- What every round of the loop preserves. -/
theorem migrateLegacyTasks_preserves (Inv : Store → Prop) {todo : List Task}
    (hround : ∀ (s s' : Store) (task : Task), Inv s → (migrateLegacyTask now task).Returns s () s' →
      Inv s')
    (hstart : Inv s) (hreturns : (migrateLegacyTasks now todo).Returns s u s') : Inv s' := by
  induction todo generalizing s with
  | nil =>
      obtain ⟨-, rfl⟩ := pure_returns.mp hreturns
      exact hstart
  | cons task rest ih =>
      obtain ⟨_, t, hfirst, hrest⟩ := bind_returns.mp hreturns
      exact ih (hround s t task hstart hfirst) hrest

theorem migrating_loop {todo : List Task} (hmigrating : s.Migrating legacy todo)
    (hreturns : (migrateLegacyTasks now todo).Returns s u s') : s'.Migrating legacy [] := by
  induction todo generalizing s with
  | nil =>
      obtain ⟨-, rfl⟩ := pure_returns.mp hreturns
      exact hmigrating
  | cons task rest ih =>
      obtain ⟨_, t, hfirst, hrest⟩ := bind_returns.mp hreturns
      exact ih (migrating_step hmigrating hfirst) hrest

/-- After the migration every task is a migrated one and has its session, every effect has ended, and
every event is counted. -/
theorem migrateLegacyRuntime_returns (hlegacy : s.Legacy)
    (hreturns : (migrateLegacyRuntime now).Returns s u s') : s'.Migrating s [] := by
  simp only [migrateLegacyRuntime, bind_returns, query_returns, existsAndEq, true_and] at hreturns
  refine migrating_loop ⟨?_, ?_, ?_, ?_⟩ hreturns
  · intro task hmem
    exact List.mem_of_mem_filter ((List.mem_insertionSort _).mp hmem)
  · intro task hmem
    refine Or.inl ((List.mem_insertionSort _).mpr (List.mem_filter.mpr ⟨hmem, ?_⟩))
    simp [(hlegacy.tasks task hmem).1]
  · intro effect hmem
    rw [hlegacy.effects] at hmem
    cases hmem
  · intro event hmem
    rw [hlegacy.sessionEvents] at hmem
    cases hmem

/-- The databases with which a run starts: a new one, or the migration of a legacy one. -/
def Store.Initial (s : Store) : Prop :=
  s = {} ∨ ∃ legacy now, legacy.Legacy ∧ (migrateLegacyRuntime now).Returns legacy () s

/-- What the empty tables of a legacy database satisfy and every round of the loop preserves holds of
every database with which a run starts. -/
theorem initial_induction (Inv : Store → Prop) (hempty : Inv {})
    (hlegacy : ∀ legacy : Store, legacy.Legacy → Inv legacy)
    (hround : ∀ (s s' : Store) (now : Timestamp) (task : Task), Inv s →
      (migrateLegacyTask now task).Returns s () s' → Inv s')
    (hinitial : s.Initial) : Inv s := by
  obtain rfl | ⟨legacy, now, hstart, hreturns⟩ := hinitial
  · exact hempty
  · simp only [migrateLegacyRuntime, bind_returns, query_returns, existsAndEq, true_and] at hreturns
    exact migrateLegacyTasks_preserves Inv (fun s s' task => hround s s' now task)
      (hlegacy legacy hstart) hreturns

theorem initial_turns (hinitial : s.Initial) : s.turns = .empty := by
  refine initial_induction (fun s => s.turns = .empty) rfl (fun legacy hlegacy => hlegacy.turns) ?_
    hinitial
  intro t t' now task hturns hround
  obtain ⟨-, -, -, -, checkpoints, rfl⟩ := migrateLegacyTask_returns hround
  exact hturns

end PatchLoop
