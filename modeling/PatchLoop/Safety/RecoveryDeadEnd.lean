import PatchLoop.Safety.RecoveryExit
import PatchLoop.Store.MigrationSpec

/-!
# No dead end in recovery

The task of an undecided effect can always be abandoned, while the journal has not used up the digests
from which the ids of its entries are made. With the way out that every operation keeps, no active
task is stuck in recovery.
-/

namespace PatchLoop

open Transaction

section Abandon

variable [Sha256] {s : Store} {now : Timestamp} {task : Task} {effect : Effect} {evidence : Json}
  {decisionSource : String}

/-- There are more digests of the ids of dispositions than rows that could have taken one. -/
def Store.DigestsLeft (s : Store) : Prop :=
  ∃ ids : List String, (ids.map fun id => journalEventId "recovery.resolved" id "abandon").Nodup
    ∧ s.recoveryDispositions.rows.length + s.sessionEvents.rows.length < ids.length

/-- A disposition's id that is not taken, nor is the one of its journal entry. -/
theorem exists_fresh_disposition (hleft : s.DigestsLeft) :
    ∃ id, s.recoveryDispositions.get? id = none
      ∧ s.sessionEvents.get? (journalEventId "recovery.resolved" id "abandon") = none := by
  obtain ⟨ids, hnodup, hlength⟩ := hleft
  by_contra hnone
  push Not at hnone
  let taken := s.recoveryDispositions.rows.map RecoveryDisposition.id
  let free := ids.filter fun id => !decide (id ∈ taken)
  have hdispositions : (ids.filter fun id => id ∈ taken).length
      ≤ s.recoveryDispositions.rows.length := by
    have hsub : (ids.filter fun id => id ∈ taken) ⊆ taken := fun id hid => by
      simpa using (List.mem_filter.mp hid).2
    have hle := ((hnodup.of_map.filter _).subperm hsub).length_le
    simpa [taken] using hle
  have hevents : free.length ≤ s.sessionEvents.rows.length := by
    have hsub : (free.map fun id => journalEventId "recovery.resolved" id "abandon")
        ⊆ s.sessionEvents.rows.map SessionEvent.id := by
      intro entryId hmem
      obtain ⟨id, hid, rfl⟩ := List.mem_map.mp hmem
      have hnot : id ∉ taken := by simpa using (List.mem_filter.mp hid).2
      have hfree : s.recoveryDispositions.get? id = none := Table.get?_eq_none_iff.mpr hnot
      by_contra hunused
      exact hnone id hfree (Table.get?_eq_none_iff.mpr hunused)
    have hle := ((hnodup.sublist (List.filter_sublist.map _)).subperm hsub).length_le
    simpa using hle
  have hsplit : (ids.filter fun id => id ∈ taken).length + free.length = ids.length := by
    simpa [free] using (List.length_eq_length_filter_add (fun id => decide (id ∈ taken))).symm
  omega

/-- An effect of a task in recovery that awaits its disposition can be abandoned, when the entry can be
journalled. -/
theorem abandon_returns {id : String} (htask : s.LoadsTask task.id task)
    (heffect : s.LoadsEffect effect.id effect) (hrecovery : task.runtimeCondition = .recoveryRequired)
    (howner : effect.taskId = task.id) (hunknown : effect.status = .unknown)
    (hfree : s.dispositionByIdOrEffect id effect.id = none)
    (hevidence : evidence.isEmptyObject = false)
    (hjournal : ((s.addRecoveryDisposition (abandonment now id effect.id evidence
      decisionSource)).putTask (task.recovered .abandon .ended)).CanJournalResolution task
        (abandonment now id effect.id evidence decisionSource)) :
    ∃ result t, (resolveRecovery now (abandonment now id effect.id evidence decisionSource) task.id
      task.version {}).Returns s result t := by
  have hvalid : (validateRecoveryResolution task effect (abandonment now id effect.id evidence
      decisionSource) {}).Returns s .ended s := by
    refine bind_returns.mpr ⟨⟨⟩, s, raiseIf_returns.mpr ⟨by simp [hrecovery], rfl⟩, ?_⟩
    refine bind_returns.mpr ⟨⟨⟩, s, raiseIf_returns.mpr ⟨by simp [howner, hunknown], rfl⟩, ?_⟩
    refine bind_returns.mpr ⟨⟨⟩, s, raiseIf_returns.mpr ⟨by simp [abandonment, hevidence], rfl⟩, ?_⟩
    refine bind_returns.mpr ⟨.ended, s, ?_, ?_⟩
    · refine bind_returns.mpr ⟨⟨⟩, s, raiseIf_returns.mpr ⟨by simp [abandonment], rfl⟩, ?_⟩
      exact pure_returns.mpr ⟨rfl, rfl⟩
    · refine bind_returns.mpr ⟨⟨⟩, s, raiseIf_returns.mpr ⟨?_, rfl⟩, pure_returns.mpr ⟨rfl, rfl⟩⟩
      simp [abandonment, RecoveryDispositionKind.allowed]
  have hwrite : (writeResolution now effect (abandonment now id effect.id evidence decisionSource)
      {}).Returns s ⟨⟩ s := by
    simp [writeResolution]
  have hinsert : (insertRecoveryDisposition (abandonment now id effect.id evidence
      decisionSource)).Returns s ⟨⟩
        (s.addRecoveryDisposition (abandonment now id effect.id evidence decisionSource)) := by
    refine insertRecoveryDisposition_returns.mpr ⟨hfree, ?_, rfl, rfl⟩
    simp [Store.HasEffect, abandonment, heffect.1]
  refine ⟨task.recovered .abandon .ended, (((s.addRecoveryDisposition (abandonment now id effect.id
    evidence decisionSource)).putTask (task.recovered .abandon .ended))).journaledResolution now task
      (abandonment now id effect.id evidence decisionSource), ?_⟩
  refine bind_returns.mpr ⟨⟨⟩, s, validateRetryEffect_returns.mpr ⟨by simp, rfl⟩, ?_⟩
  refine bind_returns.mpr ⟨⟨⟩, s, validateApprovals_returns.mpr ⟨by simp, rfl⟩, ?_⟩
  refine bind_returns.mpr ⟨task, s, requireTask_returns.mpr ⟨htask, rfl⟩, ?_⟩
  refine bind_returns.mpr ⟨none, s, query_returns.mpr ⟨hfree, rfl⟩, ?_⟩
  refine bind_returns.mpr ⟨⟨⟩, s, checkVersion_returns.mpr ⟨by simp, rfl⟩, ?_⟩
  refine bind_returns.mpr ⟨⟨⟩, s, raiseIf_returns.mpr ⟨by simp [hrecovery], rfl⟩, ?_⟩
  refine bind_returns.mpr ⟨effect, s, requireEffect_returns.mpr ⟨heffect, rfl⟩, ?_⟩
  refine bind_returns.mpr ⟨⟨⟩, s, raiseIf_returns.mpr ⟨by simp [howner, hunknown], rfl⟩, ?_⟩
  refine bind_returns.mpr ⟨.ended, s, hvalid, ?_⟩
  refine bind_returns.mpr ⟨⟨⟩, s, hwrite, ?_⟩
  refine bind_returns.mpr ⟨⟨⟩, _, hinsert, ?_⟩
  refine bind_returns.mpr ⟨⟨⟩, _, writeTask_returns.mpr ⟨?_, rfl⟩, ?_⟩
  · change s.tasks.get? task.id ≠ none
    simp [htask.1]
  · exact bind_returns.mpr ⟨⟨⟩, _, journalResolution_returns.mpr ⟨hjournal, rfl⟩,
      pure_returns.mpr ⟨rfl, rfl⟩⟩

/-- An active task in recovery with an effect that awaits its disposition can be abandoned, which takes
it out of recovery. -/
theorem abandon_accepted (hsound : s.Sound) (hleft : s.DigestsLeft) (hmem : task ∈ s.tasks.rows)
    (hrecovering : task.Recovering) (hpending : effect ∈ s.pendingRecovery task.id)
    (hevidence : evidence.isEmptyObject = false) :
    ∃ id, Accepted s ⟨now, .resolveRecovery (abandonment now id effect.id evidence decisionSource)
        task.id task.version {}⟩
      ∧ ¬ (step s ⟨now, .resolveRecovery (abandonment now id effect.id evidence decisionSource)
        task.id task.version {}⟩).InRecovery task.id := by
  obtain ⟨hundecided, howner⟩ := mem_pendingRecovery.mp hpending
  obtain ⟨hstatus, hsession⟩ := hsound.tasks task hmem
  have hrow : s.tasks.get? task.id = some task := Table.get?_of_mem hmem
  have htask : s.LoadsTask task.id task := ⟨hrow, hstatus, fun hended => absurd hrecovering.1 hended⟩
  have heffect : s.LoadsEffect effect.id effect := ⟨hundecided.row, hsound.effects effect hundecided⟩
  obtain ⟨id, hid, hentry⟩ := exists_fresh_disposition hleft
  have hfree : s.dispositionByIdOrEffect id effect.id = none := by
    rw [Store.dispositionByIdOrEffect, hid, hundecided.undisposed]
    rfl
  have hjournal : ((s.addRecoveryDisposition (abandonment now id effect.id evidence
      decisionSource)).putTask (task.recovered .abandon .ended)).CanJournalResolution task
        (abandonment now id effect.id evidence decisionSource) := by
    cases hreference : task.sessionId with
    | none => exact Or.inl hreference
    | some sessionId =>
        obtain ⟨session, hsessionRow⟩ : ∃ session, s.sessions.get? sessionId = some session := by
          rw [hreference] at hsession
          simpa [Store.HasSession, Option.isSome_iff_exists] using hsession
        refine Or.inr ⟨session.withoutActive task.id, ?_, ?_, hentry, ?_, ?_⟩
        · simp [Store.resolutionSession, Store.sessionOf, hreference, hsessionRow, abandonment]
        · simp [RecoveryDisposition.entry]
        · -- The session has counted every event of its own.
          intro other hother hsame
          rw [Session.withoutActive_id] at hsame
          rw [Session.withoutActive_eventSequence]
          obtain ⟨counting, hcounting, hle⟩ := hsound.journal other hother
          have hkey : session.id = sessionId := Table.key_of_get? hsessionRow
          rw [hsame, hkey, hsessionRow] at hcounting
          cases hcounting
          omega
        · have hset : (s.tasks.set (task.recovered .abandon .ended)).get? task.id
              = some (task.recovered .abandon .ended) := by
            have hkey : (task.recovered .abandon .ended).id = task.id := rfl
            rw [Table.get?_set_row hrow task.id hkey, if_pos rfl]
          simp [Store.HasTask, RecoveryDisposition.entry, hset]
  obtain ⟨result, t, hresolve⟩ := abandon_returns htask heffect hrecovering.2 howner
    hundecided.unknown hfree hevidence hjournal
  have hexec : (exec now (.resolveRecovery (abandonment now id effect.id evidence decisionSource)
      task.id task.version {})).Returns s () t := discard_returns.mpr ⟨result, hresolve⟩
  have hreturns : (exec now (.resolveRecovery (abandonment now id effect.id evidence decisionSource)
      task.id task.version {})).Returns s () (step s ⟨now, .resolveRecovery (abandonment now id
        effect.id evidence decisionSource) task.id task.version {}⟩) := by
    rw [step, commit_of_returns hexec]
    exact hexec
  refine ⟨id, accepted_iff.mpr hreturns, ?_⟩
  obtain ⟨_, hresolved⟩ := discard_returns.mp hreturns
  obtain ⟨-, htaken⟩ | ⟨current, unknown, target, hresolves, -⟩ := resolveRecovery_returns hresolved
  · exact absurd hfree htaken
  · exact not_inRecovery_of_resolves hreturns hresolves

end Abandon

/-- The databases with which a run starts: a new one, or the migration of a legacy one in which no task
was running. -/
def Store.Opened [Sha256] (s : Store) : Prop :=
  s = {} ∨ ∃ legacy now, legacy.Legacy ∧ (∀ task ∈ legacy.tasks.rows, task.status ≠ .running)
    ∧ (migrateLegacyRuntime now).Returns legacy () s

section Runs

variable [Sha256] {s : Store} {history : List Timed}

theorem Store.Opened.sound (hopened : s.Opened) : s.Sound := by
  rcases hopened with rfl | ⟨legacy, now, hlegacy, -, hreturns⟩
  · refine ⟨fun task hmem => absurd hmem List.not_mem_nil, fun effect hundecided => ?_, fun event hmem =>
      absurd hmem List.not_mem_nil⟩
    exact absurd (Table.mem_of_get? hundecided.row) List.not_mem_nil
  · have hmigrating := migrateLegacyRuntime_returns hlegacy hreturns
    refine ⟨fun task hmem => ?_, fun effect hundecided => ?_, hmigrating.journal⟩
    · rcases hmigrating.tasks task hmem with hnone | ⟨old, hold, rfl, hsession⟩
      · cases hnone
      · exact ⟨(hlegacy.tasks old hold).2.1, hsession⟩
    · have hended := hmigrating.effects effect (Table.mem_of_get? hundecided.row)
      rw [hundecided.unknown] at hended
      simp at hended

theorem Store.Opened.disposable (hopened : s.Opened) : s.Disposable := by
  intro task hmem hrecovering
  rcases hopened with rfl | ⟨legacy, now, hlegacy, hidle, hreturns⟩
  · cases hmem
  · rcases (migrateLegacyRuntime_returns hlegacy hreturns).tasks task hmem with
      hnone | ⟨old, hold, rfl, -⟩
    · cases hnone
    · have hcondition : legacyCondition old.status = .recoveryRequired := hrecovering.2
      have hstatus := hidle old hold
      cases hcase : old.status <;> simp [hcase, legacyCondition] at hcondition hstatus

theorem sound_run (hsound : s.Sound) (hkeeps : Run.EveryStep step KeepsExit s history) :
    (runFrom s history).Sound := by
  refine Run.invariant_after Store.Sound ?_ hkeeps hsound
  intro s timed hsound hkept
  obtain hsame | hreturns := step_cases s timed
  · rw [hsame]
    exact hsound
  · exact ⟨soundTask_after hsound.tasks hreturns,
      undecided_valid_after hsound.effects hkept hreturns,
      (journalGrows hreturns).counted hsound.journal⟩

theorem disposable_run (hdisposable : s.Disposable)
    (hkeeps : Run.EveryStep step KeepsExit s history) : (runFrom s history).Disposable := by
  refine Run.invariant_after Store.Disposable ?_ hkeeps hdisposable
  intro s timed hdisposable hkept
  obtain hsame | hreturns := step_cases s timed
  · rw [hsame]
    exact hdisposable
  · exact disposable_after hdisposable hkept hreturns

/-- Every active task in recovery has an effect that awaits its disposition, and the task can be
abandoned for any of them. -/
theorem recovery_is_never_a_dead_end (hopened : s.Opened)
    (hkeeps : Run.EveryStep step KeepsExit s history) (hleft : (runFrom s history).DigestsLeft) :
    ∀ task ∈ (runFrom s history).tasks.rows, task.outcome = .active →
      task.runtimeCondition = .recoveryRequired →
        (runFrom s history).pendingRecovery task.id ≠ []
          ∧ ∀ effect ∈ (runFrom s history).pendingRecovery task.id, ∀ now evidence decisionSource,
            evidence.isEmptyObject = false →
              ∃ id, Accepted (runFrom s history) ⟨now, .resolveRecovery
                  (abandonment now id effect.id evidence decisionSource) task.id task.version {}⟩
                ∧ ¬ (step (runFrom s history) ⟨now, .resolveRecovery
                  (abandonment now id effect.id evidence decisionSource) task.id task.version
                    {}⟩).InRecovery task.id := by
  intro task hmem hactive hcondition
  refine ⟨disposable_run hopened.disposable hkeeps task hmem ⟨hactive, hcondition⟩, ?_⟩
  intro effect hpending now evidence decisionSource hevidence
  exact abandon_accepted (sound_run hopened.sound hkeeps) hleft hmem ⟨hactive, hcondition⟩ hpending
    hevidence

/-- With nothing to dispose of, no resolution takes a task out of recovery. -/
theorem stuck_in_recovery {id : String} {now : Timestamp} {disposition : RecoveryDisposition}
    {version : Nat} {resolution : Resolution} (hnone : s.pendingRecovery id = [])
    (hrecovery : s.InRecovery id) :
    (step s ⟨now, .resolveRecovery disposition id version resolution⟩).InRecovery id := by
  obtain hsame | hreturns := step_cases s ⟨now, .resolveRecovery disposition id version resolution⟩
  · rw [hsame]
    exact hrecovery
  · obtain ⟨_, hreturns⟩ := discard_returns.mp hreturns
    obtain ⟨hsame, -⟩ | ⟨task, effect, target, hresolves, -⟩ := resolveRecovery_returns hreturns
    · rw [hsame]
      exact hrecovery
    · have hid := hresolves.loadsEffect.id_eq
      have hundisposed : s.dispositionOfEffect effect.id = none := by
        rw [hid]
        exact (Option.or_eq_none_iff.mp hresolves.free).2
      have hmem : effect ∈ s.pendingRecovery id := mem_pendingRecovery.mpr
        ⟨⟨hresolves.loadsEffect.row_of_id, hresolves.unknown, hundisposed⟩, hresolves.owner⟩
      rw [hnone] at hmem
      cases hmem

end Runs

section Samples

local instance recoveryDeadEndDigest : Sha256 := Sample.digest

instance (task : Task) : Decidable task.Recovering := inferInstanceAs (Decidable (_ ∧ _))

instance (s : Store) (timed : Timed) : Decidable (KeepsExit s timed) := by
  obtain ⟨now, op⟩ := timed
  apply Op.casesOn (motive := fun op => Decidable (KeepsExit s ⟨now, op⟩)) op <;> intros <;>
    (delta KeepsExit; infer_instance)

/-- The command of an executing effect. -/
def Sample.command : ManagedCommandIdentity where
  id := "m"
  executionId := "x"
  backend := "local"
  processId := 7
  processStartMarker := "7:1"
  startedAt := 3

/-- The execution of an effect ends, and the cleanup of its command fails. -/
def Sample.stranded : List Timed :=
  Sample.executing ++ [⟨3, .registerManagedCommand Sample.command (Sample.guard "x" "a")⟩,
    ⟨20, .markCommandRecoveryRequired Sample.command "cleanup failed"⟩]

/-- A failed cleanup puts the task in recovery while its effect is executing: there is nothing to dispose
of, and no resolution takes the task out of recovery. -/
theorem failed_cleanup_strands_task :
    (∃ task ∈ (runFrom {} Sample.stranded).tasks.rows, task.id = "a" ∧ task.outcome = .active
        ∧ task.runtimeCondition = .recoveryRequired)
      ∧ (runFrom {} Sample.stranded).pendingRecovery "a" = []
      ∧ ∀ now disposition version resolution, (step (runFrom {} Sample.stranded)
          ⟨now, .resolveRecovery disposition "a" version resolution⟩).InRecovery "a" := by
  have hnone : (runFrom {} Sample.stranded).pendingRecovery "a" = [] := by decide +kernel
  have hrecovery : (runFrom {} Sample.stranded).InRecovery "a" := by decide +kernel
  exact ⟨by decide +kernel, hnone, fun _ _ _ _ => stuck_in_recovery hnone hrecovery⟩

/-- The executing effect is marked unknown. -/
def Sample.unknown : List Timed :=
  Sample.executing ++ [⟨3, .markEffectUnknown "e" 2 (.obj []) (Sample.guard "x" "a")⟩]

/-- The task of an effect that is marked unknown can be abandoned. -/
theorem recovery_is_never_a_dead_end_unknown :
    ∃ task ∈ (runFrom {} Sample.unknown).tasks.rows,
      (runFrom {} Sample.unknown).pendingRecovery task.id ≠ []
        ∧ ∃ effect ∈ (runFrom {} Sample.unknown).pendingRecovery task.id,
          ∃ id, Accepted (runFrom {} Sample.unknown) ⟨20, .resolveRecovery
            (abandonment 20 id effect.id (.obj [("seen", .bool true)]) "operator") task.id
              task.version {}⟩ := by
  have hleft : (runFrom {} Sample.unknown).DigestsLeft := by
    refine ⟨["1", "2", "3", "4", "5", "6", "7", "8", "9"], ?_, ?_⟩ <;> decide +kernel
  obtain ⟨task, hmem, hactive, hcondition⟩ : ∃ task ∈ (runFrom {} Sample.unknown).tasks.rows,
      task.outcome = .active ∧ task.runtimeCondition = .recoveryRequired := by decide +kernel
  obtain ⟨hpending, habandon⟩ := recovery_is_never_a_dead_end (Or.inl rfl) (by decide +kernel) hleft
    task hmem hactive hcondition
  obtain ⟨effect, hpends⟩ := List.exists_mem_of_ne_nil _ hpending
  obtain ⟨id, haccepted, -⟩ := habandon effect hpends 20 (.obj [("seen", .bool true)]) "operator" rfl
  exact ⟨task, hmem, hpending, effect, hpends, id, haccepted⟩

end Samples

end PatchLoop
