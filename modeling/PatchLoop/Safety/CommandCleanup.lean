import PatchLoop.Execution.Sandbox

/-!
# Cleanup of commands

Both cleanups take a command for terminated once its leader has ended. The rest of its group is killed only
if the leader has outlived `SIGTERM`. A command whose identity cannot be made, or whose failed cleanup cannot
be recorded, is left with no one to know of it.
-/

namespace PatchLoop

namespace Sandbox

open Process

/-! ### What is noted -/

/-- Where the leader was found to have ended, none of its descendants was alive. -/
def Mark.Alone : Mark → Prop
  | .leaderEnded left => left = []
  | _ => True

/-- A command of which nothing is kept had ended. -/
def Mark.Kept : Mark → Prop
  | .unrecorded _ running | .unregistered running => running = false
  | _ => True

/-- A command that was recorded as terminated had no member alive. -/
def Mark.Right : Mark → Prop
  | .recorded .terminated alive => alive = false
  | _ => True

/-- Each record is right as long as no descendant outlives the leader. -/
def Sound (past : List Mark) : Prop := (∀ mark ∈ past, mark.Alone) → ∀ mark ∈ past, mark.Right

def AllKept (past : List Mark) : Prop := ∀ mark ∈ past, mark.Kept

theorem Sound.concat {past : List Mark} (hsound : Sound past) {mark : Mark}
    (hright : (∀ mark ∈ past, mark.Alone) → mark.Right) : Sound (past ++ [mark]) := by
  intro halone
  obtain ⟨hearlier, -⟩ := List.forall_mem_append.mp halone
  exact List.forall_mem_append.mpr ⟨hsound hearlier, List.forall_mem_singleton.mpr (hright hearlier)⟩

theorem allKept_concat {past : List Mark} {mark : Mark} (hkept : AllKept past) :
    AllKept (past ++ [mark]) ↔ mark.Kept := by
  unfold AllKept
  rw [List.forall_mem_append, List.forall_mem_singleton]
  exact and_iff_right hkept

/-! ### Assertions that the members of a group keep -/

section Groups

theorem Leader.exit_ne_running (leader : Leader) : leader.exit ≠ .running := by
  cases leader <;> exact Leader.noConfusion

theorem Leader.reap_eq_running_iff {leader : Leader} : leader.reap = .running ↔ leader = .running := by
  cases leader <;> simp [Leader.reap]

theorem Leader.ne_running_of_not_present {leader : Leader} (habsent : leader.isPresent = false) :
    leader ≠ .running := by
  rintro rfl
  cases habsent

theorem Group.next_not_running {group : Group} (hended : group.leader ≠ .running) (event : GroupEvent) :
    (group.next event).leader ≠ .running := by
  cases event with
  | leaderExits => exact Leader.exit_ne_running _
  | exits pid => exact hended
  | starts descendant =>
      unfold Group.next
      dsimp only
      split
      · exact hended
      · exact hended
  | leaderReaped => exact fun hrunning => hended (Leader.reap_eq_running_iff.mp hrunning)

/-- Once no member of a group is alive none will be. -/
theorem Group.Ended.next {group : Group} (hended : group.Ended) (event : GroupEvent) :
    (group.next event).Ended := by
  refine ⟨group.next_not_running hended.1 event, ?_⟩
  cases event with
  | leaderExits => exact hended.2
  | exits pid =>
      change group.descendants.filter _ = []
      rw [hended.2]
      rfl
  | starts descendant =>
      unfold Group.next
      dsimp only
      rw [if_pos hended]
      exact hended.2
  | leaderReaped => exact hended.2

theorem Group.signalled_not_running {group : Group} (hended : group.leader ≠ .running) (signal : Signal) :
    (group.signalled signal).leader ≠ .running := by
  cases signal with
  | term =>
      unfold Group.signalled
      dsimp only
      split
      · exact hended
      · exact Leader.exit_ne_running _
  | kill => exact Leader.exit_ne_running _

theorem Group.ended_kill (group : Group) : (group.signalled .kill).Ended :=
  ⟨Leader.exit_ne_running _, rfl⟩

end Groups

/-- The state with another group. -/
def State.withGroup (s : State) (group : Group) : State := { s with group }

def Group.reaped (group : Group) : Group := { group with leader := group.leader.reap }

/-- An assertion that holds whatever the members of the group do, and if the leader is asked for. -/
structure Steady (I : Assertion Mark State) : Prop where
  next : ∀ s past event, I s past → I (s.withGroup (s.group.next event)) past
  reaped : ∀ s past, I s past → I (s.withGroup s.group.reaped) past

/-- An assertion that says of the group no more than that its leader has ended, and that a leader which is
found to have ended keeps. -/
structure Framed (I : Assertion Mark State) : Prop where
  group : ∀ s past (group : Group), (s.group.leader ≠ .running → group.leader ≠ .running) → I s past →
    I (s.withGroup group) past
  ended : ∀ s past left, I s past → I s (past ++ [.leaderEnded left])

theorem Framed.steady {I : Assertion Mark State} (hI : Framed I) : Steady I :=
  ⟨fun s past event hs => hI.group s past _ (fun hended => Group.next_not_running hended event) hs,
    fun s past hs => hI.group s past _
      (fun hended hrunning => hended (Leader.reap_eq_running_iff.mp hrunning)) hs⟩

theorem Framed.and {I J : Assertion Mark State} (hI : Framed I) (hJ : Framed J) :
    Framed fun s past => I s past ∧ J s past :=
  ⟨fun s past group hgroup hs => ⟨hI.group s past group hgroup hs.1, hJ.group s past group hgroup hs.2⟩,
    fun s past left hs => ⟨hI.ended s past left hs.1, hJ.ended s past left hs.2⟩⟩

theorem Steady.and {I J : Assertion Mark State} (hI : Steady I) (hJ : Steady J) :
    Steady fun s past => I s past ∧ J s past :=
  ⟨fun s past event hs => ⟨hI.next s past event hs.1, hJ.next s past event hs.2⟩,
    fun s past hs => ⟨hI.reaped s past hs.1, hJ.reaped s past hs.2⟩⟩

theorem steady_not_running : Steady fun s _ => s.group.leader ≠ .running :=
  ⟨fun s _ event hs => s.group.next_not_running hs event,
    fun _ _ hs hrunning => hs (Leader.reap_eq_running_iff.mp hrunning)⟩

/-- The group has ended, as long as no descendant outlives the leader. -/
def EndedAlone : Assertion Mark State := fun s past => (∀ mark ∈ past, mark.Alone) → s.group.Ended

theorem steady_endedAlone : Steady EndedAlone :=
  ⟨fun _ _ event hs halone => (hs halone).next event,
    fun _ _ hs halone => ⟨fun hrunning => (hs halone).1 (Leader.reap_eq_running_iff.mp hrunning),
      (hs halone).2⟩⟩

section Actions

variable {host : Host} {I : Assertion Mark State}

theorem ensures_perform {α : Type} {action : Nat → State → Except Failure (α × State)}
    {Q : α → Assertion Mark State} {E : Failure → Assertion Mark State} (hI : Steady I)
    (hok : ∀ n s past a s', I s past → action n s = .ok (a, s') → Q a s' past)
    (herror : ∀ n s past e, I s past → action n s = .error e → E e s past) :
    Ensures I (perform host action) Q E I := by
  refine ensures_act (fun n event _ s past hs => ?_) (fun _ _ hs => hs) hok herror
  change I _ (past ++ [])
  rw [List.append_nil]
  exact hI.next s past event hs

theorem ensures_observe {mark : State → Mark} {Q : Unit → Assertion Mark State}
    {E : Failure → Assertion Mark State} {P S : Assertion Mark State}
    (hQ : ∀ s past, P s past → Q () s (past ++ [mark s])) : Ensures P (observe mark) Q E S :=
  ensures_bind (Q := fun seen s past => P s past ∧ seen = mark s)
    (ensures_read fun _ _ hP => ⟨hP, rfl⟩)
    fun _ => ensures_note fun s past hP => hP.2 ▸ hQ s past hP.1

theorem poll_spec (hI : Steady I) (E : Failure → Assertion Mark State) :
    Ensures I (poll host) (fun ended s past => I s past ∧ (ended = true → s.group.leader ≠ .running)) E I := by
  refine ensures_perform hI (fun n s past ended s' hs hok => ?_) fun n s past e _ herror => by cases herror
  cases hok
  refine ⟨hI.reaped s past hs, fun hended hrunning => ?_⟩
  rw [decide_eq_true_eq] at hended
  exact hended (Leader.reap_eq_running_iff.mp hrunning)

theorem noteLeaderEnded_spec (hI : Framed I) (E : Failure → Assertion Mark State)
    (S : Assertion Mark State) :
    Ensures (fun s past => I s past ∧ s.group.leader ≠ .running) noteLeaderEnded
      (fun _ s past => I s past ∧ s.group.leader ≠ .running ∧ EndedAlone s past) E S := by
  refine ensures_observe fun s past hs => ⟨hI.ended s past _ hs.1, hs.2, fun halone => ?_⟩
  exact ⟨hs.2, halone _ (List.mem_append_right past (List.mem_singleton_self _))⟩

theorem killGroup_spec (hI : Framed I) (signal : Signal) :
    Ensures I (killGroup host signal) (fun _ s past => I s past ∧ (signal = .kill → s.group.Ended))
      (fun e s past => I s past ∧ e = .processLookup ∧ s.group.Ended) I := by
  refine ensures_perform hI.steady (fun n s past a s' hs hok => ?_) fun n s past e hs herror => ?_
  · split at hok
    · cases hok
    · cases hok
      refine ⟨hI.group s past _ (fun hended => Group.signalled_not_running hended signal) hs, ?_⟩
      rintro rfl
      exact s.group.ended_kill
  · split at herror
    · rename_i hgone
      cases herror
      exact ⟨hs, rfl, Leader.ne_running_of_not_present hgone.1, hgone.2⟩
    · cases herror

theorem processStartMarker_spec (hI : Steady I) :
    Ensures I (processStartMarker host) (fun _ => I) (fun e s past => I s past ∧ e.isException = true) I := by
  refine ensures_perform hI (fun n s past a s' hs hok => ?_) fun n s past e hs herror => ?_
  · split at hok
    · cases hok
      exact hs
    · cases hok
  · split at herror
    · cases herror
    · cases herror
      exact ⟨hs, rfl⟩

/-! ### The owner's cleanup -/

theorem steady_ended : Steady fun s _ => s.group.Ended :=
  ⟨fun _ _ event hs => hs.next event,
    fun _ _ hs => ⟨fun hrunning => hs.1 (Leader.reap_eq_running_iff.mp hrunning), hs.2⟩⟩

/-- The last wait of the cleanup, after which the leader has ended. -/
theorem lastWait_spec {P : Assertion Mark State} (hP : Steady P)
    (himp : ∀ s past, P s past → I s past ∧ EndedAlone s past) :
    Ensures P (wait host >>= fun ended =>
        if ended = true then pure () else throw (.cleanup "process tree did not exit after termination"))
      (fun _ s past => I s past ∧ s.group.leader ≠ .running ∧ EndedAlone s past)
      (fun e s past => I s past ∧ e.isException = true) I := by
  refine ensures_bind ((poll_spec hP _).weaken (fun _ _ hs => hs) (fun _ _ _ hs => hs) (fun _ _ _ hs => hs)
    fun s past hs => (himp s past hs).1) fun ended => ?_
  split
  · rename_i hended
    exact ensures_pure fun s past hs => ⟨(himp s past hs.1).1, hs.2 hended, (himp s past hs.1).2⟩
  · exact ensures_throw fun s past hs => ⟨(himp s past hs.1).1, rfl⟩

/-- The cleanup returns only once the leader has ended, and by itself only if no one is left. -/
theorem terminateProcess_spec (hI : Framed I) (identity : ManagedCommandIdentity) :
    Ensures I (terminateProcess host identity)
      (fun _ s past => I s past ∧ s.group.leader ≠ .running ∧ EndedAlone s past)
      (fun e s past => I s past ∧ e.isException = true) I := by
  unfold terminateProcess
  refine ensures_bind (poll_spec hI.steady _) fun ended => ?_
  split
  · rename_i hended
    exact (noteLeaderEnded_spec hI _ _).before fun s past hs => ⟨hs.1, hs.2 hended⟩
  · refine ensures_bind ((processStartMarker_spec hI.steady).before fun s past hs => hs.1) fun marker => ?_
    split
    · exact ensures_throw fun s past hs => ⟨hs, rfl⟩
    · refine ensures_bind ((killGroup_spec hI .term).weaken (fun _ _ hs => hs) (fun _ _ _ hs => hs.1)
        (fun e s past hs => ⟨hs.1, by rw [hs.2.1]; rfl⟩) fun _ _ hs => hs) fun _ => ?_
      refine ensures_bind (poll_spec hI.steady _) fun ended => ?_
      dsimp only
      split
      · rename_i hended
        refine ensures_bind ((noteLeaderEnded_spec hI _ _).before fun s past hs => ⟨hs.1, hs.2 hended⟩)
          fun _ => ?_
        exact lastWait_spec (hI.steady.and (steady_not_running.and steady_endedAlone))
          fun s past hs => ⟨hs.1, hs.2.2⟩
      · -- the leader has outlived the first signal: all members of its group get the second one
        refine ensures_bind (Q := fun _ s past => I s past ∧ s.group.Ended) ((killGroup_spec hI .kill).weaken
          (fun _ _ hs => hs.1) (fun _ _ _ hs => ⟨hs.1, hs.2 rfl⟩)
          (fun e s past hs => ⟨hs.1, by rw [hs.2.1]; rfl⟩) fun _ _ hs => hs) fun _ => ?_
        exact lastWait_spec (hI.steady.and steady_ended) fun s past hs => ⟨hs.1, fun _ => hs.2⟩

/-! ### What is recorded -/

theorem framed_sound : Framed fun _ past => Sound past :=
  ⟨fun _ _ _ _ hs => hs, fun _ _ _ hs => hs.concat fun _ => trivial⟩

/-- What is recorded as terminated has ended, where the cleanup is known to have left no one. -/
theorem finish_sound {P : Assertion Mark State} (hP : Steady P) (identity : ManagedCommandIdentity)
    {status : ManagedCommandStatus} (reason : Option String)
    (hframe : ∀ s past active, P s past → P { s with active } past)
    (himp : ∀ s past, P s past → Sound past ∧ (status = .terminated → EndedAlone s past)) :
    Ensures P (finish host identity status reason) (fun _ _ past => Sound past)
      (fun _ _ past => Sound past) (fun _ past => Sound past) := by
  unfold finish
  refine ensures_bind (Q := fun _ => P) (ensures_update fun s past hs => hframe s past _ hs) fun _ => ?_
  split
  · exact ensures_observe fun s past hs => (himp s past hs).1.concat fun _ => trivial
  · rename_i binding _
    refine ensures_bind (Q := fun _ s past => Sound past ∧ (status = .terminated → EndedAlone s past))
      (ensures_tryCatch (F := fun _ => P) ?_ fun exc => ?_) fun _ => ?_
    · refine Ensures.weaken
        (V := fun _ s past => Sound past ∧ (status = .terminated → EndedAlone s past)) (F := fun _ => P)
        (ensures_perform hP (fun n s past a s' hs hok => ?_) fun n s past e hs herror => ?_)
        (fun _ _ hs => hs) (fun _ _ _ hs => hs) (fun _ _ _ hs => hs) fun s past hs => (himp s past hs).1
      · split at hok
        · cases hok
          exact himp s past hs
        · cases hok
      · split at herror
        · cases herror
        · exact hs
    · refine ensures_bind (Q := fun _ _ past => Sound past)
        (ensures_observe fun s past hs => (himp s past hs).1.concat fun _ => trivial) fun _ => ?_
      split
      · exact ensures_throw fun s past hs => hs
      · exact ensures_throw fun s past hs => hs
    · refine ensures_observe fun s past hs => hs.1.concat fun halone => ?_
      cases status with
      | terminated => exact decide_eq_false fun hnot => hnot (hs.2 rfl halone)
      | running => trivial
      | exited => trivial
      | cleanupFailed => trivial

theorem terminateAndFinish_sound (identity : ManagedCommandIdentity) (reason : String) :
    Ensures (fun _ past => Sound past) (terminateAndFinish host identity reason)
      (fun _ _ past => Sound past) (fun _ _ past => Sound past) (fun _ past => Sound past) := by
  unfold terminateAndFinish
  refine ensures_bind (ensures_tryCatch (F := fun _ _ past => Sound past)
    ((terminateProcess_spec framed_sound identity).weaken (fun _ _ hs => hs) (fun _ _ _ hs => hs)
      (fun _ _ _ hs => hs.1) fun _ _ hs => hs) fun exc => ?_) fun _ => ?_
  · refine ensures_bind (Q := fun _ _ past => Sound past)
      (ensures_tryCatch (finish_sound framed_sound.steady identity _ (fun _ _ _ hs => hs)
        fun _ _ hs => ⟨hs, fun hstatus => by cases hstatus⟩) fun finishExc => ?_) fun _ => ?_
    · split
      · exact ensures_throw fun s past hs => hs
      · exact ensures_throw fun s past hs => hs
    · exact ensures_throw fun s past hs => hs
  · exact finish_sound (framed_sound.steady.and (steady_not_running.and steady_endedAlone)) identity _
      (fun _ _ _ hs => hs) fun s past hs => ⟨hs.1, fun _ => hs.2.2⟩

/-! ### What is kept of a command -/

/-- The identity is one of the process that the sandbox has started. -/
def IsOf (host : Host) (identity : ManagedCommandIdentity) : Prop :=
  identity.processId = host.pid ∧ identity.processStartMarker = host.marker

/-- The process that was started has ended, is still active, or its cleanup is recorded as failed. -/
def Accounted (host : Host) (s : State) : Prop :=
  s.group.leader ≠ .running ∨ (∃ identity ∈ s.active, IsOf host identity)
    ∨ ∃ identity ∈ s.records, IsOf host identity ∧ identity.status = .cleanupFailed

/-- Each record is right, and the process is accounted for unless it was left. -/
def Final (host : Host) : Assertion Mark State := fun s past =>
  Sound past ∧ (Accounted host s ↔ AllKept past)

/-- Nothing is known of the process but what `known` says of the active commands. -/
structure Tracked (host : Host) (known : ManagedCommandIdentity → Prop) (s : State)
    (past : List Mark) : Prop where
  sound : Sound past
  kept : AllKept past
  active : ∀ identity ∈ s.active, IsOf host identity → known identity
  records : ∀ identity ∈ s.records, ¬ IsOf host identity

/-- An identity of the process, unless it has ended. -/
def Own (host : Host) (identity : ManagedCommandIdentity) : Assertion Mark State := fun s _ =>
  IsOf host identity ∨ s.group.leader ≠ .running

def isActive (identity : ManagedCommandIdentity) : Assertion Mark State := fun s _ => identity ∈ s.active

theorem framed_tracked {known : ManagedCommandIdentity → Prop} : Framed (Tracked host known) :=
  ⟨fun _ _ _ _ hs => ⟨hs.sound, hs.kept, hs.active, hs.records⟩,
    fun _ _ _ hs => ⟨hs.sound.concat fun _ => trivial, (allKept_concat hs.kept).mpr trivial, hs.active,
      hs.records⟩⟩

theorem framed_own (identity : ManagedCommandIdentity) : Framed (Own host identity) :=
  ⟨fun _ _ _ hgroup hs => hs.imp id hgroup, fun _ _ _ hs => hs⟩

theorem framed_isActive (identity : ManagedCommandIdentity) : Framed (isActive identity) :=
  ⟨fun _ _ _ _ hs => hs, fun _ _ _ hs => hs⟩

section Ends

variable {known : ManagedCommandIdentity → Prop} {s : State} {past : List Mark}

theorem Tracked.final_of_ended (hs : Tracked host known s past) (hended : s.group.leader ≠ .running) :
    Final host s past :=
  ⟨hs.sound, iff_of_true (Or.inl hended) hs.kept⟩

theorem Tracked.final_of_active (hs : Tracked host known s past) {identity : ManagedCommandIdentity}
    (hactive : isActive identity s past) (hown : Own host identity s past) : Final host s past :=
  ⟨hs.sound, iff_of_true (hown.elim (fun his => Or.inr (Or.inl ⟨identity, hactive, his⟩)) Or.inl) hs.kept⟩

/-- Where nothing is known of the process, the note of it tells whether it is accounted for. -/
theorem Tracked.final_of_note (hs : Tracked host (fun _ => False) s past) {mark : Mark}
    (hright : mark.Right) (hkept : mark.Kept ↔ s.group.leader ≠ .running) :
    Final host s (past ++ [mark]) := by
  refine ⟨hs.sound.concat fun _ => hright, ?_⟩
  rw [allKept_concat hs.kept, hkept]
  refine ⟨?_, Or.inl⟩
  rintro (hended | ⟨identity, hactive, his⟩ | ⟨identity, hrecord, his, -⟩)
  · exact hended
  · exact (hs.active identity hactive his).elim
  · exact absurd his (hs.records identity hrecord)

/-- What is known of a process that is forgotten is nothing. -/
theorem Tracked.forget {identity : ManagedCommandIdentity}
    (hs : Tracked host (fun other => other.id = identity.id) s past) :
    Tracked host (fun _ => False) { s with active := s.active.filter (·.id ≠ identity.id) } past := by
  refine ⟨hs.sound, hs.kept, fun other hother his => ?_, hs.records⟩
  obtain ⟨hactive, hid⟩ := List.mem_filter.mp hother
  rw [decide_eq_true_eq] at hid
  exact hid (hs.active other hactive his)

end Ends

theorem kept_unrecorded_iff {status : ManagedCommandStatus} {leader : Leader} :
    (Mark.unrecorded status (leader = .running)).Kept ↔ leader ≠ .running := by
  change decide (leader = .running) = false ↔ _
  rw [decide_eq_false_iff_not]

theorem noteUnregistered_spec (E : Failure → Assertion Mark State) (S : Assertion Mark State) :
    Ensures (Tracked host fun _ => False) noteUnregistered (fun _ => Final host) E S := by
  refine ensures_observe fun s past hs => hs.final_of_note trivial ?_
  change decide (s.group.leader = .running) = false ↔ _
  rw [decide_eq_false_iff_not]

/-- However `_finish` ends, the process is accounted for unless its outcome was lost. -/
theorem finish_final {G : Assertion Mark State} (hG : Steady G) {identity : ManagedCommandIdentity}
    {status : ManagedCommandStatus} (reason : Option String)
    (hframe : ∀ s past active, G s past → G { s with active } past)
    (hterminated : ∀ s past, G s past → status = .terminated → EndedAlone s past)
    (hended : ∀ s past, G s past → status ≠ .cleanupFailed → s.group.leader ≠ .running)
    (hown : ∀ s past, G s past → Own host identity s past) :
    Ensures (fun s past => Tracked host (fun other => other.id = identity.id) s past ∧ G s past)
      (finish host identity status reason) (fun _ => Final host) (fun _ => Final host)
      (fun _ past => Sound past) := by
  unfold finish
  refine ensures_bind (Q := fun _ s past => Tracked host (fun _ => False) s past ∧ G s past)
    (ensures_update fun s past hs => ⟨hs.1.forget, hframe s past _ hs.2⟩) fun _ => ?_
  split
  · exact ensures_observe fun s past hs => hs.1.final_of_note trivial kept_unrecorded_iff
  · rename_i binding _
    refine ensures_bind (Q := fun _ s past => Sound past ∧ AllKept past ∧ Accounted host s
        ∧ (status = .terminated → EndedAlone s past))
      (ensures_tryCatch (F := fun _ s past => Tracked host (fun _ => False) s past ∧ G s past)
        ?_ fun exc => ?_) fun _ => ?_
    · refine Ensures.weaken (V := fun _ s past => Sound past ∧ AllKept past ∧ Accounted host s
          ∧ (status = .terminated → EndedAlone s past))
        (ensures_perform (framed_tracked.steady.and hG) (fun n s past a s' hs hok => ?_)
          fun n s past e hs herror => ?_)
        (fun _ _ hs => hs) (fun _ _ _ hs => hs) (fun _ _ _ hs => hs) fun s past hs => hs.1.sound
      · split at hok
        · cases hok
          refine ⟨hs.1.sound, hs.1.kept, ?_, hterminated s past hs.2⟩
          by_cases hstatus : status = .cleanupFailed
          · rcases hown s past hs.2 with his | hover
            · exact Or.inr (Or.inr ⟨_, List.mem_append_right _ (List.mem_singleton_self _), his, hstatus⟩)
            · exact Or.inl hover
          · exact Or.inl (hended s past hs.2 hstatus)
        · cases hok
      · split at herror
        · cases herror
        · exact hs
    · refine ensures_bind (Q := fun _ => Final host)
        (ensures_observe fun s past hs => hs.1.final_of_note trivial kept_unrecorded_iff) fun _ => ?_
      split
      · exact ensures_throw fun s past hs => hs
      · exact ensures_throw fun s past hs => hs
    · refine ensures_observe fun s past hs => ?_
      obtain ⟨hsound, hkept, haccounted, hover⟩ := hs
      refine ⟨hsound.concat fun halone => ?_, iff_of_true haccounted ((allKept_concat hkept).mpr trivial)⟩
      cases status with
      | terminated => exact decide_eq_false fun hnot => hnot (hover rfl halone)
      | running => trivial
      | exited => trivial
      | cleanupFailed => trivial

theorem terminateAndFinish_final (identity : ManagedCommandIdentity) (reason : String) :
    Ensures (fun s past => Tracked host (fun other => other.id = identity.id) s past
        ∧ Own host identity s past)
      (terminateAndFinish host identity reason) (fun _ => Final host) (fun _ => Final host)
      (fun _ past => Sound past) := by
  have hframed : Framed fun s past => Tracked host (fun other => other.id = identity.id) s past
      ∧ Own host identity s past := framed_tracked.and (framed_own identity)
  unfold terminateAndFinish
  refine ensures_bind (ensures_tryCatch
    ((terminateProcess_spec hframed identity).weaken (fun _ _ hs => hs) (fun _ _ _ hs => hs)
      (fun _ _ _ hs => hs.1) fun _ _ hs => hs.1.sound) fun exc => ?_) fun _ => ?_
  · refine ensures_bind (Q := fun _ => Final host)
      (ensures_tryCatch (finish_final (framed_own identity).steady _ (fun _ _ _ hs => hs)
        (fun _ _ _ hstatus => by cases hstatus) (fun _ _ _ hstatus => absurd rfl hstatus)
        fun _ _ hs => hs) fun finishExc => ?_) fun _ => ?_
    · split
      · exact ensures_throw fun s past hs => hs
      · exact ensures_throw fun s past hs => hs
    · exact ensures_throw fun s past hs => hs
  · refine (finish_final (G := fun s past => s.group.leader ≠ .running ∧ EndedAlone s past)
      (steady_not_running.and steady_endedAlone) _ (fun _ _ _ hs => hs) (fun _ _ hs _ => hs.2)
      (fun _ _ hs _ => hs.1) fun _ _ hs => Or.inr hs.1).before fun s past hs => ⟨hs.1.1, hs.2⟩

/-! ### A command -/

theorem makeIdentity_spec (hI : Steady I) (marker : String) :
    Ensures I (makeIdentity host marker)
      (fun identity s past => I s past ∧ identity.processId = host.pid ∧ identity.processStartMarker = marker)
      (fun _ => I) I := by
  refine ensures_perform hI (fun n s past identity s' hs hok => ?_) fun n s past e hs herror => ?_
  · dsimp only at hok
    split at hok
    · cases hok
      exact ⟨hs, rfl, rfl⟩
    · cases hok
  · dsimp only at herror
    split at herror
    · cases herror
    · exact hs

/-- The start marker that is read is the leader's, unless the leader has ended. -/
theorem processStartMarker_own (hI : Steady I) :
    Ensures I (processStartMarker host)
      (fun marker s past => I s past ∧ (marker = host.marker ∨ s.group.leader ≠ .running)) (fun _ => I) I := by
  refine ensures_perform hI (fun n s past marker s' hs hok => ?_) fun n s past e hs herror => ?_
  · split at hok
    · rename_i found _ hfound
      cases hok
      refine ⟨hs, ?_⟩
      unfold Host.markerAt at hfound
      split at hfound
      · cases hfound
        exact Or.inl rfl
      · rename_i habsent
        exact Or.inr (Leader.ne_running_of_not_present (Bool.not_eq_true _ ▸ habsent))
    · cases hok
  · split at herror
    · cases herror
    · cases herror
      exact hs

theorem notifyStarted_spec (hI : Steady I) :
    Ensures I (notifyStarted host) (fun _ => I) (fun _ => I) I := by
  unfold notifyStarted
  split
  · exact ensures_pure fun _ _ hs => hs
  · refine ensures_perform hI (fun n s past a s' hs hok => ?_) fun n s past e hs _ => hs
    split at hok
    · cases hok
      exact hs
    · cases hok

theorem interruptionReason_spec (hI : Steady I) :
    Ensures I (interruptionReason host) (fun _ => I) (fun _ => I) I := by
  unfold interruptionReason
  split
  · exact ensures_pure fun _ _ hs => hs
  · refine ensures_perform hI (fun n s past a s' hs hok => ?_) fun n s past e hs _ => hs
    split at hok
    · cases hok
      exact hs
    · cases hok

theorem communicateOnce_spec (hI : Steady I) (E : Failure → Assertion Mark State) :
    Ensures I (communicateOnce host)
      (fun output s past => I s past ∧ (output.isSome = true → s.group.leader ≠ .running)) E I := by
  refine ensures_perform hI (fun n s past output s' hs hok => ?_) fun n s past e hs herror => ?_
  · split at hok
    · rename_i hended
      cases hok
      exact ⟨hI.reaped s past hs, fun _ hrunning => hended.1 (Leader.reap_eq_running_iff.mp hrunning)⟩
    · cases hok
      exact ⟨hs, fun hsome => by cases hsome⟩
  · split at herror
    · cases herror
    · cases herror

/-- A registered command: it is active, and no other active command is the same process. -/
def Registered (host : Host) (identity : ManagedCommandIdentity) : Assertion Mark State := fun s past =>
  (Tracked host (fun other => other.id = identity.id) s past ∧ Own host identity s past)
    ∧ isActive identity s past

theorem framed_registered (identity : ManagedCommandIdentity) : Framed (Registered host identity) :=
  (framed_tracked.and (framed_own identity)).and (framed_isActive identity)

theorem Registered.final {identity : ManagedCommandIdentity} {s : State} {past : List Mark}
    (hs : Registered host identity s past) : Final host s past :=
  hs.1.1.final_of_active hs.2 hs.1.2

theorem register_spec :
    Ensures (Tracked host fun _ => False) (register host) (fun identity => Registered host identity)
      (fun _ => Final host) (fun _ past => Sound past) := by
  unfold register
  refine ensures_bind (Q := fun identity s past => Tracked host (fun _ => False) s past
      ∧ Own host identity s past)
    (ensures_tryCatch (F := fun _ => Tracked host fun _ => False) ?_ fun exc => ?_) fun identity => ?_
  · refine ensures_bind ((processStartMarker_own framed_tracked.steady).weaken (fun _ _ hs => hs)
      (fun _ _ _ hs => hs) (fun _ _ _ hs => hs) fun s past hs => hs.sound) fun marker => ?_
    refine (makeIdentity_spec (framed_tracked.steady.and (J := fun s _ =>
      marker = host.marker ∨ s.group.leader ≠ .running) ?_) marker).weaken (fun _ _ hs => hs)
      (fun identity s past hs => ⟨hs.1.1, ?_⟩) (fun _ _ _ hs => hs.1) fun s past hs => hs.1.sound
    · exact ⟨fun _ _ event hs => hs.imp id fun hended => Group.next_not_running hended event,
        fun _ _ hs => hs.imp id fun hended hrunning => hended (Leader.reap_eq_running_iff.mp hrunning)⟩
    · exact hs.1.2.imp (fun hmarker => ⟨hs.2.1, hs.2.2.trans hmarker⟩) id
  · refine ensures_bind (noteUnregistered_spec (fun _ => Final host) _) fun _ => ?_
    exact ensures_throw fun s past hs => hs
  · refine ensures_bind (Q := fun _ => Registered host identity) (ensures_update fun s past hs => ?_)
      fun _ => ?_
    · refine ⟨⟨⟨hs.1.sound, hs.1.kept, fun other hother his => ?_, hs.1.records⟩, hs.2⟩,
        List.mem_append_right _ (List.mem_singleton_self _)⟩
      rcases List.mem_append.mp hother with hother | hother
      · exact (hs.1.active other (List.mem_of_mem_filter hother) his).elim
      · rw [List.mem_singleton.mp hother]
    · have hframed : Framed (Registered host identity) := framed_registered identity
      refine ensures_bind (ensures_tryCatch ((notifyStarted_spec hframed.steady).weaken (fun _ _ hs => hs)
        (fun _ _ _ hs => hs) (fun _ _ _ hs => hs) fun s past hs => hs.1.1.sound) fun exc => ?_)
        fun _ => ensures_pure fun s past hs => hs
      refine ensures_bind (Q := fun _ s past => Tracked host (fun other => other.id = identity.id) s past
          ∧ s.group.leader ≠ .running)
        (ensures_tryCatch ((terminateProcess_spec hframed identity).weaken (fun _ _ hs => hs)
          (fun _ s past hs => ⟨hs.1.1.1, hs.2.1⟩) (fun _ _ _ hs => hs.1) fun s past hs => hs.1.1.sound)
          fun cleanupExc => ?_) fun _ => ?_
      · refine ensures_bind (Q := fun _ => Tracked host fun _ => False)
          (ensures_update fun s past hs => hs.1.1.forget) fun _ => ?_
        refine ensures_bind (noteUnregistered_spec (fun _ => Final host) _) fun _ => ?_
        exact ensures_throw fun s past hs => hs
      · refine ensures_bind (Q := fun _ => Final host)
          (ensures_update fun s past hs => hs.1.forget.final_of_ended hs.2) fun _ => ?_
        exact ensures_throw fun s past hs => hs

theorem communicate_spec (identity : ManagedCommandIdentity) (rounds : Nat) :
    Ensures (Registered host identity) (communicate host identity rounds) (fun _ => Final host)
      (fun _ => Final host) (fun _ past => Sound past) := by
  have hterminate : ∀ reason, ∀ exc : Failure,
      Ensures (Registered host identity) (terminateAndFinish host identity reason >>= fun _ => throw exc)
        (fun _ : Int × String => Final host) (fun _ => Final host) (fun _ past => Sound past) := by
    intro reason exc
    refine ensures_bind ((terminateAndFinish_final identity reason).before fun s past hs => hs.1) fun _ => ?_
    exact ensures_throw fun s past hs => hs
  have hframed : Framed (Registered host identity) := framed_registered identity
  induction rounds with
  | zero => exact hterminate _ _
  | succ rounds ih =>
      unfold communicate
      refine ensures_bind ((communicateOnce_spec hframed.steady _).weaken (fun _ _ hs => hs)
        (fun _ _ _ hs => hs) (fun _ _ _ hs => hs) fun s past hs => hs.1.1.sound) fun output => ?_
      split
      · refine ensures_bind (Q := fun _ => Final host) ((finish_final
          (G := fun s past => Own host identity s past ∧ s.group.leader ≠ .running)
          ((framed_own identity).steady.and steady_not_running) _ (fun _ _ _ hs => hs)
          (fun _ _ _ hstatus => by cases hstatus) (fun _ _ hs _ => hs.2) fun _ _ hs => hs.1).before
            fun s past hs => ⟨hs.1.1.1, hs.1.1.2, hs.2 rfl⟩) fun _ => ?_
        exact ensures_pure fun s past hs => hs
      · refine ensures_bind (((interruptionReason_spec hframed.steady).weaken (fun _ _ hs => hs.1)
          (fun _ _ _ hs => hs) (fun _ _ _ hs => hs.final) fun s past hs => hs.1.1.sound)) fun reason => ?_
        split
        · exact ih
        · exact hterminate _ _

/-- However a command ends, its process is accounted for unless a mark tells that it was left. -/
theorem execute_spec (maxOutputChars : Nat) :
    Ensures (fun s past => Tracked host (fun _ => False) s past ∧ s.group.leader ≠ .running)
      (execute host maxOutputChars) (fun _ => Final host) (fun _ => Final host) (fun _ past => Sound past) := by
  unfold execute
  refine ensures_bind (Q := fun _ => Tracked host fun _ => False) (Ensures.weaken
    (V := fun _ => Tracked host fun _ => False) (F := fun _ => Final host)
    (ensures_perform (framed_tracked.steady.and steady_not_running) (fun n s past a s' hs hok => ?_)
      fun n s past e hs herror => ?_)
    (fun _ _ hs => hs) (fun _ _ _ hs => hs) (fun _ _ _ hs => hs) fun s past hs => hs.1.sound) fun _ => ?_
  · split at hok
    · cases hok
      exact ⟨hs.1.sound, hs.1.kept, hs.1.active, hs.1.records⟩
    · cases hok
  · exact hs.1.final_of_ended hs.2
  · refine ensures_bind register_spec fun identity => ?_
    refine ensures_bind (communicate_spec identity host.rounds) fun output => ?_
    exact ensures_pure fun s past hs => hs

/-! ### The cleanup of a recovery -/

theorem localProcessStartMarker_spec (hI : Steady I) :
    Ensures I (localProcessStartMarker host)
      (fun marker s past => I s past ∧ (marker ≠ some host.marker → s.group.leader ≠ .running))
      (fun _ => I) I := by
  refine ensures_perform hI (fun n s past marker s' hs hok => ?_) fun n s past e hs herror => ?_
  · split at hok
    · cases hok
      refine ⟨hs, fun hmarker => ?_⟩
      unfold Host.markerAt at hmarker
      split at hmarker
      · exact absurd rfl hmarker
      · rename_i habsent
        exact Leader.ne_running_of_not_present (Bool.not_eq_true _ ▸ habsent)
    · cases hok
  · split at herror
    · cases herror
    · cases herror
      exact hs

theorem waitForLocalIdentityExit_spec (hI : Steady I) (reads : Nat) :
    Ensures I (waitForLocalIdentityExit host host.marker reads)
      (fun ended s past => I s past ∧ (ended = true → s.group.leader ≠ .running)) (fun _ => I) I := by
  induction reads with
  | zero =>
      unfold waitForLocalIdentityExit
      refine ensures_bind (localProcessStartMarker_spec hI) fun found => ?_
      exact ensures_pure fun s past hs => ⟨hs.1, fun hended => hs.2 (of_decide_eq_true hended)⟩
  | succ reads ih =>
      unfold waitForLocalIdentityExit
      refine ensures_bind (localProcessStartMarker_spec hI) fun found => ?_
      split
      · rename_i hfound
        exact ensures_pure fun s past hs => ⟨hs.1, fun _ => hs.2 hfound⟩
      · exact ih.before fun s past hs => hs.1

theorem suppressLookup_spec {signal : Signal} (hI : Framed I) :
    Ensures I (suppressLookup (killGroup host signal))
      (fun _ s past => I s past ∧ (signal = .kill → s.group.Ended)) (fun _ => I) I := by
  refine ensures_tryCatch (killGroup_spec hI signal) fun exc => ?_
  split
  · exact ensures_pure fun s past hs => ⟨hs.1, fun _ => hs.2.2⟩
  · exact ensures_throw fun s past hs => hs.1

theorem framed_true : Framed fun _ _ => True :=
  ⟨fun _ _ _ _ hs => hs, fun _ _ _ hs => hs⟩

/-- A recovery takes a command for terminated only once its leader has ended, and by itself only if no one
is left. -/
theorem reconcileLocal_spec {identity : ManagedCommandIdentity}
    (hmarker : identity.processStartMarker = host.marker) :
    Ensures (fun _ _ => True) (reconcileLocal host identity) (fun _ => EndedAlone) (fun _ _ _ => True)
      (fun _ _ => True) := by
  have hlast : Ensures EndedAlone (waitForLocalIdentityExit host host.marker (host.reads 3) >>= fun ended =>
      if ended = true then pure "recovery_terminated"
      else throw (.cleanup "managed process remained alive after recovery cleanup"))
      (fun _ => EndedAlone) (fun _ _ _ => True) (fun _ _ => True) := by
    refine ensures_bind ((waitForLocalIdentityExit_spec steady_endedAlone _).weaken (fun _ _ hs => hs)
      (fun _ _ _ hs => hs) (fun _ _ _ _ => trivial) fun _ _ _ => trivial) fun ended => ?_
    split
    · exact ensures_pure fun s past hs => hs.1
    · exact ensures_throw fun _ _ _ => trivial
  unfold reconcileLocal
  rw [hmarker]
  refine ensures_bind (localProcessStartMarker_spec framed_true.steady) fun marker => ?_
  split
  · refine ensures_bind ((suppressLookup_spec framed_true).before fun _ _ _ => trivial) fun _ => ?_
    refine ensures_bind ((waitForLocalIdentityExit_spec framed_true.steady _).before fun _ _ _ => trivial)
      fun ended => ?_
    dsimp only
    split
    · rename_i hended
      refine ensures_bind ((noteLeaderEnded_spec framed_true _ _).before fun s past hs =>
        ⟨trivial, hs.2 hended⟩) fun _ => ?_
      exact hlast.before fun s past hs => hs.2.2
    · refine ensures_bind ((suppressLookup_spec framed_true).before fun _ _ _ => trivial) fun _ => ?_
      exact hlast.before fun s past hs _ => hs.2 rfl
  · rename_i hother
    refine ensures_bind ((noteLeaderEnded_spec framed_true _ _).before fun s past hs =>
      ⟨trivial, hs.2 hother⟩) fun _ => ?_
    exact ensures_pure fun s past hs => hs.2.2

end Actions

/-! ### Complete cleanups -/

/-- The sandbox is about to start a process of which it knows nothing. -/
structure Fresh (host : Host) (s : State) : Prop where
  leader : s.group.leader = .unstarted
  active : ∀ identity ∈ s.active, ¬ IsOf host identity
  records : ∀ identity ∈ s.records, ¬ IsOf host identity

/-- In a run where no descendant outlives the leader when the leader is found to have ended, each command
that is recorded as terminated has ended. -/
def RecordsEnded {α : Type} (run : Ran Mark Failure State α) : Prop :=
  (∀ mark ∈ run.trace, mark.Alone) → ∀ mark ∈ run.trace, mark.Right

theorem recordsEnded_of_ensures {α : Type} {P : Assertion Mark State} {program : Program α}
    (hprogram : Ensures P program (fun _ _ past => Sound past) (fun _ _ past => Sound past)
      fun _ past => Sound past) {w : SharedState State} (hP : P w.state []) : RecordsEnded (program w) := by
  have hends := hprogram w [] hP
  rw [List.nil_append] at hends
  revert hends
  cases (program w).ending <;> exact id

/-- As long as no descendant outlives a leader that is found to have ended, what is recorded as terminated
has ended, whoever has cleaned up; and the process of a command is accounted for unless its identity or the
failure of its cleanup was lost while it ran. -/
theorem cleanup_complete (host : Host) :
    (∀ maxOutputChars w, Fresh host w.state →
      RecordsEnded (execute host maxOutputChars w)
        ∧ ((execute host maxOutputChars w).ending ≠ .stopped →
          (Accounted host (execute host maxOutputChars w).world.state
            ↔ ∀ mark ∈ (execute host maxOutputChars w).trace, mark.Kept)))
      ∧ (∀ identity reason w, RecordsEnded (terminateAndFinish host identity reason w))
      ∧ ∀ identity w, identity.backend = "local" → identity.processStartMarker = host.marker →
        ∀ result, (reconcileManagedCommand host identity w).ending = .returned result →
          result.status = .terminated
            ∧ ((∀ mark ∈ (reconcileManagedCommand host identity w).trace, mark.Alone) →
              (reconcileManagedCommand host identity w).world.state.group.Ended) := by
  refine ⟨fun maxOutputChars w hfresh => ?_, fun identity reason w => ?_, ?_⟩
  · have hstart : Tracked host (fun _ => False) w.state [] ∧ w.state.group.leader ≠ .running :=
      ⟨⟨fun _ mark hmark => absurd hmark List.not_mem_nil, fun mark hmark => absurd hmark List.not_mem_nil,
        hfresh.active, hfresh.records⟩, by rw [hfresh.leader]; exact Leader.noConfusion⟩
    constructor
    · exact recordsEnded_of_ensures ((execute_spec maxOutputChars).weaken (fun _ _ hs => hs)
        (fun _ _ _ hs => hs.1) (fun _ _ _ hs => hs.1) fun _ _ hs => hs) hstart
    · intro hrun
      have hends := execute_spec maxOutputChars w [] hstart
      rw [List.nil_append] at hends
      cases hending : (execute host maxOutputChars w).ending with
      | returned result =>
          rw [hending] at hends
          exact hends.2
      | raised exc =>
          rw [hending] at hends
          exact hends.2
      | stopped => exact absurd hending hrun
  · exact recordsEnded_of_ensures (terminateAndFinish_sound identity reason)
      fun _ mark hmark => absurd hmark List.not_mem_nil
  · intro identity w hlocal hmarker result hresult
    have hspec : Ensures (fun _ _ => True) (reconcileManagedCommand host identity)
        (fun result s past => result.status = .terminated ∧ EndedAlone s past) (fun _ _ _ => True)
        (fun _ _ => True) := by
      unfold reconcileManagedCommand
      rw [if_pos hlocal]
      exact ensures_map ((reconcileLocal_spec hmarker).weaken (fun _ _ hs => hs) (fun _ _ _ hs => ⟨rfl, hs⟩)
        (fun _ _ _ hs => hs) fun _ _ hs => hs)
    have hends := hspec w [] trivial
    rw [List.nil_append, hresult] at hends
    exact hends

section Samples

/-- A command that has left a process in the background, which holds its pipes. -/
def Sample.background : Host where
  pid := 7
  marker := "linux-start-ticks:1"
  binding := some { executionId := "execution" }
  others := fun n => if n = 3 then [.starts { pid := 8, holdsPipes := true }, .leaderExits] else []
  clock := fun _ => 0
  rounds := 1

/-- A command whose start marker cannot be read. -/
def Sample.unreadable : Host where
  pid := 7
  marker := "linux-start-ticks:1"
  binding := some { executionId := "execution" }
  readable := fun _ => false
  clock := fun _ => 0

/-- At its timeout a command is recorded as terminated while a member of its group is alive, and a command
whose marker cannot be read is left running. -/
theorem cleanup_incomplete :
    ¬ (∀ mark ∈ (execute Sample.background 100 ⟨{}, 0⟩).trace, mark.Right)
      ∧ ¬ Accounted Sample.unreadable (execute Sample.unreadable 100 ⟨{}, 0⟩).world.state := by
  have htrace : (execute Sample.background 100 ⟨{}, 0⟩).trace
      = [.leaderEnded [{ pid := 8, holdsPipes := true }], .recorded .terminated true] := by
    decide
  constructor
  · rw [htrace]
    intro hright
    cases hright _ (List.mem_cons_of_mem _ (List.mem_singleton_self _))
  · rintro (hended | ⟨identity, hactive, -⟩ | ⟨identity, hrecord, -⟩)
    · exact hended rfl
    · cases hactive
    · cases hrecord

theorem cleanup_complete_background :
    RecordsEnded (execute Sample.background 100 ⟨{}, 0⟩)
      ∧ (reconcileManagedCommand Sample.background
        { id := "command", executionId := "execution", backend := "local", processId := 7
          processStartMarker := "linux-start-ticks:1", startedAt := 0 } ⟨{}, 0⟩).world.state.group.Ended := by
  have hcomplete := cleanup_complete Sample.background
  refine ⟨(hcomplete.1 100 ⟨{}, 0⟩ ⟨rfl, by simp, by simp⟩).1, ?_⟩
  refine (hcomplete.2.2 _ ⟨{}, 0⟩ rfl rfl _ rfl).2 fun mark hmark => ?_
  have htrace : (reconcileManagedCommand Sample.background
      { id := "command", executionId := "execution", backend := "local", processId := 7
        processStartMarker := "linux-start-ticks:1", startedAt := 0 } ⟨{}, 0⟩).trace = [.leaderEnded []] := by
    decide
  rw [htrace] at hmark
  rw [List.mem_singleton.mp hmark]
  rfl

end Samples

end Sandbox

end PatchLoop
