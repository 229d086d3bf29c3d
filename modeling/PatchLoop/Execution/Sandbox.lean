import PatchLoop.Execution.Ownership
import PatchLoop.Lib.Process

/-!
# Managed commands

A command of `LocalProcessSandbox` is a process group: a leader, which the sandbox has started, and its
descendants. Each of them may exit before any action of the sandbox, and each may ignore `SIGTERM`. The
sandbox polls and waits for the leader only; it is told by the start marker that a process of the leader's
number is the leader. What it cannot know is noted beside its actions, for what is proved about it.
-/

namespace PatchLoop

namespace Sandbox

/-! ### Process groups -/

/-- The leader of a group, as the system keeps it: what has exited is there until its parent has asked for
it. -/
inductive Leader where
  | unstarted
  | running
  | exited
  | reaped
deriving DecidableEq

def Leader.exit : Leader → Leader
  | .running => .exited
  | leader => leader

def Leader.reap : Leader → Leader
  | .exited => .reaped
  | leader => leader

/-- There is a process with the number of the leader, and it is the leader. -/
def Leader.isPresent (leader : Leader) : Bool := leader = .running || leader = .exited

structure Descendant where
  pid : Nat
  ignoresTerm : Bool := false
  holdsPipes : Bool := false
deriving DecidableEq

structure Group where
  leader : Leader := .unstarted
  leaderIgnoresTerm : Bool := false
  descendants : List Descendant := []
deriving DecidableEq

/-- No member of the group is alive. -/
def Group.Ended (group : Group) : Prop := group.leader ≠ .running ∧ group.descendants = []

instance (group : Group) : Decidable group.Ended := inferInstanceAs (Decidable (_ ∧ _))

inductive Signal where
  | term
  | kill
deriving DecidableEq

def Group.signalled (group : Group) : Signal → Group
  | .term =>
      { group with
        leader := if group.leaderIgnoresTerm then group.leader else group.leader.exit
        descendants := group.descendants.filter (·.ignoresTerm) }
  | .kill => { group with leader := group.leader.exit, descendants := [] }

/-- What the members of a group do, and the parent of a leader that is not the sandbox. -/
inductive GroupEvent where
  | leaderExits
  | exits (pid : Nat)
  | starts (descendant : Descendant)
  | leaderReaped
deriving DecidableEq

/-- A group of which no member is alive starts none. -/
def Group.next (group : Group) : GroupEvent → Group
  | .leaderExits => { group with leader := group.leader.exit }
  | .exits pid => { group with descendants := group.descendants.filter (·.pid ≠ pid) }
  | .starts descendant =>
      if group.Ended then group else { group with descendants := group.descendants ++ [descendant] }
  | .leaderReaped => { group with leader := group.leader.reap }

/-! ### The sandbox and what surrounds it -/

/-- The exceptions that are raised here; one that a callback raises need not be an `Exception`. -/
inductive Failure where
  | cleanup (text : String)
  | timeout (text : String)
  | interrupted (reason : String)
  | processLookup
  | validation
  | spawn
  | callback (isException : Bool) (text : String)
deriving DecidableEq

def Failure.isException : Failure → Bool
  | callback isException _ => isException
  | _ => true

/-- `str(exc)` -/
def Failure.text : Failure → String
  | cleanup text | timeout text | callback _ text => text
  | interrupted reason => "managed command interrupted: " ++ reason
  | processLookup => "[Errno 3] No such process"
  | validation => "validation error for ManagedCommandIdentity"
  | spawn => "could not start the command"

/-- What `bind_execution` sets: callbacks that answer at the action with a number. -/
structure Binding where
  executionId : String
  commandStarted : Nat → Except Failure Unit := fun _ => .ok ()
  commandFinished : Nat → Except Failure Unit := fun _ => .ok ()
  interruptionProbe : Nat → Except Failure (Option String) := fun _ => .ok none

/-- What one command finds around it. The functions of a number answer at the action with this number;
`stranger` is the start marker that a process has that is found instead of the leader. -/
structure Host where
  pid : Nat
  marker : String
  binding : Option Binding := none
  others : Nat → List GroupEvent := fun _ => []
  stops : Nat → Bool := fun _ => false
  spawns : Nat → Bool := fun _ => true
  readable : Nat → Bool := fun _ => true
  stranger : Nat → Option String := fun _ => none
  newId : Nat → String := fun _ => "command"
  clock : Nat → Timestamp
  output : Nat → Int × String := fun _ => (0, "")
  /-- How often a command is polled before its deadline. -/
  rounds : Nat := 0
  /-- How often the start marker is read within so many seconds. -/
  reads : Nat → Nat := fun _ => 0
  inspectContainer : Nat → Except String (Option String) := fun _ => .ok none
  removeContainer : Nat → Except String Unit := fun _ => .ok ()
  /-- The start marker identifies the leader. -/
  identifies : ∀ n, stranger n ≠ some marker := by exact fun _ h => by cases h

structure State where
  group : Group := {}
  active : List ManagedCommandIdentity := []
  /-- What the finished callback has recorded. -/
  records : List ManagedCommandIdentity := []

/-- What is noted of a command. -/
inductive Mark where
  /-- The leader is found to have ended, and these descendants are alive. -/
  | leaderEnded (left : List Descendant)
  /-- The outcome of a command was recorded: whether a member of its group was alive then. -/
  | recorded (status : ManagedCommandStatus) (alive : Bool)
  /-- The outcome of a command was not recorded: whether its leader was running. -/
  | unrecorded (status : ManagedCommandStatus) (running : Bool)
  /-- A command that could not be registered was left: whether its leader was running. -/
  | unregistered (running : Bool)
deriving DecidableEq

abbrev Program (α : Type) := Process Mark Failure State α

variable (host : Host)

def Host.among : Process.Among Mark State GroupEvent where
  step s event := ({ s with group := s.group.next event }, [])
  others := host.others
  stops := host.stops

/-- An action of the sandbox. -/
def perform {α : Type} (action : Nat → State → Except Failure (α × State)) : Program α :=
  Process.act host.among action

def observe (mark : State → Mark) : Program Unit := do
  let seen ← Process.read mark
  Process.note seen

def noteLeaderEnded : Program Unit := observe fun s => .leaderEnded s.group.descendants

def noteUnregistered : Program Unit := observe fun s => .unregistered (s.group.leader = .running)

/-! ### The system's calls -/

/-- `subprocess.Popen` -/
def popen : Program Unit :=
  perform host fun n s =>
    if host.spawns n then .ok ((), { s with group := { s.group with leader := .running } })
    else .error .spawn

/-- `process.poll() is not None` -/
def poll : Program Bool :=
  perform host fun _ s =>
    .ok (s.group.leader ≠ .running, { s with group := { s.group with leader := s.group.leader.reap } })

/-- `process.wait`, which returns if the leader has exited by its timeout. -/
def wait : Program Bool := poll host

/-- `process.communicate`, which returns if by its timeout the leader has exited and no one holds its pipes
any more. -/
def communicateOnce : Program (Option (Int × String)) :=
  perform host fun n s =>
    if s.group.leader ≠ .running ∧ s.group.descendants.all (fun member => !member.holdsPipes) then
      .ok (some (host.output n), { s with group := { s.group with leader := s.group.leader.reap } })
    else .ok (none, s)

/-- `os.killpg` -/
def killGroup (signal : Signal) : Program Unit :=
  perform host fun _ s =>
    if s.group.leader.isPresent = false ∧ s.group.descendants = [] then .error .processLookup
    else .ok ((), { s with group := s.group.signalled signal })

/-- The start marker of the process that has the leader's number. -/
def Host.markerAt (n : Nat) (s : State) : Option String :=
  if s.group.leader.isPresent then some host.marker else host.stranger n

/-- `_process_start_marker` -/
def processStartMarker : Program String :=
  perform host fun n s =>
    match host.readable n, host.markerAt n s with
    | true, some marker => .ok (marker, s)
    | _, _ => .error (.cleanup "could not read the process creation marker")

/-- `_local_process_start_marker` -/
def localProcessStartMarker : Program (Option String) :=
  perform host fun n s =>
    if host.readable n then .ok (host.markerAt n s, s)
    else .error (.cleanup s!"could not inspect managed process {host.pid}")

/-- `_wait_for_local_identity_exit`, with so many reads before the deadline and one after it. -/
def waitForLocalIdentityExit (marker : String) : Nat → Program Bool
  | 0 => do
      let found ← localProcessStartMarker host
      return found ≠ some marker
  | reads + 1 => do
      let found ← localProcessStartMarker host
      if found ≠ some marker then return true
      else waitForLocalIdentityExit marker reads

/-! ### The owner's cleanup -/

/-- `_terminate_process` of `LocalProcessSandbox` -/
def terminateProcess (identity : ManagedCommandIdentity) : Program Unit := do
  if ← poll host then noteLeaderEnded
  else do
    let marker ← processStartMarker host
    if marker ≠ identity.processStartMarker then
      throw (.cleanup "process identity changed before cleanup")
    else do
      killGroup host .term
      if ← wait host then noteLeaderEnded
      else killGroup host .kill
      if ← wait host then pure ()
      else throw (.cleanup "process tree did not exit after termination")

/-- `self._active.pop(identity.id, None)` -/
def forget (identity : ManagedCommandIdentity) : Program Unit :=
  Process.update fun s => { s with active := s.active.filter (·.id ≠ identity.id) }

/-- The call of a callback that records an outcome. -/
def recordOutcome (binding : Binding) (finished : ManagedCommandIdentity) : Program Unit :=
  perform host fun n s =>
    match binding.commandFinished n with
    | .ok () => .ok ((), { s with records := s.records ++ [finished] })
    | .error exc => .error exc

/-- `_finish` -/
def finish (identity : ManagedCommandIdentity) (status : ManagedCommandStatus)
    (reason : Option String) : Program Unit := do
  forget identity
  match host.binding with
  | none => observe fun s => .unrecorded status (s.group.leader = .running)
  | some binding => do
      tryCatch (recordOutcome host binding { identity with status, cleanupReason := reason }) fun exc => do
        observe fun s => .unrecorded status (s.group.leader = .running)
        if exc.isException then
          throw (.cleanup s!"could not persist managed command outcome: {identity.id}")
        else throw exc
      observe fun s => .recorded status (decide (¬ s.group.Ended))

/-- `_terminate_and_finish` -/
def terminateAndFinish (identity : ManagedCommandIdentity) (reason : String) : Program Unit := do
  tryCatch (terminateProcess host identity) fun exc => do
    tryCatch (finish host identity .cleanupFailed (some exc.text)) fun finishExc =>
      if finishExc.isException then
        throw (.cleanup s!"command cleanup and outcome persistence failed: {identity.id}")
      else throw finishExc
    throw (.cleanup s!"managed command cleanup failed: {identity.id}")
  finish host identity .terminated (some reason)

/-! ### A command -/

/-- The call of the callback that a command has started. -/
def notifyStarted : Program Unit :=
  match host.binding with
  | none => pure ()
  | some binding =>
      perform host fun n s =>
        match binding.commandStarted n with
        | .ok () => .ok ((), s)
        | .error exc => .error exc

/-- `_execution_id`, where it is set and not empty -/
def Host.executionId (n : Nat) : String :=
  match host.binding with
  | some binding => if binding.executionId = "" then "standalone-" ++ host.newId n else binding.executionId
  | none => "standalone-" ++ host.newId n

/-- The new identity of a process, where its fields are valid. -/
def makeIdentity (marker : String) : Program ManagedCommandIdentity :=
  perform host fun n s =>
    let id := host.newId n
    let executionId := host.executionId n
    if id ≠ "" ∧ id.length ≤ 128 ∧ executionId.length ≤ 128 ∧ 0 < host.pid ∧ marker ≠ ""
        ∧ marker.length ≤ 256 then
      .ok ({
        id
        executionId
        backend := "local"
        processId := host.pid
        processStartMarker := marker
        startedAt := host.clock n }, s)
    else .error .validation

/-- `_register` -/
def register : Program ManagedCommandIdentity := do
  let identity ← tryCatch (do makeIdentity host (← processStartMarker host)) fun exc => do
    noteUnregistered
    throw exc
  Process.update fun s => { s with active := s.active.filter (·.id ≠ identity.id) ++ [identity] }
  tryCatch (notifyStarted host) fun exc => do
    tryCatch (terminateProcess host identity) fun cleanupExc => do
      forget identity
      noteUnregistered
      throw cleanupExc
    forget identity
    throw exc
  return identity

/-- The call of the interruption probe. -/
def interruptionReason : Program (Option String) :=
  match host.binding with
  | none => pure none
  | some binding =>
      perform host fun n s =>
        match binding.interruptionProbe n with
        | .ok reason => .ok (reason, s)
        | .error exc => .error exc

/-- `_communicate`, with so many rounds before the deadline. -/
def communicate (identity : ManagedCommandIdentity) : Nat → Program (Int × String)
  | 0 => do
      terminateAndFinish host identity "timeout"
      throw (.timeout s!"{identity.backend} command timed out")
  | rounds + 1 => do
      match ← communicateOnce host with
      | some output => do
          finish host identity .exited none
          return output
      | none => do
          match ← interruptionReason host with
          | none => communicate identity rounds
          | some reason => do
              terminateAndFinish host identity reason
              throw (.interrupted reason)

structure Result where
  exitCode : Int
  output : String
  backend : String
deriving DecidableEq

/-- `text[-count:]` -/
def lastChars (text : String) (count : Nat) : String :=
  if count = 0 then text else String.ofList (text.toList.drop (text.length - count))

/-- `LocalProcessSandbox.execute` -/
def execute (maxOutputChars : Nat) : Program Result := do
  popen host
  let identity ← register host
  let (exitCode, output) ← communicate host identity host.rounds
  return { exitCode, output := lastChars output maxOutputChars, backend := "local" }

/-! ### The cleanup of a recovery -/

/-- `suppress(ProcessLookupError)` -/
def suppressLookup (program : Program Unit) : Program Unit :=
  tryCatch program fun exc => if exc = .processLookup then pure () else throw exc

def inspectContainer : Program (Option String) :=
  perform host fun n s =>
    match host.inspectContainer n with
    | .ok commandId => .ok (commandId, s)
    | .error text => .error (.cleanup text)

def removeContainer : Program Unit :=
  perform host fun n s =>
    match host.removeContainer n with
    | .ok () => .ok ((), s)
    | .error text => .error (.cleanup text)

/-- The part of `reconcile_managed_command` about a process, which returns the reason. -/
def reconcileLocal (identity : ManagedCommandIdentity) : Program String := do
  let marker ← localProcessStartMarker host
  if marker = some identity.processStartMarker then do
    suppressLookup (killGroup host .term)
    if ← waitForLocalIdentityExit host identity.processStartMarker (host.reads 2) then noteLeaderEnded
    else suppressLookup (killGroup host .kill)
    if ← waitForLocalIdentityExit host identity.processStartMarker (host.reads 3) then
      return "recovery_terminated"
    else throw (.cleanup "managed process remained alive after recovery cleanup")
  else do
    noteLeaderEnded
    return "recovery_already_stopped"

/-- The part of `reconcile_managed_command` about a container. -/
def reconcileContainer (identity : ManagedCommandIdentity) : Program String := do
  if identity.containerName = none then
    throw (.cleanup "managed Docker command has no container identity")
  else
    match ← inspectContainer host with
    | none => return "recovery_already_stopped"
    | some commandId =>
        if commandId ≠ identity.id then
          throw (.cleanup "container identity changed before recovery cleanup")
        else do
          removeContainer host
          if (← inspectContainer host).isSome then
            throw (.cleanup "managed container remained after recovery cleanup")
          else return "recovery_terminated"

/-- `reconcile_managed_command` -/
def reconcileManagedCommand (identity : ManagedCommandIdentity) : Program ManagedCommandIdentity :=
  if identity.backend = "local" then identity.reconciled <$> reconcileLocal host identity
  else if identity.backend = "docker" then identity.reconciled <$> reconcileContainer host identity
  else throw (.cleanup s!"unsupported managed command backend: {identity.backend}")

end Sandbox

end PatchLoop
