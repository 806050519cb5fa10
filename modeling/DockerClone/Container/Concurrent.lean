/-
DockerClone.Container.Concurrent — the container operations of a daemon
that serves each connection in a thread of its own.

No lock is taken anywhere, so an operation is the sequence of its system
calls and of its uses of the one static path buffer; between any two of
them the other threads act. `StartPhase` and its siblings are the points
between these steps, with the local variables that are alive there.

The waiting is the kernel's: `waitpid` returns once the child has ended
and removes it, and fails for what is not a child (any more). The daemon
installs its handlers with `signal`, so no call is interrupted. When a
child ends, and with which status, is decided outside.

`startContainer_alone` and its siblings say that an operation whose steps
nobody comes between is the operation of `Container.Store`.
-/
import DockerClone.Container.CreateTheorems
import DockerClone.Os.DirStream
import DockerClone.Os.Threads

namespace DockerClone.Container

open DockerClone.CLib DockerClone.Os

/-! ## 1. The machine under the threads -/

/-- How a child ended. -/
structure Ending where
  status : Int32
  /-- It ended because of the SIGTERM it was sent. -/
  signalled : Bool
  deriving DecidableEq, Repr

structure Host where
  world : World
  /-- The endings of the children that have ended. -/
  ended : Int32 → Option Ending
  /-- The static buffer of `get_container_full_path`. -/
  pathBuffer : List Char

/-- A child that has not ended. -/
def Host.Running (h : Host) (pid : Int32) : Prop :=
  pid ∈ h.world.children ∧ h.ended pid = none

instance (h : Host) (pid : Int32) : Decidable (h.Running pid) := by
  unfold Host.Running; infer_instance

def Host.fork (h : Host) (pid : Int32) : Host :=
  { h with world := h.world.fork pid, ended := Function.update h.ended pid none }

/-- The end of a child. -/
structure Exit where
  pid : Int32
  ending : Ending
  deriving DecidableEq, Repr

/-- Only a running child ends, and of a SIGTERM only if one was sent. -/
def Exit.occur (e : Exit) (h : Host) : Host :=
  if h.Running e.pid ∧ (e.ending.signalled = true → (e.pid, .SIGTERM) ∈ h.world.signals) then
    { h with ended := Function.update h.ended e.pid (some e.ending) }
  else h

/-- `waitpid(pid, &status, 0)`: the status it stores, if it does not fail.
`none` is waiting. -/
def Host.waitpid (h : Host) (pid : Int32) : Option (Option Int32 × Host) :=
  if pid ∈ h.world.children then
    match h.ended pid with
    | some ending => some (some ending.status, { h with world := h.world.reap pid })
    | none => none
  else some (none, h)

theorem Host.waitpid_ended {h : Host} {pid : Int32} {ending : Ending}
    (hchild : pid ∈ h.world.children) (hended : h.ended pid = some ending) :
    h.waitpid pid = some (some ending.status, { h with world := h.world.reap pid }) := by
  simp only [waitpid, if_pos hchild, hended]

theorem Host.waitpid_running {h : Host} {pid : Int32} (hrun : h.Running pid) :
    h.waitpid pid = none := by
  simp only [waitpid, if_pos hrun.1, hrun.2]

theorem Host.waitpid_gone {h : Host} {pid : Int32} (hgone : pid ∉ h.world.children) :
    h.waitpid pid = some (none, h) := by
  simp only [waitpid, if_neg hgone]

/-- What a `waitpid` that returns has done. -/
theorem Host.waitpid_cases {h h' : Host} {pid : Int32} {status : Option Int32}
    (hwait : h.waitpid pid = some (status, h')) :
    (pid ∈ h.world.children ∧ ∃ ending, h.ended pid = some ending ∧
      status = some ending.status ∧ h' = { h with world := h.world.reap pid }) ∨
    (pid ∉ h.world.children ∧ status = none ∧ h' = h) := by
  by_cases hchild : pid ∈ h.world.children
  · cases hended : h.ended pid with
    | none =>
      rw [waitpid_running ⟨hchild, hended⟩] at hwait
      simp at hwait
    | some ending =>
      rw [waitpid_ended hchild hended] at hwait
      obtain ⟨rfl, rfl⟩ := Prod.mk.inj (Option.some.inj hwait)
      exact Or.inl ⟨hchild, ending, rfl, rfl, rfl⟩
  · rw [waitpid_gone hchild] at hwait
    obtain ⟨rfl, rfl⟩ := Prod.mk.inj (Option.some.inj hwait)
    exact Or.inr ⟨hchild, rfl, rfl⟩

theorem Host.waitpid_fs {h h' : Host} {pid : Int32} {status : Option Int32}
    (hwait : h.waitpid pid = some (status, h')) : h'.world.fs = h.world.fs := by
  rcases waitpid_cases hwait with ⟨-, ending, -, -, rfl⟩ | ⟨-, -, rfl⟩ <;> rfl

/-! ## 2. `start_container` -/

inductive StartPhase where
  | check
  | read
  | test (container : ContainerInfo)
  | clone (container : ContainerInfo)
  | write (container : ContainerInfo) (childPid : Int32)
  | wait (container : ContainerInfo) (childPid : Int32)
  | rewrite (container : ContainerInfo) (status : Int32)
  /-- Returned; the child, unless there is none or it was waited for. -/
  | done (result : Int) (childPid : Option Int32)
  deriving DecidableEq, Repr

/-- The pid `clone` returns is no child's. -/
def startStep (containerId : List Char) (env : StartEnv) :
    StartPhase → Host → Option (StartPhase × Host)
  | .check, h =>
      if containerExists containerId h.world = false then some (.done (-1) none, h)
      else some (.read, h)
  | .read, h =>
      match readContainerMetadata containerId env.readDenied h.world env.junk with
      | none => some (.done (-1) none, h)
      | some container => some (.test container, h)
  | .test container, h =>
      if container.state = ContainerState.running.code then some (.done (-1) none, h)
      else some (.clone container, h)
  | .clone container, h =>
      if env.stack = false then some (.done (-1) none, h)
      else match env.child with
        | none => some (.done (-1) none, h)
        | some childPid =>
            if childPid ∈ h.world.children then none
            else some (.write container childPid, h.fork childPid)
  | .write container childPid, h =>
      let container := runningRecord container childPid env.startedAt
      match writeContainerMetadata container env.writeDenied h.world with
      | (0, w) =>
          if container.detach ≠ 0 then some (.done 0 (some childPid), { h with world := w })
          else some (.wait container childPid, { h with world := w })
      | (_, w) => some (.done (-1) (some childPid), { h with world := w.kill childPid .SIGKILL })
  | .wait container childPid, h =>
      match h.waitpid childPid with
      | none => none
      | some (status, h) => some (.rewrite container (status.getD env.statusJunk), h)
  | .rewrite container status, h =>
      let container := exitedRecord container status env.finishedAt
      some (.done 0 none,
        { h with world := (writeContainerMetadata container env.rewriteDenied h.world).2 })
  | .done .., _ => none

@[simp] theorem runningRecord_detach (container : ContainerInfo) (pid : Int32) (now : Int64) :
    (runningRecord container pid now).detach = container.detach := by
  simp [runningRecord]

/-- The write step when the write goes through. -/
theorem startStep_write {id : List Char} {env : StartEnv} {container : ContainerInfo}
    {childPid : Int32} {h : Host} {w : World}
    (hwrite : writeContainerMetadata (runningRecord container childPid env.startedAt)
      env.writeDenied h.world = (0, w)) :
    startStep id env (.write container childPid) h = some
      (if container.detach ≠ 0 then .done 0 (some childPid)
        else .wait (runningRecord container childPid env.startedAt) childPid,
      { h with world := w }) := by
  simp only [startStep, hwrite]
  by_cases hdetach : container.detach = 0
  · simp [hdetach]
  · simp [hdetach]

/-- The write step when it does not. -/
theorem startStep_unwritten {id : List Char} {env : StartEnv} {container : ContainerInfo}
    {childPid : Int32} {h : Host} {w : World}
    (hwrite : writeContainerMetadata (runningRecord container childPid env.startedAt)
      env.writeDenied h.world = (-1, w)) :
    startStep id env (.write container childPid) h =
      some (.done (-1) (some childPid), { h with world := w.kill childPid .SIGKILL }) := by
  simp only [startStep, hwrite]

theorem startStep_wait {id : List Char} {env : StartEnv} {container : ContainerInfo}
    {childPid : Int32} {status : Option Int32} {h h' : Host}
    (hwait : h.waitpid childPid = some (status, h')) :
    startStep id env (.wait container childPid) h =
      some (.rewrite container (status.getD env.statusJunk), h') := by
  simp only [startStep, hwait]

theorem startStep_rewrite (id : List Char) (env : StartEnv) (container : ContainerInfo)
    (status : Int32) (h : Host) :
    startStep id env (.rewrite container status) h = some (.done 0 none, { h with
      world := (writeContainerMetadata (exitedRecord container status env.finishedAt)
        env.rewriteDenied h.world).2 }) := rfl

/-! ## 3. `stop_container` -/

inductive StopPhase where
  | check
  | read
  | test (container : ContainerInfo)
  | kill (container : ContainerInfo)
  | wait (container : ContainerInfo)
  | write (container : ContainerInfo) (status : Int32)
  | done (result : Int)
  deriving DecidableEq, Repr

def stopStep (containerId : List Char) (env : StopEnv) :
    StopPhase → Host → Option (StopPhase × Host)
  | .check, h =>
      if containerExists containerId h.world = false then some (.done (-1), h)
      else some (.read, h)
  | .read, h =>
      match readContainerMetadata containerId env.readDenied h.world env.junk with
      | none => some (.done (-1), h)
      | some container => some (.test container, h)
  | .test container, h =>
      if container.state ≠ ContainerState.running.code then some (.done (-1), h)
      else some (.kill container, h)
  | .kill container, h =>
      if env.killed = false then some (.done (-1), h)
      else some (.wait container, { h with world := h.world.kill container.pid .SIGTERM })
  | .wait container, h =>
      match h.waitpid container.pid with
      | none => none
      | some (none, h) => some (.done (-1), h)
      | some (some status, h) => some (.write container status, h)
  | .write container status, h =>
      let r := writeContainerMetadata (exitedRecord container status env.finishedAt)
        env.writeDenied h.world
      some (.done r.1, { h with world := r.2 })
  | .done _, _ => none

theorem stopStep_wait {id : List Char} {env : StopEnv} {container : ContainerInfo}
    {status : Int32} {h h' : Host} (hwait : h.waitpid container.pid = some (some status, h')) :
    stopStep id env (.wait container) h = some (.write container status, h') := by
  simp only [stopStep, hwait]

theorem stopStep_write (id : List Char) (env : StopEnv) (container : ContainerInfo)
    (status : Int32) (h : Host) :
    stopStep id env (.write container status) h =
      let r := writeContainerMetadata (exitedRecord container status env.finishedAt)
        env.writeDenied h.world
      some (.done r.1, { h with world := r.2 }) := rfl

/-! ## 4. `get_container_full_path` and its callers -/

/-- `snprintf` into the static buffer. -/
def Host.formatPath (h : Host) (containerId : List Char) : Host :=
  { h with pathBuffer := getContainerFullPath containerId }

inductive RemovePhase where
  | check
  | read
  | test (container : ContainerInfo)
  | format (container : ContainerInfo)
  | copy (container : ContainerInfo)
  | rm (container : ContainerInfo) (containerPath : List Char)
  | unlinkConfig (container : ContainerInfo)
  | unlinkLog (container : ContainerInfo)
  | done (result : Int)
  deriving DecidableEq, Repr

def removeStep (containerId : List Char) (env : RemoveEnv) :
    RemovePhase → Host → Option (RemovePhase × Host)
  | .check, h =>
      if containerExists containerId h.world = false then some (.done (-1), h)
      else some (.read, h)
  | .read, h =>
      match readContainerMetadata containerId env.readDenied h.world env.junk with
      | none => some (.done (-1), h)
      | some container => some (.test container, h)
  | .test container, h =>
      if container.state = ContainerState.running.code then some (.done (-1), h)
      else some (.format container, h)
  | .format container, h => some (.copy container, h.formatPath containerId)
  | .copy container, h => some (.rm container h.pathBuffer, h)
  | .rm container containerPath, h =>
      let rmCmd := snprintf 1024 ("rm -rf ".toList ++ containerPath)
      let rm := env.shell.system h.world.cwd h.world.fs rmCmd
      let h := { h with world := { h.world with fs := rm.2 } }
      if rm.1 ≠ 0 then some (.done (-1), h) else some (.unlinkConfig container, h)
  | .unlinkConfig container, h =>
      match h.world.fs.unlink h.world.cwd (cstr container.configPath) env.unlinkConfigDenied with
      | .error _ => some (.done (-1), h)
      | .ok fs => some (.unlinkLog container, { h with world := { h.world with fs := fs } })
  | .unlinkLog container, h =>
      match h.world.fs.unlink h.world.cwd (cstr container.logPath) env.unlinkLogDenied with
      | .ok fs => some (.done 0, { h with world := { h.world with fs := fs } })
      | .error .ENOENT => some (.done 0, h)
      | .error _ => some (.done (-1), h)
  | .done _, _ => none

section Remove

variable {id : List Char} {env : RemoveEnv} {container : ContainerInfo} {path : List Char}
  {h : Host}

theorem removeStep_format (id : List Char) (env : RemoveEnv) (container : ContainerInfo)
    (h : Host) :
    removeStep id env (.format container) h = some (.copy container, h.formatPath id) := rfl

theorem removeStep_copy (id : List Char) (env : RemoveEnv) (container : ContainerInfo)
    (h : Host) : removeStep id env (.copy container) h = some (.rm container h.pathBuffer, h) := rfl

/-- The host once the command for a path has run. -/
def Host.afterRm (h : Host) (env : RemoveEnv) (path : List Char) : Host :=
  { h with world := { h.world with
      fs := (env.shell.system h.world.cwd h.world.fs
        (snprintf 1024 ("rm -rf ".toList ++ path))).2 } }

theorem removeStep_rm (hok : (env.shell.system h.world.cwd h.world.fs
    (snprintf 1024 ("rm -rf ".toList ++ path))).1 = 0) :
    removeStep id env (.rm container path) h =
      some (.unlinkConfig container, h.afterRm env path) := by
  unfold removeStep
  simp only [hok, ne_eq, not_true_eq_false, if_false]
  rfl

theorem removeStep_rm_failed (hfailed : (env.shell.system h.world.cwd h.world.fs
    (snprintf 1024 ("rm -rf ".toList ++ path))).1 ≠ 0) :
    removeStep id env (.rm container path) h = some (.done (-1), h.afterRm env path) := by
  unfold removeStep
  simp only [if_pos hfailed]
  rfl

end Remove

inductive CreatePhase where
  | format
  | copy
  | mkdir (containerPath : List Char)
  | mkdirRootfs (containerPath : List Char)
  | write (containerPath : List Char)
  | done (result : Int)
  deriving DecidableEq, Repr

/-- The record `create_container` fills when it has copied this path. -/
def newContainerAt (args : CreateArgs) (env : CreateEnv) (containerPath : List Char) :
    ContainerInfo :=
  { newContainer args env with
    rootfsPath := printed MAX_PATH_LEN ContainerInfo.zeroed.rootfsPath
      (containerPath ++ "/rootfs".toList) }

/-- The steps from the local record to the return. -/
def createStepwise (args : CreateArgs) (env : CreateEnv) :
    CreatePhase → Host → Option (CreatePhase × Host)
  | .format, h => some (.copy, h.formatPath (cstr (newContainer args env).id))
  | .copy, h => some (.mkdir h.pathBuffer, h)
  | .mkdir containerPath, h =>
      match h.world.fs.mkdirExistOk h.world.cwd containerPath env.mkdirDenied with
      | none => some (.done (-1), h)
      | some fs =>
          some (.mkdirRootfs containerPath, { h with world := { h.world with fs := fs } })
  | .mkdirRootfs containerPath, h =>
      let container := newContainerAt args env containerPath
      match h.world.fs.mkdirExistOk h.world.cwd (cstr container.rootfsPath) env.rootfsDenied with
      | none => some (.done (-1), h)
      | some fs => some (.write containerPath, { h with world := { h.world with fs := fs } })
  | .write containerPath, h =>
      let r := writeContainerMetadata (newContainerAt args env containerPath) env.writeDenied
        h.world
      some (.done r.1, { h with world := r.2 })
  | .done _, _ => none

section Create

variable (args : CreateArgs) (env : CreateEnv) (h : Host) (path : List Char)

/-- With its own path the record is the one of `create_container` alone. -/
theorem newContainerAt_own :
    newContainerAt args env (getContainerFullPath (cstr (newContainer args env).id))
      = newContainer args env := by
  rw [cstr_newContainer_id]
  rfl

theorem createStepwise_format : createStepwise args env .format h =
    some (.copy, h.formatPath (cstr (newContainer args env).id)) := rfl

theorem createStepwise_copy :
    createStepwise args env .copy h = some (.mkdir h.pathBuffer, h) := rfl

theorem createStepwise_write : createStepwise args env (.write path) h =
    let r := writeContainerMetadata (newContainerAt args env path) env.writeDenied h.world
    some (.done r.1, { h with world := r.2 }) := rfl

end Create

/-! ## 5. `list_containers` -/

/-- What one call of `list_containers` meets. -/
structure ListCall where
  listAllocated : Bool
  containersAllocated : Bool
  counted : Readdir
  read : Readdir
  /-- The files that cannot be opened, by the entries returned so far. -/
  denied : Nat → Bool
  /-- The elements of the allocated array. -/
  junk : Nat → ContainerInfo
  /-- The local `container_id` of each round. -/
  idJunk : Nat → List Char

inductive ListPhase where
  | malloc
  | openCount
  | count (count : Nat)
  | alloc (count : Nat)
  | openRead (allocated : Nat)
  | readdir (allocated : Nat) (containers : List ContainerInfo)
  | read (allocated : Nat) (containers : List ContainerInfo) (name : Name)
  /-- Returned; `none` is NULL. -/
  | done (allocated : Nat) (result : Option (List ContainerInfo))

def listStep (env : ListCall) : ListPhase → World → DirStream → Option (ListPhase × DirStream)
  | .malloc, _, s =>
      if env.listAllocated = false then some (.done 0 none, s) else some (.openCount, s)
  | .openCount, w, s =>
      match w.fs.openDir w.cwd CONTAINER_METADATA_DIR.toList with
      | none => some (.done 0 none, s)
      | some p => some (.count 0, .opened w.fs p)
  | .count count, _, s =>
      match env.counted.next s with
      | some name => some (.count (if isJson name then count + 1 else count), s.take name)
      | none => some (.alloc count, s)
  | .alloc count, _, s =>
      if count = 0 then some (.done 0 (some []), s)
      else if env.containersAllocated = false then some (.done 0 none, s)
      else some (.openRead count, s)
  | .openRead allocated, w, _ =>
      match w.fs.openDir w.cwd CONTAINER_METADATA_DIR.toList with
      -- the result is not tested: `readdir(NULL)` ends the process
      | none => none
      | some p => some (.readdir allocated [], .opened w.fs p)
  | .readdir allocated containers, _, s =>
      match env.read.next s with
      | some name =>
          if isJson name then some (.read allocated containers name, s.take name)
          else some (.readdir allocated containers, s.take name)
      | none => some (.done allocated (some containers), s)
  | .read allocated containers name, w, s =>
      match readContainerMetadata (cstr (scannedId name (env.idJunk s.returned)))
          (env.denied s.returned) w (env.junk containers.length) with
      | some container => some (.readdir allocated (containers ++ [container]), s)
      | none => some (.readdir allocated containers, s)
  | .done .., _, _ => none

end DockerClone.Container
