/-
DockerClone.Container.Store — the container operations over the world
they act on.

The world is the file system, the working directory, the children not
yet waited for and the signals sent. What an operation cannot know in
advance is in its environment: clock readings, the answers of `clone`,
`kill` and `waitpid`, which calls are denied, and the bytes its local
`container_info_t` holds before anything is assigned to it (`junk`).

A write either happens whole or the `fopen` fails. The child of
`start_container` runs in a mount namespace of its own; what it does
there is no part of these operations.
-/
import DockerClone.CLib.Search
import DockerClone.Container.Record
import DockerClone.Os.Listing
import DockerClone.Os.Shell

namespace DockerClone.Container

open DockerClone.CLib DockerClone.Os DockerClone.Metadata

/-! ## 1. The world -/

inductive Signal where
  | SIGTERM
  | SIGKILL
  deriving DecidableEq, Repr

structure World where
  fs : FileSystem
  cwd : Path
  /-- The children not yet waited for. -/
  children : List Int32
  /-- The signals sent so far. -/
  signals : List (Int32 × Signal)

/-- `clone` returned a child. -/
def World.fork (w : World) (pid : Int32) : World := { w with children := pid :: w.children }

/-- `kill(pid, signal)`, delivered. -/
def World.kill (w : World) (pid : Int32) (signal : Signal) : World :=
  { w with signals := (pid, signal) :: w.signals }

/-- `waitpid(pid, …)` reaped the child. -/
def World.reap (w : World) (pid : Int32) : World := { w with children := w.children.erase pid }

/-! ## 2. Paths -/

def CONTAINER_STORAGE_DIR : String := "/tmp/docker-containers"
def CONTAINER_METADATA_DIR : String := "/tmp/docker-container-metadata"
def CONTAINER_LOG_DIR : String := "/tmp/docker-logs"

/-- `generate_container_id` at a clock reading: the low and the high word. -/
def generateContainerId (now : Int64) : List Char :=
  snprintf MAX_CONTAINER_ID_LEN ("cont_".toList ++
    renderHex 8 (now.toInt % 2 ^ 32).toNat ++ renderHex 8 (now.toInt / 2 ^ 32 % 2 ^ 32).toNat)

def getContainerFullPath (containerId : List Char) : List Char :=
  snprintf MAX_PATH_LEN (CONTAINER_STORAGE_DIR.toList ++ '/' :: containerId)

/-- The path `container_exists` and `read_container_metadata` build. -/
def metadataPath (containerId : List Char) : List Char :=
  snprintf MAX_PATH_LEN
    (CONTAINER_METADATA_DIR.toList ++ '/' :: containerId ++ ".json".toList)

/-! ## 3. Reading and writing a record -/

def containerExists (containerId : List Char) (w : World) : Bool :=
  w.fs.access w.cwd (metadataPath containerId)

/-- `none` is the return value -1. -/
def readContainerMetadata (containerId : List Char) (denied : Bool) (w : World)
    (container : ContainerInfo) : Option ContainerInfo :=
  match w.fs.openRead w.cwd (metadataPath containerId) denied with
  | some text => some (readContainerText text container)
  | none => none

def writeContainerMetadata (container : ContainerInfo) (denied : Bool) (w : World) :
    Int × World :=
  match w.fs.openWrite w.cwd (cstr container.configPath) denied (containerText container) with
  | .ok fs => (0, { w with fs := fs })
  | .error _ => (-1, w)

/-! ## 4. Create -/

/-- The arguments of `create_container`; `none` is NULL. -/
structure CreateArgs where
  name : Option (List Char)
  image : List Char
  command : Option (List Char)
  workingDir : Option (List Char)
  envVars : Option (List Char)
  portMappings : Option (List Char)
  volumeMappings : Option (List Char)
  interactive : Int32
  tty : Int32
  detach : Int32
  deriving DecidableEq, Repr

structure CreateEnv where
  /-- The clock when the id is generated. -/
  now : Int64
  /-- The clock when `created` is filled. -/
  createdAt : Int64
  mkdirDenied : Bool
  rootfsDenied : Bool
  writeDenied : Bool

/-- The record `create_container` fills. -/
def newContainer (args : CreateArgs) (env : CreateEnv) : ContainerInfo :=
  let id := generateContainerId env.now
  let zero := ContainerInfo.zeroed
  { zero with
    id := strcpy zero.id id
    name := strncpy zero.name (args.name.getD id) (MAX_CONTAINER_NAME_LEN - 1)
    image := strncpy zero.image args.image (MAX_IMAGE_NAME_LEN - 1)
    command := strncpy zero.command (args.command.getD []) (MAX_COMMAND_LEN - 1)
    workingDir := strncpy zero.workingDir (args.workingDir.getD ['/']) (MAX_PATH_LEN - 1)
    envVars := strncpy zero.envVars (args.envVars.getD []) (MAX_ENV_VAR_LEN - 1)
    portMappings := strncpy zero.portMappings (args.portMappings.getD [])
      (MAX_PORT_MAPPING_LEN - 1)
    volumeMappings := strncpy zero.volumeMappings (args.volumeMappings.getD [])
      (MAX_VOLUME_MAPPING_LEN - 1)
    state := ContainerState.created.code
    interactive := args.interactive
    tty := args.tty
    detach := args.detach
    created := printed 32 zero.created (renderInt env.createdAt.toInt)
    rootfsPath := printed MAX_PATH_LEN zero.rootfsPath
      (getContainerFullPath id ++ "/rootfs".toList)
    logPath := printed MAX_PATH_LEN zero.logPath
      (CONTAINER_LOG_DIR.toList ++ '/' :: id ++ ".log".toList)
    configPath := printed MAX_PATH_LEN zero.configPath
      (CONTAINER_METADATA_DIR.toList ++ '/' :: id ++ ".json".toList) }

def createContainer (args : CreateArgs) (env : CreateEnv) (w : World) : Int × World :=
  let container := newContainer args env
  let containerPath := getContainerFullPath (cstr container.id)
  match w.fs.mkdirExistOk w.cwd containerPath env.mkdirDenied with
  | none => (-1, w)
  | some fs =>
      let w := { w with fs := fs }
      match w.fs.mkdirExistOk w.cwd (cstr container.rootfsPath) env.rootfsDenied with
      | none => (-1, w)
      | some fs => writeContainerMetadata container env.writeDenied { w with fs := fs }

/-! ## 5. Start and stop -/

structure StartEnv where
  junk : ContainerInfo
  readDenied : Bool
  /-- `malloc(STACK_SIZE)` succeeds. -/
  stack : Bool
  /-- The child's pid; `none` when `clone` fails. -/
  child : Option Int32
  startedAt : Int64
  writeDenied : Bool
  /-- The status `waitpid` stores; `none` when it fails. -/
  waited : Option Int32
  /-- The bytes of `status` before `waitpid`. -/
  statusJunk : Int32
  finishedAt : Int64
  rewriteDenied : Bool

/-- `WEXITSTATUS(status)`. -/
def wexitstatus (status : Int32) : Int32 := (status >>> 8) &&& 0xff

/-- The record once the child runs. -/
def runningRecord (container : ContainerInfo) (childPid : Int32) (now : Int64) :
    ContainerInfo :=
  { container with
    pid := childPid
    state := ContainerState.running.code
    started := printed 32 container.started (renderInt now.toInt) }

/-- The record once the child has ended. -/
def exitedRecord (container : ContainerInfo) (status : Int32) (now : Int64) : ContainerInfo :=
  { container with
    state := ContainerState.exited.code
    exitCode := wexitstatus status
    finished := printed 32 container.finished (renderInt now.toInt) }

/-- A clock reading is digits and a sign. -/
theorem quote_not_mem_clock (old : List Char) (now : Int64) :
    '"' ∉ cstr (printed 32 old (renderInt now.toInt)) := by
  have hcut : cstr (printed 32 old (renderInt now.toInt))
      = cstr (snprintf 32 (renderInt now.toInt)) := cstr_append_nul_cut _ _
  rw [hcut]
  intro hmem
  have hrendered : '"' ∈ renderInt now.toInt :=
    List.take_subset _ _ ((List.takeWhile_prefix _).subset hmem)
  exact not_mem_renderInt (by decide) (by decide) now.toInt hrendered

theorem quoteFree_runningRecord {r : ContainerInfo} (h : QuoteFree r) (pid : Int32)
    (now : Int64) : QuoteFree (runningRecord r pid now) := by
  have hclock := quote_not_mem_clock r.started now
  simp only [quoteFree_iff, printedViews, List.forall_mem_cons] at h ⊢
  tauto

theorem quoteFree_exitedRecord {r : ContainerInfo} (h : QuoteFree r) (status : Int32)
    (now : Int64) : QuoteFree (exitedRecord r status now) := by
  have hclock := quote_not_mem_clock r.finished now
  simp only [quoteFree_iff, printedViews, List.forall_mem_cons] at h ⊢
  tauto

def startContainer (containerId : List Char) (env : StartEnv) (w : World) : Int × World :=
  if containerExists containerId w = false then (-1, w)
  else match readContainerMetadata containerId env.readDenied w env.junk with
    | none => (-1, w)
    | some container =>
        if container.state = ContainerState.running.code then (-1, w)
        else if env.stack = false then (-1, w)
        else match env.child with
          | none => (-1, w)
          | some childPid =>
              let container := runningRecord container childPid env.startedAt
              match writeContainerMetadata container env.writeDenied (w.fork childPid) with
              | (0, w) =>
                  if container.detach ≠ 0 then (0, w)
                  else
                    let w := if env.waited.isSome then w.reap childPid else w
                    let status := env.waited.getD env.statusJunk
                    let container := exitedRecord container status env.finishedAt
                    (0, (writeContainerMetadata container env.rewriteDenied w).2)
              | (_, w) => (-1, w.kill childPid .SIGKILL)

structure StopEnv where
  junk : ContainerInfo
  readDenied : Bool
  /-- `kill(pid, SIGTERM)` succeeds. -/
  killed : Bool
  waited : Option Int32
  finishedAt : Int64
  writeDenied : Bool

def stopContainer (containerId : List Char) (env : StopEnv) (w : World) : Int × World :=
  if containerExists containerId w = false then (-1, w)
  else match readContainerMetadata containerId env.readDenied w env.junk with
    | none => (-1, w)
    | some container =>
        if container.state ≠ ContainerState.running.code then (-1, w)
        else if env.killed = false then (-1, w)
        else
          let w := w.kill container.pid .SIGTERM
          match env.waited with
          | none => (-1, w)
          | some status =>
              writeContainerMetadata (exitedRecord container status env.finishedAt)
                env.writeDenied (w.reap container.pid)

/-! ## 6. Remove -/

structure RemoveEnv where
  junk : ContainerInfo
  readDenied : Bool
  shell : Shell
  unlinkConfigDenied : Bool
  unlinkLogDenied : Bool

def removeContainer (containerId : List Char) (env : RemoveEnv) (w : World) : Int × World :=
  if containerExists containerId w = false then (-1, w)
  else match readContainerMetadata containerId env.readDenied w env.junk with
    | none => (-1, w)
    | some container =>
        if container.state = ContainerState.running.code then (-1, w)
        else
          let rmCmd := snprintf 1024 ("rm -rf ".toList ++ getContainerFullPath containerId)
          let rm := env.shell.system w.cwd w.fs rmCmd
          let w := { w with fs := rm.2 }
          if rm.1 ≠ 0 then (-1, w)
          else match w.fs.unlink w.cwd (cstr container.configPath) env.unlinkConfigDenied with
            | .error _ => (-1, w)
            | .ok fs =>
                let w := { w with fs := fs }
                match w.fs.unlink w.cwd (cstr container.logPath) env.unlinkLogDenied with
                | .ok fs => (0, { w with fs := fs })
                | .error .ENOENT => (0, w)
                | .error _ => (-1, w)

/-! ## 7. List -/

/-- What one call of `list_containers` meets. -/
structure ListEnv (fs : FileSystem) where
  listAllocated : Bool
  containersAllocated : Bool
  /-- The two passes over the directory. -/
  counted : ∀ p, Listing fs p
  read : ∀ p, Listing fs p
  /-- The files that cannot be opened. -/
  denied : Name → Bool
  /-- The elements of the allocated array. -/
  junk : Nat → ContainerInfo
  /-- The local `container_id`, before the entry's name is scanned. -/
  idJunk : Name → List Char

/-- `strstr(entry->d_name, ".json")`. -/
def isJson (name : Name) : Bool := found name ".json".toList

/-- `container_id` after `sscanf(entry->d_name, "%[^.].json", container_id)`. -/
def scannedId (name : Name) (junk : List Char) : List Char :=
  match scannedText name "%[^.].json".toList with
  | some v => store junk v
  | none => junk

/-- The second loop: the records stored so far. -/
def readEntries {fs : FileSystem} (env : ListEnv fs) (w : World) :
    List Name → List ContainerInfo → List ContainerInfo
  | [], containers => containers
  | name :: rest, containers =>
      if isJson name then
        let containerId := scannedId name (env.idJunk name)
        match readContainerMetadata (cstr containerId) (env.denied name) w
            (env.junk containers.length) with
        | some container => readEntries env w rest (containers ++ [container])
        | none => readEntries env w rest containers
      else readEntries env w rest containers

/-- `list_containers`; `none` is NULL, a list is its `count` records. -/
def listContainers (w : World) (env : ListEnv w.fs) : Option (List ContainerInfo) :=
  if env.listAllocated = false then none
  else match w.fs.openDir w.cwd CONTAINER_METADATA_DIR.toList with
    | none => none
    | some p =>
        let count := ((env.counted p).names.filter isJson).length
        if count = 0 then some []
        else if env.containersAllocated = false then none
        else some (readEntries env w (env.read p).names [])

/-! ## 8. Storage directories -/

/-- The inner loop of `create_container_directories`; a failed `rmdir` is
only reported. -/
def rollbackDirectories (cwd : Path) (rmdirDenied : String → Bool) :
    List String → FileSystem → FileSystem
  | [], fs => fs
  | dir :: dirs, fs =>
      match fs.rmdir cwd dir.toList (rmdirDenied dir) with
      | .ok fs => rollbackDirectories cwd rmdirDenied dirs fs
      | .error _ => rollbackDirectories cwd rmdirDenied dirs fs

/-- Its outer loop; `made` are the `createdDirsCount` directories before
the current one. -/
def createDirectories (cwd : Path) (mkdirDenied rmdirDenied : String → Bool) :
    List String → List String → FileSystem → Int × FileSystem
  | _, [], fs => (0, fs)
  | made, dir :: dirs, fs =>
      match fs.mkdirExistOk cwd dir.toList (mkdirDenied dir) with
      | none => (-1, rollbackDirectories cwd rmdirDenied made fs)
      | some fs => createDirectories cwd mkdirDenied rmdirDenied (made ++ [dir]) dirs fs

def createContainerDirectories (cwd : Path) (mkdirDenied rmdirDenied : String → Bool)
    (fs : FileSystem) : Int × FileSystem :=
  createDirectories cwd mkdirDenied rmdirDenied []
    [CONTAINER_STORAGE_DIR, CONTAINER_METADATA_DIR, CONTAINER_LOG_DIR] fs

def initContainerSystem (cwd : Path) (mkdirDenied rmdirDenied : String → Bool)
    (fs : FileSystem) : Int × FileSystem :=
  createContainerDirectories cwd mkdirDenied rmdirDenied fs

/-- `cleanup_container_system`: the return value and what is left. -/
def cleanupContainerSystem (sh : Shell) (cwd : Path) (fs : FileSystem) : Int × FileSystem :=
  let rmCmd := snprintf 1024 ("rm -rf ".toList ++ CONTAINER_STORAGE_DIR.toList ++ " ".toList
    ++ CONTAINER_METADATA_DIR.toList ++ " ".toList ++ CONTAINER_LOG_DIR.toList)
  let (status, fs) := sh.system cwd fs rmCmd
  if status ≠ 0 then (-1, fs) else (0, fs)

end DockerClone.Container
