/-
DockerClone.Container.Record — `container_info_t` and its metadata text.

The struct is a record of C arrays and 32-bit numbers. An array is kept
as the list of its characters, stale ones behind the terminator included;
`cstr` is the string it denotes. The writer prints twenty-nine of the
fields, `config_path` not among them; the reader knows ten.

A `%[^"]` of the reader has no width: a string longer than its array runs
on into the fields behind it, which the lists do not show. `TextFits`
says of a text that none does; a record free of quotes that was printed
from terminated arrays is such a text.

What the reader gives back is decided by the general laws of
`Metadata.File`: the three numbers always come back, a string exactly
when it is not empty and is not the key of a field tested before its
own. In all other cases the struct keeps what it held before.
-/
import DockerClone.Metadata.Pieces

namespace DockerClone.Container

open DockerClone.CLib DockerClone.Metadata

/-! ## 1. The struct -/

/-- `container_state_t`. -/
inductive ContainerState where
  | created
  | running
  | paused
  | restarting
  | removing
  | exited
  | dead
  deriving DecidableEq, Repr

/-- The number of an enumerator. -/
def ContainerState.code : ContainerState → Int32
  | .created => 0
  | .running => 1
  | .paused => 2
  | .restarting => 3
  | .removing => 4
  | .exited => 5
  | .dead => 6

/-- `container_info_t`. -/
structure ContainerInfo where
  id : List Char
  name : List Char
  image : List Char
  imageId : List Char
  command : List Char
  workingDir : List Char
  user : List Char
  shell : List Char
  entrypoint : List Char
  cmd : List Char
  envVars : List Char
  portMappings : List Char
  volumeMappings : List Char
  networkConfig : List Char
  state : Int32
  pid : Int32
  created : List Char
  started : List Char
  finished : List Char
  exitCode : Int32
  logPath : List Char
  rootfsPath : List Char
  configPath : List Char
  interactive : Int32
  tty : Int32
  detach : Int32
  restartPolicy : Int32
  memoryLimit : Int32
  cpuLimit : Int32
  pidLimit : Int32
  deriving DecidableEq, Repr

def MAX_CONTAINER_NAME_LEN : Nat := 256
def MAX_CONTAINER_ID_LEN : Nat := 64
def MAX_IMAGE_NAME_LEN : Nat := 256
def MAX_COMMAND_LEN : Nat := 1024
def MAX_PATH_LEN : Nat := 512
def MAX_ENV_VAR_LEN : Nat := 512
def MAX_PORT_MAPPING_LEN : Nat := 64
def MAX_VOLUME_MAPPING_LEN : Nat := 256
def MAX_NETWORK_CONFIG_LEN : Nat := 256

/-- `memset(&container, 0, sizeof(container))`. -/
def ContainerInfo.zeroed : ContainerInfo where
  id := zeros MAX_CONTAINER_ID_LEN
  name := zeros MAX_CONTAINER_NAME_LEN
  image := zeros MAX_IMAGE_NAME_LEN
  imageId := zeros MAX_CONTAINER_ID_LEN
  command := zeros MAX_COMMAND_LEN
  workingDir := zeros MAX_PATH_LEN
  user := zeros MAX_PATH_LEN
  shell := zeros MAX_PATH_LEN
  entrypoint := zeros MAX_COMMAND_LEN
  cmd := zeros MAX_COMMAND_LEN
  envVars := zeros MAX_ENV_VAR_LEN
  portMappings := zeros MAX_PORT_MAPPING_LEN
  volumeMappings := zeros MAX_VOLUME_MAPPING_LEN
  networkConfig := zeros MAX_NETWORK_CONFIG_LEN
  state := 0
  pid := 0
  created := zeros 32
  started := zeros 32
  finished := zeros 32
  exitCode := 0
  logPath := zeros MAX_PATH_LEN
  rootfsPath := zeros MAX_PATH_LEN
  configPath := zeros MAX_PATH_LEN
  interactive := 0
  tty := 0
  detach := 0
  restartPolicy := 0
  memoryLimit := 0
  cpuLimit := 0
  pidLimit := 0

/-! ## 2. The text -/

/-- The lines `write_container_metadata` prints, in order. -/
def containerEntries (container : ContainerInfo) : List Entry :=
  [ .brace '{',
    .text { name := "id" } (cstr container.id),
    .text { name := "name" } (cstr container.name),
    .text { name := "image" } (cstr container.image),
    .text { name := "image_id" } (cstr container.imageId),
    .text { name := "command" } (cstr container.command),
    .text { name := "working_dir" } (cstr container.workingDir),
    .text { name := "user" } (cstr container.user),
    .text { name := "shell" } (cstr container.shell),
    .text { name := "entrypoint" } (cstr container.entrypoint),
    .text { name := "cmd" } (cstr container.cmd),
    .text { name := "env_vars" } (cstr container.envVars),
    .text { name := "port_mappings" } (cstr container.portMappings),
    .text { name := "volume_mappings" } (cstr container.volumeMappings),
    .text { name := "network_config" } (cstr container.networkConfig),
    .number { name := "state" } container.state true,
    .number { name := "pid" } container.pid true,
    .text { name := "created" } (cstr container.created),
    .text { name := "started" } (cstr container.started),
    .text { name := "finished" } (cstr container.finished),
    .number { name := "exit_code" } container.exitCode true,
    .text { name := "log_path" } (cstr container.logPath),
    .text { name := "rootfs_path" } (cstr container.rootfsPath),
    .number { name := "interactive" } container.interactive true,
    .number { name := "tty" } container.tty true,
    .number { name := "detach" } container.detach true,
    .number { name := "restart_policy" } container.restartPolicy true,
    .number { name := "memory_limit" } container.memoryLimit true,
    .number { name := "cpu_limit" } container.cpuLimit true,
    .number { name := "pid_limit" } container.pidLimit false,
    .brace '}' ]

/-- The text `write_container_metadata` leaves in the file. -/
def containerText (container : ContainerInfo) : List Char :=
  entriesText (containerEntries container)

/-- The branches of `read_container_metadata`, in the order of its
`else if` chain. -/
def containerSlots : List (Slot ContainerInfo) :=
  [ .text { name := "id" } (·.id) (fun c v => { c with id := v }),
    .text { name := "name" } (·.name) (fun c v => { c with name := v }),
    .text { name := "image" } (·.image) (fun c v => { c with image := v }),
    .text { name := "command" } (·.command) (fun c v => { c with command := v }),
    .number { name := "state" } (·.state) (fun c n => { c with state := n }),
    .number { name := "pid" } (·.pid) (fun c n => { c with pid := n }),
    .text { name := "created" } (·.created) (fun c v => { c with created := v }),
    .text { name := "started" } (·.started) (fun c v => { c with started := v }),
    .text { name := "finished" } (·.finished) (fun c v => { c with finished := v }),
    .number { name := "exit_code" } (·.exitCode) (fun c n => { c with exitCode := n }) ]

/-- The strings the reader scans, with the sizes of their arrays. -/
def containerArrays : List (Key × Nat) :=
  [ ({ name := "id" }, MAX_CONTAINER_ID_LEN),
    ({ name := "name" }, MAX_CONTAINER_NAME_LEN),
    ({ name := "image" }, MAX_IMAGE_NAME_LEN),
    ({ name := "command" }, MAX_COMMAND_LEN),
    ({ name := "created" }, 32),
    ({ name := "started" }, 32),
    ({ name := "finished" }, 32) ]

/-- The loop of `read_container_metadata` over the text of an open file;
`line` has 1024 bytes. -/
def readContainerText (text : List Char) (container : ContainerInfo) : ContainerInfo :=
  readText containerSlots 1024 text container

/-- The scans of that loop stay inside the struct. -/
def TextFits (text : List Char) : Prop := Fits containerSlots containerArrays 1024 text

instance (text : List Char) : Decidable (TextFits text) := by unfold TextFits; infer_instance

/-! ## 3. Which values come back -/

theorem lawful_containerSlots : Lawful containerSlots where
  distinct := by decide
  reads := by simp [containerSlots, Slot.Reads]
  frames := by simp [containerSlots, Slot.Frames, Slot.view]

/-- Every string the writer prints is free of double quotes. -/
def QuoteFree (r : ContainerInfo) : Prop := ∀ e ∈ containerEntries r, e.QuoteFree

/-- And every line it prints is one piece for the reader: no newline in a
string, fewer than 1024 bytes. -/
def OneLined (r : ContainerInfo) : Prop := ∀ e ∈ containerEntries r, e.OnePiece 1024

instance (r : ContainerInfo) : Decidable (QuoteFree r) := by unfold QuoteFree; infer_instance

instance (r : ContainerInfo) : Decidable (OneLined r) := by unfold OneLined; infer_instance

/-- The fields that are printed as strings. -/
def printedViews : List (ContainerInfo → List Char) :=
  [(·.id), (·.name), (·.image), (·.imageId), (·.command), (·.workingDir), (·.user), (·.shell),
    (·.entrypoint), (·.cmd), (·.envVars), (·.portMappings), (·.volumeMappings),
    (·.networkConfig), (·.created), (·.started), (·.finished), (·.logPath), (·.rootfsPath)]

theorem quoteFree_iff (r : ContainerInfo) :
    QuoteFree r ↔ ∀ view ∈ printedViews, '"' ∉ cstr (view r) := by
  simp [QuoteFree, containerEntries, printedViews, Entry.QuoteFree, nulFree_cstr, nul]

section Numbers

variable {r : ContainerInfo} (h : QuoteFree r) (c : ContainerInfo)

include h

theorem number_readContainerText {key : Key} {get : ContainerInfo → Int32}
    {set : ContainerInfo → Int32 → ContainerInfo}
    (hs : Slot.number key get set ∈ containerSlots) :
    get (readContainerText (containerText r) c)
      = (containerEntries r).foldl (fun n e => e.numberAt key.name n) (get c) :=
  number_readText lawful_containerSlots hs (by omega) h c

theorem state_readContainerText : (readContainerText (containerText r) c).state = r.state := by
  have hs : Slot.number { name := "state" } (·.state) (fun c n => { c with state := n })
      ∈ containerSlots := by simp [containerSlots]
  rw [number_readContainerText h c hs]
  simp [containerEntries, Entry.numberAt]

theorem pid_readContainerText : (readContainerText (containerText r) c).pid = r.pid := by
  have hs : Slot.number { name := "pid" } (·.pid) (fun c n => { c with pid := n })
      ∈ containerSlots := by simp [containerSlots]
  rw [number_readContainerText h c hs]
  simp [containerEntries, Entry.numberAt]

theorem exitCode_readContainerText :
    (readContainerText (containerText r) c).exitCode = r.exitCode := by
  have hs : Slot.number { name := "exit_code" } (·.exitCode) (fun c n => { c with exitCode := n })
      ∈ containerSlots := by simp [containerSlots]
  rw [number_readContainerText h c hs]
  simp [containerEntries, Entry.numberAt]

end Numbers

section Texts

variable {r : ContainerInfo} (h : QuoteFree r) (hone : OneLined r) (c : ContainerInfo)

/-- When a string comes back: it is neither empty nor the key of a field
the reader tests earlier, or the struct held it already. -/
def Returns (key : String) (value old : List Char) : Prop :=
  (value ≠ [] ∧ ¬ Shadowed containerSlots key value) ∨ old = value

instance (key : String) (value old : List Char) : Decidable (Returns key value old) := by
  unfold Returns; infer_instance

include h hone

/-- A text slot whose key is printed once, with the string of its own
field. -/
theorem returns_iff {key : Key} {get : ContainerInfo → List Char}
    {set : ContainerInfo → List Char → ContainerInfo}
    (hs : Slot.text key get set ∈ containerSlots)
    (honce : (containerEntries r).foldl (fun old e => e.textAt containerSlots key.name old) (get c)
      = (Entry.text key (cstr (get r))).textAt containerSlots key.name (get c)) :
    cstr (get (readContainerText (containerText r) c)) = cstr (get r) ↔
      Returns key.name (cstr (get r)) (cstr (get c)) := by
  have hread : get (readContainerText (containerText r) c)
      = (containerEntries r).foldl (fun old e => e.textAt containerSlots key.name old) (get c) :=
    text_readText lawful_containerSlots hs (by omega) h (fun _ hv => hone _ hv) c
  rw [hread, honce]
  exact cstr_textAt_iff (nulFree_cstr _) _

end Texts

end DockerClone.Container
