/-
DockerClone.Container.GuardTheorems — what the operations refuse.

Every operation on a container builds the path of its metadata file from
the id, tests that the file is there, reads it and looks at the state
number. For an id that is one path component of at most 255 characters
the path string is the file's own path (`metadataPath_eq`), so the tests
are about that file; and the number the reader finds is the one that was
written, by the codec law `state_readContainerText`. The refusals follow
from these two facts and from the order of the tests.
-/
import DockerClone.Container.RecordTheorems
import DockerClone.Container.Store

namespace DockerClone.Container

open DockerClone.CLib DockerClone.Os DockerClone.Os.FileSystem DockerClone.Metadata

/-! ## 1. The paths of a container -/

def storageDir : Path := ["tmp".toList, "docker-containers".toList]
def metadataDir : Path := ["tmp".toList, "docker-container-metadata".toList]
def logDir : Path := ["tmp".toList, "docker-logs".toList]

theorem storageDir_path : CONTAINER_STORAGE_DIR.toList = absPath storageDir := by decide
theorem metadataDir_path : CONTAINER_METADATA_DIR.toList = absPath metadataDir := by decide

theorem ordinary_storageDir : ∀ n ∈ storageDir, Ordinary n := by decide
theorem ordinary_metadataDir : ∀ n ∈ metadataDir, Ordinary n := by decide

/-- The metadata file of a container. -/
def metadataFile (id : List Char) : Path := metadataDir ++ [id ++ ".json".toList]

/-- An id callers can pass: at most 255 characters, none of them a slash. -/
structure IsId (id : List Char) : Prop where
  short : id.length ≤ 255
  noSlash : '/' ∉ id

instance (id : List Char) : Decidable (IsId id) :=
  decidable_of_iff (id.length ≤ 255 ∧ '/' ∉ id) ⟨fun h => ⟨h.1, h.2⟩, fun h => ⟨h.1, h.2⟩⟩

/-- A name with a suffix of four letters or more is an ordinary component. -/
theorem ordinary_append {id suffix : List Char} (hid : '/' ∉ id) (hs : '/' ∉ suffix)
    (hlen : 3 ≤ suffix.length) : Ordinary (id ++ suffix) := by
  have hl : 3 ≤ (id ++ suffix).length := by rw [List.length_append]; omega
  refine ⟨?_, ?_, ?_, ?_⟩
  · intro h; rw [h] at hl; simp at hl
  · intro h; rw [h] at hl; simp at hl
  · intro h; rw [h] at hl; simp at hl
  · simp [hid, hs]

section Ids

variable {id : List Char} (h : IsId id)

include h

theorem ordinary_json : Ordinary (id ++ ".json".toList) :=
  ordinary_append h.noSlash (by decide) (by decide)

theorem metadataPath_eq : metadataPath id = absPath (metadataFile id) := by
  have hstr : CONTAINER_METADATA_DIR.toList ++ '/' :: id ++ ".json".toList
      = absPath (metadataFile id) := by
    rw [metadataFile, absPath_concat, ← metadataDir_path]
    simp
  rw [metadataPath, hstr, snprintf_of_lt]
  have hlen : CONTAINER_METADATA_DIR.toList.length = 30 := by decide
  have hshort := h.short
  have hjson : ".json".toList.length = 5 := by decide
  rw [metadataFile, absPath_concat, ← metadataDir_path, MAX_PATH_LEN]
  simp only [List.length_append, List.length_cons]
  omega

theorem containerExists_eq (w : World) :
    containerExists id w = (w.fs.node (metadataFile id)).isSome := by
  rw [containerExists, metadataPath_eq h]
  exact access_absPath ordinary_metadataDir (ordinary_json h)

/-- The read of an existing file succeeds unless it is denied. -/
theorem readContainerMetadata_file {w : World} {text : List Char}
    (hfile : w.fs.node (metadataFile id) = some (.file text)) (denied : Bool)
    (container : ContainerInfo) :
    readContainerMetadata id denied w container
      = if denied then none else some (readContainerText text container) := by
  rw [readContainerMetadata, metadataPath_eq h]
  cases denied with
  | true => simp [openRead]
  | false =>
    rw [metadataFile, openRead_absPath ordinary_metadataDir (ordinary_json h) hfile]
    simp

end Ids

theorem exists_of_file {id : List Char} {w : World} {text : List Char} (h : IsId id)
    (hfile : w.fs.node (metadataFile id) = some (.file text)) :
    ¬ containerExists id w = false := by
  rw [containerExists_eq h, hfile]
  simp

/-! ## 2. No file -/

section Missing

variable {id : List Char} {w : World} (h : containerExists id w = false)

include h

theorem startContainer_missing (env : StartEnv) : startContainer id env w = (-1, w) := by
  rw [startContainer, if_pos h]

theorem stopContainer_missing (env : StopEnv) : stopContainer id env w = (-1, w) := by
  rw [stopContainer, if_pos h]

theorem removeContainer_missing (env : RemoveEnv) : removeContainer id env w = (-1, w) := by
  rw [removeContainer, if_pos h]

end Missing

/-! ## 3. The wrong state -/

section State

variable {id : List Char} {r : ContainerInfo} {w : World} (h : IsId id) (hquote : QuoteFree r)
  (hfile : w.fs.node (metadataFile id) = some (.file (containerText r)))

include h hquote hfile

/-- Reading the stored text fails, or finds the stored state. -/
theorem readContainerMetadata_state (denied : Bool) (junk : ContainerInfo) :
    readContainerMetadata id denied w junk = none ∨
      ∃ container, readContainerMetadata id denied w junk = some container ∧
        container.state = r.state := by
  rw [readContainerMetadata_file h hfile]
  cases denied with
  | true => exact Or.inl rfl
  | false => exact Or.inr ⟨_, rfl, state_readContainerText hquote junk⟩

theorem startContainer_running (hrun : r.state = ContainerState.running.code) (env : StartEnv) :
    startContainer id env w = (-1, w) := by
  rw [startContainer, if_neg (exists_of_file h hfile)]
  rcases readContainerMetadata_state h hquote hfile env.readDenied env.junk with
    hr | ⟨container, hr, hstate⟩
  · rw [hr]
  · rw [hr]
    simp only
    rw [if_pos (hstate.trans hrun)]

theorem removeContainer_running (hrun : r.state = ContainerState.running.code)
    (env : RemoveEnv) : removeContainer id env w = (-1, w) := by
  rw [removeContainer, if_neg (exists_of_file h hfile)]
  rcases readContainerMetadata_state h hquote hfile env.readDenied env.junk with
    hr | ⟨container, hr, hstate⟩
  · rw [hr]
  · rw [hr]
    simp only
    rw [if_pos (hstate.trans hrun)]

theorem stopContainer_not_running (hrun : r.state ≠ ContainerState.running.code)
    (env : StopEnv) : stopContainer id env w = (-1, w) := by
  rw [stopContainer, if_neg (exists_of_file h hfile)]
  rcases readContainerMetadata_state h hquote hfile env.readDenied env.junk with
    hr | ⟨container, hr, hstate⟩
  · rw [hr]
  · rw [hr]
    simp only
    rw [if_pos (fun he => hrun (hstate.symm.trans he))]

end State

/-! ## 4. The guard -/

/-- What the three operations refuse, leaving the world as it was. -/
structure Guarded (id : List Char) (w : World) : Prop where
  /-- A running container is neither started nor removed. -/
  running : ∀ r, QuoteFree r → w.fs.node (metadataFile id) = some (.file (containerText r)) →
    r.state = ContainerState.running.code →
      (∀ env, startContainer id env w = (-1, w)) ∧ ∀ env, removeContainer id env w = (-1, w)
  /-- A container that does not run is not signalled. -/
  notRunning : ∀ r, QuoteFree r →
    w.fs.node (metadataFile id) = some (.file (containerText r)) →
    r.state ≠ ContainerState.running.code → ∀ env, stopContainer id env w = (-1, w)
  /-- What is not there is left alone. -/
  missing : w.fs.node (metadataFile id) = none →
    (∀ env, startContainer id env w = (-1, w)) ∧ (∀ env, stopContainer id env w = (-1, w)) ∧
      ∀ env, removeContainer id env w = (-1, w)

/-- No string in a record, of whatever content, gets an operation past
the state its number says. -/
theorem operations_guarded (id : List Char) (h : IsId id) (w : World) : Guarded id w where
  running r hquote hfile hrun :=
    ⟨startContainer_running h hquote hfile hrun, removeContainer_running h hquote hfile hrun⟩
  notRunning r hquote hfile hrun := stopContainer_not_running h hquote hfile hrun
  missing hnone := by
    have hmissing : containerExists id w = false := by
      rw [containerExists_eq h, hnone]
      rfl
    exact ⟨startContainer_missing hmissing, stopContainer_missing hmissing,
      removeContainer_missing hmissing⟩

/-- A world with one container, running as process 4242. -/
def runningWorld : World where
  fs := ofEntries
    [([], .dir), (["tmp".toList], .dir), (metadataDir, .dir),
      (metadataFile "web".toList,
        .file (containerText (runningRecord freshRecord 4242 1705230833)))] (by decide)
  cwd := []
  children := [4242]
  signals := []

theorem runningWorld_guarded : IsId "web".toList ∧
    QuoteFree (runningRecord freshRecord 4242 1705230833) ∧
    (∀ env, startContainer "web".toList env runningWorld = (-1, runningWorld)) ∧
    (∀ env, removeContainer "web".toList env runningWorld = (-1, runningWorld)) ∧
    ∀ env, stopContainer "db".toList env runningWorld = (-1, runningWorld) := by
  have hid : IsId "web".toList := by decide
  have hdb : IsId "db".toList := by decide
  have hquote : QuoteFree (runningRecord freshRecord 4242 1705230833) := by decide
  have hrun := (operations_guarded "web".toList hid runningWorld).running _ hquote rfl rfl
  have hnone := (operations_guarded "db".toList hdb runningWorld).missing (by decide)
  exact ⟨hid, hquote, hrun.1, hrun.2, hnone.2.1⟩

end DockerClone.Container
