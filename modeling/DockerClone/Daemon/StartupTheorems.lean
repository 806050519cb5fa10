/-
DockerClone.Daemon.StartupTheorems — what a daemon that cannot serve
leaves behind.

Preparing the storage directories keeps every file: `mkdir` adds
directories and the rollback removes empty ones. The two failure exits
behind it run `rm -rf` on whole storage directories, which are those of
every daemon on the host. What an `rm -rf` does to one file is
`rmOperands_file`; the exact condition under which nothing is lost
(`store_intact_iff`) follows file by file.
-/
import DockerClone.Daemon.Startup
import DockerClone.Http.Server

namespace DockerClone.Daemon

open DockerClone.CLib DockerClone.Os DockerClone.Os.FileSystem DockerClone.Image
  DockerClone.Container

/-! ## 1. The shared directories -/

/-- `/tmp`. -/
def tmp : Path := ["tmp".toList]

/-- The directories of `cleanup_image_system` and of
`cleanup_container_system`. -/
def imageDirs : List Name :=
  ["docker-images".toList, "docker-layers".toList, "docker-metadata".toList]

def containerDirs : List Name :=
  ["docker-containers".toList, "docker-container-metadata".toList, "docker-logs".toList]

/-- The directory of the container metadata. -/
def containerMetadataDirs : List Name := ["docker-container-metadata".toList]

/-- A path in one of these directories of `/tmp`. -/
def InDirs (dirs : List Name) (p : Path) : Prop := ∃ n ∈ dirs, tmp ++ [n] <+: p

instance (dirs : List Name) (p : Path) : Decidable (InDirs dirs p) := by
  unfold InDirs; infer_instance

theorem ordinary_tmp : ∀ m ∈ tmp, Ordinary m := by decide

/-- A path lies in one directory only. -/
theorem eq_of_prefixes {m n : Name} {p : Path} (hm : tmp ++ [m] <+: p) (hn : tmp ++ [n] <+: p) :
    m = n := by
  have hlen : (tmp ++ [m]).length = (tmp ++ [n]).length := by simp
  have heq := (List.prefix_of_prefix_length_le hm hn hlen.le).eq_of_length hlen
  simpa using heq

theorem not_inDirs {dirs : List Name} {n : Name} {p : Path} (hn : tmp ++ [n] <+: p)
    (hnot : n ∉ dirs) : ¬ InDirs dirs p := by
  rintro ⟨m, hm, hp⟩
  exact hnot (eq_of_prefixes hn hp ▸ hm)

/-! ## 2. Cleanup -/

section Cleanup

variable (sh : Shell) (cwd : Path) {f : Path} {fs : FileSystem} {content : List Char}

/-- A cleanup command and a file. -/
theorem system_rm_file {cmd : List Char} {dirs : List Name}
    (hparse : parseRm cmd = some (dirs.map fun n => absPath (tmp ++ [n])))
    (hdirs : ∀ n ∈ dirs, Ordinary n) (hfile : fs.node f = some (.file content)) :
    (sh.system cwd fs cmd).2.node f
      = if sh.available = true ∧ InDirs dirs f ∧ f ∉ sh.stuck then none
        else some (.file content) := by
  rw [Shell.system, hparse]
  cases havailable : sh.available with
  | false => simpa using hfile
  | true =>
    simp only [if_true, true_and]
    exact rmOperands_file sh.stuck cwd ordinary_tmp dirs fs hdirs hfile

theorem system_rm_none {cmd : List Char} {operands : List (List Char)}
    (hparse : parseRm cmd = some operands) (h : fs.node f = none) :
    (sh.system cwd fs cmd).2.node f = none := by
  rw [Shell.system, hparse]
  cases sh.available with
  | false => simpa using h
  | true => exact rmOperands_none sh.stuck cwd operands fs h

theorem parseRm_image : parseRm (snprintf 1024 ("rm -rf ".toList ++ IMAGE_STORAGE_DIR.toList
    ++ " ".toList ++ LAYER_STORAGE_DIR.toList ++ " ".toList ++ METADATA_DIR.toList))
    = some (imageDirs.map fun n => absPath (tmp ++ [n])) := by decide +kernel

theorem parseRm_container : parseRm (snprintf 1024 ("rm -rf ".toList
    ++ CONTAINER_STORAGE_DIR.toList ++ " ".toList ++ CONTAINER_METADATA_DIR.toList ++ " ".toList
    ++ CONTAINER_LOG_DIR.toList))
    = some (containerDirs.map fun n => absPath (tmp ++ [n])) := by decide +kernel

theorem cleanupImageSystem_eq (fs : FileSystem) : (cleanupImageSystem sh cwd fs).2
    = (sh.system cwd fs (snprintf 1024 ("rm -rf ".toList ++ IMAGE_STORAGE_DIR.toList
      ++ " ".toList ++ LAYER_STORAGE_DIR.toList ++ " ".toList ++ METADATA_DIR.toList))).2 := by
  rw [cleanupImageSystem]
  simp only
  split <;> rfl

theorem cleanupContainerSystem_eq (fs : FileSystem) : (cleanupContainerSystem sh cwd fs).2
    = (sh.system cwd fs (snprintf 1024 ("rm -rf ".toList
      ++ CONTAINER_STORAGE_DIR.toList ++ " ".toList ++ CONTAINER_METADATA_DIR.toList ++ " ".toList
      ++ CONTAINER_LOG_DIR.toList))).2 := by
  rw [cleanupContainerSystem]
  simp only
  split <;> rfl

/-- A file after `cleanup_image_system`. -/
theorem cleanupImageSystem_file (hfile : fs.node f = some (.file content)) :
    (cleanupImageSystem sh cwd fs).2.node f
      = if sh.available = true ∧ InDirs imageDirs f ∧ f ∉ sh.stuck then none
        else some (.file content) := by
  rw [cleanupImageSystem_eq]
  exact system_rm_file sh cwd parseRm_image (by decide) hfile

/-- A file after `cleanup_container_system`. -/
theorem cleanupContainerSystem_file (hfile : fs.node f = some (.file content)) :
    (cleanupContainerSystem sh cwd fs).2.node f
      = if sh.available = true ∧ InDirs containerDirs f ∧ f ∉ sh.stuck then none
        else some (.file content) := by
  rw [cleanupContainerSystem_eq]
  exact system_rm_file sh cwd parseRm_container (by decide) hfile

theorem cleanupContainerSystem_none (h : fs.node f = none) :
    (cleanupContainerSystem sh cwd fs).2.node f = none := by
  rw [cleanupContainerSystem_eq]
  exact system_rm_none sh cwd parseRm_container h

end Cleanup

/-! ## 3. Initialisation -/

section Initialisation

variable {cwd f : Path} {mkdirDenied rmdirDenied : String → Bool} {content : List Char}

theorem mkdirExistOk_file {fs fs' : FileSystem} {raw : List Char} {denied : Bool}
    (h : fs.mkdirExistOk cwd raw denied = some fs') (hfile : fs.node f = some (.file content)) :
    fs'.node f = some (.file content) := by
  obtain ⟨p, -, -, -, hkeep, -⟩ := mkdirExistOk_some h
  rw [hkeep f (by rw [hfile]; simp), hfile]

/-- Preparing the image directories keeps every file. -/
theorem createImageDirectories_file : ∀ (dirs : List String) (fs : FileSystem),
    fs.node f = some (.file content) →
    (Image.createDirectories cwd mkdirDenied dirs fs).2.node f = some (.file content)
  | [], _, hfile => hfile
  | [dir], fs, hfile => by
      rw [Image.createDirectories]
      split
      · exact hfile
      · rename_i fs' hmkdir
        exact mkdirExistOk_file hmkdir hfile
  | dir :: _ :: dirs, fs, hfile => by
      rw [Image.createDirectories]
      split
      · exact hfile
      · rename_i fs' hmkdir
        exact createImageDirectories_file dirs fs' (mkdirExistOk_file hmkdir hfile)

/-- The rollback removes directories only. -/
theorem rollbackDirectories_file : ∀ (dirs : List String) (fs : FileSystem),
    fs.node f = some (.file content) →
    (rollbackDirectories cwd rmdirDenied dirs fs).node f = some (.file content)
  | [], _, hfile => hfile
  | dir :: dirs, fs, hfile => by
      rw [rollbackDirectories]
      split
      · rename_i fs' hrmdir
        obtain ⟨p, -, hdir, hnode⟩ := rmdir_ok hrmdir
        refine rollbackDirectories_file dirs fs' ?_
        rw [hnode, if_neg, hfile]
        rintro rfl
        rw [hfile] at hdir
        simp at hdir
      · exact rollbackDirectories_file dirs fs hfile

/-- Preparing the container directories keeps every file. -/
theorem createContainerDirectories_file : ∀ (dirs made : List String) (fs : FileSystem),
    fs.node f = some (.file content) →
    (Container.createDirectories cwd mkdirDenied rmdirDenied made dirs fs).2.node f
      = some (.file content)
  | [], _, _, hfile => hfile
  | dir :: dirs, made, fs, hfile => by
      rw [Container.createDirectories]
      split
      · exact rollbackDirectories_file made fs hfile
      · rename_i fs' hmkdir
        exact createContainerDirectories_file dirs (made ++ [dir]) fs'
          (mkdirExistOk_file hmkdir hfile)

end Initialisation

/-! ## 4. Failing to serve -/

section Refusal

variable {env : RunEnv} {cwd : Path} {fs : FileSystem}

/-- The run gets past the image system and then fails: the container
system cannot be initialised, or the server returns -1. -/
def FailsToServe (env : RunEnv) (cwd : Path) (fs : FileSystem) : Prop :=
  (initImageSystem cwd env.mkdirDenied fs).1 = 0 ∧
    ((initContainerSystem cwd env.mkdirDenied env.rmdirDenied
        (initImageSystem cwd env.mkdirDenied fs).2).1 ≠ 0 ∨
      startHttpServer env.server = some (-1))

/-- The image directories that are tried can be made. -/
def ImageDirsMade (env : RunEnv) (fs : FileSystem) : Prop :=
  fs.node tmp = some .dir ∧ env.mkdirDenied IMAGE_STORAGE_DIR = false ∧
    env.mkdirDenied METADATA_DIR = false

/-- The container directories can be made. -/
def ContainerDirsMade (env : RunEnv) : Prop :=
  env.mkdirDenied CONTAINER_STORAGE_DIR = false ∧
    env.mkdirDenied CONTAINER_METADATA_DIR = false ∧ env.mkdirDenied CONTAINER_LOG_DIR = false

instance (env : RunEnv) : Decidable (ContainerDirsMade env) := by
  unfold ContainerDirsMade; infer_instance

/-- A call of `start_http_server` fails. -/
def ServerRefused (server : ServerEnv) : Prop :=
  server.socket = false ∨ server.setsockopt = false ∨ server.bind = false ∨ server.listen = false

/-- The run fails behind the image system. -/
def Refused (env : RunEnv) (fs : FileSystem) : Prop :=
  ImageDirsMade env fs ∧ (¬ ContainerDirsMade env ∨ ServerRefused env.server)

theorem startHttpServer_iff (server : ServerEnv) :
    startHttpServer server = some (-1) ↔ ServerRefused server := by
  rw [startHttpServer, ServerRefused]
  cases server.socket <;> cases server.setsockopt <;> cases server.bind <;>
    cases server.listen <;> simp

/-- The refusals are those of the server that accepts connections: after
-1 there is no server, and otherwise one stands at its accept loop. -/
theorem startHttpServer_server {σ : Type} (server : ServerEnv) {socket : Option Http.Socket}
    (hsocket : socket.isSome = server.socket) (s : σ) :
    (startHttpServer server = some (-1) ↔ ∃ sockets, Http.startHttpServer socket
        server.setsockopt server.bind server.listen s = .error sockets) ∧
      (startHttpServer server = none ↔ ∃ accepting, Http.startHttpServer socket
        server.setsockopt server.bind server.listen s = .ok accepting) := by
  rw [startHttpServer, ← hsocket]
  cases socket with
  | none => simp [Http.startHttpServer]
  | some serverSocket =>
    cases server.setsockopt <;> cases server.bind <;> cases server.listen <;>
      simp [Http.startHttpServer]

/-- One storage directory can be made when `/tmp` is a directory. -/
theorem mkdirExistOk_tmp (fs : FileSystem) (cwd : Path) {n : Name} (hn : Ordinary n)
    (denied : Bool) :
    (fs.mkdirExistOk cwd (absPath (tmp ++ [n])) denied).isSome
      = (!denied && decide (fs.node tmp = some .dir)) :=
  mkdirExistOk_absPath fs cwd ordinary_tmp hn denied

/-- A step of a loop over storage directories. -/
theorem mkdirExistOk_step {dir : String} {n : Name} (hdir : dir.toList = absPath (tmp ++ [n]))
    (hn : Ordinary n) (fs : FileSystem) (cwd : Path) {denied : Bool}
    (htmp : fs.node tmp = some .dir) :
    (denied = true ∧ fs.mkdirExistOk cwd dir.toList denied = none) ∨
    (denied = false ∧ ∃ fs', fs.mkdirExistOk cwd dir.toList denied = some fs' ∧
      fs'.node tmp = some .dir) := by
  have hsome := mkdirExistOk_tmp fs cwd hn denied
  rw [← hdir, htmp] at hsome
  cases denied with
  | true => exact Or.inl ⟨rfl, by simpa using hsome⟩
  | false =>
    obtain ⟨fs', hfs'⟩ := Option.isSome_iff_exists.mp (by simpa using hsome)
    obtain ⟨p, -, -, -, hkeep, -⟩ := mkdirExistOk_some hfs'
    exact Or.inr ⟨rfl, fs', hfs', by rw [hkeep tmp (by rw [htmp]; simp), htmp]⟩

/-- Without `/tmp` no storage directory can be made. -/
theorem mkdirExistOk_no_tmp {dir : String} {n : Name} (hdir : dir.toList = absPath (tmp ++ [n]))
    (hn : Ordinary n) (fs : FileSystem) (cwd : Path) (denied : Bool)
    (htmp : fs.node tmp ≠ some .dir) : fs.mkdirExistOk cwd dir.toList denied = none := by
  have hsome := mkdirExistOk_tmp fs cwd hn denied
  rw [← hdir] at hsome
  simpa [htmp] using hsome

theorem imageDir_path : IMAGE_STORAGE_DIR.toList = absPath (tmp ++ ["docker-images".toList]) := by
  decide

theorem imageMetadataDir_path :
    METADATA_DIR.toList = absPath (tmp ++ ["docker-metadata".toList]) := by
  decide

/-- `init_image_system` succeeds exactly when its directories can be
made, and keeps `/tmp`. -/
theorem initImageSystem_cases (env : RunEnv) (cwd : Path) (fs : FileSystem) :
    (ImageDirsMade env fs ∧ (initImageSystem cwd env.mkdirDenied fs).1 = 0 ∧
      (initImageSystem cwd env.mkdirDenied fs).2.node tmp = some .dir) ∨
    (¬ ImageDirsMade env fs ∧ (initImageSystem cwd env.mkdirDenied fs).1 ≠ 0) := by
  rw [initImageSystem, createDirectoryStructure, ImageDirsMade, Image.createDirectories]
  by_cases htmp : fs.node tmp = some .dir
  · rcases mkdirExistOk_step imageDir_path (by decide) fs cwd htmp with
      ⟨hdenied, hnone⟩ | ⟨hdenied, fs₁, hsome, htmp₁⟩
    · rw [hnone]
      exact Or.inr ⟨fun h => by rw [hdenied] at h; simp at h, by simp⟩
    · rw [hsome]
      simp only [Image.createDirectories]
      rcases mkdirExistOk_step imageMetadataDir_path (by decide) fs₁ cwd htmp₁ with
        ⟨hdenied₂, hnone⟩ | ⟨hdenied₂, fs₂, hsome₂, htmp₂⟩
      · rw [hnone]
        exact Or.inr ⟨fun h => by rw [hdenied₂] at h; simp at h, by simp⟩
      · rw [hsome₂]
        exact Or.inl ⟨⟨htmp, hdenied, hdenied₂⟩, rfl, htmp₂⟩
  · rw [mkdirExistOk_no_tmp imageDir_path (by decide) fs cwd _ htmp]
    exact Or.inr ⟨fun h => htmp h.1, by simp⟩

/-- The container loop succeeds exactly when every directory can be
made. -/
theorem createContainerDirectories_iff {mkdirDenied rmdirDenied : String → Bool} {cwd : Path} :
    ∀ (dirs made : List String) (fs : FileSystem), fs.node tmp = some .dir →
      (∀ dir ∈ dirs, ∃ n, dir.toList = absPath (tmp ++ [n]) ∧ Ordinary n) →
      ((Container.createDirectories cwd mkdirDenied rmdirDenied made dirs fs).1 = 0 ↔
        ∀ dir ∈ dirs, mkdirDenied dir = false)
  | [], _, _, _, _ => by simp [Container.createDirectories]
  | dir :: dirs, made, fs, htmp, hpaths => by
      obtain ⟨n, hpath, hn⟩ := hpaths dir (by simp)
      have hrest := fun d hd => hpaths d (List.mem_cons_of_mem dir hd)
      rw [Container.createDirectories, List.forall_mem_cons]
      rcases mkdirExistOk_step hpath hn fs cwd htmp with
        ⟨hdenied, hnone⟩ | ⟨hdenied, fs₁, hsome, htmp₁⟩
      · rw [hnone]
        simp [hdenied]
      · rw [hsome]
        simp only [hdenied, true_and]
        exact createContainerDirectories_iff dirs (made ++ [dir]) fs₁ htmp₁ hrest

theorem initContainerSystem_iff (env : RunEnv) (cwd : Path) {fs : FileSystem}
    (htmp : fs.node tmp = some .dir) :
    (initContainerSystem cwd env.mkdirDenied env.rmdirDenied fs).1 = 0 ↔
      ContainerDirsMade env := by
  have hpaths : ∀ dir ∈ [CONTAINER_STORAGE_DIR, CONTAINER_METADATA_DIR, CONTAINER_LOG_DIR],
      ∃ n, dir.toList = absPath (tmp ++ [n]) ∧ Ordinary n := by
    simp only [List.forall_mem_cons]
    exact ⟨⟨"docker-containers".toList, by decide, by decide⟩,
      ⟨"docker-container-metadata".toList, by decide, by decide⟩,
      ⟨"docker-logs".toList, by decide, by decide⟩, by simp⟩
  rw [initContainerSystem, createContainerDirectories,
    createContainerDirectories_iff _ _ fs htmp hpaths, ContainerDirsMade]
  simp

theorem failsToServe_iff : FailsToServe env cwd fs ↔ Refused env fs := by
  rw [FailsToServe, Refused, startHttpServer_iff]
  rcases initImageSystem_cases env cwd fs with ⟨hmade, hzero, htmp⟩ | ⟨hnot, hfail⟩
  · rw [ne_eq, initContainerSystem_iff env cwd htmp]
    simp [hmade, hzero]
  · simp [hnot, hfail]

/-- The daemon goes on running exactly when all its directories can be
made and its server comes to the accept loop. -/
theorem runDaemonForeground_serving_iff {σ : Type} {socket : Option Http.Socket}
    (hsocket : socket.isSome = env.server.socket) (s : σ) :
    runDaemonForeground env cwd fs = none ↔ ImageDirsMade env fs ∧ ContainerDirsMade env ∧
      ∃ accepting, Http.startHttpServer socket env.server.setsockopt env.server.bind
        env.server.listen s = .ok accepting := by
  rw [← (startHttpServer_server env.server hsocket s).2, runDaemonForeground]
  rcases initImageSystem_cases env cwd fs with ⟨hmade, hzero, htmp⟩ | ⟨hnot, hfail⟩
  · have hcontainer := initContainerSystem_iff env cwd htmp
    simp only [hzero, ne_eq, not_true_eq_false, if_false, hmade, true_and]
    by_cases hdirs : ContainerDirsMade env
    · simp only [hcontainer.mpr hdirs, not_true_eq_false, if_false, hdirs, true_and]
      cases startHttpServer env.server with
      | none => simp
      | some result => simp
    · simp only [if_pos fun hz => hdirs (hcontainer.mp hz)]
      simp [hdirs]
  · simp [hnot, hfail]

end Refusal

/-! ## 5. What is left -/

/-- A file of the shared store: an image, layer or image metadata file, or
a container metadata file. -/
def InStore (p : Path) : Prop := InDirs imageDirs p ∨ InDirs containerMetadataDirs p

/-- Every file of the store is still there, with the same content. -/
def StoreIntact (fs fs' : FileSystem) : Prop :=
  ∀ p content, InStore p → fs.node p = some (.file content) →
    fs'.node p = some (.file content)

/-- A run that fails to serve leaves the store intact. -/
def LeavesStoreIntact (env : RunEnv) (cwd : Path) (fs : FileSystem) : Prop :=
  FailsToServe env cwd fs → ∀ result fs', runDaemonForeground env cwd fs = some (result, fs') →
    StoreIntact fs fs'

/-- `rm` cannot run, or can remove no file of these directories. -/
def Spared (sh : Shell) (fs : FileSystem) (dirs : List Name) : Prop :=
  sh.available = false ∨
    ∀ p content, InDirs dirs p → fs.node p = some (.file content) → p ∈ sh.stuck

section Outcome

variable (env : RunEnv) (cwd : Path) {fs : FileSystem}

/-- The state both failure exits start their cleanup in. -/
def initialised (env : RunEnv) (cwd : Path) (fs : FileSystem) : FileSystem :=
  (initContainerSystem cwd env.mkdirDenied env.rmdirDenied
    (initImageSystem cwd env.mkdirDenied fs).2).2

theorem initialised_file {p : Path} {content : List Char}
    (hfile : fs.node p = some (.file content)) :
    (initialised env cwd fs).node p = some (.file content) :=
  createContainerDirectories_file _ _ _ (createImageDirectories_file _ _ hfile)

/-- How a refused run ends: with the image cleanup, and with the container
cleanup as well when the server was tried. -/
def leftBehind (env : RunEnv) (cwd : Path) (fs : FileSystem) : FileSystem :=
  let fs := (cleanupImageSystem env.imageShell cwd (initialised env cwd fs)).2
  if ContainerDirsMade env then (cleanupContainerSystem env.containerShell cwd fs).2 else fs

theorem runDaemonForeground_of_refused (h : Refused env fs) :
    runDaemonForeground env cwd fs = some (-1, leftBehind env cwd fs) := by
  obtain ⟨hmade, hrefused⟩ := h
  rcases initImageSystem_cases env cwd fs with ⟨-, hzero, htmp⟩ | ⟨hnot, -⟩
  · have hcontainer := initContainerSystem_iff env cwd htmp
    rw [runDaemonForeground]
    simp only [hzero, ne_eq, not_true_eq_false, if_false]
    by_cases hdirs : ContainerDirsMade env
    · have hserver : startHttpServer env.server = some (-1) := by
        rw [startHttpServer_iff]
        exact hrefused.resolve_left fun hn => hn hdirs
      simp only [hcontainer.mpr hdirs, not_true_eq_false, if_false, hserver, leftBehind,
        if_pos hdirs, initialised]
    · have hfail := fun hz => hdirs (hcontainer.mp hz)
      simp only [if_pos hfail, leftBehind, if_neg hdirs, initialised]
  · exact absurd hmade hnot

/-- Of the directories the container cleanup removes, only the metadata
belong to the store. -/
theorem inDirs_containerDirs {p : Path} (hp : InStore p) :
    InDirs containerDirs p ↔ InDirs containerMetadataDirs p := by
  have hdisjoint : ∀ m ∈ imageDirs, m ∉ containerDirs := by decide
  have hamong : ∀ n ∈ containerMetadataDirs, n ∈ containerDirs := by decide
  constructor
  · intro hcontainer
    rcases hp with ⟨m, hm, hmp⟩ | hmeta
    · exact absurd hcontainer (not_inDirs hmp (hdisjoint m hm))
    · exact hmeta
  · intro hmeta
    obtain ⟨n, hn, hnp⟩ := hmeta
    exact ⟨n, hamong n hn, hnp⟩

/-- A file of the store is left behind by both cleanups or lost to one. -/
theorem leftBehind_file_iff {p : Path} {content : List Char} (hp : InStore p)
    (hfile : fs.node p = some (.file content)) :
    (leftBehind env cwd fs).node p = some (.file content) ↔
      ¬ (env.imageShell.available = true ∧ InDirs imageDirs p ∧ p ∉ env.imageShell.stuck) ∧
      (ContainerDirsMade env → ¬ (env.containerShell.available = true ∧
        InDirs containerMetadataDirs p ∧ p ∉ env.containerShell.stuck)) := by
  have himage := cleanupImageSystem_file env.imageShell cwd (initialised_file env cwd hfile)
  by_cases hlost : env.imageShell.available = true ∧ InDirs imageDirs p ∧
      p ∉ env.imageShell.stuck
  · -- lost to the image cleanup
    rw [if_pos hlost] at himage
    have hgone : (leftBehind env cwd fs).node p = none := by
      rw [leftBehind]
      split
      · exact cleanupContainerSystem_none env.containerShell cwd himage
      · exact himage
    simp [hgone, hlost]
  · rw [if_neg hlost] at himage
    rw [leftBehind, and_iff_right hlost]
    by_cases hdirs : ContainerDirsMade env
    · -- left to the container cleanup
      have hcontainer := cleanupContainerSystem_file env.containerShell cwd himage
      simp only [inDirs_containerDirs hp] at hcontainer
      rw [if_pos hdirs, hcontainer]
      split
      · rename_i hlost₂
        exact iff_of_false (by simp) fun h => h hdirs hlost₂
      · rename_i hkept
        exact iff_of_true rfl fun _ => hkept
    · rw [if_neg hdirs]
      exact iff_of_true himage fun h => absurd h hdirs

/-- Nothing of the store is lost exactly when the cleanups can remove none
of its files. -/
theorem storeIntact_iff : StoreIntact fs (leftBehind env cwd fs) ↔
    Spared env.imageShell fs imageDirs ∧
      (ContainerDirsMade env → Spared env.containerShell fs containerMetadataDirs) := by
  constructor
  · intro h
    refine ⟨?_, fun hdirs => ?_⟩
    · cases havailable : env.imageShell.available with
      | false => exact Or.inl havailable
      | true =>
        refine Or.inr fun p content hp hfile => ?_
        have hleft := (leftBehind_file_iff env cwd (Or.inl hp) hfile).mp (h p content (Or.inl hp) hfile)
        by_contra hstuck
        exact hleft.1 ⟨havailable, hp, hstuck⟩
    · cases havailable : env.containerShell.available with
      | false => exact Or.inl havailable
      | true =>
        refine Or.inr fun p content hp hfile => ?_
        have hleft := (leftBehind_file_iff env cwd (Or.inr hp) hfile).mp (h p content (Or.inr hp) hfile)
        by_contra hstuck
        exact hleft.2 hdirs ⟨havailable, hp, hstuck⟩
  · rintro ⟨himage, hcontainer⟩ p content hp hfile
    refine (leftBehind_file_iff env cwd hp hfile).mpr ⟨?_, ?_⟩
    · rintro ⟨havailable, hin, hstuck⟩
      rcases himage with hnone | hspared
      · rw [hnone] at havailable; simp at havailable
      · exact hstuck (hspared p content hin hfile)
    · rintro hdirs ⟨havailable, hin, hstuck⟩
      rcases hcontainer hdirs with hnone | hspared
      · rw [hnone] at havailable; simp at havailable
      · exact hstuck (hspared p content hin hfile)

/-- A run of the daemon leaves the shared store intact unless it is refused
with cleanups that can remove a file of the store. -/
theorem store_intact_iff (fs : FileSystem) :
    LeavesStoreIntact env cwd fs ↔ ¬ Refused env fs ∨
      (Spared env.imageShell fs imageDirs ∧
        (ContainerDirsMade env → Spared env.containerShell fs containerMetadataDirs)) := by
  by_cases hrefused : Refused env fs
  · have hrun := runDaemonForeground_of_refused env cwd hrefused
    rw [or_iff_right (not_not_intro hrefused), ← storeIntact_iff env cwd]
    constructor
    · exact fun h => h (failsToServe_iff.mpr hrefused) _ _ hrun
    · intro hintact _ result fs' hfs'
      rw [hrun] at hfs'
      rw [← (Prod.mk.inj (Option.some.inj hfs')).2]
      exact hintact
  · exact iff_of_true (fun hfails => absurd (failsToServe_iff.mp hfails) hrefused)
      (Or.inl hrefused)

end Outcome

/-! ## 6. A second daemon -/

def alpineFile : Path := tmp ++ ["docker-metadata".toList, "alpine:latest.json".toList]

def webFile : Path :=
  tmp ++ ["docker-container-metadata".toList, "cont_65a3c1f100000000.json".toList]

/-- The store of a daemon that is serving, with one image and one
container. -/
def sharedStore : FileSystem :=
  ofEntries
    ([([], .dir), (tmp, .dir)] ++ (imageDirs ++ containerDirs).map (fun n => (tmp ++ [n], .dir))
      ++ [(alpineFile, .file "alpine".toList), (webFile, .file "web".toList)]) (by decide)

/-- A second daemon, started while the first one holds the port. -/
def portHeld : RunEnv where
  mkdirDenied := fun _ => false
  rmdirDenied := fun _ => false
  server := { socket := true, setsockopt := true, bind := false, listen := true }
  imageShell := { available := true, stuck := [], other := fun _ fs => (127, fs) }
  containerShell := { available := true, stuck := [], other := fun _ fs => (127, fs) }

/-- It returns -1, and the files of the first one are gone. -/
theorem second_daemon_wipes_store :
    (runDaemonForeground portHeld [] sharedStore).map
        (fun o => (o.1, o.2.node alpineFile, o.2.node webFile)) = some (-1, none, none) ∧
      ¬ LeavesStoreIntact portHeld [] sharedStore := by
  have hrefused : Refused portHeld sharedStore :=
    ⟨by unfold ImageDirsMade; decide, Or.inr (Or.inr (Or.inr (Or.inl rfl)))⟩
  have hrun := runDaemonForeground_of_refused portHeld [] hrefused
  obtain ⟨halpine, hweb⟩ : (leftBehind portHeld [] sharedStore).node alpineFile = none ∧
      (leftBehind portHeld [] sharedStore).node webFile = none := by decide +kernel
  have hstored : sharedStore.node alpineFile = some (.file "alpine".toList) := by decide
  have hin : InStore alpineFile := Or.inl (by decide)
  refine ⟨by rw [hrun, Option.map_some, halpine, hweb], fun h => ?_⟩
  have hkept := h (failsToServe_iff.mpr hrefused) _ _ hrun alpineFile _ hin hstored
  rw [halpine] at hkept
  simp at hkept

end DockerClone.Daemon
