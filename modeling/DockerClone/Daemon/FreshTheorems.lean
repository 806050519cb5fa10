/-
DockerClone.Daemon.FreshTheorems — a daemon on a new machine.

The loop of `create_directory_structure` passes the directory of the
layers over, and nothing else makes it: `create_layer` makes directories
below it. So on a machine that never had the directory a daemon starts
and serves, and every `create_image` fails (`fresh_daemon_makes_no_image`).
-/
import DockerClone.Daemon.AtomicTheorems
import DockerClone.Daemon.InitTheorems
import DockerClone.Image.CatalogTheorems
import DockerClone.Os.Mounts

namespace DockerClone.Daemon

open DockerClone.CLib DockerClone.Os DockerClone.Os.FileSystem DockerClone.Image
  DockerClone.Container

/-! ## 1. Starting -/

section Starting

variable {cwd q : Path} {mkdirDenied rmdirDenied : String → Bool}

theorem none_mkdirExistOk {dir : String} {fs fs' : FileSystem} {denied : Bool} (hdir : InTmp dir)
    (hne : q ≠ place dir) (hmk : fs.mkdirExistOk cwd dir.toList denied = some fs')
    (h : fs.node q = none) : fs'.node q = none := by
  rw [node_mkdirExistOk hdir hmk, if_neg (fun hq => hne hq.1), h]

theorem none_rollbackDirectories (dirs : List String) : ∀ fs : FileSystem, fs.node q = none →
    (rollbackDirectories cwd rmdirDenied dirs fs).node q = none := by
  induction dirs with
  | nil =>
    intro fs h
    exact h
  | cons dir dirs ih =>
    intro fs h
    rw [rollbackDirectories]
    split
    · rename_i fs' hrmdir
      obtain ⟨p, -, -, hnode⟩ := rmdir_ok hrmdir
      refine ih fs' ?_
      rw [hnode, h]
      split_ifs <;> rfl
    · exact ih fs h

/-- The container loop makes its own directories only. -/
theorem none_createContainerDirectories (dirs : List String) :
    ∀ (made : List String) (fs : FileSystem), (∀ d ∈ dirs, InTmp d ∧ q ≠ place d) →
      fs.node q = none →
      (Container.createDirectories cwd mkdirDenied rmdirDenied made dirs fs).2.node q = none := by
  induction dirs with
  | nil =>
    intro made fs _ h
    exact h
  | cons dir dirs ih =>
    intro made fs hdirs h
    obtain ⟨hdir, hne⟩ := hdirs dir List.mem_cons_self
    rw [Container.createDirectories]
    split
    · exact none_rollbackDirectories made fs h
    · rename_i fs' hmkdir
      exact ih _ fs' (fun d hd => hdirs d (List.mem_cons_of_mem _ hd))
        (none_mkdirExistOk hdir hne hmkdir h)

/-- The image loop makes the first and the last of its directories. -/
theorem none_createDirectoryStructure {fs : FileSystem} (h : fs.node layersDir = none) :
    (createDirectoryStructure cwd mkdirDenied fs).2.node layersDir = none := by
  have himages : layersDir ≠ place IMAGE_STORAGE_DIR := by decide
  have hmetadata : layersDir ≠ place METADATA_DIR := by decide
  have hin := inTmp_imageStrings
  rw [createDirectoryStructure, Image.createDirectories]
  split
  · exact h
  · rename_i fs₁ hmkdir
    have hfirst := none_mkdirExistOk (hin _ (by simp [imageStrings])) himages hmkdir h
    rw [Image.createDirectories]
    split
    · exact hfirst
    · rename_i fs₂ hmkdir'
      exact none_mkdirExistOk (hin _ (by simp [imageStrings])) hmetadata hmkdir' hfirst

theorem none_initialised (env : RunEnv) (cwd : Path) {fs : FileSystem}
    (h : fs.node layersDir = none) : (initialised env cwd fs).node layersDir = none := by
  have hplaces : ∀ d ∈ containerStrings, layersDir ≠ place d := by decide
  exact none_createContainerDirectories containerStrings [] _
    (fun d hd => ⟨inTmp_containerStrings d hd, hplaces d hd⟩) (none_createDirectoryStructure h)

end Starting

/-! ## 2. Calls -/

/-- The last name of a path string that ends like this. -/
theorem exists_last_name (front s : List Char) {t : List Char} (ht : '/' ∉ t) :
    ∃ before m, '/' ∉ m ++ t ∧ front ++ '/' :: (s ++ t) = before ++ '/' :: (m ++ t) := by
  by_cases hslash : '/' ∈ s
  · obtain ⟨a, b, hs, ha⟩ := List.eq_append_cons_of_mem (List.mem_reverse.mpr hslash)
    have hsplit : s = b.reverse ++ '/' :: a.reverse := by
      have hrev := congrArg List.reverse hs
      simpa using hrev
    exact ⟨front ++ '/' :: b.reverse, a.reverse, by simp [ha, ht], by rw [hsplit]; simp⟩
  · exact ⟨front, s, by simp [hslash, ht], rfl⟩

/-- No metadata file is written in the place of the layers' directory. -/
theorem none_writeImageMetadata {image : ImageInfo} {denied : Bool} {cwd : Path} {fs : FileSystem}
    (h : fs.node layersDir = none) :
    (writeImageMetadata image denied cwd fs).2.node layersDir = none := by
  unfold writeImageMetadata
  dsimp only
  generalize hfull : getImageFullName (cstr image.name) (some (cstr image.tag)) = full
  have hlen : full.length ≤ 321 := hfull ▸ length_getImageFullName _ _
  have hdir : METADATA_DIR.toList.length = 20 := by decide
  have hjson : ".json".toList.length = 5 := by decide
  have hpath : Image.metadataPath full = METADATA_DIR.toList ++ '/' :: (full ++ ".json".toList) := by
    rw [Image.metadataPath, snprintf_of_lt]
    · simp
    · simp only [List.length_append, List.length_cons, hdir, hjson, Image.MAX_PATH_LEN]
      omega
  obtain ⟨before, m, hslash, heq⟩ :=
    exists_last_name METADATA_DIR.toList full (by decide : '/' ∉ ".json".toList)
  rw [hpath, heq]
  have hord : Ordinary (m ++ ".json".toList) := by
    have hlong : 4 < (m ++ ".json".toList).length := by
      rw [List.length_append, hjson]
      omega
    refine ⟨?_, ?_, ?_, hslash⟩
    all_goals
      intro he
      rw [he] at hlong
      simp at hlong
  cases hwrite : fs.openWrite cwd (before ++ '/' :: (m ++ ".json".toList)) denied
      (imageText image) with
  | error e => exact h
  | ok fs' =>
    obtain ⟨q, hq, -, hnode⟩ := openWrite_ok hwrite
    have hresolved : resolveIn fs.node cwd (before ++ '/' :: (m ++ ".json".toList)) = some q := by
      rw [resolveIn_node, hq]
      rfl
    obtain ⟨r, rfl, -⟩ := resolveIn_concat_some hord before hresolved
    have hne : layersDir ≠ r ++ [m ++ ".json".toList] := by
      intro he
      have hlast := congrArg List.getLast? he
      rw [List.getLast?_concat] at hlast
      have hname : "docker-layers".toList = m ++ ".json".toList := Option.some.inj hlast
      have hend := congrArg List.getLast? hname
      simp at hend
    exact (hnode _).trans ((if_neg hne).trans h)

/-- Without the directory no layer is made, and so no image. -/
theorem createImage_unlayered {name : List Char} {tag context : Option (List Char)}
    {env : Image.CreateEnv} {shell : Shell} {p : Process} (h : p.fs.node layersDir = none) :
    createImage name tag context env shell p = (-1, p) := by
  have hmkdir : p.mkdirExistOk (layerPath (generateLayerId env.layer.idAt)) env.layer.mkdirDenied
      = none := by
    rw [layer_mkdir_none_iff, MkdirFails, h]
    simp
  have hlayer : createLayer none (some "FROM scratch".toList) context env.layer shell p = (-1, p) := by
    rw [createLayer]
    dsimp only
    rw [hmkdir]
  rw [createImage, hlayer]
  rfl

/-- A removal whose operand reaches `rm` as it stands. -/
def PlainRemoval : ImageCall → Prop
  | .remove imageId _ _ =>
      ImageKey imageId ∧ Ordinary imageId ∧ LiteralWord (absPath (layerDir imageId))
  | _ => True

theorem none_removeImage {imageId : List Char} {denied : Bool} {shell : Shell} {p : Process}
    (hcall : PlainRemoval (.remove imageId denied shell)) (h : p.fs.node layersDir = none) :
    (removeImage imageId denied shell p).2.fs.node layersDir = none := by
  obtain ⟨hid, hord, hword⟩ := hcall
  rw [removeImage, hid.path]
  cases hun : p.fs.unlink p.cwd (absPath (recordFile imageId)) denied with
  | error e => exact h
  | ok fs =>
    obtain ⟨q, text, -, -, hnode⟩ := unlink_ok hun
    have hfs : fs.node layersDir = none := by
      rw [hnode, h]
      split_ifs <;> rfl
    have hrm : shell.system p.cwd fs ("rm -rf ".toList ++ absPath (layerDir imageId))
        = if shell.available then (0, fs) else (-1, fs) :=
      shell.system_rm_absent p.cwd ordinary_layersDir hord (by rw [hfs]; simp) hword
    dsimp only
    rw [hid.removeCommand, Process.system]
    dsimp only
    rw [hrm]
    cases shell.available <;> exact hfs

/-- One call. -/
theorem run_unlayered (call : ImageCall) (p : Process) (h : p.fs.node layersDir = none)
    (hcall : PlainRemoval call) :
    (∀ name tag context env shell, call = .create name tag context env shell →
      (call.run p).1 = .status (-1) ∧ (call.run p).2 = p) ∧
    (call.run p).2.fs.node layersDir = none := by
  cases call with
  | create name tag context env shell =>
    have hrun : (ImageCall.create name tag context env shell).run p = (.status (-1), p) := by
      rw [ImageCall.run, createImage_unlayered h]
    rw [hrun]
    exact ⟨fun _ _ _ _ _ _ => ⟨rfl, rfl⟩, h⟩
  | tagged imageId name tag env =>
    refine ⟨by simp, ?_⟩
    simp only [ImageCall.run, tagImage]
    split
    · exact h
    · exact none_writeImageMetadata h
  | remove imageId denied shell => exact ⟨by simp, none_removeImage hcall h⟩
  | probe name tag => exact ⟨by simp, h⟩
  | info imageId memory denied => exact ⟨by simp, h⟩

/-- A daemon that starts on a machine without the layers' directory makes
no image: whatever it is asked to, every `create_image` returns -1 and
changes nothing, and the directory is never made. -/
theorem fresh_daemon_makes_no_image {env : RunEnv} {cwd : Path} {fs : FileSystem}
    (hnone : fs.node layersDir = none) {p : Process} (hp : p.fs = initialised env cwd fs)
    {calls : List ImageCall} (hcalls : ∀ call ∈ calls, PlainRemoval call) :
    (∀ t ∈ transitions ImageCall.run calls p, ∀ name tag context env shell,
      t.action = .create name tag context env shell →
        t.result = .status (-1) ∧ t.after = t.before) ∧
    (finalState ImageCall.run calls p).fs.node layersDir = none := by
  refine forall_transitions ImageCall.run (fun p => p.fs.node layersDir = none)
    (fun t => PlainRemoval t.action) _
    (fun call p h hcall => run_unlayered call p h hcall) ?_ fun t ht => ?_
  · rw [hp]
    exact none_initialised env cwd hnone
  · obtain ⟨call, hcall, p', rfl⟩ := exists_of_mem_transitions ht
    exact hcalls call hcall

/-- A daemon started on an empty `/tmp`. -/
def freshProcess : Process := { fs := initialised portHeld [] emptyTmp, cwd := [], calls := [] }

theorem fresh_web_not_made :
    (createImage "web".toList none none sameSecond utilities freshProcess).1 = -1 := by
  have hcall : ∀ call ∈ [ImageCall.create "web".toList none none sameSecond utilities],
      PlainRemoval call := by
    rintro call hcall
    rw [List.mem_singleton.mp hcall]
    trivial
  have hnone : emptyTmp.node layersDir = none := rfl
  have hstarted : freshProcess.fs = initialised portHeld [] emptyTmp := rfl
  have hfresh := (fresh_daemon_makes_no_image hnone hstarted hcall).1 _
    (List.mem_singleton_self _) _ _ _ _ _ rfl
  exact CatalogResult.status.inj hfresh.1

end DockerClone.Daemon
