/-
DockerClone.Daemon.AtomicTheorems — what a create that fails leaves
behind.

Neither `create_container` nor `create_image` undoes anything: a failure
after the first `mkdir` leaves the directory it made. A failed call is
clean where nothing it makes was missing: `sameTree_adds_iff` says so for
any number of directories, and the two bodies are run through stage by
stage.
-/
import DockerClone.Container.CreateTheorems
import DockerClone.Image.RunTheorems

namespace DockerClone.Daemon

open DockerClone.CLib DockerClone.Os DockerClone.Os.FileSystem

/-! ## 1. The watched directories -/

/-- The directories containers and images are kept in. -/
def storeDirs : List Path :=
  [Container.storageDir, Container.metadataDir, Container.logDir, Image.layersDir,
    Image.metadataDir]

/-- A path in one of them. -/
def Watched (q : Path) : Prop := ∃ d ∈ storeDirs, Below d q

/-- Both absent, both directories or both files. -/
def SameKind (x y : Option Node) : Prop :=
  (x = none ↔ y = none) ∧ (x = some .dir ↔ y = some .dir)

/-- The same files and directories are there. -/
def SameTree (fs fs' : FileSystem) : Prop := ∀ q, Watched q → SameKind (fs'.node q) (fs.node q)

theorem SameKind.rfl {x : Option Node} : SameKind x x := ⟨Iff.rfl, Iff.rfl⟩

theorem SameTree.of_eq {fs fs' : FileSystem} (h : fs' = fs) : SameTree fs fs' := by
  subst h
  exact fun _ _ => SameKind.rfl

/-- Directories were made where nothing was, and nothing else changed. -/
def Adds (paths : List Path) (fs fs' : FileSystem) : Prop :=
  ∀ q, fs'.node q = if paths.contains q ∧ fs.node q = none then some .dir else fs.node q

section Adds

variable {paths : List Path} {fs fs₁ fs' : FileSystem} {p : Path}

theorem Adds.none (h : Adds [] fs fs') : SameTree fs fs' := fun q _ => by
  rw [h q, if_neg (by simp)]
  exact SameKind.rfl

theorem Adds.keeps (h : Adds paths fs fs') (hp : fs.node p ≠ Option.none) :
    fs'.node p = fs.node p := by
  rw [h p, if_neg (fun hc => hp hc.2)]

/-- One directory more. -/
theorem Adds.concat (h : Adds paths fs fs₁)
    (hlast : ∀ q, fs'.node q
      = if q = p ∧ fs₁.node q = Option.none then some .dir else fs₁.node q) :
    Adds (p :: paths) fs fs' := by
  intro q
  rw [hlast, h q]
  simp only [List.contains_iff_mem]
  by_cases hmade : q ∈ paths ∧ fs.node q = Option.none
  · rw [if_pos hmade, if_neg (by simp), if_pos ⟨List.mem_cons_of_mem p hmade.1, hmade.2⟩]
  · rw [if_neg hmade]
    have hcond : q ∈ p :: paths ∧ fs.node q = Option.none ↔ q = p ∧ fs.node q = Option.none := by
      rw [List.mem_cons]
      constructor
      · rintro ⟨rfl | hq, hnone⟩
        · exact ⟨rfl, hnone⟩
        · exact absurd ⟨hq, hnone⟩ hmade
      · exact fun hq => ⟨Or.inl hq.1, hq.2⟩
    simp only [hcond]

/-- Nothing new is there exactly when nothing was missing. -/
theorem sameTree_adds_iff (hwatched : ∀ p ∈ paths, Watched p) (h : Adds paths fs fs') :
    SameTree fs fs' ↔ ∀ p ∈ paths, fs.node p ≠ Option.none := by
  constructor
  · intro hsame p hp hnone
    have hgone := (hsame p (hwatched p hp)).1.mpr hnone
    rw [h p, if_pos ⟨List.contains_iff_mem.mpr hp, hnone⟩] at hgone
    simp at hgone
  · intro hthere q _
    rw [h q, if_neg (fun hc => hthere q (List.contains_iff_mem.mp hc.1) hc.2)]
    exact SameKind.rfl

end Adds

/-- A tolerated `mkdir` below `parent` fails. -/
def MkdirFails (fs : FileSystem) (parent : Path) (denied : Bool) : Prop :=
  denied = true ∨ fs.node parent ≠ some .dir

theorem mkdirExistOk_none_iff (fs : FileSystem) (cwd : Path) {parent : Path} {n : Name}
    (hparent : ∀ m ∈ parent, Ordinary m) (hn : Ordinary n) (denied : Bool) :
    fs.mkdirExistOk cwd (absPath (parent ++ [n])) denied = none ↔
      MkdirFails fs parent denied := by
  have hsome := mkdirExistOk_absPath fs cwd hparent hn denied
  rw [← Option.not_isSome_iff_eq_none, hsome, MkdirFails]
  cases denied with
  | true => simp
  | false => simp

/-! ## 2. A container -/

section Container

open DockerClone.Container

variable (args : CreateArgs) (env : CreateEnv) (w : World)

/-- Nothing that a failed call made was missing before. -/
def ContainerClean : Prop :=
  MkdirFails w.fs storageDir env.mkdirDenied ∨
    w.fs.node (containerDir (generateContainerId env.now)) ≠ none ∧
      (MkdirFails w.fs (containerDir (generateContainerId env.now)) env.rootfsDenied ∨
        w.fs.node (rootfsDir (generateContainerId env.now)) ≠ none)

theorem watched_containerDir (id : List Char) : Watched (containerDir id) :=
  ⟨storageDir, by simp [storeDirs], List.prefix_append _ _, by simp [containerDir]⟩

theorem watched_rootfsDir (id : List Char) : Watched (rootfsDir id) :=
  ⟨storageDir, by simp [storeDirs], by
    rw [rootfsDir, containerDir, List.append_assoc]
    exact List.prefix_append _ _, by simp [rootfsDir, containerDir]⟩

/-- The stage at which a call failed. -/
theorem createContainer_failed (h : (createContainer args env w).1 = -1) :
    MkdirFails w.fs storageDir env.mkdirDenied ∧ (createContainer args env w).2.fs = w.fs ∨
    ¬ MkdirFails w.fs storageDir env.mkdirDenied ∧ ∃ fs₁,
      Adds [containerDir (generateContainerId env.now)] w.fs fs₁ ∧
      (MkdirFails fs₁ (containerDir (generateContainerId env.now)) env.rootfsDenied ∧
          (createContainer args env w).2.fs = fs₁ ∨
        ¬ MkdirFails fs₁ (containerDir (generateContainerId env.now)) env.rootfsDenied ∧
          Adds [rootfsDir (generateContainerId env.now),
            containerDir (generateContainerId env.now)] w.fs (createContainer args env w).2.fs) := by
  have hid := ordinary_generateContainerId env.now
  have hfirst := mkdirExistOk_none_iff w.fs w.cwd ordinary_storageDir hid env.mkdirDenied
  revert h
  unfold createContainer
  simp only [cstr_newContainer_id, getContainerFullPath_eq, cstr_newContainer_rootfsPath]
  cases h₁ : w.fs.mkdirExistOk w.cwd (absPath (containerDir (generateContainerId env.now)))
      env.mkdirDenied with
  | none =>
    intro _
    exact Or.inl ⟨hfirst.mp h₁, rfl⟩
  | some fs₁ =>
    have hgranted : ¬ MkdirFails w.fs storageDir env.mkdirDenied := by
      rw [← hfirst, ← containerDir, h₁]
      simp
    have hadds : Adds [containerDir (generateContainerId env.now)] w.fs fs₁ := fun q => by
      rw [node_mkdirExistOk_absPath ordinary_storageDir hid h₁ q]
      simp [containerDir]
    have hsecond := mkdirExistOk_none_iff fs₁ w.cwd (ordinary_containerDir env.now)
      (n := "rootfs".toList) (by decide) env.rootfsDenied
    intro h
    refine Or.inr ⟨hgranted, fs₁, hadds, ?_⟩
    revert h
    simp only
    cases h₂ : fs₁.mkdirExistOk w.cwd (absPath (rootfsDir (generateContainerId env.now)))
        env.rootfsDenied with
    | none =>
      intro _
      exact Or.inl ⟨hsecond.mp h₂, rfl⟩
    | some fs₂ =>
      intro h
      simp only at h ⊢
      refine Or.inr ⟨?_, ?_⟩
      · rw [← hsecond, ← rootfsDir, h₂]
        simp
      · rcases writeContainerMetadata_cases (newContainer args env) env.writeDenied
          { w with fs := fs₂ } with ⟨p, fs₃, -, -, hw, -⟩ | hw
        · rw [hw] at h
          simp at h
        · rw [hw]
          exact hadds.concat (node_mkdirExistOk_absPath (ordinary_containerDir env.now)
            (by decide) h₂)

theorem container_clean_iff (h : (createContainer args env w).1 = -1) :
    SameTree w.fs (createContainer args env w).2.fs ↔ ContainerClean env w := by
  rw [ContainerClean]
  rcases createContainer_failed args env w h with ⟨hfails, hsame⟩ | ⟨hgranted, fs₁, hadds, hlater⟩
  · exact iff_of_true (SameTree.of_eq hsame) (Or.inl hfails)
  · rw [or_iff_right hgranted]
    -- where the directory was there, the second `mkdir` finds it as before
    have hcarry : w.fs.node (containerDir (generateContainerId env.now)) ≠ none →
        (MkdirFails fs₁ (containerDir (generateContainerId env.now)) env.rootfsDenied ↔
          MkdirFails w.fs (containerDir (generateContainerId env.now)) env.rootfsDenied) := by
      intro hthere
      rw [MkdirFails, MkdirFails, hadds.keeps hthere]
    rcases hlater with ⟨hfails, hsame⟩ | ⟨hgranted₂, hadds₂⟩
    · rw [hsame, sameTree_adds_iff (by simpa using watched_containerDir _) hadds]
      constructor
      · intro hthere
        have hdir := hthere _ (List.mem_singleton.mpr rfl)
        exact ⟨hdir, Or.inl ((hcarry hdir).mp hfails)⟩
      · rintro ⟨hthere, -⟩ p hp
        rwa [List.mem_singleton.mp hp]
    · rw [sameTree_adds_iff (by simpa using ⟨watched_rootfsDir _, watched_containerDir _⟩) hadds₂,
        List.forall_mem_cons, List.forall_mem_singleton, and_comm]
      refine and_congr_right fun hthere => ?_
      rw [or_iff_right fun hfails => hgranted₂ ((hcarry hthere).mpr hfails)]

end Container

/-! ## 3. An image -/

section Image

open DockerClone.Image

/-- The file in a layer's directory can be opened. -/
def Opens (layerId : List Char) (denied : Bool) (fs : FileSystem) : Prop :=
  denied = false ∧ fs.node (layerDir layerId) = some .dir ∧
    fs.node (layerFile layerId) ≠ some .dir

/-- The same files and directories are there, one file apart. -/
def SameTreeBut (file : Path) (fs fs' : FileSystem) : Prop :=
  ∀ q, Watched q → q ≠ file → SameKind (fs'.node q) (fs.node q)

/-- What a copy left, and the file written after one that went well, are
what was there. -/
def CopyClean (layerId : List Char) (denied : Bool) (fs : FileSystem) (copied : Int × Process) :
    Prop :=
  (copied.1 = 0 ∧ Opens layerId denied copied.2.fs →
    SameTreeBut (layerFile layerId) fs copied.2.fs ∧
      ∃ content, fs.node (layerFile layerId) = some (.file content)) ∧
  (¬ (copied.1 = 0 ∧ Opens layerId denied copied.2.fs) → SameTree fs copied.2.fs)

variable (context : Option (List Char)) (env : LayerEnv) (sh : Shell) (p : Process)

/-- The layer's directory was there and the copy changes nothing in it;
or it was not, and the copy command removes it again. -/
def LayerClean : Prop :=
  MkdirFails p.fs layersDir env.mkdirDenied ∨
  (p.fs.node (layerDir (generateLayerId env.idAt)) ≠ none ∧
    CopyClean (generateLayerId env.idAt) env.writeDenied p.fs
      (copyDiff context (layerPath (generateLayerId env.idAt)) sh p)) ∨
  (p.fs.node (layerDir (generateLayerId env.idAt)) = none ∧ ∃ p₁,
    p.mkdirExistOk (layerPath (generateLayerId env.idAt)) env.mkdirDenied = some p₁ ∧
      SameTree p.fs (copyDiff context (layerPath (generateLayerId env.idAt)) sh p₁).2.fs)

theorem watched_layerDir (id : List Char) : Watched (layerDir id) :=
  ⟨layersDir, by simp [storeDirs], List.prefix_append _ _, by simp [layerDir]⟩

theorem watched_layerFile (id : List Char) : Watched (layerFile id) :=
  ⟨layersDir, by simp [storeDirs], by
    rw [layerFile, layerDir, List.append_assoc]
    exact List.prefix_append _ _, by simp [layerFile, layerDir]⟩

theorem layerFile_ne_layerDir (id : List Char) : layerDir id ≠ layerFile id := by
  simp [layerFile]

variable {context env sh p}

/-- Where something stands already, a tolerated `mkdir` does nothing. -/
theorem mkdirExistOk_found {p₁ : Process}
    (h : p.mkdirExistOk (layerPath (generateLayerId env.idAt)) env.mkdirDenied = some p₁)
    (hfound : p.fs.node (layerDir (generateLayerId env.idAt)) ≠ none) : p₁ = p := by
  rw [Process.mkdirExistOk] at h
  cases hm : p.fs.mkdir p.cwd (layerPath (generateLayerId env.idAt)) env.mkdirDenied with
  | ok fs =>
    obtain ⟨d, hd, hnone, -⟩ := mkdir_ok hm
    rw [layerPath_generated, layerDir] at hd
    obtain ⟨rfl, -⟩ := resolveNew_absPath_eq ordinary_layersDir (ordinary_generateLayerId _) hd
    exact absurd hnone hfound
  | error e =>
    rw [hm] at h
    cases e with
    | EEXIST => exact (Option.some.inj h).symm
    | _ => simp at h

theorem layer_mkdir_none_iff :
    p.mkdirExistOk (layerPath (generateLayerId env.idAt)) env.mkdirDenied = none ↔
      MkdirFails p.fs layersDir env.mkdirDenied := by
  have hid := ordinary_generateLayerId env.idAt
  rw [← mkdirExistOk_none_iff p.fs p.cwd ordinary_layersDir hid, ← layerDir,
    ← layerPath_generated, ← Option.not_isSome_iff_eq_none, ← Option.not_isSome_iff_eq_none,
    Process.mkdirExistOk_isSome]

theorem openWrite_layer_iff (now : Int64) (denied : Bool) (text : List Char) (p : Process) :
    (∃ p', p.openWrite (layerMetadataPath (generateLayerId now)) denied text = some p') ↔
      Opens (generateLayerId now) denied p.fs := by
  rw [← Option.isSome_iff_exists, Process.openWrite_isSome, layerMetadataPath_generated, layerFile,
    openWrite_absPath p.fs p.cwd (ordinary_layerDir now) (ordinary_layerJson now), Opens, layerFile]

/-- How far a layer got. -/
theorem createLayer_stages (parentId command context : Option (List Char)) (env : LayerEnv)
    (sh : Shell) (p : Process) :
    p.mkdirExistOk (layerPath (generateLayerId env.idAt)) env.mkdirDenied = none ∧
      (createLayer parentId command context env sh p).2 = p ∨
    ∃ p₁, p.mkdirExistOk (layerPath (generateLayerId env.idAt)) env.mkdirDenied = some p₁ ∧
      ∃ copied, copyDiff context (layerPath (generateLayerId env.idAt)) sh p₁ = copied ∧
      (¬ (copied.1 = 0 ∧ Opens (generateLayerId env.idAt) env.writeDenied copied.2.fs) ∧
          (createLayer parentId command context env sh p).2 = copied.2 ∨
        (copied.1 = 0 ∧ Opens (generateLayerId env.idAt) env.writeDenied copied.2.fs) ∧
          ∃ text, ∀ q, (createLayer parentId command context env sh p).2.fs.node q
            = if q = layerFile (generateLayerId env.idAt) then some (.file text)
              else copied.2.fs.node q) := by
  rw [createLayer]
  simp only
  cases hm : p.mkdirExistOk (layerPath (generateLayerId env.idAt)) env.mkdirDenied with
  | none => exact Or.inl ⟨rfl, rfl⟩
  | some p₁ =>
    refine Or.inr ⟨p₁, rfl, _, rfl, ?_⟩
    simp only
    generalize copyDiff context (layerPath (generateLayerId env.idAt)) sh p₁ = copied
    split
    · rename_i hstatus
      exact Or.inl ⟨fun hc => hstatus hc.1, rfl⟩
    · rename_i hstatus
      have hopens := openWrite_layer_iff env.idAt env.writeDenied
        (layerText (generateLayerId env.idAt) (parentId.getD []) (command.getD [])
          env.createdAt) copied.2
      split
      · rename_i hw
        refine Or.inl ⟨fun hc => ?_, rfl⟩
        obtain ⟨p', hp'⟩ := hopens.mpr hc.2
        rw [hw] at hp'
        simp at hp'
      · rename_i p₂ hw
        exact Or.inr ⟨⟨not_not.mp hstatus, hopens.mp ⟨p₂, hw⟩⟩, _, (openWrite_layerFile hw).2⟩

/-- A file written over a tree. -/
theorem sameTree_written_iff {file : Path} {text : List Char} {fs fs₁ fs' : FileSystem}
    (hwatched : Watched file)
    (hnode : ∀ q, fs'.node q = if q = file then some (.file text) else fs₁.node q) :
    SameTree fs fs' ↔
      SameTreeBut file fs fs₁ ∧ ∃ content, fs.node file = some (.file content) := by
  constructor
  · intro hsame
    refine ⟨fun q hq hne => ?_, ?_⟩
    · have h := hsame q hq
      rwa [hnode, if_neg hne] at h
    · have h := hsame file hwatched
      rw [hnode, if_pos rfl] at h
      cases hfile : fs.node file with
      | none => simp [SameKind, hfile] at h
      | some x =>
        cases x with
        | dir => simp [SameKind, hfile] at h
        | file content => exact ⟨content, rfl⟩
  · rintro ⟨hsame, content, hfile⟩ q hq
    rw [hnode]
    by_cases hne : q = file
    · rw [if_pos hne, hne, hfile]
      simp [SameKind]
    · rw [if_neg hne]
      exact hsame q hq hne

/-- A layer leaves everything as it was exactly when it is clean. -/
theorem layer_clean_iff (parentId command : Option (List Char)) :
    SameTree p.fs (createLayer parentId command context env sh p).2.fs ↔
      LayerClean context env sh p := by
  rw [LayerClean, ← layer_mkdir_none_iff]
  rcases createLayer_stages parentId command context env sh p with
    ⟨hm, hsame⟩ | ⟨p₁, hm, copied, hcopied, hlater⟩
  · exact iff_of_true (SameTree.of_eq (congrArg Process.fs hsame)) (Or.inl hm)
  · rw [hm, or_iff_right (by simp)]
    have hwhole : SameTree p.fs (createLayer parentId command context env sh p).2.fs ↔
        CopyClean (generateLayerId env.idAt) env.writeDenied p.fs copied := by
      rcases hlater with ⟨hfails, hsame⟩ | ⟨hopens, text, hnode⟩
      · rw [CopyClean, hsame]
        exact ⟨fun h => ⟨fun hc => absurd hc hfails, fun _ => h⟩, fun h => h.2 hfails⟩
      · rw [CopyClean, sameTree_written_iff (watched_layerFile _) hnode]
        exact ⟨fun h => ⟨fun _ => h, fun hc => absurd hopens hc⟩, fun h => h.1 hopens⟩
    rw [hwhole]
    by_cases hfound : p.fs.node (layerDir (generateLayerId env.idAt)) = none
    · have hleft : (∃ p₂, some p₁ = some p₂ ∧ SameTree p.fs
          (copyDiff context (layerPath (generateLayerId env.idAt)) sh p₂).2.fs) ↔
          SameTree p.fs copied.2.fs := by
        simp [hcopied]
      simp only [hfound, ne_eq, not_true_eq_false, false_and, true_and, false_or]
      rw [hleft, CopyClean]
      constructor
      · rintro ⟨hopened, hnot⟩
        refine hnot fun hopens => ?_
        -- the directory was removed, so nothing can be opened in it
        have hgone := ((hopened hopens).1 _ (watched_layerDir _) (layerFile_ne_layerDir _)).1.mpr
          hfound
        rw [hopens.2.2.1] at hgone
        simp at hgone
      · intro hsame
        refine ⟨fun hopens => ?_, fun _ => hsame⟩
        have hgone := (hsame _ (watched_layerDir _)).1.mpr hfound
        rw [hopens.2.2.1] at hgone
        simp at hgone
    · obtain rfl := mkdirExistOk_found hm hfound
      simp [hfound, hcopied]

/-- A context that the shell passes on as it stands never has the
directory removed again. -/
theorem layerClean_plain (hsh : sh.Copies) (hcontext : PlainContext context)
    (h : LayerClean context env sh p) :
    MkdirFails p.fs layersDir env.mkdirDenied ∨
      p.fs.node (layerDir (generateLayerId env.idAt)) ≠ none := by
  rcases h with h | ⟨h, -⟩ | ⟨hnone, p₁, hm, hsame⟩
  · exact Or.inl h
  · exact Or.inr h
  · have hgone := (hsame _ (watched_layerDir _)).1.mpr hnone
    obtain ⟨hmk, -, -⟩ := Process.mkdirExistOk_some hm
    rw [layerPath_generated] at hmk
    have hmade := node_mkdirExistOk_absPath ordinary_layersDir (ordinary_generateLayerId _) hmk
      (layerDir (generateLayerId env.idAt))
    have hkept := (copyDiff_frame hsh hcontext env.idAt p₁).2
      (layerDir (generateLayerId env.idAt)) (fun hb => hb.2 rfl)
    rw [hkept, hmade, if_pos ⟨rfl, hnone⟩] at hgone
    simp at hgone

theorem image_clean_iff {name : List Char} {tag : Option (List Char)} {env : CreateEnv}
    (h : (createImage name tag context env sh p).1 = -1) :
    SameTree p.fs (createImage name tag context env sh p).2.fs ↔
      LayerClean context env.layer sh p := by
  have hcall : createImage name tag context env sh p
      = (-1, (createImage name tag context env sh p).2) := Prod.ext h rfl
  rcases createImage_cases hcall with ⟨-, hlayer⟩ | ⟨hr, -⟩
  · rw [hlayer, layer_clean_iff]
  · simp at hr

end Image

/-! ## 4. Failed creates -/

/-- When a create that fails leaves what it found, for containers and for
images. -/
theorem failed_create_leaves_nothing_iff (args : Container.CreateArgs)
    (containerEnv : Container.CreateEnv) (w : Container.World) (name : List Char)
    (tag context : Option (List Char)) (env : Image.CreateEnv) (sh : Shell) (p : Process) :
    ((Container.createContainer args containerEnv w).1 = -1 →
      (SameTree w.fs (Container.createContainer args containerEnv w).2.fs ↔
        ContainerClean containerEnv w)) ∧
    ((Image.createImage name tag context env sh p).1 = -1 →
      (SameTree p.fs (Image.createImage name tag context env sh p).2.fs ↔
        LayerClean context env.layer sh p)) :=
  ⟨container_clean_iff args containerEnv w, image_clean_iff⟩

/-- The metadata file cannot be opened. -/
def noContainerFile : Container.CreateEnv := { Container.oneSecond with writeDenied := true }

/-- The layer's metadata file cannot be opened. -/
def noLayerFile : Image.CreateEnv :=
  { Image.grantedCreate 1 1 1 1 1 with
    layer := { idAt := 1, createdAt := 1, mkdirDenied := false, writeDenied := true } }

/-- What the first failures left, a second one keeps. -/
theorem second_failure_leaves_nothing :
    SameTree (Container.createContainer (Container.request "web") noContainerFile
        Container.emptyWorld).2.fs
      (Container.createContainer (Container.request "web") noContainerFile
        (Container.createContainer (Container.request "web") noContainerFile
          Container.emptyWorld).2).2.fs ∧
    SameTree (Image.createImage "web".toList none none noLayerFile utilities
        Image.storeProcess).2.fs
      (Image.createImage "web".toList none none noLayerFile utilities
        (Image.createImage "web".toList none none noLayerFile utilities
          Image.storeProcess).2).2.fs := by
  have hclean := failed_create_leaves_nothing_iff (Container.request "web") noContainerFile
    (Container.createContainer (Container.request "web") noContainerFile Container.emptyWorld).2
    "web".toList none none noLayerFile utilities
    (Image.createImage "web".toList none none noLayerFile utilities Image.storeProcess).2
  constructor
  · refine (hclean.1 (by decide)).mpr (Or.inr ⟨?_, Or.inr ?_⟩)
    · decide
    · decide
  · refine (hclean.2 (by decide)).mpr
      (Or.inr (Or.inl ⟨by decide, fun hopens => ?_, fun _ => SameTree.of_eq rfl⟩))
    exact absurd hopens.2.1 (by decide)

/-- Both calls fail after their first `mkdir`. -/
theorem directories_left :
    ((Container.createContainer (Container.request "web") noContainerFile
        Container.emptyWorld).1 = -1 ∧
      ¬ SameTree Container.emptyWorld.fs (Container.createContainer (Container.request "web")
        noContainerFile Container.emptyWorld).2.fs) ∧
    ((Image.createImage "web".toList none none noLayerFile utilities Image.storeProcess).1 = -1 ∧
      ¬ SameTree Image.storeProcess.fs (Image.createImage "web".toList none none noLayerFile
        utilities Image.storeProcess).2.fs) := by
  have hcontainer : (Container.createContainer (Container.request "web") noContainerFile
      Container.emptyWorld).1 = -1 := by decide
  have himage : (Image.createImage "web".toList none none noLayerFile utilities
      Image.storeProcess).1 = -1 := by decide
  refine ⟨⟨hcontainer, fun h => ?_⟩, himage, fun h => ?_⟩
  · rcases (container_clean_iff _ _ _ hcontainer).mp h with hfails | ⟨hthere, -⟩
    · exact absurd hfails (by rw [MkdirFails]; decide)
    · exact hthere (by decide)
  · have hnone : Image.PlainContext none := trivial
    rcases layerClean_plain utilities_copies hnone ((image_clean_iff himage).mp h) with
      hfails | hthere
    · exact absurd hfails (by rw [MkdirFails]; decide)
    · exact hthere (by decide)

end DockerClone.Daemon
