/-
DockerClone.Container.CreateTheorems — what one `create_container` does,
and what a run of them does to the store.

`createContainer_effect` is the only place where the body is taken apart:
a call touches the container's directory, its rootfs and its metadata
file; the directories only where nothing was before; and it returns 0
exactly when it wrote the file.

The id is the clock reading, injectively (`generateContainerId_inj`), so
two calls in one second get one id. Nothing on the way notices: an
existing directory is accepted and the metadata file is opened for
writing. `fresh_iff` says what follows for a run: all is well exactly
when the calls that go through read pairwise different seconds, none of
them one whose id the store already holds.
-/
import DockerClone.Container.GuardTheorems
import DockerClone.Os.Run

namespace DockerClone.Container

open DockerClone.CLib DockerClone.Os DockerClone.Os.FileSystem DockerClone.Metadata

/-! ## 1. Generated ids -/

theorem generateContainerId_eq (now : Int64) : generateContainerId now
    = "cont_".toList ++ renderHex 8 (now.toInt % 2 ^ 32).toNat
      ++ renderHex 8 (now.toInt / 2 ^ 32 % 2 ^ 32).toNat := by
  refine snprintf_of_lt ?_
  simp [renderHex_length, MAX_CONTAINER_ID_LEN]

theorem generateContainerId_inj {a b : Int64}
    (h : generateContainerId a = generateContainerId b) : a = b := by
  rw [generateContainerId_eq, generateContainerId_eq] at h
  exact clockText_inj h

theorem generateContainerId_length (now : Int64) : (generateContainerId now).length = 21 := by
  rw [generateContainerId_eq]
  exact length_clockText _ now

theorem mem_generateContainerId {now : Int64} {c : Char} (h : c ∈ generateContainerId now) :
    c ∈ "cont_0123456789abcdef".toList := by
  rw [generateContainerId_eq] at h
  rcases mem_clockText h with h | h
  · exact (by decide : "cont_".toList ⊆ "cont_0123456789abcdef".toList) h
  · exact (by decide : "0123456789abcdef".toList ⊆ "cont_0123456789abcdef".toList) h

theorem not_mem_generateContainerId {c : Char} (hc : c ∉ "cont_0123456789abcdef".toList)
    (now : Int64) : c ∉ generateContainerId now :=
  fun h => hc (mem_generateContainerId h)

theorem isId_generateContainerId (now : Int64) : IsId (generateContainerId now) :=
  ⟨by rw [generateContainerId_length]; omega, not_mem_generateContainerId (by decide) now⟩

theorem ordinary_generateContainerId (now : Int64) : Ordinary (generateContainerId now) := by
  have hlen := generateContainerId_length now
  refine ⟨?_, ?_, ?_, not_mem_generateContainerId (by decide) now⟩ <;>
    intro h <;> rw [h] at hlen <;> simp at hlen

/-! ## 2. The paths of a new container -/

/-- The directory of a container. -/
def containerDir (id : List Char) : Path := storageDir ++ [id]

/-- Its root file system. -/
def rootfsDir (id : List Char) : Path := containerDir id ++ ["rootfs".toList]

/-- Its log file. -/
def logFile (id : List Char) : Path := logDir ++ [id ++ ".log".toList]

/-- The strings a caller gives. -/
def CreateArgs.strings (args : CreateArgs) : List (List Char) :=
  [args.name.getD [], args.image, args.command.getD [], args.workingDir.getD [],
    args.envVars.getD [], args.portMappings.getD [], args.volumeMappings.getD []]

/-- None of them has a double quote. -/
def CreateArgs.QuoteFree (args : CreateArgs) : Prop := ∀ s ∈ args.strings, '"' ∉ s

instance (args : CreateArgs) : Decidable args.QuoteFree := by
  unfold CreateArgs.QuoteFree; infer_instance

section Paths

variable (args : CreateArgs) (env : CreateEnv)

theorem nulFree_generateContainerId (now : Int64) : NulFree (generateContainerId now) :=
  not_mem_generateContainerId (by decide) now

theorem cstr_newContainer_id : cstr (newContainer args env).id = generateContainerId env.now :=
  cstr_store (nulFree_generateContainerId _) _

theorem getContainerFullPath_eq (now : Int64) :
    getContainerFullPath (generateContainerId now)
      = absPath (containerDir (generateContainerId now)) := by
  rw [getContainerFullPath, containerDir, absPath_concat, ← storageDir_path, snprintf_of_lt]
  have hlen : CONTAINER_STORAGE_DIR.toList.length = 22 := by decide
  simp only [List.length_append, List.length_cons, generateContainerId_length, hlen, MAX_PATH_LEN]
  omega

theorem cstr_newContainer_rootfsPath : cstr (newContainer args env).rootfsPath
    = absPath (rootfsDir (generateContainerId env.now)) := by
  have hstr : getContainerFullPath (generateContainerId env.now) ++ "/rootfs".toList
      = absPath (rootfsDir (generateContainerId env.now)) := by
    rw [getContainerFullPath_eq, rootfsDir, absPath_concat]
    rfl
  have hid := nulFree_generateContainerId env.now
  have hnul : NulFree (CONTAINER_STORAGE_DIR.toList ++ '/' :: generateContainerId env.now
      ++ "/rootfs".toList) := by
    have h1 : nul ∉ CONTAINER_STORAGE_DIR.toList := by decide
    have h2 : nul ∉ "/rootfs".toList := by decide
    have h3 : nul ≠ '/' := by decide
    simp only [NulFree, List.mem_append, List.mem_cons, not_or]
    exact ⟨⟨h1, h3, hid⟩, h2⟩
  have hdef : (newContainer args env).rootfsPath = printed MAX_PATH_LEN
      ContainerInfo.zeroed.rootfsPath
      (getContainerFullPath (generateContainerId env.now) ++ "/rootfs".toList) := rfl
  rw [hdef, hstr]
  refine cstr_printed ?_ ?_ _
  · rw [rootfsDir, containerDir, absPath_concat, absPath_concat, ← storageDir_path]
    exact hnul
  · have hlen : CONTAINER_STORAGE_DIR.toList.length = 22 := by decide
    have hroot : "rootfs".toList.length = 6 := by decide
    rw [rootfsDir, containerDir, absPath_concat, absPath_concat, ← storageDir_path]
    simp only [List.length_append, List.length_cons, generateContainerId_length, hlen, hroot,
      MAX_PATH_LEN]
    omega

theorem cstr_newContainer_configPath : cstr (newContainer args env).configPath
    = absPath (metadataFile (generateContainerId env.now)) := by
  have hdef : (newContainer args env).configPath = printed MAX_PATH_LEN
      ContainerInfo.zeroed.configPath (CONTAINER_METADATA_DIR.toList ++
        '/' :: generateContainerId env.now ++ ".json".toList) := rfl
  have hid := nulFree_generateContainerId env.now
  have hlen : CONTAINER_METADATA_DIR.toList.length = 30 := by decide
  have hjson : ".json".toList.length = 5 := by decide
  rw [hdef, cstr_printed]
  · rw [metadataFile, absPath_concat, ← metadataDir_path]
    simp
  · have h1 : nul ∉ CONTAINER_METADATA_DIR.toList := by decide
    have h2 : nul ∉ ".json".toList := by decide
    have h3 : nul ≠ '/' := by decide
    simp only [NulFree, List.mem_append, List.mem_cons, not_or]
    exact ⟨⟨h1, h3, hid⟩, h2⟩
  · simp only [List.length_append, List.length_cons, generateContainerId_length, hlen, hjson,
      MAX_PATH_LEN]
    omega

theorem holdsString_newContainer_configPath :
    HoldsString MAX_PATH_LEN (newContainer args env).configPath :=
  holdsString_printed (by decide) (by simp [ContainerInfo.zeroed, zeros]) _

theorem holdsString_newContainer_logPath :
    HoldsString MAX_PATH_LEN (newContainer args env).logPath :=
  holdsString_printed (by decide) (by simp [ContainerInfo.zeroed, zeros]) _

/-- A new record fits the struct it is read back into. -/
theorem fits_newContainer :
    ∀ array ∈ containerArrays, ∀ e ∈ containerEntries (newContainer args env), e.FitsIn array := by
  have hcopy : ∀ (s : List Char) (n : Nat), (cstr (strncpy (zeros (n + 1)) s n)).length < n + 1 :=
    fun s n => Nat.lt_succ_of_le (length_cstr_strncpy_zeros s n)
  have hid : (cstr (newContainer args env).id).length < 64 := by
    rw [cstr_newContainer_id, generateContainerId_length]
    decide
  have hcreated : (cstr (newContainer args env).created).length < 32 :=
    Nat.lt_succ_of_le (length_cstr_printed_le 32 _ _)
  have hname : (cstr (newContainer args env).name).length < 256 := hcopy _ 255
  have himage : (cstr (newContainer args env).image).length < 256 := hcopy _ 255
  have hcommand : (cstr (newContainer args env).command).length < 1024 := hcopy _ 1023
  have hstarted : cstr (newContainer args env).started = [] := cstr_zeros 32
  have hfinished : cstr (newContainer args env).finished = [] := cstr_zeros 32
  simpa [containerArrays, containerEntries, Entry.FitsIn, hstarted, hfinished]
    using ⟨hid, hname, himage, hcommand, hcreated⟩

theorem textFits_newContainer (h : QuoteFree (newContainer args env)) :
    TextFits (containerText (newContainer args env)) :=
  fits_entriesText h (fits_newContainer args env)

/-- A caller that gives no quote gets a record without one. -/
theorem quoteFree_newContainer (h : args.QuoteFree) :
    QuoteFree (newContainer args env) := by
  have hid : '"' ∉ generateContainerId env.now := not_mem_generateContainerId (by decide) _
  have hzero : ∀ n, '"' ∉ cstr (zeros n) := by simp
  have hcopy : ∀ {s : List Char} (m n : Nat), '"' ∉ s → '"' ∉ cstr (strncpy (zeros m) s n) :=
    fun m n hs hc => hs (mem_of_mem_cstr_strncpy_zeros hc)
  have hprinted : ∀ (array s : List Char), '"' ∉ s → '"' ∉ cstr (printed MAX_PATH_LEN array s) := by
    intro array s hs hc
    rw [printed, store, cstr_append_nul_cut] at hc
    exact hs (List.take_subset _ _ ((List.takeWhile_prefix _).subset hc))
  simp only [CreateArgs.QuoteFree, CreateArgs.strings, List.forall_mem_cons] at h
  obtain ⟨hname, himage, hcommand, hdir, henv, hports, hvolumes, -⟩ := h
  have hname' : '"' ∉ args.name.getD (generateContainerId env.now) := by
    cases hopt : args.name with
    | none => exact hid
    | some name => rwa [hopt] at hname
  have hdir' : '"' ∉ args.workingDir.getD ['/'] := by
    cases hopt : args.workingDir with
    | none => decide
    | some dir => rwa [hopt] at hdir
  have hlog : '"' ∉ CONTAINER_LOG_DIR.toList ++ '/' :: generateContainerId env.now
      ++ ".log".toList := by
    have h1 : '"' ∉ CONTAINER_LOG_DIR.toList := by decide
    have h2 : '"' ∉ ".log".toList := by decide
    have h3 : '"' ≠ '/' := by decide
    simp only [List.mem_append, List.mem_cons, not_or]
    exact ⟨⟨h1, h3, hid⟩, h2⟩
  have hroot : '"' ∉ getContainerFullPath (generateContainerId env.now) ++ "/rootfs".toList := by
    have h1 : '"' ∉ CONTAINER_STORAGE_DIR.toList := by decide
    have h2 : '"' ∉ "/rootfs".toList := by decide
    have h3 : '"' ≠ '/' := by decide
    have hpath : '"' ∉ getContainerFullPath (generateContainerId env.now) := by
      refine fun hc => ?_
      have hc' := snprintf_subset _ _ hc
      simp only [List.mem_append, List.mem_cons] at hc'
      exact hc'.elim h1 fun hc' => hc'.elim h3 hid
    simp only [List.mem_append, not_or]
    exact ⟨hpath, h2⟩
  have hfirst : '"' ∉ cstr (newContainer args env).id := by
    rw [cstr_newContainer_id]
    exact hid
  rw [quoteFree_iff]
  simp only [printedViews, List.forall_mem_cons]
  exact ⟨hfirst, hcopy _ _ hname', hcopy _ _ himage, hzero _, hcopy _ _ hcommand, hcopy _ _ hdir',
    hzero _, hzero _, hzero _, hzero _, hcopy _ _ henv, hcopy _ _ hports, hcopy _ _ hvolumes,
    hzero _, quote_not_mem_clock _ _, hzero _, hzero _, hprinted _ _ hlog, hprinted _ _ hroot,
    by simp⟩

end Paths

/-! ## 3. One call -/

/-- A write replaces one file, or does nothing. -/
theorem writeContainerMetadata_cases (container : ContainerInfo) (denied : Bool) (w : World) :
    (∃ p fs', w.fs.resolve w.cwd (cstr container.configPath) = .ok p ∧
      w.fs.node p ≠ some .dir ∧
      writeContainerMetadata container denied w = (0, { w with fs := fs' }) ∧
      ∀ q, fs'.node q = if q = p then some (.file (containerText container)) else w.fs.node q) ∨
    writeContainerMetadata container denied w = (-1, w) := by
  unfold writeContainerMetadata
  cases h : w.fs.openWrite w.cwd (cstr container.configPath) denied (containerText container) with
  | error e => exact Or.inr rfl
  | ok fs' =>
    obtain ⟨p, hp, hdir, hnode⟩ := openWrite_ok h
    exact Or.inl ⟨p, fs', hp, hdir, rfl, hnode⟩

/-- What a call changes, and what its return value says. -/
structure CreateEffect (args : CreateArgs) (env : CreateEnv) (w w' : World) (ret : Int) :
    Prop where
  /-- What was there stays, the metadata file apart. -/
  keeps : ∀ q, w.fs.node q ≠ none → q ≠ metadataFile (generateContainerId env.now) →
    w'.fs.node q = w.fs.node q
  /-- Nothing appears but the container's own three paths. -/
  within : ∀ q, q ≠ containerDir (generateContainerId env.now) →
    q ≠ rootfsDir (generateContainerId env.now) →
    q ≠ metadataFile (generateContainerId env.now) → w'.fs.node q = w.fs.node q
  outcome :
    (ret = 0 ∧ w'.fs.node (metadataFile (generateContainerId env.now))
        = some (.file (containerText (newContainer args env))) ∧
      w'.fs.node (containerDir (generateContainerId env.now)) ≠ none) ∨
    (ret = -1 ∧ w'.fs.node (metadataFile (generateContainerId env.now))
        = w.fs.node (metadataFile (generateContainerId env.now)))

section Separate

variable (id : List Char)

theorem metadataFile_ne_containerDir (id' : List Char) : metadataFile id ≠ containerDir id' := by
  intro h
  simp [metadataFile, containerDir, metadataDir, storageDir] at h

theorem metadataFile_ne_rootfsDir (id' : List Char) : metadataFile id ≠ rootfsDir id' := by
  intro h
  simp [metadataFile, rootfsDir, containerDir, metadataDir, storageDir] at h

theorem containerDir_ne_rootfsDir : containerDir id ≠ rootfsDir id := by
  simp [rootfsDir]

theorem ordinary_containerDir (now : Int64) :
    ∀ n ∈ containerDir (generateContainerId now), Ordinary n := by
  intro n hn
  rcases List.mem_append.mp hn with hn | hn
  · exact ordinary_storageDir n hn
  · rw [List.mem_singleton.mp hn]; exact ordinary_generateContainerId now

end Separate

theorem createContainer_effect (args : CreateArgs) (env : CreateEnv) (w : World) :
    CreateEffect args env w (createContainer args env w).2 (createContainer args env w).1 := by
  have hdirs := ordinary_containerDir env.now
  have hid := isId_generateContainerId env.now
  unfold createContainer
  simp only [cstr_newContainer_id]
  cases h₁ : w.fs.mkdirExistOk w.cwd (getContainerFullPath (generateContainerId env.now))
      env.mkdirDenied with
  | none => exact ⟨fun _ _ _ => rfl, fun _ _ _ _ => rfl, Or.inr ⟨rfl, rfl⟩⟩
  | some fs₁ =>
    obtain ⟨p₁, hp₁, hsome₁, -, hkeep₁, hwithin₁⟩ := mkdirExistOk_some h₁
    rw [getContainerFullPath_eq] at hp₁
    obtain ⟨rfl, -⟩ := resolveNew_absPath_eq ordinary_storageDir
      (ordinary_generateContainerId env.now) hp₁
    simp only [cstr_newContainer_rootfsPath]
    cases h₂ : fs₁.mkdirExistOk w.cwd (absPath (rootfsDir (generateContainerId env.now)))
        env.rootfsDenied with
    | none =>
      exact ⟨fun q hq _ => hkeep₁ q hq, fun q hq _ _ => hwithin₁ q hq,
        Or.inr ⟨rfl, hwithin₁ _ (metadataFile_ne_containerDir _ _)⟩⟩
    | some fs₂ =>
      obtain ⟨p₂, hp₂, -, -, hkeep₂, hwithin₂⟩ := mkdirExistOk_some h₂
      obtain ⟨rfl, -⟩ := resolveNew_absPath_eq hdirs (by decide) hp₂
      have hkeep : ∀ q, w.fs.node q ≠ none → fs₂.node q = w.fs.node q := by
        intro q hq
        rw [hkeep₂ q (by rw [hkeep₁ q hq]; exact hq), hkeep₁ q hq]
      have hwithin : ∀ q, q ≠ containerDir (generateContainerId env.now) →
          q ≠ rootfsDir (generateContainerId env.now) → fs₂.node q = w.fs.node q := by
        intro q hq hq'
        rw [hwithin₂ q hq', hwithin₁ q hq]
      have hmeta := hwithin _ (metadataFile_ne_containerDir (generateContainerId env.now) _)
        (metadataFile_ne_rootfsDir _ _)
      simp only
      rcases writeContainerMetadata_cases (newContainer args env) env.writeDenied
        { w with fs := fs₂ } with ⟨p, fs₃, hp, hdir, hw, hnode⟩ | hw
      · rw [cstr_newContainer_configPath] at hp
        obtain ⟨rfl, -⟩ := resolve_absPath_eq ordinary_metadataDir (ordinary_json hid) hp
        rw [hw]
        refine ⟨fun q hq hne => ?_, fun q h1 h2 h3 => ?_, Or.inl ⟨rfl, ?_, ?_⟩⟩
        · exact (hnode q).trans ((if_neg hne).trans (hkeep q hq))
        · exact (hnode q).trans ((if_neg h3).trans (hwithin q h1 h2))
        · exact (hnode _).trans (if_pos rfl)
        · have hne := metadataFile_ne_containerDir (generateContainerId env.now)
            (generateContainerId env.now)
          have h3 : fs₃.node (containerDir (generateContainerId env.now))
              = fs₂.node (containerDir (generateContainerId env.now)) :=
            (hnode _).trans (if_neg hne.symm)
          have h2 := hwithin₂ _ (containerDir_ne_rootfsDir (generateContainerId env.now))
          have hsome : fs₃.node (containerDir (generateContainerId env.now)) ≠ none := by
            rw [h3, h2]; exact hsome₁
          exact hsome
      · rw [hw]
        exact ⟨fun q hq _ => hkeep q hq, fun q h1 h2 _ => hwithin q h1 h2,
          Or.inr ⟨rfl, hmeta⟩⟩

/-- The state before a call and its environment that let both `mkdir`s
and the `fopen` through. -/
def GoesThrough (env : CreateEnv) (w : World) : Prop :=
  env.mkdirDenied = false ∧ env.rootfsDenied = false ∧ env.writeDenied = false ∧
  w.fs.node storageDir = some .dir ∧ w.fs.node metadataDir = some .dir ∧
  (w.fs.node (containerDir (generateContainerId env.now)) = none ∨
    w.fs.node (containerDir (generateContainerId env.now)) = some .dir) ∧
  w.fs.node (metadataFile (generateContainerId env.now)) ≠ some .dir

instance (env : CreateEnv) (w : World) : Decidable (GoesThrough env w) := by
  unfold GoesThrough; infer_instance

/-- The three calls that can fail, one after the other. -/
theorem createContainer_stages (args : CreateArgs) (env : CreateEnv) (w : World) :
    (createContainer args env w).1 = 0 ↔ ∃ fs₁ fs₂ fs₃,
      w.fs.mkdirExistOk w.cwd (absPath (containerDir (generateContainerId env.now)))
        env.mkdirDenied = some fs₁ ∧
      fs₁.mkdirExistOk w.cwd (absPath (rootfsDir (generateContainerId env.now)))
        env.rootfsDenied = some fs₂ ∧
      fs₂.openWrite w.cwd (absPath (metadataFile (generateContainerId env.now)))
        env.writeDenied (containerText (newContainer args env)) = .ok fs₃ := by
  unfold createContainer
  simp only [cstr_newContainer_id, getContainerFullPath_eq, cstr_newContainer_rootfsPath]
  cases h₁ : w.fs.mkdirExistOk w.cwd (absPath (containerDir (generateContainerId env.now)))
      env.mkdirDenied with
  | none => simp
  | some fs₁ =>
    simp only [Option.some.injEq, exists_and_left, exists_eq_left']
    cases h₂ : fs₁.mkdirExistOk w.cwd (absPath (rootfsDir (generateContainerId env.now)))
        env.rootfsDenied with
    | none => simp
    | some fs₂ =>
      simp only [Option.some.injEq, exists_eq_left', writeContainerMetadata,
        cstr_newContainer_configPath]
      cases fs₂.openWrite w.cwd (absPath (metadataFile (generateContainerId env.now)))
        env.writeDenied (containerText (newContainer args env)) <;> simp

/-- A call returns 0 exactly when the state before lets it through. -/
theorem createContainer_ok_iff (args : CreateArgs) (env : CreateEnv) (w : World) :
    (createContainer args env w).1 = 0 ↔ GoesThrough env w := by
  have hordinary := ordinary_generateContainerId env.now
  have hjson := ordinary_json (isId_generateContainerId env.now)
  -- what the stages leave where the later ones look
  have hstage : ∀ {fs₁ fs₂ : FileSystem},
      w.fs.mkdirExistOk w.cwd (absPath (containerDir (generateContainerId env.now)))
        env.mkdirDenied = some fs₁ →
      fs₁.mkdirExistOk w.cwd (absPath (rootfsDir (generateContainerId env.now)))
        env.rootfsDenied = some fs₂ →
      fs₂.node metadataDir = w.fs.node metadataDir ∧
        fs₂.node (metadataFile (generateContainerId env.now))
          = w.fs.node (metadataFile (generateContainerId env.now)) := by
    intro fs₁ fs₂ h₁ h₂
    obtain ⟨p₁, hp₁, -, -, -, hwithin₁⟩ := mkdirExistOk_some h₁
    obtain ⟨rfl, -⟩ := resolveNew_absPath_eq ordinary_storageDir hordinary hp₁
    obtain ⟨p₂, hp₂, -, -, -, hwithin₂⟩ := mkdirExistOk_some h₂
    obtain ⟨rfl, -⟩ :=
      resolveNew_absPath_eq (ordinary_containerDir env.now) (by decide) hp₂
    constructor
    · rw [hwithin₂ _ (by simp [metadataDir, containerDir, storageDir]),
        hwithin₁ _ (by simp [metadataDir, storageDir])]
    · rw [hwithin₂ _ (metadataFile_ne_rootfsDir _ _),
        hwithin₁ _ (metadataFile_ne_containerDir _ _)]
  have hsome₁ : (w.fs.mkdirExistOk w.cwd (absPath (containerDir (generateContainerId env.now)))
      env.mkdirDenied).isSome = (!env.mkdirDenied && decide (w.fs.node storageDir = some .dir)) :=
    mkdirExistOk_absPath w.fs w.cwd ordinary_storageDir hordinary env.mkdirDenied
  have hsome₂ : ∀ fs₁ : FileSystem,
      (fs₁.mkdirExistOk w.cwd (absPath (rootfsDir (generateContainerId env.now)))
        env.rootfsDenied).isSome = (!env.rootfsDenied &&
          decide (fs₁.node (containerDir (generateContainerId env.now)) = some .dir)) := fun fs₁ =>
    mkdirExistOk_absPath fs₁ w.cwd (ordinary_containerDir env.now) (by decide) env.rootfsDenied
  have hdir : ∀ {fs₁ : FileSystem},
      w.fs.mkdirExistOk w.cwd (absPath (containerDir (generateContainerId env.now)))
        env.mkdirDenied = some fs₁ →
      (fs₁.node (containerDir (generateContainerId env.now)) = some .dir ↔
        w.fs.node (containerDir (generateContainerId env.now)) = none ∨
          w.fs.node (containerDir (generateContainerId env.now)) = some .dir) := by
    intro fs₁ h₁
    obtain ⟨p₁, hp₁, -, hnew₁, hkeep₁, -⟩ := mkdirExistOk_some h₁
    obtain ⟨rfl, -⟩ := resolveNew_absPath_eq ordinary_storageDir hordinary hp₁
    by_cases hnone : w.fs.node (containerDir (generateContainerId env.now)) = none
    · simp [containerDir] at hnone ⊢
      simp [hnone, hnew₁ hnone]
    · rw [hkeep₁ _ hnone]
      simp [hnone]
  rw [createContainer_stages]
  constructor
  · rintro ⟨fs₁, fs₂, fs₃, h₁, h₂, h₃⟩
    obtain ⟨hm, hf⟩ := hstage h₁ h₂
    rw [h₁] at hsome₁
    have hs₂ := hsome₂ fs₁
    rw [h₂] at hs₂
    have hw := (openWrite_absPath fs₂ w.cwd ordinary_metadataDir hjson env.writeDenied
      (containerText (newContainer args env))).mp ⟨fs₃, h₃⟩
    simp only [Option.isSome_some, Bool.true_eq, Bool.and_eq_true, Bool.not_eq_true',
      decide_eq_true_eq] at hsome₁ hs₂
    exact ⟨hsome₁.1, hs₂.1, hw.1, hsome₁.2, by rw [← hm]; exact hw.2.1, (hdir h₁).mp hs₂.2,
      by rw [← hf]; exact hw.2.2⟩
  · rintro ⟨hd₁, hd₂, hd₃, hs, hm, hc, hf⟩
    obtain ⟨fs₁, h₁⟩ := Option.isSome_iff_exists.mp (hsome₁.trans (by simp [hd₁, hs]))
    obtain ⟨fs₂, h₂⟩ := Option.isSome_iff_exists.mp
      ((hsome₂ fs₁).trans (by simp [hd₂, (hdir h₁).mpr hc]))
    obtain ⟨hm', hf'⟩ := hstage h₁ h₂
    obtain ⟨fs₃, h₃⟩ := (openWrite_absPath fs₂ w.cwd ordinary_metadataDir hjson
      env.writeDenied (containerText (newContainer args env))).mpr
      ⟨hd₃, by rw [hm', hm], by rw [← metadataFile, hf']; exact hf⟩
    exact ⟨fs₁, fs₂, fs₃, h₁, h₂, h₃⟩

/-! ## 4. Runs -/

/-- The store holds a container of this id. -/
def Stored (id : List Char) (w : World) : Prop := w.fs.node (metadataFile id) ≠ none

instance (id : List Char) (w : World) : Decidable (Stored id w) := by
  unfold Stored; infer_instance

/-- A call in a run, with its arguments and environment. -/
def createStep (call : CreateArgs × CreateEnv) (w : World) : Int × World :=
  createContainer call.1 call.2 w

/-- A successful call adds one container under an id the store did not
hold, and leaves every other record as it was. -/
def AddsFresh (t : Transition World (CreateArgs × CreateEnv) Int) : Prop :=
  t.result = 0 →
    ¬ Stored (generateContainerId t.action.2.now) t.before ∧
    Stored (generateContainerId t.action.2.now) t.after ∧
    ∀ id, id ≠ generateContainerId t.action.2.now →
      t.after.fs.node (metadataFile id) = t.before.fs.node (metadataFile id)

/-- The clock readings of the calls of a run that go through. -/
def secondsRead (calls : List (CreateArgs × CreateEnv)) (w : World) : List Int64 :=
  ((transitions createStep calls w).filter
    (fun t => decide (GoesThrough t.action.2 t.before))).map (fun t => t.action.2.now)

theorem metadataFile_inj {a b : List Char} (h : metadataFile a = metadataFile b) : a = b := by
  obtain ⟨-, hlast⟩ := List.append_inj' h rfl
  exact List.append_cancel_right (List.cons.inj hlast).1

theorem other_record_kept (call : CreateArgs × CreateEnv) (w : World) {id : List Char}
    (hid : id ≠ generateContainerId call.2.now) :
    (createStep call w).2.fs.node (metadataFile id) = w.fs.node (metadataFile id) :=
  (createContainer_effect call.1 call.2 w).within _ (metadataFile_ne_containerDir _ _)
    (metadataFile_ne_rootfsDir _ _) (fun h => hid (metadataFile_inj h))

/-- Which ids a call leaves in the store. -/
theorem stored_createStep (call : CreateArgs × CreateEnv) (w : World) (id : List Char) :
    Stored id (createStep call w).2 ↔
      Stored id w ∨ (GoesThrough call.2 w ∧ id = generateContainerId call.2.now) := by
  by_cases hid : id = generateContainerId call.2.now
  · subst hid
    have hok := createContainer_ok_iff call.1 call.2 w
    rcases (createContainer_effect call.1 call.2 w).outcome with ⟨hret, hfile, -⟩ | ⟨hret, hsame⟩
    · have hgo := hok.mp hret
      simp only [Stored, createStep, hfile]
      simp [hgo]
    · have hgo : ¬ GoesThrough call.2 w := by
        rw [← hok, hret]; simp
      simp only [Stored, createStep, hsame]
      simp [hgo]
  · rw [Stored, other_record_kept call w hid]
    simp [Stored, hid]

/-- One call adds a fresh container unless its id is taken. -/
theorem addsFresh_iff (call : CreateArgs × CreateEnv) (w : World) :
    AddsFresh (transition createStep call w) ↔
      (GoesThrough call.2 w → ¬ Stored (generateContainerId call.2.now) w) := by
  have hok := createContainer_ok_iff call.1 call.2 w
  constructor
  · intro h hgo
    exact (h (hok.mpr hgo)).1
  · intro h hret
    have hgo := hok.mp hret
    exact ⟨h hgo, (stored_createStep call w _).mpr (Or.inr ⟨hgo, rfl⟩),
      fun id hid => other_record_kept call w hid⟩

theorem secondsRead_cons (call : CreateArgs × CreateEnv) (calls : List (CreateArgs × CreateEnv))
    (w : World) : secondsRead (call :: calls) w
      = if GoesThrough call.2 w then call.2.now :: secondsRead calls (createStep call w).2
        else secondsRead calls (createStep call w).2 := by
  unfold secondsRead
  rw [transitions, List.filter_cons]
  by_cases hgo : GoesThrough call.2 w
  · rw [if_pos (by simp [transition, hgo]), if_pos hgo]
    rfl
  · rw [if_neg (by simp [transition, hgo]), if_neg hgo]

/-- In a run of creates no container is lost exactly when the calls that
go through read pairwise different seconds, and none of them a second
whose id the store held at the start. -/
theorem no_container_lost_iff (calls : List (CreateArgs × CreateEnv)) (w : World) :
    (∀ t ∈ transitions createStep calls w, AddsFresh t) ↔
      (secondsRead calls w).Nodup ∧
        ∀ now ∈ secondsRead calls w, ¬ Stored (generateContainerId now) w := by
  induction calls generalizing w with
  | nil => simp [transitions, secondsRead]
  | cons call calls ih =>
    rw [transitions, List.forall_mem_cons, ih, addsFresh_iff, secondsRead_cons]
    have hstored : ∀ now, ¬ Stored (generateContainerId now) (createStep call w).2 ↔
        ¬ Stored (generateContainerId now) w ∧ (GoesThrough call.2 w → now ≠ call.2.now) := by
      intro now
      rw [stored_createStep, not_or, not_and]
      refine and_congr_right fun _ => forall_congr' fun _ => not_congr ?_
      exact ⟨generateContainerId_inj, fun h => by rw [h]⟩
    by_cases hgo : GoesThrough call.2 w
    · simp only [hgo, if_true, forall_const, List.nodup_cons, List.forall_mem_cons, hstored]
      constructor
      · rintro ⟨hfresh, hnodup, hall⟩
        exact ⟨⟨fun hmem => (hall _ hmem).2 rfl, hnodup⟩, hfresh, fun now h => (hall now h).1⟩
      · rintro ⟨⟨hnot, hnodup⟩, hfresh, hall⟩
        refine ⟨hfresh, hnodup, fun now h => ⟨hall now h, ?_⟩⟩
        rintro rfl
        exact hnot h
    · simp only [hgo, if_false, false_implies, true_and, hstored, and_true]

/-- The three directories of the container system, empty. -/
def emptyWorld : World where
  fs := ofEntries
    [([], .dir), (["tmp".toList], .dir), (storageDir, .dir), (metadataDir, .dir),
      (logDir, .dir)] (by decide)
  cwd := []
  children := []
  signals := []

/-- A request for a container of this name. -/
def request (name : String) : CreateArgs where
  name := some name.toList
  image := "ubuntu".toList
  command := none
  workingDir := none
  envVars := none
  portMappings := none
  volumeMappings := none
  interactive := 0
  tty := 0
  detach := 1

/-- One second, with nothing denied. -/
def oneSecond : CreateEnv where
  now := 1705230833
  createdAt := 1705230833
  mkdirDenied := false
  rootfsDenied := false
  writeDenied := false

/-- Two requests in the same second: the second one overwrites the
record of the first. -/
theorem same_second_loses_first : ¬ ∀ t ∈ transitions createStep
    [(request "web", oneSecond), (request "db", oneSecond)] emptyWorld, AddsFresh t := by
  intro h
  have hfirst : GoesThrough oneSecond emptyWorld := by decide
  have hsecond : GoesThrough oneSecond (createStep (request "web", oneSecond) emptyWorld).2 := by
    decide
  have hstored := (stored_createStep (request "web", oneSecond) emptyWorld _).mpr
    (Or.inr ⟨hfirst, rfl⟩)
  have hfresh := h (transition createStep (request "db", oneSecond)
    (createStep (request "web", oneSecond) emptyWorld).2) (by simp [transitions])
  exact (addsFresh_iff _ _).mp hfresh hsecond hstored

end DockerClone.Container
