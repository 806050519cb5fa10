/-
DockerClone.Daemon.InitTheorems — storage initialisation as a
transaction.

Both loops make directories of `/tmp` one after the other. The container
loop undoes the ones before a failure, counting those it found as well:
the rollback removes an empty directory whoever made it. The image loop
passes over its second directory and undoes nothing.

`createDirectories_cases` and `node_rollbackDirectories` say what the
container loop and its rollback do to every path; the image loop has two
steps and is taken step by step.
-/
import DockerClone.Daemon.StartupTheorems

namespace DockerClone.Daemon

open DockerClone.CLib DockerClone.Os DockerClone.Os.FileSystem DockerClone.Image
  DockerClone.Container

/-! ## 1. One directory -/

/-- The path a directory string names. -/
def place (dir : String) : Path := normalize dir.toList

/-- A directory of `/tmp`. -/
def InTmp (dir : String) : Prop := ∃ n, Ordinary n ∧ dir.toList = absPath (tmp ++ [n])

theorem InTmp.place_eq {dir : String} (h : InTmp dir) :
    ∃ n, Ordinary n ∧ place dir = tmp ++ [n] ∧ dir.toList = absPath (tmp ++ [n]) := by
  obtain ⟨n, hn, hdir⟩ := h
  refine ⟨n, hn, ?_, hdir⟩
  rw [place, hdir, normalize_absPath]
  intro m hm
  rcases List.mem_append.mp hm with hm | hm
  · exact ordinary_tmp m hm
  · rwa [List.mem_singleton.mp hm]

section Step

variable {dir : String} {fs fs' : FileSystem} {cwd q : Path} {denied : Bool} (h : InTmp dir)

include h

theorem place_ne_tmp : tmp ≠ place dir := by
  obtain ⟨n, -, hplace, -⟩ := h.place_eq
  rw [hplace]
  intro he
  have hlen := congrArg List.length he
  simp at hlen

/-- No storage directory lies in another. -/
theorem place_ne_below {other : String} (hother : InTmp other) (n : Name) :
    place other ++ [n] ≠ place dir := by
  obtain ⟨m, -, hplace, -⟩ := h.place_eq
  obtain ⟨k, -, hplace', -⟩ := hother.place_eq
  rw [hplace, hplace']
  intro he
  have hlen := congrArg List.length he
  simp at hlen

/-- A tolerated `mkdir` puts a directory where nothing was. -/
theorem node_mkdirExistOk (hmk : fs.mkdirExistOk cwd dir.toList denied = some fs') (q : Path) :
    fs'.node q = if q = place dir ∧ fs.node q = none then some .dir else fs.node q := by
  obtain ⟨n, hn, hplace, hdir⟩ := h.place_eq
  rw [hdir] at hmk
  rw [hplace]
  exact node_mkdirExistOk_absPath ordinary_tmp hn hmk q

/-- What a `rmdir` of the rollback leaves. -/
def afterRmdir (cwd : Path) (denied : Bool) (fs : FileSystem) (dir : String) : FileSystem :=
  match fs.rmdir cwd dir.toList denied with
  | .ok fs => fs
  | .error _ => fs

/-- It removes an empty directory. -/
theorem node_afterRmdir (htmp : fs.node tmp = some .dir) (q : Path) :
    (afterRmdir cwd denied fs dir).node q
      = if q = place dir ∧ denied = false ∧ fs.node q = some .dir ∧ fs.isEmptyDir q = true
        then none else fs.node q := by
  obtain ⟨n, hn, hplace, hdir⟩ := h.place_eq
  have hres : fs.resolve cwd dir.toList = .ok (place dir) := by
    rw [hdir, hplace]
    exact resolve_absPath ordinary_tmp hn htmp
  have hroot : place dir ≠ [] := by
    rw [hplace]
    simp
  unfold afterRmdir rmdir
  cases denied with
  | true => simp
  | false =>
    rw [if_neg Bool.false_ne_true, hres]
    simp only [true_and]
    by_cases hnone : fs.node (place dir) = none
    · rw [if_pos hnone, if_neg]
      rintro ⟨rfl, hd, -⟩
      rw [hnone] at hd
      simp at hd
    · rw [if_neg hnone]
      by_cases hd : fs.node (place dir) = some .dir
      · rw [if_neg (not_not_intro hd), dif_neg hroot]
        by_cases he : fs.isEmptyDir (place dir) = true
        · rw [dif_pos he]
          simp only [node_keepOnly]
          by_cases hq : q = place dir
          · simp [hq, hd, he]
          · simp [hq]
        · rw [dif_neg he, if_neg]
          rintro ⟨rfl, -, hempty⟩
          exact he hempty
      · rw [if_pos hd, if_neg]
        rintro ⟨rfl, hdir', -⟩
        exact hd hdir'

end Step

/-! ## 2. The rollback -/

theorem rollbackDirectories_cons (cwd : Path) (rmdirDenied : String → Bool) (dir : String)
    (dirs : List String) (fs : FileSystem) :
    rollbackDirectories cwd rmdirDenied (dir :: dirs) fs
      = rollbackDirectories cwd rmdirDenied dirs
          (afterRmdir cwd (rmdirDenied dir) fs dir) := by
  rw [rollbackDirectories, afterRmdir]
  cases fs.rmdir cwd dir.toList (rmdirDenied dir) <;> rfl

/-- The rollback removes the empty ones among its directories, unless
their `rmdir` fails. -/
theorem node_rollbackDirectories (cwd : Path) (rmdirDenied : String → Bool) :
    ∀ (dirs : List String) (fs : FileSystem), (∀ d ∈ dirs, InTmp d) → fs.node tmp = some .dir →
      ∀ q, (rollbackDirectories cwd rmdirDenied dirs fs).node q
        = if (∃ d ∈ dirs, q = place d ∧ rmdirDenied d = false) ∧ fs.node q = some .dir ∧
            fs.isEmptyDir q = true then none else fs.node q
  | [], fs, _, _, q => by simp [rollbackDirectories]
  | dir :: dirs, fs, hdirs, htmp, q => by
      have hdir := hdirs dir List.mem_cons_self
      have hrest := fun d hd => hdirs d (List.mem_cons_of_mem dir hd)
      have hnode : ∀ r, (afterRmdir cwd (rmdirDenied dir) fs dir).node r
          = if r = place dir ∧ rmdirDenied dir = false ∧ fs.node r = some .dir ∧
              fs.isEmptyDir r = true then none else fs.node r :=
        node_afterRmdir hdir htmp
      have htmp' : (afterRmdir cwd (rmdirDenied dir) fs dir).node tmp = some .dir := by
        rw [hnode, if_neg (fun hc => place_ne_tmp hdir hc.1), htmp]
      rw [rollbackDirectories_cons,
        node_rollbackDirectories cwd rmdirDenied dirs _ hrest htmp' q, hnode q]
      by_cases hgone : q = place dir ∧ rmdirDenied dir = false ∧ fs.node q = some .dir ∧
          fs.isEmptyDir q = true
      · rw [if_pos hgone, if_neg (by simp), if_pos]
        exact ⟨⟨dir, List.mem_cons_self, hgone.1, hgone.2.1⟩, hgone.2.2⟩
      · rw [if_neg hgone]
        by_cases hlater : ∃ d ∈ dirs, q = place d ∧ rmdirDenied d = false
        · -- no other removal changes what lies directly below
          obtain ⟨d, hd, rfl, hgranted⟩ := hlater
          have hempty : (afterRmdir cwd (rmdirDenied dir) fs dir).isEmptyDir (place d) = true ↔
              fs.isEmptyDir (place d) = true := by
            rw [isEmptyDir_iff, isEmptyDir_iff]
            refine forall_congr' fun n => ?_
            rw [hnode, if_neg (fun hc => place_ne_below hdir (hrest d hd) n hc.1)]
          have hsome : ∃ d' ∈ dirs, place d = place d' ∧ rmdirDenied d' = false :=
            ⟨d, hd, rfl, hgranted⟩
          have hsome' : ∃ d' ∈ dir :: dirs, place d = place d' ∧ rmdirDenied d' = false :=
            ⟨d, List.mem_cons_of_mem dir hd, rfl, hgranted⟩
          simp only [hsome, hsome', hempty]
        · rw [if_neg (fun hc => hlater hc.1), if_neg]
          rintro ⟨⟨d, hd, hq, hgranted⟩, hfound⟩
          rcases List.mem_cons.mp hd with rfl | hd
          · exact hgone ⟨hq, hgranted, hfound⟩
          · exact hlater ⟨d, hd, hq, hgranted⟩

/-! ## 3. The loop -/

/-- The directories of a list are there, and nothing else changed. -/
def Made (dirs : List String) (fs fs' : FileSystem) : Prop :=
  ∀ q, fs'.node q = if (∃ d ∈ dirs, q = place d) ∧ fs.node q = none then some .dir else fs.node q

/-- The directories made before the first failure. -/
def madeBefore (mkdirDenied : String → Bool) (dirs : List String) : List String :=
  dirs.takeWhile (fun d => !mkdirDenied d)

theorem made_cons {dir : String} {dirs : List String} {fs fs₁ fs' : FileSystem}
    (hfirst : ∀ q, fs₁.node q = if q = place dir ∧ fs.node q = none then some .dir else fs.node q)
    (hrest : Made dirs fs₁ fs') : Made (dir :: dirs) fs fs' := by
  intro q
  have hcons : (∃ d ∈ dir :: dirs, q = place d) ↔ q = place dir ∨ ∃ d ∈ dirs, q = place d := by
    simp
  simp only [hrest q, hfirst q, hcons]
  by_cases hnone : fs.node q = none
  · by_cases hq : q = place dir
    · have hmade : (if q = place dir ∧ fs.node q = none then some Node.dir else fs.node q)
          = some .dir := if_pos ⟨hq, hnone⟩
      rw [hmade, if_neg (by simp), if_pos ⟨Or.inl hq, hnone⟩]
    · simp [hq]
  · simp [hnone]

theorem made_nil (fs : FileSystem) : Made [] fs fs := fun q => by simp

/-- The loop makes every directory, or fails at the first one that is
denied and rolls back. -/
theorem createDirectories_cases (cwd : Path) (mkdirDenied rmdirDenied : String → Bool) :
    ∀ (dirs made : List String) (fs : FileSystem), (∀ d ∈ dirs, InTmp d) →
      fs.node tmp = some .dir →
      ((∀ d ∈ dirs, mkdirDenied d = false) ∧ ∃ fs', Made dirs fs fs' ∧
        Container.createDirectories cwd mkdirDenied rmdirDenied made dirs fs = (0, fs')) ∨
      ((∃ d ∈ dirs, mkdirDenied d = true) ∧ ∃ fs', Made (madeBefore mkdirDenied dirs) fs fs' ∧
        Container.createDirectories cwd mkdirDenied rmdirDenied made dirs fs
          = (-1, rollbackDirectories cwd rmdirDenied (made ++ madeBefore mkdirDenied dirs) fs'))
  | [], made, fs, _, _ => Or.inl ⟨by simp, fs, fun q => by simp, rfl⟩
  | dir :: dirs, made, fs, hdirs, htmp => by
      have hdir := hdirs dir List.mem_cons_self
      have hrest := fun d hd => hdirs d (List.mem_cons_of_mem dir hd)
      obtain ⟨n, hn, -, hpath⟩ := hdir.place_eq
      rcases mkdirExistOk_step hpath hn fs cwd htmp with
        ⟨hdenied, hnone⟩ | ⟨hgranted, fs₁, hsome, htmp₁⟩
      · refine Or.inr ⟨⟨dir, List.mem_cons_self, hdenied⟩, fs, fun q => ?_, ?_⟩
        · simp [madeBefore, hdenied]
        · rw [Container.createDirectories, hnone]
          simp [madeBefore, hdenied]
      · have hfirst := node_mkdirExistOk hdir hsome
        have hbefore : madeBefore mkdirDenied (dir :: dirs)
            = dir :: madeBefore mkdirDenied dirs := by
          simp [madeBefore, hgranted]
        rw [Container.createDirectories, hsome, hbefore]
        simp only
        rcases createDirectories_cases cwd mkdirDenied rmdirDenied dirs (made ++ [dir]) fs₁ hrest
          htmp₁ with ⟨hall, fs', hmade, hresult⟩ | ⟨⟨d, hd, hdenied⟩, fs', hmade, hresult⟩
        · refine Or.inl ⟨?_, fs', made_cons hfirst hmade, hresult⟩
          rw [List.forall_mem_cons]
          exact ⟨hgranted, hall⟩
        · refine Or.inr ⟨⟨d, List.mem_cons_of_mem dir hd, hdenied⟩, fs', made_cons hfirst hmade, ?_⟩
          rw [hresult, List.append_assoc, List.singleton_append]

/-! ## 4. All or nothing -/

/-- After a run that returned 0 the directories exist, and after one that
returned -1 the same directories exist as before. -/
structure AllOrNothing (dirs : List String) (fs : FileSystem) (run : Int × FileSystem) : Prop where
  all : run.1 = 0 → ∀ d ∈ dirs, run.2.node (place d) = some .dir
  nothing : run.1 = -1 → ∀ q, run.2.node q = some .dir ↔ fs.node q = some .dir

/-- No file stands in the place of a directory. -/
def NoFile (fs : FileSystem) (dir : String) : Prop :=
  ∀ content, fs.node (place dir) ≠ some (.file content)

/-- The rollback leaves a directory as it was: it can remove one that was
not there, and cannot remove an empty one that was. -/
def Undone (rmdirDenied : String → Bool) (fs : FileSystem) (dir : String) : Prop :=
  (fs.node (place dir) = none → rmdirDenied dir = false) ∧
  (fs.node (place dir) = some .dir → fs.isEmptyDir (place dir) = true → rmdirDenied dir = true)

/-- When the container loop is all or nothing. -/
def LoopSafe (mkdirDenied rmdirDenied : String → Bool) (dirs : List String) (fs : FileSystem) :
    Prop :=
  fs.node tmp = some .dir →
    ((∀ d ∈ dirs, mkdirDenied d = false) → ∀ d ∈ dirs, NoFile fs d) ∧
    ((∃ d ∈ dirs, mkdirDenied d = true) →
      ∀ d ∈ madeBefore mkdirDenied dirs, Undone rmdirDenied fs d)

theorem noFile_iff {dirs : List String} {fs fs' : FileSystem} (hmade : Made dirs fs fs')
    {dir : String} (hdir : dir ∈ dirs) : fs'.node (place dir) = some .dir ↔ NoFile fs dir := by
  rw [hmade, NoFile]
  cases hnode : fs.node (place dir) with
  | none => simpa using ⟨dir, hdir, rfl⟩
  | some x =>
    cases x with
    | dir => simp
    | file content => simp

/-- One directory after the rollback. -/
theorem undone_iff {rmdirDenied : String → Bool} {cwd : Path} {dirs : List String}
    {fs fs' : FileSystem} (hdirs : ∀ d ∈ dirs, InTmp d) (hnodup : (dirs.map place).Nodup)
    (htmp : fs'.node tmp = some .dir) (hmade : Made dirs fs fs') {dir : String}
    (hdir : dir ∈ dirs) :
    ((rollbackDirectories cwd rmdirDenied dirs fs').node (place dir) = some .dir ↔
      fs.node (place dir) = some .dir) ↔ Undone rmdirDenied fs dir := by
  have hgranted : (∃ d ∈ dirs, place dir = place d ∧ rmdirDenied d = false) ↔
      rmdirDenied dir = false := by
    constructor
    · rintro ⟨d, hd, hplace, hgranted⟩
      rwa [List.inj_on_of_nodup_map hnodup hdir hd hplace]
    · exact fun hgranted => ⟨dir, hdir, rfl, hgranted⟩
  have hempty : fs'.isEmptyDir (place dir) = true ↔ fs.isEmptyDir (place dir) = true := by
    rw [isEmptyDir_iff, isEmptyDir_iff]
    refine forall_congr' fun n => ?_
    rw [hmade, if_neg]
    rintro ⟨⟨d, hd, hplace⟩, -⟩
    exact place_ne_below (hdirs d hd) (hdirs dir hdir) n hplace
  have hthere : ∃ d ∈ dirs, place dir = place d := ⟨dir, hdir, rfl⟩
  rw [node_rollbackDirectories cwd rmdirDenied dirs fs' hdirs htmp, Undone]
  simp only [hgranted, hempty, hmade (place dir)]
  cases hnode : fs.node (place dir) with
  | none =>
    have hbelow : fs.isEmptyDir (place dir) = true :=
      (isEmptyDir_iff fs _).mpr fun n => fs.node_below_missing hnode [n]
    simp [hthere, hbelow]
  | some x =>
    cases x with
    | dir => cases rmdirDenied dir <;> simp
    | file content => simp

theorem loop_all_or_nothing_iff (cwd : Path) (mkdirDenied rmdirDenied : String → Bool)
    {dirs : List String} (hne : dirs ≠ []) (hdirs : ∀ d ∈ dirs, InTmp d)
    (hnodup : (dirs.map place).Nodup) (fs : FileSystem) :
    AllOrNothing dirs fs (Container.createDirectories cwd mkdirDenied rmdirDenied [] dirs fs) ↔
      LoopSafe mkdirDenied rmdirDenied dirs fs := by
  by_cases htmp : fs.node tmp = some .dir
  · rw [LoopSafe]
    simp only [htmp, true_implies]
    rcases createDirectories_cases cwd mkdirDenied rmdirDenied dirs [] fs hdirs htmp with
      ⟨hall, fs', hmade, hresult⟩ | ⟨hdenied, fs', hmade, hresult⟩
    · have hsome : ¬ ∃ d ∈ dirs, mkdirDenied d = true := by
        rintro ⟨d, hd, hdenied⟩
        rw [hall d hd] at hdenied
        simp at hdenied
      rw [hresult]
      constructor
      · intro h
        exact ⟨fun _ d hd => (noFile_iff hmade hd).mp (h.all rfl d hd), fun h => absurd h hsome⟩
      · intro h
        exact ⟨fun _ d hd => (noFile_iff hmade hd).mpr (h.1 hall d hd), fun h => by simp at h⟩
    · have hsome : ¬ ∀ d ∈ dirs, mkdirDenied d = false := by
        obtain ⟨d, hd, hdenied⟩ := hdenied
        intro hall
        rw [hall d hd] at hdenied
        simp at hdenied
      have hbefore : ∀ d ∈ madeBefore mkdirDenied dirs, InTmp d :=
        fun d hd => hdirs d ((List.takeWhile_sublist _).subset hd)
      have hdistinct : ((madeBefore mkdirDenied dirs).map place).Nodup :=
        hnodup.sublist ((List.takeWhile_sublist _).map place)
      have htmp' : fs'.node tmp = some .dir := by
        rw [hmade, if_neg, htmp]
        rw [htmp]
        simp
      rw [hresult, List.nil_append]
      constructor
      · intro h
        refine ⟨fun hall => absurd hall hsome, fun _ d hd => ?_⟩
        exact (undone_iff hbefore hdistinct htmp' hmade hd).mp (h.nothing rfl (place d))
      · intro h
        refine ⟨fun h => by simp at h, fun _ q => ?_⟩
        by_cases hq : ∃ d ∈ madeBefore mkdirDenied dirs, q = place d
        · obtain ⟨d, hd, rfl⟩ := hq
          exact (undone_iff hbefore hdistinct htmp' hmade hd).mpr (h.2 hdenied d hd)
        · -- no directory of the loop
          simp only
          rw [node_rollbackDirectories cwd rmdirDenied _ fs' hbefore htmp', if_neg, hmade q,
            if_neg (fun hc => hq hc.1)]
          rintro ⟨⟨d, hd, hplace, -⟩, -⟩
          exact hq ⟨d, hd, hplace⟩
  · -- nothing can be made without `/tmp`
    obtain ⟨dir, rest, rfl⟩ := List.exists_cons_of_ne_nil hne
    obtain ⟨n, hn, -, hpath⟩ := (hdirs dir List.mem_cons_self).place_eq
    rw [Container.createDirectories, mkdirExistOk_no_tmp hpath hn fs cwd _ htmp]
    exact iff_of_true ⟨fun h => by simp at h, fun _ _ => Iff.rfl⟩ (fun h => absurd h htmp)

/-! ## 5. The two loops -/

/-- The directories of the two loops. -/
def containerStrings : List String :=
  [CONTAINER_STORAGE_DIR, CONTAINER_METADATA_DIR, CONTAINER_LOG_DIR]

def imageStrings : List String := [IMAGE_STORAGE_DIR, LAYER_STORAGE_DIR, METADATA_DIR]

/-- When the image loop is all or nothing. Its second directory is never
made, and a failure at the third leaves the first. -/
def ImageLoopSafe (mkdirDenied : String → Bool) (fs : FileSystem) : Prop :=
  fs.node tmp = some .dir → mkdirDenied IMAGE_STORAGE_DIR = false →
    (mkdirDenied METADATA_DIR = false → NoFile fs IMAGE_STORAGE_DIR ∧
      fs.node (place LAYER_STORAGE_DIR) = some .dir ∧ NoFile fs METADATA_DIR) ∧
    (mkdirDenied METADATA_DIR = true → fs.node (place IMAGE_STORAGE_DIR) ≠ none)

theorem inTmp_containerStrings : ∀ d ∈ containerStrings, InTmp d := by
  simp only [containerStrings, List.forall_mem_cons]
  exact ⟨⟨"docker-containers".toList, by decide, by decide⟩,
    ⟨"docker-container-metadata".toList, by decide, by decide⟩,
    ⟨"docker-logs".toList, by decide, by decide⟩, by simp⟩

theorem inTmp_imageStrings : ∀ d ∈ imageStrings, InTmp d := by
  simp only [imageStrings, List.forall_mem_cons]
  exact ⟨⟨"docker-images".toList, by decide, by decide⟩,
    ⟨"docker-layers".toList, by decide, by decide⟩,
    ⟨"docker-metadata".toList, by decide, by decide⟩, by simp⟩

theorem imageLoop_all_or_nothing_iff (cwd : Path) (mkdirDenied : String → Bool)
    (fs : FileSystem) :
    AllOrNothing imageStrings fs (createDirectoryStructure cwd mkdirDenied fs) ↔
      ImageLoopSafe mkdirDenied fs := by
  have himage : InTmp IMAGE_STORAGE_DIR := inTmp_imageStrings _ (by simp [imageStrings])
  have hmetadata : InTmp METADATA_DIR := inTmp_imageStrings _ (by simp [imageStrings])
  have hdistinct : (imageStrings.map place).Nodup := by decide
  rw [createDirectoryStructure, Image.createDirectories]
  by_cases htmp : fs.node tmp = some .dir
  · rw [ImageLoopSafe]
    simp only [htmp, true_implies]
    rcases mkdirExistOk_step imageDir_path (by decide) fs cwd htmp with
      ⟨hdenied, hnone⟩ | ⟨hgranted, fs₁, hsome, htmp₁⟩
    · -- nothing was made
      rw [hnone, hdenied]
      exact iff_of_true ⟨fun h => by simp at h, fun _ _ => Iff.rfl⟩ (by simp)
    · have hnode₁ := node_mkdirExistOk himage hsome
      rw [hsome, hgranted]
      simp only [true_implies, Image.createDirectories]
      rcases mkdirExistOk_step imageMetadataDir_path (by decide) fs₁ cwd htmp₁ with
        ⟨hdenied₂, hnone₂⟩ | ⟨hgranted₂, fs₂, hsome₂, -⟩
      · rw [hnone₂, hdenied₂]
        simp only [Bool.true_eq_false, false_implies, true_and, true_implies]
        constructor
        · intro h hnone
          have hleft := (h.nothing rfl (place IMAGE_STORAGE_DIR)).mp
            (by rw [hnode₁, if_pos ⟨rfl, hnone⟩])
          rw [hnone] at hleft
          simp at hleft
        · intro hthere
          refine ⟨fun h => by simp at h, fun _ q => ?_⟩
          simp only
          rw [hnode₁, if_neg]
          rintro ⟨rfl, hnone⟩
          exact hthere hnone
      · have hmade : Made [IMAGE_STORAGE_DIR, METADATA_DIR] fs fs₂ :=
          made_cons hnode₁ (made_cons (node_mkdirExistOk hmetadata hsome₂) (made_nil fs₂))
        have hlayer : fs₂.node (place LAYER_STORAGE_DIR) = fs.node (place LAYER_STORAGE_DIR) := by
          rw [hmade, if_neg]
          rintro ⟨⟨d, hd, hplace⟩, -⟩
          have hlayer : LAYER_STORAGE_DIR ∈ imageStrings := by simp [imageStrings]
          have hd' : d ∈ imageStrings := by
            simp only [List.mem_cons, List.not_mem_nil, or_false] at hd
            rcases hd with rfl | rfl <;> simp [imageStrings]
          have heq := List.inj_on_of_nodup_map hdistinct hlayer hd' hplace
          rw [← heq] at hd
          exact absurd hd (by decide)
        have himage := noFile_iff hmade (List.mem_cons_self)
        have hmetadata := noFile_iff hmade (List.mem_cons_of_mem _ List.mem_cons_self)
        rw [hsome₂, hgranted₂]
        simp only [true_implies, Bool.false_eq_true, false_implies, and_true]
        rw [← himage, ← hmetadata, ← hlayer]
        constructor
        · intro h
          exact ⟨h.all rfl _ (by simp [imageStrings]), h.all rfl _ (by simp [imageStrings]),
            h.all rfl _ (by simp [imageStrings])⟩
        · rintro ⟨h₁, h₂, h₃⟩
          refine ⟨fun _ d hd => ?_, fun h => by simp at h⟩
          simp only [imageStrings, List.mem_cons, List.not_mem_nil, or_false] at hd
          rcases hd with rfl | rfl | rfl
          · exact h₁
          · exact h₂
          · exact h₃
  · rw [mkdirExistOk_no_tmp imageDir_path (by decide) fs cwd _ htmp]
    exact iff_of_true ⟨fun h => by simp at h, fun _ _ => Iff.rfl⟩ (fun h => absurd h htmp)

/-- Exactly when both initialisations are all or nothing. -/
theorem storage_initialised_whole_iff (cwd : Path) (mkdirDenied rmdirDenied : String → Bool)
    (fs : FileSystem) :
    (AllOrNothing imageStrings fs (createDirectoryStructure cwd mkdirDenied fs) ↔
      ImageLoopSafe mkdirDenied fs) ∧
    (AllOrNothing containerStrings fs
        (createContainerDirectories cwd mkdirDenied rmdirDenied fs) ↔
      LoopSafe mkdirDenied rmdirDenied containerStrings fs) :=
  ⟨imageLoop_all_or_nothing_iff cwd mkdirDenied fs,
    loop_all_or_nothing_iff cwd mkdirDenied rmdirDenied (by simp [containerStrings])
      inTmp_containerStrings (by decide) fs⟩

/-- `/tmp`, empty. -/
def emptyTmp : FileSystem := ofEntries [([], .dir), (tmp, .dir)] (by decide)

/-- `/tmp` with an empty directory for container storage. -/
def storageMade : FileSystem :=
  ofEntries [([], .dir), (tmp, .dir), (place CONTAINER_STORAGE_DIR, .dir)] (by decide)

/-- Nothing is denied, and yet no directory for layers is made. The other
loop removes a directory it found when its last `mkdir` fails. -/
theorem layers_not_made :
    ¬ AllOrNothing imageStrings emptyTmp
      (createDirectoryStructure [] (fun _ => false) emptyTmp) ∧
    ¬ AllOrNothing containerStrings storageMade
      (createContainerDirectories [] (fun d => d == CONTAINER_LOG_DIR) (fun _ => false)
        storageMade) := by
  constructor
  · intro h
    have hsafe := (imageLoop_all_or_nothing_iff [] (fun _ => false) emptyTmp).mp h
    have hlayers := (hsafe (by decide) rfl).1 rfl
    exact absurd hlayers.2.1 (by decide)
  · intro h
    have hsafe := (loop_all_or_nothing_iff [] (fun d => d == CONTAINER_LOG_DIR) (fun _ => false)
      (List.cons_ne_nil _ _) inTmp_containerStrings (by decide) storageMade).mp h
    have hundone := (hsafe (by decide)).2 ⟨CONTAINER_LOG_DIR, by simp, by decide⟩
      CONTAINER_STORAGE_DIR (by decide)
    exact absurd (hundone.2 (by decide) (by decide)) (by decide)

end DockerClone.Daemon
