/-
DockerClone.Container.ChildTheorems — where a container's command runs.

The tmpfs that becomes the root is empty, and the old root is taken away
or hangs below a directory called `old-root`. So once the pivot has
succeeded there is no `/bin/bash`, and the child returns 0 without having
run anything. Since a pivot that failed is only reported, the command
does run then, on the file system of the host (`child_executes_iff`).

`Entered` is what the mounts can have come to when the command's turn
is: the tmpfs holds no file, the host's files are as they were.
-/
import DockerClone.Container.Child
import DockerClone.Container.LifecycleTheorems

namespace DockerClone.Container

open DockerClone.CLib DockerClone.Os FileSystem

/-! ## 1. The shell -/

def shellPath : Path := ["bin".toList, "bash".toList]

def oldRootDir : Path := ["old-root".toList]

theorem node_tmpfs (r : Path) : tmpfs.node r = if r = [] then some .dir else none := by
  by_cases hr : r = []
  · rw [hr]
    rfl
  · rw [if_neg hr, node]
    simpa [tmpfs, ofEntries] using hr

/-- What the mounts are when a container's command is to be executed. -/
structure Entered (host : FileSystem) (v : MountView) : Prop where
  files : SameFiles host v.lower
  empty : ∀ r c, v.upper.node r ≠ some (.file c)
  covering : ∀ p, v.layout = .covering p → p ≠ [] ∧ host.node p = some .dir
  turned : ∀ q, v.layout = .turned q → q = oldRootDir

section Shell

variable {host : FileSystem} {v : MountView} (h : Entered host v)

include h

/-- The shell is seen where it is the host's, and the tmpfs is neither
the root nor over the shell's directory. -/
theorem node_shell_iff (c : List Char) : v.node shellPath = some (.file c) ↔
    v.layout.isTurned = false ∧ v.layout ≠ .covering ["bin".toList] ∧
      host.node shellPath = some (.file c) := by
  have hhost := h.files shellPath c
  unfold MountView.node MountView.place
  cases hlayout : v.layout with
  | plain => simpa [Layout.isTurned] using hhost
  | covering p =>
    obtain ⟨hne, hdir⟩ := h.covering p hlayout
    simp only [Layout.isTurned, ne_eq, Layout.covering.injEq, true_and]
    split_ifs with hpre
    · refine iff_of_false (h.empty _ _) ?_
      rintro ⟨hbin, hfile⟩
      -- over the shell itself there is no mount, it is no directory
      obtain ⟨x, rest, rfl⟩ := List.exists_cons_of_ne_nil hne
      obtain ⟨rfl, hrest⟩ := List.cons_prefix_cons.mp hpre
      cases rest with
      | nil => exact hbin rfl
      | cons y rest =>
        obtain ⟨rfl, hnil⟩ := List.cons_prefix_cons.mp hrest
        obtain rfl := List.prefix_nil.mp hnil
        rw [shellPath, hdir] at hfile
        simp at hfile
    · have hbin : p ≠ ["bin".toList] := by
        rintro rfl
        exact hpre ⟨["bash".toList], rfl⟩
      rw [hhost]
      exact ⟨fun hfile => ⟨hbin, hfile⟩, fun hboth => hboth.2⟩
  | turned q =>
    obtain rfl := h.turned q hlayout
    have hpre : ¬ oldRootDir <+: shellPath := by decide
    simp [Layout.isTurned, hpre, h.empty]
  | alone => simp [Layout.isTurned, h.empty]

theorem findsShell_iff (cwd : Path) : findsShell v cwd = true ↔
    v.layout.isTurned = false ∧ v.layout ≠ .covering ["bin".toList] ∧
      ∃ c, host.node shellPath = some (.file c) := by
  have hordinary : ∀ m ∈ shellPath, Ordinary m := by decide
  have hraw : "/bin/bash".toList = absPath shellPath := by decide
  have hwalk : walkIn v.node [] shellPath
      = if v.node ["bin".toList] = some .dir then some shellPath else none := by
    rw [shellPath, walkIn, if_pos v.node_root, if_neg (by decide), if_neg (by decide),
      List.nil_append, walkIn]
    refine if_congr Iff.rfl ?_ rfl
    rw [if_neg (by decide), if_neg (by decide), walkIn]
    rfl
  have hseen : findsShell v cwd = true ↔
      v.node ["bin".toList] = some .dir ∧ ∃ c, v.node shellPath = some (.file c) := by
    rw [findsShell, hraw, MountView.resolve,
      resolveIn_absPath hordinary (by decide) v.node_root, hwalk]
    by_cases hbin : v.node ["bin".toList] = some .dir
    · rw [if_pos hbin]
      dsimp only
      cases hnode : v.node shellPath with
      | none => exact iff_of_false Bool.false_ne_true fun hseen => by simpa using hseen.2
      | some x =>
        cases x with
        | dir => exact iff_of_false Bool.false_ne_true fun hseen => by simpa using hseen.2
        | file c => exact iff_of_true rfl ⟨hbin, c, rfl⟩
    · rw [if_neg hbin]
      exact iff_of_false Bool.false_ne_true fun hseen => hbin hseen.1
  rw [hseen]
  constructor
  · rintro ⟨-, c, hc⟩
    obtain ⟨hturned, hover, hhost⟩ := (node_shell_iff h c).mp hc
    exact ⟨hturned, hover, c, hhost⟩
  · rintro ⟨hturned, hover, c, hhost⟩
    refine ⟨?_, c, (node_shell_iff h c).mpr ⟨hturned, hover, hhost⟩⟩
    have hfile := (h.files shellPath c).mpr hhost
    have hdir : v.lower.node ["bin".toList] = some .dir :=
      v.lower.node_parent (n := "bash".toList) (by rw [List.singleton_append, ← shellPath, hfile]; simp)
    unfold MountView.node MountView.place
    cases hlayout : v.layout with
    | plain => exact hdir
    | covering p =>
      have hpre : ¬ p <+: ["bin".toList] := by
        intro hpre
        obtain ⟨x, rest, rfl⟩ := List.exists_cons_of_ne_nil (h.covering p hlayout).1
        obtain ⟨rfl, hrest⟩ := List.cons_prefix_cons.mp hpre
        obtain rfl := List.prefix_nil.mp hrest
        exact hover hlayout
      dsimp only
      rw [if_neg hpre]
      exact hdir
    | turned q => simp [hlayout, Layout.isTurned] at hturned
    | alone => simp [hlayout, Layout.isTurned] at hturned

end Shell

/-! ## 2. The mounts -/

section Stages

variable {container : ContainerInfo} {env : ChildEnv} {cwd : Path} {host : FileSystem}
  {v : MountView}

/-- A call that fails leaves the mounts as they are. -/
theorem Entered.getD {made : Option MountView} (h : Entered host v)
    (hmade : ∀ v', made = some v' → Entered host v') : Entered host (made.getD v) := by
  cases hcase : made with
  | none => exact h
  | some v' => exact hmade v' hcase

/-- Calls that make or remove a directory. -/
theorem Entered.edit {r : Path} {v' : MountView} {change : FileSystem → Path → Option FileSystem}
    (hchange : ∀ {fs fs' : FileSystem} {q : Path}, change fs q = some fs' → SameFiles fs fs')
    (h : Entered host v) (hedit : v.edit r change = some v') : Entered host v' := by
  obtain ⟨hlower, hupper⟩ := MountView.keeps_edit hchange hedit
  have hlayout := (MountView.edit_some hedit).1
  refine ⟨h.files.trans hlower, fun q c => ?_, fun p => ?_, fun q => ?_⟩
  · exact fun hfile => h.empty q c ((hupper q c).mp hfile)
  · rw [hlayout]
    exact h.covering p
  · rw [hlayout]
    exact h.turned q

theorem entered_hostView (host : FileSystem) : Entered host (hostView host) where
  files := .refl host
  empty := by
    intro r c
    rw [hostView, node_tmpfs]
    split_ifs <;> simp
  covering := by simp [hostView]
  turned := by simp [hostView]

theorem resolve_hostView {raw : List Char} {p : Path} :
    (hostView host).resolve cwd raw = some p ↔ host.resolve cwd raw = .ok p := by
  have hnode : (hostView host).node = host.node := rfl
  rw [MountView.resolve, hnode, resolveIn_node]
  cases host.resolve cwd raw with
  | error e => simp [Except.toOption]
  | ok q => simp [Except.toOption]

/-- The tmpfs can be mounted over this directory. -/
structure MountsAt (container : ContainerInfo) (env : ChildEnv) (cwd : Path) (host : FileSystem)
    (p : Path) : Prop where
  granted : env.mountDenied = false
  resolved : host.resolve cwd (cstr container.rootfsPath) = .ok p
  below : p ≠ []
  dir : host.node p = some .dir

theorem mountRootfs_cases (container : ContainerInfo) (env : ChildEnv) (cwd : Path)
    (host : FileSystem) :
    (∃ p, MountsAt container env cwd host p ∧
      mountRootfs container env cwd (hostView host) = { hostView host with layout := .covering p }) ∨
    ((∀ p, ¬ MountsAt container env cwd host p) ∧
      mountRootfs container env cwd (hostView host) = hostView host) := by
  rw [mountRootfs]
  cases hmount : (hostView host).mount cwd (cstr container.rootfsPath) env.mountDenied with
  | none =>
    refine Or.inr ⟨fun p hp => ?_, rfl⟩
    rw [MountView.mount, hp.granted, resolve_hostView.mpr hp.resolved] at hmount
    have hdir : (hostView host).node p = some .dir := hp.dir
    have hplain : (hostView host).layout = .plain := rfl
    simp [hdir, hplain] at hmount
  | some v =>
    obtain ⟨hgranted, p, hp, hdir, -, rfl⟩ := MountView.mount_some hmount
    rw [Option.getD_some]
    by_cases hbelow : p = []
    · refine Or.inr ⟨fun q hq => ?_, by rw [if_pos hbelow]; rfl⟩
      have hsame := hq.resolved.symm.trans (resolve_hostView.mp hp)
      exact hq.below (by rw [Except.ok.inj hsame, hbelow])
    · exact Or.inl ⟨p, ⟨hgranted, resolve_hostView.mp hp, hbelow, hdir⟩, by rw [if_neg hbelow]⟩

theorem mountRootfs_layout {p : Path} :
    (mountRootfs container env cwd (hostView host)).layout = .covering p ↔
      MountsAt container env cwd host p := by
  obtain ⟨q, hq, heq⟩ | ⟨hnone, heq⟩ := mountRootfs_cases container env cwd host
  · rw [heq]
    constructor
    · rintro ⟨⟩
      exact hq
    · intro hp
      have hsame := hq.resolved.symm.trans hp.resolved
      rw [Except.ok.inj hsame]
  · rw [heq]
    exact iff_of_false (by simp [hostView]) (hnone p)

theorem entered_mountRootfs : Entered host (mountRootfs container env cwd (hostView host)) := by
  have hfirst := entered_hostView host
  obtain ⟨q, hq, heq⟩ | ⟨-, heq⟩ := mountRootfs_cases container env cwd host
  · rw [heq]
    refine ⟨hfirst.files, hfirst.empty, ?_, by simp⟩
    rintro p ⟨⟩
    exact ⟨hq.below, hq.dir⟩
  · rw [heq]
    exact hfirst

variable (container env cwd) in
theorem makeOldRoot_layout (v : MountView) :
    (makeOldRoot container env cwd v).layout = v.layout := by
  rw [makeOldRoot]
  cases hmkdir : v.mkdir cwd (oldRootPath container) env.mkdirDenied with
  | none => rfl
  | some v' =>
    obtain ⟨-, r, -, hedit⟩ := MountView.mkdir_some hmkdir
    exact (MountView.edit_some hedit).1

variable (container env cwd) in
theorem Entered.makeOldRoot (h : Entered host v) :
    Entered host (makeOldRoot container env cwd v) := by
  refine h.getD fun v' hmkdir => ?_
  obtain ⟨-, r, -, hedit⟩ := MountView.mkdir_some hmkdir
  exact h.edit FileSystem.sameFiles_addDir hedit

section Pivot

variable (hshort : (cstr container.rootfsPath).length + 9 < 256)

include hshort

theorem oldRootPath_eq :
    oldRootPath container = cstr container.rootfsPath ++ '/' :: "old-root".toList := by
  have hslash : "/old-root".toList = '/' :: "old-root".toList := by decide
  rw [oldRootPath, hslash, snprintf_of_lt]
  simpa using hshort

variable (env cwd) in
/-- A pivot puts the old root at `/old-root`. -/
theorem pivotRootfs_cases (v : MountView) :
    pivotRootfs container env cwd v = v ∨
      ∃ p, (env.pivotDenied || (env.shared && env.privateDenied)) = false ∧ v.layout = .covering p ∧
        v.resolve cwd (cstr container.rootfsPath) = some p ∧
        v.node (p ++ oldRootDir) = some .dir ∧
        pivotRootfs container env cwd v = { v with layout := .turned oldRootDir } := by
  rw [pivotRootfs]
  cases hpivot : v.pivotRoot cwd (cstr container.rootfsPath) (oldRootPath container)
      (env.pivotDenied || (env.shared && env.privateDenied)) with
  | none => exact Or.inl rfl
  | some v' =>
    obtain ⟨hgranted, p, r, hp, hr, hover, -, hdir, rfl⟩ := MountView.pivotRoot_some hpivot
    have hord : Ordinary "old-root".toList := by decide
    have hne : cstr container.rootfsPath ≠ [] := by
      intro hnil
      simp [hnil, MountView.resolve, resolveIn] at hp
    have hp' := hp
    rw [MountView.resolve] at hp hr
    rw [oldRootPath_eq hshort, resolveIn_concat hord _ hne, hp, Option.bind_some] at hr
    obtain ⟨-, hr⟩ := Option.ite_none_right_eq_some.mp hr
    obtain rfl := Option.some.inj hr
    refine Or.inr ⟨p, hgranted, hover, hp', hdir, ?_⟩
    rw [Option.getD_some, if_neg (by simp), List.drop_left]
    rfl

variable (env cwd) in
theorem Entered.pivotRootfs (h : Entered host v) :
    Entered host (pivotRootfs container env cwd v) := by
  obtain heq | ⟨p, -, -, -, -, heq⟩ := pivotRootfs_cases env cwd hshort v
  · rw [heq]
    exact h
  · rw [heq]
    refine ⟨h.files, h.empty, by simp, ?_⟩
    rintro q ⟨⟩
    rfl

end Pivot

variable (env cwd) in
theorem unmountOldRoot_cases (v : MountView) :
    unmountOldRoot env cwd v = v ∨
      (v.layout = .covering oldRootDir ∧ unmountOldRoot env cwd v = { v with layout := .plain }) ∨
      (v.layout = .turned oldRootDir ∧ unmountOldRoot env cwd v = { v with layout := .alone }) := by
  rw [unmountOldRoot]
  cases humount : v.umountDetach cwd "/old-root".toList env.umountDenied with
  | none => exact Or.inl rfl
  | some v' =>
    obtain ⟨p, hp, hcases⟩ := MountView.umountDetach_some humount
    have hraw : "/old-root".toList = absPath oldRootDir := by decide
    rw [hraw] at hp
    obtain rfl : p = oldRootDir := resolveIn_absPath_eq (by decide) (by decide) v.node_root hp
    exact Or.inr hcases

variable (env cwd) in
theorem Entered.unmountOldRoot (h : Entered host v) :
    Entered host (unmountOldRoot env cwd v) := by
  obtain heq | ⟨-, heq⟩ | ⟨-, heq⟩ := unmountOldRoot_cases env cwd v
  · rw [heq]
    exact h
  all_goals
    rw [heq]
    exact ⟨h.files, h.empty, by simp, by simp⟩

theorem removeOldRoot_layout (v : MountView) :
    (removeOldRoot env cwd v).layout = v.layout := by
  rw [removeOldRoot]
  cases hrmdir : v.rmdir cwd "/old-root".toList env.rmdirDenied with
  | none => rfl
  | some v' =>
    obtain ⟨-, r, -, hedit⟩ := MountView.rmdir_some hrmdir
    exact (MountView.edit_some hedit).1

theorem Entered.removeOldRoot (h : Entered host v) :
    Entered host (removeOldRoot env cwd v) := by
  refine h.getD fun v' hrmdir => ?_
  obtain ⟨-, r, -, hedit⟩ := MountView.rmdir_some hrmdir
  exact h.edit FileSystem.sameFiles_dropDir hedit

/-- Taking the old root away does not turn the mounts back. -/
theorem left_isTurned (v : MountView) :
    (removeOldRoot env cwd (unmountOldRoot env cwd v)).layout.isTurned = v.layout.isTurned := by
  rw [removeOldRoot_layout]
  obtain heq | ⟨hover, heq⟩ | ⟨hturned, heq⟩ := unmountOldRoot_cases env cwd v
  · rw [heq]
  · rw [heq, hover]
    rfl
  · rw [heq, hturned]
    rfl

theorem left_over {p : Path} (hp : p ≠ oldRootDir) (v : MountView) :
    (removeOldRoot env cwd (unmountOldRoot env cwd v)).layout = .covering p ↔ v.layout = .covering p := by
  rw [removeOldRoot_layout]
  obtain heq | ⟨hover, heq⟩ | ⟨hturned, heq⟩ := unmountOldRoot_cases env cwd v
  · rw [heq]
  · rw [heq, hover]
    exact iff_of_false (by simp) fun h => hp (Layout.covering.inj h).symm
  · rw [heq, hturned]
    exact iff_of_false (by simp) (by simp)

end Stages

/-! ## 3. The command -/

theorem executed_iff {container : ContainerInfo} {env : ChildEnv} {cwd : Path}
    {host : FileSystem} {argv : List (List Char)} :
    (childMain container env cwd host).outcome = .executed argv ↔
      argv = childArgv container ∧ env.execDenied = false ∧
        findsShell (childMain container env cwd host).view
          (childMain container env cwd host).cwd = true := by
  have hout : (childMain container env cwd host).outcome
      = if findsShell (childMain container env cwd host).view (childMain container env cwd host).cwd
          && !env.execDenied then .executed (childArgv container) else .returned 0 := rfl
  rw [hout]
  split
  · rename_i hruns
    obtain ⟨hfinds, hexec⟩ := Bool.and_eq_true_iff.mp hruns
    rw [ChildEnd.executed.injEq]
    exact ⟨fun h => ⟨h.symm, by simpa using hexec, hfinds⟩, fun h => h.1.symm⟩
  · rename_i hruns
    refine iff_of_false (by simp) fun h => hruns ?_
    rw [h.2.1, h.2.2]
    rfl

section Child

variable {container : ContainerInfo} (env : ChildEnv) (cwd : Path) (host : FileSystem)
  (hshort : (cstr container.rootfsPath).length + 9 < 256)

include hshort

theorem entered_childMain : Entered host (childMain container env cwd host).view := by
  have hmount : Entered host (mountRootfs container env cwd (hostView host)) :=
    entered_mountRootfs
  exact ((hmount.makeOldRoot _ _ _).pivotRootfs _ _ hshort).unmountOldRoot _ _ |>.removeOldRoot

/-- Short of a pivot the tmpfs is where it was mounted, unless that is
`/old-root`. -/
theorem childMain_over {p : Path} (hp : p ≠ oldRootDir)
    (hturned : (childMain container env cwd host).view.layout.isTurned = false) :
    (childMain container env cwd host).view.layout = .covering p ↔
      MountsAt container env cwd host p := by
  simp only [childMain] at hturned ⊢
  rw [left_isTurned] at hturned
  rw [left_over hp, ← mountRootfs_layout]
  obtain heq | ⟨q, -, -, -, -, heq⟩ := pivotRootfs_cases env cwd hshort
    (makeOldRoot container env cwd (mountRootfs container env cwd (hostView host)))
  · rw [heq, makeOldRoot_layout]
  · rw [heq] at hturned
    simp [Layout.isTurned] at hturned

end Child

/-- A host with a shell, a directory and the record of `web`. -/
def jailHost : FileSystem :=
  .ofEntries
    [([], .dir), (["bin".toList], .dir), (shellPath, .file []), (["jail".toList], .dir),
      (["tmp".toList], .dir), (metadataDir, .dir),
      (metadataFile "web".toList, .file (containerText freshRecord))] rfl

/-- Stale bytes that name the directory. -/
def jailStruct : ContainerInfo :=
  { ContainerInfo.zeroed with rootfsPath := store (zeros MAX_PATH_LEN) "/jail".toList }

/-- A child of whose calls only `pivot_root` can be denied. -/
def childOver (pivotDenied : Bool) : ChildEnv where
  sethostnameDenied := false
  shared := true
  privateDenied := false
  mountDenied := false
  mkdirDenied := false
  pivotDenied := pivotDenied
  chdirDenied := false
  umountDenied := false
  rmdirDenied := false
  execDenied := false

section Frame

variable {container : ContainerInfo} {env : ChildEnv} {cwd : Path} {host : FileSystem}

theorem mountRootfs_lower :
    (mountRootfs container env cwd (hostView host)).lower = host := by
  obtain ⟨q, -, heq⟩ | ⟨-, heq⟩ := mountRootfs_cases container env cwd host
  · rw [heq]
    rfl
  · rw [heq]
    rfl

variable (container env cwd host) in
theorem mountRootfs_unturned :
    (mountRootfs container env cwd (hostView host)).layout.isTurned = false := by
  obtain ⟨q, -, heq⟩ | ⟨-, heq⟩ := mountRootfs_cases container env cwd host
  · rw [heq]
    rfl
  · rw [heq]
    rfl

theorem unmountOldRoot_lower (v : MountView) : (unmountOldRoot env cwd v).lower = v.lower := by
  obtain heq | ⟨-, heq⟩ | ⟨-, heq⟩ := unmountOldRoot_cases env cwd v
  all_goals rw [heq]

variable (env cwd) in
/-- The host's directory `rmdir` can take away. -/
theorem removeOldRoot_lower {v : MountView} (h : Entered host v) :
    (removeOldRoot env cwd v).lower = v.lower ∨
      (v.layout.isTurned = false ∧ v.lower.node oldRootDir = some .dir ∧
        ∀ q, (removeOldRoot env cwd v).lower.node q
          = if q = oldRootDir then none else v.lower.node q) := by
  rw [removeOldRoot]
  cases hrmdir : v.rmdir cwd "/old-root".toList env.rmdirDenied with
  | none => exact Or.inl rfl
  | some v' =>
    obtain ⟨-, r, hr, hedit⟩ := MountView.rmdir_some hrmdir
    have hraw : "/old-root".toList = absPath oldRootDir := by decide
    rw [hraw] at hr
    obtain rfl : r = oldRootDir := resolveIn_absPath_eq (by decide) (by decide) v.node_root hr
    obtain ⟨-, ⟨q, hplace, hdrop, -⟩ | ⟨q, -, -, hlower⟩⟩ := MountView.edit_some hedit
    · obtain ⟨hdir, hroot, hnode⟩ := dropDir_some hdrop
      cases hturned : v.layout.isTurned with
      | false =>
        obtain rfl := MountView.place_eq hturned hplace
        exact Or.inr ⟨rfl, hdir, hnode⟩
      | true =>
        -- what hangs there is a root, and no directory of the host
        refine absurd ?_ hroot
        unfold MountView.place at hplace
        cases hlayout : v.layout with
        | plain => simp [hlayout, Layout.isTurned] at hturned
        | covering p => simp [hlayout, Layout.isTurned] at hturned
        | turned s =>
          obtain rfl := h.turned s hlayout
          simpa [hlayout] using hplace.symm
        | alone => simp [hlayout] at hplace
    · exact Or.inl hlower

variable (container env cwd) in
theorem makeOldRoot_dir {v : MountView} (q : Path) (hq : v.node q = some .dir) :
    (makeOldRoot container env cwd v).node q = some .dir := by
  rw [makeOldRoot]
  cases hmkdir : v.mkdir cwd (oldRootPath container) env.mkdirDenied with
  | none => exact hq
  | some v' =>
    obtain ⟨-, r, -, hedit⟩ := MountView.mkdir_some hmkdir
    exact MountView.node_of_addDir hedit q hq

/-- At this path nothing changed, but for a directory `old-root` made
or `/old-root` taken away. -/
def OldRootOnly (host lower : FileSystem) (r : Path) : Prop :=
  lower.node r = host.node r ∨
    ((∃ q, r = q ++ oldRootDir) ∧ host.node r = none ∧ lower.node r = some .dir) ∨
    (r = oldRootDir ∧ host.node r = some .dir ∧ lower.node r = none)

theorem oldRootOnly {host made lower : FileSystem}
    (hmade : made = host ∨ ∃ q, host.node (q ++ oldRootDir) = none ∧
      ∀ r, made.node r = if r = q ++ oldRootDir then some .dir else host.node r)
    (hdropped : lower = made ∨ (made.node oldRootDir = some .dir ∧
      ∀ r, lower.node r = if r = oldRootDir then none else made.node r)) (r : Path) :
    OldRootOnly host lower r := by
  have hmk : made.node r = host.node r ∨
      ((∃ q, r = q ++ oldRootDir) ∧ host.node r = none ∧ made.node r = some .dir) := by
    obtain rfl | ⟨q, hnone, hnode⟩ := hmade
    · exact Or.inl rfl
    · by_cases hr : r = q ++ oldRootDir
      · exact Or.inr ⟨⟨q, hr⟩, hr ▸ hnone, by rw [hnode, if_pos hr]⟩
      · exact Or.inl (by rw [hnode, if_neg hr])
  unfold OldRootOnly
  obtain rfl | ⟨hdir, hnode⟩ := hdropped
  · exact hmk.imp_right Or.inl
  · by_cases hr : r = oldRootDir
    · rw [hnode, if_pos hr]
      obtain hsame | ⟨-, hnone, -⟩ := hmk
      · rw [← hr, hsame] at hdir
        exact Or.inr (Or.inr ⟨hr, hdir, rfl⟩)
      · exact Or.inl hnone.symm
    · rw [hnode, if_neg hr]
      exact hmk.imp_right Or.inl

section Pivot

variable (hshort : (cstr container.rootfsPath).length + 9 < 256)

include hshort

variable (env cwd) in
/-- The directory `mkdir` can make is not below the mount then. -/
theorem makeOldRoot_lower {v : MountView} (hturned : v.layout.isTurned = false) :
    (makeOldRoot container env cwd v).lower = v.lower ∨
      ∃ q, v.place (q ++ oldRootDir) = (true, q ++ oldRootDir) ∧
        v.lower.node (q ++ oldRootDir) = none ∧
        resolveIn v.node cwd (oldRootPath container) = some (q ++ oldRootDir) ∧
        ∀ r, (makeOldRoot container env cwd v).lower.node r
          = if r = q ++ oldRootDir then some .dir else v.lower.node r := by
  rw [makeOldRoot]
  cases hmkdir : v.mkdir cwd (oldRootPath container) env.mkdirDenied with
  | none => exact Or.inl rfl
  | some v' =>
    obtain ⟨-, r, hr, hedit⟩ := MountView.mkdir_some hmkdir
    have hord : Ordinary "old-root".toList := by decide
    rw [oldRootPath_eq hshort, resolveNewIn_concat hord] at hr
    obtain ⟨q, rfl, -⟩ := resolveIn_concat_some hord _ hr
    rw [← oldRootPath_eq hshort] at hr
    obtain ⟨-, ⟨s, hplace, hadd, -⟩ | ⟨s, -, -, hlower⟩⟩ := MountView.edit_some hedit
    · obtain rfl := MountView.place_eq hturned hplace
      obtain ⟨hnone, hnode⟩ := addDir_some hadd
      exact Or.inr ⟨q, hplace, hnone, hr, hnode⟩
    · exact Or.inl hlower

/-- A pivot succeeds only where the old root's directory is the
tmpfs's. -/
theorem lower_of_pivot {p : Path}
    (hover : (mountRootfs container env cwd (hostView host)).layout = .covering p)
    (hp : (makeOldRoot container env cwd (mountRootfs container env cwd (hostView host))).resolve
      cwd (cstr container.rootfsPath) = some p) :
    (makeOldRoot container env cwd (mountRootfs container env cwd (hostView host))).lower
      = host := by
  obtain heq | ⟨q, hplace, -, hr, -⟩ :=
    makeOldRoot_lower env cwd hshort (mountRootfs_unturned container env cwd host)
  · rw [heq, mountRootfs_lower]
  · have hord : Ordinary "old-root".toList := by decide
    have hne : cstr container.rootfsPath ≠ [] := by
      intro hnil
      simp [hnil, MountView.resolve, resolveIn] at hp
    rw [oldRootPath_eq hshort, resolveIn_concat hord _ hne] at hr
    obtain ⟨q', hq', hlast⟩ := Option.bind_eq_some_iff.mp hr
    obtain ⟨-, hlast⟩ := Option.ite_none_right_eq_some.mp hlast
    obtain ⟨rfl, -⟩ := List.append_inj' (Option.some.inj hlast) rfl
    have hsame := (resolveIn_mono (makeOldRoot_dir container env cwd) hq').symm.trans hp
    obtain rfl := Option.some.inj hsame
    rw [MountView.place, hover] at hplace
    simp at hplace

variable (env cwd) in
/-- Up to the removal the host's table is as `mkdir` left it. -/
theorem unmounted_lower (left : Path) (v : MountView) :
    (unmountOldRoot env left (pivotRootfs container env cwd v)).lower = v.lower := by
  rw [unmountOldRoot_lower]
  obtain heq | ⟨p, -, -, -, -, heq⟩ := pivotRootfs_cases env cwd hshort v
  · rw [heq]
  · rw [heq]

end Pivot

end Frame

theorem rootfs_ne_nil {container : ContainerInfo} {p : Path}
    (hroot : cstr container.rootfsPath = absPath p) (hne : p ≠ []) :
    cstr container.rootfsPath ≠ [] := by
  obtain ⟨c, rest, rfl⟩ := List.exists_cons_of_ne_nil hne
  rw [hroot]
  simp [absPath]

section Rooted

variable {container : ContainerInfo} {env : ChildEnv} {cwd p : Path} {host : FileSystem}
  (hroot : cstr container.rootfsPath = absPath p) (hp : ∀ m ∈ p, Ordinary m) (hne : p ≠ [])

include hroot hp hne

theorem mountsAt_iff {q : Path} : MountsAt container env cwd host q ↔
    q = p ∧ env.mountDenied = false ∧ host.node p = some .dir := by
  constructor
  · intro h
    have hq := h.resolved
    rw [hroot, ← resolve_hostView] at hq
    obtain rfl : q = p := resolveIn_absPath_eq hp hne (hostView host).node_root hq
    exact ⟨rfl, h.granted, h.dir⟩
  · rintro ⟨rfl, hgranted, hdir⟩
    refine ⟨hgranted, ?_, hne, hdir⟩
    rw [hroot, ← resolve_hostView]
    refine resolveIn_of_dirs hp hne fun s n hs => ?_
    obtain ⟨t, rfl⟩ := hs
    rw [List.append_assoc] at hdir
    exact host.dir_of_prefix (s := [n] ++ t) (by simp) (by rw [hdir]; simp)

variable (cwd) in
theorem resolve_rootfs {v : MountView} (hover : v.layout = .covering p) (hdir : v.lower.node p = some .dir) :
    v.resolve cwd (cstr container.rootfsPath) = some p := by
  rw [hroot]
  refine resolveIn_of_dirs hp hne fun s n hs => ?_
  obtain ⟨t, rfl⟩ := hs
  rw [MountView.node_beside hover]
  · rw [List.append_assoc] at hdir
    exact v.lower.dir_of_prefix (s := [n] ++ t) (by simp) (by rw [hdir]; simp)
  · intro hpre
    simpa using hpre.length_le

/-- The old root's directory is there when `mkdir` is granted. -/
theorem oldRoot_made_iff (hshort : (cstr container.rootfsPath).length + 9 < 256)
    (hat : MountsAt container env cwd host p) :
    (makeOldRoot container env cwd (mountRootfs container env cwd (hostView host))).node
        (p ++ oldRootDir) = some .dir ↔ env.mkdirDenied = false := by
  have hover := mountRootfs_layout.mpr hat
  have hresolved : (mountRootfs container env cwd (hostView host)).resolve cwd
      (cstr container.rootfsPath) = some p :=
    resolve_rootfs cwd hroot hp hne hover (by rw [mountRootfs_lower]; exact hat.dir)
  have hempty : (mountRootfs container env cwd (hostView host)).upper = tmpfs := by
    obtain ⟨q, -, heq⟩ | ⟨-, heq⟩ := mountRootfs_cases container env cwd host
    · rw [heq]
      rfl
    · rw [heq]
      rfl
  generalize mountRootfs container env cwd (hostView host) = v at hover hresolved hempty
  constructor
  · intro hdir
    rw [makeOldRoot] at hdir
    cases hmkdir : v.mkdir cwd (oldRootPath container) env.mkdirDenied with
    | none =>
      rw [hmkdir, Option.getD_none, MountView.node_below hover, hempty, node_tmpfs,
        if_neg (by decide)] at hdir
      simp at hdir
    | some v' => exact (MountView.mkdir_some hmkdir).1
  · intro hgranted
    have hord : Ordinary "old-root".toList := by decide
    have hthere : v.node p = some .dir := by
      simpa [hempty, node_tmpfs] using MountView.node_below hover []
    have hnew : resolveNewIn v.node cwd (oldRootPath container) = some (p ++ oldRootDir) := by
      rw [MountView.resolve] at hresolved
      rw [oldRootPath_eq hshort, resolveNewIn_concat hord,
        resolveIn_concat hord _ (rootfs_ne_nil hroot hne), hresolved, Option.bind_some, if_pos hthere]
      rfl
    obtain ⟨made, hmade⟩ := addDir_of tmpfs.node_root (n := "old-root".toList)
      (by rw [node_tmpfs, if_neg (by simp)])
    obtain ⟨-, hnode⟩ := addDir_some hmade
    have hmkdir : v.mkdir cwd (oldRootPath container) env.mkdirDenied
        = some { v with upper := made } := by
      rw [MountView.mkdir, hgranted, hnew]
      simp only [Bool.false_eq_true, if_false, Option.bind_some]
      rw [MountView.edit, MountView.place_below hover, hempty]
      exact congrArg (Option.map _) hmade
    have hlayout : ({ v with upper := made } : MountView).layout = .covering p := hover
    rw [makeOldRoot, hmkdir, Option.getD_some, MountView.node_below hlayout]
    exact (hnode _).trans (if_pos rfl)

/-- The pivot succeeds exactly where the directory is there and the
calls are granted. -/
theorem turned_iff (hshort : (cstr container.rootfsPath).length + 9 < 256) :
    (childMain container env cwd host).view.layout.isTurned = true ↔
      env.mountDenied = false ∧ host.node p = some .dir ∧ env.mkdirDenied = false ∧
        env.pivotDenied = false ∧ ¬ (env.shared = true ∧ env.privateDenied = true) := by
  simp only [childMain]
  rw [left_isTurned]
  constructor
  · intro hturned
    obtain heq | ⟨q, hgranted, hover, -, hdir, -⟩ := pivotRootfs_cases env cwd hshort
      (makeOldRoot container env cwd (mountRootfs container env cwd (hostView host)))
    · rw [heq, makeOldRoot_layout, mountRootfs_unturned] at hturned
      simp at hturned
    · rw [makeOldRoot_layout, mountRootfs_layout] at hover
      obtain ⟨rfl, hmount, hthere⟩ := (mountsAt_iff hroot hp hne).mp hover
      refine ⟨hmount, hthere, (oldRoot_made_iff hroot hp hne hshort hover).mp hdir, ?_⟩
      simpa using hgranted
  · rintro ⟨hmount, hdir, hmkdir, hpivot, hshared⟩
    have hat : MountsAt container env cwd host p :=
      (mountsAt_iff hroot hp hne).mpr ⟨rfl, hmount, hdir⟩
    have hmade := (oldRoot_made_iff hroot hp hne hshort hat).mpr hmkdir
    have hover := mountRootfs_layout.mpr hat
    have hresolved := resolveIn_mono (makeOldRoot_dir container env cwd)
      (resolve_rootfs cwd hroot hp hne hover
        (by rw [mountRootfs_lower]; exact hdir))
    rw [← makeOldRoot_layout container env cwd] at hover
    generalize makeOldRoot container env cwd _ = v at hover hmade hresolved
    have hord : Ordinary "old-root".toList := by decide
    have hold : v.resolve cwd (oldRootPath container) = some (p ++ oldRootDir) := by
      rw [MountView.resolve, oldRootPath_eq hshort,
        resolveIn_concat hord _ (rootfs_ne_nil hroot hne), hresolved, Option.bind_some]
      exact if_pos (by simpa using (MountView.node_below hover []).trans v.upper.node_root)
    have hfree : (env.pivotDenied || (env.shared && env.privateDenied)) = false := by
      simpa [hpivot] using hshared
    have hpivoted : v.pivotRoot cwd (cstr container.rootfsPath) (oldRootPath container) false
        = some { v with layout := .turned oldRootDir } := by
      rw [MountView.pivotRoot, if_neg Bool.false_ne_true, hold, MountView.resolve, hresolved,
        Option.bind_some, Option.bind_some,
        if_pos ⟨hover, List.prefix_append p oldRootDir, hmade⟩, if_neg (by simp [oldRootDir]),
        List.drop_left]
    rw [pivotRootfs, hfree, hpivoted]
    rfl

end Rooted

theorem rootfsPath_unread {id : List Char} {denied : Bool} {w : World}
    {junk container : ContainerInfo}
    (h : readContainerMetadata id denied w junk = some container) :
    container.rootfsPath = junk.rootfsPath :=
  unread (·.rootfsPath) (by simp [containerSlots, Metadata.Slot.Frames]) h

def jailWorld : World where
  fs := jailHost
  cwd := []
  children := []
  signals := []

def jailStart : StartEnv where
  junk := jailStruct
  readDenied := false
  stack := true
  child := some 4242
  startedAt := 1705230833
  writeDenied := false
  waited := none
  statusJunk := 0
  finishedAt := 1705230834
  rewriteDenied := false

end DockerClone.Container
