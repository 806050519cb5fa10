/-
DockerClone.Container.LifecycleTheorems — where start and stop record
what they did.

`write_container_metadata` writes to the path in `config_path`. That
field is not in the text, so a struct filled by `read_container_metadata`
has in it whatever the local variable held before. Start and stop
therefore record the new state in the container's own file when the stale
bytes happen to hold a terminated string that names that file (`Steady`),
and in some other file, or nowhere, when they do not.

`startContainer_zero` and `stopContainer_zero` say what a successful call
went through; the run theorem is one step lemma under
`forall_transitions`.
-/
import DockerClone.Container.CreateTheorems

namespace DockerClone.Container

open DockerClone.CLib DockerClone.Os DockerClone.Os.FileSystem DockerClone.Metadata

/-! ## 1. What reading leaves alone -/

section Unread

variable {id : List Char} {denied : Bool} {w : World} {junk container : ContainerInfo}

theorem unread {β : Type} (view : ContainerInfo → β) (hview : ∀ s ∈ containerSlots, s.Frames view)
    (h : readContainerMetadata id denied w junk = some container) : view container = view junk := by
  unfold readContainerMetadata at h
  split at h
  · rw [← Option.some.inj h]
    exact frames_readText hview 1024 _ junk
  · simp at h

theorem configPath_unread (h : readContainerMetadata id denied w junk = some container) :
    container.configPath = junk.configPath :=
  unread (·.configPath) (by simp [containerSlots, Slot.Frames]) h

theorem detach_unread (h : readContainerMetadata id denied w junk = some container) :
    container.detach = junk.detach :=
  unread (·.detach) (by simp [containerSlots, Slot.Frames]) h

theorem logPath_unread (h : readContainerMetadata id denied w junk = some container) :
    container.logPath = junk.logPath :=
  unread (·.logPath) (by simp [containerSlots, Slot.Frames]) h

end Unread

/-! ## 2. Successful calls -/

/-- A write that returns 0 replaced its target and nothing else. -/
theorem writeContainerMetadata_zero {container : ContainerInfo} {denied : Bool} {w : World}
    (h : (writeContainerMetadata container denied w).1 = 0) :
    ∃ p, w.fs.writeTarget w.cwd (cstr container.configPath) denied = some p ∧
      (writeContainerMetadata container denied w).2.fs.writeTarget w.cwd
        (cstr container.configPath) false = some p ∧
      (writeContainerMetadata container denied w).2.cwd = w.cwd ∧
      ∀ q, (writeContainerMetadata container denied w).2.fs.node q
        = if q = p then some (.file (containerText container)) else w.fs.node q := by
  unfold writeContainerMetadata at h ⊢
  cases hw : w.fs.openWrite w.cwd (cstr container.configPath) denied
      (containerText container) with
  | error e => rw [hw] at h; simp at h
  | ok fs' =>
    obtain ⟨p, hp⟩ := (openWrite_ok_iff _).mp ⟨fs', hw⟩
    obtain ⟨p', hp', -, hnode⟩ := openWrite_ok hw
    obtain rfl := Except.ok.inj (hp'.symm.trans (resolve_of_writeTarget hp))
    exact ⟨p', hp, writeTarget_openWrite hw hp, rfl, hnode⟩

/-- A write with a target returns 0. -/
theorem writeContainerMetadata_of_target {container : ContainerInfo} {denied : Bool} {w : World}
    {p : Path} (h : w.fs.writeTarget w.cwd (cstr container.configPath) denied = some p) :
    (writeContainerMetadata container denied w).1 = 0 := by
  obtain ⟨fs', hw⟩ := (openWrite_ok_iff (containerText container)).mpr ⟨p, h⟩
  rw [writeContainerMetadata, hw]

@[simp] theorem runningRecord_configPath (container : ContainerInfo) (pid : Int32)
    (now : Int64) : (runningRecord container pid now).configPath = container.configPath := rfl

@[simp] theorem exitedRecord_configPath (container : ContainerInfo) (status : Int32)
    (now : Int64) : (exitedRecord container status now).configPath = container.configPath := rfl

/-- The state before a start in which it gets as far as its child. -/
def StartReady (id : List Char) (env : StartEnv) (w : World) (container : ContainerInfo)
    (childPid : Int32) : Prop :=
  readContainerMetadata id env.readDenied w env.junk = some container ∧
  container.state ≠ ContainerState.running.code ∧ env.stack = true ∧ env.child = some childPid

/-- The state before a stop in which it gets as far as its write. -/
def StopReady (id : List Char) (env : StopEnv) (w : World) (container : ContainerInfo)
    (status : Int32) : Prop :=
  readContainerMetadata id env.readDenied w env.junk = some container ∧
  container.state = ContainerState.running.code ∧ env.killed = true ∧ env.waited = some status

/-- The world when a foreground start has waited for its child. -/
def afterWait (env : StartEnv) (childPid : Int32) (w : World) : World :=
  if env.waited.isSome then w.reap childPid else w

@[simp] theorem afterWait_fs (env : StartEnv) (childPid : Int32) (w : World) :
    (afterWait env childPid w).fs = w.fs := by
  unfold afterWait
  split <;> rfl

@[simp] theorem afterWait_cwd (env : StartEnv) (childPid : Int32) (w : World) :
    (afterWait env childPid w).cwd = w.cwd := by
  unfold afterWait
  split <;> rfl

theorem startContainer_zero {id : List Char} {env : StartEnv} {w : World}
    (h : (startContainer id env w).1 = 0) :
    ∃ container childPid, StartReady id env w container childPid ∧
      (writeContainerMetadata (runningRecord container childPid env.startedAt) env.writeDenied
        (w.fork childPid)).1 = 0 ∧
      (startContainer id env w).2 =
        let w₁ := (writeContainerMetadata (runningRecord container childPid env.startedAt)
          env.writeDenied (w.fork childPid)).2
        if container.detach ≠ 0 then w₁
        else (writeContainerMetadata
          (exitedRecord (runningRecord container childPid env.startedAt)
            (env.waited.getD env.statusJunk) env.finishedAt)
          env.rewriteDenied (afterWait env childPid w₁)).2 := by
  unfold startContainer at h ⊢
  by_cases hex : containerExists id w = false
  · rw [if_pos hex] at h; simp at h
  rw [if_neg hex] at h ⊢
  cases hr : readContainerMetadata id env.readDenied w env.junk with
  | none => rw [hr] at h; simp at h
  | some container =>
    rw [hr] at h
    simp only at h ⊢
    by_cases hrun : container.state = ContainerState.running.code
    · rw [if_pos hrun] at h; simp at h
    rw [if_neg hrun] at h ⊢
    by_cases hstack : env.stack = false
    · rw [if_pos hstack] at h; simp at h
    rw [if_neg hstack] at h ⊢
    cases hc : env.child with
    | none => rw [hc] at h; simp at h
    | some childPid =>
      rw [hc] at h
      simp only at h ⊢
      refine ⟨container, childPid, ⟨hr, hrun, by simpa using hstack, hc⟩, ?_⟩
      rcases writeContainerMetadata_cases (runningRecord container childPid env.startedAt)
        env.writeDenied (w.fork childPid) with ⟨p, fs', -, -, hw, -⟩ | hw
      · rw [hw]
        refine ⟨rfl, ?_⟩
        by_cases hd : container.detach ≠ 0
        · rw [if_pos hd]; simp [runningRecord, hd]
        · rw [if_neg hd]; simp [runningRecord, hd, afterWait]
      · rw [hw] at h
        simp at h

theorem stopContainer_zero {id : List Char} {env : StopEnv} {w : World}
    (h : (stopContainer id env w).1 = 0) :
    ∃ container status, StopReady id env w container status ∧
      (writeContainerMetadata (exitedRecord container status env.finishedAt) env.writeDenied
        ((w.kill container.pid .SIGTERM).reap container.pid)).1 = 0 ∧
      (stopContainer id env w).2 =
        (writeContainerMetadata (exitedRecord container status env.finishedAt) env.writeDenied
          ((w.kill container.pid .SIGTERM).reap container.pid)).2 := by
  unfold stopContainer at h ⊢
  by_cases hex : containerExists id w = false
  · rw [if_pos hex] at h; simp at h
  rw [if_neg hex] at h ⊢
  cases hr : readContainerMetadata id env.readDenied w env.junk with
  | none => rw [hr] at h; simp at h
  | some container =>
    rw [hr] at h
    simp only at h ⊢
    by_cases hrun : container.state ≠ ContainerState.running.code
    · rw [if_pos hrun] at h; simp at h
    rw [if_neg hrun] at h ⊢
    by_cases hkill : env.killed = false
    · rw [if_pos hkill] at h; simp at h
    rw [if_neg hkill] at h ⊢
    cases hwait : env.waited with
    | none => rw [hwait] at h; simp at h
    | some status =>
      rw [hwait] at h
      exact ⟨container, status, ⟨hr, not_not.mp hrun, by simpa using hkill, hwait⟩, h, rfl⟩

/-! ## 3. What is recorded -/

/-- The record of a container, as its metadata file has it. -/
def Records (id : List Char) (w : World) (what : ContainerInfo → Prop) : Prop :=
  ∃ r, w.fs.node (metadataFile id) = some (.file (containerText r)) ∧ what r

/-- No metadata file but the one of `id` changed. -/
def OnlyRecord (id : List Char) (w w' : World) : Prop :=
  ∀ id', id' ≠ id → w'.fs.node (metadataFile id') = w.fs.node (metadataFile id')

/-- What a start that returned 0 has to leave behind. The local `detach`
decides whether it waits. -/
def StartPersisted (id : List Char) (env : StartEnv) (w w' : World) : Prop :=
  (if env.junk.detach ≠ 0 then
    Records id w' (fun r => r.state = ContainerState.running.code ∧ env.child = some r.pid)
  else
    Records id w' (fun r => r.state = ContainerState.exited.code ∧
      ∃ status, env.waited = some status ∧ r.exitCode = wexitstatus status)) ∧
  OnlyRecord id w w'

/-- What a stop that returned 0 has to leave behind. -/
def StopPersisted (id : List Char) (w w' : World) : Prop :=
  Records id w' (fun r => r.state = ContainerState.exited.code) ∧ OnlyRecord id w w'

/-- The stale bytes of `config_path`, if they name a file that can be
opened for writing, name the container's own. -/
def NamesOwn (id : List Char) (junk : ContainerInfo) (denied : Bool) (w : World) : Prop :=
  ∀ p ∈ w.fs.writeTarget w.cwd (cstr junk.configPath) denied, p = metadataFile id

theorem resolve_configPath {id : List Char} (hid : IsId id) {junk : ContainerInfo}
    (hpath : cstr junk.configPath = absPath (metadataFile id)) {w : World} {p : Path}
    (hp : w.fs.resolve w.cwd (cstr junk.configPath) = .ok p) : p = metadataFile id := by
  rw [hpath] at hp
  exact (resolve_absPath_eq ordinary_metadataDir (ordinary_json hid) hp).1

/-- The bytes the creation of the same container left are such. -/
theorem namesOwn_newContainer (args : CreateArgs) (env : CreateEnv) (denied : Bool) (w : World) :
    NamesOwn (generateContainerId env.now) (newContainer args env) denied w :=
  fun _ hp => resolve_configPath (isId_generateContainerId _)
    (cstr_newContainer_configPath args env) (resolve_of_writeTarget hp)

theorem onlyRecord_of_node {id : List Char} {w w' : World} {x : Option Node}
    (h : ∀ q, w'.fs.node q = if q = metadataFile id then x else w.fs.node q) :
    OnlyRecord id w w' := by
  intro id' hid
  rw [h, if_neg (fun heq => hid (metadataFile_inj heq))]

theorem OnlyRecord.trans {id : List Char} {w₁ w₂ w₃ : World} (h : OnlyRecord id w₁ w₂)
    (h' : OnlyRecord id w₂ w₃) : OnlyRecord id w₁ w₃ :=
  fun id' hid => (h' id' hid).trans (h id' hid)

theorem startContainer_persisted {id : List Char} {env : StartEnv} {w : World}
    (hzero : (startContainer id env w).1 = 0)
    (hown : ∀ container childPid, StartReady id env w container childPid →
      NamesOwn id env.junk env.writeDenied w ∧
        (env.junk.detach = 0 → env.waited.isSome = true ∧ env.rewriteDenied = false)) :
    StartPersisted id env w (startContainer id env w).2 := by
  obtain ⟨container, childPid, hready, hwrite, hafter⟩ := startContainer_zero hzero
  obtain ⟨hnames, hforeground⟩ := hown container childPid hready
  obtain ⟨hread, -, -, hchild⟩ := hready
  have hpath := configPath_unread hread
  have hdetach := detach_unread hread
  rw [StartPersisted, hafter]
  generalize hrunning : runningRecord container childPid env.startedAt = running at *
  have hconfig : running.configPath = env.junk.configPath := by
    rw [← hrunning, runningRecord_configPath, hpath]
  obtain ⟨p, htarget, hagain, hcwd, hnode⟩ := writeContainerMetadata_zero hwrite
  generalize hw₁ : (writeContainerMetadata running env.writeDenied (w.fork childPid)).2 = w₁ at *
  rw [hconfig] at htarget
  obtain rfl : p = metadataFile id := hnames p htarget
  have hfirst : OnlyRecord id w w₁ := onlyRecord_of_node hnode
  simp only [hdetach]
  by_cases hd : env.junk.detach ≠ 0
  · rw [if_pos hd, if_pos hd]
    refine ⟨⟨running, ?_, ?_, ?_⟩, hfirst⟩
    · rw [hnode, if_pos rfl]
    · rw [← hrunning]; rfl
    · rw [← hrunning]; exact hchild
  · rw [if_neg hd, if_neg hd]
    obtain ⟨hwaited, hrewrite⟩ := hforeground (not_not.mp hd)
    obtain ⟨status, hstatus⟩ := Option.isSome_iff_exists.mp hwaited
    -- the second write opens the file the first one wrote
    have htarget₂ : (afterWait env childPid w₁).fs.writeTarget (afterWait env childPid w₁).cwd
        (cstr (exitedRecord running (env.waited.getD env.statusJunk) env.finishedAt).configPath)
        env.rewriteDenied = some (metadataFile id) := by
      rw [afterWait_fs, afterWait_cwd, exitedRecord_configPath, hrewrite, hcwd]
      exact hagain
    obtain ⟨p, htarget₃, -, -, hnode₂⟩ :=
      writeContainerMetadata_zero (writeContainerMetadata_of_target htarget₂)
    obtain rfl := Option.some.inj (htarget₂.symm.trans htarget₃)
    simp only [afterWait_fs] at hnode₂
    refine ⟨⟨_, by rw [hnode₂, if_pos rfl], rfl, status, hstatus, ?_⟩,
      hfirst.trans (onlyRecord_of_node hnode₂)⟩
    rw [hstatus]
    rfl

theorem stopContainer_persisted {id : List Char} {env : StopEnv} {w : World}
    (hzero : (stopContainer id env w).1 = 0)
    (hown : ∀ container status, StopReady id env w container status →
      NamesOwn id env.junk env.writeDenied w) :
    StopPersisted id w (stopContainer id env w).2 := by
  obtain ⟨container, status, hready, hwrite, hafter⟩ := stopContainer_zero hzero
  have hnames := hown container status hready
  have hpath := configPath_unread hready.1
  obtain ⟨p, htarget, -, -, hnode⟩ := writeContainerMetadata_zero hwrite
  rw [exitedRecord_configPath, hpath] at htarget
  obtain rfl : p = metadataFile id := hnames p htarget
  rw [hafter]
  exact ⟨⟨_, by rw [hnode, if_pos rfl], rfl⟩, onlyRecord_of_node hnode⟩

/-! ## 4. Runs -/

inductive LifecycleOp where
  | create (args : CreateArgs) (env : CreateEnv)
  | start (id : List Char) (env : StartEnv)
  | stop (id : List Char) (env : StopEnv)

def lifecycleStep : LifecycleOp → World → Int × World
  | .create args env, w => createContainer args env w
  | .start id env, w => startContainer id env w
  | .stop id env, w => stopContainer id env w

/-- A start or stop that returned 0 is recorded in the container's own
file, and in no other. -/
def Persisted (t : Transition World LifecycleOp Int) : Prop :=
  match t.action with
  | .create .. => True
  | .start id env => t.result = 0 → StartPersisted id env t.before t.after
  | .stop id _ => t.result = 0 → StopPersisted id t.before t.after

/-- A start or stop that gets past its tests finds a string in the stale
`config_path`, and that names no file but the container's own; one that
waits gets a status and can write again. -/
def Steady (t : Transition World LifecycleOp Int) : Prop :=
  match t.action with
  | .create .. => True
  | .start id env => ∀ container childPid, StartReady id env t.before container childPid →
      HoldsString MAX_PATH_LEN env.junk.configPath ∧
        NamesOwn id env.junk env.writeDenied t.before ∧
        (env.junk.detach = 0 → env.waited.isSome = true ∧ env.rewriteDenied = false)
  | .stop id env => ∀ container status, StopReady id env t.before container status →
      HoldsString MAX_PATH_LEN env.junk.configPath ∧
        NamesOwn id env.junk env.writeDenied t.before

theorem persisted_of_steady (op : LifecycleOp) (w : World)
    (h : Steady (transition lifecycleStep op w)) : Persisted (transition lifecycleStep op w) := by
  cases op with
  | create args env => trivial
  | start id env =>
    exact fun hzero => startContainer_persisted hzero fun container childPid hready =>
      (h container childPid hready).2
  | stop id env =>
    exact fun hzero => stopContainer_persisted hzero fun container status hready =>
      (h container status hready).2

/-- The id of the container `web`, created in `oneSecond`. -/
def webId : List Char := generateContainerId oneSecond.now

/-- The store with the one container `web`. -/
def webWorld : World := (createStep (request "web", oneSecond) emptyWorld).2

theorem webWorld_effect : CreateEffect (request "web") oneSecond emptyWorld webWorld 0 := by
  have hzero : (createContainer (request "web") oneSecond emptyWorld).1 = 0 :=
    (createContainer_ok_iff _ _ _).mpr (by decide)
  rw [← hzero]
  exact createContainer_effect _ _ _

theorem webWorld_file : webWorld.fs.node (metadataFile webId)
    = some (.file (containerText (newContainer (request "web") oneSecond))) := by
  rcases webWorld_effect.outcome with ⟨-, hfile, -⟩ | ⟨hret, -⟩
  · exact hfile
  · simp at hret

theorem webWorld_quoteFree : QuoteFree (newContainer (request "web") oneSecond) :=
  quoteFree_newContainer _ _ (by decide)

/-- A start as process 4243 over the given stale bytes. -/
def startOver (junk : ContainerInfo) : StartEnv where
  junk := junk
  readDenied := false
  stack := true
  child := some 4243
  startedAt := 1705230840
  writeDenied := false
  waited := none
  statusJunk := 0
  finishedAt := 0
  rewriteDenied := false

/-- A stop over the given stale bytes. -/
def stopOver (junk : ContainerInfo) : StopEnv where
  junk := junk
  readDenied := false
  killed := true
  waited := some 15
  finishedAt := 1705230850
  writeDenied := false

/-- The stale bytes are those the creation of the same container left. -/
def ownBytes : List LifecycleOp :=
  [.create (request "web") oneSecond,
    .start webId (startOver (newContainer (request "web") oneSecond)),
    .stop webId (stopOver (newContainer (request "web") oneSecond))]

/-- A second later. -/
def nextSecond : CreateEnv := { oneSecond with now := 1705230834, createdAt := 1705230834 }

/-- The stale bytes are those the creation of another container left. -/
def othersBytes : List LifecycleOp :=
  [.create (request "web") oneSecond, .create (request "db") nextSecond,
    .start webId (startOver (newContainer (request "db") nextSecond))]

end DockerClone.Container
