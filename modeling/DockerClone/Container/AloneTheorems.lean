/-
DockerClone.Container.AloneTheorems — an operation nobody comes between.

The steps of `Container.Concurrent` and the operations of
`Container.Store` describe the same functions. Taken one after the other,
with the child ending while its parent waits and nothing else happening,
the steps return what the operation returns and leave the world it
leaves.
-/
import DockerClone.Container.Concurrent

namespace DockerClone.Container

open DockerClone.CLib DockerClone.Os

/-! ## 1. One thread -/

@[simp] theorem Exit.occur_world (e : Exit) (h : Host) : (e.occur h).world = h.world := by
  unfold Exit.occur
  split <;> rfl

theorem Exit.occur_pathBuffer (e : Exit) (h : Host) :
    (e.occur h).pathBuffer = h.pathBuffer := by
  unfold Exit.occur
  split <;> rfl

/-- The turns of a thread that has returned. -/
theorem alone_returned {τ : Type} (step : τ → Host → Option (τ × Host)) (p : τ)
    (hend : ∀ h, step p h = none) : ∀ (turns : List (Turn Unit Exit)) (h : Host),
    (alone step Exit.occur turns p h).1 = p ∧ (alone step Exit.occur turns p h).2.world = h.world
  | [], h => ⟨rfl, rfl⟩
  | .of () :: turns, h => by
      rw [alone_none (hend h)]
      exact alone_returned step p hend turns h
  | .outside e :: turns, h => by
      rw [alone_outside]
      have ih := alone_returned step p hend turns (e.occur h)
      exact ⟨ih.1, ih.2.trans (e.occur_world h)⟩

/-! ## 2. The operations -/

section Start

variable (id : List Char) (env : StartEnv) (h : Host)

/-- The child ends while its parent waits for it. -/
def startTurns (status : Int32) : List (Turn Unit Exit) :=
  List.replicate 5 (.of ()) ++
    .outside { pid := env.child.getD 0, ending := { status := status, signalled := false } } ::
      List.replicate 2 (.of ())

/-- What a start returned and left is what the operation does. -/
def StartsAs (r : StartPhase × Host) (expected : Int × World) : Prop :=
  (∃ childPid, r.1 = .done expected.1 childPid) ∧ r.2.world = expected.2

theorem startsAs_returned (turns : List (Turn Unit Exit)) (result : Int)
    (childPid : Option Int32) :
    StartsAs (alone (startStep id env) Exit.occur turns (.done result childPid) h)
      (result, h.world) := by
  have hend := alone_returned (startStep id env) (.done result childPid) (fun _ => rfl) turns h
  exact ⟨⟨childPid, hend.1⟩, hend.2⟩

theorem startContainer_alone (hfresh : ∀ pid ∈ env.child, pid ∉ h.world.children)
    {status : Int32} (hwaited : env.waited = some status) :
    StartsAs (alone (startStep id env) Exit.occur (startTurns env status) .check h)
      (startContainer id env h.world) := by
  unfold startContainer
  simp only [startTurns, List.replicate_succ, List.replicate_zero, List.cons_append,
    List.nil_append]
  by_cases hex : containerExists id h.world = false
  · rw [alone_some (u := .done (-1) none) (v := h) (by simp [startStep, hex]), if_pos hex]
    exact startsAs_returned id env h _ _ _
  rw [alone_some (u := .read) (v := h) (by simp [startStep, hex]), if_neg hex]
  cases hr : readContainerMetadata id env.readDenied h.world env.junk with
  | none =>
    rw [alone_some (u := .done (-1) none) (v := h) (by simp [startStep, hr])]
    exact startsAs_returned id env h _ _ _
  | some container =>
    rw [alone_some (u := .test container) (v := h) (by simp [startStep, hr])]
    simp only
    by_cases hstate : container.state = ContainerState.running.code
    · rw [alone_some (u := .done (-1) none) (v := h) (by simp [startStep, hstate]),
        if_pos hstate]
      exact startsAs_returned id env h _ _ _
    rw [alone_some (u := .clone container) (v := h) (by simp [startStep, hstate]),
      if_neg hstate]
    by_cases hstack : env.stack = false
    · rw [alone_some (u := .done (-1) none) (v := h) (by simp [startStep, hstack]),
        if_pos hstack]
      exact startsAs_returned id env h _ _ _
    rw [if_neg hstack]
    cases hc : env.child with
    | none =>
      rw [alone_some (u := .done (-1) none) (v := h) (by simp [startStep, hstack, hc])]
      exact startsAs_returned id env h _ _ _
    | some childPid =>
      have hnew : childPid ∉ h.world.children := hfresh childPid hc
      rw [alone_some (u := .write container childPid) (v := h.fork childPid)
        (by simp [startStep, hstack, hc, hnew])]
      have hfork : (h.fork childPid).world = h.world.fork childPid := rfl
      rcases writeContainerMetadata_cases (runningRecord container childPid env.startedAt)
        env.writeDenied (h.world.fork childPid) with ⟨p, fs, -, -, hwrite, -⟩ | hwrite
      · rw [alone_some (startStep_write hwrite)]
        simp only [hwrite, runningRecord_detach]
        by_cases hdetach : container.detach ≠ 0
        · rw [if_pos hdetach, if_pos hdetach]
          exact startsAs_returned id env _ _ _ _
        · rw [if_neg hdetach, if_neg hdetach, alone_outside]
          -- the child ends, is waited for, and the record is written again
          generalize hh : ({ h.fork childPid with
            world := { h.world.fork childPid with fs := fs } } : Host) = h₁
          have hworld : h₁.world = { h.world.fork childPid with fs := fs } := by rw [← hh]
          have hrun : h₁.Running childPid := by
            rw [← hh]
            simp [Host.Running, Host.fork, World.fork]
          have hended : Exit.occur { pid := childPid, ending := ⟨status, false⟩ } h₁
              = { h₁ with ended := Function.update h₁.ended childPid (some ⟨status, false⟩) } := by
            simp [Exit.occur, hrun]
          rw [Option.getD_some, hended]
          have hwait := Host.waitpid_ended (h := { h₁ with
            ended := Function.update h₁.ended childPid (some ⟨status, false⟩) }) hrun.1
            (Function.update_self _ _ _)
          rw [alone_some (startStep_wait hwait), alone_some (startStep_rewrite ..), alone_nil,
            hwaited, ← hworld]
          exact ⟨⟨none, rfl⟩, rfl⟩
      · rw [alone_some (startStep_unwritten hwrite)]
        simp only [hwrite]
        exact startsAs_returned id env _ _ _ _

end Start

section Stop

variable (id : List Char) (env : StopEnv) (h : Host)

/-- The child ends of the signal while it is waited for. -/
def stopTurns (pid status : Int32) : List (Turn Unit Exit) :=
  List.replicate 4 (.of ()) ++
    .outside { pid := pid, ending := { status := status, signalled := true } } ::
      List.replicate 2 (.of ())

def StopsAs (r : StopPhase × Host) (expected : Int × World) : Prop :=
  r.1 = .done expected.1 ∧ r.2.world = expected.2

theorem stopsAs_returned (turns : List (Turn Unit Exit)) (result : Int) :
    StopsAs (alone (stopStep id env) Exit.occur turns (.done result) h) (result, h.world) :=
  alone_returned (stopStep id env) (.done result) (fun _ => rfl) turns h

theorem stopContainer_alone {pid status : Int32} (hrun : h.Running pid)
    (hpid : ∀ container, readContainerMetadata id env.readDenied h.world env.junk = some container →
      container.pid = pid)
    (hwaited : env.waited = some status) :
    StopsAs (alone (stopStep id env) Exit.occur (stopTurns pid status) .check h)
      (stopContainer id env h.world) := by
  unfold stopContainer
  simp only [stopTurns, List.replicate_succ, List.replicate_zero, List.cons_append,
    List.nil_append]
  by_cases hex : containerExists id h.world = false
  · rw [alone_some (u := .done (-1)) (v := h) (by simp [stopStep, hex]), if_pos hex]
    exact stopsAs_returned id env h _ _
  rw [alone_some (u := .read) (v := h) (by simp [stopStep, hex]), if_neg hex]
  cases hr : readContainerMetadata id env.readDenied h.world env.junk with
  | none =>
    rw [alone_some (u := .done (-1)) (v := h) (by simp [stopStep, hr])]
    exact stopsAs_returned id env h _ _
  | some container =>
    obtain rfl := hpid container hr
    rw [alone_some (u := .test container) (v := h) (by simp [stopStep, hr])]
    simp only
    by_cases hstate : container.state ≠ ContainerState.running.code
    · rw [alone_some (u := .done (-1)) (v := h) (by simp [stopStep, hstate]),
        if_pos hstate]
      exact stopsAs_returned id env h _ _
    rw [alone_some (u := .kill container) (v := h) (by simp [stopStep, hstate]),
      if_neg hstate]
    by_cases hkill : env.killed = false
    · rw [alone_some (u := .done (-1)) (v := h) (by simp [stopStep, hkill]), if_pos hkill]
      exact stopsAs_returned id env h _ _
    rw [alone_some (u := .wait container)
        (v := { h with world := h.world.kill container.pid .SIGTERM })
        (by simp [stopStep, hkill]), if_neg hkill, alone_outside, hwaited]
    have hrun₁ : ({ h with world := h.world.kill container.pid .SIGTERM } : Host).Running
        container.pid := hrun
    have hended : Exit.occur { pid := container.pid, ending := ⟨status, true⟩ }
        { h with world := h.world.kill container.pid .SIGTERM }
          = { h with
              world := h.world.kill container.pid .SIGTERM
              ended := Function.update h.ended container.pid (some ⟨status, true⟩) } := by
      rw [Exit.occur, if_pos ⟨hrun₁, fun _ => List.mem_cons_self⟩]
    have hwait := Host.waitpid_ended (h := { h with
      world := h.world.kill container.pid .SIGTERM
      ended := Function.update h.ended container.pid (some ⟨status, true⟩) }) hrun.1
      (Function.update_self _ _ _)
    rw [hended, alone_some (stopStep_wait hwait), alone_some (stopStep_write ..), alone_nil]
    exact ⟨rfl, rfl⟩

end Stop

section Remove

variable (id : List Char) (env : RemoveEnv) (h : Host)

/-- What a removal returned and left is what the operation does. -/
def RemovesAs (r : RemovePhase × Host) (expected : Int × World) : Prop :=
  r.1 = .done expected.1 ∧ r.2.world = expected.2

theorem removesAs_returned (turns : List (Turn Unit Exit)) (result : Int) :
    RemovesAs (alone (removeStep id env) Exit.occur turns (.done result) h) (result, h.world) :=
  alone_returned (removeStep id env) (.done result) (fun _ => rfl) turns h

/-- The steps behind the `rm`. -/
theorem unlinks_alone (container : ContainerInfo) :
    RemovesAs (alone (removeStep id env) Exit.occur [.of (), .of ()] (.unlinkConfig container) h)
      (match h.world.fs.unlink h.world.cwd (cstr container.configPath) env.unlinkConfigDenied with
      | .error _ => (-1, h.world)
      | .ok fs =>
          let w := { h.world with fs := fs }
          match w.fs.unlink w.cwd (cstr container.logPath) env.unlinkLogDenied with
          | .ok fs => (0, { w with fs := fs })
          | .error .ENOENT => (0, w)
          | .error _ => (-1, w)) := by
  cases hconfig : h.world.fs.unlink h.world.cwd (cstr container.configPath)
      env.unlinkConfigDenied with
  | error e =>
    rw [alone_some (u := .done (-1)) (v := h) (by simp [removeStep, hconfig])]
    exact removesAs_returned id env h _ _
  | ok fs₁ =>
    rw [alone_some (u := .unlinkLog container)
      (v := { h with world := { h.world with fs := fs₁ } }) (by simp [removeStep, hconfig])]
    simp only
    cases hlog : fs₁.unlink h.world.cwd (cstr container.logPath) env.unlinkLogDenied with
    | ok fs₂ =>
      rw [alone_some (u := .done 0) (v := { h with world := { h.world with fs := fs₂ } })
        (by simp [removeStep, hlog])]
      exact removesAs_returned id env { h with world := { h.world with fs := fs₂ } } _ _
    | error e =>
      have hreturned := removesAs_returned id env { h with world := { h.world with fs := fs₁ } } []
      by_cases he : e = .ENOENT
      · subst he
        rw [alone_some (u := .done 0) (v := { h with world := { h.world with fs := fs₁ } })
          (by simp [removeStep, hlog])]
        exact hreturned 0
      · rw [alone_some (u := .done (-1))
          (v := { h with world := { h.world with fs := fs₁ } })
          (by simp [removeStep, hlog])]
        simpa [he] using hreturned (-1)

theorem removeContainer_alone :
    RemovesAs (alone (removeStep id env) Exit.occur (List.replicate 8 (.of ())) .check h)
      (removeContainer id env h.world) := by
  unfold removeContainer
  simp only [List.replicate_succ, List.replicate_zero]
  by_cases hex : containerExists id h.world = false
  · rw [alone_some (u := .done (-1)) (v := h) (by simp [removeStep, hex]), if_pos hex]
    exact removesAs_returned id env h _ _
  rw [alone_some (u := .read) (v := h) (by simp [removeStep, hex]), if_neg hex]
  cases hr : readContainerMetadata id env.readDenied h.world env.junk with
  | none =>
    rw [alone_some (u := .done (-1)) (v := h) (by simp [removeStep, hr])]
    exact removesAs_returned id env h _ _
  | some container =>
    rw [alone_some (u := .test container) (v := h) (by simp [removeStep, hr])]
    simp only
    by_cases hstate : container.state = ContainerState.running.code
    · rw [alone_some (u := .done (-1)) (v := h) (by simp [removeStep, hstate]),
        if_pos hstate]
      exact removesAs_returned id env h _ _
    rw [alone_some (u := .format container) (v := h) (by simp [removeStep, hstate]),
      if_neg hstate, alone_some (removeStep_format ..), alone_some (removeStep_copy ..)]
    have hpath : (h.formatPath id).pathBuffer = getContainerFullPath id := rfl
    have hworld : h.world = (h.formatPath id).world := rfl
    rw [hpath, hworld]
    generalize h.formatPath id = h₁
    by_cases hfailed : (env.shell.system h₁.world.cwd h₁.world.fs
        (snprintf 1024 ("rm -rf ".toList ++ getContainerFullPath id))).1 ≠ 0
    · rw [alone_some (removeStep_rm_failed hfailed), if_pos hfailed]
      exact removesAs_returned id env _ _ _
    · rw [alone_some (removeStep_rm (not_not.mp hfailed)), if_neg hfailed]
      exact unlinks_alone id env _ container

end Remove

section Create

variable (args : CreateArgs) (env : CreateEnv) (h : Host)

/-- What a creation returned and left is what the operation does. -/
def CreatesAs (r : CreatePhase × Host) (expected : Int × World) : Prop :=
  r.1 = .done expected.1 ∧ r.2.world = expected.2

theorem createsAs_returned (turns : List (Turn Unit Exit)) (result : Int) :
    CreatesAs (alone (createStepwise args env) Exit.occur turns (.done result) h)
      (result, h.world) :=
  alone_returned (createStepwise args env) (.done result) (fun _ => rfl) turns h

theorem createContainer_alone :
    CreatesAs (alone (createStepwise args env) Exit.occur (List.replicate 5 (.of ())) .format h)
      (createContainer args env h.world) := by
  generalize hpath : getContainerFullPath (cstr (newContainer args env).id) = path
  have hown : newContainerAt args env path = newContainer args env := by
    rw [← hpath]
    exact newContainerAt_own args env
  unfold createContainer
  simp only [List.replicate_succ, List.replicate_zero, hpath]
  rw [alone_some (createStepwise_format ..), alone_some (createStepwise_copy ..)]
  have hbuffer : (h.formatPath (cstr (newContainer args env).id)).pathBuffer = path := hpath
  rw [hbuffer]
  generalize hh : h.formatPath (cstr (newContainer args env).id) = h₁
  have hworld : h.world = h₁.world := by rw [← hh]; rfl
  rw [hworld]
  cases hdir : h₁.world.fs.mkdirExistOk h₁.world.cwd path env.mkdirDenied with
  | none =>
    rw [alone_some (u := .done (-1)) (v := h₁) (by simp [createStepwise, hdir])]
    exact createsAs_returned args env h₁ _ _
  | some fs₁ =>
    rw [alone_some (u := .mkdirRootfs path)
      (v := { h₁ with world := { h₁.world with fs := fs₁ } })
      (by simp [createStepwise, hdir])]
    simp only
    cases hroot : fs₁.mkdirExistOk h₁.world.cwd (cstr (newContainer args env).rootfsPath)
        env.rootfsDenied with
    | none =>
      rw [alone_some (u := .done (-1)) (v := { h₁ with world := { h₁.world with fs := fs₁ } })
        (by simp [createStepwise, hown, hroot])]
      exact createsAs_returned args env { h₁ with world := { h₁.world with fs := fs₁ } } _ _
    | some fs₂ =>
      rw [alone_some (u := .write path)
        (v := { h₁ with world := { h₁.world with fs := fs₂ } })
        (by simp [createStepwise, hown, hroot]), alone_some (createStepwise_write ..), alone_nil,
        hown]
      exact ⟨rfl, rfl⟩

end Create

section List

variable {env : ListCall} {w : World} {s s' : DirStream} {p p' : ListPhase}
  {result : Option (List ContainerInfo)}

/-- The turn of the reading pass that returns an entry. -/
def ListCall.round (env : ListCall) (w : World) (name : Name) : Nat :=
  let dir := (w.fs.openDir w.cwd CONTAINER_METADATA_DIR.toList).getD []
  (env.read.listing w.fs dir).names.idxOf name + 1

/-- What the call meets when nothing changes. -/
def ListCall.undisturbed (env : ListCall) (w : World) : ListEnv w.fs where
  listAllocated := env.listAllocated
  containersAllocated := env.containersAllocated
  counted := env.counted.listing w.fs
  read := env.read.listing w.fs
  denied := fun name => env.denied (env.round w name)
  junk := env.junk
  idJunk := fun name => env.idJunk (env.round w name)

/-- A list that only takes steps of its own returns this. -/
def ListEnds (env : ListCall) (w : World) (p : ListPhase) (s : DirStream)
    (result : Option (List ContainerInfo)) : Prop :=
  ∃ n allocated s', alone (fun p s => listStep env p w s) (fun (_ : Exit) s => s)
    (List.replicate n (.of ())) p s = (.done allocated result, s')

theorem ListEnds.step (hend : ListEnds env w p' s' result)
    (hstep : listStep env p w s = some (p', s')) : ListEnds env w p s result := by
  obtain ⟨n, allocated, s'', hn⟩ := hend
  refine ⟨n + 1, allocated, s'', ?_⟩
  rw [List.replicate_succ, alone_some hstep]
  exact hn

theorem listEnds_done (allocated : Nat) : ListEnds env w (.done allocated result) s result :=
  ⟨0, allocated, s, rfl⟩

/-- The counting pass. -/
theorem listEnds_count (found : Nat)
    (hend : ∀ s', ListEnds env w
      (.alloc (found + ((env.counted.rest s).filter isJson).length)) s' result) :
    ListEnds env w (.count found) s result := by
  fun_induction Readdir.rest env.counted s generalizing found with
  | case1 s hnone => exact (hend s).step (by simp [listStep, hnone])
  | case2 s name hnext ih =>
    refine (ih (if isJson name then found + 1 else found) fun s' => ?_).step
      (by simp [listStep, hnext])
    have hend' := hend s'
    cases hjson : isJson name with
    | true =>
      rw [List.filter_cons_of_pos hjson, List.length_cons] at hend'
      rwa [if_pos rfl, Nat.add_assoc, Nat.add_comm 1]
    | false =>
      rw [List.filter_cons_of_neg (by simp [hjson])] at hend'
      rwa [if_neg Bool.false_ne_true]

section Entries

variable {fs : FileSystem} {listed : ListEnv fs} {name : Name} {rest : List Name}
  {containers : List ContainerInfo}

theorem readEntries_skip (hjson : isJson name = false) :
    readEntries listed w (name :: rest) containers = readEntries listed w rest containers := by
  rw [readEntries, if_neg (by simp [hjson])]

theorem readEntries_unread (hjson : isJson name = true)
    (hread : readContainerMetadata (cstr (scannedId name (listed.idJunk name)))
      (listed.denied name) w (listed.junk containers.length) = none) :
    readEntries listed w (name :: rest) containers = readEntries listed w rest containers := by
  rw [readEntries, if_pos hjson]
  simp only [hread]

theorem readEntries_read (hjson : isJson name = true) {container : ContainerInfo}
    (hread : readContainerMetadata (cstr (scannedId name (listed.idJunk name)))
      (listed.denied name) w (listed.junk containers.length) = some container) :
    readEntries listed w (name :: rest) containers
      = readEntries listed w rest (containers ++ [container]) := by
  rw [readEntries, if_pos hjson]
  simp only [hread]

end Entries

/-- The reading pass, with some names behind it. -/
theorem listEnds_readdir (allocated : Nat) {p : Path} (before : List Name)
    (hopen : w.fs.openDir w.cwd CONTAINER_METADATA_DIR.toList = some p)
    (hnames : (env.read.listing w.fs p).names = before ++ env.read.rest s)
    (hreturned : s.returned = before.length) (containers : List ContainerInfo) :
    ListEnds env w (.readdir allocated containers) s
      (some (readEntries (env.undisturbed w) w (env.read.rest s) containers)) := by
  fun_induction Readdir.rest env.read s generalizing before containers with
  | case1 s hnone =>
    exact (listEnds_done (s := s) allocated).step (by simp [listStep, hnone, readEntries])
  | case2 s name hnext ih =>
    have hnodup := (env.read.listing w.fs p).nodup
    have hround : env.round w name = (s.take name).returned := by
      have hnew : name ∉ before := by
        rw [hnames] at hnodup
        exact fun hmem => (List.disjoint_of_nodup_append hnodup) hmem (List.mem_cons_self ..)
      show ((env.read.listing w.fs _).names.idxOf name) + 1 = s.returned + 1
      rw [hopen, Option.getD_some, hnames, List.idxOf_append_of_notMem hnew,
        List.idxOf_cons_self, hreturned, Nat.add_zero]
    have hrest := fun containers => ih (before ++ [name])
      (by rw [hnames, List.append_assoc, List.singleton_append])
      (by rw [List.length_append, List.length_singleton, ← hreturned]; rfl) containers
    cases hjson : isJson name with
    | false =>
      rw [readEntries_skip hjson]
      exact (hrest containers).step (by simp [listStep, hnext, hjson])
    | true =>
      have hreturn : listStep env (.readdir allocated containers) w s
          = some (.read allocated containers name, s.take name) := by
        simp [listStep, hnext, hjson]
      have hjunk : (env.undisturbed w).idJunk name = env.idJunk (s.take name).returned :=
        congrArg env.idJunk hround
      have hdenied : (env.undisturbed w).denied name = env.denied (s.take name).returned :=
        congrArg env.denied hround
      refine ListEnds.step ?_ hreturn
      cases hread : readContainerMetadata
          (cstr (scannedId name ((env.undisturbed w).idJunk name)))
          ((env.undisturbed w).denied name) w ((env.undisturbed w).junk containers.length) with
      | none =>
        rw [readEntries_unread hjson hread]
        rw [hjunk, hdenied] at hread
        exact (hrest containers).step (by rw [listStep]; exact hread ▸ rfl)
      | some container =>
        rw [readEntries_read hjson hread]
        rw [hjunk, hdenied] at hread
        exact (hrest (containers ++ [container])).step (by rw [listStep]; exact hread ▸ rfl)

theorem listContainers_alone (env : ListCall) (w : World) (s : DirStream) :
    ListEnds env w .malloc s (listContainers w (env.undisturbed w)) := by
  unfold listContainers
  show ListEnds env w .malloc s (if env.listAllocated = false then none else _)
  by_cases hlist : env.listAllocated = false
  · rw [if_pos hlist]
    exact (listEnds_done (s := s) 0).step (by simp [listStep, hlist])
  rw [if_neg hlist]
  have hmalloc : listStep env .malloc w s = some (.openCount, s) := by simp [listStep, hlist]
  refine ListEnds.step ?_ hmalloc
  cases hopen : w.fs.openDir w.cwd CONTAINER_METADATA_DIR.toList with
  | none => exact (listEnds_done (s := s) 0).step (by simp [listStep, hopen])
  | some p =>
    have hfirst : listStep env .openCount w s = some (.count 0, .opened w.fs p) := by
      simp [listStep, hopen]
    refine ListEnds.step ?_ hfirst
    refine listEnds_count 0 fun s' => ?_
    rw [Nat.zero_add]
    show ListEnds env w (.alloc ((env.counted.listing w.fs p).names.filter isJson).length) s'
      (if ((env.counted.listing w.fs p).names.filter isJson).length = 0 then some []
        else if env.containersAllocated = false then none
        else some (readEntries (env.undisturbed w) w (env.read.listing w.fs p).names []))
    generalize ((env.counted.listing w.fs p).names.filter isJson).length = count
    by_cases hcount : count = 0
    · rw [if_pos hcount]
      exact (listEnds_done (s := s') 0).step (by simp [listStep, hcount])
    rw [if_neg hcount]
    by_cases hcontainers : env.containersAllocated = false
    · rw [if_pos hcontainers]
      exact (listEnds_done (s := s') 0).step (by simp [listStep, hcount, hcontainers])
    rw [if_neg hcontainers]
    have halloc : listStep env (.alloc count) w s' = some (.openRead count, s') := by
      simp [listStep, hcount, hcontainers]
    have hsecond : listStep env (.openRead count) w s'
        = some (.readdir count [], .opened w.fs p) := by
      simp [listStep, hopen]
    refine ListEnds.step (ListEnds.step ?_ hsecond) halloc
    exact listEnds_readdir count [] hopen rfl rfl []

end List

end DockerClone.Container
