/-
DockerClone.Container.RegistryTheorems — the operations refine the model.

`registryOf` reads the model's state off the world: the phase of a
container is what its metadata file says. `answered` reads off what the
system answers to the calls an operation makes. Each operation, on a store
whose files are records (`Kept`), does the step the model has for these
answers, as far as four things go well that the code leaves to chance: the
stale bytes of a local struct hold no quote, the paths among them are
terminated and name no file but the container's own; and a `waitpid` that
succeeds had a child to wait for. `Meets` says so of one call.

The properties of the model are then properties of the operations
(`container_runs_refined`, `container_runs_started`, …).
-/
import DockerClone.Container.Registry
import DockerClone.Container.RemoveTheorems
import DockerClone.Container.Service
import DockerClone.Metadata.Quotes

namespace DockerClone.Container

open DockerClone.CLib DockerClone.Os DockerClone.Os.FileSystem DockerClone.Metadata

/-! ## 1. The state of the model -/

/-- The phase a record is in. -/
def phaseOf (r : ContainerInfo) : Phase :=
  if r.state = ContainerState.running.code then .running r.pid
  else if r.state = ContainerState.exited.code then .exited r.exitCode
  else .created

/-- The phase of a container, as its metadata file has it. -/
def phaseOfNode : Option Node → Option Phase
  | some (.file text) => some (phaseOf (readContainerText text ContainerInfo.zeroed))
  | _ => none

def registryOf (w : World) : Registry where
  phase := fun id => phaseOfNode (w.fs.node (metadataFile id))
  children := w.children
  signals := w.signals

/-- The records of a store: each is that of a generated id, and free of
quotes. -/
def Kept (w : World) : Prop :=
  ∀ id x, w.fs.node (metadataFile id) = some x → (∃ now, id = generateContainerId now) ∧
    ∃ r, x = .file (containerText r) ∧ QuoteFree r

/-- The three numbers a phase is made of come back. -/
theorem phaseOf_readContainerText {r : ContainerInfo} (h : QuoteFree r) (c : ContainerInfo) :
    phaseOf (readContainerText (containerText r) c) = phaseOf r := by
  rw [phaseOf, phaseOf, state_readContainerText h, pid_readContainerText h,
    exitCode_readContainerText h]

theorem phaseOfNode_record {r : ContainerInfo} (h : QuoteFree r) :
    phaseOfNode (some (.file (containerText r))) = some (phaseOf r) :=
  congrArg some (phaseOf_readContainerText h _)

/-! ## 2. Records without quotes -/

/-- The reader knows a printed field or leaves it alone. -/
theorem printedViews_cases {view : ContainerInfo → List Char} (h : view ∈ printedViews) :
    (∀ s ∈ containerSlots, s.Frames view) ∨
      ∃ key set, Slot.text key view set ∈ containerSlots := by
  simp only [printedViews, List.mem_cons, List.not_mem_nil, or_false] at h
  rcases h with rfl | rfl | rfl | rfl | rfl | rfl | rfl | rfl | rfl | rfl | rfl | rfl | rfl | rfl |
    rfl | rfl | rfl | rfl | rfl
  · exact Or.inr ⟨{ name := "id" }, fun c v => { c with id := v }, by simp [containerSlots]⟩
  · exact Or.inr ⟨{ name := "name" }, fun c v => { c with name := v }, by simp [containerSlots]⟩
  · exact Or.inr ⟨{ name := "image" }, fun c v => { c with image := v }, by simp [containerSlots]⟩
  · exact Or.inl (by simp [containerSlots, Slot.Frames])
  · exact Or.inr ⟨{ name := "command" }, fun c v => { c with command := v },
      by simp [containerSlots]⟩
  · exact Or.inl (by simp [containerSlots, Slot.Frames])
  · exact Or.inl (by simp [containerSlots, Slot.Frames])
  · exact Or.inl (by simp [containerSlots, Slot.Frames])
  · exact Or.inl (by simp [containerSlots, Slot.Frames])
  · exact Or.inl (by simp [containerSlots, Slot.Frames])
  · exact Or.inl (by simp [containerSlots, Slot.Frames])
  · exact Or.inl (by simp [containerSlots, Slot.Frames])
  · exact Or.inl (by simp [containerSlots, Slot.Frames])
  · exact Or.inl (by simp [containerSlots, Slot.Frames])
  · exact Or.inr ⟨{ name := "created" }, fun c v => { c with created := v },
      by simp [containerSlots]⟩
  · exact Or.inr ⟨{ name := "started" }, fun c v => { c with started := v },
      by simp [containerSlots]⟩
  · exact Or.inr ⟨{ name := "finished" }, fun c v => { c with finished := v },
      by simp [containerSlots]⟩
  · exact Or.inl (by simp [containerSlots, Slot.Frames])
  · exact Or.inl (by simp [containerSlots, Slot.Frames])

/-- What is read into a struct without quotes leaves it without. -/
theorem quoteFree_readContainerText {junk : ContainerInfo} (h : QuoteFree junk)
    (text : List Char) : QuoteFree (readContainerText text junk) := by
  rw [quoteFree_iff] at h ⊢
  intro view hview
  rcases printedViews_cases hview with hframes | ⟨key, set, hslot⟩
  · have hsame : view (readContainerText text junk) = view junk :=
      frames_readText hframes 1024 text junk
    rw [hsame]
    exact h view hview
  · exact not_mem_readText lawful_containerSlots hslot 1024 text junk (h view hview)

/-! ## 3. What a call leaves in the table -/

section Table

variable {id : List Char} {w w' : World} {r : ContainerInfo}

@[simp] theorem registryOf_fork (w : World) (pid : Int32) :
    registryOf (w.fork pid) = (registryOf w).fork pid := rfl

@[simp] theorem registryOf_kill (w : World) (pid : Int32) (signal : Signal) :
    registryOf (w.kill pid signal) = (registryOf w).kill pid signal := rfl

@[simp] theorem registryOf_reap (w : World) (pid : Int32) :
    registryOf (w.reap pid) = (registryOf w).reap pid := rfl

/-- The metadata files are those of before, but for one. -/
def Replaced (id : List Char) (x : Option Node) (w w' : World) : Prop :=
  ∀ id', w'.fs.node (metadataFile id')
    = if id' = id then x else w.fs.node (metadataFile id')

theorem replaced_of_node {x : Option Node}
    (h : ∀ q, w'.fs.node q = if q = metadataFile id then x else w.fs.node q) :
    Replaced id x w w' := by
  intro id'
  rw [h]
  by_cases hid : id' = id
  · rw [if_pos hid, if_pos (by rw [hid])]
  · rw [if_neg hid, if_neg (fun heq => hid (metadataFile_inj heq))]

theorem Replaced.phase {x : Option Node} (h : Replaced id x w w') :
    (registryOf w').phase = Function.update (registryOf w).phase id (phaseOfNode x) := by
  funext id'
  simp only [registryOf, h id']
  by_cases hid : id' = id
  · rw [if_pos hid, hid, Function.update_self]
  · rw [if_neg hid, Function.update_of_ne hid]

theorem Replaced.registryOf {x : Option Node} (h : Replaced id x w w')
    (hchildren : w'.children = w.children) (hsignals : w'.signals = w.signals) :
    registryOf w' = (registryOf w).setPhase id (phaseOfNode x) :=
  Registry.ext h.phase hchildren hsignals

theorem registryOf_congr (h : ∀ id, w'.fs.node (metadataFile id) = w.fs.node (metadataFile id))
    (hchildren : w'.children = w.children) (hsignals : w'.signals = w.signals) :
    registryOf w' = registryOf w :=
  Registry.ext (funext fun id => congrArg phaseOfNode (h id)) hchildren hsignals

/-- A record of a generated id takes the place of what was there. -/
theorem Replaced.kept (h : Replaced id (some (.file (containerText r))) w w') (hw : Kept w)
    (hid : ∃ now, id = generateContainerId now) (hquote : QuoteFree r) : Kept w' := by
  intro id' x hx
  rw [h id'] at hx
  by_cases heq : id' = id
  · rw [if_pos heq] at hx
    exact ⟨heq ▸ hid, r, (Option.some.inj hx).symm, hquote⟩
  · rw [if_neg heq] at hx
    exact hw id' x hx

/-- A record is gone. -/
theorem Replaced.kept_none (h : Replaced id none w w') (hw : Kept w) : Kept w' := by
  intro id' x hx
  rw [h id'] at hx
  by_cases heq : id' = id
  · rw [if_pos heq] at hx
    simp at hx
  · rw [if_neg heq] at hx
    exact hw id' x hx

/-- The store of a world with the same metadata files. -/
theorem kept_congr (h : ∀ id, w'.fs.node (metadataFile id) = w.fs.node (metadataFile id))
    (hw : Kept w) : Kept w' :=
  fun id x hx => hw id x ((h id).symm.trans hx)

/-- Who is read has a record, and its phase is read with it. -/
theorem record_of_read {denied : Bool} {junk container : ContainerInfo} (hid : IsId id)
    (hw : Kept w) (h : readContainerMetadata id denied w junk = some container) :
    (∃ now, id = generateContainerId now) ∧
      (registryOf w).phase id = some (phaseOf container) ∧
      (QuoteFree junk → QuoteFree container) := by
  cases hnode : w.fs.node (metadataFile id) with
  | none =>
    rw [readContainerMetadata, metadataPath_eq hid, metadataFile, openRead_absent
      ordinary_metadataDir (ordinary_json hid) hnode] at h
    simp at h
  | some x =>
    obtain ⟨hnow, r, rfl, hquote⟩ := hw id x hnode
    rw [readContainerMetadata_file hid hnode] at h
    split at h
    · simp at h
    · obtain rfl := Option.some.inj h
      refine ⟨hnow, ?_, fun hjunk => quoteFree_readContainerText hjunk _⟩
      have hphase : (registryOf w).phase id = phaseOfNode (w.fs.node (metadataFile id)) := rfl
      rw [hphase, hnode, phaseOfNode_record hquote, phaseOf_readContainerText hquote]

/-- Who has a phase is found, and read unless that is denied. -/
theorem read_of_phase {phase : Phase} (hid : IsId id) (hw : Kept w)
    (h : (registryOf w).phase id = some phase) (junk : ContainerInfo) :
    containerExists id w = true ∧ ∃ container,
      readContainerMetadata id false w junk = some container ∧ phase = phaseOf container := by
  have hphase : phaseOfNode (w.fs.node (metadataFile id)) = some phase := h
  cases hnode : w.fs.node (metadataFile id) with
  | none => simp [hnode, phaseOfNode] at hphase
  | some x =>
    obtain ⟨-, r, rfl, hquote⟩ := hw id x hnode
    rw [hnode, phaseOfNode_record hquote] at hphase
    refine ⟨by rw [containerExists_eq hid, hnode]; rfl, _,
      readContainerMetadata_file hid hnode false junk, ?_⟩
    rw [phaseOf_readContainerText hquote]
    exact (Option.some.inj hphase).symm

/-- A container whose record does not say RUNNING is idle. -/
theorem idle_of_phase (h : (registryOf w).phase id = some (phaseOf r))
    (hstate : r.state ≠ ContainerState.running.code) : (registryOf w).Idle id := by
  refine ⟨_, h, fun pid hpid => ?_⟩
  rw [phaseOf, if_neg hstate] at hpid
  split at hpid <;> simp at hpid

@[simp] theorem phaseOf_runningRecord (r : ContainerInfo) (pid : Int32) (now : Int64) :
    phaseOf (runningRecord r pid now) = .running pid := if_pos rfl

@[simp] theorem phaseOf_exitedRecord (r : ContainerInfo) (status : Int32) (now : Int64) :
    phaseOf (exitedRecord r status now) = .exited (wexitstatus status) := by
  have hstate : (exitedRecord r status now).state = ContainerState.exited.code := rfl
  rw [phaseOf, hstate, if_neg (by decide), if_pos rfl]
  rfl

/-- A write, where the path names the container's own file or none: it
cannot be opened and nothing changes, or the record is in its place. -/
theorem write_replaces {container : ContainerInfo} {denied : Bool}
    (hown : ∀ p ∈ w.fs.writeTarget w.cwd (cstr container.configPath) denied, p = metadataFile id) :
    ((w.fs.writeTarget w.cwd (cstr container.configPath) denied).isSome = false ∧
      writeContainerMetadata container denied w = (-1, w)) ∨
    ((w.fs.writeTarget w.cwd (cstr container.configPath) denied).isSome = true ∧
      ∃ fs, writeContainerMetadata container denied w = (0, { w with fs := fs }) ∧
        Replaced id (some (.file (containerText container))) w { w with fs := fs }) := by
  rcases writeContainerMetadata_cases container denied w with ⟨p, fs, hp, -, hwrite, hnode⟩ | hwrite
  · obtain ⟨p', htarget, -⟩ := writeContainerMetadata_zero (congrArg Prod.fst hwrite)
    obtain rfl := Except.ok.inj (hp.symm.trans (resolve_of_writeTarget htarget))
    obtain rfl := hown p htarget
    exact Or.inr ⟨by rw [htarget]; rfl, fs, hwrite, replaced_of_node hnode⟩
  · refine Or.inl ⟨?_, hwrite⟩
    cases htarget : w.fs.writeTarget w.cwd (cstr container.configPath) denied with
    | none => rfl
    | some p =>
      have hzero := writeContainerMetadata_of_target htarget
      rw [hwrite] at hzero
      simp at hzero

/-- Where a path leads does not depend on who asks. -/
theorem namesOwn_of_denied {junk : ContainerInfo} (h : NamesOwn id junk false w) (denied : Bool) :
    NamesOwn id junk denied w := by
  cases denied with
  | false => exact h
  | true =>
    intro p hp
    simp [writeTarget] at hp

end Table

/-! ## 4. Create -/

/-- What the two `mkdir` and the `fopen` of a creation are answered. -/
def CreateEnv.answers (args : CreateArgs) (env : CreateEnv) (w : World) : CreateAnswers :=
  let container := newContainer args env
  let made := w.fs.mkdirExistOk w.cwd (getContainerFullPath (cstr container.id)) env.mkdirDenied
  let rootfs := (made.getD w.fs).mkdirExistOk w.cwd (cstr container.rootfsPath) env.rootfsDenied
  let target := (rootfs.getD w.fs).writeTarget w.cwd (cstr container.configPath) env.writeDenied
  { directory := made.isSome
    rootfs := rootfs.isSome
    written := target.isSome }

/-- A creation returns 0 exactly when it is answered well throughout. -/
theorem createContainer_zero_iff (args : CreateArgs) (env : CreateEnv) (w : World) :
    (createContainer args env w).1 = 0 ↔ Registry.Made (env.answers args w) := by
  unfold createContainer
  simp only
  cases hmade : w.fs.mkdirExistOk w.cwd (getContainerFullPath (cstr (newContainer args env).id))
      env.mkdirDenied with
  | none =>
    refine iff_of_false (by simp) fun h => ?_
    have hdirectory := h.directory
    simp [CreateEnv.answers, hmade] at hdirectory
  | some fs₁ =>
    simp only
    cases hrootfs : fs₁.mkdirExistOk w.cwd (cstr (newContainer args env).rootfsPath)
        env.rootfsDenied with
    | none =>
      refine iff_of_false (by simp) fun h => ?_
      have hrefused := h.rootfs
      simp [CreateEnv.answers, hmade, hrootfs] at hrefused
    | some fs₂ =>
      have hwritten : (env.answers args w).written = true ↔ ∃ p, fs₂.writeTarget w.cwd
          (cstr (newContainer args env).configPath) env.writeDenied = some p := by
        simp [CreateEnv.answers, hmade, hrootfs, Option.isSome_iff_exists]
      constructor
      · intro hzero
        obtain ⟨p, htarget, -⟩ := writeContainerMetadata_zero hzero
        exact ⟨by simp [CreateEnv.answers, hmade], by simp [CreateEnv.answers, hmade, hrootfs],
          hwritten.mpr ⟨p, htarget⟩⟩
      · intro h
        obtain ⟨p, htarget⟩ := hwritten.mp h.written
        exact writeContainerMetadata_of_target htarget

theorem createContainer_processes (args : CreateArgs) (env : CreateEnv) (w : World) :
    (createContainer args env w).2.children = w.children ∧
      (createContainer args env w).2.signals = w.signals := by
  unfold createContainer
  simp only
  split
  · exact ⟨rfl, rfl⟩
  · split
    · exact ⟨rfl, rfl⟩
    · unfold writeContainerMetadata
      split <;> exact ⟨rfl, rfl⟩

/-- A creation touches no record but its own, and no process. -/
theorem createContainer_refines {args : CreateArgs} {env : CreateEnv} {w : World} (hw : Kept w)
    (hquote : QuoteFree (newContainer args env)) :
    Registry.Step (registryOf w) (.create (generateContainerId env.now) (env.answers args w))
      (createContainer args env w).1 (registryOf (createContainer args env w).2) ∧
    Kept (createContainer args env w).2 := by
  obtain ⟨hchildren, hsignals⟩ := createContainer_processes args env w
  have heffect := createContainer_effect args env w
  have hmade := createContainer_zero_iff args env w
  rcases heffect.outcome with ⟨hzero, hfile, -⟩ | ⟨hfail, hsame⟩
  · have hreplaced : Replaced (generateContainerId env.now)
        (some (.file (containerText (newContainer args env)))) w (createContainer args env w).2 := by
      intro id
      by_cases hid : id = generateContainerId env.now
      · rw [if_pos hid, hid, hfile]
      · rw [if_neg hid]
        exact other_record_kept (args, env) w hid
    have hnew : phaseOf (newContainer args env) = .created := rfl
    rw [hzero, hreplaced.registryOf hchildren hsignals, phaseOfNode_record hquote, hnew]
    exact ⟨.created _ _ (hmade.mp hzero), hreplaced.kept hw ⟨env.now, rfl⟩ hquote⟩
  · have hfiles : ∀ id, (createContainer args env w).2.fs.node (metadataFile id)
        = w.fs.node (metadataFile id) := by
      intro id
      by_cases hid : id = generateContainerId env.now
      · rw [hid, hsame]
      · exact other_record_kept (args, env) w hid
    rw [hfail, registryOf_congr hfiles hchildren hsignals]
    refine ⟨.notCreated _ _ fun h => ?_, kept_congr hfiles hw⟩
    rw [hmade.mpr h] at hfail
    simp at hfail

/-! ## 5. Start -/

/-- What a start leaves to chance. -/
structure StartMeets (id : List Char) (env : StartEnv) (w : World) : Prop where
  isId : IsId id
  quotes : QuoteFree env.junk
  terminated : HoldsString MAX_PATH_LEN env.junk.configPath
  own : NamesOwn id env.junk false w

/-- What a start is answered. -/
def StartEnv.answers (env : StartEnv) (w : World) : StartAnswers where
  opened := !env.readDenied
  stack := env.stack
  child := env.child
  written := (w.fs.writeTarget w.cwd (cstr env.junk.configPath) env.writeDenied).isSome
  detached := decide (env.junk.detach ≠ 0)
  waited := env.waited
  stale := env.statusJunk
  rewritten := !env.rewriteDenied

section Cloned

variable {id : List Char} {env : StartEnv} {w : World} (hid : IsId id) (hw : Kept w)

include hid hw

/-- A start that is ready for its child is one of an idle container. -/
theorem cloned_of_ready {container : ContainerInfo} {childPid : Int32}
    (h : StartReady id env w container childPid) :
    (registryOf w).Cloned id (env.answers w) childPid := by
  obtain ⟨hread, hstate, hstack, hchild⟩ := h
  obtain ⟨-, hphase, -⟩ := record_of_read hid hw hread
  refine ⟨idle_of_phase hphase hstate, ?_, hstack, hchild⟩
  cases hdenied : env.readDenied with
  | false => simp [StartEnv.answers, hdenied]
  | true => simp [readContainerMetadata, hdenied, openRead] at hread

/-- And the start of an idle container, answered like this, is ready. -/
theorem ready_of_cloned {childPid : Int32} (h : (registryOf w).Cloned id (env.answers w) childPid) :
    containerExists id w = true ∧ ∃ container, StartReady id env w container childPid := by
  obtain ⟨phase, hphase, hidle⟩ := h.idle
  obtain ⟨hexists, container, hread, rfl⟩ := read_of_phase hid hw hphase env.junk
  have hopened : env.readDenied = false := by simpa [StartEnv.answers] using h.opened
  refine ⟨hexists, container, hopened ▸ hread, fun hrun => ?_, h.stack, h.child⟩
  refine hidle container.pid ?_
  rw [phaseOf, if_pos hrun]

end Cloned

/-- A start does not get as far as its child; or it does, and cannot
write; or it returns 0. -/
theorem startContainer_cases (id : List Char) (env : StartEnv) (w : World) :
    (startContainer id env w = (-1, w) ∧ (containerExists id w = false ∨
      ∀ container childPid, ¬ StartReady id env w container childPid)) ∨
    ∃ container childPid, StartReady id env w container childPid ∧
      ((startContainer id env w = (-1, (w.fork childPid).kill childPid .SIGKILL) ∧
        (writeContainerMetadata (runningRecord container childPid env.startedAt) env.writeDenied
          (w.fork childPid)).1 ≠ 0) ∨
        (startContainer id env w).1 = 0) := by
  by_cases hex : containerExists id w = false
  · exact Or.inl ⟨startContainer_missing hex env, Or.inl hex⟩
  unfold startContainer
  rw [if_neg hex]
  cases hr : readContainerMetadata id env.readDenied w env.junk with
  | none =>
    refine Or.inl ⟨rfl, Or.inr fun container childPid hready => ?_⟩
    exact absurd (hr.symm.trans hready.1) (by simp)
  | some container =>
    simp only
    have hsame : ∀ container' childPid, StartReady id env w container' childPid →
        container' = container := fun _ _ hready => Option.some.inj (hready.1.symm.trans hr)
    by_cases hrun : container.state = ContainerState.running.code
    · refine Or.inl ⟨if_pos hrun, Or.inr fun container' childPid hready => ?_⟩
      exact hready.2.1 (hsame _ _ hready ▸ hrun)
    rw [if_neg hrun]
    by_cases hstack : env.stack = false
    · refine Or.inl ⟨if_pos hstack, Or.inr fun container' childPid hready => ?_⟩
      exact absurd (hstack.symm.trans hready.2.2.1) (by simp)
    rw [if_neg hstack]
    cases hc : env.child with
    | none =>
      refine Or.inl ⟨rfl, Or.inr fun container' childPid hready => ?_⟩
      exact absurd (hc.symm.trans hready.2.2.2) (by simp)
    | some childPid =>
      refine Or.inr ⟨container, childPid, ⟨hr, hrun, by simpa using hstack, hc⟩, ?_⟩
      simp only
      rcases writeContainerMetadata_cases (runningRecord container childPid env.startedAt)
        env.writeDenied (w.fork childPid) with ⟨p, fs', -, -, hw, -⟩ | hw
      · rw [hw]
        refine Or.inr ?_
        by_cases hd : (runningRecord container childPid env.startedAt).detach ≠ 0
        · simp [hd]
        · simp [hd]
      · rw [hw]
        exact Or.inl ⟨rfl, by simp⟩

section Foreground

variable {id : List Char} {env : StartEnv} {w : World} {r : Registry} {childPid : Int32}

/-- Once a foreground start has waited. -/
theorem registryOf_afterWait (env : StartEnv)
    (hregistry : registryOf w = (r.fork childPid).setPhase id (some (.running childPid))) :
    registryOf (afterWait env childPid w)
      = (if env.waited.isSome then (r.fork childPid).reap childPid else r.fork childPid).setPhase id
          (some (.running childPid)) := by
  rw [afterWait]
  split
  · rw [registryOf_reap, hregistry]
    rfl
  · exact hregistry

/-- The second write of a foreground start. -/
theorem rewrite_refines {running : ContainerInfo} {answers : StartAnswers}
    (hcloned : r.Cloned id answers childPid) (hwritten : answers.written = true)
    (hattached : answers.detached = false) (hwaited : answers.waited = env.waited)
    (hstale : answers.stale = env.statusJunk) (hrewritten : answers.rewritten = !env.rewriteDenied)
    (hnow : ∃ now, id = generateContainerId now) (hclean : QuoteFree running)
    (htarget : w.fs.writeTarget w.cwd (cstr running.configPath) false = some (metadataFile id))
    (hkept : Kept w)
    (hregistry : registryOf w = (r.fork childPid).setPhase id (some (.running childPid))) :
    Registry.Start id answers r 0 (registryOf (writeContainerMetadata
        (exitedRecord running (env.waited.getD env.statusJunk) env.finishedAt)
        env.rewriteDenied (afterWait env childPid w)).2) ∧
      Kept (writeContainerMetadata
        (exitedRecord running (env.waited.getD env.statusJunk) env.finishedAt)
        env.rewriteDenied (afterWait env childPid w)).2 := by
  have hafter := registryOf_afterWait env hregistry
  have hkept' : Kept (afterWait env childPid w) :=
    kept_congr (fun id => by rw [afterWait_fs]) hkept
  have htarget' : (afterWait env childPid w).fs.writeTarget (afterWait env childPid w).cwd
      (cstr (exitedRecord running (env.waited.getD env.statusJunk) env.finishedAt).configPath)
      env.rewriteDenied = if env.rewriteDenied then none else some (metadataFile id) := by
    rw [afterWait_fs, afterWait_cwd, exitedRecord_configPath]
    cases hdenied : env.rewriteDenied with
    | false => exact htarget
    | true => simp [writeTarget]
  have hown' : ∀ p ∈ (afterWait env childPid w).fs.writeTarget (afterWait env childPid w).cwd
      (cstr (exitedRecord running (env.waited.getD env.statusJunk) env.finishedAt).configPath)
      env.rewriteDenied, p = metadataFile id := by
    rw [htarget']
    intro p hp
    cases hdenied : env.rewriteDenied with
    | false => simpa [hdenied, eq_comm] using hp
    | true => simp [hdenied] at hp
  rcases write_replaces hown' with ⟨hnone, hfail⟩ | ⟨hsome, fs, hwrite, hreplaced⟩
  · have hforgotten : answers.rewritten = false := by
      rw [htarget'] at hnone
      rw [hrewritten]
      cases hdenied : env.rewriteDenied with
      | false => simp [hdenied] at hnone
      | true => rfl
    rw [hfail, hafter, ← hwaited]
    exact ⟨.forgotten hcloned hwritten hattached hforgotten, hkept'⟩
  · have hagain : answers.rewritten = true := by
      rw [htarget'] at hsome
      rw [hrewritten]
      cases hdenied : env.rewriteDenied with
      | false => rfl
      | true => simp [hdenied] at hsome
    have hexited := quoteFree_exitedRecord hclean (env.waited.getD env.statusJunk) env.finishedAt
    have hnext := hreplaced.registryOf rfl rfl
    rw [phaseOfNode_record hexited, phaseOf_exitedRecord, hafter, Registry.setPhase_setPhase,
      ← hwaited, ← hstale] at hnext
    rw [hwrite]
    simp only
    rw [hnext]
    exact ⟨.waited hcloned hwritten hattached hagain, hreplaced.kept hkept' hnow hexited⟩

end Foreground

theorem startContainer_refines {id : List Char} {env : StartEnv} {w : World} (hw : Kept w)
    (h : StartMeets id env w) :
    Registry.Start id (env.answers w) (registryOf w) (startContainer id env w).1
      (registryOf (startContainer id env w).2) ∧ Kept (startContainer id env w).2 := by
  rcases startContainer_cases id env w with ⟨hrefused, hcause⟩ | ⟨container, childPid, hready, hrest⟩
  · rw [hrefused]
    refine ⟨.refused fun pid hcloned => ?_, hw⟩
    obtain ⟨hexists, container, hready⟩ := ready_of_cloned h.isId hw hcloned
    rcases hcause with hmissing | hnone
    · exact absurd (hmissing.symm.trans hexists) (by simp)
    · exact hnone _ _ hready
  have htarget : ∀ {container : ContainerInfo} (pid : Int32),
      readContainerMetadata id env.readDenied w env.junk = some container →
      (w.fork pid).fs.writeTarget (w.fork pid).cwd
        (cstr (runningRecord container pid env.startedAt).configPath) env.writeDenied
        = w.fs.writeTarget w.cwd (cstr env.junk.configPath) env.writeDenied := by
    intro container pid hread
    rw [runningRecord_configPath, configPath_unread hread]
    rfl
  rcases hrest with ⟨hkilled, hunwritten⟩ | hzero
  · have hnone : (env.answers w).written = false := by
      cases hwritten : w.fs.writeTarget w.cwd (cstr env.junk.configPath) env.writeDenied with
      | none => simp [StartEnv.answers, hwritten]
      | some p =>
        exact absurd (writeContainerMetadata_of_target ((htarget _ hready.1).trans hwritten))
          hunwritten
    rw [hkilled]
    exact ⟨.killed (cloned_of_ready h.isId hw hready) hnone, hw⟩
  obtain ⟨container, childPid, hready, hwrite, hafter⟩ := startContainer_zero hzero
  have hcloned := cloned_of_ready h.isId hw hready
  obtain ⟨hread, hstate, -, hchild⟩ := hready
  obtain ⟨hnow, -, hquote⟩ := record_of_read h.isId hw hread
  have hclean : QuoteFree (runningRecord container childPid env.startedAt) :=
    quoteFree_runningRecord (hquote h.quotes) _ _
  have hown : ∀ p ∈ (w.fork childPid).fs.writeTarget (w.fork childPid).cwd
      (cstr (runningRecord container childPid env.startedAt).configPath) env.writeDenied,
      p = metadataFile id := by
    rw [htarget _ hread]
    exact namesOwn_of_denied h.own env.writeDenied
  rw [hzero, hafter]
  rcases write_replaces hown with ⟨-, hfail⟩ | ⟨hsome, fs, hfirst, hreplaced⟩
  · rw [hfail] at hwrite
    simp at hwrite
  · have hwritten : (env.answers w).written = true := by
      rw [htarget _ hread] at hsome
      exact hsome
    obtain ⟨p, hp, hagain, -⟩ := writeContainerMetadata_zero hwrite
    obtain rfl := hown p hp
    rw [hfirst] at hagain ⊢
    simp only at hagain ⊢
    have hkept : Kept { w.fork childPid with fs := fs } := hreplaced.kept hw hnow hclean
    have hregistry := hreplaced.registryOf rfl rfl
    rw [phaseOfNode_record hclean, phaseOf_runningRecord, registryOf_fork] at hregistry
    have hdetach := detach_unread hread
    by_cases hd : container.detach ≠ 0
    · rw [if_pos hd, hregistry]
      have hdetached : (env.answers w).detached = true := by
        simpa [StartEnv.answers, ← hdetach] using hd
      exact ⟨.detached hcloned hwritten hdetached, hkept⟩
    · rw [if_neg hd]
      have hattached : (env.answers w).detached = false := by
        simpa [StartEnv.answers, ← hdetach] using hd
      exact rewrite_refines hcloned hwritten hattached rfl rfl rfl hnow hclean hagain hkept
        hregistry

/-! ## 6. Stop and restart -/

/-- What a stop leaves to chance; and `waitpid` waits for children only. -/
structure StopMeets (id : List Char) (env : StopEnv) (w : World) : Prop where
  isId : IsId id
  quotes : QuoteFree env.junk
  terminated : HoldsString MAX_PATH_LEN env.junk.configPath
  own : NamesOwn id env.junk false w
  waits : ∀ pid, (registryOf w).phase id = some (.running pid) → env.waited.isSome = true →
    pid ∈ w.children

/-- What a stop is answered. -/
def StopEnv.answers (env : StopEnv) (w : World) : StopAnswers where
  opened := !env.readDenied
  killed := env.killed
  waited := env.waited
  written := (w.fs.writeTarget w.cwd (cstr env.junk.configPath) env.writeDenied).isSome

/-- A stop does not get as far as its signal; or nobody answers it; or
the end of the child is written down, or not. -/
theorem stopContainer_cases (id : List Char) (env : StopEnv) (w : World) :
    (stopContainer id env w = (-1, w) ∧ (containerExists id w = false ∨ ∀ container,
      readContainerMetadata id env.readDenied w env.junk = some container →
        container.state ≠ ContainerState.running.code ∨ env.killed = false)) ∨
    ∃ container, readContainerMetadata id env.readDenied w env.junk = some container ∧
      container.state = ContainerState.running.code ∧ env.killed = true ∧
      ((env.waited = none ∧ stopContainer id env w = (-1, w.kill container.pid .SIGTERM)) ∨
        ∃ status, env.waited = some status ∧ stopContainer id env w
          = writeContainerMetadata (exitedRecord container status env.finishedAt) env.writeDenied
              ((w.kill container.pid .SIGTERM).reap container.pid)) := by
  by_cases hex : containerExists id w = false
  · exact Or.inl ⟨stopContainer_missing hex env, Or.inl hex⟩
  unfold stopContainer
  rw [if_neg hex]
  cases hr : readContainerMetadata id env.readDenied w env.junk with
  | none => exact Or.inl ⟨rfl, Or.inr (by simp)⟩
  | some container =>
    simp only
    by_cases hrun : container.state ≠ ContainerState.running.code
    · refine Or.inl ⟨if_pos hrun, Or.inr ?_⟩
      rintro _ ⟨⟩
      exact Or.inl hrun
    rw [if_neg hrun]
    by_cases hkill : env.killed = false
    · exact Or.inl ⟨if_pos hkill, Or.inr fun _ _ => Or.inr hkill⟩
    rw [if_neg hkill]
    refine Or.inr ⟨container, rfl, not_not.mp hrun, by simpa using hkill, ?_⟩
    cases hwait : env.waited with
    | none => exact Or.inl ⟨rfl, rfl⟩
    | some status => exact Or.inr ⟨status, rfl, rfl⟩

/-- A stop of a container that runs, answered like this, is not refused. -/
theorem running_of_signalled {id : List Char} {env : StopEnv} {w : World} {pid : Int32}
    (hid : IsId id) (hw : Kept w) (h : (registryOf w).Signalled id (env.answers w) pid) :
    containerExists id w = true ∧ ∃ container,
      readContainerMetadata id env.readDenied w env.junk = some container ∧
      container.state = ContainerState.running.code ∧ env.killed = true := by
  obtain ⟨hexists, container, hread, hphase⟩ := read_of_phase hid hw h.runs env.junk
  have hopened : env.readDenied = false := by simpa [StopEnv.answers] using h.opened
  refine ⟨hexists, container, hopened ▸ hread, ?_, h.killed⟩
  by_contra hrun
  rw [phaseOf, if_neg hrun] at hphase
  split at hphase <;> simp at hphase

theorem stopContainer_refines {id : List Char} {env : StopEnv} {w : World} (hw : Kept w)
    (h : StopMeets id env w) :
    Registry.Stop id (env.answers w) (registryOf w) (stopContainer id env w).1
      (registryOf (stopContainer id env w).2) ∧ Kept (stopContainer id env w).2 := by
  rcases stopContainer_cases id env w with
    ⟨hrefused, hcause⟩ | ⟨container, hread, hstate, hkilled, hrest⟩
  · rw [hrefused]
    refine ⟨.refused fun pid hsignalled => ?_, hw⟩
    obtain ⟨hexists, container, hread, hrun, hkilled⟩ := running_of_signalled h.isId hw hsignalled
    rcases hcause with hmissing | hnone
    · exact absurd (hmissing.symm.trans hexists) (by simp)
    · rcases hnone container hread with hstate | hkill
      · exact hstate hrun
      · exact absurd (hkill.symm.trans hkilled) (by simp)
  · obtain ⟨hnow, hphase, hquote⟩ := record_of_read h.isId hw hread
    have hruns : (registryOf w).phase id = some (.running container.pid) := by
      rw [hphase, phaseOf, if_pos hstate]
    have hopened : (env.answers w).opened = true := by
      cases hdenied : env.readDenied with
      | false => simp [StopEnv.answers, hdenied]
      | true => simp [readContainerMetadata, hdenied, openRead] at hread
    have hsignalled : (registryOf w).Signalled id (env.answers w) container.pid :=
      ⟨hruns, hopened, hkilled⟩
    rcases hrest with ⟨hwait, hstop⟩ | ⟨status, hwait, hstop⟩
    · rw [hstop]
      exact ⟨.unanswered hsignalled hwait, hw⟩
    · have hchild : container.pid ∈ w.children := h.waits _ hruns (by rw [hwait]; rfl)
      have hclean := quoteFree_exitedRecord (hquote h.quotes) status env.finishedAt
      have htarget : ((w.kill container.pid .SIGTERM).reap container.pid).fs.writeTarget
          ((w.kill container.pid .SIGTERM).reap container.pid).cwd
          (cstr (exitedRecord container status env.finishedAt).configPath) env.writeDenied
          = w.fs.writeTarget w.cwd (cstr env.junk.configPath) env.writeDenied := by
        rw [exitedRecord_configPath, configPath_unread hread]
        rfl
      have hown : ∀ p ∈ ((w.kill container.pid .SIGTERM).reap container.pid).fs.writeTarget
          ((w.kill container.pid .SIGTERM).reap container.pid).cwd
          (cstr (exitedRecord container status env.finishedAt).configPath) env.writeDenied,
          p = metadataFile id := by
        rw [htarget]
        exact namesOwn_of_denied h.own env.writeDenied
      rw [hstop]
      rcases write_replaces hown with ⟨hnone, hfail⟩ | ⟨hsome, fs, hwrite, hreplaced⟩
      · rw [htarget] at hnone
        rw [hfail]
        exact ⟨.unrecorded hsignalled hwait hchild hnone, hw⟩
      · have hregistry := hreplaced.registryOf rfl rfl
        rw [phaseOfNode_record hclean, phaseOf_exitedRecord, registryOf_reap, registryOf_kill]
          at hregistry
        rw [htarget] at hsome
        rw [hwrite]
        simp only
        rw [hregistry]
        exact ⟨.stopped hsignalled hwait hchild hsome, hreplaced.kept hw hnow hclean⟩

/-- What a restart leaves to chance. -/
structure RestartMeets (id : List Char) (stopEnv : StopEnv) (startEnv : StartEnv) (w : World) :
    Prop where
  stop : StopMeets id stopEnv w
  start : StartMeets id startEnv (stopContainer id stopEnv w).2

theorem restartContainer_refines {id : List Char} {stopEnv : StopEnv} {startEnv : StartEnv}
    {w : World} (hw : Kept w) (h : RestartMeets id stopEnv startEnv w) :
    Registry.Step (registryOf w) (.restart id (stopEnv.answers w)
        (startEnv.answers (stopContainer id stopEnv w).2))
      (restartContainer id stopEnv startEnv w).1
      (registryOf (restartContainer id stopEnv startEnv w).2) ∧
    Kept (restartContainer id stopEnv startEnv w).2 := by
  obtain ⟨hstop, hkept⟩ := stopContainer_refines hw h.stop
  have hstart := startContainer_refines hkept h.start
  rw [restartContainer]
  clear h
  generalize stopContainer id stopEnv w = stopped at *
  obtain ⟨result, after⟩ := stopped
  rcases hstop.phase with ⟨-, hresult⟩ | ⟨-, hresult, -⟩
  · have hfail : result = -1 := hresult
    subst hfail
    exact ⟨.notRestarted hstop, hkept⟩
  · have hzero : result = 0 := hresult
    subst hzero
    exact ⟨.restart hstop hstart.1, hstart.2⟩

/-! ## 7. Remove -/

/-- What a removal leaves to chance. -/
structure RemoveMeets (id : List Char) (env : RemoveEnv) (w : World) : Prop where
  isId : IsId id
  configTerminated : HoldsString MAX_PATH_LEN env.junk.configPath
  logTerminated : HoldsString MAX_PATH_LEN env.junk.logPath
  own : ∀ p, w.fs.resolve w.cwd (cstr env.junk.configPath) = .ok p → p = metadataFile id
  log : ∀ id', w.fs.resolve w.cwd (cstr env.junk.logPath) = .ok (metadataFile id') → id' = id

/-- The file is gone, or was not there. -/
def isGone : Except Errno FileSystem → Bool
  | .ok _ => true
  | .error .ENOENT => true
  | .error _ => false

/-- What the `rm` and the two `unlink` of a removal are answered. -/
def RemoveEnv.answers (id : List Char) (env : RemoveEnv) (w : World) : RemoveAnswers :=
  let rm := env.shell.system w.cwd w.fs (snprintf 1024 ("rm -rf ".toList ++ getContainerFullPath id))
  let config := rm.2.unlink w.cwd (cstr env.junk.configPath) env.unlinkConfigDenied
  let log := (config.toOption.getD rm.2).unlink w.cwd (cstr env.junk.logPath) env.unlinkLogDenied
  { opened := !env.readDenied
    swept := rm.1 == 0
    unlinked := config.toOption.isSome
    logGone := isGone log }

section Removal

variable {id : List Char} {env : RemoveEnv} {w : World}

/-- `rm -rf` of a container's directory leaves every record, and makes no
directory. -/
theorem rm_keeps_records (env : RemoveEnv) (w : World) (now : Int64) :
    (∀ id', (env.shell.system w.cwd w.fs (snprintf 1024 ("rm -rf ".toList ++
        getContainerFullPath (generateContainerId now)))).2.node (metadataFile id')
      = w.fs.node (metadataFile id')) ∧
    ∀ q, (env.shell.system w.cwd w.fs (snprintf 1024 ("rm -rf ".toList ++
        getContainerFullPath (generateContainerId now)))).2.node q = some .dir →
      w.fs.node q = some .dir := by
  rw [rmCommand_eq, containerDir]
  by_cases hd : w.fs.node storageDir = some .dir
  · rw [env.shell.system_rm w.cwd ordinary_storageDir (ordinary_generateContainerId now) hd
      (plainWord_containerDir now).literal]
    split
    · refine ⟨fun id' => ?_, fun q hq => ?_⟩
      · exact node_rmTree_outside _ _ _ (by simp) (containerDir_not_prefix_metadataFile _ _)
      · rw [node_rmTree] at hq
        split at hq
        · exact hq
        · simp at hq
    · exact ⟨fun _ => rfl, fun _ hq => hq⟩
  · rw [env.shell.system_rm_absent w.cwd ordinary_storageDir (ordinary_generateContainerId now) hd
      (plainWord_containerDir now).literal]
    split <;> exact ⟨fun _ => rfl, fun _ hq => hq⟩

/-- A removal does not get as far as its `rm`; or it gets no further; or
it deletes what `config_path` names, and what `log_path` names or not. -/
theorem removeContainer_cases (id : List Char) (env : RemoveEnv) (w : World) :
    (removeContainer id env w = (-1, w) ∧ (containerExists id w = false ∨ ∀ container,
      readContainerMetadata id env.readDenied w env.junk = some container →
        container.state = ContainerState.running.code)) ∨
    ∃ container fs, readContainerMetadata id env.readDenied w env.junk = some container ∧
      container.state ≠ ContainerState.running.code ∧
      fs = (env.shell.system w.cwd w.fs
        (snprintf 1024 ("rm -rf ".toList ++ getContainerFullPath id))).2 ∧
      ((removeContainer id env w = (-1, { w with fs := fs }) ∧
        ((env.answers id w).swept = false ∨ (env.answers id w).unlinked = false)) ∨
      ∃ fs₁ fs₂, (env.answers id w).swept = true ∧ (env.answers id w).unlinked = true ∧
        fs.unlink w.cwd (cstr env.junk.configPath) env.unlinkConfigDenied = .ok fs₁ ∧
        (fs₂ = fs₁ ∨ fs₁.unlink w.cwd (cstr env.junk.logPath) env.unlinkLogDenied = .ok fs₂) ∧
        removeContainer id env w
          = (if (env.answers id w).logGone then 0 else -1, { w with fs := fs₂ })) := by
  by_cases hex : containerExists id w = false
  · exact Or.inl ⟨removeContainer_missing hex env, Or.inl hex⟩
  cases hr : readContainerMetadata id env.readDenied w env.junk with
  | none =>
    refine Or.inl ⟨?_, Or.inr (by simp)⟩
    rw [removeContainer, if_neg hex, hr]
  | some container =>
    by_cases hrun : container.state = ContainerState.running.code
    · refine Or.inl ⟨?_, Or.inr ?_⟩
      · rw [removeContainer, if_neg hex, hr]
        exact if_pos hrun
      · rintro _ ⟨⟩
        exact hrun
    refine Or.inr ⟨container, _, rfl, hrun, rfl, ?_⟩
    rw [removeContainer, if_neg hex, hr]
    simp only
    rw [if_neg hrun, configPath_unread hr, logPath_unread hr]
    cases hrm : env.shell.system w.cwd w.fs
      (snprintf 1024 ("rm -rf ".toList ++ getContainerFullPath id)) with
    | mk status fs =>
      by_cases hstatus : status ≠ 0
      · refine Or.inl ⟨if_pos hstatus, Or.inl ?_⟩
        simp only [RemoveEnv.answers, hrm, beq_eq_false_iff_ne]
        exact hstatus
      have hswept : (env.answers id w).swept = true := by
        simp only [RemoveEnv.answers, hrm, beq_iff_eq]
        exact not_not.mp hstatus
      simp only [if_neg hstatus]
      cases h₁ : fs.unlink w.cwd (cstr env.junk.configPath) env.unlinkConfigDenied with
      | error e =>
        refine Or.inl ⟨rfl, Or.inr ?_⟩
        simp only [RemoveEnv.answers, hrm, h₁]
        rfl
      | ok fs₁ =>
        have hunlinked : (env.answers id w).unlinked = true := by
          simp only [RemoveEnv.answers, hrm, h₁]
          rfl
        have hlog : (env.answers id w).logGone
            = isGone (fs₁.unlink w.cwd (cstr env.junk.logPath) env.unlinkLogDenied) := by
          simp only [RemoveEnv.answers, hrm, h₁]
          rfl
        rw [hlog]
        refine Or.inr ⟨fs₁, ?_⟩
        cases h₂ : fs₁.unlink w.cwd (cstr env.junk.logPath) env.unlinkLogDenied with
        | ok fs₂ => exact ⟨fs₂, hswept, hunlinked, rfl, Or.inr rfl, by simp only [h₂]; rfl⟩
        | error e =>
          cases e with
          | ENOENT => exact ⟨fs₁, hswept, hunlinked, rfl, Or.inl rfl, by simp only [h₂]; rfl⟩
          | _ => exact ⟨fs₁, hswept, hunlinked, rfl, Or.inl rfl, by simp only [h₂]; rfl⟩

/-- The two unlinks delete the container's own record and no other. -/
theorem unlinks_replace {fs fs₁ fs₂ : FileSystem} (h : RemoveMeets id env w)
    (hrecords : ∀ id', fs.node (metadataFile id') = w.fs.node (metadataFile id'))
    (hdirs : ∀ q, fs.node q = some .dir → w.fs.node q = some .dir)
    (h₁ : fs.unlink w.cwd (cstr env.junk.configPath) env.unlinkConfigDenied = .ok fs₁)
    (h₂ : fs₂ = fs₁ ∨ fs₁.unlink w.cwd (cstr env.junk.logPath) env.unlinkLogDenied = .ok fs₂) :
    Replaced id none w { w with fs := fs₂ } := by
  obtain ⟨p₁, c₁, hp₁, -, hnode₁⟩ := unlink_ok h₁
  obtain rfl := h.own p₁ (resolve_mono hdirs hp₁)
  have hfirst : ∀ id', fs₁.node (metadataFile id')
      = if id' = id then none else w.fs.node (metadataFile id') := by
    intro id'
    rw [hnode₁, hrecords]
    by_cases hid : id' = id
    · rw [if_pos hid, if_pos (by rw [hid])]
    · rw [if_neg hid, if_neg (fun heq => hid (metadataFile_inj heq))]
  rcases h₂ with rfl | h₂
  · exact hfirst
  · obtain ⟨p₂, c₂, hp₂, -, hnode₂⟩ := unlink_ok h₂
    have hdirs₁ : ∀ q, fs₁.node q = some .dir → w.fs.node q = some .dir := by
      intro q hq
      rw [hnode₁] at hq
      split at hq
      · simp at hq
      · exact hdirs q hq
    intro id'
    have hsecond : ({ w with fs := fs₂ } : World).fs.node (metadataFile id')
        = if metadataFile id' = p₂ then none else fs₁.node (metadataFile id') := hnode₂ _
    rw [hsecond, hfirst]
    by_cases hid : id' = id
    · rw [if_pos hid]
      split <;> rfl
    · rw [if_neg hid, if_neg]
      rintro rfl
      exact hid (h.log id' (resolve_mono hdirs₁ hp₂))

theorem removeContainer_refines (hw : Kept w) (h : RemoveMeets id env w) :
    Registry.Remove id (env.answers id w) (registryOf w) (removeContainer id env w).1
      (registryOf (removeContainer id env w).2) ∧ Kept (removeContainer id env w).2 := by
  rcases removeContainer_cases id env w with
    ⟨hrefused, hcause⟩ | ⟨container, fs, hread, hstate, hfs, hrest⟩
  · rw [hrefused]
    refine ⟨.refused fun hunlinked => ?_, hw⟩
    obtain ⟨phase, hphase, hidle⟩ := hunlinked.idle
    obtain ⟨hexists, container, hread, rfl⟩ := read_of_phase h.isId hw hphase env.junk
    have hopened : env.readDenied = false := by simpa [RemoveEnv.answers] using hunlinked.opened
    rcases hcause with hmissing | hrun
    · exact absurd (hmissing.symm.trans hexists) (by simp)
    · refine hidle container.pid ?_
      rw [phaseOf, if_pos (hrun container (hopened ▸ hread))]
  · obtain ⟨⟨now, rfl⟩, hphase, -⟩ := record_of_read h.isId hw hread
    obtain ⟨hrecords, hdirs⟩ := rm_keeps_records env w now
    rw [← hfs] at hrecords hdirs
    rcases hrest with ⟨hfail, hanswer⟩ | ⟨fs₁, fs₂, hswept, hunlinked, h₁, h₂, hremove⟩
    · have hregistry : registryOf { w with fs := fs } = registryOf w :=
        registryOf_congr hrecords rfl rfl
      rw [hfail]
      simp only
      rw [hregistry]
      refine ⟨.refused fun hall => ?_, kept_congr hrecords hw⟩
      rcases hanswer with hno | hno
      · exact absurd (hno.symm.trans hall.swept) (by simp)
      · exact absurd (hno.symm.trans hall.unlinked) (by simp)
    · have hreplaced := unlinks_replace h hrecords hdirs h₁ h₂
      have hopened : (env.answers (generateContainerId now) w).opened = true := by
        cases hdenied : env.readDenied with
        | false => simp [RemoveEnv.answers, hdenied]
        | true => simp [readContainerMetadata, hdenied, openRead] at hread
      rw [hremove]
      simp only
      rw [hreplaced.registryOf rfl rfl]
      exact ⟨.removed ⟨idle_of_phase hphase hstate, hopened, hswept, hunlinked⟩,
        hreplaced.kept_none hw⟩

end Removal

/-! ## 8. Runs -/

/-- The call an operation makes, with the answer `clone` has for it. -/
def ContainerOp.call : ContainerOp → RegistryCall
  | .create _ env => .create (generateContainerId env.now)
  | .start id env => .start id env.child
  | .stop id _ => .stop id
  | .restart id _ startEnv => .restart id startEnv.child
  | .remove id _ => .remove id
  | .isRunning id _ _ => .isRunning id

/-- The call with what the system answers in this state. -/
def ContainerOp.answered (w : World) : ContainerOp → Answered
  | .create args env => .create (generateContainerId env.now) (env.answers args w)
  | .start id env => .start id (env.answers w)
  | .stop id env => .stop id (env.answers w)
  | .restart id stopEnv startEnv =>
      .restart id (stopEnv.answers w) (startEnv.answers (stopContainer id stopEnv w).2)
  | .remove id env => .remove id (env.answers id w)
  | .isRunning id denied _ => .isRunning id (!denied)

theorem call_answered (w : World) (op : ContainerOp) : (op.answered w).call = op.call := by
  cases op <;> rfl

/-- What an operation leaves to chance. -/
def Meets (t : Transition World ContainerOp Int) : Prop :=
  match t.action with
  | .create args env => QuoteFree (newContainer args env)
  | .start id env => StartMeets id env t.before
  | .stop id env => StopMeets id env t.before
  | .restart id stopEnv startEnv => RestartMeets id stopEnv startEnv t.before
  | .remove id env => RemoveMeets id env t.before
  | .isRunning id _ _ => IsId id

theorem isContainerRunning_refines {id : List Char} {w : World} (hw : Kept w) (hid : IsId id)
    (denied : Bool) (junk : ContainerInfo) :
    Registry.Step (registryOf w) (.isRunning id (!denied)) (isContainerRunning id denied junk w)
      (registryOf w) := by
  have hphase : ∀ {pid : Int32}, (registryOf w).phase id = some (.running pid) → ∃ container,
      readContainerMetadata id false w junk = some container ∧
      container.state = ContainerState.running.code := by
    intro pid hruns
    obtain ⟨-, container, hread, hphase⟩ := read_of_phase hid hw hruns junk
    refine ⟨container, hread, ?_⟩
    by_contra hrun
    rw [phaseOf, if_neg hrun] at hphase
    split at hphase <;> simp at hphase
  cases denied with
  | true => exact .notRunning (Or.inr rfl)
  | false =>
    rw [isContainerRunning]
    cases hread : readContainerMetadata id false w junk with
    | none =>
      refine .notRunning (Or.inl ?_)
      rintro ⟨pid, hruns⟩
      obtain ⟨container, hsome, -⟩ := hphase hruns
      exact absurd (hread.symm.trans hsome) (by simp)
    | some container =>
      simp only
      split
      · rename_i hrun
        obtain ⟨-, hcontainer, -⟩ := record_of_read hid hw hread
        rw [phaseOf, if_pos hrun] at hcontainer
        exact .running ⟨_, hcontainer⟩
      · rename_i hrun
        refine .notRunning (Or.inl ?_)
        rintro ⟨pid, hruns⟩
        obtain ⟨container', hsome, hstate⟩ := hphase hruns
        obtain rfl := Option.some.inj (hread.symm.trans hsome)
        exact hrun hstate

/-- Each operation does a step of the model. -/
theorem containerStep_refines (op : ContainerOp) (w : World) (hw : Kept w)
    (h : Meets (transition containerStep op w)) :
    Registry.Step (registryOf w) (op.answered w) (containerStep op w).1
      (registryOf (containerStep op w).2) ∧ Kept (containerStep op w).2 := by
  cases op with
  | create args env => exact createContainer_refines hw h
  | start id env =>
    obtain ⟨hstep, hkept⟩ := startContainer_refines hw h
    exact ⟨.start hstep, hkept⟩
  | stop id env =>
    obtain ⟨hstep, hkept⟩ := stopContainer_refines hw h
    exact ⟨.stop hstep, hkept⟩
  | restart id stopEnv startEnv => exact restartContainer_refines hw h
  | remove id env =>
    obtain ⟨hstep, hkept⟩ := removeContainer_refines hw h
    exact ⟨.remove hstep, hkept⟩
  | isRunning id denied junk => exact ⟨isContainerRunning_refines hw h denied junk, hw⟩

/-! ## 9. The life of one container -/

/-- Stale bytes that hold the paths of a container: its own are named by
them, whatever the store. -/
structure OwnPaths (id : List Char) (junk : ContainerInfo) : Prop where
  quotes : QuoteFree junk
  configTerminated : HoldsString MAX_PATH_LEN junk.configPath
  logTerminated : HoldsString MAX_PATH_LEN junk.logPath
  config : cstr junk.configPath = absPath (metadataFile id)
  log : cstr junk.logPath = absPath (logFile id)

section OwnPaths

variable {id : List Char} {junk : ContainerInfo} (hid : IsId id) (h : OwnPaths id junk)

include hid h

theorem OwnPaths.resolve {w : World} {p : Path}
    (hp : w.fs.resolve w.cwd (cstr junk.configPath) = .ok p) : p = metadataFile id :=
  resolve_configPath hid h.config hp

theorem OwnPaths.namesOwn (w : World) : NamesOwn id junk false w :=
  fun _ hp => h.resolve hid (resolve_of_writeTarget hp)

theorem OwnPaths.start {env : StartEnv} (henv : env.junk = junk) (w : World) :
    StartMeets id env w :=
  ⟨hid, henv ▸ h.quotes, henv ▸ h.configTerminated, henv ▸ h.namesOwn hid w⟩

theorem OwnPaths.stop {env : StopEnv} (henv : env.junk = junk) (hwait : env.waited = none)
    (w : World) : StopMeets id env w :=
  ⟨hid, henv ▸ h.quotes, henv ▸ h.configTerminated, henv ▸ h.namesOwn hid w,
    fun _ _ hwaited => by simp [hwait] at hwaited⟩

theorem OwnPaths.remove {env : RemoveEnv} (henv : env.junk = junk) (w : World) :
    RemoveMeets id env w := by
  refine ⟨hid, henv ▸ h.configTerminated, henv ▸ h.logTerminated,
    fun p hp => h.resolve hid (henv ▸ hp), fun id' hp => ?_⟩
  rw [henv, h.log] at hp
  have hordinary : Ordinary (id ++ ".log".toList) :=
    ordinary_append hid.noSlash (by decide) (by decide)
  have hpath := (resolve_absPath_eq (by decide) hordinary hp).1
  simp [metadataFile, metadataDir, logDir] at hpath

end OwnPaths

/-- The bytes the creation of `web` left. -/
def webLocal : ContainerInfo := newContainer (request "web") oneSecond

theorem ownPaths_webLocal : OwnPaths webId webLocal where
  quotes := webWorld_quoteFree
  configTerminated := holdsString_newContainer_configPath _ _
  logTerminated := holdsString_newContainer_logPath _ _
  config := cstr_newContainer_configPath _ _
  log := by decide

def webLife : List ContainerOp :=
  [.create (request "web") oneSecond, .start webId (startOver webLocal)]

/-- Nobody answers the signal. -/
def webAfterwards : List ContainerOp :=
  [.stop webId { stopOver webLocal with waited := none }, .remove webId (removeOver webLocal)]

theorem kept_emptyWorld : Kept emptyWorld := by
  intro id x hx
  have hnone : emptyWorld.fs.node (metadataFile id) = none :=
    (isEmptyDir_iff emptyWorld.fs metadataDir).mp (by decide) (id ++ ".json".toList)
  rw [hnone] at hx
  simp at hx

theorem meets_webLife (w : World) : ∀ t ∈ transitions containerStep webLife w, Meets t := by
  have hid : IsId webId := by decide
  have hown := ownPaths_webLocal
  intro t ht
  simp only [webLife, transitions, List.mem_cons, List.not_mem_nil, or_false] at ht
  rcases ht with rfl | rfl
  · exact hown.quotes
  · exact hown.start hid rfl _

theorem meets_webAfterwards (w : World) :
    ∀ t ∈ transitions containerStep webAfterwards w, Meets t := by
  have hid : IsId webId := by decide
  have hown := ownPaths_webLocal
  intro t ht
  simp only [webAfterwards, transitions, List.mem_cons, List.not_mem_nil, or_false] at ht
  rcases ht with rfl | rfl
  · exact hown.stop hid rfl rfl _
  · exact hown.remove hid rfl _

theorem phase_webLife : (registryOf (finalState containerStep webLife emptyWorld)).phase webId
    = some (.running 4243) := by decide +kernel

theorem phase_emptyWorld (id : List Char) : (registryOf emptyWorld).phase id = none := by
  have hnone : emptyWorld.fs.node (metadataFile id) = none :=
    (isEmptyDir_iff emptyWorld.fs metadataDir).mp (by decide) (id ++ ".json".toList)
  exact congrArg phaseOfNode hnone

/-- The daemon is started anew: the processes it had started are not its
children any more. -/
def World.restarted (w : World) : World := { w with children := [] }

theorem kept_restarted {w : World} (hw : Kept w) : Kept w.restarted :=
  kept_congr (fun _ => rfl) hw

theorem orphan_restarted {w : World} {id : List Char} {pid : Int32}
    (h : (registryOf w).phase id = some (.running pid)) :
    (registryOf w.restarted).Orphan id pid :=
  ⟨h, List.not_mem_nil⟩

/-! ## 10. Every run -/

section Refined

variable {ops : List ContainerOp} {w : World} (hw : Kept w)
  (h : ∀ t ∈ transitions containerStep ops w, Meets t)

include hw h

theorem follows_answered :
    Follows Registry.Step (registryOf w)
        (seenWith ContainerOp.answered (transitions containerStep ops w))
        (registryOf (finalState containerStep ops w)) ∧ Kept (finalState containerStep ops w) :=
  follows_of_refines registryOf ContainerOp.answered Kept Meets containerStep_refines hw h

/-- Every run of the operations is a run of the model, call by call and
result by result, and leaves records only. The model has no other run with
these calls and answers. -/
theorem container_runs_refined :
    (Follows Registry.Step (registryOf w)
        (seenWith ContainerOp.answered (transitions containerStep ops w))
        (registryOf (finalState containerStep ops w)) ∧ Kept (finalState containerStep ops w)) ∧
    ∀ seen r, Follows Registry.Step (registryOf w) seen r →
      seen.map Prod.fst = (seenWith ContainerOp.answered (transitions containerStep ops w)).map
        Prod.fst →
      seen = seenWith ContainerOp.answered (transitions containerStep ops w) ∧
        r = registryOf (finalState containerStep ops w) := by
  refine ⟨follows_answered hw h, fun seen r hrun hsame => ?_⟩
  exact Follows.unique (fun _ _ _ _ _ _ step step' => step.unique step') hrun
    (follows_answered hw h).1 hsame

end Refined

theorem webLife_refined : Follows Registry.Step (registryOf emptyWorld)
    (seenWith ContainerOp.answered (transitions containerStep webLife emptyWorld))
    (registryOf (finalState containerStep webLife emptyWorld)) :=
  (container_runs_refined kept_emptyWorld (meets_webLife emptyWorld)).1.1

section Started

variable {ops : List ContainerOp} {w : World} (hw : Kept w)
  (h : ∀ t ∈ transitions containerStep ops w, Meets t)

include hw h

/-- A container whose record says RUNNING after a run was started, or
restarted, by the last call on it that returned 0; or no call on it did,
and the record said so before. -/
theorem running_container_started {id : List Char}
    (hruns : (registryOf (finalState containerStep ops w)).Runs id) :
    (∃ before call after, seenOf ContainerOp.call (transitions containerStep ops w)
        = before ++ (call, 0) :: after ∧ call.id = id ∧ call.Starts ∧
        Registry.Untouched id after) ∨
      ((registryOf w).Runs id ∧
        Registry.Untouched id (seenOf ContainerOp.call (transitions containerStep ops w))) := by
  rw [← relabel_seenWith call_answered]
  exact Registry.started_of_runs (follows_answered hw h).1 hruns

end Started

theorem web_started : ∃ before call after,
    seenOf ContainerOp.call (transitions containerStep webLife emptyWorld)
      = before ++ (call, 0) :: after ∧ call.id = webId ∧ call.Starts ∧
      Registry.Untouched webId after := by
  refine (running_container_started kept_emptyWorld (meets_webLife emptyWorld)
    ⟨4243, phase_webLife⟩).resolve_right ?_
  rintro ⟨⟨pid, hpid⟩, -⟩
  rw [phase_emptyWorld] at hpid
  simp at hpid

section Stranded

variable {ops : List ContainerOp} {w : World} (hw : Kept w)
  (h : ∀ t ∈ transitions containerStep ops w, Meets t)

include hw h

/-- A record that says RUNNING of a process that is no child, as every
such record does once the daemon has been started anew, is stuck: in
every run in which no container of its id is created and `clone` does not
return its number, every call on it fails and it stays as it is. -/
theorem orphan_stuck {id : List Char} {pid : Int32} (horphan : (registryOf w).Orphan id pid)
    (hcreate : ∀ t ∈ transitions containerStep ops w, t.action.call = .create id → t.result ≠ 0)
    (hclone : ∀ op ∈ ops, op.call.clones ≠ some pid) :
    (∀ t ∈ transitions containerStep ops w, t.action.call.id = id → t.action.call.Acts →
      t.result = -1) ∧
    (registryOf (finalState containerStep ops w)).Orphan id pid := by
  have hseen : ∀ p ∈ seenWith ContainerOp.answered (transitions containerStep ops w),
      (p.1.call = .create id → p.2 ≠ 0) ∧ p.1.call.clones ≠ some pid := by
    intro p hp
    obtain ⟨t, ht, rfl⟩ := List.mem_map.mp hp
    obtain ⟨op, hop, s, hts⟩ := exists_of_mem_transitions ht
    rw [call_answered]
    refine ⟨hcreate t ht, ?_⟩
    rw [hts]
    exact hclone op hop
  obtain ⟨hall, hstays⟩ := Registry.orphan_of_orphan (follows_answered hw h).1 hseen horphan
  refine ⟨fun t ht => ?_, hstays⟩
  have hcall := hall _ (List.mem_map_of_mem ht)
  rwa [call_answered] at hcall

end Stranded

theorem web_stranded : (registryOf (finalState containerStep webAfterwards
    (finalState containerStep webLife emptyWorld).restarted)).Orphan webId 4243 := by
  have hkept : Kept (finalState containerStep webLife emptyWorld) :=
    (follows_answered kept_emptyWorld (meets_webLife emptyWorld)).2
  refine (orphan_stuck (kept_restarted hkept) (meets_webAfterwards _)
    (orphan_restarted phase_webLife) (fun t ht he => ?_) (by decide)).2
  obtain ⟨op, hop, s, rfl⟩ := exists_of_mem_transitions ht
  simp only [webAfterwards, List.mem_cons, List.not_mem_nil, or_false] at hop
  rcases hop with rfl | rfl <;> simp [transition, ContainerOp.call] at he

section Signalled

variable {ops : List ContainerOp} {w : World} (hw : Kept w)
  (h : ∀ t ∈ transitions containerStep ops w, Meets t)

include hw h

/-- Only processes the store knew of, or that `clone` returned in the
run, are ever recorded, waited for or signalled. -/
theorem signalled_known {known : Int32 → Prop} (hknown : (registryOf w).Within known)
    (hclone : ∀ op ∈ ops, ∀ pid, op.call.clones = some pid → known pid) :
    (registryOf (finalState containerStep ops w)).Within known := by
  refine Registry.within_of_within (follows_answered hw h).1 (fun p hp => ?_) hknown
  obtain ⟨t, ht, rfl⟩ := List.mem_map.mp hp
  obtain ⟨op, hop, s, hts⟩ := exists_of_mem_transitions ht
  rw [call_answered, hts]
  exact hclone op hop

end Signalled

theorem web_signalled :
    (registryOf (finalState containerStep webLife emptyWorld)).Within (fun pid => pid = 4243) := by
  refine signalled_known kept_emptyWorld (meets_webLife emptyWorld)
    ⟨fun id pid h => ?_, fun pid h => ?_, fun p h => ?_⟩ fun op hop pid hpid => ?_
  · rw [phase_emptyWorld] at h
    simp at h
  · exact absurd h List.not_mem_nil
  · exact absurd h List.not_mem_nil
  · rcases List.mem_pair.mp hop with rfl | rfl
    · exact absurd hpid (by simp [ContainerOp.call, RegistryCall.clones])
    · exact (Option.some.inj hpid).symm

end DockerClone.Container
