/-
DockerClone.Container.PreserveTheorems — what start and stop do to the
fields they are not about.

Both read the record into a local struct, change at most state, pid,
started, finished and exit code, and write the struct back. The reader
knows ten of the twenty-nine fields the writer prints; the other nineteen
are written back from whatever the struct held before the read.

Of the ten, the five strings that start and stop must keep come back from
a record free of quotes under `Returned`. No record of the daemon's own
has a quote: the request handler scans every string it hands to
`create_container` with `%[^"]` (`quoteFree_newContainer`,
`Http.handleContainerCreate_quoteFree`).

The operations are told apart into the calls they make (`startCalls`,
`stopCalls`); performing these on the world is what the operations of
`Container.Store` do.
-/
import DockerClone.Container.LifecycleTheorems

namespace DockerClone.Container

open DockerClone.CLib DockerClone.Os DockerClone.Os.FileSystem DockerClone.Metadata

/-! ## 1. The calls -/

/-- What start and stop do to the world. -/
inductive LifecycleCall where
  /-- The child gets a copy of the record. -/
  | clone (container : ContainerInfo) (childPid : Int32)
  /-- `write_container_metadata`. -/
  | write (container : ContainerInfo) (denied : Bool)
  | kill (pid : Int32) (signal : Signal)
  | waitpid (pid : Int32) (reaped : Bool)

def LifecycleCall.perform (w : World) : LifecycleCall → World
  | .clone _ childPid => w.fork childPid
  | .write container denied => (writeContainerMetadata container denied w).2
  | .kill pid signal => w.kill pid signal
  | .waitpid pid reaped => if reaped then w.reap pid else w

/-- The calls of `start_container` once the child is there. -/
def runCalls (env : StartEnv) (container : ContainerInfo) (childPid : Int32) (w : World) :
    List LifecycleCall :=
  match (writeContainerMetadata container env.writeDenied w).1 with
  | 0 =>
      if container.detach ≠ 0 then []
      else
        [.waitpid childPid env.waited.isSome,
          .write (exitedRecord container (env.waited.getD env.statusJunk) env.finishedAt)
            env.rewriteDenied]
  | _ => [.kill childPid .SIGKILL]

/-- The calls of `start_container`, in order. -/
def startCalls (containerId : List Char) (env : StartEnv) (w : World) : List LifecycleCall :=
  if containerExists containerId w = false then []
  else match readContainerMetadata containerId env.readDenied w env.junk with
    | none => []
    | some container =>
        if container.state = ContainerState.running.code then []
        else if env.stack = false then []
        else match env.child with
          | none => []
          | some childPid =>
              let running := runningRecord container childPid env.startedAt
              .clone container childPid :: .write running env.writeDenied ::
                runCalls env running childPid (w.fork childPid)

/-- The calls of `stop_container`, in order. -/
def stopCalls (containerId : List Char) (env : StopEnv) (w : World) : List LifecycleCall :=
  if containerExists containerId w = false then []
  else match readContainerMetadata containerId env.readDenied w env.junk with
    | none => []
    | some container =>
        if container.state ≠ ContainerState.running.code then []
        else if env.killed = false then []
        else match env.waited with
          | none => [.kill container.pid .SIGTERM]
          | some status =>
              [.kill container.pid .SIGTERM, .waitpid container.pid true,
                .write (exitedRecord container status env.finishedAt) env.writeDenied]

/-- `start_container` does to the world what its calls do. -/
theorem startContainer_calls (id : List Char) (env : StartEnv) (w : World) :
    (startContainer id env w).2 = (startCalls id env w).foldl LifecycleCall.perform w := by
  unfold startContainer startCalls
  by_cases hex : containerExists id w = false
  · rw [if_pos hex, if_pos hex]; rfl
  rw [if_neg hex, if_neg hex]
  cases readContainerMetadata id env.readDenied w env.junk with
  | none => rfl
  | some container =>
    simp only
    by_cases hrun : container.state = ContainerState.running.code
    · rw [if_pos hrun, if_pos hrun]; rfl
    rw [if_neg hrun, if_neg hrun]
    by_cases hstack : env.stack = false
    · rw [if_pos hstack, if_pos hstack]; rfl
    rw [if_neg hstack, if_neg hstack]
    cases env.child with
    | none => rfl
    | some childPid =>
      simp only [List.foldl_cons, LifecycleCall.perform, runCalls]
      rcases writeContainerMetadata_cases (runningRecord container childPid env.startedAt)
        env.writeDenied (w.fork childPid) with ⟨p, fs', -, -, hw, -⟩ | hw
      · rw [hw]
        by_cases hd : container.detach ≠ 0
        · simp [runningRecord, hd]
        · simp [runningRecord, hd, LifecycleCall.perform]
      · rw [hw]
        rfl

theorem stopContainer_calls (id : List Char) (env : StopEnv) (w : World) :
    (stopContainer id env w).2 = (stopCalls id env w).foldl LifecycleCall.perform w := by
  unfold stopContainer stopCalls
  by_cases hex : containerExists id w = false
  · rw [if_pos hex, if_pos hex]; rfl
  rw [if_neg hex, if_neg hex]
  cases readContainerMetadata id env.readDenied w env.junk with
  | none => rfl
  | some container =>
    simp only
    by_cases hrun : container.state ≠ ContainerState.running.code
    · rw [if_pos hrun, if_pos hrun]; rfl
    rw [if_neg hrun, if_neg hrun]
    by_cases hkill : env.killed = false
    · rw [if_pos hkill, if_pos hkill]; rfl
    rw [if_neg hkill, if_neg hkill]
    cases env.waited with
    | none => rfl
    | some status => rfl

/-! ## 2. The other fields -/

/-- The fields start and stop are there to change. -/
def lifecycleKeys : List String := ["state", "pid", "started", "finished", "exit_code"]

/-- The lines of a record but those of the given keys. -/
def entriesBut (keys : List String) (r : ContainerInfo) : List Entry :=
  (containerEntries r).filter fun e =>
    match e with
    | .brace _ => true
    | .text key _ | .number key _ _ => decide (key.name ∉ keys)

/-- The lines start and stop must not change. -/
def restEntries : ContainerInfo → List Entry := entriesBut lifecycleKeys

/-- The lines of the fields the reader does not know. -/
def unreadEntries : ContainerInfo → List Entry :=
  entriesBut (containerSlots.map (fun s => s.key.name))

theorem unreadEntries_readContainerText (text : List Char) (c : ContainerInfo) :
    unreadEntries (readContainerText text c) = unreadEntries c := by
  refine frames_readText ?_ 1024 text c
  simp [containerSlots, Slot.Frames, unreadEntries, entriesBut, containerEntries, Slot.key]

/-- The other lines are those of the unknown fields and those of the
strings the reader knows. -/
theorem restEntries_eq_iff (c r : ContainerInfo) : restEntries c = restEntries r ↔
    unreadEntries c = unreadEntries r ∧ cstr c.id = cstr r.id ∧ cstr c.name = cstr r.name ∧
      cstr c.image = cstr r.image ∧ cstr c.command = cstr r.command ∧
      cstr c.created = cstr r.created := by
  simp [restEntries, unreadEntries, entriesBut, containerEntries, lifecycleKeys, containerSlots,
    Slot.key]
  tauto

theorem restEntries_runningRecord (c : ContainerInfo) (childPid : Int32) (now : Int64) :
    restEntries (runningRecord c childPid now) = restEntries c :=
  (restEntries_eq_iff _ c).mpr ⟨rfl, rfl, rfl, rfl, rfl, rfl⟩

theorem restEntries_exitedRecord (c : ContainerInfo) (status : Int32) (now : Int64) :
    restEntries (exitedRecord c status now) = restEntries c :=
  (restEntries_eq_iff _ c).mpr ⟨rfl, rfl, rfl, rfl, rfl, rfl⟩

section Rest

variable {c r : ContainerInfo} (h : restEntries c = restEntries r)

include h

theorem rootfsPath_of_restEntries : cstr c.rootfsPath = cstr r.rootfsPath := by
  have hentry := congrArg (·[17]?) h
  simpa [restEntries, entriesBut, containerEntries, lifecycleKeys] using hentry

theorem detach_of_restEntries : c.detach = r.detach := by
  have hentry := congrArg (·[20]?) h
  simpa [restEntries, entriesBut, containerEntries, lifecycleKeys] using hentry

end Rest

/-! ## 3. Preservation -/

/-- What a call hands on of the stored record `r`. A record counts as
written back when it is given to `write_container_metadata`. -/
def LifecycleCall.Keeps (r : ContainerInfo) : LifecycleCall → Prop
  | .clone container _ => cstr container.rootfsPath = cstr r.rootfsPath
  | .write container _ => restEntries container = restEntries r
  | .kill .. | .waitpid .. => True

/-- The container's metadata file holds the record. -/
def Holds (id : List Char) (r : ContainerInfo) (w : World) : Prop :=
  IsId id ∧ w.fs.node (metadataFile id) = some (.file (containerText r))

/-- Start and stop keep the rest of the stored record `r`, read over a
struct that held `junk`. -/
structure PreservesRest (r junk : ContainerInfo) : Prop where
  start : ∀ id env w, Holds id r w → env.junk = junk → ∀ call ∈ startCalls id env w, call.Keeps r
  stop : ∀ id env w, Holds id r w → env.junk = junk → ∀ call ∈ stopCalls id env w, call.Keeps r
  /-- A start that gets that far waits for its child unless `detach` is
  stored. -/
  waits : ∀ id env w, Holds id r w → env.junk = junk → (startContainer id env w).1 = 0 →
    ((∃ pid reaped, .waitpid pid reaped ∈ startCalls id env w) ↔ r.detach = 0)

/-- The struct held the stored values wherever reading the text of `r`
does not bring them. -/
structure Agrees (r junk : ContainerInfo) : Prop where
  unread : unreadEntries junk = unreadEntries r
  id : Returned containerSlots { name := "id" } 1024 (cstr r.id) (cstr junk.id)
  name : Returned containerSlots { name := "name" } 1024 (cstr r.name) (cstr junk.name)
  image : Returned containerSlots { name := "image" } 1024 (cstr r.image) (cstr junk.image)
  command : Returned containerSlots { name := "command" } 1024 (cstr r.command) (cstr junk.command)
  created : Returned containerSlots { name := "created" } 1024 (cstr r.created) (cstr junk.created)

section Strings

variable {r : ContainerInfo} (h : QuoteFree r) (junk : ContainerInfo)

include h

/-- A string whose key is printed once, in the line of its own field. -/
theorem returned_iff {key : Key} {get : ContainerInfo → List Char}
    {set : ContainerInfo → List Char → ContainerInfo}
    (hs : Slot.text key get set ∈ containerSlots) (i : Nat)
    (hown : containerEntries r
      = (containerEntries r).take i ++ .text key (cstr (get r)) :: (containerEntries r).drop (i + 1))
    (honce : ∀ e ∈ (containerEntries r).take i ++ (containerEntries r).drop (i + 1),
      ∀ v, e ≠ .text key v) :
    cstr (get (readContainerText (containerText r) junk)) = cstr (get r) ↔
      Returned containerSlots key 1024 (cstr (get r)) (cstr (get junk)) := by
  have hquote := h
  rw [QuoteFree, hown] at hquote
  rw [readContainerText, containerText, hown]
  exact cstr_readText_own_iff lawful_containerSlots hs (by omega) hquote honce junk

/-- Reading gives back the rest of the record exactly when the struct
agrees with it. -/
theorem restEntries_read_iff :
    restEntries (readContainerText (containerText r) junk) = restEntries r ↔ Agrees r junk := by
  have hid := returned_iff h junk (List.getElem_mem (by decide) : containerSlots[0] ∈ _) 1 rfl
    (by simp [containerEntries, Key.eq_iff])
  have hname := returned_iff h junk (List.getElem_mem (by decide) : containerSlots[1] ∈ _) 2 rfl
    (by simp [containerEntries, Key.eq_iff])
  have himage := returned_iff h junk (List.getElem_mem (by decide) : containerSlots[2] ∈ _) 3 rfl
    (by simp [containerEntries, Key.eq_iff])
  have hcommand := returned_iff h junk (List.getElem_mem (by decide) : containerSlots[3] ∈ _) 5 rfl
    (by simp [containerEntries, Key.eq_iff])
  have hcreated := returned_iff h junk (List.getElem_mem (by decide) : containerSlots[6] ∈ _) 17 rfl
    (by simp [containerEntries, Key.eq_iff])
  rw [restEntries_eq_iff, unreadEntries_readContainerText, hid, hname, himage, hcommand, hcreated]
  constructor
  · rintro ⟨h0, h1, h2, h3, h4, h5⟩
    exact ⟨h0, h1, h2, h3, h4, h5⟩
  · rintro ⟨h0, h1, h2, h3, h4, h5⟩
    exact ⟨h0, h1, h2, h3, h4, h5⟩

end Strings

section Runs

variable {id : List Char} {r : ContainerInfo} {w : World} (h : Holds id r w)

include h

theorem startCalls_keep {env : StartEnv}
    (hrest : restEntries (readContainerText (containerText r) env.junk) = restEntries r) :
    ∀ call ∈ startCalls id env w, call.Keeps r := by
  rw [startCalls, if_neg (exists_of_file h.1 h.2), readContainerMetadata_file h.1 h.2]
  cases env.readDenied with
  | true => simp
  | false =>
    simp only [Bool.false_eq_true, if_false]
    by_cases hrun : (readContainerText (containerText r) env.junk).state
        = ContainerState.running.code
    · simp [hrun]
    rw [if_neg hrun]
    by_cases hstack : env.stack = false
    · simp [hstack]
    rw [if_neg hstack]
    cases env.child with
    | none => simp
    | some childPid =>
      simp only [runCalls]
      intro call hcall
      rw [List.mem_cons, List.mem_cons] at hcall
      rcases hcall with rfl | rfl | hcall
      · exact rootfsPath_of_restEntries hrest
      · exact (restEntries_runningRecord _ _ _).trans hrest
      · split at hcall
        · split at hcall
          · simp at hcall
          · rw [List.mem_cons, List.mem_singleton] at hcall
            rcases hcall with rfl | rfl
            · trivial
            · exact (restEntries_exitedRecord _ _ _).trans
                ((restEntries_runningRecord _ _ _).trans hrest)
        · rw [List.mem_singleton] at hcall
          subst hcall
          trivial

theorem stopCalls_keep {env : StopEnv}
    (hrest : restEntries (readContainerText (containerText r) env.junk) = restEntries r) :
    ∀ call ∈ stopCalls id env w, call.Keeps r := by
  rw [stopCalls, if_neg (exists_of_file h.1 h.2), readContainerMetadata_file h.1 h.2]
  cases env.readDenied with
  | true => simp
  | false =>
    simp only [Bool.false_eq_true, if_false]
    by_cases hrun : (readContainerText (containerText r) env.junk).state
        ≠ ContainerState.running.code
    · simp [hrun]
    rw [if_neg hrun]
    by_cases hkill : env.killed = false
    · simp [hkill]
    rw [if_neg hkill]
    cases env.waited with
    | none => simp [LifecycleCall.Keeps]
    | some status =>
      intro call hcall
      simp only [List.mem_cons, List.not_mem_nil, or_false] at hcall
      rcases hcall with rfl | rfl | rfl
      · trivial
      · trivial
      · exact (restEntries_exitedRecord _ _ _).trans hrest

/-- A start that returns 0 waits for its child unless the local `detach`
is set. -/
theorem startCalls_waits {env : StartEnv} (hzero : (startContainer id env w).1 = 0) :
    (∃ pid reaped, .waitpid pid reaped ∈ startCalls id env w) ↔ env.junk.detach = 0 := by
  obtain ⟨container, childPid, ⟨hr, hrun, hstack, hc⟩, hwrite, -⟩ := startContainer_zero hzero
  have hdetach := detach_unread hr
  rw [startCalls, if_neg (exists_of_file h.1 h.2), hr]
  simp only [if_neg hrun, hstack, Bool.true_eq_false, if_false, hc, runCalls, hwrite]
  by_cases hd : env.junk.detach = 0
  · simp [runningRecord, hdetach, hd]
  · simp [runningRecord, hdetach, hd]

end Runs

/-- A store with this one record. -/
def holding (r : ContainerInfo) : World where
  fs := ofEntries
    [([], .dir), (["tmp".toList], .dir), (metadataDir, .dir),
      (metadataFile "web".toList, .file (containerText r))] rfl
  cwd := []
  children := []
  signals := []

theorem holds_holding (r : ContainerInfo) : Holds "web".toList r (holding r) :=
  ⟨by decide, rfl⟩

/-- One of start and stop gets as far as its write: which of them, the
state that was read decides. -/
theorem restEntries_of_preservesRest {r junk : ContainerInfo} (h : PreservesRest r junk) :
    restEntries (readContainerText (containerText r) junk) = restEntries r := by
  have hold := holds_holding r
  have hread := readContainerMetadata_file hold.1 hold.2 false junk
  by_cases hrun : (readContainerText (containerText r) junk).state = ContainerState.running.code
  · have hcalls := h.stop _ (stopOver junk) _ hold rfl
    rw [stopCalls, if_neg (exists_of_file hold.1 hold.2), stopOver, hread] at hcalls
    simp only [Bool.false_eq_true, if_false, hrun, ne_eq, not_true_eq_false,
      Bool.true_eq_false] at hcalls
    have hwrite := hcalls _ (List.mem_cons_of_mem _ (List.mem_cons_of_mem _ List.mem_cons_self))
    rw [← restEntries_exitedRecord]
    exact hwrite
  · have hcalls := h.start _ (startOver junk) _ hold rfl
    rw [startCalls, if_neg (exists_of_file hold.1 hold.2), startOver, hread] at hcalls
    simp only [Bool.false_eq_true, if_false, hrun, Bool.true_eq_false] at hcalls
    have hwrite := hcalls _ (List.mem_cons_of_mem _ List.mem_cons_self)
    rw [← restEntries_runningRecord]
    exact hwrite

end DockerClone.Container
