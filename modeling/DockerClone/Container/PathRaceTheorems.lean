/-
DockerClone.Container.PathRaceTheorems — the static path buffer under
removals and creations.

`get_container_full_path` formats into one buffer that every thread of
the daemon shares, and its callers copy the buffer in a step of their
own. `PathsOwn` says that nothing got in between: the buffer of a caller
that is still to copy has its own path in it, and so has every copy. The
invariant survives every step but a format between another caller's two
steps; under it each directory operation is one on the caller's own
directory.
-/
import DockerClone.Container.AloneTheorems
import DockerClone.Container.RemoveTheorems

namespace DockerClone.Container

open DockerClone.CLib DockerClone.Os DockerClone.Os.FileSystem DockerClone.Metadata

/-! ## 1. Requests -/

inductive DirRequest where
  | create (args : CreateArgs) (env : CreateEnv)
  | remove (id : List Char) (env : RemoveEnv)

def DirRequest.id : DirRequest → List Char
  | .create _ env => generateContainerId env.now
  | .remove id _ => id

inductive DirPhase where
  | create (p : CreatePhase)
  | remove (p : RemovePhase)
  deriving DecidableEq, Repr

def DirRequest.start : DirRequest → DirPhase
  | .create .. => .create .format
  | .remove .. => .remove .check

def dirStep : DirRequest → DirPhase → Host → Option (DirPhase × Host)
  | .create args env, .create p, h =>
      (createStepwise args env p h).map (fun r => (.create r.1, r.2))
  | .remove id env, .remove p, h => (removeStep id env p h).map (fun r => (.remove r.1, r.2))
  | _, _, _ => none

/-- The next step formats the path. -/
def DirPhase.Formats : DirPhase → Prop
  | .create .format => True
  | .remove (.format _) => True
  | _ => False

/-- The path is formatted and not copied yet. -/
def DirPhase.Uncopied : DirPhase → Prop
  | .create .copy => True
  | .remove (.copy _) => True
  | _ => False

instance (p : DirPhase) : Decidable p.Formats := by
  unfold DirPhase.Formats
  split <;> infer_instance

instance (p : DirPhase) : Decidable p.Uncopied := by
  unfold DirPhase.Uncopied
  split <;> infer_instance

/-- The copy of the path. -/
def DirPhase.path : DirPhase → Option (List Char)
  | .create (.mkdir path) => some path
  | .create (.mkdirRootfs path) => some path
  | .create (.write path) => some path
  | .remove (.rm _ path) => some path
  | _ => none

section Requests

variable {ι : Type} (request : ι → DirRequest)

abbrev DirRequests (ι : Type) := Threads ι DirPhase Host

def arrived (h : Host) : DirRequests ι :=
  { shared := h, thread := fun i => (request i).start }

/-- No request for another container stands between its format and its
copy when this one formats. -/
def FormatsAlone (i : ι) (s : DirRequests ι) : Prop :=
  (s.thread i).Formats → ∀ j, (s.thread j).Uncopied → (request j).id = (request i).id

/-- Nothing outside the tree changed, and a removal that succeeded left
nothing of it. -/
def RemovesTree (p : Path) (succeeded : Prop) (fs fs' : FileSystem) : Prop :=
  (∀ q, ¬ p <+: q → fs'.node q = fs.node q) ∧
    (succeeded → ∀ q, p <+: q → fs'.node q = none)

/-- Nothing but the directory changed, and a creation that succeeded left
it there. -/
def MakesDir (p : Path) (succeeded : Prop) (fs fs' : FileSystem) : Prop :=
  (∀ q, q ≠ p → fs'.node q = fs.node q) ∧ (succeeded → fs'.node p ≠ none)

theorem MakesDir.unchanged (p : Path) (fs : FileSystem) {succeeded : Prop} (h : ¬ succeeded) :
    MakesDir p succeeded fs fs :=
  ⟨fun _ _ => rfl, fun hsucceeded => absurd hsucceeded h⟩

/-- The directory operations of a request are on its container's own
directory. -/
def OnOwnDirectory (t : Transition (DirRequests ι) (Turn ι Exit) Bool) : Prop :=
  ∀ i, t.action = .of i →
    match t.before.thread i with
    | .remove (.rm container _) =>
        RemovesTree (containerDir (request i).id)
          (t.after.thread i = .remove (.unlinkConfig container))
          t.before.shared.world.fs t.after.shared.world.fs
    | .create (.mkdir path) =>
        MakesDir (containerDir (request i).id) (t.after.thread i = .create (.mkdirRootfs path))
          t.before.shared.world.fs t.after.shared.world.fs
    | .create (.mkdirRootfs path) =>
        MakesDir (rootfsDir (request i).id) (t.after.thread i = .create (.write path))
          t.before.shared.world.fs t.after.shared.world.fs
    | _ => True

end Requests

/-! ## 2. The operations on an own path -/

/-- `rm -rf` of the directory of a container, whatever is there. -/
theorem removesTree_containerDir (now : Int64) (env : RemoveEnv) (cwd : Path) (fs : FileSystem) :
    RemovesTree (containerDir (generateContainerId now))
      ((env.shell.system cwd fs (snprintf 1024 ("rm -rf ".toList ++
        getContainerFullPath (generateContainerId now)))).1 = 0) fs
      (env.shell.system cwd fs (snprintf 1024 ("rm -rf ".toList ++
        getContainerFullPath (generateContainerId now)))).2 := by
  have hord := ordinary_generateContainerId now
  have hword := (plainWord_containerDir now).literal
  rw [rmCommand_eq]
  by_cases hd : fs.node storageDir = some .dir
  · have hrm := env.shell.system_rm cwd ordinary_storageDir hord hd hword
    rw [containerDir, hrm]
    cases env.shell.available with
    | false => exact ⟨fun _ _ => rfl, by simp⟩
    | true =>
      refine ⟨fun q hq => node_rmTree_outside fs _ _ (by simp) hq, fun hzero q hq => ?_⟩
      refine node_rmTree_inside fs _ (by simp) ?_ hq
      by_contra hstuck
      simp [hstuck] at hzero
  · have hrm := env.shell.system_rm_absent cwd ordinary_storageDir hord hd hword
    have hnone : ∀ q, containerDir (generateContainerId now) <+: q → fs.node q = none := by
      rintro _ ⟨rest, rfl⟩
      by_contra hne
      rw [containerDir, List.append_assoc] at hne
      exact hd (fs.dir_of_prefix (by simp) hne)
    rw [containerDir, hrm]
    cases env.shell.available with
    | false => exact ⟨fun _ _ => rfl, by simp⟩
    | true => exact ⟨fun _ _ => rfl, fun _ => hnone⟩

/-- A `mkdir` at an absolute path of ordinary names. -/
theorem makesDir_absPath {fs fs' : FileSystem} {cwd q : Path} {n : Name} {denied : Bool}
    (hq : ∀ m ∈ q, Ordinary m) (hn : Ordinary n)
    (h : fs.mkdirExistOk cwd (absPath (q ++ [n])) denied = some fs') (succeeded : Prop) :
    MakesDir (q ++ [n]) succeeded fs fs' := by
  obtain ⟨p, hp, hne, -, -, hwithin⟩ := mkdirExistOk_some h
  obtain ⟨rfl, -⟩ := resolveNew_absPath_eq hq hn hp
  exact ⟨hwithin, fun _ => hne⟩

/-! ## 3. The invariant -/

structure PathsOwn {ι : Type} (request : ι → DirRequest) (s : DirRequests ι) : Prop where
  buffer : ∀ i, (s.thread i).Uncopied →
    s.shared.pathBuffer = getContainerFullPath (request i).id
  copied : ∀ i, ∀ path ∈ (s.thread i).path, path = getContainerFullPath (request i).id

section Steps

variable {ι : Type} [DecidableEq ι] {request : ι → DirRequest} {s : DirRequests ι} {i : ι}

/-- What a step has to say for the invariant to survive it. -/
theorem PathsOwn.move (h : PathsOwn request s) {t : DirPhase} {shared : Host}
    (hself : t.Uncopied → shared.pathBuffer = getContainerFullPath (request i).id)
    (hpath : ∀ path ∈ t.path, path = getContainerFullPath (request i).id)
    (hothers : ∀ j, j ≠ i → (s.thread j).Uncopied →
      shared.pathBuffer = getContainerFullPath (request j).id) :
    PathsOwn request (s.move i t shared) where
  buffer := Threads.forall_move
    (P := fun j (p : DirPhase) => p.Uncopied →
      shared.pathBuffer = getContainerFullPath (request j).id) hself hothers
  copied := Threads.forall_move
    (P := fun j (p : DirPhase) => ∀ path ∈ p.path, path = getContainerFullPath (request j).id)
    hpath fun j _ => h.copied j

/-- A step that leaves the buffer alone and keeps the copy. -/
theorem PathsOwn.move_away (h : PathsOwn request s) {t : DirPhase} {shared : Host}
    (hbuffer : shared.pathBuffer = s.shared.pathBuffer) (hcopied : ¬ t.Uncopied)
    (hpath : ∀ path ∈ t.path, path ∈ (s.thread i).path) : PathsOwn request (s.move i t shared) :=
  h.move (fun ht => absurd ht hcopied) (fun path hp => h.copied i path (hpath path hp))
    fun j _ hj => by rw [hbuffer]; exact h.buffer j hj

/-- A format, with nobody else's path in the buffer. -/
theorem PathsOwn.move_format (h : PathsOwn request s) {t : DirPhase}
    (halone : ∀ j, (s.thread j).Uncopied → (request j).id = (request i).id)
    (hpath : t.path = none) :
    PathsOwn request (s.move i t (s.shared.formatPath (request i).id)) :=
  h.move (fun _ => rfl) (by simp [hpath]) fun j _ hj => by rw [halone j hj]; rfl

/-- A copy. -/
theorem PathsOwn.move_copy (h : PathsOwn request s) {t : DirPhase}
    (huncopied : (s.thread i).Uncopied) (hcopied : ¬ t.Uncopied)
    (hpath : ∀ path ∈ t.path, path = s.shared.pathBuffer) :
    PathsOwn request (s.move i t s.shared) :=
  h.move (fun ht => absurd ht hcopied)
    (fun path hp => (hpath path hp).trans (h.buffer i huncopied)) fun j _ hj => h.buffer j hj

/-- A step of a removal. -/
theorem PathsOwn.remove_step (h : PathsOwn request s) {id : List Char} {env : RemoveEnv}
    (hrequest : request i = .remove id env) (halone : FormatsAlone request i s)
    {p p' : RemovePhase} {shared : Host} (hp : s.thread i = .remove p)
    (hstep : removeStep id env p s.shared = some (p', shared)) :
    PathsOwn request (s.move i (.remove p') shared) := by
  have hid : (request i).id = id := by rw [hrequest]; rfl
  -- the steps that neither format nor copy
  have haway : ∀ {p' : RemovePhase} {shared : Host}, shared.pathBuffer = s.shared.pathBuffer →
      ¬ (DirPhase.remove p').Uncopied → (DirPhase.remove p').path = none →
      PathsOwn request (s.move i (.remove p') shared) :=
    fun hbuffer hcopied hpath => h.move_away hbuffer hcopied (by simp [hpath])
  cases p with
  | format container =>
    rw [removeStep_format] at hstep
    obtain ⟨rfl, rfl⟩ := Prod.mk.inj (Option.some.inj hstep)
    rw [FormatsAlone, hp] at halone
    have hformat := h.move_format (t := .remove (.copy container)) (halone trivial) rfl
    rwa [hid] at hformat
  | copy container =>
    rw [removeStep_copy] at hstep
    obtain ⟨rfl, rfl⟩ := Prod.mk.inj (Option.some.inj hstep)
    exact h.move_copy (by rw [hp]; trivial) (by simp [DirPhase.Uncopied])
      (by simp [DirPhase.path])
  | rm container path =>
    by_cases hzero : (env.shell.system s.shared.world.cwd s.shared.world.fs
        (snprintf 1024 ("rm -rf ".toList ++ path))).1 = 0
    · rw [removeStep_rm hzero] at hstep
      obtain ⟨rfl, rfl⟩ := Prod.mk.inj (Option.some.inj hstep)
      exact haway rfl (by simp [DirPhase.Uncopied]) rfl
    · rw [removeStep_rm_failed hzero] at hstep
      obtain ⟨rfl, rfl⟩ := Prod.mk.inj (Option.some.inj hstep)
      exact haway rfl (by simp [DirPhase.Uncopied]) rfl
  | done result => simp [removeStep] at hstep
  | check | read | test container | unlinkConfig container | unlinkLog container =>
    simp only [removeStep] at hstep
    split at hstep <;> obtain ⟨rfl, rfl⟩ := Prod.mk.inj (Option.some.inj hstep) <;>
      exact haway rfl (by simp [DirPhase.Uncopied]) rfl

/-- A step of a creation. -/
theorem PathsOwn.create_step (h : PathsOwn request s) {args : CreateArgs} {env : CreateEnv}
    (hrequest : request i = .create args env) (halone : FormatsAlone request i s)
    {p p' : CreatePhase} {shared : Host} (hp : s.thread i = .create p)
    (hstep : createStepwise args env p s.shared = some (p', shared)) :
    PathsOwn request (s.move i (.create p') shared) := by
  have hid : (request i).id = cstr (newContainer args env).id := by
    rw [hrequest, cstr_newContainer_id]
    rfl
  cases p with
  | format =>
    rw [createStepwise_format] at hstep
    obtain ⟨rfl, rfl⟩ := Prod.mk.inj (Option.some.inj hstep)
    rw [FormatsAlone, hp] at halone
    have hformat := h.move_format (t := .create .copy) (halone trivial) rfl
    rwa [hid] at hformat
  | copy =>
    rw [createStepwise_copy] at hstep
    obtain ⟨rfl, rfl⟩ := Prod.mk.inj (Option.some.inj hstep)
    exact h.move_copy (by rw [hp]; trivial) (by simp [DirPhase.Uncopied])
      (by simp [DirPhase.path])
  | mkdir path | mkdirRootfs path =>
    simp only [createStepwise] at hstep
    split at hstep <;> obtain ⟨rfl, rfl⟩ := Prod.mk.inj (Option.some.inj hstep) <;>
      exact h.move_away rfl (by simp [DirPhase.Uncopied]) (by simp [DirPhase.path, hp])
  | write path =>
    rw [createStepwise_write] at hstep
    obtain ⟨rfl, rfl⟩ := Prod.mk.inj (Option.some.inj hstep)
    exact h.move_away rfl (by simp [DirPhase.Uncopied]) (by simp [DirPhase.path])
  | done result => simp [createStepwise] at hstep

theorem pathsOwn_step (h : PathsOwn request s) (halone : FormatsAlone request i s)
    {t : DirPhase} {shared : Host}
    (hstep : dirStep (request i) (s.thread i) s.shared = some (t, shared)) :
    PathsOwn request (s.move i t shared) := by
  cases hrequest : request i with
  | create args env =>
    cases hp : s.thread i with
    | create p =>
      rw [hrequest, hp, dirStep] at hstep
      obtain ⟨⟨p', h'⟩, hphase, hmove⟩ := Option.map_eq_some_iff.mp hstep
      obtain ⟨rfl, rfl⟩ := Prod.mk.inj hmove
      exact h.create_step hrequest halone hp hphase
    | remove p => simp [hrequest, hp, dirStep] at hstep
  | remove id env =>
    cases hp : s.thread i with
    | create p => simp [hrequest, hp, dirStep] at hstep
    | remove p =>
      rw [hrequest, hp, dirStep] at hstep
      obtain ⟨⟨p', h'⟩, hphase, hmove⟩ := Option.map_eq_some_iff.mp hstep
      obtain ⟨rfl, rfl⟩ := Prod.mk.inj hmove
      exact h.remove_step hrequest halone hp hphase

/-! ## 4. The directory operations -/

variable {t : DirPhase} {shared : Host}

omit [DecidableEq ι] in
/-- The `rm` step of a removal that has copied its own path. -/
theorem PathsOwn.rm_step (h : PathsOwn request s)
    (hgenerated : ∃ now, (request i).id = generateContainerId now) {container : ContainerInfo}
    {path : List Char} (hp : s.thread i = .remove (.rm container path))
    (hstep : dirStep (request i) (s.thread i) s.shared = some (t, shared)) :
    RemovesTree (containerDir (request i).id) (t = .remove (.unlinkConfig container))
      s.shared.world.fs shared.world.fs := by
  have hpath := h.copied i path (by rw [hp]; rfl)
  obtain ⟨now, hnow⟩ := hgenerated
  cases hrequest : request i with
  | create args env => simp [hrequest, hp, dirStep] at hstep
  | remove id env =>
    have hid : id = generateContainerId now := by rw [← hnow, hrequest]; rfl
    have hown : path = getContainerFullPath (generateContainerId now) := by rw [hpath, hnow]
    have htree := removesTree_containerDir now env s.shared.world.cwd s.shared.world.fs
    rw [← hown, ← hid] at htree
    rw [hrequest, hp, dirStep] at hstep
    obtain ⟨⟨p', h'⟩, hphase, hmove⟩ := Option.map_eq_some_iff.mp hstep
    obtain ⟨rfl, rfl⟩ := Prod.mk.inj hmove
    by_cases hzero : (env.shell.system s.shared.world.cwd s.shared.world.fs
        (snprintf 1024 ("rm -rf ".toList ++ path))).1 = 0
    · rw [removeStep_rm hzero] at hphase
      obtain ⟨rfl, rfl⟩ := Prod.mk.inj (Option.some.inj hphase)
      exact ⟨htree.1, fun _ => htree.2 hzero⟩
    · rw [removeStep_rm_failed hzero] at hphase
      obtain ⟨rfl, rfl⟩ := Prod.mk.inj (Option.some.inj hphase)
      exact ⟨htree.1, fun hsucceeded => by simp at hsucceeded⟩

omit [DecidableEq ι] in
/-- The `mkdir` steps of a creation that has copied its own path. -/
theorem PathsOwn.mkdir_step (h : PathsOwn request s) {path : List Char}
    (hp : s.thread i = .create (.mkdir path))
    (hstep : dirStep (request i) (s.thread i) s.shared = some (t, shared)) :
    MakesDir (containerDir (request i).id) (t = .create (.mkdirRootfs path))
      s.shared.world.fs shared.world.fs := by
  have hpath := h.copied i path (by rw [hp]; rfl)
  cases hrequest : request i with
  | remove id env => simp [hrequest, hp, dirStep] at hstep
  | create args env =>
    rw [hrequest] at hpath
    rw [hrequest, hp, dirStep] at hstep
    obtain ⟨⟨p', h'⟩, hphase, hmove⟩ := Option.map_eq_some_iff.mp hstep
    obtain ⟨rfl, rfl⟩ := Prod.mk.inj hmove
    simp only [createStepwise] at hphase
    split at hphase <;> obtain ⟨rfl, rfl⟩ := Prod.mk.inj (Option.some.inj hphase)
    · exact MakesDir.unchanged _ _ (by simp)
    · rename_i fs hmkdir
      rw [hpath, DirRequest.id, getContainerFullPath_eq] at hmkdir
      exact makesDir_absPath ordinary_storageDir (ordinary_generateContainerId env.now) hmkdir _

omit [DecidableEq ι] in
theorem PathsOwn.mkdirRootfs_step (h : PathsOwn request s) {path : List Char}
    (hp : s.thread i = .create (.mkdirRootfs path))
    (hstep : dirStep (request i) (s.thread i) s.shared = some (t, shared)) :
    MakesDir (rootfsDir (request i).id) (t = .create (.write path))
      s.shared.world.fs shared.world.fs := by
  have hpath := h.copied i path (by rw [hp]; rfl)
  cases hrequest : request i with
  | remove id env => simp [hrequest, hp, dirStep] at hstep
  | create args env =>
    rw [hrequest, DirRequest.id, ← cstr_newContainer_id args env] at hpath
    rw [hrequest, hp, dirStep] at hstep
    obtain ⟨⟨p', h'⟩, hphase, hmove⟩ := Option.map_eq_some_iff.mp hstep
    obtain ⟨rfl, rfl⟩ := Prod.mk.inj hmove
    simp only [createStepwise] at hphase
    split at hphase <;> obtain ⟨rfl, rfl⟩ := Prod.mk.inj (Option.some.inj hphase)
    · exact MakesDir.unchanged _ _ (by simp)
    · rename_i fs hmkdir
      rw [hpath, newContainerAt_own, cstr_newContainer_rootfsPath] at hmkdir
      exact makesDir_absPath (ordinary_containerDir env.now) (by decide) hmkdir _

/-- Every turn under the invariant. -/
theorem onOwnDirectory_turn (h : PathsOwn request s)
    (hgenerated : ∀ i, ∃ now, (request i).id = generateContainerId now) (turn : Turn ι Exit) :
    OnOwnDirectory request
      (transition (takeTurn (fun i => dirStep (request i)) Exit.occur) turn s) := by
  intro i hi
  obtain rfl : turn = .of i := hi
  rcases takeTurn_of_cases (fun i => dirStep (request i)) Exit.occur i s with
    ⟨t, shared, hstep, hafter⟩ | ⟨-, hafter⟩
  · simp only [transition, hafter, Threads.move_thread_self, Threads.move_shared]
    split
    · rename_i container path hp
      exact h.rm_step (hgenerated i) hp hstep
    · rename_i path hp
      exact h.mkdir_step hp hstep
    · rename_i path hp
      exact h.mkdirRootfs_step hp hstep
    · trivial
  · simp only [transition, hafter]
    split
    · rename_i container path hp
      rw [hp]
      exact ⟨fun _ _ => rfl, fun hsucceeded => by simp at hsucceeded⟩
    · rename_i path hp
      rw [hp]
      exact MakesDir.unchanged _ _ (by simp)
    · rename_i path hp
      rw [hp]
      exact MakesDir.unchanged _ _ (by simp)
    · trivial

end Steps

/-! ## 5. Runs -/

section Runs

variable {ι : Type} [DecidableEq ι] (request : ι → DirRequest)

/-- The requests while they take their turns. -/
abbrev dirHistory (turns : List (Turn ι Exit)) (h : Host) :
    List (Transition (DirRequests ι) (Turn ι Exit) Bool) :=
  History (fun i => dirStep (request i)) Exit.occur turns (arrived request h)

/-- In every interleaving of removals and creations in which no path is
formatted between the two steps of a request for another container, each
works on its own container's directory. -/
theorem directories_own (hgenerated : ∀ i, ∃ now, (request i).id = generateContainerId now)
    (turns : List (Turn ι Exit)) (h : Host)
    (halone : ∀ t ∈ dirHistory request turns h, AtTurn (FormatsAlone request) t) :
    ∀ t ∈ dirHistory request turns h, OnOwnDirectory request t := by
  have hstart : PathsOwn request (arrived request h) := by
    constructor
    · intro i hi
      cases hrequest : request i <;>
        simp [arrived, hrequest, DirRequest.start, DirPhase.Uncopied] at hi
    · intro i path hpath
      cases hrequest : request i <;>
        simp [arrived, hrequest, DirRequest.start, DirPhase.path] at hpath
  have hinv := forall_turns (fun i => dirStep (request i)) Exit.occur
    (PathsOwn request) (FormatsAlone request)
    (fun i s t shared hs halone hstep => pathsOwn_step hs halone hstep)
    (fun e s hs => ⟨fun i hi => by rw [e.occur_pathBuffer]; exact hs.buffer i hi, hs.copied⟩)
    hstart halone
  intro t ht
  have hbefore := (hinv t ht).1
  obtain ⟨turn, -, s, rfl⟩ := exists_of_mem_transitions ht
  exact onOwnDirectory_turn hbefore hgenerated turn

end Runs

/-- `web` is removed while `db` is created a second later. -/
def removeAndCreate : Bool → DirRequest
  | false => .remove webId (removeOver ownConfig)
  | true => .create (request "db") nextSecond

theorem removeAndCreate_generated :
    ∀ i, ∃ now, (removeAndCreate i).id = generateContainerId now
  | false => ⟨oneSecond.now, rfl⟩
  | true => ⟨nextSecond.now, rfl⟩

/-- The daemon that has `web`. -/
def storedHost : Host where
  world := webWorld
  ended := fun _ => none
  pathBuffer := []

/-- The creation has its path when the removal formats. -/
def copiedFirst : List (Turn Bool Exit) :=
  List.replicate 3 (.of true) ++ List.replicate 6 (.of false)

/-- The creation formats and makes its directory before the removal has
copied its path. -/
def formattedBetween : List (Turn Bool Exit) :=
  List.replicate 4 (.of false) ++ List.replicate 3 (.of true) ++ List.replicate 2 (.of false)

theorem copiedFirst_own :
    (∃ t ∈ dirHistory removeAndCreate copiedFirst storedHost,
      t.before.shared.world.fs.node (containerDir webId) = some .dir ∧
      t.after.shared.world.fs.node (containerDir webId) = none) ∧
    ∀ t ∈ dirHistory removeAndCreate copiedFirst storedHost, OnOwnDirectory removeAndCreate t := by
  have hruns : (∃ t ∈ dirHistory removeAndCreate copiedFirst storedHost,
      t.before.shared.world.fs.node (containerDir webId) = some .dir ∧
      t.after.shared.world.fs.node (containerDir webId) = none) ∧
      ∀ t ∈ dirHistory removeAndCreate copiedFirst storedHost, ∀ i, t.action = .of i →
        (t.before.thread i).Formats → ∀ j, (t.before.thread j).Uncopied →
          (removeAndCreate j).id = (removeAndCreate i).id := by
    decide +kernel
  exact ⟨hruns.1, directories_own removeAndCreate removeAndCreate_generated copiedFirst storedHost
    hruns.2⟩

/-- The removal of `web` deletes the directory just made for `db`. -/
theorem formattedBetween_deletes_other :
    ¬ ∀ turns, ∀ t ∈ dirHistory removeAndCreate turns storedHost,
      OnOwnDirectory removeAndCreate t := by
  intro h
  have hrm : ∃ t ∈ dirHistory removeAndCreate formattedBetween storedHost,
      t.action = .of false ∧ t.before.thread false = .remove (.rm
        ((readContainerMetadata webId false webWorld ownConfig).getD ownConfig)
        (getContainerFullPath (generateContainerId nextSecond.now))) ∧
      t.before.shared.world.fs.node (containerDir (generateContainerId nextSecond.now))
        = some .dir ∧
      t.after.shared.world.fs.node (containerDir (generateContainerId nextSecond.now)) = none := by
    decide +kernel
  obtain ⟨t, ht, hturn, hp, hbefore, hafter⟩ := hrm
  have hown := h formattedBetween t ht false hturn
  rw [hp] at hown
  have hsame := hown.1 (containerDir (generateContainerId nextSecond.now)) (by decide +kernel)
  rw [hbefore, hafter] at hsame
  simp at hsame

end DockerClone.Container
