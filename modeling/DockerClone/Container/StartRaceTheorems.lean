/-
DockerClone.Container.StartRaceTheorems — start requests for one
container, in any interleaving.

The test for RUNNING and the write of RUNNING are separate steps, with
the `clone` between them. `Exclusive` is what the test is there for: at
most one request holds the container, from its clone to the write that
ends its hold, and while one holds it past its first write the stored
record says RUNNING. The invariant survives every step but one: a clone
after a test whose answer has become stale (`TestedNow`).
-/
import DockerClone.Container.AloneTheorems
import DockerClone.Container.LifecycleTheorems

namespace DockerClone.Container

open DockerClone.CLib DockerClone.Os DockerClone.Os.FileSystem DockerClone.Metadata

/-! ## 1. Requests -/

/-- The child a request started and has not waited for. -/
def StartPhase.child : StartPhase → Option Int32
  | .write _ childPid => some childPid
  | .wait _ childPid => some childPid
  | .done _ childPid => childPid
  | _ => none

/-- A request holds the container from its clone to the write of EXITED;
a detached one, and one whose write failed, for good. -/
def StartPhase.Holds : StartPhase → Prop
  | .write .. => True
  | .wait .. => True
  | .rewrite .. => True
  | .done _ childPid => childPid.isSome = true
  | _ => False

/-- The process is there and its record is not written yet. -/
def StartPhase.Unrecorded : StartPhase → Prop
  | .write .. => True
  | _ => False

instance (p : StartPhase) : Decidable p.Unrecorded := by
  unfold StartPhase.Unrecorded
  split <;> infer_instance

theorem StartPhase.holds_of_child {p : StartPhase} {pid : Int32} (h : p.child = some pid) :
    p.Holds := by
  cases p <;> simp_all [child, Holds]

section Requests

variable {ι : Type} (id : List Char) (env : ι → StartEnv)

abbrev Requests (ι : Type) := Threads ι StartPhase Host

/-- Every request is still to make its first step. -/
def arriving (h : Host) : Requests ι := { shared := h, thread := fun _ => .check }

/-- A process that this request launched and that has not ended. -/
def Live (s : Requests ι) (i : ι) : Prop := ∃ pid ∈ (s.thread i).child, s.shared.Running pid

instance (s : Requests ι) (i : ι) : Decidable (Live s i) := by
  unfold Live
  infer_instance

/-- A request in detached mode that has returned 0. -/
def ReturnedDetached (s : Requests ι) (i : ι) : Prop :=
  (env i).junk.detach ≠ 0 ∧ ∃ childPid, s.thread i = .done 0 childPid

structure AtMostOne (s : Requests ι) : Prop where
  process : ∀ i j, Live s i → Live s j → i = j
  detached : ∀ i j, ReturnedDetached env s i → ReturnedDetached env s j → i = j

/-- A write reaches the container's own metadata file. -/
def ReachesOwn (i : ι) (s : Requests ι) : Prop :=
  match s.thread i with
  | .write .. => s.shared.world.fs.writeTarget s.shared.world.cwd
      (cstr (env i).junk.configPath) (env i).writeDenied = some (metadataFile id)
  | .rewrite .. => s.shared.world.fs.writeTarget s.shared.world.cwd
      (cstr (env i).junk.configPath) (env i).rewriteDenied = some (metadataFile id)
  | _ => True


instance (i : ι) (s : Requests ι) : Decidable (ReachesOwn id env i s) := by
  unfold ReachesOwn
  split <;> infer_instance

/-- Read back, a record says RUNNING. -/
def ReadsRunning (r : ContainerInfo) : Prop :=
  ∀ container, (readContainerText (containerText r) container).state
    = ContainerState.running.code

/-- One without double quotes does. -/
theorem readsRunning_of_quoteFree {r : ContainerInfo} (h : QuoteFree r)
    (hstate : r.state = ContainerState.running.code) : ReadsRunning r :=
  fun container => (state_readContainerText h container).trans hstate

/-- At its clone a request would still pass its test, and no other has a
process whose record is not written yet. -/
def TestedNow (i : ι) (s : Requests ι) : Prop :=
  match s.thread i with
  | .clone _ =>
      (∃ container ∈ readContainerMetadata id (env i).readDenied s.shared.world (env i).junk,
        container.state ≠ ContainerState.running.code) ∧
      ∀ j, j ≠ i → ¬ (s.thread j).Unrecorded
  | _ => True

instance (env : Bool → StartEnv) (i : Bool) (s : Requests Bool) :
    Decidable (TestedNow id env i s) := by
  unfold TestedNow
  split <;> infer_instance

/-- What the first write of a request puts down. -/
def AtFirstWrite (P : ContainerInfo → Prop) (i : ι) (s : Requests ι) : Prop :=
  match s.thread i with
  | .write container childPid => P (runningRecord container childPid (env i).startedAt)
  | _ => True

instance (P : ContainerInfo → Prop) [DecidablePred P] (i : ι) (s : Requests ι) :
    Decidable (AtFirstWrite env P i s) := by
  unfold AtFirstWrite
  split <;> infer_instance

variable {env}

theorem AtFirstWrite.mono {P Q : ContainerInfo → Prop} (hPQ : ∀ r, P r → Q r) {i : ι}
    {s : Requests ι} (h : AtFirstWrite env P i s) : AtFirstWrite env Q i s := by
  unfold AtFirstWrite at h ⊢
  split
  · rename_i container childPid hp
    rw [hp] at h
    exact hPQ _ h
  · trivial

end Requests

/-! ## 2. The invariant -/

/-- Whoever reads the stored record, finds RUNNING. -/
def StoredRunning (id : List Char) (w : World) : Prop :=
  ∃ text, w.fs.node (metadataFile id) = some (.file text) ∧
    ∀ container, (readContainerText text container).state = ContainerState.running.code

theorem StoredRunning.read {id : List Char} {w : World} (h : StoredRunning id w) (hid : IsId id)
    {denied : Bool} {junk container : ContainerInfo}
    (hread : readContainerMetadata id denied w junk = some container) :
    container.state = ContainerState.running.code := by
  obtain ⟨text, hfile, hstate⟩ := h
  rw [readContainerMetadata_file hid hfile] at hread
  cases denied with
  | true => simp at hread
  | false =>
    rw [← Option.some.inj hread]
    exact hstate junk

/-- What the local record still has from the stale bytes; and only a
foreground request gets as far as waiting. -/
def Owns (env : StartEnv) : StartPhase → Prop
  | .test container => container.configPath = env.junk.configPath ∧
      container.detach = env.junk.detach
  | .clone container => container.configPath = env.junk.configPath ∧
      container.detach = env.junk.detach
  | .write container _ => container.configPath = env.junk.configPath ∧
      container.detach = env.junk.detach
  | .wait container _ => container.configPath = env.junk.configPath ∧ env.junk.detach = 0
  | .rewrite container _ => container.configPath = env.junk.configPath ∧ env.junk.detach = 0
  | .done result childPid => result = 0 → childPid = none → env.junk.detach = 0
  | _ => True

structure Exclusive {ι : Type} (id : List Char) (env : ι → StartEnv) (s : Requests ι) : Prop where
  owns : ∀ i, Owns (env i) (s.thread i)
  one : ∀ i j, (s.thread i).Holds → (s.thread j).Holds → i = j
  recorded : ∀ i, (s.thread i).Holds → ¬ (s.thread i).Unrecorded →
    StoredRunning id s.shared.world

section Steps

variable {ι : Type} [DecidableEq ι] {id : List Char} {env : ι → StartEnv} {s : Requests ι}
  {i : ι}

omit [DecidableEq ι] in
/-- One live process, one detached return. -/
theorem Exclusive.atMostOne (h : Exclusive id env s) : AtMostOne env s where
  process := by
    rintro i j ⟨pid, hi, -⟩ ⟨pid', hj, -⟩
    exact h.one i j (StartPhase.holds_of_child hi) (StartPhase.holds_of_child hj)
  detached := by
    have hholds : ∀ i, ReturnedDetached env s i → (s.thread i).Holds := by
      rintro i ⟨hdetach, childPid, hdone⟩
      have howns := h.owns i
      rw [hdone] at howns ⊢
      cases childPid with
      | none => exact absurd (howns rfl rfl) hdetach
      | some pid => rfl
    exact fun i j hi hj => h.one i j (hholds i hi) (hholds j hj)

/-- What a step has to say for the invariant to survive it. -/
theorem Exclusive.move (h : Exclusive id env s) {t : StartPhase} {shared : Host}
    (howns : Owns (env i) t) (halone : t.Holds → ∀ j, j ≠ i → ¬ (s.thread j).Holds)
    (hrecorded : t.Holds → ¬ t.Unrecorded → StoredRunning id shared.world)
    (hothers : ∀ j, j ≠ i → (s.thread j).Holds → StoredRunning id s.shared.world →
      StoredRunning id shared.world) : Exclusive id env (s.move i t shared) where
  owns := Threads.forall_move (P := fun i p => Owns (env i) p) howns fun j _ => h.owns j
  one := by
    have hother : ∀ j k, j ≠ i → ((s.move i t shared).thread j).Holds →
        ((s.move i t shared).thread k).Holds → j = k := by
      intro j k hj hholds hk
      rw [Threads.move_thread_ne s hj] at hholds
      by_cases hki : k = i
      · rw [hki, Threads.move_thread_self] at hk
        exact absurd hholds (halone hk j hj)
      · rw [Threads.move_thread_ne s hki] at hk
        exact h.one j k hholds hk
    intro j k hj hk
    by_cases hji : j = i
    · by_cases hki : k = i
      · rw [hji, hki]
      · exact (hother k j hki hk hj).symm
    · exact hother j k hji hj hk
  recorded := by
    refine Threads.forall_move
      (P := fun _ (p : StartPhase) => p.Holds → ¬ p.Unrecorded → StoredRunning id shared.world)
      hrecorded ?_
    exact fun j hj hholds hrec => hothers j hj hholds (h.recorded j hholds hrec)

/-- A step that takes no hold and leaves the file system alone. -/
theorem Exclusive.move_idle (h : Exclusive id env s) {t : StartPhase} {shared : Host}
    (howns : Owns (env i) t) (hidle : ¬ t.Holds) (hfs : shared.world.fs = s.shared.world.fs) :
    Exclusive id env (s.move i t shared) := by
  refine h.move howns (fun ht => absurd ht hidle) (fun ht => absurd ht hidle) ?_
  rintro j - - ⟨text, hfile, hstate⟩
  exact ⟨text, by rw [hfs]; exact hfile, hstate⟩

/-- A step of the request that holds the container. -/
theorem Exclusive.move_holding (h : Exclusive id env s) {t : StartPhase} {shared : Host}
    (hholds : (s.thread i).Holds) (howns : Owns (env i) t)
    (hrecorded : t.Holds → ¬ t.Unrecorded → StoredRunning id shared.world) :
    Exclusive id env (s.move i t shared) := by
  have halone : ∀ j, j ≠ i → ¬ (s.thread j).Holds := fun j hj hj' => hj (h.one j i hj' hholds)
  exact h.move howns (fun _ => halone) hrecorded fun j hj hj' => absurd hj' (halone j hj)

omit [DecidableEq ι] in
/-- The test at the clone: nobody else holds the container. -/
theorem Exclusive.free (h : Exclusive id env s) (hid : IsId id) {container : ContainerInfo}
    (hp : s.thread i = .clone container) (htest : TestedNow id env i s) :
    ∀ j, j ≠ i → ¬ (s.thread j).Holds := by
  rw [TestedNow, hp] at htest
  obtain ⟨⟨now, hread, hstate⟩, hrecorded⟩ := htest
  intro j hj hholds
  exact hstate ((h.recorded j hholds (hrecorded j hj)).read hid hread)

theorem exclusive_step (hid : IsId id) (h : Exclusive id env s) (hown : ReachesOwn id env i s)
    (htest : TestedNow id env i s) (hread : AtFirstWrite env ReadsRunning i s)
    {t : StartPhase} {shared : Host}
    (hstep : startStep id (env i) (s.thread i) s.shared = some (t, shared)) :
    Exclusive id env (s.move i t shared) := by
  have howns := h.owns i
  have hfailed : ∀ {shared : Host} {t : StartPhase}, t = .done (-1) none →
      shared.world.fs = s.shared.world.fs → Exclusive id env (s.move i t shared) := by
    rintro shared t rfl hfs
    exact h.move_idle (by simp [Owns]) (by simp [StartPhase.Holds]) hfs
  cases hp : s.thread i with
  | check =>
    rw [hp] at hstep
    simp only [startStep] at hstep
    split at hstep <;> obtain ⟨rfl, rfl⟩ := Option.some.inj hstep
    · exact hfailed rfl rfl
    · exact h.move_idle trivial (by simp [StartPhase.Holds]) rfl
  | read =>
    rw [hp] at hstep
    simp only [startStep] at hstep
    split at hstep <;> obtain ⟨rfl, rfl⟩ := Option.some.inj hstep
    · exact hfailed rfl rfl
    · rename_i container hread
      exact h.move_idle ⟨configPath_unread hread, detach_unread hread⟩
        (by simp [StartPhase.Holds]) rfl
  | test container =>
    rw [hp] at hstep howns
    simp only [startStep] at hstep
    split at hstep <;> obtain ⟨rfl, rfl⟩ := Option.some.inj hstep
    · exact hfailed rfl rfl
    · exact h.move_idle howns (by simp [StartPhase.Holds]) rfl
  | clone container =>
    have hfree := h.free hid hp htest
    rw [hp] at hstep howns
    simp only [startStep] at hstep
    split at hstep
    · obtain ⟨rfl, rfl⟩ := Option.some.inj hstep
      exact hfailed rfl rfl
    split at hstep
    · obtain ⟨rfl, rfl⟩ := Option.some.inj hstep
      exact hfailed rfl rfl
    split at hstep
    · simp at hstep
    obtain ⟨rfl, rfl⟩ := Option.some.inj hstep
    exact h.move howns (fun _ => hfree) (fun _ hrec => absurd trivial hrec)
      fun j hj hholds => absurd hholds (hfree j hj)
  | write container childPid =>
    have hholds : (s.thread i).Holds := by rw [hp]; trivial
    rw [hp] at hstep howns
    rw [ReachesOwn, hp] at hown
    rw [AtFirstWrite, hp] at hread
    have htarget : s.shared.world.fs.writeTarget s.shared.world.cwd
        (cstr (runningRecord container childPid (env i).startedAt).configPath)
        (env i).writeDenied = some (metadataFile id) := by
      rw [runningRecord_configPath, howns.1]
      exact hown
    have hzero := writeContainerMetadata_of_target htarget
    obtain ⟨p, htarget', -, -, hnode⟩ := writeContainerMetadata_zero hzero
    obtain rfl := Option.some.inj (htarget'.symm.trans htarget)
    have hwrite : writeContainerMetadata (runningRecord container childPid (env i).startedAt)
        (env i).writeDenied s.shared.world = (0, (writeContainerMetadata
          (runningRecord container childPid (env i).startedAt) (env i).writeDenied
          s.shared.world).2) := Prod.ext hzero rfl
    rw [startStep_write hwrite] at hstep
    obtain ⟨rfl, rfl⟩ := Option.some.inj hstep
    refine h.move_holding hholds ?_ fun _ _ => ⟨_, by rw [hnode, if_pos rfl], hread⟩
    by_cases hdetach : container.detach = 0
    · rw [if_neg (not_not.mpr hdetach)]
      exact ⟨howns.1, howns.2.symm.trans hdetach⟩
    · rw [if_pos hdetach]
      simp [Owns]
  | wait container childPid =>
    have hholds : (s.thread i).Holds := by rw [hp]; trivial
    have hrecorded := h.recorded i hholds (by rw [hp]; simp [StartPhase.Unrecorded])
    rw [hp] at hstep howns
    simp only [startStep] at hstep
    split at hstep
    · simp at hstep
    rename_i status shared' hwait
    obtain ⟨rfl, rfl⟩ := Option.some.inj hstep
    refine h.move_holding hholds howns fun _ _ => ?_
    rwa [StoredRunning, Host.waitpid_fs hwait]
  | rewrite container status =>
    have hholds : (s.thread i).Holds := by rw [hp]; trivial
    rw [hp] at hstep howns
    rw [startStep_rewrite] at hstep
    obtain ⟨rfl, rfl⟩ := Option.some.inj hstep
    exact h.move_holding hholds (fun _ _ => howns.2) fun hnone => by simp [StartPhase.Holds] at hnone
  | done result childPid =>
    rw [hp] at hstep
    simp [startStep] at hstep

end Steps

/-! ## 3. Runs -/

section Runs

variable {ι : Type} [DecidableEq ι] (id : List Char) (env : ι → StartEnv)

/-- The requests while they take their turns; children end in between. -/
abbrev startHistory (turns : List (Turn ι Exit)) (h : Host) :
    List (Transition (Requests ι) (Turn ι Exit) Bool) :=
  History (fun i => startStep id (env i)) Exit.occur turns (arriving h)

/-- Any number of start requests for one container, in any interleaving
in which each clones only while its test still holds, never have two live
processes, and at most one of the detached ones returns 0. -/
theorem start_requests_exclusive (hid : IsId id) (turns : List (Turn ι Exit)) (h : Host)
    (hown : ∀ t ∈ startHistory id env turns h, AtTurn (ReachesOwn id env) t)
    (htest : ∀ t ∈ startHistory id env turns h, AtTurn (TestedNow id env) t)
    (hread : ∀ t ∈ startHistory id env turns h, AtTurn (AtFirstWrite env ReadsRunning) t) :
    ∀ t ∈ startHistory id env turns h, AtMostOne env t.after := by
  have hstart : Exclusive id env (arriving h : Requests ι) :=
    ⟨fun _ => trivial, fun _ _ hi => hi.elim, fun _ hi => hi.elim⟩
  have hinv := forall_turns (fun i => startStep id (env i)) Exit.occur (Exclusive id env)
    (fun i s => ReachesOwn id env i s ∧ TestedNow id env i s ∧ AtFirstWrite env ReadsRunning i s)
    (fun i s t shared hs hneeds hstep =>
      exclusive_step hid hs hneeds.1 hneeds.2.1 hneeds.2.2 hstep)
    (fun e s hs => ⟨hs.owns, hs.one, fun i hi hrec => by
      rw [e.occur_world]
      exact hs.recorded i hi hrec⟩)
    hstart (fun t ht i hi => ⟨hown t ht i hi, htest t ht i hi, hread t ht i hi⟩)
  exact fun t ht => (hinv t ht).2.atMostOne

end Runs

/-- The daemon with the container `web`, created and not started. -/
def webHost : Host where
  world := (createContainer (request "web") oneSecond emptyWorld).2
  ended := fun _ => none
  pathBuffer := []

/-- A detached request whose stale bytes name the container's own file. -/
def detachedStart (pid : Int32) : StartEnv :=
  { startOver { newContainer (request "web") oneSecond with detach := 1 } with child := some pid }

/-- Two of them. -/
def twoStarts : Bool → StartEnv
  | false => detachedStart 4243
  | true => detachedStart 4244

/-- The second is made when the first has returned. -/
def oneAfterTheOther : List (Turn Bool Exit) :=
  List.replicate 5 (.of false) ++ List.replicate 3 (.of true)

/-- Both read the record before either writes it. -/
def bothTested : List (Turn Bool Exit) :=
  List.replicate 3 (.of false) ++ List.replicate 3 (.of true) ++ List.replicate 2 (.of false)
    ++ List.replicate 2 (.of true)

theorem oneAfterTheOther_exclusive :
    (finalState (takeTurn (fun i => startStep webId (twoStarts i)) Exit.occur) oneAfterTheOther
      (arriving webHost)).thread true = .done (-1) none ∧
    ∀ t ∈ startHistory webId twoStarts oneAfterTheOther webHost, AtMostOne twoStarts t.after := by
  have hmeets : (finalState (takeTurn (fun i => startStep webId (twoStarts i)) Exit.occur)
      oneAfterTheOther (arriving webHost)).thread true = .done (-1) none ∧
      ∀ t ∈ startHistory webId twoStarts oneAfterTheOther webHost,
        ∀ i, t.action = .of i → ReachesOwn webId twoStarts i t.before ∧
          TestedNow webId twoStarts i t.before ∧ AtFirstWrite twoStarts
            (fun r => QuoteFree r ∧ r.state = ContainerState.running.code) i t.before := by
    decide +kernel
  exact ⟨hmeets.1, start_requests_exclusive webId twoStarts
    (isId_generateContainerId _) oneAfterTheOther webHost
    (fun t ht i hi => (hmeets.2 t ht i hi).1) (fun t ht i hi => (hmeets.2 t ht i hi).2.1)
    fun t ht i hi => (hmeets.2 t ht i hi).2.2.mono
      fun r hr => readsRunning_of_quoteFree hr.1 hr.2⟩

/-- Two processes run in one container, and both requests return 0. -/
theorem bothTested_race :
    Records webId webHost.world (fun r => r.state = ContainerState.created.code) ∧
    ¬ ∀ turns, (∀ t ∈ startHistory webId twoStarts turns webHost,
        AtTurn (ReachesOwn webId twoStarts) t) →
      ∀ t ∈ startHistory webId twoStarts turns webHost, AtMostOne twoStarts t.after := by
  have hruns : (∀ t ∈ startHistory webId twoStarts bothTested webHost,
      ∀ i, t.action = .of i → ReachesOwn webId twoStarts i t.before) ∧
      ∃ t ∈ startHistory webId twoStarts bothTested webHost,
        Live t.after false ∧ Live t.after true := by
    decide +kernel
  refine ⟨⟨newContainer (request "web") oneSecond, webWorld_file, rfl⟩, fun h => ?_⟩
  obtain ⟨hown, t, ht, hfalse, htrue⟩ := hruns
  exact absurd ((h bothTested hown t ht).process false true hfalse htrue) (by decide)

end DockerClone.Container
