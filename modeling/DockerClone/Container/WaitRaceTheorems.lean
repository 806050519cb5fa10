/-
DockerClone.Container.WaitRaceTheorems — a stop against the foreground
start it stops.

The start has stored RUNNING and waits for its child; the stop finds the
record, kills the child and waits for it too. One of the two waits gets
the status. A stop whose `waitpid` fails gives up; a start does not look
at the result of its own and records the exit status of whatever was in
`status`. `EndKept` is the invariant of the runs in which neither does
harm: the start does not take the status of a child that the stop's
signal has ended, and what it writes is right or is written over.
-/
import DockerClone.Container.StartRaceTheorems

namespace DockerClone.Container

open DockerClone.CLib DockerClone.Os DockerClone.Os.FileSystem DockerClone.Metadata

/-! ## 1. The two calls -/

inductive Party where
  | starter
  | stopper
  deriving DecidableEq, Repr

inductive Call where
  | start (p : StartPhase)
  | stop (q : StopPhase)
  deriving DecidableEq, Repr

/-- A stop that has the status and is to write it. -/
def Call.AboutToWrite : Call → Prop
  | .stop (.write ..) => True
  | _ => False

instance (c : Call) : Decidable c.AboutToWrite := by
  unfold Call.AboutToWrite
  split <;> infer_instance

instance (P : Party → Prop) [DecidablePred P] : Decidable (∀ i, P i) :=
  decidable_of_iff (P .starter ∧ P .stopper)
    ⟨fun h i => by cases i <;> simp [h.1, h.2], fun h => ⟨h _, h _⟩⟩

section Calls

variable (id : List Char) (senv : StartEnv) (tenv : StopEnv)

def callStep : Party → Call → Host → Option (Call × Host)
  | .starter, .start p, h => (startStep id senv p h).map (fun r => (.start r.1, r.2))
  | .stopper, .stop q, h => (stopStep id tenv q h).map (fun r => (.stop r.1, r.2))
  | _, _, _ => none

abbrev Calls := Threads Party Call Host

/-- The start waits for its child, the stop arrives. -/
def waitingStart (container : ContainerInfo) (childPid : Int32) (h : Host) : Calls where
  shared := h
  thread
    | .starter => .start (.wait container childPid)
    | .stopper => .stop .check

/-- The start has stored RUNNING for a child nobody has signalled. -/
structure ForegroundRunning (container : ContainerInfo) (childPid : Int32) (h : Host) : Prop where
  child : childPid ∈ h.world.children
  nodup : h.world.children.Nodup
  unsignalled : ∀ ending ∈ h.ended childPid, ending.signalled = false
  stored : h.world.fs.node (metadataFile id) = some (.file (containerText container))
  running : container.state = ContainerState.running.code
  pid : container.pid = childPid

/-- A write reaches the container's own metadata file. -/
def WritesOwn (i : Party) (s : Calls) : Prop :=
  match i, s.thread i with
  | .starter, .start (.rewrite container _) => s.shared.world.fs.writeTarget s.shared.world.cwd
      (cstr container.configPath) senv.rewriteDenied = some (metadataFile id)
  | .stopper, .stop (.write container _) => s.shared.world.fs.writeTarget s.shared.world.cwd
      (cstr container.configPath) tenv.writeDenied = some (metadataFile id)
  | _, _ => True

/-- The stored record is EXITED with the exit status of the child. -/
def EndStored (childPid : Int32) (h : Host) : Prop :=
  ∃ ending, h.ended childPid = some ending ∧ Records id h.world (fun r =>
    r.state = ContainerState.exited.code ∧ r.exitCode = wexitstatus ending.status)

/-- What the two calls together have to leave once both have returned. -/
def EndRecorded (childPid : Int32) (s : Calls) : Prop :=
  ∀ result childPid' result', s.thread .starter = .start (.done result childPid') →
    s.thread .stopper = .stop (.done result') →
    EndStored id childPid s.shared ∧
      ∀ ending ∈ s.shared.ended childPid, ending.signalled = true → result' = 0

/-- The start does not take the status of a child that the stop's signal
has ended, and writes the child's exit status or before the stop's write. -/
def Undisturbed (childPid : Int32) (i : Party) (s : Calls) : Prop :=
  match i, s.thread i with
  | .starter, .start (.wait ..) => childPid ∈ s.shared.world.children →
      ∀ ending ∈ s.shared.ended childPid, ending.signalled = false
  | .starter, .start (.rewrite _ status) =>
      (∀ ending ∈ s.shared.ended childPid, wexitstatus status = wexitstatus ending.status) ∨
        (s.thread .stopper).AboutToWrite
  | _, _ => True

/-- The record the stop acts on is that of the child. -/
def ReadsChild (childPid : Int32) (i : Party) (s : Calls) : Prop :=
  match i, s.thread i with
  | .stopper, .stop (.test container) =>
      container.state = ContainerState.running.code → container.pid = childPid
  | _, _ => True

instance (i : Party) (s : Calls) : Decidable (WritesOwn id senv tenv i s) := by
  unfold WritesOwn
  split <;> infer_instance

instance (childPid : Int32) (i : Party) (s : Calls) : Decidable (Undisturbed childPid i s) := by
  unfold Undisturbed
  split <;> infer_instance

instance (childPid : Int32) (i : Party) (s : Calls) : Decidable (ReadsChild childPid i s) := by
  unfold ReadsChild
  split <;> infer_instance

end Calls

/-! ## 2. The invariant -/

def StopPhase.Reaped : StopPhase → Prop
  | .write .. => True
  | .done result => result = 0
  | _ => False

/-- The record behind the test. -/
def StopPhase.passed : StopPhase → Option ContainerInfo
  | .kill container => some container
  | .wait container => some container
  | .write container _ => some container
  | _ => none

def StopPhase.status : StopPhase → Option Int32
  | .write _ status => some status
  | _ => none

/-- Both calls on their way, with nothing lost so far. -/
structure EndKept (id : List Char) (container : ContainerInfo) (childPid : Int32)
    (p : StartPhase) (q : StopPhase) (h : Host) : Prop where
  phases : p = .wait container childPid ∨ (∃ status, p = .rewrite container status) ∨
    p = .done 0 none
  passed : ∀ r ∈ q.passed, r.pid = childPid
  nodup : h.world.children.Nodup
  reaped : childPid ∉ h.world.children ↔ p ≠ .wait container childPid ∨ q.Reaped
  ended : childPid ∉ h.world.children → ∃ ending, h.ended childPid = some ending
  status : ∀ status ∈ q.status, ∀ ending ∈ h.ended childPid, status = ending.status
  own : p ≠ .wait container childPid → ¬ q.Reaped →
    ∀ ending ∈ h.ended childPid, ending.signalled = false
  stored : p = .done 0 none → q.status ≠ none ∨ EndStored id childPid h

theorem StopPhase.reaped_of_status {q : StopPhase} (h : q.status ≠ none) : q.Reaped := by
  cases q <;> simp_all [status, Reaped]

section Steps

variable {id : List Char} {container : ContainerInfo} {childPid : Int32} {p : StartPhase}
  {q : StopPhase} {h : Host}

/-- What the invariant sees of the host. -/
theorem EndKept.congr {h' : Host} (hkept : EndKept id container childPid p q h)
    (hchildren : h'.world.children = h.world.children)
    (hended : h'.ended childPid = h.ended childPid) (hfs : h'.world.fs = h.world.fs) :
    EndKept id container childPid p q h' where
  phases := hkept.phases
  passed := hkept.passed
  nodup := by rw [hchildren]; exact hkept.nodup
  reaped := by rw [hchildren]; exact hkept.reaped
  ended := by rw [hchildren, hended]; exact hkept.ended
  status := by rw [hended]; exact hkept.status
  own := by rw [hended]; exact hkept.own
  stored := by
    unfold EndStored Records
    rw [hended, hfs]
    exact hkept.stored

/-- A step of the stop that neither passes the test nor waits. -/
theorem EndKept.stop_quiet (hkept : EndKept id container childPid p q h) {q' : StopPhase}
    (hpassed : ∀ r ∈ q'.passed, r.pid = childPid) (hq : ¬ q.Reaped) (hq' : ¬ q'.Reaped) :
    EndKept id container childPid p q' h where
  phases := hkept.phases
  passed := hpassed
  nodup := hkept.nodup
  reaped := by rw [hkept.reaped]; simp [hq, hq']
  ended := hkept.ended
  status status hstatus := absurd (StopPhase.reaped_of_status (by rw [hstatus]; simp)) hq'
  own hp _ := hkept.own hp hq
  stored hp := Or.inr ((hkept.stored hp).resolve_left
    fun hstatus => hq (StopPhase.reaped_of_status hstatus))

/-- The child ends. -/
theorem EndKept.exit (hkept : EndKept id container childPid p q h) (e : Exit) :
    EndKept id container childPid p q (e.occur h) := by
  unfold Exit.occur
  split
  · rename_i hoccurs
    by_cases hpid : e.pid = childPid
    · -- the child still runs, so neither call has waited for it
      have hchild : childPid ∈ h.world.children := by rw [← hpid]; exact hoccurs.1.1
      have hwaiting : ¬ (p ≠ .wait container childPid ∨ q.Reaped) :=
        fun hor => hkept.reaped.mpr hor hchild
      obtain ⟨hp, hq⟩ := not_or.mp hwaiting
      exact { hkept with
        ended := fun hgone => absurd hchild hgone
        status := fun status hstatus =>
          absurd (StopPhase.reaped_of_status (by rw [hstatus]; simp)) hq
        own := fun hp' => absurd hp' hp
        stored := fun hdone => absurd (by rw [hdone]; simp) hp }
    · exact hkept.congr rfl (Function.update_of_ne (Ne.symm hpid) _ _) rfl
  · exact hkept

/-- A write of the exit status of the child. -/
theorem endStored_of_write {r : ContainerInfo} {denied : Bool} {ending : Ending} {h' : Host}
    {now : Int64} {status : Int32} (hended : h.ended childPid = some ending)
    (hstatus : wexitstatus status = wexitstatus ending.status)
    (htarget : h.world.fs.writeTarget h.world.cwd (cstr r.configPath) denied
      = some (metadataFile id))
    (hh' : h' = { h with
      world := (writeContainerMetadata (exitedRecord r status now) denied h.world).2 }) :
    EndStored id childPid h' := by
  have htarget' : h.world.fs.writeTarget h.world.cwd
      (cstr (exitedRecord r status now).configPath) denied = some (metadataFile id) := htarget
  obtain ⟨p, hp, -, -, hnode⟩ :=
    writeContainerMetadata_zero (writeContainerMetadata_of_target htarget')
  obtain rfl := Option.some.inj (hp.symm.trans htarget')
  rw [hh']
  exact ⟨ending, hended, exitedRecord r status now, by rw [hnode, if_pos rfl], rfl, hstatus⟩

/-- A write changes neither the children nor what is known of them. -/
theorem writeContainerMetadata_children (r : ContainerInfo) (denied : Bool) (w : World) :
    (writeContainerMetadata r denied w).2.children = w.children := by
  rcases writeContainerMetadata_cases r denied w with ⟨p, fs, -, -, hw, -⟩ | hw <;> rw [hw]

variable {senv : StartEnv} {tenv : StopEnv}

theorem EndKept.start_step (hkept : EndKept id container childPid p q h)
    (hwait : p = .wait container childPid → childPid ∈ h.world.children →
      ∀ ending ∈ h.ended childPid, ending.signalled = false)
    (hrewrite : ∀ status, p = .rewrite container status →
      (∀ ending ∈ h.ended childPid, wexitstatus status = wexitstatus ending.status) ∨
        q.status ≠ none)
    (htarget : ∀ status, p = .rewrite container status →
      h.world.fs.writeTarget h.world.cwd (cstr container.configPath) senv.rewriteDenied
        = some (metadataFile id))
    {p' : StartPhase} {h' : Host} (hstep : startStep id senv p h = some (p', h')) :
    EndKept id container childPid p' q h' := by
  rcases hkept.phases with rfl | ⟨status, rfl⟩ | rfl
  · simp only [startStep] at hstep
    split at hstep
    · simp at hstep
    rename_i status h'' hwaited
    obtain ⟨rfl, rfl⟩ := Option.some.inj hstep
    rcases Host.waitpid_cases hwaited with ⟨hchild, ending, hended, rfl, rfl⟩ | ⟨hgone, rfl, rfl⟩
    · have hq : ¬ q.Reaped := fun hq => hkept.reaped.mpr (Or.inr hq) hchild
      have hgone : childPid ∉ (h.world.reap childPid).children :=
        List.Nodup.not_mem_erase hkept.nodup
      exact { hkept with
        phases := Or.inr (Or.inl ⟨_, rfl⟩)
        nodup := hkept.nodup.erase childPid
        reaped := iff_of_true hgone (Or.inl (by simp))
        ended := fun _ => ⟨ending, hended⟩
        own := fun _ _ => hwait rfl hchild
        stored := fun hdone => by simp at hdone }
    · have hq : q.Reaped := by simpa using hkept.reaped.mp hgone
      exact { hkept with
        phases := Or.inr (Or.inl ⟨_, rfl⟩)
        reaped := iff_of_true hgone (Or.inl (by simp))
        own := fun _ hq' => absurd hq hq'
        stored := fun hdone => by simp at hdone }
  · rw [startStep_rewrite] at hstep
    obtain ⟨rfl, rfl⟩ := Option.some.inj hstep
    have hgone : childPid ∉ h.world.children := hkept.reaped.mpr (Or.inl (by simp))
    obtain ⟨ending, hended⟩ := hkept.ended hgone
    have hchildren := writeContainerMetadata_children
      (exitedRecord container status senv.finishedAt) senv.rewriteDenied h.world
    exact { hkept with
      phases := Or.inr (Or.inr rfl)
      nodup := by rw [hchildren]; exact hkept.nodup
      reaped := by rw [hchildren]; exact iff_of_true hgone (Or.inl (by simp))
      ended := fun _ => ⟨ending, hended⟩
      own := fun _ => hkept.own (by simp)
      stored := fun _ => (hrewrite status rfl).symm.imp_right fun hright =>
        endStored_of_write hended (hright ending hended) (htarget status rfl) rfl }
  · simp [startStep] at hstep

theorem EndKept.stop_step (hkept : EndKept id container childPid p q h)
    (hread : ∀ r, q = .test r → r.state = ContainerState.running.code → r.pid = childPid)
    (htarget : ∀ r status, q = .write r status →
      h.world.fs.writeTarget h.world.cwd (cstr r.configPath) tenv.writeDenied
        = some (metadataFile id))
    {q' : StopPhase} {h' : Host} (hstep : stopStep id tenv q h = some (q', h')) :
    EndKept id container childPid p q' h' := by
  have hfailed : ¬ q.Reaped → EndKept id container childPid p (.done (-1)) h := fun hq =>
    hkept.stop_quiet (by simp [StopPhase.passed]) hq (by simp [StopPhase.Reaped])
  cases q with
  | check =>
    simp only [stopStep] at hstep
    split at hstep <;> obtain ⟨rfl, rfl⟩ := Option.some.inj hstep
    · exact hfailed (by simp [StopPhase.Reaped])
    · exact hkept.stop_quiet (by simp [StopPhase.passed]) (by simp [StopPhase.Reaped])
        (by simp [StopPhase.Reaped])
  | read =>
    simp only [stopStep] at hstep
    split at hstep <;> obtain ⟨rfl, rfl⟩ := Option.some.inj hstep
    · exact hfailed (by simp [StopPhase.Reaped])
    · exact hkept.stop_quiet (by simp [StopPhase.passed]) (by simp [StopPhase.Reaped])
        (by simp [StopPhase.Reaped])
  | test r =>
    simp only [stopStep] at hstep
    split at hstep <;> obtain ⟨rfl, rfl⟩ := Option.some.inj hstep
    · exact hfailed (by simp [StopPhase.Reaped])
    · rename_i hstate
      exact hkept.stop_quiet (by simpa [StopPhase.passed] using hread r rfl (not_not.mp hstate))
        (by simp [StopPhase.Reaped]) (by simp [StopPhase.Reaped])
  | kill r =>
    simp only [stopStep] at hstep
    split at hstep <;> obtain ⟨rfl, rfl⟩ := Option.some.inj hstep
    · exact hfailed (by simp [StopPhase.Reaped])
    · have hsignalled : EndKept id container childPid p (.kill r)
          { h with world := h.world.kill r.pid .SIGTERM } := hkept.congr rfl rfl rfl
      exact hsignalled.stop_quiet hkept.passed (by simp [StopPhase.Reaped])
        (by simp [StopPhase.Reaped])
  | wait r =>
    have hpid : r.pid = childPid := hkept.passed r rfl
    simp only [stopStep] at hstep
    split at hstep
    · simp at hstep
    · rename_i h'' hwaited
      obtain ⟨rfl, rfl⟩ := Option.some.inj hstep
      rcases Host.waitpid_cases hwaited with ⟨-, ending, -, hnone, -⟩ | ⟨-, -, rfl⟩
      · simp at hnone
      · exact hfailed (by simp [StopPhase.Reaped])
    · rename_i status h'' hwaited
      obtain ⟨rfl, rfl⟩ := Option.some.inj hstep
      rw [hpid] at hwaited
      rcases Host.waitpid_cases hwaited with ⟨hchild, ending, hended, hsome, rfl⟩ | ⟨-, hnone, -⟩
      · obtain rfl := Option.some.inj hsome
        have hwaiting : p = .wait container childPid := by
          by_contra hp
          exact hkept.reaped.mpr (Or.inl hp) hchild
        have hgone : childPid ∉ (h.world.reap childPid).children :=
          List.Nodup.not_mem_erase hkept.nodup
        exact { hkept with
          passed := by simpa [StopPhase.passed] using hpid
          nodup := hkept.nodup.erase childPid
          reaped := iff_of_true hgone (Or.inr trivial)
          ended := fun _ => ⟨ending, hended⟩
          status := by
            rintro _ ⟨⟩ ending' hended'
            exact congrArg Ending.status (Option.some.inj (hended.symm.trans hended'))
          own := fun hp => absurd hwaiting hp
          stored := fun hdone => by rw [hwaiting] at hdone; simp at hdone }
      · simp at hnone
  | write r status =>
    rw [stopStep_write] at hstep
    obtain ⟨rfl, rfl⟩ := Prod.mk.inj (Option.some.inj hstep)
    have hzero : (writeContainerMetadata (exitedRecord r status tenv.finishedAt) tenv.writeDenied
        h.world).1 = 0 := writeContainerMetadata_of_target (htarget r status rfl)
    have hgone : childPid ∉ h.world.children := hkept.reaped.mpr (Or.inr trivial)
    obtain ⟨ending, hended⟩ := hkept.ended hgone
    have hchildren := writeContainerMetadata_children
      (exitedRecord r status tenv.finishedAt) tenv.writeDenied h.world
    have hstatus : status = ending.status := hkept.status status rfl ending hended
    exact { hkept with
      passed := by simp [StopPhase.passed]
      nodup := by rw [hchildren]; exact hkept.nodup
      reaped := by rw [hchildren]; exact iff_of_true hgone (Or.inr hzero)
      ended := fun _ => ⟨ending, hended⟩
      status := by simp [StopPhase.status]
      own := fun _ hq => absurd hzero hq
      stored := fun _ => Or.inr (endStored_of_write hended (congrArg wexitstatus hstatus)
        (htarget r status rfl) rfl) }
  | done result => simp [stopStep] at hstep

end Steps

/-! ## 3. Runs -/

section Runs

variable (id : List Char) (senv : StartEnv) (tenv : StopEnv)

/-- The two calls while they take their turns; children end in between. -/
abbrev callHistory (turns : List (Turn Party Exit)) (container : ContainerInfo)
    (childPid : Int32) (h : Host) : List (Transition Calls (Turn Party Exit) Bool) :=
  History (callStep id senv tenv) Exit.occur turns (waitingStart container childPid h)

/-- Behind its read a stop does not read again. -/
theorem stopStep_later {q q' : StopPhase} {h h' : Host}
    (hstep : stopStep id tenv q h = some (q', h')) (hcheck : q ≠ .check) (hread : q ≠ .read) :
    q' ≠ .check ∧ q' ≠ .read ∧ ∀ r, q' ≠ .test r := by
  cases q with
  | check => exact absurd rfl hcheck
  | read => exact absurd rfl hread
  | test r | kill r =>
    simp only [stopStep] at hstep
    split at hstep <;> obtain ⟨rfl, -⟩ := Prod.mk.inj (Option.some.inj hstep) <;> simp
  | wait r =>
    simp only [stopStep] at hstep
    split at hstep
    · simp at hstep
    · obtain ⟨rfl, -⟩ := Prod.mk.inj (Option.some.inj hstep); simp
    · obtain ⟨rfl, -⟩ := Prod.mk.inj (Option.some.inj hstep); simp
  | write r status =>
    rw [stopStep_write] at hstep
    obtain ⟨rfl, -⟩ := Prod.mk.inj (Option.some.inj hstep)
    simp
  | done result => simp [stopStep] at hstep

/-- Until the stop has read, the file holds the child's record, and what
it has read is that record. -/
def SeesChild (container : ContainerInfo) (childPid : Int32) (s : Calls) : Prop :=
  (s.thread .starter = .start (.wait container childPid) ∨
    (∃ status, s.thread .starter = .start (.rewrite container status)) ∨
    s.thread .starter = .start (.done 0 none)) ∧
  ∃ q, s.thread .stopper = .stop q ∧
    (q = .check ∨ q = .read → Records id s.shared.world
      (fun r => QuoteFree r ∧ r.pid = childPid)) ∧
    ∀ r, q = .test r → r.pid = childPid

/-- Without double quotes in the start's record, the stop reads the pid of
the child. -/
theorem readsChild_of_quoteFree (hid : IsId id) (turns : List (Turn Party Exit))
    {container : ContainerInfo} {childPid : Int32} {h : Host}
    (hstart : ForegroundRunning id container childPid h) (hquote : QuoteFree container)
    (hown : ∀ t ∈ callHistory id senv tenv turns container childPid h,
      AtTurn (WritesOwn id senv tenv) t) :
    ∀ t ∈ callHistory id senv tenv turns container childPid h, AtTurn (ReadsChild childPid) t := by
  have hinv := forall_turns (callStep id senv tenv) Exit.occur
    (SeesChild id container childPid) (WritesOwn id senv tenv) ?_ ?_ ?_ hown
  · intro t ht i hi
    obtain ⟨-, q, hq, -, htest⟩ := (hinv t ht).1
    cases i with
    | starter => simp [ReadsChild]
    | stopper =>
      cases q with
      | test r => simpa only [ReadsChild, hq] using fun _ => htest r rfl
      | _ => simp only [ReadsChild, hq]
  · rintro i s t shared ⟨hstarter, q, hq, hrecord, htest⟩ hown hstep
    cases i with
    | starter =>
      have hstopper : ∀ t shared, (s.move .starter t shared).thread .stopper = .stop q :=
        fun t shared => by rw [Threads.move_thread_ne s (by simp), hq]
      rcases hstarter with hp | ⟨status, hp⟩ | hp <;> simp only [callStep, hp] at hstep <;>
        obtain ⟨⟨p', h'⟩, hphase, hmove⟩ := Option.map_eq_some_iff.mp hstep <;>
        obtain ⟨rfl, rfl⟩ := Prod.mk.inj hmove
      · simp only [startStep] at hphase
        split at hphase
        · simp at hphase
        rename_i status h'' hwaited
        obtain ⟨rfl, rfl⟩ := Prod.mk.inj (Option.some.inj hphase)
        refine ⟨Or.inr (Or.inl ⟨_, Threads.move_thread_self ..⟩), q, hstopper _ _,
          fun hread => ?_, htest⟩
        unfold Records
        rw [Threads.move_shared, Host.waitpid_fs hwaited]
        exact hrecord hread
      · simp only [WritesOwn, hp] at hown
        rw [startStep_rewrite] at hphase
        obtain ⟨rfl, rfl⟩ := Prod.mk.inj (Option.some.inj hphase)
        have hzero : (writeContainerMetadata (exitedRecord container status senv.finishedAt)
            senv.rewriteDenied s.shared.world).1 = 0 := writeContainerMetadata_of_target hown
        obtain ⟨path, hpath, -, -, hnode⟩ := writeContainerMetadata_zero hzero
        obtain rfl := Option.some.inj (hpath.symm.trans hown)
        exact ⟨Or.inr (Or.inr (Threads.move_thread_self ..)), q, hstopper _ _,
          fun _ => ⟨_, (hnode _).trans (if_pos rfl), quoteFree_exitedRecord hquote _ _,
            hstart.pid⟩, htest⟩
      · simp [startStep] at hphase
    | stopper =>
      have hstarter' : ∀ t shared, (s.move .stopper t shared).thread .starter
          = s.thread .starter := fun t shared => Threads.move_thread_ne s (by simp) _ _
      simp only [callStep, hq] at hstep
      obtain ⟨⟨q', h'⟩, hphase, hmove⟩ := Option.map_eq_some_iff.mp hstep
      obtain ⟨rfl, rfl⟩ := Prod.mk.inj hmove
      refine ⟨by rw [hstarter']; exact hstarter, q', Threads.move_thread_self .., ?_⟩
      cases q with
      | check =>
        simp only [stopStep] at hphase
        split at hphase <;> obtain ⟨rfl, rfl⟩ := Prod.mk.inj (Option.some.inj hphase)
        · simp
        · exact ⟨fun _ => hrecord (Or.inl rfl), by simp⟩
      | read =>
        simp only [stopStep] at hphase
        split at hphase <;> obtain ⟨rfl, rfl⟩ := Prod.mk.inj (Option.some.inj hphase)
        · simp
        · rename_i container' hread
          obtain ⟨r, hfile, hquote', hpid⟩ := hrecord (Or.inr rfl)
          have hsame : container'.pid = r.pid := by
            rw [readContainerMetadata_file hid hfile] at hread
            split at hread
            · simp at hread
            · rw [← Option.some.inj hread]
              exact pid_readContainerText hquote' tenv.junk
          refine ⟨by simp, ?_⟩
          rintro _ ⟨⟩
          exact hsame.trans hpid
      | test r | kill r | wait r | write r status | done result =>
        obtain ⟨hcheck, hread, htest⟩ := stopStep_later id tenv hphase (by simp) (by simp)
        exact ⟨fun h => absurd h (not_or.mpr ⟨hcheck, hread⟩), fun r hr => absurd hr (htest r)⟩
  · rintro e s ⟨hstarter, q, hq, hrecord, htest⟩
    refine ⟨hstarter, q, hq, fun hread => ?_, htest⟩
    rw [e.occur_world]
    exact hrecord hread
  · exact ⟨Or.inl rfl, .check, rfl, fun _ => ⟨container, hstart.stored, hquote, hstart.pid⟩,
      fun r hr => by simp at hr⟩

end Runs

/-- What the start of `web` has stored. -/
def webRunning : ContainerInfo :=
  runningRecord (newContainer (request "web") oneSecond) 4243 1705230840

/-- The daemon while `web` runs in the foreground. -/
def foregroundHost : Host where
  world := (writeContainerMetadata webRunning false (webHost.world.fork 4243)).2
  ended := fun _ => none
  pathBuffer := []

theorem foregroundHost_running : ForegroundRunning webId webRunning 4243 foregroundHost := by
  have hmade : 4243 ∈ foregroundHost.world.children ∧ foregroundHost.world.children.Nodup ∧
      foregroundHost.world.fs.node (metadataFile webId)
        = some (.file (containerText webRunning)) := by decide +kernel
  exact {
    child := hmade.1
    nodup := hmade.2.1
    unsignalled := by simp [foregroundHost]
    stored := hmade.2.2
    running := rfl
    pid := rfl }

/-- The local `status` of the start has 256 in it before the wait. -/
def webStart : StartEnv := { startOver (newContainer (request "web") oneSecond) with
  statusJunk := 256 }

def webStop : StopEnv := stopOver (newContainer (request "web") oneSecond)

/-- SIGTERM ends the child. -/
def terminated : Exit := { pid := 4243, ending := { status := 15, signalled := true } }

/-- The stop gets the status; the start writes first. -/
def stopWritesLast : List (Turn Party Exit) :=
  List.replicate 4 (.of .stopper) ++
    [.outside terminated, .of .stopper, .of .starter, .of .starter, .of .stopper]

/-- The start gets the status. -/
def startWaitsFirst : List (Turn Party Exit) :=
  List.replicate 4 (.of .stopper) ++
    [.outside terminated, .of .starter, .of .starter, .of .stopper]

end DockerClone.Container
