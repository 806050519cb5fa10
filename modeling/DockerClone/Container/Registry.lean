/-
DockerClone.Container.Registry — what the container operations are for.

The metadata directory is a table from ids to phases: a container is
created, runs as some process, or has exited with some code. A call does
one of a few things to that table, to the children of the daemon and to
the signals it has sent. Which of them is settled by the table and by
what the system answers (`Answered`): `Step` lists them with the result
each goes with, a refusal only where there is a cause for it, and there
is one at most (`Step.unique`).

Two properties of every run are proved here of the model alone. A
container that runs at the end was started by the last call on it that
returned 0 (`running_last_started`). And a container whose process is no
longer a child runs for ever: nothing but a new container of the same id,
or a new process of the same number, ends that (`orphan_stays`).
-/
import DockerClone.Container.Store
import DockerClone.Os.Simulation
import Mathlib.Logic.Function.Basic

namespace DockerClone.Container

open DockerClone.Os

/-! ## 1. The model -/

/-- Where a container is in its life. -/
inductive Phase where
  | created
  | running (pid : Int32)
  | exited (code : Int32)
  deriving DecidableEq, Repr

@[ext] structure Registry where
  phase : List Char → Option Phase
  /-- The children not yet waited for. -/
  children : List Int32
  signals : List (Int32 × Signal)

/-- A call, with the answer `clone` has for it. -/
inductive RegistryCall where
  | create (id : List Char)
  | start (id : List Char) (child : Option Int32)
  | stop (id : List Char)
  | restart (id : List Char) (child : Option Int32)
  | remove (id : List Char)
  | isRunning (id : List Char)
  deriving DecidableEq, Repr

/-! What the system answers to the calls an operation makes. -/

structure CreateAnswers where
  directory : Bool
  rootfs : Bool
  written : Bool
  deriving DecidableEq, Repr

structure StartAnswers where
  opened : Bool
  stack : Bool
  child : Option Int32
  written : Bool
  /-- The `detach` the operation goes by. -/
  detached : Bool
  /-- The status `waitpid` stores; `none` when it fails. -/
  waited : Option Int32
  /-- The status when it stores none. -/
  stale : Int32
  rewritten : Bool
  deriving DecidableEq, Repr

structure StopAnswers where
  opened : Bool
  killed : Bool
  waited : Option Int32
  written : Bool
  deriving DecidableEq, Repr

structure RemoveAnswers where
  opened : Bool
  /-- The status of `rm` is 0. -/
  swept : Bool
  unlinked : Bool
  /-- The log was unlinked, or there was none. -/
  logGone : Bool
  deriving DecidableEq, Repr

/-- A call and what it is answered. -/
inductive Answered where
  | create (id : List Char) (answers : CreateAnswers)
  | start (id : List Char) (answers : StartAnswers)
  | stop (id : List Char) (answers : StopAnswers)
  | restart (id : List Char) (stop : StopAnswers) (start : StartAnswers)
  | remove (id : List Char) (answers : RemoveAnswers)
  | isRunning (id : List Char) (opened : Bool)
  deriving DecidableEq, Repr

/-- What was asked for. -/
def Answered.call : Answered → RegistryCall
  | .create id _ => .create id
  | .start id answers => .start id answers.child
  | .stop id _ => .stop id
  | .restart id _ answers => .restart id answers.child
  | .remove id _ => .remove id
  | .isRunning id _ => .isRunning id

namespace Registry

/-- The container has this phase now. -/
def setPhase (r : Registry) (id : List Char) (phase : Option Phase) : Registry :=
  { r with phase := Function.update r.phase id phase }

def fork (r : Registry) (pid : Int32) : Registry := { r with children := pid :: r.children }

def kill (r : Registry) (pid : Int32) (signal : Signal) : Registry :=
  { r with signals := (pid, signal) :: r.signals }

def reap (r : Registry) (pid : Int32) : Registry := { r with children := r.children.erase pid }

/-- There is a container of this id, and it does not run. -/
def Idle (r : Registry) (id : List Char) : Prop :=
  ∃ phase, r.phase id = some phase ∧ ∀ pid, phase ≠ .running pid

/-- The container runs, as the record says. -/
def Runs (r : Registry) (id : List Char) : Prop := ∃ pid, r.phase id = some (.running pid)

/-- A start gets as far as its child. -/
structure Cloned (r : Registry) (id : List Char) (answers : StartAnswers) (pid : Int32) :
    Prop where
  idle : r.Idle id
  opened : answers.opened = true
  stack : answers.stack = true
  child : answers.child = some pid

/-- What a start does. -/
inductive Start (id : List Char) (answers : StartAnswers) : Registry → Int → Registry → Prop where
  | refused {r : Registry} (cause : ∀ pid, ¬ r.Cloned id answers pid) : Start id answers r (-1) r
  /-- The record could not be written. -/
  | killed {r : Registry} {pid : Int32} (cloned : r.Cloned id answers pid)
      (unwritten : answers.written = false) :
      Start id answers r (-1) ((r.fork pid).kill pid .SIGKILL)
  | detached {r : Registry} {pid : Int32} (cloned : r.Cloned id answers pid)
      (written : answers.written = true) (detached : answers.detached = true) :
      Start id answers r 0 ((r.fork pid).setPhase id (some (.running pid)))
  /-- It waited, and wrote down the code it was given. -/
  | waited {r : Registry} {pid : Int32} (cloned : r.Cloned id answers pid)
      (written : answers.written = true) (attached : answers.detached = false)
      (rewritten : answers.rewritten = true) :
      Start id answers r 0
        ((if answers.waited.isSome then (r.fork pid).reap pid else r.fork pid).setPhase id
          (some (.exited (wexitstatus (answers.waited.getD answers.stale)))))
  /-- It waited, and could not write. -/
  | forgotten {r : Registry} {pid : Int32} (cloned : r.Cloned id answers pid)
      (written : answers.written = true) (attached : answers.detached = false)
      (forgotten : answers.rewritten = false) :
      Start id answers r 0
        ((if answers.waited.isSome then (r.fork pid).reap pid else r.fork pid).setPhase id
          (some (.running pid)))

/-- A stop gets as far as its signal. -/
structure Signalled (r : Registry) (id : List Char) (answers : StopAnswers) (pid : Int32) :
    Prop where
  runs : r.phase id = some (.running pid)
  opened : answers.opened = true
  killed : answers.killed = true

/-- What a stop does. Only a child can be waited for. -/
inductive Stop (id : List Char) (answers : StopAnswers) : Registry → Int → Registry → Prop where
  | refused {r : Registry} (cause : ∀ pid, ¬ r.Signalled id answers pid) : Stop id answers r (-1) r
  | unanswered {r : Registry} {pid : Int32} (signalled : r.Signalled id answers pid)
      (unanswered : answers.waited = none) : Stop id answers r (-1) (r.kill pid .SIGTERM)
  /-- The record could not be written. -/
  | unrecorded {r : Registry} {pid status : Int32} (signalled : r.Signalled id answers pid)
      (waited : answers.waited = some status) (child : pid ∈ r.children)
      (unwritten : answers.written = false) :
      Stop id answers r (-1) ((r.kill pid .SIGTERM).reap pid)
  | stopped {r : Registry} {pid status : Int32} (signalled : r.Signalled id answers pid)
      (waited : answers.waited = some status) (child : pid ∈ r.children)
      (written : answers.written = true) :
      Stop id answers r 0
        (((r.kill pid .SIGTERM).reap pid).setPhase id (some (.exited (wexitstatus status))))

/-- A removal gets as far as deleting the record. -/
structure Unlinked (r : Registry) (id : List Char) (answers : RemoveAnswers) : Prop where
  idle : r.Idle id
  opened : answers.opened = true
  swept : answers.swept = true
  unlinked : answers.unlinked = true

/-- What a removal does; the record is gone although it fails where the
log could not be deleted. -/
inductive Remove (id : List Char) (answers : RemoveAnswers) :
    Registry → Int → Registry → Prop where
  | refused {r : Registry} (cause : ¬ r.Unlinked id answers) : Remove id answers r (-1) r
  | removed {r : Registry} (unlinked : r.Unlinked id answers) :
      Remove id answers r (if answers.logGone then 0 else -1) (r.setPhase id none)

/-- A creation is answered well throughout. -/
structure Made (answers : CreateAnswers) : Prop where
  directory : answers.directory = true
  rootfs : answers.rootfs = true
  written : answers.written = true

inductive Step : Registry → Answered → Int → Registry → Prop where
  | created {answers : CreateAnswers} (r : Registry) (id : List Char) (made : Made answers) :
      Step r (.create id answers) 0 (r.setPhase id (some .created))
  | notCreated {answers : CreateAnswers} (r : Registry) (id : List Char)
      (cause : ¬ Made answers) : Step r (.create id answers) (-1) r
  | start {r r' : Registry} {id : List Char} {answers : StartAnswers} {result : Int}
      (h : Start id answers r result r') : Step r (.start id answers) result r'
  | stop {r r' : Registry} {id : List Char} {answers : StopAnswers} {result : Int}
      (h : Stop id answers r result r') : Step r (.stop id answers) result r'
  | restart {r r' r'' : Registry} {id : List Char} {stop : StopAnswers} {start : StartAnswers}
      {result : Int} (h : Stop id stop r 0 r') (h' : Start id start r' result r'') :
      Step r (.restart id stop start) result r''
  | notRestarted {r r' : Registry} {id : List Char} {stop : StopAnswers} {start : StartAnswers}
      (h : Stop id stop r (-1) r') : Step r (.restart id stop start) (-1) r'
  | remove {r r' : Registry} {id : List Char} {answers : RemoveAnswers} {result : Int}
      (h : Remove id answers r result r') : Step r (.remove id answers) result r'
  | running {r : Registry} {id : List Char} (h : r.Runs id) : Step r (.isRunning id true) 1 r
  | notRunning {r : Registry} {id : List Char} {opened : Bool}
      (cause : ¬ r.Runs id ∨ opened = false) : Step r (.isRunning id opened) 0 r

/-! There is one step at most with these answers. -/

variable {r₁ r₂ r₀ : Registry} {result₁ result₂ : Int} {id₀ : List Char}

theorem Cloned.unique {answers : StartAnswers} {pid pid' : Int32}
    (h : r₀.Cloned id₀ answers pid) (h' : r₀.Cloned id₀ answers pid') : pid = pid' :=
  Option.some.inj (h.child.symm.trans h'.child)

theorem Signalled.unique {answers : StopAnswers} {pid pid' : Int32}
    (h : r₀.Signalled id₀ answers pid) (h' : r₀.Signalled id₀ answers pid') : pid = pid' :=
  Phase.running.inj (Option.some.inj (h.runs.symm.trans h'.runs))

theorem Start.unique {answers : StartAnswers} (h : Start id₀ answers r₀ result₁ r₁)
    (h' : Start id₀ answers r₀ result₂ r₂) : result₁ = result₂ ∧ r₁ = r₂ := by
  cases h <;> cases h' <;> grind [Cloned.unique]

theorem Stop.unique {answers : StopAnswers} (h : Stop id₀ answers r₀ result₁ r₁)
    (h' : Stop id₀ answers r₀ result₂ r₂) : result₁ = result₂ ∧ r₁ = r₂ := by
  cases h <;> cases h' <;> grind [Signalled.unique]

theorem Remove.unique {answers : RemoveAnswers} (h : Remove id₀ answers r₀ result₁ r₁)
    (h' : Remove id₀ answers r₀ result₂ r₂) : result₁ = result₂ ∧ r₁ = r₂ := by
  cases h <;> cases h' <;> grind

theorem Step.unique {call : Answered} (h : Step r₀ call result₁ r₁)
    (h' : Step r₀ call result₂ r₂) : result₁ = result₂ ∧ r₁ = r₂ := by
  cases h with
  | created _ _ made =>
    cases h' with
    | created => exact ⟨rfl, rfl⟩
    | notCreated _ _ cause => exact absurd made cause
  | notCreated _ _ cause =>
    cases h' with
    | created _ _ made => exact absurd made cause
    | notCreated => exact ⟨rfl, rfl⟩
  | start h =>
    cases h' with
    | start h' => exact h.unique h'
  | stop h =>
    cases h' with
    | stop h' => exact h.unique h'
  | restart h hs =>
    cases h' with
    | restart h' hs' =>
      obtain ⟨-, rfl⟩ := h.unique h'
      exact hs.unique hs'
    | notRestarted h' => exact absurd (h.unique h').1 (by decide)
  | notRestarted h =>
    cases h' with
    | restart h' _ => exact absurd (h.unique h').1 (by decide)
    | notRestarted h' => exact ⟨rfl, (h.unique h').2⟩
  | remove h =>
    cases h' with
    | remove h' => exact h.unique h'
  | running h =>
    cases h' with
    | running => exact ⟨rfl, rfl⟩
    | notRunning cause => exact absurd h (cause.resolve_right (by decide))
  | notRunning cause =>
    cases h' with
    | running h => exact absurd h (cause.resolve_right (by decide))
    | notRunning => exact ⟨rfl, rfl⟩

end Registry

/-! ## 2. Who runs was started -/

def RegistryCall.id : RegistryCall → List Char
  | .create id | .start id _ | .stop id | .restart id _ | .remove id | .isRunning id => id

/-- A call that can change what the record says. -/
def RegistryCall.Acts : RegistryCall → Prop
  | .isRunning _ => False
  | _ => True

/-- A call that starts a process. -/
def RegistryCall.Starts : RegistryCall → Prop
  | .start _ _ | .restart _ _ => True
  | _ => False

/-- The process `clone` gave this call. -/
def RegistryCall.clones : RegistryCall → Option Int32
  | .start _ child | .restart _ child => child
  | _ => none

namespace Registry

variable {r r' : Registry} {id id' : List Char} {result : Int} {call : Answered}
  {start : StartAnswers} {stop : StopAnswers} {remove : RemoveAnswers}

@[simp] theorem phase_setPhase_self (r : Registry) (id : List Char) (phase : Option Phase) :
    (r.setPhase id phase).phase id = phase := Function.update_self _ _ _

theorem phase_setPhase_of_ne (h : id' ≠ id) (r : Registry) (phase : Option Phase) :
    (r.setPhase id phase).phase id' = r.phase id' := Function.update_of_ne h _ _

@[simp] theorem setPhase_setPhase (r : Registry) (id : List Char) (phase phase' : Option Phase) :
    (r.setPhase id phase).setPhase id phase' = r.setPhase id phase' := by
  simp [setPhase]

@[simp] theorem phase_fork (r : Registry) (pid : Int32) : (r.fork pid).phase = r.phase := rfl

@[simp] theorem phase_kill (r : Registry) (pid : Int32) (signal : Signal) :
    (r.kill pid signal).phase = r.phase := rfl

@[simp] theorem phase_reap (r : Registry) (pid : Int32) : (r.reap pid).phase = r.phase := rfl

@[simp] theorem phase_reaped (r : Registry) (pid : Int32) (reaped : Bool) :
    (if reaped then (r.fork pid).reap pid else r.fork pid).phase = r.phase := by
  cases reaped <;> rfl

theorem Idle.not_runs (h : r.Idle id) : ¬ r.Runs id := by
  rintro ⟨pid, hpid⟩
  obtain ⟨phase, hphase, hno⟩ := h
  rw [hphase] at hpid
  exact hno pid (Option.some.inj hpid)

/-! What a call does to the phase of its own container: nothing, or what
its result says. -/

theorem Start.phase (h : Start id start r result r') :
    (r'.phase = r.phase ∧ result = -1) ∨
      (r.Idle id ∧ result = 0 ∧ ∃ phase, r'.phase = Function.update r.phase id (some phase)) := by
  cases h with
  | refused => exact Or.inl ⟨rfl, rfl⟩
  | killed => exact Or.inl ⟨rfl, rfl⟩
  | detached cloned => exact Or.inr ⟨cloned.idle, rfl, _, rfl⟩
  | waited cloned => exact Or.inr ⟨cloned.idle, rfl, _, by rw [setPhase, phase_reaped]⟩
  | forgotten cloned => exact Or.inr ⟨cloned.idle, rfl, _, by rw [setPhase, phase_reaped]⟩

theorem Stop.phase (h : Stop id stop r result r') :
    (r'.phase = r.phase ∧ result = -1) ∨
      (r.Runs id ∧ result = 0 ∧ ∃ code, r'.phase = Function.update r.phase id (some (.exited code)))
    := by
  cases h with
  | refused => exact Or.inl ⟨rfl, rfl⟩
  | unanswered => exact Or.inl ⟨rfl, rfl⟩
  | unrecorded => exact Or.inl ⟨rfl, rfl⟩
  | stopped signalled => exact Or.inr ⟨⟨_, signalled.runs⟩, rfl, _, rfl⟩

theorem Remove.phase (h : Remove id remove r result r') :
    (r'.phase = r.phase ∧ result = -1) ∨
      (r.Idle id ∧ r'.phase = Function.update r.phase id none) := by
  cases h with
  | refused => exact Or.inl ⟨rfl, rfl⟩
  | removed unlinked => exact Or.inr ⟨unlinked.idle, rfl⟩

/-- A call on one container is none on another. -/
theorem Step.frame (h : Step r call result r') (hne : id ≠ call.call.id) : r'.phase id = r.phase id := by
  have hother : ∀ {f : List Char → Option Phase} {phase : Option Phase},
      r'.phase = Function.update f call.call.id phase → f id = r.phase id → r'.phase id = r.phase id := by
    intro f phase hf hsame
    rw [hf, Function.update_of_ne hne, hsame]
  cases h with
  | created => exact hother rfl rfl
  | notCreated => rfl
  | start h =>
    rcases h.phase with ⟨hsame, -⟩ | ⟨-, -, phase, hphase⟩
    · rw [hsame]
    · exact hother hphase rfl
  | stop h =>
    rcases h.phase with ⟨hsame, -⟩ | ⟨-, -, code, hphase⟩
    · rw [hsame]
    · exact hother hphase rfl
  | restart h h' =>
    rcases h.phase with ⟨-, hresult⟩ | ⟨-, -, code, hstopped⟩
    · simp at hresult
    · rcases h'.phase with ⟨hsame, -⟩ | ⟨-, -, phase, hphase⟩
      · rw [hsame, hstopped]
        exact Function.update_of_ne hne _ _
      · refine hother hphase ?_
        rw [hstopped]
        exact Function.update_of_ne hne _ _
  | notRestarted h =>
    rcases h.phase with ⟨hsame, -⟩ | ⟨-, -, code, hphase⟩
    · rw [hsame]
    · exact hother hphase rfl
  | remove h =>
    rcases h.phase with ⟨hsame, -⟩ | ⟨-, hphase⟩
    · rw [hsame]
    · exact hother hphase rfl
  | running => rfl
  | notRunning => rfl

/-- Who runs after a step was started by it, or ran before and is left
alone. -/
theorem Step.runs (h : Step r call result r') (hruns : r'.Runs id) :
    (call.call.id = id ∧ call.call.Starts ∧ result = 0) ∨
      (r.Runs id ∧ (call.call.id = id → call.call.Acts → result ≠ 0)) := by
  by_cases hid : call.call.id = id
  · subst hid
    obtain ⟨pid, hpid⟩ := hruns
    cases h with
    | created => simp [Answered.call, RegistryCall.id] at hpid
    | notCreated => exact Or.inr ⟨⟨pid, hpid⟩, fun _ _ => by decide⟩
    | start h =>
      rcases h.phase with ⟨hsame, hresult⟩ | ⟨-, hresult, -⟩
      · refine Or.inr ⟨⟨pid, hsame ▸ hpid⟩, fun _ _ => ?_⟩
        rw [hresult]
        decide
      · exact Or.inl ⟨rfl, trivial, hresult⟩
    | stop h =>
      rcases h.phase with ⟨hsame, hresult⟩ | ⟨-, -, code, hphase⟩
      · refine Or.inr ⟨⟨pid, hsame ▸ hpid⟩, fun _ _ => ?_⟩
        rw [hresult]
        decide
      · simp [Answered.call, RegistryCall.id, hphase] at hpid
    | restart h h' =>
      rcases h.phase with ⟨-, hresult⟩ | ⟨-, -, code, hphase⟩
      · simp at hresult
      · rcases h'.phase with ⟨hsame, -⟩ | ⟨-, hresult, -⟩
        · simp [Answered.call, RegistryCall.id, hsame, hphase] at hpid
        · exact Or.inl ⟨rfl, trivial, hresult⟩
    | notRestarted h =>
      rcases h.phase with ⟨hsame, -⟩ | ⟨-, hresult, -⟩
      · exact Or.inr ⟨⟨pid, hsame ▸ hpid⟩, fun _ _ => by decide⟩
      · simp at hresult
    | remove h =>
      rcases h.phase with ⟨hsame, hresult⟩ | ⟨-, hphase⟩
      · refine Or.inr ⟨⟨pid, hsame ▸ hpid⟩, fun _ _ => ?_⟩
        rw [hresult]
        decide
      · simp [Answered.call, RegistryCall.id, hphase] at hpid
    | running => exact Or.inr ⟨⟨pid, hpid⟩, fun _ hacts => hacts.elim⟩
    | notRunning => exact Or.inr ⟨⟨pid, hpid⟩, fun _ hacts => hacts.elim⟩
  · rw [Runs, h.frame (Ne.symm hid)] at hruns
    exact Or.inr ⟨hruns, fun he => absurd he hid⟩

/-- No call on this container in the list returned 0. -/
def Untouched (id : List Char) (seen : List (RegistryCall × Int)) : Prop :=
  ∀ p ∈ seen, p.1.id = id → p.1.Acts → p.2 ≠ 0

/-- In every run: a container that runs at the end was started by the
last call on it that returned 0; or there was no such call and it ran
at the beginning. -/
theorem started_of_runs {seen : List (Answered × Int)} (h : Follows Step r seen r')
    (hruns : r'.Runs id) :
    (∃ before call after, relabel Answered.call seen = before ++ (call, 0) :: after ∧
      call.id = id ∧ call.Starts ∧ Untouched id after) ∨
      (r.Runs id ∧ Untouched id (relabel Answered.call seen)) := by
  induction h with
  | nil r => exact Or.inr ⟨hruns, by simp [Untouched, relabel]⟩
  | @cons r r₁ r₂ call result seen step rest ih =>
    have hcons : relabel Answered.call ((call, result) :: seen)
        = (call.call, result) :: relabel Answered.call seen := rfl
    rw [hcons]
    rcases ih hruns with ⟨before, call', after, hseen, hcall⟩ | ⟨hmid, hafter⟩
    · rw [hseen]
      exact Or.inl ⟨(call.call, result) :: before, call', after, rfl, hcall⟩
    · rcases step.runs hmid with ⟨hid, hstarts, rfl⟩ | ⟨hbefore, hleft⟩
      · exact Or.inl ⟨[], call.call, _, rfl, hid, hstarts, hafter⟩
      · refine Or.inr ⟨hbefore, fun p hp => ?_⟩
        rcases List.mem_cons.mp hp with rfl | hp
        · exact hleft
        · exact hafter p hp

/-! ## 3. Orphans -/

/-- The record says that this process runs, and it is no child. -/
structure Orphan (r : Registry) (id : List Char) (pid : Int32) : Prop where
  runs : r.phase id = some (.running pid)
  stranger : pid ∉ r.children

/-! Nothing makes it a child again but a process of its number. -/

theorem mem_children_reaped {pid pid' : Int32} {reaped : Bool} (hne : pid' ≠ pid)
    (h : pid ∉ r.children) :
    pid ∉ (if reaped then (r.fork pid').reap pid' else r.fork pid').children := by
  cases reaped with
  | false => simpa [fork, Ne.symm hne] using h
  | true => simpa [fork, reap] using h

theorem Start.stranger {pid : Int32} (h : Start id start r result r')
    (hchild : start.child ≠ some pid) (hr : pid ∉ r.children) : pid ∉ r'.children := by
  have hne : ∀ {pid' : Int32}, r.Cloned id start pid' → pid' ≠ pid := by
    rintro pid' cloned rfl
    exact hchild cloned.child
  cases h with
  | refused => exact hr
  | killed cloned => simpa [kill, fork, Ne.symm (hne cloned)] using hr
  | detached cloned => simpa [setPhase, fork, Ne.symm (hne cloned)] using hr
  | waited cloned => exact mem_children_reaped (hne cloned) hr
  | forgotten cloned => exact mem_children_reaped (hne cloned) hr

theorem Stop.stranger {pid : Int32} (h : Stop id stop r result r') (hr : pid ∉ r.children) :
    pid ∉ r'.children := by
  cases h with
  | refused => exact hr
  | unanswered => exact hr
  | unrecorded => exact fun hmem => hr (List.erase_subset hmem)
  | stopped => exact fun hmem => hr (List.erase_subset hmem)

theorem Step.stranger {pid : Int32} (h : Step r call result r')
    (hclones : call.call.clones ≠ some pid) (hr : pid ∉ r.children) : pid ∉ r'.children := by
  cases h with
  | start h => exact h.stranger hclones hr
  | stop h => exact h.stranger hr
  | restart h h' => exact h'.stranger hclones (h.stranger hr)
  | notRestarted h => exact h.stranger hr
  | remove h => cases h <;> exact hr
  | _ => exact hr

/-- An orphan cannot be stopped: it is no child. -/
theorem Stop.orphan {pid : Int32} (h : Stop id stop r result r') (ho : r.Orphan id pid) :
    result = -1 ∧ r'.phase = r.phase := by
  cases h with
  | refused => exact ⟨rfl, rfl⟩
  | unanswered => exact ⟨rfl, rfl⟩
  | unrecorded => exact ⟨rfl, rfl⟩
  | stopped signalled _ child =>
    obtain rfl : pid = _ :=
      Phase.running.inj (Option.some.inj (ho.runs.symm.trans signalled.runs))
    exact absurd child ho.stranger

/-- No call changes that, except one that creates a container of its id. -/
theorem Step.orphan {pid : Int32} (h : Step r call result r') (ho : r.Orphan id pid)
    (hcreate : call.call = .create id → result ≠ 0) (hclones : call.call.clones ≠ some pid) :
    (call.call.id = id → call.call.Acts → result = -1) ∧ r'.Orphan id pid := by
  have hstranger := h.stranger hclones ho.stranger
  have hruns : r.Runs id := ⟨pid, ho.runs⟩
  by_cases hid : call.call.id = id
  · suffices hkept : (call.call.Acts → result = -1) ∧ r'.phase = r.phase from
      ⟨fun _ => hkept.1, by rw [hkept.2]; exact ho.runs, hstranger⟩
    subst hid
    cases h with
    | created => exact absurd rfl (hcreate rfl)
    | notCreated => exact ⟨fun _ => rfl, rfl⟩
    | start h =>
      rcases h.phase with ⟨hsame, hresult⟩ | ⟨idle, -⟩
      · exact ⟨fun _ => hresult, hsame⟩
      · exact absurd hruns idle.not_runs
    | stop h =>
      obtain ⟨hresult, hsame⟩ := h.orphan ho
      exact ⟨fun _ => hresult, hsame⟩
    | restart h => exact absurd (h.orphan ho).1 (by decide)
    | notRestarted h => exact ⟨fun _ => rfl, (h.orphan ho).2⟩
    | remove h =>
      rcases h.phase with ⟨hsame, hresult⟩ | ⟨idle, -⟩
      · exact ⟨fun _ => hresult, hsame⟩
      · exact absurd hruns idle.not_runs
    | running => exact ⟨fun hacts => hacts.elim, rfl⟩
    | notRunning => exact ⟨fun hacts => hacts.elim, rfl⟩
  · refine ⟨fun he => absurd he hid, ?_, hstranger⟩
    rw [h.frame (Ne.symm hid)]
    exact ho.runs

/-- In every run without such a creation and without a new process of its
number an orphan stays what it is, and every call on it fails. -/
theorem orphan_of_orphan {pid : Int32} {seen : List (Answered × Int)} (h : Follows Step r seen r')
    (hseen : ∀ p ∈ seen, (p.1.call = .create id → p.2 ≠ 0) ∧ p.1.call.clones ≠ some pid)
    (ho : r.Orphan id pid) :
    (∀ p ∈ seen, p.1.call.id = id → p.1.call.Acts → p.2 = -1) ∧ r'.Orphan id pid := by
  refine Follows.forall_seen (fun r => r.Orphan id pid)
    (fun call result => (call.call = .create id → result ≠ 0) ∧ call.call.clones ≠ some pid)
    (fun call result => call.call.id = id → call.call.Acts → result = -1) ?_ h hseen ho
  intro r call result r' step hallowed ho
  exact step.orphan ho hallowed.1 hallowed.2

/-! ## 4. Signals -/

/-- Every process recorded, waited for or signalled is of this kind. -/
structure Within (known : Int32 → Prop) (r : Registry) : Prop where
  recorded : ∀ id pid, r.phase id = some (.running pid) → known pid
  children : ∀ pid ∈ r.children, known pid
  signals : ∀ p ∈ r.signals, known p.1

namespace Within

variable {known : Int32 → Prop} {pid : Int32}

theorem fork (h : r.Within known) (hpid : known pid) : (r.fork pid).Within known where
  recorded := h.recorded
  children := by
    intro p hp
    rcases List.mem_cons.mp hp with rfl | hp
    · exact hpid
    · exact h.children p hp
  signals := h.signals

theorem reap (h : r.Within known) (pid : Int32) : (r.reap pid).Within known where
  recorded := h.recorded
  children := fun p hp => h.children p (List.erase_subset hp)
  signals := h.signals

theorem kill (h : r.Within known) (hpid : known pid) (signal : Signal) :
    (r.kill pid signal).Within known where
  recorded := h.recorded
  children := h.children
  signals := by
    intro p hp
    rcases List.mem_cons.mp hp with rfl | hp
    · exact hpid
    · exact h.signals p hp

theorem setPhase (h : r.Within known) {phase : Option Phase}
    (hphase : ∀ pid, phase = some (.running pid) → known pid) :
    (r.setPhase id phase).Within known where
  recorded := by
    intro id' pid hpid
    by_cases hid : id' = id
    · rw [hid, phase_setPhase_self] at hpid
      exact hphase pid hpid
    · rw [phase_setPhase_of_ne hid] at hpid
      exact h.recorded id' pid hpid
  children := h.children
  signals := h.signals

theorem waited (h : r.Within known) (hpid : known pid) (reaped : Bool) :
    (if reaped then (r.fork pid).reap pid else r.fork pid).Within known := by
  cases reaped with
  | false => exact h.fork hpid
  | true => exact (h.fork hpid).reap pid

end Within

theorem Start.within {known : Int32 → Prop} (h : Start id start r result r')
    (hchild : ∀ pid, start.child = some pid → known pid) (hr : r.Within known) :
    r'.Within known := by
  have hknown : ∀ {pid : Int32}, r.Cloned id start pid → known pid :=
    fun cloned => hchild _ cloned.child
  have hrunning : ∀ {pid : Int32}, r.Cloned id start pid →
      ∀ p, some (Phase.running pid) = some (.running p) → known p := by
    intro pid cloned p hp
    rw [← Phase.running.inj (Option.some.inj hp)]
    exact hknown cloned
  cases h with
  | refused => exact hr
  | killed cloned => exact (hr.fork (hknown cloned)).kill (hknown cloned) _
  | detached cloned => exact (hr.fork (hknown cloned)).setPhase (hrunning cloned)
  | waited cloned => exact (hr.waited (hknown cloned) _).setPhase (by simp)
  | forgotten cloned => exact (hr.waited (hknown cloned) _).setPhase (hrunning cloned)

theorem Stop.within {known : Int32 → Prop} (h : Stop id stop r result r') (hr : r.Within known) :
    r'.Within known := by
  cases h with
  | refused => exact hr
  | unanswered signalled => exact hr.kill (hr.recorded _ _ signalled.runs) _
  | unrecorded signalled => exact (hr.kill (hr.recorded _ _ signalled.runs) _).reap _
  | stopped signalled =>
    exact ((hr.kill (hr.recorded _ _ signalled.runs) _).reap _).setPhase (by simp)

theorem Step.within {known : Int32 → Prop} (h : Step r call result r')
    (hclones : ∀ pid, call.call.clones = some pid → known pid) (hr : r.Within known) :
    r'.Within known := by
  cases h with
  | created => exact hr.setPhase (by simp)
  | notCreated => exact hr
  | start h => exact h.within hclones hr
  | stop h => exact h.within hr
  | restart h h' => exact h'.within hclones (h.within hr)
  | notRestarted h => exact h.within hr
  | remove h =>
    cases h with
    | refused => exact hr
    | removed => exact hr.setPhase (by simp)
  | running => exact hr
  | notRunning => exact hr

/-- In every run: whoever is recorded, waited for or signalled was one of
the known processes at first, or `clone` returned it since. -/
theorem within_of_within {known : Int32 → Prop} {seen : List (Answered × Int)}
    (h : Follows Step r seen r')
    (hseen : ∀ p ∈ seen, ∀ pid, p.1.call.clones = some pid → known pid) (hr : r.Within known) :
    r'.Within known := by
  refine Follows.invariant (fun r => r.Within known)
    (fun call _ => ∀ pid, call.call.clones = some pid → known pid) ?_ h hseen hr
  intro r call result r' step hclones hr
  exact step.within hclones hr

end Registry

end DockerClone.Container
