/-
DockerClone.Os.Threads — threads that take turns over one shared state.

A thread is where it stands, its local variables included (`τ`). Its next
step takes that and the shared state (`σ`) to the next, or cannot be
taken: the thread has ended, or it has to wait. A turn is one thread's
step, or something that happens outside the threads (`ε`). No order of
turns is preferred, so a theorem about every list of turns is a theorem
about every interleaving.

A proof about a run needs one lemma about a step of one thread;
`forall_turns` carries it through the run. `alone` is the run of a thread
that nobody comes between.
-/
import DockerClone.Os.Run
import Mathlib.Logic.Function.Basic

namespace DockerClone.Os

structure Threads (ι τ σ : Type) where
  shared : σ
  thread : ι → τ

inductive Turn (ι ε : Type) where
  | of (i : ι)
  | outside (e : ε)
  deriving DecidableEq, Repr

section Turns

variable {ι τ σ ε : Type} [DecidableEq ι]

/-- One thread has moved on. -/
def Threads.move (s : Threads ι τ σ) (i : ι) (t : τ) (shared : σ) : Threads ι τ σ :=
  { shared := shared, thread := Function.update s.thread i t }

@[simp] theorem Threads.move_shared (s : Threads ι τ σ) (i : ι) (t : τ) (shared : σ) :
    (s.move i t shared).shared = shared := rfl

@[simp] theorem Threads.move_thread_self (s : Threads ι τ σ) (i : ι) (t : τ) (shared : σ) :
    (s.move i t shared).thread i = t := by
  simp [move]

theorem Threads.move_thread_ne (s : Threads ι τ σ) {i j : ι} (h : j ≠ i) (t : τ) (shared : σ) :
    (s.move i t shared).thread j = s.thread j := by
  simp [move, Function.update_of_ne h]

/-- What holds of the thread that moved and of every other, holds of all. -/
theorem Threads.forall_move {s : Threads ι τ σ} {i : ι} {t : τ} {shared : σ} {P : ι → τ → Prop}
    (hself : P i t) (hothers : ∀ j, j ≠ i → P j (s.thread j)) :
    ∀ j, P j ((s.move i t shared).thread j) := by
  intro j
  by_cases hj : j = i
  · subst hj
    rw [move_thread_self]
    exact hself
  · rw [move_thread_ne s hj]
    exact hothers j hj

variable (step : ι → τ → σ → Option (τ × σ)) (occur : ε → σ → σ)

/-- A turn; the flag is whether anything was done in it. -/
def takeTurn : Turn ι ε → Threads ι τ σ → Bool × Threads ι τ σ
  | .of i, s =>
      match step i (s.thread i) s.shared with
      | some (t, shared) => (true, s.move i t shared)
      | none => (false, s)
  | .outside e, s => (true, { s with shared := occur e s.shared })

/-- The threads while they take their turns. -/
abbrev History (turns : List (Turn ι ε)) (s : Threads ι τ σ) :
    List (Transition (Threads ι τ σ) (Turn ι ε) Bool) :=
  transitions (takeTurn step occur) turns s

/-- A condition on the turns of threads. -/
def AtTurn (P : ι → Threads ι τ σ → Prop) (t : Transition (Threads ι τ σ) (Turn ι ε) Bool) :
    Prop :=
  ∀ i, t.action = .of i → P i t.before

/-- A turn, taken apart. -/
theorem takeTurn_of_cases (i : ι) (s : Threads ι τ σ) :
    (∃ t shared, step i (s.thread i) s.shared = some (t, shared) ∧
      (takeTurn step occur (.of i) s).2 = s.move i t shared) ∨
    (step i (s.thread i) s.shared = none ∧ (takeTurn step occur (.of i) s).2 = s) := by
  cases h : step i (s.thread i) s.shared with
  | some r => exact Or.inl ⟨r.1, r.2, rfl, by simp [takeTurn, h]⟩
  | none => exact Or.inr ⟨rfl, by simp [takeTurn, h]⟩

/-- An invariant that each step of a thread keeps, and whatever happens
outside, holds after every turn. -/
theorem forall_turns (Inv : Threads ι τ σ → Prop) (Needs : ι → Threads ι τ σ → Prop)
    (hstep : ∀ i s t shared, Inv s → Needs i s →
      step i (s.thread i) s.shared = some (t, shared) → Inv (s.move i t shared))
    (houtside : ∀ e s, Inv s → Inv { s with shared := occur e s.shared })
    {turns : List (Turn ι ε)} {s : Threads ι τ σ} (hs : Inv s)
    (hneeds : ∀ t ∈ History step occur turns s, AtTurn Needs t) :
    ∀ t ∈ History step occur turns s, Inv t.before ∧ Inv t.after := by
  refine (forall_transitions (takeTurn step occur) Inv (AtTurn Needs)
    (fun t => Inv t.before ∧ Inv t.after) (fun turn s hs hneed => ?_) hs hneeds).1
  have hnext : Inv (takeTurn step occur turn s).2 := by
    cases turn with
    | of i =>
      rcases takeTurn_of_cases step occur i s with
        ⟨t, shared, hmove, heq⟩ | ⟨-, heq⟩
      · rw [heq]; exact hstep i s t shared hs (hneed i rfl) hmove
      · rw [heq]; exact hs
    | outside e => exact houtside e s hs
  exact ⟨⟨hs, hnext⟩, hnext⟩

end Turns

section Alone

variable {τ σ ε : Type} {step : τ → σ → Option (τ × σ)} {occur : ε → σ → σ}
  {turns : List (Turn Unit ε)} {t : τ} {shared : σ}

/-- Where a thread gets when no other is there. -/
def alone (step : τ → σ → Option (τ × σ)) (occur : ε → σ → σ) (turns : List (Turn Unit ε))
    (t : τ) (shared : σ) : τ × σ :=
  let s := finalState (takeTurn (fun _ => step) occur) turns
    { shared := shared, thread := fun _ => t }
  (s.thread (), s.shared)

theorem alone_nil : alone step occur [] t shared = (t, shared) := rfl

theorem alone_some {u : τ} {v : σ} (h : step t shared = some (u, v)) :
    alone step occur (.of () :: turns) t shared = alone step occur turns u v := by
  have hmove : ({ shared := shared, thread := fun _ => t } : Threads Unit τ σ).move () u v
      = { shared := v, thread := fun _ => u } := by
    simp only [Threads.move, Threads.mk.injEq, true_and]
    funext i
    simp
  simp [alone, finalState, takeTurn, h, hmove]

theorem alone_none (h : step t shared = none) :
    alone step occur (.of () :: turns) t shared = alone step occur turns t shared := by
  simp [alone, finalState, takeTurn, h]

theorem alone_outside (e : ε) :
    alone step occur (.outside e :: turns) t shared
      = alone step occur turns t (occur e shared) := by
  simp [alone, finalState, takeTurn]

end Alone

end DockerClone.Os
