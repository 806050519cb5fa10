/-
DockerClone.Os.Simulation — runs of a program and what an abstract model
allows.

An abstract model is a relation: from this state, this label with this
result may lead to that state. `Follows` is a run of it, read off as the
labels and results seen from outside. A program refines the model when
each of its steps is one the model allows, states compared by a function;
`follows_of_refines` carries that over to runs, and `Follows.invariant`
what holds of every run of the model.

A label says what was asked for, and may say what the surroundings
answered, which can depend on the state (`seenWith`). `relabel` forgets
the answers.
-/
import DockerClone.Os.Run

namespace DockerClone.Os

section Follows

variable {τ β ρ : Type} {Step : τ → β → ρ → τ → Prop}

/-- A run of the model with these labels and results. -/
inductive Follows (Step : τ → β → ρ → τ → Prop) : τ → List (β × ρ) → τ → Prop where
  | nil (t : τ) : Follows Step t [] t
  | cons {t t' t'' : τ} {b : β} {r : ρ} {seen : List (β × ρ)} (step : Step t b r t')
      (rest : Follows Step t' seen t'') : Follows Step t ((b, r) :: seen) t''

/-- What holds at first and is kept by every step with an allowed label
and result holds at the end. -/
theorem Follows.invariant (Inv : τ → Prop) (Allowed : β → ρ → Prop)
    (hstep : ∀ {t b r t'}, Step t b r t' → Allowed b r → Inv t → Inv t')
    {t t' : τ} {seen : List (β × ρ)} (h : Follows Step t seen t')
    (hseen : ∀ p ∈ seen, Allowed p.1 p.2) (ht : Inv t) : Inv t' := by
  induction h with
  | nil t => exact ht
  | cons step rest ih =>
    refine ih (fun p hp => hseen p (List.mem_cons_of_mem _ hp)) ?_
    exact hstep step (hseen _ List.mem_cons_self) ht

/-- The same with what each step gives on the way. -/
theorem Follows.forall_seen (Inv : τ → Prop) (Allowed Gives : β → ρ → Prop)
    (hstep : ∀ {t b r t'}, Step t b r t' → Allowed b r → Inv t → Gives b r ∧ Inv t')
    {t t' : τ} {seen : List (β × ρ)} (h : Follows Step t seen t')
    (hseen : ∀ p ∈ seen, Allowed p.1 p.2) (ht : Inv t) :
    (∀ p ∈ seen, Gives p.1 p.2) ∧ Inv t' := by
  induction h with
  | nil t => exact ⟨by simp, ht⟩
  | cons step rest ih =>
    obtain ⟨hnow, hnext⟩ := hstep step (hseen _ List.mem_cons_self) ht
    obtain ⟨hlater, hlast⟩ := ih (fun p hp => hseen p (List.mem_cons_of_mem _ hp)) hnext
    refine ⟨fun p hp => ?_, hlast⟩
    rcases List.mem_cons.mp hp with rfl | hp
    · exact hnow
    · exact hlater p hp

/-- Where label and state settle the step, the labels settle the run. -/
theorem Follows.unique (hstep : ∀ t b r₁ t₁ r₂ t₂, Step t b r₁ t₁ → Step t b r₂ t₂ →
      r₁ = r₂ ∧ t₁ = t₂) {t t₁ t₂ : τ} {seen₁ seen₂ : List (β × ρ)}
    (h₁ : Follows Step t seen₁ t₁) (h₂ : Follows Step t seen₂ t₂)
    (hlabels : seen₁.map Prod.fst = seen₂.map Prod.fst) : seen₁ = seen₂ ∧ t₁ = t₂ := by
  induction h₁ generalizing seen₂ with
  | nil t =>
    cases h₂ with
    | nil => exact ⟨rfl, rfl⟩
    | cons step rest => simp at hlabels
  | cons step rest ih =>
    cases h₂ with
    | nil => simp at hlabels
    | cons step' rest' =>
      obtain ⟨hlabel, hrest⟩ := List.cons.inj hlabels
      simp only at hlabel
      subst hlabel
      obtain ⟨rfl, rfl⟩ := hstep _ _ _ _ _ _ step step'
      obtain ⟨rfl, hlast⟩ := ih rest' hrest
      exact ⟨rfl, hlast⟩

end Follows

/-- What is seen, with less said in the labels. -/
def relabel {β γ ρ : Type} (ask : β → γ) (seen : List (β × ρ)) : List (γ × ρ) :=
  seen.map fun p => (ask p.1, p.2)

section Refinement

variable {σ α τ β ρ : Type} {step : α → σ → ρ × σ} {Step : τ → β → ρ → τ → Prop}

/-- What is seen of a run of the program. -/
def seenOf (label : α → β) (ts : List (Transition σ α ρ)) : List (β × ρ) :=
  ts.map fun t => (label t.action, t.result)

/-- The same with labels that depend on the state before the step. -/
def seenWith (label : σ → α → β) (ts : List (Transition σ α ρ)) : List (β × ρ) :=
  ts.map fun t => (label t.before t.action, t.result)

theorem relabel_seenWith {γ : Type} {label : σ → α → β} {ask : β → γ} {call : α → γ}
    (h : ∀ s a, ask (label s a) = call a) (ts : List (Transition σ α ρ)) :
    relabel ask (seenWith label ts) = seenOf call ts := by
  simp [relabel, seenWith, seenOf, h]

/-- When every step that meets what it needs is one the model allows, so
is every run. -/
theorem follows_of_refines (view : σ → τ) (label : σ → α → β) (Inv : σ → Prop)
    (Needs : Transition σ α ρ → Prop)
    (hstep : ∀ a s, Inv s → Needs (transition step a s) →
      Step (view s) (label s a) (step a s).1 (view (step a s).2) ∧ Inv (step a s).2) :
    ∀ {as : List α} {s : σ}, Inv s → (∀ t ∈ transitions step as s, Needs t) →
      Follows Step (view s) (seenWith label (transitions step as s)) (view (finalState step as s)) ∧
        Inv (finalState step as s)
  | [], s, hs, _ => ⟨.nil _, hs⟩
  | a :: as, s, hs, h => by
      obtain ⟨hnow, hnext⟩ := hstep a s hs (h _ List.mem_cons_self)
      obtain ⟨hrest, hlast⟩ := follows_of_refines view label Inv Needs hstep hnext
        (fun t (ht : t ∈ transitions step as _) => h t (List.mem_cons_of_mem _ ht))
      exact ⟨.cons hnow hrest, hlast⟩

end Refinement

end DockerClone.Os
