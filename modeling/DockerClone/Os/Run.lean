/-
DockerClone.Os.Run — runs of operations on a state.

An operation takes the state to a result and a next state. A run is a
list of operations; its transitions record, for each of them, the state
before, the result and the state after. `forall_transitions` is the one
induction over runs: what a step needs and gives, every step of the run
gives.
-/
import Mathlib.Data.List.Basic

namespace DockerClone.Os

/-- One operation of a run. -/
structure Transition (σ α ρ : Type) where
  before : σ
  action : α
  result : ρ
  after : σ

section Runs

variable {σ α ρ : Type} (step : α → σ → ρ × σ)

/-- The transition an operation makes. -/
def transition (a : α) (s : σ) : Transition σ α ρ :=
  { before := s, action := a, result := (step a s).1, after := (step a s).2 }

/-- The transitions of a run, in order. -/
def transitions : List α → σ → List (Transition σ α ρ)
  | [], _ => []
  | a :: as, s => transition step a s :: transitions as (step a s).2

/-- The state a run ends in. -/
def finalState (as : List α) (s : σ) : σ := as.foldl (fun s a => (step a s).2) s

/-- An invariant that every step keeps, and what each step gives under
it, over a whole run. -/
theorem forall_transitions (Inv : σ → Prop) (Needs Gives : Transition σ α ρ → Prop)
    (hstep : ∀ a s, Inv s → Needs (transition step a s) →
      Gives (transition step a s) ∧ Inv (step a s).2) :
    ∀ {as : List α} {s : σ}, Inv s → (∀ t ∈ transitions step as s, Needs t) →
      (∀ t ∈ transitions step as s, Gives t) ∧ Inv (finalState step as s)
  | [], _, hs, _ => ⟨by simp [transitions], hs⟩
  | a :: as, s, hs, h => by
      obtain ⟨hgive, hnext⟩ := hstep a s hs (h _ List.mem_cons_self)
      have ih := forall_transitions Inv Needs Gives hstep hnext
        (fun t (ht : t ∈ transitions step as _) => h t (List.mem_cons_of_mem _ ht))
      refine ⟨fun t ht => ?_, ih.2⟩
      rcases List.mem_cons.mp ht with rfl | ht
      · exact hgive
      · exact ih.1 t ht

variable {step}

/-- Each transition of a run is one operation's. -/
theorem exists_of_mem_transitions : ∀ {as : List α} {s : σ} {t : Transition σ α ρ},
    t ∈ transitions step as s → ∃ a ∈ as, ∃ s', t = transition step a s'
  | [], _, _, h => by simp [transitions] at h
  | a :: as, s, t, h => by
      rcases List.mem_cons.mp h with rfl | h
      · exact ⟨a, List.mem_cons_self, s, rfl⟩
      · obtain ⟨b, hb, s', ht⟩ := exists_of_mem_transitions h
        exact ⟨b, List.mem_cons_of_mem a hb, s', ht⟩

/-- What later operations keep of an earlier one: kept by each operation
that is allowed after it, it is kept by all. -/
theorem pairwise_transitions (Kept : Transition σ α ρ → σ → Prop) {Allowed : α → α → Prop}
    (hstart : ∀ a s, Kept (transition step a s) (step a s).2)
    (hkeep : ∀ a s b s', Kept (transition step a s) s' → Allowed a b →
      Kept (transition step a s) (step b s').2) :
    ∀ {as : List α} {s : σ}, as.Pairwise Allowed →
      (transitions step as s).Pairwise (fun t u => Kept t u.after)
  | [], _, _ => List.Pairwise.nil
  | a :: as, s, h => by
      obtain ⟨hlater, hrest⟩ := List.pairwise_cons.mp h
      have hactions : ∀ t ∈ transitions step as (step a s).2, t.action ∈ as := by
        intro t ht
        obtain ⟨b, hb, s', rfl⟩ := exists_of_mem_transitions ht
        exact hb
      refine List.pairwise_cons.mpr ⟨?_, pairwise_transitions Kept hstart hkeep hrest⟩
      exact (forall_transitions step (Kept (transition step a s)) (fun t => t.action ∈ as)
        (fun t => Kept (transition step a s) t.after)
        (fun b s' hs hb => have hnext := hkeep a s b s' hs (hlater b hb); ⟨hnext, hnext⟩)
        (hstart a s) hactions).1

end Runs

end DockerClone.Os
