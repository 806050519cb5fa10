/-
DockerClone.Os.Ledger — what is held, and who has to give it back.

A ledger is about resources of one kind: open descriptors, allocated
blocks. It knows what is held, and it remembers every release of
something that was not: a second `close` or `free`, or one of a stranger's.

`Sound` ties a ledger to its owners. Everything held has exactly one
owner, every owner holds what it owns, and nothing was released twice.
An owner acquires, hands over or releases what it owns; each of these
keeps the ledger sound, so a program is shown to be free of leaks and of
double releases by naming its owners.
-/
import Mathlib.Data.List.Basic
import Mathlib.Logic.Function.Basic

namespace DockerClone.Os

structure Ledger (α : Type) where
  held : List α
  /-- The releases of something not held. -/
  faults : List α

namespace Ledger

variable {α ο : Type} {l : Ledger α} {x : α}

/-! ## 1. Operations -/

def empty : Ledger α := { held := [], faults := [] }

def acquire (x : α) (l : Ledger α) : Ledger α := { l with held := x :: l.held }

section Release

variable [DecidableEq α]

def release (x : α) (l : Ledger α) : Ledger α :=
  if x ∈ l.held then { l with held := l.held.filter (· ≠ x) }
  else { l with faults := x :: l.faults }

/-- One release after another. -/
def releaseAll (xs : List α) (l : Ledger α) : Ledger α := xs.foldl (fun l x => l.release x) l

theorem release_of_mem (h : x ∈ l.held) :
    l.release x = { l with held := l.held.filter (· ≠ x) } := if_pos h

@[simp] theorem releaseAll_nil (l : Ledger α) : l.releaseAll [] = l := rfl

@[simp] theorem releaseAll_cons (x : α) (xs : List α) (l : Ledger α) :
    l.releaseAll (x :: xs) = (l.release x).releaseAll xs := rfl

/-- Different things that are all held are released without a fault, and
they are what is no longer held. -/
theorem releaseAll_of_held : ∀ {xs : List α} {l : Ledger α}, xs.Nodup → (∀ x ∈ xs, x ∈ l.held) →
    l.releaseAll xs = { l with held := l.held.filter (· ∉ xs) }
  | [], l, _, _ => by simp
  | x :: xs, l, hdistinct, hheld => by
      obtain ⟨hx, hxs⟩ := List.nodup_cons.mp hdistinct
      rw [releaseAll_cons, release_of_mem (hheld x (by simp)), releaseAll_of_held hxs]
      · rw [List.filter_filter]
        congr 2
        funext y
        simp [Bool.and_comm]
      · intro y hy
        rw [List.mem_filter]
        refine ⟨hheld y (List.mem_cons_of_mem x hy), ?_⟩
        simp only [ne_eq, decide_not, Bool.not_eq_eq_eq_not, Bool.not_true, decide_eq_false_iff_not]
        rintro rfl
        exact hx hy

end Release

/-! ## 2. Owners -/

/-- The ledger is that of these owners. -/
structure Sound (l : Ledger α) (owner : ο → Option α) : Prop where
  held_iff : ∀ x, x ∈ l.held ↔ ∃ o, owner o = some x
  unique : ∀ {o o' : ο} {x : α}, owner o = some x → owner o' = some x → o = o'
  noFault : l.faults = []

variable {owner : ο → Option α} {o o' : ο}

theorem sound_empty : Sound (empty : Ledger α) (fun _ : ο => none) where
  held_iff := by simp [empty]
  unique := by simp
  noFault := rfl

/-- What an owner has in hand is held. -/
theorem Sound.mem (h : Sound l owner) (ho : owner o = some x) : x ∈ l.held :=
  (h.held_iff x).mpr ⟨o, ho⟩

/-- When nobody has anything in hand, nothing is held. -/
theorem Sound.held_eq_nil (h : Sound l owner) (hnone : ∀ o, owner o = none) : l.held = [] := by
  rw [List.eq_nil_iff_forall_not_mem]
  intro x hx
  obtain ⟨o, ho⟩ := (h.held_iff x).mp hx
  rw [hnone o] at ho
  simp at ho

section Moves

variable [DecidableEq ο]

/-- An owner with empty hands takes something new. -/
theorem Sound.acquire (h : Sound l owner) (ho : owner o = none) (hx : x ∉ l.held) :
    Sound (l.acquire x) (Function.update owner o (some x)) where
  held_iff := by
    intro y
    rw [Ledger.acquire, List.mem_cons, h.held_iff y]
    constructor
    · rintro (rfl | ⟨q, hq⟩)
      · exact ⟨o, Function.update_self _ _ _⟩
      · refine ⟨q, ?_⟩
        rw [Function.update_of_ne _ _ _]
        · exact hq
        · rintro rfl
          rw [ho] at hq
          simp at hq
    · rintro ⟨q, hq⟩
      by_cases hqo : q = o
      · subst hqo
        rw [Function.update_self] at hq
        exact Or.inl (Option.some.inj hq).symm
      · rw [Function.update_of_ne hqo] at hq
        exact Or.inr ⟨q, hq⟩
  unique := by
    have hnew : ∀ q, q ≠ o → owner q ≠ some x := fun q _ hq => hx (h.mem hq)
    intro q q' y hq hq'
    by_cases hqo : q = o <;> by_cases hqo' : q' = o
    · exact hqo.trans hqo'.symm
    · rw [hqo, Function.update_self] at hq
      rw [Function.update_of_ne hqo', ← hq] at hq'
      exact absurd hq' (hnew q' hqo')
    · rw [hqo', Function.update_self] at hq'
      rw [Function.update_of_ne hqo, ← hq'] at hq
      exact absurd hq (hnew q hqo)
    · rw [Function.update_of_ne hqo] at hq
      rw [Function.update_of_ne hqo'] at hq'
      exact h.unique hq hq'
  noFault := h.noFault

/-- An owner gives back what it has. -/
theorem Sound.release [DecidableEq α] (h : Sound l owner) (ho : owner o = some x) :
    Sound (l.release x) (Function.update owner o none) := by
  rw [release_of_mem (h.mem ho)]
  have hother : ∀ q y, Function.update owner o none q = some y ↔ owner q = some y ∧ y ≠ x := by
    intro q y
    by_cases hq : q = o
    · subst hq
      rw [Function.update_self, ho]
      refine iff_of_false (by simp) ?_
      rintro ⟨hy, hne⟩
      exact hne (Option.some.inj hy).symm
    · rw [Function.update_of_ne hq]
      refine ⟨fun hy => ⟨hy, ?_⟩, fun hy => hy.1⟩
      rintro rfl
      exact hq (h.unique hy ho)
  refine ⟨fun y => ?_, fun {q q' y} hq hq' => ?_, h.noFault⟩
  · rw [List.mem_filter, h.held_iff y]
    simp only [hother, exists_and_right, decide_eq_true_eq]
  · exact h.unique ((hother q y).mp hq).1 ((hother q' y).mp hq').1

/-- An owner hands what it has to another with empty hands. -/
theorem Sound.handOver (h : Sound l owner) (ho : owner o = some x) (ho' : owner o' = none) :
    Sound l (Function.update (Function.update owner o none) o' (some x)) := by
  have hne : o' ≠ o := by
    rintro rfl
    rw [ho] at ho'
    simp at ho'
  have hnow : ∀ q y, Function.update (Function.update owner o none) o' (some x) q = some y ↔
      (q = o' ∧ y = x) ∨ (owner q = some y ∧ y ≠ x) := by
    intro q y
    by_cases hq' : q = o'
    · subst hq'
      rw [Function.update_self, ho']
      simp [eq_comm]
    · rw [Function.update_of_ne hq']
      by_cases hq : q = o
      · subst hq
        rw [Function.update_self, ho]
        simp only [reduceCtorEq, hq', false_and, Option.some.injEq, false_or, false_iff, not_and,
          not_not]
        exact fun hy => hy.symm
      · rw [Function.update_of_ne hq]
        simp only [hq', false_and, false_or]
        refine ⟨fun hy => ⟨hy, ?_⟩, fun hy => hy.1⟩
        rintro rfl
        exact hq (h.unique hy ho)
  refine ⟨fun y => ?_, fun {q q' y} hq hq' => ?_, h.noFault⟩
  · rw [h.held_iff y]
    by_cases hy : y = x
    · subst hy
      exact iff_of_true ⟨o, ho⟩ ⟨o', (hnow o' y).mpr (Or.inl ⟨rfl, rfl⟩)⟩
    · simp [hnow, hy]
  · rcases (hnow q y).mp hq with ⟨rfl, rfl⟩ | ⟨hq, hy⟩
    · rcases (hnow q' y).mp hq' with ⟨rfl, -⟩ | ⟨-, hy⟩
      · rfl
      · exact absurd rfl hy
    · rcases (hnow q' y).mp hq' with ⟨-, rfl⟩ | ⟨hq', -⟩
      · exact absurd rfl hy
      · exact h.unique hq hq'

end Moves

end Ledger
end DockerClone.Os
