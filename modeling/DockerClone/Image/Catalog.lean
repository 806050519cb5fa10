/-
DockerClone.Image.Catalog — what the image operations are for.

The metadata directory is a table from full names to images, an image
being what `create_image` gave it for good: its id, the time and the
size. Creating enters a new image, tagging enters one a second time,
removing strikes one out. What a call does is settled by the table and by
what the system answers (`Answered`): `Step` lists it with the result the
call returns, and there is one step at most (`Step.unique`).

Of every run: an image in the table was created in the run or was there
at first (`entry_created`), and the last call that wrote under its name
is the one that entered it (`entry_written`).
-/
import DockerClone.Os.Simulation
import Mathlib.Logic.Function.Basic

namespace DockerClone.Image

open DockerClone.Os

/-! ## 1. The model -/

/-- An image, under whatever name. -/
@[ext] structure ImageEntry where
  id : List Char
  created : List Char
  size : List Char
  deriving DecidableEq, Repr

/-- Full names to images. -/
abbrev Catalog : Type := List Char → Option ImageEntry

inductive CatalogCall where
  | create (key : List Char) (entry : ImageEntry)
  | tag (source key : List Char)
  | remove (key : List Char)
  | probe (key : List Char)
  | info (key : List Char)
  deriving DecidableEq, Repr

inductive CatalogResult where
  | status (r : Int)
  | info (entry : Option ImageEntry)
  deriving DecidableEq, Repr

/-! What the system answers to the calls an operation makes. -/

structure CreateAnswers where
  /-- The directory of the layer. -/
  directory : Bool
  /-- The status of `cp` is 0. -/
  copied : Bool
  layerWritten : Bool
  allocated : Bool
  written : Bool
  deriving DecidableEq, Repr

structure ReadAnswers where
  allocated : Bool
  opened : Bool
  deriving DecidableEq, Repr

structure RemoveAnswers where
  /-- The file may be unlinked. -/
  granted : Bool
  /-- The status of `rm` is 0. -/
  swept : Bool
  deriving DecidableEq, Repr

/-- A call and what it is answered. -/
inductive Answered where
  | create (key : List Char) (entry : ImageEntry) (answers : CreateAnswers)
  | tag (source key : List Char) (answers : ReadAnswers) (written : Bool)
  | remove (key : List Char) (answers : RemoveAnswers)
  | probe (key : List Char)
  | info (key : List Char) (answers : ReadAnswers)
  deriving DecidableEq, Repr

/-- What was asked for. -/
def Answered.call : Answered → CatalogCall
  | .create key entry _ => .create key entry
  | .tag source key _ _ => .tag source key
  | .remove key _ => .remove key
  | .probe key => .probe key
  | .info key _ => .info key

namespace Catalog

open Function

/-- A creation is answered well throughout. -/
structure Made (answers : CreateAnswers) : Prop where
  directory : answers.directory = true
  copied : answers.copied = true
  layerWritten : answers.layerWritten = true
  allocated : answers.allocated = true
  written : answers.written = true

/-- There is memory for a record, and the file can be opened. -/
structure Opened (answers : ReadAnswers) : Prop where
  allocated : answers.allocated = true
  opened : answers.opened = true

inductive Step : Catalog → Answered → CatalogResult → Catalog → Prop where
  | created {answers : CreateAnswers} (c : Catalog) (key : List Char) (entry : ImageEntry)
      (made : Made answers) :
      Step c (.create key entry answers) (.status 0) (update c key (some entry))
  | notCreated {answers : CreateAnswers} (c : Catalog) (key : List Char) (entry : ImageEntry)
      (cause : ¬ Made answers) : Step c (.create key entry answers) (.status (-1)) c
  | tagged {c : Catalog} {source : List Char} {entry : ImageEntry} {answers : ReadAnswers}
      (key : List Char) (stored : c source = some entry) (opened : Opened answers) :
      Step c (.tag source key answers true) (.status 0) (update c key (some entry))
  | notTagged {c : Catalog} {source : List Char} {answers : ReadAnswers} {written : Bool}
      (key : List Char) (cause : c source = none ∨ ¬ Opened answers ∨ written = false) :
      Step c (.tag source key answers written) (.status (-1)) c
  /-- It is gone although the call fails where the layer could not be
  removed. -/
  | removed {c : Catalog} {key : List Char} {answers : RemoveAnswers} (stored : c key ≠ none)
      (granted : answers.granted = true) :
      Step c (.remove key answers) (.status (if answers.swept then 0 else -1)) (update c key none)
  | notRemoved {c : Catalog} {key : List Char} {answers : RemoveAnswers}
      (cause : c key = none ∨ answers.granted = false) :
      Step c (.remove key answers) (.status (-1)) c
  | probed (c : Catalog) (key : List Char) :
      Step c (.probe key) (.status (if (c key).isSome then 1 else 0)) c
  | found {c : Catalog} {key : List Char} {entry : ImageEntry} {answers : ReadAnswers}
      (stored : c key = some entry) (opened : Opened answers) :
      Step c (.info key answers) (.info (some entry)) c
  | notFound {c : Catalog} {key : List Char} {answers : ReadAnswers}
      (cause : c key = none ∨ ¬ Opened answers) : Step c (.info key answers) (.info none) c

/-- There is one step at most with these answers. -/
theorem Step.unique {c c₁ c₂ : Catalog} {call : Answered} {result₁ result₂ : CatalogResult}
    (h : Step c call result₁ c₁) (h' : Step c call result₂ c₂) : result₁ = result₂ ∧ c₁ = c₂ := by
  cases h <;> cases h' <;> grind

/-! ## 2. Where an entry comes from -/

variable {c c' : Catalog} {call : Answered} {result : CatalogResult} {key : List Char}
  {entry : ImageEntry}

/-- The call entered this image under this name, in a table. -/
def Enters (c : Catalog) (call : CatalogCall) (key : List Char) (entry : ImageEntry) : Prop :=
  call = .create key entry ∨ ∃ source, call = .tag source key ∧ c source = some entry

/-- A call that can change what is stored under this name. -/
def Writes (key : List Char) : CatalogCall → Prop
  | .create key' _ => key' = key
  | .tag _ key' => key' = key
  | .remove key' => key' = key
  | _ => False

/-- No call of the list wrote under this name and returned 0. -/
def Unwritten (key : List Char) (seen : List (CatalogCall × CatalogResult)) : Prop :=
  ∀ p ∈ seen, Writes key p.1 → p.2 ≠ .status 0

/-- An entry after a step was entered by it, or was there before and the
step did not write under its name. -/
theorem Step.written (h : Step c call result c') (hentry : c' key = some entry) :
    (result = .status 0 ∧ Enters c call.call key entry) ∨
      (c key = some entry ∧ (Writes key call.call → result ≠ .status 0)) := by
  cases h with
  | created _ key' new =>
    by_cases hkey : key' = key
    · subst hkey
      rw [update_self] at hentry
      obtain rfl := Option.some.inj hentry
      exact Or.inl ⟨rfl, Or.inl rfl⟩
    · rw [update_of_ne (Ne.symm hkey)] at hentry
      exact Or.inr ⟨hentry, fun hwrites => absurd hwrites hkey⟩
  | tagged key' stored =>
    by_cases hkey : key' = key
    · subst hkey
      rw [update_self] at hentry
      obtain rfl := Option.some.inj hentry
      exact Or.inl ⟨rfl, Or.inr ⟨_, rfl, stored⟩⟩
    · rw [update_of_ne (Ne.symm hkey)] at hentry
      exact Or.inr ⟨hentry, fun hwrites => absurd hwrites hkey⟩
  | @removed _ key' stored =>
    by_cases hkey : key' = key
    · subst hkey
      simp at hentry
    · rw [update_of_ne (Ne.symm hkey)] at hentry
      exact Or.inr ⟨hentry, fun hwrites => absurd hwrites hkey⟩
  | notCreated => exact Or.inr ⟨hentry, fun _ => by simp⟩
  | notTagged => exact Or.inr ⟨hentry, fun _ => by simp⟩
  | notRemoved => exact Or.inr ⟨hentry, fun _ => by simp⟩
  | probed => exact Or.inr ⟨hentry, fun hwrites => hwrites.elim⟩
  | found => exact Or.inr ⟨hentry, fun hwrites => hwrites.elim⟩
  | notFound => exact Or.inr ⟨hentry, fun hwrites => hwrites.elim⟩

/-- In every run: an image in the table was created by a call that
returned 0, or was in the table at the beginning. -/
theorem entry_created {seen : List (Answered × CatalogResult)} (h : Follows Step c seen c')
    (hentry : c' key = some entry) :
    (∃ key', (CatalogCall.create key' entry, CatalogResult.status 0) ∈ relabel Answered.call seen) ∨
      ∃ key', c key' = some entry := by
  induction h generalizing key with
  | nil c => exact Or.inr ⟨key, hentry⟩
  | @cons c c₁ c₂ call result seen step rest ih =>
    obtain ⟨key', hmem⟩ | ⟨key', hmid⟩ := ih hentry
    · exact Or.inl ⟨key', List.mem_cons_of_mem _ hmem⟩
    · obtain ⟨rfl, hcall | ⟨source, -, hsource⟩⟩ | ⟨hold, -⟩ := step.written hmid
      · exact Or.inl ⟨key', by rw [← hcall]; exact List.mem_cons_self⟩
      · exact Or.inr ⟨source, hsource⟩
      · exact Or.inr ⟨key', hold⟩

/-- In every run: an image stored under a name was entered by the last
call that wrote under the name and returned 0, a creation or a tagging of
what was stored under its source then; or there was no such call and it
was stored there at the beginning. -/
theorem entry_written {seen : List (Answered × CatalogResult)} (h : Follows Step c seen c')
    (hentry : c' key = some entry) :
    (∃ before call after c₁, seen = before ++ (call, .status 0) :: after ∧
      Follows Step c before c₁ ∧ Enters c₁ call.call key entry ∧
      Unwritten key (relabel Answered.call after)) ∨
    (c key = some entry ∧ Unwritten key (relabel Answered.call seen)) := by
  induction h with
  | nil c => exact Or.inr ⟨hentry, by simp [Unwritten, relabel]⟩
  | @cons c c₁ c₂ call result seen step rest ih =>
    obtain ⟨before, call', after, c', rfl, hbefore, henters, hafter⟩ | ⟨hmid, hafter⟩ := ih hentry
    · exact Or.inl ⟨(call, result) :: before, call', after, c', rfl, .cons step hbefore, henters,
        hafter⟩
    · obtain ⟨rfl, henters⟩ | ⟨hold, hleft⟩ := step.written hmid
      · exact Or.inl ⟨[], call, seen, c, rfl, .nil c, henters, hafter⟩
      · refine Or.inr ⟨hold, fun p hp => ?_⟩
        obtain rfl | hp := List.mem_cons.mp hp
        · exact hleft
        · exact hafter p hp

end Catalog

end DockerClone.Image
