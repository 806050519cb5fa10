/-
DockerClone.Os.DirStream — a directory that changes while it is read.

A file that was there when the directory was opened and is still there is
returned once. Whether one that was added or removed since is returned is
not specified, so a program that reads a shared directory is given any
`Readdir`: any choice of answers that a `DirStream` allows. The stream is
the kernel's and takes notice of every change (`DirStream.changed`).

`Shrinks` is a change that only takes away; it opens nothing that could
not be opened before.
-/
import DockerClone.Os.Listing
import DockerClone.Os.Shell
import Mathlib.Data.List.Perm.Subperm

namespace DockerClone.Os

namespace FileSystem

/-! ## 1. Tables that shrink -/

/-- The names of a directory. -/
def entryNames (fs : FileSystem) (p : Path) : List Name := (fs.listing p).names

theorem nodup_entryNames (fs : FileSystem) (p : Path) : (fs.entryNames p).Nodup :=
  (fs.listing p).nodup

theorem mem_entryNames {fs : FileSystem} {p : Path} {n : Name} : n ∈ fs.entryNames p ↔
    n = ['.'] ∨ n = ['.', '.'] ∨ fs.node (p ++ [n]) ≠ none :=
  (fs.listing p).mem_iff n

/-- Whatever is there was there before, as it is. -/
def Shrinks (fs fs' : FileSystem) : Prop := ∀ q, fs'.node q ≠ none → fs'.node q = fs.node q

theorem Shrinks.refl (fs : FileSystem) : Shrinks fs fs := fun _ _ => rfl

theorem Shrinks.trans {fs₁ fs₂ fs₃ : FileSystem} (h : Shrinks fs₁ fs₂) (h' : Shrinks fs₂ fs₃) :
    Shrinks fs₁ fs₃ := by
  intro q hq
  have hmiddle := h' q hq
  exact hmiddle.trans (h q (hmiddle ▸ hq))

section Shrinks

variable {fs fs' : FileSystem} (h : Shrinks fs fs')

include h

theorem Shrinks.dir {q : Path} (hq : fs'.node q = some .dir) : fs.node q = some .dir := by
  rw [← h q (by rw [hq]; simp), hq]

theorem Shrinks.entryNames (p : Path) : fs'.entryNames p ⊆ fs.entryNames p := by
  intro n hn
  rw [mem_entryNames] at hn ⊢
  refine hn.imp_right fun hn => hn.imp_right fun hnode => ?_
  rw [← h _ hnode]
  exact hnode

/-- What can be opened could be opened before. -/
theorem Shrinks.openRead {cwd : Path} {raw : List Char} {denied : Bool}
    (hread : fs'.openRead cwd raw denied ≠ none) : fs.openRead cwd raw denied ≠ none := by
  cases denied with
  | true => exact hread
  | false =>
    rw [FileSystem.openRead, if_neg Bool.false_ne_true] at hread ⊢
    cases hp : fs'.resolve cwd raw with
    | error e => simp [hp] at hread
    | ok p =>
      rw [resolve_mono (fun q hq => h.dir hq) hp]
      rw [hp] at hread
      have hnode : fs'.node p ≠ none := by
        intro hnone
        simp [hnone] at hread
      simp only at hread ⊢
      rw [← h p hnode]
      exact hread

theorem Shrinks.openDir {cwd : Path} {raw : List Char} {p : Path}
    (hopen : fs'.openDir cwd raw = some p) : fs.openDir cwd raw = some p := by
  rw [FileSystem.openDir] at hopen ⊢
  cases hp : fs'.resolve cwd raw with
  | error e => simp [hp] at hopen
  | ok p' =>
    rw [resolve_mono (fun q hq => h.dir hq) hp]
    rw [hp] at hopen
    simp only at hopen ⊢
    split at hopen
    · rename_i hdir
      rw [if_pos (h.dir hdir)]
      exact hopen
    · simp at hopen

end Shrinks

theorem unlink_shrinks {fs fs' : FileSystem} {cwd : Path} {raw : List Char} {denied : Bool}
    (h : fs.unlink cwd raw denied = .ok fs') : Shrinks fs fs' := by
  obtain ⟨p, c, -, -, hnode⟩ := unlink_ok h
  intro q hq
  rw [hnode] at hq ⊢
  split at hq
  · exact absurd rfl hq
  · rename_i hne
    rw [if_neg hne]

theorem rmOperand_shrinks (fs : FileSystem) (stuck : List Path) (cwd : Path)
    (raw : List Char) : Shrinks fs (fs.rmOperand stuck cwd raw).2 := by
  rw [rmOperand]
  split
  · exact .refl fs
  · split
    · exact .refl fs
    · split
      · rename_i p _ hp
        intro q hq
        rw [node_rmTree] at hq ⊢
        split at hq
        · rename_i hstays
          rw [if_pos hstays]
        · exact absurd rfl hq
      · exact .refl fs

theorem rmOperands_shrinks (stuck : List Path) (cwd : Path) :
    ∀ (raws : List (List Char)) (fs : FileSystem), Shrinks fs (fs.rmOperands stuck cwd raws).2
  | [], fs => .refl fs
  | raw :: rest, fs =>
      (rmOperand_shrinks fs stuck cwd raw).trans (rmOperands_shrinks stuck cwd rest _)

end FileSystem

/-- A command line that is `rm -rf` of some operands. -/
theorem Shell.system_shrinks (sh : Shell) (cwd : Path) (fs : FileSystem) {cmd : List Char}
    (hrm : parseRm cmd ≠ none) : FileSystem.Shrinks fs (sh.system cwd fs cmd).2 := by
  obtain ⟨operands, hoperands⟩ := Option.ne_none_iff_exists'.mp hrm
  rw [Shell.system, hoperands]
  split
  · exact FileSystem.rmOperands_shrinks sh.stuck cwd operands fs
  · exact .refl fs

/-! ## 2. Streams -/

/-- An open directory. -/
structure DirStream where
  dir : Path
  /-- The number of names it has returned. -/
  returned : Nat
  /-- There since the directory was opened, and not returned yet. -/
  required : List Name
  /-- There at some time since then, and not returned yet. -/
  possible : List Name
  nodup : required.Nodup
  subset : required ⊆ possible

namespace DirStream

/-- `opendir` of a directory that is there. -/
def opened (fs : FileSystem) (p : Path) : DirStream where
  dir := p
  returned := 0
  required := fs.entryNames p
  possible := fs.entryNames p
  nodup := fs.nodup_entryNames p
  subset := List.Subset.refl _

/-- A name was returned. -/
def take (s : DirStream) (name : Name) : DirStream where
  dir := s.dir
  returned := s.returned + 1
  required := s.required.erase name
  possible := s.possible.erase name
  nodup := s.nodup.erase name
  subset := by
    intro n hn
    obtain ⟨hne, hmem⟩ := s.nodup.mem_erase_iff.mp hn
    exact (List.mem_erase_of_ne hne).mpr (s.subset hmem)

/-- The table has changed. -/
def changed (s : DirStream) (fs fs' : FileSystem) : DirStream where
  dir := s.dir
  returned := s.returned
  required := s.required.filter (fs'.entryNames s.dir).contains
  possible := s.possible ++
    (fs'.entryNames s.dir).filter fun n => !(fs.entryNames s.dir).contains n
  nodup := s.nodup.filter _
  subset := fun _ hn => List.mem_append_left _ (s.subset (List.mem_of_mem_filter hn))

theorem mem_required_changed {s : DirStream} {fs fs' : FileSystem} {n : Name} :
    n ∈ (s.changed fs fs').required ↔ n ∈ s.required ∧ n ∈ fs'.entryNames s.dir := by
  simp [changed]

/-- Those of some names that need not be returned any more. -/
def settled (s : DirStream) (names : List Name) : List Name :=
  names.filter fun n => !s.required.contains n

@[simp] theorem mem_settled {s : DirStream} {names : List Name} {n : Name} :
    n ∈ s.settled names ↔ n ∈ names ∧ n ∉ s.required := by
  simp [settled]

theorem nodup_settled (s : DirStream) {names : List Name} (h : names.Nodup) :
    (s.settled names).Nodup :=
  h.filter _

/-- Nothing comes in when the table shrinks. -/
theorem possible_changed {fs fs' : FileSystem} (h : FileSystem.Shrinks fs fs') (s : DirStream) :
    (s.changed fs fs').possible = s.possible := by
  have hnone : ((fs'.entryNames s.dir).filter
      fun n => !(fs.entryNames s.dir).contains n) = [] := by
    rw [List.filter_eq_nil_iff]
    intro n hn
    simpa using h.entryNames s.dir hn
  show s.possible ++ _ = s.possible
  rw [hnone, List.append_nil]

end DirStream

/-- What the successive calls of `readdir` return; `none` is NULL. -/
structure Readdir where
  next : DirStream → Option Name
  returns : ∀ s m, next s = some m → m ∈ s.possible
  ends : ∀ s, next s = none → s.required = []

/-- The oldest name first. -/
def Readdir.inOrder : Readdir where
  next := fun s => s.possible.head?
  returns := fun _ _ h => List.mem_of_head? h
  ends := fun s h => by
    have hnil : s.possible = [] := List.head?_eq_none_iff.mp h
    exact List.subset_nil.mp (hnil ▸ s.subset)

/-! ## 3. A pass that nothing changes -/

/-- The names the rest of a pass returns. -/
def Readdir.rest (r : Readdir) (s : DirStream) : List Name :=
  match _h : r.next s with
  | none => []
  | some name => name :: r.rest (s.take name)
termination_by s.possible.length
decreasing_by
  have hmem : name ∈ s.possible := r.returns s name _h
  have hlen : (s.take name).possible.length = s.possible.length - 1 := List.length_erase_of_mem hmem
  have hpos := List.length_pos_of_mem hmem
  omega

/-- Every entry is returned once. -/
theorem Readdir.rest_perm (r : Readdir) (s : DirStream) (hall : s.required = s.possible) :
    (r.rest s).Perm s.required := by
  fun_induction Readdir.rest r s with
  | case1 s hend => rw [r.ends s hend]
  | case2 s name hnext ih =>
    have hmem : name ∈ s.required := hall ▸ r.returns s name hnext
    have htake : (s.take name).required = (s.take name).possible := congrArg (·.erase name) hall
    exact ((ih htake).cons name).trans (List.perm_cons_erase hmem).symm

/-- The pass over a directory from its opening to its end. -/
def Readdir.listing (r : Readdir) (fs : FileSystem) (p : Path) : Listing fs p where
  names := r.rest (.opened fs p)
  nodup := (r.rest_perm (.opened fs p) rfl).nodup_iff.mpr (fs.nodup_entryNames p)
  mem_iff := fun _ => (r.rest_perm (.opened fs p) rfl).mem_iff.trans FileSystem.mem_entryNames

end DockerClone.Os
