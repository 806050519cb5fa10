/-
DockerClone.Os.Process — a process and the calls it has made.

A process is the file system it acts on, its working directory and the
record of its calls: the command lines it gave to `system`, the path
strings of the directories `mkdir` made for it and of the files `fopen`
opened for it to write. Calls that failed, and an `mkdir` that found
something in its place, change nothing and are not recorded.

Each operation is the operation of the file system with its record; the
lemmas of section 2 take them apart again.
-/
import DockerClone.Os.Shell

namespace DockerClone.Os

inductive Call where
  /-- A command line given to `system`. -/
  | system (line : List Char)
  /-- A directory made. -/
  | mkdir (raw : List Char)
  /-- A file opened for writing, and what was written. -/
  | write (raw text : List Char)
  deriving DecidableEq, Repr

/-- The path string of what `mkdir` made or `fopen` opened. -/
def Call.target : Call → Option (List Char)
  | .system _ => none
  | .mkdir raw => some raw
  | .write raw _ => some raw

structure Process where
  fs : FileSystem
  cwd : Path
  calls : List Call

namespace Process

/-! ## 1. Operations -/

/-- A call that left this file system. -/
def called (p : Process) (call : Call) (fs : FileSystem) : Process :=
  { p with fs := fs, calls := p.calls ++ [call] }

/-- `mkdir(raw, 0755)`; `none` when it fails for another reason than
`EEXIST`. -/
def mkdirExistOk (raw : List Char) (denied : Bool) (p : Process) : Option Process :=
  match p.fs.mkdir p.cwd raw denied with
  | .ok fs => some (p.called (.mkdir raw) fs)
  | .error .EEXIST => some p
  | .error _ => none

/-- `fopen(raw, "w")`, writing `text`, `fclose`; `none` when `fopen`
fails. -/
def openWrite (raw : List Char) (denied : Bool) (text : List Char) (p : Process) :
    Option Process :=
  match p.fs.openWrite p.cwd raw denied text with
  | .ok fs => some (p.called (.write raw text) fs)
  | .error _ => none

/-- `fopen(raw, "a")`, writing `text`, `fclose`. -/
def openAppend (raw : List Char) (denied : Bool) (text : List Char) (p : Process) :
    Option Process :=
  match p.fs.openAppend p.cwd raw denied text with
  | .ok fs => some (p.called (.write raw text) fs)
  | .error _ => none

/-- `system(line)`. -/
def system (sh : Shell) (line : List Char) (p : Process) : Int × Process :=
  let run := sh.system p.cwd p.fs line
  (run.1, p.called (.system line) run.2)

/-- The calls made between two points of a process. -/
def since (p p' : Process) : List Call := p'.calls.drop p.calls.length

/-! ## 2. What an operation does -/

section Calls

variable {p p' : Process} {raw text line : List Char} {denied : Bool}

@[simp] theorem called_fs (p : Process) (call : Call) (fs : FileSystem) :
    (p.called call fs).fs = fs := rfl

@[simp] theorem called_cwd (p : Process) (call : Call) (fs : FileSystem) :
    (p.called call fs).cwd = p.cwd := rfl

@[simp] theorem called_calls (p : Process) (call : Call) (fs : FileSystem) :
    (p.called call fs).calls = p.calls ++ [call] := rfl

theorem since_append {calls : List Call} (h : p'.calls = p.calls ++ calls) :
    p.since p' = calls := by
  rw [since, h, List.drop_left]

theorem mkdirExistOk_some (h : p.mkdirExistOk raw denied = some p') :
    p.fs.mkdirExistOk p.cwd raw denied = some p'.fs ∧ p'.cwd = p.cwd ∧
      ((∃ fs, p.fs.mkdir p.cwd raw denied = .ok fs) ∧ p'.calls = p.calls ++ [.mkdir raw] ∨
        (∀ fs, p.fs.mkdir p.cwd raw denied ≠ .ok fs) ∧ p'.calls = p.calls) := by
  rw [mkdirExistOk] at h
  rw [FileSystem.mkdirExistOk]
  cases hm : p.fs.mkdir p.cwd raw denied with
  | ok fs =>
    rw [hm] at h
    obtain rfl := Option.some.inj h
    exact ⟨rfl, rfl, Or.inl ⟨⟨fs, rfl⟩, rfl⟩⟩
  | error e =>
    rw [hm] at h
    cases e with
    | EEXIST =>
      obtain rfl := Option.some.inj h
      exact ⟨rfl, rfl, Or.inr ⟨by simp, rfl⟩⟩
    | _ => simp at h

theorem mkdirExistOk_isSome :
    (p.mkdirExistOk raw denied).isSome = (p.fs.mkdirExistOk p.cwd raw denied).isSome := by
  rw [mkdirExistOk, FileSystem.mkdirExistOk]
  cases p.fs.mkdir p.cwd raw denied with
  | ok fs => rfl
  | error e => cases e <;> rfl

theorem openWrite_some (h : p.openWrite raw denied text = some p') :
    p.fs.openWrite p.cwd raw denied text = .ok p'.fs ∧ p'.cwd = p.cwd ∧
      p'.calls = p.calls ++ [.write raw text] := by
  rw [openWrite] at h
  cases hw : p.fs.openWrite p.cwd raw denied text with
  | ok fs =>
    rw [hw] at h
    obtain rfl := Option.some.inj h
    exact ⟨rfl, rfl, rfl⟩
  | error e => rw [hw] at h; simp at h

theorem openAppend_some (h : p.openAppend raw denied text = some p') :
    p.fs.openAppend p.cwd raw denied text = .ok p'.fs ∧ p'.cwd = p.cwd ∧
      p'.calls = p.calls ++ [.write raw text] := by
  rw [openAppend] at h
  cases hw : p.fs.openAppend p.cwd raw denied text with
  | ok fs =>
    rw [hw] at h
    obtain rfl := Option.some.inj h
    exact ⟨rfl, rfl, rfl⟩
  | error e => rw [hw] at h; simp at h

theorem openWrite_isSome :
    (p.openWrite raw denied text).isSome
      ↔ ∃ fs, p.fs.openWrite p.cwd raw denied text = .ok fs := by
  rw [openWrite]
  cases p.fs.openWrite p.cwd raw denied text with
  | ok fs => simp
  | error e => simp

/-- A call that is known by its result. -/
theorem exists_of_result {call : Int × Process} {r : Int} (h : call.1 = r) :
    ∃ p', call = (r, p') :=
  ⟨call.2, Prod.ext h rfl⟩

end Calls

end Process
end DockerClone.Os
