/-
DockerClone.Os.Listing — reading a directory.

The order in which `readdir` returns the entries of a directory is not
specified, so a program that reads one is given a `Listing`: any list of
names that has every entry once, with `.` and `..` among them.
-/
import DockerClone.Os.FileSystem
import Mathlib.Data.List.Dedup

namespace DockerClone.Os

/-- What the successive calls of `readdir` on a directory return. -/
structure Listing (fs : FileSystem) (p : Path) where
  names : List Name
  nodup : names.Nodup
  mem_iff : ∀ n, n ∈ names ↔ n = ['.'] ∨ n = ['.', '.'] ∨ fs.node (p ++ [n]) ≠ none

namespace FileSystem

/-- `opendir(raw)`: the directory that was opened. -/
def openDir (fs : FileSystem) (cwd : Path) (raw : List Char) : Option Path :=
  match fs.resolve cwd raw with
  | .ok p => if fs.node p = some .dir then some p else none
  | .error _ => none

/-- The names below a path, in the order of the table. -/
def children (fs : FileSystem) (p : Path) : List Name :=
  fs.entries.filterMap fun e => if e.1.dropLast = p then e.1.getLast? else none

theorem mem_children (fs : FileSystem) (p : Path) (n : Name) :
    n ∈ fs.children p ↔ fs.node (p ++ [n]) ≠ none := by
  rw [children, List.mem_filterMap, node]
  constructor
  · rintro ⟨⟨q, x⟩, hmem, hq⟩ hnone
    have hpath : q = p ++ [n] := by
      split at hq
      · rename_i hdrop
        rw [← hdrop, dropLast_getLast? hq]
      · simp at hq
    have := List.lookup_eq_none_iff.mp hnone (q, x) hmem
    simp [hpath] at this
  · intro hne
    obtain ⟨x, hx⟩ := Option.ne_none_iff_exists'.mp hne
    obtain ⟨before, after, hsplit, -⟩ := List.lookup_eq_some_iff.mp hx
    exact ⟨(p ++ [n], x), by rw [hsplit]; simp, by simp⟩

/-- The listing in the order of the table. -/
def listing (fs : FileSystem) (p : Path) : Listing fs p where
  names := (['.'] :: ['.', '.'] :: fs.children p).dedup
  nodup := List.nodup_dedup _
  mem_iff := fun n => by
    rw [List.mem_dedup, List.mem_cons, List.mem_cons, mem_children]

/-- An absolute path of ordinary names opens the directory there. -/
theorem openDir_absPath {fs : FileSystem} (cwd : Path) {q : Path} {n : Name}
    (hq : ∀ m ∈ q, Ordinary m) (hn : Ordinary n) (hdir : fs.node (q ++ [n]) = some .dir) :
    fs.openDir cwd (absPath (q ++ [n])) = some (q ++ [n]) := by
  rw [openDir, resolve_absPath_of_node hq hn (by rw [hdir]; simp)]
  simp only [hdir, if_true]

end FileSystem
end DockerClone.Os
