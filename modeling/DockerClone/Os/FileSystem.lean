/-
DockerClone.Os.FileSystem — a POSIX file system, as far as programs that
create, read and delete plain files and directories can see it.

A `Path` is the list of the names from the root. A `FileSystem` is a
finite table from paths to nodes that carries its own well-formedness:
the root is a directory, every entry's parent is a directory, no path is
listed twice. An invalid table cannot be built, so every operation below
is total on every file system.

Programs name files by STRINGS. `resolve` walks such a string component
by component, as the kernel does: each component but the last must be a
directory, `.` and empty components stay, `..` goes up. There are no
links, no permissions and no limits on names; a call that fails for such
a reason is a call whose `denied` argument is true.

Section 4 has one inversion lemma for each call that changes the table.
They say everything the call can do; no later proof unfolds a call.
-/
import Mathlib.Data.List.DropRight
import Mathlib.Data.List.Infix
import Mathlib.Data.List.TakeWhile

namespace DockerClone.Os

/-- A directory entry's name. -/
abbrev Name := List Char

/-- The names from the root down. -/
abbrev Path := List Name

inductive Node where
  | file (content : List Char)
  | dir
  deriving DecidableEq, Repr

/-- A table of paths, well formed. -/
structure FileSystem where
  entries : List (Path × Node)
  nodup : (entries.map Prod.fst).Nodup
  root : entries.lookup [] = some .dir
  parent : ∀ (p : Path) (n : Name), entries.lookup (p ++ [n]) ≠ none →
    entries.lookup p = some .dir

namespace FileSystem

/-- What is at a path. -/
def node (fs : FileSystem) (p : Path) : Option Node := fs.entries.lookup p

theorem node_root (fs : FileSystem) : fs.node [] = some .dir := fs.root

theorem node_parent (fs : FileSystem) {p : Path} {n : Name} (h : fs.node (p ++ [n]) ≠ none) :
    fs.node p = some .dir :=
  fs.parent p n h

/-- Everything above an entry is a directory. -/
theorem dir_of_prefix (fs : FileSystem) {p s : Path} (hs : s ≠ [])
    (h : fs.node (p ++ s) ≠ none) : fs.node p = some .dir := by
  induction s using List.reverseRecOn with
  | nil => exact absurd rfl hs
  | append_singleton s n ih =>
    rw [← List.append_assoc] at h
    have hparent := fs.node_parent h
    by_cases hnil : s = []
    · rw [hnil, List.append_nil] at hparent; exact hparent
    · exact ih hnil (by rw [hparent]; simp)

/-- On the way to an entry there are entries. -/
theorem node_on_way (fs : FileSystem) {p : Path} {n : Name} {r : Path}
    (h : fs.node (p ++ n :: r) ≠ none) : fs.node (p ++ [n]) ≠ none := by
  cases r with
  | nil => exact h
  | cons m r =>
    rw [← List.singleton_append, ← List.append_assoc] at h
    rw [fs.dir_of_prefix (List.cons_ne_nil m r) h]
    simp

/-- Nothing lies below what is missing. -/
theorem node_below_missing (fs : FileSystem) {p : Path} (h : fs.node p = none) (r : Path) :
    fs.node (p ++ r) = none := by
  by_contra hne
  cases r with
  | nil => rw [List.append_nil] at hne; exact hne h
  | cons n r =>
    rw [fs.dir_of_prefix (List.cons_ne_nil n r) hne] at h
    simp at h

/-- The well-formedness of a given table, as a check on its entries. -/
def wellFormed (entries : List (Path × Node)) : Bool :=
  decide (entries.map Prod.fst).Nodup && decide (entries.lookup [] = some .dir) &&
    entries.all (fun e => e.1 = [] ∨ entries.lookup e.1.dropLast = some .dir)

/-- A given table that passes the check. -/
def ofEntries (entries : List (Path × Node)) (h : wellFormed entries = true) : FileSystem where
  entries := entries
  nodup := by
    simp only [wellFormed, Bool.and_eq_true, decide_eq_true_eq] at h
    exact h.1.1
  root := by
    simp only [wellFormed, Bool.and_eq_true, decide_eq_true_eq] at h
    exact h.1.2
  parent := by
    intro p n hne
    simp only [wellFormed, Bool.and_eq_true, List.all_eq_true] at h
    obtain ⟨x, hx⟩ := Option.ne_none_iff_exists'.mp hne
    obtain ⟨before, after, hsplit, -⟩ := List.lookup_eq_some_iff.mp hx
    have hmem := h.2 (p ++ [n], x) (by rw [hsplit]; simp)
    simpa using hmem

/-! ## 1. The two ways to change a table -/

theorem lookup_filter (keep : Path → Bool) (p : Path) : ∀ entries : List (Path × Node),
    (entries.filter (fun e => keep e.1)).lookup p
      = if keep p then entries.lookup p else none
  | [] => by simp
  | (q, x) :: rest => by
      have ih := lookup_filter keep p rest
      by_cases hpq : p = q
      · subst hpq
        by_cases hk : keep p = true
        · simp [hk]
        · simp only [List.filter_cons, if_neg hk] at ih ⊢
          exact ih
      · have hne : (p == q) = false := by simpa using hpq
        by_cases hk : keep q = true
        · simp only [List.filter_cons, hk, if_true, List.lookup_cons, hne]
          exact ih
        · simp only [List.filter_cons, hk, List.lookup_cons, hne]
          exact ih

theorem lookup_insert (p : Path) (x : Node) (entries : List (Path × Node)) (r : Path) :
    ((p, x) :: entries.filter (fun e => e.1 != p)).lookup r
      = if r = p then some x else entries.lookup r := by
  rw [List.lookup_cons, lookup_filter (fun q => q != p)]
  by_cases hr : r = p
  · subst hr; simp
  · have hne : (r == p) = false := beq_eq_false_iff_ne.mpr hr
    simp [hne, hr, bne]

/-- Put a node where there is no directory, below a directory. -/
def put (fs : FileSystem) (q : Path) (n : Name) (x : Node) (hq : fs.node q = some .dir)
    (hn : fs.node (q ++ [n]) ≠ some .dir) : FileSystem where
  entries := (q ++ [n], x) :: fs.entries.filter (fun e => e.1 != q ++ [n])
  nodup := by
    rw [List.map_cons, List.nodup_cons]
    refine ⟨?_, fs.nodup.sublist (List.filter_sublist.map _)⟩
    intro hm
    obtain ⟨e, he, heq⟩ := List.mem_map.mp hm
    simp [heq] at he
  root := by rw [lookup_insert, if_neg (by simp)]; exact fs.root
  parent := by
    intro p m h
    rw [lookup_insert] at h ⊢
    by_cases hpm : p ++ [m] = q ++ [n]
    · obtain ⟨rfl, -⟩ := List.append_inj' hpm rfl
      rw [if_neg (by simp)]
      exact hq
    · rw [if_neg hpm] at h
      have hdir : fs.node p = some .dir := fs.node_parent h
      have hp : p ≠ q ++ [n] := by
        rintro rfl
        exact hn hdir
      rw [if_neg hp]
      exact hdir

theorem node_put (fs : FileSystem) (q : Path) (n : Name) (x : Node) (hq hn) (r : Path) :
    (fs.put q n x hq hn).node r = if r = q ++ [n] then some x else fs.node r :=
  lookup_insert (q ++ [n]) x fs.entries r

/-- Keep part of a table: the root, and with every entry its parent. -/
def keepOnly (fs : FileSystem) (keep : Path → Bool) (hroot : keep [] = true)
    (hkeep : ∀ p n, keep (p ++ [n]) = true → fs.node (p ++ [n]) ≠ none → keep p = true) :
    FileSystem where
  entries := fs.entries.filter (fun e => keep e.1)
  nodup := fs.nodup.sublist (List.filter_sublist.map _)
  root := by rw [lookup_filter, if_pos hroot]; exact fs.root
  parent := by
    intro p n h
    rw [lookup_filter] at h ⊢
    by_cases hk : keep (p ++ [n]) = true
    · rw [if_pos hk] at h
      rw [if_pos (hkeep p n hk h)]
      exact fs.node_parent h
    · rw [if_neg hk] at h; exact absurd rfl h

theorem node_keepOnly (fs : FileSystem) (keep : Path → Bool) (hroot hkeep) (p : Path) :
    (fs.keepOnly keep hroot hkeep).node p = if keep p then fs.node p else none :=
  lookup_filter keep p fs.entries

/-! ## 2. Path strings -/

inductive Errno where
  | ENOENT
  | EEXIST
  | ENOTDIR
  | EISDIR
  | ENOTEMPTY
  /-- Any reason outside the table: permissions, space, limits, I/O. -/
  | EACCES
  deriving DecidableEq, Repr

/-- Follow components from a directory. -/
def walk (fs : FileSystem) : Path → List Name → Except Errno Path
  | cur, [] => .ok cur
  | cur, c :: cs =>
      match fs.node cur with
      | some .dir =>
          if c = [] ∨ c = ['.'] then fs.walk cur cs
          else if c = ['.', '.'] then fs.walk cur.dropLast cs
          else fs.walk (cur ++ [c]) cs
      | some (.file _) => .error .ENOTDIR
      | none => .error .ENOENT

/-- The path a string names for a process whose working directory is
`cwd`. The last component need not exist. -/
def resolve (fs : FileSystem) (cwd : Path) (raw : List Char) : Except Errno Path :=
  if raw = [] then .error .ENOENT
  else fs.walk (if raw.head? = some '/' then [] else cwd) (raw.splitOn '/')

/-- The path a string names for a call that makes a directory there:
slashes at its end do not ask for anything to exist yet. -/
def resolveNew (fs : FileSystem) (cwd : Path) (raw : List Char) : Except Errno Path :=
  if raw = [] then .error .ENOENT
  else fs.walk (if raw.head? = some '/' then [] else cwd)
    ((raw.splitOn '/').rdropWhile (fun c => c = []))

/-! ## 3. System calls -/

/-- `access(raw, F_OK) == 0`. -/
def access (fs : FileSystem) (cwd : Path) (raw : List Char) : Bool :=
  match fs.resolve cwd raw with
  | .ok p => (fs.node p).isSome
  | .error _ => false

/-- `fopen(raw, "r")` and what can be read from the stream; a directory
opens and reads as empty. -/
def openRead (fs : FileSystem) (cwd : Path) (raw : List Char) (denied : Bool) :
    Option (List Char) :=
  if denied then none
  else match fs.resolve cwd raw with
    | .ok p =>
        match fs.node p with
        | some (.file content) => some content
        | some .dir => some []
        | none => none
    | .error _ => none

/-- `fopen(raw, "w")`, writing `content`, `fclose`. -/
def openWrite (fs : FileSystem) (cwd : Path) (raw : List Char) (denied : Bool)
    (content : List Char) : Except Errno FileSystem :=
  if denied then .error .EACCES
  else match fs.resolve cwd raw with
    | .error e => .error e
    | .ok p =>
        match p.getLast? with
        | none => .error .EISDIR
        | some n =>
            if hq : fs.node p.dropLast = some .dir then
              if hn : fs.node (p.dropLast ++ [n]) ≠ some .dir then
                .ok (fs.put p.dropLast n (.file content) hq hn)
              else .error .EISDIR
            else .error .ENOENT

/-- `fopen(raw, "a")`, writing `content`, `fclose`. -/
def openAppend (fs : FileSystem) (cwd : Path) (raw : List Char) (denied : Bool)
    (content : List Char) : Except Errno FileSystem :=
  fs.openWrite cwd raw denied ((fs.openRead cwd raw false).getD [] ++ content)

/-- `mkdir(raw, 0755)`. -/
def mkdir (fs : FileSystem) (cwd : Path) (raw : List Char) (denied : Bool) :
    Except Errno FileSystem :=
  if denied then .error .EACCES
  else match fs.resolveNew cwd raw with
    | .error e => .error e
    | .ok p =>
        match p.getLast? with
        | none => .error .EEXIST
        | some n =>
            if hq : fs.node p.dropLast = some .dir then
              if hn : fs.node (p.dropLast ++ [n]) = none then
                .ok (fs.put p.dropLast n .dir hq (by rw [hn]; simp))
              else .error .EEXIST
            else .error .ENOENT

/-- `mkdir(raw, 0755) != 0 && errno != EEXIST` is how callers test for
failure: `none` then, and otherwise the table afterwards. -/
def mkdirExistOk (fs : FileSystem) (cwd : Path) (raw : List Char) (denied : Bool) :
    Option FileSystem :=
  match fs.mkdir cwd raw denied with
  | .ok fs' => some fs'
  | .error .EEXIST => some fs
  | .error _ => none

/-- No entry lies directly below `p`. -/
def isEmptyDir (fs : FileSystem) (p : Path) : Bool :=
  fs.entries.all (fun e => e.1 = [] ∨ e.1.dropLast ≠ p)

theorem isEmptyDir_iff (fs : FileSystem) (p : Path) :
    fs.isEmptyDir p = true ↔ ∀ n, fs.node (p ++ [n]) = none := by
  unfold isEmptyDir node
  rw [List.all_eq_true]
  constructor
  · intro h n
    cases hl : fs.entries.lookup (p ++ [n]) with
    | none => rfl
    | some x =>
      obtain ⟨before, after, hmem, -⟩ := List.lookup_eq_some_iff.mp hl
      have := h (p ++ [n], x) (by rw [hmem]; simp)
      simp at this
  · intro h e he
    rw [decide_eq_true_eq]
    by_cases hnil : e.1 = []
    · exact Or.inl hnil
    · refine Or.inr fun hp => ?_
      have hlast : p ++ [e.1.getLast hnil] = e.1 := by
        rw [← hp]; exact List.dropLast_append_getLast hnil
      have hnone := List.lookup_eq_none_iff.mp (h (e.1.getLast hnil)) e he
      rw [hlast] at hnone
      simp at hnone

/-- `rmdir(raw)`. -/
def rmdir (fs : FileSystem) (cwd : Path) (raw : List Char) (denied : Bool) :
    Except Errno FileSystem :=
  if denied then .error .EACCES
  else match fs.resolve cwd raw with
    | .error e => .error e
    | .ok p =>
        if fs.node p = none then .error .ENOENT
        else if fs.node p ≠ some .dir then .error .ENOTDIR
        else if hp : p = [] then .error .EACCES
        else if he : fs.isEmptyDir p = true then
          .ok (fs.keepOnly (fun q => q != p) (by simpa using Ne.symm hp) (by
            intro q n _ hq
            have : q ≠ p := by
              rintro rfl
              exact hq ((isEmptyDir_iff fs q).mp he n)
            simpa using this))
        else .error .ENOTEMPTY

/-- `unlink(raw)`. -/
def unlink (fs : FileSystem) (cwd : Path) (raw : List Char) (denied : Bool) :
    Except Errno FileSystem :=
  if denied then .error .EACCES
  else match fs.resolve cwd raw with
    | .error e => .error e
    | .ok p =>
        match hp : fs.node p with
        | none => .error .ENOENT
        | some .dir => .error .EISDIR
        | some (.file _) =>
            .ok (fs.keepOnly (fun q => q != p)
              (by
                have : ([] : Path) ≠ p := by
                  rintro rfl
                  rw [fs.node_root] at hp
                  simp at hp
                simpa using this)
              (by
                intro q n _ hq
                have : q ≠ p := by
                  rintro rfl
                  rw [fs.node_parent hq] at hp
                  simp at hp
                simpa using this))

/-! ## 4. What a call can do -/

section Calls

variable {fs fs' : FileSystem} {cwd : Path} {raw : List Char} {denied : Bool}

theorem dropLast_getLast? {p : Path} {n : Name} (h : p.getLast? = some n) :
    p.dropLast ++ [n] = p := by
  obtain ⟨init, rfl⟩ := List.getLast?_eq_some_iff.mp h
  simp

theorem openWrite_ok {content : List Char} (h : fs.openWrite cwd raw denied content = .ok fs') :
    ∃ p, fs.resolve cwd raw = .ok p ∧ fs.node p ≠ some .dir ∧
      ∀ q, fs'.node q = if q = p then some (.file content) else fs.node q := by
  unfold openWrite at h
  split at h
  · simp at h
  · cases hp : fs.resolve cwd raw with
    | error e => rw [hp] at h; simp at h
    | ok p =>
      rw [hp] at h
      simp only at h
      cases hl : p.getLast? with
      | none => rw [hl] at h; simp at h
      | some n =>
        rw [hl] at h
        simp only at h
        split at h
        · split at h
          · rename_i hq hn
            obtain rfl := Except.ok.inj h
            have hpn := dropLast_getLast? hl
            refine ⟨p, rfl, by rw [← hpn]; exact hn, fun q => ?_⟩
            rw [node_put, hpn]
          · simp at h
        · simp at h

theorem mkdir_ok (h : fs.mkdir cwd raw denied = .ok fs') :
    ∃ p, fs.resolveNew cwd raw = .ok p ∧ fs.node p = none ∧
      ∀ q, fs'.node q = if q = p then some .dir else fs.node q := by
  unfold mkdir at h
  split at h
  · simp at h
  · cases hp : fs.resolveNew cwd raw with
    | error e => rw [hp] at h; simp at h
    | ok p =>
      rw [hp] at h
      simp only at h
      cases hl : p.getLast? with
      | none => rw [hl] at h; simp at h
      | some n =>
        rw [hl] at h
        simp only at h
        split at h
        · split at h
          · rename_i hq hn
            obtain rfl := Except.ok.inj h
            have hpn := dropLast_getLast? hl
            refine ⟨p, rfl, by rw [← hpn]; exact hn, fun q => ?_⟩
            rw [node_put, hpn]
          · simp at h
        · simp at h

theorem rmdir_ok (h : fs.rmdir cwd raw denied = .ok fs') :
    ∃ p, fs.resolve cwd raw = .ok p ∧ fs.node p = some .dir ∧
      ∀ q, fs'.node q = if q = p then none else fs.node q := by
  unfold rmdir at h
  split at h
  · simp at h
  · cases hp : fs.resolve cwd raw with
    | error e => rw [hp] at h; simp at h
    | ok p =>
      rw [hp] at h
      simp only at h
      split at h
      · simp at h
      · split at h
        · simp at h
        · rename_i hdir
          split at h
          · simp at h
          · split at h
            · obtain rfl := Except.ok.inj h
              refine ⟨p, rfl, by simpa using hdir, fun q => ?_⟩
              rw [node_keepOnly]
              by_cases hq : q = p <;> simp [hq, bne]
            · simp at h

theorem unlink_ok (h : fs.unlink cwd raw denied = .ok fs') :
    ∃ p c, fs.resolve cwd raw = .ok p ∧ fs.node p = some (.file c) ∧
      ∀ q, fs'.node q = if q = p then none else fs.node q := by
  unfold unlink at h
  split at h
  · simp at h
  · cases hp : fs.resolve cwd raw with
    | error e => rw [hp] at h; simp at h
    | ok p =>
      rw [hp] at h
      simp only at h
      split at h
      · simp at h
      · simp at h
      · rename_i c hc
        obtain rfl := Except.ok.inj h
        refine ⟨p, c, rfl, hc, fun q => ?_⟩
        rw [node_keepOnly]
        by_cases hq : q = p <;> simp [hq, bne]

theorem unlink_ok_iff : (∃ fs', fs.unlink cwd raw denied = .ok fs') ↔
    denied = false ∧ ∃ p c, fs.resolve cwd raw = .ok p ∧ fs.node p = some (.file c) := by
  constructor
  · rintro ⟨fs', h⟩
    obtain ⟨p, c, hp, hc, -⟩ := unlink_ok h
    refine ⟨?_, p, c, hp, hc⟩
    cases denied with
    | false => rfl
    | true => simp [unlink] at h
  · rintro ⟨rfl, p, c, hp, hc⟩
    rw [unlink, if_neg Bool.false_ne_true, hp]
    simp only
    split
    · rename_i hnone; rw [hc] at hnone; simp at hnone
    · rename_i hdir; rw [hc] at hdir; simp at hdir
    · exact ⟨_, rfl⟩

/-- A walk fails only below something that is no directory. -/
theorem walk_error {fs : FileSystem} : ∀ {cs : List Name} {cur : Path} {e : Errno},
    fs.walk cur cs = .error e → e = .ENOENT ∨ e = .ENOTDIR
  | [], _, _, h => by simp [walk] at h
  | c :: cs, cur, e, h => by
      rw [walk] at h
      split at h
      · split at h
        · exact walk_error h
        · split at h
          · exact walk_error h
          · exact walk_error h
      · exact Or.inr (Except.error.inj h).symm
      · exact Or.inl (Except.error.inj h).symm

theorem resolve_error {e : Errno} (h : fs.resolve cwd raw = .error e) :
    e = .ENOENT ∨ e = .ENOTDIR := by
  unfold resolve at h
  split at h
  · exact Or.inl (Except.error.inj h).symm
  · exact walk_error h

theorem resolveNew_error {e : Errno} (h : fs.resolveNew cwd raw = .error e) :
    e = .ENOENT ∨ e = .ENOTDIR := by
  unfold resolveNew at h
  split at h
  · exact Or.inl (Except.error.inj h).symm
  · exact walk_error h

/-- `EEXIST` means that something is there. -/
theorem mkdir_eexist (h : fs.mkdir cwd raw denied = .error .EEXIST) :
    ∃ p, fs.resolveNew cwd raw = .ok p ∧ fs.node p ≠ none := by
  unfold mkdir at h
  split at h
  · simp at h
  · cases hp : fs.resolveNew cwd raw with
    | error e =>
      rw [hp] at h
      obtain rfl := Except.error.inj h
      rcases resolveNew_error hp with he | he <;> simp at he
    | ok p =>
      rw [hp] at h
      simp only at h
      refine ⟨p, rfl, ?_⟩
      cases hl : p.getLast? with
      | none => rw [List.getLast?_eq_none_iff.mp hl, node_root]; simp
      | some n =>
        rw [hl] at h
        simp only at h
        split at h
        · split at h
          · simp at h
          · rename_i hq hn
            rwa [dropLast_getLast? hl] at hn
        · simp at h

/-- A walk that ends where nothing is ends below a directory. -/
theorem walk_missing {fs : FileSystem} : ∀ {cs : List Name} {cur p : Path},
    fs.walk cur cs = .ok p → fs.node p = none →
      cs = [] ∧ p = cur ∨ p ≠ [] ∧ fs.node p.dropLast = some .dir
  | [], _, _, h, _ => Or.inl ⟨rfl, (Except.ok.inj h).symm⟩
  | c :: cs, cur, p, h, hp => by
      rw [walk] at h
      cases hcur : fs.node cur with
      | none => rw [hcur] at h; simp at h
      | some x =>
        cases x with
        | file content => rw [hcur] at h; simp at h
        | dir =>
          rw [hcur] at h
          simp only at h
          split at h
          · rcases walk_missing h hp with ⟨-, rfl⟩ | hdir
            · rw [hcur] at hp; simp at hp
            · exact Or.inr hdir
          · split at h
            · rcases walk_missing h hp with ⟨-, rfl⟩ | hdir
              · have hup : fs.node cur.dropLast = some .dir := by
                  cases hl : cur.getLast? with
                  | none => rw [List.getLast?_eq_none_iff.mp hl]; exact fs.node_root
                  | some n => exact fs.node_parent (by rw [dropLast_getLast? hl, hcur]; simp)
                rw [hup] at hp; simp at hp
              · exact Or.inr hdir
            · rcases walk_missing h hp with ⟨-, rfl⟩ | hdir
              · exact Or.inr ⟨by simp, by rw [List.dropLast_concat]; exact hcur⟩
              · exact Or.inr hdir

theorem resolveNew_missing {p : Path} (h : fs.resolveNew cwd raw = .ok p)
    (hp : fs.node p = none) : p ≠ [] ∧ fs.node p.dropLast = some .dir := by
  have hroot : p ≠ [] := by
    rintro rfl
    rw [fs.node_root] at hp; simp at hp
  rw [resolveNew] at h
  split at h
  · simp at h
  · rcases walk_missing h hp with ⟨hnil, rfl⟩ | hdir
    · -- only slashes, and they lead to the root
      exfalso
      apply hroot
      rw [if_pos]
      by_contra hrel
      obtain ⟨c, rest, rfl⟩ := List.exists_cons_of_ne_nil ‹raw ≠ []›
      have hc : ¬ (c == '/') = true := fun he => hrel (by simpa using he)
      obtain ⟨u, us, hu⟩ := List.exists_cons_of_ne_nil (List.splitOn_ne_nil '/' rest)
      have hsplit : (c :: rest).splitOn '/' = (c :: u) :: us := by
        rw [List.splitOn_cons_eq_if_modifyHead, if_neg hc, hu, List.modifyHead_cons]
      have hall := List.rdropWhile_eq_nil_iff.mp hnil (c :: u) (by rw [hsplit]; simp)
      simp at hall
    · exact hdir

/-- `mkdir` succeeds exactly where its path leads and nothing is. -/
theorem mkdir_ok_iff : (∃ fs', fs.mkdir cwd raw denied = .ok fs') ↔
    denied = false ∧ ∃ p, fs.resolveNew cwd raw = .ok p ∧ fs.node p = none := by
  constructor
  · rintro ⟨fs', h⟩
    obtain ⟨p, hp, hnone, -⟩ := mkdir_ok h
    refine ⟨?_, p, hp, hnone⟩
    cases denied with
    | false => rfl
    | true => simp [mkdir] at h
  · rintro ⟨rfl, p, hp, hnone⟩
    obtain ⟨hne, hdir⟩ := resolveNew_missing hp hnone
    cases hl : p.getLast? with
    | none => exact absurd (List.getLast?_eq_none_iff.mp hl) hne
    | some n =>
      have hn : fs.node (p.dropLast ++ [n]) = none := by rw [dropLast_getLast? hl]; exact hnone
      rw [mkdir, if_neg Bool.false_ne_true, hp]
      simp only [hl]
      rw [dif_pos hdir, dif_pos hn]
      exact ⟨_, rfl⟩

/-- A tolerated `mkdir` leaves something at its path, and at most makes
a directory where nothing was. -/
theorem mkdirExistOk_some (h : fs.mkdirExistOk cwd raw denied = some fs') :
    ∃ p, fs.resolveNew cwd raw = .ok p ∧ fs'.node p ≠ none ∧
      (fs.node p = none → fs'.node p = some .dir) ∧
      (∀ q, fs.node q ≠ none → fs'.node q = fs.node q) ∧
      ∀ q, q ≠ p → fs'.node q = fs.node q := by
  unfold mkdirExistOk at h
  cases hm : fs.mkdir cwd raw denied with
  | ok fs₁ =>
    rw [hm] at h
    obtain rfl := Option.some.inj h
    obtain ⟨p, hp, hnone, hnode⟩ := mkdir_ok hm
    refine ⟨p, hp, by rw [hnode, if_pos rfl]; simp, fun _ => by rw [hnode, if_pos rfl],
      fun q hq => ?_, fun q hq => by rw [hnode, if_neg hq]⟩
    rw [hnode, if_neg]
    rintro rfl
    exact hq hnone
  | error e =>
    rw [hm] at h
    cases e with
    | EEXIST =>
      obtain rfl := Option.some.inj h
      obtain ⟨p, hp, hne⟩ := mkdir_eexist hm
      exact ⟨p, hp, hne, fun hnone => absurd hnone hne, fun _ _ => rfl, fun _ _ => rfl⟩
    | _ => simp at h

/-- A tolerated `mkdir` goes well exactly where its path leads
anywhere. -/
theorem mkdirExistOk_isSome_iff : (fs.mkdirExistOk cwd raw denied).isSome = true ↔
    denied = false ∧ ∃ p, fs.resolveNew cwd raw = .ok p := by
  constructor
  · intro h
    obtain ⟨fs', hsome⟩ := Option.isSome_iff_exists.mp h
    obtain ⟨p, hp, -⟩ := mkdirExistOk_some hsome
    refine ⟨?_, p, hp⟩
    cases denied with
    | false => rfl
    | true => simp [mkdirExistOk, mkdir] at hsome
  · rintro ⟨rfl, p, hp⟩
    rw [mkdirExistOk]
    by_cases hnone : fs.node p = none
    · obtain ⟨fs', hok⟩ := mkdir_ok_iff.mpr ⟨rfl, p, hp, hnone⟩
      rw [hok]
      rfl
    · have hexist : fs.mkdir cwd raw false = .error .EEXIST := by
        rw [mkdir, if_neg Bool.false_ne_true, hp]
        simp only
        cases hl : p.getLast? with
        | none => rfl
        | some n =>
          have hlast := dropLast_getLast? hl
          have hdir : fs.node p.dropLast = some .dir :=
            fs.node_parent (by rw [hlast]; exact hnone)
          simp only
          rw [dif_pos hdir, dif_neg (by rw [hlast]; exact hnone)]
      rw [hexist]
      rfl

/-- The file `fopen(raw, "w")` opens, if it opens one. -/
def writeTarget (fs : FileSystem) (cwd : Path) (raw : List Char) (denied : Bool) : Option Path :=
  if denied then none
  else match fs.resolve cwd raw with
    | .ok p =>
        if p ≠ [] ∧ fs.node p.dropLast = some .dir ∧ fs.node p ≠ some .dir then some p else none
    | .error _ => none

theorem resolve_of_writeTarget {p : Path} (h : fs.writeTarget cwd raw denied = some p) :
    fs.resolve cwd raw = .ok p := by
  unfold writeTarget at h
  split at h
  · simp at h
  · split at h
    · rename_i hr
      split at h
      · rw [← Option.some.inj h, hr]
      · simp at h
    · simp at h

/-- A write succeeds exactly on its target. -/
theorem openWrite_ok_iff (content : List Char) :
    (∃ fs', fs.openWrite cwd raw denied content = .ok fs') ↔
      ∃ p, fs.writeTarget cwd raw denied = some p := by
  unfold openWrite writeTarget
  cases denied with
  | true => simp
  | false =>
    simp only [Bool.false_eq_true, if_false]
    cases hp : fs.resolve cwd raw with
    | error e => simp
    | ok p =>
      simp only
      cases hl : p.getLast? with
      | none => simp [List.getLast?_eq_none_iff.mp hl]
      | some n =>
        have hne : p ≠ [] := by
          rintro rfl; simp at hl
        simp only [dropLast_getLast? hl]
        by_cases hq : fs.node p.dropLast = some .dir
        · by_cases hn : fs.node p = some .dir <;> simp [hq, hn, hne]
        · simp [hq]

/-- A walk that succeeds still does when directories stay directories. -/
theorem walk_mono {fs fs' : FileSystem}
    (h : ∀ q, fs.node q = some .dir → fs'.node q = some .dir) :
    ∀ {cs : List Name} {cur p : Path}, fs.walk cur cs = .ok p → fs'.walk cur cs = .ok p
  | [], _, _, hw => hw
  | c :: cs, cur, p, hw => by
      rw [walk] at hw ⊢
      cases hcur : fs.node cur with
      | none => rw [hcur] at hw; simp at hw
      | some x =>
        cases x with
        | file content => rw [hcur] at hw; simp at hw
        | dir =>
          rw [hcur] at hw
          rw [h cur hcur]
          simp only at hw ⊢
          split
          · rename_i hc; rw [if_pos hc] at hw; exact walk_mono h hw
          · rename_i hc
            rw [if_neg hc] at hw
            split
            · rename_i hc'; rw [if_pos hc'] at hw; exact walk_mono h hw
            · rename_i hc'; rw [if_neg hc'] at hw; exact walk_mono h hw

theorem resolve_mono {fs fs' : FileSystem}
    (h : ∀ q, fs.node q = some .dir → fs'.node q = some .dir) {p : Path}
    (hr : fs.resolve cwd raw = .ok p) : fs'.resolve cwd raw = .ok p := by
  unfold resolve at hr ⊢
  split
  · rename_i hnil; rw [if_pos hnil] at hr; simp at hr
  · rename_i hnil; rw [if_neg hnil] at hr; exact walk_mono h hr

/-- A write leaves every directory where it is. -/
theorem dir_openWrite {content : List Char} (h : fs.openWrite cwd raw denied content = .ok fs')
    {q : Path} (hq : fs.node q = some .dir) : fs'.node q = some .dir := by
  obtain ⟨p, -, hdir, hnode⟩ := openWrite_ok h
  rw [hnode, if_neg]
  · exact hq
  · rintro rfl; exact hdir hq

/-- What was written is read back. -/
theorem openRead_openWrite {content : List Char}
    (h : fs.openWrite cwd raw denied content = .ok fs') :
    fs'.openRead cwd raw false = some content := by
  obtain ⟨p, hp, -, hnode⟩ := openWrite_ok h
  have hres := resolve_mono (fun _ hq => dir_openWrite h hq) hp
  rw [openRead, if_neg (by simp), hres]
  simp only [hnode, if_true]

/-- After a write the same string opens the same file. -/
theorem writeTarget_openWrite {content : List Char} {p : Path}
    (h : fs.openWrite cwd raw denied content = .ok fs')
    (hp : fs.writeTarget cwd raw denied = some p) :
    fs'.writeTarget cwd raw false = some p := by
  obtain ⟨p', hp', hdir, hnode⟩ := openWrite_ok h
  have hres := resolve_of_writeTarget hp
  obtain rfl := Except.ok.inj (hp'.symm.trans hres)
  have hmono : ∀ q, fs.node q = some .dir → fs'.node q = some .dir :=
    fun _ hq => dir_openWrite h hq
  have hres' := resolve_mono hmono hres
  unfold writeTarget at hp ⊢
  cases denied with
  | true => simp at hp
  | false =>
    rw [hres] at hp
    rw [hres']
    simp only [Bool.false_eq_true, if_false] at hp ⊢
    split at hp
    · rename_i hcond
      rw [if_pos ⟨hcond.1, hmono _ hcond.2.1, by rw [hnode, if_pos rfl]; simp⟩]
    · simp at hp

end Calls

/-! ## 5. Absolute paths of ordinary names -/

/-- A name that a path string can spell: no separator in it, and none of
the special components. -/
def Ordinary (n : Name) : Prop := n ≠ [] ∧ n ≠ ['.'] ∧ n ≠ ['.', '.'] ∧ '/' ∉ n

instance (n : Name) : Decidable (Ordinary n) := by unfold Ordinary; infer_instance

/-- The string `/a/b/c`. -/
def absPath (p : Path) : List Char := p.flatMap (fun n => '/' :: n)

theorem absPath_concat (p : Path) (n : Name) : absPath (p ++ [n]) = absPath p ++ '/' :: n := by
  simp [absPath]

theorem head_absPath (p : Path) (n : Name) : (absPath (p ++ [n])).head? = some '/' := by
  cases p <;> rfl

theorem splitOn_absPath : ∀ {p : Path}, (∀ n ∈ p, Ordinary n) →
    (absPath p).splitOn '/' = [] :: p
  | [], _ => rfl
  | n :: p, h => by
      have hn : '/' ∉ n := (h n (by simp)).2.2.2
      have ih := splitOn_absPath (p := p) (fun m hm => h m (List.mem_cons_of_mem _ hm))
      cases p with
      | nil =>
        rw [show absPath [n] = [] ++ '/' :: n by simp [absPath],
          List.splitOn_append_cons_self, List.splitOn_eq_singleton hn]
        rfl
      | cons m p =>
        -- the rest starts with a separator of its own
        have hrest : absPath (m :: p) = '/' :: (m ++ absPath p) := rfl
        have hsplit : (m ++ absPath p).splitOn '/' = m :: p := by
          have := List.splitOn_append_cons_self (a := '/') [] (m ++ absPath p)
          rw [List.nil_append, ← hrest, ih] at this
          simpa using this.symm
        rw [show absPath (n :: m :: p) = [] ++ '/' :: (n ++ '/' :: (m ++ absPath p)) by
            simp [absPath], List.splitOn_append_cons_self, List.splitOn_append_cons_self,
          List.splitOn_eq_singleton hn, hsplit]
        rfl

theorem walk_cons {fs : FileSystem} {cur : Path} {c : Name} {cs : List Name}
    (hcur : fs.node cur = some .dir) (hc : Ordinary c) :
    fs.walk cur (c :: cs) = fs.walk (cur ++ [c]) cs := by
  rw [walk, hcur]
  simp only
  rw [if_neg (by simp [hc.1, hc.2.1]), if_neg hc.2.2.1]

/-- Ordinary names are followed as they stand, as long as what is above
them is a directory. -/
theorem walk_ordinary (fs : FileSystem) (n : Name) : ∀ (q cur : Path), (∀ m ∈ q, Ordinary m) →
    Ordinary n → (fs.walk cur (q ++ [n]) = .ok (cur ++ (q ++ [n])) ∧
      fs.node (cur ++ q) = some .dir) ∨
    ((∃ e, fs.walk cur (q ++ [n]) = .error e) ∧ fs.node (cur ++ q) ≠ some .dir)
  | [], cur, _, hn => by
      by_cases hcur : fs.node cur = some .dir
      · refine Or.inl ⟨?_, by simpa using hcur⟩
        rw [List.nil_append, walk_cons hcur hn, walk]
      · refine Or.inr ⟨?_, by simpa using hcur⟩
        rw [List.nil_append, walk]
        split
        · rename_i hdir; exact absurd hdir hcur
        · exact ⟨_, rfl⟩
        · exact ⟨_, rfl⟩
  | c :: q, cur, hq, hn => by
      by_cases hcur : fs.node cur = some .dir
      · have ih := walk_ordinary fs n q (cur ++ [c])
          (fun m hm => hq m (List.mem_cons_of_mem _ hm)) hn
        rw [List.cons_append, walk_cons hcur (hq c (by simp))]
        simpa using ih
      · refine Or.inr ⟨?_, fun hdir => hcur (fs.dir_of_prefix (s := c :: q) (by simp)
          (by rw [hdir]; simp))⟩
        rw [List.cons_append, walk]
        split
        · rename_i hd; exact absurd hd hcur
        · exact ⟨_, rfl⟩
        · exact ⟨_, rfl⟩

section Absolute

variable {fs : FileSystem} {cwd q p : Path} {n : Name}

theorem resolve_absPath_cases (fs : FileSystem) (cwd : Path) (hq : ∀ m ∈ q, Ordinary m)
    (hn : Ordinary n) :
    (fs.resolve cwd (absPath (q ++ [n])) = .ok (q ++ [n]) ∧ fs.node q = some .dir) ∨
    ((∃ e, fs.resolve cwd (absPath (q ++ [n])) = .error e) ∧ fs.node q ≠ some .dir) := by
  have hord : ∀ m ∈ q ++ [n], Ordinary m := by
    intro m hm
    rcases List.mem_append.mp hm with hm | hm
    · exact hq m hm
    · rwa [List.mem_singleton.mp hm]
  have hstart := head_absPath q n
  have hne : absPath (q ++ [n]) ≠ [] := by
    intro he; rw [he] at hstart; simp at hstart
  have hroot : fs.walk [] ([] :: (q ++ [n])) = fs.walk [] (q ++ [n]) := by
    rw [walk, node_root]; simp
  rw [resolve, if_neg hne, if_pos hstart, splitOn_absPath hord, hroot]
  simpa using walk_ordinary fs n q [] hq hn

/-- What an absolute path of ordinary names resolves to, if it does. -/
theorem resolve_absPath_eq (hq : ∀ m ∈ q, Ordinary m) (hn : Ordinary n)
    (h : fs.resolve cwd (absPath (q ++ [n])) = .ok p) :
    p = q ++ [n] ∧ fs.node q = some .dir := by
  rcases resolve_absPath_cases fs cwd hq hn with ⟨hok, hd⟩ | ⟨⟨e, he⟩, -⟩
  · rw [hok] at h
    exact ⟨(Except.ok.inj h).symm, hd⟩
  · rw [he] at h; simp at h

theorem resolve_absPath (hq : ∀ m ∈ q, Ordinary m) (hn : Ordinary n)
    (hd : fs.node q = some .dir) : fs.resolve cwd (absPath (q ++ [n])) = .ok (q ++ [n]) := by
  rcases resolve_absPath_cases fs cwd hq hn with ⟨hok, -⟩ | ⟨-, hnd⟩
  · exact hok
  · exact absurd hd hnd

/-- An existing entry is reached by its own path. -/
theorem resolve_absPath_of_node (hq : ∀ m ∈ q, Ordinary m) (hn : Ordinary n)
    (h : fs.node (q ++ [n]) ≠ none) :
    fs.resolve cwd (absPath (q ++ [n])) = .ok (q ++ [n]) :=
  resolve_absPath hq hn (fs.node_parent h)

theorem access_absPath (hq : ∀ m ∈ q, Ordinary m) (hn : Ordinary n) :
    fs.access cwd (absPath (q ++ [n])) = (fs.node (q ++ [n])).isSome := by
  unfold access
  rcases resolve_absPath_cases fs cwd hq hn with ⟨hok, -⟩ | ⟨⟨e, he⟩, hnd⟩
  · rw [hok]
  · rw [he]
    cases hx : fs.node (q ++ [n]) with
    | none => rfl
    | some x => exact absurd (fs.node_parent (by rw [hx]; simp)) hnd

theorem openRead_absPath (hq : ∀ m ∈ q, Ordinary m) (hn : Ordinary n) {content : List Char}
    (h : fs.node (q ++ [n]) = some (.file content)) :
    fs.openRead cwd (absPath (q ++ [n])) false = some content := by
  rw [openRead, if_neg (by simp), resolve_absPath_of_node hq hn (by rw [h]; simp)]
  simp only [h]

/-- What is not there cannot be read. -/
theorem openRead_absent (hq : ∀ m ∈ q, Ordinary m) (hn : Ordinary n)
    (h : fs.node (q ++ [n]) = none) (denied : Bool) :
    fs.openRead cwd (absPath (q ++ [n])) denied = none := by
  unfold openRead
  split
  · rfl
  · rcases resolve_absPath_cases fs cwd hq hn with ⟨hok, -⟩ | ⟨⟨e, he⟩, -⟩
    · rw [hok]
      simp only [h]
    · rw [he]

/-- No slash stands at the end of such a path. -/
theorem resolveNew_absPath (fs : FileSystem) (cwd : Path) (hq : ∀ m ∈ q, Ordinary m)
    (hn : Ordinary n) :
    fs.resolveNew cwd (absPath (q ++ [n])) = fs.resolve cwd (absPath (q ++ [n])) := by
  have hord : ∀ m ∈ q ++ [n], Ordinary m := by
    intro m hm
    rcases List.mem_append.mp hm with hm | hm
    · exact hq m hm
    · rwa [List.mem_singleton.mp hm]
  have hlast : ([] :: (q ++ [n])).rdropWhile (fun c => decide (c = ([] : Name)))
      = [] :: (q ++ [n]) := by
    rw [← List.cons_append, List.rdropWhile_concat_neg _ _ _ (by simp [hn.1])]
  rw [resolveNew, resolve, splitOn_absPath hord, hlast]

theorem resolveNew_absPath_eq (hq : ∀ m ∈ q, Ordinary m) (hn : Ordinary n)
    (h : fs.resolveNew cwd (absPath (q ++ [n])) = .ok p) :
    p = q ++ [n] ∧ fs.node q = some .dir :=
  resolve_absPath_eq hq hn (resolveNew_absPath fs cwd hq hn ▸ h)

theorem mkdirExistOk_absPath (fs : FileSystem) (cwd : Path) (hq : ∀ m ∈ q, Ordinary m)
    (hn : Ordinary n) (denied : Bool) :
    (fs.mkdirExistOk cwd (absPath (q ++ [n])) denied).isSome
      = (!denied && decide (fs.node q = some .dir)) := by
  unfold mkdirExistOk mkdir
  cases denied with
  | true => simp
  | false =>
    rw [resolveNew_absPath fs cwd hq hn]
    rcases resolve_absPath_cases fs cwd hq hn with ⟨hok, hd⟩ | ⟨⟨e, he⟩, hnd⟩
    · rw [hok]
      simp only [Bool.false_eq_true, if_false, List.getLast?_append, List.getLast?_singleton,
        Option.some_or, List.dropLast_concat, hd]
      by_cases hnone : fs.node (q ++ [n]) = none
      · simp [hnone]
      · simp [hnone]
    · rw [he]
      rcases resolve_error he with rfl | rfl <;> simp [hnd]

/-- What a tolerated `mkdir` leaves. -/
theorem node_mkdirExistOk_absPath (hq : ∀ m ∈ q, Ordinary m) (hn : Ordinary n) {denied : Bool}
    {fs' : FileSystem} (h : fs.mkdirExistOk cwd (absPath (q ++ [n])) denied = some fs')
    (r : Path) :
    fs'.node r = if r = q ++ [n] ∧ fs.node r = none then some .dir else fs.node r := by
  obtain ⟨p, hp, -, hnew, hkeep, hother⟩ := mkdirExistOk_some h
  obtain ⟨rfl, -⟩ := resolveNew_absPath_eq hq hn hp
  split
  · rename_i hr
    obtain ⟨rfl, hnone⟩ := hr
    exact hnew hnone
  · rename_i hr
    by_cases hrp : r = q ++ [n]
    · exact hkeep r fun hnone => hr ⟨hrp, hnone⟩
    · exact hother r hrp

theorem openWrite_absPath (fs : FileSystem) (cwd : Path) (hq : ∀ m ∈ q, Ordinary m)
    (hn : Ordinary n) (denied : Bool) (content : List Char) :
    (∃ fs', fs.openWrite cwd (absPath (q ++ [n])) denied content = .ok fs') ↔
      denied = false ∧ fs.node q = some .dir ∧ fs.node (q ++ [n]) ≠ some .dir := by
  unfold openWrite
  cases denied with
  | true => simp
  | false =>
    rcases resolve_absPath_cases fs cwd hq hn with ⟨hok, hd⟩ | ⟨⟨e, he⟩, hnd⟩
    · rw [hok]
      simp only [Bool.false_eq_true, if_false, List.getLast?_append, List.getLast?_singleton,
        Option.some_or, List.dropLast_concat, hd]
      by_cases hdir : fs.node (q ++ [n]) = some .dir
      · simp [hdir]
      · simp [hdir]
    · rw [he]
      simp [hnd]

end Absolute

/-! ## 6. Paths below something missing -/

/-- A walk over two lists is one walk after the other. -/
theorem walk_append (fs : FileSystem) : ∀ (cs ds : List Name) (cur : Path),
    fs.walk cur (cs ++ ds) = (fs.walk cur cs).bind (fun p => fs.walk p ds)
  | [], _, _ => rfl
  | c :: cs, ds, cur => by
      rw [List.cons_append, walk, walk]
      cases fs.node cur with
      | none => rfl
      | some x =>
        cases x with
        | file content => rfl
        | dir =>
          simp only
          split
          · exact walk_append fs cs ds cur
          · split
            · exact walk_append fs cs ds cur.dropLast
            · exact walk_append fs cs ds (cur ++ [c])

/-- The walk to a directory by its own names. -/
theorem walk_absolute {fs : FileSystem} {q : Path} (hq : ∀ m ∈ q, Ordinary m)
    (hdir : fs.node q = some .dir) : fs.walk [] ([] :: q) = .ok q := by
  have hroot : fs.walk [] ([] :: q) = fs.walk [] q := by
    rw [walk, node_root]; simp
  rw [hroot]
  induction q using List.reverseRecOn with
  | nil => rfl
  | append_singleton p m _ =>
    have hp : ∀ c ∈ p, Ordinary c := fun c hc => hq c (by simp [hc])
    have hm : Ordinary m := hq m (by simp)
    have hparent := fs.node_parent (by rw [hdir]; simp : fs.node (p ++ [m]) ≠ none)
    rcases walk_ordinary fs m p [] hp hm with ⟨hok, -⟩ | ⟨-, hnd⟩
    · simpa using hok
    · exact absurd (by simpa using hparent) hnd

/-- A string that goes on below a name missing from a directory resolves
to nothing. The doubled separator is that of a path glued behind a
directory. -/
theorem resolve_below_missing {fs : FileSystem} (cwd : Path) {q : Path} {n : Name}
    (hq : ∀ m ∈ q, Ordinary m) (hn : Ordinary n) (hdir : fs.node q = some .dir)
    (hmissing : fs.node (q ++ [n]) = none) (rest : List Char) :
    fs.resolve cwd (absPath q ++ '/' :: '/' :: (n ++ '/' :: rest)) = .error .ENOENT := by
  have hsplit : (absPath q ++ '/' :: '/' :: (n ++ '/' :: rest)).splitOn '/'
      = ([] :: q) ++ ([] :: n :: rest.splitOn '/') := by
    have hempty := List.splitOn_append_cons_self (a := '/') [] (n ++ '/' :: rest)
    rw [List.nil_append] at hempty
    rw [List.splitOn_append_cons_self, splitOn_absPath hq, hempty,
      List.splitOn_append_cons_self, List.splitOn_eq_singleton hn.2.2.2]
    rfl
  have hstart : (absPath q ++ '/' :: '/' :: (n ++ '/' :: rest)).head? = some '/' := by
    cases q <;> rfl
  have hne : absPath q ++ '/' :: '/' :: (n ++ '/' :: rest) ≠ [] := by simp
  have hwalk := walk_absolute hq hdir
  obtain ⟨c, cs, hrest⟩ := List.exists_cons_of_ne_nil (List.splitOn_ne_nil '/' rest)
  have hskip : fs.walk q ([] :: n :: c :: cs) = fs.walk q (n :: c :: cs) := by
    rw [walk, hdir]; simp
  rw [resolve, if_neg hne, if_pos hstart, hsplit, walk_append, hwalk, hrest]
  show fs.walk q ([] :: n :: c :: cs) = .error .ENOENT
  rw [hskip, walk_cons hdir hn, walk, hmissing]

/-- A string that goes on below a name that is no directory resolves to
nothing. -/
theorem resolve_below_nondir {fs : FileSystem} (cwd : Path) {q : Path} {n : Name}
    (hq : ∀ m ∈ q, Ordinary m) (hn : Ordinary n) (hnode : fs.node (q ++ [n]) ≠ some .dir)
    (rest : List Char) :
    ∃ e, fs.resolve cwd (absPath q ++ '/' :: (n ++ '/' :: rest)) = .error e := by
  have hsplit : (absPath q ++ '/' :: (n ++ '/' :: rest)).splitOn '/'
      = [] :: ((q ++ [n]) ++ rest.splitOn '/') := by
    rw [List.splitOn_append_cons_self, splitOn_absPath hq, List.splitOn_append_cons_self,
      List.splitOn_eq_singleton hn.2.2.2]
    simp
  have hstart : (absPath q ++ '/' :: (n ++ '/' :: rest)).head? = some '/' := by
    cases q <;> rfl
  have hne : absPath q ++ '/' :: (n ++ '/' :: rest) ≠ [] := by simp
  obtain ⟨c, cs, hrest⟩ := List.exists_cons_of_ne_nil (List.splitOn_ne_nil '/' rest)
  have hstop : ∃ e, fs.walk (q ++ [n]) (c :: cs) = .error e := by
    rw [walk]
    split
    · rename_i hd; exact absurd hd hnode
    · exact ⟨_, rfl⟩
    · exact ⟨_, rfl⟩
  rw [resolve, if_neg hne, if_pos hstart, hsplit, walk, node_root]
  simp only [true_or, if_true]
  rw [walk_append, hrest]
  rcases walk_ordinary fs n q [] hq hn with ⟨hok, -⟩ | ⟨⟨e, he⟩, -⟩
  · rw [hok]
    exact hstop
  · rw [he]
    exact ⟨e, rfl⟩

/-! ## 7. Components -/

/-- Where components lead when nothing stands in the way. -/
def follow : Path → List Name → Path
  | cur, [] => cur
  | cur, c :: cs =>
      if c = [] ∨ c = ['.'] then follow cur cs
      else if c = ['.', '.'] then follow cur.dropLast cs
      else follow (cur ++ [c]) cs

/-- An absolute path string with its `.` and `..` resolved. -/
def normalize (raw : List Char) : Path := follow [] (raw.splitOn '/')

/-- A walk that succeeds ends where the components lead. -/
theorem walk_eq_follow {fs : FileSystem} : ∀ {cs : List Name} {cur p : Path},
    fs.walk cur cs = .ok p → p = follow cur cs
  | [], _, _, h => (Except.ok.inj h).symm
  | c :: cs, cur, p, h => by
      rw [walk] at h
      rw [follow]
      split at h
      · split at h
        · rw [if_pos ‹_›]; exact walk_eq_follow h
        · rw [if_neg ‹_›]
          split at h
          · rw [if_pos ‹_›]; exact walk_eq_follow h
          · rw [if_neg ‹_›]; exact walk_eq_follow h
      · simp at h
      · simp at h

theorem follow_append (cs ds : List Name) (cur : Path) :
    follow cur (cs ++ ds) = follow (follow cur cs) ds := by
  induction cs generalizing cur with
  | nil => rfl
  | cons c cs ih =>
    rw [List.cons_append, follow, follow]
    split
    · exact ih cur
    · split
      · exact ih _
      · exact ih _

theorem follow_rdropWhile (cur : Path) (cs : List Name) :
    follow cur (cs.rdropWhile (fun c => c = [])) = follow cur cs := by
  induction cs using List.reverseRecOn with
  | nil => rfl
  | append_singleton cs c ih =>
    by_cases hc : c = []
    · rw [List.rdropWhile_concat_pos _ _ _ (by simp [hc]), ih, follow_append, hc]
      simp [follow]
    · rw [List.rdropWhile_concat_neg _ _ _ (by simp [hc])]

/-- Where a string leads from a working directory when nothing stands in
the way. -/
def leadsTo (cwd : Path) (raw : List Char) : Path :=
  follow (if raw.head? = some '/' then [] else cwd) (raw.splitOn '/')

theorem leadsTo_absolute {cwd : Path} {raw : List Char} (habs : raw.head? = some '/') :
    leadsTo cwd raw = normalize raw := by
  rw [leadsTo, if_pos habs, normalize]

theorem resolveNew_eq_leadsTo {fs : FileSystem} {cwd p : Path} {raw : List Char}
    (h : fs.resolveNew cwd raw = .ok p) : p = leadsTo cwd raw := by
  rw [resolveNew] at h
  split at h
  · simp at h
  · rw [walk_eq_follow h, follow_rdropWhile, leadsTo]

theorem resolve_eq_leadsTo {fs : FileSystem} {cwd p : Path} {raw : List Char}
    (h : fs.resolve cwd raw = .ok p) : p = leadsTo cwd raw := by
  rw [resolve] at h
  split at h
  · simp at h
  · exact walk_eq_follow h

theorem follow_ordinary {cs : List Name} (h : ∀ c ∈ cs, Ordinary c) (cur : Path) :
    follow cur cs = cur ++ cs := by
  induction cs generalizing cur with
  | nil => simp [follow]
  | cons c cs ih =>
    have hc := h c (by simp)
    rw [follow, if_neg (by simp [hc.1, hc.2.1]), if_neg hc.2.2.1,
      ih (fun d hd => h d (List.mem_cons_of_mem c hd))]
    simp

/-- The names among components: what is neither empty nor a dot. -/
def names (cs : List Name) : Path := cs.filter (fun c => c != [] && c != ['.'])

theorem names_append (cs ds : List Name) : names (cs ++ ds) = names cs ++ names ds :=
  List.filter_append cs ds

/-- Without `..` components lead to their names. -/
theorem follow_names {cs : List Name} (h : ['.', '.'] ∉ cs) (cur : Path) :
    follow cur cs = cur ++ names cs := by
  induction cs generalizing cur with
  | nil => rw [follow, names, List.filter_nil, List.append_nil]
  | cons c cs ih =>
    have hrest : ['.', '.'] ∉ cs := fun hm => h (List.mem_cons_of_mem c hm)
    rw [follow]
    split
    · rename_i hc
      rw [ih hrest, names, names, List.filter_cons_of_neg]
      rcases hc with rfl | rfl <;> decide
    · rename_i hc
      rw [if_neg fun he => h (by rw [he]; exact List.mem_cons_self), ih hrest, names, names,
        List.filter_cons_of_pos]
      · simp
      · rw [not_or] at hc
        simp [hc]

/-- Without `..` a walk succeeds exactly when everything above its last
component is a directory. -/
theorem walk_names (fs : FileSystem) {cs : List Name} (h : ['.', '.'] ∉ cs) (cur : Path) :
    (∃ p, fs.walk cur cs = .ok p) ↔
      cs = [] ∨ fs.node (cur ++ names cs.dropLast) = some .dir := by
  induction cs using List.reverseRecOn with
  | nil => exact iff_of_true ⟨cur, rfl⟩ (Or.inl rfl)
  | append_singleton cs c ih =>
    have hrest : ['.', '.'] ∉ cs := fun hm => h (List.mem_append_left _ hm)
    have ih := ih hrest
    rw [List.dropLast_concat, walk_append]
    cases hw : fs.walk cur cs with
    | ok p =>
      have hp : p = cur ++ names cs := by rw [walk_eq_follow hw, follow_names hrest]
      rw [← hp]
      show (∃ q, fs.walk p [c] = .ok q) ↔ _
      rw [walk]
      cases hnode : fs.node p with
      | none => simp
      | some x =>
        cases x with
        | file content => simp
        | dir =>
          simp only [walk]
          refine iff_of_true ?_ (Or.inr trivial)
          split
          · exact ⟨_, rfl⟩
          · split
            · exact ⟨_, rfl⟩
            · exact ⟨_, rfl⟩
    | error e =>
      -- what the shorter walk lacked the longer one lacks
      rw [hw] at ih
      have hlack : ¬ (cs = [] ∨ fs.node (cur ++ names cs.dropLast) = some .dir) :=
        fun hd => by obtain ⟨p, hp⟩ := ih.mpr hd; simp at hp
      refine iff_of_false (by rintro ⟨p, hp⟩; simp [Except.bind] at hp) ?_
      rintro (hnil | hdir)
      · simp at hnil
      · refine hlack ?_
        cases hl : cs.getLast? with
        | none => exact Or.inl (List.getLast?_eq_none_iff.mp hl)
        | some d =>
          obtain ⟨init, rfl⟩ := List.getLast?_eq_some_iff.mp hl
          rw [List.dropLast_concat]
          rw [names_append, ← List.append_assoc] at hdir
          by_cases hd : names [d] = []
          · rw [hd, List.append_nil] at hdir
            exact Or.inr hdir
          · exact Or.inr (fs.dir_of_prefix hd (by rw [hdir]; simp))

theorem normalize_absPath {p : Path} (h : ∀ n ∈ p, Ordinary n) : normalize (absPath p) = p := by
  rw [normalize, splitOn_absPath h, follow, if_pos (Or.inl rfl), follow_ordinary h,
    List.nil_append]

end FileSystem
end DockerClone.Os
