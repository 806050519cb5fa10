/-
DockerClone.Os.Mounts — a process that sees two file systems.

One of them is where the process started, the other one is mounted over
a directory of it, or, after `pivot_root`, is what `/` names, with the
first one below a directory of it for as long as it is not unmounted. A
`MountView` is the two tables and their `Layout`; a path belongs to one
of them (`MountView.node`), and path strings are walked as in
`Os.FileSystem`, across the border.

A namespace of more than one mount is not modelled: what the process
started with is one table, and a second `mount` is refused. A call that
fails gives `none`.
-/
import DockerClone.Os.FileSystem

namespace DockerClone.Os

/-! ## 1. Walks over a function -/

/-- Follow components, as `FileSystem.walk` does, in any tree. -/
def walkIn (node : Path → Option Node) : Path → List Name → Option Path
  | cur, [] => some cur
  | cur, c :: cs =>
      if node cur = some .dir then
        if c = [] ∨ c = ['.'] then walkIn node cur cs
        else if c = ['.', '.'] then walkIn node cur.dropLast cs
        else walkIn node (cur ++ [c]) cs
      else none

/-- The start of a path string and its components. -/
def startOf (cwd : Path) (raw : List Char) : Path := if raw.head? = some '/' then [] else cwd

def resolveIn (node : Path → Option Node) (cwd : Path) (raw : List Char) : Option Path :=
  if raw = [] then none else walkIn node (startOf cwd raw) (raw.splitOn '/')

def resolveNewIn (node : Path → Option Node) (cwd : Path) (raw : List Char) : Option Path :=
  if raw = [] then none
  else walkIn node (startOf cwd raw) ((raw.splitOn '/').rdropWhile (fun c => c = []))

theorem walkIn_append (node : Path → Option Node) (cs ds : List Name) : ∀ cur : Path,
    walkIn node cur (cs ++ ds) = (walkIn node cur cs).bind fun p => walkIn node p ds := by
  induction cs with
  | nil => intro cur; rfl
  | cons c cs ih =>
    intro cur
    rw [List.cons_append, walkIn, walkIn]
    split_ifs with hdir hstay hup
    · exact ih cur
    · exact ih cur.dropLast
    · exact ih (cur ++ [c])
    · rfl

/-- In one table the walk is the table's. -/
theorem walkIn_node (fs : FileSystem) (cs : List Name) : ∀ cur : Path,
    walkIn fs.node cur cs = (fs.walk cur cs).toOption := by
  induction cs with
  | nil => intro cur; rfl
  | cons c cs ih =>
    intro cur
    rw [walkIn, FileSystem.walk]
    cases hcur : fs.node cur with
    | none => rfl
    | some x =>
      cases x with
      | file content => rfl
      | dir =>
        simp only [if_true]
        split_ifs with hstay hup
        · exact ih cur
        · exact ih cur.dropLast
        · exact ih (cur ++ [c])

theorem resolveIn_node (fs : FileSystem) (cwd : Path) (raw : List Char) :
    resolveIn fs.node cwd raw = (fs.resolve cwd raw).toOption := by
  rw [resolveIn, FileSystem.resolve]
  by_cases hraw : raw = []
  · rw [if_pos hraw, if_pos hraw]
    rfl
  · rw [if_neg hraw, if_neg hraw]
    exact walkIn_node fs _ _

theorem splitOn_concat {n : Name} (hn : FileSystem.Ordinary n) (raw : List Char) :
    (raw ++ '/' :: n).splitOn '/' = raw.splitOn '/' ++ [n] := by
  rw [List.splitOn_append_cons_self, List.splitOn_eq_singleton hn.2.2.2]

section Mono

variable {node node' : Path → Option Node} (hdirs : ∀ r, node r = some .dir → node' r = some .dir)

include hdirs

/-- More directories leave a walk that succeeds where it is. -/
theorem walkIn_mono {p : Path} (cs : List Name) : ∀ {cur : Path},
    walkIn node cur cs = some p → walkIn node' cur cs = some p := by
  induction cs with
  | nil =>
    intro cur h
    exact h
  | cons c cs ih =>
    intro cur h
    rw [walkIn] at h ⊢
    obtain ⟨hdir, h⟩ := Option.ite_none_right_eq_some.mp h
    rw [if_pos (hdirs cur hdir)]
    split_ifs at h ⊢ with hstay hup
    · exact ih h
    · exact ih h
    · exact ih h

theorem resolveIn_mono {cwd p : Path} {raw : List Char} (h : resolveIn node cwd raw = some p) :
    resolveIn node' cwd raw = some p := by
  rw [resolveIn] at h ⊢
  split_ifs at h ⊢ with hraw
  exact walkIn_mono hdirs _ h

end Mono

section Concat

variable {node : Path → Option Node} {cwd p : Path} {n : Name}
  (hn : FileSystem.Ordinary n) (raw : List Char)

include hn

theorem resolveNewIn_concat :
    resolveNewIn node cwd (raw ++ '/' :: n) = resolveIn node cwd (raw ++ '/' :: n) := by
  rw [resolveNewIn, resolveIn, splitOn_concat hn,
    List.rdropWhile_concat_neg _ _ _ (by simp [hn.1])]

/-- One more ordinary component of a path string. -/
theorem resolveIn_concat (hne : raw ≠ []) :
    resolveIn node cwd (raw ++ '/' :: n) = (resolveIn node cwd raw).bind fun q =>
      if node q = some .dir then some (q ++ [n]) else none := by
  have hhead : (raw ++ '/' :: n).head? = raw.head? := by
    obtain ⟨c, rest, rfl⟩ := List.exists_cons_of_ne_nil hne
    rfl
  have hstart : startOf cwd (raw ++ '/' :: n) = startOf cwd raw := by
    rw [startOf, startOf, hhead]
  rw [resolveIn, resolveIn, if_neg (by simp), if_neg hne, hstart, splitOn_concat hn,
    walkIn_append]
  obtain ⟨hempty, hdot, hup, -⟩ := hn
  simp [hempty, hdot, hup, walkIn]

/-- It is the last name of what the string resolves to. -/
theorem resolveIn_concat_some (h : resolveIn node cwd (raw ++ '/' :: n) = some p) :
    ∃ q, p = q ++ [n] ∧ node q = some .dir := by
  rw [resolveIn, if_neg (by simp), splitOn_concat hn, walkIn_append] at h
  obtain ⟨q, -, hq⟩ := Option.bind_eq_some_iff.mp h
  obtain ⟨hempty, hdot, hup, -⟩ := hn
  rw [walkIn] at hq
  split_ifs at hq with hdir hstay
  · exact absurd hstay (by simp [hempty, hdot])
  · exact ⟨q, (by simpa [walkIn] using hq.symm), hdir⟩

end Concat

/-- Ordinary components are followed as they stand. -/
theorem walkIn_ordinary {node : Path → Option Node} {q : Path} :
    ∀ {cur p : Path}, (∀ m ∈ q, FileSystem.Ordinary m) → walkIn node cur q = some p →
      p = cur ++ q := by
  induction q with
  | nil =>
    intro cur p _ h
    simpa [walkIn] using h.symm
  | cons c q ih =>
    intro cur p hq h
    obtain ⟨hempty, hdot, hup, -⟩ := hq c (by simp)
    rw [walkIn] at h
    split_ifs at h with hdir hstay
    · exact absurd hstay (by simp [hempty, hdot])
    · rw [ih (fun m hm => hq m (List.mem_cons_of_mem _ hm)) h]
      simp

/-- They are followed where the directories on the way are. -/
theorem walkIn_of_dirs {node : Path → Option Node} {q : Path} :
    ∀ {cur : Path}, (∀ m ∈ q, FileSystem.Ordinary m) →
      (∀ s n, s ++ [n] <+: q → node (cur ++ s) = some .dir) →
      walkIn node cur q = some (cur ++ q) := by
  induction q with
  | nil =>
    intro cur _ _
    simp [walkIn]
  | cons c q ih =>
    intro cur hq hdirs
    obtain ⟨hempty, hdot, hup, -⟩ := hq c (by simp)
    have hcur : node cur = some .dir := by simpa using hdirs [] c (by simp)
    rw [walkIn, if_pos hcur, if_neg (by simp [hempty, hdot]), if_neg hup,
      ih (fun m hm => hq m (List.mem_cons_of_mem _ hm)) fun s n hs => ?_]
    · simp
    · have hlong := hdirs (c :: s) n (List.cons_prefix_cons.mpr ⟨rfl, hs⟩)
      simpa using hlong

section Absolute

variable {node : Path → Option Node} {cwd q p : Path} (hq : ∀ m ∈ q, FileSystem.Ordinary m)
  (hne : q ≠ [])

include hq hne

theorem resolveIn_absPath (hroot : node [] = some .dir) :
    resolveIn node cwd (FileSystem.absPath q) = walkIn node [] q := by
  obtain ⟨c, rest, rfl⟩ := List.exists_cons_of_ne_nil hne
  have hsplit := FileSystem.splitOn_absPath hq
  rw [resolveIn, if_neg (by simp [FileSystem.absPath]), hsplit]
  have hstart : startOf cwd (FileSystem.absPath (c :: rest)) = [] := if_pos rfl
  rw [hstart, walkIn, if_pos hroot, if_pos (Or.inl rfl)]

/-- What an absolute path of ordinary names resolves to, if it does. -/
theorem resolveIn_absPath_eq (hroot : node [] = some .dir)
    (h : resolveIn node cwd (FileSystem.absPath q) = some p) : p = q := by
  rw [resolveIn_absPath hq hne hroot] at h
  simpa using walkIn_ordinary hq h

/-- An absolute path resolves to itself where its directories are. -/
theorem resolveIn_of_dirs (hdirs : ∀ s n, s ++ [n] <+: q → node s = some .dir) :
    resolveIn node cwd (FileSystem.absPath q) = some q := by
  obtain ⟨c, rest, rfl⟩ := List.exists_cons_of_ne_nil hne
  rw [resolveIn_absPath hq hne (hdirs [] c (by simp))]
  have hwalk : walkIn node [] (c :: rest) = some ([] ++ c :: rest) :=
    walkIn_of_dirs hq fun s n hs => hdirs s n hs
  exact hwalk

end Absolute

/-! ## 2. Views -/

inductive Layout where
  /-- The second file system is mounted nowhere. -/
  | plain
  /-- It is mounted over this directory of the first. -/
  | covering (p : Path)
  /-- It is the root, and the first one is at this directory of it. -/
  | turned (q : Path)
  /-- It is the root, and no path leads to the first one. -/
  | alone
  deriving DecidableEq, Repr

/-- `/` names the second file system. -/
def Layout.isTurned : Layout → Bool
  | .turned _ | .alone => true
  | _ => false

structure MountView where
  lower : FileSystem
  upper : FileSystem
  layout : Layout

namespace MountView

/-- The table a path belongs to, `true` for the first, and its place
there. -/
def place (v : MountView) (r : Path) : Bool × Path :=
  match v.layout with
  | .plain => (true, r)
  | .covering p => if p <+: r then (false, r.drop p.length) else (true, r)
  | .turned q => if q <+: r then (true, r.drop q.length) else (false, r)
  | .alone => (false, r)

/-- What is at a path of the view. -/
def node (v : MountView) (r : Path) : Option Node :=
  match v.place r with
  | (true, q) => v.lower.node q
  | (false, q) => v.upper.node q

def resolve (v : MountView) (cwd : Path) (raw : List Char) : Option Path :=
  resolveIn v.node cwd raw

/-- Change the table a path belongs to. -/
def edit (v : MountView) (r : Path) (change : FileSystem → Path → Option FileSystem) :
    Option MountView :=
  match v.place r with
  | (true, q) => (change v.lower q).map fun fs => { v with lower := fs }
  | (false, q) => (change v.upper q).map fun fs => { v with upper := fs }

end MountView

/-! ## 3. System calls -/

theorem FileSystem.not_dir_of_none {fs : FileSystem} {r : Path} {n : Name}
    (h : fs.node (r.dropLast ++ [n]) = none) : fs.node (r.dropLast ++ [n]) ≠ some .dir := by
  rw [h]
  simp

theorem FileSystem.root_kept {r : Path} (hr : r ≠ []) : (([] : Path) != r) = true := by
  simpa using Ne.symm hr

/-- Nothing lies below an empty directory. -/
theorem FileSystem.parent_kept {fs : FileSystem} {r : Path} (he : fs.isEmptyDir r = true)
    (q : Path) (n : Name) (hq : fs.node (q ++ [n]) ≠ none) : (q != r) = true := by
  have hne : q ≠ r := by
    rintro rfl
    exact hq ((isEmptyDir_iff fs q).mp he n)
  simpa using hne

/-- A directory made where nothing is. -/
def FileSystem.addDir (fs : FileSystem) (r : Path) : Option FileSystem :=
  match r.getLast? with
  | none => none
  | some n =>
      if hq : fs.node r.dropLast = some .dir then
        if hn : fs.node (r.dropLast ++ [n]) = none then
          some (fs.put r.dropLast n .dir hq (not_dir_of_none hn))
        else none
      else none

/-- An empty directory removed; never the root, which is where a mount
is. -/
def FileSystem.dropDir (fs : FileSystem) (r : Path) : Option FileSystem :=
  if fs.node r ≠ some .dir then none
  else if hr : r = [] then none
  else if he : fs.isEmptyDir r = true then
    some (fs.keepOnly (fun q => q != r) (root_kept hr) fun q n _ hq => parent_kept he q n hq)
  else none

namespace MountView

variable (v : MountView) (cwd : Path)

/-- `mkdir(raw, 0755)`. -/
def mkdir (raw : List Char) (denied : Bool) : Option MountView :=
  if denied then none
  else (resolveNewIn v.node cwd raw).bind fun r => v.edit r FileSystem.addDir

/-- `rmdir(raw)`. -/
def rmdir (raw : List Char) (denied : Bool) : Option MountView :=
  if denied then none
  else (v.resolve cwd raw).bind fun r => v.edit r FileSystem.dropDir

/-- `mount` of the second file system over a directory. Over the root it
is out of sight: paths start at the directory below. -/
def mount (raw : List Char) (denied : Bool) : Option MountView :=
  if denied then none
  else (v.resolve cwd raw).bind fun p =>
    if v.node p = some .dir ∧ v.layout = .plain then
      some { v with layout := if p = [] then .plain else .covering p }
    else none

/-- `pivot_root(new, old)`: the new root must be the mount's own
directory, and the old one goes below it. -/
def pivotRoot (new old : List Char) (denied : Bool) : Option MountView :=
  if denied then none
  else (v.resolve cwd new).bind fun p => (v.resolve cwd old).bind fun r =>
    if v.layout = .covering p ∧ p <+: r ∧ v.node r = some .dir then
      some { v with layout := if r = p then .alone else .turned (r.drop p.length) }
    else none

/-- `umount2(raw, MNT_DETACH)`. -/
def umountDetach (raw : List Char) (denied : Bool) : Option MountView :=
  if denied then none
  else (v.resolve cwd raw).bind fun p =>
    if v.layout = .covering p then some { v with layout := .plain }
    else if v.layout = .turned p then some { v with layout := .alone }
    else none

end MountView

/-! ## 4. What a call can do -/

theorem FileSystem.addDir_some {fs fs' : FileSystem} {r : Path} (h : fs.addDir r = some fs') :
    fs.node r = none ∧ ∀ q, fs'.node q = if q = r then some .dir else fs.node q := by
  unfold addDir at h
  cases hl : r.getLast? with
  | none =>
    rw [hl] at h
    simp at h
  | some n =>
    rw [hl] at h
    dsimp only at h
    split_ifs at h with hq hn
    obtain rfl := Option.some.inj h
    have hr := dropLast_getLast? hl
    rw [hr] at hn
    refine ⟨hn, fun q => ?_⟩
    rw [node_put, hr]

theorem FileSystem.dropDir_some {fs fs' : FileSystem} {r : Path} (h : fs.dropDir r = some fs') :
    fs.node r = some .dir ∧ r ≠ [] ∧ ∀ q, fs'.node q = if q = r then none else fs.node q := by
  unfold dropDir at h
  split_ifs at h with hdir hr he
  obtain rfl := Option.some.inj h
  refine ⟨by simpa using hdir, hr, fun q => ?_⟩
  rw [node_keepOnly]
  by_cases hq : q = r <;> simp [hq, bne]

theorem FileSystem.addDir_of {fs : FileSystem} {r : Path} {n : Name}
    (hdir : fs.node r = some .dir) (hnone : fs.node (r ++ [n]) = none) :
    ∃ fs', fs.addDir (r ++ [n]) = some fs' := by
  rw [addDir]
  simp [hdir, hnone]

/-- The same files, with the same contents. -/
def SameFiles (fs fs' : FileSystem) : Prop :=
  ∀ r c, fs'.node r = some (.file c) ↔ fs.node r = some (.file c)

theorem SameFiles.refl (fs : FileSystem) : SameFiles fs fs := fun _ _ => Iff.rfl

theorem SameFiles.trans {fs₁ fs₂ fs₃ : FileSystem} (h : SameFiles fs₁ fs₂)
    (h' : SameFiles fs₂ fs₃) : SameFiles fs₁ fs₃ :=
  fun r c => (h' r c).trans (h r c)

theorem FileSystem.sameFiles_addDir {fs fs' : FileSystem} {r : Path}
    (h : fs.addDir r = some fs') : SameFiles fs fs' := by
  obtain ⟨hnone, hnode⟩ := addDir_some h
  intro q c
  rw [hnode]
  by_cases hq : q = r
  · rw [if_pos hq, hq, hnone]
    simp
  · rw [if_neg hq]

theorem FileSystem.sameFiles_dropDir {fs fs' : FileSystem} {r : Path}
    (h : fs.dropDir r = some fs') : SameFiles fs fs' := by
  obtain ⟨hdir, -, hnode⟩ := dropDir_some h
  intro q c
  rw [hnode]
  by_cases hq : q = r
  · rw [if_pos hq, hq, hdir]
    simp
  · rw [if_neg hq]

namespace MountView

variable {v v' : MountView} {cwd r : Path} {raw : List Char} {denied : Bool}

/-- The root is a directory of whichever table it is in. -/
theorem node_root (v : MountView) : v.node [] = some .dir := by
  unfold node place
  cases v.layout with
  | plain => exact v.lower.node_root
  | alone => exact v.upper.node_root
  | covering p =>
    dsimp only
    split_ifs with hp
    · rw [List.drop_nil]
      exact v.upper.node_root
    · exact v.lower.node_root
  | turned q =>
    dsimp only
    split_ifs with hq
    · rw [List.drop_nil]
      exact v.lower.node_root
    · exact v.upper.node_root

section Over

variable {p : Path} (h : v.layout = .covering p)

include h

theorem place_below (s : Path) : v.place (p ++ s) = (false, s) := by
  rw [place, h]
  simp

theorem node_below (s : Path) : v.node (p ++ s) = v.upper.node s := by
  rw [node, place_below h]

theorem node_beside (hr : ¬ p <+: r) : v.node r = v.lower.node r := by
  have hplace : v.place r = (true, r) := by
    rw [place, h]
    simp [hr]
  rw [node, hplace]

end Over

/-- Short of a pivot, a path has its own place in the first table. -/
theorem place_eq (h : v.layout.isTurned = false) {q : Path} (hq : v.place r = (true, q)) :
    q = r := by
  unfold place at hq
  cases hlayout : v.layout with
  | plain =>
    rw [hlayout] at hq
    simpa using hq.symm
  | covering p =>
    rw [hlayout] at hq
    dsimp only at hq
    split_ifs at hq
    · simp at hq
    · simpa using hq.symm
  | turned p => simp [hlayout, Layout.isTurned] at h
  | alone => simp [hlayout, Layout.isTurned] at h

/-- An edit changes one of the tables, at the path's place in it. -/
theorem edit_some {change : FileSystem → Path → Option FileSystem}
    (h : v.edit r change = some v') :
    v'.layout = v.layout ∧
      ((∃ q, v.place r = (true, q) ∧ change v.lower q = some v'.lower ∧ v'.upper = v.upper) ∨
        (∃ q, v.place r = (false, q) ∧ change v.upper q = some v'.upper ∧ v'.lower = v.lower)) := by
  unfold edit at h
  split at h
  · rename_i q hplace
    obtain ⟨fs, hfs, rfl⟩ := Option.map_eq_some_iff.mp h
    exact ⟨rfl, Or.inl ⟨q, hplace, hfs, rfl⟩⟩
  · rename_i q hplace
    obtain ⟨fs, hfs, rfl⟩ := Option.map_eq_some_iff.mp h
    exact ⟨rfl, Or.inr ⟨q, hplace, hfs, rfl⟩⟩

/-- Both tables keep their files. -/
def Keeps (v v' : MountView) : Prop :=
  SameFiles v.lower v'.lower ∧ SameFiles v.upper v'.upper

theorem Keeps.refl (v : MountView) : v.Keeps v := ⟨.refl _, .refl _⟩

theorem Keeps.trans {v₁ v₂ v₃ : MountView} (h : v₁.Keeps v₂) (h' : v₂.Keeps v₃) : v₁.Keeps v₃ :=
  ⟨h.1.trans h'.1, h.2.trans h'.2⟩

theorem keeps_edit {change : FileSystem → Path → Option FileSystem}
    (hchange : ∀ {fs fs' : FileSystem} {q : Path}, change fs q = some fs' → SameFiles fs fs')
    (h : v.edit r change = some v') : v.Keeps v' := by
  obtain ⟨-, ⟨q, -, hfs, hupper⟩ | ⟨q, -, hfs, hlower⟩⟩ := edit_some h
  · exact ⟨hchange hfs, hupper ▸ .refl _⟩
  · exact ⟨hlower ▸ .refl _, hchange hfs⟩

theorem mkdir_some (h : v.mkdir cwd raw denied = some v') :
    denied = false ∧ ∃ r, resolveNewIn v.node cwd raw = some r ∧
      v.edit r FileSystem.addDir = some v' := by
  unfold mkdir at h
  cases denied with
  | true => simp at h
  | false =>
    obtain ⟨r, hr, hedit⟩ := Option.bind_eq_some_iff.mp h
    exact ⟨rfl, r, hr, hedit⟩

theorem rmdir_some (h : v.rmdir cwd raw denied = some v') :
    denied = false ∧ ∃ r, v.resolve cwd raw = some r ∧
      v.edit r FileSystem.dropDir = some v' := by
  unfold rmdir at h
  cases denied with
  | true => simp at h
  | false =>
    obtain ⟨r, hr, hedit⟩ := Option.bind_eq_some_iff.mp h
    exact ⟨rfl, r, hr, hedit⟩

theorem mount_some (h : v.mount cwd raw denied = some v') :
    denied = false ∧ ∃ p, v.resolve cwd raw = some p ∧ v.node p = some .dir ∧
      v.layout = .plain ∧ v' = { v with layout := if p = [] then .plain else .covering p } := by
  unfold mount at h
  cases denied with
  | true => simp at h
  | false =>
    obtain ⟨p, hp, h⟩ := Option.bind_eq_some_iff.mp h
    obtain ⟨⟨hdir, hplain⟩, h⟩ := Option.ite_none_right_eq_some.mp h
    exact ⟨rfl, p, hp, hdir, hplain, (Option.some.inj h).symm⟩

theorem pivotRoot_some {old : List Char} (h : v.pivotRoot cwd raw old denied = some v') :
    denied = false ∧ ∃ p r, v.resolve cwd raw = some p ∧ v.resolve cwd old = some r ∧
      v.layout = .covering p ∧ p <+: r ∧ v.node r = some .dir ∧
      v' = { v with layout := if r = p then .alone else .turned (r.drop p.length) } := by
  unfold pivotRoot at h
  cases denied with
  | true => simp at h
  | false =>
    obtain ⟨p, hp, h⟩ := Option.bind_eq_some_iff.mp h
    obtain ⟨r, hr, h⟩ := Option.bind_eq_some_iff.mp h
    obtain ⟨⟨hover, hpre, hdir⟩, h⟩ := Option.ite_none_right_eq_some.mp h
    exact ⟨rfl, p, r, hp, hr, hover, hpre, hdir, (Option.some.inj h).symm⟩

/-- A new directory takes no other one away. -/
theorem node_of_addDir (h : v.edit r FileSystem.addDir = some v') (q : Path)
    (hq : v.node q = some .dir) : v'.node q = some .dir := by
  obtain ⟨hlayout, hcases⟩ := edit_some h
  have hplace : v'.place q = v.place q := by rw [place, place, hlayout]
  have hmono : ∀ {fs fs' : FileSystem} {s t : Path}, fs.addDir s = some fs' →
      fs.node t = some .dir → fs'.node t = some .dir := by
    intro fs fs' s t hadd ht
    obtain ⟨hnone, hnode⟩ := FileSystem.addDir_some hadd
    rw [hnode, ht]
    simp
  unfold node at hq ⊢
  rw [hplace]
  obtain ⟨s, -, hadd, hupper⟩ | ⟨s, -, hadd, hlower⟩ := hcases
  · cases hside : v.place q with
    | mk first t =>
      cases first with
      | true => simpa [hside] using hmono hadd (by simpa [hside] using hq)
      | false => simpa [hside, hupper] using hq
  · cases hside : v.place q with
    | mk first t =>
      cases first with
      | true => simpa [hside, hlower] using hq
      | false => simpa [hside] using hmono hadd (by simpa [hside] using hq)

theorem umountDetach_some (h : v.umountDetach cwd raw denied = some v') :
    ∃ p, v.resolve cwd raw = some p ∧
      ((v.layout = .covering p ∧ v' = { v with layout := .plain }) ∨
        (v.layout = .turned p ∧ v' = { v with layout := .alone })) := by
  unfold umountDetach at h
  cases denied with
  | true => simp at h
  | false =>
    obtain ⟨p, hp, h⟩ := Option.bind_eq_some_iff.mp h
    split_ifs at h with hover hturned
    · exact ⟨p, hp, Or.inl ⟨hover, (Option.some.inj h).symm⟩⟩
    · exact ⟨p, hp, Or.inr ⟨hturned, (Option.some.inj h).symm⟩⟩

end MountView

end DockerClone.Os
