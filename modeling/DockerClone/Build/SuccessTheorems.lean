/-
DockerClone.Build.SuccessTheorems — which dockerfiles build.

`mkdir` makes one directory, so a WORKDIR or VOLUME succeeds only below
the directories that earlier ones made; and the copy of the layer needs
something to copy. For dockerfiles without RUN, COPY and ADD whose
directories keep to the layer these two are the conditions, besides what
stands in the image directories already (`build_succeeds_iff`).

`Reached` is the invariant of the loop: the layer is what the effects of
the instructions so far make of an empty directory.
-/
import DockerClone.Build.StepTheorems
import DockerClone.Build.HistoryTheorems
import DockerClone.Image.SuccessTheorems

namespace DockerClone.Build

open DockerClone.CLib DockerClone.Os DockerClone.Os.FileSystem DockerClone.Image

/-! ## 1. Paths of directories -/

/-- What of an argument fits behind the layer's path. -/
def fitting (arg : List Char) : List Char :=
  arg.take (Build.MAX_PATH_LEN - 1 - buildLayerPath.length)

/-- The components of the path, slashes at its end aside. -/
def components (arg : List Char) : List Name :=
  ((fitting arg).splitOn '/').rdropWhile (fun c => c = [])

/-- The directory a WORKDIR or VOLUME makes, from the layer's. -/
def targetOf (arg : List Char) : Path := names (components arg)

/-- The directory it is made in. -/
def parentOf (arg : List Char) : Path := names (components arg).dropLast

/-- An absolute path without `..` that leads into none of these
entries. -/
structure PlainPath (own : List Name) (arg : List Char) : Prop where
  absolute : arg.head? = some '/'
  no_dots : ['.', '.'] ∉ components arg
  apart : ∀ n ∈ own, (targetOf arg).head? ≠ some n

instance (own : List Name) (arg : List Char) : Decidable (PlainPath own arg) :=
  decidable_of_iff (arg.head? = some '/' ∧ (∀ c ∈ components arg, c ≠ ['.', '.']) ∧
      ∀ n ∈ own, (targetOf arg).head? ≠ some n)
    ⟨fun h => ⟨h.1, fun hm => h.2.1 _ hm rfl, h.2.2⟩,
      fun h => ⟨h.absolute, fun _ hm he => h.no_dots (he ▸ hm), h.apart⟩⟩

section Paths

variable {arg : List Char} {fs : FileSystem} {cwd : Path}

theorem gluedPath_eq (arg : List Char) :
    gluedPath buildLayerPath arg = absPath scratchDir ++ fitting arg := by
  have hshort : buildLayerPath.length ≤ Build.MAX_PATH_LEN - 1 := by decide
  rw [gluedPath, snprintf, List.take_append, List.take_of_length_le hshort, ← buildLayerPath_eq,
    fitting]

theorem rdropWhile_behind {α : Type} {p : α → Bool} {b : α} (hb : p b = false) (xs ys : List α) :
    (xs ++ [b] ++ ys).rdropWhile p = xs ++ [b] ++ ys.rdropWhile p := by
  induction ys using List.reverseRecOn with
  | nil => rw [List.append_nil, List.rdropWhile_nil, List.append_nil,
      List.rdropWhile_concat_neg _ _ _ (by simp [hb])]
  | append_singleton ys y ih =>
    rw [← List.append_assoc]
    by_cases hy : p y = true
    · rw [List.rdropWhile_concat_pos _ _ _ hy, List.rdropWhile_concat_pos _ _ _ hy, ih]
    · rw [List.rdropWhile_concat_neg _ _ _ hy, List.rdropWhile_concat_neg _ _ _ hy,
        List.append_assoc]

/-- How the components of the whole path split: those of the layer's
directory and those behind it. -/
theorem components_glued (habs : arg.head? = some '/') : ∃ behind : List Name,
    ((gluedPath buildLayerPath arg).splitOn '/').rdropWhile (fun c => c = [])
        = ([] :: scratchDir) ++ behind ∧
      targetOf arg = names behind ∧ parentOf arg = names behind.dropLast ∧
      ∀ c, c ≠ [] → (c ∈ components arg ↔ c ∈ behind) := by
  obtain ⟨rest, hrest⟩ : ∃ rest, fitting arg = '/' :: rest := by
    obtain ⟨c, tail, rfl⟩ := List.exists_cons_of_ne_nil (l := arg) (by rintro rfl; simp at habs)
    obtain rfl : c = '/' := by simpa using habs
    exact ⟨_, rfl⟩
  refine ⟨(rest.splitOn '/').rdropWhile (fun c => c = []), ?_, ?_⟩
  · have hlast : ([] :: scratchDir) = ([] :: ["tmp".toList]) ++ ["docker-build-layer".toList] := rfl
    rw [gluedPath_eq, hrest, List.splitOn_append_cons_self, splitOn_absPath ordinary_scratchDir,
      hlast, rdropWhile_behind (by decide)]
  · have hcomponents : components arg
        = if (rest.splitOn '/').rdropWhile (fun c => decide (c = [])) = [] then []
          else [] :: (rest.splitOn '/').rdropWhile (fun c => decide (c = [])) := by
      have hsplit : (fitting arg).splitOn '/' = [] :: rest.splitOn '/' := by
        have := List.splitOn_append_cons_self (a := '/') [] rest
        rw [List.nil_append, ← hrest] at this
        simpa using this
      rw [components, hsplit, rdropWhile_cons]
      simp
    rw [targetOf, parentOf, hcomponents]
    split
    · rename_i hnil
      rw [hnil]
      exact ⟨rfl, rfl, fun _ _ => Iff.rfl⟩
    · rename_i hne
      refine ⟨rfl, ?_, fun c hc => ?_⟩
      · obtain ⟨c, cs, hcs⟩ := List.exists_cons_of_ne_nil hne
        rw [hcs]
        rfl
      · rw [List.mem_cons, or_iff_right hc]

/-- Where the path leads. -/
theorem normalize_glued {own : List Name} (h : PlainPath own arg) :
    normalize (gluedPath buildLayerPath arg) = scratchDir ++ targetOf arg := by
  obtain ⟨behind, hsplit, htarget, -, hmem⟩ := components_glued h.absolute
  have hdots : ['.', '.'] ∉ behind := fun hm => h.no_dots ((hmem _ (by simp)).mpr hm)
  have hlead : follow [] ([] :: scratchDir) = scratchDir := by
    rw [follow, if_pos (Or.inl rfl), follow_ordinary ordinary_scratchDir, List.nil_append]
  rw [FileSystem.normalize, ← follow_rdropWhile, hsplit, follow_append, hlead,
    follow_names hdots, htarget]

/-- The path resolves exactly when its parent is a directory. -/
theorem resolveNew_glued {own : List Name} (cwd : Path) (h : PlainPath own arg)
    (hdir : fs.node scratchDir = some .dir) :
    (∃ p, fs.resolveNew cwd (gluedPath buildLayerPath arg) = .ok p) ↔
      fs.node (scratchDir ++ parentOf arg) = some .dir := by
  obtain ⟨behind, hsplit, -, hparent, hmem⟩ := components_glued h.absolute
  have hdots : ['.', '.'] ∉ behind := fun hm => h.no_dots ((hmem _ (by simp)).mpr hm)
  have habs : (gluedPath buildLayerPath arg).head? = some '/' := by
    rw [gluedPath_eq]
    rfl
  have hne : gluedPath buildLayerPath arg ≠ [] := by
    intro hnil
    rw [hnil] at habs
    simp at habs
  rw [resolveNew, if_neg hne, if_pos habs, hsplit, walk_append,
    walk_absolute ordinary_scratchDir hdir, hparent]
  show (∃ p, fs.walk scratchDir behind = .ok p) ↔ _
  rw [walk_names fs hdots]
  refine or_iff_right_of_imp ?_
  rintro rfl
  rw [List.dropLast_nil]
  simpa [names] using hdir

theorem parentOf_prefix (arg : List Char) : parentOf arg <+: targetOf arg := by
  rw [parentOf, targetOf]
  cases hl : (components arg).getLast? with
  | none => rw [List.getLast?_eq_none_iff.mp hl]; exact List.prefix_refl _
  | some c =>
    obtain ⟨init, hinit⟩ := List.getLast?_eq_some_iff.mp hl
    rw [hinit, List.dropLast_concat, names_append]
    exact List.prefix_append _ _

/-- A parent that is not the layer itself leads into no entry the target
keeps out of. -/
theorem PlainPath.parent_apart {own : List Name} (h : PlainPath own arg) {n : Name} {r : Path}
    (hparent : parentOf arg = n :: r) : n ∉ own := by
  intro hm
  refine h.apart n hm ?_
  obtain ⟨rest, hrest⟩ := parentOf_prefix arg
  rw [← hrest, hparent]
  rfl

end Paths

/-! ## 2. Steps -/

/-- The files that the build and `create_image` put into a layer. -/
def ownFiles (now : Int64) : List Name :=
  layerFiles.map String.toList ++ [generateLayerId now ++ ".json".toList]

/-- Neither a command nor a copy, and no directory in the way of a
file. -/
structure PlainInstruction (own : List Name) (i : DockerfileInstruction) : Prop where
  type : i.type ∈ [InstructionType.FROM, .LABEL, .ENV, .EXPOSE, .USER, .CMD, .ENTRYPOINT, .WORKDIR,
    .VOLUME]
  path : i.type = .WORKDIR ∨ i.type = .VOLUME → PlainPath own (cstr i.args)

instance (own : List Name) (i : DockerfileInstruction) : Decidable (PlainInstruction own i) :=
  decidable_of_iff (i.type ∈ [InstructionType.FROM, .LABEL, .ENV, .EXPOSE, .USER, .CMD,
        .ENTRYPOINT, .WORKDIR, .VOLUME] ∧
      (i.type = .WORKDIR ∨ i.type = .VOLUME → PlainPath own (cstr i.args)))
    ⟨fun h => ⟨h.1, h.2⟩, fun h => ⟨h.type, h.path⟩⟩

/-- Every directory is made in one of these or in one made before it. -/
def parentsMade : List Path → List DockerfileInstruction → Bool
  | _, [] => true
  | done, i :: rest =>
      if i.type.action = .make then
        decide (parentOf (cstr i.args) ∈ done) && parentsMade (targetOf (cstr i.args) :: done) rest
      else parentsMade done rest

/-- The instruction leaves something in the layer that `*` finds. -/
def leavesVisible (i : DockerfileInstruction) : Bool :=
  match i.type.action with
  | .append _ => true
  | .write _ => true
  | .make => (targetOf (cstr i.args)).head?.any visible
  | _ => false

/-- The layer during a build: the directories made so far, and files with
the layer's own names. -/
structure Reached (own : List Name) (done : List Path) (fs : FileSystem) : Prop where
  dirs : ∀ r : Path, (∀ n ∈ own, r.head? ≠ some n) →
    fs.node (scratchDir ++ r) = if r ∈ done then some .dir else none
  files : ∀ n ∈ own, fs.node (scratchDir ++ [n]) ≠ some .dir
  root : [] ∈ done

section Steps

variable {own : List Name} {done : List Path} {i : DockerfileInstruction} {p p' : Process}
  {env : StepEnv} {contextPath : List Char}

theorem PlainInstruction.action (h : PlainInstruction own i) :
    i.type.action ≠ .copy ∧ i.type.action ≠ .run := by
  have htype := h.type
  revert htype
  cases i.type <;> decide

theorem PlainInstruction.makes (h : PlainInstruction own i) (hmake : i.type.action = .make) :
    PlainPath own (cstr i.args) :=
  h.path (make_iff.mp hmake)

theorem Reached.dir (h : Reached own done p.fs) : p.fs.node scratchDir = some .dir := by
  have hroot := h.dirs [] (by simp)
  rw [if_pos h.root, List.append_nil] at hroot
  exact hroot

theorem layerFilePath_eq {file : List Char} (hfile : Ordinary file ∧ file.length ≤ 13) :
    layerFilePath buildLayerPath file = absPath (scratchDir ++ [file]) := by
  have hshort : buildLayerPath.length ≤ 475 := by decide
  rw [layerFilePath, snprintf_of_lt, absPath_concat, ← buildLayerPath_eq]
  simp only [List.length_append, List.length_cons, Build.MAX_PATH_LEN]
  omega

/-- A file of the layer is written. -/
theorem writeLine_zero {file text : List Char} (hdenied : env.denied = false)
    (hfile : Ordinary file ∧ file.length ≤ 13) (hdir : p.fs.node scratchDir = some .dir)
    (hfree : p.fs.node (scratchDir ++ [file]) ≠ some .dir) :
    (writeLine file text buildLayerPath env.denied p).1 = 0 := by
  have hopen : (p.openWrite (layerFilePath buildLayerPath file) env.denied (text ++ ['\n'])).isSome
      = true := by
    rw [Process.openWrite_isSome, layerFilePath_eq hfile,
      openWrite_absPath _ _ ordinary_scratchDir hfile.1]
    exact ⟨hdenied, hdir, hfree⟩
  obtain ⟨p', hp'⟩ := Option.isSome_iff_exists.mp hopen
  rw [writeLine, hp']

theorem appendLine_zero {file text : List Char} (hdenied : env.denied = false)
    (hfile : Ordinary file ∧ file.length ≤ 13) (hdir : p.fs.node scratchDir = some .dir)
    (hfree : p.fs.node (scratchDir ++ [file]) ≠ some .dir) :
    (appendLine file text buildLayerPath env.denied p).1 = 0 := by
  obtain ⟨fs, hopen⟩ : ∃ fs, p.fs.openAppend p.cwd (layerFilePath buildLayerPath file) env.denied
      (text ++ ['\n']) = .ok fs := by
    rw [layerFilePath_eq hfile]
    exact (openWrite_absPath _ _ ordinary_scratchDir hfile.1 _ _).mpr ⟨hdenied, hdir, hfree⟩
  have happend : p.openAppend (layerFilePath buildLayerPath file) env.denied (text ++ ['\n'])
      = some (p.called (.write (layerFilePath buildLayerPath file) (text ++ ['\n'])) fs) := by
    rw [Process.openAppend, hopen]
  rw [appendLine, happend]

/-- A directory is made exactly when the one it goes into is there. -/
theorem makeDirectory_zero_iff {arg : List Char} (hdenied : env.denied = false)
    (h : PlainPath own arg) (hreached : Reached own done p.fs) :
    (makeDirectory arg buildLayerPath env.denied p).1 = 0 ↔ parentOf arg ∈ done := by
  have hparent : p.fs.node (scratchDir ++ parentOf arg) = some .dir ↔ parentOf arg ∈ done := by
    rw [hreached.dirs]
    · simp
    · intro n hn hhead
      cases hp : parentOf arg with
      | nil =>
        rw [hp] at hhead
        simp at hhead
      | cons m r =>
        rw [hp] at hhead
        exact h.parent_apart hp (Option.some.inj hhead ▸ hn)
  rw [← hparent, ← resolveNew_glued p.cwd h hreached.dir]
  have hmk : (p.fs.mkdirExistOk p.cwd (gluedPath buildLayerPath arg) env.denied).isSome = true ↔ _ :=
    mkdirExistOk_isSome_iff
  rw [← Process.mkdirExistOk_isSome, hdenied] at hmk
  have hzero : (makeDirectory arg buildLayerPath env.denied p).1 = 0
      ↔ (p.mkdirExistOk (gluedPath buildLayerPath arg) false).isSome = true := by
    rw [makeDirectory, hdenied]
    cases p.mkdirExistOk (gluedPath buildLayerPath arg) false with
    | none => simp
    | some p' => simp
  rw [hzero, hmk, and_iff_right rfl]

/-- A step succeeds unless it makes a directory whose parent is not
there. -/
theorem executeInstruction_zero_iff (contextPath : List Char) (hown : ∀ f ∈ layerFiles, f.toList ∈ own)
    (hdenied : env.denied = false) (h : PlainInstruction own i)
    (hreached : Reached own done p.fs) :
    (executeInstruction i contextPath buildLayerPath env p).1 = 0 ↔
      (i.type.action = .make → parentOf (cstr i.args) ∈ done) := by
  rw [executeInstruction_eq]
  cases haction : i.type.action with
  | print => simp
  | copy => exact absurd haction h.action.1
  | run => exact absurd haction h.action.2
  | append file =>
    have hfile := append_mem_layerFiles haction
    refine iff_of_true ?_ (by simp)
    exact appendLine_zero hdenied (ordinary_of_layerFile hfile) hreached.dir
      (hreached.files _ (hown file hfile))
  | write file =>
    have hfile := write_mem_layerFiles haction
    refine iff_of_true ?_ (by simp)
    exact writeLine_zero hdenied (ordinary_of_layerFile hfile) hreached.dir
      (hreached.files _ (hown file hfile))
  | make =>
    simp only [true_implies]
    exact makeDirectory_zero_iff hdenied (h.makes haction) hreached

/-- The directories made after an instruction. -/
def madeAfter (done : List Path) (i : DockerfileInstruction) : List Path :=
  if i.type.action = .make then targetOf (cstr i.args) :: done else done

/-- Writing a file with one of the layer's own names keeps the
invariant. -/
theorem Reached.wrote {n : Name} {e : Effect} {fs fs' : FileSystem} (h : Reached own done fs)
    (hn : n ∈ own) (hplace : e.place = some (scratchDir ++ [n]))
    (hfile : ∀ x, e.leaves (scratchDir ++ [n]) x ≠ some .dir) (hleads : e.Leads fs fs') :
    Reached own done fs' where
  dirs := by
    intro r hr
    rw [hleads, Effect.leaves_elsewhere, h.dirs r hr]
    rw [hplace]
    intro he
    have hr' := List.append_cancel_left (Option.some.inj he)
    exact hr n hn (by rw [← hr']; rfl)
  files := by
    intro m hm
    rw [hleads]
    by_cases hmn : m = n
    · rw [hmn]
      exact hfile _
    · rw [Effect.leaves_elsewhere]
      · exact h.files m hm
      · rw [hplace]
        intro he
        exact hmn (List.singleton_inj.mp (List.append_cancel_left (Option.some.inj he))).symm
  root := h.root

/-- So does making a directory elsewhere. -/
theorem Reached.made {d : Path} {fs fs' : FileSystem} (h : Reached own done fs)
    (hd : ∀ n ∈ own, d.head? ≠ some n) (hleads : (Effect.make (scratchDir ++ d)).Leads fs fs') :
    Reached own (d :: done) fs' where
  dirs := by
    intro r hr
    rw [hleads, Effect.leaves, h.dirs r hr]
    by_cases hrd : r = d
    · rw [hrd, if_pos List.mem_cons_self]
      by_cases hdone : d ∈ done
      · rw [if_pos hdone, if_neg (by simp)]
      · rw [if_neg hdone, if_pos ⟨rfl, rfl⟩]
    · rw [if_neg fun hboth => hrd (List.append_cancel_left hboth.1)]
      simp only [List.mem_cons, or_iff_right hrd]
  files := by
    intro n hn
    rw [hleads, Effect.leaves, if_neg]
    · exact h.files n hn
    · rintro ⟨he, -⟩
      exact hd n hn (by rw [← List.append_cancel_left he]; rfl)
  root := List.mem_cons_of_mem _ h.root

theorem executeInstruction_reached (hown : ∀ f ∈ layerFiles, f.toList ∈ own)
    (h : PlainInstruction own i) (hreached : Reached own done p.fs)
    (hstep : executeInstruction i contextPath buildLayerPath env p = (0, p')) :
    Reached own (madeAfter done i) p'.fs := by
  have hrun : i.type ≠ .RUN := fun hrun => h.action.2 (run_iff.mpr hrun)
  have hechoes : i.type = .RUN → env.shell.Echoes id := fun he => absurd he hrun
  obtain ⟨-, hleads⟩ := executeInstruction_leads buildLayerPath_layerPath hechoes
    (fun he => absurd he hrun) hstep
  rw [effect, normalize_buildLayerPath] at hleads
  rw [madeAfter]
  cases haction : i.type.action with
  | print =>
    rw [haction] at hleads
    rw [if_neg (by simp)]
    exact ⟨fun r hr => by rw [hleads]; exact hreached.dirs r hr,
      fun n hn => by rw [hleads]; exact hreached.files n hn, hreached.root⟩
  | copy => exact absurd haction h.action.1
  | run => exact absurd haction h.action.2
  | append file =>
    rw [haction] at hleads
    rw [if_neg (by simp)]
    refine hreached.wrote (hown file (append_mem_layerFiles haction)) rfl (fun x => ?_) hleads
    rw [Effect.leaves, if_pos rfl]
    simp
  | write file =>
    rw [haction] at hleads
    rw [if_neg (by simp)]
    refine hreached.wrote (hown file (write_mem_layerFiles haction)) rfl (fun x => ?_) hleads
    rw [Effect.leaves, if_pos rfl]
    simp
  | make =>
    rw [haction] at hleads
    have hpath := h.makes haction
    simp only [normalize_glued hpath] at hleads
    rw [if_pos rfl]
    exact hreached.made hpath.apart hleads

/-- The loop comes to its end exactly when every directory has its
parent. -/
theorem executeInstructions_zero_iff (hown : ∀ f ∈ layerFiles, f.toList ∈ own)
    {env : Nat → StepEnv} (hdenied : ∀ k, (env k).denied = false) :
    ∀ {is : List DockerfileInstruction} {done : List Path} {k : Nat} {p : Process},
      (∀ i ∈ is, PlainInstruction own i) → Reached own done p.fs →
      ((executeInstructions contextPath buildLayerPath env k is p).1 = 0 ↔
        parentsMade done is = true)
  | [], _, _, _, _, _ => iff_of_true rfl rfl
  | i :: is, done, k, p, hplain, hreached => by
      have hi := hplain i (by simp)
      have hzero := executeInstruction_zero_iff contextPath hown (hdenied k) hi hreached
      rw [executeInstructions]
      by_cases hstep : (executeInstruction i contextPath buildLayerPath (env k) p).1 = 0
      · obtain ⟨p', hp'⟩ := Process.exists_of_result hstep
        have ih := executeInstructions_zero_iff hown hdenied (k := k + 1)
          (fun j hj => hplain j (List.mem_cons_of_mem i hj))
          (executeInstruction_reached hown hi hreached hp')
        have hmake := hzero.mp hstep
        rw [if_neg (not_not.mpr hstep), hp', ih, parentsMade, madeAfter]
        split
        · rename_i haction
          simp [hmake haction]
        · rfl
      · rw [if_pos hstep, parentsMade]
        refine iff_of_false (by simp) ?_
        have hno := mt hzero.mpr hstep
        rw [Classical.not_imp] at hno
        rw [if_pos hno.1]
        simp [hno.2]

end Steps

/-! ## 3. Layers -/

section Layer

variable {own : List Name} {dockerfile : Dockerfile} {contextPath : List Char} {env : BuildEnv}
  {p p' : Process}

/-- The layer before the first step. -/
theorem reached_start {fs fs' : FileSystem} (hscratch : fs.node scratchDir = none)
    (hleads : (Effect.make scratchDir).Leads fs fs') : Reached own [[]] fs' where
  dirs := by
    intro r _
    rw [hleads, fs.node_below_missing hscratch r, Effect.leaves]
    simp
  files := by
    intro n _
    rw [hleads, fs.node_below_missing hscratch [n], Effect.leaves, if_neg (by simp)]
    simp
  root := List.mem_singleton.mpr rfl

/-- The steps of a build come to their end. -/
theorem buildLayer_zero_iff (contextPath : List Char) (hown : ∀ f ∈ layerFiles, f.toList ∈ own)
    (hmkdir : env.mkdirDenied = false) (hdenied : ∀ k, (env.step k).denied = false)
    (hplain : ∀ i ∈ dockerfile.instructions, PlainInstruction own i)
    (hscratch : p.fs.node scratchDir = none) :
    (buildLayer dockerfile contextPath env p).1 = 0 ↔
      p.fs.node ["tmp".toList] = some .dir ∧ parentsMade [[]] dockerfile.instructions = true := by
  have hmk := mkdirExistOk_absPath (q := ["tmp".toList]) (n := "docker-build-layer".toList) p.fs
    p.cwd (by decide) (by decide) env.mkdirDenied
  have hpath : absPath (["tmp".toList] ++ ["docker-build-layer".toList]) = buildLayerPath :=
    buildLayerPath_eq.symm
  rw [hpath, ← Process.mkdirExistOk_isSome, hmkdir] at hmk
  rw [buildLayer, hmkdir]
  cases hmade : p.mkdirExistOk buildLayerPath false with
  | none =>
    rw [hmade] at hmk
    refine iff_of_false (by simp) fun hall => ?_
    rw [hall.1] at hmk
    simp at hmk
  | some p₁ =>
    rw [hmade] at hmk
    have htmp : p.fs.node ["tmp".toList] = some .dir := by simpa using hmk
    have hleads := mkdirExistOk_leads hmade
    rw [leadsTo_absolute buildLayerPath_layerPath.absolute, normalize_buildLayerPath] at hleads
    rw [and_iff_right htmp]
    exact executeInstructions_zero_iff hown hdenied hplain (reached_start hscratch hleads)

/-- What a build that comes to its end has left at a path. -/
theorem buildLayer_plain (hplain : ∀ i ∈ dockerfile.instructions, PlainInstruction own i)
    (h : buildLayer dockerfile contextPath env p = (0, p')) (q : Path) :
    p'.fs.node q = Effect.leavesAll (dockerfile.effects id) q (p.fs.node q) := by
  have hrun : ∀ i ∈ dockerfile.instructions, i.type ≠ .RUN :=
    fun i hi he => (hplain i hi).action.2 (run_iff.mpr he)
  exact (buildLayer_leads (fun i hi he => absurd he (hrun i hi)) (plainRun_of_noRun hrun) h).2 q

/-- Where an instruction writes in the layer. -/
def placeIn (i : DockerfileInstruction) : Option Path :=
  match i.type.action with
  | .append file => some [file.toList]
  | .write file => some [file.toList]
  | .make => some (targetOf (cstr i.args))
  | _ => none

theorem effect_place {i : DockerfileInstruction} (h : PlainInstruction own i) :
    (effect id buildLayerPath i).place = (placeIn i).map (scratchDir ++ ·) := by
  rw [effect, placeIn, normalize_buildLayerPath]
  cases haction : i.type.action with
  | run => exact absurd haction h.action.2
  | make => rw [normalize_glued (h.makes haction)]; rfl
  | _ => rfl

/-- It writes one of the layer's files or makes a directory. -/
theorem placeIn_cases {i : DockerfileInstruction} {r : Path} (h : placeIn i = some r) :
    (∃ file ∈ layerFiles, r = [file.toList]) ∨
      i.type.action = .make ∧ r = targetOf (cstr i.args) := by
  rw [placeIn] at h
  cases haction : i.type.action with
  | append file =>
    rw [haction] at h
    exact Or.inl ⟨file, append_mem_layerFiles haction, (Option.some.inj h).symm⟩
  | write file =>
    rw [haction] at h
    exact Or.inl ⟨file, write_mem_layerFiles haction, (Option.some.inj h).symm⟩
  | make =>
    rw [haction] at h
    exact Or.inr ⟨rfl, (Option.some.inj h).symm⟩
  | _ => rw [haction] at h; simp at h

/-- Only `mkdir` has its place at the layer's directory itself. -/
theorem effect_at_root {i : DockerfileInstruction} (h : PlainInstruction own i)
    (hplace : (effect id buildLayerPath i).place = some scratchDir) :
    effect id buildLayerPath i = .make scratchDir := by
  rw [effect_place h] at hplace
  obtain ⟨r, hr, hroot⟩ := Option.map_eq_some_iff.mp hplace
  have hnil : r = [] := List.append_right_eq_self.mp hroot
  rcases placeIn_cases hr with ⟨file, -, hfile⟩ | ⟨haction, htarget⟩
  · rw [hnil] at hfile
    simp at hfile
  · rw [effect, haction]
    simp only
    rw [normalize_glued (h.makes haction), ← htarget, hnil, List.append_nil]

/-- No file of an instruction is named like a layer's metadata. -/
theorem generateLayerId_ne {now : Int64} {file : String} (h : file ∈ layerFiles) :
    file.toList ≠ generateLayerId now ++ ".json".toList := by
  have hshort := (ordinary_of_layerFile h).2
  intro he
  have hlen := congrArg List.length he
  have hjson : ".json".toList.length = 5 := by decide
  rw [List.length_append, generateLayerId_length, hjson] at hlen
  omega

/-- Nothing outside the scratch directory changes. -/
theorem buildLayer_outside (hplain : ∀ i ∈ dockerfile.instructions, PlainInstruction own i)
    (h : buildLayer dockerfile contextPath env p = (0, p')) {q : Path} (hq : ¬ scratchDir <+: q) :
    p'.fs.node q = p.fs.node q := by
  rw [buildLayer_plain hplain h, Effect.leavesAll_elsewhere]
  intro e he
  rcases List.mem_cons.mp he with rfl | he
  · intro hplace
    rw [← Option.some.inj hplace] at hq
    exact hq (List.prefix_refl _)
  · obtain ⟨i, hi, rfl⟩ := List.mem_map.mp he
    rw [effect_place (hplain i hi)]
    cases placeIn i with
    | none => simp
    | some r =>
      intro hplace
      rw [← Option.some.inj hplace] at hq
      exact hq (List.prefix_append _ _)

/-- What lies below the scratch directory was put there by an
instruction. -/
theorem buildLayer_inside (hplain : ∀ i ∈ dockerfile.instructions, PlainInstruction own i)
    (hscratch : p.fs.node scratchDir = none)
    (h : buildLayer dockerfile contextPath env p = (0, p')) {r : Path} (hr : r ≠ []) :
    p'.fs.node (scratchDir ++ r) ≠ none ↔ ∃ i ∈ dockerfile.instructions, placeIn i = some r := by
  rw [buildLayer_plain hplain h, p.fs.node_below_missing hscratch r, Effect.leavesAll_ne_none,
    Dockerfile.effects, or_iff_right (by simp)]
  constructor
  · rintro ⟨e, he, hplace⟩
    rcases List.mem_cons.mp he with rfl | he
    · have hself : scratchDir ++ [] = scratchDir ++ r := by
        rw [List.append_nil]
        exact Option.some.inj hplace
      exact absurd (List.append_cancel_left hself).symm hr
    · obtain ⟨i, hi, rfl⟩ := List.mem_map.mp he
      refine ⟨i, hi, ?_⟩
      rw [effect_place (hplain i hi)] at hplace
      obtain ⟨r', hr', heq⟩ := Option.map_eq_some_iff.mp hplace
      rw [hr', List.append_cancel_left heq]
  · rintro ⟨i, hi, hplace⟩
    refine ⟨effect id buildLayerPath i, List.mem_cons_of_mem _ (List.mem_map_of_mem hi), ?_⟩
    rw [effect_place (hplain i hi), hplace]
    rfl

/-- The layer has something that `*` finds. -/
theorem buildLayer_visible (hplain : ∀ i ∈ dockerfile.instructions, PlainInstruction own i)
    (hscratch : p.fs.node scratchDir = none)
    (h : buildLayer dockerfile contextPath env p = (0, p')) :
    (∃ n, visible n = true ∧ p'.fs.node (scratchDir ++ [n]) ≠ none) ↔
      dockerfile.instructions.any leavesVisible = true := by
  have hfile : ∀ f ∈ layerFiles, visible f.toList = true := by decide
  rw [List.any_eq_true]
  constructor
  · rintro ⟨n, hn, hnode⟩
    obtain ⟨i, hi, hplace⟩ := (buildLayer_inside hplain hscratch h (by simp)).mp hnode
    refine ⟨i, hi, ?_⟩
    rw [placeIn] at hplace
    rw [leavesVisible]
    cases haction : i.type.action with
    | make =>
      rw [haction] at hplace
      simp only
      rw [Option.some.inj hplace]
      exact hn
    | append file => rfl
    | write file => rfl
    | _ => rw [haction] at hplace; simp at hplace
  · rintro ⟨i, hi, hvisible⟩
    rw [leavesVisible] at hvisible
    have hput : ∀ n, placeIn i = some [n] → p'.fs.node (scratchDir ++ [n]) ≠ none :=
      fun n hn => (buildLayer_inside hplain hscratch h (by simp)).mpr ⟨i, hi, hn⟩
    cases haction : i.type.action with
    | append file =>
      exact ⟨_, hfile file (append_mem_layerFiles haction), hput _ (by rw [placeIn, haction])⟩
    | write file =>
      exact ⟨_, hfile file (write_mem_layerFiles haction), hput _ (by rw [placeIn, haction])⟩
    | make =>
      rw [haction] at hvisible
      cases htarget : targetOf (cstr i.args) with
      | nil => simp [htarget] at hvisible
      | cons n r =>
        simp only [htarget] at hvisible
        have hnode : p'.fs.node (scratchDir ++ n :: r) ≠ none :=
          (buildLayer_inside hplain hscratch h (by simp)).mpr
            ⟨i, hi, by rw [placeIn, haction, ← htarget]⟩
        exact ⟨n, by simpa using hvisible, fun hnone => p'.fs.node_on_way hnode hnone⟩
    | _ => rw [haction] at hvisible; simp at hvisible

/-- The layer is a context that `create_image` takes. -/
theorem buildLayer_contextDir {now : Int64}
    (hplain : ∀ i ∈ dockerfile.instructions, PlainInstruction (ownFiles now) i)
    (hscratch : p.fs.node scratchDir = none)
    (h : buildLayer dockerfile contextPath env p = (0, p')) : ContextDir scratchDir now p'.fs where
  ordinary := ordinary_scratchDir
  nonempty := by decide
  word := ⟨PlainWord.literal (by decide), by decide⟩
  short := by decide
  apart := by
    intro r he
    have hsecond := congrArg (fun l => l[1]?) he
    have hne : "docker-build-layer".toList ≠ "docker-layers".toList := by decide
    exact hne (Option.some.inj hsecond)
  dir := by
    have hmakes : ∀ e ∈ dockerfile.effects id, e.place = some scratchDir → e = .make scratchDir := by
      intro e he hplace
      rcases List.mem_cons.mp he with rfl | he
      · rfl
      · obtain ⟨i, hi, rfl⟩ := List.mem_map.mp he
        exact effect_at_root (hplain i hi) hplace
    rw [buildLayer_plain hplain h, hscratch, Effect.leavesAll_eq_dir hmakes rfl]
    exact Or.inr List.mem_cons_self
  unnamed := by
    by_contra hne
    obtain ⟨i, hi, hplace⟩ := (buildLayer_inside hplain hscratch h (by simp)).mp hne
    rcases placeIn_cases hplace with ⟨f, hf, he⟩ | ⟨haction, he⟩
    · exact generateLayerId_ne hf (List.singleton_inj.mp he).symm
    · refine ((hplain i hi).makes haction).apart (generateLayerId now ++ ".json".toList) ?_ ?_
      · exact List.mem_append_right _ (List.mem_singleton.mpr rfl)
      · rw [← he]
        rfl

end Layer

/-! ## 4. Builds -/

/-- Nothing that one build asks for is denied, and its copy works. -/
structure BuildEnv.Granted (env : BuildEnv) : Prop where
  mkdir : env.mkdirDenied = false
  step : ∀ k, (env.step k).denied = false
  create : env.create.Granted
  copies : env.createShell.Copies
  copiesVisible : env.createShell.CopiesVisible
  available : env.createShell.available = true

/-- Nothing stands where the build puts the image, and what it writes is
what `image_exists` looks for. -/
structure Unobstructed (name : List Char) (tag : Option (List Char)) (now : Int64)
    (fs : FileSystem) : Prop where
  layer : regular (fs.node (layerDir (generateLayerId now))) = none
  layerFile : fs.node (layerFile (generateLayerId now)) ≠ some .dir
  image : fs.node (writtenFile name tag) ≠ some .dir
  found : writtenFile name tag = imageFile name tag ∨ fs.node (imageFile name tag) ≠ none

section Build

variable {dockerfile : Dockerfile} {contextPath name : List Char} {tag : Option (List Char)}
  {env : BuildEnv} {p p' : Process}

/-- A build returns 0 exactly when its three parts go well. -/
theorem buildImage_zero_iff (hvalid : validateDockerfile dockerfile = true) :
    (buildImageFromDockerfile (some dockerfile) name tag contextPath env p).1 = 0 ↔
      (buildLayer dockerfile contextPath env p).1 = 0 ∧
        (createImage name tag (some buildLayerPath) env.create env.createShell
          (buildLayer dockerfile contextPath env p).2).1 = 0 := by
  rw [buildImageFromDockerfile]
  simp only
  rw [if_neg (by rw [hvalid]; simp)]
  by_cases hlayer : (buildLayer dockerfile contextPath env p).1 = 0
  · rw [if_neg (not_not.mpr hlayer), and_iff_right hlayer]
    by_cases himage : (createImage name tag (some buildLayerPath) env.create env.createShell
        (buildLayer dockerfile contextPath env p).2).1 = 0
    · rw [if_neg (not_not.mpr himage)]
      exact iff_of_true rfl himage
    · rw [if_pos himage]
      exact iff_of_false (by simp) himage
  · rw [if_pos hlayer]
    exact iff_of_false (by simp) fun hall => hlayer hall.1

/-- What is not in the scratch directory. -/
theorem outside_scratch {a : Name} (h : a ≠ "docker-build-layer".toList) (r : Path) :
    ¬ scratchDir <+: "tmp".toList :: a :: r := by
  rintro ⟨rest, hrest⟩
  have hsecond := congrArg (fun l => l[1]?) hrest
  exact h (Option.some.inj hsecond).symm

/-- After a build that returns 0 the image exists exactly when what was
written is what is looked for, or something is there anyway. -/
theorem buildImage_exists_iff {built : Process} (hvalid : validateDockerfile dockerfile = true)
    (hbuilt : buildLayer dockerfile contextPath env p = (0, built))
    (hcopies : env.createShell.Copies) (hkey : KeyText name tag)
    (htmp : built.fs.node ["tmp".toList] = some .dir)
    (hzero : (createImage name tag (some buildLayerPath) env.create env.createShell built).1 = 0) :
    imageExists name tag
        (buildImageFromDockerfile (some dockerfile) name tag contextPath env p).2 = true ↔
      writtenFile name tag = imageFile name tag ∨ built.fs.node (imageFile name tag) ≠ none := by
  obtain ⟨created, hcreated⟩ := Process.exists_of_result hzero
  have hplain : PlainContext (some buildLayerPath) := by
    rw [buildLayerPath_eq]
    exact Or.inr ⟨⟨PlainWord.literal (by decide), by decide⟩, by decide⟩
  obtain ⟨-, hframe, hwritten⟩ := createImage_effect hcopies hplain hkey hcreated
  obtain ⟨layer, hfile, -⟩ := hwritten rfl
  have hend : (buildImageFromDockerfile (some dockerfile) name tag contextPath env p).2
      = (created.system env.rmShell (snprintf 1024 ("rm -rf ".toList ++ buildLayerPath))).2 := by
    rw [buildImageFromDockerfile, hbuilt]
    simp only
    rw [if_neg (by rw [hvalid]; simp), if_neg (by simp), hcreated, if_neg (by simp)]
  have htmp' : created.fs.node ["tmp".toList] = some .dir := by
    rw [hframe, htmp]
    · intro hpre
      have hlen := hpre.length_le
      simp [layerDir, layersDir] at hlen
    · intro he
      have hlen := congrArg List.length he
      simp [writtenFile, imageFile, metadataDir] at hlen
  have hkept : ∀ q, ¬ scratchDir <+: q →
      (created.system env.rmShell (snprintf 1024 ("rm -rf ".toList ++ buildLayerPath))).2.fs.node q
        = created.fs.node q := by
    intro q hq
    rw [system_removal env.rmShell created htmp']
    split
    · exact node_rmTree_outside _ _ _ _ hq
    · rfl
  have hmeta : ¬ scratchDir <+: imageFile name tag := outside_scratch (by decide) _
  rw [imageExists_iff hkey.slashFree, hend, hkept _ hmeta]
  by_cases hsame : writtenFile name tag = imageFile name tag
  · rw [hsame] at hfile
    exact iff_of_true (by rw [hfile]; simp) (Or.inl hsame)
  · have hsame' := hframe (imageFile name tag) (metadata_outside _ _) fun he => hsame he.symm
    rw [hsame', or_iff_right hsame]

/-- For dockerfiles without commands and copies whose directories keep to
the layer: the build returns 0 and its image exists afterwards exactly
when every WORKDIR and VOLUME finds its parent made, some instruction
leaves an entry that `*` finds, and nothing stands in the way. -/
theorem build_succeeds_iff (hvalid : validateDockerfile dockerfile = true)
    (hplain : ∀ i ∈ dockerfile.instructions,
      PlainInstruction (ownFiles env.create.layer.idAt) i)
    (hlayers : p.fs.node layersDir = some .dir) (hmetadata : p.fs.node metadataDir = some .dir)
    (hscratch : p.fs.node scratchDir = none) (hgranted : env.Granted) (hkey : KeyText name tag) :
    ((buildImageFromDockerfile (some dockerfile) name tag contextPath env p).1 = 0 ∧
        imageExists name tag
          (buildImageFromDockerfile (some dockerfile) name tag contextPath env p).2 = true) ↔
      parentsMade [[]] dockerfile.instructions = true ∧
        dockerfile.instructions.any leavesVisible = true ∧
        Unobstructed name tag env.create.layer.idAt p.fs := by
  have htmp : p.fs.node ["tmp".toList] = some .dir :=
    p.fs.node_parent (p := ["tmp".toList]) (n := "docker-layers".toList)
      (by rw [show ["tmp".toList] ++ ["docker-layers".toList] = layersDir from rfl, hlayers]; simp)
  have hown : ∀ f ∈ layerFiles, f.toList ∈ ownFiles env.create.layer.idAt :=
    fun f hf => List.mem_append_left _ (List.mem_map_of_mem hf)
  have hsteps := buildLayer_zero_iff contextPath hown hgranted.mkdir hgranted.step hplain hscratch
  rw [and_iff_right htmp] at hsteps
  rw [buildImage_zero_iff hvalid, hsteps]
  by_cases hmade : parentsMade [[]] dockerfile.instructions = true
  · obtain ⟨built, hbuilt⟩ := Process.exists_of_result (hsteps.mpr hmade)
    -- what `create_image` finds outside the layer was there before
    have hout : ∀ {a : Name} (r : Path), a ≠ "docker-build-layer".toList →
        built.fs.node ("tmp".toList :: a :: r) = p.fs.node ("tmp".toList :: a :: r) :=
      fun r ha => buildLayer_outside hplain hbuilt (outside_scratch ha r)
    have htmp' : built.fs.node ["tmp".toList] = some .dir := by
      rw [buildLayer_outside hplain hbuilt (by decide), htmp]
    have hzero := createImage_zero_iff hgranted.copies
      hgranted.copiesVisible hgranted.available hgranted.create
      (buildLayer_contextDir hplain hscratch hbuilt) ((hout [] (by decide)).trans hlayers)
      ((hout [] (by decide)).trans hmetadata) hkey
    rw [buildLayer_visible hplain hscratch hbuilt, ← buildLayerPath_eq] at hzero
    have hlayer : built.fs.node (layerDir (generateLayerId env.create.layer.idAt))
        = p.fs.node (layerDir (generateLayerId env.create.layer.idAt)) := hout _ (by decide)
    have hfile : built.fs.node (layerFile (generateLayerId env.create.layer.idAt))
        = p.fs.node (layerFile (generateLayerId env.create.layer.idAt)) := hout _ (by decide)
    have hwritten : built.fs.node (writtenFile name tag) = p.fs.node (writtenFile name tag) :=
      hout _ (by decide)
    have himage : built.fs.node (imageFile name tag) = p.fs.node (imageFile name tag) :=
      hout _ (by decide)
    rw [hlayer, hfile, hwritten] at hzero
    rw [hbuilt, and_iff_right hmade, and_iff_right hmade]
    constructor
    · rintro ⟨hcreate, hexists⟩
      have hfound := (buildImage_exists_iff hvalid hbuilt hgranted.copies hkey htmp' hcreate).mp
        hexists
      obtain ⟨⟨hvisible, hdir, hjson⟩, himg⟩ := hzero.mp hcreate
      exact ⟨hvisible, hdir, hjson, himg, by rwa [himage] at hfound⟩
    · rintro ⟨hvisible, hdir, hjson, himg, hfound⟩
      have hcreate := hzero.mpr ⟨⟨hvisible, hdir, hjson⟩, himg⟩
      refine ⟨hcreate, ?_⟩
      rw [buildImage_exists_iff hvalid hbuilt hgranted.copies hkey htmp' hcreate, himage]
      exact hfound
  · exact iff_of_false (fun hall => hmade hall.1.1) fun hall => hmade hall.1

end Build

/-! ## 5. Two dockerfiles -/

theorem grantedBuild_granted (now : Int64) : (grantedBuild now).Granted where
  mkdir := rfl
  step := fun _ => rfl
  create := ⟨rfl, rfl, by simp [grantedBuild, grantedCreate], rfl⟩
  copies := utilities_copies
  copiesVisible := utilities_copiesVisible
  available := rfl

def plainFile : Dockerfile := parsedFile "FROM ubuntu\nENV A=1\nWORKDIR /srv\n"

theorem web_builds :
    (buildImageFromDockerfile (some plainFile) "web".toList (some "latest".toList) []
        (grantedBuild 1705230833) storeProcess).1 = 0 ∧
      imageExists "web".toList (some "latest".toList)
        (buildImageFromDockerfile (some plainFile) "web".toList (some "latest".toList) []
          (grantedBuild 1705230833) storeProcess).2 = true := by
  have hfree : Unobstructed "web".toList (some "latest".toList) 1705230833 storeProcess.fs :=
    ⟨by decide, by decide, by decide, Or.inl (by decide)⟩
  exact (build_succeeds_iff (by decide) (by decide) (by decide) (by decide) (by decide)
    (grantedBuild_granted 1705230833) ⟨by decide, by decide, by decide⟩).mpr
      ⟨by decide, by decide, hfree⟩

def fromFile : Dockerfile := parsedFile "FROM ubuntu\n"

/-- A dockerfile that is just a FROM does not build: the copy has nothing
to copy. -/
theorem from_fails :
    (validateDockerfile fromFile = true ∧
      (∀ i ∈ fromFile.instructions, PlainInstruction (ownFiles 1705230833) i) ∧
      storeProcess.fs.node layersDir = some .dir ∧ storeProcess.fs.node metadataDir = some .dir ∧
      storeProcess.fs.node scratchDir = none) ∧
    ¬ ((buildImageFromDockerfile (some fromFile) "web".toList (some "latest".toList) []
          (grantedBuild 1705230833) storeProcess).1 = 0 ∧
        imageExists "web".toList (some "latest".toList)
          (buildImageFromDockerfile (some fromFile) "web".toList (some "latest".toList) []
            (grantedBuild 1705230833) storeProcess).2 = true) := by
  refine ⟨⟨?_, ?_, ?_, ?_, ?_⟩, ?_⟩
  · decide
  · decide
  · decide
  · decide
  · decide
  · rintro ⟨hzero, -⟩
    revert hzero
    decide +kernel

end DockerClone.Build
