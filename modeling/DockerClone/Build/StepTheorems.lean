/-
DockerClone.Build.StepTheorems — what the instructions of a build do.

`executeInstruction_eq` sorts the instruction types by what they do, and
everything after it goes by these six actions. A step that succeeds has
an `Effect` on the file system, given by the instruction alone
(`executeInstruction_leads`), and a run of steps has theirs one after the
other (`executeInstructions_leads`).

Section 3 is about where the steps write. Every file is a fixed name
below the layer's directory. A directory is the instruction's text glued
behind the layer's path, and where that leads out of the layer, the
directory is made outside (`stays_inside_iff`).
-/
import DockerClone.Build.ParseTheorems
import DockerClone.Build.Steps
import DockerClone.Os.Effect

namespace DockerClone.Build

open DockerClone.CLib DockerClone.Os DockerClone.Os.FileSystem DockerClone.Image

/-! ## 1. Actions -/

/-- What an instruction of some type does. -/
inductive Action where
  /-- It prints something. -/
  | print
  | copy
  | run
  /-- It appends its argument to a file. -/
  | append (file : String)
  /-- It overwrites a file with its argument. -/
  | write (file : String)
  /-- It makes its argument a directory. -/
  | make
  deriving DecidableEq, Repr

def InstructionType.action : InstructionType → Action
  | .RUN => .run
  | .COPY => .copy
  | .ADD => .copy
  | .WORKDIR => .make
  | .VOLUME => .make
  | .ENV => .append "environment"
  | .EXPOSE => .append "exposed_ports"
  | .LABEL => .append "labels"
  | .USER => .write "user"
  | .ENTRYPOINT => .write "entrypoint"
  | .CMD => .write "cmd"
  | _ => .print

/-- The names of the files that instructions write. -/
def layerFiles : List String :=
  ["environment", "exposed_ports", "labels", "user", "entrypoint", "cmd"]

theorem ordinary_of_layerFile {file : String} (h : file ∈ layerFiles) :
    Ordinary file.toList ∧ file.toList.length ≤ 13 := by
  revert file
  decide

theorem append_mem_layerFiles {t : InstructionType} {file : String} (h : t.action = .append file) :
    file ∈ layerFiles := by
  cases t <;> simp only [InstructionType.action, Action.append.injEq, reduceCtorEq] at h <;>
    subst h <;> decide

theorem write_mem_layerFiles {t : InstructionType} {file : String} (h : t.action = .write file) :
    file ∈ layerFiles := by
  cases t <;> simp only [InstructionType.action, Action.write.injEq, reduceCtorEq] at h <;>
    subst h <;> decide

theorem make_iff {t : InstructionType} : t.action = .make ↔ t = .WORKDIR ∨ t = .VOLUME := by
  cases t <;> decide

theorem run_iff {t : InstructionType} : t.action = .run ↔ t = .RUN := by
  cases t <;> decide

/-- What is passed for a source has no space in it. -/
theorem space_not_mem_token {s w : List Char} (h : (strtok s [' ']).1 = some w) : ' ' ∉ w := by
  rw [strtok] at h
  split at h
  · simp at h
  · rw [← Option.some.inj h]
    intro hm
    have hkeep := List.mem_takeWhile_imp hm
    simp at hkeep

/-- The call on the source finds no destination in it. -/
theorem copyFiles_no_space {args : List Char} (h : ' ' ∉ args) (layerPath contextPath : List Char) :
    copyFiles args layerPath contextPath = -1 := by
  have hdest : (strtok (strtok args [' ']).2 [' ']).1 = none := by
    by_cases hnil : args = []
    · rw [hnil]
      rfl
    · rw [strtok_last hnil fun c hc he => h (by rwa [List.mem_singleton.mp he] at hc)]
      rfl
  rw [copyFiles]
  split
  · rename_i hsome
    rw [hdest] at hsome
    simp at hsome
  · rfl

/-- `copy_files` never succeeds. -/
theorem copyFiles_eq (args layerPath contextPath : List Char) :
    copyFiles args layerPath contextPath = -1 := by
  rw [copyFiles]
  split
  · rename_i hsrc _
    exact copyFiles_no_space (space_not_mem_token hsrc) _ _
  · rfl

theorem executeInstruction_eq (i : DockerfileInstruction) (contextPath layerPath : List Char)
    (env : StepEnv) (p : Process) :
    executeInstruction i contextPath layerPath env p = match i.type.action with
      | .print => (0, p)
      | .copy => (-1, p)
      | .run => runCommand (cstr i.args) layerPath env.shell p
      | .append file => appendLine file.toList (cstr i.args) layerPath env.denied p
      | .write file => writeLine file.toList (cstr i.args) layerPath env.denied p
      | .make => makeDirectory (cstr i.args) layerPath env.denied p := by
  rw [executeInstruction]
  cases i.type with
  | COPY => simp only [InstructionType.action, copyFiles_eq]
  | ADD => simp only [InstructionType.action, addFiles, copyFiles_eq]
  | _ => rfl

/-! ## 2. Paths in the layer -/

section Paths

variable {layerPath : List Char}

/-- A file of the layer lies directly below it. -/
theorem leadsTo_layerFilePath (hne : layerPath ≠ []) (hshort : layerPath.length ≤ 497)
    {file : List Char} (hfile : Ordinary file ∧ file.length ≤ 13) (cwd : Path) :
    leadsTo cwd (layerFilePath layerPath file) = leadsTo cwd layerPath ++ [file] := by
  obtain ⟨hord, hlen⟩ := hfile
  have hcut : layerFilePath layerPath file = layerPath ++ '/' :: file := by
    refine snprintf_of_lt ?_
    simp only [List.length_append, List.length_cons, Build.MAX_PATH_LEN]
    omega
  obtain ⟨c, rest, rfl⟩ := List.exists_cons_of_ne_nil hne
  rw [hcut, leadsTo, leadsTo, List.splitOn_append_cons_self, List.splitOn_eq_singleton hord.2.2.2,
    follow_append, List.cons_append, List.head?_cons, List.head?_cons,
    follow_ordinary (by simpa using hord)]

end Paths

/-! ## 3. Where a step writes -/

/-- What a step creates or modifies through `mkdir` and `fopen` lies
strictly below the layer's directory. -/
def StaysInside (layerPath : List Char) (p p' : Process) : Prop :=
  ∀ c ∈ p.since p', ∀ raw, c.target = some raw →
    Below (leadsTo p.cwd layerPath) (leadsTo p.cwd raw)

/-- The step makes a directory that is not strictly below the layer's:
the text of a WORKDIR or VOLUME leads there, nothing is there yet, and
nothing keeps `mkdir` from making it. -/
structure Escapes (i : DockerfileInstruction) (layerPath : List Char) (env : StepEnv)
    (p : Process) : Prop where
  type : i.type = .WORKDIR ∨ i.type = .VOLUME
  granted : env.denied = false
  missing : ∃ d, p.fs.resolveNew p.cwd (gluedPath layerPath (cstr i.args)) = .ok d ∧
    p.fs.node d = none
  outside : ¬ Below (leadsTo p.cwd layerPath) (leadsTo p.cwd (gluedPath layerPath (cstr i.args)))

section Inside

variable {layerPath raw text file : List Char} {p p' : Process} {denied : Bool}

theorem staysInside_self (layerPath : List Char) (p : Process) : StaysInside layerPath p p := by
  intro c hc
  rw [Process.since_append (List.append_nil _).symm] at hc
  simp at hc

theorem staysInside_one {c : Call} (hcalls : p'.calls = p.calls ++ [c]) :
    StaysInside layerPath p p' ↔ ∀ raw, c.target = some raw →
      Below (leadsTo p.cwd layerPath) (leadsTo p.cwd raw) := by
  rw [StaysInside, Process.since_append hcalls]
  simp

theorem runCommand_calls (command layerPath : List Char) (sh : Shell) (p : Process) :
    (runCommand command layerPath sh p).2.cwd = p.cwd ∧
      ((runCommand command layerPath sh p).2.calls
          = p.calls ++ [.system (echoLine command layerPath)] ∨
        (runCommand command layerPath sh p).2.calls
          = p.calls ++ [.system (echoLine command layerPath), .system (chmodLine layerPath)]) := by
  rw [runCommand]
  simp only
  split
  · exact ⟨rfl, Or.inl rfl⟩
  · split
    · refine ⟨rfl, Or.inr ?_⟩
      simp [Process.system]
    · refine ⟨rfl, Or.inr ?_⟩
      simp [Process.system]

theorem runCommand_staysInside (command layerPath : List Char) (sh : Shell) (p : Process) :
    StaysInside layerPath p (runCommand command layerPath sh p).2 := by
  intro c hc raw htarget
  rcases (runCommand_calls command layerPath sh p).2 with hcalls | hcalls <;>
    rw [Process.since_append hcalls] at hc <;>
    simp only [List.mem_cons, List.not_mem_nil, or_false] at hc
  · rw [hc] at htarget
    simp [Call.target] at htarget
  · rcases hc with hc | hc <;> rw [hc] at htarget <;> simp [Call.target] at htarget

/-- A file of the layer is opened in the layer or not at all. -/
theorem layerFile_below (hne : layerPath ≠ []) (hshort : layerPath.length ≤ 497)
    (hfile : Ordinary file ∧ file.length ≤ 13) (cwd : Path) :
    Below (leadsTo cwd layerPath) (leadsTo cwd (layerFilePath layerPath file)) := by
  rw [leadsTo_layerFilePath hne hshort hfile]
  exact below_iff.mpr ⟨file, [], rfl⟩

theorem appendLine_staysInside (hne : layerPath ≠ []) (hshort : layerPath.length ≤ 497)
    (hfile : Ordinary file ∧ file.length ≤ 13) (text : List Char) (denied : Bool) (p : Process) :
    StaysInside layerPath p (appendLine file text layerPath denied p).2 := by
  rw [appendLine]
  split
  · rename_i p' h
    obtain ⟨-, -, hcalls⟩ := Process.openAppend_some h
    refine (staysInside_one hcalls).mpr fun raw hraw => ?_
    rw [← Option.some.inj hraw]
    exact layerFile_below hne hshort hfile p.cwd
  · exact staysInside_self layerPath p

theorem writeLine_staysInside (hne : layerPath ≠ []) (hshort : layerPath.length ≤ 497)
    (hfile : Ordinary file ∧ file.length ≤ 13) (text : List Char) (denied : Bool) (p : Process) :
    StaysInside layerPath p (writeLine file text layerPath denied p).2 := by
  rw [writeLine]
  split
  · rename_i p' h
    obtain ⟨-, -, hcalls⟩ := Process.openWrite_some h
    refine (staysInside_one hcalls).mpr fun raw hraw => ?_
    rw [← Option.some.inj hraw]
    exact layerFile_below hne hshort hfile p.cwd
  · exact staysInside_self layerPath p

/-- A directory is made inside, or it is not made, or it is made
outside. -/
theorem makeDirectory_staysInside_iff (path layerPath : List Char) (denied : Bool) (p : Process) :
    StaysInside layerPath p (makeDirectory path layerPath denied p).2 ↔
      ((denied = false ∧ ∃ d, p.fs.resolveNew p.cwd (gluedPath layerPath path) = .ok d ∧
          p.fs.node d = none) →
        Below (leadsTo p.cwd layerPath) (leadsTo p.cwd (gluedPath layerPath path))) := by
  rw [makeDirectory, ← mkdir_ok_iff]
  cases h : p.mkdirExistOk (gluedPath layerPath path) denied with
  | none =>
    have hno : ¬ ∃ fs, p.fs.mkdir p.cwd (gluedPath layerPath path) denied = .ok fs := by
      rintro ⟨fs, hok⟩
      rw [Process.mkdirExistOk, hok] at h
      simp at h
    exact iff_of_true (staysInside_self layerPath p) fun hmade => absurd hmade hno
  | some p' =>
    obtain ⟨-, -, ⟨hmade, hcalls⟩ | ⟨hkept, hcalls⟩⟩ := Process.mkdirExistOk_some h
    · rw [staysInside_one hcalls]
      constructor
      · intro hin _
        exact hin _ rfl
      · intro hin raw hraw
        rw [← Option.some.inj hraw]
        exact hin hmade
    · have hsame : p'.calls = p.calls ++ [] := by rw [hcalls, List.append_nil]
      refine iff_of_true ?_ ?_
      · intro c hc
        rw [Process.since_append hsame] at hc
        simp at hc
      · rintro ⟨fs, hok⟩
        exact absurd hok (hkept fs)

end Inside

/-- For every instruction, every text and every state of the file system:
what the step creates or modifies lies strictly below the layer's
directory exactly when it is not a directory made outside. -/
theorem stays_inside_iff {layerPath : List Char} (hne : layerPath ≠ [])
    (hshort : layerPath.length ≤ 497) (i : DockerfileInstruction) (contextPath : List Char)
    (env : StepEnv) (p : Process) :
    StaysInside layerPath p (executeInstruction i contextPath layerPath env p).2 ↔
      ¬ Escapes i layerPath env p := by
  have hother : i.type.action ≠ .make → ¬ Escapes i layerPath env p :=
    fun hmake hescapes => hmake (make_iff.mpr hescapes.type)
  rw [executeInstruction_eq]
  cases haction : i.type.action with
  | print => exact iff_of_true (staysInside_self layerPath p) (hother (by rw [haction]; simp))
  | copy => exact iff_of_true (staysInside_self layerPath p) (hother (by rw [haction]; simp))
  | run =>
    exact iff_of_true (runCommand_staysInside (cstr i.args) layerPath env.shell p)
      (hother (by rw [haction]; simp))
  | append file =>
    have hfile := ordinary_of_layerFile (append_mem_layerFiles haction)
    exact iff_of_true (appendLine_staysInside hne hshort hfile (cstr i.args) env.denied p)
      (hother (by rw [haction]; simp))
  | write file =>
    have hfile := ordinary_of_layerFile (write_mem_layerFiles haction)
    exact iff_of_true (writeLine_staysInside hne hshort hfile (cstr i.args) env.denied p)
      (hother (by rw [haction]; simp))
  | make =>
    rw [makeDirectory_staysInside_iff]
    constructor
    · intro hin hescapes
      exact hescapes.outside (hin ⟨hescapes.granted, hescapes.missing⟩)
    · rintro hno ⟨hgranted, hmissing⟩
      by_contra hout
      exact hno ⟨make_iff.mp haction, hgranted, hmissing, hout⟩

/-- The calls that are recorded are the whole of what a step does, unless
it runs a command: a path that none of them names is left alone. -/
theorem unrecorded_unchanged {i : DockerfileInstruction} (htype : i.type ≠ .RUN)
    (contextPath layerPath : List Char) (env : StepEnv) (p : Process) {q : Path}
    (h : ∀ c ∈ p.since (executeInstruction i contextPath layerPath env p).2, ∀ raw,
      c.target = some raw → leadsTo p.cwd raw ≠ q) :
    (executeInstruction i contextPath layerPath env p).2.fs.node q = p.fs.node q := by
  rw [executeInstruction_eq] at h ⊢
  cases haction : i.type.action with
  | print => rfl
  | copy => rfl
  | run => exact absurd (run_iff.mp haction) htype
  | append file =>
    rw [haction] at h
    simp only [appendLine] at h ⊢
    split
    · rename_i p' hopen
      rw [hopen] at h
      obtain ⟨-, -, hcalls⟩ := Process.openAppend_some hopen
      have hne := h _ (by rw [Process.since_append hcalls]; exact List.mem_singleton.mpr rfl) _ rfl
      rw [openAppend_leads hopen, Effect.leaves_elsewhere]
      exact fun he => hne (Option.some.inj he)
    · rfl
  | write file =>
    rw [haction] at h
    simp only [writeLine] at h ⊢
    split
    · rename_i p' hopen
      rw [hopen] at h
      obtain ⟨-, -, hcalls⟩ := Process.openWrite_some hopen
      have hne := h _ (by rw [Process.since_append hcalls]; exact List.mem_singleton.mpr rfl) _ rfl
      rw [openWrite_leads hopen, Effect.leaves_elsewhere]
      exact fun he => hne (Option.some.inj he)
    · rfl
  | make =>
    rw [haction] at h
    simp only [makeDirectory] at h ⊢
    split
    · rename_i p' hmake
      rw [hmake] at h
      obtain ⟨hmk, -, ⟨-, hcalls⟩ | ⟨hkept, -⟩⟩ := Process.mkdirExistOk_some hmake
      · have hne := h _ (by rw [Process.since_append hcalls]; exact List.mem_singleton.mpr rfl) _
          rfl
        rw [mkdirExistOk_leads hmake, Effect.leaves_elsewhere]
        exact fun he => hne (Option.some.inj he)
      · -- something was there already
        rw [FileSystem.mkdirExistOk] at hmk
        split at hmk
        · rename_i fs hok
          exact absurd hok (hkept fs)
        · rw [← Option.some.inj hmk]
        · simp at hmk
    · rfl

/-- An empty layer directory. -/
def scratchHost : FileSystem :=
  .ofEntries [([], .dir), (["tmp".toList], .dir),
    (["tmp".toList, "docker-build-layer".toList], .dir)] (by decide)

def scratchProcess : Process := { fs := scratchHost, cwd := [], calls := [] }

/-- A step whose calls are not denied. -/
def grantedStep : StepEnv where
  denied := false
  shell := utilities

/-- An instruction as the parser stores it. -/
def instructionOf (type : InstructionType) (word args : String) : DockerfileInstruction :=
  storedInstruction type word.toList args.toList 1

/-- `WORKDIR /srv` makes a directory of the layer. -/
theorem workdir_inside :
    StaysInside buildLayerPath scratchProcess
      (executeInstruction (instructionOf .WORKDIR "WORKDIR" "/srv") [] buildLayerPath grantedStep
        scratchProcess).2 := by
  refine (stays_inside_iff (by decide) (by decide) _ _ _ _).mpr fun hescapes => ?_
  exact hescapes.outside (by decide)

/-- `WORKDIR /../srv` makes `/tmp/srv`. -/
theorem workdir_outside :
    ¬ StaysInside buildLayerPath scratchProcess
      (executeInstruction (instructionOf .WORKDIR "WORKDIR" "/../srv") [] buildLayerPath
        grantedStep scratchProcess).2 := by
  intro h
  have hmade : Call.mkdir "/tmp/docker-build-layer/../srv".toList ∈ scratchProcess.since
      (executeInstruction (instructionOf .WORKDIR "WORKDIR" "/../srv") [] buildLayerPath
        grantedStep scratchProcess).2 := by
    decide
  have hbelow := h _ hmade _ rfl
  revert hbelow
  decide

/-! ## 4. Effects -/

/-- What callers promise of a layer's path: it is absolute, leaves room
for the names and commands built from it and means nothing to the
shell. -/
structure LayerPath (layerPath : List Char) : Prop where
  absolute : layerPath.head? = some '/'
  short : layerPath.length ≤ 475
  script : LiteralWord (scriptPath layerPath)

theorem buildLayerPath_layerPath : LayerPath buildLayerPath where
  absolute := by decide
  short := by decide
  script := PlainWord.literal (by decide)

/-- The text of a script. -/
def scriptText (command : List Char) : List Char := "#!/bin/bash\n".toList ++ command

/-- What a step does that succeeds; `printed` is what `echo` makes of its
argument. -/
def effect (printed : List Char → List Char) (layerPath : List Char) (i : DockerfileInstruction) :
    Effect :=
  match i.type.action with
  | .print => .keep
  | .copy => .keep
  | .run => .write (normalize layerPath ++ ["run_command.sh".toList])
      (printed (scriptText (cstr i.args)))
  | .append file => .append (normalize layerPath ++ [file.toList]) (cstr i.args ++ ['\n'])
  | .write file => .write (normalize layerPath ++ [file.toList]) (cstr i.args ++ ['\n'])
  | .make => .make (normalize (gluedPath layerPath (cstr i.args)))

section Effects

variable {layerPath contextPath : List Char} {printed : List Char → List Char} {sh : Shell}
  {p p' : Process}

theorem LayerPath.ne_nil (h : LayerPath layerPath) : layerPath ≠ [] := by
  rintro rfl
  have := h.absolute
  simp at this

theorem LayerPath.scriptPath_absolute (h : LayerPath layerPath) :
    (scriptPath layerPath).head? = some '/' := by
  obtain ⟨c, rest, rfl⟩ := List.exists_cons_of_ne_nil h.ne_nil
  exact h.absolute

theorem length_scriptPath (layerPath : List Char) :
    (scriptPath layerPath).length = layerPath.length + 15 := by
  have hname : "/run_command.sh".toList.length = 15 := by decide
  rw [scriptPath, List.length_append, hname]

/-- The first command line is an `echo` of the script, whole. -/
theorem echoLine_eq (h : LayerPath layerPath) {command : List Char} (hcommand : command.length ≤ 511) :
    echoLine command layerPath = echoCommand (scriptText command) (scriptPath layerPath) := by
  have hsplit : "echo '#!/bin/bash\n".toList = "echo '".toList ++ "#!/bin/bash\n".toList := by
    decide
  have hline : "echo '#!/bin/bash\n".toList ++ command ++ "' > ".toList ++ scriptPath layerPath
      = echoCommand (scriptText command) (scriptPath layerPath) := by
    unfold echoCommand scriptText
    rw [hsplit]
    simp only [List.append_assoc]
  have hecho : "echo '".toList.length = 6 := by decide
  have hbash : "#!/bin/bash\n".toList.length = 12 := by decide
  have hclose : "' > ".toList.length = 4 := by decide
  have hshort := h.short
  unfold echoLine
  rw [hline, snprintf_of_lt]
  unfold echoCommand scriptText
  simp only [List.length_append, length_scriptPath, hecho, hbash, hclose]
  omega

theorem chmodLine_eq (h : LayerPath layerPath) :
    chmodLine layerPath = chmodCommand (scriptPath layerPath) := by
  have hchmod : "chmod +x ".toList.length = 9 := by decide
  have hshort := h.short
  unfold chmodLine chmodCommand
  rw [snprintf_of_lt]
  simp only [List.length_append, length_scriptPath, hchmod]
  omega

/-- A command line that is no removal runs as it is. -/
theorem system_other {line : List Char} (hline : parseRm line = none)
    (h : (p.system sh line).1 = 0) :
    (sh.other line p.fs).1 = 0 ∧ (p.system sh line).2.fs = (sh.other line p.fs).2 := by
  rw [Process.system, Shell.system, hline] at h ⊢
  cases ha : sh.available with
  | false => rw [ha] at h; simp at h
  | true =>
    rw [ha] at h
    exact ⟨by simpa using h, by simp⟩

theorem runCommand_leads (hlayer : LayerPath layerPath) (hsh : sh.Echoes printed)
    {command : List Char} (hcommand : command.length ≤ 511) (hquote : '\'' ∉ command)
    (h : runCommand command layerPath sh p = (0, p')) :
    (Effect.write (normalize layerPath ++ ["run_command.sh".toList])
      (printed (scriptText command))).Leads p.fs p'.fs := by
  have htext : '\'' ∉ scriptText command := by
    have hbash : '\'' ∉ "#!/bin/bash\n".toList := by decide
    unfold scriptText
    rw [List.mem_append, not_or]
    exact ⟨hbash, hquote⟩
  have hecho := isEcho_echoCommand htext hlayer.script
  have hchmod := isChmod_chmodCommand hlayer.script
  rw [← echoLine_eq hlayer hcommand] at hecho
  rw [← chmodLine_eq hlayer] at hchmod
  rw [runCommand] at h
  simp only at h
  split at h
  · simp at h
  · rename_i hfirst
    split at h
    · simp at h
    · rename_i hsecond
      obtain rfl := (Prod.mk.inj h).2
      obtain ⟨hstatus, hfs⟩ := system_other hecho.parseRm (not_not.mp hfirst)
      obtain ⟨hstatus', hfs'⟩ := system_other hchmod.parseRm (not_not.mp hsecond)
      obtain ⟨fs, hwrite, hnode⟩ := hsh.echo hecho hlayer.scriptPath_absolute hstatus
      obtain ⟨f, hf, -, hput⟩ := openWrite_ok hwrite
      have hplace : f = normalize layerPath ++ ["run_command.sh".toList] := by
        have hord : Ordinary "run_command.sh".toList := by decide
        have hslash : "/run_command.sh".toList = '/' :: "run_command.sh".toList := by decide
        rw [resolve_eq_leadsTo hf, leadsTo_absolute hlayer.scriptPath_absolute]
        unfold scriptPath
        rw [hslash, FileSystem.normalize, List.splitOn_append_cons_self,
          List.splitOn_eq_singleton hord.2.2.2, follow_append,
          follow_ordinary (by simpa using hord), FileSystem.normalize]
      intro q
      rw [hfs', hsh.chmod hchmod hstatus', hfs, hnode, hput, hplace]
      rfl

/-- The shell takes the argument of a RUN as text: it fits its array, and
there is no quote in it. -/
def PlainRun (i : DockerfileInstruction) : Prop :=
  i.type = .RUN → (cstr i.args).length ≤ 511 ∧ '\'' ∉ cstr i.args

theorem executeInstruction_leads (hlayer : LayerPath layerPath) {env : StepEnv}
    {i : DockerfileInstruction} (hsh : i.type = .RUN → env.shell.Echoes printed)
    (hargs : PlainRun i) (h : executeInstruction i contextPath layerPath env p = (0, p')) :
    p'.cwd = p.cwd ∧ (effect printed layerPath i).Leads p.fs p'.fs := by
  have hshort : layerPath.length ≤ 497 := hlayer.short.trans (by omega)
  rw [executeInstruction_eq] at h
  rw [effect]
  cases haction : i.type.action with
  | print =>
    rw [haction] at h
    obtain rfl := (Prod.mk.inj h).2
    exact ⟨rfl, fun _ => rfl⟩
  | copy =>
    rw [haction] at h
    simp at h
  | run =>
    rw [haction] at h
    have hrun : runCommand (cstr i.args) layerPath env.shell p = (0, p') := h
    obtain ⟨hcwd, -⟩ := runCommand_calls (cstr i.args) layerPath env.shell p
    rw [hrun] at hcwd
    have htype := run_iff.mp haction
    obtain ⟨hfit, hquote⟩ := hargs htype
    exact ⟨hcwd, runCommand_leads hlayer (hsh htype) hfit hquote hrun⟩
  | append file =>
    rw [haction] at h
    have hplace := leadsTo_layerFilePath hlayer.ne_nil hshort
      (ordinary_of_layerFile (append_mem_layerFiles haction)) p.cwd
    simp only [appendLine] at h
    split at h
    · rename_i p₁ hopen
      obtain rfl := (Prod.mk.inj h).2
      obtain ⟨-, hcwd, -⟩ := Process.openAppend_some hopen
      have hleads := openAppend_leads hopen
      rw [hplace, leadsTo_absolute hlayer.absolute] at hleads
      exact ⟨hcwd, hleads⟩
    · simp at h
  | write file =>
    rw [haction] at h
    have hplace := leadsTo_layerFilePath hlayer.ne_nil hshort
      (ordinary_of_layerFile (write_mem_layerFiles haction)) p.cwd
    simp only [writeLine] at h
    split at h
    · rename_i p₁ hopen
      obtain rfl := (Prod.mk.inj h).2
      obtain ⟨-, hcwd, -⟩ := Process.openWrite_some hopen
      have hleads := openWrite_leads hopen
      rw [hplace, leadsTo_absolute hlayer.absolute] at hleads
      exact ⟨hcwd, hleads⟩
    · simp at h
  | make =>
    rw [haction] at h
    simp only [makeDirectory] at h
    split at h
    · rename_i p₁ hmake
      obtain rfl := (Prod.mk.inj h).2
      obtain ⟨-, hcwd, -⟩ := Process.mkdirExistOk_some hmake
      have habs : (gluedPath layerPath (cstr i.args)).head? = some '/' := by
        rw [gluedPath, snprintf, List.head?_take, if_neg (by decide),
          List.head?_append, hlayer.absolute]
        rfl
      have hleads := mkdirExistOk_leads hmake
      rw [leadsTo_absolute habs] at hleads
      exact ⟨hcwd, hleads⟩
    · simp at h

/-- The effects of a run of steps that all succeed. -/
theorem executeInstructions_leads (hlayer : LayerPath layerPath) {env : Nat → StepEnv} :
    ∀ {is : List DockerfileInstruction} {k : Nat} {p p' : Process},
      (∀ i ∈ is, i.type = .RUN → ∀ k, (env k).shell.Echoes printed) → (∀ i ∈ is, PlainRun i) →
      executeInstructions contextPath layerPath env k is p = (0, p') → p'.cwd = p.cwd ∧
        ∀ q, p'.fs.node q
          = Effect.leavesAll (is.map (effect printed layerPath)) q (p.fs.node q)
  | [], _, p, p', _, _, h => by
      obtain rfl := (Prod.mk.inj h).2
      exact ⟨rfl, fun _ => rfl⟩
  | i :: is, k, p, p', hsh, hargs, h => by
      rw [executeInstructions] at h
      split at h
      · simp at h
      · rename_i hzero
        have hcall : executeInstruction i contextPath layerPath (env k) p
            = (0, (executeInstruction i contextPath layerPath (env k) p).2) :=
          Prod.ext (not_not.mp hzero) rfl
        obtain ⟨hcwd, hfirst⟩ := executeInstruction_leads hlayer
          (fun hrun => hsh i (by simp) hrun k) (hargs i (by simp)) hcall
        obtain ⟨hcwd', hrest⟩ := executeInstructions_leads hlayer
          (fun j hj => hsh j (List.mem_cons_of_mem i hj))
          (fun j hj => hargs j (List.mem_cons_of_mem i hj)) h
        refine ⟨hcwd'.trans hcwd, fun q => ?_⟩
        rw [hrest, hfirst, List.map_cons, Effect.leavesAll_cons]

end Effects

/-! ## 5. The layer of a build -/

/-- The scratch directory. -/
def scratchDir : Path := ["tmp".toList, "docker-build-layer".toList]

theorem buildLayerPath_eq : buildLayerPath = absPath scratchDir := by decide

theorem ordinary_scratchDir : ∀ m ∈ scratchDir, Ordinary m := by decide

theorem normalize_buildLayerPath : normalize buildLayerPath = scratchDir := by
  rw [buildLayerPath_eq]
  exact normalize_absPath ordinary_scratchDir

/-- The removal at the end of a build. -/
theorem system_removal (sh : Shell) (p : Process) (htmp : p.fs.node ["tmp".toList] = some .dir) :
    (p.system sh (snprintf 1024 ("rm -rf ".toList ++ buildLayerPath))).2.fs
      = if sh.available then p.fs.rmTree sh.stuck scratchDir (by decide) else p.fs := by
  have hline : snprintf 1024 ("rm -rf ".toList ++ buildLayerPath)
      = "rm -rf ".toList ++ absPath scratchDir := by
    rw [← buildLayerPath_eq]
    exact snprintf_of_lt (by decide)
  have hword : LiteralWord (absPath scratchDir) := PlainWord.literal (by decide)
  have hsystem : sh.system p.cwd p.fs ("rm -rf ".toList ++ absPath scratchDir)
      = if sh.available then
          (if p.fs.removable sh.stuck scratchDir then 0 else 256,
            p.fs.rmTree sh.stuck scratchDir (by decide))
        else (-1, p.fs) :=
    sh.system_rm p.cwd (q := ["tmp".toList]) (by decide) (by decide) htmp hword
  rw [hline, Process.system, hsystem]
  split
  · rfl
  · rfl

section Build

variable {dockerfile : Dockerfile} {contextPath : List Char} {env : BuildEnv}
  {printed : List Char → List Char} {p p' : Process}

/-- The effects of a dockerfile. -/
def Dockerfile.effects (printed : List Char → List Char) (dockerfile : Dockerfile) : List Effect :=
  .make scratchDir :: dockerfile.instructions.map (effect printed buildLayerPath)

/-- What `create_image` is handed, by a build that comes that far. -/
theorem buildLayer_leads
    (hsh : ∀ i ∈ dockerfile.instructions, i.type = .RUN → ∀ k, (env.step k).shell.Echoes printed)
    (hargs : ∀ i ∈ dockerfile.instructions, PlainRun i)
    (h : buildLayer dockerfile contextPath env p = (0, p')) :
    p'.cwd = p.cwd ∧ ∀ q, p'.fs.node q
      = Effect.leavesAll (dockerfile.effects printed) q (p.fs.node q) := by
  rw [buildLayer] at h
  split at h
  · simp at h
  · rename_i p₁ hmake
    obtain ⟨-, hcwd, -⟩ := Process.mkdirExistOk_some hmake
    have hfirst := mkdirExistOk_leads hmake
    rw [leadsTo_absolute buildLayerPath_layerPath.absolute, normalize_buildLayerPath] at hfirst
    obtain ⟨hcwd', hrest⟩ := executeInstructions_leads buildLayerPath_layerPath hsh hargs h
    refine ⟨hcwd'.trans hcwd, fun q => ?_⟩
    rw [hrest, hfirst, Dockerfile.effects, Effect.leavesAll_cons]

end Build

end DockerClone.Build
