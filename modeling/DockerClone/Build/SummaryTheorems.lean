/-
DockerClone.Build.SummaryTheorems — the parsed summary and the built
layer.

A dockerfile's instructions are interpreted twice. While parsing they
fill the summary fields, an argument overwriting a field or joining a
list that has a limit; while building they write files, overwriting or
appending. `layer_agrees` says that the two come to the same, for every
text whose instructions fit the limits and whose build succeeds.

Both sides are compared with the arguments of one instruction type in
order (`argsOf`): the summary by `Summarised`, the layer by following one
file through the effects of the build.
-/
import DockerClone.Build.StepTheorems
import DockerClone.Image.RunTheorems

namespace DockerClone.Build

open DockerClone.CLib DockerClone.Os DockerClone.Os.FileSystem

/-! ## 1. Who writes a file -/

/-- The file an action writes. -/
def Action.file : Action → Option String
  | .run => some "run_command.sh"
  | .append file => some file
  | .write file => some file
  | _ => none

/-- The one type of instruction that writes a file. -/
def writerOf (file : String) : InstructionType :=
  if file = "environment" then .ENV
  else if file = "exposed_ports" then .EXPOSE
  else if file = "labels" then .LABEL
  else if file = "user" then .USER
  else if file = "entrypoint" then .ENTRYPOINT
  else if file = "cmd" then .CMD
  else .RUN

theorem writerOf_file {t : InstructionType} {file : String} (h : t.action.file = some file) :
    writerOf file = t := by
  cases t <;> simp only [InstructionType.action, Action.file, Option.some.injEq,
    reduceCtorEq] at h <;> subst h <;> decide

section Files

variable {printed : List Char → List Char} {i : DockerfileInstruction} {file : String}

/-- The path of a file in the layer. -/
def inLayer (file : String) : Path := scratchDir ++ [file.toList]

theorem inLayer_inj {f g : String} (h : inLayer f = inLayer g) : f = g :=
  String.toList_injective (List.singleton_inj.mp (List.append_cancel_left h))

/-- Instructions of other types leave a file alone. -/
theorem effect_quiet (h : i.type.action.file ≠ some file) :
    (effect printed buildLayerPath i).Quiet (inLayer file) := by
  have hplace : ∀ other : String, i.type.action.file = some other →
      some (inLayer other) ≠ some (inLayer file) := by
    intro other hother he
    rw [inLayer_inj (Option.some.inj he)] at hother
    exact h hother
  rw [effect, normalize_buildLayerPath]
  cases haction : i.type.action with
  | print => exact fun _ => rfl
  | copy => exact fun _ => rfl
  | run => exact Effect.quiet_of_place (hplace "run_command.sh" (by rw [haction]; rfl))
  | append other => exact Effect.quiet_of_place (hplace other (by rw [haction]; rfl))
  | write other => exact Effect.quiet_of_place (hplace other (by rw [haction]; rfl))
  | make => exact Effect.quiet_make _ _

/-- What an instruction of this type prints. -/
def lineOf (type : InstructionType) (i : DockerfileInstruction) : Option (List Char) :=
  if i.type = type then some (cstr i.args ++ ['\n']) else none

theorem lineOf_eq_none {type : InstructionType} : lineOf type i = none ↔ i.type ≠ type := by
  rw [lineOf]
  split <;> simp [*]

theorem filterMap_lineOf (type : InstructionType) (dockerfile : Dockerfile) :
    dockerfile.instructions.filterMap (lineOf type)
      = (dockerfile.argsOf type).map (fun args => args ++ ['\n']) := by
  rw [Dockerfile.argsOf]
  induction dockerfile.instructions with
  | nil => rfl
  | cons i is ih =>
    by_cases hi : i.type = type
    · rw [List.filterMap_cons_some (b := cstr i.args ++ ['\n']) (by rw [lineOf, if_pos hi]), ih,
        List.filter_cons_of_pos (by simpa using hi)]
      rfl
    · rw [List.filterMap_cons_none (lineOf_eq_none.mpr hi), ih,
        List.filter_cons_of_neg (by simpa using hi)]

/-- In front of the instructions a build makes the scratch directory. -/
theorem leavesAll_effects (dockerfile : Dockerfile) (printed : List Char → List Char)
    (file : String) :
    Effect.leavesAll (dockerfile.effects printed) (inLayer file) none
      = Effect.leavesAll (dockerfile.instructions.map (effect printed buildLayerPath))
          (inLayer file) none := by
  have hplace : (Effect.make scratchDir).place ≠ some (inLayer file) := by
    intro he
    have hlen := congrArg List.length (Option.some.inj he)
    simp [inLayer] at hlen
  rw [Dockerfile.effects, Effect.leavesAll_cons, Effect.leaves_elsewhere hplace]

/-- A file that is appended to. -/
theorem regular_appended {type : InstructionType} (htype : type.action = .append file)
    (dockerfile : Dockerfile) :
    regular (Effect.leavesAll (dockerfile.effects printed) (inLayer file) none)
      = if dockerfile.argsOf type = [] then none
        else some ((dockerfile.argsOf type).flatMap (fun args => args ++ ['\n'])) := by
  have happend : ∀ (i : DockerfileInstruction) (t : List Char), lineOf type i = some t →
      effect printed buildLayerPath i = .append (inLayer file) t := by
    intro i t ht
    rw [lineOf] at ht
    split at ht
    · rename_i hi
      rw [effect, hi, htype, normalize_buildLayerPath, ← Option.some.inj ht]
      rfl
    · simp at ht
  have hquiet : ∀ i, lineOf type i = none →
      (effect printed buildLayerPath i).Quiet (inLayer file) := by
    intro i hi
    refine effect_quiet fun hfile => lineOf_eq_none.mp hi ?_
    rw [← writerOf_file hfile]
    exact writerOf_file (by rw [htype]; rfl)
  rw [leavesAll_effects, Effect.regular_appends happend hquiet, filterMap_lineOf, List.flatMap]
  simp

/-- A file that is overwritten. -/
theorem regular_written {type : InstructionType} (htype : type.action = .write file)
    (dockerfile : Dockerfile) :
    regular (Effect.leavesAll (dockerfile.effects printed) (inLayer file) none)
      = (dockerfile.argsOf type).getLast?.map (fun args => args ++ ['\n']) := by
  have hwrite : ∀ (i : DockerfileInstruction) (t : List Char), lineOf type i = some t →
      effect printed buildLayerPath i = .write (inLayer file) t := by
    intro i t ht
    rw [lineOf] at ht
    split at ht
    · rename_i hi
      rw [effect, hi, htype, normalize_buildLayerPath, ← Option.some.inj ht]
      rfl
    · simp at ht
  have hquiet : ∀ i, lineOf type i = none →
      (effect printed buildLayerPath i).Quiet (inLayer file) := by
    intro i hi
    refine effect_quiet fun hfile => lineOf_eq_none.mp hi ?_
    rw [← writerOf_file hfile]
    exact writerOf_file (by rw [htype]; rfl)
  rw [leavesAll_effects, Effect.regular_writes hwrite hquiet, filterMap_lineOf, regular_none,
    Option.or_none, List.getLast?_map]

end Files

/-! ## 2. Agreement -/

/-- The file is there, as a regular file, exactly when the field is not
empty, and then it holds the field and a newline. -/
def HoldsField (fs : FileSystem) (file : String) (field : List Char) : Prop :=
  ∀ content, fs.node (inLayer file) = some (.file content) ↔
    field ≠ [] ∧ content = field ++ ['\n']

/-- The file is there, as a regular file, exactly when there are any
strings, and then it holds them in order, one per line. -/
def HoldsLines (fs : FileSystem) (file : String) (strings : List (List Char)) : Prop :=
  ∀ content, fs.node (inLayer file) = some (.file content) ↔
    strings ≠ [] ∧ content = strings.flatMap (fun s => s ++ ['\n'])

/-- The layer is what the summary says. -/
structure LayerAgrees (dockerfile : Dockerfile) (fs : FileSystem) : Prop where
  cmd : HoldsField fs "cmd" (cstr dockerfile.cmd)
  entrypoint : HoldsField fs "entrypoint" (cstr dockerfile.entrypoint)
  user : HoldsField fs "user" (cstr dockerfile.user)
  environment : HoldsLines fs "environment" dockerfile.envVars
  exposedPorts : HoldsLines fs "exposed_ports" dockerfile.exposedPorts
  labels : HoldsLines fs "labels" dockerfile.labels

/-- The instructions of a dockerfile fit the limits of its summary, and
no RUN argument holds a quote. -/
structure WithinLimits (dockerfile : Dockerfile) : Prop where
  envVars_short : ∀ s ∈ dockerfile.envVars, s.length ≤ 511
  exposedPorts_short : ∀ s ∈ dockerfile.exposedPorts, s.length ≤ 511
  labels_short : ∀ s ∈ dockerfile.labels, s.length ≤ 511
  env_count : (dockerfile.argsOf .ENV).length ≤ 256
  expose_count : (dockerfile.argsOf .EXPOSE).length ≤ 32
  label_count : (dockerfile.argsOf .LABEL).length ≤ 256
  quote : ∀ i ∈ dockerfile.instructions, i.type = .RUN → '\'' ∉ cstr i.args

section Agreement

variable {dockerfile : Dockerfile} {fs : FileSystem} {file : String}

theorem holdsLines_of_collects {type : InstructionType} (htype : type.action = .append file)
    {printed : List Char → List Char}
    (hnode : fs.node (inLayer file)
      = Effect.leavesAll (dockerfile.effects printed) (inLayer file) none)
    {field : List (List Char)} {limit : Nat} (hfield : Collects limit field (dockerfile.argsOf type))
    (hcount : (dockerfile.argsOf type).length ≤ limit) (hshort : ∀ s ∈ field, s.length ≤ 511) :
    HoldsLines fs file field := by
  have hsame : field = dockerfile.argsOf type := by
    rw [← hfield hcount]
    have huncut : ∀ s ∈ field, s.take (MAX_ARG_LEN - 1) = id s := fun s hs =>
      List.take_of_length_le (hshort s hs)
    rw [List.map_congr_left huncut, List.map_id]
  intro content
  rw [← regular_eq_some, hnode, regular_appended htype, hsame]
  split
  · rename_i hnil
    simp [hnil]
  · rename_i hne
    rw [Option.some.injEq, and_iff_right hne]
    exact eq_comm

theorem holdsField_of_holdsLast {type : InstructionType} (htype : type.action = .write file)
    {printed : List Char → List Char}
    (hnode : fs.node (inLayer file)
      = Effect.leavesAll (dockerfile.effects printed) (inLayer file) none)
    {field : List Char} (hfield : HoldsLast field (dockerfile.argsOf type))
    (hne : ∀ i ∈ dockerfile.instructions, cstr i.args ≠ []) :
    HoldsField fs file (cstr field) := by
  intro content
  rw [← regular_eq_some, hnode, regular_written htype, hfield.2]
  cases hlast : (dockerfile.argsOf type).getLast? with
  | none => simp
  | some args =>
    have hargs : args ≠ [] := by
      have hmem := List.mem_of_getLast? hlast
      rw [Dockerfile.argsOf] at hmem
      obtain ⟨i, hi, rfl⟩ := List.mem_map.mp hmem
      exact hne i (List.mem_of_mem_filter hi)
    rw [Option.map_some, Option.some.injEq, Option.getD_some, and_iff_right hargs]
    exact eq_comm

/-- For every text: if its instructions fit the limits and every step of
the build succeeds from an empty layer directory, the layer that
`create_image` is handed is what the summary says. -/
theorem layer_agrees {parseEnv : ParseEnv} {text : List Char}
    (hparse : parseText parseEnv text = some dockerfile) (hlimits : WithinLimits dockerfile)
    {printed : List Char → List Char} {env : BuildEnv}
    (hsh : ∀ k, (env.step k).shell.Echoes printed) {contextPath : List Char} {p p' : Process}
    (hempty : ∀ n, p.fs.node (scratchDir ++ [n]) = none)
    (hbuild : buildLayer dockerfile contextPath env p = (0, p')) :
    LayerAgrees dockerfile p'.fs := by
  have hsum := parseText_summarised hparse
  have hargs : ∀ i ∈ dockerfile.instructions, PlainRun i := fun i hi hrun =>
    ⟨hsum.args_short i hi, hlimits.quote i hi hrun⟩
  obtain ⟨-, hleads⟩ := buildLayer_leads (fun _ _ _ => hsh) hargs hbuild
  have hnode : ∀ file : String, p'.fs.node (inLayer file)
      = Effect.leavesAll (dockerfile.effects printed) (inLayer file) none := by
    intro file
    rw [hleads, inLayer, hempty]
  exact
    { cmd := holdsField_of_holdsLast rfl (hnode "cmd") hsum.cmd hsum.args_ne_nil
      entrypoint := holdsField_of_holdsLast rfl (hnode "entrypoint") hsum.entrypoint
        hsum.args_ne_nil
      user := holdsField_of_holdsLast rfl (hnode "user") hsum.user hsum.args_ne_nil
      environment := holdsLines_of_collects rfl (hnode "environment") hsum.envVars
        (hlimits.env_count.trans (by decide)) hlimits.envVars_short
      exposedPorts := holdsLines_of_collects rfl (hnode "exposed_ports") hsum.exposedPorts
        hlimits.expose_count hlimits.exposedPorts_short
      labels := holdsLines_of_collects rfl (hnode "labels") hsum.labels
        (hlimits.label_count.trans (by decide)) hlimits.labels_short }

end Agreement

/-! ## 3. A build -/

/-- A build whose calls are all granted, creating its image at one
reading of the clock. -/
def grantedBuild (now : Int64) : BuildEnv where
  mkdirDenied := false
  step := fun _ => grantedStep
  create := Image.grantedCreate now now now now now
  createShell := utilities
  rmShell := utilities

def serverText : List Char :=
  "FROM ubuntu\nENV PORT=80\nENV MODE=prod\nRUN make\nCMD old\nCMD serve\n".toList

def serverFile : Dockerfile := (parseText grantedEnv serverText).getD emptyDockerfile

theorem serverFile_parsed : parseText grantedEnv serverText = some serverFile := by
  have hsome : (parseText grantedEnv serverText).isSome = true := by decide +kernel
  obtain ⟨dockerfile, hparse⟩ := Option.isSome_iff_exists.mp hsome
  rw [serverFile, hparse, Option.getD_some]

theorem serverFile_withinLimits : WithinLimits serverFile := by
  obtain ⟨henv, hports, hlabels, hcounts, hquote⟩ :
      (∀ s ∈ serverFile.envVars, s.length ≤ 511) ∧
      (∀ s ∈ serverFile.exposedPorts, s.length ≤ 511) ∧
      (∀ s ∈ serverFile.labels, s.length ≤ 511) ∧
      ((serverFile.argsOf .ENV).length ≤ 256 ∧ (serverFile.argsOf .EXPOSE).length ≤ 32 ∧
        (serverFile.argsOf .LABEL).length ≤ 256) ∧
      ∀ i ∈ serverFile.instructions, i.type = .RUN → '\'' ∉ cstr i.args := by decide +kernel
  exact {
    envVars_short := henv
    exposedPorts_short := hports
    labels_short := hlabels
    env_count := hcounts.1
    expose_count := hcounts.2.1
    label_count := hcounts.2.2
    quote := hquote }

theorem scratchProcess_empty (n : Name) : scratchProcess.fs.node (scratchDir ++ [n]) = none :=
  (isEmptyDir_iff scratchHost scratchDir).mp (by decide) n

theorem server_layer_agrees :
    ∃ p', buildLayer serverFile [] (grantedBuild 0) scratchProcess = (0, p') ∧
      LayerAgrees serverFile p'.fs := by
  have hzero : (buildLayer serverFile [] (grantedBuild 0) scratchProcess).1 = 0 := by
    decide +kernel
  obtain ⟨p', hbuild⟩ := Process.exists_of_result hzero
  have hechoes : ∀ k, ((grantedBuild 0).step k).shell.Echoes fun text => text ++ ['\n'] :=
    fun _ => utilities_echoes
  exact ⟨p', hbuild, layer_agrees serverFile_parsed serverFile_withinLimits hechoes
    scratchProcess_empty hbuild⟩

end DockerClone.Build
