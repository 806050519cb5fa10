/-
DockerClone.Build.Steps — `execute_instruction` and
`build_image_from_dockerfile`.

A build fills the scratch directory `/tmp/docker-build-layer` one
instruction at a time and hands it to `create_image` as the context of
the image's layer. The instructions of one family differ in the name of
the file they write; each keeps its own definition.

What is printed is left out, and so is a `strdup` that fails.
-/
import DockerClone.Build.Dockerfile
import DockerClone.CLib.Strtok
import DockerClone.Image.Create

namespace DockerClone.Build

open DockerClone.CLib DockerClone.Os DockerClone.Image

/-! ## 1. Files in the layer -/

/-- `"%s/<file>"` in an array of `MAX_PATH_LEN` characters. -/
def layerFilePath (layerPath file : List Char) : List Char :=
  snprintf Build.MAX_PATH_LEN (layerPath ++ '/' :: file)

/-- `fopen(…, "a")` of a file in the layer and one line printed to it. -/
def appendLine (file text layerPath : List Char) (denied : Bool) (p : Process) : Int × Process :=
  match p.openAppend (layerFilePath layerPath file) denied (text ++ ['\n']) with
  | some p => (0, p)
  | none => (-1, p)

/-- `fopen(…, "w")` of a file in the layer and one line printed to it. -/
def writeLine (file text layerPath : List Char) (denied : Bool) (p : Process) : Int × Process :=
  match p.openWrite (layerFilePath layerPath file) denied (text ++ ['\n']) with
  | some p => (0, p)
  | none => (-1, p)

def setEnvironmentVariable (keyValue layerPath : List Char) (denied : Bool) (p : Process) :
    Int × Process :=
  appendLine "environment".toList keyValue layerPath denied p

def setUser (user layerPath : List Char) (denied : Bool) (p : Process) : Int × Process :=
  writeLine "user".toList user layerPath denied p

def exposePort (port layerPath : List Char) (denied : Bool) (p : Process) : Int × Process :=
  appendLine "exposed_ports".toList port layerPath denied p

def setEntrypoint (entrypoint layerPath : List Char) (denied : Bool) (p : Process) :
    Int × Process :=
  writeLine "entrypoint".toList entrypoint layerPath denied p

def setCmd (cmd layerPath : List Char) (denied : Bool) (p : Process) : Int × Process :=
  writeLine "cmd".toList cmd layerPath denied p

def setLabel (keyValue layerPath : List Char) (denied : Bool) (p : Process) : Int × Process :=
  appendLine "labels".toList keyValue layerPath denied p

/-! ## 2. Directories -/

/-- `"%s%s"` in an array of `MAX_PATH_LEN` characters. -/
def gluedPath (layerPath path : List Char) : List Char :=
  snprintf Build.MAX_PATH_LEN (layerPath ++ path)

/-- `mkdir` of a path glued behind the layer's. -/
def makeDirectory (path layerPath : List Char) (denied : Bool) (p : Process) : Int × Process :=
  match p.mkdirExistOk (gluedPath layerPath path) denied with
  | some p => (0, p)
  | none => (-1, p)

def createWorkingDirectory (path layerPath : List Char) (denied : Bool) (p : Process) :
    Int × Process :=
  makeDirectory path layerPath denied p

def createVolume (path layerPath : List Char) (denied : Bool) (p : Process) : Int × Process :=
  makeDirectory path layerPath denied p

/-! ## 3. Commands and copies -/

/-- The script `run_command` writes. -/
def scriptPath (layerPath : List Char) : List Char := layerPath ++ "/run_command.sh".toList

/-- `"echo '#!/bin/bash\n%s' > %s/run_command.sh"`. -/
def echoLine (command layerPath : List Char) : List Char :=
  snprintf 1024 ("echo '#!/bin/bash\n".toList ++ command ++ "' > ".toList ++ scriptPath layerPath)

/-- `"chmod +x %s/run_command.sh"`. -/
def chmodLine (layerPath : List Char) : List Char :=
  snprintf 1024 ("chmod +x ".toList ++ scriptPath layerPath)

def runCommand (command layerPath : List Char) (sh : Shell) (p : Process) : Int × Process :=
  let echo := p.system sh (echoLine command layerPath)
  if echo.1 ≠ 0 then (-1, echo.2)
  else
    let chmod := echo.2.system sh (chmodLine layerPath)
    if chmod.1 ≠ 0 then (-1, chmod.2) else (0, chmod.2)

/-- A token with something saved behind it is shorter than the string. -/
theorem strtok_token_length {s delims w : List Char} (h : (strtok s delims).1 = some w)
    (hsaved : (strtok s delims).2 ≠ []) : w.length < s.length := by
  rw [strtok] at h hsaved
  split at h
  · simp at h
  · rename_i c t hd
    rw [hd] at hsaved
    have hlong := (List.dropWhile_suffix (fun c => delims.contains c) (l := s)).length_le
    have hparts := congrArg List.length
      (List.takeWhile_append_dropWhile (p := fun c => !delims.contains c) (l := c :: t))
    have hpos := List.length_pos_of_ne_nil hsaved
    rw [hd] at hlong
    rw [← Option.some.inj h]
    simp only [List.length_append, List.length_drop] at hparts hpos
    omega

/-- `copy_files`: it takes a source and a destination out of its first
argument and calls itself on the source. -/
def copyFiles (args _layerPath contextPath : List Char) : Int :=
  match hsrc : (strtok args [' ']).1, hdest : (strtok (strtok args [' ']).2 [' ']).1 with
  | some src, some dest => copyFiles src dest contextPath
  | _, _ => -1
termination_by args.length
decreasing_by
  refine strtok_token_length hsrc ?_
  intro hnil
  rw [hnil] at hdest
  simp at hdest

def addFiles (args layerPath contextPath : List Char) : Int := copyFiles args layerPath contextPath

/-! ## 4. Instructions -/

/-- What the calls of one step meet. -/
structure StepEnv where
  /-- The `mkdir` or `fopen` is denied. -/
  denied : Bool
  shell : Shell

def executeInstruction (i : DockerfileInstruction) (contextPath layerPath : List Char)
    (env : StepEnv) (p : Process) : Int × Process :=
  let args := cstr i.args
  match i.type with
  | .FROM => (0, p)
  | .RUN => runCommand args layerPath env.shell p
  | .COPY => (copyFiles args layerPath contextPath, p)
  | .ADD => (addFiles args layerPath contextPath, p)
  | .WORKDIR => createWorkingDirectory args layerPath env.denied p
  | .ENV => setEnvironmentVariable args layerPath env.denied p
  | .USER => setUser args layerPath env.denied p
  | .EXPOSE => exposePort args layerPath env.denied p
  | .VOLUME => createVolume args layerPath env.denied p
  | .ENTRYPOINT => setEntrypoint args layerPath env.denied p
  | .CMD => setCmd args layerPath env.denied p
  | .LABEL => setLabel args layerPath env.denied p
  | _ => (0, p)

/-- The loop over the instructions; `env` is told the step's number. -/
def executeInstructions (contextPath layerPath : List Char) (env : Nat → StepEnv) :
    Nat → List DockerfileInstruction → Process → Int × Process
  | _, [], p => (0, p)
  | k, i :: rest, p =>
      let step := executeInstruction i contextPath layerPath (env k) p
      if step.1 ≠ 0 then (-1, step.2)
      else executeInstructions contextPath layerPath env (k + 1) rest step.2

/-! ## 5. Builds -/

def buildLayerPath : List Char := "/tmp/docker-build-layer".toList

/-- What one build meets. -/
structure BuildEnv where
  mkdirDenied : Bool
  step : Nat → StepEnv
  create : CreateEnv
  createShell : Shell
  rmShell : Shell

/-- A build up to the call of `create_image`. -/
def buildLayer (dockerfile : Dockerfile) (contextPath : List Char) (env : BuildEnv) (p : Process) :
    Int × Process :=
  match p.mkdirExistOk buildLayerPath env.mkdirDenied with
  | none => (-1, p)
  | some p =>
      executeInstructions contextPath buildLayerPath env.step 0 dockerfile.instructions p

/-- `build_image_from_dockerfile`; no dockerfile is NULL, which
`validate_dockerfile` refuses. -/
def buildImageFromDockerfile (dockerfile : Option Dockerfile) (imageName : List Char)
    (tag : Option (List Char)) (contextPath : List Char) (env : BuildEnv) (p : Process) :
    Int × Process :=
  match dockerfile with
  | none => (-1, p)
  | some dockerfile =>
      if validateDockerfile dockerfile = false then (-1, p)
      else
        let layer := buildLayer dockerfile contextPath env p
        if layer.1 ≠ 0 then (-1, layer.2)
        else
          let image := createImage imageName tag (some buildLayerPath) env.create env.createShell
            layer.2
          if image.1 ≠ 0 then (-1, image.2)
          else
            let rmCmd := snprintf 1024 ("rm -rf ".toList ++ buildLayerPath)
            (0, (image.2.system env.rmShell rmCmd).2)

end DockerClone.Build
