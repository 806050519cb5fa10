/-
DockerClone.Build.Dockerfile — `dockerfile_t` and `parse_dockerfile`.

The loop reads the file with `fgets`, one piece of at most
`MAX_LINE_LEN - 1` characters at a time, and takes each piece for a line.
A piece that is an instruction is stored twice: as an entry of the
`instructions` array, which doubles when it is full, and in the summary
field of its kind.

`count`, `env_count`, `port_count`, `volume_count` and `label_count` are
the lengths of the lists they count. `env_vars` and `labels` are declared
with 256 elements and filled up to 512, because `image.h`, included after
`dockerfile.h`, defines `MAX_ENV_VAR_LEN` again. The pointer stored at
index 256 lands on the count behind the array, and from there on the
lists say nothing about the program.

`parseLinesWithin` is the loop with the bounds of these stores and of
`continuation_buffer`: a run that leaves one of them ends in `overrun`.
-/
import DockerClone.CLib.CString
import DockerClone.CLib.Search
import DockerClone.CLib.Stream
import DockerClone.Os.FileSystem
import Mathlib.Data.List.DropRight

namespace DockerClone.Build

open DockerClone.CLib DockerClone.Os

def MAX_LINE_LEN : Nat := 1024
def MAX_INSTRUCTION_LEN : Nat := 32
def MAX_ARG_LEN : Nat := 512
def MAX_PATH_LEN : Nat := 512
/-- As `image.h` leaves it. -/
def MAX_ENV_VAR_LEN : Nat := 512
/-- As `dockerfile.h` has it where `env_vars` and `labels` are declared. -/
def DECLARED_ENV_VAR_LEN : Nat := 256
def MAX_PORT_LEN : Nat := 32
def MAX_VOLUME_LEN : Nat := 256

/-! ## 1. The structs -/

/-- `instruction_type_t`. -/
inductive InstructionType where
  | UNKNOWN
  | FROM
  | RUN
  | CMD
  | LABEL
  | EXPOSE
  | ENV
  | ADD
  | COPY
  | ENTRYPOINT
  | VOLUME
  | USER
  | WORKDIR
  | ARG
  | ONBUILD
  | STOPSIGNAL
  | HEALTHCHECK
  | SHELL
  deriving DecidableEq, Repr

/-- `dockerfile_instruction_t`; nothing reads `src` and `dest`. -/
structure DockerfileInstruction where
  type : InstructionType
  instruction : List Char
  args : List Char
  lineNumber : Int32
  deriving DecidableEq, Repr

/-- `dockerfile_t`. -/
structure Dockerfile where
  instructions : List DockerfileInstruction
  capacity : Nat
  baseImage : List Char
  workingDir : List Char
  user : List Char
  shell : List Char
  entrypoint : List Char
  cmd : List Char
  envVars : List (List Char)
  exposedPorts : List (List Char)
  volumes : List (List Char)
  labels : List (List Char)
  deriving DecidableEq, Repr

/-- After `memset(dockerfile, 0, …)`, with room for ten instructions. -/
def emptyDockerfile : Dockerfile where
  instructions := []
  capacity := 10
  baseImage := zeros MAX_PATH_LEN
  workingDir := zeros MAX_PATH_LEN
  user := zeros MAX_PATH_LEN
  shell := zeros MAX_PATH_LEN
  entrypoint := zeros MAX_ARG_LEN
  cmd := zeros MAX_ARG_LEN
  envVars := []
  exposedPorts := []
  volumes := []
  labels := []

/-! ## 2. One line -/

def getInstructionType (instruction : List Char) : InstructionType :=
  if instruction = "FROM".toList then .FROM
  else if instruction = "RUN".toList then .RUN
  else if instruction = "CMD".toList then .CMD
  else if instruction = "LABEL".toList then .LABEL
  else if instruction = "EXPOSE".toList then .EXPOSE
  else if instruction = "ENV".toList then .ENV
  else if instruction = "ADD".toList then .ADD
  else if instruction = "COPY".toList then .COPY
  else if instruction = "ENTRYPOINT".toList then .ENTRYPOINT
  else if instruction = "VOLUME".toList then .VOLUME
  else if instruction = "USER".toList then .USER
  else if instruction = "WORKDIR".toList then .WORKDIR
  else if instruction = "ARG".toList then .ARG
  else if instruction = "ONBUILD".toList then .ONBUILD
  else if instruction = "STOPSIGNAL".toList then .STOPSIGNAL
  else if instruction = "HEALTHCHECK".toList then .HEALTHCHECK
  else if instruction = "SHELL".toList then .SHELL
  else .UNKNOWN

/-- A character the leading loop of `trim_whitespace` skips. -/
def isBlank (c : Char) : Bool := c = ' ' ∨ c = '\t'

/-- A character its trailing loop cuts. -/
def isTrailing (c : Char) : Bool := c = ' ' ∨ c = '\t' ∨ c = '\n' ∨ c = '\r'

/-- `trim_whitespace`. The trailing loop stops at the first character of
what is left and never looks at it. -/
def trimWhitespace (str : List Char) : List Char :=
  match str.dropWhile isBlank with
  | [] => []
  | c :: rest => c :: rest.rdropWhile isTrailing

def isContinuationLine (line : List Char) : Bool := trimWhitespace line = ['\\']

/-- `continuation_buffer` once a line is appended to it and the `memset`
behind that has run. -/
def continuationBuffer (trimmed : List Char) : List Char :=
  let buffer := strcat (strcat (zeros MAX_LINE_LEN) [' ']) trimmed
  buffer.map fun _ => nul

/-- The entry written at `instructions[count]`. -/
def storedInstruction (type : InstructionType) (instruction args : List Char)
    (lineNumber : Int32) : DockerfileInstruction where
  type := type
  instruction := strncpy (zeros MAX_INSTRUCTION_LEN) instruction (MAX_INSTRUCTION_LEN - 1)
  args := strncpy (zeros MAX_ARG_LEN) args (MAX_ARG_LEN - 1)
  lineNumber := lineNumber

/-- The `switch` over the instruction's type. -/
def summarise (type : InstructionType) (args : List Char) (dockerfile : Dockerfile) :
    Dockerfile :=
  match type with
  | .FROM =>
      { dockerfile with baseImage := strncpy dockerfile.baseImage args (MAX_PATH_LEN - 1) }
  | .WORKDIR =>
      { dockerfile with workingDir := strncpy dockerfile.workingDir args (MAX_PATH_LEN - 1) }
  | .USER => { dockerfile with user := strncpy dockerfile.user args (MAX_PATH_LEN - 1) }
  | .SHELL => { dockerfile with shell := strncpy dockerfile.shell args (MAX_PATH_LEN - 1) }
  | .ENTRYPOINT =>
      { dockerfile with entrypoint := strncpy dockerfile.entrypoint args (MAX_ARG_LEN - 1) }
  | .CMD => { dockerfile with cmd := strncpy dockerfile.cmd args (MAX_ARG_LEN - 1) }
  | .ENV =>
      if dockerfile.envVars.length < MAX_ENV_VAR_LEN then
        { dockerfile with envVars := dockerfile.envVars ++ [args] }
      else dockerfile
  | .EXPOSE =>
      if dockerfile.exposedPorts.length < MAX_PORT_LEN then
        { dockerfile with exposedPorts := dockerfile.exposedPorts ++ [args] }
      else dockerfile
  | .VOLUME =>
      if dockerfile.volumes.length < MAX_VOLUME_LEN then
        { dockerfile with volumes := dockerfile.volumes ++ [args] }
      else dockerfile
  | .LABEL =>
      if dockerfile.labels.length < MAX_ENV_VAR_LEN then
        { dockerfile with labels := dockerfile.labels ++ [args] }
      else dockerfile
  | _ => dockerfile

/-- One instruction stored: the entry, then the summary. -/
def addInstruction (type : InstructionType) (instruction args : List Char) (lineNumber : Int32)
    (dockerfile : Dockerfile) : Dockerfile :=
  summarise type args { dockerfile with
    instructions := dockerfile.instructions ++
      [storedInstruction type instruction args lineNumber] }

/-! ## 3. The loop -/

/-- Which of the requests for memory are granted. -/
structure ParseEnv where
  dockerfileAllocated : Bool
  instructionsAllocated : Bool
  /-- `realloc` to this many instructions. -/
  resized : Nat → Bool

/-- The variables of the loop. -/
structure ParseState where
  lineNumber : Int32
  inContinuation : Bool
  dockerfile : Dockerfile

/-- The end of the loop's body, from `Parse instruction` on; `none` is the
return of NULL after a failed `realloc`. -/
def parseInstruction (env : ParseEnv) (trimmed : List Char) (s : ParseState) :
    Option ParseState :=
  match strchr trimmed ' ' with
  | none => some s
  | some space =>
      let instruction := trimmed.take (trimmed.length - space.length)
      let args := space.drop 1
      let type := getInstructionType instruction
      if type = .UNKNOWN then some s
      else if s.dockerfile.instructions.length ≥ s.dockerfile.capacity then
        let capacity := s.dockerfile.capacity * 2
        if env.resized capacity then
          some { s with
            dockerfile := addInstruction type instruction args s.lineNumber
              { s.dockerfile with capacity := capacity } }
        else none
      else
        some { s with
          dockerfile := addInstruction type instruction args s.lineNumber s.dockerfile }

/-- The body of the loop on the string `fgets` left in `line`. -/
def parseLine (env : ParseEnv) (line : List Char) (s : ParseState) : Option ParseState :=
  let s := { s with lineNumber := s.lineNumber + 1 }
  let trimmed := trimWhitespace (cstr line)
  if trimmed = [] ∨ trimmed.head? = some '#' then some s
  else if isContinuationLine trimmed then some { s with inContinuation := true }
  else if s.inContinuation then
    -- the instruction is taken from the buffer, which is cleared by then
    parseInstruction env (cstr (continuationBuffer trimmed)) { s with inContinuation := false }
  else parseInstruction env trimmed s

def parseLines (env : ParseEnv) : List (List Char) → ParseState → Option ParseState
  | [], s => some s
  | line :: lines, s => (parseLine env line s).bind (parseLines env lines)

/-- The parse of the text of an open file. -/
def parseText (env : ParseEnv) (text : List Char) : Option Dockerfile :=
  if env.dockerfileAllocated = false then none
  else if env.instructionsAllocated = false then none
  else
    (parseLines env (fgetsLines MAX_LINE_LEN text)
      { lineNumber := 0, inContinuation := false, dockerfile := emptyDockerfile }).map
        (·.dockerfile)

/-- `parse_dockerfile`; `none` is NULL. -/
def parseDockerfile (env : ParseEnv) (denied : Bool) (cwd : Path) (fs : FileSystem)
    (filePath : List Char) : Option Dockerfile :=
  (fs.openRead cwd filePath denied).bind (parseText env)

/-! ## 4. Stores past an array -/

/-- Where the loop stands, or how it ended before the end of the file. -/
inductive ParseRun where
  | reading (s : ParseState)
  /-- `realloc` failed, and NULL is returned. -/
  | outOfMemory
  /-- A store went past its array; what follows is undefined. -/
  | overrun

/-- `field[count] = strdup(args)` behind the guard `count < limit` stays
in an array of `declared` elements. -/
def slotWithin (count limit declared : Nat) : Bool := limit ≤ count || count < declared

/-- The `switch` stores inside the array it fills. -/
def summaryWithin (type : InstructionType) (dockerfile : Dockerfile) : Bool :=
  match type with
  | .ENV => slotWithin dockerfile.envVars.length MAX_ENV_VAR_LEN DECLARED_ENV_VAR_LEN
  | .EXPOSE => slotWithin dockerfile.exposedPorts.length MAX_PORT_LEN MAX_PORT_LEN
  | .VOLUME => slotWithin dockerfile.volumes.length MAX_VOLUME_LEN MAX_VOLUME_LEN
  | .LABEL => slotWithin dockerfile.labels.length MAX_ENV_VAR_LEN DECLARED_ENV_VAR_LEN
  | _ => true

def instructionWithin (trimmed : List Char) (dockerfile : Dockerfile) : Bool :=
  match strchr trimmed ' ' with
  | none => true
  | some space =>
      summaryWithin (getInstructionType (trimmed.take (trimmed.length - space.length))) dockerfile

/-- The two `strcat` into the empty `continuation_buffer` stay inside it:
a space, the line and a NUL. -/
def continuationWithin (trimmed : List Char) : Bool := trimmed.length + 2 ≤ MAX_LINE_LEN

/-- The body of the loop stores inside its arrays. -/
def lineWithin (line : List Char) (s : ParseState) : Bool :=
  let trimmed := trimWhitespace (cstr line)
  if trimmed = [] ∨ trimmed.head? = some '#' then true
  else if isContinuationLine trimmed then true
  else if s.inContinuation then
    continuationWithin trimmed &&
      instructionWithin (cstr (continuationBuffer trimmed)) s.dockerfile
  else instructionWithin trimmed s.dockerfile

/-- The body of the loop within its arrays. A request for memory comes
before the store it is for. -/
def parseLineWithin (env : ParseEnv) (line : List Char) (s : ParseState) : ParseRun :=
  match parseLine env line s with
  | none => .outOfMemory
  | some s' => if lineWithin line s then .reading s' else .overrun

def parseLinesWithin (env : ParseEnv) : List (List Char) → ParseState → ParseRun
  | [], s => .reading s
  | line :: lines, s =>
      match parseLineWithin env line s with
      | .reading s' => parseLinesWithin env lines s'
      | .outOfMemory => .outOfMemory
      | .overrun => .overrun

/-- Within its arrays the loop does what `parseLines` says. -/
theorem parseLines_of_within {env : ParseEnv} {lines : List (List Char)} {s s' : ParseState}
    (h : parseLinesWithin env lines s = .reading s') : parseLines env lines s = some s' := by
  induction lines generalizing s with
  | nil =>
    rw [parseLinesWithin, ParseRun.reading.injEq] at h
    rw [parseLines, h]
  | cons line lines ih =>
    rw [parseLinesWithin, parseLineWithin] at h
    rw [parseLines]
    cases hline : parseLine env line s with
    | none => simp [hline] at h
    | some s₁ =>
      rw [hline] at h
      cases hwithin : lineWithin line s with
      | false => simp [hwithin] at h
      | true =>
        simp only [hwithin, if_true] at h
        exact ih h

/-! ## 5. Validation -/

/-- `validate_dockerfile` on a dockerfile that is not NULL; an
ENTRYPOINT beside a CMD is only reported. -/
def validateDockerfile (dockerfile : Dockerfile) : Bool :=
  match dockerfile.instructions with
  | [] => false
  | first :: _ => first.type = .FROM

end DockerClone.Build
