/-
DockerClone.Cli.Parser — the command line of the client.

`parse_arguments` copies the words it knows into the arrays of a zeroed
`parsed_command_t`, by one loop for each group of subcommands;
`validate_command` then tests which arrays were filled. A word of `argv`
carries the proof that it is a C string.

Nothing bounds the `strcat`s of the `-e` option: an `env_vars` longer
than its 512 bytes is a write past the end of the struct
(`ParsedCommand.envInside`). The copy of
`argv` in `args` is only ever freed, so a failed `strdup` does not show.
-/
import DockerClone.CLib.CString

namespace DockerClone.Cli

open DockerClone.CLib

/-! ## 1. Words and commands -/

/-- A word of `argv`. -/
structure Argument where
  text : List Char
  nulFree : NulFree text

/-- `strcmp(arg, word) == 0`. -/
def Argument.is (arg : Argument) (word : String) : Bool := arg.text == word.toList

/-- `arg[0] == '-'`. -/
def Argument.isOption (arg : Argument) : Bool := arg.text.head? == some '-'

/-- `command_type_t`. -/
inductive CommandType where
  | unknown
  | run
  | build
  | images
  | containers
  | stop
  | rm
  | rmi
  | ps
  | logs
  | exec
  | commit
  | daemon
  deriving DecidableEq, Repr

def getCommandType (cmd : Argument) : CommandType :=
  if cmd.is "run" then .run
  else if cmd.is "build" then .build
  else if cmd.is "images" then .images
  else if cmd.is "containers" then .containers
  else if cmd.is "stop" then .stop
  else if cmd.is "rm" then .rm
  else if cmd.is "rmi" then .rmi
  else if cmd.is "ps" then .ps
  else if cmd.is "logs" then .logs
  else if cmd.is "exec" then .exec
  else if cmd.is "commit" then .commit
  else if cmd.is "daemon" then .daemon
  else .unknown

def MAX_COMMAND_LEN : Nat := 256
def MAX_PATH_LEN : Nat := 512

/-- `parsed_command_t`. -/
structure ParsedCommand where
  type : CommandType
  args : List Argument
  argc : Nat
  imageName : List Char
  containerName : List Char
  dockerfilePath : List Char
  workingDir : List Char
  command : List Char
  detach : Int32
  interactive : Int32
  tty : Int32
  portMapping : List Char
  volumeMapping : List Char
  envVars : List Char

/-- The command after the `memset`, with its type and the copy of `argv`. -/
def ParsedCommand.zeroed (type : CommandType) (argv : List Argument) : ParsedCommand where
  type := type
  args := argv
  argc := argv.length
  imageName := zeros MAX_PATH_LEN
  containerName := zeros MAX_PATH_LEN
  dockerfilePath := zeros MAX_PATH_LEN
  workingDir := zeros MAX_PATH_LEN
  command := zeros MAX_COMMAND_LEN
  detach := 0
  interactive := 0
  tty := 0
  portMapping := zeros 64
  volumeMapping := zeros 256
  envVars := zeros 512

/-! ## 2. The loops over the words -/

/-- The `-e` branch: the values so far, a semicolon, the new value. -/
def appendEnv (envVars value : List Char) : List Char :=
  if (cstr envVars).length > 0 then strcat (strcat envVars [';']) value else strcat envVars value

/-- The loop of `parse_run_command`, from some word on. -/
def parseRunCommand (cmd : ParsedCommand) : List Argument → ParsedCommand
  | [] => cmd
  | arg :: rest =>
      if arg.is "-d" || arg.is "--detach" then parseRunCommand { cmd with detach := 1 } rest
      else if arg.is "-it" then parseRunCommand { cmd with interactive := 1, tty := 1 } rest
      else if arg.is "-i" || arg.is "--interactive" then
        parseRunCommand { cmd with interactive := 1 } rest
      else if arg.is "-t" || arg.is "--tty" then parseRunCommand { cmd with tty := 1 } rest
      else if arg.is "--name" then
        -- without a value it is a word that starts with a dash
        match rest with
        | value :: rest =>
            let name := strncpy cmd.containerName value.text (MAX_PATH_LEN - 1)
            parseRunCommand { cmd with containerName := name } rest
        | [] => cmd
      else if arg.is "-p" || arg.is "--publish" then
        match rest with
        | value :: rest =>
            let mapping := strncpy cmd.portMapping value.text (64 - 1)
            parseRunCommand { cmd with portMapping := mapping } rest
        | [] => cmd
      else if arg.is "-v" || arg.is "--volume" then
        match rest with
        | value :: rest =>
            let mapping := strncpy cmd.volumeMapping value.text (256 - 1)
            parseRunCommand { cmd with volumeMapping := mapping } rest
        | [] => cmd
      else if arg.is "-e" || arg.is "--env" then
        match rest with
        | value :: rest =>
            parseRunCommand { cmd with envVars := appendEnv cmd.envVars value.text } rest
        | [] => cmd
      else if arg.is "-w" || arg.is "--workdir" then
        match rest with
        | value :: rest =>
            let dir := strncpy cmd.workingDir value.text (MAX_PATH_LEN - 1)
            parseRunCommand { cmd with workingDir := dir } rest
        | [] => cmd
      else if arg.isOption = false then
        if (cstr cmd.imageName).length = 0 then
          let name := strncpy cmd.imageName arg.text (MAX_PATH_LEN - 1)
          parseRunCommand { cmd with imageName := name } rest
        else { cmd with command := strncpy cmd.command arg.text (MAX_COMMAND_LEN - 1) }
      else parseRunCommand cmd rest

/-- The loop of `parse_build_command`. -/
def parseBuildWords (cmd : ParsedCommand) : List Argument → ParsedCommand
  | [] => cmd
  | arg :: rest =>
      if arg.is "-t" || arg.is "--tag" then
        match rest with
        | value :: rest =>
            let name := strncpy cmd.imageName value.text (MAX_PATH_LEN - 1)
            parseBuildWords { cmd with imageName := name } rest
        | [] => cmd
      else if arg.is "-f" || arg.is "--file" then
        match rest with
        | value :: rest =>
            let path := strncpy cmd.dockerfilePath value.text (MAX_PATH_LEN - 1)
            parseBuildWords { cmd with dockerfilePath := path } rest
        | [] => cmd
      else if arg.isOption = false then
        if (cstr cmd.workingDir).length = 0 then
          let dir := strncpy cmd.workingDir arg.text (MAX_PATH_LEN - 1)
          parseBuildWords { cmd with workingDir := dir } rest
        else parseBuildWords cmd rest
      else parseBuildWords cmd rest

def parseBuildCommand (cmd : ParsedCommand) (words : List Argument) : ParsedCommand :=
  let cmd := parseBuildWords cmd words
  if (cstr cmd.dockerfilePath).length = 0 then
    { cmd with dockerfilePath := strcpy cmd.dockerfilePath "Dockerfile".toList }
  else cmd

def parseContainerCommand (cmd : ParsedCommand) : List Argument → ParsedCommand
  | [] => cmd
  | arg :: rest =>
      if arg.isOption = false then
        { cmd with containerName := strncpy cmd.containerName arg.text (MAX_PATH_LEN - 1) }
      else parseContainerCommand cmd rest

def parseCommitCommand (cmd : ParsedCommand) : List Argument → ParsedCommand
  | [] => cmd
  | arg :: rest =>
      if arg.is "-m" || arg.is "--message" then
        match rest with
        | value :: rest =>
            let message := strncpy cmd.command value.text (MAX_COMMAND_LEN - 1)
            parseCommitCommand { cmd with command := message } rest
        | [] => cmd
      else if arg.isOption = false then
        if (cstr cmd.containerName).length = 0 then
          let name := strncpy cmd.containerName arg.text (MAX_PATH_LEN - 1)
          parseCommitCommand { cmd with containerName := name } rest
        else if (cstr cmd.imageName).length = 0 then
          let name := strncpy cmd.imageName arg.text (MAX_PATH_LEN - 1)
          parseCommitCommand { cmd with imageName := name } rest
        else parseCommitCommand cmd rest
      else parseCommitCommand cmd rest

/-! ## 3. Parsing and validating -/

/-- Which allocations of `parse_arguments` succeed. -/
structure ParserEnv where
  cmdAllocated : Bool
  argsAllocated : Bool

/-- `parse_arguments`; `none` is NULL. -/
def parseArguments (env : ParserEnv) (argv : List Argument) : Option ParsedCommand :=
  match argv with
  | _ :: word :: words =>
      if env.cmdAllocated = false then none
      else if env.argsAllocated = false then none
      else
        let cmd := ParsedCommand.zeroed (getCommandType word) argv
        some (match cmd.type with
          | .run => parseRunCommand cmd words
          | .build => parseBuildCommand cmd words
          | .stop | .rm | .rmi | .logs | .exec => parseContainerCommand cmd words
          | .commit => parseCommitCommand cmd words
          | _ => cmd)
  | _ => none

/-- Every `strcat` of the `-e` option stayed inside `env_vars`. The string
only grows, so its last length is the greatest. -/
def ParsedCommand.envInside (cmd : ParsedCommand) : Bool := (cstr cmd.envVars).length < 512

/-- The subcommand an error of the container branch names. -/
def containerWord (type : CommandType) : String :=
  if type = .stop then "stop"
  else if type = .rm then "rm"
  else if type = .logs then "logs"
  else "exec"

/-- `validate_command`; an error is the return value 0 with its line. -/
def validateCommand (cmd : ParsedCommand) : Except String Unit :=
  match cmd.type with
  | .run =>
      if (cstr cmd.imageName).length = 0 then
        .error "Error: Image name required for 'run' command\n"
      else .ok ()
  | .build =>
      if (cstr cmd.imageName).length = 0 then
        .error "Error: Image name required for 'build' command\n"
      else .ok ()
  | .stop | .rm | .logs | .exec =>
      if (cstr cmd.containerName).length = 0 then
        .error ("Error: Container name required for '" ++ containerWord cmd.type ++ "' command\n")
      else .ok ()
  | .commit =>
      if (cstr cmd.containerName).length = 0 ∨ (cstr cmd.imageName).length = 0 then
        .error "Error: Container name and image name required for 'commit' command\n"
      else .ok ()
  | _ => .ok ()

end DockerClone.Cli
