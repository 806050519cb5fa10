/-
DockerClone.Cli.Main — `main` of the client program.

`main` parses, validates, asks whether the daemon can be reached and
then makes at most one call of a client operation. `Call` is that call
with its arguments; what the operation returns is part of the
environment, and becomes the exit status.
-/
import DockerClone.Cli.Parser

namespace DockerClone.Cli

open DockerClone.CLib

/-- A call of an operation of `client.c`. -/
inductive Call where
  | run (image command name workingDir envVars portMapping volumeMapping : List Char)
      (interactive tty detach : Int32)
  | build (image dockerfile context : List Char)
  | images
  | containers
  | stop (id : List Char)
  | rm (id : List Char)
  | rmi (image : List Char)
  | logs (id : List Char)
  | exec (id command : List Char)
  | commit (container image message : List Char)
  deriving DecidableEq

/-- What one run of the program meets. -/
structure MainEnv where
  parser : ParserEnv
  /-- `is_daemon_running("127.0.0.1", 2375)`. -/
  daemonRunning : Bool
  startDaemon : Int
  /-- The return values of the operations. -/
  result : Call → Int

/-- The operation the run called, and its exit status. -/
structure Outcome where
  called : Option Call
  status : Int

def EXIT_SUCCESS : Int := 0
def EXIT_FAILURE : Int := 1

/-- The last `switch` of `main`; `none` is its default branch. -/
def operationOf (cmd : ParsedCommand) : Option Call :=
  match cmd.type with
  | .run =>
      some (.run (cstr cmd.imageName) (cstr cmd.command) (cstr cmd.containerName)
        (cstr cmd.workingDir) (cstr cmd.envVars) (cstr cmd.portMapping)
        (cstr cmd.volumeMapping) cmd.interactive cmd.tty cmd.detach)
  | .build =>
      some (.build (cstr cmd.imageName) (cstr cmd.dockerfilePath) (cstr cmd.workingDir))
  | .images => some .images
  | .containers | .ps => some .containers
  | .stop => some (.stop (cstr cmd.containerName))
  | .rm => some (.rm (cstr cmd.containerName))
  | .rmi => some (.rmi (cstr cmd.imageName))
  | .logs => some (.logs (cstr cmd.containerName))
  | .exec => some (.exec (cstr cmd.containerName) (cstr cmd.command))
  | .commit =>
      some (.commit (cstr cmd.containerName) (cstr cmd.imageName) (cstr cmd.command))
  | .unknown | .daemon => none

def main (env : MainEnv) (argv : List Argument) : Outcome :=
  match parseArguments env.parser argv with
  | none => { called := none, status := EXIT_FAILURE }
  | some cmd =>
      match validateCommand cmd with
      | .error _ => { called := none, status := EXIT_FAILURE }
      | .ok () =>
          if cmd.type = .daemon then
            if env.daemonRunning then { called := none, status := EXIT_SUCCESS }
            else if env.startDaemon ≠ 0 then { called := none, status := EXIT_FAILURE }
            else { called := none, status := EXIT_SUCCESS }
          else if env.daemonRunning = false then { called := none, status := EXIT_FAILURE }
          else match operationOf cmd with
            | none => { called := none, status := EXIT_FAILURE }
            | some call =>
                { called := some call
                  status := if env.result call = 0 then EXIT_SUCCESS else EXIT_FAILURE }

end DockerClone.Cli
