/-
DockerClone.Cli.Session — command lines typed one after another.

`main` makes at most one call of the client; `Call.perform` is that call
with a link to the daemon under it, and what it returns becomes the exit
status. A session is a list of command lines, each run to its end before
the next one, against one daemon that is up all the time.

A run has no outcome when one of the two programs leaves an array: the
client writes past `env_vars`, or the daemon writes past an array or reads
a URL past its own.
-/
import DockerClone.Cli.Main
import DockerClone.Client.Operations
import DockerClone.Http.RequestTheorems

namespace DockerClone.Cli

open DockerClone.CLib DockerClone.Http DockerClone.Client

/-- The call of the client; `main` passes arrays, never NULL. -/
def Call.perform {σ : Type} (link : Link σ) (statusJunk : Int32) : Call → σ → Option (Int × σ)
  | .run image command name workingDir envVars portMapping volumeMapping interactive tty detach, s =>
      dockerRun link statusJunk (some image) (some command) (some name) (some workingDir)
        (some envVars) (some portMapping) (some volumeMapping) interactive tty detach s
  | .build image dockerfile context, s =>
      dockerBuild link statusJunk (some image) (some dockerfile) (some context) s
  | .images, s => dockerImages link statusJunk s
  | .containers, s => dockerContainers link statusJunk s
  | .stop id, s => dockerStop link statusJunk (some id) s
  | .rm id, s => dockerRm link statusJunk (some id) s
  | .rmi image, s => dockerRmi link statusJunk (some image) s
  | .logs id, s => some (dockerLogs (some id), s)
  | .exec id command, s => some (dockerExec (some id) (some command), s)
  | .commit container image message, s =>
      some (dockerCommit (some container) (some image) (some message), s)

/-- A command line, and what its run meets: the program's allocations, the
byte pattern in its `status_code`, and the locals of the daemon's thread. -/
structure CommandLine where
  argv : List Argument
  parser : ParserEnv
  statusJunk : Int32
  daemon : ClientEnv

/-- What `main` meets while the daemon listens and the client's operations
return this. -/
def CommandLine.mainEnv (line : CommandLine) (returned : Int) : MainEnv where
  parser := line.parser
  daemonRunning := true
  startDaemon := 0
  result := fun _ => returned

/-- The parse of the words stays inside `env_vars`. -/
def CommandLine.inside (line : CommandLine) : Bool :=
  match parseArguments line.parser line.argv with
  | none => true
  | some cmd => cmd.envInside

section Session

variable {σ : Type} (backend : Backend σ)

/-- The daemon at the other end, as long as the URL it is sent ends in
its array. -/
def boundedLink (env : ClientEnv) : Link σ where
  connects := true
  exchange := fun text s =>
    if env.copied = true ∧ IsRequest text ∧ ¬ UrlEnds env.request text then none
    else (daemonLink backend env).exchange text s

/-- One run of the program; `none` when an array is left. -/
def CommandLine.run (line : CommandLine) (s : σ) : Option (Outcome × σ) :=
  if line.inside = false then none
  else
    match (main (line.mainEnv 0) line.argv).called with
    | none => some (main (line.mainEnv 0) line.argv, s)
    | some call => do
        let (returned, s) ← call.perform (boundedLink backend line.daemon) line.statusJunk s
        some (main (line.mainEnv returned) line.argv, s)

def runSession : List CommandLine → σ → Option (List Outcome × σ)
  | [], s => some ([], s)
  | line :: lines, s => do
      let (outcome, s) ← line.run backend s
      let (outcomes, s) ← runSession lines s
      some (outcome :: outcomes, s)

end Session

end DockerClone.Cli
