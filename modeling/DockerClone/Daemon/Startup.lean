/-
DockerClone.Daemon.Startup — `run_daemon_foreground` up to the accept
loop.

The run prepares both storage systems, opens the listening socket and
serves. It returns only when one of these steps fails, and each failure
exit has a cleanup of its own. `none` is a run that is still serving: the
accept loop of `start_http_server` has no exit.

`prctl` and the two `signal` calls change nothing the run depends on and
are left out, as is what the run prints.
-/
import DockerClone.Container.Store
import DockerClone.Image.Store

namespace DockerClone.Daemon

open DockerClone.Os DockerClone.Image DockerClone.Container

/-- Which calls of `start_http_server` succeed. -/
structure ServerEnv where
  socket : Bool
  setsockopt : Bool
  bind : Bool
  listen : Bool

/-- `start_http_server`; `none` while it accepts connections. -/
def startHttpServer (env : ServerEnv) : Option Int :=
  if env.socket = false then some (-1)
  else if env.setsockopt = false then some (-1)
  else if env.bind = false then some (-1)
  else if env.listen = false then some (-1)
  else none

/-- What one run of the daemon meets. -/
structure RunEnv where
  /-- The directories that cannot be made, and those that cannot be
  removed. -/
  mkdirDenied : String → Bool
  rmdirDenied : String → Bool
  server : ServerEnv
  /-- The shells of the two cleanups. -/
  imageShell : Shell
  containerShell : Shell

/-- `run_daemon_foreground`: the return value and what is left. -/
def runDaemonForeground (env : RunEnv) (cwd : Path) (fs : FileSystem) :
    Option (Int × FileSystem) :=
  let (image, fs) := initImageSystem cwd env.mkdirDenied fs
  if image ≠ 0 then some (-1, fs)
  else
    let (container, fs) := initContainerSystem cwd env.mkdirDenied env.rmdirDenied fs
    if container ≠ 0 then some (-1, (cleanupImageSystem env.imageShell cwd fs).2)
    else match startHttpServer env.server with
      | none => none
      | some result =>
          let fs := (cleanupImageSystem env.imageShell cwd fs).2
          let fs := (cleanupContainerSystem env.containerShell cwd fs).2
          some (result, fs)

end DockerClone.Daemon
