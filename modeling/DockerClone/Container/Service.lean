/-
DockerClone.Container.Service — the operations built on the others, and
runs of all of them.

`restart_container` is a stop and a start; `get_container_info` and
`is_container_running` read a record and change nothing.
-/
import DockerClone.Container.Store

namespace DockerClone.Container

open DockerClone.CLib DockerClone.Os DockerClone.Metadata

def restartContainer (containerId : List Char) (stopEnv : StopEnv) (startEnv : StartEnv)
    (w : World) : Int × World :=
  match stopContainer containerId stopEnv w with
  | (0, w) => startContainer containerId startEnv w
  | (_, w) => (-1, w)

/-- `none` is NULL. -/
def getContainerInfo (containerId : List Char) (allocated denied : Bool) (junk : ContainerInfo)
    (w : World) : Option ContainerInfo :=
  if allocated = false then none else readContainerMetadata containerId denied w junk

def isContainerRunning (containerId : List Char) (denied : Bool) (junk : ContainerInfo)
    (w : World) : Int :=
  match readContainerMetadata containerId denied w junk with
  | none => 0
  | some container => if container.state = ContainerState.running.code then 1 else 0

/-- A call of one of the operations with what it meets. -/
inductive ContainerOp where
  | create (args : CreateArgs) (env : CreateEnv)
  | start (id : List Char) (env : StartEnv)
  | stop (id : List Char) (env : StopEnv)
  | restart (id : List Char) (stopEnv : StopEnv) (startEnv : StartEnv)
  | remove (id : List Char) (env : RemoveEnv)
  | isRunning (id : List Char) (denied : Bool) (junk : ContainerInfo)

def containerStep : ContainerOp → World → Int × World
  | .create args env, w => createContainer args env w
  | .start id env, w => startContainer id env w
  | .stop id env, w => stopContainer id env w
  | .restart id stopEnv startEnv, w => restartContainer id stopEnv startEnv w
  | .remove id env, w => removeContainer id env w
  | .isRunning id denied junk, w => (isContainerRunning id denied junk w, w)

end DockerClone.Container
