/-
DockerClone.Container.Child — the process inside a container.

`child_main` sets the host name, makes the mounts private, mounts an
empty tmpfs over the container's root directory, pivots into it, takes
the old root away and executes the command. Every step but the last is
attempted: a failure is printed and the next step is made all the same.

The root directory is read from the struct the parent passed. It is not
among the fields `read_container_metadata` knows, so it is what the
parent's local held before (`StartEnv.junk`).
-/
import DockerClone.Container.Store
import DockerClone.Os.Mounts

namespace DockerClone.Container

open DockerClone.CLib DockerClone.Os

/-- An empty tmpfs. -/
def tmpfs : FileSystem := .ofEntries [([], .dir)] (by decide)

/-- The denied calls, and whether the inherited mounts are shared. -/
structure ChildEnv where
  sethostnameDenied : Bool
  shared : Bool
  privateDenied : Bool
  mountDenied : Bool
  mkdirDenied : Bool
  pivotDenied : Bool
  chdirDenied : Bool
  umountDenied : Bool
  rmdirDenied : Bool
  execDenied : Bool

inductive ChildEnd where
  /-- The image of the process was replaced: `argv`. -/
  | executed (argv : List (List Char))
  | returned (status : Int)
  deriving DecidableEq, Repr

structure ChildRun where
  hostname : Option (List Char)
  view : MountView
  cwd : Path
  outcome : ChildEnd

/-- `/bin/bash`, as the process sees it. -/
def findsShell (v : MountView) (cwd : Path) : Bool :=
  match v.resolve cwd "/bin/bash".toList with
  | some p =>
      match v.node p with
      | some (.file _) => true
      | _ => false
  | none => false

/-- The words given to `execlp`. -/
def childArgv (container : ContainerInfo) : List (List Char) :=
  if (cstr container.command).length > 0 then
    ["bash".toList, "-c".toList, cstr container.command]
  else ["bash".toList]

/-- The path the old root is put at. -/
def oldRootPath (container : ContainerInfo) : List Char :=
  snprintf 256 (cstr container.rootfsPath ++ "/old-root".toList)

/-- The mounts before the first call. -/
def hostView (host : FileSystem) : MountView := { lower := host, upper := tmpfs, layout := .plain }

section Stages

variable (container : ContainerInfo) (env : ChildEnv) (cwd : Path)

def mountRootfs (v : MountView) : MountView :=
  (v.mount cwd (cstr container.rootfsPath) env.mountDenied).getD v

def makeOldRoot (v : MountView) : MountView :=
  (v.mkdir cwd (oldRootPath container) env.mkdirDenied).getD v

/-- The kernel refuses to pivot below a shared mount. -/
def pivotRootfs (v : MountView) : MountView :=
  (v.pivotRoot cwd (cstr container.rootfsPath) (oldRootPath container)
    (env.pivotDenied || (env.shared && env.privateDenied))).getD v

def unmountOldRoot (v : MountView) : MountView :=
  (v.umountDetach cwd "/old-root".toList env.umountDenied).getD v

def removeOldRoot (v : MountView) : MountView :=
  (v.rmdir cwd "/old-root".toList env.rmdirDenied).getD v

end Stages

def childMain (container : ContainerInfo) (env : ChildEnv) (cwd : Path) (host : FileSystem) :
    ChildRun :=
  let hostname := if env.sethostnameDenied then none else some (cstr container.name)
  let v := pivotRootfs container env cwd
    (makeOldRoot container env cwd (mountRootfs container env cwd (hostView host)))
  let cwd := if env.chdirDenied then cwd else []
  let v := removeOldRoot env cwd (unmountOldRoot env cwd v)
  { hostname := hostname
    view := v
    cwd := cwd
    outcome :=
      if findsShell v cwd && !env.execDenied then .executed (childArgv container)
      else .returned 0 }

/-- The child `start_container` clones: it gets the struct the metadata
was read into. -/
def startedChild (containerId : List Char) (env : StartEnv) (child : ChildEnv) (w : World) :
    Option ChildRun :=
  (readContainerMetadata containerId env.readDenied w env.junk).map fun container =>
    childMain container child w.cwd w.fs

end DockerClone.Container
