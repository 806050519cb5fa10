/-
DockerClone.Http.Recorder — which store operations a request leads to.

`recorded backend` is a backend over the same store that also keeps a log
of the calls made to it, each with its arguments and its result.
Everything that can be said about what a handler asks of the store is
said about that log. Keeping it changes nothing else:
`recorded_handleApiRequest` says that the answer and the store are those
of the backend itself.
-/
import DockerClone.Http.Router

namespace DockerClone.Http

open DockerClone.CLib DockerClone.Container

/-! ## 1. The log -/

/-- A call of a store operation, and what it returned. -/
inductive StoreCall where
  | createContainer (args : CreateArgs) (result : Int)
  | startContainer (id : List Char) (result : Int)
  | stopContainer (id : List Char) (result : Int)
  | removeContainer (id : List Char) (result : Int)
  | listContainers (listed : Bool)
  | parseDockerfile (path : List Char) (parsed : Bool)
  | buildImageFromDockerfile (name tag contextPath : List Char) (result : Int)
  | listImages (listed : Bool)
  | removeImage (name : List Char) (result : Int)
  deriving DecidableEq

/-- The call returned 0, or something other than NULL. -/
def StoreCall.Succeeded : StoreCall → Prop
  | .createContainer _ result => result = 0
  | .startContainer _ result => result = 0
  | .stopContainer _ result => result = 0
  | .removeContainer _ result => result = 0
  | .listContainers listed => listed = true
  | .parseDockerfile _ parsed => parsed = true
  | .buildImageFromDockerfile _ _ _ result => result = 0
  | .listImages listed => listed = true
  | .removeImage _ result => result = 0

section Recorder

variable {σ α : Type}

/-- Log an answered call. -/
def logged (call : α → StoreCall) (answer : α × σ) (log : List StoreCall) :
    α × σ × List StoreCall :=
  (answer.1, answer.2, log ++ [call answer.1])

variable (backend : Backend σ)

/-- The backend with a log beside its store. -/
def recorded : Backend (σ × List StoreCall) where
  createContainer := fun args s =>
    logged (.createContainer args) (backend.createContainer args s.1) s.2
  startContainer := fun id s =>
    logged (.startContainer id) (backend.startContainer id s.1) s.2
  stopContainer := fun id s =>
    logged (.stopContainer id) (backend.stopContainer id s.1) s.2
  removeContainer := fun id s =>
    logged (.removeContainer id) (backend.removeContainer id s.1) s.2
  listContainers := fun s =>
    logged (fun listed => .listContainers listed.isSome) (backend.listContainers s.1) s.2
  Dockerfile := backend.Dockerfile
  parseDockerfile := fun path s =>
    logged (fun parsed => .parseDockerfile path parsed.isSome)
      (backend.parseDockerfile path s.1) s.2
  buildImageFromDockerfile := fun dockerfile name tag contextPath s =>
    logged (.buildImageFromDockerfile name tag contextPath)
      (backend.buildImageFromDockerfile dockerfile name tag contextPath s.1) s.2
  listImages := fun s =>
    logged (fun listed => .listImages listed.isSome) (backend.listImages s.1) s.2
  removeImage := fun name s =>
    logged (.removeImage name) (backend.removeImage name s.1) s.2

/-! ## 2. The log is only a log -/

/-- An outcome without its log. -/
def unlogged {β : Type} (outcome : Option (Int × β × σ × List StoreCall)) :
    Option (Int × β × σ) :=
  outcome.map fun o => (o.1, o.2.1, o.2.2.1)

@[simp] theorem unlogged_reply (response : HttpResponse) (status : Int32)
    (message body : String) (s : σ × List StoreCall) :
    unlogged (reply response status message body s) = reply response status message body s.1 :=
  rfl

@[simp] theorem unlogged_bind {β γ : Type} (x : Option γ)
    (f : γ → Option (Int × β × σ × List StoreCall)) :
    unlogged (x.bind f) = x.bind fun c => unlogged (f c) := by
  cases x <;> rfl

@[simp] theorem unlogged_ite {β : Type} (c : Prop) [Decidable c]
    (x y : Option (Int × β × σ × List StoreCall)) :
    unlogged (if c then x else y) = if c then unlogged x else unlogged y := by
  split <;> rfl

theorem recorded_handleContainerCreate (request : HttpRequest) (response : HttpResponse)
    (s : σ × List StoreCall) :
    unlogged (handleContainerCreate (recorded backend) request response s)
      = handleContainerCreate backend request response s.1 := by
  simp only [handleContainerCreate, Option.bind_eq_bind, unlogged_bind, unlogged_ite,
    unlogged_reply]
  rfl

theorem recorded_handleContainerOperation
    {operation : List Char → σ → Int × σ}
    {recordedOperation : List Char → σ × List StoreCall → Int × σ × List StoreCall}
    {call : List Char → Int → StoreCall}
    (hop : ∀ id s, recordedOperation id s = logged (call id) (operation id s.1) s.2)
    (failure : String) (request : HttpRequest) (response : HttpResponse)
    (s : σ × List StoreCall) :
    unlogged (handleContainerOperation recordedOperation failure request response s)
      = handleContainerOperation operation failure request response s.1 := by
  simp only [handleContainerOperation]
  cases extractContainerIdFromUrl (cstr request.url) with
  | none => rfl
  | some id => simp only [hop, logged, unlogged_ite, unlogged_reply]

theorem recorded_handleImageList (request : HttpRequest) (response : HttpResponse)
    (s : σ × List StoreCall) :
    unlogged (handleImageList (recorded backend) request response s)
      = handleImageList backend request response s.1 := by
  simp only [handleImageList, handleList]
  cases hlist : backend.listImages s.1 with
  | mk listed s' =>
    cases listed with
    | none => simp [recorded, logged, hlist]
    | some items => simp [recorded, logged, hlist, unlogged]

theorem recorded_parseDockerfile (path : List Char) (s : σ × List StoreCall) :
    (recorded backend).parseDockerfile path s
      = logged (fun parsed : Option backend.Dockerfile => .parseDockerfile path parsed.isSome)
        (backend.parseDockerfile path s.1) s.2 := rfl

theorem recorded_handleImageBuild (request : HttpRequest) (response : HttpResponse)
    (s : σ × List StoreCall) :
    unlogged (handleImageBuild (recorded backend) request response s)
      = handleImageBuild backend request response s.1 := by
  simp only [handleImageBuild, Option.bind_eq_bind, unlogged_bind, unlogged_ite, unlogged_reply]
  refine congrArg _ (funext fun imageName => congrArg _ (funext fun dockerfilePath => ?_))
  split
  · rfl
  · generalize (cstr (if (cstr dockerfilePath).length = 0 then
      strcpy dockerfilePath "Dockerfile".toList else dockerfilePath)) = path
    obtain ⟨parsed, s', hparse⟩ : ∃ parsed s', backend.parseDockerfile path s.1 = (parsed, s') :=
      ⟨_, _, rfl⟩
    have hrecorded : (recorded backend).parseDockerfile path s
        = (parsed, s', s.2 ++ [.parseDockerfile path parsed.isSome]) := by
      rw [recorded_parseDockerfile, hparse]
      rfl
    rw [hparse, hrecorded]
    cases parsed with
    | none => rfl
    | some dockerfile => exact unlogged_ite _ _ _

theorem recorded_handleImageRemove (request : HttpRequest) (response : HttpResponse)
    (s : σ × List StoreCall) :
    unlogged (handleImageRemove (recorded backend) request response s)
      = handleImageRemove backend request response s.1 := by
  simp only [handleImageRemove]
  cases extractImageNameFromUrl (cstr request.url) with
  | none => rfl
  | some name => exact unlogged_ite _ _ _

theorem recorded_handleContainersApi (request : HttpRequest) (response : HttpResponse)
    (s : σ × List StoreCall) :
    unlogged (handleContainersApi (recorded backend) request response s)
      = handleContainersApi backend request response s.1 := by
  have hstart : unlogged (handleContainerStart (recorded backend) request response s)
      = handleContainerStart backend request response s.1 :=
    recorded_handleContainerOperation (fun _ _ => rfl) _ _ _ _
  have hstop : unlogged (handleContainerStop (recorded backend) request response s)
      = handleContainerStop backend request response s.1 :=
    recorded_handleContainerOperation (fun _ _ => rfl) _ _ _ _
  have hremove : unlogged (handleContainerRemove (recorded backend) request response s)
      = handleContainerRemove backend request response s.1 :=
    recorded_handleContainerOperation (fun _ _ => rfl) _ _ _ _
  simp only [handleContainersApi, unlogged_ite, unlogged_reply, recorded_handleContainerCreate,
    hstart, hstop, hremove]

theorem recorded_handleImagesApi (request : HttpRequest) (response : HttpResponse)
    (s : σ × List StoreCall) :
    unlogged (handleImagesApi (recorded backend) request response s)
      = handleImagesApi backend request response s.1 := by
  simp only [handleImagesApi, unlogged_ite, unlogged_reply, recorded_handleImageList,
    recorded_handleImageBuild, recorded_handleImageRemove]

/-- Recording the calls changes neither the answer nor the store. -/
theorem recorded_handleApiRequest (request : HttpRequest) (response : HttpResponse)
    (s : σ × List StoreCall) :
    unlogged (handleApiRequest (recorded backend) request response s)
      = handleApiRequest backend request response s.1 := by
  simp only [handleApiRequest, unlogged_ite, unlogged_reply, recorded_handleContainersApi,
    recorded_handleImagesApi]

end Recorder

/-- A store in which every operation succeeds and nothing is listed. -/
def willingBackend : Backend Unit where
  createContainer := fun _ s => (0, s)
  startContainer := fun _ s => (0, s)
  stopContainer := fun _ s => (0, s)
  removeContainer := fun _ s => (0, s)
  listContainers := fun s => (some [], s)
  Dockerfile := Unit
  parseDockerfile := fun _ s => (some (), s)
  buildImageFromDockerfile := fun _ _ _ _ s => (0, s)
  listImages := fun s => (some [], s)
  removeImage := fun _ s => (0, s)

end DockerClone.Http
