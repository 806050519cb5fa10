/-
DockerClone.Client.Operations — the client's API calls.

Every operation connects, builds a URL, sends one request, receives one
response and compares its status with the one it expects. The daemon at
the other end is a `Link`: whether it can be reached, and what a request
text does there and brings back. `daemonLink` is the link to the daemon
of `Http.Router`.

The store's state travels with the request, so that an operation's result
is the client's return value together with the store it leaves.
-/
import DockerClone.Http.Router

namespace DockerClone.Client

open DockerClone.CLib DockerClone.Http

/-! ## 1. One exchange -/

/-- The other end of a connection. -/
structure Link (σ : Type) where
  connects : Bool
  /-- What `recv` returns after a request was sent, `none` when `send` or
  `recv` fails, and the store afterwards; `none` when the daemon writes
  past the end of an array. -/
  exchange : List Char → σ → Option (Option (List Char) × σ)

section Operations

variable {σ : Type} (link : Link σ) (statusJunk : Int32)

/-- The body every operation repeats: connect, send, receive, parse,
compare. `statusJunk` is what `status_code` holds at first. -/
def roundTrip (method : String) (url : List Char) (body : Option (List Char))
    (expected : Int32) (s : σ) : Option (Int × σ) :=
  if link.connects = false then some (-1, s)
  else
    match link.exchange (createHttpRequest method.toList url body) s with
    | none => none
    | some (none, s) => some (-1, s)
    | some (some received, s) =>
        let response := cstr (received.take (MAX_RESPONSE_SIZE - 1))
        match parseHttpResponse response statusJunk [] with
        | (0, statusCode, _) => if statusCode = expected then some (0, s) else some (-1, s)
        | _ => some (-1, s)

/-! ## 2. Operations -/

/-- `flag ? "true" : "false"`. -/
def boolText (flag : Int32) : String := if flag ≠ 0 then "true" else "false"

/-- The JSON text of `docker_run`; a NULL string has its default. -/
def runBody (image command workingDir envVars portMappings volumeMappings : Option (List Char))
    (interactive tty detach : Int32) : List Char :=
  "\x7b\"Image\":\"".toList ++ image.getD "ubuntu".toList
    ++ "\",\"Cmd\":[\"".toList ++ command.getD []
    ++ "\"],\"WorkingDir\":\"".toList ++ workingDir.getD "/".toList
    ++ "\",\"Env\":[\"".toList ++ envVars.getD []
    ++ "\"],\"PortBindings\":\"".toList ++ portMappings.getD []
    ++ "\",\"Binds\":[\"".toList ++ volumeMappings.getD []
    ++ "\"],\"AttachStdin\":".toList ++ (boolText interactive).toList
    ++ ",\"AttachStdout\":".toList ++ (boolText tty).toList
    ++ ",\"Detach\":".toList ++ (boolText detach).toList ++ "\x7d".toList

/-- `docker_run`. The name is not sent. -/
def dockerRun (image command _name workingDir envVars portMappings volumeMappings :
      Option (List Char)) (interactive tty detach : Int32) (s : σ) : Option (Int × σ) :=
  roundTrip link statusJunk "POST" "/containers/create".toList
    (some (snprintf 1024 (runBody image command workingDir envVars portMappings volumeMappings
      interactive tty detach))) 201 s

/-- The URL of `docker_build`. -/
def buildUrl (imageName dockerfilePath : Option (List Char)) : List Char :=
  "/build?t=".toList ++ imageName.getD "myimage".toList ++ "&dockerfile=".toList
    ++ dockerfilePath.getD "Dockerfile".toList

/-- `docker_build`. The context path is not sent. -/
def dockerBuild (imageName dockerfilePath _contextPath : Option (List Char)) (s : σ) :
    Option (Int × σ) :=
  roundTrip link statusJunk "POST" (snprintf 512 (buildUrl imageName dockerfilePath)) none 200 s

/-- `docker_images`; printing the list is left out. -/
def dockerImages (s : σ) : Option (Int × σ) :=
  roundTrip link statusJunk "GET" "/images/json".toList none 200 s

/-- `docker_containers`; printing the list is left out. -/
def dockerContainers (s : σ) : Option (Int × σ) :=
  roundTrip link statusJunk "GET" "/containers/json".toList none 200 s

/-- The URL of the operations on one container. -/
def containerUrl (containerId : List Char) (action : String) : List Char :=
  "/containers/".toList ++ containerId ++ action.toList

def dockerStop (containerId : Option (List Char)) (s : σ) : Option (Int × σ) :=
  match containerId with
  | none => some (-1, s)
  | some id =>
      roundTrip link statusJunk "POST" (snprintf 512 (containerUrl id "/stop")) none 204 s

def dockerRm (containerId : Option (List Char)) (s : σ) : Option (Int × σ) :=
  match containerId with
  | none => some (-1, s)
  | some id =>
      roundTrip link statusJunk "DELETE" (snprintf 512 (containerUrl id "/remove")) none 204 s

/-- The URL of `docker_rmi`. -/
def imageUrl (imageName : List Char) : List Char := "/images/".toList ++ imageName

def dockerRmi (imageName : Option (List Char)) (s : σ) : Option (Int × σ) :=
  match imageName with
  | none => some (-1, s)
  | some name => roundTrip link statusJunk "DELETE" (snprintf 512 (imageUrl name)) none 200 s

/-- `docker_version`; nothing in the program calls it. -/
def dockerVersion (s : σ) : Option (Int × σ) :=
  roundTrip link statusJunk "GET" "/version".toList none 200 s

/-- `docker_info`; nothing in the program calls it. -/
def dockerInfo (s : σ) : Option (Int × σ) :=
  roundTrip link statusJunk "GET" "/info".toList none 200 s

end Operations

/-! ## 3. Operations without the daemon

These three only print what they were given. -/

def dockerLogs (containerId : Option (List Char)) : Int :=
  if containerId = none then -1 else 0

def dockerExec (containerId command : Option (List Char)) : Int :=
  if containerId = none ∨ command = none then -1 else 0

def dockerCommit (containerId imageName _message : Option (List Char)) : Int :=
  if containerId = none ∨ imageName = none then -1 else 0

/-! ## 4. The daemon at the other end -/

/-- A daemon that listens, takes each request in one piece and answers in
one piece. -/
def daemonLink {σ : Type} (backend : Backend σ) (env : ClientEnv) : Link σ where
  connects := true
  exchange := fun text s =>
    (handleClient backend env text s).map fun answer => (some answer.1, answer.2)

end DockerClone.Client
