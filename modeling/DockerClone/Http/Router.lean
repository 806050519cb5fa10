/-
DockerClone.Http.Router — the daemon's routing and its request handlers.

The handlers act on the store through a `Backend`: the operations of
`core/container.c`, `core/image.c` and `core/dockerfile.c` they call, over
any state. What a handler asks of the store, and in which order, is
therefore part of its definition and nothing about the store is.

A handler answers with its return value, the response and the store
afterwards. `none` means that a string was written past the end of one of
its local arrays.
-/
import DockerClone.Http.Message
import DockerClone.Container.Store

namespace DockerClone.Http

open DockerClone.CLib DockerClone.Container

/-! ## 1. The store as the handlers see it -/

/-- What `handle_container_list` prints of a record: its arrays. -/
structure ContainerSummary where
  id : List Char
  name : List Char
  image : List Char
  command : List Char
  created : List Char
  state : Int32
  deriving DecidableEq, Repr

/-- What `handle_image_list` prints of a record: its arrays. -/
structure ImageSummary where
  id : List Char
  name : List Char
  tag : List Char
  created : List Char
  size : List Char
  deriving DecidableEq, Repr

/-- The store operations the handlers call; `none` is a NULL result. -/
structure Backend (σ : Type) where
  createContainer : CreateArgs → σ → Int × σ
  startContainer : List Char → σ → Int × σ
  stopContainer : List Char → σ → Int × σ
  removeContainer : List Char → σ → Int × σ
  listContainers : σ → Option (List ContainerSummary) × σ
  /-- `dockerfile_t`. -/
  Dockerfile : Type
  parseDockerfile : List Char → σ → Option Dockerfile × σ
  /-- Dockerfile, image name, tag, context path. -/
  buildImageFromDockerfile : Dockerfile → List Char → List Char → List Char → σ → Int × σ
  listImages : σ → Option (List ImageSummary) × σ
  removeImage : List Char → σ → Int × σ

section Handlers

variable {σ : Type} (backend : Backend σ)

/-- `create_http_response(response, status, message, body); return 0;`. -/
def reply (response : HttpResponse) (status : Int32) (message body : String) (s : σ) :
    Option (Int × HttpResponse × σ) :=
  some (0, createHttpResponse response status message.toList body.toList, s)

/-! ## 2. Parts of a URL -/

/-- The text between `start` and the next slash, if it is shorter than
256: the common body of the two functions below. -/
def extractSegment (start : String) (url : List Char) : Option (List Char) :=
  match strstr url start.toList with
  | none => none
  | some found =>
      let rest := found.drop start.toList.length
      let len := match strchr rest '/' with
        | some slash => rest.length - slash.length
        | none => rest.length
      if len ≥ 256 then none else some (rest.take len)

/-- `extract_container_id_from_url`; `none` is the return value -1. -/
def extractContainerIdFromUrl (url : List Char) : Option (List Char) :=
  extractSegment "/containers/" url

/-- `extract_image_name_from_url`. -/
def extractImageNameFromUrl (url : List Char) : Option (List Char) :=
  extractSegment "/images/" url

/-! ## 3. Container handlers -/

/-- `if (strstr(body, key)) sscanf(body, format, array)` on a zeroed
array of `size` bytes. -/
def scanField (size : Nat) (body : List Char) (key format : String) : Option (List Char) :=
  if found body key.toList then scanWithin size body format.toList (zeros size)
  else some (zeros size)

def handleContainerCreate (request : HttpRequest) (response : HttpResponse) (s : σ) :
    Option (Int × HttpResponse × σ) := do
  let body := cstr request.body
  let containerName := zeros 256
  let imageName ← scanField 256 body "\"Image\"" "\"Image\":\"%[^\"]\""
  let command ← scanField 512 body "\"Cmd\"" "\"Cmd\":[\"%[^\"]\""
  let workingDir ← scanField 256 body "\"WorkingDir\"" "\"WorkingDir\":\"%[^\"]\""
  let envVars ← scanField 512 body "\"Env\"" "\"Env\":[\"%[^\"]\""
  let portMappings ← scanField 256 body "\"PortBindings\"" "\"PortBindings\":\"%[^\"]\""
  let volumeMappings ← scanField 256 body "\"Binds\"" "\"Binds\":[\"%[^\"]\""
  let interactive := if found body "\"AttachStdin\"".toList then 1 else 0
  let tty := if found body "\"AttachStdout\"".toList then 1 else 0
  let detach := if found body "\"Detach\"".toList then 1 else 0
  if (cstr imageName).length = 0 then
    reply response 400 "Bad Request" "\x7b\"error\": \"Image name required\"\x7d" s
  else
    let (result, s) := backend.createContainer
      { name := some (cstr containerName)
        image := cstr imageName
        command := some (cstr command)
        workingDir := some (cstr workingDir)
        envVars := some (cstr envVars)
        portMappings := some (cstr portMappings)
        volumeMappings := some (cstr volumeMappings)
        interactive := interactive
        tty := tty
        detach := detach } s
    if result = 0 then
      reply response 201 "Created" "\x7b\"Id\": \"container_created\", \"Warnings\": []\x7d" s
    else
      reply response 500 "Internal Server Error" "\x7b\"error\": \"Failed to create container\"\x7d" s

/-- The common body of the handlers for one container: take the id from
the URL, call the operation, answer 204 or 500. -/
def handleContainerOperation (operation : List Char → σ → Int × σ) (failure : String)
    (request : HttpRequest) (response : HttpResponse) (s : σ) :
    Option (Int × HttpResponse × σ) :=
  match extractContainerIdFromUrl (cstr request.url) with
  | none => reply response 400 "Bad Request" "\x7b\"error\": \"Invalid container ID\"\x7d" s
  | some containerId =>
      let (result, s) := operation containerId s
      if result = 0 then reply response 204 "No Content" "" s
      else reply response 500 "Internal Server Error" failure s

def handleContainerStart : HttpRequest → HttpResponse → σ → Option (Int × HttpResponse × σ) :=
  handleContainerOperation backend.startContainer "\x7b\"error\": \"Failed to start container\"\x7d"

def handleContainerStop : HttpRequest → HttpResponse → σ → Option (Int × HttpResponse × σ) :=
  handleContainerOperation backend.stopContainer "\x7b\"error\": \"Failed to stop container\"\x7d"

def handleContainerRemove : HttpRequest → HttpResponse → σ → Option (Int × HttpResponse × σ) :=
  handleContainerOperation backend.removeContainer "\x7b\"error\": \"Failed to remove container\"\x7d"

/-! ## 4. Lists -/

/-- The loop of the list handlers: append the entries, a comma after each
but the last, to a 4096-byte array. -/
def appendEntries {α : Type} (entry : α → List Char) : List α → List Char → Option (List Char)
  | [], json => some json
  | x :: xs, json => do
      let json ← strcatWithin 4096 json (entry x)
      let json ← if xs = [] then some json else strcatWithin 4096 json ",".toList
      appendEntries entry xs json

/-- A JSON array of entries in a 4096-byte array. -/
def listJson {α : Type} (entry : α → List Char) (items : List α) : Option (List Char) := do
  let json ← appendEntries entry items (store (zeros 4096) "[".toList)
  strcatWithin 4096 json "]".toList

/-- The whole expansion of the format of `handle_container_list`. -/
def containerText (c : ContainerSummary) : List Char :=
  "\x7b\"Id\":\"".toList ++ cstr c.id ++ "\",\"Names\":[\"".toList ++ cstr c.name
    ++ "\"],\"Image\":\"".toList ++ cstr c.image ++ "\",\"Command\":\"".toList
    ++ cstr c.command ++ "\",\"Created\":".toList ++ cstr c.created ++ ",\"Status\":\"".toList
    ++ (if c.state = ContainerState.running.code then "running" else "exited").toList
    ++ "\"\x7d".toList

/-- And of `handle_image_list`. -/
def imageText (i : ImageSummary) : List Char :=
  "\x7b\"Id\":\"".toList ++ cstr i.id ++ "\",\"RepoTags\":[\"".toList ++ cstr i.name
    ++ ":".toList ++ cstr i.tag ++ "\"],\"Created\":".toList ++ cstr i.created
    ++ ",\"Size\":".toList ++ cstr i.size ++ "\x7d".toList

/-- One entry of a list, in its array. -/
def containerJson (c : ContainerSummary) : List Char := snprintf 512 (containerText c)

def imageJson (i : ImageSummary) : List Char := snprintf 512 (imageText i)

/-- The common body of the list handlers. -/
def handleList {α : Type} (list : σ → Option (List α) × σ) (entry : α → List Char)
    (failure : String) (response : HttpResponse) (s : σ) :
    Option (Int × HttpResponse × σ) :=
  match list s with
  | (none, s) => reply response 500 "Internal Server Error" failure s
  | (some items, s) => do
      let json ← listJson entry items
      some (0, createHttpResponse response 200 "OK".toList (cstr json), s)

/-- Not routed to: its call in `handle_containers_api` is commented out. -/
def handleContainerList (_request : HttpRequest) (response : HttpResponse) (s : σ) :
    Option (Int × HttpResponse × σ) :=
  handleList backend.listContainers containerJson "\x7b\"error\": \"Failed to list containers\"\x7d"
    response s

def handleImageList (_request : HttpRequest) (response : HttpResponse) (s : σ) :
    Option (Int × HttpResponse × σ) :=
  handleList backend.listImages imageJson "\x7b\"error\": \"Failed to list images\"\x7d" response s

/-! ## 5. Image handlers -/

/-- `if (strstr(url, key)) sscanf(strstr(url, key), format, array)` on a
zeroed array of 256 bytes. -/
def scanParameter (url : List Char) (key format : String) : Option (List Char) :=
  match strstr url key.toList with
  | some t => scanWithin 256 t format.toList (zeros 256)
  | none => some (zeros 256)

def handleImageBuild (request : HttpRequest) (response : HttpResponse) (s : σ) :
    Option (Int × HttpResponse × σ) := do
  let url := cstr request.url
  let imageName ← scanParameter url "t=" "t=%[^&]"
  let dockerfilePath ← scanParameter url "dockerfile=" "dockerfile=%[^&]"
  if (cstr imageName).length = 0 then
    reply response 400 "Bad Request" "\x7b\"error\": \"Image name required\"\x7d" s
  else
    let dockerfilePath :=
      if (cstr dockerfilePath).length = 0 then strcpy dockerfilePath "Dockerfile".toList
      else dockerfilePath
    let contextPath := strcpy (zeros 256) ".".toList
    match backend.parseDockerfile (cstr dockerfilePath) s with
    | (none, s) =>
        reply response 500 "Internal Server Error" "\x7b\"error\": \"Failed to parse Dockerfile\"\x7d" s
    | (some dockerfile, s) =>
        let (result, s) := backend.buildImageFromDockerfile dockerfile (cstr imageName)
          "latest".toList (cstr contextPath) s
        if result = 0 then
          reply response 200 "OK" "\x7b\"message\": \"Image built successfully\"\x7d" s
        else
          reply response 500 "Internal Server Error" "\x7b\"error\": \"Failed to build image\"\x7d" s

def handleImageRemove (request : HttpRequest) (response : HttpResponse) (s : σ) :
    Option (Int × HttpResponse × σ) :=
  match extractImageNameFromUrl (cstr request.url) with
  | none => reply response 400 "Bad Request" "\x7b\"error\": \"Invalid image name\"\x7d" s
  | some imageName =>
      let (result, s) := backend.removeImage imageName s
      if result = 0 then
        reply response 200 "OK" "\x7b\"message\": \"Image removed successfully\"\x7d" s
      else
        reply response 500 "Internal Server Error" "\x7b\"error\": \"Failed to remove image\"\x7d" s

/-! ## 6. Routing -/

def handleContainersApi (request : HttpRequest) (response : HttpResponse) (s : σ) :
    Option (Int × HttpResponse × σ) :=
  let method := cstr request.method
  let url := cstr request.url
  let notFound := reply response 404 "Not Found"
    "\x7b\"error\": \"Container API endpoint not found\"\x7d" s
  if method = "GET".toList then
    -- the first branch is empty: the call that stood in it is commented out
    if found url "/containers/json".toList then notFound
    else if found url "/containers/".toList && found url "/start".toList then
      handleContainerStart backend request response s
    else if found url "/containers/".toList && found url "/stop".toList then
      handleContainerStop backend request response s
    else if found url "/containers/".toList && found url "/remove".toList then
      handleContainerRemove backend request response s
    else notFound
  else if method = "POST".toList then
    if found url "/containers/create".toList then handleContainerCreate backend request response s
    else notFound
  else notFound

def handleImagesApi (request : HttpRequest) (response : HttpResponse) (s : σ) :
    Option (Int × HttpResponse × σ) :=
  let method := cstr request.method
  let url := cstr request.url
  let notFound := reply response 404 "Not Found"
    "\x7b\"error\": \"Image API endpoint not found\"\x7d" s
  if method = "GET".toList then
    if found url "/images/json".toList then handleImageList backend request response s
    else notFound
  else if method = "POST".toList then
    if found url "/build".toList then handleImageBuild backend request response s
    else notFound
  else if method = "DELETE".toList then
    if found url "/images/".toList then handleImageRemove backend request response s
    else notFound
  else notFound

def handleApiRequest (request : HttpRequest) (response : HttpResponse) (s : σ) :
    Option (Int × HttpResponse × σ) :=
  let url := cstr request.url
  if found url "/containers".toList then handleContainersApi backend request response s
  else if found url "/images".toList then handleImagesApi backend request response s
  else reply response 404 "Not Found" "\x7b\"error\": \"API endpoint not found\"\x7d" s

/-! ## 7. One connection -/

/-- What `handle_client` finds: whether `strdup` returns a copy, and the
bytes its local request and response hold at first. -/
structure ClientEnv where
  copied : Bool
  request : HttpRequest
  /-- The declared size of `url`. -/
  url_size : request.url.length = MAX_URL_SIZE
  response : HttpResponse

/-- `handle_client` on the bytes one `recv` returned: the text sent back,
empty when the connection is closed without one. -/
def handleClient (env : ClientEnv) (received : List Char) (s : σ) :
    Option (List Char × σ) :=
  if received = [] then some ([], s)
  else
    match parseHttpRequest env.copied (cstr (received.take (MAX_REQUEST_SIZE - 1)))
        env.request with
    | none => none
    | some (0, request) =>
        match handleApiRequest backend request env.response s with
        | none => none
        | some (result, response, s) =>
            let response :=
              if result ≠ 0 then
                createHttpResponse response 500 "Internal Server Error".toList
                  "Failed to handle request".toList
              else response
            some (sendHttpResponse response, s)
    | some (_, _) =>
        some (sendHttpResponse (createHttpResponse env.response 400 "Bad Request".toList
          "Invalid HTTP request".toList), s)

end Handlers

end DockerClone.Http
