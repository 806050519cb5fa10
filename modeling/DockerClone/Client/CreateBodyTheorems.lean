/-
DockerClone.Client.CreateBodyTheorems — the JSON body of `docker_run` in
the hands of `handle_container_create`.

Encoder and decoder agree on keys and formats, but not on the place: the
body starts with a brace, and the decoder's formats are matched against
the start of the body. So nothing is ever decoded, the image name stays
empty, and `create_container` is not called for any request.
-/
import DockerClone.Client.Operations
import DockerClone.Http.HandlerTheorems
import DockerClone.Http.Recorder
import DockerClone.Http.WireTheorems

namespace DockerClone.Client

open DockerClone.CLib DockerClone.Http

/-! ## 1. The body -/

/-- What `docker_run` is asked for. -/
structure RunRequest where
  image : List Char
  command : List Char
  workingDir : List Char
  envVars : List Char
  portMappings : List Char
  volumeMappings : List Char
  interactive : Int32
  tty : Int32
  detach : Int32

/-- The JSON text `docker_run` sends for it. -/
def RunRequest.body (r : RunRequest) : List Char :=
  snprintf 1024 (runBody (some r.image) (some r.command) (some r.workingDir) (some r.envVars)
    (some r.portMappings) (some r.volumeMappings) r.interactive r.tty r.detach)

/-- The first character of the JSON text is its brace. -/
theorem head?_runBody (image command workingDir envVars portMappings volumeMappings :
    Option (List Char)) (interactive tty detach : Int32) :
    (runBody image command workingDir envVars portMappings volumeMappings interactive tty
      detach).head? = some '{' := by
  have hopen : "\x7b\"Image\":\"".toList.head? = some '{' := by decide
  unfold runBody
  simp only [List.head?_append, hopen, Option.some_or]

theorem RunRequest.head?_body (r : RunRequest) : r.body.head? = some '{' := by
  rw [RunRequest.body, snprintf, List.head?_take, if_neg (by decide), head?_runBody]

theorem RunRequest.length_body_lt (r : RunRequest) : r.body.length < 1024 := by
  unfold RunRequest.body snprintf
  have hlen := List.length_take_le 1023 (runBody (some r.image) (some r.command)
    (some r.workingDir) (some r.envVars) (some r.portMappings) (some r.volumeMappings)
    r.interactive r.tty r.detach)
  exact Nat.lt_succ_of_le hlen

theorem nulFree_boolText (flag : Int32) : NulFree (boolText flag).toList := by
  rw [boolText]
  split <;> decide

theorem RunRequest.nulFree_body {r : RunRequest} (himage : NulFree r.image)
    (hcommand : NulFree r.command) (hdir : NulFree r.workingDir) (henv : NulFree r.envVars)
    (hports : NulFree r.portMappings) (hvolumes : NulFree r.volumeMappings) :
    NulFree r.body := by
  unfold RunRequest.body snprintf
  refine NulFree.take ?_ _
  unfold runBody
  simp only [nulFree_append, Option.getD_some, nulFree_boolText, himage, hcommand, hdir, henv,
    hports, hvolumes, and_true]
  decide

/-! ## 2. The creation handler -/

/-- `create_container` was called once, with the values given. -/
def CreatesAsAsked {σ : Type} (r : RunRequest)
    (outcome : Option (Int × HttpResponse × σ × List StoreCall)) : Prop :=
  ∃ returned response s name result, outcome = some (returned, response, s,
    [.createContainer
      { name := name
        image := r.image
        command := some r.command
        workingDir := some r.workingDir
        envVars := some r.envVars
        portMappings := some r.portMappings
        volumeMappings := some r.volumeMappings
        interactive := r.interactive
        tty := r.tty
        detach := r.detach } result])

/-- No body of `docker_run` makes the handler create what was asked for. -/
theorem run_body_never_decoded {σ : Type} (backend : Backend σ) (r : RunRequest)
    (request : HttpRequest) (response : HttpResponse) (s : σ)
    (hbody : cstr request.body = r.body) :
    ¬ CreatesAsAsked r (handleContainerCreate (recorded backend) request response (s, [])) := by
  have hhead : (cstr request.body).head? ≠ some '"' := by
    rw [hbody, r.head?_body]
    decide
  rw [handleContainerCreate_of_head (recorded backend) hhead, reply]
  rintro ⟨returned, response', s', name, result, houtcome⟩
  simp at houtcome

/-! ## 3. A request for ubuntu -/

/-- An interactive shell, detached, with a port and a volume. -/
def ubuntuRun : RunRequest where
  image := "ubuntu".toList
  command := "bash".toList
  workingDir := "/root".toList
  envVars := "A=1".toList
  portMappings := "80:80".toList
  volumeMappings := "/data:/data".toList
  interactive := 1
  tty := 1
  detach := 1

/-- The request that carries it. -/
def ubuntuRequest : HttpRequest :=
  { emptyRequest with body := strcpy emptyRequest.body ubuntuRun.body }

def emptyResponse : HttpResponse where
  version := zeros MAX_VERSION_SIZE
  statusCode := 0
  statusMessage := zeros 64
  headers := zeros MAX_HEADER_SIZE
  body := zeros MAX_RESPONSE_SIZE
  contentLength := 0

theorem cstr_ubuntuRequest_body : cstr ubuntuRequest.body = ubuntuRun.body :=
  cstr_store (by decide) _

theorem ubuntu_body_not_decoded : ¬ CreatesAsAsked ubuntuRun
    (handleContainerCreate (recorded willingBackend) ubuntuRequest emptyResponse ((), [])) :=
  run_body_never_decoded willingBackend ubuntuRun ubuntuRequest emptyResponse ()
    cstr_ubuntuRequest_body

/-- The request is refused for want of an image name, in a store that
would have created anything. -/
theorem ubuntu_run_refused :
    handleContainerCreate (recorded willingBackend) ubuntuRequest emptyResponse ((), [])
      = reply emptyResponse 400 "Bad Request" "\x7b\"error\": \"Image name required\"\x7d" ((), []) ∧
    ¬ CreatesAsAsked ubuntuRun
      (handleContainerCreate (recorded willingBackend) ubuntuRequest emptyResponse ((), [])) := by
  have hhead : (cstr ubuntuRequest.body).head? ≠ some '"' := by
    rw [cstr_ubuntuRequest_body, ubuntuRun.head?_body]
    decide
  have hrefused := handleContainerCreate_of_head (recorded willingBackend) hhead emptyResponse
    ((), [])
  refine ⟨hrefused, ?_⟩
  rw [hrefused, reply]
  rintro ⟨returned, response, s, name, result, houtcome⟩
  simp at houtcome

end DockerClone.Client
