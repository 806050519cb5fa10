/-
DockerClone.Client.ApiTheorems — the client's operations against the
daemon's routes.

`perform_of_answered` carries a client operation across the wire: what
the client returns is decided by the status with which
`handle_api_request` answers the request line, with no headers and an
empty body. The rest is routing. Run, stop, rm, build and containers are
answered without a call of any store operation; only the image list and
the removal of an image are served (`agrees_iff`).
-/
import DockerClone.Client.CreateBodyTheorems

namespace DockerClone.Client

open DockerClone.CLib DockerClone.Http

/-! ## 1. Operations -/

/-- A client operation with its arguments. -/
inductive ClientOp where
  | run (request : RunRequest) (name : List Char)
  | build (imageName dockerfilePath contextPath : List Char)
  | images
  | containers
  | stop (containerId : List Char)
  | rm (containerId : List Char)
  | rmi (imageName : List Char)

namespace ClientOp

/-- Call the client function of the operation. -/
def perform {σ : Type} (link : Link σ) (statusJunk : Int32) :
    ClientOp → σ → Option (Int × σ)
  | run r name, s =>
      dockerRun link statusJunk (some r.image) (some r.command) (some name) (some r.workingDir)
        (some r.envVars) (some r.portMappings) (some r.volumeMappings) r.interactive r.tty
        r.detach s
  | build imageName dockerfilePath contextPath, s =>
      dockerBuild link statusJunk (some imageName) (some dockerfilePath) (some contextPath) s
  | images, s => dockerImages link statusJunk s
  | containers, s => dockerContainers link statusJunk s
  | stop containerId, s => dockerStop link statusJunk (some containerId) s
  | rm containerId, s => dockerRm link statusJunk (some containerId) s
  | rmi imageName, s => dockerRmi link statusJunk (some imageName) s

/-- The strings an operation is given. -/
def arguments : ClientOp → List (List Char)
  | run r name => [r.image, r.command, name, r.workingDir, r.envVars, r.portMappings,
      r.volumeMappings]
  | build imageName dockerfilePath contextPath => [imageName, dockerfilePath, contextPath]
  | images => []
  | containers => []
  | stop containerId => [containerId]
  | rm containerId => [containerId]
  | rmi imageName => [imageName]

def method : ClientOp → String
  | run _ _ => "POST"
  | build _ _ _ => "POST"
  | images => "GET"
  | containers => "GET"
  | stop _ => "POST"
  | rm _ => "DELETE"
  | rmi _ => "DELETE"

/-- The URL of an operation, before it is cut to its array. -/
def url : ClientOp → List Char
  | run _ _ => "/containers/create".toList
  | build imageName dockerfilePath _ => buildUrl (some imageName) (some dockerfilePath)
  | images => "/images/json".toList
  | containers => "/containers/json".toList
  | stop containerId => containerUrl containerId "/stop"
  | rm containerId => containerUrl containerId "/remove"
  | rmi imageName => imageUrl imageName

def body : ClientOp → Option (List Char)
  | run r _ => some r.body
  | _ => none

/-- The status the client takes for success. -/
def expected : ClientOp → Int32
  | run _ _ => 201
  | build _ _ _ => 200
  | images => 200
  | containers => 200
  | stop _ => 204
  | rm _ => 204
  | rmi _ => 200

end ClientOp

/-- A string the API's URLs can carry. -/
structure IsArgument (w : List Char) : Prop where
  nonempty : w ≠ []
  noBreak : ∀ c ∈ w, c ≠ '/' ∧ c ≠ ' ' ∧ c ≠ '&' ∧ c ≠ '\r' ∧ c ≠ '\n'
  nulFree : NulFree w

instance (w : List Char) : Decidable (IsArgument w) :=
  decidable_of_iff
    (w ≠ [] ∧ (∀ c ∈ w, c ≠ '/' ∧ c ≠ ' ' ∧ c ≠ '&' ∧ c ≠ '\r' ∧ c ≠ '\n') ∧ NulFree w)
    ⟨fun h => ⟨h.1, h.2.1, h.2.2⟩, fun h => ⟨h.1, h.2, h.3⟩⟩

/-- An operation whose arguments are such strings and fit the URL. -/
structure Sendable (op : ClientOp) : Prop where
  arguments : ∀ w ∈ op.arguments, IsArgument w
  fits : op.url.length < MAX_URL_SIZE

instance (op : ClientOp) : Decidable (Sendable op) :=
  decidable_of_iff ((∀ w ∈ op.arguments, IsArgument w) ∧ op.url.length < MAX_URL_SIZE)
    ⟨fun h => ⟨h.1, h.2⟩, fun h => ⟨h.1, h.2⟩⟩

theorem IsArgument.isWord {w : List Char} (h : IsArgument w) : IsWord w where
  nonempty := h.nonempty
  noBreak := fun c hc => ⟨(h.noBreak c hc).2.1, (h.noBreak c hc).2.2.2⟩
  nulFree := h.nulFree

theorem IsArgument.no_slash {w : List Char} (h : IsArgument w) : '/' ∉ w :=
  fun hm => (h.noBreak '/' hm).1 rfl

/-! ## 2. What is sent -/

section Sent

variable {op : ClientOp} (hop : Sendable op)

include hop

theorem isWord_url : IsWord op.url := by
  have hargs := hop.arguments
  cases op with
  | run r name => exact (by decide : IsWord "/containers/create".toList)
  | build imageName dockerfilePath contextPath =>
    have hname := (hargs imageName (by simp [ClientOp.arguments])).isWord
    have hpath := (hargs dockerfilePath (by simp [ClientOp.arguments])).isWord
    have hfront : IsWord "/build?t=".toList := by decide
    have hmiddle : IsWord "&dockerfile=".toList := by decide
    exact ((hfront.append hname).append hmiddle).append hpath
  | images => exact (by decide : IsWord "/images/json".toList)
  | containers => exact (by decide : IsWord "/containers/json".toList)
  | stop containerId =>
    have hid := (hargs containerId (by simp [ClientOp.arguments])).isWord
    have hfront : IsWord "/containers/".toList := by decide
    have hback : IsWord "/stop".toList := by decide
    exact (hfront.append hid).append hback
  | rm containerId =>
    have hid := (hargs containerId (by simp [ClientOp.arguments])).isWord
    have hfront : IsWord "/containers/".toList := by decide
    have hback : IsWord "/remove".toList := by decide
    exact (hfront.append hid).append hback
  | rmi imageName =>
    have hname := (hargs imageName (by simp [ClientOp.arguments])).isWord
    have hfront : IsWord "/images/".toList := by decide
    exact hfront.append hname

omit hop in
theorem method_cases (op : ClientOp) :
    op.method = "GET" ∨ op.method = "POST" ∨ op.method = "DELETE" := by
  cases op <;> simp [ClientOp.method]

omit hop in
theorem isWord_method (op : ClientOp) : IsWord op.method.toList := by
  rcases method_cases op with h | h | h <;> rw [h] <;> decide

omit hop in
theorem length_method_le (op : ClientOp) : op.method.toList.length ≤ 6 := by
  rcases method_cases op with h | h | h <;> rw [h] <;> decide

omit hop in
theorem body_run (r : RunRequest) (name : List Char) :
    (ClientOp.run r name).body.getD [] = r.body := by
  rw [ClientOp.body, Option.getD_some]

omit hop in
theorem body_cases (op : ClientOp) : op.body = none ∨ ∃ r name, op = .run r name := by
  cases op <;> simp [ClientOp.body]

theorem nulFree_body : NulFree (op.body.getD []) := by
  rcases body_cases op with h | ⟨r, name, rfl⟩
  · rw [h]
    exact nulFree_nil
  · have hargs : ∀ w ∈ (ClientOp.run r name).arguments, NulFree w :=
      fun w hw => (hop.arguments w hw).nulFree
    simp only [ClientOp.arguments, List.forall_mem_cons] at hargs
    obtain ⟨himage, hcommand, -, hdir, henv, hports, hvolumes, -⟩ := hargs
    rw [body_run]
    exact RunRequest.nulFree_body himage hcommand hdir henv hports hvolumes

omit hop in
theorem length_body_lt (op : ClientOp) : (op.body.getD []).length < 1024 := by
  rcases body_cases op with h | ⟨r, name, rfl⟩
  · rw [h]
    exact Nat.zero_lt_succ _
  · rw [body_run]
    exact r.length_body_lt

/-- The whole request fits the client's buffer. -/
theorem length_request_lt :
    (requestText op.method.toList op.url (op.body.getD [])).length < CLIENT_MAX_REQUEST_SIZE := by
  have hlen := length_requestText_le op.method.toList op.url (op.body.getD [])
  have hmethod := length_method_le op
  have hurl := hop.fits
  have hbody := length_body_lt op
  rw [MAX_URL_SIZE] at hurl
  rw [CLIENT_MAX_REQUEST_SIZE]
  omega

/-- Every operation is one exchange. -/
theorem perform_eq {σ : Type} (link : Link σ) (statusJunk : Int32) (s : σ) :
    op.perform link statusJunk s
      = roundTrip link statusJunk op.method op.url op.body op.expected s := by
  have hurl : snprintf 512 op.url = op.url := snprintf_of_lt hop.fits
  cases op with
  | run r name => rfl
  | build imageName dockerfilePath contextPath =>
    exact congrArg (fun u => roundTrip link statusJunk "POST" u none 200 s) hurl
  | images => rfl
  | containers => rfl
  | stop containerId =>
    exact congrArg (fun u => roundTrip link statusJunk "POST" u none 204 s) hurl
  | rm containerId =>
    exact congrArg (fun u => roundTrip link statusJunk "DELETE" u none 204 s) hurl
  | rmi imageName =>
    exact congrArg (fun u => roundTrip link statusJunk "DELETE" u none 200 s) hurl

end Sent

/-! ## 3. Across the wire -/

section Wire

variable {σ : Type}

/-- A response that reaches the client whole decides what it returns. -/
theorem roundTrip_of_response {link : Link σ} {method : String} {url : List Char}
    {requestBody : Option (List Char)} {status : Int32} {message body : List Char} {s s' : σ}
    (hconnects : link.connects = true) (hfits : Fits message body)
    (hexchange : link.exchange (createHttpRequest method.toList url requestBody) s
      = some (some (responseText status message body), s'))
    (statusJunk expected : Int32) :
    roundTrip link statusJunk method url requestBody expected s
      = some (if status = expected then 0 else -1, s') := by
  have hlen := length_responseText_lt hfits status
  have hreceived : cstr ((responseText status message body).take (MAX_RESPONSE_SIZE - 1))
      = responseText status message body := by
    rw [MAX_RESPONSE_SIZE, List.take_of_length_le (by omega)]
    exact cstr_of_nulFree (nulFree_responseText hfits status)
  obtain ⟨received, hparse⟩ := parse_responseText status statusJunk message body []
  rw [roundTrip, if_neg (by simp [hconnects]), hexchange]
  simp only [hreceived, hparse]
  split <;> rfl

variable {op : ClientOp} (hop : Sendable op) {backend : Backend σ} {env : ClientEnv}

include hop

/-- The daemon receives the request as it was sent. -/
theorem received_request :
    createHttpRequest op.method.toList op.url op.body ≠ [] ∧
    cstr ((createHttpRequest op.method.toList op.url op.body).take (MAX_REQUEST_SIZE - 1))
      = createHttpRequest op.method.toList op.url op.body := by
  have hlen := length_request_lt hop
  have hnul := nulFree_requestText (isWord_method op) (isWord_url hop) (nulFree_body hop)
  rw [createHttpRequest, snprintf_of_lt hlen]
  refine ⟨?_, ?_⟩
  · have hne := (isWord_method op).nonempty
    unfold requestText
    simp only [List.append_assoc]
    exact List.append_ne_nil_of_left_ne_nil hne _
  · rw [CLIENT_MAX_REQUEST_SIZE] at hlen
    rw [MAX_REQUEST_SIZE, List.take_of_length_le (by omega)]
    exact cstr_of_nulFree hnul

omit hop in
/-- No operation takes a refusal for success. -/
theorem not_expected_400 (op : ClientOp) : ¬ (400 : Int32) = op.expected := by
  have hexpected : op.expected = 200 ∨ op.expected = 201 ∨ op.expected = 204 := by
    cases op <;> simp [ClientOp.expected]
  rcases hexpected with h | h | h <;> rw [h] <;> decide

omit hop in
/-- What the daemon has of an operation: its request line. -/
def ClientOp.arrived (op : ClientOp) (env : ClientEnv) : HttpRequest :=
  parsedLine env.request op.method.toList op.url

/-- An operation whose request line is answered. -/
theorem perform_of_answered {status : Int32} {s s' : σ} (hcopied : env.copied = true)
    (hanswer : Answered env.response status s'
      (handleApiRequest backend (op.arrived env) env.response s)) (statusJunk : Int32) :
    op.perform (daemonLink backend env) statusJunk s
      = some (if status = op.expected then 0 else -1, s') := by
  obtain ⟨hne, hreceived⟩ := received_request hop
  have hparse := parse_createHttpRequest (isWord_method op) (isWord_url hop) op.body
    (length_request_lt hop) env.request
  rw [← hreceived, ← hcopied] at hparse
  obtain ⟨message, body, hfits, hclient⟩ := handleClient_of_answered backend env hne hparse hanswer
  rw [perform_eq hop]
  refine roundTrip_of_response rfl hfits ?_ _ _
  simp only [daemonLink, hclient, Option.map_some]

/-- An operation whose handler writes past the end of an array. -/
theorem perform_of_overrun {s : σ} (hcopied : env.copied = true)
    (hoverrun : handleApiRequest backend (op.arrived env) env.response s = none)
    (statusJunk : Int32) : op.perform (daemonLink backend env) statusJunk s = none := by
  obtain ⟨hne, hreceived⟩ := received_request hop
  have hparse := parse_createHttpRequest (isWord_method op) (isWord_url hop) op.body
    (length_request_lt hop) env.request
  rw [← hreceived, ← hcopied] at hparse
  have hclient : handleClient backend env (createHttpRequest op.method.toList op.url op.body) s
      = none := by
    rw [ClientOp.arrived] at hoverrun
    rw [handleClient, if_neg hne, hparse]
    simp only [hoverrun]
  have hexchange : (daemonLink backend env).exchange
      (createHttpRequest op.method.toList op.url op.body) s = none := by
    simp only [daemonLink, hclient, Option.map_none]
  rw [perform_eq hop, roundTrip, if_neg (by simp [daemonLink]), hexchange]

/-- An operation whose request cannot be copied. -/
theorem perform_not_copied (hcopied : env.copied = false) (statusJunk : Int32) (s : σ) :
    op.perform (daemonLink backend env) statusJunk s = some (-1, s) := by
  obtain ⟨hne, -⟩ := received_request hop
  have hparse : parseHttpRequest env.copied
      (cstr ((createHttpRequest op.method.toList op.url op.body).take (MAX_REQUEST_SIZE - 1)))
      env.request = some (-1, env.request) := by
    rw [parseHttpRequest, if_pos hcopied]
  obtain ⟨message, body, hfits, hclient⟩ := handleClient_of_not_parsed backend env s hne hparse
  have hexchange : (daemonLink backend env).exchange
      (createHttpRequest op.method.toList op.url op.body) s
        = some (some (responseText 400 message body), s) := by
    simp only [daemonLink, hclient, Option.map_some]
  rw [perform_eq hop, roundTrip_of_response rfl hfits hexchange, if_neg (not_expected_400 op)]

end Wire

/-! ## 4. Agreement -/

/-- These are the calls of the operation's own handler, with the
operation's arguments. -/
def Serves : ClientOp → List StoreCall → Prop
  | .run r _, calls => ∃ args result, calls = [.createContainer args result] ∧
      args.image = r.image ∧ args.command = some r.command ∧
      args.workingDir = some r.workingDir ∧ args.envVars = some r.envVars ∧
      args.portMappings = some r.portMappings ∧ args.volumeMappings = some r.volumeMappings
  | .build imageName dockerfilePath _, calls =>
      calls = [.parseDockerfile dockerfilePath false] ∨
      ∃ contextPath result, calls = [.parseDockerfile dockerfilePath true,
        .buildImageFromDockerfile imageName "latest".toList contextPath result]
  | .images, calls => ∃ listed, calls = [.listImages listed]
  | .containers, calls => ∃ listed, calls = [.listContainers listed]
  | .stop containerId, calls => ∃ result, calls = [.stopContainer containerId result]
  | .rm containerId, calls => ∃ result, calls = [.removeContainer containerId result]
  | .rmi imageName, calls => ∃ result, calls = [.removeImage imageName result]

/-- No operation is served by no call. -/
theorem not_serves_nil (op : ClientOp) : ¬ Serves op [] := by
  cases op <;> simp [Serves]

/-- The operation was served, and the client reports success exactly when
every call succeeded. -/
def Agrees {σ : Type} (op : ClientOp) (outcome : Option (Int × σ × List StoreCall)) : Prop :=
  ∃ returned s calls, outcome = some (returned, s, calls) ∧ Serves op calls ∧
    (returned = 0 ↔ ∀ call ∈ calls, call.Succeeded)

/-- The operations the daemon serves in a store: the image list, unless it
is too long for the handler's array, and the removal of an image whose
name is neither too long nor taken for a container URL. -/
def Served {σ : Type} (backend : Backend σ) : ClientOp → σ → Prop
  | .images, s => ∀ items, (backend.listImages s).1 = some items →
      (listText imageJson items).length < 4096
  | .rmi imageName, _ => imageName.length < 256 ∧ ¬ "containers".toList <+: imageName
  | _, _ => False

section Agreement

variable {σ : Type} {backend : Backend σ} {env : ClientEnv} {op : ClientOp}

/-- An outcome without a call is no agreement. -/
theorem not_agrees_of_no_call {returned : Int} {s : σ} :
    ¬ Agrees op (some (returned, s, ([] : List StoreCall))) := by
  rintro ⟨returned', s', calls, houtcome, hserves, -⟩
  have hcalls : calls = [] := by
    have hpair := Option.some.inj houtcome
    exact ((Prod.mk.inj (Prod.mk.inj hpair).2).2).symm
  rw [hcalls] at hserves
  exact not_serves_nil op hserves

variable (hop : Sendable op)

include hop

/-- A request the daemon answers without touching the store is served for
no operation. -/
theorem not_agrees_of_quiet (hcopied : env.copied = true) {s : σ}
    (hquiet : Quiet (recorded backend) (op.arrived env) env.response (s, []))
    (statusJunk : Int32) :
    ¬ Agrees op (op.perform (daemonLink (recorded backend) env) statusJunk (s, [])) := by
  obtain ⟨status, hanswer⟩ := hquiet
  rw [perform_of_answered hop hcopied hanswer]
  exact not_agrees_of_no_call

omit hop in
theorem arrived_method (op : ClientOp) (env : ClientEnv) :
    cstr (op.arrived env).method = op.method.toList := by
  have hlen := length_method_le op
  exact cstr_parsedLine_method (isWord_method op) (by rw [MAX_METHOD_SIZE]; omega) _ _

omit hop in
theorem arrived_body (op : ClientOp) (env : ClientEnv) : cstr (op.arrived env).body = [] :=
  cstr_clear _

theorem arrived_url (env : ClientEnv) :
    ∃ tail, cstr (op.arrived env).url = op.url ++ tail ∧ tail.length ≤ 1 ∧
      (op.url.length < MAX_URL_SIZE - 1 → tail = []) :=
  cstr_parsedLine_url (isWord_url hop) hop.fits env.url_size _

/-- A word of the URL that was sent is in the URL that arrived. -/
theorem found_arrived (env : ClientEnv) {needle : List Char} (h : needle <:+: op.url) :
    found (cstr (op.arrived env).url) needle = true := by
  obtain ⟨tail, htail, -, -⟩ := arrived_url hop env
  rw [htail, found_iff]
  exact h.trans (List.prefix_append _ _).isInfix

omit hop in
/-- The only slashes of a build URL are its first character and whatever
follows its end. -/
theorem not_found_arrived_build {imageName dockerfilePath contextPath : List Char}
    (hbuild : Sendable (.build imageName dockerfilePath contextPath)) (env : ClientEnv)
    {needle : List Char} (hne : needle ≠ []) (hhead : needle.head? ≠ some 'b') :
    found (cstr ((ClientOp.build imageName dockerfilePath contextPath).arrived env).url)
      ('/' :: needle) = false := by
  have hname := (hbuild.arguments imageName (by simp [ClientOp.arguments])).no_slash
  have hpath := (hbuild.arguments dockerfilePath (by simp [ClientOp.arguments])).no_slash
  obtain ⟨tail, htail, hlen, -⟩ := arrived_url hbuild env
  have hurl : (ClientOp.build imageName dockerfilePath contextPath).url ++ tail
      = '/' :: ("build?t=".toList ++ imageName ++ "&dockerfile=".toList ++ dockerfilePath
        ++ tail) := by
    unfold ClientOp.url buildUrl
    simp
  have hslash : '/' ∉ "build?t=".toList ++ imageName ++ "&dockerfile=".toList ++ dockerfilePath := by
    simp [hname, hpath]
  rw [htail, hurl, not_found_iff, List.infix_cons_iff, not_or]
  refine ⟨?_, ?_⟩
  · -- the first slash is followed by a `b`
    intro hp
    obtain ⟨t, ht⟩ := (List.cons_prefix_cons.mp hp).2
    obtain ⟨c, needle, rfl⟩ := List.exists_cons_of_ne_nil hne
    have hc : c = 'b' := (List.cons.inj ht).1
    exact hhead (by rw [hc]; rfl)
  · -- any other slash has no room for the needle behind it
    rw [infix_append_of_not_mem hslash]
    intro hi
    have hroom := hi.length_le
    have hpos := List.length_pos_iff.mpr hne
    simp only [List.length_cons] at hroom
    omega

omit hop in
/-- A GET of the image list is routed to its handler. -/
theorem handleApiRequest_images {σ : Type} (backend : Backend σ) (env : ClientEnv) (s : σ) :
    handleApiRequest backend (ClientOp.images.arrived env) env.response s
      = handleImageList backend (ClientOp.images.arrived env) env.response s := by
  have hsent : Sendable .images := by decide
  obtain ⟨tail, htail, -, hshort⟩ := arrived_url hsent env
  have hurl : cstr (ClientOp.images.arrived env).url = "/images/json".toList := by
    rw [htail, hshort (by decide), List.append_nil]
    rfl
  have hmethod := arrived_method .images env
  have hc : found "/images/json".toList "/containers".toList = false := by decide
  have hi : found "/images/json".toList "/images".toList = true := by decide
  have hj : found "/images/json".toList "/images/json".toList = true := by decide
  rw [ClientOp.method] at hmethod
  simp only [handleApiRequest, handleImagesApi, hurl, hc, hi, hj, hmethod, Bool.false_eq_true,
    if_false, if_true]

omit hop in
/-- The image list is served when it fits the handler's array. -/
theorem agrees_images_iff (hcopied : env.copied = true) (statusJunk : Int32) (s : σ) :
    Agrees .images (ClientOp.images.perform (daemonLink (recorded backend) env) statusJunk (s, []))
      ↔ Served backend .images s := by
  have hsent : Sendable .images := by decide
  obtain ⟨listed, s', hlist⟩ : ∃ listed s', backend.listImages s = (listed, s') := ⟨_, _, rfl⟩
  have hrecorded : (recorded backend).listImages (s, [])
      = (listed, s', [.listImages listed.isSome]) := by
    simp only [recorded, hlist, logged, List.nil_append]
  rw [Served, hlist]
  by_cases hfits : ∀ items, listed = some items → (listText imageJson items).length < 4096
  · refine iff_of_true ?_ hfits
    have hanswer : Answered env.response (if listed.isSome then 200 else 500)
        (s', [.listImages listed.isSome])
        (handleApiRequest (recorded backend) (ClientOp.images.arrived env) env.response (s, [])) := by
      rw [handleApiRequest_images]
      exact handleImageList_answered (recorded backend) hrecorded hfits
    rw [perform_of_answered hsent hcopied hanswer]
    refine ⟨_, _, _, rfl, ⟨_, rfl⟩, ?_⟩
    cases listed <;> simp [ClientOp.expected, StoreCall.Succeeded]
  · refine iff_of_false ?_ hfits
    rintro ⟨returned, final, calls, houtcome, -, -⟩
    cases hoverrun : handleApiRequest (recorded backend) (ClientOp.images.arrived env) env.response
        (s, []) with
    | none =>
      rw [perform_of_overrun hsent hcopied hoverrun] at houtcome
      simp at houtcome
    | some outcome =>
      rw [handleApiRequest_images] at hoverrun
      refine hfits fun items hitems => ?_
      rw [hitems] at hrecorded
      exact lt_of_handleImageList (recorded backend) hrecorded hoverrun

/-- The removal of an image is served when the daemon can tell its name
from a container URL and has room for it. -/
theorem agrees_rmi_iff {imageName : List Char} (hname : op = .rmi imageName)
    (hcopied : env.copied = true) (statusJunk : Int32) (s : σ) :
    Agrees op (op.perform (daemonLink (recorded backend) env) statusJunk (s, []))
      ↔ Served backend op s := by
  subst hname
  have hslash := (hop.arguments imageName (by simp [ClientOp.arguments])).no_slash
  have hmethod := arrived_method (.rmi imageName) env
  obtain ⟨tail, htail, -, hshort⟩ := arrived_url hop env
  unfold ClientOp.url imageUrl at htail hshort
  rw [Served]
  by_cases hlen : imageName.length < 256
  · have hurl : cstr ((ClientOp.rmi imageName).arrived env).url = "/images/".toList ++ imageName := by
      have hlong : ("/images/".toList ++ imageName).length < MAX_URL_SIZE - 1 := by
        have hfront : "/images/".toList.length = 8 := by decide
        rw [List.length_append, hfront, MAX_URL_SIZE]
        omega
      rw [htail, hshort hlong, List.append_nil]
    by_cases hcontainers : "containers".toList <+: imageName
    · refine iff_of_false ?_ fun h => h.2 hcontainers
      have hfound : found (cstr ((ClientOp.rmi imageName).arrived env).url) "/containers".toList
          = true := by
        rw [hurl, found_containers_iff hslash]
        exact hcontainers
      exact not_agrees_of_quiet hop hcopied
        (quiet_of_delete_container _ hfound hmethod _ _) statusJunk
    · refine iff_of_true ?_ ⟨hlen, hcontainers⟩
      have hanswer := answered_of_removal (recorded backend) hmethod hurl hslash hlen hcontainers
        env.response (s, [])
      rw [perform_of_answered hop hcopied hanswer]
      refine ⟨_, _, _, rfl, ⟨_, rfl⟩, ?_⟩
      by_cases hresult : (backend.removeImage imageName s).1 = 0 <;>
        simp [recorded, logged, hresult, ClientOp.expected, StoreCall.Succeeded]
  · refine iff_of_false ?_ fun h => hlen h.1
    rw [List.append_assoc] at htail
    exact not_agrees_of_quiet hop hcopied
      (quiet_of_long_name _ hmethod htail hslash (by omega) _ _) statusJunk

/-- The operations whose handlers a request never reaches. -/
theorem quiet_of_not_served (hrmi : ∀ imageName, op ≠ .rmi imageName) (himages : op ≠ .images)
    (s : σ) : Quiet backend (op.arrived env) env.response s := by
  have hmethod := arrived_method op env
  have hbody := arrived_body op env
  have hcontainers : "/containers".toList <:+: op.url →
      found (cstr (op.arrived env).url) "/containers".toList = true := found_arrived hop env
  cases op with
  | run r name =>
    exact quiet_of_post_container backend (hcontainers ⟨[], "/create".toList, rfl⟩) hmethod hbody
      _ _
  | build imageName dockerfilePath contextPath =>
    exact quiet_of_elsewhere backend
      (not_found_arrived_build hop env (by decide : "containers".toList ≠ []) (by decide))
      (not_found_arrived_build hop env (by decide : "images".toList ≠ []) (by decide)) _ _
  | images => exact absurd rfl himages
  | containers =>
    have hlist : found (cstr (ClientOp.containers.arrived env).url) "/containers/json".toList
        = true := found_arrived hop env (List.infix_refl _)
    exact quiet_of_get_container_list backend (hcontainers ⟨[], "/json".toList, rfl⟩) hmethod
      hlist _ _
  | stop containerId =>
    have hinfix : "/containers".toList <:+: (ClientOp.stop containerId).url := by
      unfold ClientOp.url containerUrl
      exact ⟨[], "/".toList ++ containerId ++ "/stop".toList, rfl⟩
    exact quiet_of_post_container backend (hcontainers hinfix) hmethod hbody _ _
  | rm containerId =>
    have hinfix : "/containers".toList <:+: (ClientOp.rm containerId).url := by
      unfold ClientOp.url containerUrl
      exact ⟨[], "/".toList ++ containerId ++ "/remove".toList, rfl⟩
    exact quiet_of_delete_container backend (hcontainers hinfix) hmethod _ _
  | rmi imageName => exact absurd rfl (hrmi imageName)

omit hop in
theorem not_served (hrmi : ∀ imageName, op ≠ .rmi imageName) (himages : op ≠ .images) (s : σ) :
    ¬ Served backend op s := by
  cases op with
  | images => exact absurd rfl himages
  | rmi imageName => exact absurd rfl (hrmi imageName)
  | run r name => exact id
  | build imageName dockerfilePath contextPath => exact id
  | containers => exact id
  | stop containerId => exact id
  | rm containerId => exact id

/-- Client and daemon agree on an operation exactly when the daemon serves
it. -/
theorem agrees_iff (statusJunk : Int32) (s : σ) :
    Agrees op (op.perform (daemonLink (recorded backend) env) statusJunk (s, []))
      ↔ env.copied = true ∧ Served backend op s := by
  cases hcopied : env.copied with
  | false =>
    rw [perform_not_copied hop hcopied]
    exact iff_of_false not_agrees_of_no_call fun h => absurd h.1 (by simp)
  | true =>
    rw [eq_self, true_and]
    by_cases hrmi : ∃ imageName, op = .rmi imageName
    · obtain ⟨imageName, hname⟩ := hrmi
      exact agrees_rmi_iff hop hname hcopied statusJunk s
    · have hother : ∀ imageName, op ≠ .rmi imageName := fun n hn => hrmi ⟨n, hn⟩
      by_cases himages : op = .images
      · subst himages
        exact agrees_images_iff hcopied statusJunk s
      · exact iff_of_false
          (not_agrees_of_quiet hop hcopied (quiet_of_not_served hop hother himages _) statusJunk)
          (not_served hother himages s)

end Agreement

/-! ## 5. One daemon -/

/-- A daemon whose locals are zeroed. -/
def zeroedDaemon : ClientEnv where
  copied := true
  request := emptyRequest
  url_size := List.length_replicate
  response := emptyResponse

/-- The removal of an image named alpine. -/
def removeAlpine : ClientOp := .rmi "alpine".toList

theorem removeAlpine_agrees : Agrees removeAlpine
    (removeAlpine.perform (daemonLink (recorded willingBackend) zeroedDaemon) 0 ((), [])) :=
  (agrees_iff (by decide : Sendable removeAlpine) 0 ()).mpr ⟨rfl, by decide, by decide⟩

/-- Stopping a container named web. -/
def stopWeb : ClientOp := .stop "web".toList

/-- It is a POST, and only a GET is routed to `handle_container_stop`. -/
theorem stopWeb_not_served : Sendable stopWeb ∧ ¬ Agrees stopWeb
    (stopWeb.perform (daemonLink (recorded willingBackend) zeroedDaemon) 0 ((), [])) := by
  have hsent : Sendable stopWeb := by decide
  refine ⟨hsent, not_agrees_of_quiet hsent rfl (quiet_of_not_served hsent ?_ ?_ _) 0⟩
  · intro imageName h
    exact absurd h (by simp [stopWeb])
  · simp [stopWeb]

end DockerClone.Client
