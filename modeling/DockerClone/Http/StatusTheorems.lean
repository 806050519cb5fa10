/-
DockerClone.Http.StatusTheorems — the status of an answer and what was
done.

`route` is the router read off its tests, and `handleApiRequest_route`
says that the router is that function. For each handler one lemma says
how it answers: `Settled` is an outcome whose status agrees with the
calls in the log.

A handler fails to answer only where it writes past an array: the
creation and the build copy values out of the request into arrays of
fixed size, and the list is appended to one. `status_effect_iff` says
that these are all the exceptions.
-/
import DockerClone.Http.HandlerTheorems
import DockerClone.Http.Recorder
import DockerClone.Http.WireTheorems

namespace DockerClone.Http

open DockerClone.CLib DockerClone.Container

/-! ## 1. Routes -/

/-- A handler that the router reaches. -/
inductive Route where
  | create
  | start
  | stop
  | remove
  | listImages
  | build
  | removeImage
  deriving DecidableEq, Repr

/-- The tests of `handle_api_request` and of the two functions below it. -/
def route (method url : List Char) : Option Route :=
  if found url "/containers".toList then
    if method = "GET".toList then
      if found url "/containers/json".toList then none
      else if found url "/containers/".toList && found url "/start".toList then some .start
      else if found url "/containers/".toList && found url "/stop".toList then some .stop
      else if found url "/containers/".toList && found url "/remove".toList then some .remove
      else none
    else if method = "POST".toList then
      if found url "/containers/create".toList then some .create else none
    else none
  else if found url "/images".toList then
    if method = "GET".toList then
      if found url "/images/json".toList then some .listImages else none
    else if method = "POST".toList then
      if found url "/build".toList then some .build else none
    else if method = "DELETE".toList then
      if found url "/images/".toList then some .removeImage else none
    else none
  else none

/-- The body of the answer when there is no route. -/
def missingEndpoint (url : List Char) : String :=
  if found url "/containers".toList then "\x7b\"error\": \"Container API endpoint not found\"\x7d"
  else if found url "/images".toList then "\x7b\"error\": \"Image API endpoint not found\"\x7d"
  else "\x7b\"error\": \"API endpoint not found\"\x7d"

section Routing

variable {σ : Type} (backend : Backend σ)

/-- The handler at the end of a route. -/
def handleRoute : Route → HttpRequest → HttpResponse → σ → Option (Int × HttpResponse × σ)
  | .create => handleContainerCreate backend
  | .start => handleContainerStart backend
  | .stop => handleContainerStop backend
  | .remove => handleContainerRemove backend
  | .listImages => handleImageList backend
  | .build => handleImageBuild backend
  | .removeImage => handleImageRemove backend

theorem handleApiRequest_route (request : HttpRequest) (response : HttpResponse) (s : σ) :
    handleApiRequest backend request response s
      = match route (cstr request.method) (cstr request.url) with
        | some r => handleRoute backend r request response s
        | none => reply response 404 "Not Found" (missingEndpoint (cstr request.url)) s := by
  rw [handleApiRequest, route, missingEndpoint]
  simp only [handleContainersApi, handleImagesApi]
  split_ifs <;> rfl

end Routing

/-! ## 2. Verdicts -/

/-- The calls a request may lead to: none, one, or a parse and the build
of what was parsed. -/
inductive AtMostOne : List StoreCall → Prop where
  | none : AtMostOne []
  | create (args : CreateArgs) (result : Int) : AtMostOne [.createContainer args result]
  | start (id : List Char) (result : Int) : AtMostOne [.startContainer id result]
  | stop (id : List Char) (result : Int) : AtMostOne [.stopContainer id result]
  | remove (id : List Char) (result : Int) : AtMostOne [.removeContainer id result]
  | removeImage (name : List Char) (result : Int) : AtMostOne [.removeImage name result]
  | listImages (listed : Bool) : AtMostOne [.listImages listed]
  | parse (path : List Char) : AtMostOne [.parseDockerfile path false]
  | build (path name tag contextPath : List Char) (result : Int) :
      AtMostOne [.parseDockerfile path true,
        .buildImageFromDockerfile name tag contextPath result]

/-- The status says what became of the calls. -/
structure StatusAgrees (status : Int32) (calls : List StoreCall) : Prop where
  operation : AtMostOne calls
  refused : status = 400 ∨ status = 404 ↔ calls = []
  failed : status = 500 ↔ calls ≠ [] ∧ ¬ ∀ c ∈ calls, c.Succeeded
  succeeded : status = 200 ∨ status = 201 ∨ status = 204 ↔
    calls ≠ [] ∧ ∀ c ∈ calls, c.Succeeded

theorem statusAgrees_refused {status : Int32} (h : status = 400 ∨ status = 404) :
    StatusAgrees status [] where
  operation := .none
  refused := iff_of_true h rfl
  failed := by rcases h with rfl | rfl <;> simp
  succeeded := by rcases h with rfl | rfl <;> simp

theorem statusAgrees_failed {calls : List StoreCall} (hop : AtMostOne calls)
    (hfail : ¬ ∀ c ∈ calls, c.Succeeded) : StatusAgrees 500 calls where
  operation := hop
  refused := by
    refine iff_of_false (by decide) ?_
    rintro rfl
    exact hfail (by simp)
  failed := by
    refine iff_of_true rfl ⟨?_, hfail⟩
    rintro rfl
    exact hfail (by simp)
  succeeded := iff_of_false (by decide) fun h => hfail h.2

theorem statusAgrees_succeeded {status : Int32} {calls : List StoreCall} (hop : AtMostOne calls)
    (hne : calls ≠ []) (hall : ∀ c ∈ calls, c.Succeeded)
    (h : status = 200 ∨ status = 201 ∨ status = 204) : StatusAgrees status calls where
  operation := hop
  refused := by
    refine iff_of_false ?_ hne
    rcases h with rfl | rfl | rfl <;> decide
  failed := by
    refine iff_of_false ?_ fun hfail => hfail.2 hall
    rcases h with rfl | rfl | rfl <;> decide
  succeeded := iff_of_true h ⟨hne, hall⟩

/-- The handler returned 0, set one response and logged calls that the
response agrees with. -/
def Settled {σ : Type} (response : HttpResponse) (log : List StoreCall)
    (outcome : Option (Int × HttpResponse × σ × List StoreCall)) : Prop :=
  ∃ status message body s calls,
    outcome = some (0, createHttpResponse response status message body, s, log ++ calls) ∧
    Fits message body ∧ '\n' ∉ message ∧ body.head? ≠ some 'I' ∧ StatusAgrees status calls

section Settled

variable {σ : Type} {response : HttpResponse} {log calls : List StoreCall} {s : σ}

theorem settled_reply {status : Int32} {message body : String}
    (hfits : Fits message.toList body.toList) (hline : '\n' ∉ message.toList)
    (hhead : body.toList.head? ≠ some 'I') (h : StatusAgrees status calls) :
    Settled response log (reply response status message body (s, log ++ calls)) :=
  ⟨status, _, _, s, calls, rfl, hfits, hline, hhead, h⟩

/-- The same without a call. -/
theorem settled_refused {status : Int32} {message body : String}
    (hfits : Fits message.toList body.toList) (hline : '\n' ∉ message.toList)
    (hhead : body.toList.head? ≠ some 'I') (h : status = 400 ∨ status = 404) :
    Settled response log (reply response status message body (s, log)) := by
  have hreply : Settled response log (reply response status message body (s, log ++ [])) :=
    settled_reply hfits hline hhead (statusAgrees_refused h)
  rwa [List.append_nil] at hreply

end Settled

/-! ## 3. Values that are copied -/

/-- The value behind this key fits the array it is scanned into. -/
def FieldFits (size : Nat) (body : List Char) (key format : String) : Prop :=
  found body key.toList = true → ∀ v, scannedText body format.toList = some v → v.length < size

/-- The value of this parameter fits its array. -/
def ParameterFits (url : List Char) (key format : String) : Prop :=
  ∀ t, strstr url key.toList = some t → ∀ v, scannedText t format.toList = some v → v.length < 256

/-- What the handler at the end of this route copies fits where it is
copied to. -/
def CopiesFit {σ : Type} (backend : Backend σ) (request : HttpRequest) (s : σ) : Route → Prop
  | .create =>
      let body := cstr request.body
      FieldFits 256 body "\"Image\"" "\"Image\":\"%[^\"]\"" ∧
      FieldFits 512 body "\"Cmd\"" "\"Cmd\":[\"%[^\"]\"" ∧
      FieldFits 256 body "\"WorkingDir\"" "\"WorkingDir\":\"%[^\"]\"" ∧
      FieldFits 512 body "\"Env\"" "\"Env\":[\"%[^\"]\"" ∧
      FieldFits 256 body "\"PortBindings\"" "\"PortBindings\":\"%[^\"]\"" ∧
      FieldFits 256 body "\"Binds\"" "\"Binds\":[\"%[^\"]\""
  | .listImages =>
      ∀ items, (backend.listImages s).1 = some items → (listText imageJson items).length < 4096
  | .build =>
      ParameterFits (cstr request.url) "t=" "t=%[^&]" ∧
      ParameterFits (cstr request.url) "dockerfile=" "dockerfile=%[^&]"
  | _ => True

theorem scanWithin_isSome_iff {size : Nat} {input format dst : List Char} :
    (scanWithin size input format dst).isSome = true ↔
      ∀ v, scannedText input format = some v → v.length < size := by
  rw [scanWithin]
  cases scannedText input format with
  | none => simp
  | some v =>
    by_cases hv : v.length < size
    · simp [hv]
    · simp [hv]

theorem scanField_isSome_iff {size : Nat} {body : List Char} {key format : String} :
    (scanField size body key format).isSome = true ↔ FieldFits size body key format := by
  rw [scanField, FieldFits]
  split
  · rename_i hfound
    rw [scanWithin_isSome_iff]
    exact ⟨fun h _ => h, fun h => h hfound⟩
  · rename_i hfound
    exact iff_of_true rfl fun h => absurd h hfound

theorem scanParameter_isSome_iff {url : List Char} {key format : String} :
    (scanParameter url key format).isSome = true ↔ ParameterFits url key format := by
  rw [scanParameter, ParameterFits]
  cases strstr url key.toList with
  | none => simp
  | some t =>
    simp only [scanWithin_isSome_iff, Option.some.injEq]
    exact ⟨fun h t' ht => ht ▸ h, fun h => h t rfl⟩

/-! ## 4. Handlers -/

section Handlers

variable {σ : Type} (backend : Backend σ) (request : HttpRequest) (response : HttpResponse)
  (s : σ) (log : List StoreCall)

/-- Either of the two answers to an operation leaves its store and its
log. -/
theorem replied_result (status : Int32) (message body failure : String) (log : List StoreCall)
    (result : Int × σ) :
    ∃ answer s',
      (if result.1 = 0 then reply response status message body (result.2, log)
        else reply response 500 "Internal Server Error" failure (result.2, log))
        = some (0, answer, s', log) := by
  by_cases hzero : result.1 = 0
  · rw [if_pos hzero]
    exact ⟨_, _, rfl⟩
  · rw [if_neg hzero]
    exact ⟨_, _, rfl⟩

/-- An operation whose result is 0 or not, and the two answers. -/
theorem settled_result {call : Int → StoreCall} (hop : ∀ r, AtMostOne [call r])
    (hcall : ∀ r, (call r).Succeeded ↔ r = 0) {status : Int32} {message body failure : String}
    (hstatus : status = 200 ∨ status = 201 ∨ status = 204)
    (hfits : Fits message.toList body.toList) (hline : '\n' ∉ message.toList)
    (hhead : body.toList.head? ≠ some 'I')
    (hfailure : Fits "Internal Server Error".toList failure.toList)
    (hfhead : failure.toList.head? ≠ some 'I') (result : Int) :
    Settled response log
      (if result = 0 then reply response status message body (s, log ++ [call result])
        else reply response 500 "Internal Server Error" failure (s, log ++ [call result])) := by
  split
  · rename_i hzero
    refine settled_reply hfits hline hhead
      (statusAgrees_succeeded (hop result) (by simp) (fun c hc => ?_) hstatus)
    rw [List.mem_singleton.mp hc, hcall]
    exact hzero
  · rename_i hfail
    refine settled_reply hfailure (by decide) hfhead (statusAgrees_failed (hop result) fun hall => ?_)
    exact hfail ((hcall result).mp (hall _ (List.mem_singleton.mpr rfl)))

theorem handleContainerOperation_settled
    {operation : List Char → σ × List StoreCall → Int × σ × List StoreCall}
    {plain : List Char → σ → Int × σ} {call : List Char → Int → StoreCall}
    (hlogged : ∀ id p, operation id p = logged (call id) (plain id p.1) p.2)
    (hop : ∀ id r, AtMostOne [call id r]) (hcall : ∀ id r, (call id r).Succeeded ↔ r = 0)
    {failure : String} (hfailure : Fits "Internal Server Error".toList failure.toList)
    (hfhead : failure.toList.head? ≠ some 'I') :
    Settled response log (handleContainerOperation operation failure request response (s, log)) := by
  rw [handleContainerOperation]
  cases extractContainerIdFromUrl (cstr request.url) with
  | none => exact settled_refused (by decide) (by decide) (by decide) (Or.inl rfl)
  | some id =>
    simp only [hlogged, logged]
    exact settled_result response (plain id s).2 log (hop id) (hcall id) (Or.inr (Or.inr rfl))
      (by decide) (by decide) (by decide) hfailure hfhead _

theorem handleContainerStart_settled :
    Settled response log (handleContainerStart (recorded backend) request response (s, log)) :=
  handleContainerOperation_settled request response s log (fun _ _ => rfl) .start
    (fun _ _ => Iff.rfl) (by decide) (by decide)

theorem handleContainerStop_settled :
    Settled response log (handleContainerStop (recorded backend) request response (s, log)) :=
  handleContainerOperation_settled request response s log (fun _ _ => rfl) .stop
    (fun _ _ => Iff.rfl) (by decide) (by decide)

theorem handleContainerRemove_settled :
    Settled response log (handleContainerRemove (recorded backend) request response (s, log)) :=
  handleContainerOperation_settled request response s log (fun _ _ => rfl) .remove
    (fun _ _ => Iff.rfl) (by decide) (by decide)

theorem handleImageRemove_settled :
    Settled response log (handleImageRemove (recorded backend) request response (s, log)) := by
  rw [handleImageRemove]
  cases extractImageNameFromUrl (cstr request.url) with
  | none => exact settled_refused (by decide) (by decide) (by decide) (Or.inl rfl)
  | some name =>
    exact settled_result response (backend.removeImage name s).2 log (.removeImage name)
      (fun _ => Iff.rfl) (Or.inl rfl) (by decide) (by decide) (by decide)
      (by decide) (by decide) _

/-- A creation answers exactly when its six values fit. -/
theorem handleContainerCreate_settled (h : CopiesFit backend request s .create) :
    Settled response log (handleContainerCreate (recorded backend) request response (s, log)) := by
  obtain ⟨h₁, h₂, h₃, h₄, h₅, h₆⟩ := h
  rw [← scanField_isSome_iff] at h₁ h₂ h₃ h₄ h₅ h₆
  obtain ⟨imageName, h₁⟩ := Option.isSome_iff_exists.mp h₁
  obtain ⟨command, h₂⟩ := Option.isSome_iff_exists.mp h₂
  obtain ⟨workingDir, h₃⟩ := Option.isSome_iff_exists.mp h₃
  obtain ⟨envVars, h₄⟩ := Option.isSome_iff_exists.mp h₄
  obtain ⟨portMappings, h₅⟩ := Option.isSome_iff_exists.mp h₅
  obtain ⟨volumeMappings, h₆⟩ := Option.isSome_iff_exists.mp h₆
  rw [handleContainerCreate, h₁, h₂, h₃, h₄, h₅, h₆]
  simp only [Option.bind_eq_bind, Option.bind_some]
  split
  · exact settled_refused (by decide) (by decide) (by decide) (Or.inl rfl)
  · exact settled_result response _ log (.create _) (fun _ => Iff.rfl) (Or.inr (Or.inl rfl))
      (by decide) (by decide) (by decide) (by decide) (by decide) _

theorem copiesFit_of_create {o : Int × HttpResponse × σ × List StoreCall}
    (h : handleContainerCreate (recorded backend) request response (s, log) = some o) :
    CopiesFit backend request s .create := by
  rw [handleContainerCreate] at h
  simp only [Option.bind_eq_bind, Option.bind_eq_some_iff] at h
  obtain ⟨_, h₁, _, h₂, _, h₃, _, h₄, _, h₅, _, h₆, -⟩ := h
  simp only [CopiesFit, ← scanField_isSome_iff, h₁, h₂, h₃, h₄, h₅, h₆, Option.isSome_some, and_self]

theorem recorded_listImages (p : σ × List StoreCall) :
    (recorded backend).listImages p
      = logged (fun listed : Option (List ImageSummary) => .listImages listed.isSome)
        (backend.listImages p.1) p.2 := rfl

theorem handleImageList_settled (h : CopiesFit backend request s .listImages) :
    Settled response log (handleImageList (recorded backend) request response (s, log)) := by
  rw [handleImageList, handleList]
  cases hlist : backend.listImages s with
  | mk listed s' =>
    have hrecorded : (recorded backend).listImages (s, log)
        = (listed, s', log ++ [StoreCall.listImages listed.isSome]) := by
      rw [recorded_listImages, hlist]
      rfl
    rw [hrecorded]
    cases listed with
    | none =>
      exact settled_reply (by decide) (by decide) (by decide)
        (statusAgrees_failed (.listImages false) (by simp [StoreCall.Succeeded]))
    | some items =>
      have hfits := h items (by rw [hlist])
      obtain ⟨json, hjson, htext⟩ := listJson_of_lt nulFree_imageJson hfits
      simp only [hjson, Option.bind_eq_bind, Option.bind_some]
      refine ⟨200, _, _, s', _, rfl, ⟨by decide, by decide, nulFree_cstr json, by rwa [htext]⟩,
        by decide, ?_, statusAgrees_succeeded (.listImages true) (by simp)
          (by simp [StoreCall.Succeeded]) (Or.inl rfl)⟩
      rw [htext]
      unfold listText
      simp

theorem copiesFit_of_list {o : Int × HttpResponse × σ × List StoreCall}
    (h : handleImageList (recorded backend) request response (s, log) = some o) :
    CopiesFit backend request s .listImages := by
  intro items hitems
  have hlist : (recorded backend).listImages (s, log)
      = (some items, (backend.listImages s).2, log ++ [StoreCall.listImages true]) := by
    rw [recorded_listImages, logged, hitems]
    rfl
  exact lt_of_handleImageList (recorded backend) hlist h

/-- The two answers of a build that was parsed. -/
theorem settled_built (path name tag contextPath : List Char) (built : Int × σ) :
    Settled response log
      (if built.1 = 0 then
        reply response 200 "OK" "\x7b\"message\": \"Image built successfully\"\x7d"
          (built.2, log ++ [.parseDockerfile path true]
            ++ [.buildImageFromDockerfile name tag contextPath built.1])
      else
        reply response 500 "Internal Server Error" "\x7b\"error\": \"Failed to build image\"\x7d"
          (built.2, log ++ [.parseDockerfile path true]
            ++ [.buildImageFromDockerfile name tag contextPath built.1])) := by
  have hcalls := AtMostOne.build path name tag contextPath built.1
  rw [List.append_assoc]
  split
  · rename_i hzero
    refine settled_reply (by decide) (by decide) (by decide)
      (statusAgrees_succeeded hcalls (by simp) (fun c hc => ?_) (Or.inl rfl))
    rcases List.mem_cons.mp hc with rfl | hc
    · rfl
    · rw [List.mem_singleton.mp hc]
      exact hzero
  · rename_i hfail
    refine settled_reply (by decide) (by decide) (by decide)
      (statusAgrees_failed hcalls fun hall => hfail ?_)
    exact hall (.buildImageFromDockerfile name tag contextPath built.1) (by simp)

theorem handleImageBuild_settled (h : CopiesFit backend request s .build) :
    Settled response log (handleImageBuild (recorded backend) request response (s, log)) := by
  obtain ⟨h₁, h₂⟩ := h
  rw [← scanParameter_isSome_iff] at h₁ h₂
  obtain ⟨imageName, h₁⟩ := Option.isSome_iff_exists.mp h₁
  obtain ⟨dockerfilePath, h₂⟩ := Option.isSome_iff_exists.mp h₂
  rw [handleImageBuild, h₁, h₂]
  simp only [Option.bind_eq_bind, Option.bind_some]
  split
  · exact settled_refused (by decide) (by decide) (by decide) (Or.inl rfl)
  · generalize cstr (if (cstr dockerfilePath).length = 0 then
      strcpy dockerfilePath "Dockerfile".toList else dockerfilePath) = path
    rw [recorded_parseDockerfile]
    cases hparse : backend.parseDockerfile path s with
    | mk parsed s' =>
      cases parsed with
      | none =>
        exact settled_reply (by decide) (by decide) (by decide)
          (statusAgrees_failed (.parse path) (by simp [StoreCall.Succeeded]))
      | some dockerfile =>
        exact settled_built response log path (cstr imageName) "latest".toList
          (cstr (strcpy (zeros 256) ".".toList))
          (backend.buildImageFromDockerfile dockerfile (cstr imageName) "latest".toList
            (cstr (strcpy (zeros 256) ".".toList)) s')

theorem copiesFit_of_build {o : Int × HttpResponse × σ × List StoreCall}
    (h : handleImageBuild (recorded backend) request response (s, log) = some o) :
    CopiesFit backend request s .build := by
  rw [handleImageBuild] at h
  simp only [Option.bind_eq_bind, Option.bind_eq_some_iff] at h
  obtain ⟨_, h₁, _, h₂, -⟩ := h
  simp only [CopiesFit, ← scanParameter_isSome_iff, h₁, h₂, Option.isSome_some, and_self]

/-- The handler at the end of a route answers as it should, unless it
writes past an array. -/
theorem handleRoute_settled (r : Route) (h : CopiesFit backend request s r) :
    Settled response log (handleRoute (recorded backend) r request response (s, log)) := by
  cases r with
  | create => exact handleContainerCreate_settled backend request response s log h
  | start => exact handleContainerStart_settled backend request response s log
  | stop => exact handleContainerStop_settled backend request response s log
  | remove => exact handleContainerRemove_settled backend request response s log
  | listImages => exact handleImageList_settled backend request response s log h
  | build => exact handleImageBuild_settled backend request response s log h
  | removeImage => exact handleImageRemove_settled backend request response s log

theorem copiesFit_of_handleRoute {r : Route} {o : Int × HttpResponse × σ × List StoreCall}
    (h : handleRoute (recorded backend) r request response (s, log) = some o) :
    CopiesFit backend request s r := by
  cases r with
  | create => exact copiesFit_of_create backend request response s log h
  | listImages => exact copiesFit_of_list backend request response s log h
  | build => exact copiesFit_of_build backend request response s log h
  | _ => trivial

/-- What the request leads to fits, wherever it is routed. -/
def RouteFits (request : HttpRequest) (s : σ) : Prop :=
  ∀ r, route (cstr request.method) (cstr request.url) = some r → CopiesFit backend request s r

theorem handleApiRequest_settled (h : RouteFits backend request s) :
    Settled response log (handleApiRequest (recorded backend) request response (s, log)) := by
  rw [handleApiRequest_route]
  cases hroute : route (cstr request.method) (cstr request.url) with
  | none =>
    have hmissing : ∀ url, Fits "Not Found".toList (missingEndpoint url).toList ∧
        (missingEndpoint url).toList.head? ≠ some 'I' := by
      intro url
      unfold missingEndpoint
      split_ifs
      · decide
      · decide
      · decide
    exact settled_refused (hmissing _).1 (by decide) (hmissing _).2 (Or.inr rfl)
  | some r => exact handleRoute_settled backend request response s log r (h r hroute)

theorem routeFits_of_handleApiRequest {o : Int × HttpResponse × σ × List StoreCall}
    (h : handleApiRequest (recorded backend) request response (s, log) = some o) :
    RouteFits backend request s := by
  rw [handleApiRequest_route] at h
  intro r hroute
  rw [hroute] at h
  exact copiesFit_of_handleRoute backend request response s log h

end Handlers

/-! ## 5. Every request -/

section Requests

variable {σ : Type} (backend : Backend σ) (request : HttpRequest) (response : HttpResponse) (s : σ)

/-- The request is answered with one response, after at most one
operation, and the status agrees with what became of it. -/
def StatusEffect : Prop :=
  ∃ answer s' calls,
    handleApiRequest (recorded backend) request response (s, []) = some (0, answer, s', calls) ∧
    (∃ status message body, answer = createHttpResponse response status message body) ∧
    StatusAgrees answer.statusCode calls

/-- For every request, every store and every result of its operations:
status and effect agree exactly when no array is written past its end. -/
theorem status_effect_iff :
    StatusEffect backend request response s ↔ RouteFits backend request s := by
  constructor
  · rintro ⟨answer, s', calls, houtcome, -⟩
    exact routeFits_of_handleApiRequest backend request response s [] houtcome
  · intro h
    obtain ⟨status, message, body, s', calls, houtcome, -, -, -, hagrees⟩ :=
      handleApiRequest_settled backend request response s [] h
    exact ⟨_, s', calls, houtcome, ⟨status, message, body, rfl⟩, hagrees⟩

end Requests

/-- The request POST /images/build?t=… with a name of 256 characters. -/
def longBuildRequest : HttpRequest :=
  { emptyRequest with
    method := strcpy (zeros MAX_METHOD_SIZE) "POST".toList
    url := strcpy (zeros MAX_URL_SIZE) ("/images/build?t=".toList ++ List.replicate 256 'a') }

/-- An empty response struct. -/
def emptyResponse : HttpResponse where
  version := zeros MAX_VERSION_SIZE
  statusCode := 0
  statusMessage := zeros 64
  headers := zeros MAX_HEADER_SIZE
  body := zeros MAX_RESPONSE_SIZE
  contentLength := 0

def emptyEnv : ClientEnv where
  copied := true
  request := emptyRequest
  url_size := by decide +kernel
  response := emptyResponse

/-- The name is written past its array. -/
theorem long_build_overruns : ¬ StatusEffect willingBackend longBuildRequest emptyResponse () := by
  rintro ⟨answer, s', calls, houtcome, -⟩
  have hnone : (handleApiRequest (recorded willingBackend) longBuildRequest emptyResponse
      ((), [])).isSome = false := by
    decide +kernel
  rw [houtcome] at hnone
  simp at hnone

end DockerClone.Http
