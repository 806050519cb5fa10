/-
DockerClone.Http.HandlerTheorems — what the handlers do with a request.

`handle_container_create` scans the body from its FIRST character: each
`sscanf` is given `request->body`, not the place where `strstr` found the
key. Every format starts with a quote, so a body that does not start with
one leaves all six arrays zeroed, and a zeroed image name is answered
with 400 before `create_container` is called. A JSON object starts with a
brace, and a lost body is empty.

The other half is about answers: `Answered` is an outcome that the client
can read a status from, and every handler's outcome is one, unless the
list handler writes past the end of its array.
-/
import DockerClone.Http.Router

namespace DockerClone.Http

open DockerClone.CLib DockerClone.Container

/-! ## 1. Scanning from the wrong place -/

/-- A text that does not start with the format's first character gives
nothing. -/
theorem scannedText_of_head {c : Char} {format input : List Char} (hp : c ≠ '%')
    (hs : isSpace c = false) (hinput : input.head? ≠ some c) :
    scannedText input (c :: format) = none := by
  rw [scannedText, sscanf, parseFormat_cons hp hs]
  cases input with
  | nil => rfl
  | cons d t =>
    have hd : d ≠ c := by simpa using hinput
    rw [scan, if_neg hd]

theorem scanField_of_head {body : List Char} (hbody : body.head? ≠ some '"') (size : Nat)
    (key : String) {format : String} (hformat : format.toList.head? = some '"') :
    scanField size body key format = some (zeros size) := by
  obtain ⟨rest, hrest⟩ := List.head?_eq_some_iff.mp hformat
  rw [scanField]
  split
  · rw [scanWithin, hrest, scannedText_of_head (by decide) (by decide) hbody]
  · rfl

section Handlers

variable {σ : Type} (backend : Backend σ)

/-- A body that does not start with a quote creates nothing. -/
theorem handleContainerCreate_of_head {request : HttpRequest}
    (hbody : (cstr request.body).head? ≠ some '"') (response : HttpResponse) (s : σ) :
    handleContainerCreate backend request response s
      = reply response 400 "Bad Request" "\x7b\"error\": \"Image name required\"\x7d" s := by
  have hempty : (cstr (zeros 256)).length = 0 := by rw [cstr_zeros]; rfl
  rw [handleContainerCreate, scanField_of_head hbody 256 "\"Image\"" rfl,
    scanField_of_head hbody 512 "\"Cmd\"" rfl, scanField_of_head hbody 256 "\"WorkingDir\"" rfl,
    scanField_of_head hbody 512 "\"Env\"" rfl, scanField_of_head hbody 256 "\"PortBindings\"" rfl,
    scanField_of_head hbody 256 "\"Binds\"" rfl]
  simp only [Option.bind_eq_bind, Option.bind_some, hempty, if_true]

end Handlers

/-! ## 2. Answers -/

theorem nulFree_responseHeaders (n : Int32) : NulFree (responseHeaders n) := by
  unfold responseHeaders
  rw [nulFree_append, nulFree_append]
  exact ⟨⟨by decide, nulFree_renderInt _⟩, by decide⟩

theorem length_responseHeaders_le (n : Int32) : (responseHeaders n).length ≤ 100 := by
  have hnum := length_renderInt_le n
  have hfront : "Content-Type: application/json\r\nContent-Length: ".toList.length = 48 := by
    decide
  have hback : "\r\nConnection: close\r\n".toList.length = 21 := by decide
  unfold responseHeaders
  rw [List.length_append, List.length_append, hfront, hback]
  omega

/-- A message and a body that fit the arrays of a response. -/
structure Fits (message body : List Char) : Prop where
  message_nulFree : NulFree message
  message_short : message.length < 63
  body_nulFree : NulFree body
  body_short : body.length < 4096

instance (message body : List Char) : Decidable (Fits message body) :=
  decidable_of_iff
    (NulFree message ∧ message.length < 63 ∧ NulFree body ∧ body.length < 4096)
    ⟨fun h => ⟨h.1, h.2.1, h.2.2.1, h.2.2.2⟩, fun h => ⟨h.1, h.2, h.3, h.4⟩⟩

/-- A response behind its status. -/
def afterStatus (message body : List Char) : List Char :=
  " ".toList ++ message ++ "\r\n".toList ++ responseHeaders (Int32.ofNat body.length)
    ++ "\r\n".toList ++ body

/-- The text of a response. -/
def responseText (status : Int32) (message body : List Char) : List Char :=
  "HTTP/1.1".toList ++ (" ".toList ++ renderInt status.toInt ++ afterStatus message body)

theorem nulFree_responseText {message body : List Char} (h : Fits message body)
    (status : Int32) : NulFree (responseText status message body) := by
  have hspace : NulFree " ".toList := by decide
  have hbreak : NulFree "\r\n".toList := by decide
  have hversion : NulFree "HTTP/1.1".toList := by decide
  unfold responseText afterStatus
  simp only [nulFree_append]
  exact ⟨hversion, ⟨hspace, nulFree_renderInt _⟩, ⟨⟨⟨⟨hspace, h.message_nulFree⟩, hbreak⟩,
    nulFree_responseHeaders _⟩, hbreak⟩, h.body_nulFree⟩

theorem length_responseText_lt {message body : List Char} (h : Fits message body)
    (status : Int32) : (responseText status message body).length < 8191 := by
  have hnum := length_renderInt_le status
  have hheaders := length_responseHeaders_le (Int32.ofNat body.length)
  have hmessage := h.message_short
  have hbody := h.body_short
  have hversion : "HTTP/1.1".toList.length = 8 := by decide
  have hspace : " ".toList.length = 1 := by decide
  have hbreak : "\r\n".toList.length = 2 := by decide
  unfold responseText afterStatus
  simp only [List.length_append, hversion, hspace, hbreak]
  omega

/-- A response whose parts fit is sent whole. -/
theorem send_createHttpResponse {message body : List Char} (h : Fits message body)
    (response : HttpResponse) (status : Int32) :
    sendHttpResponse (createHttpResponse response status message body)
      = responseText status message body := by
  have hversion : cstr (strcpy response.version "HTTP/1.1".toList) = "HTTP/1.1".toList :=
    cstr_store (by decide) _
  have hmessage := cstr_strncpy_of_lt h.message_nulFree h.message_short response.statusMessage
  have hshort := h.body_short
  have hbody := cstr_strncpy_of_lt h.body_nulFree (n := 8191) (by omega) response.body
  have hlen := length_responseHeaders_le (Int32.ofNat body.length)
  have hheaders : cstr (printed MAX_HEADER_SIZE response.headers
      (responseHeaders (Int32.ofNat body.length))) = responseHeaders (Int32.ofNat body.length) :=
    cstr_printed (nulFree_responseHeaders _) (by rw [MAX_HEADER_SIZE]; omega) _
  have hfit := length_responseText_lt h status
  rw [sendHttpResponse, createHttpResponse]
  simp only [hversion, hmessage, hheaders, MAX_RESPONSE_SIZE, Nat.reduceSub, hbody]
  unfold responseText afterStatus at hfit ⊢
  simp only [List.append_assoc] at hfit ⊢
  exact snprintf_of_lt (Nat.lt_succ_of_lt hfit)

/-- The status of a response is what `%d` reads from its first line. -/
theorem scannedInt_responseText (status : Int32) (message body : List Char) :
    scannedInt (responseText status message body) "HTTP/1.1 %d".toList = some status := by
  have hformat : parseFormat "HTTP/1.1 %d".toList
      = "HTTP/1.1".toList.map .lit ++ [.space, .int] := by decide
  have hspace : (" ".toList ++ renderInt status.toInt ++ afterStatus message body).dropWhile isSpace
      = renderInt status.toInt ++ afterStatus message body :=
    dropWhile_isSpace_renderInt status.toInt (by decide) (afterStatus message body)
  have hnum : scan [.int] ([] ++ renderInt status.toInt ++ afterStatus message body)
      = [.number status.toInt] :=
    scan_int_renderInt status [] (by simp) (by unfold afterStatus; simp)
  rw [List.nil_append] at hnum
  rw [scannedInt, sscanf, hformat]
  unfold responseText
  rw [scan_lits, scan, hspace, hnum]
  exact congrArg some (storedInt_toInt status)

/-- The client reads the status of such a response. -/
theorem parse_responseText (status statusJunk : Int32) (message body bodyJunk : List Char) :
    ∃ received, parseHttpResponse (responseText status message body) statusJunk bodyJunk
      = (0, status, received) := by
  have hstart : strstr (responseText status message body) "HTTP/1.1 ".toList
      = some (responseText status message body) := by
    refine strstr_of_prefix ⟨renderInt status.toInt ++ afterStatus message body, ?_⟩
    unfold responseText
    simp
  have hstatus := scannedInt_responseText status message body
  have hblank : (strstr (responseText status message body) "\r\n\r\n".toList).isSome = true := by
    refine (found_iff _ _).mpr ⟨"HTTP/1.1".toList ++ " ".toList ++ renderInt status.toInt
      ++ " ".toList ++ message ++ "\r\n".toList
      ++ "Content-Type: application/json\r\nContent-Length: ".toList
      ++ renderInt (Int32.ofNat body.length).toInt ++ "\r\nConnection: close".toList, body, ?_⟩
    have hclose : "\r\nConnection: close\r\n".toList
        = "\r\nConnection: close".toList ++ "\r\n".toList := by decide
    have hblank : "\r\n\r\n".toList = "\r\n".toList ++ "\r\n".toList := by decide
    unfold responseText afterStatus responseHeaders
    rw [hclose, hblank]
    simp only [List.append_assoc]
  obtain ⟨bodyStart, hbodyStart⟩ := Option.isSome_iff_exists.mp hblank
  refine ⟨bodyStart.drop 4, ?_⟩
  rw [parseHttpResponse, hstart]
  simp only [hstatus, hbodyStart, Option.getD_some]

/-! ## 3. Outcomes that can be read -/

section Outcomes

variable {σ : Type}

/-- The handler answered with this status and left this store. -/
def Answered (response : HttpResponse) (status : Int32) (s : σ)
    (outcome : Option (Int × HttpResponse × σ)) : Prop :=
  ∃ message body, Fits message body ∧
    outcome = some (0, createHttpResponse response status message body, s)

theorem answered_reply (response : HttpResponse) (status : Int32) {message body : String}
    (h : Fits message.toList body.toList) (s : σ) :
    Answered response status s (reply response status message body s) :=
  ⟨_, _, h, rfl⟩

/-- The daemon sends such an answer whole. -/
theorem handleClient_of_answered (backend : Backend σ) (env : ClientEnv) {text : List Char}
    {request : HttpRequest} {status : Int32} {s s' : σ} (htext : text ≠ [])
    (hparse : parseHttpRequest env.copied (cstr (text.take (MAX_REQUEST_SIZE - 1))) env.request
      = some (0, request))
    (hanswer : Answered env.response status s'
      (handleApiRequest backend request env.response s)) :
    ∃ message body, Fits message body ∧
      handleClient backend env text s = some (responseText status message body, s') := by
  obtain ⟨message, body, hfits, houtcome⟩ := hanswer
  refine ⟨message, body, hfits, ?_⟩
  rw [handleClient, if_neg htext, hparse]
  simp only [houtcome, ne_eq, not_true_eq_false, if_false, send_createHttpResponse hfits]

/-- A request that cannot be parsed is answered with 400. -/
theorem handleClient_of_not_parsed (backend : Backend σ) (env : ClientEnv) {text : List Char}
    {request : HttpRequest} (s : σ) (htext : text ≠ [])
    (hparse : parseHttpRequest env.copied (cstr (text.take (MAX_REQUEST_SIZE - 1))) env.request
      = some (-1, request)) :
    ∃ message body, Fits message body ∧
      handleClient backend env text s = some (responseText 400 message body, s) := by
  have hfits : Fits "Bad Request".toList "Invalid HTTP request".toList :=
    by decide
  refine ⟨_, _, hfits, ?_⟩
  rw [handleClient, if_neg htext, hparse]
  simp only [send_createHttpResponse hfits]

end Outcomes

/-! ## 4. Lists -/

section Lists

variable {α : Type} (entry : α → List Char)

/-- The JSON text of a list. -/
def listText (items : List α) : List Char :=
  "[".toList ++ (",".toList).intercalate (items.map entry) ++ "]".toList

theorem strcatWithin_eq_some {size : Nat} {dst src array : List Char} (hsrc : NulFree src) :
    strcatWithin size dst src = some array →
      (cstr dst ++ src).length < size ∧ cstr array = cstr dst ++ src := by
  rw [strcatWithin]
  split
  · rename_i hlen
    intro h
    obtain rfl := Option.some.inj h
    refine ⟨hlen, cstr_store ?_ dst⟩
    rw [nulFree_append]
    exact ⟨nulFree_cstr dst, hsrc⟩
  · simp

theorem strcatWithin_of_lt {size : Nat} {dst src : List Char} (hsrc : NulFree src)
    (hlen : (cstr dst ++ src).length < size) :
    ∃ array, strcatWithin size dst src = some array ∧ cstr array = cstr dst ++ src := by
  refine ⟨strcat dst src, by rw [strcatWithin, if_pos hlen], cstr_store ?_ dst⟩
  rw [nulFree_append]
  exact ⟨nulFree_cstr dst, hsrc⟩

theorem appendEntries_singleton (x : α) (json : List Char) :
    appendEntries entry [x] json = strcatWithin 4096 json (entry x) := by
  cases h : strcatWithin 4096 json (entry x) <;> simp [appendEntries, h]

theorem appendEntries_cons_cons (x y : α) (ys : List α) (json : List Char) :
    appendEntries entry (x :: y :: ys) json
      = (strcatWithin 4096 json (entry x)).bind fun json =>
        (strcatWithin 4096 json ",".toList).bind fun json => appendEntries entry (y :: ys) json :=
  rfl

variable {entry} (hentry : ∀ x, NulFree (entry x))

include hentry

/-- What the loop has appended when it returns. -/
theorem cstr_of_appendEntries : ∀ {items : List α} {json array : List Char},
    appendEntries entry items json = some array →
    cstr array = cstr json ++ (",".toList).intercalate (items.map entry) := by
  intro items
  induction items with
  | nil =>
    intro json array h
    obtain rfl := Option.some.inj h
    simp
  | cons x xs ih =>
    intro json array h
    cases xs with
    | nil =>
      rw [appendEntries_singleton] at h
      simpa using (strcatWithin_eq_some (hentry x) h).2
    | cons y ys =>
      rw [appendEntries_cons_cons] at h
      obtain ⟨withEntry, hwith, h⟩ := Option.bind_eq_some_iff.mp h
      obtain ⟨withComma, hcomma, hrest⟩ := Option.bind_eq_some_iff.mp h
      have hx := (strcatWithin_eq_some (hentry x) hwith).2
      have hc := (strcatWithin_eq_some (by decide) hcomma).2
      rw [ih hrest, hc, hx]
      simp only [List.map_cons, List.intercalate_cons_cons, List.append_assoc]

/-- The loop returns when everything fits. -/
theorem appendEntries_of_lt : ∀ {items : List α} {json : List Char},
    (cstr json ++ (",".toList).intercalate (items.map entry)).length < 4096 →
    ∃ array, appendEntries entry items json = some array := by
  intro items
  induction items with
  | nil => exact fun _ => ⟨_, rfl⟩
  | cons x xs ih =>
    intro json hlen
    cases xs with
    | nil =>
      obtain ⟨array, harray, -⟩ := strcatWithin_of_lt (hentry x) (by simpa using hlen)
      exact ⟨array, by rw [appendEntries_singleton, harray]⟩
    | cons y ys =>
      rw [List.map_cons, List.map_cons, List.intercalate_cons_cons, ← List.map_cons] at hlen
      simp only [List.length_append] at hlen
      obtain ⟨withEntry, hwith, hx⟩ := strcatWithin_of_lt (hentry x)
        (by rw [List.length_append]; omega : (cstr json ++ entry x).length < 4096)
      obtain ⟨withComma, hcomma, hc⟩ := strcatWithin_of_lt
        (by decide : NulFree ",".toList)
        (by rw [hx]; simp only [List.length_append]; omega :
          (cstr withEntry ++ ",".toList).length < 4096)
      obtain ⟨array, harray⟩ : ∃ array, appendEntries entry (y :: ys) withComma = some array :=
        ih (by rw [hc, hx]; simp only [List.length_append]; omega)
      exact ⟨array, by rw [appendEntries_cons_cons, hwith, Option.bind_some, hcomma,
        Option.bind_some, harray]⟩

/-- The array of a list handler holds its JSON text, if that fits it. -/
theorem listJson_of_lt {items : List α} (hlen : (listText entry items).length < 4096) :
    ∃ json, listJson entry items = some json ∧ cstr json = listText entry items := by
  have hopen : cstr (store (zeros 4096) "[".toList) = "[".toList := cstr_store (by decide) _
  simp only [listText, List.length_append] at hlen
  obtain ⟨array, harray⟩ : ∃ array,
      appendEntries entry items (store (zeros 4096) "[".toList) = some array :=
    appendEntries_of_lt hentry (by rw [hopen]; simp only [List.length_append]; omega)
  have htext := cstr_of_appendEntries hentry harray
  rw [hopen] at htext
  obtain ⟨json, hjson, hclose⟩ := strcatWithin_of_lt (by decide : NulFree "]".toList)
    (by rw [htext]; simp only [List.length_append]; omega : (cstr array ++ "]".toList).length < 4096)
  refine ⟨json, ?_, ?_⟩
  · simp only [listJson, harray, Option.bind_eq_bind, Option.bind_some, hjson]
  · rw [hclose, htext]
    rfl

theorem lt_of_listJson {items : List α} {json : List Char} (h : listJson entry items = some json) :
    (listText entry items).length < 4096 := by
  simp only [listJson, Option.bind_eq_bind, Option.bind_eq_some_iff] at h
  obtain ⟨array, harray, hjson⟩ := h
  have htext := cstr_of_appendEntries hentry harray
  rw [cstr_store (by decide)] at htext
  have hlen := (strcatWithin_eq_some (by decide) hjson).1
  rw [htext] at hlen
  exact hlen

end Lists

theorem nulFree_imageJson (i : ImageSummary) : NulFree (imageJson i) := by
  unfold imageJson imageText snprintf
  refine NulFree.take ?_ _
  simp only [nulFree_append, nulFree_cstr, and_true]
  decide

/-! ## 5. The list and the removal of images -/

section Images

variable {σ : Type} (backend : Backend σ)

/-- The list handler answers unless it writes past its array. -/
theorem handleImageList_answered {request : HttpRequest} {response : HttpResponse} {s s' : σ}
    {listed : Option (List ImageSummary)} (hlist : backend.listImages s = (listed, s'))
    (hfits : ∀ items, listed = some items → (listText imageJson items).length < 4096) :
    Answered response (if listed.isSome then 200 else 500) s'
      (handleImageList backend request response s) := by
  rw [handleImageList, handleList, hlist]
  cases listed with
  | none => exact answered_reply _ _ (by decide) _
  | some items =>
    obtain ⟨json, hjson, htext⟩ := listJson_of_lt nulFree_imageJson (hfits items rfl)
    refine ⟨"OK".toList, cstr json, ⟨by decide, by decide, nulFree_cstr json, ?_⟩, ?_⟩
    · rw [htext]
      exact hfits items rfl
    · simp only [hjson, Option.bind_eq_bind, Option.bind_some, Option.isSome_some, if_true]

/-- Where it answers, the list fitted. -/
theorem lt_of_handleImageList {request : HttpRequest} {response : HttpResponse} {s s' : σ}
    {items : List ImageSummary} {o : Int × HttpResponse × σ}
    (hlist : backend.listImages s = (some items, s'))
    (ho : handleImageList backend request response s = some o) :
    (listText imageJson items).length < 4096 := by
  rw [handleImageList, handleList, hlist] at ho
  obtain ⟨json, hjson, -⟩ := Option.bind_eq_some_iff.mp ho
  exact lt_of_listJson nulFree_imageJson hjson

end Images

/-! ## 6. Requests that reach no operation -/

section Quiet

variable {σ : Type} (backend : Backend σ) {request : HttpRequest}

/-- The request is answered and the store is left alone. -/
def Quiet (request : HttpRequest) (response : HttpResponse) (s : σ) : Prop :=
  ∃ status, Answered response status s (handleApiRequest backend request response s)

/-- Neither router is tried. -/
theorem quiet_of_elsewhere (hc : found (cstr request.url) "/containers".toList = false)
    (hi : found (cstr request.url) "/images".toList = false) (response : HttpResponse) (s : σ) :
    Quiet backend request response s := by
  refine ⟨404, ?_⟩
  simp only [handleApiRequest, hc, hi, Bool.false_eq_true, if_false]
  exact answered_reply _ _ (by decide) _

variable (hurl : found (cstr request.url) "/containers".toList = true)

include hurl

/-- A POST with an empty body creates nothing, and no other POST is
routed. -/
theorem quiet_of_post_container (hmethod : cstr request.method = "POST".toList)
    (hbody : cstr request.body = []) (response : HttpResponse) (s : σ) :
    Quiet backend request response s := by
  have hpost : ¬ "POST".toList = "GET".toList := by decide
  have hhead : (cstr request.body).head? ≠ some '"' := by simp [hbody]
  simp only [Quiet, handleApiRequest, hurl, if_true, handleContainersApi, hmethod, if_neg hpost,
    handleContainerCreate_of_head backend hhead]
  split
  · exact ⟨400, answered_reply _ _ (by decide) _⟩
  · exact ⟨404, answered_reply _ _ (by decide) _⟩

/-- No DELETE of a container is routed. -/
theorem quiet_of_delete_container (hmethod : cstr request.method = "DELETE".toList)
    (response : HttpResponse) (s : σ) : Quiet backend request response s := by
  have hget : ¬ "DELETE".toList = "GET".toList := by decide
  have hpost : ¬ "DELETE".toList = "POST".toList := by decide
  simp only [Quiet, handleApiRequest, hurl, if_true, handleContainersApi, hmethod, if_neg hget,
    if_neg hpost]
  exact ⟨404, answered_reply _ _ (by decide) _⟩

/-- The call of the list handler is commented out. -/
theorem quiet_of_get_container_list (hmethod : cstr request.method = "GET".toList)
    (hlist : found (cstr request.url) "/containers/json".toList = true)
    (response : HttpResponse) (s : σ) : Quiet backend request response s := by
  simp only [Quiet, handleApiRequest, hurl, if_true, handleContainersApi, hmethod, hlist]
  exact ⟨404, answered_reply _ _ (by decide) _⟩

end Quiet

/-! ## 7. The image of a removal -/

section Removal

variable {name tail : List Char} (hslash : '/' ∉ name)

include hslash

/-- The URL of a removal is routed to the containers exactly when the name
starts with that word. -/
theorem found_containers_iff :
    found ("/images/".toList ++ name) "/containers".toList = true ↔
      "containers".toList <+: name := by
  have hurl : "/images/".toList ++ name = '/' :: ("images".toList ++ '/' :: name) := rfl
  have hneedle : "/containers".toList = '/' :: "containers".toList := by decide
  rw [found_iff, hurl, hneedle, List.infix_cons_iff, List.cons_prefix_cons,
    infix_append_of_not_mem (by decide), infix_cons_of_not_mem hslash]
  simp

/-- A name of fewer than 256 characters is taken from the URL. -/
theorem extractImageName_of_lt (hlen : name.length < 256) :
    extractImageNameFromUrl ("/images/".toList ++ name) = some name := by
  have hstart := strstr_of_prefix (List.prefix_append "/images/".toList name)
  simp only [extractImageNameFromUrl, extractSegment, hstart, List.drop_left,
    strchr_of_not_mem hslash]
  rw [if_neg (by omega), List.take_length]

/-- A longer one is refused, whatever follows it. -/
theorem extractImageName_of_ge (hlen : 256 ≤ name.length) (tail : List Char) :
    extractImageNameFromUrl ("/images/".toList ++ (name ++ tail)) = none := by
  have hstart := strstr_of_prefix (List.prefix_append "/images/".toList (name ++ tail))
  simp only [extractImageNameFromUrl, extractSegment, hstart, List.drop_left,
    strchr_append_of_not_mem hslash]
  cases hs : strchr tail '/' with
  | none =>
    simp only [List.length_append]
    rw [if_pos (by omega)]
  | some slash =>
    have hle := strchr_length_le hs
    simp only [List.length_append]
    rw [if_pos (by omega)]

end Removal

section RemovalRouting

variable {σ : Type} (backend : Backend σ) {request : HttpRequest} {name tail : List Char}

/-- Where a removal that is not routed to the containers goes. -/
theorem handleApiRequest_delete_image (hmethod : cstr request.method = "DELETE".toList)
    (hurl : cstr request.url = "/images/".toList ++ name)
    (hc : found (cstr request.url) "/containers".toList = false)
    (response : HttpResponse) (s : σ) :
    handleApiRequest backend request response s = handleImageRemove backend request response s := by
  have hget : ¬ "DELETE".toList = "GET".toList := by decide
  have hpost : ¬ "DELETE".toList = "POST".toList := by decide
  have himages : found (cstr request.url) "/images".toList = true := by
    rw [hurl, found_iff]
    exact ⟨[], '/' :: name, rfl⟩
  have himage : found (cstr request.url) "/images/".toList = true := by
    rw [hurl, found_iff]
    exact ⟨[], name, rfl⟩
  simp only [handleApiRequest, hc, Bool.false_eq_true, if_false, himages, if_true, handleImagesApi,
    hmethod, if_neg hget, if_neg hpost, himage]

/-- A removal of a name that is too long does nothing. -/
theorem quiet_of_long_name (hmethod : cstr request.method = "DELETE".toList)
    (hurl : cstr request.url = "/images/".toList ++ (name ++ tail)) (hslash : '/' ∉ name)
    (hlen : 256 ≤ name.length) (response : HttpResponse) (s : σ) :
    Quiet backend request response s := by
  cases hc : found (cstr request.url) "/containers".toList with
  | true => exact quiet_of_delete_container backend hc hmethod response s
  | false =>
    rw [Quiet, handleApiRequest_delete_image backend hmethod hurl hc, handleImageRemove, hurl,
      extractImageName_of_ge hslash hlen]
    exact ⟨400, answered_reply _ _ (by decide) _⟩

/-- A removal that reaches `remove_image`. -/
theorem answered_of_removal (hmethod : cstr request.method = "DELETE".toList)
    (hurl : cstr request.url = "/images/".toList ++ name) (hslash : '/' ∉ name)
    (hlen : name.length < 256) (hname : ¬ "containers".toList <+: name)
    (response : HttpResponse) (s : σ) :
    Answered response (if (backend.removeImage name s).1 = 0 then 200 else 500)
      (backend.removeImage name s).2 (handleApiRequest backend request response s) := by
  have hc : found (cstr request.url) "/containers".toList = false := by
    rw [hurl, ← Bool.not_eq_true, found_containers_iff hslash]
    exact hname
  rw [handleApiRequest_delete_image backend hmethod hurl hc, handleImageRemove, hurl,
    extractImageName_of_lt hslash hlen]
  simp only
  split
  · exact answered_reply _ _ (by decide) _
  · exact answered_reply _ _ (by decide) _

end RemovalRouting

end DockerClone.Http
