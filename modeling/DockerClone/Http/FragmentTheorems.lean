/-
DockerClone.Http.FragmentTheorems — messages that arrive in pieces.

Both ends call `recv` once and take what it returns for the message. So
of a message that arrives in pieces the first piece is all they see. The
daemon needs no more of a request than the first two words of its first
line and the beginning of a third, because `parse_http_request` loses the
rest anyway; the client needs the whole response.

A URL of 511 bytes or more leaves the last byte of `url` as it was. If
that is no NUL the handlers read on into `version`, which a first piece
can cut; no outcome is given there (`UrlEnds`).

Section 2 says that a first piece that reaches the third word is parsed
like the whole text, section 4 that the client's body grows with every
further byte.
-/
import DockerClone.Http.RequestTheorems
import DockerClone.Http.ResponseTheorems
import DockerClone.Http.StatusTheorems

namespace DockerClone.Http

open DockerClone.CLib

/-! ## 1. Pieces -/

/-- A way of cutting a text into consecutive pieces. -/
structure IsSplit (pieces : List (List Char)) (text : List Char) : Prop where
  flatten : pieces.flatten = text
  nonempty : ∀ p ∈ pieces, p ≠ []

/-- What one `recv` call for at most `size` bytes returns while these
pieces arrive; nothing when the other side has closed. -/
def recv (size : Nat) (pieces : List (List Char)) : List Char := (pieces.headD []).take size

/-- `handle_client` on a request that arrives in these pieces. -/
def handlePieces {σ : Type} (backend : Backend σ) (env : ClientEnv) (pieces : List (List Char))
    (s : σ) : Option (List Char × σ) :=
  let received := recv (MAX_REQUEST_SIZE - 1) pieces
  if env.copied = true ∧ IsRequest received ∧ ¬ UrlEnds env.request received then none
  else handleClient backend env received s

/-- The status and the body that `parse_http_response` takes from a text,
if it succeeds. -/
def readText (statusJunk : Int32) (bodyJunk received : List Char) : Option (Int32 × List Char) :=
  match parseHttpResponse received statusJunk bodyJunk with
  | (0, status, body) => some (status, body)
  | _ => none

/-- `receive_response_from_daemon` with a buffer of `MAX_RESPONSE_SIZE`
bytes, and the parse of what it received. -/
def readPieces (statusJunk : Int32) (bodyJunk : List Char) (pieces : List (List Char)) :
    Option (Int32 × List Char) :=
  readText statusJunk bodyJunk (cstr (recv (MAX_RESPONSE_SIZE - 1) pieces))

/-- The same store operations with the same arguments, and the same
response. -/
def SameService {σ : Type} (backend : Backend σ) (env : ClientEnv) (pieces : List (List Char))
    (text : List Char) (s : σ) : Prop :=
  ∃ outcome, handlePieces (recorded backend) env pieces (s, []) = some outcome ∧
    handlePieces (recorded backend) env [text] (s, []) = some outcome

/-- The same status and the same body, or no response either way. -/
def SameReading (statusJunk : Int32) (bodyJunk : List Char) (pieces : List (List Char))
    (text : List Char) : Prop :=
  readPieces statusJunk bodyJunk pieces = readPieces statusJunk bodyJunk [text]

/-! ## 2. First pieces -/

theorem takeWhile_prefix_mono {α : Type} (q : α → Bool) {p t : List α} (h : p <+: t) :
    p.takeWhile q <+: t.takeWhile q := by
  obtain ⟨rest, rfl⟩ := h
  rw [List.takeWhile_append]
  split
  · exact (List.takeWhile_prefix q).trans (List.prefix_append p _)
  · exact List.prefix_refl _

theorem dropWhile_prefix_mono {α : Type} (q : α → Bool) {p t : List α} (h : p <+: t) :
    p.dropWhile q <+: t.dropWhile q := by
  obtain ⟨rest, rfl⟩ := h
  rw [List.dropWhile_append]
  split
  · rename_i hnil
    rw [List.isEmpty_iff.mp hnil]
    exact List.nil_prefix
  · exact List.prefix_append _ _

section Prefix

variable {piece text : List Char}

theorem requestLine_mono (h : piece <+: text) : requestLine piece <+: requestLine text :=
  takeWhile_prefix_mono _ (dropWhile_prefix_mono _ (takeWhile_prefix_mono _ h))

/-- A piece that reaches the third word of the request line has the first
two whole. -/
theorem isRequest_mono (h : piece <+: text) (hpiece : IsRequest piece)
    (stale : HttpRequest) : IsRequest text ∧ SameRequest (requestOf stale piece)
      (requestOf stale text) ∧ (restOfLine piece).length ≤ (restOfLine text).length := by
  obtain ⟨m, u, v, hwords, h₁, h₂, h₃⟩ := strtok_of_isRequest hpiece
  have hsaved : ∀ {s : List Char}, (strtok s [' ']).1.isSome = true → s ≠ [] := by
    rintro s hs rfl
    simp at hs
  -- each of the first two words is followed by something in the piece
  obtain ⟨more, hm, hpre₁⟩ := strtok_prefix (requestLine_mono h) (Prod.ext h₁ rfl)
    (hsaved (by rw [h₂]; rfl))
  obtain ⟨more', hu, hpre₂⟩ := strtok_prefix hpre₁ (Prod.ext h₂ rfl) (hsaved (by rw [h₃]; rfl))
  have hv : (strtok more' [' ']).1.isSome = true := strtok_isSome_of_prefix hpre₂ (by rw [h₃]; rfl)
  obtain ⟨v', hv⟩ := Option.isSome_iff_exists.mp hv
  have htext : words ' ' (requestLine text) = m :: u :: v' :: (words ' ' more').tail := by
    have hm' := strtok_words ' ' (requestLine text)
    have hu' := strtok_words ' ' more
    have hv' := strtok_words ' ' more'
    rw [hm] at hm'
    rw [hu] at hu'
    rw [hv] at hv'
    rw [← List.cons_head?_tail (l := words ' ' (requestLine text)) (a := m) hm'.1.symm, ← hm'.2,
      ← List.cons_head?_tail (l := words ' ' more) (a := u) hu'.1.symm, ← hu'.2,
      ← List.cons_head?_tail (l := words ' ' more') (a := v') hv'.1.symm]
    rfl
  refine ⟨?_, ?_, ?_⟩
  · rw [IsRequest, htext]
    simp
  · rw [requestOf, requestOf, hwords, htext]
    exact ⟨rfl, rfl, rfl⟩
  · rw [restOfLine, restOfLine, hm, hu]
    simp only
    by_cases hnil : (strtok (strtok (strtok (requestLine piece) [' ']).2 [' ']).2 [' ']).2 = []
    · rw [hnil]
      exact Nat.zero_le _
    · obtain ⟨rest, hrest, hpre₃⟩ := strtok_prefix hpre₂ (Prod.ext h₃ rfl) hnil
      rw [hrest]
      exact hpre₃.length_le

end Prefix

/-- No handler looks at anything but the method, the URL and the body. -/
theorem handleApiRequest_congr {σ : Type} (backend : Backend σ) {r r' : HttpRequest}
    (h : SameRequest r r') (response : HttpResponse) (s : σ) :
    handleApiRequest backend r response s = handleApiRequest backend r' response s := by
  obtain ⟨m, u, v, hs, b, c⟩ := r
  obtain ⟨m', u', v', hs', b', c'⟩ := r'
  obtain ⟨hm, hu, hb⟩ := h
  simp only at hm hu hb
  subst hm hu hb
  rfl

/-! ## 3. The daemon -/

/-- The first piece is enough, the URL ends in its array, and handling
the whole text overruns none. -/
structure Suffices {σ : Type} (backend : Backend σ) (env : ClientEnv) (piece text : List Char)
    (s : σ) : Prop where
  words : IsRequest piece
  url : UrlEnds env.request text
  headers : HeadersFit text
  copies : RouteFits backend (requestOf env.request text) s

section Daemon

variable {σ : Type} (backend : Backend σ) (env : ClientEnv)

/-- What is sent for a text that is no request. -/
def refusal : List Char :=
  sendHttpResponse (createHttpResponse env.response 400 "Bad Request".toList
    "Invalid HTTP request".toList)

variable {received : List Char} (hne : received ≠ []) (hlen : received.length < MAX_REQUEST_SIZE)

include hne hlen

theorem handleClient_refused (h : env.copied = false ∨ ¬ IsRequest received) (s : σ) :
    handleClient backend env received s = some (refusal env, s) := by
  have hwhole : received.take (MAX_REQUEST_SIZE - 1) = received :=
    List.take_of_length_le (Nat.le_sub_one_of_lt hlen)
  have hparse : parseHttpRequest env.copied (cstr received) env.request
      = some (-1, env.request) := by
    cases hcopied : env.copied with
    | false => rw [parseHttpRequest, if_pos rfl]
    | true =>
      refine parse_of_not_isRequest (h.resolve_left ?_) env.request
      rw [hcopied]
      simp
  rw [handleClient, if_neg hne, hwhole, hparse]
  rfl

theorem handleClient_request (hcopied : env.copied = true) (h : IsRequest received) (s : σ) :
    (HeadersFit received → handleClient backend env received s
      = (handleApiRequest backend (requestOf env.request received) env.response s).map
        fun o => (sendHttpResponse (if o.1 ≠ 0 then createHttpResponse o.2.1 500
          "Internal Server Error".toList "Failed to handle request".toList else o.2.1), o.2.2)) ∧
    (¬ HeadersFit received → handleClient backend env received s = none) := by
  have hwhole : received.take (MAX_REQUEST_SIZE - 1) = received :=
    List.take_of_length_le (Nat.le_sub_one_of_lt hlen)
  obtain ⟨hfit, hover⟩ := parse_of_isRequest h env.request
  rw [handleClient, if_neg hne, hwhole, hcopied]
  constructor
  · intro hheaders
    obtain ⟨parsed, hparse, hsame⟩ := hfit hheaders
    rw [hparse]
    simp only
    rw [handleApiRequest_congr backend hsame]
    cases handleApiRequest backend (requestOf env.request received) env.response s with
    | none => rfl
    | some o => rfl
  · intro hheaders
    rw [hover hheaders]

/-- Where nothing is overrun the answer to a request is not the
refusal. -/
theorem handleClient_answered (hcopied : env.copied = true) (h : IsRequest received) (s : σ)
    (hheaders : HeadersFit received) (hcopies : RouteFits backend (requestOf env.request received) s) :
    ∃ sent after, handleClient (recorded backend) env received (s, []) = some (sent, after) ∧
      sent ≠ refusal env := by
  obtain ⟨status, message, body, s', calls, houtcome, hfits, hline, hhead, -⟩ :=
    handleApiRequest_settled backend (requestOf env.request received) env.response s [] hcopies
  rw [(handleClient_request (recorded backend) env hne hlen hcopied h (s, [])).1 hheaders, houtcome]
  refine ⟨_, _, rfl, fun he => ?_⟩
  -- the client would read the same body from both
  have hrefusal : Fits "Bad Request".toList "Invalid HTTP request".toList := by decide
  have hread := parse_sendHttpResponse hfits hline env.response status 0 []
  have hread' := parse_sendHttpResponse hrefusal (by decide) env.response 400 0 []
  rw [refusal] at he
  simp only [ne_eq, not_true_eq_false, if_false] at he
  rw [he, hread'] at hread
  rw [← (Prod.mk.inj (Prod.mk.inj hread).2).2] at hhead
  exact hhead (by decide)

end Daemon

section Service

variable {σ : Type} {backend : Backend σ} {env : ClientEnv} {pieces : List (List Char)}
  {text : List Char} {s : σ}

theorem recv_whole {size : Nat} (h : text.length ≤ size) : recv size [text] = text :=
  List.take_of_length_le h

theorem recv_prefix {size : Nat} (h : IsSplit pieces text) : recv size pieces <+: text := by
  rw [recv, ← h.flatten]
  cases pieces with
  | nil => simp
  | cons p ps => exact (List.take_prefix _ _).trans (List.prefix_append _ _)

theorem recv_ne_nil {size : Nat} (hsize : 0 < size) (h : IsSplit pieces text) (hne : text ≠ []) :
    recv size pieces ≠ [] := by
  rw [recv]
  cases pieces with
  | nil => exact absurd h.flatten.symm hne
  | cons p ps =>
    have hp := h.nonempty p (by simp)
    simp [List.headD, hp]
    omega

/-- The daemon's half: the pieces are served as the whole text is exactly
when the text is no request, or the first piece suffices. -/
theorem sameService_iff (hsplit : IsSplit pieces text) (hlen : text.length < MAX_REQUEST_SIZE) :
    SameService backend env pieces text s ↔
      env.copied = false ∨ ¬ IsRequest text ∨
        Suffices backend env (recv (MAX_REQUEST_SIZE - 1) pieces) text s := by
  rw [SameService, handlePieces, handlePieces, recv_whole (Nat.le_sub_one_of_lt hlen)]
  have hpre : recv (MAX_REQUEST_SIZE - 1) pieces <+: text := recv_prefix hsplit
  generalize hpiece : recv (MAX_REQUEST_SIZE - 1) pieces = piece at hpre
  by_cases hempty : text = []
  · -- nothing is sent, and nothing arrives
    obtain rfl : piece = [] := by rwa [hempty, List.prefix_nil] at hpre
    have hno : ¬ IsRequest [] := by decide
    rw [hempty, if_neg (fun h => hno h.2.1)]
    refine iff_of_true ⟨([], s, []), ?_, ?_⟩ (Or.inr (Or.inl hno))
    · rw [handleClient, if_pos rfl]
    · rw [handleClient, if_pos rfl]
  · have hne : piece ≠ [] := by
      rw [← hpiece]
      exact recv_ne_nil (by decide) hsplit hempty
    have hshort : piece.length < MAX_REQUEST_SIZE := lt_of_le_of_lt hpre.length_le hlen
    have hrefused := handleClient_refused (recorded backend) env hne hshort
    have hrefused' := handleClient_refused (recorded backend) env hempty hlen
    by_cases hno : env.copied = false ∨ ¬ IsRequest text
    · have hno' : env.copied = false ∨ ¬ IsRequest piece := by
        refine hno.imp_right fun htext hp => htext ?_
        exact (isRequest_mono hpre hp env.request).1
      have hread : ∀ {t : List Char}, env.copied = false ∨ ¬ IsRequest t →
          ¬ (env.copied = true ∧ IsRequest t ∧ ¬ UrlEnds env.request t) := by
        rintro t (hcopied | ht) ⟨hcopied', ht', -⟩
        · rw [hcopied] at hcopied'
          simp at hcopied'
        · exact ht ht'
      rw [if_neg (hread hno), if_neg (hread hno')]
      refine iff_of_true ⟨_, hrefused hno' (s, []), hrefused' hno (s, [])⟩ ?_
      exact hno.imp_right Or.inl
    · obtain ⟨hcopied, htext⟩ := not_or.mp hno
      have hcopied : env.copied = true := by simpa using hcopied
      have htext : IsRequest text := not_not.mp htext
      obtain ⟨hserved, hover⟩ := handleClient_request (recorded backend) env hempty hlen hcopied
        htext (s, [])
      constructor
      · rintro ⟨outcome, houtcome, hwhole⟩
        have hurl : UrlEnds env.request text := by
          by_contra hruns
          rw [if_pos ⟨hcopied, htext, hruns⟩] at hwhole
          simp at hwhole
        rw [if_neg (fun h => h.2.2 hurl)] at hwhole
        have hheaders : HeadersFit text := by
          by_contra hlong
          rw [hover hlong] at hwhole
          simp at hwhole
        have hcopies : RouteFits backend (requestOf env.request text) s := by
          rw [hserved hheaders] at hwhole
          obtain ⟨o, ho, -⟩ := Option.map_eq_some_iff.mp hwhole
          exact routeFits_of_handleApiRequest backend _ _ s [] ho
        refine Or.inr (Or.inr ⟨?_, hurl, hheaders, hcopies⟩)
        by_contra hp
        obtain ⟨sent, after, hsent, hdiffers⟩ := handleClient_answered backend env hempty hlen
          hcopied htext s hheaders hcopies
        rw [if_neg (fun h => hp h.2.1), hrefused (Or.inr hp)] at houtcome
        rw [hsent, ← houtcome] at hwhole
        exact hdiffers (Prod.mk.inj (Option.some.inj hwhole)).1
      · intro h
        obtain ⟨hwords, hurl, hheaders, hcopies⟩ :=
          (h.resolve_left (by simp [hcopied])).resolve_left (not_not.mpr htext)
        obtain ⟨-, hsame, hrest⟩ := isRequest_mono hpre hwords env.request
        have hurl' : UrlEnds env.request piece := by
          rw [UrlEnds, hsame.url]
          exact hurl
        have hheaders' : HeadersFit piece :=
          lt_of_le_of_lt (Nat.add_le_add_right hrest 2) hheaders
        obtain ⟨sent, after, hsent, -⟩ := handleClient_answered backend env hempty hlen hcopied
          htext s hheaders hcopies
        rw [if_neg (fun h => h.2.2 hurl'), if_neg (fun h => h.2.2 hurl)]
        refine ⟨_, ?_, hsent⟩
        rw [(handleClient_request (recorded backend) env hne hshort hcopied hwords (s, [])).1
          hheaders', handleApiRequest_congr _ hsame, ← hserved hheaders, hsent]

end Service

/-! ## 4. The client -/

/-- The text has a status line and a blank line. -/
def IsResponse (text : List Char) : Prop :=
  found text "HTTP/1.1 ".toList = true ∧ found text "\r\n\r\n".toList = true

section Client

variable {pieces : List (List Char)} {text received whole bodyJunk : List Char} {statusJunk : Int32}

theorem readText_of_isResponse (statusJunk : Int32) (bodyJunk : List Char)
    (h : IsResponse received) : ∃ status bodyStart,
    strstr received "\r\n\r\n".toList = some bodyStart ∧
    readText statusJunk bodyJunk received = some (status, bodyStart.drop 4) := by
  obtain ⟨line, hline⟩ := Option.isSome_iff_exists.mp h.1
  obtain ⟨bodyStart, hstart⟩ := Option.isSome_iff_exists.mp h.2
  refine ⟨(scannedInt line "HTTP/1.1 %d".toList).getD statusJunk, bodyStart, hstart, ?_⟩
  rw [readText, parseHttpResponse, hline, hstart]
  rfl

theorem readText_of_not_isResponse (h : ¬ IsResponse received) :
    readText statusJunk bodyJunk received = none := by
  rw [readText, parseHttpResponse]
  cases hline : strstr received "HTTP/1.1 ".toList with
  | none => rfl
  | some line =>
    cases hstart : strstr received "\r\n\r\n".toList with
    | none => rfl
    | some bodyStart =>
      exact absurd ⟨by rw [found, hline]; rfl, by rw [found, hstart]; rfl⟩ h

/-- Every further byte is one more byte of body. -/
theorem readText_eq_iff (hpre : received <+: whole) (h : IsResponse whole) :
    readText statusJunk bodyJunk received = readText statusJunk bodyJunk whole ↔
      received = whole := by
  constructor
  · intro hsame
    obtain ⟨rest, rfl⟩ := hpre
    obtain ⟨status, bodyStart, hstart, hread⟩ := readText_of_isResponse statusJunk bodyJunk h
    have hreceived : IsResponse received := by
      by_contra hno
      rw [readText_of_not_isResponse hno, hread] at hsame
      simp at hsame
    obtain ⟨status', bodyStart', hstart', hread'⟩ :=
      readText_of_isResponse statusJunk bodyJunk hreceived
    have hlonger := strstr_append hstart' rest
    obtain rfl : bodyStart' ++ rest = bodyStart := Option.some.inj (hlonger.symm.trans hstart)
    have hblank : 4 ≤ bodyStart'.length := (prefix_of_strstr hstart').length_le
    rw [hread, hread'] at hsame
    have hbody := (Prod.mk.inj (Option.some.inj hsame)).2
    rw [List.drop_append_of_le_length hblank] at hbody
    rw [List.self_eq_append_right.mp hbody, List.append_nil]
  · rintro rfl
    rfl

/-- The client's half: the pieces are read as the whole text is exactly
when the text is no response, or the first piece is as much of it as the
buffer takes. -/
theorem sameReading_iff (hsplit : IsSplit pieces text) :
    SameReading statusJunk bodyJunk pieces text ↔
      ¬ IsResponse (cstr (recv (MAX_RESPONSE_SIZE - 1) [text])) ∨
        cstr (recv (MAX_RESPONSE_SIZE - 1) pieces) = cstr (recv (MAX_RESPONSE_SIZE - 1) [text]) := by
  have hpre : cstr (recv (MAX_RESPONSE_SIZE - 1) pieces)
      <+: cstr (recv (MAX_RESPONSE_SIZE - 1) [text]) := by
    refine takeWhile_prefix_mono _ ?_
    rw [recv, recv, ← hsplit.flatten]
    cases pieces with
    | nil => simp
    | cons p ps => exact (List.prefix_append p ps.flatten).take _
  rw [SameReading, readPieces, readPieces]
  by_cases h : IsResponse (cstr (recv (MAX_RESPONSE_SIZE - 1) [text]))
  · rw [readText_eq_iff hpre h, or_iff_right (not_not.mpr h)]
  · refine iff_of_true ?_ (Or.inl h)
    rw [readText_of_not_isResponse h, readText_of_not_isResponse]
    intro hreceived
    have hin : ∀ needle, found (cstr (recv (MAX_RESPONSE_SIZE - 1) pieces)) needle = true →
        found (cstr (recv (MAX_RESPONSE_SIZE - 1) [text])) needle = true :=
      fun needle hfound => (found_iff _ _).mpr (((found_iff _ _).mp hfound).trans hpre.isInfix)
    exact h ⟨hin _ hreceived.1, hin _ hreceived.2⟩

end Client

/-! ## 5. Both ends -/

/-- For every request, every response and every way of cutting them: what
arrives in pieces has the outcome of the whole exactly when the first
piece is enough. -/
theorem fragments_iff {σ : Type} (backend : Backend σ) (env : ClientEnv) (s : σ)
    (statusJunk : Int32) (bodyJunk : List Char) {pieces pieces' : List (List Char)}
    {request response : List Char} (hrequest : IsSplit pieces request)
    (hlen : request.length < MAX_REQUEST_SIZE) (hresponse : IsSplit pieces' response) :
    (SameService backend env pieces request s ↔
      env.copied = false ∨ ¬ IsRequest request ∨
        Suffices backend env (recv (MAX_REQUEST_SIZE - 1) pieces) request s) ∧
    (SameReading statusJunk bodyJunk pieces' response ↔
      ¬ IsResponse (cstr (recv (MAX_RESPONSE_SIZE - 1) [response])) ∨
        cstr (recv (MAX_RESPONSE_SIZE - 1) pieces')
          = cstr (recv (MAX_RESPONSE_SIZE - 1) [response])) :=
  ⟨sameService_iff hrequest hlen, sameReading_iff hresponse⟩

def listRequest : List Char := "GET /images/json HTTP/1.1\r\n\r\n".toList

def listResponse : List Char := responseText 200 "OK".toList "[]".toList

/-- Cut in its third word the request is served as a whole; its answer,
cut anywhere, is not read as one. -/
theorem list_in_pieces :
    SameService willingBackend emptyEnv ["GET /images/json H".toList, "TTP/1.1\r\n\r\n".toList]
        listRequest () ∧
    ¬ SameReading 0 [] [listResponse.take 20, listResponse.drop 20] listResponse := by
  have hrequest : IsSplit ["GET /images/json H".toList, "TTP/1.1\r\n\r\n".toList] listRequest :=
    ⟨by decide, by decide⟩
  have hresponse : IsSplit [listResponse.take 20, listResponse.drop 20] listResponse :=
    ⟨by decide, by decide⟩
  have hfragments := fragments_iff willingBackend emptyEnv () 0 [] hrequest (by decide) hresponse
  refine ⟨hfragments.1.mpr (Or.inr (Or.inr ⟨by decide, ?_, by decide, ?_⟩)), ?_⟩
  · have hwords : words ' ' (requestLine listRequest)
        = ["GET".toList, "/images/json".toList, "HTTP/1.1".toList] := by decide
    exact (urlEnds_iff emptyEnv.url_size hwords).mpr (Or.inl (by decide))
  · have hroute : route (cstr (requestOf emptyEnv.request listRequest).method)
        (cstr (requestOf emptyEnv.request listRequest).url) = some .listImages := by decide
    intro r hr
    obtain rfl := Option.some.inj (hroute.symm.trans hr)
    rintro items ⟨⟩
    decide
  · rw [hfragments.2]
    rintro (h | h)
    · exact h ⟨by decide, by decide⟩
    · revert h
      decide

/-- A request cut behind its first letter is refused. -/
theorem list_cut_early :
    IsSplit ["G".toList, "ET /images/json HTTP/1.1\r\n\r\n".toList] listRequest ∧
    ¬ SameService willingBackend emptyEnv
      ["G".toList, "ET /images/json HTTP/1.1\r\n\r\n".toList] listRequest () := by
  have hsplit : IsSplit ["G".toList, "ET /images/json HTTP/1.1\r\n\r\n".toList] listRequest :=
    ⟨by decide, by decide⟩
  refine ⟨hsplit, ?_⟩
  rw [sameService_iff hsplit (by decide)]
  rintro (h | h | h)
  · exact absurd h (by decide)
  · exact h (by decide)
  · exact absurd h.words (by decide)

end DockerClone.Http
