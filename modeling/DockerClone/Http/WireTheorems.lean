/-
DockerClone.Http.WireTheorems — what the daemon makes of a client's
request text.

The first line of a request is itself cut into words by `strtok`. That
discards the position in the text: after the third word the saved string
is the end of the LINE, so the header loop finds nothing and the body is
never reached. `parse_createHttpRequest` says exactly what is left: the
method, the url and the version, no headers, an empty body, and the
content length the struct held before.
-/
import DockerClone.Http.Message

namespace DockerClone.Http

open DockerClone.CLib

/-! ## 1. Words of a request line -/

/-- A text that can stand as one word of a request line. -/
structure IsWord (w : List Char) : Prop where
  nonempty : w ≠ []
  noBreak : ∀ c ∈ w, c ≠ ' ' ∧ c ≠ '\r' ∧ c ≠ '\n'
  nulFree : NulFree w

instance (w : List Char) : Decidable (IsWord w) :=
  decidable_of_iff (w ≠ [] ∧ (∀ c ∈ w, c ≠ ' ' ∧ c ≠ '\r' ∧ c ≠ '\n') ∧ NulFree w)
    ⟨fun h => ⟨h.1, h.2.1, h.2.2⟩, fun h => ⟨h.1, h.2, h.3⟩⟩

theorem IsWord.not_space {w : List Char} (h : IsWord w) : ∀ c ∈ w, c ∉ " ".toList := by
  intro c hc
  have hne := (h.noBreak c hc).1
  simpa using hne

theorem IsWord.not_newline {w : List Char} (h : IsWord w) : ∀ c ∈ w, c ∉ "\r\n".toList := by
  intro c hc
  have hne := (h.noBreak c hc).2
  simpa using hne

theorem IsWord.append {v w : List Char} (hv : IsWord v) (hw : IsWord w) : IsWord (v ++ w) where
  nonempty := List.append_ne_nil_of_left_ne_nil hv.nonempty w
  noBreak := fun c hc => (List.mem_append.mp hc).elim (hv.noBreak c) (hw.noBreak c)
  nulFree := (nulFree_append v w).mpr ⟨hv.nulFree, hw.nulFree⟩

theorem isWord_version : IsWord "HTTP/1.1".toList := by decide

/-! ## 2. Tokens of a request -/

section Request

variable {m u : List Char} (hm : IsWord m) (hu : IsWord u)

include hm hu

/-- The first line ends the first token. -/
theorem strtok_requestText (body : List Char) :
    ∃ rest, strtok (requestText m u body) "\r\n".toList
      = (some (m ++ ' ' :: (u ++ ' ' :: "HTTP/1.1".toList)), rest) := by
  have hline : ∀ c ∈ m ++ ' ' :: (u ++ ' ' :: "HTTP/1.1".toList), c ∉ "\r\n".toList := by
    intro c hc
    rcases List.mem_append.mp hc with hc | hc
    · exact hm.not_newline c hc
    · rcases List.mem_cons.mp hc with rfl | hc
      · decide
      · rcases List.mem_append.mp hc with hc | hc
        · exact hu.not_newline c hc
        · rcases List.mem_cons.mp hc with rfl | hc
          · decide
          · exact isWord_version.not_newline c hc
  have htext : requestText m u body
      = (m ++ ' ' :: (u ++ ' ' :: "HTTP/1.1".toList)) ++ '\r' ::
        ('\n' :: (headerLines (Int32.ofNat body.length) ++ "\r\n".toList ++ body)) := by
    simp [requestText]
  rw [htext]
  exact ⟨_, strtok_word (by simp) hline (by decide) _⟩

/-- The words of that line, and what `strtok` has saved behind each. -/
theorem strtok_requestLine :
    strtok (m ++ ' ' :: (u ++ ' ' :: "HTTP/1.1".toList)) " ".toList
      = (some m, u ++ ' ' :: "HTTP/1.1".toList) ∧
    strtok (u ++ ' ' :: "HTTP/1.1".toList) " ".toList = (some u, "HTTP/1.1".toList) ∧
    strtok "HTTP/1.1".toList " ".toList = (some "HTTP/1.1".toList, []) :=
  ⟨strtok_word hm.nonempty hm.not_space (by decide) _,
    strtok_word hu.nonempty hu.not_space (by decide) _,
    strtok_last isWord_version.nonempty isWord_version.not_space⟩

end Request

theorem headerLines_ne_nil (bodyLength : Int32) : headerLines bodyLength ≠ [] :=
  List.append_ne_nil_of_right_ne_nil _ (by decide)

/-- An exhausted tokeniser yields no header. -/
theorem readHeaders_nil (headers : List Char) (contentLength : Int32) :
    readHeaders [] headers contentLength = some ([], headers, contentLength) := by
  rw [readHeaders]
  simp

/-- What a parsed request holds, whatever its text went on with. -/
def parsedLine (stale : HttpRequest) (m u : List Char) : HttpRequest where
  method := strncpy stale.method m (MAX_METHOD_SIZE - 1)
  url := strncpy stale.url u (MAX_URL_SIZE - 1)
  version := strncpy stale.version "HTTP/1.1".toList (MAX_VERSION_SIZE - 1)
  headers := clear stale.headers
  body := clear stale.body
  contentLength := stale.contentLength

/-- The daemon keeps the first line of a client's request and loses the
rest. -/
theorem parse_createHttpRequest {m u : List Char} (hm : IsWord m) (hu : IsWord u)
    (body : Option (List Char))
    (hfits : (requestText m u (body.getD [])).length < CLIENT_MAX_REQUEST_SIZE)
    (stale : HttpRequest) :
    parseHttpRequest true (createHttpRequest m u body) stale
      = some (0, parsedLine stale m u) := by
  obtain ⟨rest, hline⟩ := strtok_requestText hm hu (body.getD [])
  obtain ⟨h₁, h₂, h₃⟩ := strtok_requestLine hm hu
  rw [createHttpRequest, snprintf_of_lt hfits, parseHttpRequest, if_neg (by simp), hline]
  simp only [h₁, h₂, h₃, readHeaders_nil]
  rfl

/-! ## 3. What a request holds -/

theorem cstr_parsedLine_method {m : List Char} (hm : IsWord m)
    (hlen : m.length < MAX_METHOD_SIZE - 1) (stale : HttpRequest) (u : List Char) :
    cstr (parsedLine stale m u).method = m :=
  cstr_strncpy_of_lt hm.nulFree hlen stale.method

/-- A url that fills its array leaves no room for a terminator, and the
array's last byte, which the copy does not reach, becomes part of it. -/
theorem cstr_parsedLine_url {u : List Char} (hu : IsWord u) (hlen : u.length < MAX_URL_SIZE)
    {stale : HttpRequest} (hsize : stale.url.length = MAX_URL_SIZE) (m : List Char) :
    ∃ tail, cstr (parsedLine stale m u).url = u ++ tail ∧ tail.length ≤ 1 ∧
      (u.length < MAX_URL_SIZE - 1 → tail = []) := by
  by_cases hfull : u.length < MAX_URL_SIZE - 1
  · refine ⟨[], ?_, Nat.zero_le 1, fun _ => rfl⟩
    rw [List.append_nil]
    exact cstr_strncpy_of_lt hu.nulFree hfull stale.url
  · have hlast : (stale.url.drop (MAX_URL_SIZE - 1)).length = 1 := by
      rw [List.length_drop, hsize]
      rfl
    refine ⟨cstr (stale.url.drop (MAX_URL_SIZE - 1)), ?_, ?_, fun h => absurd h hfull⟩
    · have hcopy := cstr_strncpy_full hu.nulFree (Nat.not_lt.mp hfull) stale.url
      rwa [List.take_of_length_le (by omega)] at hcopy
    · have htail := (List.takeWhile_prefix (fun c => c != nul)
        (l := stale.url.drop (MAX_URL_SIZE - 1))).length_le
      rw [hlast] at htail
      exact htail

theorem length_headerLines_le (bodyLength : Int32) : (headerLines bodyLength).length ≤ 120 := by
  have hnum := length_renderInt_le bodyLength
  have hfront : "Host: localhost\r\nContent-Type: application/json\r\nContent-Length: ".toList.length
      = 65 := by decide
  have hback : "\r\nConnection: close\r\n".toList.length = 21 := by decide
  unfold headerLines
  rw [List.length_append, List.length_append, hfront, hback]
  omega

theorem nulFree_headerLines (bodyLength : Int32) : NulFree (headerLines bodyLength) := by
  unfold headerLines
  rw [nulFree_append, nulFree_append]
  exact ⟨⟨by decide, nulFree_renderInt _⟩, by decide⟩

/-- The length of a request text, up to its header lines. -/
theorem length_requestText_le (m u body : List Char) :
    (requestText m u body).length ≤ m.length + u.length + body.length + 134 := by
  have hheaders := length_headerLines_le (Int32.ofNat body.length)
  have hspace : " ".toList.length = 1 := by decide
  have hversion : " HTTP/1.1\r\n".toList.length = 11 := by decide
  have hbreak : "\r\n".toList.length = 2 := by decide
  unfold requestText
  simp only [List.length_append, hspace, hversion, hbreak]
  omega

theorem nulFree_requestText {m u body : List Char} (hm : IsWord m) (hu : IsWord u)
    (hbody : NulFree body) : NulFree (requestText m u body) := by
  have hspace : NulFree " ".toList := by decide
  have hversion : NulFree " HTTP/1.1\r\n".toList := by decide
  have hbreak : NulFree "\r\n".toList := by decide
  unfold requestText
  simp only [nulFree_append]
  exact ⟨⟨⟨⟨⟨⟨hm.nulFree, hspace⟩, hu.nulFree⟩, hversion⟩, nulFree_headerLines _⟩, hbreak⟩,
    hbody⟩

/-! ## 4. The round trip -/

/-- The request that was sent, recovered from its text. -/
def RequestRoundTrip (m u body : List Char) (result : Option (Int × HttpRequest)) : Prop :=
  ∃ parsed, result = some (0, parsed) ∧
    cstr parsed.method = m ∧ cstr parsed.url = u ∧
    cstr parsed.version = "HTTP/1.1".toList ∧
    cstr parsed.headers = headerLines (Int32.ofNat body.length) ∧
    parsed.contentLength = Int32.ofNat body.length ∧ cstr parsed.body = body

/-- No request survives the wire: the headers are always lost. -/
theorem request_never_round_trips (copied : Bool) (stale : HttpRequest) (m u body : List Char)
    (hm : IsWord m) (hu : IsWord u)
    (hfits : (requestText m u body).length < CLIENT_MAX_REQUEST_SIZE) :
    ¬ RequestRoundTrip m u body
      (parseHttpRequest copied (createHttpRequest m u (some body)) stale) := by
  rintro ⟨parsed, hparse, -, -, -, hheaders, -⟩
  cases copied with
  | false =>
    rw [parseHttpRequest, if_pos rfl] at hparse
    simp at hparse
  | true =>
    have hline := parse_createHttpRequest hm hu (some body) hfits stale
    obtain rfl : parsedLine stale m u = parsed :=
      (Prod.mk.inj (Option.some.inj (hline.symm.trans hparse))).2
    rw [parsedLine, cstr_clear] at hheaders
    exact headerLines_ne_nil _ hheaders.symm

/-- A struct with nothing in it. -/
def emptyRequest : HttpRequest where
  method := zeros MAX_METHOD_SIZE
  url := zeros MAX_URL_SIZE
  version := zeros MAX_VERSION_SIZE
  headers := zeros MAX_HEADER_SIZE
  body := zeros MAX_REQUEST_SIZE
  contentLength := 0

/-- The body of a creation request. -/
def createBody : List Char := "\x7b\"Image\":\"ubuntu\"\x7d".toList

theorem create_request_not_recovered : ¬ RequestRoundTrip "POST".toList
    "/containers/create".toList createBody
    (parseHttpRequest true (createHttpRequest "POST".toList "/containers/create".toList
      (some createBody)) emptyRequest) :=
  request_never_round_trips true emptyRequest "POST".toList "/containers/create".toList
    createBody (by decide) (by decide) (by decide +kernel)

/-- The body that was sent does not arrive. -/
theorem create_request_body_lost : ∃ parsed,
    parseHttpRequest true (createHttpRequest "POST".toList "/containers/create".toList
      (some createBody)) emptyRequest = some (0, parsed) ∧ cstr parsed.body ≠ createBody ∧
    ¬ RequestRoundTrip "POST".toList "/containers/create".toList createBody
      (some (0, parsed)) := by
  have hm : IsWord "POST".toList := by decide
  have hu : IsWord "/containers/create".toList := by decide
  have hbody : cstr (parsedLine emptyRequest "POST".toList "/containers/create".toList).body
      ≠ createBody := by
    rw [parsedLine, cstr_clear]
    decide +kernel
  refine ⟨_, parse_createHttpRequest hm hu (some createBody) (by decide +kernel) emptyRequest,
    hbody, ?_⟩
  rintro ⟨parsed, hsome, -, -, -, -, -, hback⟩
  obtain rfl := (Prod.mk.inj (Option.some.inj hsome)).2
  exact hbody hback

end DockerClone.Http
