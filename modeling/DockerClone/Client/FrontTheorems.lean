/-
DockerClone.Client.FrontTheorems — what any arguments leave of a request.

The arguments of an operation are any C strings: a blank or a line break
in one of them ends the URL, or the request line, early. The front of the
URL is the client's own text and always arrives (`Arrives`). A round trip
returns what the daemon answers to some URL with that front
(`roundTrip_led`).
-/
import DockerClone.Client.ApiTheorems
import DockerClone.Client.LengthTheorems
import DockerClone.Http.SessionTheorems

namespace DockerClone.Client

open DockerClone.CLib DockerClone.Http

/-! ## 1. The front of a request -/

/-- A URL as the daemon sees it: its front, some of what the client put
behind it, and perhaps the byte that stood at the end of the array. -/
structure Arrives (front rest url : List Char) : Prop where
  split : ∃ v tail, url = front ++ v ++ tail ∧ v <+: rest ∧ tail.length ≤ 1
  whole : rest = [] → front.length < MAX_URL_SIZE - 1 → url = front

section Front

variable {m front : List Char} (hm : IsWord m) (hfront : IsWord front)

include hm hfront

/-- A line break behind the front does not matter to it. -/
theorem requestLine_of_front (rest : List Char) :
    requestLine (m ++ ' ' :: (front ++ rest))
      = m ++ ' ' :: (front ++ (cstr rest).takeWhile (fun c => !isBreak c)) := by
  have hkeep : ∀ c ∈ m ++ ' ' :: front, (c != nul) = true ∧ (!isBreak c) = true := by
    have hword : ∀ w, IsWord w → ∀ c ∈ w, (c != nul) = true ∧ (!isBreak c) = true := by
      intro w hw c hc
      have hnul : c ≠ nul := fun he => hw.nulFree (he ▸ hc)
      obtain ⟨-, hr, hn⟩ := hw.noBreak c hc
      simp [isBreak, hnul, hr, hn]
    intro c hc
    rcases List.mem_append.mp hc with hc | hc
    · exact hword m hm c hc
    · rcases List.mem_cons.mp hc with rfl | hc
      · decide
      · exact hword front hfront c hc
  have htext : m ++ ' ' :: (front ++ rest) = (m ++ ' ' :: front) ++ rest := by simp
  have hcstr : cstr (m ++ ' ' :: (front ++ rest)) = (m ++ ' ' :: front) ++ cstr rest := by
    rw [htext, cstr, List.takeWhile_append_of_pos fun c hc => (hkeep c hc).1, cstr]
  have hdrop : ((m ++ ' ' :: front) ++ cstr rest).dropWhile isBreak
      = (m ++ ' ' :: front) ++ cstr rest := by
    obtain ⟨c, w, rfl⟩ := List.exists_cons_of_ne_nil hm.nonempty
    have hc := (hkeep c (by simp)).2
    rw [List.cons_append, List.cons_append, List.dropWhile_cons_of_neg (by simpa using hc)]
  rw [requestLine, hcstr, hdrop, List.takeWhile_append_of_pos fun c hc => (hkeep c hc).2]
  simp

omit hm in
/-- The first word of what starts with the front. -/
theorem words_front (t : List Char) : ∃ v more,
    words ' ' (front ++ t) = (front ++ v) :: more ∧ v <+: t ∧ ' ' ∉ v := by
  have hspace : ' ' ∉ front := fun hmem => (hfront.noBreak ' ' hmem).1 rfl
  by_cases hmem : ' ' ∈ t
  · obtain ⟨v, t', rfl, hv⟩ := List.eq_append_cons_of_mem hmem
    have hword : ' ' ∉ front ++ v := by
      rw [List.mem_append, not_or]
      exact ⟨hspace, hv⟩
    refine ⟨v, words ' ' t', ?_, List.prefix_append _ _, hv⟩
    rw [← List.append_assoc, words_sep,
      words_word (List.append_ne_nil_of_left_ne_nil hfront.nonempty v) hword]
    rfl
  · have hword : ' ' ∉ front ++ t := by
      rw [List.mem_append, not_or]
      exact ⟨hspace, hmem⟩
    exact ⟨t, [], words_word (List.append_ne_nil_of_left_ne_nil hfront.nonempty t) hword,
      List.prefix_rfl, hmem⟩

/-- The front starts the second word of the line, and the word ends
where the URL does. -/
theorem words_of_front (rest behind : List Char) :
    ∃ v more, words ' ' (requestLine (m ++ ' ' :: (front ++ (rest ++ ' ' :: behind))))
      = m :: (front ++ v) :: more ∧ v <+: rest := by
  have hspace : ' ' ∉ m := fun hmem => (hm.noBreak ' ' hmem).1 rfl
  obtain ⟨v, more, hwords, hv, hfree⟩ := words_front hfront
    ((cstr (rest ++ ' ' :: behind)).takeWhile (fun c => !isBreak c))
  have hbehind : v <+: rest ++ ' ' :: behind :=
    (hv.trans (List.takeWhile_prefix _)).trans (List.takeWhile_prefix _)
  refine ⟨v, more, ?_, prefix_of_prefix_sep hfree hbehind⟩
  rw [requestLine_of_front hm hfront, words_sep, words_word hm.nonempty hspace]
  exact congrArg (m :: ·) hwords

/-- A character of an argument that ends the request line. -/
def EndsLine (c : Char) : Prop := c = nul ∨ isBreak c = true

/-- Without such a character the line has its third word. -/
theorem isRequest_of_front {rest behind : List Char} (hrest : ∀ c ∈ rest, ¬ EndsLine c) :
    IsRequest (m ++ ' ' :: (front ++ (rest ++ ' ' :: ("HTTP/1.1\r\n".toList ++ behind)))) := by
  have hspace : ' ' ∉ m := fun hmem => (hm.noBreak ' ' hmem).1 rfl
  have hkeep : ∀ c ∈ rest ++ ' ' :: "HTTP/1.1".toList, (c != nul) = true ∧ (!isBreak c) = true := by
    intro c hc
    rcases List.mem_append.mp hc with hc | hc
    · have hends := hrest c hc
      rw [EndsLine, not_or] at hends
      exact ⟨by simpa using hends.1, by simpa using hends.2⟩
    · exact (by decide : ∀ c ∈ ' ' :: "HTTP/1.1".toList, (c != nul) = true ∧ (!isBreak c) = true) c hc
  have hline : (cstr (rest ++ ' ' :: ("HTTP/1.1\r\n".toList ++ behind))).takeWhile
      (fun c => !isBreak c) = rest ++ ' ' :: "HTTP/1.1".toList := by
    have htext : rest ++ ' ' :: ("HTTP/1.1\r\n".toList ++ behind)
        = (rest ++ ' ' :: "HTTP/1.1".toList) ++ '\r' :: ('\n' :: behind) := by
      have hversion : "HTTP/1.1\r\n".toList = "HTTP/1.1".toList ++ ['\r', '\n'] := by decide
      rw [hversion]
      simp
    rw [htext, cstr, List.takeWhile_append_of_pos fun c hc => (hkeep c hc).1,
      List.takeWhile_append_of_pos fun c hc => (hkeep c hc).2,
      List.takeWhile_cons_of_pos (by decide), List.takeWhile_cons_of_neg (by decide),
      List.append_nil]
  obtain ⟨v, more, hwords, -, -⟩ := words_front hfront rest
  rw [IsRequest, requestLine_of_front hm hfront, hline, words_sep, words_word hm.nonempty hspace,
    ← List.append_assoc, words_sep, hwords, words_word (by decide) (by decide)]
  simp

omit hm hfront in
/-- The front is kept by the copy into the URL's array. -/
theorem arrives_of_stored {stale parsed : HttpRequest} (hsize : stale.url.length = MAX_URL_SIZE)
    (hshort : front.length < MAX_URL_SIZE) {rest v : List Char} (hv : v <+: rest)
    (hnul : NulFree (front ++ v))
    (hurl : parsed.url = strncpy stale.url (front ++ v) (MAX_URL_SIZE - 1)) :
    Arrives front rest (cstr parsed.url) := by
  by_cases hlen : (front ++ v).length < MAX_URL_SIZE - 1
  · have hcopy : cstr parsed.url = front ++ v := by
      rw [hurl, cstr_strncpy_of_lt hnul hlen]
    refine ⟨⟨v, [], by rw [hcopy, List.append_nil], hv, Nat.zero_le 1⟩, fun hrest _ => ?_⟩
    obtain rfl : v = [] := List.prefix_nil.mp (hrest ▸ hv)
    rw [hcopy, List.append_nil]
  · have hcopy : cstr parsed.url = (front ++ v).take (MAX_URL_SIZE - 1)
        ++ cstr (stale.url.drop (MAX_URL_SIZE - 1)) := by
      rw [hurl, cstr_strncpy_full hnul (Nat.not_lt.mp hlen)]
    have hlast : (cstr (stale.url.drop (MAX_URL_SIZE - 1))).length ≤ 1 := by
      have htail := (List.takeWhile_prefix (fun c => c != nul)
        (l := stale.url.drop (MAX_URL_SIZE - 1))).length_le
      rw [List.length_drop, hsize] at htail
      exact htail
    refine ⟨⟨v.take (MAX_URL_SIZE - 1 - front.length), _, ?_, (List.take_prefix _ _).trans hv,
      hlast⟩, fun hrest hroom => ?_⟩
    · rw [hcopy, List.take_append, List.take_of_length_le (by omega)]
    · obtain rfl : v = [] := List.prefix_nil.mp (hrest ▸ hv)
      rw [List.append_nil] at hlen
      exact absurd hroom hlen

end Front

/-! ## 2. The request -/

section Round

variable {method : String} {front rest : List Char} {body : Option (List Char)}
  (hm : IsWord method.toList) (hshort : method.toList.length ≤ 6) (hfront : IsWord front)
  (hurl : (front ++ rest).length < MAX_URL_SIZE) (hbody : (body.getD []).length < 1024)

include hshort hurl hbody

/-- The request is sent whole. -/
theorem createHttpRequest_front : ∃ behind,
    createHttpRequest method.toList (front ++ rest) body = method.toList ++
      ' ' :: (front ++ (rest ++ ' ' :: ("HTTP/1.1\r\n".toList ++ behind))) ∧
    (createHttpRequest method.toList (front ++ rest) body).length < CLIENT_MAX_REQUEST_SIZE := by
  have hwhole : RequestWhole method (front ++ rest) body := requestWhole_of_lt hshort hurl hbody
  rw [RequestWhole] at hwhole
  have hspace : " ".toList = [' '] := by decide
  have hversion : " HTTP/1.1\r\n".toList = ' ' :: "HTTP/1.1\r\n".toList := by decide
  rw [createHttpRequest, snprintf_of_lt hwhole]
  refine ⟨headerLines (Int32.ofNat (body.getD []).length) ++ "\r\n".toList ++ body.getD [], ?_,
    hwhole⟩
  unfold requestText
  rw [hspace, hversion]
  simp only [List.append_assoc, List.cons_append, List.nil_append]

include hm hfront

/-- What the daemon parses has the method and the front. -/
theorem arrives_of_parsed {env : ClientEnv} {request : HttpRequest}
    (hparse : parseHttpRequest env.copied
      (cstr ((createHttpRequest method.toList (front ++ rest) body).take (MAX_REQUEST_SIZE - 1)))
      env.request = some (0, request)) :
    cstr request.method = method.toList ∧ Arrives front rest (cstr request.url) := by
  obtain ⟨behind, htext, hlen⟩ := createHttpRequest_front hshort hurl hbody
  rw [CLIENT_MAX_REQUEST_SIZE] at hlen
  rw [MAX_REQUEST_SIZE, List.take_of_length_le (by omega), htext] at hparse
  obtain ⟨v, more, hwords, hv⟩ := words_of_front hm hfront rest ("HTTP/1.1\r\n".toList ++ behind)
  cases hcopied : env.copied with
  | false =>
    rw [hcopied, parseHttpRequest, if_pos rfl] at hparse
    simp at hparse
  | true =>
    rw [hcopied] at hparse
    cases more with
    | nil =>
      rw [parse_of_not_isRequest (by rw [IsRequest, hwords]; simp)] at hparse
      simp at hparse
    | cons w more =>
      obtain ⟨hfit, hover⟩ := parse_of_words hwords env.request
      by_cases hheaders : HeadersFit (method.toList ++
          ' ' :: (front ++ (rest ++ ' ' :: ("HTTP/1.1\r\n".toList ++ behind))))
      · obtain ⟨parsed, hparsed, hstored⟩ := hfit hheaders
        obtain rfl : parsed = request := by simpa using hparsed.symm.trans hparse
        have hmem : front ++ v ∈ words ' ' (requestLine (method.toList ++
            ' ' :: (front ++ (rest ++ ' ' :: ("HTTP/1.1\r\n".toList ++ behind))))) := by
          rw [hwords]
          simp
        refine ⟨?_, arrives_of_stored env.url_size ?_ hv (nulFree_word hmem) hstored.url⟩
        · rw [hstored.method]
          exact cstr_strncpy_of_lt hm.nulFree (by rw [MAX_METHOD_SIZE]; omega) _
        · rw [List.length_append] at hurl
          omega
      · rw [hover hheaders] at hparse
        simp at hparse

/-- A round trip returns what the daemon answers to a URL with this
front, unless the request is refused unread: its copy failed, or an
argument ended its line. -/
theorem roundTrip_led {σ : Type} {backend : Backend σ} {env : ClientEnv}
    {statusJunk expected : Int32} {s : σ} {log : List StoreCall} {returned : Int}
    {after : σ × List StoreCall}
    (h : roundTrip (daemonLink (recorded backend) env) statusJunk method (front ++ rest) body
      expected (s, log) = some (returned, after)) :
    ∃ calls status, after.2 = log ++ calls ∧ returned = (if status = expected then 0 else -1) ∧
      ((calls = [] ∧ status = 400 ∧ (env.copied = false ∨ ∃ c ∈ rest, EndsLine c)) ∨
        ∃ url, Arrives front rest url ∧ RequestCalls method.toList url calls status) := by
  obtain ⟨behind, htext, hlen⟩ := createHttpRequest_front hshort hurl hbody
  rw [CLIENT_MAX_REQUEST_SIZE] at hlen
  cases hclient : handleClient (recorded backend) env
      (createHttpRequest method.toList (front ++ rest) body) (s, log) with
  | none =>
    rw [roundTrip, if_neg (by simp [daemonLink])] at h
    simp [daemonLink, hclient] at h
  | some outcome =>
    obtain ⟨answer, after'⟩ := outcome
    have hexchange : (daemonLink (recorded backend) env).exchange
        (createHttpRequest method.toList (front ++ rest) body) (s, log)
          = some (some answer, after') := by
      simp only [daemonLink, hclient, Option.map_some]
    have hreturned : ∀ {status : Int32} {message text : List Char}, Fits message text →
        answer = responseText status message text →
        returned = (if status = expected then 0 else -1) ∧ after = after' := by
      intro status message text hfits hanswer
      rw [hanswer] at hexchange
      have hround := roundTrip_of_response rfl hfits hexchange statusJunk expected
      exact Prod.mk.inj (Option.some.inj (h.symm.trans hround))
    obtain ⟨calls, hlog, hcalls⟩ := connectionCalls_of_handled
      (c := ⟨env, createHttpRequest method.toList (front ++ rest) body⟩) hclient
    cases hcalls with
    | closed nothing _ _ =>
      rw [htext] at nothing
      simp at nothing
    | refused message text fits answered quiet cause =>
      obtain ⟨hvalue, rfl⟩ := hreturned fits answered
      refine ⟨calls, 400, hlog, hvalue, Or.inl ⟨quiet, rfl, cause.imp_right fun hline => ?_⟩⟩
      have hline : ¬ IsRequest ((createHttpRequest method.toList (front ++ rest) body).take
        (MAX_REQUEST_SIZE - 1)) := hline
      rw [MAX_REQUEST_SIZE, List.take_of_length_le (by omega), htext] at hline
      by_contra hrest
      push Not at hrest
      exact hline (isRequest_of_front hm hfront hrest)
    | handled request parsed led =>
      obtain ⟨status, message, text, fits, answered, hrequest⟩ := led
      obtain ⟨hvalue, rfl⟩ := hreturned fits answered
      obtain ⟨hmethod, harrives⟩ := arrives_of_parsed hm hshort hfront hurl hbody parsed
      rw [hmethod] at hrequest
      exact ⟨calls, status, hlog, hvalue, Or.inr ⟨_, harrives, hrequest⟩⟩

end Round

end DockerClone.Client
