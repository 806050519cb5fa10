/-
DockerClone.Http.ResponseTheorems — a response on the wire.

`parse_http_response` looks for the first blank line of the text. The
status line ends with the first newline, every header line has characters
in front of its own, and so the first empty line is the one behind the
headers, whatever the body holds (`strstr_blank`). The status is a
numeral between two spaces.
-/
import DockerClone.Http.HandlerTheorems

namespace DockerClone.Http

open DockerClone.CLib

/-- A response up to the end of its last header. -/
def responseHead (status : Int32) (message : List Char) (length : Int32) : List Char :=
  "HTTP/1.1 ".toList ++ renderInt status.toInt ++ ' ' :: message
    ++ "\r\nContent-Type: application/json\r\nContent-Length: ".toList
    ++ renderInt length.toInt ++ "\r\nConnection: close".toList

theorem responseText_eq (status : Int32) (message body : List Char) :
    responseText status message body
      = responseHead status message (Int32.ofNat body.length) ++ "\r\n\r\n".toList ++ body := by
  have hversion : "HTTP/1.1 ".toList = "HTTP/1.1".toList ++ " ".toList := by decide
  have hspace : " ".toList = [' '] := by decide
  have hfront : "\r\nContent-Type: application/json\r\nContent-Length: ".toList
      = "\r\n".toList ++ "Content-Type: application/json\r\nContent-Length: ".toList := by
    decide
  have hclose : "\r\nConnection: close\r\n".toList
      = "\r\nConnection: close".toList ++ "\r\n".toList := by decide
  have hblank : "\r\n\r\n".toList = "\r\n".toList ++ "\r\n".toList := by decide
  unfold responseText afterStatus responseHeaders responseHead
  rw [hversion, hfront, hclose, hblank, hspace]
  simp only [List.append_assoc, List.cons_append, List.nil_append]

/-! ## 1. Lines -/

/-- The value of a header: what the first line that starts with its name
goes on with. -/
def headerValue (text name : List Char) : Option (List Char) :=
  (text.splitOn '\n').findSome? fun line =>
    if (name ++ ": ".toList).isPrefixOf line then
      some ((line.drop (name.length + 2)).takeWhile (fun c => c != '\r'))
    else none

section Lines

variable {message : List Char} (hmessage : '\n' ∉ message)

include hmessage

/-- The lines of the head of a response, and one more for what follows
it. -/
theorem lines_responseHead (status length : Int32) (rest : List Char) (hrest : '\n' ∉ rest) :
    (responseHead status message length ++ rest).splitOn '\n'
      = [ "HTTP/1.1 ".toList ++ renderInt status.toInt ++ ' ' :: message ++ ['\r'],
          "Content-Type: application/json\r".toList,
          "Content-Length: ".toList ++ renderInt length.toInt ++ ['\r'],
          "Connection: close".toList ++ rest ] := by
  have hnum : ∀ n : Int, '\n' ∉ renderInt n := not_mem_renderInt (by decide) (by decide)
  have hversion : '\n' ∉ "HTTP/1.1 ".toList := by decide
  have hfirst : '\n' ∉ "HTTP/1.1 ".toList ++ renderInt status.toInt ++ ' ' :: message ++ ['\r'] := by
    simp only [List.mem_append, List.mem_cons, List.not_mem_nil, not_or, or_false]
    exact ⟨⟨⟨hversion, hnum _⟩, by decide, hmessage⟩, by decide⟩
  have htype : '\n' ∉ "Content-Type: application/json\r".toList := by decide
  have hname : '\n' ∉ "Content-Length: ".toList := by decide
  have hlength : '\n' ∉ "Content-Length: ".toList ++ renderInt length.toInt ++ ['\r'] := by
    simp only [List.mem_append, List.mem_singleton, not_or]
    exact ⟨⟨hname, hnum _⟩, by decide⟩
  have hclose : '\n' ∉ "Connection: close".toList := by decide
  have hlast : '\n' ∉ "Connection: close".toList ++ rest := by
    rw [List.mem_append, not_or]
    exact ⟨hclose, hrest⟩
  have htext : responseHead status message length ++ rest
      = ("HTTP/1.1 ".toList ++ renderInt status.toInt ++ ' ' :: message ++ ['\r'])
        ++ '\n' :: ("Content-Type: application/json\r".toList
        ++ '\n' :: (("Content-Length: ".toList ++ renderInt length.toInt ++ ['\r'])
        ++ '\n' :: ("Connection: close".toList ++ rest))) := by
    have hfront : "\r\nContent-Type: application/json\r\nContent-Length: ".toList
        = ['\r'] ++ ['\n'] ++ "Content-Type: application/json\r".toList ++ ['\n']
          ++ "Content-Length: ".toList := by decide
    have hend : "\r\nConnection: close".toList = ['\r'] ++ ['\n'] ++ "Connection: close".toList := by
      decide
    unfold responseHead
    rw [hfront, hend]
    simp only [List.append_assoc, List.cons_append, List.nil_append]
  rw [htext, splitOn_sep, splitOn_sep, splitOn_sep, splitOn_word hfirst, splitOn_word htype,
    splitOn_word hlength, splitOn_word hlast]
  rfl

/-- The blank line is where the headers end. -/
theorem strstr_blank (status : Int32) (body : List Char) :
    strstr (responseText status message body) "\r\n\r\n".toList
      = some ("\r\n\r\n".toList ++ body) := by
  have hblank : "\r\n\r\n".toList = ['\r', '\n', '\r', '\n'] := by decide
  rw [responseText_eq, hblank]
  refine strstr_of_first (by simp) (fun hin => ?_) body
  -- an earlier empty line would be a line of the head
  obtain ⟨before, after, -, hafter, hsplit⟩ := segment_of_infix (q := '\n') (w := ['\r'])
    (by decide) (List.IsInfix.trans ⟨['\r'], [], rfl⟩ hin)
  have hlines : (responseHead status message (Int32.ofNat body.length)
        ++ ['\r', '\n', '\r', '\n'].dropLast).splitOn '\n'
      = (responseHead status message (Int32.ofNat body.length) ++ ['\r']).splitOn '\n'
        ++ [['\r']] := by
    have htail : (['\r', '\n', '\r', '\n'] : List Char).dropLast = ['\r'] ++ '\n' :: ['\r'] := rfl
    rw [htail, ← List.append_assoc, splitOn_sep, splitOn_word (w := ['\r']) (by decide)]
  rw [hlines, lines_responseHead hmessage _ _ ['\r'] (by decide)] at hsplit
  have hmem : ['\r'] ∈
      [ "HTTP/1.1 ".toList ++ renderInt status.toInt ++ ' ' :: message ++ ['\r'],
        "Content-Type: application/json\r".toList,
        "Content-Length: ".toList ++ renderInt (Int32.ofNat body.length).toInt ++ ['\r'],
        "Connection: close".toList ++ ['\r'] ] := by
    have hcut := congrArg List.dropLast hsplit
    rw [List.dropLast_concat, List.dropLast_append_of_ne_nil (by simp),
      List.dropLast_cons_of_ne_nil hafter] at hcut
    rw [hcut]
    simp
  have hfirst : ∀ c : Char, ∀ w : List Char, c ≠ '\r' → ['\r'] ≠ c :: w := by
    intro c w hc he
    exact hc (List.cons.inj he).1.symm
  simp only [List.mem_cons, List.not_mem_nil, or_false] at hmem
  rcases hmem with h | h | h | h
  · exact hfirst 'H' _ (by decide) h
  · exact hfirst 'C' _ (by decide) h
  · exact hfirst 'C' _ (by decide) h
  · exact hfirst 'C' _ (by decide) h

/-- The length a response states. -/
theorem headerValue_contentLength (status : Int32) (body : List Char) :
    headerValue (responseText status message body) "Content-Length".toList
      = some (renderInt (Int32.ofNat body.length).toInt) := by
  have hsep : responseText status message body
      = (responseHead status message (Int32.ofNat body.length) ++ ['\r'])
        ++ '\n' :: ('\r' :: '\n' :: body) := by
    have hblank : "\r\n\r\n".toList = ['\r'] ++ '\n' :: ['\r', '\n'] := by decide
    rw [responseText_eq, hblank]
    simp only [List.append_assoc, List.cons_append, List.nil_append]
  have hname : "Content-Length".toList ++ ": ".toList = "Content-Length: ".toList := by decide
  have hstatus : ("Content-Length: ".toList).isPrefixOf
      ("HTTP/1.1 ".toList ++ renderInt status.toInt ++ ' ' :: message ++ ['\r']) = false := rfl
  have htype : ("Content-Length: ".toList).isPrefixOf "Content-Type: application/json\r".toList
      = false := by decide
  have hlength : ("Content-Length: ".toList).isPrefixOf ("Content-Length: ".toList
      ++ renderInt (Int32.ofNat body.length).toInt ++ ['\r']) = true := by
    rw [List.isPrefixOf_iff_prefix, List.append_assoc]
    exact List.prefix_append _ _
  have hdrop : ("Content-Length: ".toList ++ renderInt (Int32.ofNat body.length).toInt
      ++ ['\r']).drop ("Content-Length".toList.length + 2)
        = renderInt (Int32.ofNat body.length).toInt ++ ['\r'] := by
    have hlen : "Content-Length".toList.length + 2 = "Content-Length: ".toList.length := by decide
    rw [List.append_assoc, hlen, List.drop_left]
  have hkeep : ∀ c ∈ renderInt (Int32.ofNat body.length).toInt, (c != '\r') = true := by
    intro c hc
    have hne : c ≠ '\r' := fun he => not_mem_renderInt (by decide) (by decide) _ (he ▸ hc)
    simpa using hne
  rw [headerValue, hsep, splitOn_sep, lines_responseHead hmessage _ _ ['\r'] (by decide), hname]
  rw [List.cons_append, List.findSome?_cons, hstatus, List.cons_append, List.findSome?_cons, htype,
    List.cons_append, List.findSome?_cons, hlength, hdrop, List.takeWhile_append_of_pos hkeep]
  simp

end Lines

/-! ## 2. The round trip -/

/-- The client reads back what was sent. -/
theorem parse_sendHttpResponse {message body : List Char} (h : Fits message body)
    (hline : '\n' ∉ message) (response : HttpResponse) (status statusJunk : Int32)
    (bodyJunk : List Char) :
    parseHttpResponse (sendHttpResponse (createHttpResponse response status message body))
      statusJunk bodyJunk = (0, status, body) := by
  have hstart : strstr (responseText status message body) "HTTP/1.1 ".toList
      = some (responseText status message body) := by
    refine strstr_of_prefix ⟨renderInt status.toInt ++ afterStatus message body, ?_⟩
    unfold responseText
    simp
  have hblank : "\r\n\r\n".toList.length = 4 := by decide
  rw [send_createHttpResponse h, parseHttpResponse, hstart]
  simp only [scannedInt_responseText, strstr_blank hline, Option.getD_some]
  rw [← hblank, List.drop_left]

/-- For every status, every message of one line that fits its array and
every body that fits the client's: the client reads back the status and
the body, and the stated length is the body's. -/
theorem response_round_trip (response : HttpResponse) (status statusJunk : Int32)
    (message body bodyJunk : List Char) (hmessage : NulFree message) (hshort : message.length ≤ 62)
    (hline : '\r' ∉ message ∧ '\n' ∉ message) (hbody : NulFree body) (hfits : body.length < 4096) :
    parseHttpResponse (sendHttpResponse (createHttpResponse response status message body))
        statusJunk bodyJunk = (0, status, body) ∧
      headerValue (sendHttpResponse (createHttpResponse response status message body))
        "Content-Length".toList = some (renderNat body.length) := by
  have hfit : Fits message body := ⟨hmessage, Nat.lt_succ_of_le hshort, hbody, hfits⟩
  have hlength : (Int32.ofNat body.length).toInt = body.length :=
    Int32.toInt_ofNat_of_lt (by omega)
  have hnum : renderInt (body.length : Int) = renderNat body.length := by
    rw [renderInt, if_neg (by omega), Int.natAbs_natCast]
  refine ⟨parse_sendHttpResponse hfit hline.2 response status statusJunk bodyJunk, ?_⟩
  rw [send_createHttpResponse hfit, headerValue_contentLength hline.2, hlength, hnum]

/-- A response struct with something in it. -/
def staleResponse : HttpResponse where
  version := "HTTP/1.0 as it was".toList
  statusCode := 204
  statusMessage := List.replicate 64 'x'
  headers := List.replicate 1024 'y'
  body := List.replicate 8192 'z'
  contentLength := 7

theorem separator_round_trip :
    parseHttpResponse (sendHttpResponse (createHttpResponse staleResponse 404 "Not Found".toList
        "HTTP/1.1 200 OK\r\n\r\n".toList)) 0 [] = (0, 404, "HTTP/1.1 200 OK\r\n\r\n".toList) ∧
      headerValue (sendHttpResponse (createHttpResponse staleResponse 404 "Not Found".toList
        "HTTP/1.1 200 OK\r\n\r\n".toList)) "Content-Length".toList
        = some (renderNat "HTTP/1.1 200 OK\r\n\r\n".toList.length) :=
  response_round_trip staleResponse 404 0 "Not Found".toList "HTTP/1.1 200 OK\r\n\r\n".toList []
    (by decide) (by decide) (by decide) (by decide) (by decide)

end DockerClone.Http
