/-
DockerClone.Http.RequestTheorems — which texts `parse_http_request`
accepts, and what it leaves in the request.

The tokeniser is restarted on its own first token, so nothing behind the
first line is ever read: the three words of that line become method, URL
and version, what follows them on it goes to the headers, and the body is
always empty. Section 1 defines these parts of a text by cutting it at
separators; the parser is shown to find exactly them.

Acceptance is decided by the words. What is left in the arrays is not:
the rest of the line is appended to `headers` without a bound, and the
copies of the words end only where the array held a NUL already
(`request_accepted_iff`, `request_wellFormed_iff`).
-/
import DockerClone.Http.HandlerTheorems
import DockerClone.Http.WireTheorems

namespace DockerClone.Http

open DockerClone.CLib

/-! ## 1. What the daemon takes from a text -/

def isBreak (c : Char) : Bool := "\r\n".toList.contains c

/-- The first line that is not empty. -/
def requestLine (text : List Char) : List Char :=
  ((cstr text).dropWhile isBreak).takeWhile (fun c => !isBreak c)

/-- The line has a method, a URL and a version. -/
def IsRequest (text : List Char) : Prop := 3 ≤ (words ' ' (requestLine text)).length

instance (text : List Char) : Decidable (IsRequest text) := by
  unfold IsRequest; infer_instance

/-- The line behind its third word. -/
def restOfLine (text : List Char) : List Char :=
  (strtok (strtok (strtok (requestLine text) [' ']).2 [' ']).2 [' ']).2

/-- That fits the `headers` array, with a line break behind it. -/
def HeadersFit (text : List Char) : Prop := (restOfLine text).length + 2 < MAX_HEADER_SIZE

instance (text : List Char) : Decidable (HeadersFit text) := by
  unfold HeadersFit; infer_instance

/-- The request a text is parsed to, as far as handlers look at it. -/
def requestOf (stale : HttpRequest) (text : List Char) : HttpRequest :=
  match words ' ' (requestLine text) with
  | m :: u :: _ =>
      { stale with
        method := strncpy stale.method m (MAX_METHOD_SIZE - 1)
        url := strncpy stale.url u (MAX_URL_SIZE - 1)
        body := clear stale.body }
  | _ => stale

/-- Requests that no handler can tell apart. -/
structure SameRequest (r r' : HttpRequest) : Prop where
  method : r.method = r'.method
  url : r.url = r'.url
  body : r.body = r'.body

section Parse

variable {text line : List Char}

theorem strtok_requestLine_eq (text : List Char) : (strtok (cstr text) "\r\n".toList).1
    = if requestLine text = [] then none else some (requestLine text) := by
  rw [strtok, requestLine]
  cases h : (cstr text).dropWhile isBreak with
  | nil =>
    have h' : (cstr text).dropWhile (fun c => "\r\n".toList.contains c) = [] := h
    rw [h']
    rfl
  | cons c t =>
    have h' : (cstr text).dropWhile (fun c => "\r\n".toList.contains c) = c :: t := h
    have hc := List.head?_dropWhile_not isBreak (cstr text)
    rw [h] at hc
    have hkeep : (c :: t).takeWhile (fun c => !isBreak c) ≠ [] := by
      rw [List.takeWhile_cons, if_pos (by simpa using hc)]
      simp
    rw [h', if_neg hkeep]
    rfl

theorem not_isBreak_requestLine {c : Char} (h : c ∈ requestLine text) : isBreak c = false := by
  have hkeep := List.mem_takeWhile_imp h
  simpa using hkeep

/-- An append that fits leaves a terminated string. -/
theorem holdsString_strcatWithin {size : Nat} {dst src array : List Char} (hsrc : NulFree src)
    (hdst : dst.length = size) (h : strcatWithin size dst src = some array) :
    HoldsString size array := by
  rw [strcatWithin] at h
  split at h
  · rename_i hlen
    rw [← Option.some.inj h]
    exact holdsString_store ((nulFree_append _ _).mpr ⟨nulFree_cstr dst, hsrc⟩) hlen hdst
  · simp at h

/-- The header loop on the rest of a line, which is one token. -/
theorem readHeaders_line {rest headers : List Char} (h : ∀ c ∈ rest, isBreak c = false)
    (hnul : NulFree rest) (hempty : cstr headers = []) (contentLength : Int32) :
    (rest.length + 2 < MAX_HEADER_SIZE →
      ∃ headers' contentLength', readHeaders rest headers contentLength
          = some ([], headers', contentLength') ∧
        (headers.length = MAX_HEADER_SIZE → HoldsString MAX_HEADER_SIZE headers')) ∧
    (¬ rest.length + 2 < MAX_HEADER_SIZE → readHeaders rest headers contentLength = none) := by
  by_cases hnil : rest = []
  · rw [hnil, readHeaders_nil]
    refine ⟨fun _ => ⟨_, _, rfl, fun hsize => ⟨hsize, ?_⟩⟩, fun hlong => absurd (by decide) hlong⟩
    rw [hempty]
    decide
  · have htoken : strtok rest "\r\n".toList = (some rest, []) := by
      refine strtok_last hnil fun c hc he => ?_
      have hno := h c hc
      rw [isBreak, List.contains_iff_mem.mpr he] at hno
      simp at hno
    have hbreak : "\r\n".toList.length = 2 := by decide
    rw [readHeaders]
    split
    · rename_i hnone
      rw [htoken] at hnone
      simp at hnone
    · rename_i line saved hline
      rw [htoken] at hline
      obtain ⟨hword, rfl⟩ := Prod.mk.inj hline
      obtain rfl := Option.some.inj hword
      rw [if_neg (by simpa using hnil)]
      simp only [Option.bind_eq_bind]
      constructor
      · intro hshort
        have hline : (cstr headers ++ rest).length < MAX_HEADER_SIZE := by
          rw [hempty, List.nil_append]
          omega
        obtain ⟨first, hfirst, hfirstText⟩ := strcatWithin_of_lt hnul hline
        have hboth : (cstr first ++ "\r\n".toList).length < MAX_HEADER_SIZE := by
          rw [hfirstText, hempty, List.nil_append, List.length_append, hbreak]
          exact hshort
        obtain ⟨second, hsecond, -⟩ := strcatWithin_of_lt (by decide) hboth
        rw [hfirst, Option.bind_some, hsecond, Option.bind_some, readHeaders_nil]
        refine ⟨_, _, rfl, fun hsize => ?_⟩
        have hfirstSize := (holdsString_strcatWithin hnul hsize hfirst).1
        exact holdsString_strcatWithin (by decide) hfirstSize hsecond
      · intro hlong
        rw [Option.bind_eq_none_iff]
        intro first hfirst
        obtain ⟨-, hfirstText⟩ := strcatWithin_eq_some hnul hfirst
        rw [strcatWithin, if_neg, Option.bind_none]
        rw [hfirstText, hempty, List.nil_append, List.length_append, hbreak]
        exact hlong

theorem restOfLine_suffix (text : List Char) : restOfLine text <:+ requestLine text :=
  calc restOfLine text
      <:+ (strtok (strtok (requestLine text) [' ']).2 [' ']).2 := strtok_saved_suffix _ _
    _ <:+ (strtok (requestLine text) [' ']).2 := strtok_saved_suffix _ _
    _ <:+ requestLine text := strtok_saved_suffix _ _

theorem nulFree_requestLine (text : List Char) : NulFree (requestLine text) :=
  (nulFree_cstr text).of_subset fun _ hc =>
    (List.dropWhile_suffix _).subset ((List.takeWhile_prefix _).subset hc)

/-- The first three words of a request line. -/
theorem strtok_of_isRequest (h : IsRequest text) : ∃ m u v,
    words ' ' (requestLine text) = m :: u :: v :: (words ' ' (requestLine text)).drop 3 ∧
    (strtok (requestLine text) [' ']).1 = some m ∧
    (strtok (strtok (requestLine text) [' ']).2 [' ']).1 = some u ∧
    (strtok (strtok (strtok (requestLine text) [' ']).2 [' ']).2 [' ']).1 = some v := by
  obtain ⟨h₁, hrest₁⟩ := strtok_words ' ' (requestLine text)
  obtain ⟨h₂, hrest₂⟩ := strtok_words ' ' (strtok (requestLine text) [' ']).2
  obtain ⟨h₃, -⟩ := strtok_words ' ' (strtok (strtok (requestLine text) [' ']).2 [' ']).2
  rw [hrest₁] at h₂ hrest₂
  rw [hrest₂] at h₃
  rw [IsRequest] at h
  match hwords : words ' ' (requestLine text), h with
  | m :: u :: v :: more, _ =>
    rw [hwords] at h₁ h₂ h₃
    exact ⟨m, u, v, rfl, h₁, h₂, h₃⟩

/-- What is stored for the words of a request line; of the headers only
that they fit. -/
structure StoredFrom (stale parsed : HttpRequest) (m u v : List Char) : Prop where
  method : parsed.method = strncpy stale.method m (MAX_METHOD_SIZE - 1)
  url : parsed.url = strncpy stale.url u (MAX_URL_SIZE - 1)
  version : parsed.version = strncpy stale.version v (MAX_VERSION_SIZE - 1)
  headers : stale.headers.length = MAX_HEADER_SIZE → HoldsString MAX_HEADER_SIZE parsed.headers
  body : parsed.body = clear stale.body

/-- A text with a request line is parsed, unless the rest of the line is
too long. -/
theorem parse_of_words {m u v : List Char} {more : List (List Char)}
    (hwords : words ' ' (requestLine text) = m :: u :: v :: more) (stale : HttpRequest) :
    (HeadersFit text → ∃ parsed, parseHttpRequest true (cstr text) stale = some (0, parsed) ∧
      StoredFrom stale parsed m u v) ∧
    (¬ HeadersFit text → parseHttpRequest true (cstr text) stale = none) := by
  have h : IsRequest text := by
    rw [IsRequest, hwords]
    simp
  obtain ⟨m', u', v', hwords', h₁, h₂, h₃⟩ := strtok_of_isRequest h
  obtain ⟨rfl, rfl, rfl⟩ : m = m' ∧ u = u' ∧ v = v' := by
    have hthree := congrArg (List.take 3) (hwords.symm.trans hwords')
    simpa using hthree
  have hline : requestLine text ≠ [] := by
    intro hnil
    rw [IsRequest, hnil] at h
    simp [words] at h
  have hfirst := strtok_requestLine_eq text
  rw [if_neg hline] at hfirst
  have hrest : ∀ c ∈ restOfLine text, isBreak c = false :=
    fun c hc => not_isBreak_requestLine ((restOfLine_suffix text).subset hc)
  obtain ⟨hfit, hover⟩ := readHeaders_line hrest
    ((nulFree_requestLine text).of_subset (restOfLine_suffix text).subset)
    (cstr_clear stale.headers) stale.contentLength
  have hspace : " ".toList = [' '] := by decide
  have hparse : parseHttpRequest true (cstr text) stale
      = (readHeaders (restOfLine text) (clear stale.headers) stale.contentLength).bind
        fun o => some (0,
          { method := strncpy stale.method m (MAX_METHOD_SIZE - 1)
            url := strncpy stale.url u (MAX_URL_SIZE - 1)
            version := strncpy stale.version v (MAX_VERSION_SIZE - 1)
            headers := o.2.1
            body := (strtok o.1 []).1.elim (clear stale.body)
              fun body => strncpy stale.body body (MAX_REQUEST_SIZE - 1)
            contentLength := o.2.2 }) := by
    have hcall : strtok (cstr text) "\r\n".toList
        = (some (requestLine text), (strtok (cstr text) "\r\n".toList).2) := Prod.ext hfirst rfl
    rw [parseHttpRequest, if_neg (by simp), hcall]
    simp only [hspace, h₁, h₂, h₃]
    refine congrArg _ (funext fun o => ?_)
    cases (strtok o.1 []).1 <;> rfl
  rw [hparse]
  constructor
  · intro hheaders
    obtain ⟨headers, contentLength, hread, hholds⟩ := hfit hheaders
    rw [hread]
    refine ⟨_, rfl, rfl, rfl, rfl, fun hsize => hholds ?_, rfl⟩
    have hclear : HoldsString MAX_HEADER_SIZE (clear stale.headers) :=
      holdsString_store nulFree_nil (by decide) hsize
    exact hclear.1
  · intro hheaders
    rw [hover hheaders]
    rfl

/-- The words of an accepted line. -/
theorem words_of_isRequest (h : IsRequest text) : ∃ m u v more,
    words ' ' (requestLine text) = m :: u :: v :: more := by
  obtain ⟨m, u, v, hwords, -⟩ := strtok_of_isRequest h
  exact ⟨m, u, v, _, hwords⟩

/-- The same, as far as handlers look at it. -/
theorem parse_of_isRequest (h : IsRequest text) (stale : HttpRequest) :
    (HeadersFit text → ∃ parsed, parseHttpRequest true (cstr text) stale = some (0, parsed) ∧
      SameRequest parsed (requestOf stale text)) ∧
    (¬ HeadersFit text → parseHttpRequest true (cstr text) stale = none) := by
  obtain ⟨m, u, v, more, hwords⟩ := words_of_isRequest h
  obtain ⟨hfit, hover⟩ := parse_of_words hwords stale
  refine ⟨fun hheaders => ?_, hover⟩
  obtain ⟨parsed, hparsed, hstored⟩ := hfit hheaders
  refine ⟨parsed, hparsed, ?_⟩
  rw [requestOf, hwords]
  exact ⟨hstored.method, hstored.url, hstored.body⟩

/-- Any other text is refused. -/
theorem parse_of_not_isRequest (h : ¬ IsRequest text) (stale : HttpRequest) :
    parseHttpRequest true (cstr text) stale = some (-1, stale) := by
  have hfirst := strtok_requestLine_eq text
  rw [parseHttpRequest, if_neg (by simp)]
  by_cases hline : requestLine text = []
  · rw [if_pos hline] at hfirst
    have hcall : strtok (cstr text) "\r\n".toList
        = (none, (strtok (cstr text) "\r\n".toList).2) := Prod.ext hfirst rfl
    rw [hcall]
  · rw [if_neg hline] at hfirst
    have hcall : strtok (cstr text) "\r\n".toList
        = (some (requestLine text), (strtok (cstr text) "\r\n".toList).2) := Prod.ext hfirst rfl
    have hspace : " ".toList = [' '] := by decide
    have hthird : (strtok (strtok (strtok (requestLine text) [' ']).2 [' ']).2 [' ']).1 = none := by
      obtain ⟨-, hrest₁⟩ := strtok_words ' ' (requestLine text)
      obtain ⟨-, hrest₂⟩ := strtok_words ' ' (strtok (requestLine text) [' ']).2
      obtain ⟨h₃, -⟩ := strtok_words ' ' (strtok (strtok (requestLine text) [' ']).2 [' ']).2
      rw [h₃, hrest₂, hrest₁, List.head?_eq_none_iff, ← List.length_eq_zero_iff]
      rw [IsRequest] at h
      simp only [List.length_tail]
      omega
    rw [hcall]
    simp only [hspace, hthird]
    split
    · rename_i hnone
      simp at hnone
    · rfl

end Parse

/-! ## 2. Acceptance -/

/-- The result a line of words asks for: 0 and the first bytes of the
three words for three words or more, otherwise -1 and nothing written. -/
structure FollowsGrammar (text : List Char) (stale : HttpRequest) (result : Int)
    (parsed : HttpRequest) : Prop where
  accepted : result = 0 ↔ IsRequest text
  copied : ∀ m u v more, words ' ' (requestLine text) = m :: u :: v :: more →
    parsed.method.take (min m.length 15) = m.take (min m.length 15) ∧
    parsed.url.take (min u.length 511) = u.take (min u.length 511) ∧
    parsed.version.take (min v.length 15) = v.take (min v.length 15)
  refused : ¬ IsRequest text → result = -1 ∧ parsed = stale

/-- The parser returns, and returns that. -/
def AcceptedByGrammar (text : List Char) (stale : HttpRequest) : Prop :=
  ∃ result parsed, parseHttpRequest true (cstr text) stale = some (result, parsed) ∧
    FollowsGrammar text stale result parsed

theorem take_strncpy (dst s : List Char) (n : Nat) :
    (strncpy dst s n).take (min s.length n) = s.take (min s.length n) := by
  have hlen : min s.length n ≤ (s.take n).length := by
    rw [List.length_take, Nat.min_comm]
  rw [strncpy, List.append_assoc, List.take_append_of_le_length hlen, List.take_take]
  congr 1
  omega

theorem StoredFrom.follows {text m u v : List Char} {more : List (List Char)}
    (hwords : words ' ' (requestLine text) = m :: u :: v :: more) {stale parsed : HttpRequest}
    (h : StoredFrom stale parsed m u v) : FollowsGrammar text stale 0 parsed := by
  have hrequest : IsRequest text := by
    rw [IsRequest, hwords]
    simp
  refine ⟨iff_of_true rfl hrequest, fun m' u' v' more' hwords' => ?_,
    fun hno => absurd hrequest hno⟩
  obtain ⟨rfl, rfl, rfl, -⟩ : m = m' ∧ u = u' ∧ v = v' ∧ more = more' := by
    simpa using hwords.symm.trans hwords'
  rw [h.method, h.url, h.version]
  exact ⟨take_strncpy _ _ _, take_strncpy _ _ _, take_strncpy _ _ _⟩

/-- The grammar of request lines describes the parser exactly on the texts
whose first line is no request or leaves a rest that fits. -/
theorem request_accepted_iff (text : List Char) (stale : HttpRequest) :
    AcceptedByGrammar text stale ↔ ¬ IsRequest text ∨ HeadersFit text := by
  by_cases hrequest : IsRequest text
  · obtain ⟨m, u, v, more, hwords⟩ := words_of_isRequest hrequest
    obtain ⟨hfit, hover⟩ := parse_of_words hwords stale
    rw [or_iff_right (not_not.mpr hrequest)]
    constructor
    · rintro ⟨result, parsed, hparse, -⟩
      by_contra hlong
      rw [hover hlong] at hparse
      simp at hparse
    · intro hheaders
      obtain ⟨parsed, hparse, hstored⟩ := hfit hheaders
      exact ⟨0, parsed, hparse, hstored.follows hwords⟩
  · refine iff_of_true ⟨-1, stale, parse_of_not_isRequest hrequest stale, ?_⟩ (Or.inl hrequest)
    refine ⟨iff_of_false (by decide) hrequest, fun m u v more hwords => ?_, fun _ => ⟨rfl, rfl⟩⟩
    refine absurd ?_ hrequest
    rw [IsRequest, hwords]
    simp

/-- A request line with 1022 characters behind its third word. -/
def longLine : List Char := "GET / HTTP/1.1 ".toList ++ List.replicate 1022 'x'

theorem long_line_overruns : longLine.length ≤ 8191 ∧ IsRequest longLine ∧
    ¬ AcceptedByGrammar longLine emptyRequest := by
  obtain ⟨hsize, hrequest, hlong⟩ :
      longLine.length ≤ 8191 ∧ IsRequest longLine ∧ ¬ HeadersFit longLine := by
    decide +kernel
  obtain ⟨m, u, v, more, hwords⟩ := words_of_isRequest hrequest
  refine ⟨hsize, hrequest, ?_⟩
  rintro ⟨result, parsed, hparse, -⟩
  rw [(parse_of_words hwords emptyRequest).2 hlong] at hparse
  simp at hparse

/-! ## 3. The arrays -/

/-- Arrays of the declared sizes. -/
structure HttpRequest.Sized (r : HttpRequest) : Prop where
  method : r.method.length = MAX_METHOD_SIZE
  url : r.url.length = MAX_URL_SIZE
  version : r.version.length = MAX_VERSION_SIZE
  headers : r.headers.length = MAX_HEADER_SIZE
  body : r.body.length = MAX_REQUEST_SIZE

/-- A terminated string in each of them. -/
structure HttpRequest.WellFormed (r : HttpRequest) : Prop where
  method : HoldsString MAX_METHOD_SIZE r.method
  url : HoldsString MAX_URL_SIZE r.url
  version : HoldsString MAX_VERSION_SIZE r.version
  headers : HoldsString MAX_HEADER_SIZE r.headers
  body : HoldsString MAX_REQUEST_SIZE r.body

/-- No array is overrun, and an accepted request is well-formed. -/
def ParsesWellFormed (copied : Bool) (text : List Char) (stale : HttpRequest) : Prop :=
  ∃ result parsed, parseHttpRequest copied (cstr text) stale = some (result, parsed) ∧
    (result = 0 → parsed.WellFormed)

/-- The copy of a word into `n` bytes ends in them, or at the byte behind
them. -/
def CopyEnds (old word : List Char) (n : Nat) : Prop := word.length < n ∨ old[n]? = some nul

instance (old word : List Char) (n : Nat) : Decidable (CopyEnds old word n) := by
  unfold CopyEnds; infer_instance

/-- So it does for the three words of the request line. -/
def CopiesEnd (text : List Char) (stale : HttpRequest) : Prop :=
  ∀ m u v more, words ' ' (requestLine text) = m :: u :: v :: more →
    CopyEnds stale.method m 15 ∧ CopyEnds stale.url u 511 ∧ CopyEnds stale.version v 15

theorem nulFree_word {text w : List Char} (h : w ∈ words ' ' (requestLine text)) : NulFree w := by
  have hsplit := (List.mem_filter.mp h).1
  exact (nulFree_requestLine text).of_subset (subset_of_mem_splitOn hsplit)

/-- The URL of a request ends inside its array. -/
def UrlEnds (stale : HttpRequest) (text : List Char) : Prop :=
  HoldsString MAX_URL_SIZE (requestOf stale text).url

instance (stale : HttpRequest) (text : List Char) : Decidable (UrlEnds stale text) := by
  unfold UrlEnds; infer_instance

/-- A URL that leaves room for a NUL ends; a longer one only where a NUL
is left. -/
theorem urlEnds_iff {stale : HttpRequest} {text m u : List Char} {more : List (List Char)}
    (hstale : stale.url.length = MAX_URL_SIZE)
    (hwords : words ' ' (requestLine text) = m :: u :: more) :
    UrlEnds stale text ↔ CopyEnds stale.url u (MAX_URL_SIZE - 1) := by
  have hmem : u ∈ words ' ' (requestLine text) := by
    rw [hwords]
    simp
  have hu : NulFree u := nulFree_word hmem
  have hurl : (requestOf stale text).url = strncpy stale.url u (MAX_URL_SIZE - 1) := by
    rw [requestOf, hwords]
  rw [UrlEnds, hurl]
  exact holdsString_strncpy_iff hu hstale

/-- The fields stored for an accepted line are strings in their arrays
where the copies of its words end. -/
theorem StoredFrom.wellFormed_iff {text m u v : List Char} {more : List (List Char)}
    (hwords : words ' ' (requestLine text) = m :: u :: v :: more) {stale parsed : HttpRequest}
    (hsized : stale.Sized) (h : StoredFrom stale parsed m u v) :
    parsed.WellFormed ↔
      CopyEnds stale.method m 15 ∧ CopyEnds stale.url u 511 ∧ CopyEnds stale.version v 15 := by
  have hword : ∀ w ∈ m :: u :: v :: more, NulFree w := by
    rw [← hwords]
    exact fun w hw => nulFree_word hw
  have hm : NulFree m := hword m (by simp)
  have hu : NulFree u := hword u (by simp)
  have hv : NulFree v := hword v (by simp)
  have hmethod : HoldsString MAX_METHOD_SIZE parsed.method ↔ CopyEnds stale.method m 15 := by
    rw [h.method]
    exact holdsString_strncpy_iff hm hsized.method
  have hurl : HoldsString MAX_URL_SIZE parsed.url ↔ CopyEnds stale.url u 511 := by
    rw [h.url]
    exact holdsString_strncpy_iff hu hsized.url
  have hversion : HoldsString MAX_VERSION_SIZE parsed.version ↔ CopyEnds stale.version v 15 := by
    rw [h.version]
    exact holdsString_strncpy_iff hv hsized.version
  rw [← hmethod, ← hurl, ← hversion]
  constructor
  · intro hwf
    exact ⟨hwf.method, hwf.url, hwf.version⟩
  · rintro ⟨hmethod, hurl, hversion⟩
    have hbody : HoldsString MAX_REQUEST_SIZE parsed.body := by
      rw [h.body]
      exact holdsString_store nulFree_nil (by decide) hsized.body
    exact ⟨hmethod, hurl, hversion, h.headers hsized.headers, hbody⟩

theorem copiesEnd_iff {text m u v : List Char} {more : List (List Char)}
    (hwords : words ' ' (requestLine text) = m :: u :: v :: more) (stale : HttpRequest) :
    CopiesEnd text stale ↔
      CopyEnds stale.method m 15 ∧ CopyEnds stale.url u 511 ∧ CopyEnds stale.version v 15 := by
  constructor
  · intro h
    exact h m u v more hwords
  · intro h m' u' v' more' hwords'
    obtain ⟨rfl, rfl, rfl, -⟩ : m = m' ∧ u = u' ∧ v = v' ∧ more = more' := by
      simpa using hwords.symm.trans hwords'
    exact h

/-- A request is well-formed exactly when there is none, or its headers
fit and the copies of its three words end. -/
theorem request_wellFormed_iff (copied : Bool) (text : List Char) {stale : HttpRequest}
    (hsized : stale.Sized) :
    ParsesWellFormed copied text stale ↔
      copied = false ∨ ¬ IsRequest text ∨ HeadersFit text ∧ CopiesEnd text stale := by
  cases copied with
  | false =>
    refine iff_of_true ⟨-1, stale, ?_, fun hzero => ?_⟩ (Or.inl rfl)
    · rw [parseHttpRequest, if_pos rfl]
    · simp at hzero
  | true =>
    rw [or_iff_right (by decide)]
    by_cases hrequest : IsRequest text
    · obtain ⟨m, u, v, more, hwords⟩ := words_of_isRequest hrequest
      obtain ⟨hfit, hover⟩ := parse_of_words hwords stale
      rw [or_iff_right (not_not.mpr hrequest), copiesEnd_iff hwords]
      by_cases hheaders : HeadersFit text
      · obtain ⟨parsed, hparse, hstored⟩ := hfit hheaders
        rw [and_iff_right hheaders, ← hstored.wellFormed_iff hwords hsized]
        constructor
        · rintro ⟨result, parsed', hparse', hwf⟩
          obtain ⟨rfl, rfl⟩ : 0 = result ∧ parsed = parsed' := by
            simpa using hparse.symm.trans hparse'
          exact hwf rfl
        · intro hwf
          exact ⟨0, parsed, hparse, fun _ => hwf⟩
      · refine iff_of_false ?_ (fun h => hheaders h.1)
        rintro ⟨result, parsed, hparse, -⟩
        rw [hover hheaders] at hparse
        simp at hparse
    · refine iff_of_true ⟨-1, stale, parse_of_not_isRequest hrequest stale, ?_⟩ (Or.inl hrequest)
      intro hzero
      simp at hzero

/-- Memory never written: no byte of it ends a string. -/
def staleRequest : HttpRequest where
  method := List.replicate 16 'x'
  url := List.replicate 512 'x'
  version := List.replicate 16 'x'
  headers := List.replicate 1024 'x'
  body := List.replicate 8192 'x'
  contentLength := 0

theorem sized_staleRequest : staleRequest.Sized :=
  ⟨List.length_replicate, List.length_replicate, List.length_replicate, List.length_replicate,
    List.length_replicate⟩

theorem wellFormed_plain :
    staleRequest.Sized ∧ ParsesWellFormed true "GET /images HTTP/1.1\r\n\r\n".toList staleRequest := by
  have hfit : HeadersFit "GET /images HTTP/1.1\r\n\r\n".toList := by decide
  have hwords : words ' ' (requestLine "GET /images HTTP/1.1\r\n\r\n".toList)
      = ["GET".toList, "/images".toList, "HTTP/1.1".toList] := by decide
  refine ⟨sized_staleRequest, (request_wellFormed_iff true _ sized_staleRequest).mpr ?_⟩
  refine Or.inr (Or.inr ⟨hfit, (copiesEnd_iff hwords _).mpr ?_⟩)
  exact ⟨Or.inl (by decide), Or.inl (by decide), Or.inl (by decide)⟩

/-- A method of fifteen characters is copied without an end. -/
theorem long_method_unterminated :
    staleRequest.Sized ∧ "VERSION-CONTROL / HTTP/1.1\r\n\r\n".toList.length ≤ 8191 ∧
    ¬ ParsesWellFormed true "VERSION-CONTROL / HTTP/1.1\r\n\r\n".toList staleRequest := by
  have hfit : HeadersFit "VERSION-CONTROL / HTTP/1.1\r\n\r\n".toList := by decide
  have hwords : words ' ' (requestLine "VERSION-CONTROL / HTTP/1.1\r\n\r\n".toList)
      = ["VERSION-CONTROL".toList, "/".toList, "HTTP/1.1".toList] := by decide
  refine ⟨sized_staleRequest, by decide, ?_⟩
  obtain ⟨parsed, hparse, hstored⟩ := (parse_of_words hwords staleRequest).1 hfit
  rintro ⟨result, parsed', hparse', hwf⟩
  obtain ⟨rfl, rfl⟩ : 0 = result ∧ parsed = parsed' := by
    simpa using hparse.symm.trans hparse'
  obtain ⟨hmethod, -, -⟩ := (hstored.wellFormed_iff hwords sized_staleRequest).mp (hwf rfl)
  exact absurd hmethod (by decide)

end DockerClone.Http
