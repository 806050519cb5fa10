/-
DockerClone.Http.SessionTheorems — what the clients of a server can make
it do.

The parser reads one line of what a client sends, so a server whose
clients send only that line makes the same steps: `Server.firstLines`
forgets the rest, and a turn before and after it is the same turn.

Two things are asked of a session. A `handle` turn is not interleaved
with another one, or the position `strtok` saved would be the other
thread's; and every URL is short enough for its array (`ShortUrl`), or
the handlers would read on into what lies behind it.

A body is never read either, and the handler of a creation refuses an
empty one. `RouteCalls` lists what is left, with the status that tells
the client about it: whatever the clients send and in whatever order the
turns are taken, the log of the store is one such list of calls after
another, and no container is ever created.
-/
import DockerClone.Http.RequestTheorems
import DockerClone.Http.ServerTheorems
import DockerClone.Http.StatusTheorems
import Mathlib.Data.List.Forall2

namespace DockerClone.Http

open DockerClone.CLib DockerClone.Os DockerClone.Container

/-! ## 1. The first line -/

/-- What the parser reads of what was received. -/
def lineOf (received : List Char) : List Char :=
  requestLine (received.take (MAX_REQUEST_SIZE - 1))

/-- The first line alone; a line break when there is none. -/
def firstLine (received : List Char) : List Char :=
  if received = [] then []
  else if lineOf received = [] then ['\n']
  else lineOf received

theorem firstLine_eq_nil_iff (received : List Char) : firstLine received = [] ↔ received = [] := by
  unfold firstLine
  split_ifs with hnil hline <;> simp_all

theorem length_lineOf_lt (received : List Char) : (lineOf received).length < MAX_REQUEST_SIZE := by
  have hsub : lineOf received <+: (cstr (received.take (MAX_REQUEST_SIZE - 1))).dropWhile isBreak :=
    List.takeWhile_prefix _
  have hdrop := (List.dropWhile_suffix (l := cstr (received.take (MAX_REQUEST_SIZE - 1)))
    isBreak).length_le
  have hcstr : (cstr (received.take (MAX_REQUEST_SIZE - 1))).length
      ≤ (received.take (MAX_REQUEST_SIZE - 1)).length := (List.takeWhile_prefix _).length_le
  have htake := List.length_take_le (MAX_REQUEST_SIZE - 1) received
  have hlen := hsub.length_le
  have hsize : MAX_REQUEST_SIZE - 1 < MAX_REQUEST_SIZE := by decide
  omega

/-- The line of a line is that line. -/
theorem requestLine_of_line {line : List Char} (hnul : NulFree line)
    (hbreak : ∀ c ∈ line, isBreak c = false) : requestLine line = line := by
  have hdrop : line.dropWhile isBreak = line := by
    cases line with
    | nil => rfl
    | cons c rest => rw [List.dropWhile_cons_of_neg (by simp [hbreak c List.mem_cons_self])]
  rw [requestLine, cstr_of_nulFree hnul, hdrop]
  exact List.takeWhile_eq_self_iff.mpr fun c hc => by simp [hbreak c hc]

theorem lineOf_firstLine (received : List Char) : lineOf (firstLine received) = lineOf received := by
  unfold firstLine
  split_ifs with hnil hline
  · rw [hnil]
  · rw [hline]
    decide
  · have hwhole : (lineOf received).take (MAX_REQUEST_SIZE - 1) = lineOf received :=
      List.take_of_length_le (Nat.le_sub_one_of_lt (length_lineOf_lt received))
    have hline : requestLine (lineOf received) = lineOf received :=
      requestLine_of_line (nulFree_requestLine _) fun _ hc => not_isBreak_requestLine hc
    rw [lineOf, hwhole, hline]

/-- The parser depends on the first line only. -/
theorem parseHttpRequest_of_line {text text' : List Char}
    (h : requestLine text = requestLine text') (copied : Bool) (stale : HttpRequest) :
    parseHttpRequest copied (cstr text) stale = parseHttpRequest copied (cstr text') stale := by
  obtain ⟨saved, hline⟩ : ∃ saved, strtok (cstr text) "\r\n".toList
      = (if requestLine text = [] then none else some (requestLine text), saved) :=
    ⟨_, Prod.ext (strtok_requestLine_eq text) rfl⟩
  obtain ⟨saved', hline'⟩ : ∃ saved, strtok (cstr text') "\r\n".toList
      = (if requestLine text' = [] then none else some (requestLine text'), saved) :=
    ⟨_, Prod.ext (strtok_requestLine_eq text') rfl⟩
  rw [parseHttpRequest, parseHttpRequest, hline, hline', ← h]
  by_cases hnil : requestLine text = []
  · simp only [if_pos hnil]
  · simp only [if_neg hnil]

/-- A URL that is stored with its NUL. -/
def ShortUrl (received : List Char) : Prop :=
  ∀ u ∈ (words ' ' (lineOf received))[1]?, u.length < MAX_URL_SIZE - 1

instance (received : List Char) : Decidable (ShortUrl received) := by
  unfold ShortUrl; infer_instance

section Heard

variable {σ : Type} {backend : Backend σ} {P : List Char → Prop} {s s' : Server σ}

/-- Every text a thread has received, and every one that was handled, is
such a text. -/
structure Heard (P : List Char → Prop) (s : Server σ) : Prop where
  waiting : ∀ i t text, s.client i = some t → t.phase = .received text → P text
  handled : ∀ h ∈ s.handled, P h.connection.received

theorem heard_idle (P : List Char → Prop) (listening : Socket) (s₀ : σ) :
    Heard P (Server.idle listening s₀) :=
  ⟨fun _ _ _ ht => by simp [Server.idle] at ht, fun _ hh => by simp [Server.idle] at hh⟩

/-- The texts of the other threads stay. -/
theorem Heard.update (h : Heard P s) {i : Nat} {t : Option ClientThread}
    (ht : ∀ t' ∈ t, ∀ text, t'.phase = .received text → P text) :
    ∀ j t' text, Function.update s.client i t j = some t' → t'.phase = .received text → P text := by
  intro j t' text hj hphase
  by_cases hji : j = i
  · rw [hji, Function.update_self] at hj
    exact ht t' hj text hphase
  · rw [Function.update_of_ne hji] at hj
    exact h.waiting j t' text hj hphase

theorem Heard.client (h : Heard P s) {i : Nat} {t : ClientThread} (ht : s.client i = some t)
    {turn : ClientTurn} (hP : ∀ received, turn = .recv received → P received)
    (hturn : clientTurn backend i t turn s = some s') : Heard P s' := by
  unfold clientTurn at hturn
  split at hturn
  · rename_i received _
    obtain rfl := Option.some.inj hturn
    refine ⟨h.update fun t' ht' text hphase => ?_, h.handled⟩
    obtain rfl := Option.some.inj ht'
    simp only at hphase
    split at hphase
    · simp at hphase
    · rw [ClientPhase.received.injEq] at hphase
      exact hphase ▸ hP received rfl
  · rename_i env text hphase
    cases hhandle : handleClient backend env text s.store with
    | none => simp [hhandle] at hturn
    | some answered =>
      rw [hhandle] at hturn
      obtain rfl := Option.some.inj hturn
      refine ⟨h.update fun t' ht' text' hphase' => ?_, fun handled hmem => ?_⟩
      · obtain rfl := Option.some.inj ht'
        simp at hphase'
      · rcases List.mem_append.mp hmem with hmem | hmem
        · exact h.handled handled hmem
        · rw [List.mem_singleton.mp hmem]
          exact h.waiting i t text ht hphase
  · obtain rfl := Option.some.inj hturn
    refine ⟨h.update fun t' ht' text hphase => ?_, h.handled⟩
    obtain rfl := Option.some.inj ht'
    simp at hphase
  · obtain rfl := Option.some.inj hturn
    refine ⟨h.update fun t' ht' text hphase => ?_, h.handled⟩
    obtain rfl := Option.some.inj ht'
    simp at hphase
  · obtain rfl := Option.some.inj hturn
    exact ⟨h.update fun t' ht' => by simp at ht', h.handled⟩
  · simp at hturn

theorem Heard.turn (h : Heard P s) {turn : ServerTurn}
    (hP : ∀ i received, turn = .client i (.recv received) → P received) :
    Heard P (takeServerTurn backend turn s).2 := by
  unfold takeServerTurn
  split
  · rename_i s' hturn
    cases turn with
    | loop turn =>
      obtain ⟨-, -, hhandled, -, -, hclient⟩ := loopTurn_frame hturn
      refine ⟨fun i t text ht hphase => ?_, fun handled hmem => h.handled handled (hhandled ▸ hmem)⟩
      rcases hclient i t ht with ht | ⟨-, hrank⟩
      · exact h.waiting i t text ht hphase
      · rw [hphase] at hrank
        simp [ClientPhase.rank] at hrank
    | client i turn =>
      obtain ⟨t, ht, hturn⟩ := Option.bind_eq_some_iff.mp hturn
      exact h.client ht (fun received he => hP i received (he ▸ rfl)) hturn
  · exact h

/-- A server hears what its clients send. -/
theorem heard_run (h : Heard P s) {turns : List ServerTurn}
    (hP : ∀ i received, .client i (.recv received) ∈ turns → P received) :
    Heard P (finalState (takeServerTurn backend) turns s) := by
  induction turns generalizing s with
  | nil => exact h
  | cons turn turns ih =>
    exact ih (h.turn fun i received he => hP i received (he ▸ List.mem_cons_self))
      fun i received hmem => hP i received (List.mem_cons_of_mem turn hmem)

end Heard

/-- The URL of this connection's request, if it has one, ends in its
array. -/
def Connection.UrlInside (c : Connection) : Prop :=
  IsRequest (c.received.take (MAX_REQUEST_SIZE - 1)) →
    UrlEnds c.env.request (c.received.take (MAX_REQUEST_SIZE - 1))

theorem urlInside_of_short {c : Connection} (h : ShortUrl c.received) : c.UrlInside := by
  intro hrequest
  obtain ⟨m, u, v, more, hwords⟩ := words_of_isRequest hrequest
  exact (urlEnds_iff c.env.url_size hwords).mpr (Or.inl (h u (by rw [lineOf, hwords]; simp)))

section Lines

variable {σ : Type} (backend : Backend σ)

theorem handleClient_firstLine (env : ClientEnv) (received : List Char) (s : σ) :
    handleClient backend env (firstLine received) s = handleClient backend env received s := by
  have hparse := parseHttpRequest_of_line (lineOf_firstLine received) env.copied env.request
  by_cases hnil : received = []
  · subst hnil
    rfl
  · rw [handleClient, handleClient, if_neg (mt (firstLine_eq_nil_iff received).mp hnil),
      if_neg hnil, hparse]

/-- What is left of a server when only first lines count. -/
def ClientPhase.firstLine : ClientPhase → ClientPhase
  | .received text => .received (Http.firstLine text)
  | phase => phase

def ClientThread.firstLine (t : ClientThread) : ClientThread :=
  { t with phase := t.phase.firstLine }

def Handled.firstLine (h : Handled) : Handled :=
  { h with connection := { h.connection with received := Http.firstLine h.connection.received } }

def Server.firstLines (s : Server σ) : Server σ :=
  { s with
    client := fun i => (s.client i).map ClientThread.firstLine
    handled := s.handled.map Handled.firstLine }

/-- A client that sends its first line only. -/
def ClientTurn.firstLine : ClientTurn → ClientTurn
  | .recv received => .recv (Http.firstLine received)
  | turn => turn

def ServerTurn.firstLine : ServerTurn → ServerTurn
  | .loop turn => .loop turn
  | .client i turn => .client i turn.firstLine

theorem firstLines_client (s : Server σ) (i : Nat) (t : Option ClientThread) :
    (fun j => (Function.update s.client i t j).map ClientThread.firstLine)
      = Function.update s.firstLines.client i (t.map ClientThread.firstLine) := by
  funext j
  by_cases hj : j = i
  · rw [hj, Function.update_self, Function.update_self]
  · rw [Function.update_of_ne hj, Function.update_of_ne hj]
    rfl

theorem firstLines_setPhase (s : Server σ) (i : Nat) (t : ClientThread) (phase : ClientPhase) :
    (s.setPhase i t phase).firstLines
      = s.firstLines.setPhase i t.firstLine phase.firstLine := by
  simp only [Server.setPhase, Server.firstLines, firstLines_client]
  rfl

theorem loopTurn_firstLines (turn : LoopTurn) (s : Server σ) :
    loopTurn turn s.firstLines = (loopTurn turn s).map Server.firstLines := by
  have hloop : s.firstLines.loop = s.loop := rfl
  have hsockets : s.firstLines.sockets = s.sockets := rfl
  have hinfos : s.firstLines.infos = s.infos := rfl
  unfold loopTurn
  rw [hloop, hsockets, hinfos]
  split
  · rfl
  · split <;> rfl
  · rfl
  · split <;> rfl
  · rfl
  · rename_i client info _
    have hnew := firstLines_client s s.created
      (some { socket := client, info := info, phase := .receiving })
    simp only [Option.map_some, Server.firstLines, hnew]
    rfl
  · rfl
  · rfl
  · rfl

theorem clientTurn_firstLines (i : Nat) (t : ClientThread) (turn : ClientTurn) (s : Server σ) :
    clientTurn backend i t.firstLine turn.firstLine s.firstLines
      = (clientTurn backend i t turn s).map Server.firstLines := by
  obtain ⟨socket, info, phase⟩ := t
  cases turn with
  | recv received =>
    cases phase with
    | receiving =>
      simp only [ClientTurn.firstLine, ClientThread.firstLine, ClientPhase.firstLine, clientTurn,
        firstLine_eq_nil_iff, Option.map_some, firstLines_setPhase]
      split <;> rfl
    | _ => rfl
  | handle env =>
    cases phase with
    | received text =>
      simp only [ClientTurn.firstLine, ClientThread.firstLine, ClientPhase.firstLine, clientTurn,
        handleClient_firstLine]
      have hstore : s.firstLines.store = s.store := rfl
      rw [hstore]
      cases handleClient backend env text s.store with
      | none => rfl
      | some answered =>
        have hclient := firstLines_client s i
          (some { socket := socket, info := info, phase := .sending answered.1 })
        simp only [Option.bind_eq_bind, Option.bind_some, Option.map_some, Server.setPhase,
          Server.firstLines, hclient, List.map_append]
        rfl
    | _ => rfl
  | send delivered =>
    cases phase with
    | sending answer =>
      have hclient := firstLines_client s i
        (some { socket := socket, info := info, phase := .closing })
      cases delivered <;>
        simp only [ClientTurn.firstLine, clientTurn, Option.map_some, Server.setPhase,
          Server.firstLines, hclient] <;>
        rfl
    | _ => rfl
  | close =>
    cases phase with
    | closing =>
      have hclient := firstLines_client s i
        (some { socket := socket, info := info, phase := .freeing })
      simp only [ClientTurn.firstLine, clientTurn, Option.map_some, Server.setPhase,
        Server.firstLines, hclient]
      rfl
    | _ => rfl
  | free =>
    cases phase with
    | freeing =>
      have hclient := firstLines_client s i none
      simp only [ClientTurn.firstLine, clientTurn, Option.map_some, Server.firstLines, hclient]
      rfl
    | _ => rfl

theorem serverTurn_firstLines (turn : ServerTurn) (s : Server σ) :
    serverTurn backend turn.firstLine s.firstLines
      = (serverTurn backend turn s).map Server.firstLines := by
  cases turn with
  | loop turn => exact loopTurn_firstLines turn s
  | client i turn =>
    have hclient : s.firstLines.client i = (s.client i).map ClientThread.firstLine := rfl
    simp only [ServerTurn.firstLine, serverTurn, hclient]
    cases s.client i with
    | none => rfl
    | some t => exact clientTurn_firstLines backend i t turn s

theorem takeServerTurn_firstLines (turn : ServerTurn) (s : Server σ) :
    (takeServerTurn backend turn.firstLine s.firstLines).2
      = (takeServerTurn backend turn s).2.firstLines := by
  simp only [takeServerTurn, serverTurn_firstLines]
  cases serverTurn backend turn s <;> rfl

theorem run_firstLines (turns : List ServerTurn) (s : Server σ) :
    finalState (takeServerTurn backend) (turns.map ServerTurn.firstLine) s.firstLines
      = (finalState (takeServerTurn backend) turns s).firstLines := by
  induction turns generalizing s with
  | nil => rfl
  | cons turn turns ih =>
    calc finalState (takeServerTurn backend) ((turn :: turns).map ServerTurn.firstLine) s.firstLines
        = finalState (takeServerTurn backend) (turns.map ServerTurn.firstLine)
            (takeServerTurn backend turn.firstLine s.firstLines).2 := rfl
      _ = finalState (takeServerTurn backend) (turns.map ServerTurn.firstLine)
            (takeServerTurn backend turn s).2.firstLines := by rw [takeServerTurn_firstLines]
      _ = (finalState (takeServerTurn backend) (turn :: turns) s).firstLines := ih _

/-- Headers and bodies never matter: under every order of turns, clients
that send only the first line of what they had to send get the same
answers, in the same order, and leave the same store; and no URL is read
past its array on the way. -/
theorem session_by_lines (listening : Socket) (s₀ : σ) (turns : List ServerTurn)
    (hshort : ∀ i received, .client i (.recv received) ∈ turns → ShortUrl received) :
    let s := finalState (takeServerTurn backend) turns (Server.idle listening s₀)
    let s' := finalState (takeServerTurn backend) (turns.map ServerTurn.firstLine)
      (Server.idle listening s₀)
    (∀ h ∈ s.handled ++ s'.handled, h.connection.UrlInside) ∧
      s'.sent = s.sent ∧ s'.store = s.store ∧ s'.handled = s.handled.map Handled.firstLine := by
  have hidle : (Server.idle listening s₀).firstLines = Server.idle listening s₀ := rfl
  have hrun := run_firstLines backend turns (Server.idle listening s₀)
  rw [hidle] at hrun
  intro s s'
  have hlines : s' = s.firstLines := hrun
  have hheard : Heard ShortUrl s := heard_run (heard_idle ShortUrl listening s₀) hshort
  rw [hlines]
  refine ⟨fun h hmem => ?_, rfl, rfl, rfl⟩
  rcases List.mem_append.mp hmem with hmem | hmem
  · exact urlInside_of_short (hheard.handled h hmem)
  · obtain ⟨whole, hwhole, rfl⟩ := List.mem_map.mp hmem
    have hfirst := hheard.handled whole hwhole
    rw [ShortUrl, ← lineOf_firstLine] at hfirst
    exact urlInside_of_short hfirst

end Lines

/-- A removal with headers and a body. -/
def webRemoval : List Char :=
  "DELETE /images/web HTTP/1.1\r\nHost: localhost\r\n\r\n\x7b\"force\":1\x7d".toList

/-- The turns of a server with one client, which sends this text. -/
def oneClient (env : ClientEnv) (received : List Char) : List ServerTurn :=
  [.loop (.accept (some 4)), .loop (.malloc (some 1)), .loop (.pthreadCreate true),
    .client 0 (.recv received), .client 0 (.handle env), .client 0 (.send true)]

theorem shortUrl_oneClient {env : ClientEnv} {text : List Char} (h : ShortUrl text) (i : Nat)
    (received : List Char) (hmem : .client i (.recv received) ∈ oneClient env text) :
    ShortUrl received := by
  simp only [oneClient, List.mem_cons, reduceCtorEq, ServerTurn.client.injEq,
    ClientTurn.recv.injEq, and_false, or_false, false_or, List.not_mem_nil] at hmem
  rw [hmem.2]
  exact h

/-- Its first line alone is answered in the same way. -/
theorem removal_by_line :
    (finalState (takeServerTurn willingBackend)
        ((oneClient emptyEnv webRemoval).map ServerTurn.firstLine) (Server.idle 3 ())).sent
      = [(0, responseText 200 "OK".toList
          "\x7b\"message\": \"Image removed successfully\"\x7d".toList)] := by
  have hlines := session_by_lines willingBackend 3 () (oneClient emptyEnv webRemoval)
    (shortUrl_oneClient (by decide))
  rw [hlines.2.1]
  decide +kernel

/-! ## 2. What a request leads to -/

/-- Why the handler of a route makes no call for a URL. A creation is
refused whatever the URL, for want of a body. -/
def RefusesUrl (url : List Char) : Route → Prop
  | .create => True
  | .start | .stop | .remove => extractContainerIdFromUrl url = none
  | .removeImage => extractImageNameFromUrl url = none
  | .listImages => False
  | .build => ∃ name, scanParameter url "t=" "t=%[^&]" = some name ∧ cstr name = []

/-- The image and the Dockerfile a URL asks to build. -/
def BuildAsks (url name path : List Char) : Prop :=
  ∃ imageName dockerfilePath, scanParameter url "t=" "t=%[^&]" = some imageName ∧
    scanParameter url "dockerfile=" "dockerfile=%[^&]" = some dockerfilePath ∧
    name = cstr imageName ∧ path = cstr (if (cstr dockerfilePath).length = 0 then
      strcpy dockerfilePath "Dockerfile".toList else dockerfilePath)

/-- The calls a route can lead to on a URL, and the status they are
answered with. -/
inductive RouteCalls (url : List Char) : Route → List StoreCall → Int32 → Prop where
  | refused (r : Route) (cause : RefusesUrl url r) : RouteCalls url r [] 400
  | start (id : List Char) (result : Int) (named : extractContainerIdFromUrl url = some id) :
      RouteCalls url .start [.startContainer id result] (if result = 0 then 204 else 500)
  | stop (id : List Char) (result : Int) (named : extractContainerIdFromUrl url = some id) :
      RouteCalls url .stop [.stopContainer id result] (if result = 0 then 204 else 500)
  | remove (id : List Char) (result : Int) (named : extractContainerIdFromUrl url = some id) :
      RouteCalls url .remove [.removeContainer id result] (if result = 0 then 204 else 500)
  | removeImage (name : List Char) (result : Int) (named : extractImageNameFromUrl url = some name) :
      RouteCalls url .removeImage [.removeImage name result] (if result = 0 then 200 else 500)
  | listImages (listed : Bool) :
      RouteCalls url .listImages [.listImages listed] (if listed then 200 else 500)
  | parse (path name : List Char) (asked : BuildAsks url name path) (named : name ≠ []) :
      RouteCalls url .build [.parseDockerfile path false] 500
  | build (path name : List Char) (result : Int) (asked : BuildAsks url name path)
      (named : name ≠ []) :
      RouteCalls url .build [.parseDockerfile path true,
        .buildImageFromDockerfile name "latest".toList ".".toList result]
        (if result = 0 then 200 else 500)

/-- The same for a request, which may have no route. -/
def RequestCalls (method url : List Char) (calls : List StoreCall) (status : Int32) : Prop :=
  match route method url with
  | none => calls = [] ∧ status = 404
  | some r => RouteCalls url r calls status

section Handlers

variable {σ : Type} {backend : Backend σ} {request : HttpRequest} {response : HttpResponse}
  {s : σ} {log : List StoreCall} {o : Int × HttpResponse × σ × List StoreCall} {r : Route}

/-- The handler of the route made such calls and answered them so. -/
def LedTo (request : HttpRequest) (r : Route) (log : List StoreCall)
    (o : Int × HttpResponse × σ × List StoreCall) : Prop :=
  ∃ calls, o.2.2.2 = log ++ calls ∧ RouteCalls (cstr request.url) r calls o.2.1.statusCode

theorem ledTo_reply {status : Int32} {message body : String} {calls : List StoreCall}
    (hcalls : RouteCalls (cstr request.url) r calls status)
    (h : reply response status message body (s, log ++ calls) = some o) :
    LedTo request r log o := by
  obtain rfl := Option.some.inj h
  exact ⟨calls, rfl, hcalls⟩

theorem ledTo_refused {message body : String} (cause : RefusesUrl (cstr request.url) r)
    (h : reply response 400 message body (s, log) = some o) : LedTo request r log o := by
  obtain rfl := Option.some.inj h
  exact ⟨[], (List.append_nil log).symm, .refused r cause⟩

/-- The two answers to an operation. -/
theorem ledTo_result {result : Int} {success : Int32} {message body failure : String}
    {calls : List StoreCall}
    (hcalls : RouteCalls (cstr request.url) r calls (if result = 0 then success else 500))
    (h : (if result = 0 then reply response success message body (s, log ++ calls)
      else reply response 500 "Internal Server Error" failure (s, log ++ calls)) = some o) :
    LedTo request r log o := by
  split at h
  · rename_i hzero
    rw [if_pos hzero] at hcalls
    exact ledTo_reply hcalls h
  · rename_i hfail
    rw [if_neg hfail] at hcalls
    exact ledTo_reply hcalls h

theorem ledTo_operation
    {operation : List Char → σ × List StoreCall → Int × σ × List StoreCall}
    {plain : List Char → σ → Int × σ} {call : List Char → Int → StoreCall}
    (hlogged : ∀ id p, operation id p = logged (call id) (plain id p.1) p.2)
    (hcall : ∀ id result, extractContainerIdFromUrl (cstr request.url) = some id →
      RouteCalls (cstr request.url) r [call id result] (if result = 0 then 204 else 500))
    (hrefuses : extractContainerIdFromUrl (cstr request.url) = none →
      RefusesUrl (cstr request.url) r)
    {failure : String}
    (h : handleContainerOperation operation failure request response (s, log) = some o) :
    LedTo request r log o := by
  rw [handleContainerOperation] at h
  cases hid : extractContainerIdFromUrl (cstr request.url) with
  | none =>
    rw [hid] at h
    exact ledTo_refused (hrefuses hid) h
  | some id =>
    simp only [hid, hlogged, logged] at h
    exact ledTo_result (hcall id _ hid) h

theorem ledTo_removeImage
    (h : handleImageRemove (recorded backend) request response (s, log) = some o) :
    LedTo request .removeImage log o := by
  rw [handleImageRemove] at h
  cases hname : extractImageNameFromUrl (cstr request.url) with
  | none =>
    rw [hname] at h
    exact ledTo_refused hname h
  | some name =>
    simp only [hname, recorded, logged] at h
    exact ledTo_result (.removeImage name _ hname) h

theorem ledTo_list (request : HttpRequest)
    (h : handleImageList (recorded backend) request response (s, log) = some o) :
    LedTo request .listImages log o := by
  rw [handleImageList, handleList, recorded_listImages, logged] at h
  cases hlist : (backend.listImages s).1 with
  | none =>
    rw [hlist] at h
    exact ledTo_reply (.listImages false) h
  | some items =>
    rw [hlist] at h
    simp only [Option.bind_eq_bind, Option.bind_eq_some_iff] at h
    obtain ⟨json, -, h⟩ := h
    obtain rfl := Option.some.inj h
    exact ⟨_, rfl, .listImages true⟩

theorem ledTo_build
    (h : handleImageBuild (recorded backend) request response (s, log) = some o) :
    LedTo request .build log o := by
  rw [handleImageBuild] at h
  simp only [Option.bind_eq_bind, Option.bind_eq_some_iff] at h
  obtain ⟨name, hscanned, dockerfilePath, hpath, h⟩ := h
  split at h
  · rename_i hname
    exact ledTo_refused ⟨name, hscanned, List.length_eq_zero_iff.mp hname⟩ h
  · rename_i hname
    have hnamed : cstr name ≠ [] := fun hnil => hname (by rw [hnil]; rfl)
    have hasked : BuildAsks (cstr request.url) (cstr name) (cstr (if (cstr dockerfilePath).length = 0
        then strcpy dockerfilePath "Dockerfile".toList else dockerfilePath)) :=
      ⟨name, dockerfilePath, hscanned, hpath, rfl, rfl⟩
    generalize cstr (if (cstr dockerfilePath).length = 0 then
      strcpy dockerfilePath "Dockerfile".toList else dockerfilePath) = path at h hasked
    rw [recorded_parseDockerfile, logged] at h
    cases hparse : backend.parseDockerfile path s with
    | mk parsed s' =>
      rw [hparse] at h
      cases parsed with
      | none => exact ledTo_reply (.parse path _ hasked hnamed) h
      | some dockerfile =>
        have hcontext : cstr (strcpy (zeros 256) ".".toList) = ".".toList := by decide
        simp only [recorded, logged, hcontext, Option.isSome_some, List.append_assoc,
          List.cons_append, List.nil_append] at h
        exact ledTo_result (.build path (cstr name) _ hasked hnamed) h

/-- A request without a body. -/
theorem requestCalls_of_handled (hbody : cstr request.body = [])
    (h : handleApiRequest (recorded backend) request response (s, log) = some o) :
    ∃ calls, o.2.2.2 = log ++ calls ∧
      RequestCalls (cstr request.method) (cstr request.url) calls o.2.1.statusCode := by
  rw [handleApiRequest_route] at h
  unfold RequestCalls
  cases hroute : route (cstr request.method) (cstr request.url) with
  | none =>
    rw [hroute] at h
    obtain rfl := Option.some.inj h
    exact ⟨[], (List.append_nil log).symm, rfl, rfl⟩
  | some r =>
    rw [hroute] at h
    have hled : LedTo request r log o := by
      cases r with
      | create =>
        simp only [handleRoute] at h
        rw [handleContainerCreate_of_head _ (by rw [hbody]; simp)] at h
        exact ledTo_refused trivial h
      | start => exact ledTo_operation (fun _ _ => rfl) .start id h
      | stop => exact ledTo_operation (fun _ _ => rfl) .stop id h
      | remove => exact ledTo_operation (fun _ _ => rfl) .remove id h
      | listImages => exact ledTo_list request h
      | build => exact ledTo_build h
      | removeImage => exact ledTo_removeImage h
    exact hled

end Handlers

/-! ## 3. What a connection leads to -/

section Connections

/-- The parser never finds a body. -/
theorem cstr_body_of_parsed {copied : Bool} {text : List Char} {stale parsed : HttpRequest}
    (h : parseHttpRequest copied (cstr text) stale = some (0, parsed)) : cstr parsed.body = [] := by
  cases copied with
  | false =>
    rw [parseHttpRequest, if_pos rfl] at h
    simp at h
  | true =>
    by_cases hrequest : IsRequest text
    · obtain ⟨hfit, hover⟩ := parse_of_isRequest hrequest stale
      by_cases hheaders : HeadersFit text
      · obtain ⟨parsed', hparse, hsame⟩ := hfit hheaders
        rw [hparse] at h
        obtain rfl : parsed' = parsed := (Prod.mk.inj (Option.some.inj h)).2
        obtain ⟨m, u, v, more, hwords⟩ := words_of_isRequest hrequest
        rw [hsame.body, requestOf, hwords, cstr_clear]
      · rw [hover hheaders] at h
        simp at h
    · rw [parse_of_not_isRequest hrequest] at h
      simp at h

/-- The parser fails on what it could not copy and on a line of fewer
than three words. -/
theorem unread_of_parsed {copied : Bool} {text : List Char} {stale parsed : HttpRequest}
    {result : Int} (h : parseHttpRequest copied (cstr text) stale = some (result, parsed))
    (hfailed : result ≠ 0) : copied = false ∨ ¬ IsRequest text := by
  cases copied with
  | false => exact Or.inl rfl
  | true =>
    refine Or.inr fun hrequest => ?_
    obtain ⟨hfit, hover⟩ := parse_of_isRequest hrequest stale
    by_cases hheaders : HeadersFit text
    · obtain ⟨parsed', hparse, -⟩ := hfit hheaders
      rw [hparse] at h
      exact hfailed (Prod.mk.inj (Option.some.inj h)).1.symm
    · rw [hover hheaders] at h
      simp at h

/-- What a text the server has parsed to this request led to: the calls,
and the response that was sent. -/
def Led (request : HttpRequest) (calls : List StoreCall) (answer : List Char) : Prop :=
  ∃ status message body, Fits message body ∧ answer = responseText status message body ∧
    RequestCalls (cstr request.method) (cstr request.url) calls status

/-- What a connection led to. -/
inductive ConnectionCalls (c : Connection) (calls : List StoreCall) (answer : List Char) : Prop where
  | closed (nothing : c.received = []) (quiet : calls = []) (silent : answer = [])
  | refused (message body : List Char) (fits : Fits message body)
      (answered : answer = responseText 400 message body) (quiet : calls = [])
      (cause : c.env.copied = false ∨ ¬ IsRequest (c.received.take (MAX_REQUEST_SIZE - 1)))
  | handled (request : HttpRequest)
      (parsed : parseHttpRequest c.env.copied (cstr (c.received.take (MAX_REQUEST_SIZE - 1)))
        c.env.request = some (0, request))
      (led : Led request calls answer)

variable {σ : Type} {backend : Backend σ} {log : List StoreCall}

theorem connectionCalls_of_handled {c : Connection} {s : σ} {answer : List Char}
    {after : σ × List StoreCall}
    (h : handleClient (recorded backend) c.env c.received (s, log) = some (answer, after)) :
    ∃ calls, after.2 = log ++ calls ∧ ConnectionCalls c calls answer := by
  rw [handleClient] at h
  split at h
  · rename_i hnothing
    obtain ⟨rfl, rfl⟩ := Prod.mk.inj (Option.some.inj h)
    exact ⟨[], (List.append_nil log).symm, .closed hnothing rfl rfl⟩
  · split at h
    · simp at h
    · rename_i request hparse
      split at h
      · simp at h
      · rename_i result response p hanswer
        have hfits := routeFits_of_handleApiRequest backend request c.env.response s log hanswer
        obtain ⟨status, message, body, s', calls', hsettled, hshort, -⟩ :=
          handleApiRequest_settled backend request c.env.response s log hfits
        obtain ⟨calls, hlog, hcalls⟩ :=
          requestCalls_of_handled (cstr_body_of_parsed hparse) hanswer
        rw [hsettled] at hanswer
        obtain ⟨rfl, rfl, rfl⟩ : 0 = result ∧
            createHttpResponse c.env.response status message body = response ∧
            (s', log ++ calls') = p := by
          simpa using hanswer
        obtain ⟨rfl, rfl⟩ := Prod.mk.inj (Option.some.inj h)
        refine ⟨calls, hlog, .handled request hparse ⟨status, message, body, hshort, ?_, hcalls⟩⟩
        simp only [ne_eq, not_true_eq_false, if_false, send_createHttpResponse hshort]
    · rename_i hfailed hparse
      obtain ⟨rfl, rfl⟩ := Prod.mk.inj (Option.some.inj h)
      have hfits : Fits "Bad Request".toList "Invalid HTTP request".toList := by decide
      exact ⟨[], (List.append_nil log).symm,
        .refused _ _ hfits (send_createHttpResponse hfits _ _) rfl (unread_of_parsed hparse hfailed)⟩

/-- What a session adds to the log: the calls of its connections. -/
theorem serve_log {cs : List Connection} : ∀ {p after : σ × List StoreCall}
    {answers : List (List Char)}, serve (recorded backend) cs p = some (answers, after) →
    ∃ calls : List (List StoreCall), after.2 = p.2 ++ calls.flatten ∧
      List.Forall₂ (fun x now => ConnectionCalls x.1 now x.2) (cs.zip answers) calls := by
  induction cs with
  | nil =>
    intro p after answers h
    obtain rfl := (Prod.mk.inj (Option.some.inj h)).2
    exact ⟨[], by simp, .nil⟩
  | cons c cs ih =>
    intro p after answers h
    simp only [serve, Option.bind_eq_bind, Option.bind_eq_some_iff] at h
    obtain ⟨first, hfirst, rest, hrest, h⟩ := h
    obtain ⟨rfl, rfl⟩ := Prod.mk.inj (Option.some.inj h)
    obtain ⟨now, hnow, hcalls⟩ := connectionCalls_of_handled hfirst
    obtain ⟨later, hlater, hall⟩ := ih hrest
    refine ⟨now :: later, ?_, .cons hcalls hall⟩
    rw [hlater, hnow, List.flatten_cons, List.append_assoc]

/-- Whatever is on the right of such a pairing has a partner. -/
theorem exists_of_forall₂ {α β : Type} {R : α → β → Prop} {as : List α} {bs : List β}
    (h : List.Forall₂ R as bs) {b : β} (hb : b ∈ bs) : ∃ a, R a b := by
  induction h with
  | nil => simp at hb
  | cons hr _ ih =>
    rcases List.mem_cons.mp hb with rfl | hb
    · exact ⟨_, hr⟩
    · exact ih hb

/-- None of the calls is a creation. -/
theorem ConnectionCalls.not_create {c : Connection} {calls : List StoreCall} {answer : List Char}
    (h : ConnectionCalls c calls answer) (args : CreateArgs) (result : Int) :
    StoreCall.createContainer args result ∉ calls := by
  cases h with
  | closed _ quiet => simp [quiet]
  | refused _ _ _ _ quiet _ => simp [quiet]
  | handled request _ led =>
    obtain ⟨status, message, body, -, -, hcalls⟩ := led
    rw [RequestCalls] at hcalls
    split at hcalls
    · simp [hcalls.1]
    · cases hcalls <;> simp

/-- Whatever clients send with a URL that fits, and in whatever order the
turns are taken: no URL is read past its array, and the log of the store
is what the handled connections led to, each with the answer that tells
of it. There is no creation among it. -/
theorem session_calls (backend : Backend σ) (listening : Socket) (s₀ : σ)
    (turns : List ServerTurn)
    (hshort : ∀ i received, .client i (.recv received) ∈ turns → ShortUrl received) :
    let s := finalState (takeServerTurn (recorded backend)) turns
      (Server.idle listening (s₀, []))
    (∀ h ∈ s.handled, h.connection.UrlInside) ∧
    (∃ calls : List (List StoreCall), s.store.2 = calls.flatten ∧
      List.Forall₂ (fun h now => ConnectionCalls h.connection now h.answer) s.handled calls) ∧
    ∀ args result, StoreCall.createContainer args result ∉ s.store.2 := by
  intro s
  have hheard : Heard ShortUrl s := heard_run (heard_idle ShortUrl listening (s₀, [])) hshort
  have hserved := (ordered_run (recorded backend)
    (ordered_idle (recorded backend) listening (s₀, [])) turns).served
  obtain ⟨calls, hlog, hall⟩ := serve_log hserved
  rw [List.nil_append] at hlog
  have hlog' : s.store.2 = calls.flatten := hlog
  rw [List.zip_map', List.forall₂_map_left_iff] at hall
  refine ⟨fun h hmem => urlInside_of_short (hheard.handled h hmem), ⟨calls, hlog, hall⟩,
    fun args result hmem => ?_⟩
  rw [hlog', List.mem_flatten] at hmem
  obtain ⟨now, hnow, hmem⟩ := hmem
  obtain ⟨h, hcalls⟩ := exists_of_forall₂ hall hnow
  exact hcalls.not_create args result hmem

end Connections

/-- The removal reaches the store, and nothing else does. -/
theorem removal_calls :
    let s := finalState (takeServerTurn (recorded willingBackend)) (oneClient emptyEnv webRemoval)
      (Server.idle 3 ((), []))
    s.store.2 = [.removeImage "web".toList 0] ∧ ∀ h ∈ s.handled, h.connection.UrlInside := by
  intro s
  have hcalls := session_calls willingBackend 3 () (oneClient emptyEnv webRemoval)
    (shortUrl_oneClient (by decide))
  exact ⟨by decide +kernel, hcalls.1⟩

end DockerClone.Http
