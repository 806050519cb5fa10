/-
DockerClone.Http.Server — the accept loop and its threads.

`start_http_server` accepts a connection, allocates a `client_info_t` for
it and gives both to a new, detached thread; every failure on the way is
undone before the next `accept`. `handle_client` receives once, answers
once, closes its socket and frees its block. A turn is one call of the
loop or of one thread, in any order.

The calls between `recv` and `send` are one turn. They touch two things
of another thread's, the store and the position `strtok` saves; how the
threads share those is not this module's matter. A thread that writes
past the end of an array takes no further turn.

`serve` is what the threads are compared with: the connections one after
another.
-/
import DockerClone.Http.Router
import DockerClone.Os.Ledger

namespace DockerClone.Http

open DockerClone.CLib DockerClone.Os

/-! ## 1. One after another -/

/-- A connection: the bytes its `recv` returned, and the bytes the locals
of its thread held at first. -/
structure Connection where
  env : ClientEnv
  received : List Char

/-- Connections handled one after another: the texts sent back and the
store; `none` when one of them writes past the end of an array. -/
def serve {σ : Type} (backend : Backend σ) : List Connection → σ → Option (List (List Char) × σ)
  | [], s => some ([], s)
  | c :: cs, s => do
      let (answer, s) ← handleClient backend c.env c.received s
      let (answers, s) ← serve backend cs s
      some (answer :: answers, s)

/-! ## 2. The server -/

/-- A descriptor. -/
abbrev Socket := Nat

/-- The address of a `client_info_t`. -/
abbrev Block := Nat

/-- Where the accept loop stands. -/
inductive LoopPhase where
  /-- At `accept`. -/
  | accepting
  /-- At `malloc`. -/
  | accepted (client : Socket)
  /-- At `pthread_create`. -/
  | allocated (client : Socket) (info : Block)
  /-- At `free(client_info)`, there being no thread. -/
  | freeing (client : Socket) (info : Block)
  /-- At `close(client_socket)`, there being no thread. -/
  | closing (client : Socket)
  deriving DecidableEq, Repr

/-- Where a thread of `handle_client` stands. -/
inductive ClientPhase where
  /-- At `recv`. -/
  | receiving
  /-- At `parse_http_request`. -/
  | received (text : List Char)
  /-- At `send`. -/
  | sending (answer : List Char)
  /-- At `close(client_socket)`. -/
  | closing
  /-- At `free(client_info)`. -/
  | freeing
  deriving DecidableEq, Repr

structure ClientThread where
  socket : Socket
  info : Block
  phase : ClientPhase
  deriving DecidableEq, Repr

/-- A request a thread has handled. -/
structure Handled where
  thread : Nat
  connection : Connection
  answer : List Char

structure Server (σ : Type) where
  listening : Socket
  sockets : Ledger Socket
  infos : Ledger Block
  loop : LoopPhase
  /-- The threads that have not ended, numbered as they were created. -/
  client : Nat → Option ClientThread
  created : Nat
  store : σ
  /-- The requests handled so far, in that order. -/
  handled : List Handled
  /-- What was sent so far, and by which thread. -/
  sent : List (Nat × List Char)

/-- A server that listens and has no client yet. -/
def Server.idle {σ : Type} (listening : Socket) (s : σ) : Server σ where
  listening := listening
  sockets := Ledger.empty.acquire listening
  infos := Ledger.empty
  loop := .accepting
  client := fun _ => none
  created := 0
  store := s
  handled := []
  sent := []

/-- `start_http_server` before its loop: the server, or after -1 the
sockets that are still open. -/
def startHttpServer {σ : Type} (socket : Option Socket) (setsockopt bind listen : Bool) (s : σ) :
    Except (Ledger Socket) (Server σ) :=
  match socket with
  | none => .error Ledger.empty
  | some serverSocket =>
      let sockets := Ledger.empty.acquire serverSocket
      if !setsockopt then .error (sockets.release serverSocket)
      else if !bind then .error (sockets.release serverSocket)
      else if !listen then .error (sockets.release serverSocket)
      else .ok { Server.idle serverSocket s with sockets := sockets }

/-! ## 3. Turns -/

/-- A call of the accept loop, with its result. -/
inductive LoopTurn where
  /-- `none` is -1. -/
  | accept (client : Option Socket)
  | malloc (info : Option Block)
  | pthreadCreate (created : Bool)
  | free
  | close

/-- A call of `handle_client`, with its result. -/
inductive ClientTurn where
  /-- Nothing is received when the connection is closed or `recv` fails. -/
  | recv (received : List Char)
  /-- From `parse_http_request` to the last `create_http_response`. -/
  | handle (env : ClientEnv)
  | send (delivered : Bool)
  | close
  | free

inductive ServerTurn where
  | loop (turn : LoopTurn)
  | client (i : Nat) (turn : ClientTurn)

section Turns

variable {σ : Type}

/-- A turn of the loop; `none` when it does not stand there. The kernel
returns a descriptor, and `malloc` an address, that is not in use. -/
def loopTurn (turn : LoopTurn) (s : Server σ) : Option (Server σ) :=
  match turn, s.loop with
  | .accept none, .accepting => some s
  | .accept (some client), .accepting =>
      if client ∈ s.sockets.held then none
      else some { s with sockets := s.sockets.acquire client, loop := .accepted client }
  | .malloc none, .accepted client => some { s with loop := .closing client }
  | .malloc (some info), .accepted client =>
      if info ∈ s.infos.held then none
      else some { s with infos := s.infos.acquire info, loop := .allocated client info }
  | .pthreadCreate false, .allocated client info => some { s with loop := .freeing client info }
  | .pthreadCreate true, .allocated client info =>
      let t : ClientThread := { socket := client, info := info, phase := .receiving }
      some { s with
        loop := .accepting
        client := Function.update s.client s.created (some t)
        created := s.created + 1 }
  | .free, .freeing client info =>
      some { s with infos := s.infos.release info, loop := .closing client }
  | .close, .closing client =>
      some { s with sockets := s.sockets.release client, loop := .accepting }
  | _, _ => none

/-- A thread has moved on. -/
def Server.setPhase (s : Server σ) (i : Nat) (t : ClientThread) (phase : ClientPhase) : Server σ :=
  { s with client := Function.update s.client i (some { t with phase := phase }) }

variable (backend : Backend σ)

/-- A turn of thread `i`, which is `t`. -/
def clientTurn (i : Nat) (t : ClientThread) (turn : ClientTurn) (s : Server σ) :
    Option (Server σ) :=
  match turn, t.phase with
  | .recv received, .receiving =>
      some (s.setPhase i t (if received = [] then .closing else .received received))
  | .handle env, .received text => do
      let (answer, store) ← handleClient backend env text s.store
      let connection : Connection := { env := env, received := text }
      let h : Handled := { thread := i, connection := connection, answer := answer }
      some { s.setPhase i t (.sending answer) with store := store, handled := s.handled ++ [h] }
  | .send delivered, .sending answer =>
      let sent := if delivered then s.sent ++ [(i, answer)] else s.sent
      some { s.setPhase i t .closing with sent := sent }
  | .close, .closing =>
      some { s.setPhase i t .freeing with sockets := s.sockets.release t.socket }
  | .free, .freeing =>
      some { s with
        infos := s.infos.release t.info
        client := Function.update s.client i none }
  | _, _ => none

def serverTurn : ServerTurn → Server σ → Option (Server σ)
  | .loop turn, s => loopTurn turn s
  | .client i turn, s => (s.client i).bind fun t => clientTurn backend i t turn s

/-- The server as it takes turns; a turn that is nobody's is passed over. -/
def takeServerTurn (turn : ServerTurn) (s : Server σ) : Bool × Server σ :=
  match serverTurn backend turn s with
  | some s => (true, s)
  | none => (false, s)

end Turns

end DockerClone.Http
