/-
DockerClone.Http.ServerTheorems — the server under every order of turns.

Two invariants, each with one lemma about a turn. `Accounted` names the
owner of every open socket and of every `client_info_t`: the listener,
the loop, or one thread. `InOrder` compares the server with `serve`: the
requests were handled one after another, in the order of their `handle`
turns, and what is sent to a client is the answer of its own request.
-/
import DockerClone.Http.Server
import DockerClone.Os.Run

namespace DockerClone.Http

open DockerClone.CLib DockerClone.Os

/-! ## 1. Owners -/

/-- Who can own a socket or a block. -/
inductive Owner where
  | listener
  | loop
  | client (i : Nat)
  deriving DecidableEq

def LoopPhase.socket : LoopPhase → Option Socket
  | .accepting => none
  | .accepted client | .allocated client _ | .freeing client _ | .closing client => some client

def LoopPhase.info : LoopPhase → Option Block
  | .accepting | .accepted _ | .closing _ => none
  | .allocated _ info | .freeing _ info => some info

/-- The socket a thread has not closed yet. -/
def ClientThread.openSocket (t : ClientThread) : Option Socket :=
  match t.phase with
  | .freeing => none
  | _ => some t.socket

section Owners

variable {σ : Type}

def Server.socketOf (s : Server σ) : Owner → Option Socket
  | .listener => some s.listening
  | .loop => s.loop.socket
  | .client i => (s.client i).bind ClientThread.openSocket

def Server.infoOf (s : Server σ) : Owner → Option Block
  | .listener => none
  | .loop => s.loop.info
  | .client i => (s.client i).map ClientThread.info

/-- Every open socket and every block has its owner; the numbers not yet
given have no thread. -/
structure Accounted (s : Server σ) : Prop where
  sockets : s.sockets.Sound s.socketOf
  infos : s.infos.Sound s.infoOf
  fresh : ∀ i, s.created ≤ i → s.client i = none

theorem accounted_idle (listening : Socket) (s : σ) : Accounted (Server.idle listening s) where
  sockets := by
    have howner : (Server.idle listening s).socketOf
        = Function.update (fun _ : Owner => none) .listener (some listening) := by
      funext o
      cases o <;> simp [Server.socketOf, Server.idle, LoopPhase.socket, Function.update]
    rw [howner]
    exact Ledger.sound_empty.acquire rfl (by simp [Ledger.empty])
  infos := by
    have howner : (Server.idle listening s).infoOf = fun _ : Owner => none := by
      funext o
      cases o <;> rfl
    rw [howner]
    exact Ledger.sound_empty
  fresh := fun _ _ => rfl

variable {s : Server σ} {i : Nat} {t : ClientThread}

/-- A turn of the loop that leaves the threads alone. -/
theorem socketOf_loop (s : Server σ) (loop : LoopPhase) (sockets : Ledger Socket)
    (infos : Ledger Block) :
    { s with loop := loop, sockets := sockets, infos := infos : Server σ }.socketOf
      = Function.update s.socketOf .loop loop.socket := by
  funext o
  cases o <;> simp [Server.socketOf, Function.update]

theorem infoOf_loop (s : Server σ) (loop : LoopPhase) (sockets : Ledger Socket)
    (infos : Ledger Block) :
    { s with loop := loop, sockets := sockets, infos := infos : Server σ }.infoOf
      = Function.update s.infoOf .loop loop.info := by
  funext o
  cases o <;> simp [Server.infoOf, Function.update]

/-- A turn of a thread. -/
theorem socketOf_client (s : Server σ) (i : Nat) (t : Option ClientThread) :
    { s with client := Function.update s.client i t : Server σ }.socketOf
      = Function.update s.socketOf (.client i) (t.bind ClientThread.openSocket) := by
  funext o
  cases o with
  | client j =>
    by_cases hj : j = i
    · subst hj; simp [Server.socketOf]
    · simp [Server.socketOf, Function.update, hj]
  | _ => simp [Server.socketOf, Function.update]

theorem infoOf_client (s : Server σ) (i : Nat) (t : Option ClientThread) :
    { s with client := Function.update s.client i t : Server σ }.infoOf
      = Function.update s.infoOf (.client i) (t.map ClientThread.info) := by
  funext o
  cases o with
  | client j =>
    by_cases hj : j = i
    · subst hj; simp [Server.infoOf]
    · simp [Server.infoOf, Function.update, hj]
  | _ => simp [Server.infoOf, Function.update]

/-! ## 2. Nothing is lost or released twice -/

theorem Accounted.ofLoop (h : Accounted s) {loop : LoopPhase} {sockets : Ledger Socket}
    {infos : Ledger Block} (hsockets : sockets.Sound (Function.update s.socketOf .loop loop.socket))
    (hinfos : infos.Sound (Function.update s.infoOf .loop loop.info)) :
    Accounted { s with loop := loop, sockets := sockets, infos := infos } where
  sockets := by rw [socketOf_loop]; exact hsockets
  infos := by rw [infoOf_loop]; exact hinfos
  fresh := h.fresh

theorem Accounted.ofClient (h : Accounted s) (ht : s.client i = some t)
    (t' : Option ClientThread) {sockets : Ledger Socket} {infos : Ledger Block}
    (hsockets : sockets.Sound
      (Function.update s.socketOf (.client i) (t'.bind ClientThread.openSocket)))
    (hinfos : infos.Sound (Function.update s.infoOf (.client i) (t'.map ClientThread.info))) :
    Accounted { s with
      client := Function.update s.client i t', sockets := sockets, infos := infos } where
  sockets := by
    have howner := socketOf_client { s with sockets := sockets, infos := infos } i t'
    rw [howner]
    exact hsockets
  infos := by
    have howner := infoOf_client { s with sockets := sockets, infos := infos } i t'
    rw [howner]
    exact hinfos
  fresh := by
    intro j hj
    have hne : j ≠ i := by
      rintro rfl
      rw [h.fresh j hj] at ht
      simp at ht
    simp only [Function.update_of_ne hne]
    exact h.fresh j hj

/-- A thread that keeps its socket and its block. -/
theorem Accounted.setPhase (h : Accounted s) (ht : s.client i = some t) (phase : ClientPhase)
    (hbefore : t.phase ≠ .freeing) (hafter : phase ≠ .freeing) :
    Accounted (s.setPhase i t phase) := by
  have hopen : ∀ u : ClientThread, u.phase ≠ .freeing → u.openSocket = some u.socket := by
    intro u hu
    unfold ClientThread.openSocket
    split
    · rename_i hfreeing
      exact absurd hfreeing hu
    · rfl
  refine h.ofClient ht (some { t with phase := phase }) ?_ ?_
  · have hsame : (some { t with phase := phase }).bind ClientThread.openSocket
        = s.socketOf (.client i) := by
      simp [Server.socketOf, ht, hopen t hbefore, hopen { t with phase := phase } hafter]
    rw [hsame, Function.update_eq_self]
    exact h.sockets
  · have hsame : (some { t with phase := phase }).map ClientThread.info
        = s.infoOf (.client i) := by
      simp [Server.infoOf, ht]
    rw [hsame, Function.update_eq_self]
    exact h.infos

/-- A new thread gets what the loop had in hand. -/
theorem Accounted.handOver (h : Accounted s) {client : Socket} {info : Block}
    (hloop : s.loop = .allocated client info) :
    Accounted { s with
      loop := .accepting
      client := Function.update s.client s.created
        (some { socket := client, info := info, phase := .receiving })
      created := s.created + 1 } where
  sockets := by
    have howner := (socketOf_client { s with loop := .accepting } s.created
      (some { socket := client, info := info, phase := .receiving })).trans
        (congrArg (fun f : Owner → Option Socket => Function.update f _ (some client))
          (socketOf_loop s .accepting s.sockets s.infos))
    refine Eq.subst howner.symm (h.sockets.handOver (o := .loop) ?_ ?_)
    · simp [Server.socketOf, hloop, LoopPhase.socket]
    · simp [Server.socketOf, h.fresh s.created le_rfl]
  infos := by
    have howner := (infoOf_client { s with loop := .accepting } s.created
      (some { socket := client, info := info, phase := .receiving })).trans
        (congrArg (fun f : Owner → Option Block => Function.update f _ (some info))
          (infoOf_loop s .accepting s.sockets s.infos))
    refine Eq.subst howner.symm (h.infos.handOver (o := .loop) ?_ ?_)
    · simp [Server.infoOf, hloop, LoopPhase.info]
    · simp [Server.infoOf, h.fresh s.created le_rfl]
  fresh := by
    intro j hj
    have hne : j ≠ s.created := by
      rintro rfl
      exact absurd hj (by simp)
    have hlater : s.created ≤ j := Nat.le_of_succ_le hj
    simp only [Function.update_of_ne hne]
    exact h.fresh j hlater

theorem Accounted.loop (h : Accounted s) {turn : LoopTurn} {s' : Server σ}
    (hturn : loopTurn turn s = some s') : Accounted s' := by
  -- the hands the turn leaves alone
  have hinfos : ∀ {loop : LoopPhase}, loop.info = s.loop.info →
      s.infos.Sound (Function.update s.infoOf .loop loop.info) := by
    intro loop hinfo
    have howner : loop.info = s.infoOf .loop := hinfo
    rw [howner, Function.update_eq_self]
    exact h.infos
  have hsockets : ∀ {loop : LoopPhase}, loop.socket = s.loop.socket →
      s.sockets.Sound (Function.update s.socketOf .loop loop.socket) := by
    intro loop hsocket
    have howner : loop.socket = s.socketOf .loop := hsocket
    rw [howner, Function.update_eq_self]
    exact h.sockets
  have hsocket : s.socketOf .loop = s.loop.socket := rfl
  have hinfo : s.infoOf .loop = s.loop.info := rfl
  unfold loopTurn at hturn
  split at hturn
  · obtain rfl := Option.some.inj hturn
    exact h
  · rename_i client hphase
    rw [hphase] at hsocket
    split at hturn
    · simp at hturn
    · rename_i hnew
      obtain rfl := Option.some.inj hturn
      exact h.ofLoop (h.sockets.acquire hsocket hnew) (hinfos (by rw [hphase]; rfl))
  · rename_i client hphase
    obtain rfl := Option.some.inj hturn
    exact h.ofLoop (hsockets (by rw [hphase]; rfl)) (hinfos (by rw [hphase]; rfl))
  · rename_i info client hphase
    rw [hphase] at hinfo
    split at hturn
    · simp at hturn
    · rename_i hnew
      obtain rfl := Option.some.inj hturn
      exact h.ofLoop (hsockets (by rw [hphase]; rfl)) (h.infos.acquire hinfo hnew)
  · rename_i client info hphase
    obtain rfl := Option.some.inj hturn
    exact h.ofLoop (hsockets (by rw [hphase]; rfl)) (hinfos (by rw [hphase]; rfl))
  · rename_i client info hphase
    obtain rfl := Option.some.inj hturn
    exact h.handOver hphase
  · rename_i client info hphase
    rw [hphase] at hinfo
    obtain rfl := Option.some.inj hturn
    exact h.ofLoop (hsockets (by rw [hphase]; rfl)) (h.infos.release hinfo)
  · rename_i client hphase
    rw [hphase] at hsocket
    obtain rfl := Option.some.inj hturn
    exact h.ofLoop (h.sockets.release hsocket) (hinfos (by rw [hphase]; rfl))
  · simp at hturn

theorem Accounted.client {backend : Backend σ} (h : Accounted s) (ht : s.client i = some t)
    {turn : ClientTurn} {s' : Server σ} (hturn : clientTurn backend i t turn s = some s') :
    Accounted s' := by
  unfold clientTurn at hturn
  split at hturn
  · rename_i received hphase
    obtain rfl := Option.some.inj hturn
    refine h.setPhase ht _ (by rw [hphase]; simp) ?_
    split <;> simp
  · rename_i env text hphase
    cases hhandle : handleClient backend env text s.store with
    | none => simp [hhandle] at hturn
    | some answered =>
      rw [hhandle] at hturn
      obtain rfl := Option.some.inj hturn
      have hnext := h.setPhase ht (.sending answered.1) (by rw [hphase]; simp) (by simp)
      exact ⟨hnext.sockets, hnext.infos, hnext.fresh⟩
  · rename_i delivered answer hphase
    obtain rfl := Option.some.inj hturn
    have hnext := h.setPhase ht .closing (by rw [hphase]; simp) (by simp)
    exact ⟨hnext.sockets, hnext.infos, hnext.fresh⟩
  · rename_i hphase
    obtain rfl := Option.some.inj hturn
    refine h.ofClient ht (some { t with phase := .freeing }) (h.sockets.release ?_) ?_
    · simp [Server.socketOf, ht, ClientThread.openSocket, hphase]
    · have hsame : (some { t with phase := ClientPhase.freeing }).map ClientThread.info
          = s.infoOf (.client i) := by
        simp [Server.infoOf, ht]
      rw [hsame, Function.update_eq_self]
      exact h.infos
  · rename_i hphase
    obtain rfl := Option.some.inj hturn
    refine h.ofClient ht none ?_ (h.infos.release ?_)
    · have hsame : (none : Option ClientThread).bind ClientThread.openSocket
          = s.socketOf (.client i) := by
        simp [Server.socketOf, ht, ClientThread.openSocket, hphase]
      rw [hsame, Function.update_eq_self]
      exact h.sockets
    · simp [Server.infoOf, ht]
  · simp at hturn

theorem Accounted.turn (backend : Backend σ) (turn : ServerTurn) (h : Accounted s) :
    Accounted (takeServerTurn backend turn s).2 := by
  unfold takeServerTurn
  split
  · rename_i s' hturn
    cases turn with
    | loop turn => exact h.loop hturn
    | client i turn =>
      obtain ⟨t, ht, hturn⟩ := Option.bind_eq_some_iff.mp hturn
      exact h.client ht hturn
  · exact h

end Owners

/-! ## 3. The order of the requests -/

section Order

variable {σ : Type} (backend : Backend σ)

theorem serve_append (cs ds : List Connection) (s : σ) :
    serve backend (cs ++ ds) s = (serve backend cs s).bind fun first =>
      (serve backend ds first.2).map fun second => (first.1 ++ second.1, second.2) := by
  induction cs generalizing s with
  | nil => simp [serve]
  | cons c cs ih =>
    simp only [List.cons_append, serve, Option.bind_eq_bind]
    cases handleClient backend c.env c.received s with
    | none => rfl
    | some answered =>
      simp only [Option.bind_some, ih]
      cases serve backend cs answered.2 with
      | none => rfl
      | some first =>
        simp only [Option.bind_some]
        cases serve backend ds first.2 <;> rfl

/-- One more connection at the end. -/
theorem serve_concat {cs : List Connection} {c : Connection} {s s₁ s₂ : σ}
    {answers : List (List Char)} {answer : List Char}
    (hfirst : serve backend cs s = some (answers, s₁))
    (hlast : handleClient backend c.env c.received s₁ = some (answer, s₂)) :
    serve backend (cs ++ [c]) s = some (answers ++ [answer], s₂) := by
  simp [serve_append, hfirst, serve, hlast]

/-- The requests were handled one after another, each once; what was sent
was sent once, and is the answer to the request of the same thread. -/
structure InOrder (s₀ : σ) (s : Server σ) : Prop where
  served : serve backend (s.handled.map Handled.connection) s₀
    = some (s.handled.map Handled.answer, s.store)
  once : (s.handled.map Handled.thread).Nodup
  sentOnce : (s.sent.map Prod.fst).Nodup
  own : ∀ p ∈ s.sent, ∃ h ∈ s.handled, h.thread = p.1 ∧ h.answer = p.2

/-- How far a thread is. -/
def ClientPhase.rank : ClientPhase → Nat
  | .receiving => 0
  | .received _ => 1
  | .sending _ => 2
  | .closing => 3
  | .freeing => 4

/-- With it, what the threads have still to do: who has handled its
request is past that, who has sent its answer is past that. -/
structure Ordered (s₀ : σ) (s : Server σ) : Prop extends InOrder backend s₀ s where
  accounted : Accounted s
  started : ∀ h ∈ s.handled, h.thread < s.created
  past : ∀ h ∈ s.handled, ∀ t, s.client h.thread = some t → 2 ≤ t.phase.rank
  gone : ∀ p ∈ s.sent, ∀ t, s.client p.1 = some t → 3 ≤ t.phase.rank
  sending : ∀ i t answer, s.client i = some t → t.phase = .sending answer →
    ∃ h ∈ s.handled, h.thread = i ∧ h.answer = answer

variable {backend} {s₀ : σ} {s s' : Server σ} {i : Nat} {t : ClientThread}

theorem ordered_idle (backend : Backend σ) (listening : Socket) (s : σ) :
    Ordered backend s (Server.idle listening s) where
  served := rfl
  once := List.nodup_nil
  sentOnce := List.nodup_nil
  own := by simp [Server.idle]
  accounted := accounted_idle listening s
  started := by simp [Server.idle]
  past := by simp [Server.idle]
  gone := by simp [Server.idle]
  sending := by simp [Server.idle]

/-- Who is past something stays past it when no thread moves back. -/
theorem rank_update {client : Nat → Option ClientThread} {t' : Option ClientThread} {n j : Nat}
    (ht : client i = some t) (hforth : ∀ u ∈ t', t.phase.rank ≤ u.phase.rank)
    (h : ∀ u, client j = some u → n ≤ u.phase.rank) :
    ∀ u, Function.update client i t' j = some u → n ≤ u.phase.rank := by
  intro u hu
  by_cases hj : j = i
  · subst hj
    rw [Function.update_self] at hu
    exact (h t ht).trans (hforth u hu)
  · rw [Function.update_of_ne hj] at hu
    exact h u hu

/-- A turn of a thread in which nothing is handled or sent. -/
theorem Ordered.quiet (h : Ordered backend s₀ s) (ht : s.client i = some t)
    {t' : Option ClientThread} (hclient : s'.client = Function.update s.client i t')
    (hforth : ∀ u ∈ t', t.phase.rank ≤ u.phase.rank ∧ ∀ answer, u.phase ≠ .sending answer)
    (haccounted : Accounted s') (hhandled : s'.handled = s.handled) (hsent : s'.sent = s.sent)
    (hstore : s'.store = s.store) (hcreated : s'.created = s.created) :
    Ordered backend s₀ s' where
  served := by rw [hhandled, hstore]; exact h.served
  once := by rw [hhandled]; exact h.once
  sentOnce := by rw [hsent]; exact h.sentOnce
  own := by rw [hsent, hhandled]; exact h.own
  accounted := haccounted
  started := by rw [hhandled, hcreated]; exact h.started
  past := by
    rw [hhandled, hclient]
    exact fun r hr => rank_update ht (fun u hu => (hforth u hu).1) (h.past r hr)
  gone := by
    rw [hsent, hclient]
    exact fun p hp => rank_update ht (fun u hu => (hforth u hu).1) (h.gone p hp)
  sending := by
    rw [hclient, hhandled]
    intro j u answer hu hphase
    by_cases hj : j = i
    · rw [hj, Function.update_self] at hu
      exact absurd hphase ((hforth u hu).2 answer)
    · rw [Function.update_of_ne hj] at hu
      exact h.sending j u answer hu hphase

/-- The turn in which a request is handled. -/
theorem Ordered.handle (h : Ordered backend s₀ s) (ht : s.client i = some t) {env : ClientEnv}
    {text answer : List Char} {store : σ} (hphase : t.phase = .received text)
    (hhandle : handleClient backend env text s.store = some (answer, store))
    (haccounted : Accounted s')
    (hs' : s' = { s.setPhase i t (.sending answer) with
      store := store
      handled := s.handled ++ [{ thread := i, connection := ⟨env, text⟩, answer := answer }] }) :
    Ordered backend s₀ s' := by
  subst hs'
  have hforth : ∀ u ∈ some { t with phase := ClientPhase.sending answer },
      t.phase.rank ≤ u.phase.rank := by
    intro u hu
    obtain rfl := Option.some.inj hu
    simp [hphase, ClientPhase.rank]
  have hnew : ∀ r ∈ s.handled, r.thread ≠ i := by
    intro r hr hi
    have hrank := h.past r hr t (hi ▸ ht)
    simp [hphase, ClientPhase.rank] at hrank
  refine ⟨⟨?_, ?_, h.sentOnce, ?_⟩, haccounted, ?_, ?_, ?_, ?_⟩
  · simp only [List.map_append, List.map_cons, List.map_nil]
    exact serve_concat backend h.served hhandle
  · rw [List.map_append, List.nodup_append]
    refine ⟨h.once, List.nodup_singleton _, ?_⟩
    intro a ha b hb
    obtain ⟨r, hr, rfl⟩ := List.mem_map.mp ha
    simp only [List.map_cons, List.map_nil, List.mem_singleton] at hb
    rw [hb]
    exact hnew r hr
  · intro p hp
    obtain ⟨r, hr, hown⟩ := h.own p hp
    exact ⟨r, List.mem_append_left _ hr, hown⟩
  · intro r hr
    rcases List.mem_append.mp hr with hr | hr
    · exact h.started r hr
    · rw [List.mem_singleton.mp hr]
      by_contra hlate
      rw [h.accounted.fresh i (not_lt.mp hlate)] at ht
      simp at ht
  · intro r hr
    rcases List.mem_append.mp hr with hr | hr
    · exact rank_update ht hforth (h.past r hr)
    · rw [List.mem_singleton.mp hr]
      intro u hu
      simp only [Server.setPhase, Function.update_self, Option.some.injEq] at hu
      rw [← hu]
      exact le_rfl
  · exact fun p hp => rank_update ht hforth (h.gone p hp)
  · intro j u a hu hsending
    by_cases hj : j = i
    · subst hj
      simp only [Server.setPhase, Function.update_self, Option.some.injEq] at hu
      rw [← hu] at hsending
      obtain rfl := ClientPhase.sending.inj hsending
      exact ⟨_, List.mem_append_right _ (List.mem_singleton_self _), rfl, rfl⟩
    · simp only [Server.setPhase, Function.update_of_ne hj] at hu
      obtain ⟨r, hr, hown⟩ := h.sending j u a hu hsending
      exact ⟨r, List.mem_append_left _ hr, hown⟩

/-- The turn in which an answer is sent, or lost. -/
theorem Ordered.send (h : Ordered backend s₀ s) (ht : s.client i = some t) {answer : List Char}
    (hphase : t.phase = .sending answer) (delivered : Bool) (haccounted : Accounted s')
    (hs' : s' = { s.setPhase i t .closing with
      sent := if delivered then s.sent ++ [(i, answer)] else s.sent }) :
    Ordered backend s₀ s' := by
  have hforth : ∀ u ∈ some { t with phase := ClientPhase.closing },
      t.phase.rank ≤ u.phase.rank ∧ ∀ a, u.phase ≠ .sending a := by
    intro u hu
    obtain rfl := Option.some.inj hu
    simp [hphase, ClientPhase.rank]
  have hlost : Ordered backend s₀ (s.setPhase i t .closing) :=
    h.quiet ht rfl hforth (h.accounted.setPhase ht _ (by rw [hphase]; simp) (by simp)) rfl rfl rfl rfl
  subst hs'
  cases delivered with
  | false => exact hlost
  | true =>
    refine ⟨⟨hlost.served, hlost.once, ?_, ?_⟩, haccounted, hlost.started, hlost.past, ?_,
      hlost.sending⟩
    · simp only [if_true, List.map_append, List.map_cons, List.map_nil]
      rw [List.nodup_append]
      refine ⟨h.sentOnce, List.nodup_singleton _, ?_⟩
      intro a ha b hb
      obtain ⟨p, hp, rfl⟩ := List.mem_map.mp ha
      rw [List.mem_singleton.mp hb]
      intro hi
      have hrank := h.gone p hp t (hi ▸ ht)
      simp [hphase, ClientPhase.rank] at hrank
    · intro p hp
      rcases List.mem_append.mp hp with hp | hp
      · exact h.own p hp
      · rw [List.mem_singleton.mp hp]
        exact h.sending i t answer ht hphase
    · intro p hp
      rcases List.mem_append.mp hp with hp | hp
      · exact hlost.gone p hp
      · rw [List.mem_singleton.mp hp]
        intro u hu
        simp only [Server.setPhase, Function.update_self, Option.some.injEq] at hu
        rw [← hu]
        exact le_rfl

/-- What a turn of the loop does to the requests: nothing, but for a
thread that is new and has received nothing. -/
theorem loopTurn_frame {turn : LoopTurn} (hturn : loopTurn turn s = some s') :
    s'.listening = s.listening ∧ s'.store = s.store ∧ s'.handled = s.handled ∧
      s'.sent = s.sent ∧ s.created ≤ s'.created ∧
      ∀ i t, s'.client i = some t → s.client i = some t ∨ (i = s.created ∧ t.phase.rank = 0) := by
  have hsame : ∀ i t, s.client i = some t →
      s.client i = some t ∨ (i = s.created ∧ t.phase.rank = 0) := fun _ _ ht => Or.inl ht
  unfold loopTurn at hturn
  split at hturn
  · obtain rfl := Option.some.inj hturn
    exact ⟨rfl, rfl, rfl, rfl, le_rfl, hsame⟩
  · split at hturn
    · simp at hturn
    · obtain rfl := Option.some.inj hturn
      exact ⟨rfl, rfl, rfl, rfl, le_rfl, hsame⟩
  · obtain rfl := Option.some.inj hturn
    exact ⟨rfl, rfl, rfl, rfl, le_rfl, hsame⟩
  · split at hturn
    · simp at hturn
    · obtain rfl := Option.some.inj hturn
      exact ⟨rfl, rfl, rfl, rfl, le_rfl, hsame⟩
  · obtain rfl := Option.some.inj hturn
    exact ⟨rfl, rfl, rfl, rfl, le_rfl, hsame⟩
  · rename_i client info _
    obtain rfl := Option.some.inj hturn
    refine ⟨rfl, rfl, rfl, rfl, Nat.le_succ _, fun i t ht => ?_⟩
    by_cases hi : i = s.created
    · simp only [hi, Function.update_self, Option.some.injEq] at ht
      exact Or.inr ⟨hi, by rw [← ht]; rfl⟩
    · simp only [Function.update_of_ne hi] at ht
      exact Or.inl ht
  · obtain rfl := Option.some.inj hturn
    exact ⟨rfl, rfl, rfl, rfl, le_rfl, hsame⟩
  · obtain rfl := Option.some.inj hturn
    exact ⟨rfl, rfl, rfl, rfl, le_rfl, hsame⟩
  · simp at hturn

theorem Ordered.loop (h : Ordered backend s₀ s) {turn : LoopTurn}
    (hturn : loopTurn turn s = some s') : Ordered backend s₀ s' := by
  obtain ⟨-, hstore, hhandled, hsent, hcreated, hclient⟩ := loopTurn_frame hturn
  have hstarted : ∀ p ∈ s.sent, p.1 < s.created := by
    intro p hp
    obtain ⟨r, hr, hthread, -⟩ := h.own p hp
    rw [← hthread]
    exact h.started r hr
  refine ⟨⟨?_, ?_, ?_, ?_⟩, h.accounted.loop hturn, ?_, ?_, ?_, ?_⟩
  · rw [hhandled, hstore]; exact h.served
  · rw [hhandled]; exact h.once
  · rw [hsent]; exact h.sentOnce
  · rw [hsent, hhandled]; exact h.own
  · rw [hhandled]
    exact fun r hr => (h.started r hr).trans_le hcreated
  · rw [hhandled]
    intro r hr t ht
    rcases hclient _ t ht with ht | ⟨hnew, -⟩
    · exact h.past r hr t ht
    · exact absurd hnew (h.started r hr).ne
  · rw [hsent]
    intro p hp t ht
    rcases hclient _ t ht with ht | ⟨hnew, -⟩
    · exact h.gone p hp t ht
    · exact absurd hnew (hstarted p hp).ne
  · rw [hhandled]
    intro i t answer ht hphase
    rcases hclient i t ht with ht | ⟨-, hrank⟩
    · exact h.sending i t answer ht hphase
    · simp [hphase, ClientPhase.rank] at hrank

theorem Ordered.client (h : Ordered backend s₀ s) (ht : s.client i = some t) {turn : ClientTurn}
    (hturn : clientTurn backend i t turn s = some s') : Ordered backend s₀ s' := by
  have haccounted := h.accounted.client ht hturn
  unfold clientTurn at hturn
  split at hturn
  · rename_i received hphase
    obtain rfl := Option.some.inj hturn
    refine h.quiet ht rfl ?_ haccounted rfl rfl rfl rfl
    intro u hu
    obtain rfl := Option.some.inj hu
    rw [hphase]
    split <;> simp [ClientPhase.rank]
  · rename_i env text hphase
    cases hhandle : handleClient backend env text s.store with
    | none => simp [hhandle] at hturn
    | some answered =>
      rw [hhandle] at hturn
      obtain rfl := Option.some.inj hturn
      exact h.handle ht hphase hhandle haccounted rfl
  · rename_i delivered answer hphase
    obtain rfl := Option.some.inj hturn
    exact h.send ht hphase delivered haccounted rfl
  · rename_i hphase
    obtain rfl := Option.some.inj hturn
    refine h.quiet ht rfl ?_ haccounted rfl rfl rfl rfl
    intro u hu
    obtain rfl := Option.some.inj hu
    simp [hphase, ClientPhase.rank]
  · obtain rfl := Option.some.inj hturn
    exact h.quiet ht rfl (fun u hu => by simp at hu) haccounted rfl rfl rfl rfl
  · simp at hturn

theorem Ordered.turn (turn : ServerTurn) (h : Ordered backend s₀ s) :
    Ordered backend s₀ (takeServerTurn backend turn s).2 := by
  unfold takeServerTurn
  split
  · rename_i s' hturn
    cases turn with
    | loop turn => exact h.loop hturn
    | client i turn =>
      obtain ⟨t, ht, hturn⟩ := Option.bind_eq_some_iff.mp hturn
      exact h.client ht hturn
  · exact h

/-- What a turn of a thread leaves alone. -/
theorem clientTurn_frame {turn : ClientTurn} (hturn : clientTurn backend i t turn s = some s') :
    s'.listening = s.listening ∧ s.handled <+: s'.handled := by
  unfold clientTurn at hturn
  split at hturn
  · obtain rfl := Option.some.inj hturn
    exact ⟨rfl, List.prefix_rfl⟩
  · rename_i env text _
    cases hhandle : handleClient backend env text s.store with
    | none => simp [hhandle] at hturn
    | some answered =>
      rw [hhandle] at hturn
      obtain rfl := Option.some.inj hturn
      exact ⟨rfl, List.prefix_append _ _⟩
  · obtain rfl := Option.some.inj hturn
    exact ⟨rfl, List.prefix_rfl⟩
  · obtain rfl := Option.some.inj hturn
    exact ⟨rfl, List.prefix_rfl⟩
  · obtain rfl := Option.some.inj hturn
    exact ⟨rfl, List.prefix_rfl⟩
  · simp at hturn

/-- A turn handles one request more, or none. -/
theorem turn_frame (backend : Backend σ) (turn : ServerTurn) (s : Server σ) :
    (takeServerTurn backend turn s).2.listening = s.listening ∧
      s.handled <+: (takeServerTurn backend turn s).2.handled := by
  unfold takeServerTurn
  split
  · rename_i s' hturn
    cases turn with
    | loop turn =>
      obtain ⟨hlistening, -, hhandled, -⟩ := loopTurn_frame hturn
      exact ⟨hlistening, by rw [hhandled]⟩
    | client i turn =>
      obtain ⟨t, -, hturn⟩ := Option.bind_eq_some_iff.mp hturn
      exact clientTurn_frame hturn
  · exact ⟨rfl, List.prefix_rfl⟩

end Order

/-! ## 4. Every order of turns -/

section Runs

variable {σ : Type} (backend : Backend σ)

theorem ordered_run {s₀ : σ} {s : Server σ} (h : Ordered backend s₀ s) (turns : List ServerTurn) :
    Ordered backend s₀ (finalState (takeServerTurn backend) turns s) := by
  induction turns generalizing s with
  | nil => exact h
  | cons turn turns ih => exact ih (h.turn turn)

theorem run_frame (turns : List ServerTurn) (s : Server σ) :
    (finalState (takeServerTurn backend) turns s).listening = s.listening ∧
      s.handled <+: (finalState (takeServerTurn backend) turns s).handled := by
  induction turns generalizing s with
  | nil => exact ⟨rfl, List.prefix_rfl⟩
  | cons turn turns ih =>
    have hturn := turn_frame backend turn s
    have hrest := ih (takeServerTurn backend turn s).2
    exact ⟨hrest.1.trans hturn.1, hturn.2.trans hrest.2⟩

/-- Whatever the order of the turns, and wherever they are broken off:
the requests handled so far were handled one after another, each thread's
once, what was sent is each thread's own answer, sent once, and nothing
later comes before a request that has been handled. -/
theorem connections_linearized (listening : Socket) (s₀ : σ) (turns later : List ServerTurn) :
    let s := finalState (takeServerTurn backend) turns (Server.idle listening s₀)
    let s' := finalState (takeServerTurn backend) (turns ++ later) (Server.idle listening s₀)
    InOrder backend s₀ s ∧ s.handled <+: s'.handled := by
  refine ⟨(ordered_run backend (ordered_idle backend listening s₀) turns).toInOrder, ?_⟩
  have hlater : finalState (takeServerTurn backend) (turns ++ later) (Server.idle listening s₀)
      = finalState (takeServerTurn backend) later
          (finalState (takeServerTurn backend) turns (Server.idle listening s₀)) :=
    List.foldl_append
  rw [hlater]
  exact (run_frame backend later _).2

/-- No socket closed and no block freed that was not held; what is held
has exactly one owner; and at rest nothing is held but the listener. -/
structure Balanced (s : Server σ) : Prop where
  closedOnce : s.sockets.faults = []
  freedOnce : s.infos.faults = []
  socketOwner : ∀ x ∈ s.sockets.held, ∃! o, s.socketOf o = some x
  infoOwner : ∀ x ∈ s.infos.held, ∃! o, s.infoOf o = some x
  atRest : s.loop = .accepting → (∀ i, s.client i = none) →
    (∀ x, x ∈ s.sockets.held ↔ x = s.listening) ∧ s.infos.held = []

theorem Accounted.balanced {s : Server σ} (h : Accounted s) : Balanced s where
  closedOnce := h.sockets.noFault
  freedOnce := h.infos.noFault
  socketOwner := by
    intro x hx
    obtain ⟨o, ho⟩ := (h.sockets.held_iff x).mp hx
    exact ⟨o, ho, fun o' ho' => h.sockets.unique ho' ho⟩
  infoOwner := by
    intro x hx
    obtain ⟨o, ho⟩ := (h.infos.held_iff x).mp hx
    exact ⟨o, ho, fun o' ho' => h.infos.unique ho' ho⟩
  atRest := by
    intro hloop hclient
    refine ⟨fun x => (h.sockets.held_iff x).trans ⟨?_, ?_⟩, h.infos.held_eq_nil ?_⟩
    · rintro ⟨o, ho⟩
      cases o with
      | listener => exact (Option.some.inj ho).symm
      | loop => simp [Server.socketOf, hloop, LoopPhase.socket] at ho
      | client i => simp [Server.socketOf, hclient] at ho
    · rintro rfl
      exact ⟨.listener, rfl⟩
    · intro o
      cases o with
      | listener => rfl
      | loop => simp [Server.infoOf, hloop, LoopPhase.info]
      | client i => simp [Server.infoOf, hclient]

/-- `start_http_server` leaves nothing open when it returns -1, and while
it runs it is balanced, whatever the order of the turns. -/
theorem connections_released (socket : Option Socket) (setsockopt bind listen : Bool) (s₀ : σ)
    (turns : List ServerTurn) :
    (∀ sockets, startHttpServer socket setsockopt bind listen s₀ = .error sockets →
      sockets.held = [] ∧ sockets.faults = []) ∧
    (∀ server, startHttpServer socket setsockopt bind listen s₀ = .ok server →
      socket = some server.listening ∧
      (finalState (takeServerTurn backend) turns server).listening = server.listening ∧
      Balanced (finalState (takeServerTurn backend) turns server)) := by
  cases socket with
  | none => exact ⟨by simp [startHttpServer, Ledger.empty], by simp [startHttpServer]⟩
  | some serverSocket =>
    constructor
    · intro sockets hsockets
      have hclosed : (Ledger.empty.acquire serverSocket).release serverSocket = sockets := by
        cases setsockopt <;> cases bind <;> cases listen <;>
          simp [startHttpServer] at hsockets
        all_goals exact hsockets
      rw [← hclosed]
      simp [Ledger.release, Ledger.acquire, Ledger.empty]
    · intro server hserver
      have hidle : Server.idle serverSocket s₀ = server := by
        cases setsockopt <;> cases bind <;> cases listen <;>
          simp [startHttpServer] at hserver
        exact hserver
      subst hidle
      exact ⟨rfl, (run_frame backend turns _).1,
        (ordered_run backend (ordered_idle backend serverSocket s₀) turns).accounted.balanced⟩

end Runs

end DockerClone.Http
