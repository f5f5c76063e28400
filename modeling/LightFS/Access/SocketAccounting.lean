import LightFS.Access.HttpServer

/-!
# The sockets of the HTTP server

Every socket that `spdk_sock_accept` returns should belong to one connection until it is closed, or
the server runs out of descriptors. `http_conn_accept` (`src/access/http_server.c`) closes a socket
over the limit of connections and gives one below it to a new connection, unless the memory for the
connection or for its buffer is not there: then the socket is neither closed nor given to anybody.
`http_conn_close` takes a connection out of the list and closes its socket, in the loop of
`http_server_poll`, in `check_timeouts` and in `http_server_destroy`.

The server here is that of `serverMachine` with `conn_count`, the sockets of its connections, the
sockets that were closed and the outcomes of the allocations (`socketMachine`). Every step keeps the
sockets apart: those of connections, the closed ones and the lost ones are together the sockets that
were returned, each once (`Accounts.step`). So the accounts balance at every moment of a run if and
only if no allocation fails below the limit (`sockets_accounted_iff`). While the allocations succeed
this is the server of `serverMachine` (`allocatingMachine_simulates`).

Sockets are named by numbers, in the order in which they are returned.

## Main definitions

* `SocketServer`, `SocketStep`, `socketMachine`.
* `SocketServer.Accounted`, `LosesSocket`.
* `Accounts` — the invariant, with the sockets that are lost.
-/

namespace LightFS.Access

open Library

variable {L : Llhttp} {S : Service}

/-! ### The server and its sockets -/

/-- `http_server_t`, with `conn_count`, `running` and the sockets. -/
structure SocketServer (L : Llhttp) (S : Service) where
  server : HttpServer L S
  connCount : UInt32
  running : Bool
  /-- `conn->sock`, for the name of a connection. -/
  sockOf : ℕ → ℕ
  /-- The number of sockets that `spdk_sock_accept` has returned. -/
  returned : ℕ
  /-- The sockets that `spdk_sock_close` was called for. -/
  closed : List ℕ

/-- The names of the connections in `conn_list`. -/
def HttpServer.ids (server : HttpServer L S) : List ℕ := server.connList.map ServerConn.id

namespace SocketServer

/-- `http_server_create`. -/
def create (L : Llhttp) (S : Service) (config : HttpServerConfig) : SocketServer L S where
  server := httpServerCreate L S config
  connCount := 0
  running := true
  sockOf := id
  returned := 0
  closed := []

/-- `http_conn_accept` for the next socket, with the outcomes of its two allocations. -/
def accept (s : SocketServer L S) (now : UInt64) (connAllocated bufAllocated : Bool) :
    SocketServer L S :=
  let sock := s.returned
  if s.server.maxConnections ≤ s.connCount then
    { s with returned := sock + 1, closed := s.closed ++ [sock] }
  else if ¬ connAllocated then { s with returned := sock + 1 }
  else if ¬ bufAllocated then { s with returned := sock + 1 }
  else
    { s with
      returned := sock + 1
      server := { s.server with
        connList := s.server.connList ++ [s.server.newConn now]
        nextId := s.server.nextId + 1 }
      connCount := s.connCount + 1
      sockOf := Function.update s.sockOf s.server.nextId sock }

/-- The calls of `http_conn_close` that lead to `server`, for the connections `ids`. -/
def closeConns (s : SocketServer L S) (server : HttpServer L S) (ids : List ℕ) :
    SocketServer L S :=
  { s with
    server
    connCount := s.connCount - UInt32.ofNat ids.length
    closed := s.closed ++ ids.map s.sockOf }

/-- `http_server_destroy`. -/
def destroy (s : SocketServer L S) : SocketServer L S :=
  { s.closeConns { s.server with connList := [] } s.server.ids with running := false }

end SocketServer

/-- What happens to the server. -/
inductive SocketStep where
  /-- A step of a poll, with the outcomes of the allocations if it accepts a socket. -/
  | server (step : ServerStep) (connAllocated bufAllocated : Bool)
  /-- A connection is closed, for any reason. -/
  | close (id : ℕ)
  /-- `http_server_destroy`. -/
  | destroy

def ConnEvent.isClose : ConnEvent → Bool
  | close _ => true
  | _ => false

/-- The connections for which `http_conn_close` is called. -/
def closedIds (events : List (ℕ × ConnEvent)) : List ℕ :=
  (events.filter fun e => e.2.isClose).map Prod.fst

/-- The server with its sockets, step by step; `none` once a call does not return. A server that was
destroyed does nothing. -/
def socketMachine (L : Llhttp) (S : Service) :
    Machine (Option (SocketServer L S)) SocketStep (List (ℕ × ConnEvent)) where
  step
    | none, _ => (none, [])
    | some s, op =>
      if s.running then
        match op with
        | .server (.accept now) connAllocated bufAllocated =>
          (some (s.accept now connAllocated bufAllocated), [])
        | .server step _ _ =>
          match (serverMachine L S).step (some s.server) step with
          | (none, events) => (none, events)
          | (some server, events) => (some (s.closeConns server (closedIds events)), events)
        | .close id =>
          if id ∈ s.server.ids then (some (s.closeConns (s.server.close id) [id]), [])
          else (some s, [])
        | .destroy => (some s.destroy, [])
      else (some s, [])

/-- The number of connections that own a socket. -/
def SocketServer.owners (s : SocketServer L S) (sock : ℕ) : ℕ :=
  s.server.connList.countP fun c => s.sockOf c.id = sock

/-- The accounts balance: each socket is owned by exactly one connection or closed, and not both;
`conn_count` is the number of connections, and at most `max_connections`. -/
structure SocketServer.Accounted (s : SocketServer L S) : Prop where
  sockets : ∀ sock < s.returned, s.owners sock = 1 ∧ sock ∉ s.closed ∨
    s.owners sock = 0 ∧ sock ∈ s.closed
  count_eq : s.connCount.toNat = s.server.connList.length
  count_le : s.connCount ≤ s.server.maxConnections

/-- An allocation of `http_conn_accept` fails. -/
def LosesSocket : Option (SocketServer L S) → SocketStep → Prop
  | some s, .server (.accept _) connAllocated bufAllocated =>
    s.running ∧ s.connCount < s.server.maxConnections ∧ ¬ (connAllocated ∧ bufAllocated)
  | _, _ => False

/-! ### What a step does to the connections -/

theorem closedIds_named (id : ℕ) (events : List ConnEvent) :
    closedIds (named id events) = List.replicate (events.countP (·.isClose)) id := by
  rw [closedIds, named, List.filter_map, List.map_map, List.countP_eq_length_filter]
  exact List.map_const'

/-- In the protocol only a close leads to the phase `closed`, and it always does. -/
theorem isClose_eq_of_next {phase next : ConnPhase} {e : ConnEvent} (h : phase.next e = some next) :
    e.isClose = decide (next = .closed) := by
  rw [ConnPhase.next.eq_def] at h
  split at h
  all_goals
    try split_ifs at h
    cases h <;> rfl

/-- In a connection that follows the protocol there is one close, the last event. -/
theorem countP_isClose_of_follow {phase phase' : ConnPhase} {events : List ConnEvent}
    (h : follow phase events = some phase') (hphase : phase ≠ .closed) :
    events.countP (·.isClose) = if phase' = .closed then 1 else 0 := by
  induction events generalizing phase with
  | nil =>
    obtain rfl := Option.some.inj h
    rw [if_neg hphase]
    rfl
  | cons e events ih =>
    obtain ⟨next, hnext, hrest⟩ := Option.bind_eq_some_iff.mp h
    rw [List.countP_cons, isClose_eq_of_next hnext]
    by_cases hclosed : next = .closed
    · -- nothing follows
      subst hclosed
      rcases events with _ | ⟨e', events⟩
      · obtain rfl := Option.some.inj hrest
        rfl
      · rw [follow, next_closed] at hrest
        cases hrest
    · rw [ih hrest hclosed, decide_eq_false hclosed]
      rfl

theorem phaseOf_ne_closed (state : ConnState) : phaseOf state ≠ .closed := by
  rw [phaseOf]
  split_ifs <;> decide

/-- The connections `ids` are closed between two servers, and the others stay. -/
structure Closes (server server' : HttpServer L S) (ids : List ℕ) : Prop where
  ok : ServerOk server'
  maxConnections : server'.maxConnections = server.maxConnections
  perm : (server'.ids ++ ids).Perm server.ids

section Closes

variable {server server' : HttpServer L S} {c : ServerConn L S} {id : ℕ}

theorem closes_refl (hok : ServerOk server) : Closes server server [] :=
  ⟨hok, rfl, by rw [List.append_nil]⟩

theorem closes_set (hok : ServerOk server) (hfind : server.find id = some c)
    {conn' : HttpConn L S} {lastActiveTs : UInt64} (hc : ConnOk conn') :
    Closes server (server.set { c with conn := conn', lastActiveTs := lastActiveTs }) [] := by
  obtain ⟨hmem, -⟩ := hok.find_iff.mp hfind
  have hkey : c.id ∈ server.connList.map ServerConn.id := List.mem_map_of_mem hmem
  have hids : (server.set { c with conn := conn', lastActiveTs := lastActiveTs }).ids =
      server.ids := map_key_upsert_of_mem hkey
  refine ⟨hok.set (hok.id_lt c hmem) hc, rfl, ?_⟩
  rw [List.append_nil, hids]

theorem closes_close (hok : ServerOk server) (hid : id ∈ server.ids) :
    Closes server (server.close id) [id] :=
  ⟨hok.close id, rfl, perm_eraseKey hid⟩

theorem mem_ids_of_find (hok : ServerOk server) (hfind : server.find id = some c) :
    id ∈ server.ids := by
  obtain ⟨hmem, rfl⟩ := hok.find_iff.mp hfind
  exact List.mem_map_of_mem hmem

/-- A connection that is polled is closed if and only if it says so. -/
theorem closes_pollConn (hok : ServerOk server) (hfind : server.find id = some c)
    {recv : RecvResult} {inline : Bool} {now : UInt64} {events : List (ℕ × ConnEvent)}
    (h : pollConn server c recv inline now = (some server', events)) :
    Closes server server' (closedIds events) := by
  obtain ⟨hmem, rfl⟩ := hok.find_iff.mp hfind
  rw [pollConn] at h
  rcases hpoll : pollReadable c.conn recv.bytes inline with _ | ⟨conn, events'⟩ <;>
    rw [hpoll] at h
  · cases h
  obtain ⟨hc, hevents⟩ := follow_pollReadable (hok.conn_ok c hmem) hpoll
  have hcount := countP_isClose_of_follow hevents (phaseOf_ne_closed _)
  rw [pollEvents, polledPhase] at hcount
  dsimp only at h
  by_cases hclosing : conn.state = .closing
  · rw [if_pos hclosing, if_pos hclosing, if_pos rfl] at hcount
    rw [if_pos hclosing] at h
    cases h
    rw [closedIds_named, hcount]
    exact closes_close hok (mem_ids_of_find hok hfind)
  · rw [if_neg hclosing, if_neg hclosing, if_neg (phaseOf_ne_closed _)] at hcount
    rw [if_neg hclosing] at h
    cases h
    rw [closedIds_named, hcount]
    exact closes_set hok hfind hc

/-- **A step of a poll** closes the connections that it says it closes. -/
theorem closes_step (hok : ServerOk server) {op : ServerStep} (hop : ∀ now, op ≠ .accept now)
    {events : List (ℕ × ConnEvent)}
    (h : (serverMachine L S).step (some server) op = (some server', events)) :
    Closes server server' (closedIds events) := by
  cases op with
  | writeComplete id =>
    rcases hfind : server.find id with _ | c <;> simp only [serverMachine, hfind] at h <;> cases h
    · exact closes_refl hok
    · obtain ⟨hc, hevents⟩ := follow_writeCompleted (hok.conn_ok c (hok.find_iff.mp hfind).1)
      rw [closedIds_named, countP_isClose_of_follow hevents (phaseOf_ne_closed _),
        if_neg (phaseOf_ne_closed _)]
      exact closes_set hok hfind hc
  | accept now => exact absurd rfl (hop now)
  | poll id recv inline now =>
    rcases hfind : server.find id with _ | c <;> simp only [serverMachine, hfind] at h
    · cases h
      exact closes_refl hok
    exact closes_pollConn hok hfind h
  | checkTimeout id now =>
    rcases hfind : server.find id with _ | c <;> simp only [serverMachine, hfind] at h
    · cases h
      exact closes_refl hok
    split_ifs at h
    · cases h
      exact closes_close hok (mem_ids_of_find hok hfind)
    · cases h
      exact closes_refl hok
  | timeoutsChecked now =>
    cases h
    exact ⟨⟨hok.nodup, hok.id_lt, hok.conn_ok⟩, rfl, List.Perm.of_eq (List.append_nil _)⟩

end Closes

/-! ### The accounts -/

/-- The sockets of the connections. -/
def SocketServer.held (s : SocketServer L S) : List ℕ := s.server.ids.map s.sockOf

/-- The sockets of connections, the closed ones and the lost ones are those that were returned, each
of them once. -/
structure Accounts (s : SocketServer L S) (lost : List ℕ) : Prop where
  ok : ServerOk s.server
  count_eq : s.connCount.toNat = s.server.connList.length
  count_le : s.connCount ≤ s.server.maxConnections
  perm : (s.held ++ s.closed ++ lost).Perm (List.range s.returned)

section Accounts

variable {s s' : SocketServer L S} {lost : List ℕ}

theorem owners_eq (s : SocketServer L S) (sock : ℕ) : s.owners sock = s.held.count sock := by
  rw [SocketServer.held, HttpServer.ids, List.map_map, List.count_eq_countP, List.countP_map]
  refine List.countP_congr fun c _ => ?_
  simp only [Function.comp_apply, decide_eq_true_eq, beq_iff_eq]

/-- With no lost socket the accounts balance, and with one they do not. -/
theorem Accounts.accounted_iff (h : Accounts s lost) : s.Accounted ↔ lost = [] := by
  have htotal : ∀ sock < s.returned,
      s.owners sock + s.closed.count sock + lost.count sock = 1 := by
    intro sock hsock
    have hcount := h.perm.count_eq sock
    rw [List.count_append, List.count_append, ← owners_eq,
      List.Nodup.count List.nodup_range, if_pos (List.mem_range.mpr hsock)] at hcount
    exact hcount
  constructor
  · intro haccounted
    refine List.eq_nil_iff_forall_not_mem.mpr fun sock hsock => ?_
    have hreturned : sock < s.returned :=
      List.mem_range.mp (h.perm.subset (List.mem_append_right _ hsock))
    have hlost := List.count_pos_iff.mpr hsock
    have hone := htotal sock hreturned
    rcases haccounted.sockets sock hreturned with ⟨howned, -⟩ | ⟨-, hclosed⟩
    · omega
    · have hclosed := List.count_pos_iff.mpr hclosed
      omega
  · rintro rfl
    refine ⟨fun sock hsock => ?_, h.count_eq, h.count_le⟩
    have hone := htotal sock hsock
    rw [List.count_nil, Nat.add_zero] at hone
    by_cases hclosed : sock ∈ s.closed
    · have hpos := List.count_pos_iff.mpr hclosed
      exact Or.inr ⟨by omega, hclosed⟩
    · rw [List.count_eq_zero_of_not_mem hclosed] at hone
      exact Or.inl ⟨hone, hclosed⟩

/-- Connections are closed with their sockets. -/
theorem Accounts.closeConns (h : Accounts s lost) {server : HttpServer L S} {ids : List ℕ}
    (hcloses : Closes s.server server ids) : Accounts (s.closeConns server ids) lost := by
  have hlength : server.connList.length + ids.length = s.server.connList.length := by
    have hlen := hcloses.perm.length_eq
    rwa [List.length_append, HttpServer.ids, HttpServer.ids, List.length_map,
      List.length_map] at hlen
  have hlt := s.connCount.toNat_lt
  have hids : (UInt32.ofNat ids.length).toNat = ids.length :=
    UInt32.toNat_ofNat_of_lt' (by rw [h.count_eq] at hlt; exact Nat.lt_of_le_of_lt (by omega) hlt)
  have hcount : (s.connCount - UInt32.ofNat ids.length).toNat = server.connList.length := by
    rw [UInt32.toNat_sub_of_le _ _ (by rw [UInt32.le_iff_toNat_le, hids, h.count_eq]; omega), hids,
      h.count_eq]
    omega
  refine ⟨hcloses.ok, hcount, ?_, ?_⟩
  · have hle := UInt32.le_iff_toNat_le.mp h.count_le
    refine UInt32.le_iff_toNat_le.mpr ?_
    show (s.connCount - UInt32.ofNat ids.length).toNat ≤ server.maxConnections.toNat
    rw [hcount, hcloses.maxConnections]
    rw [h.count_eq] at hle
    omega
  · refine List.Perm.trans (List.Perm.append_right lost ?_) h.perm
    show (server.ids.map s.sockOf ++ (s.closed ++ ids.map s.sockOf)).Perm (s.held ++ s.closed)
    have hheld : (server.ids.map s.sockOf ++ ids.map s.sockOf).Perm s.held := by
      rw [← List.map_append]
      exact hcloses.perm.map s.sockOf
    refine List.Perm.trans ?_ (hheld.append_right s.closed)
    rw [List.append_assoc]
    exact List.Perm.append_left _ List.perm_append_comm

theorem Accounts.destroy (h : Accounts s lost) : Accounts s.destroy lost := by
  have hcloses : Closes s.server { s.server with connList := [] } s.server.ids :=
    ⟨⟨keysNodup_nil, fun c hc => absurd hc List.not_mem_nil,
      fun c hc => absurd hc List.not_mem_nil⟩, rfl, List.Perm.refl _⟩
  have hclosed := h.closeConns hcloses
  exact ⟨hclosed.ok, hclosed.count_eq, hclosed.count_le, hclosed.perm⟩

theorem perm_range_succ {l l' : List ℕ} {n : ℕ} (h : l.Perm (List.range n))
    (h' : l'.Perm (n :: l)) : l'.Perm (List.range (n + 1)) := by
  rw [List.range_succ]
  exact h'.trans ((h.cons n).trans (List.perm_append_singleton n _).symm)

section Accept

variable (h : Accounts s lost) (now : UInt64) {connAllocated bufAllocated : Bool}

include h

/-- Over the limit the socket is closed. -/
theorem Accounts.accept_of_le (hfull : s.server.maxConnections ≤ s.connCount) :
    Accounts (s.accept now connAllocated bufAllocated) lost := by
  rw [SocketServer.accept, if_pos hfull]
  refine ⟨h.ok, h.count_eq, h.count_le, perm_range_succ h.perm ?_⟩
  show (s.held ++ (s.closed ++ [s.returned]) ++ lost).Perm _
  rw [← List.append_assoc s.held, List.append_assoc, List.singleton_append]
  exact List.perm_middle

/-- Without memory the socket is lost. -/
theorem Accounts.accept_of_fail (hroom : s.connCount < s.server.maxConnections)
    (hfail : ¬ (connAllocated ∧ bufAllocated)) :
    Accounts (s.accept now connAllocated bufAllocated) (lost ++ [s.returned]) := by
  have hlost : s.accept now connAllocated bufAllocated = { s with returned := s.returned + 1 } := by
    rw [SocketServer.accept, if_neg (UInt32.not_le.mpr hroom)]
    by_cases hconn : connAllocated
    · rw [if_neg (not_not.mpr hconn), if_pos fun hbuf => hfail ⟨hconn, hbuf⟩]
    · rw [if_pos hconn]
  rw [hlost]
  refine ⟨h.ok, h.count_eq, h.count_le, perm_range_succ h.perm ?_⟩
  show (s.held ++ s.closed ++ (lost ++ [s.returned])).Perm _
  rw [← List.append_assoc]
  exact List.perm_append_singleton _ _

/-- The list of connections is full when `conn_count` says so. -/
theorem Accounts.full_iff : s.server.maxConnections.toNat ≤ s.server.connList.length ↔
    s.server.maxConnections ≤ s.connCount := by
  rw [UInt32.le_iff_toNat_le, h.count_eq]

/-- Otherwise there is one more connection, with the socket. -/
theorem Accounts.accept_eq_of_lt (hroom : s.connCount < s.server.maxConnections) :
    s.accept now true true =
      { s with
        returned := s.returned + 1
        server := s.server.accept now
        connCount := s.connCount + 1
        sockOf := Function.update s.sockOf s.server.nextId s.returned } := by
  have hnot := UInt32.not_le.mpr hroom
  rw [SocketServer.accept, if_neg hnot, if_neg (not_not.mpr rfl), if_neg (not_not.mpr rfl),
    HttpServer.accept, if_neg (h.full_iff.not.mpr hnot)]

theorem Accounts.accept_of_lt (hroom : s.connCount < s.server.maxConnections) :
    Accounts (s.accept now true true) lost := by
  have hlt := UInt32.lt_iff_toNat_lt.mp hroom
  have hmax := s.server.maxConnections.toNat_lt
  have hlist : (s.server.accept now).connList = s.server.connList ++ [s.server.newConn now] := by
    rw [HttpServer.accept, if_neg (h.full_iff.not.mpr (UInt32.not_le.mpr hroom))]
  have hsame : (s.server.accept now).maxConnections = s.server.maxConnections := by
    rw [HttpServer.accept]
    split_ifs <;> rfl
  have hcount : (s.connCount + 1).toNat = s.connCount.toNat + 1 := by
    rw [UInt32.toNat_add]
    exact Nat.mod_eq_of_lt (Nat.lt_of_le_of_lt hlt hmax)
  have hheld : (s.server.accept now).ids.map (Function.update s.sockOf s.server.nextId s.returned) =
      s.held ++ [s.returned] := by
    rw [HttpServer.ids, hlist, List.map_append, List.map_append]
    congr 1
    · refine List.map_congr_left fun id hid => Function.update_of_ne ?_ _ _
      obtain ⟨c, hc, rfl⟩ := List.mem_map.mp hid
      exact Nat.ne_of_lt (h.ok.id_lt c hc)
    · exact congrArg ([·]) (Function.update_self _ _ _)
  rw [h.accept_eq_of_lt now hroom]
  refine ⟨h.ok.accept now, ?_, ?_, perm_range_succ h.perm ?_⟩
  · show (s.connCount + 1).toNat = (s.server.accept now).connList.length
    rw [hcount, hlist, List.length_append, List.length_singleton, h.count_eq]
  · refine UInt32.le_iff_toNat_le.mpr ?_
    show (s.connCount + 1).toNat ≤ (s.server.accept now).maxConnections.toNat
    rw [hcount, hsame]
    exact hlt
  · show (((s.server.accept now).ids.map _) ++ s.closed ++ lost).Perm _
    simp only [hheld, List.append_assoc, List.singleton_append]
    exact List.perm_middle

/-- The connections after an accept are those of the server without sockets. -/
theorem Accounts.server_accept : (s.accept now true true).server = s.server.accept now := by
  by_cases hroom : s.connCount < s.server.maxConnections
  · rw [h.accept_eq_of_lt now hroom]
  · have hfull := UInt32.not_lt.mp hroom
    rw [SocketServer.accept, if_pos hfull, HttpServer.accept, if_pos (h.full_iff.mpr hfull)]

end Accept

/-- The steps that accept no socket are those of the server without sockets. -/
theorem step_server_of_ne {op : ServerStep} (hrunning : s.running = true)
    (hop : ∀ now, op ≠ .accept now) (connAllocated bufAllocated : Bool) :
    (socketMachine L S).step (some s) (.server op connAllocated bufAllocated) =
      (((serverMachine L S).step (some s.server) op).1.map fun server =>
        s.closeConns server (closedIds ((serverMachine L S).step (some s.server) op).2),
        ((serverMachine L S).step (some s.server) op).2) := by
  cases op with
  | accept now => exact absurd rfl (hop now)
  | writeComplete | poll | checkTimeout | timeoutsChecked =>
    simp only [socketMachine, hrunning, if_true]
    split
    · rename_i hserver
      rw [hserver]
      rfl
    · rename_i hserver
      rw [hserver]
      rfl

/-- **One step.** The accounts stay as they are unless a socket is lost. -/
theorem Accounts.step (h : Accounts s lost) {op : SocketStep} (hop : ¬ LosesSocket (some s) op)
    (hstep : ((socketMachine L S).step (some s) op).1 = some s') : Accounts s' lost := by
  by_cases hrunning : s.running
  swap
  · simp only [socketMachine, hrunning] at hstep
    cases hstep
    exact h
  cases op with
  | close id =>
    simp only [socketMachine, hrunning, if_true] at hstep
    split_ifs at hstep with hid
    · cases hstep
      exact h.closeConns (closes_close h.ok hid)
    · cases hstep
      exact h
  | destroy =>
    simp only [socketMachine, hrunning, if_true] at hstep
    cases hstep
    exact h.destroy
  | server op connAllocated bufAllocated =>
    by_cases haccept : ∃ now, op = .accept now
    · obtain ⟨now, rfl⟩ := haccept
      simp only [socketMachine, hrunning, if_true] at hstep
      cases hstep
      by_cases hroom : s.connCount < s.server.maxConnections
      · have hallocated : connAllocated = true ∧ bufAllocated = true :=
          not_not.mp fun hfail => hop ⟨hrunning, hroom, hfail⟩
        rw [hallocated.1, hallocated.2]
        exact h.accept_of_lt now hroom
      · exact h.accept_of_le now (UInt32.not_lt.mp hroom)
    · have hne : ∀ now, op ≠ .accept now := fun now heq => haccept ⟨now, heq⟩
      rw [step_server_of_ne hrunning hne] at hstep
      obtain ⟨server, hserver, rfl⟩ := Option.map_eq_some_iff.mp hstep
      exact h.closeConns (closes_step h.ok hne (Prod.ext hserver rfl))

/-- A step that loses a socket. -/
theorem Accounts.step_of_loses (h : Accounts s lost) {op : SocketStep}
    (hop : LosesSocket (some s) op) :
    ∃ s', ((socketMachine L S).step (some s) op).1 = some s' ∧
      Accounts s' (lost ++ [s.returned]) := by
  match op, hop with
  | .server (.accept now) connAllocated bufAllocated, ⟨hrunning, hroom, hfail⟩ =>
    refine ⟨s.accept now connAllocated bufAllocated, ?_, h.accept_of_fail now hroom hfail⟩
    simp only [socketMachine, hrunning, if_true]

end Accounts

/-! ### Runs -/

theorem accounts_create (config : HttpServerConfig) :
    Accounts (SocketServer.create L S config) [] where
  ok := ⟨keysNodup_nil, fun _ hc => absurd hc List.not_mem_nil,
    fun _ hc => absurd hc List.not_mem_nil⟩
  count_eq := rfl
  count_le := UInt32.zero_le
  perm := List.Perm.refl _

/-- In every run, whatever is lost, the lost sockets are all that is missing, and `conn_count` is
the number of connections and within the limit. -/
theorem exists_accounts_run (config : HttpServerConfig) (steps : List SocketStep)
    {s : SocketServer L S}
    (hrun : (socketMachine L S).run (some (SocketServer.create L S config)) steps = some s) :
    ∃ lost, Accounts s lost := by
  refine Machine.run_invariant
    (P := fun state : Option (SocketServer L S) => ∀ s, state = some s → ∃ lost, Accounts s lost)
    (fun state op _ hstate s' hs' => ?_) (fun s hs => ?_) s hrun
  · rcases state with _ | s
    · cases hs'
    · obtain ⟨lost, h⟩ := hstate s rfl
      by_cases hop : LosesSocket (some s) op
      · obtain ⟨s'', hs'', h''⟩ := h.step_of_loses hop
        obtain rfl : s'' = s' := Option.some.inj (hs''.symm.trans hs')
        exact ⟨_, h''⟩
      · exact ⟨lost, h.step hop hs'⟩
  · obtain rfl := Option.some.inj hs
    exact ⟨[], accounts_create config⟩

/-- Steps whose allocations succeed. -/
def allocatingMachine (L : Llhttp) (S : Service) :
    Machine (Option (SocketServer L S)) ServerStep (List (ℕ × ConnEvent)) where
  step state op := (socketMachine L S).step state (.server op true true)

/-- A server with sockets, and the same server without them. -/
inductive SameServer : Option (SocketServer L S) → Option (HttpServer L S) → Prop where
  | hangs : SameServer none none
  | runs {s : SocketServer L S} {lost : List ℕ} (hrunning : s.running = true)
      (h : Accounts s lost) : SameServer (some s) (some s.server)

/-- **The server with sockets is the server.** As long as the allocations succeed, its connections
go through the same events. -/
theorem allocatingMachine_simulates :
    (allocatingMachine L S).Simulates (serverMachine L S) SameServer where
  result_eq op hsame := by
    cases hsame with
    | hangs => rfl
    | runs hrunning h =>
      by_cases haccept : ∃ now, op = .accept now
      · obtain ⟨now, rfl⟩ := haccept
        simp only [allocatingMachine, socketMachine, serverMachine, hrunning, if_true]
      · have hne : ∀ now, op ≠ .accept now := fun now heq => haccept ⟨now, heq⟩
        rw [allocatingMachine, step_server_of_ne hrunning hne]
  step_rel op hsame := by
    cases hsame with
    | hangs => exact .hangs
    | @runs s lost hrunning h =>
      have hloses : ¬ LosesSocket (some s) (.server op true true) := by
        cases op <;> simp [LosesSocket]
      by_cases haccept : ∃ now, op = .accept now
      · obtain ⟨now, rfl⟩ := haccept
        have hstep : ((socketMachine L S).step (some s) (.server (.accept now) true true)).1 =
            some (s.accept now true true) := by
          simp only [socketMachine, hrunning, if_true]
        have hstill : (s.accept now true true).running = true := by
          rw [SocketServer.accept]
          split_ifs <;> exact hrunning
        have hserver : ((serverMachine L S).step (some s.server) (.accept now)).1 =
            some (s.accept now true true).server := congrArg some (h.server_accept now).symm
        rw [allocatingMachine, hstep, hserver]
        exact .runs hstill (h.step hloses hstep)
      · have hne : ∀ now, op ≠ .accept now := fun now heq => haccept ⟨now, heq⟩
        rw [allocatingMachine, step_server_of_ne hrunning hne]
        rcases hserver : ((serverMachine L S).step (some s.server) op).1 with _ | server
        · exact .hangs
        · refine SameServer.runs (s := s.closeConns server _) hrunning (h.closeConns ?_)
          exact closes_step h.ok hne (Prod.ext hserver rfl)

/-- A poll whose allocations succeed is one of the server without sockets. -/
theorem sameServer_httpServerPoll {s : SocketServer L S} {lost : List ℕ} (h : Accounts s lost)
    (hrunning : s.running = true) (inputs : PollInputs) :
    SameServer ((allocatingMachine L S).run (some s) (pollSteps inputs s.server))
      (httpServerPoll inputs s.server) :=
  allocatingMachine_simulates.run_rel (.runs hrunning h) _

/-- The accounts balance after every part of a run just when no step of it loses a socket. The
induction is on the run, from any state whose accounts balance. -/
theorem accounted_prefixes_iff {state : Option (SocketServer L S)}
    (h : ∀ s, state = some s → Accounts s []) (steps : List SocketStep) :
    (∀ earlier, earlier <+: steps → ∀ s, (socketMachine L S).run state earlier = some s →
      s.Accounted) ↔
      (socketMachine L S).Meets (fun state op => ¬ LosesSocket state op) state steps := by
  induction steps generalizing state with
  | nil =>
    refine iff_of_true (fun earlier hearlier s hs => ?_) trivial
    obtain rfl := List.prefix_nil.mp hearlier
    exact (h s hs).accounted_iff.mpr rfl
  | cons op steps ih =>
    have hnext (hop : ¬ LosesSocket state op) :
        ∀ s', ((socketMachine L S).step state op).1 = some s' → Accounts s' [] := by
      intro s' hs'
      rcases state with _ | s
      · cases hs'
      · exact (h s rfl).step hop hs'
    constructor
    · intro haccounted
      have hop : ¬ LosesSocket state op := by
        intro hop
        rcases state with _ | s
        · exact hop
        · obtain ⟨s', hs', hlost⟩ := (h s rfl).step_of_loses hop
          have hbalanced := haccounted [op] (List.prefix_append [op] steps) s' hs'
          exact absurd (hlost.accounted_iff.mp hbalanced) (List.cons_ne_nil _ _)
      refine ⟨hop, (ih (hnext hop)).mp fun earlier hearlier s hs => ?_⟩
      exact haccounted (op :: earlier) (List.cons_prefix_cons.mpr ⟨rfl, hearlier⟩) s hs
    · rintro ⟨hop, hmeets⟩ earlier hearlier s hs
      rcases earlier with _ | ⟨op', earlier⟩
      · exact (h s hs).accounted_iff.mpr rfl
      · obtain ⟨rfl, hrest⟩ := List.cons_prefix_cons.mp hearlier
        exact (ih (hnext hop)).mpr hmeets earlier hrest s hs

/-- **When the sockets are accounted for.** For every run of the server, with any sockets, any
outcomes of the allocations, any closes and any timeouts: at every moment each socket that
`spdk_sock_accept` returned is owned by exactly one connection or closed, `conn_count` is the number
of connections and at most `max_connections`, if and only if both allocations of `http_conn_accept`
succeed whenever it is called below the limit. -/
theorem sockets_accounted_iff (L : Llhttp) (S : Service) (config : HttpServerConfig)
    (steps : List SocketStep) :
    (∀ earlier, earlier <+: steps → ∀ s,
      (socketMachine L S).run (some (SocketServer.create L S config)) earlier = some s →
        s.Accounted) ↔
      (socketMachine L S).Meets (fun state op => ¬ LosesSocket state op)
        (some (SocketServer.create L S config)) steps := by
  refine accounted_prefixes_iff (fun s hs => ?_) steps
  rw [← Option.some.inj hs]
  exact accounts_create config

/-- There is no memory for the first connection: its socket is neither owned nor closed, and it
stays so when the server is destroyed. -/
theorem socket_lost :
    ∃ s : SocketServer getLlhttp emptyService,
      (socketMachine getLlhttp emptyService).run
          (some (SocketServer.create getLlhttp emptyService ⟨0, 0, 0, 0⟩))
          [.server (.accept 0) false true, .destroy] = some s ∧
        s.returned = 1 ∧ s.owners 0 = 0 ∧ 0 ∉ s.closed :=
  ⟨_, rfl, rfl, rfl, List.not_mem_nil⟩

end LightFS.Access
