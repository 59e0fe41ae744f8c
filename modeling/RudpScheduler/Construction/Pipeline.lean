import RudpScheduler.Construction.Host

/-!
# The path between a worker loop and its worker

One worker connection from end to end: the scheduler with the worker's loop, the server's end of
the connection, the network in both directions, the client's end, and `RunWorker` of
`node/worker.go` behind it.  Everything else, the other connections and what they send included,
acts on the scheduler as it likes.

The network here neither loses, duplicates nor reorders.  The datagrams of one end arrive at the
other in the order they were sent, each after any delay, so the ones on their way are those
`Conn.sent` lists after the ones that have arrived; `inCh` is the last part of that way.  The
state begins after the handshake.  `RunWorker` never closes its connection and the scheduler
never closes one either, so a connection ends by silence only.

A goroutine of the scheduler that is in `Write` does nothing else until the connection has taken
the data (`Pipeline.writing`), and neither does `RunWorker`.  A panic of `Encode` or `Write` ends
the run; `Properties/NoPanic.lean` shows that the server has none.
-/

namespace RudpScheduler

open Rudp (Conn Delivery Payload newConn)

/-! ## `RunWorker` -/

/-- Where `RunWorker` is. -/
inductive Node
  /-- `c.Write(wire.Encode(m))`. -/
  | writing (m : Message)
  /-- `c.Read()`. -/
  | reading
  /-- `wl.Compute(chunk.Msg, chunk.Lo, chunk.Hi)`. -/
  | computing (chunk : Chunk)
  | ended
  deriving DecidableEq

/-- What `RunWorker` does with what `Read` returned. -/
def Node.received : Delivery → Go Node
  | .data payload => do
    match ← Wire.decode payload with
    | some (.chunk chunk) => return .computing chunk
    | _ => return .reading
  | .err _ | .mainDone => return .ended

/-! ## The path -/

/-- A worker connection and what is at its two ends. -/
structure Pipeline where
  sys : Sys
  /-- The server's end of the connection. -/
  server : Conn
  /-- The worker's end of the connection. -/
  client : Conn
  /-- How many of the datagrams of the server's end have arrived. -/
  downArrived : ℕ
  /-- How many of the datagrams of the worker's end have arrived. -/
  upArrived : ℕ
  /-- The scheduler's writes to this connection that have not been taken yet, and by whom. -/
  writing : List (Goroutine × Payload)
  node : Node

/-- A step of one of the goroutines, or of the network. -/
inductive PipeAction
  /-- A step of the scheduler, except for what it reads from this connection. -/
  | sched (a : Action)
  /-- The dispatcher's `Read` returns what this connection delivers. -/
  | read
  /-- The server's end takes a write. -/
  | take (x : Goroutine) (clock : ℕ → Time)
  /-- A write to the dead connection is dropped. -/
  | drop (x : Goroutine)
  /-- The oldest datagram from the worker arrives at the server's `mainLoop`. -/
  | up (clock : ℕ → Time)
  /-- The oldest datagram from the server arrives at the worker's `mainLoop`. -/
  | down (clock : ℕ → Time)
  /-- The oldest datagram from the worker finds the server's end dead. -/
  | upLate
  /-- The oldest datagram from the server finds the worker's end dead. -/
  | downLate
  /-- An epoch has passed at the server's end. -/
  | serverTick (now : Time) (ord : RangeOrder UInt32)
  /-- An epoch has passed at the worker's end. -/
  | clientTick (now : Time) (ord : RangeOrder UInt32)
  /-- `RunWorker`'s `Read` returns. -/
  | nodeRead
  /-- `RunWorker` has computed its chunk. -/
  | nodeCompute
  /-- `RunWorker`'s `Write` returns. -/
  | nodeWrite (clock : ℕ → Time)

/-- The connection a step of the scheduler hears from. -/
def Action.heard : Action → Option ConnID
  | .connDown c | .readError c | .readJoin c | .readRequest c _ | .readResult c _ => some c
  | _ => none

namespace Pipeline

/-- The connection, as the scheduler names it. -/
def conn (s : Pipeline) : ConnID := s.server.id.toNat

/-- The datagrams on their way to the worker, oldest first. -/
def toWorker (s : Pipeline) : List Rudp.Packet := s.server.sent.drop s.downArrived

/-- The datagrams on their way to the server, oldest first. -/
def toServer (s : Pipeline) : List Rudp.Packet := s.client.sent.drop s.upArrived

/-- The handshake is over, the scheduler has not heard from the connection, and `RunWorker` is
about to announce itself. -/
def start (boot : Recovered) (id : UInt32) : Pipeline where
  sys := Sys.start boot
  server := newConn id false
  client := newConn id true
  downArrived := 0
  upArrived := 0
  writing := []
  node := .writing .join

/-- What the scheduler wrote to connection `c` between `s` and `t`. -/
def writtenTo (c : ConnID) (s t : Sys) : List (Goroutine × Message) :=
  (s.written t).filterMap fun (x, h, m) => if h = c then some (x, m) else none

/-- `h.Write(wire.Encode(m))` for each of the messages. -/
def encodeWrites (ms : List (Goroutine × Message)) : Go (List (Goroutine × Payload)) :=
  ms.mapM fun (x, m) => return (x, ← encodeWrite m)

/-- A step of a goroutine of the scheduler that is not in `Write`. -/
def sched (wl : Workload) (p : Params) (s : Pipeline) (a : Action) : Option Pipeline :=
  if a.heard = some s.conn ∨ ∃ e ∈ s.writing, some e.1 = a.runner then none
  else do
    let sys ← s.sys.step wl p a
    let ws ← (encodeWrites (writtenTo s.conn s.sys sys)).toOption
    return { s with sys := sys, writing := s.writing ++ ws }

/-- `Read` returns what this connection delivers, and the dispatcher acts on it. -/
def read (p : Params) (rp : Rudp.Params) (s : Pipeline) : Option Pipeline :=
  if s.sys.disp = .reading then do
    let server ← s.server.step rp .read
    let d ← server.returned.getLast?
    let sys ← (s.sys.dispatch p s.conn d).toOption
    return { s with sys := sys, server := server }
  else none

/-- `case h.writeReqCh <- data` of `ConnHandle.Write`. -/
def take (rp : Rudp.Params) (s : Pipeline) (x : Goroutine) (clock : ℕ → Time) :
    Option Pipeline := do
  let e ← s.writing.find? (·.1 = x)
  let server ← s.server.step rp (.write e.2 clock)
  return { s with server := server, writing := s.writing.erase e }

/-- `case <-h.dead` of `ConnHandle.Write`. -/
def drop (s : Pipeline) (x : Goroutine) : Option Pipeline := do
  let e ← s.writing.find? (·.1 = x)
  if s.server.phase.beforeDead then none else some { s with writing := s.writing.erase e }

/-- The oldest datagram on its way to the server is taken by the `mainLoop`. -/
def up (rp : Rudp.Params) (s : Pipeline) (clock : ℕ → Time) : Option Pipeline := do
  let pkt ← s.toServer.head?
  let server ← s.server.step rp (.packet pkt clock)
  return { s with server := server, upArrived := s.upArrived + 1 }

/-- The oldest datagram on its way to the worker is taken by the `mainLoop`. -/
def down (rc : Rudp.Params) (s : Pipeline) (clock : ℕ → Time) : Option Pipeline := do
  let pkt ← s.toWorker.head?
  let client ← s.client.step rc (.packet pkt clock)
  return { s with client := client, downArrived := s.downArrived + 1 }

/-- `case <-c.dead` of the server's read loop. -/
def upLate (s : Pipeline) : Option Pipeline :=
  if s.toServer = [] ∨ s.server.phase.beforeDead then none
  else some { s with upArrived := s.upArrived + 1 }

/-- `case <-c.conn.dead` of the client's read loop. -/
def downLate (s : Pipeline) : Option Pipeline :=
  if s.toWorker = [] ∨ s.client.phase.beforeDead then none
  else some { s with downArrived := s.downArrived + 1 }

/-- `data, err := c.Read()`, up to `Compute`. -/
def nodeRead (rc : Rudp.Params) (s : Pipeline) : Option Pipeline :=
  if s.node = .reading then do
    let client ← s.client.step rc .read
    let d ← client.returned.getLast?
    let node ← (Node.received d).toOption
    return { s with client := client, node := node }
  else none

/-- `p := wl.Compute(chunk.Msg, chunk.Lo, chunk.Hi)`. -/
def nodeCompute (wl : Workload) (s : Pipeline) : Option Pipeline :=
  match s.node with
  | .computing chunk => some { s with node := .writing (.chunkResult (wl.answer chunk)) }
  | _ => none

/-- `c.Write`: the connection takes the data or is dead. -/
def nodeWrite (rc : Rudp.Params) (s : Pipeline) (clock : ℕ → Time) : Option Pipeline :=
  match s.node with
  | .writing m => do
    let data ← (encodeWrite m).toOption
    if s.client.phase.beforeDead then
      (s.client.step rc (.write data clock)).map fun client =>
        { s with client := client, node := .reading }
    else some { s with node := .reading }
  | _ => none

/-- One step; `none` where the goroutine waits or is somewhere else.  The two ends of the
connection have their own tunables `rp` and `rc`. -/
def step (wl : Workload) (p : Params) (rp rc : Rudp.Params) (s : Pipeline) :
    PipeAction → Option Pipeline
  | .sched a => s.sched wl p a
  | .read => s.read p rp
  | .take x clock => s.take rp x clock
  | .drop x => s.drop x
  | .up clock => s.up rp clock
  | .down clock => s.down rc clock
  | .upLate => s.upLate
  | .downLate => s.downLate
  | .serverTick now ord => (s.server.step rp (.tick now ord)).map fun c => { s with server := c }
  | .clientTick now ord => (s.client.step rc (.tick now ord)).map fun c => { s with client := c }
  | .nodeRead => s.nodeRead rc
  | .nodeCompute => s.nodeCompute wl
  | .nodeWrite clock => s.nodeWrite rc clock

/-! ## What a step can do -/

/-- What one step does. -/
inductive Move (wl : Workload) (p : Params) (rp rc : Rudp.Params) :
    Pipeline → PipeAction → Pipeline → Prop
  | sched {s a sys ws} (hc : a.heard ≠ some s.conn) (hfree : ∀ e ∈ s.writing, some e.1 ≠ a.runner)
      (hstep : s.sys.step wl p a = some sys)
      (hws : encodeWrites (writtenTo s.conn s.sys sys) = .ok ws) :
      Move wl p rp rc s (.sched a) { s with sys := sys, writing := s.writing ++ ws }
  | read {s server d sys} (hr : s.sys.disp = .reading)
      (hstep : s.server.step rp .read = some server) (hret : server.returned.getLast? = some d)
      (hsys : s.sys.dispatch p s.conn d = .ok sys) :
      Move wl p rp rc s .read { s with sys := sys, server := server }
  | take {s x clock e server} (he : e ∈ s.writing)
      (hstep : s.server.step rp (.write e.2 clock) = some server) :
      Move wl p rp rc s (.take x clock) { s with server := server, writing := s.writing.erase e }
  | drop {s x e} (hdead : s.server.phase ≠ .main) :
      Move wl p rp rc s (.drop x) { s with writing := s.writing.erase e }
  | up {s clock pkt rest server} (hnet : s.toServer = pkt :: rest)
      (hstep : s.server.step rp (.packet pkt clock) = some server) :
      Move wl p rp rc s (.up clock) { s with server := server, upArrived := s.upArrived + 1 }
  | down {s clock pkt rest client} (hnet : s.toWorker = pkt :: rest)
      (hstep : s.client.step rc (.packet pkt clock) = some client) :
      Move wl p rp rc s (.down clock) { s with client := client, downArrived := s.downArrived + 1 }
  | upLate {s} (hnet : s.toServer ≠ []) (hdead : s.server.phase ≠ .main) :
      Move wl p rp rc s .upLate { s with upArrived := s.upArrived + 1 }
  | downLate {s} (hnet : s.toWorker ≠ []) :
      Move wl p rp rc s .downLate { s with downArrived := s.downArrived + 1 }
  | serverTick {s now ord server} (hstep : s.server.step rp (.tick now ord) = some server) :
      Move wl p rp rc s (.serverTick now ord) { s with server := server }
  | clientTick {s now ord client} (hstep : s.client.step rc (.tick now ord) = some client) :
      Move wl p rp rc s (.clientTick now ord) { s with client := client }
  | nodeRead {s client d node} (hn : s.node = .reading)
      (hstep : s.client.step rc .read = some client) (hret : client.returned.getLast? = some d)
      (hnode : Node.received d = .ok node) :
      Move wl p rp rc s .nodeRead { s with client := client, node := node }
  | nodeCompute {s chunk} (hn : s.node = .computing chunk) :
      Move wl p rp rc s .nodeCompute { s with node := .writing (.chunkResult (wl.answer chunk)) }
  | nodeWrite {s clock m data client} (hn : s.node = .writing m) (hm : encodeWrite m = .ok data)
      (hstep : s.client.step rc (.write data clock) = some client) :
      Move wl p rp rc s (.nodeWrite clock) { s with client := client, node := .reading }
  /-- The worker's end is dead, and the write is dropped. -/
  | nodeDrop {s clock m} (hn : s.node = .writing m) :
      Move wl p rp rc s (.nodeWrite clock) { s with node := .reading }

variable {wl : Workload} {p : Params} {rp rc : Rudp.Params} {s t : Pipeline}

lemma ne_main_of_not_beforeDead {ph : Rudp.Phase} (h : ¬ ph.beforeDead = true) : ph ≠ .main := by
  rintro rfl
  exact h rfl

/-- There is nothing else a step can do. -/
theorem step_move {a : PipeAction} (h : s.step wl p rp rc a = some t) :
    Move wl p rp rc s a t := by
  cases a with
  | sched a =>
      rw [step, sched] at h
      split_ifs at h with hguard
      obtain ⟨sys, hsys, h⟩ := Option.bind_eq_some_iff.mp h
      obtain ⟨ws, hws, h⟩ := Option.bind_eq_some_iff.mp h
      obtain rfl := Option.some_inj.mp h
      rw [not_or, not_exists] at hguard
      exact .sched hguard.1 (fun e he hr => hguard.2 e ⟨he, hr⟩) hsys (Go.toOption_eq_some.mp hws)
  | read =>
      rw [step, read] at h
      split_ifs at h with hr
      obtain ⟨server, hserver, h⟩ := Option.bind_eq_some_iff.mp h
      obtain ⟨d, hd, h⟩ := Option.bind_eq_some_iff.mp h
      obtain ⟨sys, hsys, h⟩ := Option.bind_eq_some_iff.mp h
      obtain rfl := Option.some_inj.mp h
      exact .read hr hserver hd (Go.toOption_eq_some.mp hsys)
  | take x clock =>
      obtain ⟨e, he, h⟩ := Option.bind_eq_some_iff.mp h
      obtain ⟨server, hserver, h⟩ := Option.bind_eq_some_iff.mp h
      obtain rfl := Option.some_inj.mp h
      exact .take (List.mem_of_find?_eq_some he) hserver
  | drop x =>
      obtain ⟨e, he, h⟩ := Option.bind_eq_some_iff.mp h
      split_ifs at h with hdead
      obtain rfl := Option.some_inj.mp h
      exact .drop (ne_main_of_not_beforeDead hdead)
  | up clock =>
      obtain ⟨pkt, hpkt, h⟩ := Option.bind_eq_some_iff.mp h
      obtain ⟨server, hserver, h⟩ := Option.bind_eq_some_iff.mp h
      obtain rfl := Option.some_inj.mp h
      obtain ⟨rest, hrest⟩ := List.head?_eq_some_iff.mp hpkt
      exact .up hrest hserver
  | down clock =>
      obtain ⟨pkt, hpkt, h⟩ := Option.bind_eq_some_iff.mp h
      obtain ⟨client, hclient, h⟩ := Option.bind_eq_some_iff.mp h
      obtain rfl := Option.some_inj.mp h
      obtain ⟨rest, hrest⟩ := List.head?_eq_some_iff.mp hpkt
      exact .down hrest hclient
  | upLate =>
      rw [step, upLate] at h
      split_ifs at h with hguard
      obtain rfl := Option.some_inj.mp h
      rw [not_or] at hguard
      exact .upLate hguard.1 (ne_main_of_not_beforeDead hguard.2)
  | downLate =>
      rw [step, downLate] at h
      split_ifs at h with hguard
      obtain rfl := Option.some_inj.mp h
      exact .downLate (not_or.mp hguard).1
  | serverTick now ord =>
      obtain ⟨server, hserver, rfl⟩ := Option.map_eq_some_iff.mp h
      exact .serverTick hserver
  | clientTick now ord =>
      obtain ⟨client, hclient, rfl⟩ := Option.map_eq_some_iff.mp h
      exact .clientTick hclient
  | nodeRead =>
      rw [step, nodeRead] at h
      split_ifs at h with hn
      obtain ⟨client, hclient, h⟩ := Option.bind_eq_some_iff.mp h
      obtain ⟨d, hd, h⟩ := Option.bind_eq_some_iff.mp h
      obtain ⟨node, hnode, h⟩ := Option.bind_eq_some_iff.mp h
      obtain rfl := Option.some_inj.mp h
      exact .nodeRead hn hclient hd (Go.toOption_eq_some.mp hnode)
  | nodeCompute =>
      rw [step, nodeCompute] at h
      split at h
      · obtain rfl := Option.some_inj.mp h
        exact .nodeCompute ‹_›
      · cases h
  | nodeWrite clock =>
      rw [step, nodeWrite] at h
      split at h
      · obtain ⟨data, hdata, h⟩ := Option.bind_eq_some_iff.mp h
        split_ifs at h
        · obtain ⟨client, hclient, rfl⟩ := Option.map_eq_some_iff.mp h
          exact .nodeWrite ‹_› (Go.toOption_eq_some.mp hdata) hclient
        · obtain rfl := Option.some_inj.mp h
          exact .nodeDrop ‹_›
      · cases h

end Pipeline

end RudpScheduler
