import RudpScheduler.Construction.Rudp.Packet

/-!
# The server of one UDP port

`rudp/server.go`: the read loop that owns the table of connections and routes datagrams to them,
the connections' goroutines, and the shutdown.  A connection's goroutine is `Conn`
(`Construction/Rudp/Conn.lean`) with what it shares with the read loop: its `inCh`, and whether
its `dead` channel is closed.

The read loop waits in three places: in `ReadFrom`, at the `select` that hands a packet to a
connection, and in `beginShutdown`, at the `select` of `ConnHandle.Close` for one connection
after the other.  `ReadPhase` has these, and the points of the loop between them.  A step may
panic, so `Server.step` is an `Option` of a `Go` value: `none` where the goroutine waits or is
somewhere else.

The handle of a connection is a pointer; goroutines are numbered from 1 in the order they are
started, and the number stands for it.  `net.Addr` is a parameter, with the two operations the
server uses.  Left out: errors of `ReadFrom` other than the deadline, which the loop skips.
-/

namespace RudpScheduler.Rudp

/-- What the server asks of a `net.Addr`. -/
structure AddrOps (Addr : Type) where
  /-- `addr.String()`. -/
  string : Addr → String
  /-- `sameAddr`. -/
  sameAddr : Addr → Addr → Bool

/-- Numbers as addresses that all print alike, for concrete runs. -/
def onePeer : AddrOps ℕ := ⟨fun _ => "peer", fun a b => a == b⟩

/-- A connection of the server. -/
structure ServerConn (Addr : Type) where
  conn : Conn
  raddr : Addr
  /-- Packets handed over by the read loop, oldest first. -/
  inCh : List Packet
  /-- `dead` is closed. -/
  dead : Bool

/-- The capacity of `inCh`. -/
def inChCap : ℕ := 64

/-- The goroutine is in a loop that ends with `close(c.dead)`. -/
def Phase.beforeDead : Phase → Bool
  | .main | .flushing => true
  | .draining | .ended => false

/-- A round of the connection's loop.  `drainAndExit` closes `dead` first thing, and `mainLoop`
does after `flushThenExit`. -/
def ServerConn.step {Addr : Type} (p : Params) (c : ServerConn Addr) (i : Input) :
    Option (Go (ServerConn Addr)) :=
  (c.conn.step p i).map fun conn =>
    if c.conn.phase.beforeDead ∧ ¬ conn.phase.beforeDead then
      if c.dead then .error .closeOfClosedChannel
      else .ok { c with conn := conn, dead := true }
    else .ok { c with conn := conn }

/-- Where the read loop is. -/
inductive ReadPhase
  /-- At the top of the `for`. -/
  | top
  /-- In `beginShutdown`, with the connections still to be asked to close. -/
  | asking (rest : List ℕ)
  /-- Past the look at `closeReq`. -/
  | checked
  /-- In `ReadFrom`. -/
  | reading
  /-- Handing a packet to a connection. -/
  | handing (g : ℕ) (pkt : Packet)
  | exited
  deriving DecidableEq

/-- The loop of `beginShutdown` goes on to the next connection, or is over. -/
def ReadPhase.askNext : List ℕ → ReadPhase
  | [] => .checked
  | g :: rest => .asking (g :: rest)

/-- The server. -/
structure Server (Addr : Type) where
  /-- The table of connections. -/
  conns : GoMap UInt32 ℕ
  /-- The connection of a remote address. -/
  byAddr : GoMap String UInt32
  nextID : UInt32
  /-- Shutdown has begun; the channel `closing` is closed. -/
  closing : Bool
  phase : ReadPhase
  /-- `Close` has left a request in `closeReq`. -/
  closeReq : Bool
  /-- The connections' goroutines. -/
  gos : GoMap ℕ (ServerConn Addr)
  /-- How many connections have been accepted. -/
  accepted : ℕ
  /-- The datagrams the read loop has sent. -/
  sent : List (Packet × Addr)

/-- One step of one of the server's goroutines, or of the outside. -/
inductive ServerAction (Addr : Type)
  /-- The application calls `Close`. -/
  | close
  /-- The read loop looks at `closeReq`. -/
  | turn (ord : RangeOrder UInt32)
  /-- `h.closeCh <- struct{}{}` of `beginShutdown`. -/
  | ask (clock : ℕ → Time)
  /-- `<-h.dead` of `beginShutdown`. -/
  | askDead
  /-- The read loop sweeps its table if an epoch has passed, and leaves if there is nothing left
  to wait for. -/
  | sweep (due : Bool) (ord : RangeOrder UInt32)
  /-- The read deadline passes. -/
  | timeout
  /-- A datagram arrives. -/
  | datagram (bytes : List UInt8) (addr : Addr)
  /-- `c.inCh <- p`. -/
  | handOver
  /-- `<-c.dead`. -/
  | handDead
  /-- A connection takes a packet from its `inCh`. -/
  | recv (g : ℕ) (clock : ℕ → Time)
  /-- Anything else that can happen to a connection: the application's calls and the clock. -/
  | conn (g : ℕ) (i : Input)

namespace Server

variable {Addr : Type}

/-- What `NewServer` starts. -/
def start : Server Addr where
  conns := ∅
  byAddr := ∅
  nextID := 0
  closing := false
  phase := .top
  closeReq := false
  gos := ∅
  accepted := 0
  sent := []

/-! ## The read loop -/

/-- `isDead`. -/
def isDead (s : Server Addr) (g : ℕ) : Bool := (s.gos.lookup g).any ServerConn.dead

/-- `forget`. -/
def forget (ops : AddrOps Addr) (s : Server Addr) (id : UInt32) (g : ℕ) : Server Addr :=
  let s := { s with conns := s.conns.erase id }
  match s.gos.lookup g with
  | some c =>
    if s.byAddr.lookup (ops.string c.raddr) = some id then
      { s with byAddr := s.byAddr.erase (ops.string c.raddr) }
    else s
  | none => s

/-- The look at `closeReq`; `beginShutdown` starts here. -/
def turn (ord : RangeOrder UInt32) (s : Server Addr) : Server Addr :=
  if !s.closing && s.closeReq then
    { s with
      closing := true
      closeReq := false
      phase := .askNext ((ord.range s.conns).filterMap s.conns.lookup) }
  else { s with phase := .checked }

/-- One round of the sweep. -/
def sweepOne (ops : AddrOps Addr) (s : Server Addr) (id : UInt32) : Server Addr :=
  match s.conns.lookup id with
  | some g => if s.isDead g then s.forget ops id g else s
  | none => s

/-- The sweep, and the test whether the server is done. -/
def sweep (ops : AddrOps Addr) (due : Bool) (ord : RangeOrder UInt32) (s : Server Addr) :
    Server Addr :=
  let s := if due then (ord.range s.conns).foldl (sweepOne ops) s else s
  if s.closing ∧ GoMap.len s.conns = 0 then { s with phase := .exited }
  else { s with phase := .reading }

/-- A new connection for `addr`. -/
def accept (ops : AddrOps Addr) (s : Server Addr) (addr : Addr) : Server Addr × UInt32 :=
  let id := s.nextID + 1
  let g := s.accepted + 1
  ({ s with
      nextID := id
      accepted := g
      gos := s.gos.insert g ⟨newConn id false, addr, [], false⟩
      conns := s.conns.insert id g
      byAddr := s.byAddr.insert (ops.string addr) id }, id)

/-- `s.sock.WriteTo(marshal(typeConnAck, id, 0, nil), addr)`. -/
def connAck (s : Server Addr) (id : UInt32) (addr : Addr) : Server Addr :=
  { s with sent := s.sent ++ [(⟨.connAck, id, 0, []⟩, addr)] }

/-- `p.typ == typeConnect`: a retried Connect gets the same connection ID back. -/
def connect (ops : AddrOps Addr) (s : Server Addr) (addr : Addr) : Go (Server Addr) :=
  match s.byAddr.lookup (ops.string addr) with
  | none =>
    let (s, id) := s.accept ops addr
    .ok (s.connAck id addr)
  | some id =>
    match s.conns.lookup id with
    -- `old` is nil, and `old.isDead()` reads its field
    | none => .error .nilDereference
    | some g =>
      if s.isDead g then
        let (s, id) := (s.forget ops id g).accept ops addr
        .ok (s.connAck id addr)
      else .ok (s.connAck id addr)

/-- `ReadFrom` returns a datagram. -/
def datagram (ops : AddrOps Addr) (s : Server Addr) (bytes : List UInt8) (addr : Addr) :
    Go (Server Addr) := do
  match ← receive bytes with
  | none => return { s with phase := .top }
  | some pkt =>
    if pkt.typ = .connect then
      if s.closing then return { s with phase := .top }
      else return { ← s.connect ops addr with phase := .top }
    else
      match s.conns.lookup pkt.connID with
      | none => return { s with phase := .top }
      | some g =>
        -- the source must be the connection's peer
        if (s.gos.lookup g).any fun c => ops.sameAddr addr c.raddr then
          return { s with phase := .handing g pkt }
        else return { s with phase := .top }

/-! ## Steps -/

/-- A round of connection `g`'s loop has ended, or has panicked. -/
def put (s : Server Addr) (g : ℕ) (r : Go (ServerConn Addr)) : Go (Server Addr) :=
  r.map fun c => { s with gos := s.gos.insert g c }

/-- A round of connection `g`'s loop. -/
def stepConn (p : Params) (s : Server Addr) (g : ℕ) (i : Input) : Option (Go (Server Addr)) :=
  (s.gos.lookup g).bind fun c => (c.step p i).map (s.put g)

/-- One step; `none` where the goroutine waits or is somewhere else. -/
def step (ops : AddrOps Addr) (p : Params) (s : Server Addr) :
    ServerAction Addr → Option (Go (Server Addr))
  | .close => some (.ok { s with closeReq := true })
  | .turn ord => if s.phase = .top then some (.ok (s.turn ord)) else none
  | .ask clock =>
    match s.phase with
    | .asking (g :: rest) =>
      ({ s with phase := .askNext rest } : Server Addr).stepConn p g (.close clock)
    | _ => none
  | .askDead =>
    match s.phase with
    | .asking (g :: rest) =>
      if s.isDead g then some (.ok { s with phase := .askNext rest }) else none
    | _ => none
  | .sweep due ord => if s.phase = .checked then some (.ok (s.sweep ops due ord)) else none
  | .timeout => if s.phase = .reading then some (.ok { s with phase := .top }) else none
  | .datagram bytes addr => if s.phase = .reading then some (s.datagram ops bytes addr) else none
  | .handOver =>
    match s.phase with
    | .handing g pkt =>
      (s.gos.lookup g).bind fun c =>
        if c.inCh.length < inChCap then
          some (.ok { s with
            phase := .top
            gos := s.gos.insert g { c with inCh := c.inCh ++ [pkt] } })
        else none
    | _ => none
  | .handDead =>
    match s.phase with
    | .handing g pkt =>
      if s.isDead g then some (.ok { s.forget ops pkt.connID g with phase := .top }) else none
    | _ => none
  | .recv g clock =>
    (s.gos.lookup g).bind fun c =>
      match c.inCh with
      | [] => none
      | pkt :: rest => ({ c with inCh := rest }.step p (.packet pkt clock)).map (s.put g)
  | .conn g i =>
    match i with
    | .packet _ _ => none
    -- `case <-c.stop`: the server's `closing`
    | .stop => if s.closing then s.stepConn p g .stop else none
    | i => s.stepConn p g i

end Server

end RudpScheduler.Rudp
