import RudpScheduler.Construction.Rudp.Server

/-!
# A client

`rudp/client.go`: the two goroutines of a `Client` and the calls of its application.  `run` does the
handshake and then becomes the connection's `mainLoop`; `readLoop` parks in the socket and hands
over what it parses.  `NewClient` and `Close` wait for them, so where the application is
(`CallPhase`) is part of the state.

The connection itself is a `ServerConn`: it is the same `conn` of the source, with its `inCh` and
`dead`, and `raddr` is the server's address.  During the handshake its ID is 0, and nothing but the
handshake happens to it.

`ReadFrom` may fail at any time; the read loop ends on every error, not only when the socket has
been closed.  Left out: the errors of resolving the address and of opening the socket, which end
`NewClient` before anything is started, and a second call of `Close` while one is going on.
-/

namespace RudpScheduler.Rudp

/-- Where `run` is. -/
inductive RunPhase
  /-- In the loop of the handshake; so many epochs have passed. -/
  | connecting (epochs : ℕ)
  /-- In `mainLoop`, or returned from it. -/
  | connected
  /-- Returned, after the handshake has timed out. -/
  | timedOut
  deriving DecidableEq, Repr

/-- Where `readLoop` is. -/
inductive ReaderPhase
  /-- In `ReadFrom`. -/
  | reading
  /-- At the `select` that hands a packet to the connection. -/
  | handing (pkt : Packet)
  | exited
  deriving DecidableEq, Repr

/-- Where the application is. -/
inductive CallPhase
  /-- In `NewClient`, at `<-connected`. -/
  | dialing
  /-- In `NewClient`, at `<-c.readDone` after a timeout. -/
  | abandoning
  /-- `NewClient` has returned `ErrConnectTimeout`. -/
  | refused
  /-- `NewClient` has returned the client. -/
  | inUse
  /-- In `Close`, at its `select`. -/
  | closing
  /-- In `Close`, at `<-c.mainDone`. -/
  | waiting
  /-- In `Close`, at `<-c.readDone`. -/
  | releasing
  /-- `Close` has returned. -/
  | closed
  deriving DecidableEq, Repr

/-- The application has a client to call. -/
def CallPhase.hasClient : CallPhase → Bool
  | .dialing | .abandoning | .refused => false
  | .inUse | .closing | .waiting | .releasing | .closed => true

/-- A client. -/
structure Client (Addr : Type) where
  cn : ServerConn Addr
  stage : RunPhase
  loop : ReaderPhase
  call : CallPhase
  /-- `sock.Close` has been called. -/
  sockClosed : Bool
  /-- How many Connects have been given to the socket. -/
  connects : ℕ

/-- One step of one of the client's goroutines, or of the outside. -/
inductive ClientAction
  /-- `ReadFrom` returns a datagram. -/
  | datagram (bytes : List UInt8)
  /-- `ReadFrom` returns an error. -/
  | readError
  /-- `c.conn.inCh <- p`. -/
  | handOver
  /-- `<-c.conn.dead`. -/
  | handDead
  /-- The connection's goroutine takes a packet from `inCh`. -/
  | recv (clock : ℕ → Time)
  /-- One epoch has passed. -/
  | tick (now : Time) (ord : RangeOrder UInt32)
  /-- The application calls `Read` and it returns. -/
  | read
  /-- The application calls `Write` and it returns. -/
  | write (data : Payload) (clock : ℕ → Time)
  /-- `NewClient` gets the result of the handshake. -/
  | result
  /-- The application calls `Close`. -/
  | close
  /-- `c.conn.closeCh <- struct{}{}`. -/
  | closeTaken (clock : ℕ → Time)
  /-- `<-c.mainDone`. -/
  | mainDone
  /-- `<-c.readDone`. -/
  | readDone

namespace Client

variable {Addr : Type}

/-- `marshal(typeConnect, 0, 0, nil)`. -/
def connectPacket : Packet := ⟨.connect, 0, 0, []⟩

/-- What `NewClient` starts; the first Connect is sent before the loop. -/
def start (raddr : Addr) : Client Addr where
  cn := ⟨newConn 0 true, raddr, [], false⟩
  stage := .connecting 0
  loop := .reading
  call := .dialing
  sockClosed := false
  connects := 1

/-- Everything the client has given to its socket. -/
def sent (c : Client Addr) : List Packet :=
  List.replicate c.connects connectPacket ++ c.cn.conn.sent

/-- `mainDone` is closed: `run` has returned. -/
def isDone (c : Client Addr) : Bool :=
  match c.stage with
  | .connecting _ => false
  | .connected => c.cn.conn.phase = .ended
  | .timedOut => true

/-- A round of `mainLoop`. -/
def stepConn (p : Params) (c : Client Addr) (i : Input) : Option (Go (Client Addr)) :=
  if c.stage = .connected then (c.cn.step p i).map fun r => r.map fun cn => { c with cn := cn }
  else none

/-- `case p := <-cn.inCh` of the handshake. -/
def onHandshake (c : Client Addr) (pkt : Packet) : Client Addr :=
  if pkt.typ ≠ .connAck ∨ pkt.connID = 0 then c
  else
    { c with
      stage := .connected
      cn := { c.cn with conn := { c.cn.conn with id := pkt.connID } } }

/-- `case <-ticker.C` of the handshake. -/
def onHandshakeTick (p : Params) (c : Client Addr) (epochs : ℕ) : Go (Client Addr) :=
  if p.epochLimit ≤ epochs + 1 then
    if c.cn.dead then .error .closeOfClosedChannel
    else .ok { c with stage := .timedOut, cn := { c.cn with dead := true } }
  else .ok { c with stage := .connecting (epochs + 1), connects := c.connects + 1 }

/-- `ReadFrom` returns a datagram. -/
def onDatagram (c : Client Addr) (bytes : List UInt8) : Go (Client Addr) := do
  match ← receive bytes with
  | none => return c
  | some pkt => return { c with loop := .handing pkt }

/-- One step; `none` where the goroutine waits or is somewhere else. -/
def step (p : Params) (c : Client Addr) : ClientAction → Option (Go (Client Addr))
  | .datagram bytes =>
    if c.loop = .reading ∧ c.sockClosed = false then some (c.onDatagram bytes) else none
  | .readError => if c.loop = .reading then some (.ok { c with loop := .exited }) else none
  | .handOver =>
    match c.loop with
    | .handing pkt =>
      if c.cn.inCh.length < inChCap then
        some (.ok { c with loop := .reading, cn := { c.cn with inCh := c.cn.inCh ++ [pkt] } })
      else none
    | _ => none
  | .handDead =>
    match c.loop with
    | .handing _ => if c.cn.dead then some (.ok { c with loop := .reading }) else none
    | _ => none
  | .recv clock =>
    match c.cn.inCh with
    | [] => none
    | pkt :: rest =>
      let c := { c with cn := { c.cn with inCh := rest } }
      match c.stage with
      | .connecting _ => some (.ok (c.onHandshake pkt))
      | .connected => c.stepConn p (.packet pkt clock)
      | .timedOut => none
  | .tick now ord =>
    match c.stage with
    | .connecting epochs => some (c.onHandshakeTick p epochs)
    | .connected => c.stepConn p (.tick now ord)
    | .timedOut => none
  | .read => if c.call.hasClient then c.stepConn p .read else none
  | .write data clock => if c.call.hasClient then c.stepConn p (.write data clock) else none
  | .result =>
    if c.call = .dialing then
      match c.stage with
      | .connecting _ => none
      | .connected => some (.ok { c with call := .inUse })
      | .timedOut => some (.ok { c with call := .abandoning, sockClosed := true })
    else none
  | .close => if c.call = .inUse then some (.ok { c with call := .closing }) else none
  | .closeTaken clock =>
    if c.call = .closing then ({ c with call := .waiting } : Client Addr).stepConn p (.close clock)
    else none
  | .mainDone =>
    if c.isDone then
      match c.call with
      | .closing => some (.ok { c with call := .waiting })
      | .waiting => some (.ok { c with call := .releasing, sockClosed := true })
      | _ => none
    else none
  | .readDone =>
    if c.loop = .exited then
      match c.call with
      | .abandoning => some (.ok { c with call := .refused })
      | .releasing => some (.ok { c with call := .closed })
      | _ => none
    else none

end Client

end RudpScheduler.Rudp
