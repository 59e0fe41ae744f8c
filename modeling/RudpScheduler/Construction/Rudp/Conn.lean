import RudpScheduler.Framework.GoMap
import RudpScheduler.Framework.Int64
import RudpScheduler.Construction.Wire

/-!
# One rudp connection

`rudp/conn.go` and `rudp/ordered.go`: the state only a connection's `mainLoop` touches, and the
handlers of its `select`.  `Conn.step` is one round of whichever loop the goroutine is in:
`mainLoop`, the hand-over loop of `drainAndExit` or the loop of `flushThenExit`.

Clock readings are inputs, one per call of `time.Now`, and so is the order in which
`retransmitExpired` visits the send buffer.  Durations are `int64` nanoseconds, with the wrap-around
of Go's arithmetic on them.  Datagrams given to the socket are appended to
`sent`; what becomes of them is the network's business (`Construction/Rudp/Link.lean`).  Four more
fields only record history: what was accepted for sending, which calls of `accept` were made,
what was appended to `deliverQ`, and what `Read` was given.

Left out: `publishStats` and its fields, the `OnBacklog` hook and the handle in a `delivery`, none
of which feeds back into the connection.
-/

namespace RudpScheduler.Rudp

abbrev Payload := List UInt8

/-- The largest message `Write` accepts. -/
def maxPayload : ℕ := 1200

inductive PacketType
  | connect
  | connAck
  | data
  | ack
  | close
  deriving DecidableEq, Repr

structure Packet where
  typ : PacketType
  connID : UInt32
  seq : UInt32
  payload : Payload
  deriving DecidableEq, Repr

/-- The transport's tunables after `WithDefaults`. -/
structure Params where
  /-- Length of one epoch. -/
  epoch : Duration
  /-- Silent epochs before the connection is declared lost. -/
  epochLimit : ℕ
  /-- Maximum number of unacknowledged messages in flight. -/
  window : ℕ
  /-- Upper bound of a message's RTO, in epochs. -/
  maxBackoff : ℕ
  orderedDelivery : Bool
  epoch_pos : 0 < epoch
  epochLimit_pos : 0 < epochLimit
  window_pos : 0 < window
  maxBackoff_pos : 0 < maxBackoff

/-- `DefaultParams`. -/
def Params.default : Params where
  epoch := 20 * 1000000
  epochLimit := 5
  window := 5
  maxBackoff := 8
  orderedDelivery := false
  epoch_pos := by decide
  epochLimit_pos := by decide
  window_pos := by decide
  maxBackoff_pos := by decide

/-- One sent-but-unacknowledged message. -/
structure OutMsg where
  payload : Payload
  firstSent : Time
  lastSent : Time
  rto : Duration
  retries : ℕ
  retransmitted : Bool
  deriving DecidableEq, Repr

/-- The errors that end a connection. -/
inductive ConnErr
  | lost
  | closed
  deriving DecidableEq, Repr

/-- What `Read` returns: a payload, the error that ended the connection, or, on a client whose
`mainLoop` has returned, `ErrConnClosed` without a delivery. -/
inductive Delivery
  | data (payload : Payload)
  | err (e : ConnErr)
  | mainDone
  deriving DecidableEq, Repr

/-- The variables of the ordered receive path: the lowest sequence number not yet delivered, and
what arrived early.  `held` and `present` are one map here, whose absent keys differ from keys
with an empty payload. -/
structure Ordered where
  next : UInt32
  held : GoMap UInt32 Payload

structure ConnStats where
  dataSent : ℕ := 0
  retransmits : ℕ := 0
  dataReceived : ℕ := 0
  acksSent : ℕ := 0
  heartbeats : ℕ := 0
  deriving DecidableEq, Repr

/-- Which loop the connection's goroutine is in. -/
inductive Phase
  | main
  /-- In `drainAndExit`, handing the backlog to `Read`. -/
  | draining
  /-- In `flushThenExit`. -/
  | flushing
  | ended
  deriving DecidableEq, Repr

/-- One connection. -/
structure Conn where
  id : UInt32
  client : Bool
  sendBuffer : GoMap UInt32 OutMsg
  pendingWrites : List Payload
  deliverQ : List Delivery
  nextSeq : UInt32
  srtt : Duration
  hasSRTT : Bool
  epochsSilent : ℕ
  sentThisEpoch : Bool
  recv : Ordered
  stats : ConnStats
  phase : Phase
  /-- The application has called `Close` and the call was taken. -/
  closeCalled : Bool
  /-- The endpoint shut down while the backlog was being handed over. -/
  stopped : Bool
  /-- Every datagram given to the socket. -/
  sent : List Packet
  /-- Every payload taken from `writeReqCh` into `pendingWrites`. -/
  accepted : List Payload
  /-- The arguments of every call of `accept`. -/
  arrived : List (UInt32 × Payload)
  /-- Every payload appended to `deliverQ`. -/
  appended : List Payload
  /-- Everything `Read` has returned. -/
  returned : List Delivery

/-- `newConn`, after the handshake has fixed the connection ID. -/
def newConn (id : UInt32) (client : Bool) : Conn where
  id := id
  client := client
  sendBuffer := ∅
  pendingWrites := []
  deliverQ := []
  nextSeq := 0
  srtt := 0
  hasSRTT := false
  epochsSilent := 0
  sentThisEpoch := false
  recv := ⟨1, ∅⟩
  stats := {}
  phase := .main
  closeCalled := false
  stopped := false
  sent := []
  accepted := []
  arrived := []
  appended := []
  returned := []

namespace Conn

/-! ## Sending -/

/-- `send`. -/
def send (c : Conn) (typ : PacketType) (seq : UInt32) (payload : Payload) : Conn :=
  { c with sent := c.sent ++ [⟨typ, c.id, seq, payload⟩], sentThisEpoch := true }

/-- `sendAck`. -/
def sendAck (c : Conn) (seq : UInt32) : Conn :=
  let c := c.send .ack seq []
  { c with stats := { c.stats with acksSent := c.stats.acksSent + 1 } }

/-- `heartbeat`: an Ack with the reserved sequence number 0 if the epoch was idle. -/
def heartbeat (c : Conn) : Conn :=
  let c :=
    if !c.sentThisEpoch then
      let c := c.send .ack 0 []
      { c with stats := { c.stats with heartbeats := c.stats.heartbeats + 1 } }
    else c
  { c with sentThisEpoch := false }

/-- `initialRTO`: `max (2 * srtt) epoch`, or two epochs before the first sample. -/
def initialRTO (p : Params) (c : Conn) : Duration :=
  if !c.hasSRTT then Go.wrap64 (2 * p.epoch)
  else
    let rto := Go.wrap64 (2 * c.srtt)
    if rto > p.epoch then rto else p.epoch

/-- One round of `fillWindow`. -/
def sendFirst (p : Params) (c : Conn) (payload : Payload) (now : Time) : Conn :=
  let seq := c.nextSeq + 1
  let m : OutMsg :=
    { payload := payload, firstSent := now, lastSent := now, rto := c.initialRTO p, retries := 0,
      retransmitted := false }
  let c := { c with nextSeq := seq, sendBuffer := c.sendBuffer.insert seq m }
  let c := c.send .data seq payload
  { c with stats := { c.stats with dataSent := c.stats.dataSent + 1 } }

/-- The loop of `fillWindow` over the writes `pending`, with its `k`-th clock reading next. -/
def fillFrom (p : Params) (clock : ℕ → Time) : ℕ → List Payload → Conn → Conn
  | _, [], c => { c with pendingWrites := [] }
  | k, payload :: pending, c =>
    if GoMap.len c.sendBuffer < p.window then
      fillFrom p clock (k + 1) pending (c.sendFirst p payload (clock k))
    else { c with pendingWrites := payload :: pending }

/-- `fillWindow`: move writes from the head of `pendingWrites` into the window. -/
def fillWindow (p : Params) (clock : ℕ → Time) (c : Conn) : Conn :=
  c.fillFrom p clock 0 c.pendingWrites

/-- One round of `retransmitExpired`. -/
def retransmitOne (p : Params) (now : Time) (c : Conn) (seq : UInt32) : Conn :=
  match c.sendBuffer.lookup seq with
  | none => c
  | some m =>
    if Go.saturate64 (now - m.lastSent) < m.rto then c
    else
      let limit := Go.wrap64 (p.maxBackoff * p.epoch)
      let rto := Go.wrap64 (m.rto * 2)
      let rto := if rto > limit then limit else rto
      let m :=
        { m with lastSent := now, retries := m.retries + 1, retransmitted := true, rto := rto }
      let c := { c with sendBuffer := c.sendBuffer.insert seq m }
      let c := c.send .data seq m.payload
      { c with stats := { c.stats with retransmits := c.stats.retransmits + 1 } }

/-- `retransmitExpired`: resend every message whose RTO has run out. -/
def retransmitExpired (p : Params) (now : Time) (ord : RangeOrder UInt32) (c : Conn) : Conn :=
  (ord.range c.sendBuffer).foldl (retransmitOne p now) c

/-- `sampleRTT`; Go's division truncates. -/
def sampleRTT (c : Conn) (sample : Duration) : Conn :=
  if !c.hasSRTT then { c with srtt := sample, hasSRTT := true }
  else { c with srtt := (Go.wrap64 (7 * c.srtt + sample)).tdiv 8 }

/-- `onAck`. -/
def onAck (p : Params) (clock : ℕ → Time) (c : Conn) (seq : UInt32) : Conn :=
  match c.sendBuffer.lookup seq with
  | none => c
  | some m =>
    -- Karn: an Ack for a retransmitted message is ambiguous
    let c := if !m.retransmitted then c.sampleRTT (Go.saturate64 (clock 0 - m.firstSent)) else c
    let c := { c with sendBuffer := c.sendBuffer.erase seq }
    c.fillWindow p fun k => clock (k + 1)

/-! ## Receiving -/

/-- `c.deliverQ = append(c.deliverQ, delivery{...})` with a payload. -/
def deliver (c : Conn) (payload : Payload) : Conn :=
  { c with deliverQ := c.deliverQ ++ [.data payload], appended := c.appended ++ [payload] }

/-- The loop of the ordered receive path, as long as the next number is held.  Every round
removes one held message, so their number bounds the rounds. -/
def release : ℕ → Conn → Conn
  | 0, c => c
  | fuel + 1, c =>
    match c.recv.held.lookup c.recv.next with
    | none => c
    | some payload =>
      release fuel
        { c.deliver payload with recv := ⟨c.recv.next + 1, c.recv.held.erase c.recv.next⟩ }

/-- The receive path `installOrderedDelivery` installs. -/
def acceptOrdered (c : Conn) (seq : UInt32) (payload : Payload) : Conn :=
  if seq < c.recv.next ∨ (c.recv.held.lookup seq).isSome then c
  else
    let held := c.recv.held.insert seq payload
    release (GoMap.len held) { c with recv := ⟨c.recv.next, held⟩ }

/-- `c.accept(seq, payload)`. -/
def accept (p : Params) (c : Conn) (seq : UInt32) (payload : Payload) : Conn :=
  let c := { c with arrived := c.arrived ++ [(seq, payload)] }
  if p.orderedDelivery then c.acceptOrdered seq payload else c.deliver payload

/-! ## The three loops -/

/-- The beginning of `drainAndExit`; `dead` is closed here. -/
def beginDrain (c : Conn) (e : ConnErr) : Conn :=
  { c with deliverQ := c.deliverQ ++ [.err e], phase := .draining }

/-- The loop condition of `flushThenExit`, and what follows the loop. -/
def checkFlushed (c : Conn) : Conn :=
  if 0 < GoMap.len c.sendBuffer ∨ 0 < c.pendingWrites.length then c
  else { c.send .close 0 [] with phase := .ended }

/-- `case p := <-c.inCh` of `mainLoop`. -/
def onPacket (p : Params) (clock : ℕ → Time) (c : Conn) (pkt : Packet) : Conn :=
  if pkt.connID ≠ c.id then c
  else
    let c := { c with epochsSilent := 0 }
    match pkt.typ with
    | .ack => c.onAck p clock pkt.seq
    | .data =>
      if pkt.seq = 0 then c
      else
        let c := { c with stats := { c.stats with dataReceived := c.stats.dataReceived + 1 } }
        (c.accept p pkt.seq pkt.payload).sendAck pkt.seq
    | .close => c.beginDrain .closed
    | _ => c

/-- `case p := <-c.inCh` of `flushThenExit`: incoming data is acknowledged, not delivered. -/
def onPacketFlushing (p : Params) (clock : ℕ → Time) (c : Conn) (pkt : Packet) : Conn :=
  if pkt.connID ≠ c.id then c
  else
    let c := { c with epochsSilent := 0 }
    match pkt.typ with
    | .ack => (c.onAck p clock pkt.seq).checkFlushed
    | .data => c.sendAck pkt.seq
    | .close => { c with phase := .ended }
    | _ => c

/-- `case data := <-c.writeReqCh` of `mainLoop`. -/
def onWrite (p : Params) (clock : ℕ → Time) (c : Conn) (data : Payload) : Conn :=
  let c :=
    { c with pendingWrites := c.pendingWrites ++ [data], accepted := c.accepted ++ [data] }
  c.fillWindow p clock

/-- What both tick cases begin with. -/
def tickCommon (p : Params) (now : Time) (ord : RangeOrder UInt32) (c : Conn) : Conn :=
  let c := (c.retransmitExpired p now ord).heartbeat
  { c with epochsSilent := c.epochsSilent + 1 }

/-- `case <-ticker.C` of `mainLoop`. -/
def onTick (p : Params) (now : Time) (ord : RangeOrder UInt32) (c : Conn) : Conn :=
  let c := c.tickCommon p now ord
  if p.epochLimit ≤ c.epochsSilent then c.beginDrain .lost else c

/-- `case <-ticker.C` of `flushThenExit`. -/
def onTickFlushing (p : Params) (now : Time) (ord : RangeOrder UInt32) (c : Conn) : Conn :=
  let c := c.tickCommon p now ord
  if p.epochLimit ≤ c.epochsSilent then { c with phase := .ended } else c

/-- `case <-c.closeCh` of `mainLoop`, up to the first wait of `flushThenExit`. -/
def onClose (p : Params) (clock : ℕ → Time) (c : Conn) : Conn :=
  let c := { c with closeCalled := true, phase := .flushing }
  (c.fillWindow p clock).checkFlushed

/-- `Read` takes the head of the queue; the last hand-over of a drain ends the goroutine. -/
def handOver (c : Conn) : Option Conn :=
  match c.deliverQ with
  | [] => none
  | d :: rest =>
    let phase := if c.phase = .draining ∧ rest = [] then .ended else c.phase
    some { c with deliverQ := rest, returned := c.returned ++ [d], phase := phase }

end Conn

/-- One thing that can happen to a connection's goroutine. -/
inductive Input
  /-- A packet routed here by the read loop. -/
  | packet (pkt : Packet) (clock : ℕ → Time)
  /-- The application calls `Write`. -/
  | write (data : Payload) (clock : ℕ → Time)
  /-- The application calls `Read`. -/
  | read
  /-- One epoch has passed. -/
  | tick (now : Time) (ord : RangeOrder UInt32)
  /-- The application calls `Close`. -/
  | close (clock : ℕ → Time)
  /-- The endpoint is shutting down and nobody will call `Read`. -/
  | stop

/-- One round of the loop the connection is in; `none` when the loop does not wait for this. -/
def Conn.step (p : Params) (c : Conn) : Input → Option Conn
  | .packet pkt clock =>
    match c.phase with
    | .main => some (c.onPacket p clock pkt)
    | .flushing => some (c.onPacketFlushing p clock pkt)
    | _ => none
  | .write data clock =>
    match c.phase with
    -- a larger payload is a programming error, and `Write` panics
    | .main => if data.length ≤ maxPayload then some (c.onWrite p clock data) else none
    -- written after `Close`: discarded
    | .flushing => some c
    | _ => none
  | .read =>
    match c.phase with
    | .main | .draining => c.handOver
    | .ended => if c.client then some { c with returned := c.returned ++ [.mainDone] } else none
    | _ => none
  | .tick now ord =>
    match c.phase with
    | .main => some (c.onTick p now ord)
    | .flushing => some (c.onTickFlushing p now ord)
    | _ => none
  | .close clock =>
    match c.phase with
    | .main => some (c.onClose p clock)
    | .draining => some { c with phase := .ended, closeCalled := true }
    | _ => none
  | .stop =>
    match c.phase with
    | .draining => some { c with phase := .ended, stopped := true }
    | _ => none

end RudpScheduler.Rudp
