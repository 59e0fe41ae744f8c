import RudpScheduler.Construction.Channels
import RudpScheduler.Construction.WireCodec
import RudpScheduler.Construction.Rudp.Server

/-!
# The server process

The scheduler on top of the transport: bytes come in as datagrams, and the goroutines of
`rudp.Server` (`Construction/Rudp/Server.lean`) and of the scheduler (`Construction/System.lean`)
run on them.  `Read` takes the oldest delivery of a connection and the dispatcher decodes it;
what a worker loop or the aggregator writes is encoded and handed to `ConnHandle.Write`, which
waits until the connection takes it or is dead.  A goroutine that is in `Write` does nothing
else (`Host.writing`).

Every operation of these goroutines that can panic does so in `Host.step`, whose results are
therefore `Go` values: reads of a buffer, the two panics of `Encode` and `Write`, the divisions of
`split`, the close of a worker's `dead`, of a job's `cancel` and of a connection's `dead`, and the
use of a missing connection.  A close of a job's `cancel` is recorded in `Tables.closed`, so a
channel closed twice is one that occurs there twice.

Shutdown (`Server.Close`) is not part of this model, and the scheduler never closes a single
connection.
-/

namespace RudpScheduler

open Rudp (AddrOps Delivery Payload Server ServerAction)

/-! ## Operations that can panic -/

/-- Integer division. -/
def divGo (a b : UInt64) : Go UInt64 := if b = 0 then .error .divideByZero else .ok (a / b)

/-- The remainder. -/
def modGo (a b : UInt64) : Go UInt64 := if b = 0 then .error .divideByZero else .ok (a % b)

/-- `split`, with its divisions checked. -/
def splitGo (lo hi chunkSize : UInt64) : Go (UInt32 × UInt64) :=
  if hi ≤ lo then return (0, chunkSize)
  else do
    let span := hi - lo
    let size ← if (← divGo span chunkSize) ≥ maxChunksPerJob then do
        pure ((← divGo span maxChunksPerJob) + 1)
      else pure chunkSize
    let count ← divGo span size
    let count := if (← modGo span size) ≠ 0 then count + 1 else count
    let count := if count > 4294967295 then 4294967295 else count
    return (count.toUInt32, size)

/-- `ConnHandle.Write`, up to the `select` that hands the data over. -/
def Rudp.writeGo (data : Payload) : Go Payload :=
  if data.length > Rudp.maxPayload then .error (.explicit "rudp: payload exceeds MaxPayload")
  else .ok data

/-- `h.Write(wire.Encode(m))`. -/
def encodeWrite (m : Message) : Go Payload := do Rudp.writeGo (← Wire.encode m)

namespace Sys

/-- `case wire.Request`, and the first line of the `clientHandler` it starts. -/
def onRequestGo (p : Params) (s : Sys) (c : ConnID) (req : Request) : Go Sys :=
  if (s.workers.lookup c).isSome ∨ c ∈ s.clients then return s
  else do
    let (n, size) ← splitGo req.lo req.hi p.chunkSize
    return ({ s with clients := insert c s.clients } : Sys).spawn
      (.submitting c ⟨req.job, req.lo, req.hi, size, n, req.msg⟩)

/-- The error of connection `c`, with the close of the worker's `dead` checked. -/
def onErrorGo (s : Sys) (c : ConnID) : Go Sys :=
  if ((s.workers.lookup c).bind s.loops.lookup).any Worker.dead then .error .closeOfClosedChannel
  else return s.onError c

/-- What the dispatcher does with what `Read` returned. -/
def dispatch (p : Params) (s : Sys) (c : ConnID) : Delivery → Go Sys
  | .data payload => do
    match ← Wire.decode payload with
    | some .join => return s.onJoin c
    | some (.request req) => s.onRequestGo p c req
    | some (.chunkResult r) => return s.onResult c r
    | _ => return s
  -- the connection's `Done` is closed before its error is reported
  | .err _ => ({ s with down := insert c s.down } : Sys).onErrorGo c
  | .mainDone => return s

/-- The messages the scheduler wrote between `s` and `t`, with the writer and the connection. -/
def written (s t : Sys) : List (Goroutine × ConnID × Message) :=
  (t.wrote.drop s.wrote.length).map (fun (w, ch) =>
    (.loop w, ((t.loops.lookup w).map Worker.h).getD 0, .chunk ch)) ++
  (t.agg.out.drop s.agg.out.length).filterMap fun
    | .wrote h m => some (.aggregator, h, .result m)
    | _ => none

end Sys

/-- The goroutine that takes a step of the scheduler. -/
def Action.runner : Action → Option Goroutine
  | .connDown _ => none
  | .readError _ | .readJoin _ | .readRequest _ _ | .readResult _ _ | .forward => some .dispatcher
  | .gone _ | .submit _ _ | .deliver _ _ | .tick _ _ => some .aggregator
  | .takeReply g | .feed g | .feedCancel g => some (.handler g)
  | .loop w _ => some (.loop w)

/-- The steps of the scheduler that are the transport's doing. -/
def Action.fromTransport : Action → Bool
  | .connDown _ | .readError _ | .readJoin _ | .readRequest _ _ | .readResult _ _ => true
  | _ => false

/-! ## The process -/

/-- The server process. -/
structure Host (Addr : Type) where
  server : Server Addr
  sys : Sys
  /-- The writes that have not been taken yet: by whom, to which connection, and what. -/
  writing : List (Goroutine × ConnID × Payload)

/-- One step of the process, or of the outside. -/
inductive HostAction (Addr : Type)
  /-- A step of the read loop, or a packet or a tick for a connection. -/
  | transport (a : ServerAction Addr)
  /-- `Read` takes the oldest delivery of a connection, and the dispatcher acts on it. -/
  | read (g : ℕ)
  /-- Any other step of a goroutine of the scheduler. -/
  | sched (a : Action)
  /-- A connection takes a write. -/
  | write (x : Goroutine) (clock : ℕ → Time)
  /-- A write to a dead connection is dropped. -/
  | drop (x : Goroutine)

namespace Host

variable {Addr : Type}

/-- The steps of the transport that the scheduler has no part in. -/
def onlyTransport : ServerAction Addr → Bool
  | .close | .ask _ | .askDead => false
  | .conn _ (.tick _ _) => true
  | .conn _ _ => false
  | _ => true

/-- The connection a step of the transport is a step of. -/
def connOf : ServerAction Addr → Option ℕ
  | .recv g _ | .conn g _ => some g
  | _ => none

/-- The process after start-up. -/
def start (boot : Recovered) : Host Addr := ⟨Server.start, Sys.start boot, []⟩

/-- What `Done` tells the scheduler about connection `g`. -/
def seeDone (s : Host Addr) (g : ℕ) : Host Addr :=
  match s.server.gos.lookup g with
  | some c =>
    if c.dead then { s with sys := { s.sys with down := insert c.conn.id.toNat s.sys.down } } else s
  | none => s

/-- A step of the transport. -/
def transport (ops : AddrOps Addr) (rp : Rudp.Params) (s : Host Addr) (a : ServerAction Addr) :
    Option (Go (Host Addr)) :=
  (s.server.step ops rp a).map fun r => r.map fun server =>
    match connOf a with
    | some g => ({ s with server := server } : Host Addr).seeDone g
    | none => { s with server := server }

/-- `Read` returns what connection `g` delivers next. -/
def read (ops : AddrOps Addr) (rp : Rudp.Params) (p : Params) (s : Host Addr) (g : ℕ) :
    Option (Go (Host Addr)) :=
  if s.sys.disp = .reading then
    (s.server.gos.lookup g).bind fun c =>
      match c.conn.deliverQ with
      | [] => none
      | d :: _ => (s.server.step ops rp (.conn g .read)).map fun r => do
        let server ← r
        let sys ← s.sys.dispatch p c.conn.id.toNat d
        return { s with server := server, sys := sys }
  else none

/-- Encode what was written, and check the closes of cancel channels. -/
def checked (s : Host Addr) (sys : Sys) : Go (Host Addr) := do
  let ws ← (s.sys.written sys).mapM fun (x, c, m) => return (x, c, ← encodeWrite m)
  if sys.agg.closed.Nodup then return { s with sys := sys, writing := s.writing ++ ws }
  else .error .closeOfClosedChannel

/-- A step of a goroutine of the scheduler that is not in `Write`. -/
def sched (wl : Workload) (p : Params) (s : Host Addr) (a : Action) : Option (Go (Host Addr)) :=
  if a.fromTransport ∨ ∃ e ∈ s.writing, some e.1 = a.runner then none
  else (s.sys.step wl p a).map s.checked

/-- `case h.writeReqCh <- data` of `ConnHandle.Write`. -/
def write (ops : AddrOps Addr) (rp : Rudp.Params) (s : Host Addr) (x : Goroutine)
    (clock : ℕ → Time) : Option (Go (Host Addr)) :=
  match s.writing.find? (·.1 = x) with
  | none => none
  | some e =>
    -- IDs are given out in the order of `accepted`, so until they wrap around the goroutine of
    -- connection `c` has the number `c`
    (s.server.step ops rp (.conn e.2.1 (.write e.2.2 clock))).map fun r => r.map fun server =>
      { s with server := server, writing := s.writing.erase e }

/-- `case <-h.dead` of `ConnHandle.Write`. -/
def drop (s : Host Addr) (x : Goroutine) : Option (Go (Host Addr)) :=
  match s.writing.find? (·.1 = x) with
  | none => none
  | some e =>
    if s.server.isDead e.2.1 then some (.ok { s with writing := s.writing.erase e }) else none

/-- One step; `none` where the goroutine waits or is somewhere else. -/
def step (ops : AddrOps Addr) (rp : Rudp.Params) (wl : Workload) (p : Params) (s : Host Addr) :
    HostAction Addr → Option (Go (Host Addr))
  | .transport a => if onlyTransport a then s.transport ops rp a else none
  | .read g => s.read ops rp p g
  | .sched a => s.sched wl p a
  | .write x clock => s.write ops rp x clock
  | .drop x => s.drop x

end Host

end RudpScheduler
