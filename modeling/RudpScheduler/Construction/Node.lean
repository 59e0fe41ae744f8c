import RudpScheduler.Construction.WireCodec
import RudpScheduler.Construction.Rudp.Conn

/-!
# Clients and workers

Package `node`: the programs at the other end of the server's connections.  Both talk to a
`transport.Client`, so all they do is `Write` and `Read`; a `Process` is one of them between two
`Read`s.  `Submit` sends one request and waits for the `Result` of its job, `RunWorker` announces
itself and answers every `Chunk` it is given.  What `Read` returns may be anything the server has
ever written to the connection, so both skip what they do not understand.

`NewJobID` is left out: job IDs are part of the request here.
-/

namespace RudpScheduler

open Rudp (Payload)

/-- What a process at the other end of a connection runs. -/
inductive Program
  /-- `RunWorker`. -/
  | runWorker
  /-- `Submit`. -/
  | submit (req : Request)
  deriving DecidableEq, Repr

/-- A running program, between two `Read`s. -/
inductive Process
  /-- `RunWorker`, in its loop. -/
  | serving
  /-- `RunWorker` has returned the error that ended its connection. -/
  | left
  /-- `Submit`, in its loop. -/
  | waiting (req : Request)
  /-- `Submit` has returned: an answer, or an error. -/
  | returned (req : Request) (answer : Option Partial)
  deriving DecidableEq, Repr

namespace Process

/-- What a program does before its first `Read`, with what it writes. -/
def start : Program → Go (Process × List Payload)
  | .runWorker => do return (.serving, [← Wire.encode .join])
  | .submit req =>
    if req.msg.length > Wire.maxMsgLen then return (.returned req none, [])
    else do return (.waiting req, [← Wire.encode (.request req)])

/-- `Read` returns a message: the next state, and what is written in answer. -/
def onRead (wl : Workload) (n : Process) (data : Payload) : Go (Process × List Payload) :=
  match n with
  | .serving => do
    match ← Wire.decode data with
    | some (.chunk ch) => return (.serving, [← Wire.encode (.chunkResult (wl.answer ch))])
    | _ => return (.serving, [])
  | .waiting req => do
    match ← Wire.decode data with
    | some (.result r) =>
      if r.job = req.job then return (.returned req (some r.value), [])
      else return (.waiting req, [])
    | _ => return (.waiting req, [])
  -- the program has returned and reads no more
  | n => return (n, [])

/-- `Read` returns an error. -/
def onError : Process → Process
  | .serving => .left
  | .waiting req => .returned req none
  | n => n

end Process

end RudpScheduler
