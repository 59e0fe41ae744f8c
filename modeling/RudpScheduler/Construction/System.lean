import RudpScheduler.Construction.Recover
import RudpScheduler.Construction.WorkerLoop

/-!
# The scheduler as a system of goroutines

`sched/sched.go`: the dispatcher, the client handlers with their feeders, the worker loops and
the aggregator, connected by the two queues and by channels.  `Sys` is the state of all of them
and `Sys.step` one step of one of them, so a run (`Framework/Runs.lean`) is an interleaving.

A goroutine is interrupted only where it can wait.  The dispatcher is at its `Read` or at one of
its two channel sends, a handler at the submit, at the reply or at the push into `nq`; a round
of the aggregator's loop is one step, since it touches nothing the others can see but the
channels.  Sends on `submitCh`, `resultsCh` and `clientGoneCh` are unbuffered, so the sender and
the aggregator move together.

The transport is the interface of package `transport`: `Read` reports messages of any connection
in any order and more than once, and the error of a connection only after its `Done` is closed.
Goroutines are numbered in the order they are started, which stands for the identity of a
`*worker`.  The run ends when `stop` is closed, so `stop` is not modelled; neither are payloads
`Decode` rejects or message types the dispatcher ignores.
-/

namespace RudpScheduler

/-- Where the dispatcher is. -/
inductive Disp
  /-- In `srv.Read`. -/
  | reading
  /-- `w.resultCh <- m`. -/
  | forwarding (w : ℕ) (r : ChunkResult)
  /-- `s.clientGoneCh <- h.ID()`. -/
  | notifying (c : ConnID)
  deriving DecidableEq

/-- A `clientHandler`, or a feeder started by `Run`. -/
inductive Handler
  /-- `s.submitCh <- submitReq{...}`. -/
  | submitting (h : ConnID) (spec : JobSpec)
  /-- The aggregator has answered; the reply is still in its channel. -/
  | replied (h : ConnID) (spec : JobSpec) (reply : SubmitReply)
  /-- In `feed`, with the tasks still to queue; at the empty list the goroutine is over. -/
  | feeding (cancel : Option ℕ) (rest : List Task)
  deriving DecidableEq

/-- The scheduler's goroutines and what they share. -/
structure Sys where
  agg : Agg
  queues : Queues
  disp : Disp
  /-- The dispatcher's table of workers; a worker is named by the number of its loop. -/
  workers : GoMap ConnID ℕ
  /-- The dispatcher's table of clients. -/
  clients : Finset ConnID
  loops : GoMap ℕ Worker
  handlers : GoMap ℕ Handler
  /-- The number of the next goroutine. -/
  nextGo : ℕ
  /-- The connections whose `Done` is closed. -/
  down : Finset ConnID
  /-- The connections whose gone notice the aggregator has consumed. -/
  notified : Finset ConnID
  /-- The chunks written to workers so far, with the loop that wrote them. -/
  wrote : List (ℕ × Chunk)

/-- One step of one goroutine, or of the outside. -/
inductive Action
  /-- A connection ends and its `Done` is closed. -/
  | connDown (c : ConnID)
  /-- `Read` reports that a connection has ended. -/
  | readError (c : ConnID)
  | readJoin (c : ConnID)
  | readRequest (c : ConnID) (req : Request)
  | readResult (c : ConnID) (r : ChunkResult)
  /-- The dispatcher's send to a worker loop goes through. -/
  | forward
  /-- The aggregator takes the dispatcher's gone notice. -/
  | gone (now : Time)
  /-- The aggregator takes a handler's request. -/
  | submit (g : ℕ) (now : Time)
  /-- A handler takes the aggregator's reply. -/
  | takeReply (g : ℕ)
  /-- A feeder pushes a task into `nq`. -/
  | feed (g : ℕ)
  /-- A feeder sees its job's cancel channel closed. -/
  | feedCancel (g : ℕ)
  /-- A step of a worker loop on its own. -/
  | loop (w : ℕ) (a : LoopAction)
  /-- The aggregator takes the result a worker loop holds. -/
  | deliver (w : ℕ) (now : Time)
  /-- The aggregator's housekeeping. -/
  | tick (now : Time) (ords : Agg.TickOrders)

namespace Sys

/-- `go` for a handler or a feeder. -/
def spawn (s : Sys) (h : Handler) : Sys :=
  { s with handlers := s.handlers.insert s.nextGo h, nextGo := s.nextGo + 1 }

/-- What `New` prepares: empty queues, and nothing heard from any connection yet. -/
def initial (agg : Agg) : Sys where
  agg := agg
  queues := ⟨[], []⟩
  disp := .reading
  workers := ∅
  clients := ∅
  loops := ∅
  handlers := ∅
  nextGo := 0
  down := ∅
  notified := ∅
  wrote := []

/-- `Run`: the feeders of the recovered jobs, the aggregator, the dispatcher. -/
def start (boot : Recovered) : Sys :=
  boot.feeds.foldl (fun s f => s.spawn (.feeding (some f.cancel) (f.spec.feed f.skip)))
    (initial boot.agg)

/-! ## The dispatcher -/

/-- `close(w.dead)`. -/
def closeDead (loops : GoMap ℕ Worker) (w : ℕ) : GoMap ℕ Worker :=
  match loops.lookup w with
  | some l => loops.insert w { l with dead := true }
  | none => loops

/-- `Read` has reported that connection `c` is gone. -/
def onError (s : Sys) (c : ConnID) : Sys :=
  match s.workers.lookup c with
  | some w => { s with workers := s.workers.erase c, loops := closeDead s.loops w }
  | none =>
    if c ∈ s.clients then { s with clients := s.clients.erase c, disp := .notifying c } else s

/-- `case wire.Join`. -/
def onJoin (s : Sys) (c : ConnID) : Sys :=
  if (s.workers.lookup c).isSome ∨ c ∈ s.clients then s
  else
    { s with
      workers := s.workers.insert c s.nextGo
      loops := s.loops.insert s.nextGo (newWorker c)
      nextGo := s.nextGo + 1 }

/-- `case wire.Request`. -/
def onRequest (p : Params) (s : Sys) (c : ConnID) (req : Request) : Sys :=
  if (s.workers.lookup c).isSome ∨ c ∈ s.clients then s
  else
    ({ s with clients := insert c s.clients } : Sys).spawn
      (.submitting c (JobSpec.ofRequest p.chunkSize req))

/-- `case wire.ChunkResult`. -/
def onResult (s : Sys) (c : ConnID) (r : ChunkResult) : Sys :=
  match s.workers.lookup c with
  | some w => { s with disp := .forwarding w r }
  | none => s

/-- `w.resultCh <- m`; the channel holds `4 * window` results. -/
def forward (p : Params) (s : Sys) : Option Sys :=
  match s.disp with
  | .forwarding w r =>
    match s.loops.lookup w with
    | some l =>
      if l.resultCh.length < 4 * p.window then
        some { s with
          disp := .reading
          loops := s.loops.insert w { l with resultCh := l.resultCh ++ [r] } }
      else none
    | none => none
  | _ => none

/-! ## Handlers and feeders -/

/-- `case r := <-reply` of `clientHandler`. -/
def takeReply (s : Sys) (g : ℕ) : Option Sys :=
  match s.handlers.lookup g with
  | some (.replied _ spec reply) =>
    if reply.feed then
      some { s with handlers := s.handlers.insert g (.feeding reply.cancel (spec.feed ∅)) }
    else some { s with handlers := s.handlers.erase g }
  | _ => none

/-- `case s.nq <- t` of `feed`. -/
def feed (p : Params) (s : Sys) (g : ℕ) : Option Sys :=
  match s.handlers.lookup g with
  | some (.feeding cancel (t :: rest)) =>
    if s.queues.nq.length < p.nqCap then
      some { s with
        queues := { s.queues with nq := s.queues.nq ++ [t] }
        handlers := s.handlers.insert g (.feeding cancel rest) }
    else none
  | _ => none

/-- `case <-cancel` of `feed`. -/
def feedCancel (s : Sys) (g : ℕ) : Option Sys :=
  match s.handlers.lookup g with
  | some (.feeding (some c) (_ :: _)) =>
    if c ∈ s.agg.closed then some { s with handlers := s.handlers.erase g } else none
  | _ => none

/-! ## The aggregator and the worker loops -/

/-- `case req := <-s.submitCh` of the aggregator. -/
def submit (wl : Workload) (s : Sys) (g : ℕ) (now : Time) : Option Sys :=
  match s.handlers.lookup g with
  | some (.submitting h spec) =>
    let (agg, reply) := s.agg.submit wl h spec (h ∈ s.down) now
    some { s with agg := agg, handlers := s.handlers.insert g (.replied h spec reply) }
  | _ => none

/-- `case conn := <-s.clientGoneCh` of the aggregator. -/
def gone (s : Sys) (now : Time) : Option Sys :=
  match s.disp with
  | .notifying c =>
    some { s with
      agg := s.agg.clientGone c now
      disp := .reading
      notified := insert c s.notified }
  | _ => none

/-- `case r := <-s.resultsCh` of the aggregator. -/
def deliver (wl : Workload) (s : Sys) (w : ℕ) (now : Time) : Option Sys :=
  match s.loops.lookup w with
  | some l =>
    match l.phase with
    | .holding r =>
      some { s with
        agg := s.agg.result wl r now
        loops := s.loops.insert w { l with phase := .top } }
    | _ => none
  | none => none

/-- A step of worker loop `w` on its own. -/
def loopStep (p : Params) (s : Sys) (w : ℕ) (a : LoopAction) : Option Sys :=
  (s.loops.lookup w).bind fun l =>
    (l.step p s.queues a).map fun (q, l', chunks) =>
      { s with
        queues := q
        loops := s.loops.insert w l'
        wrote := s.wrote ++ chunks.map (w, ·) }

/-- One step of the system; `none` where the goroutine waits or is somewhere else. -/
def step (wl : Workload) (p : Params) (s : Sys) : Action → Option Sys
  | .connDown c => some { s with down := insert c s.down }
  | .readError c => if s.disp = .reading ∧ c ∈ s.down then some (s.onError c) else none
  | .readJoin c => if s.disp = .reading then some (s.onJoin c) else none
  | .readRequest c req => if s.disp = .reading then some (s.onRequest p c req) else none
  | .readResult c r => if s.disp = .reading then some (s.onResult c r) else none
  | .forward => s.forward p
  | .gone now => s.gone now
  | .submit g now => s.submit wl g now
  | .takeReply g => s.takeReply g
  | .feed g => s.feed p g
  | .feedCancel g => s.feedCancel g
  | .loop w a => s.loopStep p w a
  | .deliver w now => s.deliver wl w now
  | .tick now ords => some { s with agg := s.agg.tick p now ords }

end Sys

end RudpScheduler
