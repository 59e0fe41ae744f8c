import RudpScheduler.Construction.Host
import RudpScheduler.Construction.Node

/-!
# The whole system, over the transport's contract

The scheduler, the clients and the workers, connected by what package `transport` promises and
nothing more.  A `Read` returns a message the other end has written at some time, in any order and
any number of times, or never; so each `Peer` keeps everything that was ever written in either
direction, and a `Read` picks from it.  A connection of the server belongs to one peer.

The server may crash at any moment and start again from what the log has kept: a prefix of the
records that has at least the synced ones and those of the last `Rewrite`.  Its connections are gone
then, but messages it has written may still be on their way, and a peer may turn up on a new
connection.  Clients that want their answer after a crash, or after losing a connection, submit the
same job again; that is one more peer.  All lives of the server have the same `Params`.

Payloads are the bytes `wire.Encode` produces.  A step that panics is no step here; that there is
none is `Host.never_panics`.
-/

namespace RudpScheduler

open Rudp (Payload)

/-- A process that talks to the server, with everything written in either direction. -/
structure Peer where
  proc : Process
  toServer : List Payload
  toPeer : List Payload
  deriving DecidableEq, Repr

/-- The scheduler and its peers. -/
structure Cluster where
  sys : Sys
  peers : GoMap ℕ Peer
  /-- Which peer a connection of the server belongs to. -/
  conns : GoMap ConnID ℕ

/-- One step of the server, of a peer or of the outside. -/
inductive ClusterAction
  /-- A process starts. -/
  | start (k : ℕ) (prog : Program)
  /-- The server accepts a connection of peer `k`. -/
  | accept (c : ConnID) (k : ℕ)
  /-- `srv.Read` reports a message, and the dispatcher acts on it. -/
  | read (c : ConnID) (data : Payload)
  /-- A step of the scheduler, the end of a connection, or the report of that end. -/
  | sched (a : Action)
  /-- A peer's `Read` returns a message. -/
  | peerRead (k : ℕ) (data : Payload)
  /-- A peer's `Read` returns an error. -/
  | peerError (k : ℕ)
  /-- The server stops and starts again; at least `keep` records have survived. -/
  | crash (keep : ℕ) (now : Time) (ords : RecoverOrders) (fails : ℕ → Bool)

/-- The messages of clients and workers come in through `read`. -/
def Action.isMessage : Action → Bool
  | .readJoin _ | .readRequest _ _ | .readResult _ _ => true
  | _ => false

/-- What a crash leaves of a log: at least what was synced, and all of the last `Rewrite`. -/
def Log.survivors (l : Log) (keep : ℕ) : List Record :=
  l.recs.take (max keep (max l.synced l.base))

namespace Cluster

/-- The first start, with no peers yet. -/
def start (boot : Recovered) : Cluster := ⟨Sys.start boot, ∅, ∅⟩

/-- A message of the server on connection `c`. -/
def post (conns : GoMap ConnID ℕ) (peers : GoMap ℕ Peer) (c : ConnID) (data : Payload) :
    GoMap ℕ Peer :=
  match conns.lookup c with
  | some k =>
    match peers.lookup k with
    | some q => peers.insert k { q with toPeer := q.toPeer ++ [data] }
    | none => peers
  | none => peers

/-- The peers after the scheduler has written the messages `ms`. -/
def postAll (conns : GoMap ConnID ℕ) (peers : GoMap ℕ Peer)
    (ms : List (Goroutine × ConnID × Message)) : Go (GoMap ℕ Peer) :=
  ms.foldlM (fun peers (_, c, m) => do return post conns peers c (← encodeWrite m)) peers

/-- A peer has read `data`. -/
def peerRead (wl : Workload) (q : Peer) (data : Payload) : Go Peer := do
  let (proc, out) ← q.proc.onRead wl data
  return { q with proc := proc, toServer := q.toServer ++ out }

/-- One step; `none` where it is not enabled. -/
def step (wl : Workload) (p : Params) (s : Cluster) : ClusterAction → Option Cluster
  | .start k prog =>
    match s.peers.lookup k with
    | some _ => none
    | none => (Process.start prog).toOption.map fun (proc, out) =>
      { s with peers := s.peers.insert k ⟨proc, out, []⟩ }
  | .accept c k =>
    match s.conns.lookup c, s.peers.lookup k with
    | none, some _ => some { s with conns := s.conns.insert c k }
    | _, _ => none
  | .read c data =>
    match (s.conns.lookup c).bind s.peers.lookup with
    | some q =>
      if s.sys.disp = .reading ∧ data ∈ q.toServer then
        (s.sys.dispatch p c (.data data)).toOption.map fun sys => { s with sys := sys }
      else none
    | none => none
  | .sched a =>
    if a.isMessage then none
    else (s.sys.step wl p a).bind fun sys =>
      (postAll s.conns s.peers (s.sys.written sys)).toOption.map fun peers =>
        { s with sys := sys, peers := peers }
  | .peerRead k data =>
    match s.peers.lookup k with
    | some q =>
      if data ∈ q.toPeer then
        (peerRead wl q data).toOption.map fun q => { s with peers := s.peers.insert k q }
      else none
    | none => none
  | .peerError k =>
    (s.peers.lookup k).map fun q =>
      { s with peers := s.peers.insert k { q with proc := q.proc.onError } }
  | .crash keep now ords fails =>
    (recover wl now ords (s.sys.agg.log.map fun l => (l.survivors keep, fails))).map fun boot =>
      { s with sys := Sys.start boot, conns := ∅ }

end Cluster

end RudpScheduler
