import RudpScheduler.Framework.Runs
import RudpScheduler.Construction.Cluster
import RudpScheduler.Properties.NoPanic
import RudpScheduler.Properties.RightAnswers

/-!
# A client that gets an answer gets the right one

The statement about the whole system: clients, workers and a server that crashes and starts again,
over a network that loses, repeats and reorders.  `submit_returns_right`: whatever the run, an
answer `Submit` has returned is what `Compute` says about the request's whole range.  What is
assumed is the contract of the workload, that requests with the same job ID are the same request and
that all lives of the server have one configuration: a restart with another `ChunkSize` would cut
the same request into other chunks under the same numbers.  Nothing is assumed of the workers beyond
what their program does, so the facts about results that `exactly_once` and `counts_own_chunk` take
as hypotheses are proved here.

The jobs that exist are the requests of all clients of the run (`requests`), fixed before the run is
looked at; `Cluster.Right` says that the scheduler holds nothing wrong about them
(`Sys.Right`), and that no message that was ever written does.
-/

namespace RudpScheduler

open Rudp (Payload)

variable {wl : Workload} {p : Params} {es : List Event} {hwl : wl.Contract}

/-! ## Payloads and processes -/

section Right

variable (wl : Workload) (es : List Event) (p : Params)

/-- The bytes carry no wrong message. -/
def RightPayload (data : Payload) : Prop :=
  ∀ m, Wire.decode data = .ok (some m) → m.Right wl es p

/-- The process has sent a request for a job that exists, and has returned no wrong answer. -/
def Process.Right : Process → Prop
  | .waiting req => Submitted es (JobSpec.ofRequest p.chunkSize req)
  | .returned req (some v) => v = wl.compute req.msg req.lo req.hi
  | .returned _ none | .serving | .left => True

/-- The process is right, and so is everything written in either direction. -/
structure Peer.Right (q : Peer) : Prop where
  proc : q.proc.Right wl es p
  toServer : ∀ data ∈ q.toServer, RightPayload wl es p data
  toPeer : ∀ data ∈ q.toPeer, RightPayload wl es p data

end Right

/-- The scheduler and its peers are right. -/
structure Cluster.Right (hwl : wl.Contract) (p : Params) (es : List Event) (s : Cluster) :
    Prop where
  sys : s.sys.Right hwl es
  peers : ∀ k q, s.peers.lookup k = some q → q.Right wl es p

/-- The bytes of a right message. -/
lemma RightPayload.of_encode {m : Message} {data : Payload} (h : Wire.encode m = .ok data)
    (hm : m.Right wl es p) : RightPayload wl es p data := by
  obtain ⟨hfits, rfl⟩ := Wire.encode_eq_ok_iff.mp h
  intro m' hm'
  rw [Wire.decode_bytes hfits] at hm'
  rwa [← Option.some_inj.mp (Except.ok.inj hm')]

lemma RightPayload.of_encodeWrite {m : Message} {data : Payload} (h : encodeWrite m = .ok data)
    (hm : m.Right wl es p) : RightPayload wl es p data := by
  obtain ⟨data', hdata', h⟩ := Go.bind_eq_ok.mp h
  unfold Rudp.writeGo at h
  split_ifs at h
  obtain rfl := Except.ok.inj h
  exact .of_encode hdata' hm

namespace Process

/-- A program that starts, with a request for a job that exists. -/
lemma start_right {prog : Program} {n : Process} {out : List Payload}
    (hprog : ∀ req, prog = .submit req → Submitted es (JobSpec.ofRequest p.chunkSize req))
    (h : start prog = .ok (n, out)) :
    n.Right wl es p ∧ ∀ data ∈ out, RightPayload wl es p data := by
  cases prog with
  | runWorker =>
      obtain ⟨b, hb, h⟩ := Go.bind_eq_ok.mp h
      obtain ⟨rfl, rfl⟩ := Prod.mk.inj (Except.ok.inj h)
      exact ⟨trivial, List.forall_mem_singleton.mpr (.of_encode hb trivial)⟩
  | submit req =>
      have hreq := hprog req rfl
      unfold start at h
      dsimp only at h
      split_ifs at h
      · obtain ⟨rfl, rfl⟩ := Prod.mk.inj (Except.ok.inj h)
        exact ⟨trivial, by simp⟩
      · obtain ⟨b, hb, h⟩ := Go.bind_eq_ok.mp h
        obtain ⟨rfl, rfl⟩ := Prod.mk.inj (Except.ok.inj h)
        exact ⟨hreq, List.forall_mem_singleton.mpr (.of_encode hb hreq)⟩

/-- The answer to a job is the answer to its request. -/
lemma answer_right (hon : Honest wl p es) {req : Request} {r : Result}
    (hreq : Submitted es (JobSpec.ofRequest p.chunkSize req)) (hr : Answers wl es r)
    (hjob : r.job = req.job) : r.value = wl.compute req.msg req.lo req.hi := by
  obtain ⟨spec, hspec, hid, hval⟩ := hr
  obtain rfl := hon.spec_eq hspec hreq (hid.trans hjob)
  exact hval

/-- A right message is read: what the process returns and what it writes are right. -/
lemma onRead_right (hon : Honest wl p es) {n n' : Process} {data : Payload} {out : List Payload}
    (hn : n.Right wl es p) (hdata : RightPayload wl es p data)
    (h : n.onRead wl data = .ok (n', out)) :
    n'.Right wl es p ∧ ∀ d ∈ out, RightPayload wl es p d := by
  cases n with
  | serving =>
      obtain ⟨m, hm, h⟩ := Go.bind_eq_ok.mp h
      split at h
      · rename_i ch
        obtain ⟨b, hb, h⟩ := Go.bind_eq_ok.mp h
        obtain ⟨rfl, rfl⟩ := Prod.mk.inj (Except.ok.inj h)
        have hch : ch.Right es := hdata _ hm
        refine ⟨trivial, List.forall_mem_singleton.mpr (.of_encode hb ?_)⟩
        exact fun spec hspec => (hch spec hspec).answer
      · obtain ⟨rfl, rfl⟩ := Prod.mk.inj (Except.ok.inj h)
        exact ⟨trivial, by simp⟩
  | waiting req =>
      obtain ⟨m, hm, h⟩ := Go.bind_eq_ok.mp h
      split at h
      · rename_i r
        split_ifs at h with hjob
        · obtain ⟨rfl, rfl⟩ := Prod.mk.inj (Except.ok.inj h)
          exact ⟨answer_right hon hn (hdata _ hm) hjob, by simp⟩
        · obtain ⟨rfl, rfl⟩ := Prod.mk.inj (Except.ok.inj h)
          exact ⟨hn, by simp⟩
      · obtain ⟨rfl, rfl⟩ := Prod.mk.inj (Except.ok.inj h)
        exact ⟨hn, by simp⟩
  | left =>
      obtain ⟨rfl, rfl⟩ := Prod.mk.inj (Except.ok.inj h)
      exact ⟨hn, by simp⟩
  | returned req answer =>
      obtain ⟨rfl, rfl⟩ := Prod.mk.inj (Except.ok.inj h)
      exact ⟨hn, by simp⟩

lemma onError_right {n : Process} (hn : n.Right wl es p) : n.onError.Right wl es p := by
  cases n with
  | serving => trivial
  | left => trivial
  | waiting req => trivial
  | returned req answer => exact hn

end Process

/-! ## The steps of the cluster -/

namespace Cluster

variable {s t : Cluster}

/-- A right message on its way to a peer. -/
lemma post_right {conns : GoMap ConnID ℕ} {peers : GoMap ℕ Peer} {c : ConnID} {data : Payload}
    (hp : ∀ k q, peers.lookup k = some q → q.Right wl es p) (hdata : RightPayload wl es p data) :
    ∀ k q, (post conns peers c data).lookup k = some q → q.Right wl es p := by
  unfold post
  split
  · split
    · rename_i k _ _ q hq
      have hright := hp k q hq
      refine GoMap.forall_insert hp { hright with toPeer := ?_ }
      exact List.forall_mem_append.mpr ⟨hright.toPeer, List.forall_mem_singleton.mpr hdata⟩
    · exact hp
  · exact hp

lemma postAll_right {conns : GoMap ConnID ℕ} {ms : List (Goroutine × ConnID × Message)}
    {peers peers' : GoMap ℕ Peer} (hp : ∀ k q, peers.lookup k = some q → q.Right wl es p)
    (hms : ∀ e ∈ ms, e.2.2.Right wl es p) (h : postAll conns peers ms = .ok peers') :
    ∀ k q, peers'.lookup k = some q → q.Right wl es p := by
  induction ms generalizing peers with
  | nil =>
      obtain rfl := Except.ok.inj h
      exact hp
  | cons e ms ih =>
      rw [postAll, List.foldlM_cons] at h
      obtain ⟨next, hnext, h⟩ := Go.bind_eq_ok.mp h
      obtain ⟨data, hdata, hnext⟩ := Go.bind_eq_ok.mp hnext
      obtain rfl := Except.ok.inj hnext
      refine ih (post_right hp ?_) (fun e' he' => hms e' (List.mem_cons_of_mem _ he')) h
      exact .of_encodeWrite hdata (hms e List.mem_cons_self)

/-- What the dispatcher makes of a right message. -/
lemma dispatch_right (hon : Honest wl p es) {sys sys' : Sys} (hs : sys.Right hwl es)
    (hr : sys.disp = .reading) {c : ConnID} {data : Payload} (hdata : RightPayload wl es p data)
    (h : sys.dispatch p c (.data data) = .ok sys') : sys'.Right hwl es := by
  obtain ⟨m, hm, h⟩ := Go.bind_eq_ok.mp h
  split at h
  · obtain rfl := Except.ok.inj h
    exact hs.move hon (a := .readJoin c) trivial (Sys.onJoin_move hr)
  · rename_i req
    rw [Sys.onRequestGo_eq] at h
    obtain rfl := Except.ok.inj h
    exact hs.move hon (a := .readRequest c req) (hdata _ hm) (Sys.onRequest_move hr)
  · rename_i r
    obtain rfl := Except.ok.inj h
    exact hs.move hon (a := .readResult c r) (hdata _ hm) (Sys.onResult_move hr)
  · obtain rfl := Except.ok.inj h
    exact hs

/-- Only messages bring anything in from the outside. -/
lemma right_of_not_isMessage {a : Action} (h : a.isMessage ≠ true) : a.Right wl p es := by
  cases a with
  | readRequest => exact absurd rfl h
  | readResult => exact absurd rfl h
  | _ => trivial

end Cluster

/-- A request that is started is one of those that exist. -/
def ClusterAction.Known (p : Params) (es : List Event) : ClusterAction → Prop
  | .start _ (.submit req) => Submitted es (JobSpec.ofRequest p.chunkSize req)
  | _ => True

namespace Cluster

variable {s t : Cluster}

/-- **Every step keeps the cluster right**, a crash of the server included. -/
lemma Right.step (hon : Honest wl p es) (hs : s.Right hwl p es) {a : ClusterAction}
    (ha : a.Known p es) (h : s.step wl p a = some t) : t.Right hwl p es := by
  cases a with
  | start k prog =>
      rw [Cluster.step] at h
      split at h
      · cases h
      · obtain ⟨⟨n, out⟩, hn, rfl⟩ := Option.map_eq_some_iff.mp h
        have hprog : ∀ req, prog = .submit req →
            Submitted es (JobSpec.ofRequest p.chunkSize req) := by
          rintro req rfl
          exact ha
        obtain ⟨hproc, hout⟩ := Process.start_right hprog (Go.toOption_eq_some.mp hn)
        exact ⟨hs.sys, GoMap.forall_insert hs.peers ⟨hproc, hout, by simp⟩⟩
  | accept c k =>
      rw [Cluster.step] at h
      split at h
      · obtain rfl := Option.some_inj.mp h
        exact ⟨hs.sys, hs.peers⟩
      · cases h
  | read c data =>
      rw [Cluster.step] at h
      split at h
      · rename_i q hq
        split_ifs at h with hguard
        obtain ⟨sys, hsys, rfl⟩ := Option.map_eq_some_iff.mp h
        obtain ⟨k, -, hk⟩ := Option.bind_eq_some_iff.mp hq
        have hdata := (hs.peers k q hk).toServer data hguard.2
        exact ⟨dispatch_right hon hs.sys hguard.1 hdata (Go.toOption_eq_some.mp hsys),
          hs.peers⟩
      · cases h
  | sched a =>
      rw [Cluster.step] at h
      split_ifs at h with hmsg
      obtain ⟨sys, hsys, h⟩ := Option.bind_eq_some_iff.mp h
      obtain ⟨peers, hpeers, rfl⟩ := Option.map_eq_some_iff.mp h
      have hmove := Sys.step_move hsys
      have haction : a.Right wl p es := right_of_not_isMessage hmsg
      refine ⟨hs.sys.move hon haction hmove, ?_⟩
      exact postAll_right hs.peers (hs.sys.written hon haction hmove)
        (Go.toOption_eq_some.mp hpeers)
  | peerRead k data =>
      rw [Cluster.step] at h
      split at h
      · rename_i q hq
        split_ifs at h with hdata
        obtain ⟨q', hq', rfl⟩ := Option.map_eq_some_iff.mp h
        obtain ⟨⟨n, out⟩, hn, hq'⟩ := Go.bind_eq_ok.mp (Go.toOption_eq_some.mp hq')
        obtain rfl := Except.ok.inj hq'
        have hright := hs.peers k q hq
        obtain ⟨hproc, hout⟩ :=
          Process.onRead_right hon hright.proc (hright.toPeer data hdata) hn
        refine ⟨hs.sys, GoMap.forall_insert hs.peers ⟨hproc, ?_, hright.toPeer⟩⟩
        exact List.forall_mem_append.mpr ⟨hright.toServer, hout⟩
      · cases h
  | peerError k =>
      obtain ⟨q, hq, rfl⟩ := Option.map_eq_some_iff.mp h
      have hright := hs.peers k q hq
      refine ⟨hs.sys, GoMap.forall_insert hs.peers { hright with proc := ?_ }⟩
      exact Process.onError_right hright.proc
  | crash keep now ords fails =>
      obtain ⟨boot, hboot, rfl⟩ := Option.map_eq_some_iff.mp h
      refine ⟨Sys.start_right hon (recover_boots hboot) (recover_right hon ?_ hboot), hs.peers⟩
      intro recs fails' hfile r hr
      -- what the crash leaves of the log was there before it
      obtain ⟨l, hl, he⟩ := Option.map_eq_some_iff.mp hfile
      obtain ⟨rfl, -⟩ := Prod.mk.inj he
      exact hs.sys.agg.log l hl r (List.mem_of_mem_take hr)

end Cluster

/-! ## Runs -/

/-- The request of a client that is started. -/
def ClusterAction.request : ClusterAction → Option Request
  | .start _ (.submit req) => some req
  | _ => none

/-- The requests of all clients of a run. -/
def requests (as : List ClusterAction) : List Request := as.filterMap ClusterAction.request

/-- The submits of some requests, by whomever and at whatever time. -/
def submits (p : Params) (reqs : List Request) : List Event :=
  reqs.map fun req => .submit 0 (JobSpec.ofRequest p.chunkSize req) false 0

lemma submitted_submits {reqs : List Request} {spec : JobSpec} :
    Submitted (submits p reqs) spec ↔ ∃ req ∈ reqs, spec = JobSpec.ofRequest p.chunkSize req := by
  constructor
  · rintro ⟨h, hDone, now, hmem⟩
    obtain ⟨req, hreq, he⟩ := List.mem_map.mp hmem
    exact ⟨req, hreq, (Event.submit.inj he).2.1.symm⟩
  · rintro ⟨req, hreq, rfl⟩
    exact ⟨0, false, 0, List.mem_map.mpr ⟨req, hreq, rfl⟩⟩

/-- Requests with distinct job IDs, or repeated as they are. -/
lemma honest_submits {reqs : List Request}
    (hsame : ∀ req ∈ reqs, ∀ req' ∈ reqs, req.job = req'.job → req = req') :
    Honest wl p (submits p reqs) where
  submit spec h := by
    obtain ⟨req, -, hreq⟩ := submitted_submits.mp h
    exact ⟨req, hreq⟩
  same spec spec' h h' hid := by
    obtain ⟨req, hreq, rfl⟩ := submitted_submits.mp h
    obtain ⟨req', hreq', rfl⟩ := submitted_submits.mp h'
    obtain rfl := hsame req hreq req' hreq' hid
    exact ⟨rfl, rfl, rfl⟩
  result r now h := by
    obtain ⟨req, -, he⟩ := List.mem_map.mp h
    cases he

/-- **A client that gets an answer gets the right one.**  From a first start, with a log or without
one, and for every run of the server, its clients and its workers, in which messages are lost,
repeated and reordered, connections and workers come and go, and the server crashes and starts again
any number of times, each time with the configuration `p`: if requests with the same job ID are the
same request, every answer `Submit` has returned is `Compute` of the whole range. -/
theorem submit_returns_right (hwl : wl.Contract) {now : Time} {ords : RecoverOrders}
    {file : Option (List Record × (ℕ → Bool))} {boot : Recovered}
    (hfile : ∀ recs fails, file = some (recs, fails) → recs = [])
    (hboot : recover wl now ords file = some boot) {as : List ClusterAction} {s : Cluster}
    (hsame : ∀ req ∈ requests as, ∀ req' ∈ requests as, req.job = req'.job → req = req')
    (hrun : run (Cluster.step wl p) (Cluster.start boot) as = some s) {k : ℕ} {q : Peer}
    {req : Request} {v : Partial} (hq : s.peers.lookup k = some q)
    (hret : q.proc = .returned req (some v)) : v = wl.compute req.msg req.lo req.hi := by
  have hon : Honest wl p (submits p (requests as)) := honest_submits hsame
  have hstart : (Cluster.start boot).Right hwl p (submits p (requests as)) := by
    refine ⟨Sys.start_right hon (recover_boots hboot) (recover_right hon ?_ hboot), ?_⟩
    · intro recs fails hf
      simp [hfile recs fails hf]
    · simp [Cluster.start]
  have hknown : Along (fun _ a => a.Known p (submits p (requests as))) (Cluster.step wl p)
      (Cluster.start boot) as := by
    refine .of_forall fun a ha _ => ?_
    unfold ClusterAction.Known
    split
    · exact submitted_submits.mpr ⟨_, List.mem_filterMap.mpr ⟨_, ha, rfl⟩, rfl⟩
    · trivial
  have hright := run_invariant_along (fun s a t hs ha hstep => hs.step hon ha hstep) hstart hknown
    hrun
  have hproc := (hright.peers k q hq).proc
  rw [hret] at hproc
  exact hproc

/-- A job of two chunks.  One has been counted and synced when the server crashes; the client has
given up and a second one asks again, and the worker is there on a new connection. -/
def crashRun : List ClusterAction :=
  let req : Request := ⟨7, 0, 15000, []⟩
  let chunk (i : UInt32) (lo hi : UInt64) : List ClusterAction :=
    let ch : Chunk := ⟨⟨7, i⟩, lo, hi, []⟩
    [ClusterAction.sched (.feed 0), ClusterAction.sched (.loop 1 (.poll 1)),
      ClusterAction.sched (.loop 1 (.pullNQ 1)), ClusterAction.peerRead 1 (Message.chunk ch).bytes,
      ClusterAction.read 2 (Message.chunkResult (Workload.largest.answer ch)).bytes,
      ClusterAction.sched .forward, ClusterAction.sched (.loop 1 (.poll 2)),
      ClusterAction.sched (.loop 1 (.recvResult 2)), ClusterAction.sched (.deliver 1 3)]
  [ClusterAction.start 0 (.submit req), ClusterAction.start 1 .runWorker,
    ClusterAction.accept 1 0, ClusterAction.accept 2 1,
    ClusterAction.read 1 (Message.request req).bytes, ClusterAction.sched (.submit 0 0),
    ClusterAction.sched (.takeReply 0), ClusterAction.read 2 Message.join.bytes] ++
  chunk 0 0 10000 ++
  [ClusterAction.crash 2 10 ⟨idOrder, idOrder, idOrder⟩ fun _ => false,
    ClusterAction.peerError 0, ClusterAction.start 2 (.submit req), ClusterAction.accept 2 1,
    ClusterAction.read 2 Message.join.bytes, ClusterAction.accept 1 2,
    ClusterAction.read 1 (Message.request req).bytes, ClusterAction.sched (.submit 2 11)] ++
  chunk 1 10000 15000 ++
  [ClusterAction.peerRead 2 (Message.result ⟨7, 15000, 0⟩).bytes]

theorem submit_returns_right_crashRun :
    ∃ boot s q, recover Workload.largest 0 ⟨idOrder, idOrder, idOrder⟩ (some ([], fun _ => false)) =
        some boot ∧
      run (Cluster.step Workload.largest Params.default) (Cluster.start boot) crashRun = some s ∧
      s.peers.lookup 2 = some q ∧ q.proc = .returned ⟨7, 0, 15000, []⟩ (some ⟨15000, 0⟩) ∧
      (⟨15000, 0⟩ : Partial) = Workload.largest.compute [] 0 15000 := by
  have hrun : ∃ boot, recover Workload.largest 0 ⟨idOrder, idOrder, idOrder⟩
        (some ([], fun _ => false)) = some boot ∧
      (run (Cluster.step Workload.largest Params.default) (Cluster.start boot) crashRun).map
          (fun s => (s.peers.lookup 2).map Peer.proc) =
        some (some (.returned ⟨7, 0, 15000, []⟩ (some ⟨15000, 0⟩))) :=
    ⟨_, rfl, by decide +kernel⟩
  obtain ⟨boot, hboot, hval⟩ := hrun
  obtain ⟨s, hs, hpeer⟩ := Option.map_eq_some_iff.mp hval
  obtain ⟨q, hq, hret⟩ := Option.map_eq_some_iff.mp hpeer
  refine ⟨boot, s, q, hboot, hs, hq, hret, ?_⟩
  refine submit_returns_right Workload.largest_contract ?_ hboot ?_ hs hq hret
  · rintro recs fails ⟨rfl, -⟩
    rfl
  · simp [requests, crashRun, ClusterAction.request]

end RudpScheduler
