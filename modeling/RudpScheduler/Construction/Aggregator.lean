import RudpScheduler.Framework.GoMap
import RudpScheduler.Construction.Split
import RudpScheduler.Construction.Wal

/-!
# The aggregator

`sched/aggregator.go`: the goroutine that owns `done`, `jobs`, the stored answers, `byConn` and
the write-ahead log.  Each case of its `select` is one function on the state `Agg` (`submit`,
`result`, `clientGone`, `tick`), built from the closures of the source under their own names
(`record`, `reply`, `detach`, `finish`).

Three things the goroutine reads from the outside are arguments of the event: the clock, whether
the submitting connection's `Done` channel is closed at that moment, and the order in which a
`range` loop visits a map.  What it does to the outside is kept in the state: `out` is the
sequence of messages written and hooks called, `closed` the cancel channels it has closed.  A
job's cancel channel is created with the job and never reused, so its number names one
*instance* of a job ID.

Left out: the latency histogram (floating point) and the publication of `stats`.
-/

namespace RudpScheduler

/-- `compactAbove`: the log size beyond which an idle aggregator rewrites it. -/
def compactAbove : ℕ := 1 <<< 20

/-- The scheduler's tunables after `withDefaults`. -/
structure Params where
  /-- Nonces per task. -/
  chunkSize : UInt64
  /-- The cap on each worker's tasks in flight. -/
  window : ℕ
  /-- Capacity of the normal queue. -/
  nqCap : ℕ
  /-- Capacity of the priority queue, `MaxWorkers * Window`. -/
  pqCap : ℕ
  /-- How long a job outlives its client's connection. -/
  jobGrace : Duration
  /-- How long a finished job's answer is kept. -/
  resultTTL : Duration
  /-- Speculative re-execution is switched off. -/
  noSpeculate : Bool
  /-- The age, as a function of the task-level SRTT, beyond which a task is a straggler. -/
  stragglerAge : Duration → Duration
  /-- A chunk size of zero is replaced by the default. -/
  chunkSize_pos : 1 ≤ chunkSize
  /-- A window of zero is replaced by the default. -/
  window_pos : 1 ≤ window

/-- `withDefaults` of the zero value; durations are in nanoseconds. -/
def Params.default : Params where
  chunkSize := 10000
  window := 5
  nqCap := 4096
  pqCap := 64 * 5
  jobGrace := 5000 * 1000000
  resultTTL := 60000 * 1000000
  noSpeculate := false
  stragglerAge srtt := max (3 * srtt) (50 * 1000000)
  chunkSize_pos := by decide
  window_pos := by decide

/-- The aggregation state of one request. -/
structure Job where
  spec : JobSpec
  /-- The attached client's connection. -/
  client : Option ConnID
  remaining : UInt32
  acc : Partial
  started : Time
  /-- When the client was lost; `none` is the zero time. -/
  orphanedAt : Option Time
  /-- The cancel channel, by the number of its creation. -/
  cancel : ℕ
  deriving DecidableEq, Repr

/-- A completed job's answer, kept for clients that ask again. -/
structure Finished where
  result : Partial
  at' : Time
  deriving DecidableEq, Repr

/-- The aggregator's counters. -/
structure AggStats where
  jobsStarted : ℕ := 0
  jobsCompleted : ℕ := 0
  jobsDropped : ℕ := 0
  jobsRecovered : ℕ := 0
  chunksRecovered : ℕ := 0
  reattached : ℕ := 0
  walErrors : ℕ := 0
  merged : ℕ := 0
  duplicates : ℕ := 0
  orphans : ℕ := 0
  deriving DecidableEq, Repr

/-- `if err != nil { stats.WALErrors++ }`. -/
def AggStats.walError (st : AggStats) (err : Bool) : AggStats :=
  if err then { st with walErrors := st.walErrors + 1 } else st

/-- What the aggregator does to the outside: a `Result` written to a client, or a hook. -/
inductive Output
  /-- `h.Write(wire.Encode(wire.Result{...}))`. -/
  | wrote (h : ConnID) (m : Result)
  /-- `OnMerge`, with the instance the result was merged into. -/
  | merged (inst : ℕ) (id : TaskID)
  /-- `OnDiscard`. -/
  | discarded (id : TaskID) (duplicate : Bool)
  /-- `OnJobEnd`, with the instance that ended. -/
  | jobEnd (inst : ℕ) (id : UInt64) (completed : Bool)
  deriving DecidableEq, Repr

/-- The tables only the aggregator touches, and the cancel channels it has made. -/
structure Tables where
  done : Finset TaskID
  jobs : GoMap UInt64 Job
  results : GoMap UInt64 Finished
  /-- Client connection to the job it is waiting for. -/
  byConn : GoMap ConnID UInt64
  /-- The number the next cancel channel gets. -/
  nextCancel : ℕ
  /-- The cancel channels closed so far, in order. -/
  closed : List ℕ

/-- The aggregator's state. -/
structure Agg extends Tables where
  log : Option Log
  dirty : Bool
  stats : AggStats
  /-- Everything done to the outside so far, in order. -/
  out : List Output

/-- `submitReply`: whether the job is new, and the channel that cancels its feeder. -/
structure SubmitReply where
  feed : Bool
  cancel : Option ℕ
  deriving DecidableEq, Repr

/-- The loop that deletes the `done` entries of a job with `n` tasks. -/
def deleteTasks (done : Finset TaskID) (id : UInt64) (n : UInt32) : Finset TaskID :=
  (List.range n.toNat).foldl (fun d i => d.erase ⟨id, UInt32.ofNat i⟩) done

namespace Agg

/-- The empty state of a scheduler started without a log. -/
def empty : Agg where
  done := ∅
  jobs := ∅
  results := ∅
  byConn := ∅
  nextCancel := 0
  closed := []
  log := none
  dirty := false
  stats := {}
  out := []

/-! ## The closures -/

/-- Append one event to what the outside has seen. -/
def emit (s : Agg) (o : Output) : Agg := { s with out := s.out ++ [o] }

/-- `record`: append to the log if there is one, and sync it if asked to. -/
def record (s : Agg) (r : Record) (syncNow : Bool) : Agg :=
  match s.log with
  | none => s
  | some l =>
    let (err, l) := l.append r
    if !err && syncNow then
      -- `err, dirty = log.Sync(), false`: the flag is cleared whether or not the sync worked
      let (err, l) := l.sync
      { s with log := some l, dirty := false, stats := s.stats.walError err }
    else
      { s with log := some l, dirty := true, stats := s.stats.walError err }

/-- `reply`: write the answer to the client, if one is attached. -/
def reply (s : Agg) (h : Option ConnID) (id : UInt64) (p : Partial) : Agg :=
  match h with
  | some c => s.emit (.wrote c ⟨id, p.hash, p.nonce⟩)
  | none => s

/-- `detach`: forget the client of `j`.  The job is returned as the assignment through the
pointer leaves it. -/
def detach (s : Agg) (j : Job) : Agg × Job :=
  match j.client with
  | some c => ({ s with byConn := s.byConn.erase c }, { j with client := none })
  | none => (s, j)

/-- The tables after `finish` has removed `j` and closed its cancel channel. -/
def remove (s : Agg) (j : Job) : Agg :=
  let s := (s.detach j).1
  { s with
    jobs := s.jobs.erase j.spec.id
    done := deleteTasks s.done j.spec.id j.spec.n
    closed := s.closed ++ [j.cancel] }

/-- `finish`: remove a job, either with its answer stored or dropped. -/
def finish (s : Agg) (j : Job) (completed : Bool) (now : Time) : Agg :=
  let id := j.spec.id
  let s := s.remove j
  let s :=
    if completed then
      let s := { s with results := s.results.insert id ⟨j.acc, now⟩ }
      let s := s.record (.jobDone ⟨id, j.acc.hash, j.acc.nonce⟩) true
      { s with stats := { s.stats with jobsCompleted := s.stats.jobsCompleted + 1 } }
    else
      let s := s.record (.jobDrop ⟨id⟩) false
      { s with stats := { s.stats with jobsDropped := s.stats.jobsDropped + 1 } }
  s.emit (.jobEnd j.cancel id completed)

/-- The tail of the submit and of the result case: a job with nothing left to wait for is
answered and finished. -/
def settle (s : Agg) (id : UInt64) (j : Job) (now : Time) : Agg :=
  if j.remaining = 0 then (s.reply j.client id j.acc).finish j true now else s

/-! ## The submit case -/

/-- A job ID that is neither running nor answered: register it and log its start. -/
def startJob (wl : Workload) (s : Agg) (spec : JobSpec) (now : Time) : Agg × Job :=
  let j : Job :=
    { spec := spec, client := none, remaining := spec.n, acc := wl.zero, started := now,
      orphanedAt := none, cancel := s.nextCancel }
  let s := { s with jobs := s.jobs.insert spec.id j, nextCancel := s.nextCancel + 1 }
  let s := s.record (.jobStart ⟨spec.id, spec.lo, spec.hi, spec.size, spec.n, spec.msg⟩) true
  ({ s with stats := { s.stats with jobsStarted := s.stats.jobsStarted + 1 } }, j)

/-- A job ID that is running: the client came back, or the job was recovered from the log. -/
def rejoin (s : Agg) (j : Job) : Agg × Job :=
  let (s, j) := s.detach j
  ({ s with stats := { s.stats with reattached := s.stats.reattached + 1 } }, j)

/-- Attach connection `h` to `j`, unless `h` has already ended. -/
def attach (s : Agg) (h : ConnID) (id : UInt64) (j : Job) (hDone : Bool) (now : Time) :
    Agg × Job :=
  if hDone then
    -- the client vanished before its handler got here
    let j := { j with orphanedAt := some now }
    ({ s with jobs := s.jobs.insert id j }, j)
  else
    let j := { j with client := some h, orphanedAt := none }
    ({ s with jobs := s.jobs.insert id j, byConn := s.byConn.insert h id }, j)

/-- `case req := <-s.submitCh`. -/
def submit (wl : Workload) (s : Agg) (h : ConnID) (spec : JobSpec) (hDone : Bool)
    (now : Time) : Agg × SubmitReply :=
  let id := spec.id
  match s.results.lookup id with
  | some f =>
    let s := s.reply (some h) id f.result
    ({ s with stats := { s.stats with reattached := s.stats.reattached + 1 } }, ⟨false, none⟩)
  | none =>
    let running := (s.jobs.lookup id).isSome
    let (s, j) := match s.jobs.lookup id with
      | some j => s.rejoin j
      | none => startJob wl s spec now
    let (s, j) := s.attach h id j hDone now
    (s.settle id j now, ⟨!running, some j.cancel⟩)

/-! ## The result case -/

/-- A result that is counted. -/
def count (wl : Workload) (s : Agg) (j : Job) (r : ChunkResult) (now : Time) : Agg :=
  let j := { j with acc := wl.merge j.acc r.value, remaining := j.remaining - 1 }
  let s := { s with
    done := insert r.id s.done
    jobs := s.jobs.insert r.id.job j
    stats := { s.stats with merged := s.stats.merged + 1 } }
  let s := s.record (.chunkDone ⟨r.id.job, r.id.idx, r.hash, r.nonce⟩) false
  let s := s.emit (.merged j.cancel r.id)
  s.settle r.id.job j now

/-- A result that is dropped: its job is gone, or this is a late copy. -/
def discard (s : Agg) (r : ChunkResult) (dup : Bool) : Agg :=
  let s :=
    if dup then { s with stats := { s.stats with duplicates := s.stats.duplicates + 1 } }
    else { s with stats := { s.stats with orphans := s.stats.orphans + 1 } }
  s.emit (.discarded r.id dup)

/-- `case r := <-s.resultsCh`. -/
def result (wl : Workload) (s : Agg) (r : ChunkResult) (now : Time) : Agg :=
  match s.jobs.lookup r.id.job with
  | none => s.discard r false
  | some j =>
    if j.spec.n ≤ r.id.idx then s.discard r false
    else if r.id ∈ s.done then s.discard r true
    else s.count wl j r now

/-! ## The client-gone case -/

/-- `case conn := <-s.clientGoneCh`.  The lookup of an absent connection yields job ID 0. -/
def clientGone (s : Agg) (conn : ConnID) (now : Time) : Agg :=
  let id := (s.byConn.lookup conn).getD 0
  let s := match s.jobs.lookup id with
    | some j =>
      if j.client = some conn then
        let (s, j) := s.detach j
        { s with jobs := s.jobs.insert id { j with orphanedAt := some now } }
      else s
    | none => s
  { s with byConn := s.byConn.erase conn }

/-! ## The tick case -/

/-- One round of the first loop of a tick: drop the job if its grace period is over. -/
def dropOrphan (p : Params) (now : Time) (s : Agg) (id : UInt64) : Agg :=
  match s.jobs.lookup id with
  | some j =>
    match j.orphanedAt with
    | some t => if now - t > p.jobGrace then s.finish j false now else s
    | none => s
  | none => s

/-- One round of the second loop of a tick: forget an answer that has outlived its TTL. -/
def expire (p : Params) (now : Time) (s : Agg) (id : UInt64) : Agg :=
  match s.results.lookup id with
  | some f =>
    if now - f.at' > p.resultTTL then
      ({ s with results := s.results.erase id } : Agg).record (.jobDrop ⟨id⟩) false
    else s
  | none => s

/-- `snapshotResults`: the log of a scheduler with no running jobs. -/
def snapshotResults (ord : RangeOrder UInt64) (results : GoMap UInt64 Finished) : List Record :=
  (ord.range results).filterMap fun id =>
    (results.lookup id).map fun f => .jobDone ⟨id, f.result.hash, f.result.nonce⟩

/-- An idle aggregator with a large log rewrites it. -/
def compactIdle (s : Agg) (ord : RangeOrder UInt64) : Agg :=
  match s.log with
  | none => s
  | some l =>
    if GoMap.len s.jobs = 0 ∧ l.size > compactAbove then
      let (err, l) := l.rewrite (snapshotResults ord s.results)
      { s with log := some l, dirty := false, stats := s.stats.walError err }
    else s

/-- The periodic sync. -/
def syncDirty (s : Agg) : Agg :=
  match s.log with
  | none => s
  | some l =>
    if s.dirty then
      let (err, l) := l.sync
      { s with log := some l, dirty := false, stats := s.stats.walError err }
    else s

/-- The orders of the three `range` loops of a tick. -/
structure TickOrders where
  jobs : RangeOrder UInt64
  results : RangeOrder UInt64
  snapshot : RangeOrder UInt64

/-- `case now := <-tick.C`. -/
def tick (p : Params) (s : Agg) (now : Time) (ords : TickOrders) : Agg :=
  let s := (ords.jobs.range s.jobs).foldl (dropOrphan p now) s
  let s := (ords.results.range s.results).foldl (expire p now) s
  (s.compactIdle ords.snapshot).syncDirty

end Agg

/-! ## Events -/

/-- One round of the aggregator's loop. -/
inductive Event
  /-- A `submitReq`; `hDone` says whether the connection's `Done` is closed by now. -/
  | submit (h : ConnID) (spec : JobSpec) (hDone : Bool) (now : Time)
  | result (r : ChunkResult) (now : Time)
  | clientGone (conn : ConnID) (now : Time)
  | tick (now : Time) (ords : Agg.TickOrders)

namespace Agg

/-- One round of the aggregator's loop. -/
def step (wl : Workload) (p : Params) (s : Agg) : Event → Agg
  | .submit h spec hDone now => (s.submit wl h spec hDone now).1
  | .result r now => s.result wl r now
  | .clientGone conn now => s.clientGone conn now
  | .tick now ords => s.tick p now ords

end Agg

end RudpScheduler
