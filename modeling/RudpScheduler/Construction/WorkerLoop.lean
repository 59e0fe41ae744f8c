import RudpScheduler.Construction.Aggregator

/-!
# The worker loop

`sched/worker.go`: the goroutine that stands for one remote worker.  It pulls a task whenever it
has room in its window, clones its own stragglers into the priority queue, and hands its tasks
back when the connection is lost.

A `select` and a channel operation are where the goroutine can be interrupted, so these are the
places between two steps (`LoopPhase`); what runs between two of them is one step.  Pulling a
task and recording it in `inflight` is one step for that reason, while a task that turns out to
be the worker's own clone is in the loop's hand (`LoopPhase.own`) until it has tried to put it
back.  The `range` loops of `speculate` and of the hand-back are one step per entry.

Left out: `account` and `publishWorker`, which only measure.
-/

namespace RudpScheduler

/-- The two task queues, oldest task first. -/
structure Queues where
  /-- Tasks not handed out yet. -/
  nq : List Task
  /-- Clones of stragglers and tasks handed back by lost workers; pulled first. -/
  pq : List Task
  deriving DecidableEq

/-- `s.pq <- t`, where the capacity allows it. -/
def Queues.pushPQ (q : Queues) (t : Task) : Queues := { q with pq := q.pq ++ [t] }

/-- One task in flight at a worker. -/
structure Entry where
  task : Task
  sentAt : Time
  /-- A clone has been pushed to `pq`. -/
  speculated : Bool
  deriving DecidableEq

/-- The counters of a worker loop. -/
structure WorkerStats where
  sent : ℕ := 0
  results : ℕ := 0
  dupResults : ℕ := 0
  speculated : ℕ := 0
  requeued : ℕ := 0
  deriving DecidableEq

/-- Where a worker loop is. -/
inductive LoopPhase
  /-- At the top of the `for`. -/
  | top
  /-- Waiting in the `select`; the flags say whether `pqCh` and `nqCh` are set. -/
  | select (pqCh nqCh : Bool)
  /-- Holding its own clone, which it is about to put back. -/
  | own (t : Task)
  /-- Sending a result to the aggregator. -/
  | holding (r : ChunkResult)
  /-- In the loop of `speculate`, with the entries still to look at. -/
  | speculating (now : Time) (threshold : Duration) (rest : List TaskID)
  /-- Handing its tasks back, with the entries still to hand back. -/
  | handBack (rest : List TaskID)
  | exited
  deriving DecidableEq

/-- The server-side proxy of one remote worker. -/
structure Worker where
  /-- The worker's connection. -/
  h : ConnID
  /-- Results forwarded by the dispatcher, oldest first. -/
  resultCh : List ChunkResult
  /-- The dispatcher has closed `dead`. -/
  dead : Bool
  inflight : GoMap TaskID Entry
  /-- The smoothed round trip of a task. -/
  srtt : Duration
  hasSRTT : Bool
  /-- Skip `pq` until the next tick. -/
  pqHold : Bool
  stats : WorkerStats
  phase : LoopPhase

/-- `newWorker`. -/
def newWorker (h : ConnID) : Worker where
  h := h
  resultCh := []
  dead := false
  inflight := ∅
  srtt := 0
  hasSRTT := false
  pqHold := false
  stats := {}
  phase := .top

/-- What a worker loop does next.  The clock and the order of a `range` loop are arguments. -/
inductive LoopAction
  /-- The window test at the top of the loop, with the look at `pq` that does not wait. -/
  | poll (now : Time)
  /-- `case r := <-w.resultCh`. -/
  | recvResult (now : Time)
  /-- `case t := <-pqCh`. -/
  | pullPQ (now : Time)
  /-- `case t := <-nqCh`. -/
  | pullNQ (now : Time)
  /-- The rest of `send` for an own clone. -/
  | putBack
  /-- `case <-tick.C`. -/
  | tick (now : Time) (ord : RangeOrder TaskID)
  /-- One round of `speculate`. -/
  | speculate
  /-- `case <-w.dead`. -/
  | dead (ord : RangeOrder TaskID)
  /-- One round of the hand-back. -/
  | handBack

namespace Worker

/-- `updateSRTT`; the division truncates. -/
def updateSRTT (w : Worker) (sample : Duration) : Worker :=
  if w.hasSRTT then { w with srtt := (7 * w.srtt + sample).tdiv 8 }
  else { w with srtt := sample, hasSRTT := true }

/-- `send`: record the task as in flight and write it to the worker, unless it is already in
flight here.  The last component is what was written. -/
def send (w : Worker) (t : Task) (now : Time) : Worker × List Chunk :=
  match w.inflight.lookup t.id with
  | some _ => ({ w with phase := .own t }, [])
  | none =>
    ({ w with
        inflight := w.inflight.insert t.id ⟨t, now, false⟩
        stats := { w.stats with sent := w.stats.sent + 1 }
        phase := .top }, [t.chunk])

/-- The top of the loop. -/
def poll (p : Params) (q : Queues) (w : Worker) (now : Time) : Queues × Worker × List Chunk :=
  if GoMap.len w.inflight < p.window then
    if w.pqHold then (q, { w with phase := .select false true }, [])
    else
      match q.pq with
      | t :: pq => ({ q with pq := pq }, w.send t now)
      | [] => (q, { w with phase := .select true true }, [])
  else (q, { w with phase := .select false false }, [])

/-- `case r := <-w.resultCh`, up to the send to the aggregator. -/
def recvResult (w : Worker) (r : ChunkResult) (now : Time) : Worker :=
  match w.inflight.lookup r.id with
  | none => { w with stats := { w.stats with dupResults := w.stats.dupResults + 1 }, phase := .top }
  | some e =>
    let w := { w with
      inflight := w.inflight.erase r.id
      stats := { w.stats with results := w.stats.results + 1 } }
    -- a task the loop already gave up on says nothing about the worker's normal pace
    let w := if e.speculated then w else w.updateSRTT (now - e.sentAt)
    { w with phase := .holding r }

/-- The rest of `send` for an own clone: put it back unless `pq` is full. -/
def putBack (p : Params) (q : Queues) (w : Worker) (t : Task) : Queues × Worker :=
  (if q.pq.length < p.pqCap then q.pushPQ t else q, { w with pqHold := true, phase := .top })

/-- `case <-tick.C`, up to the loop of `speculate`. -/
def tick (p : Params) (w : Worker) (now : Time) (ord : RangeOrder TaskID) : Worker :=
  { w with
    pqHold := false
    phase := if p.noSpeculate ∨ ¬ w.hasSRTT then .top
      else .speculating now (p.stragglerAge w.srtt) (ord.range w.inflight) }

/-- One round of `speculate`: clone the task into `pq` if it has been out for too long, has not
been cloned before and `pq` has room. -/
def speculate (p : Params) (q : Queues) (w : Worker) (now : Time) (threshold : Duration)
    (id : TaskID) : Queues × Worker :=
  match w.inflight.lookup id with
  | none => (q, w)
  | some e =>
    if e.speculated ∨ now - e.sentAt ≤ threshold then (q, w)
    else if q.pq.length < p.pqCap then
      (q.pushPQ e.task,
        { w with
          inflight := w.inflight.insert id { e with speculated := true }
          stats := { w.stats with speculated := w.stats.speculated + 1 } })
    else (q, w)

/-- One round of the hand-back; it waits while `pq` is full. -/
def handBack (p : Params) (q : Queues) (w : Worker) (id : TaskID) : Option (Queues × Worker) :=
  match w.inflight.lookup id with
  | none => some (q, w)
  | some e =>
    if q.pq.length < p.pqCap then
      some (q.pushPQ e.task,
        { w with
          inflight := w.inflight.erase id
          stats := { w.stats with requeued := w.stats.requeued + 1 } })
    else none

/-- One step of the loop; `none` where the loop waits or is somewhere else. -/
def step (p : Params) (q : Queues) (w : Worker) :
    LoopAction → Option (Queues × Worker × List Chunk)
  | .poll now => if w.phase = .top then some (poll p q w now) else none
  | .recvResult now =>
    match w.phase, w.resultCh with
    | .select _ _, r :: rest => some (q, { w with resultCh := rest }.recvResult r now, [])
    | _, _ => none
  | .pullPQ now =>
    match w.phase, q.pq with
    | .select true _, t :: pq => some ({ q with pq := pq }, w.send t now)
    | _, _ => none
  | .pullNQ now =>
    match w.phase, q.nq with
    | .select _ true, t :: nq => some ({ q with nq := nq }, w.send t now)
    | _, _ => none
  | .putBack =>
    match w.phase with
    | .own t => let (q, w) := putBack p q w t; some (q, w, [])
    | _ => none
  | .tick now ord =>
    match w.phase with
    | .select _ _ => some (q, tick p w now ord, [])
    | _ => none
  | .speculate =>
    match w.phase with
    | .speculating _ _ [] => some (q, { w with phase := .top }, [])
    | .speculating now threshold (id :: rest) =>
      let (q, w) := speculate p q w now threshold id
      some (q, { w with phase := .speculating now threshold rest }, [])
    | _ => none
  | .dead ord =>
    match w.phase with
    | .select _ _ =>
      if w.dead then some (q, { w with phase := .handBack (ord.range w.inflight) }, []) else none
    | _ => none
  | .handBack =>
    match w.phase with
    | .handBack [] => some (q, { w with phase := .exited }, [])
    | .handBack (id :: rest) =>
      (handBack p q w id).map fun (q, w) => (q, { w with phase := .handBack rest }, [])
    | _ => none

end Worker

/-- Task IDs in ascending order, for concrete runs. -/
def taskOrder : RangeOrder TaskID :=
  RangeOrder.ascending (fun x => x.job.toNat * 2 ^ 32 + x.idx.toNat) fun x y h => by
    obtain ⟨job, idx⟩ := x
    obtain ⟨job', idx'⟩ := y
    have h1 := idx.toNat_lt
    have h2 := idx'.toNat_lt
    dsimp only at h
    rw [TaskID.mk.injEq, ← UInt64.toNat_inj, ← UInt32.toNat_inj]
    omega

end RudpScheduler
