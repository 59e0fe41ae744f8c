import RudpScheduler.Construction.Aggregator

/-!
# Recovery

`sched/recover.go`: the aggregator's state is rebuilt from the records of the log.  `Replay`
holds the three tables of `recovered` together with the local variable `chunks`, the side list
of counted `ChunkDone` records from which both the compacted log and the feeders' `skip` sets
are built.  `rebuilt` is the state handed to the aggregator, `compact` the record list passed to
`Rewrite`, `feeds` the unfinished jobs whose tasks are queued again.

The records are the ones `wal.Open` returns; an error of `Open` ends `New` before any of this
runs.  The three `range` loops take their orders as arguments.
-/

namespace RudpScheduler

/-- The spec a `JobStart` record stands for. -/
def JobStart.spec (r : JobStart) : JobSpec := ⟨r.job, r.lo, r.hi, r.size, r.n, r.msg⟩

/-- The `JobStart` record of a spec. -/
def JobSpec.start (spec : JobSpec) : JobStart :=
  ⟨spec.id, spec.lo, spec.hi, spec.size, spec.n, spec.msg⟩

@[simp] lemma JobSpec.start_spec (spec : JobSpec) : spec.start.spec = spec := rfl

@[simp] lemma JobStart.spec_start (r : JobStart) : r.spec.start = r := rfl

@[simp] lemma JobStart.spec_id (r : JobStart) : r.spec.id = r.job := rfl

@[simp] lemma JobStart.spec_n (r : JobStart) : r.spec.n = r.n := rfl

/-- The task a `ChunkDone` record is about. -/
def ChunkDone.id (c : ChunkDone) : TaskID := ⟨c.job, c.idx⟩

/-- The tables of `recovered`, and the local variable `chunks`. -/
structure Replay where
  done : Finset TaskID
  jobs : GoMap UInt64 Job
  results : GoMap UInt64 Finished
  /-- Kept so the compacted log can repeat them. -/
  chunks : GoMap UInt64 (List ChunkDone)
  /-- The number the next cancel channel gets. -/
  nextCancel : ℕ

/-- `resume`: an unfinished job whose remaining tasks must be queued again. -/
structure Resume where
  spec : JobSpec
  skip : Finset UInt32
  cancel : ℕ
  deriving DecidableEq

namespace Replay

def empty : Replay where
  done := ∅
  jobs := ∅
  results := ∅
  chunks := ∅
  nextCancel := 0

/-- `chunks[id]`; an absent key yields the nil slice. -/
def chunksOf (r : Replay) (id : UInt64) : List ChunkDone := (r.chunks.lookup id).getD []

/-- `forget`: remove a running job and its done entries. -/
def forget (r : Replay) (id : UInt64) : Replay :=
  match r.jobs.lookup id with
  | none => r
  | some j => { r with done := deleteTasks r.done id j.spec.n, jobs := r.jobs.erase id }

/-- The job a `JobStart` record registers; nobody is attached yet. -/
def startedJob (wl : Workload) (now : Time) (rec : JobStart) (cancel : ℕ) : Job :=
  { spec := rec.spec, client := none, remaining := rec.n, acc := wl.zero, started := now,
    orphanedAt := some now, cancel := cancel }

/-- One round of the replay loop. -/
def apply (wl : Workload) (now : Time) (r : Replay) : Record → Replay
  | .jobStart rec =>
    match r.jobs.lookup rec.job with
    | some _ => r
    | none =>
      { r with
        results := r.results.erase rec.job
        jobs := r.jobs.insert rec.job (startedJob wl now rec r.nextCancel)
        nextCancel := r.nextCancel + 1 }
  | .chunkDone rec =>
    match r.jobs.lookup rec.job with
    | none => r
    | some j =>
      if j.spec.n ≤ rec.idx ∨ rec.id ∈ r.done then r
      else
        { r with
          done := insert rec.id r.done
          jobs := r.jobs.insert rec.job
            { j with acc := wl.merge j.acc rec.value, remaining := j.remaining - 1 }
          chunks := r.chunks.insert rec.job (r.chunksOf rec.job ++ [rec]) }
  | .jobDone rec =>
    let r := r.forget rec.job
    { r with results := r.results.insert rec.job ⟨⟨rec.hash, rec.nonce⟩, now⟩ }
  | .jobDrop rec =>
    let r := r.forget rec.job
    { r with results := r.results.erase rec.job }

/-- The replay loop. -/
def replay (wl : Workload) (now : Time) (recs : List Record) : Replay :=
  recs.foldl (apply wl now) empty

/-- One round of the loop that finishes the jobs whose `JobDone` was not logged. -/
def finishOne (now : Time) (r : Replay) (id : UInt64) : Replay :=
  match r.jobs.lookup id with
  | some j =>
    if j.remaining = 0 then
      let r := r.forget id
      { r with results := r.results.insert id ⟨j.acc, now⟩ }
    else r
  | none => r

/-- A job whose last chunk was logged but whose `JobDone` was not is finished. -/
def finishComplete (now : Time) (ord : RangeOrder UInt64) (r : Replay) : Replay :=
  (ord.range r.jobs).foldl (finishOne now) r

/-- The state `recover` hands to the aggregator. -/
def rebuilt (wl : Workload) (now : Time) (ord : RangeOrder UInt64) (recs : List Record) : Replay :=
  (replay wl now recs).finishComplete now ord

/-- The records the compacted log holds for one running job. -/
def compactJob (r : Replay) (id : UInt64) : List Record :=
  match r.jobs.lookup id with
  | some j =>
    .jobStart ⟨id, j.spec.lo, j.spec.hi, j.spec.size, j.spec.n, j.spec.msg⟩ ::
      (r.chunksOf id).map .chunkDone
  | none => []

/-- The record list passed to `Rewrite`. -/
def compact (r : Replay) (snapshot jobs : RangeOrder UInt64) : List Record :=
  Agg.snapshotResults snapshot r.results ++ (jobs.range r.jobs).flatMap r.compactJob

/-- The jobs to feed again; `skip` is built from the same side list. -/
def feeds (r : Replay) (jobs : RangeOrder UInt64) : List Resume :=
  (jobs.range r.jobs).filterMap fun id => (r.jobs.lookup id).map fun j =>
    ⟨j.spec, ((r.chunksOf id).map ChunkDone.idx).toFinset, j.cancel⟩

end Replay

/-- The orders of the three `range` loops of `recover`. -/
structure RecoverOrders where
  finish : RangeOrder UInt64
  snapshot : RangeOrder UInt64
  jobs : RangeOrder UInt64

/-- Job IDs in ascending order, for concrete runs. -/
def idOrder : RangeOrder UInt64 :=
  RangeOrder.ascending UInt64.toNat fun _ _ h => UInt64.toNat_inj.mp h

/-- What `recover` returns: the state of the aggregator and the feeders to start. -/
structure Recovered where
  agg : Agg
  feeds : List Resume

/-- `recover`; `file` is `none` when no log is configured, and otherwise holds the records of
the log and the errors its later operations report.  `none` is the error return. -/
def recover (wl : Workload) (now : Time) (ords : RecoverOrders)
    (file : Option (List Record × (ℕ → Bool))) : Option Recovered :=
  match file with
  | none => some ⟨Agg.empty, []⟩
  | some (recs, fails) =>
    let r := Replay.rebuilt wl now ords.finish recs
    let feeds := r.feeds ords.jobs
    let stats : AggStats :=
      { jobsRecovered := feeds.length, chunksRecovered := (feeds.map (·.skip.card)).sum }
    let log := Log.opened recs fails
    let boot (log : Log) : Recovered :=
      { agg :=
          { done := r.done, jobs := r.jobs, results := r.results, byConn := ∅,
            nextCancel := r.nextCancel, closed := [], log := some log, dirty := false,
            stats := stats, out := [] }
        feeds := feeds }
    if recs = [] then some (boot log)
    else
      let (err, log) := log.rewrite (r.compact ords.snapshot ords.jobs)
      if err then none else some (boot log)

end RudpScheduler
