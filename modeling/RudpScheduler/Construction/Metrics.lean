import RudpScheduler.Framework.Register
import RudpScheduler.Construction.Aggregator

/-!
# The metrics collector

`internal/metrics/metrics.go`: the goroutine that owns the latest snapshot of every connection and
worker and the totals of those that have left, and the totals a scrape reports.  Connections and
workers are handled alike, so both are a `Register`; its `live` is the map of the source and its
`gone` the variable `closedConns` or `goneWorkers`.

A snapshot has the counters the totals use, the owner and the flag of the last one; the gauges,
which only the text format reads, are left out.
-/

namespace RudpScheduler.Metrics

/-- `staleAfter`, in nanoseconds. -/
def staleAfter : Duration := 5 * 10 ^ 9

/-! ## Snapshots and totals -/

/-- `rudp.ConnStats`. -/
structure ConnStats where
  connID : ℕ
  client : Bool := false
  dataSent : UInt64 := 0
  retransmits : UInt64 := 0
  dataReceived : UInt64 := 0
  heartbeats : UInt64 := 0
  closed : Bool := false
  deriving DecidableEq, Repr

/-- `sched.WorkerStats`. -/
structure WorkerStats where
  worker : ℕ
  sent : UInt64 := 0
  results : UInt64 := 0
  dupResults : UInt64 := 0
  speculated : UInt64 := 0
  requeued : UInt64 := 0
  gone : Bool := false
  deriving DecidableEq, Repr

/-- `ConnTotals` accumulates the counters of connections that have ended. -/
structure ConnTotals where
  count : UInt64 := 0
  dataSent : UInt64 := 0
  retransmits : UInt64 := 0
  dataReceived : UInt64 := 0
  heartbeats : UInt64 := 0
  deriving DecidableEq, Repr

/-- `WorkerTotals` accumulates the counters of workers that have left. -/
structure WorkerTotals where
  count : UInt64 := 0
  sent : UInt64 := 0
  results : UInt64 := 0
  dupResults : UInt64 := 0
  speculated : UInt64 := 0
  requeued : UInt64 := 0
  deriving DecidableEq, Repr

/-- The additions of `retireConn`. -/
def ConnTotals.add (t : ConnTotals) (s : ConnStats) : ConnTotals where
  count := t.count + 1
  dataSent := t.dataSent + s.dataSent
  retransmits := t.retransmits + s.retransmits
  dataReceived := t.dataReceived + s.dataReceived
  heartbeats := t.heartbeats + s.heartbeats

/-- The additions of `retireWorker`. -/
def WorkerTotals.add (t : WorkerTotals) (s : WorkerStats) : WorkerTotals where
  count := t.count + 1
  sent := t.sent + s.sent
  results := t.results + s.results
  dupResults := t.dupResults + s.dupResults
  speculated := t.speculated + s.speculated
  requeued := t.requeued + s.requeued

/-- `Snapshot` is a consistent copy of everything the collector knows. -/
structure Snapshot where
  conns : List ConnStats
  closedConns : ConnTotals
  workers : List WorkerStats
  goneWorkers : WorkerTotals
  agg : AggStats
  nq : ℕ
  pq : ℕ

namespace Snapshot

/-- `DataSent`. -/
def dataSent (s : Snapshot) : UInt64 :=
  s.conns.foldl (fun n c => n + c.dataSent) s.closedConns.dataSent

/-- `Retransmits`. -/
def retransmits (s : Snapshot) : UInt64 :=
  s.conns.foldl (fun n c => n + c.retransmits) s.closedConns.retransmits

/-- `WorkerTotals`. -/
def workerTotals (s : Snapshot) : WorkerTotals :=
  s.workers.foldl (fun t w =>
    { t with
      sent := t.sent + w.sent
      results := t.results + w.results
      dupResults := t.dupResults + w.dupResults
      speculated := t.speculated + w.speculated
      requeued := t.requeued + w.requeued }) s.goneWorkers

end Snapshot

/-! ## The collector -/

/-- `connKey`. -/
structure ConnKey where
  client : Bool
  id : ℕ
  deriving DecidableEq, Repr

def ConnStats.key (s : ConnStats) : ConnKey := ⟨s.client, s.connID⟩

def connOwners : Owners ConnKey ConnStats ConnTotals := ⟨ConnStats.key, ConnStats.closed, .add⟩

def workerOwners : Owners ℕ WorkerStats WorkerTotals :=
  ⟨WorkerStats.worker, WorkerStats.gone, .add⟩

/-- The variables of `run`. -/
structure Collector where
  conns : Register ConnKey ConnStats ConnTotals Time
  workers : Register ℕ WorkerStats WorkerTotals Time
  agg : AggStats

/-- The variables before the loop. -/
def Collector.init : Collector := ⟨⟨∅, {}⟩, ⟨∅, {}⟩, {}⟩

/-- The orders of the four `range` loops of a scrape. -/
structure ScrapeOrders where
  retireConns : RangeOrder ConnKey
  retireWorkers : RangeOrder ℕ
  listConns : RangeOrder ConnKey
  listWorkers : RangeOrder ℕ

/-- What `run` receives, with the time it does; `depths` is what the function of that name reports,
if there is one. -/
inductive Event
  | conn (s : ConnStats) (now : Time)
  | worker (s : WorkerStats) (now : Time)
  | agg (a : AggStats)
  | scrape (now : Time) (ords : ScrapeOrders) (depths : Option (ℕ × ℕ))

/-- The order of the connections in a snapshot. -/
def connLess (a b : ConnStats) : Bool :=
  if a.client ≠ b.client then !a.client else a.connID < b.connID

namespace Collector

/-- A snapshot is too old at time `now`. -/
def stale (now seen : Time) : Bool := now - seen > staleAfter

/-- `case reply := <-c.scrapeCh`: the reply, and the variables after it. -/
def scrape (c : Collector) (now : Time) (ords : ScrapeOrders) (depths : Option (ℕ × ℕ)) :
    Snapshot × Collector :=
  let c := { c with
    conns := c.conns.sweep connOwners ords.retireConns (stale now)
    workers := c.workers.sweep workerOwners ords.retireWorkers (stale now) }
  let conns := ((ords.listConns.range c.conns.live).filterMap c.conns.live.lookup).map Prod.fst
  let workers :=
    ((ords.listWorkers.range c.workers.live).filterMap c.workers.live.lookup).map Prod.fst
  ({ conns := conns.insertionSort fun a b => connLess b a = false
     closedConns := c.conns.gone
     workers := workers.insertionSort fun a b => a.worker ≤ b.worker
     goneWorkers := c.workers.gone
     agg := c.agg
     nq := (depths.map Prod.fst).getD 0
     pq := (depths.map Prod.snd).getD 0 }, c)

/-- One round of `run`. -/
def step (c : Collector) : Event → Collector
  | .conn s now => { c with conns := c.conns.publish connOwners s now }
  | .worker s now => { c with workers := c.workers.publish workerOwners s now }
  | .agg a => { c with agg := a }
  | .scrape now ords depths => (c.scrape now ords depths).2

/-- The variables after the given events. -/
def run (es : List Event) : Collector := es.foldl step init

end Collector

end RudpScheduler.Metrics
