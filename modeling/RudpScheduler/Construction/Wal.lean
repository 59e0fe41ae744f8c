import RudpScheduler.Construction.Wire

/-!
# The write-ahead log, as the aggregator sees it

Package `wal` at the level of records: the four record kinds, and a `Log` that holds the
records appended since it was opened or last rewritten.  `Append` buffers, `Sync` makes
everything buffered durable, `Rewrite` replaces the whole log atomically.  Any of the three may
report an error; which calls do is an input of the model, the stream `fails`.

A crash leaves a prefix of `recs`.  It never cuts inside what the last `Rewrite` wrote, since
the new file takes the old one's place by a rename after it has been synced; `base` counts
those records.
-/

namespace RudpScheduler

/-- Registers a job; `size` is the chunk width that was actually used. -/
structure JobStart where
  job : UInt64
  lo : UInt64
  hi : UInt64
  size : UInt64
  n : UInt32
  msg : Msg
  deriving DecidableEq, Repr

/-- The counted result of one task. -/
structure ChunkDone where
  job : UInt64
  idx : UInt32
  hash : UInt64
  nonce : UInt64
  deriving DecidableEq, Repr

/-- The partial answer a `ChunkDone` carries. -/
def ChunkDone.value (c : ChunkDone) : Partial := ⟨c.hash, c.nonce⟩

/-- A job's final answer. -/
structure JobDone where
  job : UInt64
  hash : UInt64
  nonce : UInt64
  deriving DecidableEq, Repr

/-- A job, running or finished, has been forgotten. -/
structure JobDrop where
  job : UInt64
  deriving DecidableEq, Repr

/-- One record of the log. -/
inductive Record
  | jobStart (r : JobStart)
  | chunkDone (r : ChunkDone)
  | jobDone (r : JobDone)
  | jobDrop (r : JobDrop)
  deriving DecidableEq, Repr

/-- The job a record is about. -/
def Record.job : Record → UInt64
  | .jobStart r => r.job
  | .chunkDone r => r.job
  | .jobDone r => r.job
  | .jobDrop r => r.job

/-- `frameHeader`: the length and the checksum in front of every body. -/
def frameHeader : ℕ := 8

/-- The length of the body `encode` produces. -/
def Record.bodyLen : Record → ℕ
  | .jobStart r => 39 + r.msg.length
  | .chunkDone _ => 29
  | .jobDone _ => 25
  | .jobDrop _ => 9

/-- An open log. -/
structure Log where
  /-- The records in the log, buffered ones included. -/
  recs : List Record
  /-- How many of them have reached stable storage. -/
  synced : ℕ
  /-- How many of them the last `Rewrite` put there. -/
  base : ℕ
  /-- Whether the first, second, ... of the coming operations reports an error. -/
  fails : ℕ → Bool

namespace Log

/-- `Open` on a file that holds `recs`. -/
def opened (recs : List Record) (fails : ℕ → Bool) : Log :=
  { recs := recs, synced := recs.length, base := recs.length, fails := fails }

/-- The stream of errors after one more operation. -/
def next (l : Log) : Log := { l with fails := fun k => l.fails (k + 1) }

/-- `Append`: whether it failed, and the log after it. -/
def append (l : Log) (r : Record) : Bool × Log :=
  if l.fails 0 then (true, l.next) else (false, { l.next with recs := l.recs ++ [r] })

/-- `Sync`: whether it failed, and the log after it. -/
def sync (l : Log) : Bool × Log :=
  if l.fails 0 then (true, l.next) else (false, { l.next with synced := l.recs.length })

/-- `Rewrite`: whether it failed, and the log after it. -/
def rewrite (l : Log) (recs : List Record) : Bool × Log :=
  if l.fails 0 then (true, l.next) else (false, opened recs l.next.fails)

/-- `Size`: the log's length in bytes, buffered records included. -/
def size (l : Log) : ℕ := (l.recs.map fun r => frameHeader + r.bodyLen).sum

end Log

end RudpScheduler
