import RudpScheduler.Framework.Bufio
import RudpScheduler.Construction.WalCodec

/-!
# The write-ahead log, as a file

`wal/wal.go` on a file system whose calls may fail: `Open`, `Append`, `Sync` and `Rewrite` with
every call they make, in the order of the source.  A `LogFile` is the struct `Log`; the file it
writes to and the buffer in front of it are modelled in `Framework/FileSystem` and
`Framework/Bufio`.

An error is reported as `true`, without its text.  Reads do not fail, so `readAll` gets the whole
file.
-/

namespace RudpScheduler.Wal

open Fs Prog

/-- `Log`: an open write-ahead log. -/
structure LogFile where
  path : String
  f : ℕ
  w : BufWriter
  /-- The log's length in bytes, buffered records included. -/
  size : ℕ
  deriving DecidableEq, Repr

variable (crc : List UInt8 → UInt32)

/-- `Open`: the log and the records in it, or nothing if it failed. -/
def openLog (path : String) : Proc (Option (LogFile × List Record)) := do
  match ← os (.openFile path false) with
  | none => return none
  | some f =>
    let data ← os (.read f)
    let (recs, good) ← lift (readAll crc data)
    if ← os (.truncate f good) then
      let _ ← os (.close f)
      return none
    else if ← os (.seek f good) then
      let _ ← os (.close f)
      return none
    else return some (⟨path, f, .new f, good⟩, recs)

namespace LogFile

/-- `Append`: whether it failed, and the log after it. -/
def append (l : LogFile) (r : Record) : Proc (Bool × LogFile) := do
  let body ← lift (encode r)
  let head := makeBytes frameHeader
  let head ← lift (putUint32 head 0 (UInt32.ofNat body.length))
  let head ← lift (putUint32 head 4 (crc body))
  let (failed, w) ← l.w.write head
  if failed then return (true, { l with w := w })
  else
    let (failed, w) ← w.write body
    if failed then return (true, { l with w := w })
    else return (false, { l with w := w, size := l.size + (frameHeader + body.length) })

/-- `Sync`: whether it failed, and the log after it. -/
def sync (l : LogFile) : Proc (Bool × LogFile) := do
  let (failed, w) ← l.w.flush
  if failed then return (true, { l with w := w })
  else
    let failed ← os (.sync l.f)
    return (failed, { l with w := w })

/-- The loop of `Rewrite` over the records; it stops at the first error. -/
def appendAll : LogFile → List Record → Proc (Bool × LogFile)
  | l, [] => return (false, l)
  | l, r :: recs => do
    let (failed, l) ← l.append crc r
    if failed then return (true, l) else appendAll l recs

/-- `Rewrite`: whether it failed, and the log after it. -/
def rewrite (l : LogFile) (recs : List Record) : Proc (Bool × LogFile) := do
  let tmp := l.path ++ ".tmp"
  match ← os (.openFile tmp true) with
  | none => return (true, l)
  | some f =>
    let next : LogFile := ⟨l.path, f, .new f, 0⟩
    let (failed, next) ← next.appendAll crc recs
    if failed then
      let _ ← os (.close f)
      return (true, l)
    else
      let (failed, next) ← next.sync
      if failed then
        let _ ← os (.close f)
        return (true, l)
      else if ← os (.rename tmp l.path) then
        let _ ← os (.close f)
        return (true, l)
      else
        -- make the rename itself durable; errors here are ignored
        if ← os (.openDir l.path) then pure ()
        else
          let _ ← os .syncDir
          let _ ← os .closeDir
        let _ ← os (.close l.f)
        return (false, next)

end LogFile

end RudpScheduler.Wal
