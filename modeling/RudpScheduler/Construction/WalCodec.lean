import RudpScheduler.Framework.Bytes
import RudpScheduler.Construction.Wal

/-!
# The write-ahead log, as bytes

`wal/wal.go` below the level of records: `encode` and `decode` for a record's body, the frame
`Append` puts around it (length and checksum), `readAll`, which reads frames until one is
truncated, out of range, fails its checksum or does not decode, and `Open`, which cuts the file
behind the last good frame.

The checksum is a parameter: nothing here depends on which function it is.  A file is its
contents.  `io.ReadFull` succeeds when enough bytes are left, and errors of the operating system are
not modelled.  The panic of `encode` on an unknown record type has no counterpart, since `Record`
has no other values.
-/

namespace RudpScheduler.Wal

/-- `maxBody` rejects garbage lengths. -/
def maxBody : ℕ := 1 <<< 16

/-! ## Bodies -/

/-- `encode`. -/
def encode : Record → Go (List UInt8)
  | .jobStart r => do
    let b := makeBytes 39
    let b ← putAt b 0 [1]
    let b ← putUint64 b 1 r.job
    let b ← putUint64 b 9 r.lo
    let b ← putUint64 b 17 r.hi
    let b ← putUint64 b 25 r.size
    let b ← putUint32 b 33 r.n
    let b ← putUint16 b 37 (UInt16.ofNat r.msg.length)
    return b ++ r.msg
  | .chunkDone r => do
    let b := makeBytes 29
    let b ← putAt b 0 [2]
    let b ← putUint64 b 1 r.job
    let b ← putUint32 b 9 r.idx
    let b ← putUint64 b 13 r.hash
    putUint64 b 21 r.nonce
  | .jobDone r => do
    let b := makeBytes 25
    let b ← putAt b 0 [3]
    let b ← putUint64 b 1 r.job
    let b ← putUint64 b 9 r.hash
    putUint64 b 17 r.nonce
  | .jobDrop r => do
    let b := makeBytes 9
    let b ← putAt b 0 [4]
    putUint64 b 1 r.job

/-- `case 1` of `decode`. -/
def decodeJobStart (b : List UInt8) : Go (Option Record) :=
  if b.length < 39 then return none
  else do
    if b.length ≠ 39 + (← uint16At b 37).toNat then return none
    else
      return some (.jobStart ⟨← uint64At b 1, ← uint64At b 9, ← uint64At b 17, ← uint64At b 25,
        ← uint32At b 33, ← sliceFrom b 39⟩)

/-- `case 2` of `decode`. -/
def decodeChunkDone (b : List UInt8) : Go (Option Record) :=
  if b.length ≠ 29 then return none
  else do
    return some (.chunkDone ⟨← uint64At b 1, ← uint32At b 9, ← uint64At b 13, ← uint64At b 21⟩)

/-- `case 3` of `decode`. -/
def decodeJobDone (b : List UInt8) : Go (Option Record) :=
  if b.length ≠ 25 then return none
  else do return some (.jobDone ⟨← uint64At b 1, ← uint64At b 9, ← uint64At b 17⟩)

/-- `case 4` of `decode`. -/
def decodeJobDrop (b : List UInt8) : Go (Option Record) :=
  if b.length ≠ 9 then return none
  else do return some (.jobDrop ⟨← uint64At b 1⟩)

/-- `decode`; `none` is the result `false`. -/
def decode (b : List UInt8) : Go (Option Record) := do
  let typ ← byteAt b 0
  if typ = 1 then decodeJobStart b
  else if typ = 2 then decodeChunkDone b
  else if typ = 3 then decodeJobDone b
  else if typ = 4 then decodeJobDrop b
  else return none

/-! ## Frames -/

variable (crc : List UInt8 → UInt32)

/-- What `Append` writes for a record. -/
def frame (r : Record) : Go (List UInt8) := do
  let body ← encode r
  let head := makeBytes frameHeader
  let head ← putUint32 head 0 (UInt32.ofNat body.length)
  let head ← putUint32 head 4 (crc body)
  return head ++ body

/-- The loop of `readAll` on the unread bytes `b`.  Every round that goes on reads a header, so
the number of bytes bounds the rounds. -/
def readLoop : ℕ → List UInt8 → List Record → ℕ → Go (List Record × ℕ)
  | 0, _, recs, good => return (recs, good)
  | fuel + 1, b, recs, good =>
    -- clean end, or a torn header
    if b.length < frameHeader then return (recs, good)
    else do
      let head := b.take frameHeader
      let b := b.drop frameHeader
      let n := (← uint32At head 0).toNat
      if n = 0 ∨ n > maxBody then return (recs, good)
      else if b.length < n then return (recs, good)
      else
        let body := b.take n
        if crc body ≠ (← uint32At head 4) then return (recs, good)
        else
          match ← decode body with
          | none => return (recs, good)
          | some r => readLoop fuel (b.drop n) (recs ++ [r]) (good + (frameHeader + n))

/-- `readAll`: the intact records and the offset just past the last one. -/
def readAll (f : List UInt8) : Go (List Record × ℕ) := readLoop crc f.length f [] 0

/-- `Open`: the records, and the file as `Truncate` leaves it. -/
def openFile (f : List UInt8) : Go (List Record × List UInt8) := do
  let (recs, good) ← readAll crc f
  return (recs, f.take good)

/-- `Append`, and the buffer flushed. -/
def append (f : List UInt8) (r : Record) : Go (List UInt8) := do
  return f ++ (← frame crc r)

end RudpScheduler.Wal
