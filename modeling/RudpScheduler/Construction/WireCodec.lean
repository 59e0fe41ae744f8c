import RudpScheduler.Framework.Bytes
import RudpScheduler.Construction.Wire

/-!
# The application codec

`wire/wire.go`: `Encode` writes the fields of a message at fixed offsets of a fresh buffer and
appends the message string, `Decode` reads them back from the same offsets of whatever bytes the
transport delivered.  The two are written separately in the source and are kept apart here, with
the source's offsets; that they fit together is a theorem (`Properties/WireCodec.lean`).

`Encode` panics on a message string longer than `MaxMsgLen`.  `Decode` returns `ErrMalformed` for
bytes it does not accept, here `none`.  The panic of `Encode` on an unknown message type has no
counterpart, since `Message` has no other values.
-/

namespace RudpScheduler

/-- `Message`: one of `Join`, `Request`, `Chunk`, `ChunkResult`, `Result`. -/
inductive Message
  | join
  | request (m : Request)
  | chunk (m : Chunk)
  | chunkResult (m : ChunkResult)
  | result (m : Result)
  deriving DecidableEq, Repr

namespace Wire

/-! ## Message kinds -/

def kindJoin : UInt8 := 1
def kindRequest : UInt8 := 2
def kindChunk : UInt8 := 3
def kindChunkResult : UInt8 := 4
def kindResult : UInt8 := 5

/-- `MaxMsgLen` bounds the job message. -/
def maxMsgLen : ℕ := 1024

/-! ## Encoding -/

/-- `msgLen`. -/
def msgLen (s : Msg) : Go UInt16 :=
  if s.length > maxMsgLen then .error (.explicit "wire: message string exceeds MaxMsgLen")
  else .ok (UInt16.ofNat s.length)

/-- `Encode`. -/
def encode : Message → Go (List UInt8)
  | .join => return [kindJoin]
  | .request m => do
    let b := makeBytes 27
    let b ← putAt b 0 [kindRequest]
    let b ← putUint64 b 1 m.job
    let b ← putUint64 b 9 m.lo
    let b ← putUint64 b 17 m.hi
    let b ← putUint16 b 25 (← msgLen m.msg)
    return b ++ m.msg
  | .chunk m => do
    let b := makeBytes 31
    let b ← putAt b 0 [kindChunk]
    let b ← putUint64 b 1 m.id.job
    let b ← putUint32 b 9 m.id.idx
    let b ← putUint64 b 13 m.lo
    let b ← putUint64 b 21 m.hi
    let b ← putUint16 b 29 (← msgLen m.msg)
    return b ++ m.msg
  | .chunkResult m => do
    let b := makeBytes 29
    let b ← putAt b 0 [kindChunkResult]
    let b ← putUint64 b 1 m.id.job
    let b ← putUint32 b 9 m.id.idx
    let b ← putUint64 b 13 m.hash
    putUint64 b 21 m.nonce
  | .result m => do
    let b := makeBytes 25
    let b ← putAt b 0 [kindResult]
    let b ← putUint64 b 1 m.job
    let b ← putUint64 b 9 m.hash
    putUint64 b 17 m.nonce

/-! ## Decoding -/

/-- `tail`: the length-prefixed string whose two-byte length is at offset `i` and which has to
end at the end of `b`. -/
def tail (b : List UInt8) (i : ℕ) : Go (Option Msg) :=
  if b.length < i + 2 then return none
  else do
    let n := (← uint16At b i).toNat
    if n > maxMsgLen ∨ b.length ≠ i + 2 + n then return none
    else return some (← sliceFrom b (i + 2))

/-- `case KindRequest` of `Decode`. -/
def decodeRequest (b : List UInt8) : Go (Option Message) := do
  match ← tail b 25 with
  | some s => return some (.request ⟨← uint64At b 1, ← uint64At b 9, ← uint64At b 17, s⟩)
  | none => return none

/-- `case KindChunk` of `Decode`. -/
def decodeChunk (b : List UInt8) : Go (Option Message) := do
  match ← tail b 29 with
  | some s =>
    return some (.chunk
      ⟨⟨← uint64At b 1, ← uint32At b 9⟩, ← uint64At b 13, ← uint64At b 21, s⟩)
  | none => return none

/-- `case KindChunkResult` of `Decode`. -/
def decodeChunkResult (b : List UInt8) : Go (Option Message) :=
  if b.length = 29 then do
    return some (.chunkResult
      ⟨⟨← uint64At b 1, ← uint32At b 9⟩, ← uint64At b 13, ← uint64At b 21⟩)
  else return none

/-- `case KindResult` of `Decode`. -/
def decodeResult (b : List UInt8) : Go (Option Message) :=
  if b.length = 25 then do
    return some (.result ⟨← uint64At b 1, ← uint64At b 9, ← uint64At b 17⟩)
  else return none

/-- `Decode`. -/
def decode (b : List UInt8) : Go (Option Message) :=
  if b.length = 0 then return none
  else do
    let kind ← byteAt b 0
    if kind = kindJoin then (if b.length = 1 then return some .join else return none)
    else if kind = kindRequest then decodeRequest b
    else if kind = kindChunk then decodeChunk b
    else if kind = kindChunkResult then decodeChunkResult b
    else if kind = kindResult then decodeResult b
    else return none

end Wire

end RudpScheduler
