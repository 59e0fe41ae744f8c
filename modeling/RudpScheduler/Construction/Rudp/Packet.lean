import RudpScheduler.Framework.Bytes
import RudpScheduler.Construction.Rudp.Conn

/-!
# The packet codec

`rudp/packet.go`: an eleven-byte header (type, connection ID, sequence number, payload length)
and the payload.  `parse` rejects a datagram whose declared payload length is not what follows
the header, or is above `MaxPayload`.  The read loops hand it at most `maxPacket + 1` bytes of a
datagram, because that is the size of their buffer and a read from a packet socket drops what does
not fit.
-/

namespace RudpScheduler.Rudp

/-- `headerLen`: type (1), connID (4), seq (4), payloadLen (2). -/
def headerLen : ℕ := 11

/-- `maxPacket`. -/
def maxPacket : ℕ := headerLen + maxPayload

/-- The byte that stands for a packet type. -/
def PacketType.code : PacketType → UInt8
  | .connect => 1
  | .connAck => 2
  | .data => 3
  | .ack => 4
  | .close => 5

/-- The packet type a byte stands for; anything below `typeConnect` or above `typeClose` is
none. -/
def PacketType.ofCode (typ : UInt8) : Option PacketType :=
  if typ = 1 then some .connect
  else if typ = 2 then some .connAck
  else if typ = 3 then some .data
  else if typ = 4 then some .ack
  else if typ = 5 then some .close
  else none

/-- `marshal`. -/
def marshal (typ : UInt8) (connID seq : UInt32) (payload : Payload) : Go (List UInt8) := do
  let b := makeBytes (headerLen + payload.length)
  let b ← putAt b 0 [typ]
  let b ← putUint32 b 1 connID
  let b ← putUint32 b 5 seq
  let b ← putUint16 b 9 (UInt16.ofNat payload.length)
  putAt b headerLen payload

/-- `parse`; `none` is the result `false`. -/
def parse (b : List UInt8) : Go (Option Packet) :=
  if b.length < headerLen then return none
  else do
    let typ ← byteAt b 0
    let connID ← uint32At b 1
    let seq ← uint32At b 5
    match PacketType.ofCode typ with
    | none => return none
    | some typ =>
      let n := (← uint16At b 9).toNat
      if n ≠ b.length - headerLen ∨ n > maxPayload then return none
      else return some ⟨typ, connID, seq, ← sliceFrom b headerLen⟩

/-- What a read loop sees of a datagram: `parse(buf[:n])` with a buffer of `maxPacket+1` bytes. -/
def receive (d : List UInt8) : Go (Option Packet) := parse (d.take (maxPacket + 1))

end RudpScheduler.Rudp
