import RudpScheduler.Framework.Runs
import RudpScheduler.Construction.Rudp.Conn

/-!
# Two endpoints and the network between them

A `Link` is the two ends of one connection.  The network may drop, duplicate, delay and reorder
datagrams, so a packet may arrive at one end whenever the other end has ever sent it.  It does
not forge: what else arrives is the handshake, or carries another connection's ID.
-/

namespace RudpScheduler.Rudp

/-- The two ends of one connection. -/
structure Link where
  a : Conn
  b : Conn

/-- One of the two ends. -/
inductive Side
  | a
  | b
  deriving DecidableEq, Repr

/-- The other end. -/
def Side.other : Side → Side
  | .a => .b
  | .b => .a

/-- The connection at one end. -/
def Link.conn (l : Link) : Side → Conn
  | .a => l.a
  | .b => l.b

/-- A packet that may arrive at an end whose connection is `id` and whose peer has sent `sent`. -/
def OnWire (id : UInt32) (sent : List Packet) (pkt : Packet) : Prop :=
  pkt ∈ sent ∨ pkt.connID ≠ id ∨ pkt.typ = .connect ∨ pkt.typ = .connAck

instance (id : UInt32) (sent : List Packet) (pkt : Packet) : Decidable (OnWire id sent pkt) :=
  inferInstanceAs (Decidable (_ ∨ _ ∨ _ ∨ _))

/-- What can arrive at an end: inputs of the application and the clock are free, a packet has to
be on the wire. -/
def Arrives (c peer : Conn) : Input → Prop
  | .packet pkt _ => OnWire c.id peer.sent pkt
  | _ => True

instance (c peer : Conn) (i : Input) : Decidable (Arrives c peer i) :=
  match i with
  | .packet pkt _ => inferInstanceAs (Decidable (OnWire c.id peer.sent pkt))
  | .write .. | .read | .tick .. | .close .. | .stop => inferInstanceAs (Decidable True)

/-- One step of one end, with the tunables `pa` and `pb` of the two ends. -/
def Link.step (pa pb : Params) (l : Link) : Side × Input → Option Link
  | (.a, i) => if Arrives l.a l.b i then (l.a.step pa i).map fun a => { l with a := a } else none
  | (.b, i) => if Arrives l.b l.a i then (l.b.step pb i).map fun b => { l with b := b } else none

/-- Sequence numbers in ascending order, for concrete runs. -/
def seqOrder : RangeOrder UInt32 :=
  RangeOrder.ascending UInt32.toNat fun _ _ h => UInt32.toNat_inj.mp h

/-- The two ends right after the handshake: the client and the server's side. -/
def Link.init (id : UInt32) : Link := ⟨newConn id true, newConn id false⟩

end RudpScheduler.Rudp
