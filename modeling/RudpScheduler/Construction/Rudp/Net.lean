import RudpScheduler.Construction.Rudp.Client

/-!
# A server and its clients on one network

Any number of clients, each at an address of its own, and the server.  The network carries the bytes
`marshal` made: it drops, duplicates, delays and reorders datagrams, but a datagram that reaches a
client, or the server from a client's address, was sent by the other side to that address.  From all
other addresses anything may reach the server.

The operating system gives a client a port from which the server has not heard anything yet
(`heard`).  Without that a new client could be told the ID of a connection its predecessor at the
same address has left behind.
-/

namespace RudpScheduler.Rudp

/-- The server and its clients. -/
structure Net (Addr : Type) where
  server : Server Addr
  clients : GoMap Addr (Client Addr)
  /-- The addresses a datagram has reached the server from. -/
  heard : List Addr

/-- One step of the server, of a client or of the network. -/
inductive NetAction (Addr : Type)
  /-- `NewClient` opens a socket at `addr`. -/
  | start (addr : Addr)
  /-- A datagram of the client at `addr` reaches the server. -/
  | toServer (addr : Addr) (pkt : Packet)
  /-- A datagram from somebody else reaches the server. -/
  | foreign (addr : Addr) (bytes : List UInt8)
  /-- A datagram of the server's read loop, or of its connection `g`, reaches the client at
  `addr`. -/
  | toClient (addr : Addr) (g : Option ℕ) (pkt : Packet)
  /-- Any other step of the server. -/
  | server (a : ServerAction Addr)
  /-- Any other step of the client at `addr`. -/
  | client (addr : Addr) (a : ClientAction)

/-- `ReadFrom` of the server returns a datagram. -/
def ServerAction.isDatagram {Addr : Type} : ServerAction Addr → Bool
  | .datagram _ _ => true
  | _ => false

/-- `ReadFrom` of a client returns a datagram. -/
def ClientAction.isDatagram : ClientAction → Bool
  | .datagram _ => true
  | _ => false

/-- The bytes of a packet. -/
def Packet.marshal (pkt : Packet) : Go (List UInt8) :=
  Rudp.marshal pkt.typ.code pkt.connID pkt.seq pkt.payload

namespace Net

variable {Addr : Type} [DecidableEq Addr]

/-- The server alone. -/
def init : Net Addr := ⟨Server.start, ∅, []⟩

/-- The server has sent the packet to the address: its read loop, or connection `g`. -/
def Sent (s : Server Addr) (addr : Addr) (pkt : Packet) : Option ℕ → Prop
  | none => (pkt, addr) ∈ s.sent
  | some g => ∃ c ∈ s.gos.lookup g, c.raddr = addr ∧ pkt ∈ c.conn.sent

instance (s : Server Addr) (addr : Addr) (pkt : Packet) :
    DecidablePred (Sent s addr pkt)
  | none => inferInstanceAs (Decidable ((pkt, addr) ∈ s.sent))
  | some g => inferInstanceAs (Decidable (∃ c ∈ s.gos.lookup g, c.raddr = addr ∧ pkt ∈ c.conn.sent))

/-- A step of the server, with the addresses it has heard from by then. -/
def stepServer (ops : AddrOps Addr) (ps : Params) (s : Net Addr) (heard : List Addr)
    (a : ServerAction Addr) : Option (Go (Net Addr)) :=
  (s.server.step ops ps a).map fun r => r.map fun server =>
    { s with server := server, heard := heard }

/-- A step of the client at `addr`. -/
def stepClient (pc : Params) (s : Net Addr) (addr : Addr) (a : ClientAction) :
    Option (Go (Net Addr)) :=
  (s.clients.lookup addr).bind fun c => (c.step pc a).map fun r => r.map fun c =>
    { s with clients := s.clients.insert addr c }

/-- One step, with the tunables `pc` of the clients and `ps` of the server; `server` is the server's
address. -/
def step (ops : AddrOps Addr) (pc ps : Params) (server : Addr) (s : Net Addr) :
    NetAction Addr → Option (Go (Net Addr))
  | .start addr =>
    if s.clients.lookup addr = none ∧ addr ∉ s.heard then
      some (.ok { s with clients := s.clients.insert addr (Client.start server) })
    else none
  | .toServer addr pkt =>
    (s.clients.lookup addr).bind fun c =>
      if pkt ∈ c.sent then
        match pkt.marshal with
        | .ok bytes => s.stepServer ops ps (addr :: s.heard) (.datagram bytes addr)
        | .error e => some (.error e)
      else none
  | .foreign addr bytes =>
    if s.clients.lookup addr = none then
      s.stepServer ops ps (addr :: s.heard) (.datagram bytes addr)
    else none
  | .toClient addr g pkt =>
    if Sent s.server addr pkt g then
      match pkt.marshal with
      | .ok bytes => s.stepClient pc addr (.datagram bytes)
      | .error e => some (.error e)
    else none
  | .server a => if a.isDatagram then none else s.stepServer ops ps s.heard a
  | .client addr a => if a.isDatagram then none else s.stepClient pc addr a

end Net

end RudpScheduler.Rudp
