import RudpScheduler.Construction.Rudp.Server

/-!
# Peer addresses

`sameAddr` of `rudp/server.go`, and as much of package `net` as it and the key of `byAddr` need: IP
addresses in their 4-byte and 16-byte forms with `IP.Equal`, and `UDPAddr` with its `String`, which
is `JoinHostPort` of the IP's text, the zone if there is one, and the port.

How an IP is written is left open.  `IPText` has what is assumed of it: two addresses have the same
text exactly when they are `Equal`, and the text has no `%` and no `[`, which are what sets the zone
and a host with colons apart.
-/

namespace RudpScheduler.Rudp

/-- A `net.IP` in its 4-byte or 16-byte form. -/
structure IP where
  bytes : List UInt8
  length_bytes : bytes.length = 4 ∨ bytes.length = 16
  deriving DecidableEq

/-- What stands before an IPv4 address in its 16-byte form. -/
def v4InV6Prefix : List UInt8 := [0, 0, 0, 0, 0, 0, 0, 0, 0, 0, 0xff, 0xff]

/-- `IP.Equal`: an IPv4 address and its 16-byte form are equal. -/
def IP.equal (a b : IP) : Bool :=
  if a.bytes.length = b.bytes.length then a.bytes == b.bytes
  else if a.bytes.length = 4 ∧ b.bytes.length = 16 then
    b.bytes.take 12 == v4InV6Prefix && a.bytes == b.bytes.drop 12
  else if a.bytes.length = 16 ∧ b.bytes.length = 4 then
    a.bytes.take 12 == v4InV6Prefix && a.bytes.drop 12 == b.bytes
  else false

/-- How package `net` writes an IP. -/
structure IPText where
  /-- `IP.String`. -/
  text : IP → List Char
  /-- The text is the same exactly for addresses that are `Equal`. -/
  text_eq_iff : ∀ a b, text a = text b ↔ a.equal b = true
  percent_notMem : ∀ a, '%' ∉ text a
  bracket_notMem : ∀ a, '[' ∉ text a

/-- A `net.UDPAddr`. -/
structure UDPAddr where
  ip : IP
  port : ℕ
  /-- The IPv6 scoped addressing zone. -/
  zone : String
  deriving DecidableEq

/-- `JoinHostPort`: a host with a colon in it is put in brackets. -/
def joinHostPort (host port : List Char) : List Char :=
  if ':' ∈ host then '[' :: (host ++ [']']) ++ ':' :: port else host ++ ':' :: port

/-- The host part of an address, with its zone. -/
def UDPAddr.host (net : IPText) (a : UDPAddr) : List Char :=
  if a.zone ≠ "" then net.text a.ip ++ '%' :: a.zone.toList else net.text a.ip

/-- `UDPAddr.String`. -/
def UDPAddr.string (net : IPText) (a : UDPAddr) : String :=
  String.ofList (joinHostPort (a.host net) a.port.repr.toList)

/-- A `net.Addr`: a `*net.UDPAddr`, or another kind of address, of which only the text is used. -/
inductive NetAddr
  | udp (a : UDPAddr)
  | other (text : String)
  deriving DecidableEq

namespace NetAddr

/-- `Addr.String`. -/
def string (net : IPText) : NetAddr → String
  | .udp a => a.string net
  | .other text => text

/-- `sameAddr`. -/
def sameAddr (net : IPText) : NetAddr → NetAddr → Bool
  | .udp a, .udp b => a.port == b.port && a.ip.equal b.ip
  | a, b => a.string net == b.string net

end NetAddr

/-- The addresses of a UDP socket, as the server uses them. -/
def netOps (net : IPText) : AddrOps NetAddr := ⟨NetAddr.string net, NetAddr.sameAddr net⟩

end RudpScheduler.Rudp
