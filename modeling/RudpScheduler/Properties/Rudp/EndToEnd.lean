import RudpScheduler.Properties.Rudp.NetLink

/-!
# From `Write` to `Read`

What an application reads on a connection is what the application at the other end has written on
it, whatever else is going on at the server's port: nothing from another connection, nothing made
up.  Once `Read` has reported that the other end closed the connection it is all of it, and with
ordered delivery it is a prefix of what was written at any time (`reads_what_was_written`).  This is
on the network of `Construction/Rudp/Net.lean`: a client's port is one that no other client has had
and the server has not heard from before, only a client's own datagrams reach the server from its
address, and only the server's datagrams reach a client.

`Sound` is the part of `Carries` (`Properties/Rudp/Delivery.lean`) that survives the receiver's own
`Close`: what has arrived under a number is the payload of that number.
-/

namespace RudpScheduler.Rudp

variable {ordered : Bool} {wire : Packet → Prop} {x x' y y' : View}

/-! ## What has arrived was accepted -/

/-- What has arrived is what the sender's numbers stand for. -/
structure Sound (x y : View) : Prop where
  sends : Sends x
  arrived : ∀ s d, (s, d) ∈ y.arrived → x.payload s = some d

lemma Sound.sender (h : Sound x y) (hch : Change ordered wire x x')
    (hlen : x'.accepted.length < 2 ^ 32) : Sound x' y where
  sends := hch.sends hlen h.sends
  arrived s d hsd := payload_of_prefix hch.accepted_prefix (h.arrived s d hsd)

lemma Sound.receiver (h : Sound x y) (hch : Change ordered (FromPeer x.sent) y y') :
    Sound x y' := by
  cases hch with
  | @deliver s d hp hw hs =>
      refine ⟨h.sends, fun s' d' hsd => ?_⟩
      rcases List.mem_append.mp hsd with hold | hnew
      · exact h.arrived s' d' hold
      · obtain ⟨rfl, rfl⟩ := Prod.mk.inj (List.mem_singleton.mp hnew)
        exact (h.sends.data _ (hw.mem (Or.inl rfl)) rfl).2
  | _ => exact { h with }

section Link

variable {pa pb : Params} {id : UInt32} {acts : List (Side × Input)} {l : Link}

/-- After every run, in each direction. -/
lemma link_sound (hrun : run (Link.step pa pb) (Link.init id) acts = some l) (sd : Side)
    (hlen : (l.conn sd).accepted.length < 2 ^ 32) :
    Sound (l.conn sd).view (l.conn sd.other).view := by
  refine Link.invariant_direction
    (P := fun x y => x.accepted.length < 2 ^ 32 → Sound x y) (fun ca cb _ => ?_)
    (fun _ _ _ _ h hch hlen => ?_) (fun _ _ _ _ h hch hlen => (h hlen).receiver hch) hrun sd hlen
  · exact ⟨((direction_init id ca cb).carries (by simp [Conn.view, newConn]) rfl).sends,
      fun s d hsd => by cases hsd⟩
  · exact (h (hch.accepted_prefix.length_le.trans_lt hlen)).sender hch hlen

end Link

/-! ## What has been appended was written -/

lemma Sound.mem_accepted (h : Sound x y) {s : UInt32} {d : Payload} (hsd : (s, d) ∈ y.arrived) :
    d ∈ x.accepted :=
  List.mem_of_getElem? (h.arrived s d hsd)

/-- Whatever has been appended was accepted at the other end. -/
lemma Sound.appended_subset (h : Sound x y) (hg : Gets ordered y) {d : Payload}
    (hd : d ∈ y.appended) : d ∈ x.accepted := by
  cases ordered with
  | true => exact ((hg.inOrder rfl).1.appended_isPrefixOf h.arrived).subset hd
  | false =>
      rw [hg.onArrival rfl] at hd
      obtain ⟨⟨s, d'⟩, hsd, rfl⟩ := List.mem_map.mp hd
      exact h.mem_accepted hsd

/-! ## What has been read was written -/

/-- The payloads `Read` has returned. -/
def Conn.read (c : Conn) : List Payload := c.returned.filterMap Delivery.payload?

/-- What the application at `reader` has read of what was written at `writer`. -/
structure Delivered (ordered : Bool) (writer reader : Conn) : Prop where
  subset : ∀ d ∈ reader.read, d ∈ writer.accepted
  inOrder : ordered = true → reader.read <+: writer.accepted
  /-- Everything, under its number, once the writer's Close has been reported to an application that
  has not called `Close` itself; and nothing twice on the ordered path. -/
  closed : reader.closeCalled = false → reader.stopped = false →
    Delivery.err .closed ∈ reader.returned →
    writer.accepted.Subperm reader.read ∧
      (∀ i d, writer.accepted[i]? = some d → (UInt32.ofNat (i + 1), d) ∈ reader.arrived) ∧
      (ordered = true → reader.read = writer.accepted) ∧
      (ordered = false → reader.read = reader.arrived.map Prod.snd)

lemma Hands.read_prefix {c : Conn} (h : Hands c.view) : c.read <+: c.appended := by
  have hdata := h.data
  rw [List.filterMap_append] at hdata
  exact ⟨_, hdata⟩

lemma link_delivered {pa pb : Params} {id : UInt32} {acts : List (Side × Input)} {l : Link}
    (hrun : run (Link.step pa pb) (Link.init id) acts = some l) (sd : Side)
    (hlen : (l.conn sd).accepted.length < 2 ^ 32) :
    Delivered (sd.other.params pa pb).orderedDelivery (l.conn sd) (l.conn sd.other) := by
  have hsound := link_sound hrun sd hlen
  have hgets := link_gets hrun sd.other
  have hhands := link_hands hrun sd.other
  refine ⟨fun d hd => ?_, fun hord => ?_, fun hclose hstop herr => ?_⟩
  · exact hsound.appended_subset hgets (hhands.read_prefix.subset hd)
  · exact hhands.read_prefix.trans ((hgets.inOrder hord).1.appended_isPrefixOf hsound.arrived)
  · have hall := link_allArrived hrun sd hlen hclose herr
    have hread : (l.conn sd.other).read = (l.conn sd.other).appended := by
      have hdata := hhands.data
      rwa [(hhands.of_err_mem hclose hstop herr).1, List.append_nil] at hdata
    rw [hread]
    refine ⟨hgets.accepted_subperm hsound.arrived hlen hall, hall, fun hord => ?_, hgets.onArrival⟩
    obtain ⟨hin, hnone⟩ := hgets.inOrder hord
    exact hin.appended_eq hnone hsound.arrived hlen hall

/-- **What is read is what was written.**  In every reachable state of a server and any number of
clients on one network, where no client opens a port the server has heard from before and what
reaches a client, or the server from a client's address, was sent by the other side, as long as
fewer than `2 ^ 32` connections have been accepted: a client that has been told an ID has one
connection at the server, and in each direction, as long as fewer than `2 ^ 32` messages were
written, the payloads read are payloads written at the other end; with ordered delivery they are a
prefix of those written; and once the other end's Close has been reported all that was written has
been read, as often as it was written. -/
theorem reads_what_was_written {Addr : Type} [DecidableEq Addr] {ops : AddrOps Addr}
    (hexact : ops.Exact) (pc ps : Params) (server : Addr) {as : List (NetAction Addr)}
    {s : Net Addr} (hrun : run (Go.survive (Net.step ops pc ps server)) Net.init as = some s)
    (hlt : s.server.accepted < 2 ^ 32) {addr : Addr} {cl : Client Addr}
    (hcl : s.clients.lookup addr = some cl) (hconn : cl.stage = .connected) :
    ∃ g c, s.server.gos.lookup g = some c ∧ c.raddr = addr ∧ c.conn.id = cl.cn.conn.id ∧
      (cl.cn.conn.accepted.length < 2 ^ 32 →
        Delivered ps.orderedDelivery cl.cn.conn c.conn) ∧
      (c.conn.accepted.length < 2 ^ 32 → Delivered pc.orderedDelivery c.conn cl.cn.conn) := by
  have hs := Net.run_ok hexact hrun hlt
  obtain ⟨g, c, hc, rfl, hid⟩ := hs.told addr cl hcl hconn
  obtain ⟨acts, hacts⟩ := hs.linked g c cl hc hcl
  rw [hid, Client.endOf, if_pos ⟨hconn, rfl⟩] at hacts
  exact ⟨g, c, hc, rfl, hid, link_delivered hacts .a, link_delivered hacts .b⟩

/-- The server has read all the client wrote before it closed. -/
theorem reads_what_was_written_closingRun :
    ∃ s cl c, run (Go.survive (Net.step (globalOps runText) orderedParams orderedParams
        (localPort 7000))) Net.init closingRun = some s ∧
      s.clients.lookup (localPort 7001) = some cl ∧ s.server.gos.lookup 1 = some c ∧
      c.conn.read = cl.cn.conn.accepted ∧ cl.cn.conn.accepted = [[5]] := by
  obtain ⟨s, cl, c, hrun, hacc, hcl, hconn, hid, hwrote, hc, hid', hret, hclose, hstop⟩ :=
    closingRun_state
  have hlt : s.server.accepted < 2 ^ 32 := by rw [hacc]; decide
  have hexact := globalOps_exact runText
  obtain ⟨g, e, he, -, heid, hread, -⟩ := reads_what_was_written hexact orderedParams orderedParams
    (localPort 7000) hrun hlt hcl hconn
  obtain rfl := (Net.run_ok hexact hrun hlt).server.go_eq hlt hc he
    (heid.trans (hid.trans hid'.symm))
  obtain rfl := Option.some_inj.mp (hc.symm.trans he)
  refine ⟨s, cl, c, hrun, hcl, hc, ?_, hwrote⟩
  exact ((hread (by rw [hwrote]; decide)).closed hclose hstop (by rw [hret]; simp)).2.2.1 rfl

end RudpScheduler.Rudp
