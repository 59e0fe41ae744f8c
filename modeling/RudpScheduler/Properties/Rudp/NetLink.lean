import RudpScheduler.Construction.Rudp.Net
import RudpScheduler.Properties.Rudp.ClientInvariant
import RudpScheduler.Properties.Rudp.OrderedDelivery
import RudpScheduler.Properties.Rudp.Routing

/-!
# A client and its connection at the server are a link

`Construction/Rudp/Link.lean` takes two ends with the same ID for granted and lets a packet arrive
at one end when the other has sent it.  Here that is proved of a server with any number of clients
on one port: whatever the interleaving of the clients, the server's read loop and its connections,
and whatever reaches the server from elsewhere, a client that has been told an ID and the server's
connection of that ID are two ends of a link (`net_refines_link`).  Three things are assumed of the
outside by `Net.step`: a client's port is one that no other client has had and the server has not
heard from before; what reaches the server from a client's address was sent by that client; and what
reaches a client was sent by the server, although the client does not look at the source of a
datagram.

The invariant (`Net.Ok`) holds before the client has been told anything, too: every connection of
the server at a client's address is linked with the end the client would have if it were told that
connection's ID (`Client.endOf`).  An address may have several connections over time, and the client
may be told the ID of one that has ended; the others stay linked with an end that has not begun.
-/

namespace RudpScheduler.Rudp

/-- What a receiver makes of the bytes of a packet is that packet. -/
lemma Packet.receive_marshal {pkt pkt' : Packet} {bytes : List UInt8} (h : pkt.marshal = .ok bytes)
    (h' : receive bytes = .ok (some pkt')) : pkt' = pkt := by
  obtain ⟨hlen, hbytes⟩ := receive_eq_some_iff.mp h'
  rw [Packet.marshal, marshal_eq] at h
  have heq := (Except.ok.inj h).trans hbytes
  have hlen' : pkt.payload.length = pkt'.payload.length := by
    have hl := congrArg List.length heq
    rw [length_layout, length_layout] at hl
    omega
  have hparse := parse_layout pkt (by omega)
  rw [heq, parse_layout pkt' hlen] at hparse
  exact Option.some_inj.mp (Except.ok.inj hparse)

/-! ## The server's connections -/

namespace Server

variable {Addr : Type} {ops : AddrOps Addr} {p : Params} {s t : Server Addr}

/-- What one step of the server can do to one of its connections. -/
inductive GoMove (p : Params) (s : Server Addr) (g : ℕ) (c : ServerConn Addr) :
    ServerConn Addr → Prop
  | same : GoMove p s g c c
  | handed {pkt : Packet} (hph : s.phase = .handing g pkt) :
      GoMove p s g c { c with inCh := c.inCh ++ [pkt] }
  | round {i : Input} {c' : ServerConn Addr} (hstep : c.conn.step p i = some c'.conn)
      (hpkt : ∀ pkt clock, i = .packet pkt clock → pkt ∈ c.inCh) (hraddr : c'.raddr = c.raddr)
      (hin : ∀ pkt ∈ c'.inCh, pkt ∈ c.inCh) : GoMove p s g c c'

lemma GoMove.frame {g : ℕ} {c c' : ServerConn Addr} (h : GoMove p s g c c') :
    c'.raddr = c.raddr ∧ c'.conn.id = c.conn.id ∧ c.conn.sent ⊆ c'.conn.sent := by
  cases h with
  | same => exact ⟨rfl, rfl, List.Subset.refl _⟩
  | handed => exact ⟨rfl, rfl, List.Subset.refl _⟩
  | round hstep hpkt hraddr =>
      exact ⟨hraddr, Conn.step_id hstep, (Conn.step_sent hstep).subset⟩

/-- What is in `inCh` was there before, or was being handed over. -/
lemma GoMove.inCh {g : ℕ} {c c' : ServerConn Addr} (h : GoMove p s g c c') {pkt : Packet}
    (hpkt : pkt ∈ c'.inCh) : pkt ∈ c.inCh ∨ s.phase = .handing g pkt := by
  cases h with
  | same => exact .inl hpkt
  | handed hph =>
      rcases List.mem_append.mp hpkt with hpkt | hpkt
      · exact .inl hpkt
      · obtain rfl := List.mem_singleton.mp hpkt
        exact .inr hph
  | round hstep hpkt' hraddr hin => exact .inl (hin pkt hpkt)

/-- A round that does not panic, after the packet it takes has left `inCh`. -/
lemma GoMove.of_step {g : ℕ} {c c' : ServerConn Addr} {inCh : List Packet} {i : Input}
    (hstep : { c with inCh := inCh }.step p i = some (.ok c'))
    (hin : ∀ pkt ∈ inCh, pkt ∈ c.inCh)
    (hpkt : ∀ pkt clock, i = .packet pkt clock → pkt ∈ c.inCh) : GoMove p s g c c' := by
  obtain ⟨conn, hconn, rfl, hraddr, hinCh, -⟩ := ServerConn.step_ok hstep
  exact .round hconn hpkt hraddr (hinCh ▸ hin)

/-- What one step can do to the connections as a whole, and to their number. -/
inductive GosMove (p : Params) (s : Server Addr) (a : ServerAction Addr) :
    GoMap ℕ (ServerConn Addr) → ℕ → Prop
  | same : GosMove p s a s.gos s.accepted
  | go {g : ℕ} {c c' : ServerConn Addr} (hc : s.gos.lookup g = some c) (h : GoMove p s g c c') :
      GosMove p s a (s.gos.insert g c') s.accepted
  | new {bytes : List UInt8} {addr : Addr} (ha : a = .datagram bytes addr) :
      GosMove p s a
        (s.gos.insert (s.accepted + 1) ⟨newConn (s.nextID + 1) false, addr, [], false⟩)
        (s.accepted + 1)

lemma Move.gos {a : ServerAction Addr} (h : Move ops p s a t) :
    GosMove p s a t.gos t.accepted := by
  have hround : ∀ {g : ℕ} {c c' : ServerConn Addr} {i : Input}, s.gos.lookup g = some c →
      (∀ pkt clock, i ≠ .packet pkt clock) → c.step p i = some (.ok c') →
      GosMove p s a (s.gos.insert g c') s.accepted := by
    intro g c c' i hc hi hstep
    exact .go hc (.of_step hstep (fun _ h => h) fun pkt clock h => absurd h (hi pkt clock))
  cases h with
  | ask hph hc hstep => exact hround hc (by simp) hstep
  | sweep hph =>
      rw [(s.sweep_frame ops _ _).1, (s.sweep_frame ops _ _).2]
      exact .same
  | fresh => exact .new rfl
  | @replaced bytes addr id g hph hc hk hg hd =>
      obtain ⟨-, hgos, -, hacc, hnext⟩ := s.forget_frame ops id g
      simp only [connAck, accept, hgos, hacc, hnext]
      exact .new rfl
  | handOver hph hc => exact .go hc (.handed hph)
  | @handDead g pkt hph hd =>
      obtain ⟨-, hgos, -, hacc, -⟩ := s.forget_frame ops pkt.connID g
      dsimp only
      rw [hgos, hacc]
      exact .same
  | @recv g c c' pkt rest clock hc hin hstep =>
      refine .go hc (.of_step hstep (fun q hq => ?_) ?_)
      · rw [hin]
        exact List.mem_cons_of_mem _ hq
      · rintro q clk ⟨rfl, rfl⟩
        rw [hin]
        exact List.mem_cons_self
  | conn hc hi hstep => exact hround hc hi hstep
  | _ => exact .same

/-- A connection is never taken out. -/
lemma GosMove.persist {a : ServerAction Addr} {gos : GoMap ℕ (ServerConn Addr)}
    {n : ℕ} (h : GosMove p s a gos n) (hs : s.Ok ops) {g : ℕ} {c : ServerConn Addr}
    (hc : s.gos.lookup g = some c) : ∃ c', gos.lookup g = some c' ∧ GoMove p s g c c' := by
  cases h with
  | same => exact ⟨c, hc, .same⟩
  | @go k e e' he h =>
      refine GoMap.exists_lookup_insert hc .same fun hk => ?_
      subst hk
      obtain rfl := Option.some_inj.mp (hc.symm.trans he)
      exact h
  | new ha =>
      refine GoMap.exists_lookup_insert hc .same fun hk => ?_
      have hle := hs.go_le g c hc
      omega

/-- Where the connections after a step come from. -/
lemma GosMove.origin {a : ServerAction Addr} {gos : GoMap ℕ (ServerConn Addr)}
    {n : ℕ} (h : GosMove p s a gos n) {g : ℕ} {c' : ServerConn Addr}
    (hc' : gos.lookup g = some c') :
    (∃ c, s.gos.lookup g = some c ∧ GoMove p s g c c') ∨
      n = s.accepted + 1 ∧ ∃ bytes addr, a = .datagram bytes addr ∧
        c' = ⟨newConn (s.nextID + 1) false, addr, [], false⟩ := by
  cases h with
  | same => exact .inl ⟨c', hc', .same⟩
  | go hc h =>
      obtain ⟨rfl, rfl⟩ | ⟨-, hc'⟩ := GoMap.of_lookup_insert hc'
      · exact .inl ⟨_, hc, h⟩
      · exact .inl ⟨c', hc', .same⟩
  | new ha =>
      obtain ⟨-, rfl⟩ | ⟨-, hc'⟩ := GoMap.of_lookup_insert hc'
      · exact .inr ⟨rfl, _, _, ha, rfl⟩
      · exact .inl ⟨c', hc', .same⟩

/-- A datagram that is to be handed over comes from an address `sameAddr` takes for the
connection's. -/
lemma datagram_handing {bytes : List UInt8} {addr : Addr} (h : s.datagram ops bytes addr = .ok t)
    {g : ℕ} {pkt : Packet} (hph : t.phase = .handing g pkt) :
    receive bytes = .ok (some pkt) ∧
      ∃ c, s.gos.lookup g = some c ∧ ops.sameAddr addr c.raddr = true := by
  obtain ⟨q, hq, h⟩ := Go.bind_eq_ok.mp h
  cases q with
  | none =>
      obtain rfl := Except.ok.inj h
      cases hph
  | some q =>
      dsimp only at h
      split_ifs at h
      · obtain rfl := Except.ok.inj h
        cases hph
      · obtain ⟨u, -, h⟩ := Go.bind_eq_ok.mp h
        obtain rfl := Except.ok.inj h
        cases hph
      · split at h
        · obtain rfl := Except.ok.inj h
          cases hph
        · split_ifs at h with hsame
          · obtain rfl := Except.ok.inj h
            obtain ⟨rfl, rfl⟩ := ReadPhase.handing.inj hph
            obtain ⟨hsome, hget⟩ := (Option.any_eq_true_iff_get _ _).mp hsame
            exact ⟨hq, _, (Option.some_get hsome).symm, hget⟩
          · obtain rfl := Except.ok.inj h
            cases hph

/-- The read loop hands over what it was handing over, or what has just come from an address
`sameAddr` takes for the connection's. -/
lemma step_handing {a : ServerAction Addr}
    (h : s.step ops p a = some (.ok t)) {g : ℕ} {pkt : Packet} (hph : t.phase = .handing g pkt) :
    s.phase = .handing g pkt ∨ ∃ bytes addr c, a = .datagram bytes addr ∧
      receive bytes = .ok (some pkt) ∧ s.gos.lookup g = some c ∧
      ops.sameAddr addr c.raddr = true := by
  cases step_move h with
  | close => exact .inl hph
  | shutdown => exact absurd hph (askNext_ne_handing _ _ _)
  | ask => exact absurd hph (askNext_ne_handing _ _ _)
  | askDead => exact absurd hph (askNext_ne_handing _ _ _)
  | sweep =>
      unfold sweep at hph
      dsimp only at hph
      split_ifs at hph
  | @route bytes addr pkt' g' hread hg =>
      obtain ⟨rfl, rfl⟩ := ReadPhase.handing.inj hph
      rw [step, if_pos hread, Option.some_inj] at h
      obtain ⟨hb, c, hc, hsame⟩ := datagram_handing h rfl
      exact .inr ⟨bytes, addr, c, rfl, hb, hc, hsame⟩
  | recv => exact .inl hph
  | conn => exact .inl hph
  | _ => cases hph

/-- The read loop takes back no datagram. -/
lemma Move.sent_prefix {a : ServerAction Addr} (h : Move ops p s a t) : s.sent <+: t.sent := by
  cases h with
  | @sweep due ord hph =>
      have hforget : ∀ (u : Server Addr) id g, u.sent = s.sent → u.conns.lookup id = some g →
          u.isDead g = true → (u.forget ops id g).sent = s.sent := fun u id g hu _ _ =>
        (u.forget_frame ops id g).2.2.1.trans hu
      obtain ⟨u, hu, h | h⟩ := sweep_cases (P := fun u => u.sent = s.sent) rfl hforget due ord
      · rw [h]
        exact hu ▸ List.prefix_rfl
      · rw [h]
        exact hu ▸ List.prefix_rfl
  | known => exact List.prefix_append _ _
  | fresh => exact List.prefix_append _ _
  | @replaced bytes addr id g =>
      simp only [connAck, accept, (s.forget_frame ops id g).2.2.1]
      exact List.prefix_append _ _
  | @handDead g pkt =>
      dsimp only
      rw [(s.forget_frame ops pkt.connID g).2.2.1]
  | _ => exact List.prefix_rfl

end Server

/-! ## The invariant -/

/-- The two operations on addresses tell all of them apart. -/
structure AddrOps.Exact {Addr : Type} (ops : AddrOps Addr) : Prop where
  string_inj : ∀ a b, ops.string a = ops.string b → a = b
  sameAddr_eq : ∀ a b, ops.sameAddr a b = true → a = b

/-- The addresses a dual-stack socket reports of peers that are not link-local: 16-byte IPs without
a zone. -/
def GlobalAddr : Type := { a : UDPAddr // a.ip.bytes.length = 16 ∧ a.zone = "" }

instance : DecidableEq GlobalAddr :=
  inferInstanceAs (DecidableEq { a : UDPAddr // a.ip.bytes.length = 16 ∧ a.zone = "" })

/-- What the server does with such an address. -/
def globalOps (net : IPText) : AddrOps GlobalAddr where
  string a := (netOps net).string (.udp a.1)
  sameAddr a b := (netOps net).sameAddr (.udp a.1) (.udp b.1)

/-- Those addresses are told apart. -/
lemma globalOps_exact (net : IPText) : (globalOps net).Exact := by
  have hip : ∀ a b : GlobalAddr, a.1.ip.equal b.1.ip = true → a.1.port = b.1.port → a = b := by
    rintro ⟨⟨⟨ip, hip⟩, port, zone⟩, ha⟩ ⟨⟨⟨ip', hip'⟩, port', zone'⟩, hb⟩ heq hport
    obtain ⟨hlen, rfl⟩ : ip.length = 16 ∧ zone = "" := ha
    obtain ⟨hlen', rfl⟩ : ip'.length = 16 ∧ zone' = "" := hb
    obtain rfl : port = port' := hport
    obtain rfl : ip = ip' := by simpa [IP.equal, hlen, hlen'] using heq
    rfl
  refine ⟨fun a b h => ?_, fun a b h => ?_⟩
  · obtain ⟨heq, hport, -⟩ := UDPAddr.string_inj.mp h
    exact hip a b heq hport
  · have h' : (a.1.port == b.1.port && a.1.ip.equal b.1.ip) = true := h
    rw [Bool.and_eq_true, beq_iff_eq] at h'
    exact hip a b h'.2 h'.1

/-- The client's end of the connection and the server's are two ends of a link. -/
def Linked {Addr : Type} (pc ps : Params) (cl : Client Addr) (c : ServerConn Addr) : Prop :=
  Reaches (Link.step pc ps) (Link.init c.conn.id) ⟨cl.endOf c.conn.id, c.conn⟩

section Linked

variable {Addr : Type} {pc ps : Params} {cl cl' : Client Addr} {c c' : ServerConn Addr} {i : Input}

lemma Linked.client_step (h : Linked pc ps cl c)
    (hstep : (cl.endOf c.conn.id).step pc i = some (cl'.endOf c.conn.id))
    (harr : Arrives (cl.endOf c.conn.id) c.conn i) : Linked pc ps cl' c := by
  refine h.trans (Reaches.single (a := (Side.a, i)) ?_)
  rw [Link.step, if_pos harr, hstep]
  rfl

lemma Linked.server_step (h : Linked pc ps cl c) (hstep : c.conn.step ps i = some c'.conn)
    (harr : Arrives c.conn (cl.endOf c.conn.id) i) : Linked pc ps cl c' := by
  rw [Linked, Conn.step_id hstep]
  refine h.trans (Reaches.single (a := (Side.b, i)) ?_)
  rw [Link.step, if_pos harr, hstep]
  rfl

end Linked

namespace Net

variable {Addr : Type} [DecidableEq Addr]

/-- What is true of the server and its clients at every step. -/
structure Ok (ops : AddrOps Addr) (pc ps : Params) (s : Net Addr) : Prop where
  server : s.server.Ok ops
  paired : s.server.Paired ops
  client : ∀ addr cl, s.clients.lookup addr = some cl → cl.Ok
  heard : ∀ g c, s.server.gos.lookup g = some c → c.raddr ∈ s.heard
  sent_id : ∀ g c, s.server.gos.lookup g = some c → ∀ pkt ∈ c.conn.sent, pkt.connID = c.conn.id
  /-- What a connection at a client's address is given, the client has sent. -/
  toServer : ∀ g c cl pkt, s.server.gos.lookup g = some c →
    s.clients.lookup c.raddr = some cl → pkt ∈ c.inCh ∨ s.server.phase = .handing g pkt →
    pkt ∈ cl.sent
  /-- What a client is given, the server has sent to its address. -/
  toClient : ∀ addr cl pkt, s.clients.lookup addr = some cl → cl.Holds pkt →
    ∃ g, Sent s.server addr pkt g
  /-- A client has been told the ID of a connection at its address. -/
  told : ∀ addr cl, s.clients.lookup addr = some cl → cl.stage = .connected →
    ∃ g c, s.server.gos.lookup g = some c ∧ c.raddr = addr ∧ c.conn.id = cl.cn.conn.id
  linked : ∀ g c cl, s.server.gos.lookup g = some c → s.clients.lookup c.raddr = some cl →
    Linked pc ps cl c

variable {ops : AddrOps Addr} {pc ps : Params} {s : Net Addr}

lemma init_ok : (init : Net Addr).Ok ops pc ps where
  server := Server.start_ok
  paired := Server.start_paired
  client := by simp [init]
  heard := by simp [init, Server.start]
  sent_id := by simp [init, Server.start]
  toServer := by simp [init]
  toClient := by simp [init]
  told := by simp [init]
  linked := by simp [init]

/-! ## A new client -/

lemma Ok.start (hs : s.Ok ops pc ps) {addr : Addr} (hnew : addr ∉ s.heard) (server : Addr) :
    Ok ops pc ps { s with clients := s.clients.insert addr (Client.start server) } where
  server := hs.server
  paired := hs.paired
  client := GoMap.forall_insert hs.client (Client.start_ok server)
  heard := hs.heard
  sent_id := hs.sent_id
  toServer g c cl pkt hc hcl hpkt := by
    obtain ⟨rfl, -⟩ | ⟨-, hcl⟩ := GoMap.of_lookup_insert hcl
    · exact absurd (hs.heard g c hc) hnew
    · exact hs.toServer g c cl pkt hc hcl hpkt
  toClient := by
    intro a cl pkt hcl hpkt
    obtain ⟨rfl, rfl⟩ | ⟨-, hcl⟩ := GoMap.of_lookup_insert hcl
    · rcases hpkt with hpkt | hpkt <;> cases hpkt
    · exact hs.toClient a cl pkt hcl hpkt
  told := by
    intro a cl hcl hrun
    obtain ⟨rfl, rfl⟩ | ⟨-, hcl⟩ := GoMap.of_lookup_insert hcl
    · cases hrun
    · exact hs.told a cl hcl hrun
  linked g c cl hc hcl := by
    obtain ⟨rfl, -⟩ | ⟨-, hcl⟩ := GoMap.of_lookup_insert hcl
    · exact absurd (hs.heard g c hc) hnew
    · exact hs.linked g c cl hc hcl

/-! ## A step of a client -/

/-- Whatever the server has sent to an address may arrive at the client's end of any connection of
that address. -/
lemma Ok.onWire (hs : s.Ok ops pc ps) (hlt : s.server.accepted < 2 ^ 32) {k : ℕ}
    {c : ServerConn Addr} (hc : s.server.gos.lookup k = some c) {pkt : Packet} {g : Option ℕ}
    (hsent : Sent s.server c.raddr pkt g) : OnWire c.conn.id c.conn.sent pkt := by
  cases g with
  | none => exact .inr (.inr (.inr (hs.paired.acks _ hsent).1))
  | some g =>
      obtain ⟨e, he, -, hmem⟩ := hsent
      by_cases hid : e.conn.id = c.conn.id
      · -- connections are told apart by their IDs
        obtain rfl := hs.server.go_eq hlt hc he hid
        obtain rfl := Option.some_inj.mp (hc.symm.trans he)
        exact .inl hmem
      · rw [← hs.sent_id g e he pkt hmem] at hid
        exact .inr (.inl hid)

/-- The ID in a ConnAck that reaches a client is that of a connection at its address. -/
lemma Ok.told_by (hs : s.Ok ops pc ps) (hexact : ops.Exact) {addr : Addr} {pkt : Packet}
    {g : Option ℕ} (hsent : Sent s.server addr pkt g) (htyp : pkt.typ = .connAck) :
    ∃ k c, s.server.gos.lookup k = some c ∧ c.raddr = addr ∧ c.conn.id = pkt.connID := by
  cases g with
  | none =>
      obtain ⟨-, k, c, hc, hid, hstr⟩ := hs.paired.acks _ hsent
      exact ⟨k, c, hc, hexact.string_inj _ _ hstr, hid⟩
  | some g =>
      obtain ⟨e, he, -, hmem⟩ := hsent
      exact absurd htyp (hs.paired.noAcks g e he pkt hmem)

lemma Ok.client_step (hs : s.Ok ops pc ps) (hexact : ops.Exact)
    (hlt : s.server.accepted < 2 ^ 32) {addr : Addr} {cl cl' : Client Addr} {a : ClientAction}
    (hcl : s.clients.lookup addr = some cl) (h : Client.Move pc cl a cl')
    (hdata : ∀ bytes pkt, a = .datagram bytes → receive bytes = .ok (some pkt) →
      ∃ g, Sent s.server addr pkt g) :
    Ok ops pc ps { s with clients := s.clients.insert addr cl' } where
  server := hs.server
  paired := hs.paired
  client := GoMap.forall_insert hs.client (h.ok (hs.client addr cl hcl))
  heard := hs.heard
  sent_id := hs.sent_id
  toServer g c e pkt hc he hpkt := by
    obtain ⟨rfl, rfl⟩ | ⟨-, he⟩ := GoMap.of_lookup_insert he
    · exact h.sent_subset (hs.toServer g c cl pkt hc hcl hpkt)
    · exact hs.toServer g c e pkt hc he hpkt
  toClient := by
    intro b e pkt he hpkt
    obtain ⟨rfl, rfl⟩ | ⟨-, he⟩ := GoMap.of_lookup_insert he
    · rcases h.holds hpkt with hold | ⟨bytes, ha, hb⟩
      · exact hs.toClient b cl pkt hcl hold
      · exact hdata bytes pkt ha hb
    · exact hs.toClient b e pkt he hpkt
  told := by
    intro b e he hrun
    obtain ⟨rfl, rfl⟩ | ⟨-, he⟩ := GoMap.of_lookup_insert he
    · rcases h.conn_cases with ⟨hconn, hiff⟩ | ⟨pkt, hpkt, -, htyp, -, hconn⟩ |
        ⟨hrun', -, i, hstep, -⟩
      · rw [hconn]
        exact hs.told b cl hcl (hiff.mp hrun)
      · obtain ⟨g, hg⟩ := hs.toClient b cl pkt hcl (.inl hpkt)
        rw [hconn]
        exact hs.told_by hexact hg htyp
      · rw [Conn.step_id hstep]
        exact hs.told b cl hcl hrun'
    · exact hs.told b e he hrun
  linked g c e hc he := by
    obtain ⟨haddr, rfl⟩ | ⟨-, he⟩ := GoMap.of_lookup_insert he
    · rw [← haddr] at hcl
      have hold := hs.linked g c cl hc hcl
      rcases h.endOf_cases (hs.client _ _ hcl) c.conn.id with heq | ⟨hrun, hid, i, hstep, hi⟩
      · rw [Linked, heq]
        exact hold
      · refine hold.client_step hstep ?_
        cases i with
        | packet pkt clock =>
            obtain ⟨k, hk⟩ := hs.toClient _ cl pkt hcl (.inl (hi pkt clock rfl))
            have hend : (cl.endOf c.conn.id).id = c.conn.id := by
              rw [Client.endOf, if_pos ⟨hrun, hid⟩, hid]
            rw [Arrives, hend]
            exact hs.onWire hlt hc hk
        | _ => trivial
    · exact hs.linked g c e hc he

/-! ## A step of the server -/

omit [DecidableEq Addr] in
/-- What the server has sent stays sent. -/
lemma Sent.mono {u t : Server Addr} {p : Params} {a : ServerAction Addr} (hu : u.Ok ops)
    (h : Server.Move ops p u a t) {addr : Addr} {pkt : Packet} {g : Option ℕ}
    (hsent : Sent u addr pkt g) : Sent t addr pkt g := by
  cases g with
  | none => exact h.sent_prefix.subset hsent
  | some g =>
      obtain ⟨c, hc, hraddr, hmem⟩ := hsent
      obtain ⟨c', hc', hgo⟩ := h.gos.persist hu hc
      obtain ⟨hraddr', -, hsub⟩ := hgo.frame
      exact ⟨c', hc', hraddr'.trans hraddr, hsub hmem⟩

lemma Ok.server_step (hs : s.Ok ops pc ps) (hexact : ops.Exact) {t : Server Addr}
    {a : ServerAction Addr} (hstep : s.server.step ops ps a = some (.ok t))
    (hlt : t.accepted < 2 ^ 32) {heard : List Addr} (hsub : s.heard ⊆ heard)
    (hdata : ∀ bytes addr, a = .datagram bytes addr → addr ∈ heard ∧
      ∀ cl pkt, s.clients.lookup addr = some cl → receive bytes = .ok (some pkt) → pkt ∈ cl.sent) :
    Ok ops pc ps { s with server := t, heard := heard } := by
  have hmove := Server.step_move hstep
  have hraddr : ∀ {g c c'}, s.server.gos.lookup g = some c → t.gos.lookup g = some c' →
      c'.raddr = c.raddr := by
    intro g c c' hc hc'
    obtain ⟨e, he, hgo⟩ := hmove.gos.persist hs.server hc
    obtain rfl := Option.some_inj.mp (hc'.symm.trans he)
    exact hgo.frame.1
  refine ⟨hmove.ok hs.server, hmove.paired hs.server hlt hs.paired, hs.client,
    fun g c' hc' => ?_, fun g c' hc' => ?_, fun g c' cl pkt hc' hcl hpkt => ?_,
    fun addr cl pkt hcl hpkt => ?_, fun addr cl hcl hrun => ?_, fun g c' cl hc' hcl => ?_⟩
  · rcases hmove.gos.origin hc' with ⟨c, hc, hgo⟩ | ⟨hacc, bytes, addr, ha, rfl⟩
    · rw [hgo.frame.1]
      exact hsub (hs.heard g c hc)
    · exact (hdata bytes addr ha).1
  · rcases hmove.gos.origin hc' with ⟨c, hc, hgo⟩ | ⟨hacc, bytes, addr, ha, rfl⟩
    · have hold := hs.sent_id g c hc
      cases hgo with
      | same => exact hold
      | handed => exact hold
      | round hround => exact Conn.step_sent_id hround hold
    · simp [newConn]
  · rcases hpkt with hin | hph
    · rcases hmove.gos.origin hc' with ⟨c, hc, hgo⟩ | ⟨hacc, bytes, addr, ha, rfl⟩
      · rw [hgo.frame.1] at hcl
        exact hs.toServer g c cl pkt hc hcl (hgo.inCh hin)
      · cases hin
    · rcases Server.step_handing hstep hph with hold | ⟨bytes, addr, c, ha, hb, hc, hsame⟩
      · obtain ⟨c, hc, -⟩ := hs.server.conns _ _ (hs.server.handing g pkt hold)
        rw [hraddr hc hc'] at hcl
        exact hs.toServer g c cl pkt hc hcl (.inr hold)
      · rw [hraddr hc hc', ← hexact.sameAddr_eq addr c.raddr hsame] at hcl
        exact (hdata bytes addr ha).2 cl pkt hcl hb
  · obtain ⟨g, hg⟩ := hs.toClient addr cl pkt hcl hpkt
    exact ⟨g, hg.mono hs.server hmove⟩
  · obtain ⟨g, c, hc, hraddr, hid⟩ := hs.told addr cl hcl hrun
    obtain ⟨c', hc', hgo⟩ := hmove.gos.persist hs.server hc
    obtain ⟨hraddr', hid', -⟩ := hgo.frame
    exact ⟨g, c', hc', hraddr'.trans hraddr, hid'.trans hid⟩
  · rcases hmove.gos.origin hc' with ⟨c, hc, hgo⟩ | ⟨hacc, bytes, addr, ha, rfl⟩
    · rw [hgo.frame.1] at hcl
      have hold := hs.linked g c cl hc hcl
      cases hgo with
      | same => exact hold
      | handed => exact hold
      | @round i _ hround hpkt =>
          refine hold.server_step hround ?_
          cases i with
          | packet pkt clock =>
              have hmem := hs.toServer g c cl pkt hc hcl (.inl (hpkt pkt clock rfl))
              exact (hs.client _ _ hcl).onWire hmem c.conn.id
          | _ => trivial
    · -- a new connection: its ID is nobody's, so the client has not been told it
      have hend : cl.endOf (s.server.nextID + 1) = newConn (s.server.nextID + 1) true := by
        refine if_neg fun h => ?_
        obtain ⟨k, c, hc, -, hid⟩ := hs.told addr cl hcl h.1
        exact hs.server.next_unused (hacc ▸ hlt) hc (hid.trans h.2)
      refine ⟨[], ?_⟩
      rw [run_nil, Option.some_inj]
      exact congrArg (Link.mk · _) hend.symm

/-! ## Runs -/

variable {t : Net Addr} {server : Addr} {a : NetAction Addr}

omit [DecidableEq Addr] in
lemma stepServer_eq_ok {heard : List Addr} {b : ServerAction Addr}
    (h : s.stepServer ops ps heard b = some (.ok t)) :
    ∃ u, s.server.step ops ps b = some (.ok u) ∧ t = { s with server := u, heard := heard } := by
  obtain ⟨r, hr, h⟩ := Option.map_eq_some_iff.mp h
  cases r with
  | error e => cases h
  | ok u => exact ⟨u, hr, (Except.ok.inj h).symm⟩

lemma stepClient_eq_ok {addr : Addr} {b : ClientAction}
    (h : s.stepClient pc addr b = some (.ok t)) :
    ∃ cl cl', s.clients.lookup addr = some cl ∧ cl.step pc b = some (.ok cl') ∧
      t = { s with clients := s.clients.insert addr cl' } := by
  obtain ⟨cl, hcl, h⟩ := Option.bind_eq_some_iff.mp h
  obtain ⟨r, hr, h⟩ := Option.map_eq_some_iff.mp h
  cases r with
  | error e => cases h
  | ok cl' => exact ⟨cl, cl', hcl, hr, (Except.ok.inj h).symm⟩

/-- How many connections have been accepted never goes down. -/
lemma step_accepted_le (h : s.step ops pc ps server a = some (.ok t)) :
    s.server.accepted ≤ t.server.accepted := by
  have hserver : ∀ {heard b}, s.stepServer ops ps heard b = some (.ok t) →
      s.server.accepted ≤ t.server.accepted := by
    intro heard b h
    obtain ⟨u, hu, rfl⟩ := stepServer_eq_ok h
    exact (Server.step_move hu).accepted_le
  have hclient : ∀ {addr b}, s.stepClient pc addr b = some (.ok t) →
      s.server.accepted ≤ t.server.accepted := by
    intro addr b h
    obtain ⟨cl, cl', -, -, rfl⟩ := stepClient_eq_ok h
    exact le_rfl
  unfold step at h
  split at h
  · split_ifs at h
    obtain rfl := Except.ok.inj (Option.some_inj.mp h)
    exact le_rfl
  · obtain ⟨cl, -, h⟩ := Option.bind_eq_some_iff.mp h
    split_ifs at h
    split at h
    · exact hserver h
    · cases h
  · split_ifs at h
    exact hserver h
  · split_ifs at h
    split at h
    · exact hclient h
    · cases h
  · split_ifs at h
    exact hserver h
  · split_ifs at h
    exact hclient h

/-- A step keeps the invariant. -/
lemma Ok.step (hs : s.Ok ops pc ps) (hexact : ops.Exact)
    (h : s.step ops pc ps server a = some (.ok t)) (hlt : t.server.accepted < 2 ^ 32) :
    t.Ok ops pc ps := by
  have hlt' := (step_accepted_le h).trans_lt hlt
  cases a with
  | start addr =>
      rw [Net.step] at h
      split_ifs at h with hnew
      obtain rfl := Except.ok.inj (Option.some_inj.mp h)
      exact hs.start hnew.2 server
  | toServer addr pkt =>
      obtain ⟨cl, hcl, h⟩ := Option.bind_eq_some_iff.mp h
      split_ifs at h with hmem
      split at h
      · obtain ⟨u, hu, rfl⟩ := stepServer_eq_ok h
        refine hs.server_step hexact hu hlt (List.subset_cons_self _ _) ?_
        rintro bytes b ⟨rfl, rfl⟩
        refine ⟨List.mem_cons_self, fun e q he hq => ?_⟩
        obtain rfl := Option.some_inj.mp (hcl.symm.trans he)
        rw [Packet.receive_marshal ‹_› hq]
        exact hmem
      · cases h
  | foreign addr bytes =>
      rw [Net.step] at h
      split_ifs at h with hnone
      obtain ⟨u, hu, rfl⟩ := stepServer_eq_ok h
      refine hs.server_step hexact hu hlt (List.subset_cons_self _ _) ?_
      rintro bs b ⟨rfl, rfl⟩
      refine ⟨List.mem_cons_self, fun e q he hq => ?_⟩
      rw [hnone] at he
      cases he
  | toClient addr g pkt =>
      rw [Net.step] at h
      split_ifs at h with hsent
      split at h
      · obtain ⟨cl, cl', hcl, hstep, rfl⟩ := stepClient_eq_ok h
        refine hs.client_step hexact hlt' hcl (Client.step_move hstep) ?_
        rintro bytes q ⟨rfl⟩ hq
        rw [Packet.receive_marshal ‹_› hq]
        exact ⟨g, hsent⟩
      · cases h
  | server b =>
      rw [Net.step] at h
      split_ifs at h with hb
      obtain ⟨u, hu, rfl⟩ := stepServer_eq_ok h
      exact hs.server_step hexact hu hlt (List.Subset.refl _) fun bytes addr hd =>
        absurd (hd ▸ rfl) hb
  | client addr b =>
      rw [Net.step] at h
      split_ifs at h with hb
      obtain ⟨cl, cl', hcl, hstep, rfl⟩ := stepClient_eq_ok h
      exact hs.client_step hexact hlt' hcl (Client.step_move hstep) fun bytes q hd =>
        absurd (hd ▸ rfl) hb

/-- Every reachable state is well formed, as long as connection IDs have not wrapped around. -/
lemma run_ok (hexact : ops.Exact) {as : List (NetAction Addr)}
    (h : run (Go.survive (Net.step ops pc ps server)) Net.init as = some s)
    (hlt : s.server.accepted < 2 ^ 32) : s.Ok ops pc ps := by
  refine run_invariant (P := fun s : Net Addr => s.server.accepted < 2 ^ 32 → s.Ok ops pc ps)
    (fun s a t hs hstep hlt => ?_) (fun _ => init_ok) h hlt
  have hstep' := Go.survive_eq_some.mp hstep
  exact (hs ((step_accepted_le hstep').trans_lt hlt)).step hexact hstep' hlt

/-- No step panics: none of the server's, none of a client's. -/
lemma Ok.no_panic (hs : s.Ok ops pc ps) (hlt : s.server.accepted < 2 ^ 32) (a : NetAction Addr)
    (e : Panic) : s.step ops pc ps server a ≠ some (.error e) := by
  have hserver : ∀ heard b, s.stepServer ops ps heard b ≠ some (.error e) := by
    intro heard b h
    obtain ⟨r, hr, h⟩ := Option.map_eq_some_iff.mp h
    cases r with
    | ok u => cases h
    | error e' => exact hs.server.no_panic hlt b e' hr
  have hclient : ∀ addr b, s.stepClient pc addr b ≠ some (.error e) := by
    intro addr b h
    obtain ⟨cl, hcl, h⟩ := Option.bind_eq_some_iff.mp h
    obtain ⟨r, hr, h⟩ := Option.map_eq_some_iff.mp h
    cases r with
    | ok cl' => cases h
    | error e' => exact (hs.client addr cl hcl).no_panic b e' hr
  intro h
  cases a with
  | start addr =>
      rw [Net.step] at h
      split_ifs at h
      cases h
  | toServer addr pkt =>
      obtain ⟨cl, -, h⟩ := Option.bind_eq_some_iff.mp h
      rw [Packet.marshal, marshal_eq] at h
      split_ifs at h
      exact hserver _ _ h
  | foreign addr bytes =>
      rw [Net.step] at h
      split_ifs at h
      exact hserver _ _ h
  | toClient addr g pkt =>
      rw [Net.step, Packet.marshal, marshal_eq] at h
      split_ifs at h
      exact hclient _ _ h
  | server b =>
      rw [Net.step] at h
      split_ifs at h
      exact hserver _ _ h
  | client addr b =>
      rw [Net.step] at h
      split_ifs at h
      exact hclient _ _ h

end Net

/-- The host `::1`, port `n`. -/
def localPort (n : ℕ) : GlobalAddr :=
  ⟨⟨⟨loopbackBytes, .inr rfl⟩, n, ""⟩, rfl, rfl⟩

/-- The read loop of the server goes on to its next `ReadFrom`. -/
def readNext : List (NetAction GlobalAddr) :=
  [.server (.turn seqOrder), .server (.sweep false seqOrder)]

/-- A client connects and writes a message. -/
def dialRun (addr : GlobalAddr) : List (NetAction GlobalAddr) :=
  [.start addr, .toServer addr ⟨.connect, 0, 0, []⟩, .toClient addr none ⟨.connAck, 1, 0, []⟩,
    .client addr .handOver, .client addr (.recv fun _ => 0), .client addr .result,
    .client addr (.write [5] fun _ => 0)]

/-- The message arrives, its Ack does, and the client closes. -/
def ackRun (addr : GlobalAddr) : List (NetAction GlobalAddr) :=
  [.toServer addr ⟨.data, 1, 1, [5]⟩, .server .handOver, .server (.recv 1 fun _ => 1),
    .toClient addr (some 1) ⟨.ack, 1, 1, []⟩, .client addr .handOver,
    .client addr (.recv fun _ => 2), .client addr .close, .client addr (.closeTaken fun _ => 3)]

/-- The Close packet arrives, and the server's application reads the message and the error. -/
def readRun (addr : GlobalAddr) : List (NetAction GlobalAddr) :=
  [.toServer addr ⟨.close, 1, 0, []⟩, .server .handOver, .server (.recv 1 fun _ => 4),
    .server (.conn 1 .read), .server (.conn 1 .read)]

/-- A client connects, writes a message and closes. -/
def closingRun : List (NetAction GlobalAddr) :=
  readNext ++ dialRun (localPort 7001) ++ readNext ++ ackRun (localPort 7001) ++ readNext ++
    readRun (localPort 7001)

/-- What is there at the end of that run. -/
lemma closingRun_state :
    ∃ s cl c, run (Go.survive (Net.step (globalOps runText) orderedParams orderedParams
        (localPort 7000))) Net.init closingRun = some s ∧
      s.server.accepted = 1 ∧ s.clients.lookup (localPort 7001) = some cl ∧
      cl.stage = .connected ∧ cl.cn.conn.id = 1 ∧ cl.cn.conn.accepted = [[5]] ∧
      s.server.gos.lookup 1 = some c ∧ c.conn.id = 1 ∧
      c.conn.returned = [.data [5], .err .closed] ∧
      c.conn.closeCalled = false ∧ c.conn.stopped = false := by
  have hclient : (run (Go.survive (Net.step (globalOps runText) orderedParams orderedParams
      (localPort 7000))) Net.init closingRun).map
        (fun s => (s.clients.lookup (localPort 7001)).map fun cl =>
          (cl.stage, cl.cn.conn.id, cl.cn.conn.accepted)) =
      some (some (.connected, 1, [[5]])) := by
    decide +kernel
  have hserver : (run (Go.survive (Net.step (globalOps runText) orderedParams orderedParams
      (localPort 7000))) Net.init closingRun).map (fun s => (s.server.gos.lookup 1).map fun c =>
        (c.conn.id, c.conn.returned, c.conn.closeCalled, c.conn.stopped)) =
      some (some (1, [.data [5], .err .closed], false, false)) := by
    decide +kernel
  have hacc : (run (Go.survive (Net.step (globalOps runText) orderedParams orderedParams
      (localPort 7000))) Net.init closingRun).map (fun s => s.server.accepted) = some 1 := by
    decide +kernel
  obtain ⟨s, hrun, hcl⟩ := Option.map_eq_some_iff.mp hclient
  rw [hrun, Option.map_some, Option.some_inj] at hserver hacc
  obtain ⟨cl, hcl, hcl'⟩ := Option.map_eq_some_iff.mp hcl
  obtain ⟨c, hc, hc'⟩ := Option.map_eq_some_iff.mp hserver
  simp only [Prod.mk.injEq] at hcl' hc'
  exact ⟨s, cl, c, hrun, hacc, hcl, hcl'.1, hcl'.2.1, hcl'.2.2, hc, hc'.1, hc'.2.1, hc'.2.2.1,
    hc'.2.2.2⟩

end RudpScheduler.Rudp
