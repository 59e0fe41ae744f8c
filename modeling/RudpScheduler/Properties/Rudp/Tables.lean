import RudpScheduler.Properties.Rudp.InOrder
import RudpScheduler.Properties.Rudp.Shutdown

/-!
# The two tables agree

`TableOk` has one half of the agreement: the connection an address refers to is in the table and
has that address.  `Paired` adds the other half, and what follows from it for the peers.  Every
connection in the table is the one its address refers to; a connection that is alive is in the
table, so its address has no other; and every ConnAck sent names a connection of the address it was
sent to.

Entries are removed on three paths: the sweep, a failed hand-off and a Connect from the address of
a dead connection.  All three go through `forget`, which leaves an address alone that refers to a
newer connection by now (`Paired.forget`).
-/

namespace RudpScheduler.Rudp

/-- A connection sends no ConnAck. -/
lemma Change.no_connAck {ordered : Bool} {wire : Packet → Prop} {v v' : View}
    (h : Change ordered wire v v') (hv : ∀ pkt ∈ v.sent, pkt.typ ≠ .connAck) :
    ∀ pkt ∈ v'.sent, pkt.typ ≠ .connAck := by
  have hsend : ∀ {u : View} {typ : PacketType} {s d}, u.sent = v.sent → typ ≠ .connAck →
      ∀ pkt ∈ (u.send typ s d).sent, pkt.typ ≠ .connAck := by
    intro u typ s d hu htyp
    exact List.forall_mem_append.mpr ⟨hu ▸ hv, List.forall_mem_singleton.mpr htyp⟩
  cases h with
  | fill => exact hsend rfl (by simp)
  | deliver => exact hsend rfl (by simp)
  | ackOnly => exact hsend rfl (by simp)
  | resend => exact hsend rfl (by simp)
  | heartbeat => exact hsend rfl (by simp)
  | sendClose => exact hsend rfl (by simp)
  | _ => exact hv

namespace Server

variable {Addr : Type} {ops : AddrOps Addr} {p : Params} {s t : Server Addr}

/-- What the tables say, as long as connection IDs have not wrapped around. -/
structure Paired (ops : AddrOps Addr) (s : Server Addr) : Prop where
  go_pos : ∀ g c, s.gos.lookup g = some c → g ≠ 0
  /-- A connection in the table is the one its address refers to. -/
  listed : ∀ id g c, s.conns.lookup id = some g → s.gos.lookup g = some c →
    s.byAddr.lookup (ops.string c.raddr) = some id
  /-- A connection that has not ended is in the table. -/
  alive : ∀ g c, s.gos.lookup g = some c → c.dead = false → s.conns.lookup c.conn.id = some g
  /-- The read loop sends nothing but ConnAcks, each with the ID of a connection of that address. -/
  acks : ∀ x ∈ s.sent, x.1.typ = .connAck ∧ ∃ g c, s.gos.lookup g = some c ∧
    c.conn.id = x.1.connID ∧ ops.string c.raddr = ops.string x.2
  /-- The connections send none. -/
  noAcks : ∀ g c, s.gos.lookup g = some c → ∀ pkt ∈ c.conn.sent, pkt.typ ≠ .connAck

lemma start_paired : (start : Server Addr).Paired ops where
  go_pos := by simp [start]
  listed := by simp [start]
  alive := by simp [start]
  acks := by simp [start]
  noAcks := by simp [start]

/-! ## A connection goes on -/

/-- A connection that goes on under its ID, at its address, keeps the tables paired. -/
lemma Paired.insert_go (hs : s.Paired ops) {g : ℕ} {c d : ServerConn Addr}
    (hc : s.gos.lookup g = some c) (hraddr : d.raddr = c.raddr) (hid : d.conn.id = c.conn.id)
    (hdead : d.dead = false → c.dead = false)
    (hsent : ∀ pkt ∈ d.conn.sent, pkt.typ ≠ .connAck) :
    Paired ops { s with gos := s.gos.insert g d } where
  go_pos := GoMap.forall_insert hs.go_pos (hs.go_pos g c hc)
  listed id k e hk he := by
    obtain ⟨rfl, rfl⟩ | ⟨-, he⟩ := GoMap.of_lookup_insert he
    · rw [hraddr]
      exact hs.listed id k c hk hc
    · exact hs.listed id k e hk he
  alive := GoMap.forall_insert hs.alive fun hd => by
    rw [hid]
    exact hs.alive g c hc (hdead hd)
  acks x hx := by
    obtain ⟨ht, k, e, he, heid, hstr⟩ := hs.acks x hx
    refine ⟨ht, k, GoMap.exists_lookup_insert he ⟨heid, hstr⟩ fun hkg => ?_⟩
    subst hkg
    obtain rfl := Option.some_inj.mp (hc.symm.trans he)
    exact ⟨hid.trans heid, hraddr ▸ hstr⟩
  noAcks := GoMap.forall_insert hs.noAcks hsent

/-- A round of a connection's loop keeps the tables paired. -/
lemma Paired.step_go (hs : s.Paired ops) {g : ℕ} {c c₁ c' : ServerConn Addr} {i : Input}
    (hc : s.gos.lookup g = some c) (hstep : c₁.step p i = some (.ok c'))
    (h1 : c₁.conn = c.conn) (h2 : c₁.raddr = c.raddr) (h3 : c₁.dead = c.dead) :
    Paired ops { s with gos := s.gos.insert g c' } := by
  obtain ⟨conn, hconn, rfl, hraddr, -, hdead⟩ := ServerConn.step_ok hstep
  rw [h1] at hconn
  refine hs.insert_go hc (hraddr.trans h2) (Conn.step_id hconn) (fun hd => ?_) ?_
  · rw [hdead, h3, Bool.or_eq_false_iff] at hd
    exact hd.1
  · exact Conn.step_keeps (P := fun v => ∀ pkt ∈ v.sent, pkt.typ ≠ .connAck) hconn
      (fun _ _ hch hv => hch.no_connAck hv) (hs.noAcks g c hc)

/-! ## A connection is forgotten -/

lemma isDead_iff {g : ℕ} : s.isDead g = true ↔ ∃ c, s.gos.lookup g = some c ∧ c.dead = true := by
  unfold isDead
  cases s.gos.lookup g <;> simp

lemma forget_byAddr {id : UInt32} {g : ℕ} {c : ServerConn Addr} (hc : s.gos.lookup g = some c)
    (key : String) : (s.forget ops id g).byAddr.lookup key =
      if key = ops.string c.raddr ∧ s.byAddr.lookup key = some id then none
      else s.byAddr.lookup key := by
  unfold Server.forget
  simp only [hc]
  by_cases hid : s.byAddr.lookup (ops.string c.raddr) = some id
  · rw [if_pos hid, GoMap.lookup_erase_ite]
    by_cases hkey : key = ops.string c.raddr
    · rw [if_pos hkey, if_pos ⟨hkey, hkey ▸ hid⟩]
    · rw [if_neg hkey, if_neg fun h => hkey h.1]
  · rw [if_neg hid, if_neg]
    rintro ⟨rfl, h⟩
    exact hid h

/-- `forget` drops a dead connection only. -/
lemma Paired.forget (hs : s.Paired ops) {id : UInt32} {g : ℕ} (hg : s.conns.lookup id = some g)
    (hd : s.isDead g) : (s.forget ops id g).Paired ops := by
  obtain ⟨c, hc, hdead⟩ := isDead_iff.mp hd
  obtain ⟨hconns, hgos, hsent, -⟩ := s.forget_frame ops id g
  refine ⟨?_, fun id' g' c' hg' hc' => ?_, fun g' c' hc' halive => ?_, ?_, ?_⟩
  · rw [hgos]
    exact hs.go_pos
  · rw [hconns] at hg'
    obtain ⟨hne, hg'⟩ := GoMap.of_lookup_erase hg'
    rw [hgos] at hc'
    rw [forget_byAddr hc, hs.listed id' g' c' hg' hc', if_neg]
    rintro ⟨-, he⟩
    exact hne (Option.some_inj.mp he)
  · rw [hgos] at hc'
    have hin := hs.alive g' c' hc' halive
    rw [hconns, GoMap.lookup_erase_ite, if_neg, hin]
    -- the connection under `id` is dead
    rintro rfl
    obtain rfl := Option.some_inj.mp (hg.symm.trans hin)
    obtain rfl := Option.some_inj.mp (hc.symm.trans hc')
    rw [halive] at hdead
    cases hdead
  · rw [hsent, hgos]
    exact hs.acks
  · rw [hgos]
    exact hs.noAcks

/-- The address of a forgotten connection refers to nobody. -/
lemma TableOk.forget_free (hs : s.TableOk ops) (hlt : s.accepted < 2 ^ 32) {key : String}
    {id : UInt32} {g : ℕ} (hk : s.byAddr.lookup key = some id)
    (hg : s.conns.lookup id = some g) : (s.forget ops id g).byAddr.lookup key = none := by
  obtain ⟨g', c, hg', hc, hstr⟩ := hs.byAddr hlt key id hk
  obtain rfl := Option.some_inj.mp (hg.symm.trans hg')
  rw [forget_byAddr hc, if_pos ⟨hstr.symm, hk⟩]

/-! ## A connection is accepted -/

/-- A new connection for an address that refers to nobody. -/
lemma Paired.accept (hs : s.Paired ops) (htab : s.TableOk ops) (hlt : s.accepted + 1 < 2 ^ 32)
    {addr : Addr} (hfree : s.byAddr.lookup (ops.string addr) = none) :
    Paired ops ((s.accept ops addr).1.connAck (s.nextID + 1) addr) := by
  have hold : ∀ g c, s.gos.lookup g = some c →
      (s.accept ops addr).1.gos.lookup g = some c := fun g c hc => by
    have hle := htab.go_le g c hc
    rw [Server.accept, GoMap.lookup_insert_ite, if_neg (by omega), hc]
  refine ⟨?_, fun id g c hg hc => ?_, ?_, fun x hx => ?_, ?_⟩
  · exact GoMap.forall_insert hs.go_pos (Nat.succ_ne_zero _)
  · change (Finmap.insert (s.nextID + 1) (s.accepted + 1) s.conns).lookup id = some g at hg
    change (Finmap.insert (s.accepted + 1) _ s.gos).lookup g = some c at hc
    change (Finmap.insert (ops.string addr) (s.nextID + 1) s.byAddr).lookup _ = some id
    rw [GoMap.lookup_insert_ite] at hg hc ⊢
    split_ifs at hg with hid
    · obtain rfl := Option.some_inj.mp hg
      rw [if_pos rfl] at hc
      rw [← Option.some_inj.mp hc, if_pos rfl, hid]
    · obtain ⟨c', hc', -⟩ := htab.conns id g hg
      have hle := htab.go_le g c' hc'
      rw [if_neg (by omega)] at hc
      have hlisted := hs.listed id g c hg hc
      rw [if_neg, hlisted]
      -- the address refers to nobody
      intro he
      rw [he, hfree] at hlisted
      cases hlisted
  · refine GoMap.forall_insert (fun g c hc halive => ?_) fun _ => Finmap.lookup_insert _
    change (Finmap.insert (s.nextID + 1) (s.accepted + 1) s.conns).lookup c.conn.id = some g
    rw [GoMap.lookup_insert_ite, if_neg (htab.next_unused hlt hc)]
    exact hs.alive g c hc halive
  · rcases List.mem_append.mp hx with hx | hx
    · obtain ⟨ht, g, c, hc, hid, hstr⟩ := hs.acks x hx
      exact ⟨ht, g, c, hold g c hc, hid, hstr⟩
    · rw [List.mem_singleton.mp hx]
      exact ⟨rfl, s.accepted + 1, _, Finmap.lookup_insert _, rfl, rfl⟩
  · exact GoMap.forall_insert hs.noAcks (by simp [newConn])

/-! ## Steps and runs -/

/-- The phase and the shutdown's flags are not part of the tables. -/
lemma Paired.frame (hs : s.Paired ops) (hconns : t.conns = s.conns) (hbyAddr : t.byAddr = s.byAddr)
    (hgos : t.gos = s.gos) (hsent : t.sent = s.sent) : t.Paired ops := by
  obtain ⟨h1, h2, h3, h4, h5⟩ := hs
  rw [← hgos] at h1 h2 h3 h4 h5
  rw [← hconns] at h2 h3
  rw [← hbyAddr] at h2
  rw [← hsent] at h4
  exact ⟨h1, h2, h3, h4, h5⟩

lemma Paired.sweep (hs : s.Paired ops) (due : Bool) (ord : RangeOrder UInt32) :
    (s.sweep ops due ord).Paired ops := by
  obtain ⟨u, hu, h | h⟩ := sweep_cases hs (fun _ _ _ hu hg hd => hu.forget hg hd) due ord
  · rw [h]
    exact hu.frame rfl rfl rfl rfl
  · rw [h]
    exact hu.frame rfl rfl rfl rfl

/-- The answer to a Connect from an address that refers to a connection. -/
lemma Paired.connAck (hs : s.Paired ops) (htab : s.TableOk ops) (hlt : s.accepted < 2 ^ 32)
    {addr : Addr} {id : UInt32} (hk : s.byAddr.lookup (ops.string addr) = some id) :
    Paired ops (s.connAck id addr) := by
  refine { hs with acks := fun x hx => ?_ }
  rcases List.mem_append.mp hx with hx | hx
  · exact hs.acks x hx
  · obtain ⟨g, c, hg, hc, hstr⟩ := htab.byAddr hlt _ id hk
    obtain ⟨c', hc', hid⟩ := htab.conns id g hg
    obtain rfl := Option.some_inj.mp (hc.symm.trans hc')
    rw [List.mem_singleton.mp hx]
    exact ⟨rfl, g, c, hc, hid, hstr⟩

/-- How many connections have been accepted never goes down. -/
lemma Move.accepted_le {a : ServerAction Addr} (h : Move ops p s a t) :
    s.accepted ≤ t.accepted := by
  cases h with
  | sweep => exact (s.sweep_frame ops _ _).2.ge
  | fresh => exact Nat.le_succ _
  | replaced => exact (Nat.le_succ _).trans_eq' (s.forget_frame ops _ _).2.2.2.1
  | handDead => exact (s.forget_frame ops _ _).2.2.2.1.ge
  | _ => exact le_rfl

/-- A step keeps the tables paired. -/
lemma Move.paired {a : ServerAction Addr} (h : Move ops p s a t) (hok : s.Ok ops)
    (hlt : t.accepted < 2 ^ 32) (hs : s.Paired ops) : t.Paired ops := by
  have hlt' := h.accepted_le.trans_lt hlt
  cases h with
  | ask hph hc hstep => exact (hs.step_go hc hstep rfl rfl rfl).frame rfl rfl rfl rfl
  | sweep => exact hs.sweep _ _
  | known hph hc hk hg => exact (hs.connAck hok.toTableOk hlt' hk).frame rfl rfl rfl rfl
  | fresh hph hc hk => exact (hs.accept hok.toTableOk hlt hk).frame rfl rfl rfl rfl
  | replaced hph hc hk hg hd =>
      have hfree := hok.toTableOk.forget_free hlt' hk hg
      exact ((hs.forget hg hd).accept (hok.toTableOk.forget hg) hlt hfree).frame rfl rfl rfl rfl
  | @handOver g pkt c hph hc =>
      have hgo := hs.insert_go (d := { c with inCh := c.inCh ++ [pkt] }) hc rfl rfl id
        (hs.noAcks g c hc)
      exact hgo.frame rfl rfl rfl rfl
  | handDead hph hd => exact (hs.forget (hok.handing _ _ hph) hd).frame rfl rfl rfl rfl
  | recv hc hin hstep => exact hs.step_go hc hstep rfl rfl rfl
  | conn hc hi hstep => exact hs.step_go hc hstep rfl rfl rfl
  | _ => exact hs.frame rfl rfl rfl rfl

/-- In every reachable state the tables are paired. -/
lemma run_paired {as : List (ServerAction Addr)}
    (hrun : run (Go.survive (step ops p)) start as = some s) (hlt : s.accepted < 2 ^ 32) :
    s.Ok ops ∧ s.Paired ops := by
  have hinv : s.Ok ops ∧ (s.accepted < 2 ^ 32 → s.Paired ops) := by
    refine run_invariant (P := fun s => s.Ok ops ∧ (s.accepted < 2 ^ 32 → s.Paired ops))
      (fun s a t hs hstep => ?_) ⟨start_ok, fun _ => start_paired⟩ hrun
    have hmove := step_move (Go.survive_eq_some.mp hstep)
    exact ⟨hmove.ok hs.1, fun hlt =>
      hmove.paired hs.1 hlt (hs.2 (hmove.accepted_le.trans_lt hlt))⟩
  exact ⟨hinv.1, hinv.2 hlt⟩

/-! ## What the peers see -/

/-- Whoever sends a Connect has a connection that is alive, and is told its ID, or gets the next
ID. -/
lemma Paired.connect_sent (hs : s.Paired ops) (htab : s.TableOk ops) (hlt : s.accepted < 2 ^ 32)
    {addr : Addr} (h : s.connect ops addr = .ok t) :
    ∃ id, t.sent = s.sent ++ [(⟨.connAck, id, 0, []⟩, addr)] ∧
      ((∃ g c, s.gos.lookup g = some c ∧ c.dead = false ∧ c.conn.id = id ∧
          ops.string c.raddr = ops.string addr) ∨
        id = s.nextID + 1 ∧ t.accepted = s.accepted + 1 ∧ ∀ g c, s.gos.lookup g = some c →
          c.dead = false → ops.string c.raddr ≠ ops.string addr) := by
  -- the address of a connection that is alive refers to it
  have hrefers : ∀ g c, s.gos.lookup g = some c → c.dead = false →
      ops.string c.raddr = ops.string addr →
      s.byAddr.lookup (ops.string addr) = some c.conn.id ∧
        s.conns.lookup c.conn.id = some g := fun g c hc hd hstr => by
    have hin := hs.alive g c hc hd
    exact ⟨hstr ▸ hs.listed _ g c hin hc, hin⟩
  unfold connect at h
  split at h
  · rename_i hnone
    obtain rfl := Except.ok.inj h
    refine ⟨_, rfl, .inr ⟨rfl, rfl, fun g c hc hd hstr => ?_⟩⟩
    cases hnone.symm.trans (hrefers g c hc hd hstr).1
  · rename_i id hid
    obtain ⟨g, c, hg, hc, hstr⟩ := htab.byAddr hlt _ id hid
    obtain ⟨-, -, hsent, hacc, hnext⟩ := s.forget_frame ops id g
    rw [hg] at h
    dsimp only at h
    split_ifs at h with hd
    · obtain rfl := Except.ok.inj h
      refine ⟨_, congrArg (· ++ _) hsent, .inr ⟨congrArg (· + 1) hnext, congrArg (· + 1) hacc,
        fun g' c' hc' hd' hstr' => ?_⟩⟩
      obtain ⟨hid', hg'⟩ := hrefers g' c' hc' hd' hstr'
      obtain rfl := Option.some_inj.mp (hid.symm.trans hid')
      obtain rfl := Option.some_inj.mp (hg.symm.trans hg')
      obtain ⟨c₁, hc₁, hdead⟩ := isDead_iff.mp hd
      obtain rfl := Option.some_inj.mp (hc'.symm.trans hc₁)
      rw [hd'] at hdead
      cases hdead
    · obtain rfl := Except.ok.inj h
      obtain ⟨c', hc', hcid⟩ := htab.conns id g hg
      obtain rfl := Option.some_inj.mp (hc.symm.trans hc')
      have halive : c.dead = false := Bool.eq_false_iff.mpr fun h => hd (isDead_iff.mpr ⟨c, hc, h⟩)
      exact ⟨id, rfl, .inl ⟨g, c, hc, halive, hcid, hstr⟩⟩

/-- An address has one connection that is alive. -/
lemma Paired.alive_unique (hs : s.Paired ops) {g g' : ℕ} {c c' : ServerConn Addr}
    (hc : s.gos.lookup g = some c) (hc' : s.gos.lookup g' = some c') (hd : c.dead = false)
    (hd' : c'.dead = false) (hstr : ops.string c.raddr = ops.string c'.raddr) : g = g' := by
  have hin := hs.alive g c hc hd
  have hin' := hs.alive g' c' hc' hd'
  have hid := hs.listed _ g c hin hc
  rw [hstr, hs.listed _ g' c' hin' hc', Option.some_inj] at hid
  rw [← hid, hin', Option.some_inj] at hin
  exact hin.symm

/-- Connections are told apart by their IDs. -/
lemma TableOk.go_eq (hs : s.TableOk ops) (hlt : s.accepted < 2 ^ 32) {g g' : ℕ}
    {c c' : ServerConn Addr} (hc : s.gos.lookup g = some c) (hc' : s.gos.lookup g' = some c')
    (hid : c'.conn.id = c.conn.id) : g' = g := by
  have hle := hs.go_le g c hc
  have hle' := hs.go_le g' c' hc'
  rw [hs.go_id g c hc, hs.go_id g' c' hc'] at hid
  exact seq_inj (by omega) (by omega) hid

/-- The two tables agree with each other and with what the peers have been told. -/
structure Agrees (ops : AddrOps Addr) (p : Params) (s : Server Addr) : Prop where
  pairing : ∀ key id, s.byAddr.lookup key = some id ↔
    ∃ g c, s.conns.lookup id = some g ∧ s.gos.lookup g = some c ∧ ops.string c.raddr = key
  byAddr_injective : ∀ key key' id, s.byAddr.lookup key = some id →
    s.byAddr.lookup key' = some id → key = key'
  conns_injective : ∀ id id' g, s.conns.lookup id = some g → s.conns.lookup id' = some g → id = id'
  one_alive : ∀ g g' c c', s.gos.lookup g = some c → s.gos.lookup g' = some c' →
    c.dead = false → c'.dead = false → ops.string c.raddr = ops.string c'.raddr → g = g'
  /-- Every ConnAck sent to an address carries an ID allocated for that address, once. -/
  connAcks : ∀ pkt addr, (pkt, addr) ∈ s.sent → pkt.typ = .connAck ∧ pkt.connID ≠ 0 ∧
    ∃ g c, s.gos.lookup g = some c ∧ c.conn.id = pkt.connID ∧
      ops.string c.raddr = ops.string addr ∧
      ∀ g' c', s.gos.lookup g' = some c' → c'.conn.id = pkt.connID → g' = g
  /-- Nobody else sends ConnAcks. -/
  onlyReadLoop : ∀ g c, s.gos.lookup g = some c → ∀ pkt ∈ c.conn.sent, pkt.typ ≠ .connAck
  /-- Until the shutdown begins every Connect is answered: with the ID of the connection of its
  address if that is alive, and with one never used before if all of its connections have ended. -/
  answers : s.phase = .reading → s.closing = false → ∀ bytes pkt addr,
    receive bytes = .ok (some pkt) → pkt.typ = .connect →
    ∃ t id, s.step ops p (.datagram bytes addr) = some (.ok t) ∧
      t.sent = s.sent ++ [(⟨.connAck, id, 0, []⟩, addr)] ∧
      (∀ g c, s.gos.lookup g = some c → c.dead = false → ops.string c.raddr = ops.string addr →
        id = c.conn.id) ∧
      ((∀ g c, s.gos.lookup g = some c → ops.string c.raddr = ops.string addr → c.dead = true) →
        t.accepted < 2 ^ 32 → ∀ g c, s.gos.lookup g = some c → c.conn.id ≠ id)

/-- A Connect that `ReadFrom` returns before the shutdown is answered. -/
lemma Paired.answers (hs : s.Paired ops) (htab : s.TableOk ops) (hlt : s.accepted < 2 ^ 32)
    (hph : s.phase = .reading) (hc : s.closing = false) {bytes : List UInt8} {pkt : Packet}
    (hpkt : receive bytes = .ok (some pkt)) (htyp : pkt.typ = .connect) (addr : Addr) :
    ∃ t id, s.step ops p (.datagram bytes addr) = some (.ok t) ∧
      t.sent = s.sent ++ [(⟨.connAck, id, 0, []⟩, addr)] ∧
      (∀ g c, s.gos.lookup g = some c → c.dead = false → ops.string c.raddr = ops.string addr →
        id = c.conn.id) ∧
      ((∀ g c, s.gos.lookup g = some c → ops.string c.raddr = ops.string addr → c.dead = true) →
        t.accepted < 2 ^ 32 → ∀ g c, s.gos.lookup g = some c → c.conn.id ≠ id) := by
  cases hu : s.connect ops addr with
  | error e => exact absurd hu (htab.connect_ne_error hlt addr e)
  | ok u =>
      have hstep : s.step ops p (.datagram bytes addr) = some (.ok { u with phase := .top }) := by
        simp only [step, hph, if_true, datagram, hpkt, Go.ok_bind, htyp, hc, Bool.false_eq_true,
          if_false, hu]
        rfl
      obtain ⟨id, hsent, hwho⟩ := hs.connect_sent htab hlt hu
      refine ⟨_, id, hstep, hsent, fun g c hc hd hstr => ?_, fun hdead hlt' g c hc => ?_⟩
      · rcases hwho with ⟨g', c', hc', hd', rfl, hstr'⟩ | ⟨rfl, -, hnobody⟩
        · obtain rfl := hs.alive_unique hc hc' hd hd' (hstr.trans hstr'.symm)
          rw [Option.some_inj.mp (hc.symm.trans hc')]
        · exact absurd hstr (hnobody g c hc hd)
      · rcases hwho with ⟨g', c', hc', hd', rfl, hstr'⟩ | ⟨rfl, hacc, -⟩
        · rw [hdead g' c' hc' hstr'] at hd'
          cases hd'
        · exact htab.next_unused (by rw [← hacc]; exact hlt') hc

/-- **The connection tables agree** in every reachable state. -/
theorem tables_agree {as : List (ServerAction Addr)}
    (hrun : run (Go.survive (step ops p)) start as = some s) (hlt : s.accepted < 2 ^ 32) :
    s.Agrees ops p := by
  obtain ⟨hok, hs⟩ := run_paired hrun hlt
  have htab := hok.toTableOk
  refine
    { pairing := fun key id => ⟨htab.byAddr hlt key id, ?_⟩
      byAddr_injective := fun key key' id hk hk' => ?_
      conns_injective := fun id id' g hg hg' => ?_
      one_alive := fun g g' c c' hc hc' hd hd' hstr => hs.alive_unique hc hc' hd hd' hstr
      connAcks := fun pkt addr hmem => ?_
      onlyReadLoop := hs.noAcks
      answers := fun hph hc bytes pkt addr hpkt htyp =>
        hs.answers htab hlt hph hc hpkt htyp addr }
  · rintro ⟨g, c, hg, hc, rfl⟩
    exact hs.listed id g c hg hc
  · obtain ⟨g, c, hg, hc, rfl⟩ := htab.byAddr hlt key id hk
    obtain ⟨g', c', hg', hc', rfl⟩ := htab.byAddr hlt key' id hk'
    obtain rfl := Option.some_inj.mp (hg.symm.trans hg')
    rw [Option.some_inj.mp (hc.symm.trans hc')]
  · obtain ⟨c, hc, rfl⟩ := htab.conns id g hg
    obtain ⟨c', hc', rfl⟩ := htab.conns id' g hg'
    rw [Option.some_inj.mp (hc.symm.trans hc')]
  · obtain ⟨ht, g, c, hc, hid, hstr⟩ := hs.acks _ hmem
    have hle := htab.go_le g c hc
    refine ⟨ht, ?_, g, c, hc, hid, hstr, fun g' c' hc' hid' => ?_⟩
    · rw [← hid, htab.go_id g c hc]
      exact seq_ne_zero (hs.go_pos g c hc) (by omega)
    · exact htab.go_eq hlt hc hc' (hid'.trans hid.symm)

/-- A client connects, and its connection is written to. -/
theorem tables_agree_writeRun :
    ∃ s, run (Go.survive (step onePeer Params.default)) start writeRun = some s ∧
      s.byAddr.lookup "peer" = some 1 ∧
      ∃ g c, s.conns.lookup 1 = some g ∧ s.gos.lookup g = some c ∧
        onePeer.string c.raddr = "peer" := by
  have hval : (run (Go.survive (step onePeer Params.default)) start writeRun).map
      (fun s => (s.accepted, s.byAddr.lookup "peer")) = some (1, some 1) := by
    decide +kernel
  obtain ⟨s, hrun, hs⟩ := Option.map_eq_some_iff.mp hval
  obtain ⟨hacc, hk⟩ := Prod.mk.inj hs
  have hagrees := tables_agree hrun (by rw [hacc]; decide)
  exact ⟨s, hrun, hk, (hagrees.pairing _ _).mp hk⟩

/-- Once the shutdown has begun, a Connect is not answered even though the connection of its address
is alive and still flushing. -/
theorem connect_during_shutdown :
    ∃ s c t, run (Go.survive (step onePeer Params.default)) start
        (writeRun ++ [.close, .turn seqOrder, .ask fun _ => 0, .sweep false seqOrder]) = some s ∧
      s.gos.lookup 1 = some c ∧ c.dead = false ∧ c.raddr = 7 ∧
      s.step onePeer Params.default (.datagram [1, 0, 0, 0, 0, 0, 0, 0, 0, 0, 0] 7) =
        some (.ok t) ∧ t.sent = s.sent := by
  have hval : (run (Go.survive (step onePeer Params.default)) start
      (writeRun ++
        [ServerAction.close, .turn seqOrder, .ask fun _ => 0, .sweep false seqOrder])).map
      (fun s => ((s.gos.lookup 1).map (fun c => (c.dead, c.raddr)), s.phase, s.closing)) =
      some (some (false, 7), .reading, true) := by
    decide +kernel
  obtain ⟨s, hrun, hs⟩ := Option.map_eq_some_iff.mp hval
  obtain ⟨hgo, hs⟩ := Prod.mk.inj hs
  obtain ⟨hph, hc⟩ := Prod.mk.inj hs
  obtain ⟨c, hc₁, hc₂⟩ := Option.map_eq_some_iff.mp hgo
  obtain ⟨hdead, hraddr⟩ := Prod.mk.inj hc₂
  have hpkt : receive [1, 0, 0, 0, 0, 0, 0, 0, 0, 0, 0] = .ok (some ⟨.connect, 0, 0, []⟩) := by
    decide +kernel
  refine ⟨s, c, { s with phase := .top }, hrun, hc₁, hdead, hraddr, ?_, rfl⟩
  simp only [step, hph, if_true, datagram, hpkt, Go.ok_bind, hc]
  rfl

end Server

end RudpScheduler.Rudp
