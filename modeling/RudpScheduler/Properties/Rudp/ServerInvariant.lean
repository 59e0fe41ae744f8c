import RudpScheduler.Framework.Runs
import RudpScheduler.Construction.Rudp.ServerSteps
import RudpScheduler.Properties.Rudp.Packet

/-!
# The server's tables

`Server.TableOk` is what the read loop keeps about its two tables and the connections behind
them: a connection is in the table under its own ID, its `dead` channel is closed exactly when
its goroutine has left the loops that end with closing it, and, as long as connection IDs have not
wrapped around, the connection an address refers to is in the table and has that address.
`Server.Ok` adds what holds while a packet is being handed over.

`Server.run_ok` says that every reachable state is like this, and `Server.Ok.no_panic` that from
such a state no step of the server panics.
-/

namespace RudpScheduler.Rudp

/-- What the read loop keeps about its tables. -/
structure Server.TableOk {Addr : Type} (ops : AddrOps Addr) (s : Server Addr) : Prop where
  nextID : s.nextID = UInt32.ofNat s.accepted
  go_le : ∀ g c, s.gos.lookup g = some c → g ≤ s.accepted
  go_id : ∀ g c, s.gos.lookup g = some c → c.conn.id = UInt32.ofNat g
  /-- `dead` is closed once, on the way out. -/
  dead : ∀ g c, s.gos.lookup g = some c → c.dead = !c.conn.phase.beforeDead
  conns : ∀ id g, s.conns.lookup id = some g → ∃ c, s.gos.lookup g = some c ∧ c.conn.id = id
  /-- The address table refers to connections in the connection table. -/
  byAddr : s.accepted < 2 ^ 32 → ∀ key id, s.byAddr.lookup key = some id →
    ∃ g c, s.conns.lookup id = some g ∧ s.gos.lookup g = some c ∧ ops.string c.raddr = key

/-- What is true of the server at every step. -/
structure Server.Ok {Addr : Type} (ops : AddrOps Addr) (s : Server Addr) : Prop extends
    Server.TableOk ops s where
  handing : ∀ g pkt, s.phase = .handing g pkt → s.conns.lookup pkt.connID = some g

namespace Server

variable {Addr : Type} {ops : AddrOps Addr} {p : Params} {s t : Server Addr}

lemma askNext_ne_handing (rest : List ℕ) (g : ℕ) (pkt : Packet) :
    ReadPhase.askNext rest ≠ .handing g pkt := by
  cases rest <;> simp [ReadPhase.askNext]

/-! ## What the operations keep -/

lemma start_ok : (start : Server Addr).Ok ops where
  nextID := rfl
  go_le := by simp [start]
  go_id := by simp [start]
  dead := by simp [start]
  conns := by simp [start]
  byAddr := by simp [start]
  handing := by simp [start]

/-- A connection that goes on under its ID, at its address, keeps the tables in order. -/
lemma TableOk.insert_go (hs : s.TableOk ops) {g : ℕ} {c d : ServerConn Addr}
    (hc : s.gos.lookup g = some c) (hraddr : d.raddr = c.raddr)
    (hid : d.conn.id = c.conn.id) (hdead : d.dead = !d.conn.phase.beforeDead) :
    TableOk ops { s with gos := s.gos.insert g d } where
  nextID := hs.nextID
  go_le := GoMap.forall_insert hs.go_le (hs.go_le g c hc)
  go_id := GoMap.forall_insert hs.go_id (hid.trans (hs.go_id g c hc))
  dead := GoMap.forall_insert hs.dead hdead
  conns id k hk := by
    obtain ⟨e, he, heid⟩ := hs.conns id k hk
    refine GoMap.exists_lookup_insert he heid fun hkg => ?_
    subst hkg
    obtain rfl := Option.some_inj.mp (hc.symm.trans he)
    exact hid.trans heid
  byAddr hlt key id hkey := by
    obtain ⟨k, e, hk, he, hstr⟩ := hs.byAddr hlt key id hkey
    obtain ⟨e', he', hstr'⟩ := GoMap.exists_lookup_insert
      (P := fun e => ops.string e.raddr = key) (v := d) (k := g) he hstr fun hkg => by
        subst hkg
        obtain rfl := Option.some_inj.mp (hc.symm.trans he)
        exact hraddr ▸ hstr
    exact ⟨k, e', hk, he', hstr'⟩

/-- A round of a connection's loop keeps the tables in order. -/
lemma TableOk.step_go (hs : s.TableOk ops) {g : ℕ} {c c₁ c' : ServerConn Addr} {i : Input}
    (hc : s.gos.lookup g = some c) (hstep : c₁.step p i = some (.ok c'))
    (h1 : c₁.conn = c.conn) (h2 : c₁.raddr = c.raddr) (h3 : c₁.dead = c.dead) :
    TableOk ops { s with gos := s.gos.insert g c' } := by
  obtain ⟨conn, hconn, rfl, hraddr, -, hdead⟩ := ServerConn.step_ok hstep
  have hold := hs.dead g c hc
  refine hs.insert_go hc (hraddr.trans h2) ?_ ?_
  · rw [h1] at hconn
    exact Conn.step_id hconn
  · rw [hdead, h3, hold, h1]
    rw [h1] at hconn
    cases hb : c.conn.phase.beforeDead with
    | true => simp
    | false => simp [Conn.step_beforeDead hconn hb]

/-- `forget` keeps the tables in order. -/
lemma TableOk.forget (hs : s.TableOk ops) {id : UInt32} {g : ℕ}
    (hg : s.conns.lookup id = some g) : (s.forget ops id g).TableOk ops := by
  obtain ⟨c, hc, -⟩ := hs.conns id g hg
  have hconns : ∀ id' g', (s.conns.erase id).lookup id' = some g' →
      ∃ c, s.gos.lookup g' = some c ∧ c.conn.id = id' :=
    GoMap.forall_erase hs.conns id
  -- an address that still refers to somebody does not refer to `id`
  have haddr : ∀ m : GoMap String UInt32,
      (∀ key id', m.lookup key = some id' → s.byAddr.lookup key = some id' ∧
        (id' = id → key ≠ ops.string c.raddr)) → s.accepted < 2 ^ 32 →
      ∀ key id', m.lookup key = some id' → ∃ g' c', (s.conns.erase id).lookup id' = some g' ∧
        s.gos.lookup g' = some c' ∧ ops.string c'.raddr = key := by
    intro m hm hlt key id' hkey
    obtain ⟨hkey', hne⟩ := hm key id' hkey
    obtain ⟨g', c', hg', hc', hstr⟩ := hs.byAddr hlt key id' hkey'
    refine ⟨g', c', ?_, hc', hstr⟩
    rw [GoMap.lookup_erase_ite, if_neg, hg']
    rintro rfl
    rw [hg] at hg'
    obtain rfl := Option.some_inj.mp hg'
    rw [hc] at hc'
    obtain rfl := Option.some_inj.mp hc'
    exact hne rfl hstr.symm
  unfold Server.forget
  dsimp only
  rw [hc]
  dsimp only
  split_ifs with hkey
  · refine ⟨hs.nextID, hs.go_le, hs.go_id, hs.dead, hconns, haddr _ fun key id' h => ?_⟩
    obtain ⟨he, h⟩ := GoMap.of_lookup_erase h
    exact ⟨h, fun _ => he⟩
  · refine ⟨hs.nextID, hs.go_le, hs.go_id, hs.dead, hconns, haddr _ fun key id' h => ⟨h, ?_⟩⟩
    rintro rfl rfl
    exact hkey h

lemma TableOk.next_eq (hs : s.TableOk ops) : s.nextID + 1 = UInt32.ofNat (s.accepted + 1) := by
  rw [hs.nextID]
  exact (UInt32.ofNat_add s.accepted 1).symm

/-- As long as the IDs have not wrapped around, that of the next connection belongs to none so
far. -/
lemma TableOk.next_unused (hs : s.TableOk ops) (hlt : s.accepted + 1 < 2 ^ 32) {g : ℕ}
    {c : ServerConn Addr} (hc : s.gos.lookup g = some c) : c.conn.id ≠ s.nextID + 1 := by
  have hle := hs.go_le g c hc
  have hsize : UInt32.size = 2 ^ 32 := rfl
  intro he
  rw [hs.go_id g c hc, hs.next_eq] at he
  have hnat := congrArg UInt32.toNat he
  rw [UInt32.toNat_ofNat_of_lt' (by omega), UInt32.toNat_ofNat_of_lt' hlt] at hnat
  omega

/-- A new connection keeps the tables in order. -/
lemma TableOk.accept (hs : s.TableOk ops) (addr : Addr) : (s.accept ops addr).1.TableOk ops := by
  have hnew : ∀ g c, s.gos.lookup g = some c → g ≠ s.accepted + 1 := fun g c hc =>
    (Nat.lt_succ_of_le (hs.go_le g c hc)).ne
  have hgos : ∀ g c, s.gos.lookup g = some c → (s.gos.insert (s.accepted + 1)
      ⟨newConn (s.nextID + 1) false, addr, [], false⟩).lookup g = some c := fun g c hc => by
    rw [GoMap.lookup_insert_ite, if_neg (hnew g c hc), hc]
  refine ⟨hs.next_eq, ?_, ?_, ?_, fun id g hg => ?_, fun hlt key id hkey => ?_⟩
  · exact GoMap.forall_insert (fun g c hc => Nat.le_succ_of_le (hs.go_le g c hc)) le_rfl
  · exact GoMap.forall_insert hs.go_id hs.next_eq
  · exact GoMap.forall_insert hs.dead rfl
  · obtain ⟨rfl, rfl⟩ | ⟨-, hg⟩ := GoMap.of_lookup_insert hg
    · exact ⟨_, Finmap.lookup_insert _, rfl⟩
    · obtain ⟨c, hc, hid⟩ := hs.conns id g hg
      exact ⟨c, hgos g c hc, hid⟩
  · have hlt' : s.accepted + 1 < 2 ^ 32 := hlt
    obtain ⟨he, rfl⟩ | ⟨-, hkey⟩ := GoMap.of_lookup_insert hkey
    · exact ⟨s.accepted + 1, _, Finmap.lookup_insert _, Finmap.lookup_insert _, he.symm⟩
    · obtain ⟨g, c, hg, hc, hstr⟩ := hs.byAddr (by omega) key id hkey
      refine ⟨g, c, ?_, hgos g c hc, hstr⟩
      obtain ⟨c', hc', rfl⟩ := hs.conns id g hg
      rw [Server.accept, GoMap.lookup_insert_ite, if_neg (hs.next_unused hlt' hc'), hg]

/-! ## Steps and runs -/

/-- In a phase that hands nothing over the tables are all there is. -/
lemma TableOk.ok (hs : s.TableOk ops) (h : ∀ g pkt, s.phase ≠ .handing g pkt) : s.Ok ops :=
  { hs with handing := fun g pkt hph => absurd hph (h g pkt) }

lemma TableOk.sweep (hs : s.TableOk ops) (due : Bool) (ord : RangeOrder UInt32) :
    (s.sweep ops due ord).Ok ops := by
  obtain ⟨u, hu, h | h⟩ := sweep_cases hs (fun _ _ _ hu hg _ => hu.forget hg) due ord
  · rw [h]
    exact TableOk.ok { hu with } (by simp)
  · rw [h]
    exact TableOk.ok { hu with } (by simp)

/-- A step keeps the invariant. -/
lemma Move.ok {a : ServerAction Addr} (h : Move ops p s a t) (hs : s.Ok ops) : t.Ok ops := by
  cases h with
  | close => exact { hs with }
  | shutdown => exact TableOk.ok { hs.toTableOk with } (askNext_ne_handing _)
  | check => exact TableOk.ok { hs.toTableOk with } (by simp)
  | ask hph hc hstep =>
      have htab := hs.toTableOk.step_go hc hstep rfl rfl rfl
      exact TableOk.ok { htab with } (askNext_ne_handing _)
  | askDead => exact TableOk.ok { hs.toTableOk with } (askNext_ne_handing _)
  | sweep => exact hs.toTableOk.sweep _ _
  | timeout => exact TableOk.ok { hs.toTableOk with } (by simp)
  | ignored => exact TableOk.ok { hs.toTableOk with } (by simp)
  | known => exact TableOk.ok { hs.toTableOk with } (by simp)
  | fresh => exact TableOk.ok { hs.toTableOk.accept _ with } (by simp)
  | replaced hph hc hk hg => exact TableOk.ok { (hs.toTableOk.forget hg).accept _ with } (by simp)
  | route hph hg =>
      refine { hs with handing := ?_ }
      rintro g pkt ⟨rfl, rfl⟩
      exact hg
  | @handOver g pkt c hph hc =>
      have htab := hs.toTableOk.insert_go (d := { c with inCh := c.inCh ++ [pkt] }) hc rfl rfl
        (hs.dead g c hc)
      exact TableOk.ok { htab with } (by simp)
  | handDead hph =>
      exact TableOk.ok { hs.toTableOk.forget (hs.handing _ _ hph) with } (by simp)
  | recv hc hin hstep =>
      exact { hs.toTableOk.step_go hc hstep rfl rfl rfl with handing := hs.handing }
  | conn hc hi hstep =>
      exact { hs.toTableOk.step_go hc hstep rfl rfl rfl with handing := hs.handing }

/-- **Every reachable state of the server is well formed.** -/
theorem run_ok {as : List (ServerAction Addr)}
    (h : run (Go.survive (step ops p)) start as = some s) : s.Ok ops :=
  run_invariant (fun _ _ _ hs hstep => (step_move (Go.survive_eq_some.mp hstep)).ok hs) start_ok h

/-! ## No step panics -/

/-- A round panics only where it closes a `dead` channel that is closed. -/
lemma step_go_error {c : ServerConn Addr} {i : Input} {e : Panic}
    (h : c.step p i = some (.error e)) : c.dead = true ∧ c.conn.phase.beforeDead = true := by
  obtain ⟨conn, -, h⟩ := Option.map_eq_some_iff.mp h
  split_ifs at h with hclose hdead
  exact ⟨hdead, hclose.1⟩

lemma put_error {g : ℕ} {r : Option (Go (ServerConn Addr))} {e : Panic}
    (h : r.map (s.put g) = some (.error e)) : r = some (.error e) := by
  obtain ⟨r', hr, h⟩ := Option.map_eq_some_iff.mp h
  cases r' with
  | error e' => rw [hr, Except.error.inj h]
  | ok c => cases h

/-- The channel is open as long as the goroutine is in a loop that ends with closing it. -/
lemma TableOk.not_closed_twice (hs : s.TableOk ops) {g : ℕ} {c : ServerConn Addr}
    (hc : s.gos.lookup g = some c) : ¬ (c.dead = true ∧ c.conn.phase.beforeDead = true) := by
  rintro ⟨hd, hb⟩
  rw [hs.dead g c hc, hb] at hd
  cases hd

lemma stepConn_error {g : ℕ} {i : Input} {e : Panic} (h : s.stepConn p g i = some (.error e)) :
    ∃ c, s.gos.lookup g = some c ∧ c.dead = true ∧ c.conn.phase.beforeDead = true := by
  obtain ⟨c, hc, h⟩ := Option.bind_eq_some_iff.mp h
  exact ⟨c, hc, step_go_error (put_error h)⟩

/-- The Connect path never dereferences a missing connection. -/
lemma TableOk.connect_ne_error (hs : s.TableOk ops) (hlt : s.accepted < 2 ^ 32) (addr : Addr)
    (e : Panic) : s.connect ops addr ≠ .error e := by
  unfold connect
  split
  · simp
  · rename_i id hid
    obtain ⟨g, c, hg, -⟩ := hs.byAddr hlt _ id hid
    rw [hg]
    dsimp only
    split_ifs <;> simp

lemma TableOk.datagram_ne_error (hs : s.TableOk ops) (hlt : s.accepted < 2 ^ 32)
    (bytes : List UInt8) (addr : Addr) (e : Panic) : s.datagram ops bytes addr ≠ .error e := by
  obtain ⟨pkt, hpkt⟩ := parse_total (bytes.take (maxPacket + 1))
  rw [datagram, receive, hpkt, Go.ok_bind]
  cases pkt with
  | none => simp
  | some pkt =>
      dsimp only
      split_ifs
      · simp
      · cases hconn : s.connect ops addr with
        | error e' => exact absurd hconn (hs.connect_ne_error hlt addr e')
        | ok t => simp
      · split
        · simp
        · split_ifs <;> simp

/-- **No step of the server panics**, as long as connection IDs have not wrapped around. -/
theorem Ok.no_panic (hs : s.Ok ops) (hlt : s.accepted < 2 ^ 32) (a : ServerAction Addr)
    (e : Panic) : s.step ops p a ≠ some (.error e) := by
  intro h
  cases a with
  | close => cases h
  | turn ord =>
      rw [step] at h
      split_ifs at h
      cases h
  | ask clock =>
      rw [step] at h
      split at h
      · obtain ⟨c, hc, hbad⟩ := stepConn_error h
        exact hs.not_closed_twice hc hbad
      · cases h
  | askDead =>
      rw [step] at h
      split at h
      · split_ifs at h
        cases h
      · cases h
  | sweep due ord =>
      rw [step] at h
      split_ifs at h
      cases h
  | timeout =>
      rw [step] at h
      split_ifs at h
      cases h
  | datagram bytes addr =>
      rw [step] at h
      split_ifs at h
      exact hs.datagram_ne_error hlt bytes addr e (Option.some_inj.mp h)
  | handOver =>
      rw [step] at h
      split at h
      · obtain ⟨c, -, h⟩ := Option.bind_eq_some_iff.mp h
        split_ifs at h
        cases h
      · cases h
  | handDead =>
      rw [step] at h
      split at h
      · split_ifs at h
        cases h
      · cases h
  | recv g clock =>
      obtain ⟨c, hc, h⟩ := Option.bind_eq_some_iff.mp h
      split at h
      · cases h
      · have hbad := step_go_error (put_error h)
        exact hs.not_closed_twice hc hbad
  | conn g i =>
      have hconn : ∀ i, s.stepConn p g i ≠ some (.error e) := fun i h => by
        obtain ⟨c, hc, hbad⟩ := stepConn_error h
        exact hs.not_closed_twice hc hbad
      cases i with
      | packet pkt clock => cases h
      | stop =>
          rw [step] at h
          split_ifs at h
          exact hconn _ h
      | _ => exact hconn _ h

end Server

end RudpScheduler.Rudp
