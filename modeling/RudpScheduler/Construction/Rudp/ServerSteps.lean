import RudpScheduler.Construction.Rudp.Protocol
import RudpScheduler.Construction.Rudp.Server

/-!
# What a step of the server can do

`Server.Move` lists what one step of the server can do when it does not panic, with the guards
the code checks, and `Server.step_move` says that there is nothing else.  For a connection's
goroutine, `ServerConn.step_ok` splits a round into the round of `Conn` and the fate of the
`dead` channel, and the lemmas on `Conn` say what a round can do to the phase.
-/

namespace RudpScheduler.Rudp

/-! ## A connection -/

/-- A goroutine that has closed `dead` does not come back. -/
lemma Change.beforeDead {ordered : Bool} {wire : Packet → Prop} {v v' : View}
    (h : Change ordered wire v v') (hv : v.phase.beforeDead = false) :
    v'.phase.beforeDead = false := by
  cases h with
  | write hp => rw [hp] at hv; cases hv
  | deliver hp => rw [hp] at hv; cases hv
  | drain hp => rw [hp] at hv; cases hv
  | flush hp => rw [hp] at hv; cases hv
  | handOver hp =>
      dsimp only
      split_ifs
      · rfl
      · exact hv
  | sendClose => rfl
  | quit => rfl
  | abort => rfl
  | _ => exact hv

namespace Conn

variable {p : Params} {c c' : Conn} {i : Input}

lemma step_beforeDead (h : c.step p i = some c') (hc : c.phase.beforeDead = false) :
    c'.phase.beforeDead = false :=
  step_keeps (P := fun v => v.phase.beforeDead = false) h (fun _ _ hch => hch.beforeDead) hc

/-- Something is still to be acknowledged, or to be sent. -/
def Owes (c : Conn) : Prop := 0 < GoMap.len c.sendBuffer ∨ 0 < c.pendingWrites.length

lemma onPacket_phase (clock : ℕ → Time) (pkt : Packet) (hp : c.phase = .main) :
    (c.onPacket p clock pkt).phase ≠ .flushing := by
  have haccept : ∀ (c : Conn) seq d, (c.accept p seq d).phase = c.phase := fun c seq d =>
    congrArg View.phase (accept_view c seq d)
  unfold onPacket
  split
  · simp [hp]
  · dsimp only
    split
    · simp [(onAck_frame _ _ _).1, hp]
    · split
      · simp [hp]
      · simp [sendAck, send, haccept, hp]
    · simp [beginDrain]
    · simp [hp]

/-- A connection comes to flush only by `Close`, and only if it owes its peer something. -/
lemma step_flushing (h : c.step p i = some c') (hc' : c'.phase = .flushing) :
    c.phase = .flushing ∨ c.phase = .main ∧ (∃ clock, i = .close clock) ∧ c.Owes := by
  cases hp : c.phase with
  | flushing => exact .inl rfl
  | main =>
      refine .inr ⟨rfl, ?_⟩
      cases i with
      | packet pkt clock =>
          simp only [step, hp, Option.some_inj] at h
          exact absurd (h ▸ hc') (onPacket_phase clock pkt hp)
      | write data clock =>
          simp only [step, hp] at h
          split_ifs at h
          rw [← Option.some_inj.mp h, onWrite, fillWindow, (fillFrom_frame ..).1] at hc'
          simp [hp] at hc'
      | read =>
          simp only [step, hp, handOver] at h
          split at h
          · cases h
          · rw [← Option.some_inj.mp h] at hc'
            simp at hc'
      | tick now ord =>
          simp only [step, hp, Option.some_inj, onTick] at h
          rw [← h] at hc'
          split_ifs at hc'
          · cases hc'
          · rw [(tickCommon_frame ..).1, hp] at hc'
            cases hc'
      | close clock =>
          refine ⟨⟨clock, rfl⟩, ?_⟩
          -- with nothing owed the loop of `flushThenExit` is over before it begins
          by_contra howes
          have hnil : c.pendingWrites = [] := by
            simpa [Owes] using (not_or.mp howes).2
          have hlen : ¬ 0 < GoMap.len c.sendBuffer := (not_or.mp howes).1
          simp only [step, hp, Option.some_inj] at h
          rw [← h] at hc'
          simp [onClose, fillWindow, fillFrom, checkFlushed, hnil, hlen] at hc'
      | stop => simp [step, hp] at h
  | draining =>
      have hd := step_beforeDead h (by rw [hp]; rfl)
      rw [hc'] at hd
      cases hd
  | ended =>
      have hd := step_beforeDead h (by rw [hp]; rfl)
      rw [hc'] at hd
      cases hd

end Conn

variable {Addr : Type} {ops : AddrOps Addr} {p : Params}

/-- A round that does not panic. -/
lemma ServerConn.step_ok {c c' : ServerConn Addr} {i : Input} (h : c.step p i = some (.ok c')) :
    ∃ conn, c.conn.step p i = some conn ∧ c'.conn = conn ∧ c'.raddr = c.raddr ∧
      c'.inCh = c.inCh ∧
      c'.dead = (c.dead || (c.conn.phase.beforeDead && !conn.phase.beforeDead)) := by
  obtain ⟨conn, hconn, h⟩ := Option.map_eq_some_iff.mp h
  refine ⟨conn, hconn, ?_⟩
  split_ifs at h with hclose hdead
  · obtain rfl := Except.ok.inj h
    simp [hclose]
  · obtain rfl := Except.ok.inj h
    have hopen : (c.conn.phase.beforeDead && !conn.phase.beforeDead) = false := by
      simpa using hclose
    simp [hopen]

/-! ## The server -/

namespace Server

lemma forget_frame (ops : AddrOps Addr) (s : Server Addr) (id : UInt32) (g : ℕ) :
    (s.forget ops id g).conns = s.conns.erase id ∧ (s.forget ops id g).gos = s.gos ∧
      (s.forget ops id g).sent = s.sent ∧ (s.forget ops id g).accepted = s.accepted ∧
      (s.forget ops id g).nextID = s.nextID := by
  unfold Server.forget
  dsimp only
  split
  · split_ifs <;> exact ⟨rfl, rfl, rfl, rfl, rfl⟩
  · exact ⟨rfl, rfl, rfl, rfl, rfl⟩

/-- What a sweep keeps: everything that forgetting a dead connection keeps.  After it the server is
done or reads on. -/
lemma sweep_cases {P : Server Addr → Prop} {s : Server Addr} (hs : P s)
    (hforget : ∀ u id g, P u → u.conns.lookup id = some g → u.isDead g = true →
      P (u.forget ops id g)) (due : Bool) (ord : RangeOrder UInt32) :
    ∃ u, P u ∧ (s.sweep ops due ord = { u with phase := .exited } ∨
      s.sweep ops due ord = { u with phase := .reading }) := by
  have hone : ∀ u id, P u → P (u.sweepOne ops id) := by
    intro u id hu
    unfold sweepOne
    split
    · split_ifs with hd
      · exact hforget u id _ hu ‹_› hd
      · exact hu
    · exact hu
  refine ⟨if due then (ord.range s.conns).foldl (sweepOne ops) s else s, ?_, ?_⟩
  · split_ifs
    · exact (ord.range s.conns).foldlRecOn (motive := P) _ hs fun u hu id _ => hone u id hu
    · exact hs
  · unfold sweep
    dsimp only
    split_ifs
    · exact .inl rfl
    · exact .inr rfl
    · exact .inl rfl
    · exact .inr rfl

/-- A sweep starts and ends no goroutine. -/
lemma sweep_frame (ops : AddrOps Addr) (s : Server Addr) (due : Bool) (ord : RangeOrder UInt32) :
    (s.sweep ops due ord).gos = s.gos ∧ (s.sweep ops due ord).accepted = s.accepted := by
  have hforget : ∀ (u : Server Addr) id g, u.gos = s.gos ∧ u.accepted = s.accepted →
      u.conns.lookup id = some g → u.isDead g = true →
      (u.forget ops id g).gos = s.gos ∧ (u.forget ops id g).accepted = s.accepted := by
    intro u id g hu _ _
    obtain ⟨-, hgos, -, hacc, -⟩ := forget_frame ops u id g
    exact ⟨hgos.trans hu.1, hacc.trans hu.2⟩
  obtain ⟨u, hu, h | h⟩ := sweep_cases ⟨rfl, rfl⟩ hforget due ord
  · rw [h]
    exact hu
  · rw [h]
    exact hu

/-- What one step of the server does when it does not panic. -/
inductive Move (ops : AddrOps Addr) (p : Params) :
    Server Addr → ServerAction Addr → Server Addr → Prop
  | close {s} : Move ops p s .close { s with closeReq := true }
  /-- `beginShutdown` starts. -/
  | shutdown {s ord} (hph : s.phase = .top) (hc : s.closing = false) (hreq : s.closeReq = true) :
      Move ops p s (.turn ord)
        { s with
          closing := true
          closeReq := false
          phase := .askNext ((ord.range s.conns).filterMap s.conns.lookup) }
  | check {s ord} (hph : s.phase = .top) : Move ops p s (.turn ord) { s with phase := .checked }
  /-- A connection takes the request of `beginShutdown`. -/
  | ask {s g rest c c' clock} (hph : s.phase = .asking (g :: rest))
      (hc : s.gos.lookup g = some c) (hstep : c.step p (.close clock) = some (.ok c')) :
      Move ops p s (.ask clock) { s with phase := .askNext rest, gos := s.gos.insert g c' }
  | askDead {s g rest} (hph : s.phase = .asking (g :: rest)) (hd : s.isDead g) :
      Move ops p s .askDead { s with phase := .askNext rest }
  | sweep {s due ord} (hph : s.phase = .checked) :
      Move ops p s (.sweep due ord) (s.sweep ops due ord)
  | timeout {s} (hph : s.phase = .reading) : Move ops p s .timeout { s with phase := .top }
  /-- A datagram that is dropped. -/
  | ignored {s bytes addr} (hph : s.phase = .reading) :
      Move ops p s (.datagram bytes addr) { s with phase := .top }
  /-- A retried Connect. -/
  | known {s bytes addr id g} (hph : s.phase = .reading) (hc : s.closing = false)
      (hk : s.byAddr.lookup (ops.string addr) = some id) (hg : s.conns.lookup id = some g)
      (hd : s.isDead g = false) :
      Move ops p s (.datagram bytes addr) { s.connAck id addr with phase := .top }
  /-- The first Connect of an address. -/
  | fresh {s bytes addr} (hph : s.phase = .reading) (hc : s.closing = false)
      (hk : s.byAddr.lookup (ops.string addr) = none) :
      Move ops p s (.datagram bytes addr)
        { (s.accept ops addr).1.connAck (s.nextID + 1) addr with phase := .top }
  /-- A Connect from an address whose connection has ended. -/
  | replaced {s bytes addr id g} (hph : s.phase = .reading) (hc : s.closing = false)
      (hk : s.byAddr.lookup (ops.string addr) = some id) (hg : s.conns.lookup id = some g)
      (hd : s.isDead g) :
      Move ops p s (.datagram bytes addr)
        { ((s.forget ops id g).accept ops addr).1.connAck ((s.forget ops id g).nextID + 1) addr
          with phase := .top }
  /-- A packet for a connection. -/
  | route {s bytes addr pkt g} (hph : s.phase = .reading)
      (hg : s.conns.lookup pkt.connID = some g) :
      Move ops p s (.datagram bytes addr) { s with phase := .handing g pkt }
  | handOver {s g pkt c} (hph : s.phase = .handing g pkt) (hc : s.gos.lookup g = some c)
      (hroom : c.inCh.length < inChCap) :
      Move ops p s .handOver
        { s with phase := .top, gos := s.gos.insert g { c with inCh := c.inCh ++ [pkt] } }
  | handDead {s g pkt} (hph : s.phase = .handing g pkt) (hd : s.isDead g) :
      Move ops p s .handDead { s.forget ops pkt.connID g with phase := .top }
  | recv {s g c c' pkt rest clock} (hc : s.gos.lookup g = some c) (hin : c.inCh = pkt :: rest)
      (hstep : { c with inCh := rest }.step p (.packet pkt clock) = some (.ok c')) :
      Move ops p s (.recv g clock) { s with gos := s.gos.insert g c' }
  | conn {s g c c' i} (hc : s.gos.lookup g = some c) (hi : ∀ pkt clock, i ≠ .packet pkt clock)
      (hstep : c.step p i = some (.ok c')) :
      Move ops p s (.conn g i) { s with gos := s.gos.insert g c' }

variable {s t : Server Addr}

lemma put_eq_ok {g : ℕ} {r : Go (ServerConn Addr)} (h : s.put g r = .ok t) :
    ∃ c, r = .ok c ∧ t = { s with gos := s.gos.insert g c } := by
  cases r with
  | error e => cases h
  | ok c => exact ⟨c, rfl, (Except.ok.inj h).symm⟩

lemma stepConn_eq_ok {g : ℕ} {i : Input} (h : s.stepConn p g i = some (.ok t)) :
    ∃ c c', s.gos.lookup g = some c ∧ c.step p i = some (.ok c') ∧
      t = { s with gos := s.gos.insert g c' } := by
  obtain ⟨c, hc, h⟩ := Option.bind_eq_some_iff.mp h
  obtain ⟨r, hr, h⟩ := Option.map_eq_some_iff.mp h
  obtain ⟨c', rfl, ht⟩ := put_eq_ok h
  exact ⟨c, c', hc, hr, ht⟩

lemma connect_move {bytes : List UInt8} {addr : Addr} (hph : s.phase = .reading)
    (hc : s.closing = false) (h : s.connect ops addr = .ok t) :
    Move ops p s (.datagram bytes addr) { t with phase := .top } := by
  unfold connect at h
  split at h
  · obtain rfl := Except.ok.inj h
    exact .fresh hph hc ‹_›
  · split at h
    · cases h
    · split_ifs at h with hd
      · obtain rfl := Except.ok.inj h
        exact .replaced hph hc ‹_› ‹_› hd
      · obtain rfl := Except.ok.inj h
        exact .known hph hc ‹_› ‹_› (Bool.eq_false_iff.mpr hd)

lemma datagram_move {bytes : List UInt8} {addr : Addr} (hph : s.phase = .reading)
    (h : s.datagram ops bytes addr = .ok t) : Move ops p s (.datagram bytes addr) t := by
  obtain ⟨pkt, -, h⟩ := Go.bind_eq_ok.mp h
  cases pkt with
  | none =>
      obtain rfl := Except.ok.inj h
      exact .ignored hph
  | some pkt =>
      dsimp only at h
      split_ifs at h with htyp hc
      · obtain rfl := Except.ok.inj h
        exact .ignored hph
      · obtain ⟨u, hu, h⟩ := Go.bind_eq_ok.mp h
        obtain rfl := Except.ok.inj h
        exact connect_move hph (by simpa using hc) hu
      · split at h
        · obtain rfl := Except.ok.inj h
          exact .ignored hph
        · split_ifs at h
          · obtain rfl := Except.ok.inj h
            exact .route hph ‹_›
          · obtain rfl := Except.ok.inj h
            exact .ignored hph

/-- There is nothing else a step of the server can do. -/
theorem step_move {a : ServerAction Addr} (h : s.step ops p a = some (.ok t)) :
    Move ops p s a t := by
  cases a with
  | close =>
      obtain rfl := Except.ok.inj (Option.some_inj.mp h)
      exact .close
  | turn ord =>
      rw [step, turn] at h
      split_ifs at h with hph hc
      · obtain rfl := Except.ok.inj (Option.some_inj.mp h)
        rw [Bool.and_eq_true, Bool.not_eq_true'] at hc
        exact .shutdown hph hc.1 hc.2
      · obtain rfl := Except.ok.inj (Option.some_inj.mp h)
        exact .check hph
  | ask clock =>
      rw [step] at h
      split at h
      · obtain ⟨c, c', hc, hstep, rfl⟩ := stepConn_eq_ok h
        exact .ask ‹_› hc hstep
      · cases h
  | askDead =>
      rw [step] at h
      split at h
      · split_ifs at h with hd
        obtain rfl := Except.ok.inj (Option.some_inj.mp h)
        exact .askDead ‹_› hd
      · cases h
  | sweep due ord =>
      rw [step] at h
      split_ifs at h with hph
      obtain rfl := Except.ok.inj (Option.some_inj.mp h)
      exact .sweep hph
  | timeout =>
      rw [step] at h
      split_ifs at h with hph
      obtain rfl := Except.ok.inj (Option.some_inj.mp h)
      exact .timeout hph
  | datagram bytes addr =>
      rw [step] at h
      split_ifs at h with hph
      exact datagram_move hph (Option.some_inj.mp h)
  | handOver =>
      rw [step] at h
      split at h
      · obtain ⟨c, hc, h⟩ := Option.bind_eq_some_iff.mp h
        split_ifs at h with hroom
        obtain rfl := Except.ok.inj (Option.some_inj.mp h)
        exact .handOver ‹_› hc hroom
      · cases h
  | handDead =>
      rw [step] at h
      split at h
      · split_ifs at h with hd
        obtain rfl := Except.ok.inj (Option.some_inj.mp h)
        exact .handDead ‹_› hd
      · cases h
  | recv g clock =>
      obtain ⟨c, hc, h⟩ := Option.bind_eq_some_iff.mp h
      split at h
      · cases h
      · obtain ⟨r, hr, h⟩ := Option.map_eq_some_iff.mp h
        obtain ⟨c', rfl, rfl⟩ := put_eq_ok h
        exact .recv hc ‹_› hr
  | conn g i =>
      have hother : ∀ i, (∀ pkt clock, i ≠ .packet pkt clock) →
          s.stepConn p g i = some (.ok t) → Move ops p s (.conn g i) t := by
        intro i hi h
        obtain ⟨c, c', hc, hstep, rfl⟩ := stepConn_eq_ok h
        exact .conn hc hi hstep
      cases i with
      | packet pkt clock => cases h
      | stop =>
          rw [step] at h
          split_ifs at h
          exact hother _ (by simp) h
      | _ => exact hother _ (by simp) h

end Server

end RudpScheduler.Rudp
