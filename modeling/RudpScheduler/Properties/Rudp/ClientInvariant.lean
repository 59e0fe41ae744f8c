import RudpScheduler.Construction.Rudp.ClientSteps
import RudpScheduler.Properties.Rudp.CloseFlush
import RudpScheduler.Properties.Rudp.ServerInvariant

/-!
# A client at every step

`Client.Ok` is what holds of a client at every step: the handshake does not touch the connection,
the connection sends under its own ID, and `dead` is closed exactly when `run` has left the loops
that end with closing it.  So no step of a client panics (`Client.Ok.no_panic`).

The rest says what a step does to the connection (`Client.Move.conn_cases`), where the packets on
their way to it come from (`Client.Move.holds`), and what the client is as the end of a connection
(`Client.endOf`).
-/

namespace RudpScheduler.Rudp

/-! ## What a connection sends -/

/-- A connection sends under its own ID. -/
lemma Change.sent_id {ordered : Bool} {wire : Packet → Prop} {v v' : View}
    (h : Change ordered wire v v') (hv : ∀ pkt ∈ v.sent, pkt.connID = v.id) :
    ∀ pkt ∈ v'.sent, pkt.connID = v'.id := by
  have hsend : ∀ {u : View} {typ : PacketType} {s d}, u.sent = v.sent → u.id = v.id →
      ∀ pkt ∈ (u.send typ s d).sent, pkt.connID = u.id := by
    intro u typ s d hu hid
    exact List.forall_mem_append.mpr ⟨hu ▸ hid ▸ hv, List.forall_mem_singleton.mpr rfl⟩
  cases h with
  | fill => exact hsend rfl rfl
  | deliver => exact hsend rfl rfl
  | ackOnly => exact hsend rfl rfl
  | resend => exact hsend rfl rfl
  | heartbeat => exact hsend rfl rfl
  | sendClose => exact hsend rfl rfl
  | _ => exact hv

namespace Conn

variable {p : Params} {c c' : Conn} {i : Input}

lemma step_sent (h : c.step p i = some c') : c.sent <+: c'.sent :=
  step_keeps (P := fun v => c.sent <+: v.sent) h (fun _ _ hch hv => hv.trans hch.sent_prefix)
    List.prefix_rfl

lemma step_sent_id (h : c.step p i = some c') (hc : ∀ pkt ∈ c.sent, pkt.connID = c.id) :
    ∀ pkt ∈ c'.sent, pkt.connID = c'.id :=
  step_keeps (P := fun v => ∀ pkt ∈ v.sent, pkt.connID = v.id) h (fun _ _ hch => hch.sent_id) hc

end Conn

/-! ## Steps -/

namespace Client

variable {Addr : Type} {p : Params} {c d : Client Addr}

/-- What is true of a client at every step. -/
structure Ok (c : Client Addr) : Prop where
  /-- The handshake does not touch the connection. -/
  fresh : c.stage ≠ .connected → c.cn.conn = newConn 0 true
  sent_id : ∀ pkt ∈ c.cn.conn.sent, pkt.connID = c.cn.conn.id
  /-- `dead` is closed once, on the way out. -/
  dead : c.cn.dead = (c.stage = .timedOut || !c.cn.conn.phase.beforeDead)

lemma start_ok (raddr : Addr) : (start raddr).Ok where
  fresh _ := rfl
  sent_id := by simp [start, newConn]
  dead := rfl

/-- What a step does to the connection: nothing, or it is told its ID, or a round of its loop. -/
lemma Move.conn_cases {a : ClientAction} (h : Move p c a d) :
    (d.cn.conn = c.cn.conn ∧ (d.stage = .connected ↔ c.stage = .connected)) ∨
      (∃ pkt ∈ c.cn.inCh, c.stage ≠ .connected ∧ pkt.typ = .connAck ∧ d.stage = .connected ∧
        d.cn.conn = { c.cn.conn with id := pkt.connID }) ∨
      c.stage = .connected ∧ d.stage = .connected ∧ ∃ i, c.cn.conn.step p i = some d.cn.conn ∧
        ∀ pkt clock, i = .packet pkt clock → pkt ∈ c.cn.inCh := by
  have hround : ∀ {i : Input} {cn : ServerConn Addr}, c.cn.step p i = some (.ok cn) →
      (∀ pkt clock, i ≠ .packet pkt clock) → ∃ i, c.cn.conn.step p i = some cn.conn ∧
        ∀ pkt clock, i = .packet pkt clock → pkt ∈ c.cn.inCh := by
    intro i cn hstep hi
    obtain ⟨conn, hconn, rfl, -⟩ := ServerConn.step_ok hstep
    exact ⟨i, hconn, fun pkt clock h => absurd h (hi pkt clock)⟩
  cases h with
  | retry hrun => exact .inl ⟨rfl, by simp [hrun]⟩
  | timeout hrun => exact .inl ⟨rfl, by simp [hrun]⟩
  | @told pkt rest clock epochs hrun hin htyp =>
      refine .inr (.inl ⟨pkt, ?_, by simp [hrun], htyp, rfl, rfl⟩)
      rw [hin]
      exact List.mem_cons_self
  | @recv pkt rest clock cn hrun hin hstep =>
      obtain ⟨conn, hconn, rfl, -⟩ := ServerConn.step_ok hstep
      refine .inr (.inr ⟨hrun, hrun, _, hconn, ?_⟩)
      rintro q clk ⟨rfl, rfl⟩
      rw [hin]
      exact List.mem_cons_self
  | tick hrun hstep => exact .inr (.inr ⟨hrun, hrun, hround hstep (by simp)⟩)
  | read hrun hcall hstep => exact .inr (.inr ⟨hrun, hrun, hround hstep (by simp)⟩)
  | write hrun hcall hstep => exact .inr (.inr ⟨hrun, hrun, hround hstep (by simp)⟩)
  | closeTaken hrun hcall hstep => exact .inr (.inr ⟨hrun, hrun, hround hstep (by simp)⟩)
  | _ => exact .inl ⟨rfl, Iff.rfl⟩

/-- A packet on its way to the connection. -/
def Holds (c : Client Addr) (pkt : Packet) : Prop := pkt ∈ c.cn.inCh ∨ c.loop = .handing pkt

/-- Packets on their way were on it before, or have just arrived. -/
lemma Move.holds {a : ClientAction} (h : Move p c a d) {pkt : Packet} (hd : d.Holds pkt) :
    c.Holds pkt ∨ ∃ bytes, a = .datagram bytes ∧ receive bytes = .ok (some pkt) := by
  have hround : ∀ {i : Input} {cn : ServerConn Addr}, c.cn.step p i = some (.ok cn) →
      pkt ∈ cn.inCh ∨ c.loop = .handing pkt → c.Holds pkt := by
    intro i cn hstep hd
    obtain ⟨-, -, -, -, hinCh, -⟩ := ServerConn.step_ok hstep
    rwa [hinCh] at hd
  have hrest : ∀ {q : Packet} {rest : List Packet}, c.cn.inCh = q :: rest →
      pkt ∈ rest ∨ c.loop = .handing pkt → c.Holds pkt := by
    intro q rest hin hd
    refine hd.imp_left fun hmem => ?_
    rw [hin]
    exact List.mem_cons_of_mem q hmem
  cases h with
  | parsed hloop hopen hb =>
      rcases hd with hd | hd
      · exact .inl (.inl hd)
      · obtain rfl := ReaderPhase.handing.inj hd
        exact .inr ⟨_, rfl, hb⟩
  | readError =>
      rcases hd with hd | hd
      · exact .inl (.inl hd)
      · cases hd
  | @handOver q hloop =>
      rcases hd with hd | hd
      · rcases List.mem_append.mp hd with hd | hd
        · exact .inl (.inl hd)
        · obtain rfl := List.mem_singleton.mp hd
          exact .inl (.inr hloop)
      · cases hd
  | handDead =>
      rcases hd with hd | hd
      · exact .inl (.inl hd)
      · cases hd
  | skip hrun hin => exact .inl (hrest hin hd)
  | told hrun hin => exact .inl (hrest hin hd)
  | recv hrun hin hstep =>
      obtain ⟨-, -, -, -, hinCh, -⟩ := ServerConn.step_ok hstep
      rw [Holds, hinCh] at hd
      exact .inl (hrest hin hd)
  | tick hrun hstep => exact .inl (hround hstep hd)
  | read hrun hcall hstep => exact .inl (hround hstep hd)
  | write hrun hcall hstep => exact .inl (hround hstep hd)
  | closeTaken hrun hcall hstep => exact .inl (hround hstep hd)
  | _ => exact .inl hd

/-- A step keeps the invariant. -/
lemma Move.ok {a : ClientAction} (h : Move p c a d) (hc : c.Ok) : d.Ok := by
  have hround : ∀ {i : Input} {cn : ServerConn Addr} {inCh : List Packet} {call : CallPhase},
      c.stage = .connected → { c.cn with inCh := inCh }.step p i = some (.ok cn) →
      ({ c with cn := cn, call := call } : Client Addr).Ok := by
    intro i cn inCh call hrun hstep
    obtain ⟨conn, hconn, rfl, -, -, hdead⟩ := ServerConn.step_ok hstep
    refine ⟨fun hne => absurd hrun hne, Conn.step_sent_id hconn hc.sent_id, ?_⟩
    have hold := hc.dead
    simp only [hrun, reduceCtorEq, decide_false, Bool.false_or] at hdead hold ⊢
    rw [hdead, hold]
    cases hb : c.cn.conn.phase.beforeDead with
    | true => simp
    | false => simp [Conn.step_beforeDead hconn hb]
  cases h with
  | @told pkt rest clock epochs hrun hin htyp hid =>
      have hfresh := hc.fresh (by simp [hrun])
      have hdead := hc.dead
      refine ⟨fun hne => absurd rfl hne, ?_, ?_⟩
      · simp [hfresh, newConn]
      · simpa [hrun] using hdead
  | retry hrun =>
      refine ⟨fun _ => hc.fresh (by simp [hrun]), hc.sent_id, ?_⟩
      simpa [hrun] using hc.dead
  | timeout hrun =>
      exact ⟨fun _ => hc.fresh (by simp [hrun]), hc.sent_id, by simp⟩
  | recv hrun hin hstep => exact hround hrun hstep
  | tick hrun hstep => exact hround hrun hstep
  | read hrun hcall hstep => exact hround hrun hstep
  | write hrun hcall hstep => exact hround hrun hstep
  | closeTaken hrun hcall hstep => exact hround hrun hstep
  | _ => exact { hc with }

/-- A round panics only where it closes a `dead` channel that is closed. -/
lemma Ok.stepConn_ne_error (hc : c.Ok) (inCh : List Packet) (call : CallPhase) (i : Input)
    (e : Panic) : ({ c with cn := { c.cn with inCh := inCh }, call := call } :
      Client Addr).stepConn p i ≠ some (.error e) := by
  unfold stepConn
  split_ifs with hrun
  · intro h
    obtain ⟨r, hr, h⟩ := Option.map_eq_some_iff.mp h
    cases r with
    | ok cn => cases h
    | error e' =>
        obtain ⟨hd, hb⟩ := Server.step_go_error hr
        have hdead := hc.dead
        change c.stage = .connected at hrun
        change c.cn.dead = true at hd
        change c.cn.conn.phase.beforeDead = true at hb
        rw [hrun, hd, hb] at hdead
        cases hdead
  · simp

/-- **No step of a client panics.** -/
lemma Ok.no_panic (hc : c.Ok) (a : ClientAction) (e : Panic) : c.step p a ≠ some (.error e) := by
  have hconn : ∀ i, c.stepConn p i ≠ some (.error e) := fun i =>
    hc.stepConn_ne_error c.cn.inCh c.call i e
  intro h
  cases a with
  | datagram bytes =>
      obtain ⟨pkt, hpkt⟩ := parse_total (bytes.take (maxPacket + 1))
      rw [step, onDatagram, receive, hpkt, Go.ok_bind] at h
      split_ifs at h
      cases pkt <;> cases h
  | recv clock =>
      rw [step] at h
      split at h
      · cases h
      · dsimp only at h
        split at h
        · cases h
        · exact hc.stepConn_ne_error _ _ _ _ h
        · cases h
  | tick now ord =>
      rw [step] at h
      split at h
      · rename_i hrun
        have hdead := hc.dead
        rw [hc.fresh (by simp [hrun]), hrun] at hdead
        rw [Option.some_inj, onHandshakeTick, hdead] at h
        split_ifs at h with _ hd
        cases hd
      · exact hconn _ h
      · cases h
  | read =>
      rw [step] at h
      split_ifs at h
      exact hconn _ h
  | write data clock =>
      rw [step] at h
      split_ifs at h
      exact hconn _ h
  | closeTaken clock =>
      rw [step] at h
      split_ifs at h
      exact hc.stepConn_ne_error _ _ _ _ h
  | readError =>
      rw [step] at h
      split_ifs at h
      cases h
  | handOver =>
      rw [step] at h
      split at h
      · split_ifs at h
        cases h
      · cases h
  | handDead =>
      rw [step] at h
      split at h
      · split_ifs at h
        cases h
      · cases h
  | result =>
      rw [step] at h
      split_ifs at h
      split at h <;> cases h
  | close =>
      rw [step] at h
      split_ifs at h
      cases h
  | mainDone =>
      rw [step] at h
      split_ifs at h
      split at h <;> cases h
  | readDone =>
      rw [step] at h
      split_ifs at h
      split at h <;> cases h

/-- What a client has sent stays sent. -/
lemma Move.sent_subset {a : ClientAction} (h : Move p c a d) {pkt : Packet} (hpkt : pkt ∈ c.sent) :
    pkt ∈ d.sent := by
  have hle : c.connects ≤ d.connects := by
    cases h with
    | retry => exact Nat.le_succ _
    | _ => exact le_rfl
  have hconn : c.cn.conn.sent <+: d.cn.conn.sent := by
    rcases h.conn_cases with ⟨heq, -⟩ | ⟨q, -, -, -, -, heq⟩ | ⟨-, -, i, hstep, -⟩
    · rw [heq]
    · rw [heq]
    · exact Conn.step_sent hstep
  rcases List.mem_append.mp hpkt with hmem | hmem
  · obtain ⟨hne, rfl⟩ := List.mem_replicate.mp hmem
    exact List.mem_append_left _ (List.mem_replicate.mpr ⟨by omega, rfl⟩)
  · exact List.mem_append_right _ (hconn.subset hmem)

/-- The end of connection `id` at the client: it has not begun unless the client has been told
`id`. -/
def endOf (c : Client Addr) (id : UInt32) : Conn :=
  if c.stage = .connected ∧ c.cn.conn.id = id then c.cn.conn else newConn id true

/-- Whatever the client has sent may arrive at any connection of the server. -/
lemma Ok.onWire (hc : c.Ok) {pkt : Packet} (h : pkt ∈ c.sent) (id : UInt32) :
    OnWire id (c.endOf id).sent pkt := by
  rcases List.mem_append.mp h with hmem | hmem
  · obtain ⟨-, rfl⟩ := List.mem_replicate.mp hmem
    exact .inr (.inr (.inl rfl))
  · by_cases hrun : c.stage = .connected
    · by_cases hid : c.cn.conn.id = id
      · rw [endOf, if_pos ⟨hrun, hid⟩]
        exact .inl hmem
      · rw [← hc.sent_id pkt hmem] at hid
        exact .inr (.inl hid)
    · rw [hc.fresh hrun] at hmem
      cases hmem

/-- A step leaves an end alone, or is a step of it. -/
lemma Move.endOf_cases {a : ClientAction} (h : Move p c a d) (hc : c.Ok) (id : UInt32) :
    d.endOf id = c.endOf id ∨ c.stage = .connected ∧ c.cn.conn.id = id ∧
      ∃ i, (c.endOf id).step p i = some (d.endOf id) ∧
        ∀ pkt clock, i = .packet pkt clock → pkt ∈ c.cn.inCh := by
  rcases h.conn_cases with ⟨hconn, hrun⟩ | ⟨pkt, -, hne, -, hrun, hconn⟩ |
    ⟨hrun, hrun', i, hstep, hi⟩
  · left
    simp only [endOf, hconn, hrun]
  · -- the end that begins has not begun before
    left
    have hnew : d.cn.conn = newConn pkt.connID true := by
      rw [hconn, hc.fresh hne]
      rfl
    have hold : c.endOf id = newConn id true := if_neg fun h => hne h.1
    rw [hold, endOf, hnew]
    split_ifs with hid
    · exact congrArg (newConn · true) hid.2
    · rfl
  · have hid' := Conn.step_id hstep
    by_cases hid : c.cn.conn.id = id
    · refine .inr ⟨hrun, hid, i, ?_, hi⟩
      rw [endOf, endOf, if_pos ⟨hrun, hid⟩, if_pos ⟨hrun', hid'.trans hid⟩, hstep]
    · left
      have hold : c.endOf id = newConn id true := if_neg fun h => hid h.2
      rw [hold]
      exact if_neg fun h => hid (hid'.symm.trans h.2)

end Client

end RudpScheduler.Rudp
