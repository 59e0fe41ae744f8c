import RudpScheduler.Construction.Rudp.Link

/-!
# The protocol behind a connection

What a connection does, without its timers and counters.  A `View` keeps which payload is
unacknowledged under which number, the two queues, the phase and the history; `Change` lists the
atomic things that happen to it, with the guards the code checks.  `Conn.step_changes` connects
the two: every round of a connection's loop is a sequence of changes of its view.  A property of
the protocol is therefore proved once per change, whatever `fillWindow` or `retransmitExpired`
do in one round.
-/

namespace RudpScheduler.Rudp

/-! ## The ordered receive path as a function -/

namespace Ordered

/-- The loop of the ordered receive path: the new variables and the payloads released. -/
def release : ℕ → Ordered → Ordered × List Payload
  | 0, o => (o, [])
  | fuel + 1, o =>
    match o.held.lookup o.next with
    | none => (o, [])
    | some payload =>
      let (o', out) := release fuel ⟨o.next + 1, o.held.erase o.next⟩
      (o', payload :: out)

/-- One call of the ordered receive path. -/
def accept (o : Ordered) (seq : UInt32) (payload : Payload) : Ordered × List Payload :=
  if seq < o.next ∨ (o.held.lookup seq).isSome then (o, [])
  else
    let held := o.held.insert seq payload
    release (GoMap.len held) ⟨o.next, held⟩

lemma release_of_none {o : Ordered} (h : o.held.lookup o.next = none) (fuel : ℕ) :
    o.release fuel = (o, []) := by
  cases fuel with
  | zero => rfl
  | succ fuel => simp only [release, h]

lemma release_of_some {o : Ordered} {d : Payload} (h : o.held.lookup o.next = some d)
    (fuel : ℕ) :
    o.release (fuel + 1) =
      ((release fuel ⟨o.next + 1, o.held.erase o.next⟩).1,
        d :: (release fuel ⟨o.next + 1, o.held.erase o.next⟩).2) := by
  simp only [release, h]

lemma accept_of_known {o : Ordered} {seq : UInt32}
    (h : seq < o.next ∨ (o.held.lookup seq).isSome = true) (d : Payload) :
    o.accept seq d = (o, []) := if_pos h

lemma accept_of_new {o : Ordered} {seq : UInt32}
    (h : ¬ (seq < o.next ∨ (o.held.lookup seq).isSome = true)) (d : Payload) :
    o.accept seq d =
      release (GoMap.len (o.held.insert seq d)) ⟨o.next, o.held.insert seq d⟩ := if_neg h

end Ordered

lemma Conn.release_eq (fuel : ℕ) (c : Conn) :
    c.release fuel =
      { c with
        recv := (c.recv.release fuel).1
        deliverQ := c.deliverQ ++ (c.recv.release fuel).2.map .data
        appended := c.appended ++ (c.recv.release fuel).2 } := by
  induction fuel generalizing c with
  | zero => simp [Conn.release, Ordered.release]
  | succ fuel ih =>
      unfold Conn.release Ordered.release
      cases hl : c.recv.held.lookup c.recv.next with
      | none => simp
      | some payload =>
          dsimp only
          rw [ih]
          simp [Conn.deliver]

/-! ## Views -/

/-- A connection without its timers and counters. -/
structure View where
  id : UInt32
  /-- The unacknowledged payload under each number. -/
  buffer : UInt32 → Option Payload
  pending : List Payload
  queue : List Delivery
  nextSeq : UInt32
  recv : Ordered
  phase : Phase
  closeCalled : Bool
  stopped : Bool
  sent : List Packet
  accepted : List Payload
  arrived : List (UInt32 × Payload)
  appended : List Payload
  returned : List Delivery

/-- The view of a connection. -/
def Conn.view (c : Conn) : View where
  id := c.id
  buffer s := (c.sendBuffer.lookup s).map OutMsg.payload
  pending := c.pendingWrites
  queue := c.deliverQ
  nextSeq := c.nextSeq
  recv := c.recv
  phase := c.phase
  closeCalled := c.closeCalled
  stopped := c.stopped
  sent := c.sent
  accepted := c.accepted
  arrived := c.arrived
  appended := c.appended
  returned := c.returned

namespace View

/-- A datagram is given to the socket. -/
def send (v : View) (typ : PacketType) (seq : UInt32) (payload : Payload) : View :=
  { v with sent := v.sent ++ [⟨typ, v.id, seq, payload⟩] }

/-- What one call of `accept` releases to the application. -/
def released (ordered : Bool) (v : View) (seq : UInt32) (payload : Payload) : List Payload :=
  if ordered then (v.recv.accept seq payload).2 else [payload]

/-- One call of `accept`. -/
def receive (ordered : Bool) (v : View) (seq : UInt32) (payload : Payload) : View :=
  { v with
    arrived := v.arrived ++ [(seq, payload)]
    recv := if ordered then (v.recv.accept seq payload).1 else v.recv
    queue := v.queue ++ (v.released ordered seq payload).map .data
    appended := v.appended ++ v.released ordered seq payload }

end View

/-- One atomic change of a connection that can receive the packets in `wire`. -/
inductive Change (ordered : Bool) (wire : Packet → Prop) : View → View → Prop
  /-- The application writes. -/
  | write {v : View} {d : Payload} (hp : v.phase = .main) :
      Change ordered wire v { v with pending := v.pending ++ [d], accepted := v.accepted ++ [d] }
  /-- A write enters the window. -/
  | fill {v : View} {d : Payload} {rest : List Payload} (hd : v.pending = d :: rest) :
      Change ordered wire v
        ({ v with
            nextSeq := v.nextSeq + 1
            buffer := Function.update v.buffer (v.nextSeq + 1) (some d)
            pending := rest }.send .data (v.nextSeq + 1) d)
  /-- An Ack for an unacknowledged message arrives. -/
  | acked {v : View} {s : UInt32} {d : Payload} (hw : wire ⟨.ack, v.id, s, d⟩) :
      Change ordered wire v { v with buffer := Function.update v.buffer s none }
  /-- A Data packet arrives and is accepted, then acknowledged. -/
  | deliver {v : View} {s : UInt32} {d : Payload} (hp : v.phase = .main)
      (hw : wire ⟨.data, v.id, s, d⟩) (hs : s ≠ 0) :
      Change ordered wire v ((v.receive ordered s d).send .ack s [])
  /-- A Data packet arrives after `Close` and is only acknowledged. -/
  | ackOnly {v : View} {s : UInt32} (hp : v.phase = .flushing) :
      Change ordered wire v (v.send .ack s [])
  /-- An unacknowledged message is sent again. -/
  | resend {v : View} {s : UInt32} {d : Payload} (hb : v.buffer s = some d) :
      Change ordered wire v (v.send .data s d)
  | heartbeat {v : View} : Change ordered wire v (v.send .ack 0 [])
  /-- The connection ends because the peer closed it or is silent. -/
  | drain {v : View} {e : ConnErr} (hp : v.phase = .main)
      (hw : e = .closed → ∃ s d, wire ⟨.close, v.id, s, d⟩) :
      Change ordered wire v { v with queue := v.queue ++ [.err e], phase := .draining }
  /-- `Read` takes the head of the queue. -/
  | handOver {v : View} {d : Delivery} {rest : List Delivery}
      (hp : v.phase = .main ∨ v.phase = .draining) (hq : v.queue = d :: rest) :
      Change ordered wire v
        { v with
          queue := rest
          returned := v.returned ++ [d]
          phase := if v.phase = .draining ∧ rest = [] then .ended else v.phase }
  /-- The application calls `Close`. -/
  | flush {v : View} (hp : v.phase = .main) :
      Change ordered wire v { v with closeCalled := true, phase := .flushing }
  /-- Everything is acknowledged: tell the peer. -/
  | sendClose {v : View} (hp : v.phase = .flushing) (hb : ∀ s, v.buffer s = none)
      (hd : v.pending = []) : Change ordered wire v { v.send .close 0 [] with phase := .ended }
  /-- The peer is gone, so there is nobody to flush to. -/
  | quit {v : View} (hp : v.phase = .flushing) : Change ordered wire v { v with phase := .ended }
  /-- `Close` or a shutdown cuts the hand-over short. -/
  | abort {v : View} {closeCalled stopped : Bool} (hp : v.phase = .draining)
      (hc : v.closeCalled = true → closeCalled = true) (hs : v.stopped = true → stopped = true)
      (h : closeCalled = true ∨ stopped = true) :
      Change ordered wire v
        { v with phase := .ended, closeCalled := closeCalled, stopped := stopped }
  /-- `Read` on a connection that has ended. -/
  | readEnded {v : View} (hp : v.phase = .ended) :
      Change ordered wire v { v with returned := v.returned ++ [.mainDone] }

/-- The changes of one round, in order. -/
abbrev Changes (ordered : Bool) (wire : Packet → Prop) : View → View → Prop :=
  Relation.ReflTransGen (Change ordered wire)

lemma Change.id_eq {ordered : Bool} {wire : Packet → Prop} {v v' : View}
    (h : Change ordered wire v v') : v'.id = v.id := by
  cases h <;> rfl

/-! ## Every round is a sequence of changes -/

namespace Conn

variable {p : Params} {wire : Packet → Prop}

@[simp] lemma send_view (c : Conn) (typ : PacketType) (seq : UInt32) (payload : Payload) :
    (c.send typ seq payload).view = c.view.send typ seq payload := rfl

@[simp] lemma sendAck_view (c : Conn) (seq : UInt32) :
    (c.sendAck seq).view = c.view.send .ack seq [] := rfl

@[simp] lemma sampleRTT_view (c : Conn) (sample : Duration) :
    (c.sampleRTT sample).view = c.view := by
  unfold sampleRTT
  split <;> rfl

lemma heartbeat_changes (ordered : Bool) (c : Conn) :
    Changes ordered wire c.view c.heartbeat.view := by
  unfold heartbeat
  by_cases h : c.sentThisEpoch = true
  · simp only [h, Bool.not_true, Bool.false_eq_true, if_false]
    exact .refl
  · simp only [h, Bool.not_false, if_true]
    exact .single .heartbeat

lemma sendFirst_change (ordered : Bool) (c : Conn) (d : Payload) (rest : List Payload)
    (now : Time) :
    Change ordered wire { c with pendingWrites := d :: rest }.view
      { c.sendFirst p d now with pendingWrites := rest }.view := by
  have hfill := @Change.fill ordered wire { c with pendingWrites := d :: rest }.view d rest rfl
  convert hfill using 1
  simp only [view, sendFirst, send, View.send, View.mk.injEq, true_and, and_true]
  funext s
  rw [GoMap.lookup_insert_ite, Function.update_apply]
  split_ifs <;> rfl

lemma fillFrom_changes (ordered : Bool) (clock : ℕ → Time) (k : ℕ) (pending : List Payload)
    (c : Conn) :
    Changes ordered wire { c with pendingWrites := pending }.view
      (c.fillFrom p clock k pending).view := by
  induction pending generalizing k c with
  | nil => exact .refl
  | cons d pending ih =>
      unfold fillFrom
      split_ifs
      · exact .head (sendFirst_change ordered c d pending (clock k)) (ih _ _)
      · exact .refl

lemma fillWindow_changes (ordered : Bool) (clock : ℕ → Time) (c : Conn) :
    Changes ordered wire c.view (c.fillWindow p clock).view :=
  fillFrom_changes ordered clock 0 c.pendingWrites c

lemma retransmitOne_changes (ordered : Bool) (now : Time) (c : Conn) (seq : UInt32) :
    Changes ordered wire c.view (c.retransmitOne p now seq).view := by
  unfold retransmitOne
  cases hm : c.sendBuffer.lookup seq with
  | none => exact .refl
  | some m =>
      dsimp only
      split_ifs
      · exact .refl
      all_goals
        refine .single ?_
        convert Change.resend (v := c.view) (s := seq) (d := m.payload) (by simp [view, hm])
          using 1
        -- the entry is replaced by one with the same payload
        simp only [view, send, View.send, View.mk.injEq, true_and, and_true]
        funext s
        rw [GoMap.lookup_insert_ite]
        split_ifs with hs
        · rw [hs, hm]; rfl
        · rfl

lemma retransmitExpired_changes (ordered : Bool) (now : Time) (ord : RangeOrder UInt32)
    (c : Conn) : Changes ordered wire c.view (c.retransmitExpired p now ord).view := by
  unfold retransmitExpired
  generalize ord.range c.sendBuffer = seqs
  induction seqs generalizing c with
  | nil => exact .refl
  | cons seq seqs ih => exact (retransmitOne_changes ordered now c seq).trans (ih _)

lemma tickCommon_changes (ordered : Bool) (now : Time) (ord : RangeOrder UInt32) (c : Conn) :
    Changes ordered wire c.view (c.tickCommon p now ord).view :=
  (retransmitExpired_changes ordered now ord c).trans (heartbeat_changes ordered _)

lemma onAck_changes (ordered : Bool) (clock : ℕ → Time) (c : Conn) (seq : UInt32) {d : Payload}
    (hw : wire ⟨.ack, c.id, seq, d⟩) :
    Changes ordered wire c.view (c.onAck p clock seq).view := by
  unfold onAck
  cases hm : c.sendBuffer.lookup seq with
  | none => exact .refl
  | some m =>
      dsimp only
      refine .head (Change.acked (v := c.view) (s := seq) hw) ?_
      convert fillWindow_changes ordered (fun k => clock (k + 1)) _ using 1
      have hbuf : (fun s => ((c.sendBuffer.erase seq).lookup s).map OutMsg.payload) =
          Function.update c.view.buffer seq none := by
        funext s
        rw [GoMap.lookup_erase_ite, Function.update_apply]
        split_ifs <;> rfl
      rw [← hbuf]
      unfold sampleRTT
      split_ifs <;> rfl

lemma accept_view (c : Conn) (seq : UInt32) (payload : Payload) :
    (c.accept p seq payload).view = c.view.receive p.orderedDelivery seq payload := by
  unfold accept View.receive View.released
  by_cases hp : p.orderedDelivery = true
  · simp only [hp, if_true, acceptOrdered]
    by_cases hs : seq < c.recv.next ∨ (c.recv.held.lookup seq).isSome = true
    · simp [hs, view, Ordered.accept]
    · simp [hs, view, Ordered.accept, release_eq]
  · simp only [hp, Bool.false_eq_true, if_false]
    rfl

lemma checkFlushed_changes (ordered : Bool) {c : Conn} (hp : c.phase = .flushing) :
    Changes ordered wire c.view c.checkFlushed.view := by
  unfold checkFlushed
  split_ifs with h
  · exact .refl
  · rw [not_or, Nat.not_lt, Nat.not_lt, Nat.le_zero, Nat.le_zero] at h
    refine .single (Change.sendClose hp (fun s => ?_) (List.length_eq_zero_iff.mp h.2))
    exact congrArg (Option.map OutMsg.payload) ((GoMap.len_eq_zero_iff _).mp h.1 s)

/-- Filling the window changes neither the phase nor what the application has written; nor do an
Ack and a tick. -/
lemma fillFrom_frame (clock : ℕ → Time) (k : ℕ) (pending : List Payload) (c : Conn) :
    (c.fillFrom p clock k pending).phase = c.phase ∧
      (c.fillFrom p clock k pending).accepted = c.accepted := by
  induction pending generalizing k c with
  | nil => exact ⟨rfl, rfl⟩
  | cons d pending ih =>
      unfold fillFrom
      split_ifs
      · exact ih _ _
      · exact ⟨rfl, rfl⟩

lemma onAck_frame (clock : ℕ → Time) (c : Conn) (seq : UInt32) :
    (c.onAck p clock seq).phase = c.phase ∧ (c.onAck p clock seq).accepted = c.accepted := by
  unfold onAck
  split
  · exact ⟨rfl, rfl⟩
  · dsimp only
    rw [fillWindow, (fillFrom_frame ..).1, (fillFrom_frame ..).2]
    unfold sampleRTT
    split_ifs <;> exact ⟨rfl, rfl⟩

lemma onPacket_changes (clock : ℕ → Time) {c : Conn} (hp : c.phase = .main) (pkt : Packet)
    (hw : pkt.connID = c.id → wire pkt) :
    Changes p.orderedDelivery wire c.view (c.onPacket p clock pkt).view := by
  obtain ⟨typ, connID, seq, payload⟩ := pkt
  unfold onPacket
  by_cases hid : connID = c.id
  · subst hid
    have hw' := hw rfl
    simp only [ne_eq, not_true_eq_false, if_false]
    cases typ with
    | connect => exact .refl
    | connAck => exact .refl
    | ack => exact onAck_changes _ clock { c with epochsSilent := 0 } seq hw'
    | data =>
        dsimp only
        split_ifs with hs
        · exact .refl
        · rw [sendAck_view, accept_view]
          exact .single (Change.deliver hp hw' hs)
    | close => exact .single (Change.drain hp fun _ => ⟨seq, payload, hw'⟩)
  · simp only [ne_eq, hid, not_false_eq_true, if_true]
    exact .refl

lemma onPacketFlushing_changes (clock : ℕ → Time) {c : Conn} (hp : c.phase = .flushing)
    (pkt : Packet) (hw : pkt.connID = c.id → wire pkt) :
    Changes p.orderedDelivery wire c.view (c.onPacketFlushing p clock pkt).view := by
  obtain ⟨typ, connID, seq, payload⟩ := pkt
  unfold onPacketFlushing
  by_cases hid : connID = c.id
  · subst hid
    have hw' := hw rfl
    simp only [ne_eq, not_true_eq_false, if_false]
    cases typ with
    | connect => exact .refl
    | connAck => exact .refl
    | ack =>
        refine (onAck_changes (p := p) _ clock { c with epochsSilent := 0 } seq hw').trans ?_
        exact checkFlushed_changes _ ((onAck_frame ..).1.trans hp)
    | data => exact .single (Change.ackOnly hp)
    | close => exact .single (Change.quit hp)
  · simp only [ne_eq, hid, not_false_eq_true, if_true]
    exact .refl

lemma tickCommon_frame (now : Time) (ord : RangeOrder UInt32) (c : Conn) :
    (c.tickCommon p now ord).phase = c.phase ∧
      (c.tickCommon p now ord).accepted = c.accepted := by
  have hone : ∀ (c : Conn) seq, (c.retransmitOne p now seq).phase = c.phase ∧
      (c.retransmitOne p now seq).accepted = c.accepted := by
    intro c seq
    unfold retransmitOne
    split
    · exact ⟨rfl, rfl⟩
    · split_ifs <;> exact ⟨rfl, rfl⟩
  have hall : (c.retransmitExpired p now ord).phase = c.phase ∧
      (c.retransmitExpired p now ord).accepted = c.accepted :=
    (ord.range c.sendBuffer).foldlRecOn
      (motive := fun c' => c'.phase = c.phase ∧ c'.accepted = c.accepted) _ ⟨rfl, rfl⟩
      fun c' hc' seq _ => ⟨(hone c' seq).1.trans hc'.1, (hone c' seq).2.trans hc'.2⟩
  unfold tickCommon heartbeat
  rw [← hall.1, ← hall.2]
  dsimp only
  split_ifs <;> exact ⟨rfl, rfl⟩

lemma handOver_changes (ordered : Bool) {c c' : Conn}
    (hp : c.phase = .main ∨ c.phase = .draining) (h : c.handOver = some c') :
    Changes ordered wire c.view c'.view := by
  unfold handOver at h
  cases hq : c.deliverQ with
  | nil => rw [hq] at h; cases h
  | cons d rest =>
      rw [hq] at h
      obtain rfl := Option.some_inj.mp h
      exact .single (Change.handOver hp hq)

/-- Every round of a connection's loop is a sequence of changes; the packets it can receive are
those on the wire. -/
theorem step_changes {c c' : Conn} {i : Input} (h : c.step p i = some c')
    (hw : ∀ pkt clock, i = .packet pkt clock → pkt.connID = c.id → wire pkt) :
    Changes p.orderedDelivery wire c.view c'.view := by
  cases i with
  | packet pkt clock =>
      simp only [step] at h
      cases hp : c.phase <;> simp only [hp, Option.some_inj, reduceCtorEq] at h
      · exact h ▸ onPacket_changes clock hp pkt (hw pkt clock rfl)
      · exact h ▸ onPacketFlushing_changes clock hp pkt (hw pkt clock rfl)
  | write data clock =>
      simp only [step] at h
      cases hp : c.phase <;> simp only [hp, Option.some_inj, reduceCtorEq] at h
      · split_ifs at h
        rw [← Option.some_inj.mp h]
        exact .head (Change.write hp) (fillWindow_changes _ clock
          { c with pendingWrites := c.pendingWrites ++ [data], accepted := c.accepted ++ [data] })
      · exact h ▸ .refl
  | read =>
      simp only [step] at h
      cases hp : c.phase <;> simp only [hp, reduceCtorEq] at h
      · exact handOver_changes _ (Or.inl hp) h
      · exact handOver_changes _ (Or.inr hp) h
      · split_ifs at h
        rw [← Option.some_inj.mp h, ← hp]
        exact .single (Change.readEnded hp)
  | tick now ord =>
      simp only [step] at h
      cases hp : c.phase <;> simp only [hp, Option.some_inj, reduceCtorEq] at h
      · rw [← h]
        refine (tickCommon_changes (p := p) _ now ord c).trans ?_
        unfold onTick
        dsimp only
        split_ifs
        · exact .single (Change.drain ((tickCommon_frame now ord c).1.trans hp) (by simp))
        · exact .refl
      · rw [← h]
        refine (tickCommon_changes (p := p) _ now ord c).trans ?_
        unfold onTickFlushing
        dsimp only
        split_ifs
        · exact .single (Change.quit ((tickCommon_frame now ord c).1.trans hp))
        · exact .refl
  | close clock =>
      simp only [step] at h
      cases hp : c.phase <;> simp only [hp, Option.some_inj, reduceCtorEq] at h
      · rw [← h]
        refine .head (Change.flush hp) ((fillWindow_changes (p := p) _ clock
          { c with closeCalled := true, phase := .flushing }).trans ?_)
        exact checkFlushed_changes _ (fillFrom_frame ..).1
      · rw [← h]
        exact .single (Change.abort hp (fun _ => rfl) (fun hs => hs) (Or.inl rfl))
  | stop =>
      simp only [step] at h
      cases hp : c.phase <;> simp only [hp, Option.some_inj, reduceCtorEq] at h
      rw [← h]
      exact .single (Change.abort hp (fun hc => hc) (fun _ => rfl) (Or.inr rfl))

/-- What a round keeps, if each of its changes does. -/
lemma step_keeps {P : View → Prop} {c c' : Conn} {i : Input} (h : c.step p i = some c')
    (hP : ∀ v v', Change p.orderedDelivery (fun _ => True) v v' → P v → P v')
    (hc : P c.view) : P c'.view := by
  have hch : Changes p.orderedDelivery (fun _ => True) c.view c'.view :=
    step_changes h fun _ _ _ _ => trivial
  generalize c'.view = v' at hch ⊢
  induction hch with
  | refl => exact hc
  | tail _ hstep ih => exact hP _ _ hstep ih

lemma step_id {c c' : Conn} {i : Input} (h : c.step p i = some c') : c'.id = c.id :=
  step_keeps (P := fun v => v.id = c.id) h (fun _ _ hch hv => hch.id_eq.trans hv) rfl

/-- What holds of a new connection and is kept by every change holds after every run. -/
lemma run_keeps {P : View → Prop} {id : UInt32} {client : Bool} {is : List Input} {c : Conn}
    (h0 : P (newConn id client).view)
    (hP : ∀ v v', Change p.orderedDelivery (fun _ => True) v v' → P v → P v')
    (hrun : run (Conn.step p) (newConn id client) is = some c) : P c.view :=
  run_invariant (P := fun c : Conn => P c.view) (fun _ _ _ hc h => step_keeps h hP hc) h0 hrun

end Conn

/-! ## Steps of a link -/

/-- A packet with this connection's ID that can arrive: the peer has sent it, or it belongs to
the handshake. -/
def FromPeer (sent : List Packet) (pkt : Packet) : Prop :=
  pkt ∈ sent ∨ pkt.typ = .connect ∨ pkt.typ = .connAck

lemma FromPeer.mem {sent : List Packet} {pkt : Packet} (h : FromPeer sent pkt)
    (ht : pkt.typ = .data ∨ pkt.typ = .ack ∨ pkt.typ = .close) : pkt ∈ sent := by
  rcases h with h | h | h
  · exact h
  all_goals rw [h] at ht; simp at ht

/-- The rule for one step of a link: what every change of either end preserves, whatever the
other end is, the step preserves. -/
lemma Link.step_induction {pa pb : Params} {l l' : Link} {act : Side × Input}
    (h : l.step pa pb act = some l') {P : View → View → Prop}
    (ha : ∀ x x' y, P x y → Change pa.orderedDelivery (FromPeer y.sent) x x' → P x' y)
    (hb : ∀ x y y', P x y → Change pb.orderedDelivery (FromPeer x.sent) y y' → P x y')
    (hl : P l.a.view l.b.view) : P l'.a.view l'.b.view := by
  have hwire : ∀ {c peer : Conn} {i : Input}, Arrives c peer i → ∀ pkt clock,
      i = .packet pkt clock → pkt.connID = c.id → FromPeer peer.sent pkt := by
    rintro c peer i harr pkt clock rfl hid
    rcases harr with hs | hne | ht
    · exact Or.inl hs
    · exact absurd hid hne
    · exact Or.inr ht
  obtain ⟨side, i⟩ := act
  cases side with
  | a =>
      simp only [Link.step] at h
      split_ifs at h with harr
      obtain ⟨c', hc', rfl⟩ := Option.map_eq_some_iff.mp h
      have hch := Conn.step_changes hc' (hwire harr)
      generalize c'.view = v at hch ⊢
      induction hch with
      | refl => exact hl
      | tail _ hlast ih => exact ha _ _ _ ih hlast
  | b =>
      simp only [Link.step] at h
      split_ifs at h with harr
      obtain ⟨c', hc', rfl⟩ := Option.map_eq_some_iff.mp h
      have hch := Conn.step_changes hc' (hwire harr)
      generalize c'.view = v at hch ⊢
      induction hch with
      | refl => exact hl
      | tail _ hlast ih => exact hb _ _ _ ih hlast

/-- The tunables of one end. -/
def Side.params (pa pb : Params) : Side → Params
  | .a => pa
  | .b => pb

section Runs

variable {pa pb : Params} {id : UInt32} {acts : List (Side × Input)} {l : Link}

/-- The run rule for a property of one end. -/
lemma Link.invariant_end {P : Bool → View → Prop}
    (h0 : ∀ ordered client, P ordered (newConn id client).view)
    (hP : ∀ ordered wire v v', Change ordered wire v v' → P ordered v → P ordered v')
    (hrun : run (Link.step pa pb) (Link.init id) acts = some l) (sd : Side) :
    P (sd.params pa pb).orderedDelivery (l.conn sd).view := by
  have hboth : P pa.orderedDelivery l.a.view ∧ P pb.orderedDelivery l.b.view := by
    refine run_invariant (P := fun l : Link => P pa.orderedDelivery l.a.view ∧
      P pb.orderedDelivery l.b.view) (fun l act l' hl hstep => ?_) ⟨h0 _ _, h0 _ _⟩ hrun
    exact Link.step_induction hstep
      (P := fun x y => P pa.orderedDelivery x ∧ P pb.orderedDelivery y)
      (fun _ _ _ h hch => ⟨hP _ _ _ _ hch h.1, h.2⟩)
      (fun _ _ _ h hch => ⟨h.1, hP _ _ _ _ hch h.2⟩) hl
  cases sd with
  | a => exact hboth.1
  | b => exact hboth.2

/-- The run rule for a property of one direction, from the end `x` to the end `y`. -/
lemma Link.invariant_direction {P : View → View → Prop}
    (h0 : ∀ client client', P (newConn id client).view (newConn id client').view)
    (hx : ∀ ordered x x' y, P x y → Change ordered (FromPeer y.sent) x x' → P x' y)
    (hy : ∀ ordered x y y', P x y → Change ordered (FromPeer x.sent) y y' → P x y')
    (hrun : run (Link.step pa pb) (Link.init id) acts = some l) (sd : Side) :
    P (l.conn sd).view (l.conn sd.other).view := by
  have hboth : P l.a.view l.b.view ∧ P l.b.view l.a.view := by
    refine run_invariant (P := fun l : Link => P l.a.view l.b.view ∧ P l.b.view l.a.view)
      (fun l act l' hl hstep => ?_) ⟨h0 _ _, h0 _ _⟩ hrun
    exact Link.step_induction hstep (P := fun x y => P x y ∧ P y x)
      (fun _ _ _ h hch => ⟨hx _ _ _ _ h.1 hch, hy _ _ _ _ h.2 hch⟩)
      (fun _ _ _ h hch => ⟨hy _ _ _ _ h.1 hch, hx _ _ _ _ h.2 hch⟩) hl
  cases sd with
  | a => exact hboth.1
  | b => exact hboth.2

end Runs

end RudpScheduler.Rudp
