import RudpScheduler.Construction.Rudp.Protocol

/-!
# The sending side of a connection

What a connection keeps for sending, with the timers that `View` leaves out.  `Sender.Round` lists
what one round of a connection's loop can do to it, and `Conn.step_round` says that there is nothing
else: a write or an Ack for an unacknowledged message, each followed by `fillWindow` until the
window is full or nothing waits; the retransmissions of a tick; and the `fillWindow` of `Close`.

Two things a round does leave no trace in the state, so they are observed along the way: the numbers
`fillWindow` assigns, each with whether it was a key of `sendBuffer` at that moment
(`Conn.numbers`), and whether an Ack has removed an entry (`Conn.acksTaken`).
-/

namespace RudpScheduler.Rudp

/-- What a connection keeps for sending. -/
structure Sender where
  buffer : GoMap UInt32 OutMsg
  pending : List Payload
  nextSeq : UInt32
  srtt : Duration
  hasSRTT : Bool
  accepted : List Payload
  /-- The counter `DataSent`: how many entries have been added to the send buffer. -/
  added : ℕ

/-- The sending side of a connection. -/
def Conn.sender (c : Conn) : Sender where
  buffer := c.sendBuffer
  pending := c.pendingWrites
  nextSeq := c.nextSeq
  srtt := c.srtt
  hasSRTT := c.hasSRTT
  accepted := c.accepted
  added := c.stats.dataSent

namespace Sender

/-- `initialRTO`. -/
def initialRTO (p : Params) (s : Sender) : Duration :=
  if !s.hasSRTT then Go.wrap64 (2 * p.epoch)
  else if Go.wrap64 (2 * s.srtt) > p.epoch then Go.wrap64 (2 * s.srtt) else p.epoch

/-- Payload `d` enters the window under the next number. -/
def first (p : Params) (s : Sender) (d : Payload) (now : Time) : Sender :=
  { s with
    buffer := s.buffer.insert (s.nextSeq + 1)
      { payload := d, firstSent := now, lastSent := now, rto := s.initialRTO p, retries := 0,
        retransmitted := false }
    nextSeq := s.nextSeq + 1
    added := s.added + 1 }

/-- An acknowledged message is deleted, after its round trip has been sampled. -/
def deleted (s : Sender) (seq : UInt32) (m : OutMsg) (now : Time) : Sender :=
  let sample := Go.saturate64 (now - m.firstSent)
  { s with
    buffer := s.buffer.erase seq
    srtt := if m.retransmitted then s.srtt
      else if s.hasSRTT then (Go.wrap64 (7 * s.srtt + sample)).tdiv 8 else sample
    hasSRTT := s.hasSRTT || !m.retransmitted }

/-- A message after one more transmission. -/
def resent (p : Params) (m : OutMsg) (now : Time) : OutMsg :=
  { m with
    lastSent := now
    retries := m.retries + 1
    retransmitted := true
    rto :=
      if Go.wrap64 (m.rto * 2) > Go.wrap64 (p.maxBackoff * p.epoch)
      then Go.wrap64 (p.maxBackoff * p.epoch) else Go.wrap64 (m.rto * 2) }

/-- The numbers the loop of `fillWindow` assigns to the writes `pending`, each with whether it is a
key of the send buffer at that moment. -/
def fillNumbers (p : Params) (clock : ℕ → Time) :
    ℕ → List Payload → Sender → List (UInt32 × Bool)
  | _, [], _ => []
  | k, d :: pending, s =>
    if GoMap.len s.buffer < p.window then
      (s.nextSeq + 1, (s.buffer.lookup (s.nextSeq + 1)).isSome) ::
        fillNumbers p clock (k + 1) pending (s.first p d (clock k))
    else []

/-! ## What a round can do -/

/-- `fillWindow` runs until the window is full or nothing waits; the list is of the numbers it
assigns. -/
inductive Fills (p : Params) : Sender → List (UInt32 × Bool) → Sender → Prop
  | done {s : Sender} (h : s.pending = [] ∨ p.window ≤ GoMap.len s.buffer) : Fills p s [] s
  | first {s t : Sender} {d : Payload} {rest : List Payload} {now : Time}
      {ns : List (UInt32 × Bool)} (hd : s.pending = d :: rest)
      (hroom : GoMap.len s.buffer < p.window)
      (h : Fills p { s.first p d now with pending := rest } ns t) :
      Fills p s ((s.nextSeq + 1, (s.buffer.lookup (s.nextSeq + 1)).isSome) :: ns) t

/-- `retransmitExpired` sends messages again whose RTO has run out. -/
inductive Resends (p : Params) (now : Time) : Sender → Sender → Prop
  | done {s : Sender} : Resends p now s s
  | again {s t : Sender} {seq : UInt32} {m : OutMsg} (hm : s.buffer.lookup seq = some m)
      (hdue : m.rto ≤ Go.saturate64 (now - m.lastSent))
      (h : Resends p now { s with buffer := s.buffer.insert seq (resent p m now) } t) :
      Resends p now s t

/-- What one round does to the sending side, with how many entries an Ack has removed and which
numbers were assigned. -/
inductive Round (p : Params) : Sender → Input → ℕ → List (UInt32 × Bool) → Sender → Prop
  | quiet {s : Sender} {i : Input} : Round p s i 0 [] s
  | write {s t : Sender} {d : Payload} {clock : ℕ → Time} {ns : List (UInt32 × Bool)}
      (h : Fills p { s with pending := s.pending ++ [d], accepted := s.accepted ++ [d] } ns t) :
      Round p s (.write d clock) 0 ns t
  | acked {s t : Sender} {pkt : Packet} {clock : ℕ → Time} {m : OutMsg}
      {ns : List (UInt32 × Bool)} (ht : pkt.typ = .ack) (hm : s.buffer.lookup pkt.seq = some m)
      (h : Fills p (s.deleted pkt.seq m (clock 0)) ns t) : Round p s (.packet pkt clock) 1 ns t
  | tick {s t : Sender} {now : Time} {ord : RangeOrder UInt32} (h : Resends p now s t) :
      Round p s (.tick now ord) 0 [] t
  | close {s t : Sender} {clock : ℕ → Time} {ns : List (UInt32 × Bool)} (h : Fills p s ns t) :
      Round p s (.close clock) 0 ns t

end Sender

namespace Conn

/-- The loop the connection is in looks at this packet, and it is an Ack. -/
def hearsAck (c : Conn) (pkt : Packet) : Prop :=
  (c.phase = .main ∨ c.phase = .flushing) ∧ pkt.connID = c.id ∧ pkt.typ = .ack

instance (c : Conn) (pkt : Packet) : Decidable (c.hearsAck pkt) :=
  inferInstanceAs (Decidable (_ ∧ _ ∧ _))

/-- The numbers `fillWindow` assigns in one round, each with whether it is a key of `sendBuffer` at
that moment. -/
def numbers (p : Params) (c : Conn) : Input → List (UInt32 × Bool)
  | .packet pkt clock =>
    match c.sendBuffer.lookup pkt.seq with
    | none => []
    | some m =>
      if c.hearsAck pkt then
        (c.sender.deleted pkt.seq m (clock 0)).fillNumbers p (fun k => clock (k + 1)) 0
          c.pendingWrites
      else []
  | .write data clock =>
    let pending := c.pendingWrites ++ [data]
    if c.phase = .main then
      sender { c with pendingWrites := pending, accepted := c.accepted ++ [data] }
        |>.fillNumbers p clock 0 pending
    else []
  | .close clock => if c.phase = .main then c.sender.fillNumbers p clock 0 c.pendingWrites else []
  | _ => []

/-- How many entries of `sendBuffer` the Ack of this round removes. -/
def acksTaken (c : Conn) : Input → ℕ
  | .packet pkt _ => if c.hearsAck pkt ∧ (c.sendBuffer.lookup pkt.seq).isSome then 1 else 0
  | _ => 0

/-! ## Every round is one of these -/

variable {p : Params}

/-- The loop of `fillWindow`. -/
lemma fillFrom_fills (clock : ℕ → Time) (k : ℕ) (pending : List Payload) (c : Conn) :
    Sender.Fills p { c with pendingWrites := pending }.sender
      (c.sender.fillNumbers p clock k pending) (c.fillFrom p clock k pending).sender := by
  induction pending generalizing k c with
  | nil => exact .done (.inl rfl)
  | cons d pending ih =>
      by_cases hroom : GoMap.len c.sendBuffer < p.window
      · rw [fillFrom, if_pos hroom, Sender.fillNumbers, if_pos (by exact hroom)]
        exact .first rfl hroom (ih (k + 1) (c.sendFirst p d (clock k)))
      · rw [fillFrom, if_neg hroom, Sender.fillNumbers, if_neg (by exact hroom)]
        exact .done (.inr (not_lt.mp hroom))

lemma fillWindow_fills (clock : ℕ → Time) (c : Conn) :
    Sender.Fills p c.sender (c.sender.fillNumbers p clock 0 c.pendingWrites)
      (c.fillWindow p clock).sender :=
  fillFrom_fills clock 0 c.pendingWrites c

/-- One round of `retransmitExpired`. -/
lemma retransmitOne_cases (now : Time) (seq : UInt32) (c : Conn) :
    (c.retransmitOne p now seq).sender = c.sender ∨
      ∃ m, c.sendBuffer.lookup seq = some m ∧ m.rto ≤ Go.saturate64 (now - m.lastSent) ∧
        (c.retransmitOne p now seq).sender =
          { c.sender with buffer := c.sendBuffer.insert seq (Sender.resent p m now) } := by
  unfold retransmitOne
  cases hm : c.sendBuffer.lookup seq with
  | none => exact .inl rfl
  | some m =>
      dsimp only
      by_cases hdue : Go.saturate64 (now - m.lastSent) < m.rto
      · rw [if_pos hdue]
        exact .inl rfl
      · rw [if_neg hdue]
        exact .inr ⟨m, rfl, not_lt.mp hdue, rfl⟩

lemma retransmitExpired_resends (now : Time) (ord : RangeOrder UInt32) (c : Conn) :
    Sender.Resends p now c.sender (c.retransmitExpired p now ord).sender := by
  unfold retransmitExpired
  generalize ord.range c.sendBuffer = seqs
  induction seqs generalizing c with
  | nil => exact .done
  | cons seq seqs ih =>
      have hrest := ih (c.retransmitOne p now seq)
      rcases retransmitOne_cases (p := p) now seq c with hs | ⟨m, hm, hdue, hs⟩
      · rw [hs] at hrest
        exact hrest
      · rw [hs] at hrest
        exact .again hm hdue hrest

lemma heartbeat_sender (c : Conn) : c.heartbeat.sender = c.sender := by
  unfold heartbeat
  dsimp only
  split_ifs <;> rfl

lemma tickCommon_resends (now : Time) (ord : RangeOrder UInt32) (c : Conn) :
    Sender.Resends p now c.sender (c.tickCommon p now ord).sender := by
  rw [show (c.tickCommon p now ord).sender = (c.retransmitExpired p now ord).sender from
    heartbeat_sender (c.retransmitExpired p now ord)]
  exact retransmitExpired_resends now ord c

lemma checkFlushed_sender (c : Conn) : c.checkFlushed.sender = c.sender := by
  unfold checkFlushed
  split_ifs <;> rfl

lemma accept_sender (c : Conn) (seq : UInt32) (payload : Payload) :
    (c.accept p seq payload).sender = c.sender := by
  unfold accept acceptOrdered
  dsimp only
  split_ifs
  · rfl
  · rw [release_eq]
    rfl
  · rfl

/-- What `onAck` does before it deletes the message. -/
lemma sampleRTT_sender (c : Conn) (sample : Duration) :
    (c.sampleRTT sample).sender =
      { c.sender with
        srtt := if c.hasSRTT then (Go.wrap64 (7 * c.srtt + sample)).tdiv 8 else sample
        hasSRTT := true } := by
  unfold sampleRTT sender
  cases c.hasSRTT <;> rfl

/-- `onAck` for an unacknowledged message. -/
lemma onAck_fills (clock : ℕ → Time) (c : Conn) {seq : UInt32} {m : OutMsg}
    (hm : c.sendBuffer.lookup seq = some m) :
    Sender.Fills p (c.sender.deleted seq m (clock 0))
      ((c.sender.deleted seq m (clock 0)).fillNumbers p (fun k => clock (k + 1)) 0 c.pendingWrites)
      (c.onAck p clock seq).sender := by
  simp only [onAck, hm]
  generalize hc : (if !m.retransmitted then
    c.sampleRTT (Go.saturate64 (clock 0 - m.firstSent)) else c) = c₁
  have hsender : sender { c₁ with sendBuffer := c₁.sendBuffer.erase seq } =
      c.sender.deleted seq m (clock 0) := by
    rw [show sender { c₁ with sendBuffer := c₁.sendBuffer.erase seq } =
      { c₁.sender with buffer := c₁.sender.buffer.erase seq } from rfl, ← hc, Sender.deleted]
    cases m.retransmitted with
    | true => simp
    | false =>
        simp only [Bool.not_false, if_true, sampleRTT_sender, Bool.false_eq_true, if_false,
          Bool.or_true]
        rfl
  have hpending : c₁.pendingWrites = c.pendingWrites := congrArg Sender.pending hsender
  have hfill := fillWindow_fills (p := p) (fun k => clock (k + 1))
    { c₁ with sendBuffer := c₁.sendBuffer.erase seq }
  rw [hsender] at hfill
  rw [← hpending]
  exact hfill

/-- An Ack either changes nothing or removes an entry. -/
lemma onAck_round (clock : ℕ → Time) (c : Conn) {pkt : Packet} (hack : c.hearsAck pkt) :
    Sender.Round p c.sender (.packet pkt clock) (c.acksTaken (.packet pkt clock))
      (c.numbers p (.packet pkt clock)) (c.onAck p clock pkt.seq).sender := by
  cases hm : c.sendBuffer.lookup pkt.seq with
  | none =>
      simp only [numbers, acksTaken, onAck, hm, Option.isSome_none, Bool.false_eq_true, and_false,
        if_false]
      exact .quiet
  | some m =>
      simp only [numbers, acksTaken, hm, hack, Option.isSome_some, and_self, if_true]
      exact .acked hack.2.2 hm (onAck_fills clock c hm)

/-- Other packets leave the sending side alone. -/
lemma round_of_not_ack {c : Conn} {clock : ℕ → Time} {pkt : Packet} {t : Sender}
    (hack : ¬ c.hearsAck pkt) (ht : t = c.sender) :
    Sender.Round p c.sender (.packet pkt clock) (c.acksTaken (.packet pkt clock))
      (c.numbers p (.packet pkt clock)) t := by
  have hnumbers : c.numbers p (.packet pkt clock) = [] := by
    simp only [numbers, hack, if_false]
    split <;> rfl
  have hacks : c.acksTaken (.packet pkt clock) = 0 := by simp [acksTaken, hack]
  rw [hnumbers, hacks, ht]
  exact .quiet

lemma onPacket_round (clock : ℕ → Time) {c : Conn} (hp : c.phase = .main) (pkt : Packet) :
    Sender.Round p c.sender (.packet pkt clock) (c.acksTaken (.packet pkt clock))
      (c.numbers p (.packet pkt clock)) (c.onPacket p clock pkt).sender := by
  by_cases hid : pkt.connID = c.id
  · cases ht : pkt.typ with
    | ack =>
        simp only [onPacket, hid, ne_eq, not_true_eq_false, if_false, ht]
        exact onAck_round clock { c with epochsSilent := 0 } ⟨.inl hp, hid, ht⟩
    | data =>
        refine round_of_not_ack (fun hack => by cases ht.symm.trans hack.2.2) ?_
        simp only [onPacket, hid, ne_eq, not_true_eq_false, if_false, ht]
        split_ifs
        · rfl
        · exact accept_sender (p := p) _ pkt.seq pkt.payload
    | _ =>
        refine round_of_not_ack (fun hack => by cases ht.symm.trans hack.2.2) ?_
        simp only [onPacket, hid, ne_eq, not_true_eq_false, if_false, ht]
        rfl
  · refine round_of_not_ack (fun hack => hid hack.2.1) ?_
    rw [onPacket, if_pos hid]

lemma onPacketFlushing_round (clock : ℕ → Time) {c : Conn} (hp : c.phase = .flushing)
    (pkt : Packet) :
    Sender.Round p c.sender (.packet pkt clock) (c.acksTaken (.packet pkt clock))
      (c.numbers p (.packet pkt clock)) (c.onPacketFlushing p clock pkt).sender := by
  by_cases hid : pkt.connID = c.id
  · cases ht : pkt.typ with
    | ack =>
        simp only [onPacketFlushing, hid, ne_eq, not_true_eq_false, if_false, ht]
        rw [checkFlushed_sender]
        exact onAck_round clock { c with epochsSilent := 0 } ⟨.inr hp, hid, ht⟩
    | _ =>
        refine round_of_not_ack (fun hack => by cases ht.symm.trans hack.2.2) ?_
        simp only [onPacketFlushing, hid, ne_eq, not_true_eq_false, if_false, ht]
        rfl
  · refine round_of_not_ack (fun hack => hid hack.2.1) ?_
    rw [onPacketFlushing, if_pos hid]

/-- One round of a connection's loop does one of these things to the sending side. -/
theorem step_round {c c' : Conn} {i : Input} (h : c.step p i = some c') :
    Sender.Round p c.sender i (c.acksTaken i) (c.numbers p i) c'.sender := by
  cases i with
  | packet pkt clock =>
      simp only [step] at h
      cases hp : c.phase <;> simp only [hp, Option.some_inj, reduceCtorEq] at h
      · exact h ▸ onPacket_round clock hp pkt
      · exact h ▸ onPacketFlushing_round clock hp pkt
  | write data clock =>
      simp only [step] at h
      cases hp : c.phase <;> simp only [hp, Option.some_inj, reduceCtorEq] at h
      · split_ifs at h
        rw [← Option.some_inj.mp h, numbers, if_pos hp]
        exact .write (fillWindow_fills clock
          { c with pendingWrites := c.pendingWrites ++ [data], accepted := c.accepted ++ [data] })
      · rw [← h, numbers, if_neg (by simp [hp])]
        exact .quiet
  | read =>
      have hsender : c'.sender = c.sender := by
        simp only [step, handOver] at h
        grind [sender]
      rw [hsender]
      exact .quiet
  | tick now ord =>
      simp only [step] at h
      cases hp : c.phase <;> simp only [hp, Option.some_inj, reduceCtorEq] at h
      · have hsender : (c.onTick p now ord).sender = (c.tickCommon p now ord).sender := by
          unfold onTick
          dsimp only
          split_ifs <;> rfl
        rw [← h, hsender]
        exact .tick (tickCommon_resends now ord c)
      · have hsender : (c.onTickFlushing p now ord).sender = (c.tickCommon p now ord).sender := by
          unfold onTickFlushing
          dsimp only
          split_ifs <;> rfl
        rw [← h, hsender]
        exact .tick (tickCommon_resends now ord c)
  | close clock =>
      simp only [step] at h
      cases hp : c.phase <;> simp only [hp, Option.some_inj, reduceCtorEq] at h
      · rw [← h, numbers, if_pos hp, onClose, checkFlushed_sender]
        exact .close (fillWindow_fills clock { c with closeCalled := true, phase := .flushing })
      · rw [← h, numbers, if_neg (by simp [hp])]
        exact .quiet
  | stop =>
      simp only [step] at h
      cases hp : c.phase <;> simp only [hp, Option.some_inj, reduceCtorEq] at h
      rw [← h]
      exact .quiet

end Conn

end RudpScheduler.Rudp
