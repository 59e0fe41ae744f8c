import RudpScheduler.Properties.Rudp.InOrder

/-!
# rudp never forgets an undelivered message

The invariant of one direction of a connection, over all packets in flight.  On the sending side
(`Sends`) the numbers `1, …, nextSeq` stand for the first payloads accepted, in order, and both
the send buffer and every Data packet agree with that; a Close packet is sent only when nothing is
unacknowledged or waiting (`Closes`).  Across the two ends (`Carries`) an Ack is
only ever sent for a message that has been accepted by the receiver, so a number leaves the send
buffer only when its payload has arrived.

Both are kept by every atomic change of either end, hence by every run of a `Link`
(`link_carries`).  They hold up to the first `2 ^ 32 - 1` messages, and for as long as the
receiver's application has not called `Close`: from then on data is acknowledged without being
delivered.
-/

namespace RudpScheduler.Rudp

variable {ordered : Bool} {wire : Packet → Prop} {v v' x x' y y' : View}

/-! ## What never goes back -/

lemma Change.accepted_prefix (h : Change ordered wire v v') : v.accepted <+: v'.accepted := by
  cases h with
  | write => exact List.prefix_append _ _
  | _ => exact List.prefix_rfl

lemma Change.sent_prefix (h : Change ordered wire v v') : v.sent <+: v'.sent := by
  cases h with
  | fill => exact List.prefix_append _ _
  | deliver => exact List.prefix_append _ _
  | ackOnly => exact List.prefix_append _ _
  | resend => exact List.prefix_append _ _
  | heartbeat => exact List.prefix_append _ _
  | sendClose => exact List.prefix_append _ _
  | _ => exact List.prefix_rfl

lemma Change.closeCalled_of_not (h : Change ordered wire v v') (hc : v'.closeCalled = false) :
    v.closeCalled = false := by
  cases h with
  | flush => cases hc
  | abort _ hm _ _ =>
      have hc' : _ = false := hc
      exact Bool.eq_false_iff.mpr fun ht => Bool.false_ne_true (hc'.symm.trans (hm ht))
  | _ => exact hc

/-- The flush loop runs only after `Close`. -/
def PhaseOk (v : View) : Prop := v.phase = .flushing → v.closeCalled = true

lemma Change.phaseOk (h : Change ordered wire v v') (hv : PhaseOk v) : PhaseOk v' := by
  cases h with
  | drain => exact fun hp => by cases hp
  | handOver hp =>
      intro hf
      dsimp only at hf
      split_ifs at hf
      rcases hp with hp | hp <;> rw [hp] at hf <;> cases hf
  | flush => exact fun _ => rfl
  | sendClose => exact fun hp => by cases hp
  | quit => exact fun hp => by cases hp
  | abort => exact fun hp => by cases hp
  | _ => exact hv

/-! ## The sending side -/

/-- The payload number `s` stands for. -/
def View.payload (x : View) (s : UInt32) : Option Payload := x.accepted[s.toNat - 1]?

/-- Numbers stand for the accepted payloads in order. -/
structure Sends (x : View) : Prop where
  nextSeq_le : x.nextSeq.toNat ≤ x.accepted.length
  pending : x.accepted.drop x.nextSeq.toNat = x.pending
  buffer : ∀ s d, x.buffer s = some d →
    s ≠ 0 ∧ s.toNat ≤ x.nextSeq.toNat ∧ x.payload s = some d
  data : ∀ pkt ∈ x.sent, pkt.typ = .data → pkt.seq ≠ 0 ∧ x.payload pkt.seq = some pkt.payload

/-- A change that touches none of the sender's variables and sends no new data. -/
lemma Sends.frame (hx : Sends x) (ha : x'.accepted = x.accepted) (hn : x'.nextSeq = x.nextSeq)
    (hp : x'.pending = x.pending) (hb : ∀ s d, x'.buffer s = some d → x.buffer s = some d)
    (hs : ∀ pkt ∈ x'.sent, pkt.typ = .data → pkt ∈ x.sent ∨ x.buffer pkt.seq = some pkt.payload) :
    Sends x' where
  nextSeq_le := by rw [hn, ha]; exact hx.nextSeq_le
  pending := by rw [hn, ha, hp]; exact hx.pending
  buffer s d hsd := by
    rw [View.payload, ha, hn]
    exact hx.buffer s d (hb s d hsd)
  data pkt hpkt ht := by
    rw [View.payload, ha]
    rcases hs pkt hpkt ht with hold | hbuf
    · exact hx.data pkt hold ht
    · obtain ⟨h0, -, hpay⟩ := hx.buffer _ _ hbuf
      exact ⟨h0, hpay⟩

/-- The payload a number stands for does not change as more is accepted. -/
lemma payload_of_prefix (h : x.accepted <+: x'.accepted) {s : UInt32} {d : Payload}
    (hs : x.payload s = some d) : x'.payload s = some d := by
  obtain ⟨rest, hrest⟩ := h
  have hlt := (List.getElem?_eq_some_iff.mp hs).1
  rw [View.payload, ← hrest, List.getElem?_append_left hlt]
  exact hs

/-- One more accepted payload. -/
lemma Sends.write (hx : Sends x) (d : Payload) :
    Sends { x with pending := x.pending ++ [d], accepted := x.accepted ++ [d] } := by
  have hpre : x.accepted <+: x.accepted ++ [d] := List.prefix_append _ _
  refine ⟨?_, ?_, fun s d' hs => ?_, fun pkt hpkt ht => ?_⟩
  · rw [List.length_append]
    exact Nat.le_add_right_of_le hx.nextSeq_le
  · rw [List.drop_append_of_le_length hx.nextSeq_le, hx.pending]
  · obtain ⟨h0, hle, hpay⟩ := hx.buffer s d' hs
    exact ⟨h0, hle, payload_of_prefix hpre hpay⟩
  · obtain ⟨h0, hpay⟩ := hx.data pkt hpkt ht
    exact ⟨h0, payload_of_prefix hpre hpay⟩

/-- The number after `nextSeq` is not 0 and stands for the head of `pending`. -/
lemma Sends.next (hx : Sends x) (hlen : x.accepted.length < 2 ^ 32) {d : Payload}
    {rest : List Payload} (hd : x.pending = d :: rest) :
    (x.nextSeq + 1).toNat = x.nextSeq.toNat + 1 ∧ x.nextSeq.toNat + 1 ≤ x.accepted.length ∧
      x.payload (x.nextSeq + 1) = some d := by
  have hdrop := hx.pending.trans hd
  have hlt : x.nextSeq.toNat < x.accepted.length := by
    by_contra hge
    rw [List.drop_eq_nil_of_le (Nat.le_of_not_lt hge)] at hdrop
    cases hdrop
  have hnext : (x.nextSeq + 1).toNat = x.nextSeq.toNat + 1 := by
    rw [UInt32.toNat_add, UInt32.toNat_one, Nat.mod_eq_of_lt (by omega)]
  refine ⟨hnext, hlt, ?_⟩
  rw [View.payload, hnext, Nat.add_sub_cancel, ← Nat.add_zero x.nextSeq.toNat,
    ← List.getElem?_drop, hdrop]
  rfl

/-- A write enters the window under the next number. -/
lemma Sends.fill (hx : Sends x) (hlen : x.accepted.length < 2 ^ 32) {d : Payload}
    {rest : List Payload} (hd : x.pending = d :: rest) :
    Sends ({ x with
        nextSeq := x.nextSeq + 1
        buffer := Function.update x.buffer (x.nextSeq + 1) (some d)
        pending := rest }.send .data (x.nextSeq + 1) d) := by
  obtain ⟨hnext, hle, hpay⟩ := hx.next hlen hd
  have hne : x.nextSeq + 1 ≠ 0 := by
    rw [Ne, ← UInt32.toNat_inj, hnext]
    exact Nat.succ_ne_zero _
  refine ⟨?_, ?_, fun s d' hs => ?_, fun pkt hpkt ht => ?_⟩
  · exact hnext.trans_le hle
  · change x.accepted.drop (x.nextSeq + 1).toNat = rest
    rw [hnext, ← List.tail_drop, hx.pending, hd]
    rfl
  · change Function.update x.buffer (x.nextSeq + 1) (some d) s = some d' at hs
    change s ≠ 0 ∧ s.toNat ≤ (x.nextSeq + 1).toNat ∧ x.payload s = some d'
    rw [Function.update_apply] at hs
    split_ifs at hs with he
    · subst he
      exact ⟨hne, le_rfl, hpay.trans hs⟩
    · obtain ⟨h0, hle', hpay'⟩ := hx.buffer s d' hs
      exact ⟨h0, by omega, hpay'⟩
  · rcases List.mem_append.mp hpkt with hold | hnew
    · exact hx.data pkt hold ht
    · obtain rfl := List.mem_singleton.mp hnew
      exact ⟨hne, hpay⟩

/-- A packet just sent, or one sent before. -/
lemma mem_send {typ : PacketType} {seq : UInt32} {d : Payload} {pkt : Packet} :
    pkt ∈ (v.send typ seq d).sent ↔ pkt ∈ v.sent ∨ pkt = ⟨typ, v.id, seq, d⟩ := by
  simp [View.send]

/-- Every change keeps the sending side in order. -/
lemma Change.sends (h : Change ordered wire x x') (hlen : x'.accepted.length < 2 ^ 32)
    (hx : Sends x) : Sends x' := by
  -- a packet that is not Data is no obligation
  have hother : ∀ {v : View} {typ : PacketType} {s d}, typ ≠ .data →
      ∀ pkt ∈ (v.send typ s d).sent, pkt.typ = .data →
        pkt ∈ v.sent ∨ x.buffer pkt.seq = some pkt.payload := by
    intro v typ s d htyp pkt hpkt ht
    rcases mem_send.mp hpkt with hold | rfl
    · exact Or.inl hold
    · exact absurd ht htyp
  cases h with
  | write => exact hx.write _
  | fill hd => exact hx.fill hlen hd
  | @acked s =>
      refine hx.frame rfl rfl rfl (fun s' d' hs => ?_) fun pkt hpkt _ => Or.inl hpkt
      dsimp only at hs
      rw [Function.update_apply] at hs
      split_ifs at hs
      exact hs
  | deliver => exact hx.frame rfl rfl rfl (fun _ _ hs => hs) (hother (by simp))
  | ackOnly => exact hx.frame rfl rfl rfl (fun _ _ hs => hs) (hother (by simp))
  | resend hb =>
      refine hx.frame rfl rfl rfl (fun _ _ hs => hs) fun pkt hpkt _ => ?_
      rcases mem_send.mp hpkt with hold | rfl
      · exact Or.inl hold
      · exact Or.inr hb
  | heartbeat => exact hx.frame rfl rfl rfl (fun _ _ hs => hs) (hother (by simp))
  | sendClose => exact hx.frame rfl rfl rfl (fun _ _ hs => hs) (hother (by simp))
  | _ => exact { hx with }

/-! ## A Close packet is the last thing sent -/

/-- Once a Close packet has been sent, the connection has ended with nothing left to acknowledge
or to send. -/
def Closes (v : View) : Prop :=
  ∀ pkt ∈ v.sent, pkt.typ = .close →
    v.phase = .ended ∧ (∀ s, v.buffer s = none) ∧ v.pending = []

lemma Closes.send (hv : Closes v) {typ : PacketType} (ht : typ ≠ .close) {seq : UInt32}
    {d : Payload} : Closes (v.send typ seq d) := by
  intro pkt hpkt hclose
  rcases mem_send.mp hpkt with hold | rfl
  · exact hv pkt hold hclose
  · exact absurd hclose ht

lemma Change.closes (h : Change ordered wire v v') (hv : Closes v) : Closes v' := by
  cases h with
  | write hp => exact fun pkt hpkt ht => by cases hp.symm.trans (hv pkt hpkt ht).1
  | fill hd =>
      intro pkt hpkt ht
      rcases mem_send.mp hpkt with hold | rfl
      · cases hd.symm.trans (hv pkt hold ht).2.2
      · cases ht
  | @acked s =>
      intro pkt hpkt ht
      obtain ⟨hp, hbuf, hpending⟩ := hv pkt hpkt ht
      refine ⟨hp, fun s' => ?_, hpending⟩
      change Function.update v.buffer s none s' = none
      rw [Function.update_apply, hbuf, ite_self]
  | deliver hp _ _ =>
      refine Closes.send (fun pkt hpkt ht => ?_) (by simp)
      cases hp.symm.trans (hv pkt hpkt ht).1
  | ackOnly => exact hv.send (by simp)
  | resend => exact hv.send (by simp)
  | heartbeat => exact hv.send (by simp)
  | drain hp _ => exact fun pkt hpkt ht => by cases hp.symm.trans (hv pkt hpkt ht).1
  | handOver hp _ =>
      intro pkt hpkt ht
      have hended := (hv pkt hpkt ht).1
      rcases hp with hp | hp <;> cases hp.symm.trans hended
  | flush hp => exact fun pkt hpkt ht => by cases hp.symm.trans (hv pkt hpkt ht).1
  | sendClose hp hb hd => exact fun pkt _ _ => ⟨rfl, hb, hd⟩
  | quit hp => exact fun pkt hpkt ht => ⟨rfl, (hv pkt hpkt ht).2⟩
  | abort hp => exact fun pkt hpkt ht => ⟨rfl, (hv pkt hpkt ht).2⟩
  | readEnded => exact hv

/-! ## Across the two ends -/

/-- What is acknowledged has arrived, and what has left the send buffer has arrived. -/
structure Carries (x y : View) : Prop where
  sends : Sends x
  acks : ∀ pkt ∈ y.sent, pkt.typ = .ack → pkt.seq ≠ 0 → ∃ d, (pkt.seq, d) ∈ y.arrived
  arrived : ∀ s d, (s, d) ∈ y.arrived → s ≠ 0 ∧ x.payload s = some d
  covered : ∀ s : UInt32, s ≠ 0 → s.toNat ≤ x.nextSeq.toNat →
    x.buffer s ≠ none ∨ ∃ d, (s, d) ∈ y.arrived

/-- A change of the sender that only moves its variables forward. -/
lemma Carries.sender (hc : Carries x y) (hs : Sends x') (ha : x.accepted <+: x'.accepted)
    (hcov : ∀ s : UInt32, s ≠ 0 → s.toNat ≤ x'.nextSeq.toNat →
      x'.buffer s ≠ none ∨ ∃ d, (s, d) ∈ y.arrived) : Carries x' y where
  sends := hs
  acks := hc.acks
  arrived s d hsd := by
    obtain ⟨h0, hpay⟩ := hc.arrived s d hsd
    exact ⟨h0, payload_of_prefix ha hpay⟩
  covered := hcov

/-- Every change of the sender keeps the direction; the Acks it receives were sent by the
receiver. -/
lemma Change.carries_sender (h : Change ordered wire x x') (hlen : x'.accepted.length < 2 ^ 32)
    (hw : ∀ pkt, wire pkt → pkt.typ = .ack → pkt ∈ y.sent) (hc : Carries x y) :
    Carries x' y := by
  refine hc.sender (h.sends hlen hc.sends) h.accepted_prefix fun s h0 hle => ?_
  cases h with
  | @fill d rest hd =>
      have hnext := (hc.sends.next hlen hd).1
      change s.toNat ≤ (x.nextSeq + 1).toNat at hle
      change Function.update x.buffer (x.nextSeq + 1) (some d) s ≠ none ∨ _
      rw [Function.update_apply]
      split_ifs with he
      · exact Or.inl (Option.some_ne_none d)
      · refine hc.covered s h0 ?_
        rw [← UInt32.toNat_inj, hnext] at he
        omega
  | @acked s' d hack =>
      dsimp only
      rw [Function.update_apply]
      split_ifs with he
      · subst he
        exact Or.inr (hc.acks _ (hw _ hack rfl) rfl h0)
      · exact hc.covered s h0 hle
  | _ => exact hc.covered s h0 hle

/-- Every change of the receiver keeps the direction, as long as it has not been closed; the
Data packets it receives were sent by the sender. -/
lemma Change.carries_receiver (h : Change ordered wire y y') (hphase : PhaseOk y)
    (hclose : y'.closeCalled = false) (hw : ∀ pkt, wire pkt → pkt.typ = .data → pkt ∈ x.sent)
    (hc : Carries x y) : Carries x y' := by
  -- sending anything but an Ack, or the heartbeat, is no obligation
  have hframe : ∀ (typ : PacketType) {s d}, (typ = .ack → s = 0) →
      Carries x (y.send typ s d) := by
    intro typ s d hack
    refine { hc with acks := fun pkt hpkt ht h0 => ?_ }
    rcases mem_send.mp hpkt with hold | rfl
    · exact hc.acks pkt hold ht h0
    · exact absurd (hack ht) h0
  cases h with
  | @deliver s d hp hdata hs =>
      obtain ⟨h0, hpay⟩ := hc.sends.data _ (hw _ hdata rfl) rfl
      have hmem : ∀ {p : UInt32 × Payload}, p ∈ y.arrived → p ∈ y.arrived ++ [(s, d)] := fun hp =>
        List.mem_append_left _ hp
      refine ⟨hc.sends, fun pkt hpkt ht hne => ?_, fun s' d' hsd => ?_, fun s' hne hle => ?_⟩
      · rcases mem_send.mp hpkt with hold | rfl
        · obtain ⟨d', hd'⟩ := hc.acks pkt hold ht hne
          exact ⟨d', hmem hd'⟩
        · exact ⟨d, List.mem_append_right _ (List.mem_singleton_self _)⟩
      · rcases List.mem_append.mp hsd with hold | hnew
        · exact hc.arrived s' d' hold
        · obtain ⟨rfl, rfl⟩ := Prod.mk.inj (List.mem_singleton.mp hnew)
          exact ⟨h0, hpay⟩
      · rcases hc.covered s' hne hle with hb | ⟨d', hd'⟩
        · exact Or.inl hb
        · exact Or.inr ⟨d', hmem hd'⟩
  | ackOnly hp => exact absurd (hphase hp) (Bool.eq_false_iff.mp hclose)
  | fill => exact { hframe .data (by simp) with }
  | resend => exact hframe .data (by simp)
  | heartbeat => exact hframe .ack fun _ => rfl
  | sendClose => exact { hframe .close (by simp) with }
  | _ => exact { hc with }

/-! ## Runs of a link -/

/-- What holds of one direction of a link in every reachable state. -/
structure Direction (x y : View) : Prop where
  phase : PhaseOk y
  carries : x.accepted.length < 2 ^ 32 → y.closeCalled = false → Carries x y

lemma Direction.sender (hd : Direction x y) (h : Change ordered (FromPeer y.sent) x x') :
    Direction x' y where
  phase := hd.phase
  carries hlen hclose := by
    have hlen' := lt_of_le_of_lt h.accepted_prefix.length_le hlen
    exact h.carries_sender hlen (fun pkt hw ht => hw.mem (Or.inr (Or.inl ht)))
      (hd.carries hlen' hclose)

lemma Direction.receiver (hd : Direction x y) (h : Change ordered (FromPeer x.sent) y y') :
    Direction x y' where
  phase := h.phaseOk hd.phase
  carries hlen hclose :=
    h.carries_receiver hd.phase hclose (fun _ hw ht => hw.mem (Or.inl ht))
      (hd.carries hlen (h.closeCalled_of_not hclose))

lemma direction_init (id : UInt32) (ca cb : Bool) :
    Direction (newConn id ca).view (newConn id cb).view := by
  refine ⟨(fun h => by cases h), fun _ _ => ⟨⟨?_, ?_, ?_, ?_⟩, ?_, ?_, fun s h0 hle => ?_⟩⟩
  · exact le_rfl
  · rfl
  · intro s d hs
    simp [Conn.view, newConn] at hs
  · intro pkt hpkt
    cases hpkt
  · intro pkt hpkt
    cases hpkt
  · intro s d hsd
    cases hsd
  · -- no number has been used yet
    rw [Ne, ← UInt32.toNat_inj] at h0
    exact absurd (Nat.le_zero.mp hle) h0

/-- Each direction of a link is in order after every run. -/
lemma link_carries {pa pb : Params} {id : UInt32} {acts : List (Side × Input)} {l : Link}
    (hrun : run (Link.step pa pb) (Link.init id) acts = some l) (sd : Side)
    (hlen : (l.conn sd).accepted.length < 2 ^ 32)
    (hclose : (l.conn sd.other).closeCalled = false) :
    Carries (l.conn sd).view (l.conn sd.other).view :=
  (Link.invariant_direction (direction_init id) (fun _ _ _ _ h hch => h.sender hch)
    (fun _ _ _ _ h hch => h.receiver hch) hrun sd).carries hlen hclose

/-- **rudp never forgets an undelivered message.**  In every reachable state of two ends with the
default receive path and in each direction, as long as fewer than `2 ^ 32` messages were written
and the receiver has not been closed: a Data packet ever sent under number `s` carries the `s`-th
accepted payload; the receiver's `deliverQ` was given the payloads of the Data packets that
arrived, one for each; the `i`-th accepted payload is still waiting, or unacknowledged under its
number, or has arrived under its number; and nothing arrived but accepted payloads under their
numbers. -/
theorem never_forgets {pa pb : Params} (hpa : pa.orderedDelivery = false)
    (hpb : pb.orderedDelivery = false) {id : UInt32} {acts : List (Side × Input)} {l : Link}
    (hrun : run (Link.step pa pb) (Link.init id) acts = some l) (sd : Side)
    (hlen : (l.conn sd).accepted.length < 2 ^ 32)
    (hclose : (l.conn sd.other).closeCalled = false) :
    (∀ pkt ∈ (l.conn sd).sent, pkt.typ = .data →
        1 ≤ pkt.seq.toNat ∧ (l.conn sd).accepted[pkt.seq.toNat - 1]? = some pkt.payload) ∧
      (l.conn sd.other).appended = (l.conn sd.other).arrived.map Prod.snd ∧
      (∀ i d, (l.conn sd).accepted[i]? = some d →
        (∃ k, i = (l.conn sd).nextSeq.toNat + k ∧ (l.conn sd).pendingWrites[k]? = some d) ∨
        (∃ m, (l.conn sd).sendBuffer.lookup (UInt32.ofNat (i + 1)) = some m ∧ m.payload = d) ∨
        (UInt32.ofNat (i + 1), d) ∈ (l.conn sd.other).arrived) ∧
      ∀ s d, (s, d) ∈ (l.conn sd.other).arrived →
        1 ≤ s.toNat ∧ (l.conn sd).accepted[s.toNat - 1]? = some d := by
  have hc := link_carries hrun sd hlen hclose
  refine ⟨fun pkt hpkt ht => ?_, ?_, fun i d hi => ?_, fun s d hd => ?_⟩
  · obtain ⟨h0, hpay⟩ := hc.sends.data pkt hpkt ht
    exact ⟨seq_pos h0, hpay⟩
  · refine (link_gets hrun sd.other).onArrival ?_
    cases sd with
    | a => exact hpb
    | b => exact hpa
  · have hilen := (List.getElem?_eq_some_iff.mp hi).1
    by_cases hle : (l.conn sd).nextSeq.toNat ≤ i
    · -- not yet in the window
      refine Or.inl ⟨i - (l.conn sd).nextSeq.toNat, by omega, ?_⟩
      have hpend : (l.conn sd).accepted.drop (l.conn sd).nextSeq.toNat =
          (l.conn sd).pendingWrites := hc.sends.pending
      rw [← hpend, List.getElem?_drop, Nat.add_sub_cancel' hle]
      exact hi
    · refine Or.inr ?_
      have hnum : (UInt32.ofNat (i + 1)).toNat = i + 1 := toNat_seq (by omega)
      have h0 : UInt32.ofNat (i + 1) ≠ 0 := seq_ne_zero i.succ_ne_zero (by omega)
      have hpay : (l.conn sd).view.payload (UInt32.ofNat (i + 1)) = some d := by
        rw [View.payload, hnum]
        exact hi
      rcases hc.covered _ h0 (by rw [hnum]; exact Nat.lt_of_not_le hle) with hb | ⟨d', hd'⟩
      · obtain ⟨d', hd'⟩ := Option.ne_none_iff_exists'.mp hb
        obtain ⟨-, -, hpay'⟩ := hc.sends.buffer _ _ hd'
        obtain ⟨m, hm, hmd⟩ := Option.map_eq_some_iff.mp hd'
        refine Or.inl ⟨m, hm, ?_⟩
        rw [hmd]
        exact Option.some_inj.mp (hpay'.symm.trans hpay)
      · obtain ⟨-, hpay'⟩ := hc.arrived _ _ hd'
        rw [Option.some_inj.mp (hpay.symm.trans hpay')]
        exact Or.inr hd'
  · obtain ⟨h0, hpay⟩ := hc.arrived s d hd
    exact ⟨seq_pos h0, hpay⟩

/-- The same payload is written twice.  The first message is sent twice, delivered twice and
acknowledged; the second is lost, and stays unacknowledged under its own number. -/
def oneDelivered : List (Side × Input) :=
  [(.a, .write [7] fun _ => 0), (.a, .tick 1000000000 seqOrder),
    (.b, .packet ⟨.data, 1, 1, [7]⟩ fun _ => 1), (.b, .packet ⟨.data, 1, 1, [7]⟩ fun _ => 2),
    (.b, .read), (.a, .packet ⟨.ack, 1, 1, []⟩ fun _ => 3), (.a, .write [7] fun _ => 4)]

theorem never_forgets_oneDelivered :
    ∃ l, run (Link.step Params.default Params.default) (Link.init 1) oneDelivered = some l ∧
      l.a.accepted = [[7], [7]] ∧ l.b.arrived.map Prod.fst = [1, 1] ∧
      l.b.appended = l.b.arrived.map Prod.snd ∧
      ∃ m, l.a.sendBuffer.lookup 2 = some m ∧ m.payload = [7] := by
  have hval : (run (Link.step Params.default Params.default) (Link.init 1) oneDelivered).map
      (fun l => (l.a.accepted, l.a.pendingWrites, l.b.arrived.map Prod.fst, l.b.closeCalled)) =
      some ([[7], [7]], [], [1, 1], false) := by
    decide +kernel
  obtain ⟨l, hrun, hl⟩ := Option.map_eq_some_iff.mp hval
  simp only [Prod.mk.injEq] at hl
  obtain ⟨hacc, hpend, harr, hclose⟩ := hl
  obtain ⟨-, happ, hkept, -⟩ :=
    never_forgets rfl rfl hrun .a (by rw [Link.conn, hacc]; decide) hclose
  refine ⟨l, hrun, hacc, harr, happ, ?_⟩
  -- the second message is neither waiting nor among what arrived
  rcases hkept 1 [7] (by rw [Link.conn, hacc]; rfl) with ⟨k, -, hk⟩ | hbuf | hmem
  · rw [Link.conn, hpend] at hk
    cases hk
  · exact hbuf
  · have hfst := List.mem_map_of_mem (f := Prod.fst) hmem
    rw [Side.other, Link.conn, harr] at hfst
    simp at hfst

end RudpScheduler.Rudp
