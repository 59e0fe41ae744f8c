import RudpScheduler.Properties.Rudp.Delivery

/-!
# Where payloads come from and go to

A connection makes no payloads: what it has still to send it was given by `Write`, and what it has
still to hand to `Read` came in a Data packet.  `Flow` says so for one round, `Conn.step_flow`
that every round is like that.  The last section has the two rounds in which the room in the
window matters: a write that finds room, and an Ack while nothing is waiting.
-/

namespace RudpScheduler.Rudp

variable {ordered : Bool} {wire : Packet → Prop} {written : Payload → Prop} {v v' v'' : View}

/-! ## Atomic changes -/

namespace View

/-- The connection has received `d` and not handed it to `Read` yet. -/
def Incoming (v : View) (d : Payload) : Prop :=
  .data d ∈ v.queue ∨ ∃ s, v.recv.held.lookup s = some d

/-- The connection was given `d` by `Write`, and may still send it. -/
def Outgoing (v : View) (d : Payload) : Prop := d ∈ v.pending ∨ ∃ s, v.buffer s = some d

/-- A Data packet for `d` under number `s` can leave the connection. -/
def MaySend (v : View) (s : UInt32) (d : Payload) : Prop := v.buffer s = some d ∨ d ∈ v.pending

lemma MaySend.outgoing {s : UInt32} {d : Payload} (h : v.MaySend s d) : v.Outgoing d :=
  h.elim (fun hb => .inr ⟨s, hb⟩) .inl

end View

/-- What changes of a connection that receives packets in `wire` and is given payloads in
`written` do to the payloads it has. -/
structure Flow (wire : Packet → Prop) (written : Payload → Prop) (v v' : View) : Prop where
  id : v'.id = v.id
  main : v'.phase = .main → v.phase = .main
  pending : ∀ d ∈ v'.pending, d ∈ v.pending ∨ written d
  buffer : ∀ s d, v'.buffer s = some d → v.MaySend s d ∨ written d
  /-- What is sent was to be sent, and what has come in is acknowledged. -/
  sent : ∃ new, v'.sent = v.sent ++ new ∧
    (∀ pkt ∈ new, pkt.typ = .data → v.MaySend pkt.seq pkt.payload ∨ written pkt.payload) ∧
    ∀ d, v'.Incoming d → v.Incoming d ∨
      ∃ s, wire ⟨.data, v.id, s, d⟩ ∧ ⟨.ack, v.id, s, []⟩ ∈ new
  /-- An error is queued only when the connection leaves `mainLoop`. -/
  errs : v'.phase = .main → ∀ e, .err e ∈ v'.queue → .err e ∈ v.queue

namespace Flow

lemma refl (v : View) : Flow wire written v v where
  id := rfl
  main h := h
  pending _ hd := .inl hd
  buffer _ _ hd := .inl (.inl hd)
  sent := ⟨[], by simp, by simp, fun _ hd => .inl hd⟩
  errs _ _ he := he

lemma maySend (h : Flow wire written v v') {s : UInt32} {d : Payload} (hd : v'.MaySend s d) :
    v.MaySend s d ∨ written d := by
  rcases hd with hb | hp
  · exact h.buffer s d hb
  · exact (h.pending d hp).imp_left .inr

lemma outgoing (h : Flow wire written v v') {d : Payload} (hd : v'.Outgoing d) :
    v.Outgoing d ∨ written d := by
  rcases hd with hp | ⟨s, hb⟩
  · exact (h.pending d hp).imp_left .inl
  · exact (h.buffer s d hb).imp_left View.MaySend.outgoing

lemma trans (h : Flow wire written v v') (h' : Flow wire written v' v'') :
    Flow wire written v v'' where
  id := h'.id.trans h.id
  main hm := h.main (h'.main hm)
  pending d hd := (h'.pending d hd).elim (h.pending d) .inr
  buffer s d hd := (h'.buffer s d hd).elim h.maySend .inr
  sent := by
    obtain ⟨new, hnew, hdata, hin⟩ := h.sent
    obtain ⟨new', hnew', hdata', hin'⟩ := h'.sent
    refine ⟨new ++ new', by rw [hnew', hnew, List.append_assoc], fun pkt hpkt ht => ?_,
      fun d hd => ?_⟩
    · rcases List.mem_append.mp hpkt with hpkt | hpkt
      · exact hdata pkt hpkt ht
      · exact (hdata' pkt hpkt ht).elim h.maySend .inr
    · rw [h.id] at hin'
      rcases hin' d hd with hd | ⟨s, hs, hack⟩
      · refine (hin d hd).imp_right ?_
        rintro ⟨s, hs, hack⟩
        exact ⟨s, hs, List.mem_append_left _ hack⟩
      · exact .inr ⟨s, hs, List.mem_append_right _ hack⟩
  errs hm e he := h.errs (h'.main hm) e (h'.errs hm e he)

/-- A change that only sends a packet. -/
lemma of_send {typ : PacketType} {s : UInt32} {d : Payload}
    (h : typ = .data → v.MaySend s d) : Flow wire written v (v.send typ s d) :=
  { (refl v : Flow wire written v v) with
    sent := by
      refine ⟨[⟨typ, v.id, s, d⟩], rfl, fun pkt hpkt ht => ?_, fun _ hd => .inl hd⟩
      obtain rfl := List.mem_singleton.mp hpkt
      exact .inl (h ht) }

/-- A change of the queue that takes nothing in. -/
lemma of_queue (hid : v'.id = v.id) (hmain : v'.phase = .main → v.phase = .main)
    (hpend : v'.pending = v.pending) (hbuf : v'.buffer = v.buffer) (hsent : v'.sent = v.sent)
    (hrecv : v'.recv = v.recv) (hdata : ∀ d, .data d ∈ v'.queue → .data d ∈ v.queue)
    (herrs : v'.phase = .main → ∀ e, .err e ∈ v'.queue → .err e ∈ v.queue) :
    Flow wire written v v' where
  id := hid
  main := hmain
  pending d hd := .inl (hpend ▸ hd)
  buffer s d hd := .inl (.inl (hbuf ▸ hd))
  sent := by
    refine ⟨[], by rw [hsent, List.append_nil], by simp, fun d hd => .inl ?_⟩
    exact hd.imp (hdata d) fun hh => hrecv ▸ hh
  errs := herrs

end Flow

/-- What the release loop leaves and releases was held. -/
lemma Ordered.release_held {o : Ordered} {d : Payload} (fuel : ℕ)
    (h : d ∈ (o.release fuel).2 ∨ ∃ s, (o.release fuel).1.held.lookup s = some d) :
    ∃ s, o.held.lookup s = some d := by
  induction fuel generalizing o with
  | zero => exact h.elim (fun h => by cases h) id
  | succ fuel ih =>
      cases hl : o.held.lookup o.next with
      | none =>
          rw [release_of_none hl] at h
          exact h.elim (fun h => by cases h) id
      | some d' =>
          rw [release_of_some hl] at h
          rcases h with h | h
          · rcases List.mem_cons.mp h with rfl | h
            · exact ⟨_, hl⟩
            · obtain ⟨s, hs⟩ := ih (.inl h)
              exact ⟨s, GoMap.forall_erase (P := fun s d' => o.held.lookup s = some d')
                (fun _ _ h => h) _ s d hs⟩
          · obtain ⟨s, hs⟩ := ih (.inr h)
            exact ⟨s, GoMap.forall_erase (P := fun s d' => o.held.lookup s = some d')
              (fun _ _ h => h) _ s d hs⟩

/-- The ordered receive path keeps and releases what it held and what has come. -/
lemma Ordered.accept_held {o : Ordered} {seq : UInt32} {d d' : Payload}
    (h : d ∈ (o.accept seq d').2 ∨ ∃ s, (o.accept seq d').1.held.lookup s = some d) :
    (∃ s, o.held.lookup s = some d) ∨ d = d' := by
  by_cases hknown : seq < o.next ∨ (o.held.lookup seq).isSome = true
  · rw [accept_of_known hknown] at h
    exact .inl (h.elim (fun h => by cases h) id)
  · rw [accept_of_new hknown] at h
    obtain ⟨s, hs⟩ := release_held _ h
    obtain ⟨-, hd⟩ | ⟨-, hs⟩ := GoMap.of_lookup_insert hs
    · exact .inr hd
    · exact .inl ⟨s, hs⟩

lemma View.receive_incoming {s : UInt32} {d d' : Payload}
    (h : (v.receive ordered s d').Incoming d) : v.Incoming d ∨ d = d' := by
  cases ordered with
  | false =>
      rcases h with hq | hh
      · rcases List.mem_append.mp hq with hq | hq
        · exact .inl (.inl hq)
        · exact .inr (by simpa [released] using hq)
      · exact .inl (.inr hh)
  | true =>
      have hnew : d ∈ (v.recv.accept s d').2 ∨
          (∃ k, (v.recv.accept s d').1.held.lookup k = some d) → v.Incoming d ∨ d = d' :=
        fun h => (Ordered.accept_held h).imp_left .inr
      rcases h with hq | hh
      · rcases List.mem_append.mp hq with hq | hq
        · exact .inl (.inl hq)
        · exact hnew (.inl (by simpa [released] using hq))
      · exact hnew (.inr hh)

/-- An atomic change moves payloads, and takes in only what has come and what was written. -/
lemma Change.flow (h : Change ordered wire v v')
    (hw : ∀ d, v'.accepted = v.accepted ++ [d] → written d) : Flow wire written v v' := by
  cases h with
  | @write d hp =>
      refine { Flow.refl v with pending := fun d' hd => ?_ }
      refine (List.mem_append.mp hd).imp_right fun hd => ?_
      exact List.mem_singleton.mp hd ▸ hw d rfl
  | @fill d rest hd =>
      have hmem : d ∈ v.pending := hd ▸ List.mem_cons_self
      have hself : Function.update v.buffer (v.nextSeq + 1) (some d) (v.nextSeq + 1) = some d :=
        Function.update_self _ _ _
      have hmove : Flow wire written v
          { v with
            nextSeq := v.nextSeq + 1
            buffer := Function.update v.buffer (v.nextSeq + 1) (some d) } := by
        refine { Flow.refl v with buffer := fun s d' hb => ?_ }
        dsimp only at hb
        rw [Function.update_apply] at hb
        split_ifs at hb
        · exact .inl (.inr (Option.some_inj.mp hb ▸ hmem))
        · exact .inl (.inl hb)
      exact { hmove.trans (.of_send fun _ => .inl hself) with
        pending := fun d' hd' => .inl (hd ▸ List.mem_cons_of_mem _ hd') }
  | @acked s d hw' =>
      refine { Flow.refl v with buffer := fun s' d' hb => ?_ }
      dsimp only at hb
      rw [Function.update_apply] at hb
      split_ifs at hb
      exact .inl (.inl hb)
  | @deliver s d hp hw' hs =>
      refine { (Flow.refl v : Flow wire written v v) with
        sent := ⟨[⟨.ack, v.id, s, []⟩], rfl, by simp, fun d' hd' => ?_⟩
        errs := fun _ e he => ?_ }
      · refine (View.receive_incoming hd').imp_right ?_
        rintro rfl
        exact ⟨s, hw', List.mem_singleton_self _⟩
      · rcases List.mem_append.mp he with he | he
        · exact he
        · simp at he
  | ackOnly => exact .of_send (by simp)
  | resend hb => exact .of_send fun _ => .inl hb
  | heartbeat => exact .of_send (by simp)
  | drain => exact .of_queue rfl (by simp) rfl rfl rfl rfl (by simp) (by simp)
  | handOver hp hq =>
      refine .of_queue rfl (fun hm => ?_) rfl rfl rfl rfl
        (fun d hd => hq ▸ List.mem_cons_of_mem _ hd) fun _ e he => hq ▸ List.mem_cons_of_mem _ he
      dsimp only at hm
      split_ifs at hm
      exact hm
  | flush => exact { Flow.refl v with main := by simp, errs := by simp }
  | sendClose =>
      have hsend : Flow wire written v (v.send .close 0 []) := .of_send (by simp)
      exact { hsend with main := by simp, errs := by simp }
  | quit => exact { Flow.refl v with main := by simp, errs := by simp }
  | abort => exact { Flow.refl v with main := by simp, errs := by simp }
  | readEnded => exact { Flow.refl v with }

/-- The changes of a round, of which all that was written is in `written`. -/
lemma Changes.flow (h : Changes ordered wire v v')
    (hw : ∀ d ∈ v'.accepted.drop v.accepted.length, written d) : Flow wire written v v' := by
  have hstart : ∀ {u}, Changes ordered wire v u → v.accepted <+: u.accepted := by
    intro u hu
    induction hu with
    | refl => exact List.prefix_rfl
    | tail _ hch ih => exact ih.trans hch.accepted_prefix
  induction h with
  | refl => exact .refl v
  | @tail u u' hu hch ih =>
      have hlen := (hstart hu).length_le
      refine (ih fun d hd => hw d ?_).trans (hch.flow fun d hd => hw d ?_)
      · obtain ⟨rest, hrest⟩ := hch.accepted_prefix
        rw [← hrest, List.drop_append]
        exact List.mem_append_left _ hd
      · rw [hd, List.drop_append_of_le_length hlen]
        exact List.mem_append_right _ (List.mem_singleton_self d)

/-! ## Rounds -/

namespace Conn

variable {p : Params} {c c' : Conn} {i : Input}

lemma checkFlushed_accepted (c : Conn) : c.checkFlushed.accepted = c.accepted := by
  unfold checkFlushed
  split_ifs <;> rfl

lemma onPacket_accepted (clock : ℕ → Time) (c : Conn) (pkt : Packet) :
    (c.onPacket p clock pkt).accepted = c.accepted := by
  unfold onPacket
  split
  · rfl
  · dsimp only
    split
    · exact (onAck_frame ..).2
    · split
      · rfl
      · exact congrArg View.accepted (accept_view _ _ _)
    · rfl
    · rfl

lemma onPacketFlushing_accepted (clock : ℕ → Time) (c : Conn) (pkt : Packet) :
    (c.onPacketFlushing p clock pkt).accepted = c.accepted := by
  unfold onPacketFlushing
  split
  · rfl
  · dsimp only
    split
    · exact (checkFlushed_accepted _).trans (onAck_frame ..).2
    · rfl
    · rfl
    · rfl

lemma handOver_spec (h : c.handOver = some c') :
    c'.accepted = c.accepted ∧ ∃ d, c'.returned = c.returned ++ [d] ∧
      c.deliverQ = d :: c'.deliverQ := by
  unfold handOver at h
  cases hq : c.deliverQ with
  | nil => rw [hq] at h; cases h
  | cons d rest =>
      rw [hq] at h
      obtain rfl := Option.some_inj.mp h
      exact ⟨rfl, d, rfl, rfl⟩

/-- `Read` returns the head of the queue, or that the connection has ended. -/
lemma step_read (h : c.step p .read = some c') :
    c'.accepted = c.accepted ∧ ∃ d, c'.returned = c.returned ++ [d] ∧
      (c.deliverQ = d :: c'.deliverQ ∨ d = .mainDone) := by
  simp only [step] at h
  cases hp : c.phase <;> simp only [hp, reduceCtorEq] at h
  · obtain ⟨hacc, d, hret, hq⟩ := handOver_spec h
    exact ⟨hacc, d, hret, .inl hq⟩
  · obtain ⟨hacc, d, hret, hq⟩ := handOver_spec h
    exact ⟨hacc, d, hret, .inl hq⟩
  · split_ifs at h
    obtain rfl := Option.some_inj.mp h
    exact ⟨rfl, .mainDone, rfl, .inr rfl⟩

/-- Only a `Write` gives the connection something to send. -/
lemma step_accepted (h : c.step p i = some c') :
    ∀ d ∈ c'.accepted.drop c.accepted.length, ∃ clock, i = .write d clock := by
  have hsame : c'.accepted = c.accepted →
      ∀ d ∈ c'.accepted.drop c.accepted.length, ∃ clock, i = .write d clock := by
    intro he d hd
    rw [he, List.drop_length] at hd
    cases hd
  cases i with
  | packet pkt clock =>
      simp only [step] at h
      cases hp : c.phase <;> simp only [hp, Option.some_inj, reduceCtorEq] at h
      · exact hsame (h ▸ onPacket_accepted clock c pkt)
      · exact hsame (h ▸ onPacketFlushing_accepted clock c pkt)
  | write data clock =>
      simp only [step] at h
      cases hp : c.phase <;> simp only [hp, Option.some_inj, reduceCtorEq] at h
      · split_ifs at h
        obtain rfl := Option.some_inj.mp h
        rw [onWrite, fillWindow, (fillFrom_frame ..).2]
        intro d hd
        obtain rfl : d = data := by simpa using hd
        exact ⟨clock, rfl⟩
      · exact hsame (h ▸ rfl)
  | read => exact hsame (step_read h).1
  | tick now ord =>
      refine hsame ?_
      simp only [step] at h
      cases hp : c.phase <;> simp only [hp, Option.some_inj, reduceCtorEq] at h
      · rw [← h, onTick]
        split_ifs <;> exact (tickCommon_frame now ord c).2
      · rw [← h, onTickFlushing]
        split_ifs <;> exact (tickCommon_frame now ord c).2
  | close clock =>
      refine hsame ?_
      simp only [step] at h
      cases hp : c.phase <;> simp only [hp, Option.some_inj, reduceCtorEq] at h
      · rw [← h, onClose, checkFlushed_accepted, fillWindow, (fillFrom_frame ..).2]
      · rw [← h]
  | stop =>
      refine hsame ?_
      simp only [step] at h
      cases hp : c.phase <;> simp only [hp, Option.some_inj, reduceCtorEq] at h
      rw [← h]

/-- **A round makes no payloads.**  What the connection may send afterwards it could send before or
was given in this round, and what it may hand over it had or has just received. -/
lemma step_flow (h : c.step p i = some c') :
    Flow (fun pkt => ∃ clock, i = .packet pkt clock) (fun d => ∃ clock, i = .write d clock)
      c.view c'.view :=
  Changes.flow (step_changes h fun _ clock hi _ => ⟨clock, hi⟩) (step_accepted h)

/-! ## Rounds with room in the window -/

lemma fillWindow_of_nil {clock : ℕ → Time} (h : c.pendingWrites = []) :
    c.fillWindow p clock = c := by
  obtain ⟨⟩ := c
  obtain rfl := h
  rfl

/-- While nothing is waiting, an acknowledged number leaves the window for good. -/
lemma step_acked {clock : ℕ → Time} {seq : UInt32} {d : Payload} (hp : c.phase = .main)
    (hpend : c.pendingWrites = [])
    (h : c.step p (.packet ⟨.ack, c.id, seq, d⟩ clock) = some c') : c'.view.buffer seq = none := by
  simp only [step, hp, Option.some_inj] at h
  rw [← h, onPacket, if_neg (not_not.mpr rfl)]
  dsimp only
  unfold onAck
  split
  · rename_i hnone
    exact congrArg (Option.map OutMsg.payload) hnone
  · dsimp only
    rw [fillWindow_of_nil]
    · simp [view]
    · unfold sampleRTT
      split_ifs <;> exact hpend

/-- A write that finds nothing waiting and room in the window is sent at once. -/
lemma step_write_room {clock : ℕ → Time} {d : Payload} (hp : c.phase = .main)
    (hpend : c.pendingWrites = []) (hroom : GoMap.len c.sendBuffer < p.window)
    (h : c.step p (.write d clock) = some c') :
    c'.view = ({ c.view with
      nextSeq := c.nextSeq + 1
      buffer := Function.update c.view.buffer (c.nextSeq + 1) (some d)
      accepted := c.accepted ++ [d] }.send .data (c.nextSeq + 1) d) := by
  simp only [step, hp] at h
  split_ifs at h
  obtain rfl := Option.some_inj.mp h
  rw [onWrite, fillWindow]
  dsimp only
  rw [hpend, List.nil_append, fillFrom, if_pos hroom, fillFrom]
  simp only [view, sendFirst, send, View.send, hpend, View.mk.injEq, true_and, and_true]
  funext s
  rw [GoMap.lookup_insert_ite, Function.update_apply]
  split_ifs <;> rfl

end Conn

end RudpScheduler.Rudp
