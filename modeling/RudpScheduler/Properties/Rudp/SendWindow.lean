import RudpScheduler.Construction.Rudp.SendSide
import RudpScheduler.Properties.Rudp.Delivery

/-!
# The send window and its numbers

Two invariants of the sending side, each kept by every round.  `Sender.Fits` is about room: the
window is never exceeded, and a write waits only while it is full.  `Sender.Numbered` is about
numbers: `nextSeq` counts the entries ever added to the send buffer, every key is one of the numbers
`1, …, nextSeq`, and an entry leaves the buffer only for an Ack.  The first holds on every
connection; the second holds up to the first `2 ^ 32 - 1` messages, because `nextSeq` is a 32-bit
counter that is only ever incremented.  `wrapRun` shows what the next message does to it.

What was first sent under a number is read off the datagrams (`Conn.firstSent`), and together with
what still waits it is what was accepted.
-/

namespace RudpScheduler.Rudp

namespace Sender

variable {p : Params} {s t : Sender} {i : Input} {k n : ℕ} {ns : List (UInt32 × Bool)}

/-! ## Room -/

/-- The window is not exceeded, and it is full while writes wait. -/
structure Fits (p : Params) (s : Sender) : Prop where
  le_window : GoMap.len s.buffer ≤ p.window
  full : s.pending ≠ [] → GoMap.len s.buffer = p.window

/-- `fillWindow` leaves no room for what waits. -/
lemma Fills.fits (h : Fills p s ns t) (hs : GoMap.len s.buffer ≤ p.window) : Fits p t := by
  induction h with
  | done hstop =>
      refine ⟨hs, fun hne => le_antisymm hs ?_⟩
      exact hstop.resolve_left hne
  | @first s t d rest now ns hd hroom _ ih =>
      apply ih
      change GoMap.len (Finmap.insert (s.nextSeq + 1) _ s.buffer) ≤ p.window
      cases hl : s.buffer.lookup (s.nextSeq + 1) with
      | none => rw [GoMap.len_insert_of_lookup_none hl]; exact hroom
      | some m => rw [GoMap.len_insert_of_lookup_some hl]; exact hs

/-- A retransmission replaces an entry. -/
lemma Resends.frame {now : Time} (h : Resends p now s t) :
    GoMap.len t.buffer = GoMap.len s.buffer ∧ t.pending = s.pending ∧
      t.accepted = s.accepted := by
  induction h with
  | done => exact ⟨rfl, rfl, rfl⟩
  | again hm _ _ ih =>
      rw [GoMap.len_insert_of_lookup_some hm] at ih
      exact ih

/-- Every round keeps within the window and refills it. -/
lemma Round.fits (h : Round p s i k ns t) (hs : Fits p s) : Fits p t := by
  cases h with
  | quiet => exact hs
  | write h => exact h.fits hs.le_window
  | acked _ hm h =>
      refine h.fits ?_
      have hlen := GoMap.len_erase_of_lookup_some hm
      exact (Nat.le_of_succ_le hlen.le).trans hs.le_window
  | tick h =>
      obtain ⟨hlen, hpending, -⟩ := h.frame
      exact ⟨hlen.trans_le hs.le_window, fun hne => hlen.trans (hs.full (hpending ▸ hne))⟩
  | close h => exact h.fits hs.le_window

/-! ## Numbers -/

/-- The numbers in use, after `n` entries have been removed by Acks. -/
structure Numbered (n : ℕ) (s : Sender) : Prop where
  /-- Everything accepted has been sent or waits. -/
  accepted : s.added + s.pending.length = s.accepted.length
  nextSeq : s.nextSeq.toNat = s.added
  keys : ∀ k m, s.buffer.lookup k = some m → k ≠ 0 ∧ k.toNat ≤ s.added
  /-- Entries leave the send buffer through Acks only. -/
  added : s.added = GoMap.len s.buffer + n

/-- The next number while fewer than `2 ^ 32` messages have been accepted. -/
lemma Numbered.next (hs : Numbered n s) (hlen : s.accepted.length < 2 ^ 32) (hne : s.pending ≠ []) :
    (s.nextSeq + 1).toNat = s.added + 1 := by
  have hacc := hs.accepted
  have hpos := List.length_pos_iff.mpr hne
  rw [UInt32.toNat_add, UInt32.toNat_one, hs.nextSeq, Nat.mod_eq_of_lt (by omega)]

lemma Numbered.next_unused (hs : Numbered n s) (hlen : s.accepted.length < 2 ^ 32)
    (hne : s.pending ≠ []) : s.nextSeq + 1 ≠ 0 ∧ s.buffer.lookup (s.nextSeq + 1) = none := by
  have hnext := hs.next hlen hne
  refine ⟨fun h0 => ?_, ?_⟩
  · rw [h0, UInt32.toNat_zero] at hnext
    omega
  · cases hl : s.buffer.lookup (s.nextSeq + 1) with
    | none => rfl
    | some m =>
        have hle := (hs.keys _ m hl).2
        omega

/-- One round of the loop of `fillWindow`. -/
lemma Numbered.first (hs : Numbered n s) (hlen : s.accepted.length < 2 ^ 32) {d : Payload}
    {rest : List Payload} (hd : s.pending = d :: rest) (now : Time) :
    Numbered n { s.first p d now with pending := rest } := by
  have hne : s.pending ≠ [] := by simp [hd]
  have hnext := hs.next hlen hne
  obtain ⟨h0, hunused⟩ := hs.next_unused hlen hne
  have hacc := hs.accepted
  rw [hd, List.length_cons] at hacc
  refine ⟨?_, hnext, ?_, ?_⟩
  · change s.added + 1 + rest.length = s.accepted.length
    omega
  · exact GoMap.forall_insert (P := fun k _ => k ≠ 0 ∧ k.toNat ≤ s.added + 1)
      (fun k m hk => ⟨(hs.keys k m hk).1, Nat.le_succ_of_le (hs.keys k m hk).2⟩) ⟨h0, hnext.le⟩
  · change s.added + 1 = GoMap.len (Finmap.insert (s.nextSeq + 1) _ s.buffer) + n
    rw [GoMap.len_insert_of_lookup_none hunused, hs.added]
    omega

lemma Fills.accepted_eq (h : Fills p s ns t) : t.accepted = s.accepted := by
  induction h with
  | done => rfl
  | first _ _ _ ih => exact ih

/-- What `fillWindow` assigns is neither 0 nor in use. -/
lemma Fills.numbered (h : Fills p s ns t) (hlen : s.accepted.length < 2 ^ 32)
    (hs : Numbered n s) :
    Numbered n t ∧ ∀ x ∈ ns, x.1 ≠ 0 ∧ x.2 = false := by
  induction h with
  | done => exact ⟨hs, by simp⟩
  | @first s t d rest now ns hd hroom _ ih =>
      obtain ⟨ht, hns⟩ := ih hlen (hs.first hlen hd now)
      obtain ⟨h0, hunused⟩ := hs.next_unused hlen (by simp [hd])
      refine ⟨ht, fun x hx => ?_⟩
      rcases List.mem_cons.mp hx with rfl | hx
      · exact ⟨h0, by rw [hunused]; rfl⟩
      · exact hns x hx

/-- An acknowledged entry is removed. -/
lemma Numbered.deleted (hs : Numbered n s) {seq : UInt32} {m : OutMsg}
    (hm : s.buffer.lookup seq = some m) (now : Time) : Numbered (n + 1) (s.deleted seq m now) where
  accepted := hs.accepted
  nextSeq := hs.nextSeq
  keys := GoMap.forall_erase hs.keys seq
  added := by
    have hlen := GoMap.len_erase_of_lookup_some hm
    have hadded := hs.added
    change s.added = GoMap.len (s.buffer.erase seq) + (n + 1)
    omega

lemma Resends.numbered {now : Time} (h : Resends p now s t) (hs : Numbered n s) :
    Numbered n t := by
  induction h with
  | done => exact hs
  | again hm _ _ ih =>
      refine ih ⟨hs.accepted, hs.nextSeq, GoMap.forall_insert hs.keys (hs.keys _ _ hm), ?_⟩
      rw [GoMap.len_insert_of_lookup_some hm]
      exact hs.added

lemma Round.accepted_prefix (h : Round p s i k ns t) : s.accepted <+: t.accepted := by
  cases h with
  | quiet => exact List.prefix_rfl
  | write h => rw [h.accepted_eq]; exact List.prefix_append _ _
  | acked _ _ h => rw [h.accepted_eq]; exact List.prefix_rfl
  | tick h => rw [h.frame.2.2]
  | close h => rw [h.accepted_eq]

/-- Every round keeps the numbering while fewer than `2 ^ 32` messages have been accepted. -/
lemma Round.numbered (h : Round p s i k ns t) (hlen : t.accepted.length < 2 ^ 32)
    (hs : Numbered n s) : Numbered (n + k) t ∧ ∀ x ∈ ns, x.1 ≠ 0 ∧ x.2 = false := by
  cases h with
  | quiet => exact ⟨hs, by simp⟩
  | write h =>
      rw [h.accepted_eq] at hlen
      refine h.numbered hlen ⟨?_, hs.nextSeq, hs.keys, hs.added⟩
      have hacc := hs.accepted
      simp only [List.length_append, List.length_singleton]
      omega
  | acked _ hm h =>
      rw [h.accepted_eq] at hlen
      exact h.numbered hlen (hs.deleted hm _)
  | tick h => exact ⟨h.numbered hs, by simp⟩
  | close h =>
      rw [h.accepted_eq] at hlen
      exact h.numbered hlen hs

end Sender

/-! ## What the datagrams show -/

variable {ordered : Bool} {wire : Packet → Prop} {v v' : View}

/-- Every number up to `nextSeq` has been sent. -/
def EachSent (v : View) : Prop :=
  ∀ s : UInt32, s ≠ 0 → s.toNat ≤ v.nextSeq.toNat → ∃ pkt ∈ v.sent, pkt.typ = .data ∧ pkt.seq = s

lemma EachSent.send (hv : EachSent v) {typ : PacketType} {seq : UInt32} {d : Payload} :
    EachSent (v.send typ seq d) := by
  intro s h0 hle
  obtain ⟨pkt, hpkt, h⟩ := hv s h0 hle
  exact ⟨pkt, mem_send.mpr (.inl hpkt), h⟩

lemma Change.eachSent (h : Change ordered wire v v') (hv : EachSent v) : EachSent v' := by
  cases h with
  | @fill d rest hd =>
      intro s h0 hle
      by_cases hs : s = v.nextSeq + 1
      · exact ⟨_, mem_send.mpr (.inr rfl), rfl, hs.symm⟩
      · -- an earlier number, since the counter went up by one or back to 0
        have hle' : s.toNat ≤ (v.nextSeq + 1).toNat := hle
        have hne : s.toNat ≠ (v.nextSeq + 1).toNat := fun he => hs (UInt32.toNat_inj.mp he)
        rw [UInt32.toNat_add, UInt32.toNat_one] at hle' hne
        obtain ⟨pkt, hpkt, h⟩ := hv s h0 (by omega)
        exact ⟨pkt, mem_send.mpr (.inl hpkt), h⟩
  | deliver => exact EachSent.send hv
  | ackOnly => exact hv.send
  | resend => exact hv.send
  | heartbeat => exact hv.send
  | sendClose => exact hv.send
  | _ => exact hv

/-! ## Along every run of a connection -/

section Runs

variable {p : Params} {id : UInt32} {client : Bool} {is : List Input} {c : Conn}

lemma run_fits (hrun : run (Conn.step p) (newConn id client) is = some c) :
    Sender.Fits p c.sender :=
  run_invariant (P := fun c : Conn => Sender.Fits p c.sender)
    (fun _ _ _ hc h => (Conn.step_round h).fits hc) ⟨Nat.zero_le _, fun hne => absurd rfl hne⟩ hrun

/-- The numbering after a run, with the Acks counted along it. -/
lemma run_numbered (hrun : run (Conn.step p) (newConn id client) is = some c)
    (hlen : c.accepted.length < 2 ^ 32) :
    Sender.Numbered (tally Conn.acksTaken (Conn.step p) (newConn id client) is) c.sender := by
  have hstart : Sender.Numbered 0 (newConn id client).sender :=
    ⟨rfl, rfl, fun k m hk => (by cases hk), rfl⟩
  rw [← Nat.zero_add (tally _ _ _ _)]
  refine run_tally (P := fun n (c : Conn) =>
    c.accepted.length < 2 ^ 32 → Sender.Numbered n c.sender) (fun n c i c' hc h hlen' => ?_)
    (fun _ => hstart) hrun hlen
  have hround := Conn.step_round h
  have hle := hround.accepted_prefix.length_le
  exact (hround.numbered hlen' (hc (hle.trans_lt hlen'))).1

lemma run_sends (hrun : run (Conn.step p) (newConn id client) is = some c)
    (hlen : c.accepted.length < 2 ^ 32) : Sends c.view := by
  refine Conn.run_keeps (P := fun v => v.accepted.length < 2 ^ 32 → Sends v) ?_
    (fun v v' h hv hlen' => ?_) hrun hlen
  · exact fun _ => ⟨Nat.zero_le _, rfl, fun s d h => (by cases h), fun pkt h => (by cases h)⟩
  · exact h.sends hlen' (hv (h.accepted_prefix.length_le.trans_lt hlen'))

end Runs

namespace Conn

/-- The payload of the first Data packet under number `s`. -/
def firstSentUnder (c : Conn) (s : UInt32) : Option Payload :=
  (c.sent.find? fun pkt => pkt.typ = .data ∧ pkt.seq = s).map Packet.payload

/-- The payloads first sent under the numbers `1, …, nextSeq`. -/
def firstSent (c : Conn) : List Payload :=
  (List.range c.nextSeq.toNat).filterMap fun i => c.firstSentUnder (UInt32.ofNat (i + 1))

/-- A number that has been sent was first sent with the payload it stands for. -/
lemma firstSentUnder_eq {c : Conn} (hsends : Sends c.view) (heach : EachSent c.view) {s : UInt32}
    (h0 : s ≠ 0) (hle : s.toNat ≤ c.nextSeq.toNat) : c.firstSentUnder s = c.view.payload s := by
  obtain ⟨pkt, hpkt, ht, hs⟩ := heach s h0 hle
  have hsome : (c.sent.find? fun pkt => pkt.typ = .data ∧ pkt.seq = s).isSome :=
    List.find?_isSome.mpr ⟨pkt, hpkt, by simp [ht, hs]⟩
  obtain ⟨pkt', hfind⟩ := Option.isSome_iff_exists.mp hsome
  have hprop := List.find?_some hfind
  rw [decide_eq_true_eq] at hprop
  have hpay := (hsends.data pkt' (List.mem_of_find?_eq_some hfind) hprop.1).2
  rw [firstSentUnder, hfind, Option.map_some, ← hpay, hprop.2]

lemma firstSent_eq_take {c : Conn} (hsends : Sends c.view) (heach : EachSent c.view) :
    c.firstSent = c.accepted.take c.nextSeq.toNat := by
  have hbound := c.nextSeq.toNat_lt
  -- one number after the other
  have hsofar : ∀ n ≤ c.nextSeq.toNat, (List.range n).filterMap
      (fun i => c.firstSentUnder (UInt32.ofNat (i + 1))) = c.accepted.take n := by
    intro n hn
    induction n with
    | zero => rfl
    | succ n ih =>
        have htoNat : (UInt32.ofNat (n + 1)).toNat = n + 1 := toNat_seq (by omega)
        have h0 : UInt32.ofNat (n + 1) ≠ 0 := seq_ne_zero n.succ_ne_zero (by omega)
        rw [List.range_succ, List.filterMap_append, ih (by omega), List.take_add_one]
        congr 1
        rw [List.filterMap_cons, List.filterMap_nil,
          firstSentUnder_eq hsends heach h0 (by omega), View.payload, htoNat, Nat.add_sub_cancel]
        rw [show c.view.accepted = c.accepted from rfl]
        cases c.accepted[n]? <;> rfl
  exact hsofar _ le_rfl

end Conn

section Results

variable {p : Params} {id : UInt32} {client : Bool} {is : List Input} {c : Conn}

/-- After every handler the window is respected, it is full while writes wait, what was first sent
and what waits make up what was accepted, and a Close packet has been sent only with nothing left to
acknowledge or to send. -/
theorem send_window_never_idles (hrun : run (Conn.step p) (newConn id client) is = some c)
    (hlen : c.accepted.length < 2 ^ 32) :
    GoMap.len c.sendBuffer ≤ p.window ∧
      (c.pendingWrites ≠ [] → GoMap.len c.sendBuffer = p.window) ∧
      c.firstSent ++ c.pendingWrites = c.accepted ∧
      ∀ pkt ∈ c.sent, pkt.typ = .close →
        (∀ s, c.sendBuffer.lookup s = none) ∧ c.pendingWrites = [] := by
  have hfits := run_fits hrun
  have hsends := run_sends hrun hlen
  have heach : EachSent c.view :=
    Conn.run_keeps (fun s h0 hle => absurd (UInt32.toNat_inj.mp (Nat.le_zero.mp hle)) h0)
      (fun _ _ h hv => h.eachSent hv) hrun
  have hclose : Closes c.view :=
    Conn.run_keeps (fun pkt hpkt => by cases hpkt) (fun _ _ h hv => h.closes hv) hrun
  refine ⟨hfits.le_window, hfits.full, ?_, fun pkt hpkt ht => ?_⟩
  · rw [Conn.firstSent_eq_take hsends heach, ← show c.view.pending = c.pendingWrites from rfl,
      ← hsends.pending]
    exact List.take_append_drop _ _
  · obtain ⟨-, hbuf, hpending⟩ := hclose pkt hpkt ht
    exact ⟨fun s => Option.map_eq_none_iff.mp (hbuf s), hpending⟩

/-- A connection that is closed with a message unacknowledged, until its Ack arrives. -/
def flushRun : List Input :=
  [.write [7] fun _ => 0, .close fun _ => 0, .packet ⟨.ack, 1, 1, []⟩ fun _ => 0]

theorem send_window_never_idles_flushRun :
    ∃ c, run (Conn.step .default) (newConn 1 true) flushRun = some c ∧
      ⟨.close, 1, 0, []⟩ ∈ c.sent ∧ c.firstSent ++ c.pendingWrites = [[7]] ∧
      ∀ s, c.sendBuffer.lookup s = none := by
  have hval : (run (Conn.step .default) (newConn 1 true) flushRun).map
      (fun c => (c.sent, c.accepted)) =
      some ([⟨.data, 1, 1, [7]⟩, ⟨.close, 1, 0, []⟩], [[7]]) := by
    decide +kernel
  obtain ⟨c, hrun, hc⟩ := Option.map_eq_some_iff.mp hval
  obtain ⟨hsent, hacc⟩ := Prod.mk.inj hc
  have hmem : ⟨.close, 1, 0, []⟩ ∈ c.sent := by simp [hsent]
  obtain ⟨-, -, hall, hclose⟩ := send_window_never_idles hrun (by rw [hacc]; decide)
  exact ⟨c, hrun, hmem, hall.trans hacc, (hclose _ hmem rfl).1⟩

/-- While fewer than `2 ^ 32` payloads have been accepted on a connection, `fillWindow` assigns
neither 0 nor a number in use, a heartbeat removes nothing, every Data packet has a number, and
entries leave the send buffer through Acks only. -/
theorem sequence_numbers_usable (hrun : run (Conn.step p) (newConn id client) is = some c)
    (hlen : c.accepted.length < 2 ^ 32) :
    (∀ i c', c.step p i = some c' → c'.accepted.length < 2 ^ 32 →
        ∀ x ∈ c.numbers p i, x.1 ≠ 0 ∧ x.2 = false) ∧
      (∀ clock, c.onAck p clock 0 = c) ∧
      (∀ pkt ∈ c.sent, pkt.typ = .data → pkt.seq ≠ 0) ∧
      c.stats.dataSent = GoMap.len c.sendBuffer +
        tally Conn.acksTaken (Conn.step p) (newConn id client) is := by
  have hnum := run_numbered hrun hlen
  refine ⟨fun i c' h hlen' => ((Conn.step_round h).numbered hlen' hnum).2, fun clock => ?_,
    fun pkt hpkt ht => ((run_sends hrun hlen).data pkt hpkt ht).1, hnum.added⟩
  have hzero : c.sendBuffer.lookup 0 = none := by
    cases hl : c.sendBuffer.lookup 0 with
    | none => rfl
    | some m => exact absurd rfl (hnum.keys 0 m hl).1
  rw [Conn.onAck, hzero]

theorem sequence_numbers_usable_flushRun :
    ∃ c, run (Conn.step .default) (newConn 1 true) flushRun = some c ∧
      c.stats.dataSent = GoMap.len c.sendBuffer +
        tally Conn.acksTaken (Conn.step .default) (newConn 1 true) flushRun := by
  have hval : (run (Conn.step .default) (newConn 1 true) flushRun).map
      (fun c => c.accepted) = some [[7]] := by
    decide +kernel
  obtain ⟨c, hrun, hacc⟩ := Option.map_eq_some_iff.mp hval
  exact ⟨c, hrun, (sequence_numbers_usable hrun (by rw [hacc]; decide)).2.2.2⟩

end Results

/-! ## Past the last number

Message 1 is never acknowledged while every later one is.  The counter then reaches 0, whose message
the peer's next heartbeat removes, and after it 1, which is still in use. -/

/-- One message and its Ack. -/
def wrapRound (n : ℕ) : List Input :=
  [.write [] fun _ => 0, .packet ⟨.ack, 1, UInt32.ofNat (n + 2), []⟩ fun _ => 0]

/-- A message that stays unacknowledged, then `n` that do not. -/
def wrapRun (n : ℕ) : List Input :=
  (.write [] fun _ => 0) :: (List.range n).flatMap wrapRound

/-- Only message 1 is unacknowledged after `n + 1` messages. -/
structure OneLeft (n : ℕ) (c : Conn) : Prop where
  phase : c.phase = .main
  id : c.id = 1
  pending : c.pendingWrites = []
  nextSeq : c.nextSeq = UInt32.ofNat (n + 1)
  dataSent : c.stats.dataSent = n + 1
  one : (c.sendBuffer.lookup 1).isSome
  others : ∀ k ≠ 1, c.sendBuffer.lookup k = none

lemma OneLeft.len {n : ℕ} {c : Conn} (h : OneLeft n c) : GoMap.len c.sendBuffer = 1 := by
  obtain ⟨m, hm⟩ := Option.isSome_iff_exists.mp h.one
  rw [← GoMap.len_erase_of_lookup_some hm, Nat.add_eq_right, GoMap.len_eq_zero_iff]
  intro k
  rw [GoMap.lookup_erase_ite]
  split_ifs with hk
  · rfl
  · exact h.others k hk

/-- A write that finds the window open and nothing waiting. -/
lemma Conn.onWrite_of_room {p : Params} {c : Conn} (hpending : c.pendingWrites = [])
    (hroom : GoMap.len c.sendBuffer < p.window) (clock : ℕ → Time) (d : Payload) :
    c.onWrite p clock d =
      { Conn.sendFirst p
          { c with pendingWrites := c.pendingWrites ++ [d], accepted := c.accepted ++ [d] } d
          (clock 0) with
        pendingWrites := [] } := by
  unfold onWrite fillWindow
  simp only [hpending, List.nil_append, fillFrom, hroom, if_true]

/-- `c'` is `c` after one more message of the run, under number `k`. -/
structure OneMore (k : UInt32) (c c' : Conn) : Prop where
  step : c.step .default (.write [] fun _ => 0) = some c'
  phase : c'.phase = .main
  id : c'.id = 1
  pending : c'.pendingWrites = []
  nextSeq : c'.nextSeq = k
  dataSent : c'.stats.dataSent = c.stats.dataSent + 1
  buffer : ∃ m, c'.sendBuffer = c.sendBuffer.insert k m
  sent : ⟨.data, 1, k, []⟩ ∈ c'.sent
  numbers : c.numbers .default (.write [] fun _ => 0) = [(k, (c.sendBuffer.lookup k).isSome)]

/-- The number is assigned whatever is in use. -/
lemma OneLeft.write {n : ℕ} {c : Conn} (h : OneLeft n c) :
    ∃ c', OneMore (UInt32.ofNat (n + 2)) c c' := by
  have hroom : GoMap.len c.sendBuffer < Params.default.window := by
    rw [h.len]
    decide
  have hnext : c.nextSeq + 1 = UInt32.ofNat (n + 2) := by
    rw [h.nextSeq]
    exact (UInt32.ofNat_add (n + 1) 1).symm
  have hstep : c.step .default (.write [] fun _ => 0) =
      some (c.onWrite .default (fun _ => 0) []) := by
    simp [Conn.step, h.phase]
  rw [Conn.onWrite_of_room h.pending hroom] at hstep
  rw [← hnext]
  refine ⟨_, hstep, h.phase, h.id, rfl, rfl, rfl, ⟨_, rfl⟩, ?_, ?_⟩
  · refine List.mem_append_right _ (List.mem_singleton.mpr ?_)
    simp only [Packet.mk.injEq, true_and, and_true]
    exact h.id.symm
  · rw [Conn.numbers, if_pos h.phase, h.pending, List.nil_append, Sender.fillNumbers,
      if_pos (by exact hroom), Sender.fillNumbers]
    rfl

lemma Sender.Fills.eq_of_nil {p : Params} {s t : Sender} {ns : List (UInt32 × Bool)}
    (h : Sender.Fills p s ns t) (hs : s.pending = []) : t = s := by
  cases h with
  | done => rfl
  | first hd => cases hs.symm.trans hd

/-- An Ack with nothing waiting only removes the entry. -/
lemma Conn.step_ack_idle {c : Conn} {seq : UInt32} {m : OutMsg} (hphase : c.phase = .main)
    (hid : c.id = 1) (hpending : c.pendingWrites = []) (hm : c.sendBuffer.lookup seq = some m) :
    ∃ c', c.step .default (.packet ⟨.ack, 1, seq, []⟩ fun _ => 0) = some c' ∧ c'.phase = .main ∧
      c'.id = 1 ∧ c'.sender = c.sender.deleted seq m 0 ∧
      c.acksTaken (.packet ⟨.ack, 1, seq, []⟩ fun _ => 0) = 1 := by
  have hstep : c.step .default (.packet ⟨.ack, 1, seq, []⟩ fun _ => 0) =
      some (Conn.onAck .default (fun _ => 0) { c with epochsSilent := 0 } seq) := by
    simp [Conn.step, hphase, Conn.onPacket, hid]
  refine ⟨_, hstep, ?_, (Conn.step_id hstep).trans hid, ?_, ?_⟩
  · rw [(Conn.onAck_frame ..).1]
    exact hphase
  · exact (onAck_fills (fun _ => 0) { c with epochsSilent := 0 } hm).eq_of_nil hpending
  · simp [Conn.acksTaken, Conn.hearsAck, hphase, hid, hm]

/-- Message and Ack leave message 1 as it is, as long as the number is another one. -/
lemma OneLeft.round {n : ℕ} {c : Conn} (h : OneLeft n c) (hne : UInt32.ofNat (n + 2) ≠ 1) :
    ∃ c₁ c₂, OneMore (UInt32.ofNat (n + 2)) c c₁ ∧
      c₁.step .default (.packet ⟨.ack, 1, UInt32.ofNat (n + 2), []⟩ fun _ => 0) = some c₂ ∧
      c₁.acksTaken (.packet ⟨.ack, 1, UInt32.ofNat (n + 2), []⟩ fun _ => 0) = 1 ∧
      OneLeft (n + 1) c₂ := by
  obtain ⟨c₁, h₁⟩ := h.write
  obtain ⟨m, hbuf⟩ := h₁.buffer
  have hm : c₁.sendBuffer.lookup (UInt32.ofNat (n + 2)) = some m := by
    rw [hbuf, Finmap.lookup_insert]
  obtain ⟨c₂, hstep, hphase, hid, hsender, htaken⟩ :=
    Conn.step_ack_idle h₁.phase h₁.id h₁.pending hm
  have hbuf₂ : c₂.sendBuffer = (c.sendBuffer.insert (UInt32.ofNat (n + 2)) m).erase
      (UInt32.ofNat (n + 2)) := by
    rw [← hbuf]
    exact congrArg Sender.buffer hsender
  refine ⟨c₁, c₂, h₁, hstep, htaken, hphase, hid, ?_, ?_, ?_, ?_, fun k hk => ?_⟩
  · exact (congrArg Sender.pending hsender).trans h₁.pending
  · exact (congrArg Sender.nextSeq hsender).trans h₁.nextSeq
  · exact (congrArg Sender.added hsender).trans (h₁.dataSent.trans (congrArg (· + 1) h.dataSent))
  · rw [hbuf₂, GoMap.lookup_erase_ite, if_neg hne.symm, GoMap.lookup_insert_ite, if_neg hne.symm]
    exact h.one
  · rw [hbuf₂, GoMap.lookup_erase_ite, GoMap.lookup_insert_ite]
    split_ifs with he
    · rfl
    · exact h.others k hk

/-- The run up to the last number. -/
lemma wrapRun_oneLeft {n : ℕ} (hn : n + 2 ≤ 2 ^ 32) :
    ∃ c, run (Conn.step .default) (newConn 1 true) (wrapRun n) = some c ∧ OneLeft n c ∧
      tally Conn.acksTaken (Conn.step .default) (newConn 1 true) (wrapRun n) = n := by
  induction n with
  | zero =>
      have hfirst : OneLeft 0 (Conn.onWrite .default (fun _ => 0) (newConn 1 true) []) := by
        rw [Conn.onWrite_of_room rfl (by decide +kernel)]
        refine ⟨rfl, rfl, rfl, rfl, rfl, ?_, fun k hk => ?_⟩
        · change (Finmap.lookup 1 (Finmap.insert 1 _ ∅)).isSome
          rw [Finmap.lookup_insert]
          rfl
        · change Finmap.lookup k (Finmap.insert 1 _ ∅) = none
          rw [GoMap.lookup_insert_ite, if_neg hk]
          rfl
      exact ⟨_, rfl, hfirst, rfl⟩
  | succ n ih =>
      obtain ⟨c, hrun, hc, htally⟩ := ih (by omega)
      have hne : UInt32.ofNat (n + 2) ≠ 1 := by
        intro he
        have htoNat := congrArg UInt32.toNat he
        rw [toNat_seq (by omega), UInt32.toNat_one] at htoNat
        omega
      obtain ⟨c₁, c₂, h₁, hstep, htaken, hc₂⟩ := hc.round hne
      have hlist : wrapRun (n + 1) = wrapRun n ++ wrapRound n := by
        rw [wrapRun, List.range_succ, List.flatMap_append, List.flatMap_singleton]
        rfl
      refine ⟨c₂, ?_, hc₂, ?_⟩
      · rw [hlist, run_append, hrun]
        exact run_cons_eq_some.mpr ⟨c₁, h₁.step, run_cons_eq_some.mpr ⟨c₂, hstep, rfl⟩⟩
      · rw [hlist, tally_append _ hrun, htally]
        simp only [wrapRound, tally, h₁.step, hstep, htaken, Option.elim_some]
        rfl

/-- After `2 ^ 32 - 1` messages the next one gets number 0, goes out as a Data packet the receiver
discards and is removed by the peer's heartbeat; the one after it gets number 1, which is still in
use, so that an entry is lost which no Ack has removed. -/
theorem sequence_numbers_wrap :
    ∃ c c₁ c₂ c₃,
      run (Conn.step .default) (newConn 1 true) (wrapRun (2 ^ 32 - 2)) = some c ∧
      c.numbers .default (.write [] fun _ => 0) = [(0, false)] ∧
      c.step .default (.write [] fun _ => 0) = some c₁ ∧
      ⟨.data, 1, 0, []⟩ ∈ c₁.sent ∧ (c₁.sendBuffer.lookup 0).isSome ∧
      c₁.step .default (.packet ⟨.ack, 1, 0, []⟩ fun _ => 0) = some c₂ ∧
      c₂.sendBuffer.lookup 0 = none ∧
      c₂.numbers .default (.write [] fun _ => 0) = [(1, true)] ∧
      c₂.step .default (.write [] fun _ => 0) = some c₃ ∧
      c₃.stats.dataSent ≠ GoMap.len c₃.sendBuffer +
        tally Conn.acksTaken (Conn.step .default) (newConn 1 true)
          (wrapRun (2 ^ 32 - 2) ++ [.write [] fun _ => 0, .packet ⟨.ack, 1, 0, []⟩ fun _ => 0,
            .write [] fun _ => 0]) := by
  have hzero : UInt32.ofNat (2 ^ 32 - 2 + 2) = 0 := by decide
  have hone : UInt32.ofNat (2 ^ 32 - 2 + 1 + 2) = 1 := by decide
  have hn : 2 ^ 32 - 2 + 2 ≤ 2 ^ 32 := by decide
  generalize 2 ^ 32 - 2 = n at hzero hone hn ⊢
  obtain ⟨c, hrun, hc, htally⟩ := wrapRun_oneLeft hn
  obtain ⟨c₁, c₂, h₁, hack, htaken, hc₂⟩ := hc.round (by rw [hzero]; decide)
  obtain ⟨c₃, h₃⟩ := hc₂.write
  rw [hzero] at h₁ hack htaken
  rw [hone] at h₃
  obtain ⟨m, hbuf⟩ := h₁.buffer
  refine ⟨c, c₁, c₂, c₃, hrun, ?_, h₁.step, h₁.sent, ?_, hack, hc₂.others 0 (by decide), ?_,
    h₃.step, ?_⟩
  · rw [h₁.numbers, hc.others 0 (by decide)]
    rfl
  · rw [hbuf, Finmap.lookup_insert]
    rfl
  · rw [h₃.numbers, hc₂.one]
  · -- message 1 was overwritten, so the map has not grown
    obtain ⟨m₁, hm₁⟩ := Option.isSome_iff_exists.mp hc₂.one
    obtain ⟨m₃, hbuf₃⟩ := h₃.buffer
    have hlen : GoMap.len c₃.sendBuffer = 1 := by
      rw [hbuf₃, GoMap.len_insert_of_lookup_some hm₁, hc₂.len]
    have htail : tally Conn.acksTaken (Conn.step .default) c [.write [] fun _ => 0,
        .packet ⟨.ack, 1, 0, []⟩ fun _ => 0, .write [] fun _ => 0] = 1 := by
      simp only [tally, h₁.step, hack, h₃.step, htaken, Option.elim_some]
      rfl
    rw [tally_append _ hrun, htally, htail, hlen, h₃.dataSent, hc₂.dataSent]
    omega

end RudpScheduler.Rudp
