import RudpScheduler.Construction.Rudp.SendSide

/-!
# Back-off

`retransmitExpired` doubles a message's RTO up to `MaxBackoff` epochs.  The RTO it starts from is
`initialRTO`, which knows nothing of that limit: two epochs before the first RTT sample, twice the
smoothed RTT after it.  As long as both stay below the limit (`MaxBackoff` at least 2, no sample
above half the limit) and nothing leaves the range of an `int64`, every RTO lies between one epoch
and the limit and only grows (`backoff_bounded`).  Four round trips that are slow enough leave the
bounds, and then the first retransmission shortens the RTO (`slowRun_speeds_up`).
-/

namespace RudpScheduler.Rudp

/-- The documented upper bound of a message's RTO. -/
def Params.limit (p : Params) : Duration := p.maxBackoff * p.epoch

/-- `7 * srtt + sample` of two RTTs up to half the limit is an `int64`, and so is everything
else that is computed from RTOs up to the limit. -/
def Params.Fits64 (p : Params) : Prop := 4 * p.limit < 2 ^ 63

lemma Params.epoch_le_limit (p : Params) : p.epoch ≤ p.limit := by
  have h1 : (1 : ℤ) ≤ p.maxBackoff := by exact_mod_cast p.maxBackoff_pos
  exact le_mul_of_one_le_left p.epoch_pos.le h1

lemma Params.two_epochs_le_limit {p : Params} (h : 2 ≤ p.maxBackoff) : 2 * p.epoch ≤ p.limit := by
  have h2 : (2 : ℤ) ≤ p.maxBackoff := by exact_mod_cast h
  exact mul_le_mul_of_nonneg_right h2 p.epoch_pos.le

namespace Sender

variable {p : Params} {s t : Sender} {i : Input} {k : ℕ} {ns : List (UInt32 × Bool)}

/-- RTOs keep to their bounds, and so will the next initial RTO. -/
structure Bounded (p : Params) (s : Sender) : Prop where
  rto : ∀ q m, s.buffer.lookup q = some m → p.epoch ≤ m.rto ∧ m.rto ≤ p.limit
  srtt : s.hasSRTT = true → 0 ≤ s.srtt ∧ 2 * s.srtt ≤ p.limit

lemma Bounded.initialRTO (hs : Bounded p s) (hp : 2 ≤ p.maxBackoff) (hfit : p.Fits64) :
    p.epoch ≤ s.initialRTO p ∧ s.initialRTO p ≤ p.limit := by
  have hepoch := p.epoch_pos
  have hlimit := Params.two_epochs_le_limit hp
  have hone := p.epoch_le_limit
  unfold Params.Fits64 at hfit
  unfold Sender.initialRTO
  cases hh : s.hasSRTT with
  | false =>
      have hwrap : Go.wrap64 (2 * p.epoch) = 2 * p.epoch :=
        Go.wrap64_eq_of_nonneg (by linarith) (by linarith)
      simp only [Bool.not_false, if_true, hwrap]
      constructor <;> linarith
  | true =>
      obtain ⟨h0, hle⟩ := hs.srtt hh
      have hwrap : Go.wrap64 (2 * s.srtt) = 2 * s.srtt :=
        Go.wrap64_eq_of_nonneg (by linarith) (by linarith)
      simp only [Bool.not_true, Bool.false_eq_true, if_false, hwrap]
      split_ifs with h
      · exact ⟨h.le, hle⟩
      · exact ⟨le_rfl, hone⟩

/-- The average of two samples between 0 and half of `b`, with the division rounding towards 0. -/
lemma smoothed_bounds {x y b : ℤ} (hb : 4 * b < 2 ^ 63) (hx : 0 ≤ x ∧ 2 * x ≤ b)
    (hy : 0 ≤ y ∧ 2 * y ≤ b) :
    0 ≤ (Go.wrap64 (7 * x + y)).tdiv 8 ∧ 2 * (Go.wrap64 (7 * x + y)).tdiv 8 ≤ b := by
  have h0 : 0 ≤ 7 * x + y := by omega
  rw [Go.wrap64_eq_of_nonneg h0 (by omega), Int.tdiv_eq_ediv_of_nonneg h0]
  omega

/-! ## Each round -/

lemma Fills.bounded (h : Fills p s ns t) (hp : 2 ≤ p.maxBackoff) (hfit : p.Fits64)
    (hs : Bounded p s) : Bounded p t := by
  induction h with
  | done => exact hs
  | first _ _ _ ih => exact ih ⟨GoMap.forall_insert hs.rto (hs.initialRTO hp hfit), hs.srtt⟩

/-- A retransmission doubles the RTO up to the limit. -/
lemma Bounded.resent (hs : Bounded p s) (hfit : p.Fits64) {q : UInt32} {m : OutMsg}
    (hm : s.buffer.lookup q = some m) (now : Time) :
    m.rto ≤ (resent p m now).rto ∧ p.epoch ≤ (resent p m now).rto ∧
      (resent p m now).rto ≤ p.limit := by
  obtain ⟨hlow, hhigh⟩ := hs.rto q m hm
  have hepoch := p.epoch_pos
  unfold Params.Fits64 at hfit
  have hlimit : Go.wrap64 (p.maxBackoff * p.epoch) = p.limit :=
    Go.wrap64_eq_of_nonneg (x := p.limit) (by linarith) (by linarith)
  have hdouble : Go.wrap64 (m.rto * 2) = m.rto * 2 :=
    Go.wrap64_eq_of_nonneg (by linarith) (by linarith)
  unfold Sender.resent
  rw [hlimit, hdouble]
  dsimp only
  split_ifs with h
  · exact ⟨hhigh, hlow.trans hhigh, le_rfl⟩
  · refine ⟨by linarith, by linarith, not_lt.mp h⟩

/-- No entry of `t` that has been retransmitted has a shorter RTO than the entry of `s` under its
number. -/
def NoSooner (s t : Sender) : Prop :=
  ∀ q m m', s.buffer.lookup q = some m → t.buffer.lookup q = some m' → 0 < m'.retries →
    m.rto ≤ m'.rto

lemma Resends.bounded {now : Time} (h : Resends p now s t) (hfit : p.Fits64) (hs : Bounded p s) :
    Bounded p t ∧ NoSooner s t := by
  induction h with
  | done =>
      refine ⟨hs, fun q m m' hm hm' _ => ?_⟩
      rw [Option.some_inj.mp (hm.symm.trans hm')]
  | @again s t q m hm hdue _ ih =>
      obtain ⟨hgrows, hrto⟩ := hs.resent hfit hm now
      obtain ⟨ht, hslower⟩ := ih ⟨GoMap.forall_insert hs.rto hrto, hs.srtt⟩
      refine ⟨ht, fun q' m₁ m' hm₁ hm' hpos => ?_⟩
      by_cases hq : q' = q
      · subst hq
        obtain rfl := Option.some_inj.mp (hm.symm.trans hm₁)
        exact hgrows.trans (hslower q' _ m' (Finmap.lookup_insert _) hm' hpos)
      · refine hslower q' m₁ m' ?_ hm' hpos
        rw [GoMap.lookup_insert_ite, if_neg hq]
        exact hm₁

/-- `fillWindow` adds messages that have not been retransmitted. -/
lemma Fills.lookup (h : Fills p s ns t) {q : UInt32} {m : OutMsg}
    (hm : t.buffer.lookup q = some m) : s.buffer.lookup q = some m ∨ m.retries = 0 := by
  induction h with
  | done => exact .inl hm
  | @first s t d rest now ns _ _ _ ih =>
      refine (ih hm).elim (fun hold => ?_) .inr
      change (Finmap.insert (s.nextSeq + 1) _ s.buffer).lookup q = some m at hold
      obtain ⟨-, rfl⟩ | ⟨-, hold⟩ := GoMap.of_lookup_insert hold
      · exact .inr rfl
      · exact .inl hold

lemma Fills.noSooner (h : Fills p s ns t) {s₀ : Sender}
    (hs : ∀ q m, s.buffer.lookup q = some m → s₀.buffer.lookup q = some m) : NoSooner s₀ t := by
  intro q m m' hm hm' hpos
  rcases h.lookup hm' with hold | hnew
  · rw [Option.some_inj.mp (hm.symm.trans (hs q m' hold))]
  · omega

/-- An Ack keeps the bounds if the sample it gives does. -/
lemma Bounded.deleted (hs : Bounded p s) (hfit : p.Fits64) (seq : UInt32) {m : OutMsg} {now : Time}
    (hsample : m.retransmitted = false → 0 ≤ Go.saturate64 (now - m.firstSent) ∧
      2 * Go.saturate64 (now - m.firstSent) ≤ p.limit) :
    Bounded p (s.deleted seq m now) := by
  refine ⟨GoMap.forall_erase hs.rto seq, fun hh => ?_⟩
  unfold Sender.deleted at hh ⊢
  cases hr : m.retransmitted with
  | true =>
      simp only [hr, Bool.not_true, Bool.or_false] at hh
      exact hs.srtt hh
  | false =>
      simp only [Bool.false_eq_true, if_false]
      split_ifs with hold
      · exact smoothed_bounds hfit (hs.srtt hold) (hsample hr)
      · exact hsample hr

/-- Every round keeps the bounds if the RTT sample it takes does not exceed half the limit. -/
lemma Round.bounded (h : Round p s i k ns t) (hp : 2 ≤ p.maxBackoff) (hfit : p.Fits64)
    (hsample : k = 1 → ∀ pkt clock m, i = .packet pkt clock →
      s.buffer.lookup pkt.seq = some m → m.retransmitted = false →
      0 ≤ Go.saturate64 (clock 0 - m.firstSent) ∧
        2 * Go.saturate64 (clock 0 - m.firstSent) ≤ p.limit) (hs : Bounded p s) : Bounded p t := by
  cases h with
  | quiet => exact hs
  | write h => exact h.bounded hp hfit ⟨hs.rto, hs.srtt⟩
  | acked _ hm h => exact h.bounded hp hfit (hs.deleted hfit _ (hsample rfl _ _ _ rfl hm))
  | tick h => exact (h.bounded hfit hs).1
  | close h => exact h.bounded hp hfit hs

/-- No round makes a message wait less. -/
lemma Round.noSooner (h : Round p s i k ns t) (hfit : p.Fits64) (hs : Bounded p s) :
    NoSooner s t := by
  cases h with
  | quiet => exact ((@Resends.done p 0 s).bounded hfit hs).2
  | write h => exact h.noSooner fun _ _ hm => hm
  | @acked _ pkt clock m _ _ hm h =>
      exact h.noSooner fun q m' hq => (GoMap.of_lookup_erase hq).2
  | tick h => exact (h.bounded hfit hs).2
  | close h => exact h.noSooner fun _ _ hm => hm

end Sender

/-! ## Every run -/

/-- The RTT sample this round takes, if any: the time from the first transmission of a message to
its Ack, unless the message was retransmitted in between. -/
def Conn.rttSample (c : Conn) : Input → Option Duration
  | .packet pkt clock =>
    match c.sendBuffer.lookup pkt.seq with
    | none => none
    | some m =>
      if c.hearsAck pkt ∧ m.retransmitted = false then
        some (Go.saturate64 (clock 0 - m.firstSent))
      else none
  | _ => none

/-- This round takes no RTT sample but one between 0 and half of `MaxBackoff` epochs. -/
def Conn.SampleOk (p : Params) (c : Conn) (i : Input) : Prop :=
  ∀ x ∈ c.rttSample i, 0 ≤ x ∧ 2 * x ≤ p.maxBackoff * p.epoch

instance (p : Params) (c : Conn) (i : Input) : Decidable (c.SampleOk p i) :=
  inferInstanceAs (Decidable (∀ x ∈ c.rttSample i, 0 ≤ x ∧ 2 * x ≤ p.maxBackoff * p.epoch))

section Runs

variable {p : Params}

/-- One round of a connection, for a sample of at most half the limit. -/
lemma Conn.step_bounded {c c' : Conn} {i : Input} (h : c.step p i = some c')
    (hp : 2 ≤ p.maxBackoff) (hfit : p.Fits64) (hsample : c.SampleOk p i)
    (hc : Sender.Bounded p c.sender) : Sender.Bounded p c'.sender := by
  refine (Conn.step_round h).bounded hp hfit (fun htaken pkt clock m hi hm hr => ?_) hc
  subst hi
  have hm' : c.sendBuffer.lookup pkt.seq = some m := hm
  have hears : c.hearsAck pkt := by
    by_contra hnot
    simp [Conn.acksTaken, hnot] at htaken
  refine hsample _ ?_
  rw [Conn.rttSample, hm', Option.mem_def]
  exact if_pos ⟨hears, hr⟩

/-- With `MaxBackoff` at least 2, `4 * MaxBackoff` epochs an `int64` number of nanoseconds and every
RTT sample between 0 and half of `MaxBackoff` epochs, every RTO lies between one epoch and
`MaxBackoff` epochs, and no retransmission shortens it. -/
theorem backoff_bounded (hp : 2 ≤ p.maxBackoff) (hfit : 4 * (p.maxBackoff * p.epoch) < 2 ^ 63)
    {id : UInt32} {client : Bool} {is : List Input} {c : Conn}
    (hrun : run (Conn.step p) (newConn id client) is = some c)
    (hsample : Along (Conn.SampleOk p) (Conn.step p) (newConn id client) is) :
    (∀ s m, c.sendBuffer.lookup s = some m →
        p.epoch ≤ m.rto ∧ m.rto ≤ p.maxBackoff * p.epoch) ∧
      ∀ i c', c.step p i = some c' → ∀ s m m', c.sendBuffer.lookup s = some m →
        c'.sendBuffer.lookup s = some m' → 0 < m'.retries → m.rto ≤ m'.rto := by
  have hc : Sender.Bounded p c.sender := by
    refine run_invariant_along (P := fun c : Conn => Sender.Bounded p c.sender)
      (fun c i c' hc hok h => Conn.step_bounded h hp hfit hok hc) ⟨fun q m hm => ?_, fun hh => ?_⟩
      hsample hrun
    · cases hm
    · cases hh
  exact ⟨hc.rto, fun i c' h => (Conn.step_round h).noSooner hfit hc⟩

/-! ## Runs with the default parameters

Ticks come on time, every 20 ms, and the peer is heard in every epoch. -/

/-- `x` milliseconds. -/
def ms (x : ℕ) : Time := x * 1000000

/-- The ticks `k, …, k + n - 1`, each followed by a heartbeat of the peer. -/
def epochs (k n : ℕ) : List Input :=
  (List.range' k n).flatMap fun j =>
    [.tick (ms (20 * j)) seqOrder, .packet ⟨.ack, 1, 0, []⟩ fun _ => ms (20 * j)]

/-- A message is sent 1 ms after tick `k`, and its Ack arrives 1 ms before the tick that follows
the next `n`. -/
def roundTrip (seq : UInt32) (k n : ℕ) : List Input :=
  [.write [7] fun _ => ms (20 * k + 1)] ++ epochs (k + 1) n ++
    [.packet ⟨.ack, 1, seq, []⟩ fun _ => ms (20 * (k + n) + 19)] ++ epochs (k + n + 1) 1

/-- A round trip of 58 ms, and a second message without an Ack. -/
def steadyRun : List Input :=
  roundTrip 1 0 2 ++ [.write [7] fun _ => ms 61] ++ epochs 4 5

/-- A run followed by a tick, from the value of what message `seq` is before and after the tick. -/
lemma exists_run_tick {is : List Input} {now : Time} {seq : UInt32} {m m' : OutMsg}
    (hval : (run (Conn.step .default) (newConn 1 true) is).map (fun c =>
      (c.sendBuffer.lookup seq, (c.step .default (.tick now seqOrder)).map
        fun c' => c'.sendBuffer.lookup seq)) = some (some m, some (some m'))) :
    ∃ c c', run (Conn.step .default) (newConn 1 true) is = some c ∧
      c.step .default (.tick now seqOrder) = some c' ∧
      c.sendBuffer.lookup seq = some m ∧ c'.sendBuffer.lookup seq = some m' := by
  obtain ⟨c, hrun, hc⟩ := Option.map_eq_some_iff.mp hval
  obtain ⟨hm, hc'⟩ := Prod.mk.inj hc
  obtain ⟨c', hstep, hm'⟩ := Option.map_eq_some_iff.mp hc'
  exact ⟨c, c', hrun, hstep, hm, hm'⟩

theorem backoff_bounded_steadyRun :
    ∃ c c' m m', run (Conn.step .default) (newConn 1 true) steadyRun = some c ∧
      c.step .default (.tick (ms 180) seqOrder) = some c' ∧
      c.sendBuffer.lookup 2 = some m ∧ c'.sendBuffer.lookup 2 = some m' ∧ 0 < m'.retries ∧
      Params.default.epoch ≤ m.rto ∧ m.rto ≤ m'.rto := by
  have hval : (run (Conn.step .default) (newConn 1 true) steadyRun).map (fun c =>
      (c.sendBuffer.lookup 2, (c.step .default (.tick (ms 180) seqOrder)).map
        fun c' => c'.sendBuffer.lookup 2)) =
      some (some ⟨[7], ms 61, ms 61, ms 116, 0, false⟩,
        some (some ⟨[7], ms 61, ms 180, ms 160, 1, true⟩)) := by
    decide +kernel
  obtain ⟨c, c', hrun, hstep, hm, hm'⟩ := exists_run_tick hval
  obtain ⟨hbounds, hslower⟩ := backoff_bounded (by decide) (by decide) hrun (by decide +kernel)
  exact ⟨c, c', _, _, hrun, hstep, hm, hm', by decide, (hbounds 2 _ hm).1,
    hslower _ c' hstep 2 _ _ hm hm' (by decide)⟩

/-- Round trips of 58, 118, 138 and 158 ms, each a little shorter than the RTO lets a tick notice,
and a fifth message without an Ack. -/
def slowRun : List Input :=
  roundTrip 1 0 2 ++ roundTrip 2 3 5 ++ roundTrip 3 9 6 ++ roundTrip 4 16 7 ++
    [.write [7] fun _ => ms 481] ++ epochs 25 8

/-- The fifth message starts with an RTO of almost 170 ms, which is above the documented 8 epochs of
20 ms, and its first retransmission shortens it to them. -/
theorem slowRun_speeds_up :
    ∃ c c' m m', run (Conn.step .default) (newConn 1 true) slowRun = some c ∧
      c.step .default (.tick (ms 660) seqOrder) = some c' ∧
      c.sendBuffer.lookup 5 = some m ∧ c'.sendBuffer.lookup 5 = some m' ∧ 0 < m'.retries ∧
      Params.default.maxBackoff * Params.default.epoch < m.rto ∧ m'.rto < m.rto := by
  have hval : (run (Conn.step .default) (newConn 1 true) slowRun).map (fun c =>
      (c.sendBuffer.lookup 5, (c.step .default (.tick (ms 660) seqOrder)).map
        fun c' => c'.sendBuffer.lookup 5)) =
      some (some ⟨[7], ms 481, ms 481, 169984374, 0, false⟩,
        some (some ⟨[7], ms 481, ms 660, ms 160, 1, true⟩)) := by
    decide +kernel
  obtain ⟨c, c', hrun, hstep, hm, hm'⟩ := exists_run_tick hval
  exact ⟨c, c', _, _, hrun, hstep, hm, hm', by decide, by decide, by decide⟩

end Runs

end RudpScheduler.Rudp
