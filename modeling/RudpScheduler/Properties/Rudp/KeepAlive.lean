import RudpScheduler.Construction.Rudp.ServerSteps

/-!
# Keeping a connection alive

A connection is declared lost after `EpochLimit` epochs in which nothing has come from its peer, and
it sends something in every epoch of its own.  `silence` counts the epochs since the last packet of
the connection, from the inputs alone.

`lost_iff_silent` is the failure detector: as long as the connection's goroutine runs, no
`EpochLimit` epochs have passed in silence, and a tick ends it exactly when it is the one that
completes them.  `speaks_every_epoch` is the other half: between any two ticks of a running
connection something was sent, and a heartbeat exactly when nothing else was.
`counts_every_packet` says what the counters of `ConnStats` count.

What a round does to the variables involved is `Speaks`: everything but a tick and the arrival of
a packet leaves `epochsSilent` alone, and `sentThisEpoch` is set by whatever is sent.
-/

namespace RudpScheduler.Rudp

/-- The Data packets among those sent. -/
def dataCount (sent : List Packet) : ℕ := sent.countP (·.typ = .data)

/-- The Acks among those sent. -/
def ackCount (sent : List Packet) : ℕ := sent.countP (·.typ = .ack)

namespace Conn

variable {p : Params} {c c' c'' : Conn}

/-- The peer has been declared lost. -/
def ReportsLost (c : Conn) : Prop := Delivery.err .lost ∈ c.returned ++ c.deliverQ

/-- From `c` to `c'` packets were sent and counted, and no epoch has passed. -/
structure Speaks (c c' : Conn) : Prop where
  silent : c'.epochsSilent = c.epochsSilent
  lost : c'.ReportsLost → c.ReportsLost
  sent : ∃ out, c'.sent = c.sent ++ out ∧
    c'.sentThisEpoch = (c.sentThisEpoch || !out.isEmpty) ∧
    c'.stats.dataSent + c'.stats.retransmits =
      c.stats.dataSent + c.stats.retransmits + dataCount out ∧
    c'.stats.acksSent + c'.stats.heartbeats =
      c.stats.acksSent + c.stats.heartbeats + ackCount out

/-- Nothing was sent. -/
lemma Speaks.of_eq (h1 : c'.epochsSilent = c.epochsSilent) (h2 : c'.sent = c.sent)
    (h3 : c'.sentThisEpoch = c.sentThisEpoch)
    (h4 : { c'.stats with dataReceived := 0 } = { c.stats with dataReceived := 0 })
    (h5 : c'.ReportsLost → c.ReportsLost) : Speaks c c' := by
  obtain ⟨hd, hr, -, ha, hb⟩ := ConnStats.mk.inj h4
  refine ⟨h1, h5, [], by simp [h2], by simp [h3], ?_, ?_⟩
  · simp [hd, hr, dataCount]
  · simp [ha, hb, ackCount]

/-- Nothing but other variables changed. -/
lemma Speaks.still (h : (c'.epochsSilent, c'.sent, c'.sentThisEpoch, c'.stats, c'.returned,
    c'.deliverQ) = (c.epochsSilent, c.sent, c.sentThisEpoch, c.stats, c.returned, c.deliverQ)) :
    Speaks c c' := by
  simp only [Prod.mk.injEq] at h
  obtain ⟨h1, h2, h3, h4, h5, h6⟩ := h
  exact .of_eq h1 h2 h3 (by rw [h4]) (by rw [ReportsLost, ReportsLost, h5, h6]; exact fun h => h)

lemma Speaks.refl (c : Conn) : Speaks c c := .still rfl

lemma Speaks.trans (h : Speaks c c') (h' : Speaks c' c'') : Speaks c c'' := by
  obtain ⟨out, hs, hf, hd, ha⟩ := h.sent
  obtain ⟨out', hs', hf', hd', ha'⟩ := h'.sent
  refine ⟨h'.silent.trans h.silent, h.lost ∘ h'.lost, out ++ out', ?_, ?_, ?_, ?_⟩
  · rw [hs', hs, List.append_assoc]
  · rw [hf', hf]
    cases out <;> simp
  · rw [hd', hd, dataCount, dataCount, dataCount, List.countP_append]
    omega
  · rw [ha', ha, ackCount, ackCount, ackCount, List.countP_append]
    omega

lemma sendAck_speaks (c : Conn) (seq : UInt32) : Speaks c (c.sendAck seq) := by
  refine ⟨rfl, fun h => h, [⟨.ack, c.id, seq, []⟩], rfl, by simp [sendAck, send], rfl, ?_⟩
  simp only [sendAck, send, ackCount, List.countP_singleton, if_true, decide_true]
  omega

lemma sendClose_speaks (c : Conn) : Speaks c (c.send .close 0 []) :=
  ⟨rfl, fun h => h, [⟨.close, c.id, 0, []⟩], rfl, by simp [send], rfl, rfl⟩

lemma sendFirst_speaks (c : Conn) (d : Payload) (now : Time) : Speaks c (c.sendFirst p d now) := by
  refine ⟨rfl, fun h => h, [⟨.data, c.id, c.nextSeq + 1, d⟩], rfl, by simp [sendFirst, send], ?_,
    rfl⟩
  simp only [sendFirst, send, dataCount, List.countP_singleton, if_true, decide_true]
  omega

lemma fillFrom_speaks (clock : ℕ → Time) (k : ℕ) (pending : List Payload) (c : Conn) :
    Speaks c (c.fillFrom p clock k pending) := by
  induction pending generalizing k c with
  | nil => exact .still rfl
  | cons d pending ih =>
      unfold fillFrom
      split_ifs
      · exact (sendFirst_speaks c d (clock k)).trans (ih _ _)
      · exact .still rfl

lemma fillWindow_speaks (clock : ℕ → Time) (c : Conn) : Speaks c (c.fillWindow p clock) :=
  fillFrom_speaks clock 0 c.pendingWrites c

/-- A message is left alone, or it is sent again, whatever its entry becomes. -/
lemma retransmitOne_eq_or (now : Time) (c : Conn) (seq : UInt32) :
    c.retransmitOne p now seq = c ∨ ∃ (m m' : OutMsg),
      c.retransmitOne p now seq =
        { ({ c with sendBuffer := c.sendBuffer.insert seq m' }.send .data seq m.payload) with
          stats := { c.stats with retransmits := c.stats.retransmits + 1 } } := by
  unfold retransmitOne
  cases c.sendBuffer.lookup seq with
  | none => exact .inl rfl
  | some m =>
      dsimp only
      by_cases hdue : Go.saturate64 (now - m.lastSent) < m.rto
      · rw [if_pos hdue]
        exact .inl rfl
      · rw [if_neg hdue]
        exact .inr ⟨m, _, rfl⟩

lemma retransmitOne_speaks (now : Time) (c : Conn) (seq : UInt32) :
    Speaks c (c.retransmitOne p now seq) := by
  rcases retransmitOne_eq_or (p := p) now c seq with h | ⟨m, m', h⟩
  · rw [h]
    exact .refl c
  · rw [h]
    refine ⟨rfl, fun h => h, [⟨.data, c.id, seq, m.payload⟩], rfl, by simp [send], ?_, rfl⟩
    simp only [dataCount, List.countP_singleton, if_true, decide_true]
    omega

lemma retransmitExpired_speaks (now : Time) (ord : RangeOrder UInt32) (c : Conn) :
    Speaks c (c.retransmitExpired p now ord) :=
  (ord.range c.sendBuffer).foldlRecOn (motive := Speaks c) _ (.refl c) fun c' hc' seq _ =>
    hc'.trans (retransmitOne_speaks now c' seq)

/-- From `c` to `r` nothing but Data packets were sent. -/
def SendsData (c r : Conn) : Prop :=
  r.id = c.id ∧ ∃ out, r.sent = c.sent ++ out ∧ ∀ pkt ∈ out, pkt.typ = .data

lemma SendsData.refl (c : Conn) : SendsData c c := ⟨rfl, [], by simp⟩

lemma SendsData.trans (h : SendsData c c') (h' : SendsData c' c'') : SendsData c c'' := by
  obtain ⟨hid, out, hs, hd⟩ := h
  obtain ⟨hid', out', hs', hd'⟩ := h'
  refine ⟨hid'.trans hid, out ++ out', ?_, fun pkt hpkt => ?_⟩
  · rw [hs', hs, List.append_assoc]
  · exact (List.mem_append.mp hpkt).elim (hd pkt) (hd' pkt)

lemma retransmitOne_sendsData (now : Time) (c : Conn) (seq : UInt32) :
    SendsData c (c.retransmitOne p now seq) := by
  rcases retransmitOne_eq_or (p := p) now c seq with h | ⟨m, m', h⟩
  · rw [h]
    exact .refl c
  · rw [h]
    exact ⟨rfl, [⟨.data, c.id, seq, m.payload⟩], rfl, by simp⟩

lemma retransmitExpired_sendsData (now : Time) (ord : RangeOrder UInt32) (c : Conn) :
    SendsData c (c.retransmitExpired p now ord) :=
  (ord.range c.sendBuffer).foldlRecOn (motive := SendsData c) _ (.refl c) fun c' hc' seq _ =>
    hc'.trans (retransmitOne_sendsData now c' seq)

lemma onAck_speaks (clock : ℕ → Time) (c : Conn) (seq : UInt32) :
    Speaks c (c.onAck p clock seq) := by
  unfold onAck
  split
  · exact .refl c
  · refine Speaks.trans ?_ (fillWindow_speaks _ _)
    unfold sampleRTT
    split_ifs <;> exact .still rfl

lemma accept_speaks (c : Conn) (seq : UInt32) (d : Payload) : Speaks c (c.accept p seq d) := by
  unfold accept acceptOrdered
  dsimp only
  split_ifs
  · exact .still rfl
  · rw [release_eq]
    exact .of_eq rfl rfl rfl rfl (by simp [ReportsLost])
  · exact .of_eq rfl rfl rfl rfl (by simp [ReportsLost, deliver])

lemma checkFlushed_speaks (c : Conn) : Speaks c c.checkFlushed := by
  unfold checkFlushed
  split_ifs
  · exact .refl c
  · exact (sendClose_speaks c).trans (.still rfl)

/-! ## Rounds -/

lemma onPacket_speaks (clock : ℕ → Time) (c : Conn) (pkt : Packet) :
    Speaks (if pkt.connID = c.id then { c with epochsSilent := 0 } else c)
      (c.onPacket p clock pkt) := by
  unfold onPacket
  by_cases hid : pkt.connID = c.id
  · simp only [hid, ne_eq, not_true_eq_false, if_false, if_true]
    split
    · exact onAck_speaks _ _ _
    · split_ifs
      · exact .refl _
      · refine Speaks.trans ?_ (sendAck_speaks _ _)
        refine Speaks.trans ?_ (accept_speaks _ _ _)
        exact .of_eq rfl rfl rfl rfl fun h => h
    · exact .of_eq rfl rfl rfl rfl (by simp [ReportsLost, beginDrain])
    · exact .refl _
  · simp only [hid, ne_eq, not_false_eq_true, if_true, if_false]
    exact .refl c

lemma onPacketFlushing_speaks (clock : ℕ → Time) (c : Conn) (pkt : Packet) :
    Speaks (if pkt.connID = c.id then { c with epochsSilent := 0 } else c)
      (c.onPacketFlushing p clock pkt) := by
  unfold onPacketFlushing
  by_cases hid : pkt.connID = c.id
  · simp only [hid, ne_eq, not_true_eq_false, if_false, if_true]
    split
    · exact (onAck_speaks _ _ _).trans (checkFlushed_speaks _)
    · exact sendAck_speaks _ _
    · exact .still rfl
    · exact .refl _
  · simp only [hid, ne_eq, not_false_eq_true, if_true, if_false]
    exact .refl c

/-- The connection after the arrival of a packet, before anything is done with it. -/
def heard (c : Conn) : Input → Conn
  | .packet pkt _ => if pkt.connID = c.id then { c with epochsSilent := 0 } else c
  | _ => c

/-- Every round but a tick. -/
lemma step_speaks {i : Input} (h : c.step p i = some c') (hi : ∀ now ord, i ≠ .tick now ord) :
    Speaks (c.heard i) c' := by
  cases i with
  | packet pkt clock =>
      simp only [step] at h
      split at h
      · exact Option.some_inj.mp h ▸ onPacket_speaks clock c pkt
      · exact Option.some_inj.mp h ▸ onPacketFlushing_speaks clock c pkt
      · cases h
  | write data clock =>
      simp only [step] at h
      split at h
      · split_ifs at h
        rw [← Option.some_inj.mp h]
        refine Speaks.trans ?_ (fillWindow_speaks clock _)
        exact .still rfl
      · exact Option.some_inj.mp h ▸ .refl c
      · cases h
  | read =>
      have hhand : c.handOver = some c' → Speaks c c' := by
        intro h
        unfold handOver at h
        split at h
        · cases h
        · rename_i d rest hq
          rw [← Option.some_inj.mp h]
          exact .of_eq rfl rfl rfl rfl (by simp [ReportsLost, hq])
      simp only [step] at h
      split at h
      · exact hhand h
      · exact hhand h
      · split_ifs at h
        rw [← Option.some_inj.mp h]
        exact .of_eq rfl rfl rfl rfl (by simp [ReportsLost, heard])
      · cases h
  | tick now ord => exact absurd rfl (hi now ord)
  | close clock =>
      simp only [step] at h
      split at h
      · rw [← Option.some_inj.mp h]
        refine Speaks.trans (Speaks.trans ?_ (fillWindow_speaks clock _)) (checkFlushed_speaks _)
        exact .still rfl
      · rw [← Option.some_inj.mp h]
        exact .still rfl
      · cases h
  | stop =>
      simp only [step] at h
      split at h
      · rw [← Option.some_inj.mp h]
        exact .still rfl
      · cases h

/-- The heartbeat of a tick that has retransmitted `resent`, if there is one. -/
def beat (c : Conn) (resent : List Packet) : List Packet :=
  if c.sentThisEpoch || !resent.isEmpty then [] else [⟨.ack, c.id, 0, []⟩]

/-- An epoch has passed: messages were sent again, then a heartbeat if nothing had been sent, and
the flag is down again. -/
structure EpochEnds (c c' : Conn) : Prop where
  silent : c'.epochsSilent = c.epochsSilent + 1
  flag : c'.sentThisEpoch = false
  sent : ∃ resent, (∀ pkt ∈ resent, pkt.typ = .data) ∧
    c'.sent = c.sent ++ (resent ++ c.beat resent) ∧
    c'.stats.dataSent + c'.stats.retransmits =
      c.stats.dataSent + c.stats.retransmits + dataCount (resent ++ c.beat resent) ∧
    c'.stats.acksSent + c'.stats.heartbeats =
      c.stats.acksSent + c.stats.heartbeats + ackCount (resent ++ c.beat resent)

/-- The common part of both tick cases. -/
lemma tickCommon_ends (now : Time) (ord : RangeOrder UInt32) (c : Conn) :
    EpochEnds c (c.tickCommon p now ord) ∧
      ((c.tickCommon p now ord).ReportsLost → c.ReportsLost) := by
  have hr := retransmitExpired_speaks (p := p) now ord c
  obtain ⟨hid, resent, hs, hdata⟩ := retransmitExpired_sendsData (p := p) now ord c
  obtain ⟨out, hs', hf, hd, ha⟩ := hr.sent
  obtain rfl : out = resent := List.append_cancel_left (hs'.symm.trans hs)
  have hsilent := hr.silent
  have hlost := hr.lost
  unfold tickCommon
  generalize c.retransmitExpired p now ord = r at hs hf hd ha hid hsilent hlost
  unfold heartbeat
  by_cases hflag : r.sentThisEpoch = true
  · have hbeat : c.beat out = [] := by
      rw [beat, ← hf, hflag]
      rfl
    simp only [hflag, Bool.not_true, Bool.false_eq_true, if_false]
    refine ⟨⟨by simp [hsilent], rfl, out, hdata, ?_⟩, hlost⟩
    rw [hbeat, List.append_nil]
    exact ⟨hs, hd, ha⟩
  · have hbeat : c.beat out = [⟨.ack, r.id, 0, []⟩] := by
      rw [beat, ← hf, Bool.eq_false_iff.mpr hflag, hid]
      rfl
    simp only [hflag, Bool.not_false, if_true]
    refine ⟨⟨by simp [hsilent, send], rfl, out, hdata, ?_, ?_, ?_⟩, hlost⟩
    · simp [send, hs, hbeat]
    · simpa [send, dataCount, hbeat] using hd
    · simp only [send, hbeat, ackCount, List.countP_append, List.countP_singleton, decide_true,
        if_true] at ha ⊢
      omega

/-- A tick: the epoch ends, and so does the connection if it has been silent for too long. -/
lemma step_tick {now : Time} {ord : RangeOrder UInt32} (h : c.step p (.tick now ord) = some c') :
    EpochEnds c c' ∧ c.phase.beforeDead = true ∧
      (c'.phase.beforeDead = false ↔ p.epochLimit ≤ c.epochsSilent + 1) ∧
      (c'.ReportsLost → c.ReportsLost ∨ c'.phase.beforeDead = false) := by
  obtain ⟨hends, hlost⟩ := tickCommon_ends (p := p) now ord c
  have hsilent := hends.silent
  have hphase := (tickCommon_frame (p := p) now ord c).1
  simp only [step] at h
  split at h
  · rename_i hp
    rw [Option.some_inj, onTick] at h
    split_ifs at h with hle <;> rw [hsilent] at hle
    · subst h
      refine ⟨{ hends with }, by rw [hp]; rfl, ?_, fun _ => .inr rfl⟩
      simp [beginDrain, Phase.beforeDead, hle]
    · subst h
      refine ⟨hends, by rw [hp]; rfl, ?_, fun h => .inl (hlost h)⟩
      simp [hphase, hp, Phase.beforeDead, hle]
  · rename_i hp
    rw [Option.some_inj, onTickFlushing] at h
    split_ifs at h with hle <;> rw [hsilent] at hle
    · subst h
      refine ⟨{ hends with }, by rw [hp]; rfl, ?_, fun h => .inl (hlost h)⟩
      simp [Phase.beforeDead, hle]
    · subst h
      refine ⟨hends, by rw [hp]; rfl, ?_, fun h => .inl (hlost h)⟩
      simp [hphase, hp, Phase.beforeDead, hle]
  · cases h

end Conn

/-! ## Silence -/

/-- The epochs of silence after one more input. -/
def silenceAfter (id : UInt32) (n : ℕ) : Input → ℕ
  | .packet pkt _ => if pkt.connID = id then 0 else n
  | .tick _ _ => n + 1
  | _ => n

/-- How many epochs have passed since the last packet of connection `id`. -/
def silence (id : UInt32) (is : List Input) : ℕ := is.foldl (silenceAfter id) 0

lemma silence_append (id : UInt32) (is : List Input) (i : Input) :
    silence id (is ++ [i]) = silenceAfter id (silence id is) i := by
  rw [silence, List.foldl_append]
  rfl

namespace Conn

variable {p : Params} {c c' : Conn} {i : Input}

/-- `epochsSilent` is that number. -/
lemma step_silent (h : c.step p i = some c') :
    c'.epochsSilent = silenceAfter c.id c.epochsSilent i := by
  cases i with
  | tick now ord => exact (step_tick h).1.silent
  | packet pkt clock =>
      rw [(step_speaks h (by simp)).silent, heard, silenceAfter]
      split_ifs <;> rfl
  | _ => exact (step_speaks h (by simp)).silent

/-- What holds along every run: `epochsSilent` is the number of silent epochs, and a connection that
runs has not reached the limit. -/
structure Listens (p : Params) (id : UInt32) (is : List Input) (c : Conn) : Prop where
  id_eq : c.id = id
  silent : c.epochsSilent = silence id is
  limit : c.phase.beforeDead = true → silence id is < p.epochLimit
  /-- The peer is declared lost by the tick that completes the silence. -/
  lost : c.ReportsLost → ∃ pre now ord post, is = pre ++ .tick now ord :: post ∧
    silence id (pre ++ [.tick now ord]) = p.epochLimit

lemma Listens.step {id : UInt32} {is : List Input} (hc : Listens p id is c)
    (h : c.step p i = some c') : Listens p id (is ++ [i]) c' := by
  have hsilent : c'.epochsSilent = silence id (is ++ [i]) := by
    rw [step_silent h, silence_append, hc.id_eq, hc.silent]
  have hbefore : c'.phase.beforeDead = true → c.phase.beforeDead = true := fun hb => by
    by_contra hne
    rw [step_beforeDead h (Bool.eq_false_iff.mpr hne)] at hb
    cases hb
  refine ⟨(step_id h).trans hc.id_eq, hsilent, fun hb => ?_, fun hl => ?_⟩
  · have hlim := hc.limit (hbefore hb)
    rw [silence_append]
    cases i with
    | tick now ord =>
        obtain ⟨-, -, hiff, -⟩ := step_tick h
        have hlt := mt hiff.mpr (by simp [hb])
        rw [hc.silent] at hlt
        exact Nat.lt_of_not_le hlt
    | packet pkt clock =>
        rw [silenceAfter]
        split_ifs
        · exact p.epochLimit_pos
        · exact hlim
    | _ => exact hlim
  · have hold : c.ReportsLost → ∃ pre now ord post, is ++ [i] = pre ++ .tick now ord :: post ∧
        silence id (pre ++ [.tick now ord]) = p.epochLimit := fun hl => by
      obtain ⟨pre, now, ord, post, rfl, hs⟩ := hc.lost hl
      exact ⟨pre, now, ord, post ++ [i], by simp, hs⟩
    cases i with
    | tick now ord =>
        obtain ⟨-, hb, hiff, hl'⟩ := step_tick h
        rcases hl' hl with hl | hdead
        · exact hold hl
        · -- this tick completes the silence, and there was less before it
          have hle := hiff.mp hdead
          have hlim := hc.limit hb
          rw [hc.silent] at hle
          refine ⟨is, now, ord, [], rfl, ?_⟩
          rw [silence_append, silenceAfter]
          omega
    | packet pkt clock =>
        refine hold ?_
        have hl' := (step_speaks h (by simp)).lost hl
        rw [heard] at hl'
        split_ifs at hl'
        · exact hl'
        · exact hl'
    | _ => exact hold ((step_speaks h (by simp)).lost hl)

/-- After every run. -/
lemma run_listens {id : UInt32} {client : Bool} {is : List Input}
    (hrun : run (Conn.step p) (newConn id client) is = some c) : Listens p id is c := by
  refine run_history ?_ (fun _ _ _ _ hc h => hc.step h) hrun
  exact ⟨rfl, rfl, fun _ => p.epochLimit_pos, fun h => by simp [ReportsLost, newConn] at h⟩

/-- The packets of `sent` are the ones counted. -/
def Counted (c : Conn) : Prop :=
  c.stats.dataSent + c.stats.retransmits = dataCount c.sent ∧
    c.stats.acksSent + c.stats.heartbeats = ackCount c.sent

lemma Counted.append {out : List Packet} (hc : c.Counted) (hs : c'.sent = c.sent ++ out)
    (hd : c'.stats.dataSent + c'.stats.retransmits =
      c.stats.dataSent + c.stats.retransmits + dataCount out)
    (ha : c'.stats.acksSent + c'.stats.heartbeats =
      c.stats.acksSent + c.stats.heartbeats + ackCount out) : c'.Counted := by
  refine ⟨?_, ?_⟩
  · rw [hd, hc.1, hs, dataCount, dataCount, dataCount, List.countP_append]
  · rw [ha, hc.2, hs, ackCount, ackCount, ackCount, List.countP_append]

/-- What a round sends, it counts. -/
lemma Counted.step (hc : c.Counted) (h : c.step p i = some c') : c'.Counted := by
  have hheard : (c.heard i).Counted := by
    unfold heard
    split
    · split_ifs
      · exact hc
      · exact hc
    · exact hc
  by_cases hi : ∃ now ord, i = .tick now ord
  · obtain ⟨now, ord, rfl⟩ := hi
    obtain ⟨resent, -, hs, hd, ha⟩ := (step_tick h).1.sent
    exact hc.append hs hd ha
  · obtain ⟨out, hs, -, hd, ha⟩ := (step_speaks h fun now ord he => hi ⟨now, ord, he⟩).sent
    exact hheard.append hs hd ha

end Conn

/-! ## The results -/

section Results

variable {p : Params} {id : UInt32} {client : Bool} {is : List Input} {c : Conn}

/-- **The failure detector.**  After every run of a connection's goroutine: as long as it has not
left its loops, fewer than `EpochLimit` epochs have passed since the last packet of the connection;
a tick ends it exactly when it is the one that completes `EpochLimit` silent epochs; and if `Read`
has reported the peer lost, or will, there was such a tick. -/
theorem lost_iff_silent (hrun : run (Conn.step p) (newConn id client) is = some c) :
    (c.phase.beforeDead = true → silence id is < p.epochLimit) ∧
      (∀ now ord c', c.step p (.tick now ord) = some c' →
        (c'.phase.beforeDead = false ↔ silence id (is ++ [.tick now ord]) = p.epochLimit)) ∧
      (Delivery.err .lost ∈ c.returned ++ c.deliverQ → ∃ pre now ord post,
        is = pre ++ .tick now ord :: post ∧
          silence id (pre ++ [.tick now ord]) = p.epochLimit) := by
  have hc := Conn.run_listens hrun
  refine ⟨hc.limit, fun now ord c' h => ?_, hc.lost⟩
  obtain ⟨-, hb, hiff, -⟩ := Conn.step_tick h
  have hlim := hc.limit hb
  rw [hiff, hc.silent, silence_append, silenceAfter]
  omega

/-- The fifth silent epoch in a row ends a connection with the default limit. -/
theorem lost_iff_silent_fifth :
    ∃ c c', run (Conn.step Params.default) (newConn 1 true)
        (List.replicate 4 (.tick 0 seqOrder)) = some c ∧
      c.step Params.default (.tick 0 seqOrder) = some c' ∧ c'.phase.beforeDead = false := by
  have hrun : ∃ c', run (Conn.step Params.default) (newConn 1 true)
      (List.replicate 4 (.tick 0 seqOrder) ++ [Input.tick 0 seqOrder]) = some c' := ⟨_, rfl⟩
  obtain ⟨c', hrun⟩ := hrun
  rw [run_append] at hrun
  obtain ⟨c, hc, hrun⟩ := Option.bind_eq_some_iff.mp hrun
  obtain ⟨v, hv, hrun⟩ := run_cons_eq_some.mp hrun
  exact ⟨c, v, hc, hv, ((lost_iff_silent hc).2.1 0 seqOrder v hv).mpr (by decide +kernel)⟩

/-- No tick among the inputs. -/
def NoTick (is : List Input) : Prop := ∀ now ord, Input.tick now ord ∉ is

/-- Between two ticks the flag goes up with the first packet that is sent. -/
lemma run_flag {mid : List Input} (hmid : NoTick mid) {c₁ c₂ : Conn}
    (hrun : run (Conn.step p) c₁ mid = some c₂) :
    ∃ out, c₂.sent = c₁.sent ++ out ∧ c₂.sentThisEpoch = (c₁.sentThisEpoch || !out.isEmpty) ∧
      c₂.id = c₁.id := by
  induction mid generalizing c₁ with
  | nil =>
      obtain rfl := Option.some_inj.mp hrun
      exact ⟨[], by simp⟩
  | cons i mid ih =>
      obtain ⟨u, hu, hrun⟩ := run_cons_eq_some.mp hrun
      have hi : ∀ now ord, i ≠ .tick now ord := fun now ord he =>
        hmid now ord (he ▸ List.mem_cons_self)
      have hframe : (c₁.heard i).sent = c₁.sent ∧
          (c₁.heard i).sentThisEpoch = c₁.sentThisEpoch := by
        unfold Conn.heard
        split
        · split_ifs <;> exact ⟨rfl, rfl⟩
        · exact ⟨rfl, rfl⟩
      obtain ⟨out, hs, hflag, -⟩ := (Conn.step_speaks hu hi).sent
      obtain ⟨out', hs', hflag', hid⟩ :=
        ih (fun now ord hmem => hmid now ord (List.mem_cons_of_mem i hmem)) hrun
      refine ⟨out ++ out', ?_, ?_, hid.trans (Conn.step_id hu)⟩
      · rw [hs', hs, hframe.1, List.append_assoc]
      · rw [hflag', hflag, hframe.2]
        cases out <;> simp

/-- **Something is sent in every epoch.**  Of a running connection, between two consecutive ticks or
between its start and its first tick: let `between` be what was sent before the later tick.  That
tick sends messages again, and then a heartbeat exactly when neither they nor `between` are
anything; so at least one packet is sent in every epoch. -/
theorem speaks_every_epoch {before mid : List Input} {now : Time} {ord : RangeOrder UInt32}
    {c₁ c₂ : Conn} (hbefore : before = [] ∨ ∃ pre now ord, before = pre ++ [.tick now ord])
    (hmid : NoTick mid) (h₁ : run (Conn.step p) (newConn id client) before = some c₁)
    (h₂ : run (Conn.step p) c₁ (mid ++ [.tick now ord]) = some c₂) :
    ∃ between resent, (run (Conn.step p) c₁ mid).map Conn.sent = some (c₁.sent ++ between) ∧
      (∀ pkt ∈ resent, pkt.typ = .data) ∧
      c₂.sent = c₁.sent ++ between ++ resent ++
        (if between = [] ∧ resent = [] then [⟨.ack, id, 0, []⟩] else []) ∧
      c₁.sent.length < c₂.sent.length := by
  -- the flag is down at the beginning of the epoch
  have hdown : c₁.sentThisEpoch = false := by
    rcases hbefore with rfl | ⟨pre, now, ord, rfl⟩
    · obtain rfl := Option.some_inj.mp h₁
      rfl
    · rw [run_append] at h₁
      obtain ⟨u, hu, h₁⟩ := Option.bind_eq_some_iff.mp h₁
      obtain ⟨v, hv, h₁⟩ := run_cons_eq_some.mp h₁
      obtain rfl := Option.some_inj.mp h₁
      exact (Conn.step_tick hv).1.flag
  rw [run_append] at h₂
  obtain ⟨u, hu, h₂⟩ := Option.bind_eq_some_iff.mp h₂
  obtain ⟨v, hv, h₂⟩ := run_cons_eq_some.mp h₂
  obtain rfl := Option.some_inj.mp h₂
  obtain ⟨between, hsent, hflag, hid⟩ := run_flag hmid hu
  rw [hdown, Bool.false_or] at hflag
  obtain ⟨resent, hdata, hs, -⟩ := (Conn.step_tick hv).1.sent
  have hbeat : u.beat resent =
      if between = [] ∧ resent = [] then [⟨.ack, id, 0, []⟩] else [] := by
    rw [Conn.beat, hflag, hid, (Conn.run_listens h₁).id_eq]
    cases between <;> cases resent <;> simp
  refine ⟨between, resent, by rw [hu, Option.map_some, hsent], hdata, ?_, ?_⟩
  · rw [hs, hsent, hbeat]
    simp only [List.append_assoc]
  · rw [hs, hsent, hbeat]
    cases between <;> cases resent <;> simp

/-- A message is sent in the first epoch and nothing in the second, which ends with a heartbeat. -/
theorem speaks_every_epoch_idle :
    ∃ c c', run (Conn.step Params.default) (newConn 1 true)
        [.write [7] fun _ => 0, .tick 0 seqOrder] = some c ∧
      run (Conn.step Params.default) c [.tick 0 seqOrder] = some c' ∧
      c.sent = [⟨.data, 1, 1, [7]⟩] ∧ c.sent.length < c'.sent.length ∧
      c'.sent = c.sent ++ [⟨.ack, 1, 0, []⟩] := by
  have hval : (run (Conn.step Params.default) (newConn 1 true)
      [.write [7] fun _ => 0, .tick 0 seqOrder]).map (fun c =>
        (c.sent, (run (Conn.step Params.default) c [.tick 0 seqOrder]).map Conn.sent)) =
      some ([⟨.data, 1, 1, [7]⟩], some [⟨.data, 1, 1, [7]⟩, ⟨.ack, 1, 0, []⟩]) := by
    decide +kernel
  obtain ⟨c, hc, hval⟩ := Option.map_eq_some_iff.mp hval
  obtain ⟨hsent, hval⟩ := Prod.mk.inj hval
  obtain ⟨c', hc', hsent'⟩ := Option.map_eq_some_iff.mp hval
  have hmid : NoTick [] := fun _ _ h => by cases h
  obtain ⟨-, -, -, -, -, hlt⟩ := speaks_every_epoch
    (.inr ⟨[.write [7] fun _ => 0], 0, seqOrder, rfl⟩) hmid hc hc'
  exact ⟨c, c', hc, hc', hsent, hlt, by rw [hsent', hsent]; rfl⟩

/-- **The counters count packets.**  After every run, `DataSent` and `Retransmits` together are the
Data packets given to the socket, and `AcksSent` and `Heartbeats` together the Acks. -/
theorem counts_every_packet (hrun : run (Conn.step p) (newConn id client) is = some c) :
    c.stats.dataSent + c.stats.retransmits = dataCount c.sent ∧
      c.stats.acksSent + c.stats.heartbeats = ackCount c.sent :=
  run_invariant (P := Conn.Counted) (fun _ _ _ hc h => hc.step h) ⟨rfl, rfl⟩ hrun

/-- A message, and an idle epoch after the one it was sent in. -/
theorem counts_every_packet_idle :
    ∃ c, run (Conn.step Params.default) (newConn 1 true)
        [.write [7] fun _ => 0, .tick 0 seqOrder, .tick 0 seqOrder] = some c ∧
      c.stats.dataSent + c.stats.retransmits = dataCount c.sent ∧
      c.stats.acksSent + c.stats.heartbeats = ackCount c.sent := by
  have hrun : ∃ c, run (Conn.step Params.default) (newConn 1 true)
      [.write [7] fun _ => 0, .tick 0 seqOrder, .tick 0 seqOrder] = some c := ⟨_, rfl⟩
  obtain ⟨c, hrun⟩ := hrun
  exact ⟨c, hrun, counts_every_packet hrun⟩

end Results

end RudpScheduler.Rudp
