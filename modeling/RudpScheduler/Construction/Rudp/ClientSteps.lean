import RudpScheduler.Construction.Rudp.Client
import RudpScheduler.Construction.Rudp.ServerSteps

/-!
# What a step of a client can do

`Client.Move` lists what one step of a client can do when it does not panic, with the guards the
code checks, and `Client.step_move` says that there is nothing else.  During the handshake no step
touches the connection, but for the ID it is told.
-/

namespace RudpScheduler.Rudp

namespace Client

variable {Addr : Type}

/-- What one step of a client does when it does not panic. -/
inductive Move (p : Params) : Client Addr → ClientAction → Client Addr → Prop
  | ignored {c bytes} (hloop : c.loop = .reading) (hopen : c.sockClosed = false)
      (hb : receive bytes = .ok none) : Move p c (.datagram bytes) c
  | parsed {c bytes pkt} (hloop : c.loop = .reading) (hopen : c.sockClosed = false)
      (hb : receive bytes = .ok (some pkt)) :
      Move p c (.datagram bytes) { c with loop := .handing pkt }
  | readError {c} (hloop : c.loop = .reading) : Move p c .readError { c with loop := .exited }
  | handOver {c pkt} (hloop : c.loop = .handing pkt) (hroom : c.cn.inCh.length < inChCap) :
      Move p c .handOver
        { c with loop := .reading, cn := { c.cn with inCh := c.cn.inCh ++ [pkt] } }
  | handDead {c pkt} (hloop : c.loop = .handing pkt) (hd : c.cn.dead = true) :
      Move p c .handDead { c with loop := .reading }
  /-- The handshake passes over a packet. -/
  | skip {c pkt rest clock epochs} (hrun : c.stage = .connecting epochs)
      (hin : c.cn.inCh = pkt :: rest) (hpkt : pkt.typ ≠ .connAck ∨ pkt.connID = 0) :
      Move p c (.recv clock) { c with cn := { c.cn with inCh := rest } }
  /-- The handshake is over. -/
  | told {c pkt rest clock epochs} (hrun : c.stage = .connecting epochs)
      (hin : c.cn.inCh = pkt :: rest) (htyp : pkt.typ = .connAck) (hid : pkt.connID ≠ 0) :
      Move p c (.recv clock)
        { c with
          stage := .connected
          cn := { c.cn with inCh := rest, conn := { c.cn.conn with id := pkt.connID } } }
  /-- Another Connect. -/
  | retry {c now ord epochs} (hrun : c.stage = .connecting epochs)
      (hlt : epochs + 1 < p.epochLimit) :
      Move p c (.tick now ord)
        { c with stage := .connecting (epochs + 1), connects := c.connects + 1 }
  /-- The handshake times out. -/
  | timeout {c now ord epochs} (hrun : c.stage = .connecting epochs)
      (hle : p.epochLimit ≤ epochs + 1) :
      Move p c (.tick now ord) { c with stage := .timedOut, cn := { c.cn with dead := true } }
  | recv {c pkt rest clock cn} (hrun : c.stage = .connected) (hin : c.cn.inCh = pkt :: rest)
      (hstep : { c.cn with inCh := rest }.step p (.packet pkt clock) = some (.ok cn)) :
      Move p c (.recv clock) { c with cn := cn }
  | tick {c now ord cn} (hrun : c.stage = .connected)
      (hstep : c.cn.step p (.tick now ord) = some (.ok cn)) :
      Move p c (.tick now ord) { c with cn := cn }
  | read {c cn} (hrun : c.stage = .connected) (hcall : c.call.hasClient = true)
      (hstep : c.cn.step p .read = some (.ok cn)) : Move p c .read { c with cn := cn }
  | write {c data clock cn} (hrun : c.stage = .connected) (hcall : c.call.hasClient = true)
      (hstep : c.cn.step p (.write data clock) = some (.ok cn)) :
      Move p c (.write data clock) { c with cn := cn }
  | closeTaken {c clock cn} (hrun : c.stage = .connected) (hcall : c.call = .closing)
      (hstep : c.cn.step p (.close clock) = some (.ok cn)) :
      Move p c (.closeTaken clock) { c with call := .waiting, cn := cn }
  /-- `NewClient` returns the client. -/
  | opened {c} (hrun : c.stage = .connected) (hcall : c.call = .dialing) :
      Move p c .result { c with call := .inUse }
  /-- `NewClient` gives up. -/
  | abandon {c} (hrun : c.stage = .timedOut) (hcall : c.call = .dialing) :
      Move p c .result { c with call := .abandoning, sockClosed := true }
  | close {c} (hcall : c.call = .inUse) : Move p c .close { c with call := .closing }
  /-- `Close` finds `mainLoop` gone. -/
  | gone {c} (hdone : c.isDone = true) (hcall : c.call = .closing) :
      Move p c .mainDone { c with call := .waiting }
  /-- `Close` closes the socket. -/
  | release {c} (hdone : c.isDone = true) (hcall : c.call = .waiting) :
      Move p c .mainDone { c with call := .releasing, sockClosed := true }
  | refused {c} (hloop : c.loop = .exited) (hcall : c.call = .abandoning) :
      Move p c .readDone { c with call := .refused }
  | closed {c} (hloop : c.loop = .exited) (hcall : c.call = .releasing) :
      Move p c .readDone { c with call := .closed }

variable {p : Params} {c d : Client Addr}

lemma stepConn_eq_ok {i : Input} (h : c.stepConn p i = some (.ok d)) :
    c.stage = .connected ∧ ∃ cn, c.cn.step p i = some (.ok cn) ∧ d = { c with cn := cn } := by
  unfold stepConn at h
  split_ifs at h with hrun
  obtain ⟨r, hr, h⟩ := Option.map_eq_some_iff.mp h
  refine ⟨hrun, ?_⟩
  cases r with
  | error e => cases h
  | ok cn => exact ⟨cn, hr, (Except.ok.inj h).symm⟩

lemma datagram_move {bytes : List UInt8} (hloop : c.loop = .reading)
    (hopen : c.sockClosed = false) (h : c.onDatagram bytes = .ok d) :
    Move p c (.datagram bytes) d := by
  obtain ⟨pkt, hpkt, h⟩ := Go.bind_eq_ok.mp h
  cases pkt with
  | none =>
      obtain rfl := Except.ok.inj h
      exact .ignored hloop hopen hpkt
  | some pkt =>
      obtain rfl := Except.ok.inj h
      exact .parsed hloop hopen hpkt

lemma recv_move {clock : ℕ → Time} (h : c.step p (.recv clock) = some (.ok d)) :
    Move p c (.recv clock) d := by
  rw [step] at h
  split at h
  · cases h
  · dsimp only at h
    split at h
    · obtain rfl := Except.ok.inj (Option.some_inj.mp h)
      unfold onHandshake
      split_ifs with hpkt
      · exact .skip ‹_› ‹_› hpkt
      · rw [not_or, not_not] at hpkt
        exact .told ‹_› ‹_› hpkt.1 hpkt.2
    · obtain ⟨hrun, cn, hcn, rfl⟩ := stepConn_eq_ok h
      exact .recv hrun ‹_› hcn
    · cases h

lemma tick_move {now : Time} {ord : RangeOrder UInt32}
    (h : c.step p (.tick now ord) = some (.ok d)) : Move p c (.tick now ord) d := by
  rw [step] at h
  split at h
  · rw [Option.some_inj, onHandshakeTick] at h
    split_ifs at h with hle hd
    · obtain rfl := Except.ok.inj h
      exact .timeout ‹_› hle
    · obtain rfl := Except.ok.inj h
      exact .retry ‹_› (Nat.lt_of_not_le hle)
  · obtain ⟨hrun, cn, hcn, rfl⟩ := stepConn_eq_ok h
    exact .tick hrun hcn
  · cases h

/-- There is nothing else a step of a client can do. -/
theorem step_move {a : ClientAction} (h : c.step p a = some (.ok d)) : Move p c a d := by
  cases a with
  | datagram bytes =>
      rw [step] at h
      split_ifs at h with hg
      exact datagram_move hg.1 hg.2 (Option.some_inj.mp h)
  | readError =>
      rw [step] at h
      split_ifs at h with hg
      obtain rfl := Except.ok.inj (Option.some_inj.mp h)
      exact .readError hg
  | handOver =>
      rw [step] at h
      split at h
      · split_ifs at h with hroom
        obtain rfl := Except.ok.inj (Option.some_inj.mp h)
        exact .handOver ‹_› hroom
      · cases h
  | handDead =>
      rw [step] at h
      split at h
      · split_ifs at h with hd
        obtain rfl := Except.ok.inj (Option.some_inj.mp h)
        exact .handDead ‹_› hd
      · cases h
  | recv clock => exact recv_move h
  | tick now ord => exact tick_move h
  | read =>
      rw [step] at h
      split_ifs at h with hcall
      obtain ⟨hrun, cn, hcn, rfl⟩ := stepConn_eq_ok h
      exact .read hrun hcall hcn
  | write data clock =>
      rw [step] at h
      split_ifs at h with hcall
      obtain ⟨hrun, cn, hcn, rfl⟩ := stepConn_eq_ok h
      exact .write hrun hcall hcn
  | result =>
      rw [step] at h
      split_ifs at h with hcall
      split at h
      · cases h
      · obtain rfl := Except.ok.inj (Option.some_inj.mp h)
        exact .opened ‹_› hcall
      · obtain rfl := Except.ok.inj (Option.some_inj.mp h)
        exact .abandon ‹_› hcall
  | close =>
      rw [step] at h
      split_ifs at h with hcall
      obtain rfl := Except.ok.inj (Option.some_inj.mp h)
      exact .close hcall
  | closeTaken clock =>
      rw [step] at h
      split_ifs at h with hcall
      obtain ⟨hrun, cn, hcn, rfl⟩ := stepConn_eq_ok h
      exact .closeTaken hrun hcall hcn
  | mainDone =>
      rw [step] at h
      split_ifs at h with hdone
      split at h
      · obtain rfl := Except.ok.inj (Option.some_inj.mp h)
        exact .gone hdone ‹_›
      · obtain rfl := Except.ok.inj (Option.some_inj.mp h)
        exact .release hdone ‹_›
      · cases h
  | readDone =>
      rw [step] at h
      split_ifs at h with hloop
      split at h
      · obtain rfl := Except.ok.inj (Option.some_inj.mp h)
        exact .refused hloop ‹_›
      · obtain rfl := Except.ok.inj (Option.some_inj.mp h)
        exact .closed hloop ‹_›
      · cases h

end Client

end RudpScheduler.Rudp
