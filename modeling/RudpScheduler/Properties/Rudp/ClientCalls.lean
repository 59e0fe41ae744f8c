import RudpScheduler.Properties.Rudp.ClientInvariant
import RudpScheduler.Properties.Rudp.KeepAlive

/-!
# `NewClient` and `Close` return

The two calls wait for the client's goroutines: `NewClient` for the handshake and, if it fails, for
the read loop; `Close` for `mainLoop` and then for the read loop.  `calls_return` says that they do
not wait for ever once nothing more arrives: a run of the client's own steps has a bounded length,
and where none is left the call has returned.  A call that has returned leaves no goroutine behind.

The read loop parked in `ReadFrom` has a step of its own only once the socket has been closed; a
`ReadFrom` that fails on an open socket is something that may happen, not something to wait for
(`Client.isOwn`).

`Client.Calls` ties where the application is to where the goroutines are.  The bound is a measure
every step lowers (`Client.stepsLeft`): the epochs until the connection is given up, counted as if
every packet still on its way reset them, and the steps the packets and the calls themselves need.
-/

namespace RudpScheduler.Rudp

/-! ## The phases of a connection -/

/-- A connection that is being closed does not come back. -/
lemma Change.closing {ordered : Bool} {wire : Packet → Prop} {v v' : View}
    (h : Change ordered wire v v') (hv : v.phase = .flushing ∨ v.phase = .ended) :
    v'.phase = .flushing ∨ v'.phase = .ended := by
  cases h with
  | drain hp => rw [hp] at hv; simp at hv
  | handOver hp =>
      rcases hp with hp | hp
      · rw [hp] at hv; simp at hv
      · rw [hp] at hv; simp at hv
  | flush => exact .inl rfl
  | sendClose => exact .inr rfl
  | quit => exact .inr rfl
  | abort => exact .inr rfl
  | _ => exact hv

lemma Change.ended {ordered : Bool} {wire : Packet → Prop} {v v' : View}
    (h : Change ordered wire v v') (hv : v.phase = .ended) : v'.phase = .ended := by
  cases h with
  | drain hp => rw [hp] at hv; cases hv
  | handOver hp =>
      rcases hp with hp | hp
      · rw [hp] at hv; cases hv
      · rw [hp] at hv; cases hv
  | flush hp => rw [hp] at hv; cases hv
  | sendClose => rfl
  | quit => rfl
  | abort => rfl
  | _ => exact hv

namespace Conn

variable {p : Params} {c c' : Conn} {i : Input}

lemma step_closing (h : c.step p i = some c') (hc : c.phase = .flushing ∨ c.phase = .ended) :
    c'.phase = .flushing ∨ c'.phase = .ended :=
  step_keeps (P := fun v => v.phase = .flushing ∨ v.phase = .ended) h
    (fun _ _ hch => hch.closing) hc

lemma step_ended (h : c.step p i = some c') (hc : c.phase = .ended) : c'.phase = .ended :=
  step_keeps (P := fun v => v.phase = .ended) h (fun _ _ hch => hch.ended) hc

/-- A call of `Close` that is taken leaves the connection flushing or done. -/
lemma step_close {clock : ℕ → Time} (h : c.step p (.close clock) = some c') :
    c'.phase = .flushing ∨ c'.phase = .ended := by
  simp only [step] at h
  split at h
  · obtain rfl := Option.some_inj.mp h
    unfold onClose checkFlushed
    dsimp only
    split_ifs
    · left
      rw [fillWindow, (fillFrom_frame ..).1]
    · exact .inr rfl
  · obtain rfl := Option.some_inj.mp h
    exact .inr rfl
  · cases h

/-- A running connection stays below the limit. -/
lemma step_below (h : c.step p i = some c') (hlim : c.epochsSilent < p.epochLimit)
    (hc' : c'.phase.beforeDead = true) : c'.epochsSilent < p.epochLimit := by
  cases i with
  | tick now ord =>
      obtain ⟨hends, -, hiff, -⟩ := step_tick h
      have hlt := mt hiff.mpr (by simp [hc'])
      rw [hends.silent]
      exact Nat.lt_of_not_le hlt
  | packet pkt clock =>
      rw [step_silent h, silenceAfter]
      split_ifs
      · exact p.epochLimit_pos
      · exact hlim
  | _ =>
      rw [step_silent h]
      exact hlim

end Conn

/-! ## Where the application is -/

/-- A datagram arrives, or the application makes a call. -/
def ClientAction.isOutside : ClientAction → Bool
  | .datagram _ | .read | .write _ _ | .close => true
  | _ => false

namespace Client

/-- A step the client's goroutines, or a call that is waiting for them, take by themselves:
`ReadFrom` is sure to return only when the socket has been closed. -/
def isOwn {Addr : Type} (c : Client Addr) : ClientAction → Bool
  | .readError => c.sockClosed
  | a => !a.isOutside

variable {Addr : Type} {p : Params} {c d : Client Addr}

/-- Where the application is, against where the goroutines are. -/
structure Calls (p : Params) (c : Client Addr) : Prop where
  ok : c.Ok
  room : c.cn.inCh.length ≤ inChCap
  connecting : ∀ e, c.stage = .connecting e →
    c.connects = e + 1 ∧ e < p.epochLimit ∧ c.call = .dialing
  timedOut : c.stage = .timedOut → c.connects = p.epochLimit ∧
    (c.call = .dialing ∨ c.call = .abandoning ∨ c.call = .refused)
  connected : c.stage = .connected →
    c.connects ≤ p.epochLimit ∧ c.call ≠ .abandoning ∧ c.call ≠ .refused
  silent : c.cn.conn.phase.beforeDead = true → c.cn.conn.epochsSilent < p.epochLimit
  flushing : c.cn.conn.phase = .flushing → c.call = .waiting
  waiting : c.call = .waiting → c.cn.conn.phase = .flushing ∨ c.cn.conn.phase = .ended
  done : c.call = .releasing ∨ c.call = .closed → c.cn.conn.phase = .ended
  /-- The socket is closed in the last stage of both calls. -/
  sock : c.call = .abandoning ∨ c.call = .refused ∨ c.call = .releasing ∨ c.call = .closed →
    c.sockClosed = true
  exited : c.call = .refused ∨ c.call = .closed → c.loop = .exited

lemma start_calls (raddr : Addr) : (start raddr).Calls p where
  ok := start_ok raddr
  room := Nat.zero_le _
  connecting e he := by
    obtain rfl := RunPhase.connecting.inj he
    exact ⟨rfl, p.epochLimit_pos, rfl⟩
  timedOut h := by cases h
  connected h := by cases h
  silent _ := p.epochLimit_pos
  flushing h := by cases h
  waiting h := by cases h
  done h := by rcases h with h | h <;> cases h
  sock h := by rcases h with h | h | h | h <;> cases h
  exited h := by rcases h with h | h <;> cases h

/-- A round of `mainLoop` that keeps `call`, or in which `Close` is taken. -/
lemma Calls.round (hc : c.Calls p) {inCh : List Packet} {i : Input} {cn : ServerConn Addr}
    {call : CallPhase} (hrun : c.stage = .connected) (hlen : inCh.length ≤ inChCap)
    (hstep : { c.cn with inCh := inCh }.step p i = some (.ok cn))
    (hok : ({ c with cn := cn, call := call } : Client Addr).Ok)
    (hcall : call = c.call ∧ (∀ clock, i ≠ .close clock) ∨
      c.call = .closing ∧ call = .waiting ∧ ∃ clock, i = .close clock) :
    ({ c with cn := cn, call := call } : Client Addr).Calls p := by
  obtain ⟨conn, hconn, rfl, -, hinCh, -⟩ := ServerConn.step_ok hstep
  have hbelow : cn.conn.phase.beforeDead = true → cn.conn.epochsSilent < p.epochLimit := by
    intro hb
    refine Conn.step_below hconn (hc.silent ?_) hb
    by_contra hne
    rw [Conn.step_beforeDead hconn (Bool.eq_false_iff.mpr hne)] at hb
    cases hb
  obtain ⟨hconnects, hne1, hne2⟩ := hc.connected hrun
  have hroom : cn.inCh.length ≤ inChCap := by rw [hinCh]; exact hlen
  rcases hcall with ⟨rfl, hi⟩ | ⟨hclosing, rfl, clock, rfl⟩
  · refine ⟨hok, hroom, fun e he => ?_, fun ht => ?_, fun _ => ⟨hconnects, hne1, hne2⟩, hbelow,
      fun hf => ?_, fun hw => Conn.step_closing hconn (hc.waiting hw),
      fun hd => Conn.step_ended hconn (hc.done hd), hc.sock, hc.exited⟩
    · rw [hrun] at he
      cases he
    · rw [hrun] at ht
      cases ht
    · rcases Conn.step_flushing hconn hf with hold | ⟨-, ⟨clock, hclose⟩, -⟩
      · exact hc.flushing hold
      · exact absurd hclose (hi clock)
  · refine ⟨hok, hroom, fun e he => ?_, fun ht => ?_, fun _ => ⟨hconnects, by simp, by simp⟩,
      hbelow, fun _ => rfl, fun _ => Conn.step_close hconn, by simp, by simp, by simp⟩
    · rw [hrun] at he
      cases he
    · rw [hrun] at ht
      cases ht

/-- `mainLoop` has returned. -/
lemma isDone_of_connected (hrun : c.stage = .connected) :
    c.isDone = true ↔ c.cn.conn.phase = .ended := by
  simp [isDone, hrun]

/-- Past the handshake the application has a client. -/
lemma Calls.connected_of_call (hc : c.Calls p) (h1 : c.call ≠ .dialing) (h2 : c.call ≠ .abandoning)
    (h3 : c.call ≠ .refused) : c.stage = .connected := by
  cases hrun : c.stage with
  | connecting e => exact absurd (hc.connecting e hrun).2.2 h1
  | connected => rfl
  | timedOut =>
      rcases (hc.timedOut hrun).2 with h | h | h
      · exact absurd h h1
      · exact absurd h h2
      · exact absurd h h3

/-- `NewClient` gives up after a timeout only. -/
lemma Calls.timedOut_of_call (hc : c.Calls p) (h : c.call = .abandoning ∨ c.call = .refused) :
    c.stage = .timedOut := by
  cases hstage : c.stage with
  | connecting e =>
      rw [(hc.connecting e hstage).2.2] at h
      simp at h
  | connected =>
      obtain ⟨-, h1, h2⟩ := hc.connected hstage
      tauto
  | timedOut => rfl

/-- The application goes on, past the handshake. -/
lemma Calls.goOn (hc : c.Calls p) {call : CallPhase} {sock : Bool} (hrun : c.stage = .connected)
    (hne : call ≠ .abandoning ∧ call ≠ .refused)
    (hflushing : c.cn.conn.phase = .flushing → call = .waiting)
    (hwaiting : call = .waiting → c.cn.conn.phase = .ended)
    (hdone : call = .releasing ∨ call = .closed → c.cn.conn.phase = .ended ∧ sock = true)
    (hexited : call = .closed → c.loop = .exited) :
    ({ c with call := call, sockClosed := sock } : Client Addr).Calls p := by
  refine ⟨{ hc.ok with }, hc.room, fun e he => ?_, fun ht => ?_, fun _ => ?_, hc.silent, hflushing,
    fun hw => .inr (hwaiting hw), fun hd => (hdone hd).1, fun hs => ?_, fun hx => ?_⟩
  · rw [hrun] at he
    cases he
  · rw [hrun] at ht
    cases ht
  · exact ⟨(hc.connected hrun).1, hne⟩
  · rcases hs with hs | hs | hs | hs
    · exact absurd hs hne.1
    · exact absurd hs hne.2
    · exact (hdone (.inl hs)).2
    · exact (hdone (.inr hs)).2
  · rcases hx with hx | hx
    · exact absurd hx hne.2
    · exact hexited hx

/-- The application goes on, after a timeout. -/
lemma Calls.goOnRefused (hc : c.Calls p) {call : CallPhase} (hrun : c.stage = .timedOut)
    (hcall : call = .abandoning ∨ call = .refused ∧ c.loop = .exited) :
    ({ c with call := call, sockClosed := true } : Client Addr).Calls p := by
  have hfresh := hc.ok.fresh (by simp [hrun])
  refine ⟨{ hc.ok with }, hc.room, fun e he => ?_, fun _ => ⟨(hc.timedOut hrun).1, ?_⟩,
    fun hcon => ?_, hc.silent, fun hf => ?_, fun hw => ?_, fun hd => ?_, fun _ => rfl, fun hx => ?_⟩
  · rw [hrun] at he
    cases he
  · exact .inr (hcall.imp_right And.left)
  · rw [hrun] at hcon
    cases hcon
  · simp [hfresh, newConn] at hf
  · rcases hcall with hcall | ⟨hcall, -⟩ <;> simp [hcall] at hw
  · rcases hcall with hcall | ⟨hcall, -⟩ <;> simp [hcall] at hd
  · rcases hcall with hcall | ⟨-, hloop⟩
    · simp [hcall] at hx
    · exact hloop

/-- A step keeps the invariant. -/
lemma Move.calls {a : ClientAction} (h : Move p c a d) (hc : c.Calls p) : d.Calls p := by
  have hok := h.ok hc.ok
  have hrest : ∀ {q : Packet} {rest : List Packet}, c.cn.inCh = q :: rest →
      rest.length ≤ inChCap := by
    intro q rest hin
    have hroom := hc.room
    rw [hin, List.length_cons] at hroom
    omega
  cases h with
  | ignored => exact hc
  | parsed hloop hopen =>
      refine { hc with ok := hok, exited := fun hcall => ?_ }
      have hsock := hc.sock (by tauto)
      rw [hopen] at hsock
      cases hsock
  | readError => exact { hc with ok := hok, exited := fun _ => rfl }
  | @handOver pkt hloop hroom =>
      refine { hc with ok := hok, room := ?_, exited := fun hcall => ?_ }
      · rw [List.length_append]
        exact hroom
      · rw [hc.exited hcall] at hloop
        cases hloop
  | handDead hloop =>
      refine { hc with ok := hok, exited := fun hcall => ?_ }
      rw [hc.exited hcall] at hloop
      cases hloop
  | skip hrun hin => exact { hc with ok := hok, room := hrest hin }
  | @told pkt rest clock epochs hrun hin =>
      obtain ⟨hconnects, hlt, hcall⟩ := hc.connecting _ hrun
      have hfresh := hc.ok.fresh (by simp [hrun])
      refine ⟨hok, hrest hin, by simp, by simp, fun _ => ⟨?_, ?_⟩, fun _ => ?_, hc.flushing,
        hc.waiting, hc.done, hc.sock, hc.exited⟩
      · exact hconnects.trans_le hlt
      · rw [hcall]
        simp
      · simp [hfresh, newConn, p.epochLimit_pos]
  | retry hrun hlt =>
      obtain ⟨hconnects, -, hcall⟩ := hc.connecting _ hrun
      refine { hc with
        ok := hok, connecting := fun e he => ?_, timedOut := by simp, connected := by simp }
      obtain rfl := RunPhase.connecting.inj he
      exact ⟨congrArg (· + 1) hconnects, hlt, hcall⟩
  | timeout hrun hle =>
      obtain ⟨hconnects, hlt, hcall⟩ := hc.connecting _ hrun
      exact { hc with
        ok := hok
        connecting := by simp
        timedOut := fun _ => ⟨hconnects.trans (by omega), .inl hcall⟩
        connected := by simp }
  | recv hrun hin hstep => exact hc.round hrun (hrest hin) hstep hok (.inl ⟨rfl, by simp⟩)
  | tick hrun hstep => exact hc.round hrun hc.room hstep hok (.inl ⟨rfl, by simp⟩)
  | read hrun hcall hstep => exact hc.round hrun hc.room hstep hok (.inl ⟨rfl, by simp⟩)
  | write hrun hcall hstep => exact hc.round hrun hc.room hstep hok (.inl ⟨rfl, by simp⟩)
  | closeTaken hrun hcall hstep =>
      exact hc.round hrun hc.room hstep hok (.inr ⟨hcall, rfl, _, rfl⟩)
  | opened hrun hcall =>
      refine hc.goOn hrun (by simp) (fun hf => ?_) (by simp) (by simp) (by simp)
      have hw := hc.flushing hf
      rw [hcall] at hw
      cases hw
  | abandon hrun hcall => exact hc.goOnRefused hrun (.inl rfl)
  | close hcall =>
      have hrun := hc.connected_of_call (by simp [hcall]) (by simp [hcall]) (by simp [hcall])
      refine hc.goOn hrun (by simp) (fun hf => ?_) (by simp) (by simp) (by simp)
      have hw := hc.flushing hf
      rw [hcall] at hw
      cases hw
  | gone hdone hcall =>
      have hrun := hc.connected_of_call (by simp [hcall]) (by simp [hcall]) (by simp [hcall])
      have hended := (isDone_of_connected hrun).mp hdone
      exact hc.goOn hrun (by simp) (fun _ => rfl) (fun _ => hended) (by simp) (by simp)
  | release hdone hcall =>
      have hrun := hc.connected_of_call (by simp [hcall]) (by simp [hcall]) (by simp [hcall])
      have hended := (isDone_of_connected hrun).mp hdone
      exact hc.goOn hrun (by simp) (by simp [hended]) (by simp) (fun _ => ⟨hended, rfl⟩) (by simp)
  | refused hloop hcall =>
      have hrun := hc.timedOut_of_call (.inl hcall)
      have hgo : ({ c with call := .refused, sockClosed := true } : Client Addr).Calls p :=
        hc.goOnRefused hrun (.inr ⟨rfl, hloop⟩)
      rwa [← hc.sock (.inl hcall)] at hgo
  | closed hloop hcall =>
      have hrun := hc.connected_of_call (by simp [hcall]) (by simp [hcall]) (by simp [hcall])
      have hended := hc.done (.inl hcall)
      exact hc.goOn hrun (by simp) (by simp [hended]) (by simp)
        (fun _ => ⟨hended, hc.sock (.inr (.inr (.inl hcall)))⟩) fun _ => hloop

end Client

/-! ## The steps that are left -/

/-- The steps the read loop needs to end. -/
def ReaderPhase.left : ReaderPhase → ℕ
  | .handing _ => 3
  | .reading => 1
  | .exited => 0

/-- The steps the call needs to return. -/
def CallPhase.left : CallPhase → ℕ
  | .closing => 3
  | .dialing | .waiting => 2
  | .abandoning | .releasing => 1
  | .refused | .inUse | .closed => 0

namespace Client

variable {Addr : Type} {p : Params} {c d : Client Addr}

/-- The epochs until the handshake or the connection is given up, if every one of `k` packets resets
the count and the one that ends the handshake starts it. -/
def epochsLeft (p : Params) (k : ℕ) (conn : Conn) : RunPhase → ℕ
  | .connecting e => p.epochLimit - e + (k + 1) * p.epochLimit
  | .connected =>
    if conn.phase.beforeDead then p.epochLimit - conn.epochsSilent + k * p.epochLimit else 0
  | .timedOut => 0

/-- The packets on their way to the connection. -/
def onTheirWay (c : Client Addr) : ℕ :=
  c.cn.inCh.length + match c.loop with
    | .handing _ => 1
    | _ => 0

/-- A bound on the client's own steps. -/
def stepsLeft (p : Params) (c : Client Addr) : ℕ :=
  epochsLeft p c.onTheirWay c.cn.conn c.stage + c.cn.inCh.length + c.loop.left + c.call.left

section EpochsLeft

variable {k : ℕ} {conn conn' : Conn}

lemma epochsLeft_mono {j : ℕ} (h : j ≤ k) (conn : Conn) (run : RunPhase) :
    epochsLeft p j conn run ≤ epochsLeft p k conn run := by
  cases run with
  | connecting e => exact Nat.add_le_add_left (Nat.mul_le_mul_right _ (by omega)) _
  | connected =>
      unfold epochsLeft
      split_ifs
      · exact Nat.add_le_add_left (Nat.mul_le_mul_right _ h) _
      · exact le_rfl
  | timedOut => exact le_rfl

/-- One time the limit for the connection and one for each packet. -/
lemma epochsLeft_le (conn : Conn) :
    epochsLeft p k conn .connected ≤ (k + 1) * p.epochLimit := by
  rw [epochsLeft, Nat.succ_mul]
  split_ifs <;> omega

/-- A packet is taken. -/
lemma epochsLeft_packet {pkt : Packet} {clock : ℕ → Time}
    (h : conn.step p (.packet pkt clock) = some conn') :
    epochsLeft p k conn' .connected ≤ epochsLeft p (k + 1) conn .connected := by
  have hb : conn.phase.beforeDead = true := by
    simp only [Conn.step] at h
    split at h
    · rename_i hp
      rw [hp]
      rfl
    · rename_i hp
      rw [hp]
      rfl
    · cases h
  refine (epochsLeft_le conn').trans ?_
  rw [epochsLeft, if_pos hb]
  exact Nat.le_add_left _ _

/-- An epoch passes. -/
lemma epochsLeft_tick {now : Time} {ord : RangeOrder UInt32}
    (h : conn.step p (.tick now ord) = some conn')
    (hlim : conn.phase.beforeDead = true → conn.epochsSilent < p.epochLimit) :
    epochsLeft p k conn' .connected < epochsLeft p k conn .connected := by
  obtain ⟨hends, hb, -, -⟩ := Conn.step_tick h
  have hlt := hlim hb
  rw [epochsLeft, epochsLeft, if_pos hb, hends.silent]
  split_ifs <;> omega

/-- `Close` is taken. -/
lemma epochsLeft_close {clock : ℕ → Time} (h : conn.step p (.close clock) = some conn') :
    epochsLeft p k conn' .connected ≤ epochsLeft p k conn .connected := by
  have hbefore : conn'.phase.beforeDead = true → conn.phase.beforeDead = true := fun hb => by
    by_contra hne
    rw [Conn.step_beforeDead h (Bool.eq_false_iff.mpr hne)] at hb
    cases hb
  have hsilent : conn'.epochsSilent = conn.epochsSilent := Conn.step_silent h
  rw [epochsLeft, epochsLeft, hsilent]
  split_ifs with h1 h2
  · exact le_rfl
  · exact absurd (hbefore h1) h2
  · exact Nat.zero_le _
  · exact le_rfl

end EpochsLeft

/-- The epochs do not go up and the other steps go down. -/
lemma stepsLeft_lt
    (h : epochsLeft p d.onTheirWay d.cn.conn d.stage ≤ epochsLeft p c.onTheirWay c.cn.conn c.stage)
    (h' : d.cn.inCh.length + d.loop.left + d.call.left <
      c.cn.inCh.length + c.loop.left + c.call.left) : d.stepsLeft p < c.stepsLeft p := by
  unfold stepsLeft
  omega

/-- Every step that is not from outside lowers the bound. -/
lemma Move.lowers {a : ClientAction} (h : Move p c a d) (hc : c.Calls p)
    (ha : a.isOutside = false) : d.stepsLeft p < c.stepsLeft p := by
  cases h with
  | ignored => cases ha
  | parsed => cases ha
  | read => cases ha
  | write => cases ha
  | close => cases ha
  | readError hloop =>
      refine stepsLeft_lt (epochsLeft_mono ?_ _ _) ?_
      · simp [onTheirWay, hloop]
      · simp [hloop, ReaderPhase.left]
  | handOver hloop =>
      refine stepsLeft_lt (epochsLeft_mono ?_ _ _) ?_
      · simp [onTheirWay, hloop]
      · simp [hloop, ReaderPhase.left]
  | handDead hloop =>
      refine stepsLeft_lt (epochsLeft_mono ?_ _ _) ?_
      · simp [onTheirWay, hloop]
      · simp [hloop, ReaderPhase.left]
  | skip hrun hin =>
      refine stepsLeft_lt (epochsLeft_mono ?_ _ _) ?_
      · simp [onTheirWay, hin]
      · simp [hin]
  | @told pkt rest clock epochs hrun hin =>
      refine stepsLeft_lt ((epochsLeft_le _).trans ?_) ?_
      · rw [hrun, epochsLeft]
        refine (Nat.mul_le_mul_right _ ?_).trans (Nat.le_add_left _ _)
        simp [onTheirWay, hin]
      · simp [hin]
  | retry hrun hlt =>
      simp only [stepsLeft, epochsLeft, hrun, onTheirWay]
      omega
  | timeout hrun hle =>
      have hlt := (hc.connecting _ hrun).2.1
      simp only [stepsLeft, epochsLeft, hrun]
      omega
  | recv hrun hin hstep =>
      obtain ⟨conn, hconn, rfl, -, hinCh, -⟩ := ServerConn.step_ok hstep
      refine stepsLeft_lt ?_ (by simp [hin, hinCh])
      simp only [onTheirWay, hin, hinCh, hrun, List.length_cons]
      exact (epochsLeft_packet hconn).trans (epochsLeft_mono (by omega) _ _)
  | tick hrun hstep =>
      obtain ⟨conn, hconn, rfl, -, hinCh, -⟩ := ServerConn.step_ok hstep
      have hlt := epochsLeft_tick (k := c.onTheirWay) hconn hc.silent
      simp only [stepsLeft, onTheirWay, hinCh, hrun] at hlt ⊢
      omega
  | closeTaken hrun hcall hstep =>
      obtain ⟨conn, hconn, rfl, -, hinCh, -⟩ := ServerConn.step_ok hstep
      refine stepsLeft_lt ?_ (by simp [hinCh, hcall, CallPhase.left])
      simp only [onTheirWay, hinCh, hrun]
      exact epochsLeft_close hconn
  | opened hrun hcall =>
      exact stepsLeft_lt le_rfl (by simp [hcall, CallPhase.left])
  | abandon hrun hcall =>
      exact stepsLeft_lt le_rfl (by simp [hcall, CallPhase.left])
  | gone hdone hcall =>
      exact stepsLeft_lt le_rfl (by simp [hcall, CallPhase.left])
  | release hdone hcall =>
      exact stepsLeft_lt le_rfl (by simp [hcall, CallPhase.left])
  | refused hloop hcall =>
      exact stepsLeft_lt le_rfl (by simp [hcall, CallPhase.left])
  | closed hloop hcall =>
      exact stepsLeft_lt le_rfl (by simp [hcall, CallPhase.left])

/-- What the bound is at most: the limit for the handshake, for the connection and for each of the
packets that fit on the way. -/
lemma Calls.stepsLeft_le (hc : c.Calls p) : c.stepsLeft p ≤ 67 * p.epochLimit + 70 := by
  have hroom : c.cn.inCh.length ≤ 64 := hc.room
  have hway : c.onTheirWay ≤ 65 := by
    unfold onTheirWay
    split <;> omega
  have hepochs : epochsLeft p c.onTheirWay c.cn.conn c.stage ≤ 67 * p.epochLimit := by
    refine (epochsLeft_mono hway _ _).trans ?_
    cases c.stage with
    | connecting e =>
        rw [epochsLeft]
        omega
    | connected =>
        refine (epochsLeft_le _).trans ?_
        omega
    | timedOut => exact Nat.zero_le _
  have hloop : c.loop.left ≤ 3 := by
    cases c.loop <;> simp [ReaderPhase.left]
  have hcall : c.call.left ≤ 3 := by
    cases c.call <;> simp [CallPhase.left]
  unfold stepsLeft
  omega

/-- A call that has not returned has a step to take. -/
lemma Calls.returned (hc : c.Calls p) (hstuck : ∀ a, c.isOwn a = true → c.step p a = none) :
    c.call = .refused ∨ c.call = .inUse ∨ c.call = .closed := by
  -- the read loop ends once `dead` and the socket are closed
  have hreader : c.cn.dead = true → c.sockClosed = true → c.loop = .exited := by
    intro hdead hsock
    cases hloop : c.loop with
    | reading =>
        have hread := hstuck .readError hsock
        simp [step, hloop] at hread
    | handing pkt =>
        have hhand := hstuck .handDead rfl
        simp [step, hloop, hdead] at hhand
    | exited => rfl
  cases hcall : c.call with
  | refused => exact .inl rfl
  | inUse => exact .inr (.inl rfl)
  | closed => exact .inr (.inr rfl)
  | dialing =>
      cases hrun : c.stage with
      | connecting e =>
          have htick := hstuck (.tick 0 seqOrder) rfl
          simp [step, hrun] at htick
      | connected =>
          have hresult := hstuck .result rfl
          simp [step, hcall, hrun] at hresult
      | timedOut =>
          have hresult := hstuck .result rfl
          simp [step, hcall, hrun] at hresult
  | abandoning =>
      have hrun := hc.timedOut_of_call (.inl hcall)
      have hloop := hreader (by simp [hc.ok.dead, hrun]) (hc.sock (.inl hcall))
      have hdone := hstuck .readDone rfl
      simp [step, hcall, hloop] at hdone
  | closing =>
      have hrun := hc.connected_of_call (by simp [hcall]) (by simp [hcall]) (by simp [hcall])
      cases hp : c.cn.conn.phase with
      | main =>
          have htaken := hstuck (.closeTaken fun _ => 0) rfl
          simp [step, stepConn, ServerConn.step, Conn.step, hcall, hrun, hp] at htaken
      | draining =>
          have htaken := hstuck (.closeTaken fun _ => 0) rfl
          simp [step, stepConn, ServerConn.step, Conn.step, hcall, hrun, hp] at htaken
      | flushing =>
          have hw := hc.flushing hp
          rw [hcall] at hw
          cases hw
      | ended =>
          have hgone := hstuck .mainDone rfl
          simp [step, isDone, hcall, hrun, hp] at hgone
  | waiting =>
      have hrun := hc.connected_of_call (by simp [hcall]) (by simp [hcall]) (by simp [hcall])
      rcases hc.waiting hcall with hp | hp
      · have htick := hstuck (.tick 0 seqOrder) rfl
        simp [step, stepConn, ServerConn.step, Conn.step, hrun, hp] at htick
      · have hgone := hstuck .mainDone rfl
        simp [step, isDone, hcall, hrun, hp] at hgone
  | releasing =>
      have hended := hc.done (.inl hcall)
      have hloop := hreader (by simp [hc.ok.dead, hended, Phase.beforeDead])
        (hc.sock (.inr (.inr (.inl hcall))))
      have hdone := hstuck .readDone rfl
      simp [step, hcall, hloop] at hdone

lemma run_calls {raddr : Addr} {as : List ClientAction}
    (hrun : run (Go.survive (Client.step p)) (Client.start raddr) as = some c) : c.Calls p :=
  run_invariant (fun _ _ _ hc h => (step_move (Go.survive_eq_some.mp h)).calls hc)
    (start_calls raddr) hrun

end Client

/-- **`NewClient` and `Close` return, and leave nothing behind.**  After every run of a client:
its goroutines and the call in progress take at most `67 * EpochLimit + 70` more steps if nothing
arrives and the application calls nothing else; where they can take none by themselves, the read
loop leaving `ReadFrom` only because the socket has been closed, the call has returned; when `Close`
has returned, or `NewClient` has with an error, both goroutines have ended and the socket is closed;
and the handshake sends at most `EpochLimit` Connects, exactly so many when it times out. -/
theorem calls_return {Addr : Type} {p : Params} {raddr : Addr} {as : List ClientAction}
    {c : Client Addr}
    (hrun : run (Go.survive (Client.step p)) (Client.start raddr) as = some c) :
    (∀ bs d, (∀ a ∈ bs, a.isOutside = false) → run (Go.survive (Client.step p)) c bs = some d →
        bs.length ≤ 67 * p.epochLimit + 70) ∧
      ((∀ a, c.isOwn a = true → c.step p a = none) →
        c.call = .refused ∨ c.call = .inUse ∨ c.call = .closed) ∧
      (c.call = .refused ∨ c.call = .closed →
        c.isDone = true ∧ c.loop = .exited ∧ c.sockClosed = true) ∧
      c.connects ≤ p.epochLimit ∧ (c.stage = .timedOut → c.connects = p.epochLimit) := by
  have hc := Client.run_calls hrun
  refine ⟨fun bs d hown hbs => ?_, hc.returned, fun hcall => ⟨?_, hc.exited hcall, ?_⟩, ?_,
    fun ht => (hc.timedOut ht).1⟩
  · have hstep : ∀ (c : Client Addr) a d, c.Calls p → ClientAction.isOutside a = false →
        Go.survive (Client.step p) c a = some d → d.Calls p ∧ d.stepsLeft p < c.stepsLeft p := by
      intro c a d hc ha h
      have hmove := Client.step_move (Go.survive_eq_some.mp h)
      exact ⟨hmove.calls hc, hmove.lowers hc ha⟩
    have hlen := run_length_le_along hstep hc (.of_forall fun a ha _ => hown a ha) hbs
    have hle := hc.stepsLeft_le
    omega
  · rcases hcall with hcall | hcall
    · rw [Client.isDone, hc.timedOut_of_call (.inr hcall)]
    · have hconn := hc.connected_of_call (by simp [hcall]) (by simp [hcall]) (by simp [hcall])
      exact (Client.isDone_of_connected hconn).mpr (hc.done (.inr hcall))
  · exact hc.sock (by tauto)
  · cases hr : c.stage with
    | connecting e =>
        have h := hc.connecting e hr
        omega
    | connected => exact (hc.connected hr).1
    | timedOut => exact (hc.timedOut hr).1.le

/-- Nobody answers: five Connects with the default limit, and `NewClient` returns the error. -/
theorem calls_return_refused :
    ∃ c : Client ℕ, run (Go.survive (Client.step Params.default)) (Client.start 0)
        (List.replicate 5 (.tick 0 seqOrder) ++ [.result, .readError, .readDone]) = some c ∧
      c.call = .refused ∧ c.connects = 5 ∧ c.isDone = true ∧ c.loop = .exited := by
  have hval : (run (Go.survive (Client.step Params.default)) (Client.start (0 : ℕ))
      (List.replicate 5 (.tick 0 seqOrder) ++
        [ClientAction.result, .readError, .readDone])).map (fun c => (c.call, c.stage)) =
      some (.refused, .timedOut) := by
    decide +kernel
  obtain ⟨c, hrun, hc⟩ := Option.map_eq_some_iff.mp hval
  obtain ⟨hcall, hstage⟩ := Prod.mk.inj hc
  obtain ⟨-, -, hleft, -, hconnects⟩ := calls_return hrun
  obtain ⟨hdone, hloop, -⟩ := hleft (.inl hcall)
  exact ⟨c, hrun, hcall, hconnects hstage, hdone, hloop⟩

end RudpScheduler.Rudp
