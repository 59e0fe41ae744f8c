import RudpScheduler.Construction.Host
import RudpScheduler.Properties.MessageBound
import RudpScheduler.Properties.WireCodec
import RudpScheduler.Properties.Rudp.ServerInvariant

/-!
# No sequence of datagrams crashes the server

The bounds that make each panic unreachable come from different places: `parse` and `Decode`
check lengths before they slice (`parse_total`, `decode_total`), the string of every chunk has come
through `Decode` (`Sys.Short`), a worker in the dispatcher's table has not been told to leave
(`Sys.Served`), a job is finished once (`Agg.Ok`), and the transport's tables agree with each other
(`Server.Ok`).  `Host.Ok` collects them; `Host.step_spec` says that from such a state every step
leads to such a state, or connection IDs have wrapped around.

`Host.never_panics` is the statement for the whole process, started without a log or from any log
such a process has left behind (`ServerLog`).
-/

namespace RudpScheduler

/-! ## Operations that do not panic -/

lemma Go.mapM_ok {α β : Type} {f : α → Go β} {l : List α} (h : ∀ a ∈ l, ∃ b, f a = .ok b) :
    ∃ bs, l.mapM f = .ok bs := by
  induction l with
  | nil => exact ⟨[], rfl⟩
  | cons a l ih =>
      obtain ⟨b, hb⟩ := h a List.mem_cons_self
      obtain ⟨bs, hbs⟩ := ih fun a' ha' => h a' (List.mem_cons_of_mem _ ha')
      exact ⟨b :: bs, by rw [List.mapM_cons, hb, Go.ok_bind, hbs]; rfl⟩

/-- The divisions of `split` are safe for a chunk size that is not zero. -/
lemma splitGo_eq (lo hi : UInt64) {chunkSize : UInt64} (h : 1 ≤ chunkSize) :
    splitGo lo hi chunkSize = .ok (split lo hi chunkSize) := by
  have hcs : chunkSize ≠ 0 := by
    rintro rfl
    exact absurd h (by decide)
  have hmax : maxChunksPerJob ≠ 0 := by decide
  -- the quotient by `2 ^ 20` leaves room for one more
  have hwide : ∀ span : UInt64, span / maxChunksPerJob + 1 ≠ 0 := by
    intro span hz
    have hspan := span.toNat_lt
    have hnat := congrArg UInt64.toNat hz
    have hmaxNat : maxChunksPerJob.toNat = 2 ^ 20 := rfl
    rw [UInt64.toNat_add, UInt64.toNat_div, hmaxNat, UInt64.toNat_one, UInt64.toNat_zero] at hnat
    omega
  unfold splitGo split
  split_ifs with hle
  · rfl
  · simp only [divGo, modGo, if_neg hcs, if_neg hmax, Go.ok_bind]
    by_cases hbig : (hi - lo) / chunkSize ≥ maxChunksPerJob
    · simp only [if_pos hbig, Go.pure_eq_ok, Go.ok_bind, if_neg (hwide _)]
    · simp only [if_neg hbig, Go.pure_eq_ok, Go.ok_bind, if_neg hcs]

lemma encodeWrite_of_fits {m : Message} (h : m.Fits) : encodeWrite m = .ok m.bytes := by
  have hlen := m.length_bytes_le
  have hmsg : m.msg.length ≤ 1024 := h
  have hmax : Rudp.maxPayload = 1200 := rfl
  rw [encodeWrite, Wire.encode_of_fits h, Go.ok_bind, Rudp.writeGo, if_neg (by omega)]

/-! ## The scheduler -/

/-- What the scheduler keeps, for the panics it could run into. -/
structure Sys.Sound (s : Sys) : Prop where
  ok : s.Ok
  served : s.Served
  short : s.Short

namespace Sys

variable {wl : Workload} {p : Params} {s t : Sys}

lemma Sound.move {a : Action} (hs : s.Sound) (h : Move wl p s a t)
    (hreq : ∀ c req, a = .readRequest c req → RudpScheduler.Short req.msg) : t.Sound :=
  ⟨h.ok hs.ok, h.served hs.ok hs.served, h.short hs.short hreq⟩

lemma Sound.connDown (hs : s.Sound) (c : ConnID) :
    Sound { s with down := insert c s.down } :=
  ⟨{ hs.ok with }, { hs.served with }, { hs.short with }⟩

lemma onRequestGo_eq (p : Params) (s : Sys) (c : ConnID) (req : Request) :
    s.onRequestGo p c req = .ok (s.onRequest p c req) := by
  unfold onRequestGo onRequest
  split_ifs
  · rfl
  · rw [splitGo_eq _ _ p.chunkSize_pos]
    rfl

/-- A worker's `dead` is closed by the step that takes the worker out of the table. -/
lemma Served.onErrorGo_eq (hs : s.Served) (c : ConnID) : s.onErrorGo c = .ok (s.onError c) := by
  rw [onErrorGo, if_neg]
  · rfl
  · intro hdead
    cases hw : s.workers.lookup c with
    | none => simp [hw] at hdead
    | some w =>
        obtain ⟨l, hl, -, hserv⟩ := hs.workers c w hw
        simp [hw, hl, hserv.dead] at hdead

/-- The dispatcher's step on anything `Read` can return. -/
lemma Sound.dispatch (wl : Workload) (hs : s.Sound) (hr : s.disp = .reading) (c : ConnID)
    (d : Rudp.Delivery) : ∃ t, s.dispatch p c d = .ok t ∧ t.Sound := by
  cases d with
  | data payload =>
      obtain ⟨m, hm⟩ := Wire.decode_total payload
      rw [Sys.dispatch, hm, Go.ok_bind]
      match m with
      | some .join =>
        have hmove : Move wl p s (.readJoin c) (s.onJoin c) := onJoin_move hr
        exact ⟨_, rfl, hs.move hmove (by simp)⟩
      | some (.request req) =>
        have hmove : Move wl p s (.readRequest c req) (s.onRequest p c req) := onRequest_move hr
        refine ⟨_, onRequestGo_eq p s c req, hs.move hmove ?_⟩
        rintro _ _ ⟨rfl, rfl⟩
        exact (Wire.bytes_of_decode hm).1
      | some (.chunkResult r) =>
        have hmove : Move wl p s (.readResult c r) (s.onResult c r) := onResult_move hr
        exact ⟨_, rfl, hs.move hmove (by simp)⟩
      | none | some (.chunk _) | some (.result _) => exact ⟨s, rfl, hs⟩
  | err e =>
      have hs' := hs.connDown c
      have hmove : Move wl p { s with down := insert c s.down } (.readError c)
          (({ s with down := insert c s.down } : Sys).onError c) :=
        onError_move hr (Finset.mem_insert_self _ _)
      exact ⟨_, hs'.served.onErrorGo_eq c, hs'.move hmove (by simp)⟩
  | mainDone => exact ⟨s, rfl, hs⟩

/-- What a step has written can be encoded. -/
lemma Sound.written (hs : s.Sound) {a : Action} (h : Move wl p s a t) :
    ∀ e ∈ s.written t, e.2.2.Fits := by
  obtain ⟨chunks, hwrote, hshort⟩ := h.wrote_short hs.short
  intro e he
  rcases List.mem_append.mp he with he | he
  · rw [hwrote, List.drop_left] at he
    obtain ⟨ch, hch, rfl⟩ := List.mem_map.mp he
    exact hshort ch hch
  · obtain ⟨o, -, ho⟩ := List.mem_filterMap.mp he
    split at ho
    · obtain rfl := Option.some_inj.mp ho
      exact Nat.zero_le _
    · cases ho

end Sys

/-! ## The process -/

/-- What is true of the process at every step. -/
structure Host.Ok {Addr : Type} (ops : Rudp.AddrOps Addr) (s : Host Addr) : Prop where
  server : s.server.Ok ops
  sys : s.sys.Sound

namespace Host

open Rudp (AddrOps Server ServerAction)

variable {Addr : Type} {ops : AddrOps Addr} {rp : Rudp.Params} {wl : Workload} {p : Params}
  {s t : Host Addr}

/-- What a step of a process in order comes to: a state in order, or a panic after connection IDs
have wrapped around. -/
def Lands (ops : AddrOps Addr) (s : Host Addr) (r : Go (Host Addr)) : Prop :=
  (∃ t, r = .ok t ∧ t.Ok ops) ∨ (∃ e, r = .error e) ∧ 2 ^ 32 ≤ s.server.accepted

lemma Ok.server_spec (hs : s.Ok ops) {a : ServerAction Addr} {r : Go (Server Addr)}
    (h : s.server.step ops rp a = some r) :
    (∃ u, r = .ok u ∧ u.Ok ops) ∨ (∃ e, r = .error e) ∧ 2 ^ 32 ≤ s.server.accepted := by
  cases r with
  | ok u => exact .inl ⟨u, rfl, (Server.step_move h).ok hs.server⟩
  | error e => exact .inr ⟨⟨e, rfl⟩, not_lt.mp fun hlt => hs.server.no_panic hlt a e h⟩

lemma Ok.seeDone (hs : s.Ok ops) (g : ℕ) : (s.seeDone g).Ok ops := by
  unfold Host.seeDone
  split
  · split_ifs
    · exact ⟨hs.server, hs.sys.connDown _⟩
    · exact hs
  · exact hs

lemma Ok.transport_spec (hs : s.Ok ops) {a : ServerAction Addr} {r : Go (Host Addr)}
    (h : s.transport ops rp a = some r) : s.Lands ops r := by
  obtain ⟨r', hr', rfl⟩ := Option.map_eq_some_iff.mp h
  rcases hs.server_spec hr' with ⟨u, rfl, hu⟩ | ⟨⟨e, rfl⟩, hbig⟩
  · have hs' : ({ s with server := u } : Host Addr).Ok ops := ⟨hu, hs.sys⟩
    refine .inl ⟨_, rfl, ?_⟩
    split
    · exact hs'.seeDone _
    · exact hs'
  · exact .inr ⟨⟨e, rfl⟩, hbig⟩

lemma Ok.read_spec (wl : Workload) (hs : s.Ok ops) {g : ℕ} {r : Go (Host Addr)}
    (h : s.read ops rp p g = some r) : s.Lands ops r := by
  unfold Host.read at h
  split_ifs at h with hdisp
  obtain ⟨c, -, h⟩ := Option.bind_eq_some_iff.mp h
  split at h
  · cases h
  · rename_i d _ _
    obtain ⟨r', hr', rfl⟩ := Option.map_eq_some_iff.mp h
    obtain ⟨sys, hsys, hsound⟩ := hs.sys.dispatch (p := p) wl hdisp c.conn.id.toNat d
    rcases hs.server_spec hr' with ⟨u, rfl, hu⟩ | ⟨⟨e, rfl⟩, hbig⟩
    · refine .inl ⟨{ s with server := u, sys := sys }, ?_, hu, hsound⟩
      rw [Go.ok_bind, hsys]
      rfl
    · exact .inr ⟨⟨e, rfl⟩, hbig⟩

lemma Ok.sched_spec (hs : s.Ok ops) {a : Action} {r : Go (Host Addr)}
    (h : s.sched wl p a = some r) : s.Lands ops r := by
  unfold Host.sched at h
  split_ifs at h with hguard
  obtain ⟨sys, hsys, rfl⟩ := Option.map_eq_some_iff.mp h
  have hmove := Sys.step_move hsys
  -- requests come from the transport only
  have hreq : ∀ c req, a = .readRequest c req → Short req.msg := by
    rintro c req rfl
    exact absurd (.inl rfl) hguard
  have hsound := hs.sys.move hmove hreq
  obtain ⟨ws, hws⟩ := Go.mapM_ok (l := s.sys.written sys)
    (f := fun e => do return (e.1, e.2.1, ← encodeWrite e.2.2)) fun e he => by
      rw [encodeWrite_of_fits (hs.sys.written hmove e he)]
      exact ⟨_, rfl⟩
  refine .inl ⟨{ s with sys := sys, writing := s.writing ++ ws }, ?_, hs.server, hsound⟩
  unfold checked
  rw [hws, Go.ok_bind, if_pos hsound.ok.agg.closed_nodup]
  rfl

lemma Ok.write_spec (hs : s.Ok ops) {x : Goroutine} {clock : ℕ → Time} {r : Go (Host Addr)}
    (h : s.write ops rp x clock = some r) : s.Lands ops r := by
  unfold Host.write at h
  split at h
  · cases h
  · obtain ⟨r', hr', rfl⟩ := Option.map_eq_some_iff.mp h
    rcases hs.server_spec hr' with ⟨u, rfl, hu⟩ | ⟨⟨e, rfl⟩, hbig⟩
    · exact .inl ⟨_, rfl, hu, hs.sys⟩
    · exact .inr ⟨⟨e, rfl⟩, hbig⟩

/-- Every step of a process in order. -/
lemma Ok.step_spec (hs : s.Ok ops) {a : HostAction Addr} {r : Go (Host Addr)}
    (h : s.step ops rp wl p a = some r) : s.Lands ops r := by
  cases a with
  | transport a =>
      rw [step] at h
      split_ifs at h
      exact hs.transport_spec h
  | read g => exact hs.read_spec wl h
  | sched a => exact hs.sched_spec h
  | write x clock => exact hs.write_spec h
  | drop x =>
      rw [step, drop] at h
      split at h
      · cases h
      · split_ifs at h
        obtain rfl := Option.some_inj.mp h
        exact .inl ⟨_, rfl, hs.server, hs.sys⟩

/-- A state that is reached is in order. -/
lemma run_ok {boot : Recovered} (hb : boot.Boots) (hlog : boot.agg.ShortLog)
    (hfeeds : ∀ f ∈ boot.feeds, Short f.spec.msg) {as : List (HostAction Addr)}
    (h : run (Go.survive (step ops rp wl p)) (start boot) as = some s) : s.Ok ops := by
  have hstart : (start boot : Host Addr).Ok ops :=
    ⟨Server.start_ok, Sys.start_ok hb, Sys.start_served boot, Sys.start_short hlog hfeeds⟩
  refine run_invariant (P := Ok ops) (fun s a t hs hstep => ?_) hstart h
  rcases hs.step_spec (Go.survive_eq_some.mp hstep) with ⟨u, hu, hok⟩ | ⟨⟨e, he⟩, -⟩
  · obtain rfl := Except.ok.inj hu
    exact hok
  · cases he

end Host

/-! ## Logs this server has written -/

/-- The record lists a process can find in its log: none yet, any prefix of what an earlier
process had logged when it stopped, or the list a start-up rewrote the log to. -/
inductive ServerLog (Addr : Type) : List Record → Prop
  | empty : ServerLog Addr []
  | left {ops : Rudp.AddrOps Addr} {rp : Rudp.Params} {wl : Workload} {p : Params} {now : Time}
      {ords : RecoverOrders} {recs : List Record} {fails : ℕ → Bool} {boot : Recovered}
      {as : List (HostAction Addr)} {s : Host Addr} {l : Log} (hrecs : ServerLog Addr recs)
      (hboot : recover wl now ords (some (recs, fails)) = some boot)
      (hrun : run (Go.survive (Host.step ops rp wl p)) (Host.start boot) as = some s)
      (hlog : s.sys.agg.log = some l) (n : ℕ) : ServerLog Addr (l.recs.take n)
  | rewritten {wl : Workload} {now : Time} {ords : RecoverOrders} {recs : List Record}
      (hrecs : ServerLog Addr recs) :
      ServerLog Addr ((Replay.rebuilt wl now ords.finish recs).compact ords.snapshot ords.jobs)

/-- Such a log holds short strings only. -/
lemma ServerLog.short {Addr : Type} {recs : List Record} (h : ServerLog Addr recs) :
    ∀ r ∈ recs, Short r.msg := by
  induction h with
  | empty => simp
  | @left ops rp wl p now ords recs fails boot as s l hrecs hboot hrun hlog n ih =>
      intro r hr
      obtain ⟨hshort, hfeeds⟩ := recover_short (fun _ _ he => by cases he; exact ih) hboot
      have hs := Host.run_ok (recover_boots hboot) hshort hfeeds hrun
      exact hs.sys.short.log l hlog r (List.mem_of_mem_take hr)
  | rewritten hrecs ih => exact (Replay.rebuilt_short _ _ _ ih).compact _ _

/-- **No sequence of datagrams crashes the server.**  Started without a log, or from one it has
written itself, and with fewer than `2 ^ 32` connections accepted so far, the process takes no step
that panics, whatever datagrams have arrived from whatever addresses and however its goroutines
were scheduled. -/
theorem Host.never_panics {Addr : Type} {ops : Rudp.AddrOps Addr} {rp : Rudp.Params}
    {wl : Workload} {p : Params} {now : Time} {ords : RecoverOrders}
    {file : Option (List Record × (ℕ → Bool))} {boot : Recovered}
    (hfile : ∀ recs fails, file = some (recs, fails) → ServerLog Addr recs)
    (hboot : recover wl now ords file = some boot) {as : List (HostAction Addr)} {s : Host Addr}
    (hrun : run (Go.survive (Host.step ops rp wl p)) (Host.start boot) as = some s)
    (hlt : s.server.accepted < 2 ^ 32) (a : HostAction Addr) (e : Panic) :
    s.step ops rp wl p a ≠ some (.error e) := by
  intro h
  obtain ⟨hshort, hfeeds⟩ :=
    recover_short (fun recs fails he => (hfile recs fails he).short) hboot
  have hs := Host.run_ok (recover_boots hboot) hshort hfeeds hrun
  rcases hs.step_spec h with ⟨t, ht, -⟩ | ⟨-, hbig⟩
  · cases ht
  · exact absurd hbig (not_le.mpr hlt)

/-- A worker connects, garbage arrives from somewhere else, the worker joins. -/
def joinRun : List (HostAction ℕ) :=
  let round : List (HostAction ℕ) :=
    [.transport (.turn Rudp.seqOrder), .transport (.sweep false Rudp.seqOrder)]
  round ++ [.transport (.datagram [1, 0, 0, 0, 0, 0, 0, 0, 0, 0, 0] 7)] ++
  round ++ [.transport (.datagram [255, 3] 9)] ++
  round ++ [.transport (.datagram [3, 0, 0, 0, 1, 0, 0, 0, 1, 0, 1, 1] 7), .transport .handOver,
    .transport (.recv 1 fun _ => 0), .read 1]

theorem Host.never_panics_joinRun :
    ∃ s, run (Go.survive (Host.step Rudp.onePeer Rudp.Params.default Workload.largest
        Params.default)) (Host.start ⟨Agg.empty, []⟩) joinRun = some s ∧
      s.server.accepted = 1 ∧ s.sys.workers.lookup 1 = some 0 ∧
      ∀ a e, s.step Rudp.onePeer Rudp.Params.default Workload.largest Params.default a ≠
        some (.error e) := by
  have hval : (run (Go.survive (Host.step Rudp.onePeer Rudp.Params.default Workload.largest
      Params.default)) (Host.start ⟨Agg.empty, []⟩) joinRun).map
        (fun s => (s.server.accepted, s.sys.workers.lookup 1)) = some (1, some 0) := by
    decide +kernel
  obtain ⟨s, hrun, hs⟩ := Option.map_eq_some_iff.mp hval
  obtain ⟨hacc, hworker⟩ := Prod.mk.inj hs
  have hboot : recover Workload.largest 0 ⟨idOrder, idOrder, idOrder⟩ none =
    some ⟨Agg.empty, []⟩ := rfl
  exact ⟨s, hrun, hacc, hworker, Host.never_panics (by simp) hboot hrun (by omega)⟩

end RudpScheduler
