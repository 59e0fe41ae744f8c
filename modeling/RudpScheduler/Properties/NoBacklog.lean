import RudpScheduler.Properties.PipelineInvariant

/-!
# A worker connection never has a backlog

The worker loop stops at its window, which is the transport's too, so a chunk it writes should
always find room in the send buffer.  For that, every unacknowledged message has to belong to a task
that is still in flight: a result must not come back while its chunk is unacknowledged.

On a network that keeps the order this is so for the first copy of a task.  The worker's end
acknowledges a chunk before `RunWorker` sees it, so the Ack is ahead of the result
(`Pipeline.Tracked`).  It is not so for a copy sent while an older copy, or the result of one, is
still on its way: that result takes the task out of `inflight`, and the new copy is left
unacknowledged (`Pipeline.resentRun_backlog`).  The worker loop does send such copies, because a
task it has cloned comes back to it through `pq`, and a retransmission makes the worker answer
twice.

`Pipeline.no_backlog` is what holds: in every run in which the loop writes a task to the worker only
when no older copy of it and no result for it is on its way (`Pipeline.NoOldCopy`), nothing ever
waits in `pendingWrites`, and the unacknowledged messages never outnumber the tasks in flight.
-/

namespace RudpScheduler

open Rudp (Flow Payload View)

namespace Pipeline

/-- Nothing waits for room in the window, and as long as the `mainLoop` runs, the unacknowledged
messages do not outnumber the tasks in flight. -/
structure NoBacklog (s : Pipeline) : Prop where
  pending : s.server.pendingWrites = []
  counted : s.server.phase = .main → GoMap.len s.server.sendBuffer ≤ s.inflight

/-- The loop writes a task to the worker only when no older copy of it, and no result for it, is on
its way. -/
def NoOldCopy (p : Params) (s : Pipeline) : PipeAction → Prop
  | .sched (.loop w a) => ∀ l t, s.sys.workers.lookup s.conn = some w →
    s.sys.loops.lookup w = some l → l.takes p s.sys.queues a = some t →
    l.inflight.lookup t.id = none → ¬ s.OnItsWay t.id
  | _ => True

variable {s t : Pipeline} {x : TaskID} {wl : Workload} {p : Params} {rp rc : Rudp.Params}

/-! ## The invariant -/

/-- What is true of the path at every step, with the count as long as the `mainLoop` runs. -/
structure Inv (p : Params) (s : Pipeline) : Prop where
  ok : s.Ok p
  pending : s.server.pendingWrites = []
  counted : s.server.phase = .main → s.Counted

lemma Inv.serverRound {wire : Rudp.Packet → Prop} {written : Payload → Prop} {c' : Rudp.Conn}
    {sys' : Sys} {u : ℕ} (hs : s.Inv p) (hflow : Flow wire written s.server.view c'.view)
    (hwritten : ∀ d, ¬ written d) (hok : Ok p { s with server := c', sys := sys', upArrived := u })
    (hside : c'.phase = .main →
      ServerSide s { s with server := c', sys := sys', upArrived := u }) :
    Inv p { s with server := c', sys := sys', upArrived := u } where
  ok := hok
  pending := by
    refine List.eq_nil_iff_forall_not_mem.mpr fun d hd => ?_
    have hd' := (hflow.pending d hd).resolve_right (hwritten d)
    rw [show s.server.view.pending = [] from hs.pending] at hd'
    cases hd'
  counted hm := (hside hm).counted (hs.counted (hflow.main hm))

/-- A datagram arrives at the server's end. -/
lemma Inv.up (hs : s.Inv p) {clock : ℕ → Time} {pkt : Rudp.Packet} {rest : List Rudp.Packet}
    {server : Rudp.Conn} (hnet : s.toServer = pkt :: rest)
    (hstep : s.server.step rp (.packet pkt clock) = some server) :
    Inv p { s with server := server, upArrived := s.upArrived + 1 } := by
  have hflow := Rudp.Conn.step_flow hstep
  have hwire : ∀ pkt', (∃ clock', Rudp.Input.packet pkt clock = .packet pkt' clock') →
      pkt' ∈ [pkt] := by
    rintro pkt' ⟨clock', he⟩
    obtain ⟨rfl, -⟩ := Rudp.Input.packet.inj he
    exact List.mem_singleton_self _
  obtain ⟨hup, hle⟩ := toServer_cons hnet
  have hok := hs.ok.serverRound hflow hup hwire hle hs.ok.sys hs.ok.served hs.ok.fits
    hs.ok.stranger fun hm => hs.ok.own (hflow.main hm)
  refine hs.serverRound hflow (by simp) hok fun hm => ?_
  refine serverSide_of_flow hs.ok hs.pending hflow (by simp) hup hwire (fun k hk => ?_)
    (fun _ hw => hw) (fun _ hx => .inr hx) fun _ hx _ => hx
  obtain rfl := List.mem_singleton.mp hk
  exact Rudp.Conn.step_acked (hflow.main hm) hs.pending hstep

/-- A round of the server's end without a write and without a datagram, with what the scheduler
does about it. -/
lemma Inv.quietRound (hs : s.Inv p) {server : Rudp.Conn} {sys' : Sys} {wire : Rudp.Packet → Prop}
    {written : Payload → Prop} (hflow : Flow wire written s.server.view server.view)
    (hwire : ∀ pkt, ¬ wire pkt) (hwritten : ∀ d, ¬ written d) (hsys : Dispatched p s sys') :
    Inv p { s with server := server, sys := sys' } ∧
      (server.phase = .main → ServerSide s { s with server := server, sys := sys' }) := by
  have hno : ∀ pkt, wire pkt → pkt ∈ ([] : List Rudp.Packet) := fun pkt hp => absurd hp (hwire pkt)
  have hok := hs.ok.serverRound (u := s.upArrived) hflow (List.nil_append _).symm hno hs.ok.up_le
    hsys.ok hsys.served hsys.fits hsys.stranger fun hm => hsys.own (hflow.main hm)
  have hside : server.phase = .main →
      ServerSide s { s with server := server, sys := sys', upArrived := s.upArrived } := by
    intro hm
    have hm' := hflow.main hm
    exact serverSide_of_flow hs.ok hs.pending hflow hwritten (List.nil_append _).symm hno (by simp)
      (hsys.workers hm') (hsys.result hm') (hsys.awaits hm')
  exact ⟨hs.serverRound hflow hwritten hok hside, hside⟩

/-- The dispatcher reads from the connection. -/
lemma Inv.read (wl : Workload) (hs : s.Inv p) {server : Rudp.Conn} {d : Rudp.Delivery} {sys' : Sys}
    (hr : s.sys.disp = .reading) (hstep : s.server.step rp .read = some server)
    (hret : server.returned.getLast? = some d) (hsys : s.sys.dispatch p s.conn d = .ok sys') :
    Inv p { s with server := server, sys := sys' } := by
  refine (hs.quietRound (Rudp.Conn.step_flow hstep) (by simp) (by simp) ?_).1
  have hin : ∀ payload, d = .data payload → s.server.view.Incoming payload := by
    rintro payload rfl
    exact .inl (mem_queue_of_read hstep hret (by simp))
  have hfrom : ∀ payload, d = .data payload → FromNode payload :=
    fun payload hd => hs.ok.incoming payload (hin payload hd)
  rcases Sys.dispatch_cases hfrom hsys with rfl | rfl | ⟨payload, r, hd, hdec, rfl⟩ | ⟨e, hd, rfl⟩
  · exact hs.ok.dispatched
  · exact hs.ok.dispatched_join wl hr
  · exact hs.ok.dispatched_result wl hr ⟨payload, hin payload hd, r, hdec, rfl⟩
  · refine hs.ok.dispatched_error wl hr fun hm => hs.ok.noErr hm e ?_
    subst hd
    exact mem_queue_of_read hstep hret (by simp)

/-! ## Writing -/

/-- The connection takes the chunk the loop is writing: there is room for it, and it becomes the one
message that carries its task. -/
lemma Counted.take (hs : s.Counted) (hx : s.Fresh x) {d : Payload} (hd : CarriesChunk x d)
    {server : Rudp.Conn} {n : UInt32} {e : Goroutine × Payload} (he : s.writing = [e])
    (hview : server.view = ({ s.server.view with
      nextSeq := n
      buffer := Function.update s.server.view.buffer n (some d)
      accepted := s.server.accepted ++ [d] }.send .data n d))
    (hle : s.downArrived ≤ s.server.sent.length) :
    Counted { s with server := server, writing := s.writing.erase e } := by
  have hid : server.id = s.server.id := congrArg View.id hview
  have hconn : conn { s with server := server, writing := s.writing.erase e } = s.conn :=
    congrArg UInt32.toNat hid
  have hbuf : ∀ k d', server.view.buffer k = some d' →
      k = n ∧ d' = d ∨ k ≠ n ∧ s.server.view.buffer k = some d' := by
    intro k d' hk
    rw [hview] at hk
    have hk' : Function.update s.server.view.buffer n (some d) k = some d' := hk
    rw [Function.update_apply] at hk'
    split_ifs at hk' with heq
    · exact .inl ⟨heq, (Option.some_inj.mp hk').symm⟩
    · exact .inr ⟨heq, hk'⟩
  have hdown : toWorker { s with server := server, writing := s.writing.erase e } =
      s.toWorker ++ [⟨.data, s.server.id, n, d⟩] := by
    have hsent : server.sent = s.server.sent ++ [⟨.data, s.server.id, n, d⟩] :=
      congrArg View.sent hview
    exact (congrArg (List.drop _) hsent).trans (List.drop_append_of_le_length hle)
  have hat : ∀ y, AtServer { s with server := server, writing := s.writing.erase e } y →
      s.AtServer y := by
    rintro y (⟨d', hin, hy⟩ | hy)
    · rw [hview] at hin
      exact .inl ⟨d', hin, hy⟩
    · exact .inr (hconn ▸ hy)
  refine ⟨fun k d' hk => ?_, fun k k' d₁ d₂ y hk hk' hy hy' => ?_, by simp [he], by simp [he]⟩
  · rcases hbuf k d' hk with ⟨rfl, rfl⟩ | ⟨hne, hk⟩
    · refine ⟨x, hd, hconn ▸ hx.awaited, fun hb => ?_, .inr ⟨fun ha => ?_, fun hu => ?_, ?_⟩⟩
      · exact hx.nowhere (.inr (.inr (.inr (hat x hb))))
      · exact hx.nowhere (.inr (.inl ha))
      · exact hx.nowhere (.inr (.inr (.inl hu)))
      · intro pkt hpkt hty hch
        rw [hdown] at hpkt
        rcases List.mem_append.mp hpkt with hpkt | hpkt
        · exact absurd (.inl ⟨pkt, hpkt, hty, hch⟩) hx.nowhere
        · rw [List.mem_singleton.mp hpkt]
    · obtain ⟨y, hy, hin, hnot, htr⟩ := hs.entry k d' hk
      refine ⟨y, hy, hconn ▸ hin, fun hb => hnot (hat y hb), ?_⟩
      rw [show Pipeline.server { s with server := server, writing := s.writing.erase e } = server
        from rfl, hid]
      refine htr.imp_right ?_
      rintro ⟨hnw, hns, hseq⟩
      refine ⟨hnw, hns, fun pkt hpkt hty hch => ?_⟩
      rw [hdown] at hpkt
      rcases List.mem_append.mp hpkt with hpkt | hpkt
      · exact hseq pkt hpkt hty hch
      · -- the new message carries another task
        rw [List.mem_singleton.mp hpkt] at hch
        exact absurd (hch.unique hd ▸ hy) (hx.unsent k d' hk)
  · rcases hbuf k d₁ hk with ⟨rfl, rfl⟩ | ⟨hne, hk⟩ <;>
      rcases hbuf k' d₂ hk' with ⟨rfl, rfl⟩ | ⟨hne', hk'⟩
    · rfl
    · exact absurd (hy.unique hd ▸ hy') (hx.unsent k' d₂ hk')
    · exact absurd (hy'.unique hd ▸ hy) (hx.unsent k d₁ hk)
    · exact hs.inj k k' d₁ d₂ y hk hk' hy hy'

lemma Inv.take (hwin : p.window = rp.window) (hs : s.Inv p) {clock : ℕ → Time}
    {e : Goroutine × Payload} {server : Rudp.Conn} (he : e ∈ s.writing)
    (hstep : s.server.step rp (.write e.2 clock) = some server) :
    Inv p { s with server := server, writing := s.writing.erase e } := by
  have hflow := Rudp.Conn.step_flow hstep
  have hok := hs.ok.serverRound (u := s.upArrived) hflow (List.nil_append _).symm (by simp)
    hs.ok.up_le hs.ok.sys hs.ok.served hs.ok.fits hs.ok.stranger
    fun hm => hs.ok.own (hflow.main hm)
  by_cases hm : s.server.phase = .main
  · have hc := hs.counted hm
    obtain ⟨w, x, -, -, hx, hfresh⟩ := hc.writing e he
    have hone : s.writing = [e] := by
      obtain ⟨e', he'⟩ := List.length_eq_one_iff.mp
        (le_antisymm hc.single (List.length_pos_of_mem he))
      rw [he'] at he ⊢
      rw [List.mem_singleton.mp he]
    have hroom := hc.len_lt hfresh hs.ok.fits
    have hview := Rudp.Conn.step_write_room hm hs.pending (hwin ▸ hroom) hstep
    refine ⟨{ hok with }, ?_, fun _ => hc.take hfresh hx hone hview hs.ok.down_le⟩
    exact (congrArg View.pending hview).trans hs.pending
  · -- after `Close` writes are discarded, and later none is taken
    have hsame : server = s.server := by
      simp only [Rudp.Conn.step] at hstep
      cases hph : s.server.phase <;> simp only [hph, Option.some_inj, reduceCtorEq] at hstep
      · exact absurd hph hm
      · exact hstep.symm
    subst hsame
    exact ⟨{ hok with }, hs.pending, fun hm' => absurd hm' hm⟩

/-- The chunk the loop has begun to write is fresh: nothing of its task is on its way, and since it
was not in flight, no message carries it. -/
lemma Counted.write (hs : s.Counted) {sys' : Sys} (hside : ServerSide s { s with sys := sys' })
    {w : ℕ} {l : Worker} (hw : s.sys.workers.lookup s.conn = some w)
    (hl : s.sys.loops.lookup w = some l) (hnew : l.inflight.lookup x = none)
    (hway : ¬ s.OnItsWay x) (hin : sys'.Awaits s.conn x) {d : Payload} (hd : CarriesChunk x d)
    (hempty : s.writing = []) :
    Counted { s with sys := sys', writing := s.writing ++ [(.loop w, d)] } := by
  have hunsent : ∀ k d', s.server.view.buffer k = some d' → ¬ CarriesChunk x d' := by
    intro k d' hk hx
    obtain ⟨y, hy, ⟨w', l', hw', hl', hin'⟩, -⟩ := hs.entry k d' hk
    obtain rfl := hx.unique hy
    obtain rfl := Option.some_inj.mp (hw.symm.trans hw')
    obtain rfl := Option.some_inj.mp (hl.symm.trans hl')
    exact hin' hnew
  have hc := hside.counted hs
  refine { hc with writing := fun e he => ?_, single := by simp [hempty] }
  rw [hempty, List.nil_append] at he
  obtain rfl := List.mem_singleton.mp he
  refine ⟨w, x, rfl, hside.workers w hw, hd, hin, ?_, hunsent⟩
  exact fun ht => hway (hside.onItsWay hunsent ht)

lemma encodeWrites_single {y : Goroutine} {m : Message} {ws : List (Goroutine × Payload)}
    (h : encodeWrites [(y, m)] = .ok ws) : ∃ d, encodeWrite m = .ok d ∧ ws = [(y, d)] := by
  rw [encodeWrites, List.mapM_cons] at h
  obtain ⟨b, hb, h⟩ := Go.bind_eq_ok.mp h
  obtain ⟨d, hd, hb⟩ := Go.bind_eq_ok.mp hb
  obtain rfl := Except.ok.inj hb
  exact ⟨d, hd, (Except.ok.inj h).symm⟩

/-- A step of the scheduler that does not hear from the connection. -/
lemma Inv.sched (hs : s.Inv p) {a : Action} {sys' : Sys} {ws : List (Goroutine × Payload)}
    (hc : a.heard ≠ some s.conn) (hfree : ∀ e ∈ s.writing, some e.1 ≠ a.runner)
    (hstep : s.sys.step wl p a = some sys')
    (hws : encodeWrites (writtenTo s.conn s.sys sys') = .ok ws)
    (hsafe : s.NoOldCopy p (.sched a)) :
    Inv p { s with sys := sys', writing := s.writing ++ ws } := by
  have hrefl : Flow (fun _ => False) (fun _ => False) s.server.view s.server.view := .refl _
  obtain ⟨hinv, hside⟩ := hs.quietRound hrefl (by simp) (by simp)
    (hs.ok.dispatched_move hc (Sys.step_move hstep))
  refine ⟨{ hinv.ok with }, hs.pending, fun hm => ?_⟩
  rcases Sys.writtenTo_cases hs.ok.stranger hc hstep with
    hnone | ⟨w, la, l, o, ch, rfl, hl, hh, hlstep, hch, hl', hone⟩
  · obtain rfl : ws = [] := (Except.ok.inj ((congrArg encodeWrites hnone).symm.trans hws)).symm
    rw [List.append_nil]
    exact hinv.counted hm
  · rw [hone] at hws
    obtain ⟨d, hd, rfl⟩ := encodeWrites_single hws
    have hw := hs.ok.own hm w l hl hh
    obtain ⟨task, htakes, hnew, rfl⟩ := Worker.step_chunk hlstep (hch ▸ List.mem_singleton_self ch)
    have hin : sys'.Awaits s.conn task.id := by
      rcases (Worker.step_move hlstep).chunks_cases with hnil | ⟨task', htask, hin⟩
      · rw [hnil] at hch
        cases hch
      · have hid : task'.id = task.id :=
          congrArg Chunk.id (List.singleton_inj.mp (htask.symm.trans hch))
        exact ⟨w, o.2.1, (hside hm).workers w hw, hl', hid ▸ hin⟩
    refine (hs.counted hm).write (hside hm) hw hl hnew ?_ hin ?_ ?_
    · exact hsafe l task hw hl htakes hnew
    · exact ⟨task.chunk, decode_of_encodeWrite hd, rfl⟩
    · -- only this loop writes to the connection, and it is not in `Write`
      refine List.eq_nil_iff_forall_not_mem.mpr fun e he => ?_
      obtain ⟨w', x, he', hw', -⟩ := (hs.counted hm).writing e he
      obtain rfl := Option.some_inj.mp (hw.symm.trans hw')
      exact hfree e he (congrArg some he')

/-! ## Every run -/

lemma start_inv {boot : Recovered} (hb : boot.Boots) (id : UInt32) : (start boot id).Inv p := by
  have hloops : ∀ w, (Sys.start boot).loops.lookup w = none :=
    Sys.start_induction (P := fun s => ∀ w, s.loops.lookup w = none) (by simp [Sys.initial])
      fun _ _ _ hs => hs
  have hbuf : ∀ k, (start boot id).server.view.buffer k = none := fun k => by
    simp [start, Rudp.newConn, Rudp.Conn.view]
  refine ⟨⟨Sys.start_ok hb, Sys.start_served boot, Sys.start_fits boot, Sys.start_stranger hb, rfl,
    le_rfl, le_rfl, ?_, ?_, ?_, ?_, ?_, ?_⟩, rfl, fun _ => ⟨?_, ?_, ?_, ?_⟩⟩
  · rintro m ⟨rfl⟩
    exact .inl rfl
  · rintro d (hd | ⟨k, hk⟩)
    · cases hd
    · simp [start, Rudp.newConn, Rudp.Conn.view] at hk
  · simp [toServer, start, Rudp.newConn]
  · rintro d (hd | ⟨k, hk⟩)
    · cases hd
    · simp [start, Rudp.newConn, Rudp.Conn.view] at hk
  · simp [start, Rudp.newConn]
  · intro _ w l hl
    rw [show (start boot id).sys.loops.lookup w = none from hloops w] at hl
    cases hl
  · intro k d hd
    rw [hbuf k] at hd
    cases hd
  · intro k k' d d' x hd
    rw [hbuf k] at hd
    cases hd
  · simp [start]
  · simp [start]

/-- A step that sends no task of which a copy is on its way keeps the invariant. -/
lemma Move.inv {a : PipeAction} (hwin : p.window = rp.window) (h : Move wl p rp rc s a t)
    (hs : s.Inv p) (hsafe : s.NoOldCopy p a) : t.Inv p := by
  have hworker : a.atWorker = true → t.Inv p := by
    intro ha
    obtain ⟨hok, hside⟩ := h.worker hs.ok ha
    exact ⟨hok, hside.server ▸ hs.pending, fun hm => hside.counted (hs.counted (hside.server ▸ hm))⟩
  cases h with
  | sched hc hfree hstep hws => exact hs.sched hc hfree hstep hws hsafe
  | read hr hstep hret hsys => exact hs.read wl hr hstep hret hsys
  | take he hstep => exact hs.take hwin he hstep
  | drop hdead => exact ⟨{ hs.ok with }, hs.pending, fun hm => absurd hm hdead⟩
  | up hnet hstep => exact hs.up hnet hstep
  | upLate hnet hdead =>
      obtain ⟨pkt, rest, hcons⟩ := List.exists_cons_of_ne_nil hnet
      obtain ⟨hup, hle⟩ := toServer_cons hcons
      have hrefl : Flow (fun _ => False) (fun _ => False) s.server.view s.server.view := .refl _
      have hok := hs.ok.serverRound hrefl hup (by simp) hle hs.ok.sys hs.ok.served hs.ok.fits
        hs.ok.stranger hs.ok.own
      exact ⟨hok, hs.pending, fun hm => absurd hm hdead⟩
  | serverTick hstep =>
      exact (hs.quietRound (Rudp.Conn.step_flow hstep) (by simp) (by simp) hs.ok.dispatched).1
  | _ => exact hworker rfl

/-- **A worker connection never has a backlog**, in every run in which no task is written to the
worker while an older copy of it, or a result for it, is on its way. -/
theorem no_backlog {now : Time} {ords : RecoverOrders}
    {file : Option (List Record × (ℕ → Bool))} {boot : Recovered}
    (hboot : recover wl now ords file = some boot) (hwin : p.window = rp.window) {id : UInt32}
    {as : List PipeAction} (hsafe : Along (NoOldCopy p) (step wl p rp rc) (start boot id) as)
    (hrun : run (step wl p rp rc) (start boot id) as = some s) : s.NoBacklog := by
  have hinv : s.Inv p := run_invariant_along (P := Inv p)
    (fun _ _ _ hs hok hstep => (step_move hstep).inv hwin hs hok)
    (start_inv (recover_boots hboot) id) hsafe hrun
  exact ⟨hinv.pending, fun hm => (hinv.counted hm).len_le⟩

/-! ## Two runs -/

/-- How many datagrams and payloads there are between the two ends and at them, except for the
unacknowledged chunks. -/
def load (s : Pipeline) : ℕ :=
  s.toWorker.length + s.toServer.length + s.client.deliverQ.length +
    GoMap.len s.client.recv.held + s.client.pendingWrites.length + GoMap.len s.client.sendBuffer +
    s.server.deliverQ.length + GoMap.len s.server.recv.held

/-- On an idle path nothing is on its way. -/
lemma not_onItsWay_of_idle (hload : s.load = 0) (hnode : s.node = .reading)
    (hdisp : s.sys.disp = .reading)
    (hch : ((s.sys.workers.lookup s.conn).bind s.sys.loops.lookup).map Worker.resultCh = some [])
    (x : TaskID) : ¬ s.OnItsWay x := by
  simp only [load, Nat.add_eq_zero_iff, List.length_eq_zero_iff, GoMap.len_eq_zero_iff] at hload
  obtain ⟨⟨⟨⟨⟨⟨⟨hdown, hup⟩, hcq⟩, hch'⟩, hcp⟩, hcb⟩, hsq⟩, hsh⟩ := hload
  rintro (⟨pkt, hpkt, -⟩ | (⟨d, hd | ⟨k, hk⟩, -⟩ | hn | ⟨d, hd | ⟨k, hk⟩, -⟩) | ⟨pkt, hpkt, -⟩ |
    ⟨d, hd | ⟨k, hk⟩, -⟩ | ⟨w, hw, ⟨r, hf, -⟩ | ⟨l, hl, r, hr, -⟩⟩)
  · rw [hdown] at hpkt
    cases hpkt
  · have hd' : Rudp.Delivery.data d ∈ s.client.deliverQ := hd
    rw [hcq] at hd'
    cases hd'
  · have hk' : s.client.recv.held.lookup k = some d := hk
    rw [hch' k] at hk'
    cases hk'
  · rw [hnode] at hn
    exact hn
  · have hd' : d ∈ s.client.pendingWrites := hd
    rw [hcp] at hd'
    cases hd'
  · have hk' : (s.client.sendBuffer.lookup k).map Rudp.OutMsg.payload = some d := hk
    rw [hcb k] at hk'
    cases hk'
  · rw [hup] at hpkt
    cases hpkt
  · have hd' : Rudp.Delivery.data d ∈ s.server.deliverQ := hd
    rw [hsq] at hd'
    cases hd'
  · have hk' : s.server.recv.held.lookup k = some d := hk
    rw [hsh k] at hk'
    cases hk'
  · rw [hdisp] at hf
    cases hf
  · rw [hw, Option.bind_some, hl, Option.map_some, Option.some_inj] at hch
    rw [hch] at hr
    cases hr

/-- A worker joins on connection 1, and a client on connection 9 submits a job of three chunks. -/
def threeTasks : List PipeAction :=
  [.nodeWrite fun _ => 0, .up fun _ => 0, .read, .down fun _ => 0,
    .sched (.readRequest 9 ⟨7, 0, 30000, []⟩), .sched (.submit 1 0), .sched (.takeReply 1),
    .sched (.feed 1), .sched (.feed 1), .sched (.feed 1)]

/-- The first task is written to the worker while the path is idle. -/
theorem no_backlog_firstTask :
    ∃ s, run (step Workload.largest Params.default Rudp.Params.default Rudp.Params.default)
        (start ⟨Agg.empty, []⟩ 1)
        (threeTasks ++ [.sched (.loop 0 (.poll 0))] ++
          [.sched (.loop 0 (.pullNQ 0)), .take (.loop 0) fun _ => 0]) = some s ∧
      GoMap.len s.server.sendBuffer = 1 ∧ s.inflight = 1 ∧ s.NoBacklog := by
  have hboot : recover Workload.largest 0 ⟨idOrder, idOrder, idOrder⟩ none =
    some ⟨Agg.empty, []⟩ := rfl
  have hpoll : (run (step Workload.largest Params.default Rudp.Params.default Rudp.Params.default)
      (start ⟨Agg.empty, []⟩ 1) threeTasks).map (·.sys.queues.pq) = some [] := by
    decide +kernel
  have hidle : (run (step Workload.largest Params.default Rudp.Params.default Rudp.Params.default)
      (start ⟨Agg.empty, []⟩ 1) (threeTasks ++ [PipeAction.sched (.loop 0 (.poll 0))])).map
        (fun s => (s.load, s.node, s.sys.disp,
          ((s.sys.workers.lookup s.conn).bind s.sys.loops.lookup).map Worker.resultCh)) =
      some (0, .reading, .reading, some []) := by
    decide +kernel
  have hval : (run (step Workload.largest Params.default Rudp.Params.default Rudp.Params.default)
      (start ⟨Agg.empty, []⟩ 1) (threeTasks ++ [PipeAction.sched (.loop 0 (.poll 0))] ++
        [PipeAction.sched (.loop 0 (.pullNQ 0)), .take (.loop 0) fun _ => 0])).map
        (fun s => (GoMap.len s.server.sendBuffer, s.inflight)) = some (1, 1) := by
    decide +kernel
  have hfirst : Along (NoOldCopy Params.default)
      (step Workload.largest Params.default Rudp.Params.default Rudp.Params.default)
      (start ⟨Agg.empty, []⟩ 1) (threeTasks ++ [PipeAction.sched (.loop 0 (.poll 0))]) := by
    refine Along.append_cons _ (Along.of_forall (by simp [threeTasks, NoOldCopy]))
      (fun u hu l t _ _ ht => ?_) fun _ => trivial
    -- the look at `pq` finds it empty
    rw [hu, Option.map_some, Option.some_inj] at hpoll
    simp [Worker.takes, hpoll] at ht
  have hsafe : Along (NoOldCopy Params.default)
      (step Workload.largest Params.default Rudp.Params.default Rudp.Params.default)
      (start ⟨Agg.empty, []⟩ 1) (threeTasks ++ [PipeAction.sched (.loop 0 (.poll 0))] ++
        [PipeAction.sched (.loop 0 (.pullNQ 0)), .take (.loop 0) fun _ => 0]) := by
    refine Along.append_cons _ hfirst (fun u hu l t _ _ _ _ => ?_)
      fun _ => Along.of_forall (by simp [NoOldCopy])
    rw [hu, Option.map_some, Option.some_inj] at hidle
    obtain ⟨hload, hnode, hdisp, hch⟩ := by simpa only [Prod.mk.injEq] using hidle
    exact not_onItsWay_of_idle hload hnode hdisp hch t.id
  obtain ⟨s, hrun, hs⟩ := Option.map_eq_some_iff.mp hval
  obtain ⟨hlen, hin⟩ := Prod.mk.inj hs
  exact ⟨s, hrun, hlen, hin, no_backlog hboot rfl hsafe hrun⟩

end Pipeline

/-- The scheduler's tunables with a window of one. -/
def Params.windowOne : Params :=
  { Params.default with window := 1, pqCap := 64, window_pos := by decide }

/-- The transport's tunables with a window of one. -/
def Rudp.Params.windowOne : Rudp.Params :=
  { Rudp.Params.default with window := 1, window_pos := by decide }

namespace Pipeline

/-- The first task is computed and its result is taken after a millisecond.  The chunk of the second
task is delayed: after 60 ms the transport has sent it twice and the loop has cloned its task.  The
worker answers both copies.  The first answer frees the window, so the loop takes the clone and
writes the task again; the second answer takes the task out of `inflight` while the new chunk is
unacknowledged. -/
def resentRun : List PipeAction :=
  let early : Time := 1000000
  let late : Time := 60 * 1000000
  let compute (now : Time) : List PipeAction := [.nodeRead, .nodeCompute, .nodeWrite fun _ => now]
  let result (now : Time) : List PipeAction :=
    [.read, .sched .forward, .sched (.loop 0 (.poll now)), .sched (.loop 0 (.recvResult now)),
      .sched (.deliver 0 now)]
  List.flatten [
    threeTasks,
    [.sched (.loop 0 (.poll 0)), .sched (.loop 0 (.pullNQ 0)), .take (.loop 0) fun _ => 0,
      .down fun _ => early],
    compute early, [.up fun _ => early, .up fun _ => early], result early, [.down fun _ => early],
    -- the second task, its retransmission and its clone
    [.sched (.loop 0 (.poll early)), .sched (.loop 0 (.pullNQ early)),
      .take (.loop 0) fun _ => early, .serverTick late Rudp.seqOrder, .sched (.loop 0 (.poll late)),
      .sched (.loop 0 (.tick late taskOrder)), .sched (.loop 0 .speculate),
      .sched (.loop 0 .speculate)],
    -- both copies are answered, and the first answer comes back
    [.down fun _ => late], compute late, [.down fun _ => late], compute late,
    [.up fun _ => late, .up fun _ => late], result late,
    -- the clone is written to the same worker, and the second answer comes back
    [.sched (.loop 0 (.poll late)), .take (.loop 0) fun _ => late, .down fun _ => late,
      .up fun _ => late, .up fun _ => late], result late]

/-- The loop writes one more task. -/
def thirdTask : List PipeAction :=
  [.sched (.loop 0 (.poll 60000000)), .sched (.loop 0 (.pullNQ 60000000)),
    .take (.loop 0) fun _ => 60000000]

/-- One message is unacknowledged with nothing in flight, and the third task, written next, has to
wait. -/
theorem resentRun_backlog :
    (∃ s, run (step Workload.largest .windowOne .windowOne .windowOne) (start ⟨Agg.empty, []⟩ 1)
        resentRun = some s ∧
      s.server.phase = .main ∧ GoMap.len s.server.sendBuffer = 1 ∧ s.inflight = 0) ∧
    ∃ s, run (step Workload.largest .windowOne .windowOne .windowOne) (start ⟨Agg.empty, []⟩ 1)
        (resentRun ++ thirdTask) = some s ∧
      s.server.pendingWrites.length = 1 ∧ ¬ s.NoBacklog := by
  -- the long run is evaluated once, and the third task from the state it ends in
  have hval : (run (step Workload.largest .windowOne .windowOne .windowOne)
      (start ⟨Agg.empty, []⟩ 1) resentRun).map
        (fun s => (s.server.phase, GoMap.len s.server.sendBuffer, s.inflight,
          (run (step Workload.largest .windowOne .windowOne .windowOne) s thirdTask).map
            (·.server.pendingWrites.length))) =
      some (.main, 1, 0, some 1) := by
    decide +kernel
  obtain ⟨s, hrun, hs⟩ := Option.map_eq_some_iff.mp hval
  simp only [Prod.mk.injEq] at hs
  obtain ⟨hph, hlen, hin, hnext⟩ := hs
  obtain ⟨t, hrun', ht⟩ := Option.map_eq_some_iff.mp hnext
  refine ⟨⟨s, hrun, hph, hlen, hin⟩, t, ?_, ht, fun h => ?_⟩
  · rw [run_append, hrun]
    exact hrun'
  · rw [h.pending] at ht
    cases ht

end Pipeline

end RudpScheduler