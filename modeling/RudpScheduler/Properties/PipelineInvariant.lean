import RudpScheduler.Properties.TaskCopies

/-!
# The path between a worker loop and its worker, step by step

`Pipeline.Ok` is what holds of the path whatever the loop sends: the scheduler's tables are in
order, everything that comes from the worker's side is a message of `RunWorker`, and the loop that
serves the connection is the one in the dispatcher's table.  The lemmas below say for each kind of
step that it keeps this, and that it is a step of one of the two sides in the sense of
`Properties/TaskCopies.lean`.
-/

namespace RudpScheduler

open Rudp (Flow Payload View)

/-! ## The dispatcher and a worker's connection -/

namespace Sys

variable {s t : Sys} {p : Params} {c : ConnID} {d : Rudp.Delivery}

/-- What the dispatcher does with what a worker's connection delivers. -/
lemma dispatch_cases (hd : ∀ payload, d = .data payload → FromNode payload)
    (h : s.dispatch p c d = .ok t) :
    t = s ∨ t = s.onJoin c ∨
      (∃ payload r, d = .data payload ∧ Wire.decode payload = .ok (some (.chunkResult r)) ∧
        t = s.onResult c r) ∨
      ∃ e, d = .err e ∧ t = ({ s with down := insert c s.down } : Sys).onError c := by
  cases d with
  | data payload =>
      obtain ⟨m, hm, h⟩ := Go.bind_eq_ok.mp h
      rcases hd payload rfl with hj | ⟨r, hr⟩
      · obtain rfl := Except.ok.inj (hj.symm.trans hm)
        exact .inr (.inl (Except.ok.inj h).symm)
      · obtain rfl := Except.ok.inj (hr.symm.trans hm)
        exact .inr (.inr (.inl ⟨payload, r, rfl, hr, (Except.ok.inj h).symm⟩))
  | err e =>
      rw [dispatch, onErrorGo] at h
      split_ifs at h
      exact .inr (.inr (.inr ⟨e, rfl, (Except.ok.inj h).symm⟩))
  | mainDone => exact .inl (Except.ok.inj h).symm

lemma Stranger.onJoin (hs : s.Stranger c) : (s.onJoin c).Stranger c := by
  unfold Sys.onJoin
  split_ifs
  · exact hs
  · exact { hs with }

lemma Stranger.onResult (hs : s.Stranger c) (r : ChunkResult) : (s.onResult c r).Stranger c := by
  unfold Sys.onResult
  split
  · exact { hs with }
  · exact hs

lemma Stranger.onError (hs : s.Stranger c) : (s.onError c).Stranger c := by
  unfold Sys.onError
  split
  · exact { hs with }
  · rw [if_neg hs.client]
    exact hs

/-- A Join finds its connection in the table, and nothing happens, or gets a new loop. -/
lemma onJoin_cases (s : Sys) (c : ConnID) :
    s.onJoin c = s ∨ s.workers.lookup c = none ∧ s.onJoin c =
      { s with
        workers := s.workers.insert c s.nextGo
        loops := s.loops.insert s.nextGo (newWorker c)
        nextGo := s.nextGo + 1 } := by
  unfold Sys.onJoin
  split_ifs with h
  · exact .inl rfl
  · rw [not_or, Option.not_isSome_iff_eq_none] at h
    exact .inr ⟨h.1, rfl⟩

end Sys

namespace Pipeline

variable {s t : Pipeline}

/-! ## What is true of the path at every step -/

/-- The tables of the scheduler and the two ends fit together, and everything that comes from the
worker's side is a message of `RunWorker`. -/
structure Ok (p : Params) (s : Pipeline) : Prop where
  sys : s.sys.Ok
  served : s.sys.Served
  fits : s.sys.Fits p
  stranger : s.sys.Stranger s.conn
  id : s.client.id = s.server.id
  down_le : s.downArrived ≤ s.server.sent.length
  up_le : s.upArrived ≤ s.client.sent.length
  node : ∀ m, s.node = .writing m → m = .join ∨ ∃ r, m = .chunkResult r
  outgoing : ∀ d, s.client.view.Outgoing d → FromNode d
  toServer : ∀ pkt ∈ s.toServer, pkt.typ = .data → FromNode pkt.payload
  incoming : ∀ d, s.server.view.Incoming d → FromNode d
  noErr : s.server.phase = .main → ∀ e, .err e ∉ s.server.deliverQ
  /-- As long as the connection lives, a loop that serves it is the one in the table. -/
  own : s.server.phase = .main → ∀ w l, s.sys.loops.lookup w = some l → l.h = s.conn →
    s.sys.workers.lookup s.conn = some w

variable {wl : Workload} {p : Params} {rp rc : Rudp.Params}

section WorkerRounds

variable {wire : Rudp.Packet → Prop} {written : Payload → Prop} {c' : Rudp.Conn} {n : Node} {i : ℕ}

lemma toServer_of_sent (hs : s.Ok p) {new : List Rudp.Packet}
    (h : c'.sent = s.client.sent ++ new) :
    c'.sent.drop s.upArrived = s.toServer ++ new := by
  rw [h, List.drop_append_of_le_length hs.up_le, toServer]

/-- A round of the worker's end, with what `RunWorker` does about it. -/
lemma Ok.workerRound (hs : s.Ok p) (hflow : Flow wire written s.client.view c'.view)
    (hwire : ∀ pkt, wire pkt → pkt ∈ s.toWorker)
    (hwritten : ∀ d, written d → FromNode d ∧ ∀ x, CarriesResult x d → s.node.Has x)
    (hnode : ∀ m, n = .writing m → m = .join ∨ ∃ r, m = .chunkResult r)
    (hhas : ∀ x, n.Has x → s.node.Has x ∨ ∃ d, s.client.view.Incoming d ∧ CarriesChunk x d)
    (hdown : s.downArrived ≤ i ∧ i ≤ s.server.sent.length) :
    Ok p { s with client := c', node := n, downArrived := i } ∧
      WorkerSide s { s with client := c', node := n, downArrived := i } := by
  obtain ⟨new, hnew, hdata, hin⟩ := hflow.sent
  have hsent : c'.sent = s.client.sent ++ new := hnew
  have hout : ∀ d, s.client.view.Outgoing d ∨ written d →
      FromNode d ∧ ∀ x, CarriesResult x d → s.AtWorker x := by
    rintro d (hd | hd)
    · exact ⟨hs.outgoing d hd, fun x hx => .inr (.inr ⟨d, hd, hx⟩)⟩
    · exact ⟨(hwritten d hd).1, fun x hx => .inr (.inl ((hwritten d hd).2 x hx))⟩
  have hdata' : ∀ pkt ∈ new, pkt.typ = .data →
      FromNode pkt.payload ∧ ∀ x, CarriesResult x pkt.payload → s.AtWorker x :=
    fun pkt hpkt hty => hout _ ((hdata pkt hpkt hty).imp_left View.MaySend.outgoing)
  constructor
  · refine { hs with
      id := hflow.id.trans hs.id
      down_le := hdown.2
      up_le := ?_
      node := hnode
      outgoing := fun d hd => (hout d (hflow.outgoing hd)).1
      toServer := fun pkt hpkt hty => ?_ }
    · rw [hsent, List.length_append]
      exact Nat.le_add_right_of_le hs.up_le
    · have hpkt' : pkt ∈ c'.sent.drop s.upArrived := hpkt
      rw [toServer_of_sent hs hsent] at hpkt'
      rcases List.mem_append.mp hpkt' with hpkt | hpkt
      · exact hs.toServer pkt hpkt hty
      · exact (hdata' pkt hpkt hty).1
  · refine ⟨rfl, rfl, rfl, fun pkt hpkt => ?_, new, toServer_of_sent hs hsent, ?_, ?_⟩
    · exact List.drop_subset_drop_left _ hdown.1 hpkt
    · exact fun x pkt hpkt hty hr => (hdata' pkt hpkt hty).2 x hr
    · rintro x (⟨d, hd, hx⟩ | hx | ⟨d, hd, hx⟩)
      · rcases hin d hd with hd | ⟨k, hk, hack⟩
        · exact .inl (.inl ⟨d, hd, hx⟩)
        · exact .inr ⟨_, hwire _ hk, rfl, hx, hs.id ▸ hack⟩
      · exact .inl ((hhas x hx).elim (fun hx => .inr (.inl hx)) .inl)
      · exact .inl ((hout d (hflow.outgoing hd)).2 x hx)

/-- `RunWorker` computes what `Read` has returned, and nothing else. -/
lemma received_has {d : Rudp.Delivery} (h : Node.received d = .ok n) :
    (∀ m, n ≠ .writing m) ∧
      ∀ x, n.Has x → ∃ payload, d = .data payload ∧ CarriesChunk x payload := by
  cases d with
  | data payload =>
      obtain ⟨m, hm, h⟩ := Go.bind_eq_ok.mp h
      split at h
      · obtain rfl := Except.ok.inj h
        exact ⟨by simp, fun x hx => ⟨payload, rfl, _, hm, hx⟩⟩
      · obtain rfl := Except.ok.inj h
        exact ⟨by simp, fun x hx => hx.elim⟩
  | err e =>
      obtain rfl := Except.ok.inj h
      exact ⟨by simp, fun x hx => hx.elim⟩
  | mainDone =>
      obtain rfl := Except.ok.inj h
      exact ⟨by simp, fun x hx => hx.elim⟩

/-- What `Read` has returned was in the queue, unless the connection has ended. -/
lemma mem_queue_of_read {c c' : Rudp.Conn} {rp : Rudp.Params} {d : Rudp.Delivery}
    (h : c.step rp .read = some c') (hret : c'.returned.getLast? = some d) (hd : d ≠ .mainDone) :
    d ∈ c.deliverQ := by
  obtain ⟨-, d', hret', hq⟩ := Rudp.Conn.step_read h
  rw [hret', List.getLast?_concat, Option.some_inj] at hret
  subst hret
  rw [hq.resolve_right hd]
  exact List.mem_cons_self

/-- **The steps of the worker's side.** -/
lemma Move.worker {a : PipeAction} (h : Move wl p rp rc s a t) (hs : s.Ok p)
    (ha : a.atWorker = true) : t.Ok p ∧ WorkerSide s t := by
  have hid : s.downArrived ≤ s.downArrived ∧ s.downArrived ≤ s.server.sent.length :=
    ⟨le_rfl, hs.down_le⟩
  have hsucc : s.toWorker ≠ [] → s.downArrived ≤ s.downArrived + 1 ∧
      s.downArrived + 1 ≤ s.server.sent.length := by
    intro hne
    refine ⟨Nat.le_succ _, ?_⟩
    by_contra hlt
    exact hne (List.drop_eq_nil_of_le (by omega))
  have hrefl : Flow (fun _ => False) (fun _ => False) s.client.view s.client.view := .refl _
  have hkeep : ∀ x, s.node.Has x → s.node.Has x ∨
      ∃ d, s.client.view.Incoming d ∧ CarriesChunk x d := fun x hx => .inl hx
  cases h with
  | @down clock pkt rest client hnet hstep =>
      refine hs.workerRound (Rudp.Conn.step_flow hstep) ?_ (by simp) hs.node hkeep
        (hsucc (by simp [hnet]))
      rintro pkt' ⟨clock', he⟩
      obtain ⟨rfl, -⟩ := Rudp.Input.packet.inj he
      exact hnet ▸ List.mem_cons_self
  | downLate hnet =>
      exact hs.workerRound hrefl (by simp) (by simp) hs.node hkeep (hsucc hnet)
  | clientTick hstep =>
      exact hs.workerRound (Rudp.Conn.step_flow hstep) (by simp) (by simp) hs.node hkeep hid
  | @nodeRead client d node hn hstep hret hnode =>
      obtain ⟨hne, hhas⟩ := received_has hnode
      refine hs.workerRound (Rudp.Conn.step_flow hstep) (by simp) (by simp)
        (fun m hm => absurd hm (hne m)) (fun x hx => .inr ?_) hid
      obtain ⟨payload, hd, hx'⟩ := hhas x hx
      subst hd
      exact ⟨payload, .inl (mem_queue_of_read hstep hret (by simp)), hx'⟩
  | @nodeCompute chunk hn =>
      refine hs.workerRound hrefl (by simp) (by simp) ?_ (fun x hx => .inl ?_) hid
      · rintro m ⟨rfl⟩
        exact .inr ⟨_, rfl⟩
      · rw [hn]
        exact hx
  | @nodeWrite clock m data client hn hm hstep =>
      refine hs.workerRound (Rudp.Conn.step_flow hstep) (by simp) ?_ (by simp)
        (fun x hx => hx.elim) hid
      rintro d ⟨clock', he⟩
      obtain ⟨rfl, -⟩ := Rudp.Input.write.inj he
      have hdec := decode_of_encodeWrite hm
      refine ⟨?_, fun x hx => ?_⟩
      · rcases hs.node m hn with rfl | ⟨r, rfl⟩
        · exact .inl hdec
        · exact .inr ⟨r, hdec⟩
      · obtain ⟨r, hr, rfl⟩ := hx
        rw [hdec] at hr
        obtain rfl := Option.some_inj.mp (Except.ok.inj hr)
        rw [hn]
        rfl
  | nodeDrop hn =>
      exact hs.workerRound hrefl (by simp) (by simp) (by simp) (fun x hx => hx.elim) hid
  | _ => cases ha

end WorkerRounds

/-! ## Steps of the server's side, and what they keep -/

section ServerRounds

variable {wire : Rudp.Packet → Prop} {written : Payload → Prop} {c' : Rudp.Conn} {sys' : Sys}
  {taken : List Rudp.Packet} {u : ℕ}

/-- A round of the server's end without a write, with what the scheduler does about it. -/
lemma serverSide_of_flow (hs : s.Ok p) (hpend : s.server.pendingWrites = [])
    (hflow : Flow wire written s.server.view c'.view) (hwritten : ∀ d, ¬ written d)
    (hup : s.toServer = taken ++ s.client.sent.drop u) (hwire : ∀ pkt, wire pkt → pkt ∈ taken)
    (hack : ∀ k, ⟨.ack, s.server.id, k, []⟩ ∈ taken → c'.view.buffer k = none)
    (hworkers : ∀ w, s.sys.workers.lookup s.conn = some w → sys'.workers.lookup s.conn = some w)
    (hresult : ∀ x, sys'.HasResult s.conn x → s.AtServer x)
    (hawaits : ∀ x, s.sys.Awaits s.conn x → ¬ s.AtServer x → sys'.Awaits s.conn x) :
    ServerSide s { s with server := c', sys := sys', upArrived := u } := by
  obtain ⟨new, hnew, hdata, hin⟩ := hflow.sent
  have hid : c'.id = s.server.id := hflow.id
  have hbuf : ∀ k d, s.server.view.MaySend k d ∨ written d → s.server.view.buffer k = some d := by
    rintro k d ((hb | hp) | hw)
    · exact hb
    · have hp' : d ∈ s.server.pendingWrites := hp
      rw [hpend] at hp'
      cases hp'
    · exact absurd hw (hwritten d)
  refine ⟨rfl, rfl, rfl, hid, fun k d hd => hbuf k d (hflow.buffer k d hd), ⟨new, ?_, ?_⟩,
    ⟨taken, hup, hack, ?_⟩, hworkers, hawaits⟩
  · have hsent : c'.sent = s.server.sent ++ new := hnew
    exact (congrArg (List.drop _) hsent).trans (List.drop_append_of_le_length hs.down_le)
  · exact fun pkt hpkt hty => hbuf _ _ (hdata pkt hpkt hty)
  · rintro x (⟨d, hd, hx⟩ | hx)
    · rcases hin d hd with hd | ⟨k, hk, -⟩
      · exact .inl (.inl ⟨d, hd, hx⟩)
      · exact .inr ⟨_, hwire _ hk, rfl, hx⟩
    · refine .inl (hresult x ?_)
      rw [conn, ← hid]
      exact hx

/-- Such a round keeps the path in order. -/
lemma Ok.serverRound (hs : s.Ok p) (hflow : Flow wire written s.server.view c'.view)
    (hup : s.toServer = taken ++ s.client.sent.drop u) (hwire : ∀ pkt, wire pkt → pkt ∈ taken)
    (hle : u ≤ s.client.sent.length) (hok : sys'.Ok) (hserved : sys'.Served)
    (hfits : sys'.Fits p) (hstranger : sys'.Stranger s.conn)
    (hown : c'.phase = .main → ∀ w l, sys'.loops.lookup w = some l → l.h = s.conn →
      sys'.workers.lookup s.conn = some w) :
    Ok p { s with server := c', sys := sys', upArrived := u } := by
  obtain ⟨new, hnew, -, hin⟩ := hflow.sent
  have hsent : c'.sent = s.server.sent ++ new := hnew
  have hid : c'.id = s.server.id := hflow.id
  have hconn : conn { s with server := c', sys := sys', upArrived := u } = s.conn :=
    congrArg UInt32.toNat hid
  exact {
    sys := hok
    served := hserved
    fits := hfits
    stranger := hconn ▸ hstranger
    id := hs.id.trans hid.symm
    down_le := by
      rw [hsent, List.length_append]
      exact Nat.le_add_right_of_le hs.down_le
    up_le := hle
    node := hs.node
    outgoing := hs.outgoing
    toServer := fun pkt hpkt => hs.toServer pkt (hup ▸ List.mem_append_right _ hpkt)
    incoming := fun d hd => by
      rcases hin d hd with hd | ⟨k, hk, -⟩
      · exact hs.incoming d hd
      · exact hs.toServer _ (hup ▸ List.mem_append_left _ (hwire _ hk)) rfl
    noErr := fun hm e he => hs.noErr (hflow.main hm) e (hflow.errs hm e he)
    own := fun hm => hconn ▸ hown hm }

end ServerRounds

/-- The oldest datagram leaves the network. -/
lemma toServer_cons {pkt : Rudp.Packet} {rest : List Rudp.Packet} (h : s.toServer = pkt :: rest) :
    s.toServer = [pkt] ++ s.client.sent.drop (s.upArrived + 1) ∧
      s.upArrived + 1 ≤ s.client.sent.length := by
  constructor
  · rw [← List.tail_drop]
    exact h.trans (congrArg (pkt :: ·) (congrArg List.tail h).symm)
  · by_contra hlt
    rw [toServer, List.drop_eq_nil_of_le (by omega)] at h
    cases h

/-- What a delivery does to the scheduler, as far as this connection's worker is concerned. -/
structure Dispatched (p : Params) (s : Pipeline) (sys' : Sys) : Prop where
  ok : sys'.Ok
  served : sys'.Served
  fits : sys'.Fits p
  stranger : sys'.Stranger s.conn
  own : s.server.phase = .main → ∀ w l, sys'.loops.lookup w = some l → l.h = s.conn →
    sys'.workers.lookup s.conn = some w
  workers : s.server.phase = .main →
    ∀ w, s.sys.workers.lookup s.conn = some w → sys'.workers.lookup s.conn = some w
  result : s.server.phase = .main → ∀ x, sys'.HasResult s.conn x → s.AtServer x
  awaits : s.server.phase = .main →
    ∀ x, s.sys.Awaits s.conn x → ¬ s.AtServer x → sys'.Awaits s.conn x

/-- A step that leaves the scheduler alone. -/
lemma Ok.dispatched (hs : s.Ok p) : Dispatched p s s.sys where
  ok := hs.sys
  served := hs.served
  fits := hs.fits
  stranger := hs.stranger
  own := hs.own
  workers _ _ hw := hw
  result _ _ hx := .inr hx
  awaits _ _ hx _ := hx

/-- A step of the scheduler that does not hear from the connection. -/
lemma Ok.dispatched_move (hs : s.Ok p) {a : Action} {sys' : Sys} (hc : a.heard ≠ some s.conn)
    (h : Sys.Move wl p s.sys a sys') : Dispatched p s sys' where
  ok := h.ok hs.sys
  served := h.served hs.sys hs.served
  fits := h.fits hs.fits
  stranger := (hs.stranger.move h hc).1
  own hm w l hl hh := by
    obtain ⟨l₀, hl₀, hh₀⟩ := h.loop_h hc w l hl hh
    exact (h.workers_eq hc).trans (hs.own hm w l₀ hl₀ hh₀)
  workers _ w hw := (h.workers_eq hc).trans hw
  result _ x hx := .inr (h.hasResult hs.sys hs.served hc hx)
  awaits _ x hx hnot := h.awaits hs.sys hs.served hc hx fun hr => hnot (.inr hr)

/-- A Join. -/
lemma Ok.dispatched_join (wl : Workload) (hs : s.Ok p) (hr : s.sys.disp = .reading) :
    Dispatched p s (s.sys.onJoin s.conn) := by
  have hmove : Sys.Move wl p s.sys (.readJoin s.conn) (s.sys.onJoin s.conn) := Sys.onJoin_move hr
  rcases Sys.onJoin_cases s.sys s.conn with he | ⟨hnone, he⟩
  · rw [he]
    exact hs.dispatched
  · have hlook : (s.sys.onJoin s.conn).workers.lookup s.conn = some s.sys.nextGo := by
      rw [he]
      simp
    refine ⟨hmove.ok hs.sys, hmove.served hs.sys hs.served, hmove.fits hs.fits,
      hs.stranger.onJoin, fun hm w l hl hh => ?_, fun _ w hw => ?_, fun _ x hx => ?_,
      fun _ x hx => ?_⟩
    · rw [hlook]
      rw [he] at hl
      obtain ⟨rfl, -⟩ | ⟨-, hl⟩ := GoMap.of_lookup_insert hl
      · rfl
      · rw [hs.own hm w l hl hh] at hnone
        cases hnone
    · rw [hnone] at hw
      cases hw
    · -- the new loop has not been sent anything
      obtain ⟨w, hw, hx⟩ := hx
      obtain rfl := Option.some_inj.mp (hlook.symm.trans hw)
      rw [he] at hx
      rcases hx with ⟨r, hd, -⟩ | ⟨l, hl, r, hmem, -⟩
      · rw [show s.sys.disp = .forwarding s.sys.nextGo r from hd] at hr
        cases hr
      · dsimp only at hl
        rw [GoMap.lookup_insert_ite, if_pos rfl] at hl
        obtain rfl := Option.some_inj.mp hl
        cases hmem
    · obtain ⟨w, l, hw, -⟩ := hx
      rw [hnone] at hw
      cases hw

/-- A result. -/
lemma Ok.dispatched_result (wl : Workload) (hs : s.Ok p) (hr : s.sys.disp = .reading)
    {r : ChunkResult} (hin : ∃ d, s.server.view.Incoming d ∧ CarriesResult r.id d) :
    Dispatched p s (s.sys.onResult s.conn r) := by
  have hmove : Sys.Move wl p s.sys (.readResult s.conn r) (s.sys.onResult s.conn r) :=
    Sys.onResult_move hr
  have hsame : ∃ disp, s.sys.onResult s.conn r = { s.sys with disp := disp } ∧
      ∀ w r', disp = .forwarding w r' → r' = r := by
    unfold Sys.onResult
    split
    · exact ⟨_, rfl, fun w r' he => (Disp.forwarding.inj he).2.symm⟩
    · refine ⟨s.sys.disp, rfl, fun w r' he => ?_⟩
      rw [hr] at he
      cases he
  have hok := hmove.ok hs.sys
  have hserved := hmove.served hs.sys hs.served
  have hfits := hmove.fits hs.fits
  have hstranger := hs.stranger.onResult r
  obtain ⟨disp, he, hdisp⟩ := hsame
  rw [he] at hok hserved hfits hstranger ⊢
  refine ⟨hok, hserved, hfits, hstranger, hs.own, fun _ _ hw => hw, fun _ x hx => ?_,
    fun _ _ hx _ => hx⟩
  obtain ⟨w, hw, ⟨r', hd, rfl⟩ | hl⟩ := hx
  · exact .inl (hdisp w r' hd ▸ hin)
  · exact .inr ⟨w, hw, .inr hl⟩

/-- The connection's error; by then its `mainLoop` has returned. -/
lemma Ok.dispatched_error (wl : Workload) (hs : s.Ok p) (hr : s.sys.disp = .reading)
    (hdead : s.server.phase ≠ .main) :
    Dispatched p s (({ s.sys with down := insert s.conn s.sys.down } : Sys).onError s.conn) := by
  have hmove : Sys.Move wl p { s.sys with down := insert s.conn s.sys.down } (.readError s.conn)
      (({ s.sys with down := insert s.conn s.sys.down } : Sys).onError s.conn) :=
    Sys.onError_move hr (Finset.mem_insert_self _ _)
  have hok : ({ s.sys with down := insert s.conn s.sys.down } : Sys).Ok := { hs.sys with }
  have hserved : ({ s.sys with down := insert s.conn s.sys.down } : Sys).Served :=
    { hs.served with }
  have hstranger : ({ s.sys with down := insert s.conn s.sys.down } : Sys).Stranger s.conn :=
    { hs.stranger with }
  exact ⟨hmove.ok hok, hmove.served hok hserved, hmove.fits hs.fits, hstranger.onError,
    fun hm => absurd hm hdead, fun hm => absurd hm hdead, fun hm => absurd hm hdead,
    fun hm => absurd hm hdead⟩

end Pipeline

end RudpScheduler
