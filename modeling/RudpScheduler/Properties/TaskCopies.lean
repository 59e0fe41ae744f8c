import RudpScheduler.Properties.OneWorker
import RudpScheduler.Properties.WireCodec
import RudpScheduler.Properties.Rudp.Flow

/-!
# Copies of a task on their way

A task that is written to a worker travels as a chunk, is computed and comes back as a result; a
retransmission or a second write makes more copies.  `Pipeline.OnItsWay` lists the places where one
can be.

`Pipeline.Counted` is the relation between the two layers: the unacknowledged messages of the
connection are chunks of different tasks in flight, and for each of them the Ack is ahead of every
result (`Pipeline.Tracked`).  A step of the worker's side keeps it (`WorkerSide.counted`), because
the worker's end acknowledges a chunk before `RunWorker` sees it; a step of the server's side does
(`ServerSide.counted`), because the Ack is taken before the result behind it.
-/

namespace RudpScheduler

open Rudp (Payload)

/-! ## What a payload is about -/

/-- The payload is a chunk of task `x`. -/
def CarriesChunk (x : TaskID) (d : Payload) : Prop :=
  ∃ ch, Wire.decode d = .ok (some (.chunk ch)) ∧ ch.id = x

/-- The payload is a result for task `x`. -/
def CarriesResult (x : TaskID) (d : Payload) : Prop :=
  ∃ r, Wire.decode d = .ok (some (.chunkResult r)) ∧ r.id = x

/-- The payload is one `RunWorker` writes. -/
def FromNode (d : Payload) : Prop :=
  Wire.decode d = .ok (some .join) ∨ ∃ r, Wire.decode d = .ok (some (.chunkResult r))

lemma decode_of_encodeWrite {m : Message} {d : Payload} (h : encodeWrite m = .ok d) :
    Wire.decode d = .ok (some m) := by
  obtain ⟨b, hb, h⟩ := Go.bind_eq_ok.mp h
  obtain ⟨hfits, rfl⟩ := Wire.encode_eq_ok_iff.mp hb
  unfold Rudp.writeGo at h
  split_ifs at h
  obtain rfl := Except.ok.inj h
  exact Wire.decode_bytes hfits

lemma CarriesChunk.unique {x y : TaskID} {d : Payload} (h : CarriesChunk x d)
    (h' : CarriesChunk y d) : x = y := by
  obtain ⟨ch, hd, rfl⟩ := h
  obtain ⟨ch', hd', rfl⟩ := h'
  rw [hd] at hd'
  cases hd'
  rfl

/-- `RunWorker` has a copy of task `x`, or a result for it, in its hand. -/
def Node.Has (x : TaskID) : Node → Prop
  | .computing chunk => chunk.id = x
  | .writing (.chunkResult r) => r.id = x
  | _ => False

/-- The step is one of the worker's side. -/
def PipeAction.atWorker : PipeAction → Bool
  | .down _ | .downLate | .clientTick _ _ | .nodeRead | .nodeCompute | .nodeWrite _ => true
  | _ => false

namespace Pipeline

/-! ## Where copies of a task can be -/

section Places

variable (s : Pipeline) (x : TaskID)

/-- A chunk of task `x` is on its way to the worker. -/
def ToWorker : Prop := ∃ pkt ∈ s.toWorker, pkt.typ = .data ∧ CarriesChunk x pkt.payload

/-- The worker has received a chunk of task `x`, and its end of the connection may still send a
result for it. -/
def AtWorker : Prop :=
  (∃ d, s.client.view.Incoming d ∧ CarriesChunk x d) ∨ s.node.Has x ∨
    ∃ d, s.client.view.Outgoing d ∧ CarriesResult x d

/-- A result for task `x` is on its way to the server. -/
def ToServer : Prop := ∃ pkt ∈ s.toServer, pkt.typ = .data ∧ CarriesResult x pkt.payload

/-- A result for task `x` has come back, and the loop has not seen it yet. -/
def AtServer : Prop :=
  (∃ d, s.server.view.Incoming d ∧ CarriesResult x d) ∨ s.sys.HasResult s.conn x

/-- A copy of task `x`, or a result for it, is somewhere between the loop and itself. -/
def OnItsWay : Prop := s.ToWorker x ∨ s.AtWorker x ∨ s.ToServer x ∨ s.AtServer x

end Places

/-- The number of tasks in flight at the worker; none before it has joined. -/
def inflight (s : Pipeline) : ℕ :=
  ((s.sys.workers.lookup s.conn).bind s.sys.loops.lookup).elim 0 fun l => GoMap.len l.inflight

/-! ## Messages and tasks -/

/-- Number `k` is unacknowledged and carries task `x`.  No result for `x` has come back, and either
the Ack for `k` is on its way ahead of every result for `x`, or the worker has not received the
chunk. -/
def Tracked (s : Pipeline) (k : UInt32) (x : TaskID) : Prop :=
  ¬ s.AtServer x ∧
    ((∃ pre post, s.toServer = pre ++ ⟨.ack, s.server.id, k, []⟩ :: post ∧
        ∀ pkt ∈ pre, pkt.typ = .data → ¬ CarriesResult x pkt.payload) ∨
      (¬ s.AtWorker x ∧ ¬ s.ToServer x ∧
        ∀ pkt ∈ s.toWorker, pkt.typ = .data → CarriesChunk x pkt.payload → pkt.seq = k))

/-- A task that is being written: it is in flight, and there is no copy of it anywhere. -/
structure Fresh (s : Pipeline) (x : TaskID) : Prop where
  awaited : s.sys.Awaits s.conn x
  nowhere : ¬ s.OnItsWay x
  unsent : ∀ k d, s.server.view.buffer k = some d → ¬ CarriesChunk x d

/-- The unacknowledged messages are chunks of different tasks in flight. -/
structure Counted (s : Pipeline) : Prop where
  entry : ∀ k d, s.server.view.buffer k = some d →
    ∃ x, CarriesChunk x d ∧ s.sys.Awaits s.conn x ∧ s.Tracked k x
  inj : ∀ k k' d d' x, s.server.view.buffer k = some d → s.server.view.buffer k' = some d' →
    CarriesChunk x d → CarriesChunk x d' → k = k'
  writing : ∀ e ∈ s.writing, ∃ w x, e.1 = .loop w ∧ s.sys.workers.lookup s.conn = some w ∧
    CarriesChunk x e.2 ∧ s.Fresh x
  single : s.writing.length ≤ 1

variable {s t : Pipeline} {x : TaskID} {k : UInt32}

/-! ## Steps of the worker's side -/

/-- A step of the worker's end or of `RunWorker`: it sends only results the worker had, and a chunk
it receives it acknowledges. -/
structure WorkerSide (s t : Pipeline) : Prop where
  server : t.server = s.server
  sys : t.sys = s.sys
  writing : t.writing = s.writing
  down : ∀ pkt ∈ t.toWorker, pkt ∈ s.toWorker
  sent : ∃ new, t.toServer = s.toServer ++ new ∧
    (∀ x, ∀ pkt ∈ new, pkt.typ = .data → CarriesResult x pkt.payload → s.AtWorker x) ∧
    ∀ x, t.AtWorker x → s.AtWorker x ∨ ∃ pkt ∈ s.toWorker, pkt.typ = .data ∧
      CarriesChunk x pkt.payload ∧ ⟨.ack, s.server.id, pkt.seq, []⟩ ∈ new

namespace WorkerSide

lemma conn_eq (h : WorkerSide s t) : t.conn = s.conn := by rw [conn, h.server, conn]

lemma atServer_iff (h : WorkerSide s t) : t.AtServer x ↔ s.AtServer x := by
  rw [AtServer, AtServer, h.conn_eq, h.server, h.sys]

lemma onItsWay (h : WorkerSide s t) (ht : t.OnItsWay x) : s.OnItsWay x := by
  obtain ⟨new, hnew, hres, hat⟩ := h.sent
  rcases ht with ⟨pkt, hpkt, hd⟩ | ha | ⟨pkt, hpkt, hd⟩ | hb
  · exact .inl ⟨pkt, h.down pkt hpkt, hd⟩
  · rcases hat x ha with ha | ⟨pkt, hpkt, hty, hch, -⟩
    · exact .inr (.inl ha)
    · exact .inl ⟨pkt, hpkt, hty, hch⟩
  · rw [hnew] at hpkt
    rcases List.mem_append.mp hpkt with hpkt | hpkt
    · exact .inr (.inr (.inl ⟨pkt, hpkt, hd⟩))
    · exact .inr (.inl (hres x pkt hpkt hd.1 hd.2))
  · exact .inr (.inr (.inr (h.atServer_iff.mp hb)))

/-- A number stays tracked.  When the worker receives the chunk, its Ack is put behind datagrams
among which there is no result for the task. -/
lemma tracked (h : WorkerSide s t) (hs : s.Tracked k x) : t.Tracked k x := by
  obtain ⟨new, hnew, hres, hat⟩ := h.sent
  refine ⟨fun hb => hs.1 (h.atServer_iff.mp hb), ?_⟩
  rw [h.server, hnew]
  rcases hs.2 with ⟨pre, post, hsplit, hpre⟩ | ⟨hnot, hto, hseq⟩
  · refine .inl ⟨pre, post ++ new, ?_, hpre⟩
    rw [hsplit, List.append_assoc, List.cons_append]
  · have hquiet : ∀ pkt ∈ s.toServer ++ new, pkt.typ = .data → ¬ CarriesResult x pkt.payload := by
      intro pkt hpkt hty hr
      rcases List.mem_append.mp hpkt with hpkt | hpkt
      · exact hto ⟨pkt, hpkt, hty, hr⟩
      · exact hnot (hres x pkt hpkt hty hr)
    by_cases ha : t.AtWorker x
    · obtain ⟨pkt, hpkt, hty, hch, hack⟩ := (hat x ha).resolve_left hnot
      rw [hseq pkt hpkt hty hch] at hack
      obtain ⟨n₁, n₂, rfl⟩ := List.append_of_mem hack
      refine .inl ⟨s.toServer ++ n₁, n₂, (List.append_assoc _ _ _).symm, fun q hq => hquiet q ?_⟩
      rw [← List.append_assoc]
      exact List.mem_append_left _ hq
    · refine .inr ⟨ha, ?_, fun pkt hpkt => hseq pkt (h.down pkt hpkt)⟩
      rintro ⟨pkt, hpkt, hty, hr⟩
      exact hquiet pkt (hnew ▸ hpkt) hty hr

lemma awaits_iff (h : WorkerSide s t) :
    t.sys.Awaits t.conn x ↔ s.sys.Awaits s.conn x := by
  rw [h.conn_eq, h.sys]

lemma counted (h : WorkerSide s t) (hs : s.Counted) : t.Counted where
  entry k d hd := by
    rw [h.server] at hd
    obtain ⟨x, hx, hin, htr⟩ := hs.entry k d hd
    exact ⟨x, hx, h.awaits_iff.mpr hin, h.tracked htr⟩
  inj := by
    rw [h.server]
    exact hs.inj
  writing e he := by
    rw [h.writing] at he
    obtain ⟨w, x, hw, hwork, hx, hfresh⟩ := hs.writing e he
    refine ⟨w, x, hw, by rw [h.sys, h.conn_eq]; exact hwork, hx, ?_⟩
    exact ⟨h.awaits_iff.mpr hfresh.awaited, fun ht => hfresh.nowhere (h.onItsWay ht),
      h.server ▸ hfresh.unsent⟩
  single := h.writing ▸ hs.single

end WorkerSide

/-! ## Steps of the server's side -/

/-- What stands behind an element that has not been taken from a queue is still behind it. -/
lemma split_of_notMem {α : Type*} {pre post taken rest : List α} {a : α}
    (h : pre ++ a :: post = taken ++ rest) (ha : a ∉ taken) :
    ∃ pre', pre = taken ++ pre' ∧ rest = pre' ++ a :: post := by
  rcases List.append_eq_append_iff.mp h with ⟨mid, htaken, hmid⟩ | ⟨pre', hpre, hrest⟩
  · cases mid with
    | nil => exact ⟨[], by simpa using htaken.symm, by simpa using hmid.symm⟩
    | cons b mid =>
        obtain ⟨rfl, -⟩ := List.cons.inj hmid
        exact absurd (htaken ▸ List.mem_append_right _ List.mem_cons_self) ha
  · exact ⟨pre', hpre, hrest⟩

/-- A step of the server's end or of the scheduler that takes in at most the oldest datagram and
gives the connection nothing to send. -/
structure ServerSide (s t : Pipeline) : Prop where
  client : t.client = s.client
  node : t.node = s.node
  writing : t.writing = s.writing
  id : t.server.id = s.server.id
  buffer : ∀ k d, t.server.view.buffer k = some d → s.server.view.buffer k = some d
  down : ∃ new, t.toWorker = s.toWorker ++ new ∧
    ∀ pkt ∈ new, pkt.typ = .data → s.server.view.buffer pkt.seq = some pkt.payload
  up : ∃ taken, s.toServer = taken ++ t.toServer ∧
    (∀ k, ⟨.ack, s.server.id, k, []⟩ ∈ taken → t.server.view.buffer k = none) ∧
    ∀ x, t.AtServer x → s.AtServer x ∨
      ∃ pkt ∈ taken, pkt.typ = .data ∧ CarriesResult x pkt.payload
  workers : ∀ w, s.sys.workers.lookup s.conn = some w → t.sys.workers.lookup s.conn = some w
  keeps : ∀ x, s.sys.Awaits s.conn x → ¬ s.AtServer x → t.sys.Awaits s.conn x

namespace ServerSide

lemma conn_eq (h : ServerSide s t) : t.conn = s.conn := by rw [conn, h.id, conn]

lemma atWorker_iff (h : ServerSide s t) : t.AtWorker x ↔ s.AtWorker x := by
  rw [AtWorker, AtWorker, h.client, h.node]

lemma toServer_of (h : ServerSide s t) (ht : t.ToServer x) : s.ToServer x := by
  obtain ⟨pkt, hpkt, hd⟩ := ht
  obtain ⟨taken, htaken, -⟩ := h.up
  exact ⟨pkt, htaken ▸ List.mem_append_right _ hpkt, hd⟩

/-- A task no message carries does not come back into the network. -/
lemma onItsWay (h : ServerSide s t)
    (hx : ∀ k d, s.server.view.buffer k = some d → ¬ CarriesChunk x d) (ht : t.OnItsWay x) :
    s.OnItsWay x := by
  rcases ht with ⟨pkt, hpkt, hd⟩ | ha | hu | hb
  · obtain ⟨new, hnew, hdata⟩ := h.down
    rw [hnew] at hpkt
    rcases List.mem_append.mp hpkt with hpkt | hpkt
    · exact .inl ⟨pkt, hpkt, hd⟩
    · exact absurd hd.2 (hx _ _ (hdata pkt hpkt hd.1))
  · exact .inr (.inl (h.atWorker_iff.mp ha))
  · exact .inr (.inr (.inl (h.toServer_of hu)))
  · obtain ⟨taken, htaken, -, hat⟩ := h.up
    rcases hat x hb with hb | ⟨pkt, hpkt, hd⟩
    · exact .inr (.inr (.inr hb))
    · exact .inr (.inr (.inl ⟨pkt, htaken ▸ List.mem_append_left _ hpkt, hd⟩))

/-- A number that is still unacknowledged stays tracked: its Ack has not been taken, and so no
result behind it has. -/
lemma tracked (h : ServerSide s t) (hk : t.server.view.buffer k ≠ none)
    (hinj : ∀ k' d', s.server.view.buffer k' = some d' → CarriesChunk x d' → k' = k)
    (hs : s.Tracked k x) : t.Tracked k x := by
  obtain ⟨taken, htaken, hack, hat⟩ := h.up
  have hacked : ⟨.ack, s.server.id, k, []⟩ ∉ taken := fun hm => hk (hack k hm)
  -- what was taken is ahead of the Ack, or there is no result at all
  have hnone : ∀ pkt ∈ taken, pkt.typ = .data → ¬ CarriesResult x pkt.payload := by
    intro pkt hpkt hty hr
    rcases hs.2 with ⟨pre, post, hsplit, hpre⟩ | ⟨-, hto, -⟩
    · obtain ⟨pre', rfl, -⟩ := split_of_notMem (hsplit.symm.trans htaken) hacked
      exact hpre pkt (List.mem_append_left _ hpkt) hty hr
    · exact hto ⟨pkt, htaken ▸ List.mem_append_left _ hpkt, hty, hr⟩
  refine ⟨fun hb => ?_, ?_⟩
  · rcases hat x hb with hb | ⟨pkt, hpkt, hty, hr⟩
    · exact hs.1 hb
    · exact hnone pkt hpkt hty hr
  · rw [h.id]
    rcases hs.2 with ⟨pre, post, hsplit, hpre⟩ | ⟨hnot, hto, hseq⟩
    · obtain ⟨pre', rfl, hrest⟩ := split_of_notMem (hsplit.symm.trans htaken) hacked
      exact .inl ⟨pre', post, hrest, fun pkt hpkt => hpre pkt (List.mem_append_right _ hpkt)⟩
    · refine .inr ⟨fun ha => hnot (h.atWorker_iff.mp ha), fun hu => hto (h.toServer_of hu), ?_⟩
      obtain ⟨new, hnew, hdata⟩ := h.down
      intro pkt hpkt hty hch
      rw [hnew] at hpkt
      rcases List.mem_append.mp hpkt with hpkt | hpkt
      · exact hseq pkt hpkt hty hch
      · exact hinj _ _ (hdata pkt hpkt hty) hch

lemma counted (h : ServerSide s t) (hs : s.Counted) : t.Counted where
  entry k d hd := by
    have hd' := h.buffer k d hd
    obtain ⟨x, hx, hin, htr⟩ := hs.entry k d hd'
    have hone : ∀ k' d', s.server.view.buffer k' = some d' → CarriesChunk x d' → k' = k :=
      fun k' d' hk' hx' => hs.inj k' k d' d x hk' hd' hx' hx
    exact ⟨x, hx, h.conn_eq ▸ h.keeps x hin htr.1, h.tracked (by simp [hd]) hone htr⟩
  inj k k' d d' x hd hd' := hs.inj k k' d d' x (h.buffer k d hd) (h.buffer k' d' hd')
  writing e he := by
    rw [h.writing] at he
    obtain ⟨w, x, hw, hwork, hx, hfresh⟩ := hs.writing e he
    refine ⟨w, x, hw, h.conn_eq ▸ h.workers w hwork, hx, ?_⟩
    have hin := h.keeps x hfresh.awaited fun hb => hfresh.nowhere (.inr (.inr (.inr hb)))
    refine ⟨h.conn_eq ▸ hin, ?_, ?_⟩
    · exact fun ht => hfresh.nowhere (h.onItsWay hfresh.unsent ht)
    · exact fun k d hd => hfresh.unsent k d (h.buffer k d hd)
  single := h.writing ▸ hs.single

end ServerSide

/-! ## Counting -/

namespace Counted

/-- The messages are counted by the tasks they carry. -/
lemma len_le_of (hs : s.Counted) {V : Type} {m : GoMap TaskID V}
    (hm : ∀ k d x, s.server.view.buffer k = some d → CarriesChunk x d →
      s.sys.Awaits s.conn x → m.lookup x ≠ none) : GoMap.len s.server.sendBuffer ≤ m.len := by
  refine GoMap.len_le_len
    (fun k x => ∃ d, s.server.view.buffer k = some d ∧ CarriesChunk x d) (fun k hk => ?_) ?_
  · obtain ⟨msg, hmsg⟩ := Option.ne_none_iff_exists'.mp hk
    have hd : s.server.view.buffer k = some msg.payload :=
      congrArg (Option.map Rudp.OutMsg.payload) hmsg
    obtain ⟨x, hx, hin, -⟩ := hs.entry k _ hd
    exact ⟨x, hm k _ x hd hx hin, _, hd, hx⟩
  · rintro k k' x ⟨d, hd, hx⟩ ⟨d', hd', hx'⟩
    exact hs.inj k k' d d' x hd hd' hx hx'

/-- **The unacknowledged messages do not outnumber the tasks in flight.** -/
lemma len_le (hs : s.Counted) : GoMap.len s.server.sendBuffer ≤ s.inflight := by
  unfold inflight
  cases hl : (s.sys.workers.lookup s.conn).bind s.sys.loops.lookup with
  | none =>
      refine (hs.len_le_of (m := (∅ : GoMap TaskID Unit)) ?_).trans (Nat.zero_le _)
      rintro k d x - - ⟨w, l, hw, hl', -⟩
      rw [hw, Option.bind_some, hl'] at hl
      cases hl
  | some l =>
      refine hs.len_le_of ?_
      rintro k d x - - ⟨w, l', hw, hl', hx⟩
      rw [hw, Option.bind_some, hl'] at hl
      exact Option.some_inj.mp hl ▸ hx

/-- While a task is being written, there is room for it. -/
lemma len_lt (hs : s.Counted) (hx : s.Fresh x) {p : Params} (hfits : s.sys.Fits p) :
    GoMap.len s.server.sendBuffer < p.window := by
  obtain ⟨w, l, hw, hl, hin⟩ := hx.awaited
  obtain ⟨e, he⟩ := Option.ne_none_iff_exists'.mp hin
  have hlen := GoMap.len_erase_of_lookup_some he
  have hle := (hfits w l hl).le
  have hcount : GoMap.len s.server.sendBuffer ≤ GoMap.len (l.inflight.erase x) := by
    refine hs.len_le_of ?_
    rintro k d y hd hy ⟨w', l', hw', hl', hin'⟩
    obtain rfl := Option.some_inj.mp (hw.symm.trans hw')
    obtain rfl := Option.some_inj.mp (hl.symm.trans hl')
    rw [GoMap.lookup_erase_ite, if_neg]
    · exact hin'
    · rintro rfl
      exact hx.unsent k d hd hy
  omega

end Counted

end Pipeline

end RudpScheduler
