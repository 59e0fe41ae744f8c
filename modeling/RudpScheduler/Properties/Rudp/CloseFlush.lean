import RudpScheduler.Properties.Rudp.Delivery

/-!
# Close flushes end to end

When `Read` reports that the peer closed the connection, everything the peer had accepted before
its `Close` has been returned by `Read` already, and nothing follows the error.

The argument goes from the error backwards.  The error was queued because a Close packet arrived
(`ClosedBy`); a Close packet is sent only when nothing is unacknowledged or waiting, and what is
acknowledged has arrived (`Closes` and `Carries`, from `Properties/Rudp/Delivery.lean`), so
everything accepted has arrived under its number (`AllArrived`); what has arrived has been appended
to `deliverQ`, on either receive path (`Gets`); and `deliverQ` is handed over in order with the
error last (`Hands`).
-/

namespace RudpScheduler.Rudp

variable {ordered : Bool} {wire : Packet → Prop} {v v' x x' y y' : View}

/-! ## What has arrived has been appended -/

/-- Every accepted payload has arrived under its number. -/
def AllArrived (x y : View) : Prop :=
  ∀ i d, x.accepted[i]? = some d → (UInt32.ofNat (i + 1), d) ∈ y.arrived

/-- On the ordered path the payloads appended are the first ones accepted. -/
lemma InOrder.appended_isPrefixOf (hin : InOrder y.recv y.appended y.arrived)
    (harr : ∀ s d, (s, d) ∈ y.arrived → x.payload s = some d) : y.appended <+: x.accepted := by
  refine List.prefix_iff_getElem?.mpr fun i hi => ?_
  have hget := List.getElem?_eq_getElem hi
  have hpay := harr _ _ (hin.released i _ hget)
  have hlt := hin.length_lt
  rwa [View.payload, toNat_seq (by omega), Nat.add_sub_cancel] at hpay

/-- On the ordered path, when everything has arrived the payloads appended are those accepted. -/
lemma InOrder.appended_eq (hin : InOrder y.recv y.appended y.arrived)
    (hnone : y.recv.held.lookup y.recv.next = none)
    (harr : ∀ s d, (s, d) ∈ y.arrived → x.payload s = some d)
    (hlen : x.accepted.length < 2 ^ 32) (hall : AllArrived x y) : y.appended = x.accepted := by
  refine (hin.appended_isPrefixOf harr).eq_of_length_le ?_
  refine hin.le_length hnone hlen fun s h0 hle => ?_
  have hpos := seq_pos h0
  have hmem := hall (s.toNat - 1) _ (List.getElem?_eq_getElem (by omega))
  rw [Nat.sub_add_cancel hpos, UInt32.ofNat_toNat] at hmem
  exact ⟨_, hmem⟩

/-- Payloads that have all arrived under their numbers have an occurrence each among the payloads
that arrived: the numbers are different. -/
lemma AllArrived.subperm (hall : AllArrived x y) (hlen : x.accepted.length < 2 ^ 32) :
    x.accepted.Subperm (y.arrived.map Prod.snd) := by
  let numbered := x.accepted.zipIdx.map fun p => (UInt32.ofNat (p.2 + 1), p.1)
  have hpay : numbered.map Prod.snd = x.accepted := by
    rw [List.map_map]
    exact List.zipIdx_map_fst 0 _
  have hfst : numbered.map Prod.fst =
      (List.range x.accepted.length).map fun i => UInt32.ofNat (i + 1) := by
    rw [List.map_map, List.range_eq_range', ← List.zipIdx_map_snd 0, List.map_map]
    rfl
  have hnodup : numbered.Nodup := by
    refine List.Nodup.of_map Prod.fst ?_
    rw [hfst]
    refine List.Nodup.map_on (fun i hi j hj hij => ?_) List.nodup_range
    have hi := List.mem_range.mp hi
    have hj := List.mem_range.mp hj
    exact Nat.succ_injective (seq_inj (by omega) (by omega) hij)
  have hsub : numbered ⊆ y.arrived := by
    intro p hp
    obtain ⟨⟨d, i⟩, hmem, rfl⟩ := List.mem_map.mp hp
    exact hall i d (List.mem_zipIdx_iff_getElem?.mp hmem)
  obtain ⟨among, hperm, hsubl⟩ := hnodup.subperm hsub
  rw [← hpay]
  exact ⟨among.map Prod.snd, hperm.map _, hsubl.map _⟩

/-- When everything has arrived, everything has been appended, on either receive path. -/
lemma Gets.accepted_subperm (hg : Gets ordered y)
    (harr : ∀ s d, (s, d) ∈ y.arrived → x.payload s = some d)
    (hlen : x.accepted.length < 2 ^ 32) (hall : AllArrived x y) :
    x.accepted.Subperm y.appended := by
  cases ordered with
  | true =>
      obtain ⟨hin, hnone⟩ := hg.inOrder rfl
      rw [hin.appended_eq hnone harr hlen hall]
  | false =>
      rw [hg.onArrival rfl]
      exact hall.subperm hlen

/-! ## The queue is handed over in order, the error last -/

/-- The payload of a delivery, if it is one. -/
def Delivery.payload? : Delivery → Option Payload
  | .data d => some d
  | _ => none

/-- Nothing but payloads. -/
def AllData (ds : List Delivery) : Prop := ∀ d ∈ ds, ∃ p, d = .data p

/-- What `Read` has returned and what it will return, by phase. -/
structure Hands (y : View) : Prop where
  phase : PhaseOk y
  data : (y.returned ++ y.queue).filterMap Delivery.payload? = y.appended
  running : y.phase = .main ∨ y.phase = .flushing → AllData (y.returned ++ y.queue)
  draining : y.phase = .draining → ∃ q e, y.queue = q ++ [.err e] ∧ AllData (y.returned ++ q)
  ended : y.phase = .ended → y.closeCalled = false → y.stopped = false → y.queue = [] ∧
    ∃ ds e k, y.returned = ds ++ .err e :: List.replicate k .mainDone ∧ AllData ds

lemma AllData.append_data {ds : List Delivery} (h : AllData ds) (out : List Payload) :
    AllData (ds ++ out.map .data) := by
  intro d hd
  rcases List.mem_append.mp hd with hd | hd
  · exact h d hd
  · obtain ⟨p, -, rfl⟩ := List.mem_map.mp hd
    exact ⟨p, rfl⟩

/-- A change that touches neither the queue nor the phase. -/
lemma Hands.frame (hy : Hands y) (hph : y'.phase = y.phase) (hc : y'.closeCalled = y.closeCalled)
    (hs : y'.stopped = y.stopped) (hr : y'.returned = y.returned) (hq : y'.queue = y.queue)
    (ha : y'.appended = y.appended) : Hands y' := by
  obtain ⟨h1, h2, h3, h4, h5⟩ := hy
  refine ⟨?_, ?_, ?_, ?_, ?_⟩
  · rwa [PhaseOk, hph, hc]
  · rwa [hr, hq, ha]
  · rwa [hph, hr, hq]
  · rwa [hph, hr, hq]
  · rwa [hph, hc, hs, hr, hq]

/-- `Read` takes the head of the queue. -/
lemma Hands.handOver (hy : Hands y) {d : Delivery} {rest : List Delivery}
    (hp : y.phase = .main ∨ y.phase = .draining) (hq : y.queue = d :: rest)
    (hphase : PhaseOk { y with
      queue := rest
      returned := y.returned ++ [d]
      phase := if y.phase = .draining ∧ rest = [] then .ended else y.phase }) :
    Hands { y with
      queue := rest
      returned := y.returned ++ [d]
      phase := if y.phase = .draining ∧ rest = [] then .ended else y.phase } := by
  have hmove : y.returned ++ [d] ++ rest = y.returned ++ y.queue := by simp [hq]
  refine ⟨hphase, ?_, ?_, ?_, ?_⟩
  · dsimp only
    rw [hmove]
    exact hy.data
  · intro hph
    dsimp only at hph ⊢
    rw [hmove]
    refine hy.running ?_
    split_ifs at hph
    · simp at hph
    · exact hph
  · intro hph
    dsimp only at hph ⊢
    split_ifs at hph with hlast
    obtain ⟨q, e, hqe, hall⟩ := hy.draining hph
    -- something is left, so the head is not the error
    cases q with
    | nil =>
        rw [hqe] at hq
        exact absurd ⟨hph, (List.cons.inj hq).2.symm⟩ hlast
    | cons d' q =>
        rw [hqe] at hq
        obtain ⟨rfl, rfl⟩ := List.cons.inj hq
        exact ⟨q, e, rfl, by simpa using hall⟩
  · intro hph _ _
    dsimp only at hph ⊢
    split_ifs at hph with hlast
    · obtain ⟨hdr, rfl⟩ := hlast
      obtain ⟨q, e, hqe, hall⟩ := hy.draining hdr
      obtain ⟨rfl, hde⟩ : q = [] ∧ d = .err e := by
        have hlen := congrArg List.length (hq.symm.trans hqe)
        have hnil : q = [] := List.length_eq_zero_iff.mp (by simpa using hlen)
        subst hnil
        exact ⟨rfl, List.singleton_inj.mp (hq.symm.trans hqe)⟩
      exact ⟨rfl, y.returned, e, 0, by rw [hde]; rfl, by simpa using hall⟩
    · rcases hp with hp | hp <;> rw [hp] at hph <;> cases hph

/-- Every change keeps the queue in order. -/
lemma Change.hands (h : Change ordered wire y y') (hy : Hands y) : Hands y' := by
  have hphase := h.phaseOk hy.phase
  cases h with
  | @deliver s d hp hw hs =>
      refine ⟨hphase, ?_, fun _ => ?_, fun hph => ?_, fun hph => ?_⟩
      · have hid : ((y.released ordered s d).map Delivery.data).filterMap Delivery.payload? =
            y.released ordered s d := by
          rw [List.filterMap_map]
          exact List.filterMap_some
        simp only [View.send, View.receive, ← List.append_assoc, List.filterMap_append, hid]
        rw [← List.filterMap_append, hy.data]
      · have hall := (hy.running (Or.inl hp)).append_data (y.released ordered s d)
        rwa [List.append_assoc] at hall
      · exact absurd (hp.symm.trans hph) (by simp)
      · exact absurd (hp.symm.trans hph) (by simp)
  | @drain e hp hw =>
      refine ⟨hphase, ?_, fun hph => ?_, fun _ => ⟨y.queue, e, rfl, hy.running (Or.inl hp)⟩,
        (fun hph => by cases hph)⟩
      · dsimp only
        rw [← List.append_assoc, List.filterMap_append, hy.data]
        exact List.append_nil _
      · rcases hph with hph | hph <;> cases hph
  | handOver hp hq => exact hy.handOver hp hq hphase
  | flush hp =>
      exact ⟨hphase, hy.data, fun _ => hy.running (Or.inl hp), (fun hph => by cases hph),
        (fun hph => by cases hph)⟩
  | sendClose hp hb hd =>
      refine ⟨hphase, hy.data, fun hph => ?_, (fun hph => by cases hph), fun _ hc _ => ?_⟩
      · rcases hph with hph | hph <;> cases hph
      · exact absurd (hy.phase hp) (Bool.eq_false_iff.mp hc)
  | quit hp =>
      refine ⟨hphase, hy.data, fun hph => ?_, (fun hph => by cases hph), fun _ hc _ => ?_⟩
      · rcases hph with hph | hph <;> cases hph
      · exact absurd (hy.phase hp) (Bool.eq_false_iff.mp hc)
  | abort hp hcm hsm hor =>
      refine ⟨hphase, hy.data, fun hph => ?_, (fun hph => by cases hph), fun _ hc hs => ?_⟩
      · rcases hph with hph | hph <;> cases hph
      · rcases hor with ht | ht
        · exact absurd ht (Bool.eq_false_iff.mp hc)
        · exact absurd ht (Bool.eq_false_iff.mp hs)
  | readEnded hp =>
      refine ⟨hphase, ?_, fun hph => ?_, fun hph => ?_, fun _ hc hs => ?_⟩
      · have hdata := hy.data
        rw [List.filterMap_append] at hdata
        simp only [List.filterMap_append]
        rw [← hdata]
        simp [Delivery.payload?]
      · exact absurd hph (by simp [hp])
      · exact absurd hph (by simp [hp])
      · obtain ⟨hq, ds, e, k, hr, hall⟩ := hy.ended hp hc hs
        refine ⟨hq, ds, e, k + 1, ?_, hall⟩
        dsimp only
        rw [hr, List.replicate_succ']
        simp
  | _ => exact hy.frame rfl rfl rfl rfl rfl rfl

/-- An error that was returned is followed by nothing but the reports of a finished connection,
and preceded by the payloads that were ever appended. -/
lemma Hands.of_err_mem (hy : Hands y) (hc : y.closeCalled = false) (hs : y.stopped = false)
    {e : ConnErr} (herr : Delivery.err e ∈ y.returned) :
    y.queue = [] ∧ ∃ ds k, y.returned = ds ++ Delivery.err e :: List.replicate k .mainDone ∧
      ds.filterMap Delivery.payload? = y.appended := by
  have hnot : ∀ {ds}, AllData ds → Delivery.err e ∉ ds := fun hall hmem => by
    obtain ⟨d, hd⟩ := hall _ hmem
    cases hd
  cases hp : y.phase with
  | main => exact absurd (List.mem_append_left _ herr) (hnot (hy.running (Or.inl hp)))
  | flushing => exact absurd (List.mem_append_left _ herr) (hnot (hy.running (Or.inr hp)))
  | draining =>
      obtain ⟨q, e', -, hall⟩ := hy.draining hp
      exact absurd (List.mem_append_left _ herr) (hnot hall)
  | ended =>
      obtain ⟨hq, ds, e', k, hr, hall⟩ := hy.ended hp hc hs
      obtain rfl : e = e' := by
        rw [hr] at herr
        rcases List.mem_append.mp herr with herr | herr
        · exact absurd herr (hnot hall)
        · rcases List.mem_cons.mp herr with herr | herr
          · exact Delivery.err.inj herr
          · cases (List.mem_replicate.mp herr).2
      refine ⟨hq, ds, k, hr, ?_⟩
      -- neither the error nor the reports after it carry a payload
      have hrest : (Delivery.err e :: List.replicate k .mainDone).filterMap Delivery.payload? =
          [] := List.filterMap_eq_nil_iff.mpr fun d hd => by
        rcases List.mem_cons.mp hd with rfl | hd
        · rfl
        · rw [(List.mem_replicate.mp hd).2]
          rfl
      rw [← hy.data, hq, List.append_nil, hr, List.filterMap_append, hrest, List.append_nil]

/-! ## Across the two ends -/

/-- The receiver reports a closed connection only if the sender has sent a Close packet. -/
def ClosedBy (x y : View) : Prop :=
  Delivery.err .closed ∈ y.returned ++ y.queue → ∃ pkt ∈ x.sent, pkt.typ = .close

lemma ClosedBy.sender (h : ClosedBy x y) (hch : Change ordered wire x x') : ClosedBy x' y := by
  intro herr
  obtain ⟨pkt, hpkt, ht⟩ := h herr
  exact ⟨pkt, hch.sent_prefix.subset hpkt, ht⟩

lemma ClosedBy.receiver (h : ClosedBy x y) (hch : Change ordered (FromPeer x.sent) y y') :
    ClosedBy x y' := by
  intro herr
  cases hch with
  | deliver =>
      refine h ?_
      simp only [View.send, View.receive, ← List.append_assoc, List.mem_append, List.mem_map,
        reduceCtorEq, and_false, exists_false, or_false] at herr
      exact List.mem_append.mpr herr
  | @drain e hp hw =>
      dsimp only at herr
      rw [← List.append_assoc] at herr
      rcases List.mem_append.mp herr with herr | herr
      · exact h herr
      · obtain ⟨s, d, hclose⟩ := hw (Delivery.err.inj (List.mem_singleton.mp herr)).symm
        exact ⟨_, hclose.mem (Or.inr (Or.inr rfl)), rfl⟩
  | @handOver d rest hp hq =>
      refine h ?_
      rw [hq]
      simpa using herr
  | readEnded =>
      refine h ?_
      simpa using herr
  | _ => exact h herr

/-- Once a Close packet has been sent, everything accepted has arrived. -/
lemma Carries.allArrived (hc : Carries x y) (hcl : Closes x) {pkt : Packet} (hpkt : pkt ∈ x.sent)
    (ht : pkt.typ = .close) : AllArrived x y := by
  obtain ⟨-, hbuf, hpend⟩ := hcl pkt hpkt ht
  intro i d hi
  -- nothing is waiting, so every accepted payload has a number
  have hlt : i < x.nextSeq.toNat := by
    have hdrop := hc.sends.pending
    rw [hpend, List.drop_eq_nil_iff] at hdrop
    exact lt_of_lt_of_le (List.getElem?_eq_some_iff.mp hi).1 hdrop
  have hbound := x.nextSeq.toNat_lt
  have hnum : (UInt32.ofNat (i + 1)).toNat = i + 1 := toNat_seq (by omega)
  obtain ⟨d', hd'⟩ := (hc.covered _ (seq_ne_zero i.succ_ne_zero (by omega))
    (by rw [hnum]; exact hlt)).resolve_left fun hne => hne (hbuf _)
  have hpay := (hc.arrived _ _ hd').2
  rw [View.payload, hnum, Nat.add_sub_cancel, hi] at hpay
  rwa [Option.some_inj.mp hpay]

section Link

variable {pa pb : Params} {id : UInt32} {acts : List (Side × Input)} {l : Link}

lemma link_hands (hrun : run (Link.step pa pb) (Link.init id) acts = some l) (sd : Side) :
    Hands (l.conn sd).view := by
  refine Link.invariant_end (P := fun _ => Hands) (fun _ _ => ?_) (fun _ _ _ _ h => h.hands) hrun sd
  exact ⟨(fun hp => by cases hp), rfl, fun _ => (by simp [AllData, Conn.view, newConn]),
    (fun hp => by cases hp), (fun hp => by cases hp)⟩

/-- Once `Read` has reported that the peer closed the connection, all the peer had accepted has
arrived. -/
lemma link_allArrived (hrun : run (Link.step pa pb) (Link.init id) acts = some l) (sd : Side)
    (hlen : (l.conn sd).accepted.length < 2 ^ 32)
    (hclose : (l.conn sd.other).closeCalled = false)
    (herr : Delivery.err .closed ∈ (l.conn sd.other).returned) :
    AllArrived (l.conn sd).view (l.conn sd.other).view := by
  have hcl : Closes (l.conn sd).view :=
    Link.invariant_end (P := fun _ => Closes) (fun _ _ pkt hpkt => by cases hpkt)
      (fun _ _ _ _ h => h.closes) hrun sd
  have hby : ClosedBy (l.conn sd).view (l.conn sd.other).view :=
    Link.invariant_direction (fun _ _ h => by simp [Conn.view, newConn] at h)
      (fun _ _ _ _ h hch => h.sender hch) (fun _ _ _ _ h hch => h.receiver hch) hrun sd
  obtain ⟨pkt, hpkt, ht⟩ := hby (List.mem_append_left _ herr)
  exact (link_carries hrun sd hlen hclose).allArrived hcl hpkt ht

end Link

/-- **Close flushes end to end.**  In every reachable state and in each direction, on either
receive path, as long as fewer than `2 ^ 32` messages were written and the receiver's own
application has neither closed the connection nor shut its endpoint down: once `Read` has
reported that the peer closed the connection, every payload the peer had accepted has arrived
under its number and was returned before the error, as often as it was accepted, and no payload
was returned after it.  On the ordered path the payloads returned are those accepted, in order; on
the default path they are those that arrived. -/
theorem close_flushes {pa pb : Params} {id : UInt32} {acts : List (Side × Input)} {l : Link}
    (hrun : run (Link.step pa pb) (Link.init id) acts = some l) (sd : Side)
    (hlen : (l.conn sd).accepted.length < 2 ^ 32)
    (hclose : (l.conn sd.other).closeCalled = false)
    (hstop : (l.conn sd.other).stopped = false)
    (herr : Delivery.err .closed ∈ (l.conn sd.other).returned) :
    ∃ pre post, (l.conn sd.other).returned = pre ++ .err .closed :: post ∧
      (l.conn sd).accepted.Subperm (pre.filterMap Delivery.payload?) ∧
      (∀ i d, (l.conn sd).accepted[i]? = some d →
        (UInt32.ofNat (i + 1), d) ∈ (l.conn sd.other).arrived) ∧
      ((sd.other.params pa pb).orderedDelivery = true →
        pre.filterMap Delivery.payload? = (l.conn sd).accepted) ∧
      ((sd.other.params pa pb).orderedDelivery = false →
        pre.filterMap Delivery.payload? = (l.conn sd.other).arrived.map Prod.snd) ∧
      ∀ d, Delivery.data d ∉ post := by
  have hall := link_allArrived hrun sd hlen hclose herr
  have hg := link_gets hrun sd.other
  have harr := fun s d hsd => ((link_carries hrun sd hlen hclose).arrived s d hsd).2
  obtain ⟨-, ds, k, hr, hds⟩ := (link_hands hrun sd.other).of_err_mem hclose hstop herr
  refine ⟨ds, List.replicate k .mainDone, hr, ?_, hall, fun hord => ?_, fun hord => ?_,
    fun d hd => ?_⟩
  · rw [hds]
    exact hg.accepted_subperm harr hlen hall
  · obtain ⟨hin, hnone⟩ := hg.inOrder hord
    exact hds.trans (hin.appended_eq hnone harr hlen hall)
  · exact hds.trans (hg.onArrival hord)
  · cases (List.mem_replicate.mp hd).2

/-- A client writes two messages and closes.  The second message arrives first and is held back
by the ordered receive path; the server reads both and then the error. -/
def closedAfterTwo : List (Side × Input) :=
  [(.a, .write [7] fun _ => 0), (.a, .write [8] fun _ => 0), (.a, .close fun _ => 1),
    (.b, .packet ⟨.data, 1, 2, [8]⟩ fun _ => 2), (.b, .packet ⟨.data, 1, 1, [7]⟩ fun _ => 3),
    (.a, .packet ⟨.ack, 1, 1, []⟩ fun _ => 4), (.a, .packet ⟨.ack, 1, 2, []⟩ fun _ => 5),
    (.b, .packet ⟨.close, 1, 0, []⟩ fun _ => 6), (.b, .read), (.b, .read), (.b, .read)]

theorem close_flushes_closedAfterTwo :
    ∃ l, run (Link.step Params.default { Params.default with orderedDelivery := true })
        (Link.init 1) closedAfterTwo = some l ∧
      l.b.returned = [.data [7], .data [8], .err .closed] ∧
      ∃ pre post, l.b.returned = pre ++ .err .closed :: post ∧
        pre.filterMap Delivery.payload? = l.a.accepted ∧ ∀ d, Delivery.data d ∉ post := by
  have hval : (run (Link.step Params.default { Params.default with orderedDelivery := true })
      (Link.init 1) closedAfterTwo).map
        (fun l => (l.a.accepted, l.b.returned, l.b.closeCalled, l.b.stopped)) =
      some ([[7], [8]], [.data [7], .data [8], .err .closed], false, false) := by
    decide +kernel
  obtain ⟨l, hrun, hl⟩ := Option.map_eq_some_iff.mp hval
  obtain ⟨hacc, hret, hclose, hstop⟩ : l.a.accepted = [[7], [8]] ∧
      l.b.returned = [.data [7], .data [8], .err .closed] ∧ l.b.closeCalled = false ∧
      l.b.stopped = false := by simpa using hl
  obtain ⟨pre, post, hr, -, -, hord, -, hpost⟩ := close_flushes hrun .a
    (by rw [Link.conn, hacc]; decide) hclose hstop (by rw [Side.other, Link.conn, hret]; simp)
  exact ⟨l, hrun, hret, pre, post, hr, hord rfl, hpost⟩

end RudpScheduler.Rudp
