import RudpScheduler.Construction.Tcp

/-!
# The TCP transport delivers what was written before `Close`

The argument has a part for each end and one for the whole.

* The receiving end alone (`Parsed`): whatever bytes come and however they are cut, the reader has
  reported the messages whose frames are complete in what it has read, but for the one it is about
  to report.
* The sending end (`Flow`): while nothing is reset, the bytes read, the bytes under way, the rest of
  the frame being written and the frames of the backlog are together the frames of the messages
  taken so far, and the socket is only closed when that is everything written before `Close`.
* No run goes on for ever (`run_length_work`), and one that cannot go on has reported the error
  (`Flow.returned_of_stuck`).

The code is a prefix code (`frame_code`), so at the end of the stream the reader has nothing left
over.
-/

namespace RudpScheduler.Tcp

/-! ## Frames -/

/-- The message's length can be written in the two bytes of the head. -/
def Fits (d : Message) : Prop := d.length ≤ 65535

instance (d : Message) : Decidable (Fits d) := inferInstanceAs (Decidable (_ ≤ _))

lemma Fits.frame_eq {d : Message} (h : Fits d) : frame d = beBytes 2 d.length ++ d := by
  have hlt : d.length < UInt16.size := Nat.lt_succ_of_le h
  rw [frame, UInt16.toNat_ofNat_of_lt' hlt]

lemma frame_ne_nil (d : Message) : frame d ≠ [] := by
  intro h
  have hlen := congrArg List.length h
  rw [frame, List.length_append, length_beBytes, List.length_nil] at hlen
  omega

lemma beBytes_two_inj {m n : ℕ} (hm : m ≤ 65535) (hn : n ≤ 65535)
    (h : beBytes 2 m = beBytes 2 n) : m = n := by
  have hnat := congrArg beNat h
  rw [beNat_beBytes, beNat_beBytes] at hnat
  omega

lemma frame_code : PrefixCode frame Fits where
  ne_nil _ := frame_ne_nil _
  cancel {a b x y} ha hb h := by
    rw [ha.frame_eq, hb.frame_eq, List.append_assoc, List.append_assoc] at h
    obtain ⟨hhead, hrest⟩ := List.append_inj h (by rw [length_beBytes, length_beBytes])
    exact List.append_inj hrest (beBytes_two_inj ha hb hhead)

/-- Fewer than two bytes hold no frame. -/
lemma not_frame_prefix_head {got : List UInt8} (hgot : got.length < 2) {d : Message}
    (hd : Fits d) : ¬ frame d <+: got := by
  intro h
  have hle := h.length_le
  rw [hd.frame_eq, List.length_append, length_beBytes] at hle
  omega

/-- A head and fewer bytes than it announces hold no frame. -/
lemma not_frame_prefix_body {n : ℕ} (hn : n ≤ 65535) {got : List UInt8} (hgot : got.length < n)
    {d : Message} (hd : Fits d) : ¬ frame d <+: beBytes 2 n ++ got := by
  rintro ⟨x, hx⟩
  rw [hd.frame_eq, List.append_assoc] at hx
  obtain ⟨hhead, hrest⟩ := List.append_inj hx (by rw [length_beBytes, length_beBytes])
  have hlen := congrArg List.length hrest
  have hdn := beBytes_two_inj hd hn hhead
  rw [List.length_append] at hlen
  omega

/-! ## The reader -/

/-- The messages among what was reported. -/
def messages (reports : List Delivery) : List Message :=
  reports.filterMap fun
    | .message d => some d
    | .error _ => none

@[simp] lemma messages_map (ms : List Message) : messages (ms.map Delivery.message) = ms := by
  induction ms with
  | nil => rfl
  | cons m ms ih => exact congrArg (m :: ·) ih

@[simp] lemma messages_append_error (out : List Delivery) (e : ReadErr) :
    messages (out ++ [Delivery.error e]) = messages out := by
  simp [messages]

/-- The reader, the bytes it has read and what it has reported. -/
inductive Parsed : Reader → List UInt8 → List Delivery → Prop
  | head {ms : List Message} {got} (hms : ∀ m ∈ ms, Fits m) (hgot : got.length < 2) :
      Parsed (.head got) (ms.flatMap frame ++ got) (ms.map .message)
  | body {ms : List Message} {n got} (hms : ∀ m ∈ ms, Fits m) (hn : n ≤ 65535)
      (hgot : got.length < n) :
      Parsed (.body n got) (ms.flatMap frame ++ (beBytes 2 n ++ got)) (ms.map .message)
  | forward {ms : List Message} {d} (hms : ∀ m ∈ ms, Fits m) (hd : Fits d) :
      Parsed (.forward d) (ms.flatMap frame ++ frame d) (ms.map .message)
  | report {ms : List Message} {p e} (h : Complete frame Fits p ms) :
      Parsed (.report e) p (ms.map .message)
  | returned {ms : List Message} {p e} (h : Complete frame Fits p ms) :
      Parsed .returned p (ms.map Delivery.message ++ [Delivery.error e])

variable {r : Reader} {p : List UInt8} {out : List Delivery}

lemma parsed_init : Parsed (.head []) [] [] :=
  @Parsed.head [] [] (fun _ h => absurd h List.not_mem_nil) Nat.two_pos

/-- The reader has reported exactly the messages complete in what it has read, but for the one it is
about to report. -/
lemma Parsed.complete (h : Parsed r p out) : Complete frame Fits p (messages out ++ r.holding) := by
  cases h with
  | @head ms got hms hgot =>
      simp only [messages_map, Reader.holding, List.append_nil]
      exact ⟨hms, got, rfl, fun d hd => not_frame_prefix_head hgot hd⟩
  | @body ms n got hms hn hgot =>
      simp only [messages_map, Reader.holding, List.append_nil]
      exact ⟨hms, _, rfl, fun d hd => not_frame_prefix_body hn hgot hd⟩
  | @forward ms d hms hd =>
      rw [messages_map, Reader.holding]
      refine ⟨List.forall_mem_append.mpr ⟨hms, List.forall_mem_singleton.mpr hd⟩, [], ?_, ?_⟩
      · rw [List.flatMap_append, List.flatMap_singleton, List.append_nil]
      · intro d' hd' hpre
        exact frame_code.ne_nil hd' (List.prefix_nil.mp hpre)
  | report h => simpa [Reader.holding] using h
  | returned h => simpa [Reader.holding] using h

/-- Before the error everything reported is a message. -/
lemma Parsed.reports_eq (h : Parsed r p out) (hr : r ≠ .returned) :
    out = (messages out).map .message := by
  cases h with
  | returned hc => exact absurd rfl hr
  | _ => rw [messages_map]

/-- The socket returns some bytes. -/
lemma Parsed.fill (h : Parsed r p out) {c : List UInt8} (hc : c.length ≤ r.wants)
    (h0 : 0 < c.length) : Parsed (r.fill c) (p ++ c) out := by
  cases h with
  | @head ms got hms hgot =>
      rw [Reader.fill, List.append_assoc]
      rw [Reader.wants] at hc
      split_ifs with hshort
      · exact .head hms hshort
      · have hlen : (got ++ c).length = 2 := by
          rw [List.length_append] at hshort ⊢
          omega
        have hlt := beNat_lt (got ++ c)
        rw [hlen] at hlt
        have hhead := beBytes_beNat hlen
        generalize beNat (got ++ c) = n at hlt hhead
        rw [Reader.start, ← hhead]
        split_ifs with hn
        · -- an empty message is read as soon as its length is
          subst hn
          exact .forward hms (Nat.zero_le _)
        · have hbody := @Parsed.body ms n [] hms (Nat.le_of_lt_succ hlt) (Nat.pos_of_ne_zero hn)
          rwa [List.append_nil] at hbody
  | @body ms n got hms hn hgot =>
      rw [Reader.fill, List.append_assoc, List.append_assoc]
      rw [Reader.wants] at hc
      split_ifs with hshort
      · exact .body hms hn hshort
      · have hlen : (got ++ c).length = n := by
          rw [List.length_append] at hshort ⊢
          omega
        have hfits : Fits (got ++ c) := hlen.trans_le hn
        rw [← hlen, ← hfits.frame_eq]
        exact .forward hms hfits
  | _ => exact absurd hc (Nat.not_le_of_lt h0)

/-- The application takes a message. -/
lemma Parsed.message {d : Message} (h : Parsed (.forward d) p out) :
    Parsed (.head []) p (out ++ [Delivery.message d]) := by
  cases h with
  | @forward ms d hms hd =>
      have hall : ∀ m ∈ ms ++ [d], Fits m :=
        List.forall_mem_append.mpr ⟨hms, List.forall_mem_singleton.mpr hd⟩
      have hhead := @Parsed.head (ms ++ [d]) [] hall Nat.two_pos
      rwa [List.append_nil, List.flatMap_append, List.flatMap_singleton, List.map_append] at hhead

/-- At the end of the whole stream the reader waits for a new frame, and has reported everything. -/
lemma Parsed.at_end (h : Parsed r p out) {e : ReadErr} (he : r.eofErr = some e)
    {all : List Message} (hall : ∀ m ∈ all, Fits m) (hp : p = all.flatMap frame) :
    e = .eof ∧ out = all.map .message := by
  have heq := Complete.eq_all frame_code hall (hp ▸ h.complete)
  cases h with
  | @head ms got hms hgot =>
      simp only [messages_map, Reader.holding, List.append_nil] at heq
      subst heq
      have hnil : got = [] := List.append_right_eq_self.mp hp
      rw [Reader.eofErr, if_pos hnil, Option.some_inj] at he
      exact ⟨he.symm, rfl⟩
  | @body ms n got hms hn hgot =>
      simp only [messages_map, Reader.holding, List.append_nil] at heq
      subst heq
      have hnil := congrArg List.length (List.append_right_eq_self.mp hp)
      rw [List.length_append, length_beBytes, List.length_nil] at hnil
      omega
  | _ => exact absurd he (by simp [Reader.eofErr])

/-- The reader gets an error where it waits for bytes. -/
lemma Parsed.fail (h : Parsed r p out) {e e' : ReadErr} (he : r.eofErr = some e) :
    Parsed (.report e') p out := by
  have hc := h.complete
  cases h with
  | head hms hgot =>
      simp only [messages_map, Reader.holding, List.append_nil] at hc
      exact .report hc
  | body hms hn hgot =>
      simp only [messages_map, Reader.holding, List.append_nil] at hc
      exact .report hc
  | _ => exact absurd he (by simp [Reader.eofErr])

/-- The application takes the error. -/
lemma Parsed.error {e : ReadErr} (h : Parsed (.report e) p out) :
    Parsed .returned p (out ++ [Delivery.error e]) := by
  cases h with
  | report hc => exact .returned hc

lemma Move.parsed {cap : ℕ} {s t : State} {a : Action} (h : Move cap s a t)
    (hs : Parsed s.reader s.consumed s.reports) : Parsed t.reader t.consumed t.reports := by
  cases h with
  | recv h0 hk hwants =>
      refine hs.fill ?_ ?_
      · rwa [List.length_take_of_le hk]
      · rwa [List.length_take_of_le hk]
  | eof hr hwire hup => exact hs.fail hr
  | readFails hr hb => exact hs.fail hr
  | message hr =>
      rw [hr] at hs
      exact hs.message
  | error hr =>
      rw [hr] at hs
      exact hs.error
  | _ => exact hs

/-! ## The sending end -/

/-- The bytes of the frame being written that the socket has not taken. -/
def Writer.rest : Writer → List UInt8
  | .sending rest => rest
  | _ => []

@[simp] lemma Writer.rest_sending (rest : List UInt8) : (Writer.sending rest).rest = rest := rfl

@[simp] lemma Writer.rest_after (rest : List UInt8) : (Writer.after rest).rest = rest := by
  rw [Writer.after]
  split_ifs with h
  · exact h.symm
  · rfl

lemma Writer.after_eq_sending {rest rest' : List UInt8} (h : Writer.after rest = .sending rest') :
    rest' ≠ [] := by
  rw [Writer.after] at h
  split_ifs at h with hnil
  exact Writer.sending.inj h ▸ hnil

lemma Writer.after_ne_returned (rest : List UInt8) : Writer.after rest ≠ .returned := by
  rw [Writer.after]
  split_ifs <;> simp

/-- How the sending end shuts down while nothing is reset: `queue` drains its backlog, `writer`
closes the socket, the reader closes `dead`. -/
structure Stops (s : State) : Prop where
  whole : s.broken = false
  drained : s.queue = .drained → s.pending = [] ∧ s.closing = true
  hungUp : s.hungUp = true → s.queue = .drained ∧ s.writer = .returned
  returned : s.writer = .returned → s.hungUp = true
  dead : s.dead = true → s.hungUp = true
  kept : s.queue ≠ .abandoned
  busy : ∀ rest, s.writer = .sending rest → rest ≠ []

variable {cap : ℕ} {s t : State} {a : Action}

lemma Stops.not_dead (hs : Stops s) (hq : s.queue = .serving) : s.dead ≠ true := by
  intro hdead
  have hdrained := (hs.hungUp (hs.dead hdead)).1
  rw [hq] at hdrained
  exact absurd hdrained (by decide)

lemma Move.stops (h : Move cap s a t) (ha : a ≠ .reset) (hs : Stops s) : Stops t := by
  have hwhole : s.broken ≠ true := by
    rw [hs.whole]
    exact Bool.false_ne_true
  cases h with
  | write hsel hsc hopen =>
      refine { hs with drained := fun hq => ?_ }
      exact absurd (hsel.1.symm.trans hq) (by decide)
  | close hsel hsc => exact { hs with drained := fun hq => ⟨(hs.drained hq).1, rfl⟩ }
  | handOff hq hp hw =>
      refine { hs with
        drained := fun hq' => ?_
        hungUp := fun hup => ?_
        returned := fun hr => ?_
        busy := fun rest hrest => ?_ }
      · exact absurd (hq.symm.trans hq') (by decide)
      · exact absurd (hw.symm.trans (hs.hungUp hup).2) (by decide)
      · exact absurd hr (by simp)
      · exact Writer.sending.inj hrest ▸ frame_ne_nil _
  | drain hq hp hclosing =>
      refine { hs with drained := fun _ => ⟨hp, hclosing⟩, hungUp := fun hup => ?_, kept := ?_ }
      · exact absurd (hq.symm.trans (hs.hungUp hup).1) (by decide)
      · exact Queue.noConfusion
  | abandon hsel hdead => exact absurd hdead (hs.not_dead hsel.1)
  | send hw h0 hk hroom =>
      refine { hs with
        hungUp := fun hup => ?_
        returned := fun hr => ?_
        busy := fun rest hrest => Writer.after_eq_sending hrest }
      · exact absurd (hw.symm.trans (hs.hungUp hup).2) (by simp)
      · exact absurd hr (Writer.after_ne_returned _)
  | hangUp hw hq =>
      exact { hs with
        hungUp := fun _ => ⟨hq, rfl⟩
        returned := fun _ => rfl
        dead := fun _ => rfl
        busy := fun _ hrest => Writer.noConfusion hrest }
  | quit hw hdead => exact absurd (hw.symm.trans (hs.hungUp (hs.dead hdead)).2) (by decide)
  | die hdead hend =>
      have hup := hend.resolve_right hwhole
      exact { hs with
        hungUp := fun _ => hs.hungUp hup
        returned := fun _ => rfl
        dead := fun _ => rfl }
  | writeFails hw hb => exact absurd hb hwhole
  | readFails hr hb => exact absurd hb hwhole
  | reset hb => exact absurd rfl ha
  | _ => exact { hs with }

/-- Where the bytes are: those read, under way, being written and in the backlog are the frames of
the messages taken so far.  The messages taken are the ones written so far, and no more after
`Close`. -/
def Sent (before : List Message) (after : List Op) (s : State) : Prop :=
  ∃ taken todo, before = taken ++ todo ∧
    s.consumed ++ (s.wire ++ (s.writer.rest ++ s.pending.flatMap frame)) = taken.flatMap frame ∧
    (s.closing = false ∧ s.script = todo.map Op.write ++ Op.close :: after ∨
      s.closing = true ∧ todo = [])

variable {before : List Message} {after : List Op}

lemma Sent.isPrefix (h : Sent before after s) : s.consumed <+: before.flatMap frame := by
  obtain ⟨taken, todo, rfl, hbytes, -⟩ := h
  rw [List.flatMap_append, ← hbytes, List.append_assoc]
  exact List.prefix_append _ _

/-- Steps that only move bytes along. -/
lemma Sent.moved (h : Sent before after s) (hclosing : t.closing = s.closing)
    (hscript : t.script = s.script)
    (hbytes : t.consumed ++ (t.wire ++ (t.writer.rest ++ t.pending.flatMap frame)) =
      s.consumed ++ (s.wire ++ (s.writer.rest ++ s.pending.flatMap frame))) :
    Sent before after t := by
  obtain ⟨taken, todo, hall, hs, hrest⟩ := h
  rw [← hclosing, ← hscript] at hrest
  exact ⟨taken, todo, hall, hbytes.trans hs, hrest⟩

/-- After `Close` what the application still does no longer matters. -/
lemma Sent.late (h : Sent before after s) (hclosing : s.closing = true) (script : List Op) :
    Sent before after { s with script := script } := by
  obtain ⟨taken, todo, hall, hbytes, hphase⟩ := h
  rcases hphase with ⟨hc, -⟩ | hlate
  · exact absurd hclosing (by simp [hc])
  · exact ⟨taken, todo, hall, hbytes, .inr hlate⟩

lemma Move.sent (h : Move cap s a t) (hst : Stops s) (hs : Sent before after s) :
    Sent before after t := by
  cases h with
  | @write d rest hsel hsc hopen =>
      obtain ⟨taken, todo, hall, hbytes, hphase⟩ := hs
      rcases hphase with ⟨-, hscript⟩ | ⟨hc, -⟩
      · cases todo with
        | nil =>
            rw [hsc] at hscript
            exact absurd (List.cons.inj hscript).1 (by simp)
        | cons m todo =>
            rw [hsc, List.map_cons, List.cons_append] at hscript
            obtain ⟨hm, hrest⟩ := List.cons.inj hscript
            obtain rfl : d = m := Op.write.inj hm
            refine ⟨taken ++ [d], todo, ?_, ?_, .inl ⟨hopen, hrest⟩⟩
            · rw [hall, List.append_assoc, List.singleton_append]
            · simp only [List.flatMap_append, ← hbytes, List.append_assoc]
      · exact absurd hc (by simp [hopen])
  | writeLate hsel hsc hclosing => exact hs.late hclosing _
  | close hsel hsc =>
      obtain ⟨taken, todo, hall, hbytes, hphase⟩ := hs
      refine ⟨taken, todo, hall, hbytes, .inr ⟨rfl, ?_⟩⟩
      rcases hphase with ⟨-, hscript⟩ | ⟨-, htodo⟩
      · cases todo with
        | nil => rfl
        | cons m todo =>
            rw [hsc, List.map_cons, List.cons_append] at hscript
            exact absurd (List.cons.inj hscript).1 (by simp)
      · exact htodo
  | skip hsc hdead =>
      -- `dead` is only closed after the backlog was drained, that is after `Close`
      have hclosing := (hst.drained (hst.hungUp (hst.dead hdead)).1).2
      exact hs.late hclosing _
  | handOff hq hp hw => exact hs.moved rfl rfl (by simp [hp, hw, Writer.rest])
  | send hw h0 hk hroom =>
      refine hs.moved rfl rfl ?_
      simp only [hw, Writer.rest_after, List.append_assoc]
      rw [Writer.rest, ← List.append_assoc (List.take _ _), List.take_append_drop]
  | writeFails hw hb => exact absurd hb (by simp [hst.whole])
  | hangUp hw hq => exact hs.moved rfl rfl (by simp [hw, Writer.rest])
  | quit hw hdead => exact hs.moved rfl rfl (by simp [hw, Writer.rest])
  | recv h0 hk hwants =>
      refine hs.moved rfl rfl ?_
      rw [List.append_assoc, ← List.append_assoc (List.take _ _), List.take_append_drop]
  | _ => exact hs

/-! ## The whole connection -/

/-- Everything together, for the messages written before `Close`. -/
structure Flow (before : List Message) (after : List Op) (s : State) : Prop where
  parsed : Parsed s.reader s.consumed s.reports
  stops : Stops s
  sent : Sent before after s
  report : ∀ e, s.reader = .report e → e = .eof ∧ s.reports = before.map .message
  returned : s.reader = .returned → s.reports = before.map Delivery.message ++ [Delivery.error .eof]

lemma flow_init (before : List Message) (after : List Op) :
    Flow before after (.init (before.map Op.write ++ Op.close :: after)) where
  parsed := parsed_init
  stops := by constructor <;> simp [State.init]
  sent := ⟨[], before, rfl, rfl, .inl ⟨rfl, rfl⟩⟩
  report e h := by simp [State.init] at h
  returned h := by simp [State.init] at h

/-- When the sending end has hung up and nothing is under way, everything has been read. -/
lemma Flow.consumed_eq (h : Flow before after s) (hup : s.hungUp = true) (hwire : s.wire = []) :
    s.consumed = before.flatMap frame := by
  obtain ⟨hq, hw⟩ := h.stops.hungUp hup
  obtain ⟨hp, hclosing⟩ := h.stops.drained hq
  obtain ⟨taken, todo, rfl, hbytes, hphase⟩ := h.sent
  rw [hwire, hw, hp] at hbytes
  rcases hphase with ⟨hc, -⟩ | ⟨-, rfl⟩
  · exact absurd hclosing (by simp [hc])
  · simpa [Writer.rest] using hbytes

/-- A reader that gets bytes goes on reading or has a message. -/
lemma Reader.fill_cases (h : 0 < r.wants) (c : List UInt8) :
    (∃ got, r.fill c = .head got) ∨ (∃ n got, r.fill c = .body n got) ∨
      ∃ d, r.fill c = .forward d := by
  cases r with
  | head got =>
      rw [Reader.fill]
      split_ifs
      · exact .inl ⟨_, rfl⟩
      · rw [Reader.start]
        split_ifs
        · exact .inr (.inr ⟨_, rfl⟩)
        · exact .inr (.inl ⟨_, _, rfl⟩)
  | body n got =>
      rw [Reader.fill]
      split_ifs
      · exact .inr (.inl ⟨_, _, rfl⟩)
      · exact .inr (.inr ⟨_, rfl⟩)
  | _ => exact absurd h (Nat.lt_irrefl 0)

lemma Move.flow (h : Move cap s a t) (ha : a ≠ .reset) (hall : ∀ m ∈ before, Fits m)
    (hs : Flow before after s) : Flow before after t := by
  have hparsed := h.parsed hs.parsed
  have hstops := h.stops ha hs.stops
  have hsent := h.sent hs.stops hs.sent
  suffices hends : (∀ e, t.reader = .report e → e = .eof ∧ t.reports = before.map .message) ∧
      (t.reader = .returned → t.reports = before.map Delivery.message ++ [Delivery.error .eof]) from
    ⟨hparsed, hstops, hsent, hends.1, hends.2⟩
  cases h with
  | recv h0 hk hwants =>
      dsimp only
      rcases Reader.fill_cases (Nat.lt_of_lt_of_le h0 hwants) (s.wire.take _) with
        ⟨got, hf⟩ | ⟨n, got, hf⟩ | ⟨d, hf⟩ <;> rw [hf] <;> simp
  | @eof e hr hwire hup =>
      have hend := hs.parsed.at_end hr hall (hs.consumed_eq hup hwire)
      refine ⟨fun e' he' => ?_, fun hret => absurd hret (by simp)⟩
      rw [← Reader.report.inj he']
      exact hend
  | readFails hr hb => exact absurd hb (by simp [hs.stops.whole])
  | message hr => exact ⟨fun e he => absurd he (by simp), fun hret => absurd hret (by simp)⟩
  | @error e hr =>
      obtain ⟨he, hreports⟩ := hs.report e hr
      refine ⟨fun e' he' => absurd he' (by simp), fun _ => ?_⟩
      rw [hreports, he]
  | _ => exact ⟨hs.report, hs.returned⟩

/-- Every state of a run without a reset. -/
lemma run_flow {acts : List Action} (hall : ∀ m ∈ before, Fits m) (hreset : Action.reset ∉ acts)
    (hrun : run (State.step cap) (.init (before.map Op.write ++ Op.close :: after)) acts = some s) :
    Flow before after s := by
  have halong : Along (fun _ a => a ≠ .reset) (State.step cap)
      (.init (before.map Op.write ++ Op.close :: after)) acts :=
    Along.of_forall fun a ha _ he => hreset (he ▸ ha)
  refine run_invariant_along (fun s a t hs ha hstep => ?_) (flow_init before after) halong hrun
  exact (step_move hstep).flow ha hall hs

/-- What has been reported is a first part of the whole report. -/
lemma Flow.reports_isPrefix (h : Flow before after s) (hall : ∀ m ∈ before, Fits m) :
    s.reports <+: before.map Delivery.message ++ [Delivery.error .eof] := by
  by_cases hr : s.reader = .returned
  · rw [h.returned hr]
  · have hms := h.parsed.complete.isPrefix frame_code hall h.sent.isPrefix
    rw [h.parsed.reports_eq hr]
    have hmap := ((List.prefix_append _ _).trans hms).map Delivery.message
    exact hmap.trans (List.prefix_append _ _)

/-! ## Runs end -/

/-- What a call of the application still costs: its bytes are taken, written and read. -/
def Op.work : Op → ℕ
  | .write d => 3 * (frame d).length + 2
  | .close => 1

def Reader.work : Reader → ℕ
  | .head _ => 2
  | .body _ _ => 2
  | .forward _ => 3
  | .report _ => 1
  | .returned => 0

/-- How many more steps there can be. -/
def State.work (s : State) : ℕ :=
  (s.script.map Op.work).sum + (s.pending.map fun d => 3 * (frame d).length + 1).sum +
    3 * s.writer.rest.length + 2 * s.wire.length + s.reader.work +
    (if s.queue = .serving then 1 else 0) + (if s.writer = .returned then 0 else 1) +
    (if s.dead = true then 0 else 1) + if s.broken = true then 0 else 1

lemma Reader.work_fill (h : 0 < r.wants) (c : List UInt8) : (r.fill c).work ≤ 3 ∧ r.work = 2 := by
  constructor
  · rcases Reader.fill_cases h c with ⟨got, hf⟩ | ⟨n, got, hf⟩ | ⟨d, hf⟩
    all_goals
      rw [hf]
      simp [Reader.work]
  · cases r with
    | head got => rfl
    | body n got => rfl
    | _ => exact absurd h (Nat.lt_irrefl 0)

lemma Reader.work_of_eofErr {e : ReadErr} (h : r.eofErr = some e) : r.work = 2 := by
  cases r with
  | head got => rfl
  | body n got => rfl
  | _ => exact absurd h (by simp [Reader.eofErr])

lemma Op.work_pos (op : Op) : 0 < op.work := by
  cases op with
  | write d => exact Nat.succ_pos _
  | close => exact Nat.one_pos

/-- Every step, resets included, leaves fewer steps to come. -/
lemma Move.work_lt (h : Move cap s a t) : t.work < s.work := by
  cases h with
  | write hsel hs hopen =>
      simp only [State.work, hs, List.map_cons, List.sum_cons, Op.work, List.map_append,
        List.sum_append, List.map_nil, List.sum_nil]
      omega
  | writeLate hsel hs hclosing =>
      simp only [State.work, hs, List.map_cons, List.sum_cons, Op.work]
      omega
  | close hsel hs =>
      simp only [State.work, hs, List.map_cons, List.sum_cons, Op.work]
      omega
  | @skip op rest hs hdead =>
      have hop := op.work_pos
      simp only [State.work, hs, List.map_cons, List.sum_cons]
      omega
  | handOff hq hp hw =>
      simp only [State.work, hp, hw, List.map_cons, List.sum_cons, Writer.rest, List.length_nil,
        reduceCtorEq, if_false]
      omega
  | drain hq hp hclosing =>
      simp only [State.work, hq, reduceCtorEq, if_false, if_true]
      omega
  | abandon hsel hdead =>
      simp only [State.work, hsel.1, reduceCtorEq, if_false, if_true]
      omega
  | send hw h0 hk hroom =>
      have hlen := List.length_take_of_le hk
      simp only [State.work, hw, Writer.rest_after, Writer.rest_sending, List.length_append, hlen,
        List.length_drop, Writer.after_ne_returned, reduceCtorEq, if_false]
      omega
  | writeFails hw hb =>
      simp only [State.work, hw, Writer.rest, List.length_nil, reduceCtorEq, if_false, if_true]
      omega
  | hangUp hw hq =>
      simp only [State.work, hw, Writer.rest, List.length_nil, reduceCtorEq, if_false, if_true]
      omega
  | quit hw hdead =>
      simp only [State.work, hw, Writer.rest, List.length_nil, reduceCtorEq, if_false, if_true]
      omega
  | die hdead hend =>
      simp only [State.work, hdead, Bool.false_eq_true, if_false, if_true]
      omega
  | reset hb =>
      simp only [State.work, hb, Bool.false_eq_true, if_false, if_true]
      omega
  | @recv k h0 hk hwants =>
      obtain ⟨hfill, hr⟩ := Reader.work_fill (Nat.lt_of_lt_of_le h0 hwants) (s.wire.take k)
      simp only [State.work, List.length_drop]
      omega
  | eof hr hwire hup =>
      have hwait := Reader.work_of_eofErr hr
      simp only [State.work, Reader.work] at hwait ⊢
      omega
  | readFails hr hb =>
      have hwait := Reader.work_of_eofErr hr
      simp only [State.work, Reader.work] at hwait ⊢
      omega
  | message hr =>
      simp only [State.work, hr, Reader.work]
      omega
  | error hr =>
      simp only [State.work, hr, Reader.work]
      omega

/-- A run cannot be longer than the work it starts with. -/
lemma run_length_work {acts : List Action} {s t : State}
    (hrun : run (State.step cap) s acts = some t) : acts.length ≤ s.work := by
  have hle := run_length_le (fun _ _ _ hstep => (step_move hstep).work_lt) hrun
  omega

/-- A reader that still waits for bytes can take them, or sees the end of the stream. -/
lemma Reader.wants_pos (h : Parsed r p out) (hr : r.eofErr ≠ none) : 0 < r.wants := by
  cases h with
  | head hms hgot => exact Nat.sub_pos_of_lt hgot
  | body hms hn hgot => exact Nat.sub_pos_of_lt hgot
  | _ => exact absurd rfl hr

/-- **The connection does not get stuck.**  When nothing but a reset can happen, the error has been
reported. -/
lemma Flow.returned_of_stuck (h : Flow before after s) (hcap : 0 < cap)
    (hstuck : ∀ a, a ≠ .reset → s.step cap a = none) : s.reader = .returned := by
  by_contra hr
  -- the reader offers nothing, so it waits for bytes
  have hwait : s.reader.eofErr ≠ none := by
    have hdeliver := hstuck .deliver Action.noConfusion
    simp only [State.step] at hdeliver
    cases hreader : s.reader with
    | forward d => simp [hreader] at hdeliver
    | report e => simp [hreader] at hdeliver
    | returned => exact absurd hreader hr
    | _ => simp [Reader.eofErr]
  -- there are none under way
  have hwire : s.wire = [] := by
    have hrecv := hstuck (.recv 1) Action.noConfusion
    simp only [State.step] at hrecv
    split_ifs at hrecv with hg
    by_contra hne
    exact hg ⟨Nat.one_pos, List.length_pos_of_ne_nil hne, Reader.wants_pos h.parsed hwait⟩
  -- and the sending end has not hung up
  have hup : s.hungUp = false := by
    obtain ⟨e, he⟩ := Option.ne_none_iff_exists'.mp hwait
    have heof := hstuck .eof Action.noConfusion
    simp only [State.step, he] at heof
    split_ifs at heof with hg
    rw [Bool.eq_false_iff]
    exact fun hup => hg ⟨hwire, hup⟩
  -- so the writer is idle
  have hw : s.writer = .idle := by
    cases hwriter : s.writer with
    | idle => rfl
    | sending rest =>
        have hsend := hstuck (.send 1) Action.noConfusion
        simp only [State.step, hwriter, hwire, List.length_nil, Nat.zero_add] at hsend
        split_ifs at hsend with hg
        have hne := h.stops.busy rest hwriter
        exact absurd ⟨Nat.one_pos, List.length_pos_of_ne_nil hne, hcap⟩ hg
    | returned => exact absurd (h.stops.returned hwriter) (by simp [hup])
  -- and has nothing to write, since the backlog is empty
  have hq : s.queue = .serving := by
    cases hqueue : s.queue with
    | serving => rfl
    | drained =>
        have hhang := hstuck .hangUp Action.noConfusion
        simp [State.step, hw, hqueue] at hhang
    | abandoned => exact absurd hqueue h.stops.kept
  have hp : s.pending = [] := by
    have hhand := hstuck .handOff Action.noConfusion
    cases hpending : s.pending with
    | nil => rfl
    | cons d rest => simp [State.step, hq, hpending, hw] at hhand
  -- `Close` has not been taken yet, but the queue would take it
  have hopen : s.closing = false := by
    have hdrain := hstuck .drain Action.noConfusion
    simp only [State.step] at hdrain
    split_ifs at hdrain with hg
    rw [Bool.eq_false_iff]
    exact fun hclosing => hg ⟨hq, hp, hclosing⟩
  have htake := hstuck .take Action.noConfusion
  obtain ⟨taken, todo, -, -, hphase⟩ := h.sent
  rcases hphase with ⟨-, hscript⟩ | ⟨hclosing, -⟩
  · have hsel : s.Selecting := ⟨hq, .inr hopen⟩
    cases todo with
    | nil => simp [State.step, hsel, hscript] at htake
    | cons m todo => simp [State.step, hsel, hscript] at htake
  · exact absurd hclosing (by simp [hopen])

/-! ## The result -/

/-- **Exactly what was written before `Close` is delivered.**  In every run without a reset, with
any interleaving of the goroutines and the stream cut in any way:

* what has been reported is a first part of the messages written before `Close`, followed by one
  error;
* the bytes read are a first part of the frames of these messages, and the messages reported,
  with the one about to be, are those whose frames are complete in the bytes read;
* when the reader has returned, so that a client's `Read` gives up waiting for it, everything has
  been reported;
* the run is no longer than the work it started with, and when nothing more can happen everything
  has been reported. -/
theorem delivers_what_was_written {cap : ℕ} (hcap : 0 < cap) {before : List Message}
    (hfits : ∀ m ∈ before, m.length ≤ 65535) {after : List Op} {acts : List Action}
    (hreset : Action.reset ∉ acts) {s : State}
    (hrun : run (State.step cap) (.init (before.map Op.write ++ Op.close :: after)) acts = some s) :
    s.reports <+: before.map Delivery.message ++ [Delivery.error .eof] ∧
      s.consumed <+: before.flatMap frame ∧
      Complete frame Fits s.consumed (messages s.reports ++ s.reader.holding) ∧
      (s.reader = .returned → s.reports = before.map Delivery.message ++ [Delivery.error .eof]) ∧
      acts.length ≤ (State.init (before.map Op.write ++ Op.close :: after)).work ∧
      ((∀ a, a ≠ .reset → s.step cap a = none) →
        s.reports = before.map Delivery.message ++ [Delivery.error .eof]) := by
  have hflow := run_flow hfits hreset hrun
  refine ⟨hflow.reports_isPrefix hfits, hflow.sent.isPrefix, hflow.parsed.complete,
    hflow.returned, run_length_work hrun, fun hstuck => ?_⟩
  exact hflow.returned (hflow.returned_of_stuck hcap hstuck)

/-- Two messages, one of them empty, then `Close` and a late `Write`; two bytes fit on the way, and
the first frame is read in three pieces. -/
def twoMessages : List Action :=
  [.take, .handOff, .send 2, .recv 1, .recv 1, .send 1, .recv 1, .take, .take, .take, .deliver,
    .handOff, .send 2, .recv 2, .drain, .hangUp, .deliver, .eof, .die, .deliver]

theorem delivers_what_was_written_twoMessages :
    ∃ s, run (State.step 2)
        (.init ([[7], []].map .write ++ .close :: [.write [9]])) twoMessages = some s ∧
      s.reports = [.message [7], .message [], .error .eof] := by
  have hval : (run (State.step 2)
      (.init ([[7], []].map .write ++ Op.close :: [.write [9]])) twoMessages).map State.reader =
      some .returned := by
    decide
  obtain ⟨s, hrun, hr⟩ := Option.map_eq_some_iff.mp hval
  have hall := delivers_what_was_written (by decide) (by decide) (by decide) hrun
  exact ⟨s, hrun, hall.2.2.2.1 hr⟩

end RudpScheduler.Tcp
