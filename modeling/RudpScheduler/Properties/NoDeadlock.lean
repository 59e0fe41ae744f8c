import RudpScheduler.Construction.Channels
import RudpScheduler.Properties.SystemInvariant

/-!
# The scheduler's goroutines cannot deadlock

The dispatcher can be held up by a worker loop whose `resultCh` is full, or by the aggregator; a
worker loop that is still in the dispatcher's table by the aggregator only; and the aggregator,
once it is at a channel, by nobody.  The first step of the argument is about the table
(`Sys.Served`): a loop is told to leave, and so comes to push into `pq` without a way out, only
after the dispatcher has removed it.  The second is about the reply channel (`Sched.Ok`): the
aggregator answers a handler once, so the channel made for the answer has room.

`Sched.no_deadlock` puts the two together for every reachable state.
-/

namespace RudpScheduler

/-- A handler that is not feeding moves only by its own rendezvous with the aggregator. -/
lemma Sys.Move.handler_stays {wl : Workload} {p : Params} {s t : Sys} {a : Action}
    (hm : Sys.Move wl p s a t) (hok : s.Ok) {g : ℕ} {h : Handler}
    (hg : s.handlers.lookup g = some h) (hfeed : ∀ c rest, h ≠ .feeding c rest)
    (hsub : ∀ now, a ≠ .submit g now) (htake : a ≠ .takeReply g) :
    t.handlers.lookup g = some h := by
  have hins : ∀ {k : ℕ} {h' : Handler}, g ≠ k →
      (s.handlers.insert k h').lookup g = some h := fun hk => by
    rw [GoMap.lookup_insert_ite, if_neg hk, hg]
  have hers : ∀ {k : ℕ}, g ≠ k → (s.handlers.erase k).lookup g = some h := fun hk => by
    rw [GoMap.lookup_erase_ite, if_neg hk, hg]
  cases hm with
  | request => exact hins (hok.handlers_lt g h hg).ne
  | submit => exact hins fun he => hsub _ (by rw [he])
  | begin => exact hins fun he => htake (by rw [he])
  | leave => exact hers fun he => htake (by rw [he])
  | feed hk =>
      refine hins ?_
      rintro rfl
      exact hfeed _ _ (Option.some_inj.mp (hg.symm.trans hk))
  | feedCancel hk =>
      refine hers ?_
      rintro rfl
      exact hfeed _ _ (Option.some_inj.mp (hg.symm.trans hk))
  | _ => exact hg

namespace Sched

variable {wl : Workload} {p : Params} {s t : Sched}

/-! ## What a step can do -/

/-- What one step of the scheduler does. -/
inductive Move (wl : Workload) (p : Params) : Sched → SchedAction → Sched → Prop
  | take {s g h spec now} (hph : s.phase = .selecting)
      (hg : s.sys.handlers.lookup g = some (.submitting h spec)) :
      Move wl p s (.take g now) { s with phase := .replying g now }
  | reply {s g h spec r now sys} (hph : s.phase = .replying g now) (hroom : g ∉ s.full)
      (hg : s.sys.handlers.lookup g = some (.submitting h spec))
      (hm : Sys.Move wl p s.sys (.submit g now) sys)
      (hr : sys.handlers.lookup g = some (.replied h spec r)) :
      Move wl p s .reply ⟨sys, .selecting, insert g s.full⟩
  | takeReply {s g sys} (hfull : g ∈ s.full) (hm : Sys.Move wl p s.sys (.takeReply g) sys) :
      Move wl p s (.other (.takeReply g)) { s with sys := sys, full := s.full.erase g }
  | other {s a sys} (hm : Sys.Move wl p s.sys a sys) (hsub : ∀ g now, a ≠ .submit g now)
      (htake : ∀ g, a ≠ .takeReply g) : Move wl p s (.other a) { s with sys := sys }

lemma lift_move {a : Action} (h : s.lift wl p a = some t) (hsub : ∀ g now, a ≠ .submit g now)
    (htake : ∀ g, a ≠ .takeReply g) : Move wl p s (.other a) t := by
  obtain ⟨sys, hsys, rfl⟩ := Option.map_eq_some_iff.mp h
  exact .other (Sys.step_move hsys) hsub htake

/-- There is nothing else a step of the scheduler can do. -/
lemma step_move {a : SchedAction} (h : s.step wl p a = some t) : Move wl p s a t := by
  cases a with
  | take g now =>
      rw [step, take] at h
      split at h
      · obtain rfl := Option.some_inj.mp h
        exact .take ‹_› ‹_›
      · cases h
  | reply =>
      rw [step, reply] at h
      split at h
      · rename_i g now hph
        split_ifs at h with hroom
        obtain ⟨sys, hsys, rfl⟩ := Option.map_eq_some_iff.mp h
        have hm : Sys.Move wl p s.sys (.submit g now) sys := Sys.step_move hsys
        rw [Sys.submit] at hsys
        split at hsys
        · obtain rfl := Option.some_inj.mp hsys
          exact .reply hph hroom ‹_› hm ((GoMap.lookup_insert_ite _ _ _ _).trans (if_pos rfl))
        · cases hsys
      · cases h
  | other a =>
      cases a with
      | submit g now => cases h
      | takeReply g =>
          rw [step] at h
          split_ifs at h with hfull
          obtain ⟨sys, hsys, rfl⟩ := Option.map_eq_some_iff.mp h
          exact .takeReply hfull (Sys.step_move hsys)
      | gone now =>
          rw [step] at h
          split_ifs at h
          exact lift_move h (by simp) (by simp)
      | deliver w now =>
          rw [step] at h
          split_ifs at h
          exact lift_move h (by simp) (by simp)
      | tick now ords =>
          rw [step] at h
          split_ifs at h
          exact lift_move h (by simp) (by simp)
      | _ => exact lift_move h (by simp) (by simp)

/-! ## The reply channels -/

/-- What is true of the scheduler at every step. -/
structure Ok (s : Sched) : Prop where
  sys : s.sys.Ok
  served : s.sys.Served
  /-- A reply channel is full only between the answer and the moment the handler takes it. -/
  full : ∀ g ∈ s.full, ∃ h spec r, s.sys.handlers.lookup g = some (.replied h spec r)
  /-- The handler the aggregator is about to answer has not been answered yet. -/
  replying : ∀ g now, s.phase = .replying g now →
    ∃ h spec, s.sys.handlers.lookup g = some (.submitting h spec)

/-- A step keeps the invariant. -/
lemma Move.ok {a : SchedAction} (h : Move wl p s a t) (hs : s.Ok) : t.Ok := by
  cases h with
  | take hph hg =>
      refine { hs with replying := ?_ }
      rintro g now ⟨rfl, rfl⟩
      exact ⟨_, _, hg⟩
  | @reply g h spec r now sys hph hroom hg hm hr =>
      refine ⟨hm.ok hs.sys, hm.served hs.sys hs.served, fun k hk => ?_, by simp⟩
      rcases Finset.mem_insert.mp hk with rfl | hk
      · exact ⟨h, spec, r, hr⟩
      · obtain ⟨h', spec', r', hk'⟩ := hs.full k hk
        refine ⟨h', spec', r', hm.handler_stays hs.sys hk' (by simp) ?_ (by simp)⟩
        rintro now' ⟨rfl, rfl⟩
        exact hroom hk
  | @takeReply g sys hfull hm =>
      refine ⟨hm.ok hs.sys, hm.served hs.sys hs.served, fun k hk => ?_, fun k now hk => ?_⟩
      · obtain ⟨hne, hk⟩ := Finset.mem_erase.mp hk
        obtain ⟨h, spec, r, hk'⟩ := hs.full k hk
        refine ⟨h, spec, r, hm.handler_stays hs.sys hk' (by simp) (by simp) ?_⟩
        rintro ⟨rfl⟩
        exact hne rfl
      · obtain ⟨h, spec, hk'⟩ := hs.replying k now hk
        refine ⟨h, spec, hm.handler_stays hs.sys hk' (by simp) (by simp) ?_⟩
        -- the handler that takes its answer is not the one still to be answered
        rintro ⟨rfl⟩
        obtain ⟨h', spec', r, hr⟩ := hs.full g hfull
        rw [hr] at hk'
        cases hk'
  | other hm hsub htake =>
      refine ⟨hm.ok hs.sys, hm.served hs.sys hs.served, fun k hk => ?_, fun k now hk => ?_⟩
      · obtain ⟨h, spec, r, hk'⟩ := hs.full k hk
        exact ⟨h, spec, r, hm.handler_stays hs.sys hk' (by simp) (hsub k) (htake k)⟩
      · obtain ⟨h, spec, hk'⟩ := hs.replying k now hk
        exact ⟨h, spec, hm.handler_stays hs.sys hk' (by simp) (hsub k) (htake k)⟩

lemma start_ok {boot : Recovered} (hb : boot.Boots) : (start boot).Ok :=
  ⟨Sys.start_ok hb, Sys.start_served boot, by simp [start], by simp [start]⟩

/-- **Every reachable state of the scheduler is well formed.** -/
lemma run_ok {boot : Recovered} (hb : boot.Boots) {as : List SchedAction}
    (h : run (step wl p) (start boot) as = some s) : s.Ok :=
  run_invariant (fun _ _ _ hs hstep => (step_move hstep).ok hs) (start_ok hb) h

/-! ## Who can go on -/

/-- The aggregator never waits for a handler to take its answer. -/
lemma Ok.reply_isSome (wl : Workload) (p : Params) (hs : s.Ok) {g : ℕ} {now : Time}
    (hph : s.phase = .replying g now) : (s.step wl p .reply).isSome := by
  obtain ⟨h, spec, hg⟩ := hs.replying g now hph
  have hroom : g ∉ s.full := fun hfull => by
    obtain ⟨h', spec', r, hr⟩ := hs.full g hfull
    rw [hr] at hg
    cases hg
  simp [step, reply, hph, hroom, Sys.submit, hg]

/-- With somebody at the other end of one of its channels the aggregator can go on: it takes
what is offered, or finishes the answer it is at. -/
lemma Ok.aggregator_canStep (hs : s.Ok) {a : Action}
    (ha : (SchedAction.other a).actor = some .aggregator)
    (hstep : s.phase = .selecting → (s.step wl p (.other a)).isSome) :
    s.CanStep wl p .aggregator := by
  cases hph : s.phase with
  | selecting => exact ⟨.other a, ha, hstep hph⟩
  | replying g now => exact ⟨.reply, rfl, hs.reply_isSome wl p hph⟩

lemma Ok.canStep_of_notifying (hs : s.Ok) {c : ConnID} (hd : s.sys.disp = .notifying c) :
    s.CanStep wl p .aggregator :=
  hs.aggregator_canStep (a := .gone 0) rfl fun hph => by
    simp [step, hph, lift, Sys.step, Sys.gone, hd]

lemma Ok.canStep_of_holding (hs : s.Ok) {w : ℕ} {l : Worker} {r : ChunkResult}
    (hl : s.sys.loops.lookup w = some l) (hr : l.phase = .holding r) :
    s.CanStep wl p .aggregator :=
  hs.aggregator_canStep (a := .deliver w 0) rfl fun hph => by
    simp [step, hph, lift, Sys.step, Sys.deliver, hl, hr]

/-! ## What an enabled step needs -/

/-- A dispatcher with an enabled step is in `Read`, or its worker's channel has room. -/
lemma CanStep.of_dispatcher (h : s.CanStep wl p .dispatcher) : s.sys.disp = .reading ∨
    ∃ w r l, s.sys.disp = .forwarding w r ∧ s.sys.loops.lookup w = some l ∧
      l.resultCh.length < 4 * p.window := by
  obtain ⟨a, ha, hstep⟩ := h
  match a with
  | .take _ _ | .reply => cases ha
  | .other a =>
    cases a with
    | readError c => exact .inl (by by_contra hne; simp [step, lift, Sys.step, hne] at hstep)
    | readJoin c => exact .inl (by by_contra hne; simp [step, lift, Sys.step, hne] at hstep)
    | readRequest c req => exact .inl (by by_contra hne; simp [step, lift, Sys.step, hne] at hstep)
    | readResult c r => exact .inl (by by_contra hne; simp [step, lift, Sys.step, hne] at hstep)
    | forward =>
        obtain ⟨t, ht⟩ := Option.isSome_iff_exists.mp hstep
        obtain ⟨sys, hsys, -⟩ := Option.map_eq_some_iff.mp ht
        rw [Sys.step, Sys.forward] at hsys
        split at hsys
        · split at hsys
          · split_ifs at hsys with hroom
            exact .inr ⟨_, _, _, ‹_›, ‹_›, hroom⟩
          · cases hsys
        · cases hsys
    | loop w a => cases a <;> cases ha
    | _ => cases ha

/-- A handler with an enabled step has its answer, or is a feeder with room in `nq` or a closed
cancel channel. -/
lemma CanStep.of_handler {g : ℕ} (h : s.CanStep wl p (.handler g)) :
    (∃ c spec r, s.sys.handlers.lookup g = some (.replied c spec r)) ∨
    (∃ c t rest, s.sys.handlers.lookup g = some (.feeding c (t :: rest)) ∧
      (s.sys.queues.nq.length < p.nqCap ∨ ∃ k, c = some k ∧ k ∈ s.sys.agg.closed)) := by
  obtain ⟨a, ha, hstep⟩ := h
  obtain ⟨t, ht⟩ := Option.isSome_iff_exists.mp hstep
  match a with
  | .take _ _ | .reply => cases ha
  | .other a =>
    cases a with
    | takeReply k =>
        obtain rfl : k = g := by simpa [SchedAction.actor] using ha
        rw [step] at ht
        split_ifs at ht
        obtain ⟨sys, hsys, -⟩ := Option.map_eq_some_iff.mp ht
        rw [Sys.takeReply] at hsys
        split at hsys
        · exact .inl ⟨_, _, _, ‹_›⟩
        · cases hsys
    | feed k =>
        obtain rfl : k = g := by simpa [SchedAction.actor] using ha
        obtain ⟨sys, hsys, -⟩ := Option.map_eq_some_iff.mp ht
        rw [Sys.step, Sys.feed] at hsys
        split at hsys
        · split_ifs at hsys with hroom
          exact .inr ⟨_, _, _, ‹_›, .inl hroom⟩
        · cases hsys
    | feedCancel k =>
        obtain rfl : k = g := by simpa [SchedAction.actor] using ha
        obtain ⟨sys, hsys, -⟩ := Option.map_eq_some_iff.mp ht
        rw [Sys.step, Sys.feedCancel] at hsys
        split at hsys
        · split_ifs at hsys with hc
          exact .inr ⟨_, _, _, ‹_›, .inr ⟨_, rfl, hc⟩⟩
        · cases hsys
    | loop w a => cases a <;> cases ha
    | _ => cases ha

/-- An aggregator with an enabled step is at an answer that goes through, or somebody is at the
other end of one of its channels. -/
lemma CanStep.of_aggregator (h : s.CanStep wl p .aggregator) :
    (∃ g now, s.phase = .replying g now ∧ g ∉ s.full) ∨
    (s.phase = .selecting ∧ ((∃ c, s.sys.disp = .notifying c) ∨
      (∃ w l r, s.sys.loops.lookup w = some l ∧ l.phase = .holding r) ∨
      ∃ g c spec, s.sys.handlers.lookup g = some (.submitting c spec))) := by
  obtain ⟨a, ha, hstep⟩ := h
  obtain ⟨t, ht⟩ := Option.isSome_iff_exists.mp hstep
  match a with
  | .take g now =>
    rw [step, take] at ht
    split at ht
    · exact .inr ⟨‹_›, .inr (.inr ⟨_, _, _, ‹_›⟩)⟩
    · cases ht
  | .reply =>
    rw [step, reply] at ht
    split at ht
    · split_ifs at ht with hroom
      exact .inl ⟨_, _, ‹_›, hroom⟩
    · cases ht
  | .other a =>
    cases a with
    | gone now =>
        rw [step] at ht
        split_ifs at ht with hph
        obtain ⟨sys, hsys, -⟩ := Option.map_eq_some_iff.mp ht
        rw [Sys.step, Sys.gone] at hsys
        split at hsys
        · exact .inr ⟨hph, .inl ⟨_, ‹_›⟩⟩
        · cases hsys
    | deliver w now =>
        rw [step] at ht
        split_ifs at ht with hph
        obtain ⟨sys, hsys, -⟩ := Option.map_eq_some_iff.mp ht
        rw [Sys.step, Sys.deliver] at hsys
        split at hsys
        · split at hsys
          · exact .inr ⟨hph, .inr (.inl ⟨_, _, _, ‹_›, ‹_›⟩)⟩
          · cases hsys
        · cases hsys
    | submit => cases ht
    | loop w a => cases a <;> cases ha
    | _ => cases ha

/-- A loop with an enabled step has one of its own, and not a tick. -/
lemma CanStep.of_loop {w : ℕ} (h : s.CanStep wl p (.loop w)) :
    ∃ l a, s.sys.loops.lookup w = some l ∧ (∀ now ord, a ≠ LoopAction.tick now ord) ∧
      (l.step p s.sys.queues a).isSome := by
  obtain ⟨a, ha, hstep⟩ := h
  match a with
  | .take _ _ | .reply => cases ha
  | .other a =>
    cases a with
    | loop w' a =>
        cases a with
        | tick => cases ha
        | _ =>
          obtain rfl : w' = w := by simpa [SchedAction.actor] using ha
          cases hl : s.sys.loops.lookup w' with
          | none => simp [step, lift, Sys.step, Sys.loopStep, hl] at hstep
          | some l =>
              refine ⟨l, _, rfl, ?_, by simpa [step, lift, Sys.step, Sys.loopStep, hl] using hstep⟩
              simp
    | _ => cases ha

end Sched

namespace Worker

variable {p : Params} {q : Queues} {l : Worker} {a : LoopAction}

lemma step_of_holding {r : ChunkResult} (hph : l.phase = .holding r) : l.step p q a = none := by
  cases a <;> simp [step, hph]

lemma step_of_idle {i j : Bool} (hph : l.phase = .select i j) (hr : l.resultCh = [])
    (hd : l.dead = false) (hpq : i = true → q.pq = []) (hnq : j = true → q.nq = [])
    (ha : ∀ now ord, a ≠ .tick now ord) : l.step p q a = none := by
  cases a with
  | pullPQ now =>
      cases i with
      | false => simp [step, hph]
      | true => simp [step, hph, hpq]
  | pullNQ now =>
      cases j with
      | false => simp [step, hph]
      | true => simp [step, hph, hnq]
  | tick now ord => exact absurd rfl (ha now ord)
  | _ => simp [step, hph, hr, hd]

lemma step_of_handBack {id : TaskID} {rest : List TaskID} {e : Entry}
    (hph : l.phase = .handBack (id :: rest)) (he : l.inflight.lookup id = some e)
    (hfull : p.pqCap ≤ q.pq.length) : l.step p q a = none := by
  cases a <;> simp [step, hph, handBack, he, hfull]
end Worker

/-- The loop has an enabled step whatever the queues hold, and without a tick. -/
def Worker.Free (p : Params) (l : Worker) : Prop :=
  ∀ q : Queues, ∃ a, (∀ now ord, a ≠ .tick now ord) ∧ (l.step p q a).isSome

/-- What a loop in the dispatcher's table can be held up by: the aggregator, when it has a
result, or the lack of one in its `select`, which the dispatcher can end. -/
lemma Worker.Serving.free_or {l : Worker} (hs : l.Serving) (p : Params) :
    l.Free p ∨ (∃ r, l.phase = .holding r) ∨ ∃ a b, l.phase = .select a b ∧ l.resultCh = [] := by
  cases hph : l.phase with
  | top => exact .inl fun q => ⟨.poll 0, by simp, by simp [Worker.step, hph]⟩
  | select a b =>
      cases hr : l.resultCh with
      | nil => exact .inr (.inr ⟨a, b, rfl, rfl⟩)
      | cons r rest =>
          exact .inl fun q => ⟨.recvResult 0, by simp, by simp [Worker.step, hph, hr]⟩
  | own t => exact .inl fun q => ⟨.putBack, by simp, by simp [Worker.step, hph]⟩
  | holding r => exact .inr (.inl ⟨r, rfl⟩)
  | speculating now threshold rest =>
      cases rest with
      | nil => exact .inl fun q => ⟨.speculate, by simp, by simp [Worker.step, hph]⟩
      | cons id rest =>
          exact .inl fun q => ⟨.speculate, by simp, by simp [Worker.step, hph]⟩
  | handBack rest => exact absurd hph (hs.handBack rest)
  | exited => exact absurd hph hs.exited

namespace Sched

variable {wl : Workload} {p : Params} {s : Sched}

lemma canStep_of_free {w : ℕ} {l : Worker} (hl : s.sys.loops.lookup w = some l)
    (hf : l.Free p) : s.CanStep wl p (.loop w) := by
  obtain ⟨a, ha, hstep⟩ := hf s.sys.queues
  refine ⟨.other (.loop w a), ?_, ?_⟩
  · cases a with
    | tick now ord => exact absurd rfl (ha now ord)
    | _ => rfl
  · simp [step, lift, Sys.step, Sys.loopStep, hl, hstep]

/-! ## Chains -/

/-- The relation lists real waits: a goroutine that waits has no enabled step. -/
lemma WaitsFor.not_canStep {x y : Goroutine} (h : s.WaitsFor p x y) : ¬ s.CanStep wl p x := by
  intro hcan
  have hidle : ∀ {w l i j}, s.Idle w l i j → ¬ s.CanStep wl p (.loop w) := by
    intro w l i j hi hw
    obtain ⟨l', a, hl', ha, hstep⟩ := hw.of_loop
    obtain rfl := Option.some_inj.mp (hi.loop.symm.trans hl')
    simp [Worker.step_of_idle hi.phase hi.resultCh hi.dead hi.pq hi.nq ha] at hstep
  have hstalled : ∀ {g}, s.Stalled p g → ¬ s.CanStep wl p (.handler g) := by
    rintro g ⟨⟨cancel, t, rest, hg, hopen⟩, hfull⟩ hw
    rcases hw.of_handler with ⟨c, spec, r, hg'⟩ | ⟨c, t', rest', hg', hroom | ⟨k, rfl, hk⟩⟩
    · rw [hg] at hg'
      cases hg'
    · exact absurd hroom (not_lt.mpr hfull)
    · rw [hg] at hg'
      cases hg'
      exact hopen k rfl hk
  cases h with
  | resultCh hd hl hfull =>
      rcases hcan.of_dispatcher with hr | ⟨w, r, l, hd', hl', hroom⟩
      · rw [hd] at hr
        cases hr
      · rw [hd] at hd'
        cases hd'
        obtain rfl := Option.some_inj.mp (hl.symm.trans hl')
        exact absurd hroom (not_lt.mpr hfull)
  | clientGone hd =>
      rcases hcan.of_dispatcher with hr | ⟨w, r, l, hd', -⟩
      · rw [hd] at hr
        cases hr
      · rw [hd] at hd'
        cases hd'
  | results hl hph =>
      obtain ⟨l', a, hl', -, hstep⟩ := hcan.of_loop
      obtain rfl := Option.some_inj.mp (hl.symm.trans hl')
      simp [Worker.step_of_holding hph] at hstep
  | select hi => exact hidle hi hcan
  | selectPQ hi => exact hidle hi hcan
  | selectNQ hi => exact hidle hi hcan
  | handBack hl hph he hfull =>
      obtain ⟨l', a, hl', -, hstep⟩ := hcan.of_loop
      obtain rfl := Option.some_inj.mp (hl.symm.trans hl')
      simp [Worker.step_of_handBack hph he hfull] at hstep
  | submit hg =>
      rcases hcan.of_handler with ⟨c, spec, r, hg'⟩ | ⟨c, t', rest', hg', -⟩ <;>
        rw [hg] at hg' <;> cases hg'
  | feed hs => exact hstalled hs hcan
  | cancel hs => exact hstalled hs hcan
  | reply hph hfull =>
      rcases hcan.of_aggregator with ⟨g, now, hph', hroom⟩ | ⟨hph', -⟩
      · rw [hph] at hph'
        cases hph'
        exact hroom hfull
      · rw [hph] at hph'
        cases hph'
  | idle hph hd hl hg =>
      rcases hcan.of_aggregator with
        ⟨g, now, hph', -⟩ | ⟨-, ⟨c, hc⟩ | ⟨w, l, r, hw, hr⟩ | ⟨g, c, spec, hgs⟩⟩
      · rw [hph] at hph'
        cases hph'
      · exact hd c hc
      · exact hl w l r hw hr
      · exact hg g c spec hgs

/-- The aggregator waits only for something to be sent to it. -/
lemma Ok.idle_of_waits (hs : s.Ok) {y : Goroutine} (h : s.WaitsFor p .aggregator y) :
    s.phase = .selecting ∧ (∀ c, s.sys.disp ≠ .notifying c) ∧
      ∀ w l r, s.sys.loops.lookup w = some l → l.phase ≠ .holding r := by
  cases h with
  | @reply g now hph hfull =>
      obtain ⟨h, spec, r, hr⟩ := hs.full g hfull
      obtain ⟨h', spec', hg⟩ := hs.replying g now hph
      rw [hr] at hg
      cases hg
  | idle hph hd hl => exact ⟨hph, hd, hl⟩

/-- A loop in the dispatcher's table with a full `resultCh` waits for the aggregator or not at
all. -/
lemma Ok.holding_of_waits (hs : s.Ok) {w : ℕ} {r : ChunkResult} {l : Worker}
    (hd : s.sys.disp = .forwarding w r) (hl : s.sys.loops.lookup w = some l)
    (hfull : 4 * p.window ≤ l.resultCh.length) {y : Goroutine}
    (h : s.WaitsFor p (.loop w) y) : y = .aggregator ∧ ∃ r, l.phase = .holding r := by
  have hpos := p.window_pos
  have hidle : ∀ {l' a b}, ¬ s.Idle w l' a b := fun hi => by
    obtain rfl := Option.some_inj.mp (hl.symm.trans hi.loop)
    rw [hi.resultCh, List.length_nil] at hfull
    omega
  cases h with
  | results hl' hph =>
      obtain rfl := Option.some_inj.mp (hl.symm.trans hl')
      exact ⟨rfl, _, hph⟩
  | select hi => exact absurd hi hidle
  | selectPQ hi => exact absurd hi hidle
  | selectNQ hi => exact absurd hi hidle
  | handBack hl' hph =>
      obtain ⟨c, hc⟩ := hs.served.forwarding w r hd
      obtain ⟨l', hl'', -, hserv⟩ := hs.served.workers c w hc
      obtain rfl := Option.some_inj.mp (hl'.symm.trans hl'')
      exact absurd hph (hserv.handBack _)

/-- A dispatcher at one of its sends goes on or waits. -/
lemma Ok.dispatcher_waits (hs : s.Ok) (hd : s.sys.disp ≠ .reading) :
    (∃ y, s.WaitsFor p .dispatcher y) ∨ s.CanStep wl p .dispatcher := by
  cases hdisp : s.sys.disp with
  | reading => exact absurd hdisp hd
  | notifying c => exact .inl ⟨_, .clientGone hdisp⟩
  | forwarding w r =>
      obtain ⟨c, hc⟩ := hs.served.forwarding w r hdisp
      obtain ⟨l, hl, -, -⟩ := hs.served.workers c w hc
      by_cases hroom : l.resultCh.length < 4 * p.window
      · refine .inr ⟨.other .forward, rfl, ?_⟩
        simp [step, lift, Sys.step, Sys.forward, hdisp, hl, hroom]
      · exact .inl ⟨_, .resultCh hdisp hl (not_lt.mp hroom)⟩

/-- A loop the dispatcher is held up by goes on or waits for the aggregator. -/
lemma Ok.loop_waits (hs : s.Ok) {w : ℕ} {r : ChunkResult} {l : Worker}
    (hd : s.sys.disp = .forwarding w r) (hl : s.sys.loops.lookup w = some l)
    (hfull : 4 * p.window ≤ l.resultCh.length) :
    (∃ y, s.WaitsFor p (.loop w) y) ∨ s.CanStep wl p (.loop w) := by
  obtain ⟨c, hc⟩ := hs.served.forwarding w r hd
  obtain ⟨l', hl', -, hserv⟩ := hs.served.workers c w hc
  obtain rfl := Option.some_inj.mp (hl.symm.trans hl')
  rcases hserv.free_or p with hfree | ⟨r', hph⟩ | ⟨a, b, -, hr⟩
  · exact .inr (canStep_of_free hl hfree)
  · exact .inl ⟨_, .results hl hph⟩
  · have hpos := p.window_pos
    rw [hr, List.length_nil] at hfull
    omega

/-- A chain that has come to the aggregator by its client-gone or its results channel ends
there. -/
lemma Ok.aggregator_last (hs : s.Ok)
    (hbusy : (∃ c, s.sys.disp = .notifying c) ∨
      ∃ w l r, s.sys.loops.lookup w = some l ∧ l.phase = .holding r)
    {xs : List Goroutine} (h : List.IsChain (s.WaitsFor p) (.aggregator :: xs)) :
    xs = [] ∧ s.CanStep wl p .aggregator := by
  constructor
  · cases xs with
    | nil => rfl
    | cons y xs =>
        obtain ⟨-, hdisp, hloops⟩ := hs.idle_of_waits (List.isChain_cons_cons.mp h).1
        rcases hbusy with ⟨c, hc⟩ | ⟨w, l, r, hl, hph⟩
        · exact absurd hc (hdisp c)
        · exact absurd hph (hloops w l r hl)
  · rcases hbusy with ⟨c, hc⟩ | ⟨w, l, r, hl, hph⟩
    · exact hs.canStep_of_notifying hc
    · exact hs.canStep_of_holding hl hph

/-- **The goroutines cannot deadlock.**  In every reachable state: a chain of waiting goroutines
that starts at the dispatcher, at one of its sends, visits nobody twice, has at most three
members and can be continued until it is at one with an enabled step; the loop of a worker in
the dispatcher's table has an enabled step whatever the queues hold, or is at the aggregator's
channel, or in its `select` with no result there; and the aggregator's answer to a request goes
through at once, so it only waits to be sent something.  Who waits has no enabled step. -/
theorem no_deadlock {wl : Workload} {p : Params} {now : Time} {ords : RecoverOrders}
    {file : Option (List Record × (ℕ → Bool))} {boot : Recovered}
    (hboot : recover wl now ords file = some boot) {as : List SchedAction} {s : Sched}
    (hrun : run (Sched.step wl p) (Sched.start boot) as = some s) :
    (s.sys.disp ≠ .reading → ∀ xs, List.IsChain (s.WaitsFor p) (.dispatcher :: xs) →
      (Goroutine.dispatcher :: xs).Nodup ∧ xs.length ≤ 2 ∧
        ((∃ y, s.WaitsFor p ((Goroutine.dispatcher :: xs).getLast (by simp)) y) ∨
          s.CanStep wl p ((Goroutine.dispatcher :: xs).getLast (by simp)))) ∧
    (∀ c w, s.sys.workers.lookup c = some w → ∃ l, s.sys.loops.lookup w = some l ∧
      (l.Free p ∨ (∃ r, l.phase = .holding r) ∨
        ∃ a b, l.phase = .select a b ∧ l.resultCh = [])) ∧
    (∀ g now, s.phase = .replying g now → (s.step wl p .reply).isSome) ∧
    (∀ y, s.WaitsFor p .aggregator y → s.phase = .selecting) ∧
    ∀ x y, s.WaitsFor p x y → ¬ s.CanStep wl p x := by
  have hs := run_ok (recover_boots hboot) hrun
  refine ⟨fun hd xs hxs => ?_, fun c w hw => ?_, fun g now => hs.reply_isSome wl p,
    fun y hy => (hs.idle_of_waits hy).1, fun x y hxy => hxy.not_canStep⟩
  · -- the dispatcher waits for the aggregator, or for a loop that waits for the aggregator
    cases xs with
    | nil => exact ⟨by simp, by simp, hs.dispatcher_waits hd⟩
    | cons y xs =>
        obtain ⟨hy, hxs⟩ := List.isChain_cons_cons.mp hxs
        cases hy with
        | clientGone hc =>
            obtain ⟨rfl, hcan⟩ := hs.aggregator_last (.inl ⟨_, hc⟩) hxs
            exact ⟨by simp, by simp, .inr hcan⟩
        | resultCh hd' hl hfull =>
            cases xs with
            | nil => exact ⟨by simp, by simp, hs.loop_waits hd' hl hfull⟩
            | cons z xs =>
                obtain ⟨hz, hxs⟩ := List.isChain_cons_cons.mp hxs
                obtain ⟨rfl, r, hph⟩ := hs.holding_of_waits hd' hl hfull hz
                obtain ⟨rfl, hcan⟩ := hs.aggregator_last (.inr ⟨_, _, r, hl, hph⟩) hxs
                exact ⟨by simp, by simp, .inr hcan⟩
  · obtain ⟨l, hl, -, hserv⟩ := hs.served.workers c w hw
    exact ⟨l, hl, hserv.free_or p⟩

/-- A worker answers its only task and then goes on answering it: the loop holds the first
result, twenty more fill its channel and the dispatcher is at the send of the next. -/
def floodRun : List SchedAction :=
  ([.other (.readRequest 1 ⟨7, 0, 15000, []⟩), .take 0 0, .reply, .other (.takeReply 0),
    .other (.readJoin 2), .other (.feed 0), .other (.loop 1 (.poll 1)),
    .other (.loop 1 (.pullNQ 1)), .other (.loop 1 (.poll 2)),
    .other (.readResult 2 ⟨⟨7, 0⟩, 0, 0⟩), .other .forward,
    .other (.loop 1 (.recvResult 2))] : List SchedAction) ++
  (List.replicate 20 ([.other (.readResult 2 ⟨⟨7, 0⟩, 0, 0⟩), .other .forward] :
    List SchedAction)).flatten ++
  ([.other (.readResult 2 ⟨⟨7, 0⟩, 0, 0⟩)] : List SchedAction)

theorem no_deadlock_floodRun :
    ∃ s, run (Sched.step Workload.largest Params.default) (Sched.start ⟨Agg.empty, []⟩) floodRun =
        some s ∧
      List.IsChain (s.WaitsFor Params.default) [.dispatcher, .loop 1, .aggregator] ∧
      s.CanStep Workload.largest Params.default .aggregator := by
  have hval : (run (Sched.step Workload.largest Params.default) (Sched.start ⟨Agg.empty, []⟩)
      floodRun).map (fun s => (s.sys.disp,
        (s.sys.loops.lookup 1).map fun l => (l.phase, l.resultCh.length))) =
      some (.forwarding 1 ⟨⟨7, 0⟩, 0, 0⟩, some (.holding ⟨⟨7, 0⟩, 0, 0⟩, 20)) := by
    decide +kernel
  obtain ⟨s, hrun, hs⟩ := Option.map_eq_some_iff.mp hval
  obtain ⟨hd, hloop⟩ := Prod.mk.inj hs
  obtain ⟨l, hl, hl'⟩ := Option.map_eq_some_iff.mp hloop
  obtain ⟨hph, hfull⟩ := Prod.mk.inj hl'
  have hboot : recover Workload.largest 0 ⟨idOrder, idOrder, idOrder⟩ none =
    some ⟨Agg.empty, []⟩ := rfl
  have hloopWaits : s.WaitsFor Params.default (.loop 1) .aggregator := .results hl hph
  have hdispWaits : s.WaitsFor Params.default .dispatcher (.loop 1) := .resultCh hd hl hfull.ge
  have hne : s.sys.disp ≠ .reading := by simp [hd]
  have hchain : List.IsChain (s.WaitsFor Params.default) [.dispatcher, .loop 1, .aggregator] :=
    .cons_cons hdispWaits (.cons_cons hloopWaits (.singleton _))
  refine ⟨s, hrun, hchain, ?_⟩
  rcases ((no_deadlock hboot hrun).1 hne _ hchain).2.2 with ⟨y, hy⟩ | hcan
  · -- a longer chain would be too long
    have hlong := ((no_deadlock hboot hrun).1 hne [.loop 1, .aggregator, y]
      (.cons_cons hdispWaits (.cons_cons hloopWaits (.cons_cons hy (.singleton _))))).2.1
    simp at hlong
  · exact hcan

end Sched

end RudpScheduler
