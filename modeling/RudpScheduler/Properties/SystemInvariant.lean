import RudpScheduler.Framework.Runs
import RudpScheduler.Construction.SystemSteps
import RudpScheduler.Properties.Boot

/-!
# Invariants of the system

`Worker.Ok` says what a worker loop's map holds: entries under their own task's ID, and during
the hand-back no entry the loop will not come to.  `Sys.Ok` adds the aggregator's representation
invariant and that goroutine numbers are not reused.  `Sys.run_ok` is the statement for every
state a scheduler reaches, with or without a log.  `Sys.Served` is about the dispatcher's table:
a worker in it has a loop of its own, which has not been told to leave.
-/

namespace RudpScheduler

/-- What is true of a worker loop at every step. -/
structure Worker.Ok (w : Worker) : Prop where
  /-- An entry is stored under its own task's ID. -/
  entry_id : ∀ x e, w.inflight.lookup x = some e → e.task.id = x
  /-- What is still in flight during the hand-back is still to be handed back. -/
  handBack : ∀ rest, w.phase = .handBack rest → ∀ x e, w.inflight.lookup x = some e → x ∈ rest
  /-- A loop that has exited has nothing in flight. -/
  exited : w.phase = .exited → ∀ x, w.inflight.lookup x = none

namespace Worker

variable {p : Params} {q q' : Queues} {w w' : Worker} {chunks : List Chunk}

lemma ok_new (h : ConnID) : (newWorker h).Ok where
  entry_id := by simp [newWorker]
  handBack := by simp [newWorker]
  exited := by simp [newWorker]

/-- In a phase before the hand-back only the entries' IDs matter. -/
lemma ok_of_entry_id (h1 : ∀ rest, w.phase ≠ .handBack rest) (h2 : w.phase ≠ .exited)
    (h : ∀ x e, w.inflight.lookup x = some e → e.task.id = x) : w.Ok :=
  ⟨h, fun rest hr => absurd hr (h1 rest), fun he => absurd he h2⟩

/-- A step of a worker loop keeps its invariant. -/
lemma Ok.move (hw : w.Ok) (hm : w.Move p q q' w' chunks) : w'.Ok := by
  cases hm with
  | send => exact ok_of_entry_id (by simp) (by simp) (GoMap.forall_insert hw.entry_id rfl)
  | wait => exact ok_of_entry_id (by simp) (by simp) hw.entry_id
  | own => exact ok_of_entry_id (by simp) (by simp) hw.entry_id
  | putBack => exact ok_of_entry_id (by simp) (by simp) hw.entry_id
  | duplicate => exact ok_of_entry_id (by simp) (by simp) hw.entry_id
  | result => exact ok_of_entry_id (by simp) (by simp) (GoMap.forall_erase hw.entry_id _)
  | tick => exact ok_of_entry_id (by simp) (by simp) hw.entry_id
  | scan => exact ok_of_entry_id (by simp) (by simp) hw.entry_id
  | clone hph he =>
      have hid := hw.entry_id _ _ he
      exact ok_of_entry_id (by simp) (by simp) (GoMap.forall_insert hw.entry_id hid)
  | skip => exact ok_of_entry_id (by simp) (by simp) hw.entry_id
  | scanned => exact ok_of_entry_id (by simp) (by simp) hw.entry_id
  | lost ord =>
      refine ⟨hw.entry_id, ?_, by simp⟩
      rintro rest ⟨rfl⟩ x e he
      exact (ord.mem_range_iff_lookup _ _).mpr ⟨e, he⟩
  | requeue hph he =>
      refine ⟨GoMap.forall_erase hw.entry_id _, ?_, by simp⟩
      rintro rest' ⟨rfl⟩ x e' hx
      obtain ⟨hne, hx⟩ := GoMap.of_lookup_erase hx
      exact (List.mem_cons.mp (hw.handBack _ hph x e' hx)).resolve_left hne
  | pass hph he =>
      refine ⟨hw.entry_id, ?_, by simp⟩
      rintro rest' ⟨rfl⟩ x e hx
      refine (List.mem_cons.mp (hw.handBack _ hph x e hx)).resolve_left ?_
      rintro rfl
      rw [he] at hx
      cases hx
  | exit hph =>
      refine ⟨hw.entry_id, by simp, fun _ x => ?_⟩
      exact Option.eq_none_iff_forall_ne_some.mpr fun e he => by
        cases hw.handBack _ hph x e he

/-- The dispatcher's sends to a loop do not touch its entries. -/
lemma Ok.congr (hw : w.Ok) (h1 : w'.inflight = w.inflight) (h2 : w'.phase = w.phase) : w'.Ok where
  entry_id := h1 ▸ hw.entry_id
  handBack := h1 ▸ h2 ▸ hw.handBack
  exited := h1 ▸ h2 ▸ hw.exited

end Worker

/-! ## A property of every task

A worker loop makes no tasks: what it sends, clones and hands back it has pulled from a queue. -/

/-- Every queued task has property `P`. -/
def Queues.All (P : Task → Prop) (q : Queues) : Prop := (∀ t ∈ q.nq, P t) ∧ ∀ t ∈ q.pq, P t

/-- Every task the loop has in flight or in its hand has property `P`. -/
structure Worker.All (P : Task → Prop) (w : Worker) : Prop where
  entry : ∀ x e, w.inflight.lookup x = some e → P e.task
  hand : ∀ t, w.phase = .own t → P t

namespace Queues

variable {P : Task → Prop} {q q' : Queues} {t : Task}

lemma All.pushPQ (h : q.All P) (ht : P t) : (q.pushPQ t).All P :=
  ⟨h.1, fun t' ht' => (List.mem_append.mp ht').elim (h.2 t') fun hm => by
    rwa [List.mem_singleton.mp hm]⟩

lemma All.pushNQ (h : q.All P) (ht : P t) : ({ q with nq := q.nq ++ [t] } : Queues).All P :=
  ⟨fun t' ht' => (List.mem_append.mp ht').elim (h.1 t') fun hm => by
    rwa [List.mem_singleton.mp hm], h.2⟩

lemma All.pull (h : q.All P) (hq : q.Pull t q') : P t ∧ q'.All P := by
  cases hq with
  | pq => exact ⟨h.2 t List.mem_cons_self, h.1, fun t' ht' => h.2 t' (List.mem_cons_of_mem _ ht')⟩
  | nq => exact ⟨h.1 t List.mem_cons_self, fun t' ht' => h.1 t' (List.mem_cons_of_mem _ ht'), h.2⟩

end Queues

namespace Worker

variable {P : Task → Prop} {p : Params} {q q' : Queues} {w w' : Worker} {chunks : List Chunk}

lemma all_new (h : ConnID) : (newWorker h).All P where
  entry := by simp [newWorker]
  hand := by simp [newWorker]

/-- A step that leaves the entries alone and ends with an empty hand. -/
lemma All.idle (h : w.All P) (hin : w'.inflight = w.inflight) (hph : ∀ t, w'.phase ≠ .own t) :
    w'.All P where
  entry := hin ▸ h.entry
  hand t ht := absurd ht (hph t)

/-- A step of a worker loop keeps the property, and writes only tasks that have it. -/
lemma All.move (hw : w.All P) (hq : q.All P) (hm : w.Move p q q' w' chunks) :
    q'.All P ∧ w'.All P ∧ ∀ ch ∈ chunks, ∃ t, P t ∧ ch = t.chunk := by
  cases hm with
  | send hpull =>
      obtain ⟨ht, hq'⟩ := hq.pull hpull
      refine ⟨hq', ⟨GoMap.forall_insert hw.entry ht, by simp⟩, fun ch hch => ?_⟩
      exact ⟨_, ht, List.mem_singleton.mp hch⟩
  | own hpull =>
      obtain ⟨ht, hq'⟩ := hq.pull hpull
      refine ⟨hq', ⟨hw.entry, ?_⟩, by simp⟩
      rintro t' ⟨rfl⟩
      exact ht
  | putBack hph hq' =>
      refine ⟨?_, hw.idle rfl (by simp), by simp⟩
      rcases hq' with rfl | rfl
      · exact hq
      · exact hq.pushPQ (hw.hand _ hph)
  | result => exact ⟨hq, ⟨GoMap.forall_erase hw.entry _, by simp⟩, by simp⟩
  | clone hph he =>
      have ht := hw.entry _ _ he
      exact ⟨hq.pushPQ ht, ⟨GoMap.forall_insert hw.entry ht, by simp⟩, by simp⟩
  | requeue hph he =>
      exact ⟨hq.pushPQ (hw.entry _ _ he), ⟨GoMap.forall_erase hw.entry _, by simp⟩, by simp⟩
  | _ => exact ⟨hq, hw.idle rfl (by simp), by simp⟩

end Worker

/-! ## The system -/

/-- What is true of the system at every step. -/
structure Sys.Ok (s : Sys) : Prop where
  agg : s.agg.Ok
  settled : s.agg.Settled
  handlers_lt : ∀ g h, s.handlers.lookup g = some h → g < s.nextGo
  loops_lt : ∀ w l, s.loops.lookup w = some l → w < s.nextGo
  loops : ∀ w l, s.loops.lookup w = some l → l.Ok
  wrote_lt : ∀ m ∈ s.wrote, m.1 < s.nextGo

namespace Sys

variable {wl : Workload} {p : Params} {s t : Sys}

/-- The step rule for a property of the aggregator alone. -/
lemma Move.agg_cases {a : Action} (h : Move wl p s a t) :
    t.agg = s.agg ∨ ∃ e, t.agg = s.agg.step wl p e := by
  cases h with
  | @gone c now => exact .inr ⟨.clientGone c now, rfl⟩
  | @submit g h spec now => exact .inr ⟨.submit h spec (h ∈ s.down) now, rfl⟩
  | @deliver w l r now => exact .inr ⟨.result r now, rfl⟩
  | @tick now ords => exact .inr ⟨.tick now ords, rfl⟩
  | _ => exact .inl rfl

lemma Move.agg_ok {a : Action} (h : Move wl p s a t) (hok : s.agg.Ok) (hs : s.agg.Settled) :
    t.agg.Ok ∧ t.agg.Settled := by
  rcases h.agg_cases with he | ⟨e, he⟩
  · rw [he]; exact ⟨hok, hs⟩
  · rw [he]; exact ⟨Agg.step_ok wl p hok e, Agg.step_settled wl p hok hs e⟩

/-- A number no goroutine has yet. -/
lemma Ok.handlers_next (hs : s.Ok) : s.handlers.lookup s.nextGo = none :=
  Option.eq_none_iff_forall_ne_some.mpr fun h hh => lt_irrefl _ (hs.handlers_lt _ h hh)

lemma Ok.loops_next (hs : s.Ok) : s.loops.lookup s.nextGo = none :=
  Option.eq_none_iff_forall_ne_some.mpr fun l hl => lt_irrefl _ (hs.loops_lt _ l hl)

/-- `close(w.dead)` changes one loop's flag. -/
lemma lookup_closeDead {loops : GoMap ℕ Worker} {w k : ℕ} {l : Worker}
    (h : (closeDead loops w).lookup k = some l) :
    ∃ l', loops.lookup k = some l' ∧ (l = l' ∨ l = { l' with dead := true }) := by
  unfold closeDead at h
  split at h
  · rename_i l' hl'
    obtain ⟨rfl, hl⟩ | ⟨-, h⟩ := GoMap.of_lookup_insert h
    · exact ⟨l', hl', .inr hl⟩
    · exact ⟨l, h, .inl rfl⟩
  · exact ⟨l, h, .inl rfl⟩

/-- A step keeps the invariant. -/
lemma Move.ok {a : Action} (h : Move wl p s a t) (hs : s.Ok) : t.Ok := by
  obtain ⟨hagg, hset⟩ := h.agg_ok hs.agg hs.settled
  have hlt : ∀ g, g < s.nextGo → g < s.nextGo + 1 := fun g => Nat.lt_succ_of_lt
  cases h with
  | ignored => exact hs
  | connDown => exact { hs with }
  | lostWorker =>
      refine { hs with loops_lt := fun k l hl => ?_, loops := fun k l hl => ?_ }
      · obtain ⟨l', hl', -⟩ := lookup_closeDead hl
        exact hs.loops_lt k l' hl'
      · obtain ⟨l', hl', rfl | rfl⟩ := lookup_closeDead hl
        · exact hs.loops k l hl'
        · exact (hs.loops k l' hl').congr rfl rfl
  | lostClient => exact { hs with }
  | join =>
      refine { hs with
        handlers_lt := ?_, loops_lt := ?_, loops := ?_
        wrote_lt := fun m hm => hlt _ (hs.wrote_lt m hm) }
      · exact fun g h hg => hlt g (hs.handlers_lt g h hg)
      · exact GoMap.forall_insert (fun w l hl => hlt w (hs.loops_lt w l hl)) (Nat.lt_succ_self _)
      · exact GoMap.forall_insert hs.loops (Worker.ok_new _)
  | request =>
      refine { hs with
        handlers_lt := ?_, loops_lt := ?_, wrote_lt := fun m hm => hlt _ (hs.wrote_lt m hm) }
      · exact GoMap.forall_insert (fun g h hg => hlt g (hs.handlers_lt g h hg))
          (Nat.lt_succ_self _)
      · exact fun w l hl => hlt w (hs.loops_lt w l hl)
  | result => exact { hs with }
  | forward hd hl =>
      exact { hs with
        loops_lt := GoMap.forall_insert hs.loops_lt (hs.loops_lt _ _ hl)
        loops := GoMap.forall_insert hs.loops ((hs.loops _ _ hl).congr rfl rfl) }
  | gone => exact { hs with agg := hagg, settled := hset }
  | submit hg =>
      exact { hs with
        agg := hagg, settled := hset
        handlers_lt := GoMap.forall_insert hs.handlers_lt (hs.handlers_lt _ _ hg) }
  | begin hg =>
      exact { hs with
        handlers_lt := GoMap.forall_insert hs.handlers_lt (hs.handlers_lt _ _ hg) }
  | leave => exact { hs with handlers_lt := GoMap.forall_erase hs.handlers_lt _ }
  | feed hg =>
      exact { hs with
        handlers_lt := GoMap.forall_insert hs.handlers_lt (hs.handlers_lt _ _ hg) }
  | feedCancel => exact { hs with handlers_lt := GoMap.forall_erase hs.handlers_lt _ }
  | loop hl hm =>
      refine { hs with
        loops_lt := GoMap.forall_insert hs.loops_lt (hs.loops_lt _ _ hl)
        loops := GoMap.forall_insert hs.loops ((hs.loops _ _ hl).move hm)
        wrote_lt := fun m hmem => ?_ }
      rcases List.mem_append.mp hmem with hmem | hmem
      · exact hs.wrote_lt m hmem
      · obtain ⟨ch, -, rfl⟩ := List.mem_map.mp hmem
        exact hs.loops_lt _ _ hl
  | deliver hl hph =>
      exact { hs with
        agg := hagg, settled := hset
        loops_lt := GoMap.forall_insert hs.loops_lt (hs.loops_lt _ _ hl)
        loops := GoMap.forall_insert hs.loops
          (Worker.ok_of_entry_id (by simp) (by simp) (hs.loops _ _ hl).entry_id) }
  | tick => exact { hs with agg := hagg, settled := hset }

/-! ## Where a running job comes from -/

/-- A running job was running before the step, as the same instance, or the step is the submit
that started it; then its handler has the reply that asks for a feeder. -/
lemma Move.jobs {a : Action} (h : Move wl p s a t) {id : UInt64} {j' : Job}
    (hj' : t.agg.jobs.lookup id = some j') :
    (∃ j, s.agg.jobs.lookup id = some j ∧ j'.spec = j.spec ∧ j'.cancel = j.cancel ∧
        ∀ i, (⟨id, i⟩ : TaskID) ∈ s.agg.done → (⟨id, i⟩ : TaskID) ∈ t.agg.done) ∨
      ∃ g c now, a = .submit g now ∧ s.handlers.lookup g = some (.submitting c j'.spec) ∧
        s.agg.Starts j'.spec ∧ id = j'.spec.id ∧
        t.handlers.lookup g = some (.replied c j'.spec ⟨true, some j'.cancel⟩) := by
  have hsame : t.agg = s.agg → ∃ j, s.agg.jobs.lookup id = some j ∧ j'.spec = j.spec ∧
      j'.cancel = j.cancel ∧
      ∀ i, (⟨id, i⟩ : TaskID) ∈ s.agg.done → (⟨id, i⟩ : TaskID) ∈ t.agg.done := by
    intro he
    rw [he] at hj' ⊢
    exact ⟨j', hj', rfl, rfl, fun _ hi => hi⟩
  cases h with
  | gone => exact .inl (Agg.step_keeps (by simp) _ id j' hj')
  | @submit g c spec now hg =>
      rcases Agg.step_jobs hj' with hold | ⟨c', hDone, now', he, hst, hid, hc⟩
      · exact .inl hold
      · obtain ⟨rfl, rfl, rfl, rfl⟩ := Event.submit.inj he
        refine .inr ⟨g, c, now, rfl, hg, hst, hid, ?_⟩
        rw [GoMap.lookup_insert_ite, if_pos rfl, Agg.submit_reply_starts hst, hc]
  | deliver => exact .inl (Agg.step_keeps (by simp) _ id j' hj')
  | tick => exact .inl (Agg.step_keeps (by simp) _ id j' hj')
  | _ => exact .inl (hsame rfl)

/-! ## The start -/

/-- A property of the start: it holds before `Run` starts the feeders, and starting one keeps
it. -/
lemma start_induction {P : Sys → Prop} {boot : Recovered} (h0 : P (initial boot.agg))
    (hspawn : ∀ s f, f ∈ boot.feeds → P s →
      P (s.spawn (.feeding (some f.cancel) (f.spec.feed f.skip)))) : P (start boot) :=
  boot.feeds.foldlRecOn (motive := P) _ h0 fun s hs f hf => hspawn s f hf hs

lemma start_ok {boot : Recovered} (hb : boot.Boots) : (start boot).Ok := by
  have h0 : (initial boot.agg).Ok := by
    refine ⟨hb.ok, hb.settled, ?_, ?_, ?_, ?_⟩ <;> simp [initial]
  refine start_induction h0 fun s f _ hs => ?_
  refine { hs with
    handlers_lt := ?_, loops_lt := fun w l hl => ?_, wrote_lt := fun m hm => ?_ }
  · exact GoMap.forall_insert (fun g h hg => Nat.lt_succ_of_lt (hs.handlers_lt g h hg))
      (Nat.lt_succ_self _)
  · exact Nat.lt_succ_of_lt (hs.loops_lt w l hl)
  · exact Nat.lt_succ_of_lt (hs.wrote_lt m hm)

/-- **Every reachable state is well formed.** -/
theorem run_ok {boot : Recovered} (hb : boot.Boots) {as : List Action}
    (h : run (Sys.step wl p) (start boot) as = some s) : s.Ok :=
  run_invariant (fun _ _ _ hs hstep => (step_move hstep).ok hs) (start_ok hb) h

end Sys

/-! ## The dispatcher's table of workers -/

/-- The loop has not been told that its connection is lost, and so has not begun to leave. -/
structure Worker.Serving (w : Worker) : Prop where
  dead : w.dead = false
  handBack : ∀ rest, w.phase ≠ .handBack rest
  exited : w.phase ≠ .exited

namespace Worker

variable {p : Params} {q q' : Queues} {w w' : Worker} {chunks : List Chunk}

lemma Move.h_eq (hm : w.Move p q q' w' chunks) : w'.h = w.h := by
  cases hm <;> rfl

/-- Only the dispatcher makes a loop leave. -/
lemma Serving.move (hs : w.Serving) (hm : w.Move p q q' w' chunks) : w'.Serving := by
  cases hm with
  | lost ord hph hd => rw [hs.dead] at hd; cases hd
  | requeue hph => exact absurd hph (hs.handBack _)
  | pass hph => exact absurd hph (hs.handBack _)
  | exit hph => exact absurd hph (hs.handBack _)
  | _ => exact ⟨hs.dead, by simp, by simp⟩

end Worker

/-- Every worker in the dispatcher's table has a loop of its own that serves it, and a result is
forwarded only to a worker in the table. -/
structure Sys.Served (s : Sys) : Prop where
  workers : ∀ c w, s.workers.lookup c = some w →
    ∃ l, s.loops.lookup w = some l ∧ l.h = c ∧ l.Serving
  forwarding : ∀ w r, s.disp = .forwarding w r → ∃ c, s.workers.lookup c = some w

namespace Sys

variable {wl : Workload} {p : Params} {s t : Sys}

/-- What holds of a loop in the table holds after an update of one loop that keeps to it. -/
lemma Served.insert_loop (hs : s.Served) {w : ℕ} {l l' : Worker}
    (hl : s.loops.lookup w = some l) (hh : l'.h = l.h) (hserv : l.Serving → l'.Serving) :
    ∀ c k, s.workers.lookup c = some k →
      ∃ m, (s.loops.insert w l').lookup k = some m ∧ m.h = c ∧ m.Serving := by
  intro c k hk
  obtain ⟨m, hm, hc, hm'⟩ := hs.workers c k hk
  refine GoMap.exists_lookup_insert (P := fun m => m.h = c ∧ m.Serving) hm ⟨hc, hm'⟩ fun he => ?_
  subst he
  obtain rfl := Option.some_inj.mp (hl.symm.trans hm)
  exact ⟨hh.trans hc, hserv hm'⟩

/-- A step keeps the table in order. -/
lemma Move.served {a : Action} (h : Move wl p s a t) (hok : s.Ok) (hs : s.Served) :
    t.Served := by
  cases h with
  | @lostWorker c w hr hd hw =>
      refine ⟨fun c' w' hw' => ?_, fun w' r hf => ?_⟩
      · obtain ⟨hc, hw'⟩ := GoMap.of_lookup_erase hw'
        obtain ⟨l', hl', hh', hs'⟩ := hs.workers c' w' hw'
        obtain ⟨l, hl, hh, -⟩ := hs.workers c w hw
        -- two connections never share a loop
        have hne : w' ≠ w := by
          rintro rfl
          obtain rfl := Option.some_inj.mp (hl.symm.trans hl')
          exact hc (hh'.symm.trans hh)
        refine ⟨l', ?_, hh', hs'⟩
        rw [closeDead, hl]
        exact (GoMap.lookup_insert_ite _ _ _ _).trans ((if_neg hne).trans hl')
      · rw [hr] at hf
        cases hf
  | lostClient => exact ⟨hs.workers, by simp⟩
  | @join c hr hw hc =>
      refine ⟨fun c' w' hw' => ?_, fun w' r hf => by rw [hr] at hf; cases hf⟩
      rw [GoMap.lookup_insert_ite] at hw' ⊢
      split_ifs at hw' with he
      · obtain rfl := Option.some_inj.mp hw'
        exact ⟨newWorker c, if_pos rfl, he.symm, rfl, by simp [newWorker], by simp [newWorker]⟩
      · obtain ⟨l, hl, hh, hs'⟩ := hs.workers c' w' hw'
        exact ⟨l, (if_neg (hok.loops_lt w' l hl).ne).trans hl, hh, hs'⟩
  | @result c w r hr hw =>
      refine ⟨hs.workers, ?_⟩
      rintro w' r' ⟨rfl, rfl⟩
      exact ⟨c, hw⟩
  | forward hd hl =>
      exact ⟨hs.insert_loop hl rfl fun hl' => ⟨hl'.dead, hl'.handBack, hl'.exited⟩, by simp⟩
  | gone => exact ⟨hs.workers, by simp⟩
  | loop hl hm => exact ⟨hs.insert_loop hl hm.h_eq fun hl' => hl'.move hm, hs.forwarding⟩
  | deliver hl =>
      exact ⟨hs.insert_loop hl rfl fun hl' => ⟨hl'.dead, by simp, by simp⟩, hs.forwarding⟩
  | _ => exact ⟨hs.workers, hs.forwarding⟩

lemma start_served (boot : Recovered) : (start boot).Served :=
  start_induction ⟨by simp [initial], by simp [initial]⟩
    fun _ _ _ hs => ⟨hs.workers, hs.forwarding⟩

end Sys

end RudpScheduler
