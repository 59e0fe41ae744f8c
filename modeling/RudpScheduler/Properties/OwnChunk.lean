import RudpScheduler.Properties.SystemInvariant

/-!
# A counted result and the chunk it is counted for

The aggregator knows a task by its `TaskID` alone, while what an index stands for lives in the
job's spec.  `Sys.Own` says that everything still circulating under a job's ID (tasks with the
feeders, in the queues and in flight, chunks written to registered workers, results on their way)
is cut the way a spec cuts it.  Every step keeps that for a spec, except that a submit which
starts a new instance introduces a new one; `counts_own_chunk` is the resulting law.  A run meets
its condition when each such submit finds nothing of another cut still circulating.

The last section is a run that does not: a job recovered from a log that was written with a
smaller chunk size is dropped and asked for again while an old task is in flight, and the answer
for the old, narrower chunk is counted for the new one.
-/

namespace RudpScheduler

namespace JobSpec

/-- If the task is one of this job's, it is the one `feed` makes from the spec. -/
def OwnTask (spec : JobSpec) (t : Task) : Prop :=
  t.id.job = spec.id → t.id.idx < spec.n → t = spec.task t.id.idx

/-- If the chunk is one of this job's, it is cut as the spec says. -/
def OwnChunk (spec : JobSpec) (ch : Chunk) : Prop :=
  ch.id.job = spec.id → ch.id.idx < spec.n → ch = (spec.task ch.id.idx).chunk

/-- If the result is for one of this job's chunks, it is the answer for the range the spec
gives it. -/
def OwnResult (wl : Workload) (spec : JobSpec) (r : ChunkResult) : Prop :=
  r.id.job = spec.id → r.id.idx < spec.n → r.value = spec.chunkAnswer wl r.id.idx

variable {wl : Workload} {spec : JobSpec}

lemma OwnTask.chunk {t : Task} (h : spec.OwnTask t) : spec.OwnChunk t.chunk :=
  fun hid hi => congrArg Task.chunk (h hid hi)

lemma OwnChunk.answer {ch : Chunk} (h : spec.OwnChunk ch) :
    spec.OwnResult wl (wl.answer ch) := by
  intro hid hi
  have hch : ch = (spec.task ch.id.idx).chunk := h hid hi
  rw [hch]
  rfl

/-- What `feed` makes from a spec is that spec's own. -/
lemma ownTask_of_mem_feed {spec' : JobSpec} (h : spec'.id = spec.id → spec' = spec)
    {skip : Finset UInt32} {t : Task} (ht : t ∈ spec'.feed skip) : spec.OwnTask t := by
  obtain ⟨i, -, -, rfl⟩ := mem_feed.mp ht
  intro hid _
  rw [h hid]
  rfl

end JobSpec

/-! ## A worker loop -/

/-- The queued tasks of the job are the spec's own. -/
def Queues.Own (spec : JobSpec) (q : Queues) : Prop :=
  (∀ t ∈ q.nq, spec.OwnTask t) ∧ ∀ t ∈ q.pq, spec.OwnTask t

/-- What the loop has of the job is the spec's own. -/
structure Worker.Own (wl : Workload) (spec : JobSpec) (w : Worker) : Prop where
  entry : ∀ x e, w.inflight.lookup x = some e → spec.OwnTask e.task
  hand : ∀ t, w.phase = .own t → spec.OwnTask t
  result : ∀ r ∈ w.resultCh, spec.OwnResult wl r
  held : ∀ r, w.phase = .holding r → spec.OwnResult wl r

namespace Worker

variable {wl : Workload} {p : Params} {spec : JobSpec} {q q' : Queues} {w w' : Worker}
  {chunks : List Chunk}

lemma own_new (h : ConnID) : (newWorker h).Own wl spec where
  entry := by simp [newWorker]
  hand := by simp [newWorker]
  result := by simp [newWorker]
  held := by simp [newWorker]

/-- A change of phase to one that holds nothing. -/
lemma Own.idle (h : w.Own wl spec) (hin : w'.inflight = w.inflight)
    (hres : w'.resultCh = w.resultCh) (h1 : ∀ t, w'.phase ≠ .own t)
    (h2 : ∀ r, w'.phase ≠ .holding r) : w'.Own wl spec where
  entry := hin ▸ h.entry
  hand t ht := absurd ht (h1 t)
  result := hres ▸ h.result
  held r hr := absurd hr (h2 r)

/-- A step of a worker loop keeps everything the spec's own, and writes own chunks only. -/
lemma Own.move (hw : w.Own wl spec) (hq : q.Own spec) (hm : w.Move p q q' w' chunks) :
    q'.Own spec ∧ w'.Own wl spec ∧ ∀ ch ∈ chunks, spec.OwnChunk ch := by
  -- the tasks are own by the general rule; the results are left to look at
  have hall : w.All spec.OwnTask := ⟨hw.entry, hw.hand⟩
  obtain ⟨hq', hall', hchunks⟩ := hall.move hq hm
  have hres : (∀ r ∈ w'.resultCh, spec.OwnResult wl r) ∧
      ∀ r, w'.phase = .holding r → spec.OwnResult wl r := by
    cases hm with
    | duplicate hph hr =>
        refine ⟨fun r' hr' => hw.result r' ?_, by simp⟩
        rw [hr]
        exact List.mem_cons_of_mem _ hr'
    | result hph hr =>
        refine ⟨fun r' hr' => hw.result r' ?_, ?_⟩
        · rw [hr]
          exact List.mem_cons_of_mem _ hr'
        · rintro r' ⟨rfl⟩
          exact hw.result _ (hr ▸ List.mem_cons_self)
    | _ => exact ⟨hw.result, by simp⟩
  refine ⟨hq', ⟨hall'.entry, hall'.hand, hres.1, hres.2⟩, fun ch hch => ?_⟩
  obtain ⟨t, ht, rfl⟩ := hchunks ch hch
  exact ht.chunk

end Worker

/-! ## The system -/

/-- Everything still circulating under the job's ID is the spec's own. -/
structure Sys.Own (wl : Workload) (spec : JobSpec) (s : Sys) : Prop where
  handler : ∀ g h, s.handlers.lookup g = some h → ∀ t ∈ h.toQueue, spec.OwnTask t
  queues : s.queues.Own spec
  loop : ∀ w l, s.loops.lookup w = some l → l.Own wl spec
  /-- A chunk counts while its worker is registered: only then is an answer forwarded. -/
  wrote : ∀ c w, s.workers.lookup c = some w → ∀ ch, (w, ch) ∈ s.wrote → spec.OwnChunk ch
  disp : ∀ w r, s.disp = .forwarding w r → spec.OwnResult wl r

/-- Workers answer the chunks written to them, each with `Compute` of its own range. -/
def WorkersHonest (wl : Workload) (s : Sys) : Action → Prop
  | .readResult c r => ∀ w, s.workers.lookup c = some w → ∃ ch, (w, ch) ∈ s.wrote ∧ r = wl.answer ch
  | _ => True

/-- A submit that starts a new instance finds nothing of another cut circulating. -/
def CutAgrees (wl : Workload) (s : Sys) : Action → Prop
  | .submit g _ => ∀ c spec, s.handlers.lookup g = some (.submitting c spec) → s.agg.Starts spec →
      s.Own wl spec
  | _ => True

/-- Every result the aggregator is about to count is the answer for the range its index stands
for under the spec stored with the job. -/
def Sys.CountsOwn (wl : Workload) (s : Sys) : Prop :=
  ∀ w l r j, s.loops.lookup w = some l → l.phase = .holding r →
    s.agg.jobs.lookup r.id.job = some j → r.id.idx < j.spec.n → r.id ∉ s.agg.done →
    r.value = wl.compute j.spec.msg (j.spec.chunkLo r.id.idx) (j.spec.chunkHi r.id.idx)

namespace Sys

variable {wl : Workload} {p : Params} {spec : JobSpec} {s t : Sys}

/-- A step keeps everything the spec's own, unless it starts a feeder of another spec for the
same ID. -/
lemma Own.move {a : Action} (hs : s.Own wl spec) (hok : s.Ok) (hon : WorkersHonest wl s a)
    (hnew : ∀ g now c spec', a = .submit g now →
      s.handlers.lookup g = some (.submitting c spec') → s.agg.Starts spec' →
      spec'.id = spec.id → spec' = spec)
    (h : Move wl p s a t) : t.Own wl spec := by
  cases h with
  | ignored => exact hs
  | connDown => exact { hs with }
  | lostWorker =>
      refine { hs with loop := fun k l hl => ?_, wrote := ?_ }
      · obtain ⟨l', hl', rfl | rfl⟩ := lookup_closeDead hl
        · exact hs.loop k l hl'
        · have h' := hs.loop k l' hl'
          exact ⟨h'.entry, h'.hand, h'.result, h'.held⟩
      · exact GoMap.forall_erase hs.wrote _
  | lostClient => exact { hs with disp := by simp }
  | join =>
      refine { hs with
        loop := GoMap.forall_insert hs.loop (Worker.own_new _)
        wrote := GoMap.forall_insert hs.wrote fun ch hch => ?_ }
      -- the new loop has written nothing yet
      exact absurd (hok.wrote_lt _ hch) (lt_irrefl _)
  | request =>
      exact { hs with handler := GoMap.forall_insert hs.handler (by simp [Handler.toQueue]) }
  | result hr hw =>
      refine { hs with disp := ?_ }
      rintro _ _ ⟨rfl, rfl⟩
      obtain ⟨ch, hch, rfl⟩ := hon _ hw
      exact (hs.wrote _ _ hw ch hch).answer
  | forward hd hl =>
      have h' := hs.loop _ _ hl
      refine { hs with
        disp := by simp
        loop := GoMap.forall_insert hs.loop ⟨h'.entry, h'.hand, ?_, h'.held⟩ }
      intro r' hr'
      rcases List.mem_append.mp hr' with hr' | hr'
      · exact h'.result r' hr'
      · rw [List.mem_singleton.mp hr']
        exact hs.disp _ _ hd
  | gone => exact { hs with disp := by simp }
  | @submit g c spec' now hg =>
      refine { hs with handler := GoMap.forall_insert hs.handler fun u hu => ?_ }
      by_cases hst : s.agg.Starts spec'
      · rw [Handler.toQueue, Agg.submit_reply_starts hst] at hu
        exact JobSpec.ownTask_of_mem_feed (hnew g now c spec' rfl hg hst) hu
      · rw [Handler.toQueue, Agg.submit_reply_of_not_starts hst] at hu
        cases hu
  | begin hg hf =>
      refine { hs with
        handler := GoMap.forall_insert hs.handler fun u hu => hs.handler _ _ hg u ?_ }
      rw [Handler.toQueue, if_pos hf]
      exact hu
  | leave => exact { hs with handler := GoMap.forall_erase hs.handler _ }
  | feed hg =>
      have hrest := hs.handler _ _ hg
      exact { hs with
        queues := Queues.All.pushNQ hs.queues (hrest _ List.mem_cons_self)
        handler := GoMap.forall_insert hs.handler fun u hu => hrest u (List.mem_cons_of_mem _ hu) }
  | feedCancel => exact { hs with handler := GoMap.forall_erase hs.handler _ }
  | loop hl hm =>
      obtain ⟨hq, hl', hch⟩ := (hs.loop _ _ hl).move hs.queues hm
      refine { hs with
        queues := hq, loop := GoMap.forall_insert hs.loop hl', wrote := fun c w hw ch hmem => ?_ }
      rcases List.mem_append.mp hmem with hmem | hmem
      · exact hs.wrote c w hw ch hmem
      · obtain ⟨ch', hch', heq⟩ := List.mem_map.mp hmem
        rw [← (Prod.mk.inj heq).2]
        exact hch ch' hch'
  | deliver hl =>
      refine { hs with loop := GoMap.forall_insert hs.loop ?_ }
      exact (hs.loop _ _ hl).idle rfl rfl (by simp) (by simp)
  | tick => exact { hs with }

/-- What circulates for a running job is its own. -/
def AllOwn (wl : Workload) (s : Sys) : Prop :=
  ∀ id j, s.agg.jobs.lookup id = some j → s.Own wl j.spec

lemma AllOwn.move {a : Action} (hs : s.AllOwn wl) (hok : s.Ok) (hon : WorkersHonest wl s a)
    (hcut : CutAgrees wl s a) (h : Move wl p s a t) : t.AllOwn wl := by
  intro id j' hj'
  rcases h.jobs hj' with ⟨j, hj, hspec, -, -⟩ | ⟨g, c, now, ha, hg, hst, hid, -⟩
  · rw [hspec]
    refine (hs id j hj).move hok hon (fun g now c spec' _ _ hst hid => ?_) h
    -- a job of this ID is running, so nothing starts under it
    rw [Agg.Starts, hid, hok.agg.spec_id id j hj, hj] at hst
    cases hst.2
  · subst ha
    refine (hcut c _ hg hst).move hok hon (fun g' now' c' spec' he hg' _ _ => ?_) h
    obtain ⟨rfl, -⟩ := Action.submit.inj he
    rw [hg] at hg'
    exact (Handler.submitting.inj (Option.some_inj.mp hg')).2.symm

/-- Right after the start, only the feeders of the recovered jobs have anything. -/
lemma start_allOwn {boot : Recovered} (hb : boot.Boots) : (start boot).AllOwn wl := by
  have hall : ∀ id j, boot.agg.jobs.lookup id = some j → (start boot).Own wl j.spec := by
    intro id j hj
    refine start_induction (P := Sys.Own wl j.spec) ?_ fun s f hf hs => ?_
    · refine ⟨?_, ⟨?_, ?_⟩, ?_, ?_, ?_⟩ <;> simp [initial]
    · refine { hs with handler := GoMap.forall_insert hs.handler fun u hu => ?_ }
      refine JobSpec.ownTask_of_mem_feed (fun he => ?_) hu
      obtain ⟨j', hj', hspec, -⟩ := hb.feeds f hf
      rw [he, hb.ok.spec_id id j hj, hj] at hj'
      rw [hspec, Option.some_inj.mp hj']
  have hagg : (start boot).agg = boot.agg :=
    start_induction (P := fun s => s.agg = boot.agg) rfl fun _ _ _ hs => hs
  intro id j hj
  exact hall id j (hagg ▸ hj)

end Sys

/-- **A counted result belongs to its chunk.**  From whatever log the scheduler starts, in every
run in which workers answer the chunks written to them and every submit that starts a new
instance finds nothing of another cut of that job circulating: every result the aggregator counts
is the answer for the range its index stands for under the spec stored with the job. -/
theorem counts_own_chunk {wl : Workload} {p : Params} {now : Time} {ords : RecoverOrders}
    {file : Option (List Record × (ℕ → Bool))} {boot : Recovered}
    (hboot : recover wl now ords file = some boot) {as : List Action} {s : Sys}
    (hon : Along (WorkersHonest wl) (Sys.step wl p) (Sys.start boot) as)
    (hcut : Along (CutAgrees wl) (Sys.step wl p) (Sys.start boot) as)
    (hrun : run (Sys.step wl p) (Sys.start boot) as = some s) : s.CountsOwn wl := by
  have hb := recover_boots hboot
  have hinv : s.Ok ∧ s.AllOwn wl := by
    refine run_invariant_along (P := fun s => s.Ok ∧ s.AllOwn wl)
      (fun s a t hs hok hstep => ?_) ⟨Sys.start_ok hb, Sys.start_allOwn hb⟩ (hon.and hcut) hrun
    have hmove := Sys.step_move hstep
    exact ⟨hmove.ok hs.1, hs.2.move hs.1 hok.1 hok.2 hmove⟩
  intro w l r j hl hph hj hi _
  exact ((hinv.2 _ j hj).loop w l hl).held r hph (hinv.1.agg.spec_id _ j hj).symm hi

/-- The way of a job's first chunk from the request to a result the aggregator can take. -/
def oneChunkRun : List Action :=
  [.readRequest 1 ⟨7, 0, 15000, []⟩, .submit 0 0, .takeReply 0, .readJoin 2, .feed 0,
    .loop 1 (.poll 1), .loop 1 (.pullNQ 1),
    .readResult 2 (Workload.largest.answer ⟨⟨7, 0⟩, 0, 10000, []⟩), .forward, .loop 1 (.poll 2),
    .loop 1 (.recvResult 2)]

lemma oneChunkRun_honest : Along (WorkersHonest Workload.largest)
    (Sys.step Workload.largest Params.default) (Sys.start ⟨Agg.empty, []⟩) oneChunkRun := by
  refine Along.append_cons (oneChunkRun.take 7)
    (.of_forall (by simp [WorkersHonest, oneChunkRun])) (fun s hs w hw => ?_)
    fun s => .of_forall (by simp [WorkersHonest])
  have hval : (some s).map (fun s => (s.workers.lookup 2, s.wrote)) =
      some (some 1, [(1, ⟨⟨7, 0⟩, 0, 10000, []⟩)]) := by
    rw [← hs]
    decide +kernel
  rw [Option.map_some, Option.some_inj, Prod.mk.injEq, hw, Option.some_inj] at hval
  exact ⟨_, by rw [hval.1, hval.2]; exact List.mem_singleton_self _, rfl⟩

lemma oneChunkRun_cutAgrees : Along (CutAgrees Workload.largest)
    (Sys.step Workload.largest Params.default) (Sys.start ⟨Agg.empty, []⟩) oneChunkRun := by
  refine Along.append_cons (oneChunkRun.take 1)
    (.of_forall (by simp [CutAgrees, oneChunkRun])) (fun s hs c spec hg hst => ?_)
    fun s => .of_forall (by simp [CutAgrees])
  obtain rfl := Option.some_inj.mp hs
  -- nothing but the handler itself is there yet
  refine ⟨GoMap.forall_insert (by simp [Sys.start, Sys.initial]) (by simp [Handler.toQueue]),
    ⟨?_, ?_⟩, ?_, ?_, ?_⟩ <;> simp [Sys.onRequest, Sys.spawn, Sys.start, Sys.initial]

theorem counts_own_chunk_oneChunkRun :
    ∃ s, run (Sys.step Workload.largest Params.default) (Sys.start ⟨Agg.empty, []⟩) oneChunkRun =
        some s ∧ (s.loops.lookup 1).map Worker.phase = some (.holding ⟨⟨7, 0⟩, 10000, 0⟩) ∧
      (s.agg.jobs.lookup 7).map Job.remaining = some 2 ∧ s.CountsOwn Workload.largest := by
  have hval : (run (Sys.step Workload.largest Params.default) (Sys.start ⟨Agg.empty, []⟩)
      oneChunkRun).map (fun s => ((s.loops.lookup 1).map Worker.phase,
        (s.agg.jobs.lookup 7).map Job.remaining)) =
      some (some (.holding ⟨⟨7, 0⟩, 10000, 0⟩), some 2) := by
    decide +kernel
  obtain ⟨s, hrun, hs⟩ := Option.map_eq_some_iff.mp hval
  obtain ⟨hph, hj⟩ := Prod.mk.inj hs
  have hboot : recover Workload.largest 0 ⟨idOrder, idOrder, idOrder⟩ none =
    some ⟨Agg.empty, []⟩ := rfl
  exact ⟨s, hrun, hph, hj, counts_own_chunk hboot oneChunkRun_honest oneChunkRun_cutAgrees hrun⟩

/-! ## A task of an earlier cut -/

/-- A server with chunks of ten. -/
def wideParams : Params := { Params.default with chunkSize := 10, chunkSize_pos := by decide }

/-- The log of a server with chunks of five, stopped right after it accepted a job. -/
def narrowLog : List Record := [.jobStart (JobSpec.ofRequest 5 ⟨1, 0, 20, []⟩).start]

/-- The recovered job's first task is handed to a worker; nobody claims the job within the grace
period, then its client asks again; the worker's answer arrives after that. -/
def narrowRun : List Action :=
  [.readJoin 2, .feed 0, .loop 1 (.poll 1), .loop 1 (.pullNQ 1),
    .tick 6000000000 ⟨idOrder, idOrder, idOrder⟩, .readRequest 3 ⟨1, 0, 20, []⟩,
    .submit 2 6000000001,
    .readResult 2 (Workload.largest.answer ⟨⟨1, 0⟩, 0, 5, []⟩), .forward,
    .loop 1 (.poll 6000000002), .loop 1 (.recvResult 6000000003)]

/-- The answer for `[0, 5)` is about to be counted for index 0, which stands for `[0, 10)`. -/
theorem narrowRun_not_own :
    ∃ boot, recover Workload.largest 0 ⟨idOrder, idOrder, idOrder⟩
        (some (narrowLog, fun _ => false)) = some boot ∧
      (∀ c req, Action.readRequest c req ∈ narrowRun → req = ⟨1, 0, 20, []⟩) ∧
      Along (WorkersHonest Workload.largest) (Sys.step Workload.largest wideParams)
        (Sys.start boot) narrowRun ∧
      ∃ s, run (Sys.step Workload.largest wideParams) (Sys.start boot) narrowRun = some s ∧
        ¬ s.CountsOwn Workload.largest := by
  have hmid : ((recover Workload.largest 0 ⟨idOrder, idOrder, idOrder⟩
      (some (narrowLog, fun _ => false))).bind fun boot =>
        run (Sys.step Workload.largest wideParams) (Sys.start boot) (narrowRun.take 7)).map
          (fun s => (s.workers.lookup 2, s.wrote)) =
      some (some 1, [(1, ⟨⟨1, 0⟩, 0, 5, []⟩)]) := by
    decide +kernel
  have hend : ((recover Workload.largest 0 ⟨idOrder, idOrder, idOrder⟩
      (some (narrowLog, fun _ => false))).bind fun boot =>
        run (Sys.step Workload.largest wideParams) (Sys.start boot) narrowRun).map
          (fun s => ((s.loops.lookup 1).map Worker.phase, s.agg.jobs.lookup 1, s.agg.done)) =
      some (some (.holding ⟨⟨1, 0⟩, 5, 0⟩),
        some ⟨JobSpec.ofRequest 10 ⟨1, 0, 20, []⟩, some 3, 2, ⟨0, 0⟩, 6000000001, none, 1⟩, ∅) := by
    decide +kernel
  obtain ⟨boot, hboot⟩ : ∃ boot, recover Workload.largest 0 ⟨idOrder, idOrder, idOrder⟩
    (some (narrowLog, fun _ => false)) = some boot := ⟨_, rfl⟩
  rw [hboot, Option.bind_some] at hmid hend
  refine ⟨boot, hboot, by simp [narrowRun], ?_, ?_⟩
  · refine Along.append_cons (narrowRun.take 7)
      (.of_forall (by simp [WorkersHonest, narrowRun])) (fun s hs w hw => ?_)
      fun s => .of_forall (by simp [WorkersHonest])
    rw [hs, Option.map_some, Option.some_inj, Prod.mk.injEq, hw, Option.some_inj] at hmid
    exact ⟨_, by rw [hmid.1, hmid.2]; exact List.mem_singleton_self _, rfl⟩
  · obtain ⟨s, hrun, hs⟩ := Option.map_eq_some_iff.mp hend
    obtain ⟨hph, hj, hd⟩ := Prod.mk.inj hs |>.imp id Prod.mk.inj
    obtain ⟨l, hl, hph⟩ := Option.map_eq_some_iff.mp hph
    refine ⟨s, hrun, fun hown => ?_⟩
    have hvalue := hown 1 l _ _ hl hph hj (by decide) (by simp [hd])
    revert hvalue
    decide

end RudpScheduler
