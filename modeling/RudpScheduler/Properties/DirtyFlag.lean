import RudpScheduler.Framework.Runs
import RudpScheduler.Framework.Folds
import RudpScheduler.Properties.Refinement

/-!
# What a clean flag says about the log

The aggregator's flag `dirty` decides whether the next housekeeping tick syncs the log.  It is
written on five paths, and cleared by a `Sync` or a `Rewrite` whether or not the call worked.  So a
clean flag does not mean a durable log: a tick whose `Sync` fails leaves the records it was for in
the buffer, and no later tick comes back to them (`failedSync_forgotten`).

`Agg.calls` is what an event asks of the log, call by call.  `Agg.ByCalls` says of a part of an
event that it touches the log through these calls only, and that it keeps the flag honest if none of
them fails to sync a record that was appended (`Log.Spared`).  One lemma for each closure of the
aggregator gives `step_byCalls` for an event, and `clean_flag_durable` for every run.
-/

namespace RudpScheduler

/-! ## Calls on the log -/

/-- A call of a method of the log. -/
inductive LogCall
  | append (r : Record)
  | sync
  | rewrite (recs : List Record)
  deriving DecidableEq, Repr

namespace Log

/-- The log after a call. -/
def exec (l : Log) : LogCall → Log
  | .append r => (l.append r).2
  | .sync => l.sync.2
  | .rewrite recs => (l.rewrite recs).2

/-- Every record that was appended has since been covered by a `Sync` that worked, or replaced by a
`Rewrite` that did. -/
def Durable (l : Log) : Prop := l.synced = l.recs.length

instance (l : Log) : Decidable l.Durable := inferInstanceAs (Decidable (_ = _))

/-- If the next call is a `Sync` or a `Rewrite` and fails, it leaves no record behind. -/
def Spares (l : Log) : LogCall → Prop
  | .append _ => True
  | .sync => l.fails 0 = true → l.Durable
  | .rewrite _ => l.fails 0 = true → l.Durable

instance (l : Log) : DecidablePred l.Spares
  | .append _ => isTrue trivial
  | .sync => inferInstanceAs (Decidable (_ → _))
  | .rewrite _ => inferInstanceAs (Decidable (_ → _))

/-- No call of the sequence fails and leaves a record behind. -/
def Spared : Log → List LogCall → Prop
  | _, [] => True
  | l, c :: cs => l.Spares c ∧ (l.exec c).Spared cs

instance decidableSpared : ∀ (l : Log) (cs : List LogCall), Decidable (l.Spared cs)
  | _, [] => isTrue trivial
  | l, c :: cs =>
      have := decidableSpared (l.exec c) cs
      inferInstanceAs (Decidable (_ ∧ _))

/-- A `Sync` that leaves nothing behind leaves a durable log, whether or not it worked. -/
lemma Spares.sync {l : Log} (h : l.Spares .sync) : l.sync.2.Durable := by
  rw [Log.sync]
  split_ifs with hfails
  · exact h hfails
  · rfl

lemma Spares.rewrite {l : Log} {recs : List Record} (h : l.Spares (.rewrite recs)) :
    (l.rewrite recs).2.Durable := by
  rw [Log.rewrite]
  split_ifs with hfails
  · exact h hfails
  · rfl

lemma spared_append {l : Log} {cs ds : List LogCall} :
    l.Spared (cs ++ ds) ↔ l.Spared cs ∧ (cs.foldl exec l).Spared ds := by
  induction cs generalizing l with
  | nil => simp [Spared]
  | cons c cs ih => rw [List.cons_append, Spared, Spared, ih, List.foldl_cons, and_assoc]

end Log

/-! ## The calls an event makes -/

namespace Agg

variable (s : Agg)

/-- The calls of `record`. -/
def recordCalls (r : Record) (syncNow : Bool) : List LogCall :=
  match s.log with
  | none => []
  | some l => .append r :: if !(l.append r).1 && syncNow then [.sync] else []

/-- The calls of `finish`. -/
def finishCalls (j : Job) (completed : Bool) : List LogCall :=
  s.recordCalls (j.endRecord completed) completed

/-- The calls of `settle`. -/
def settleCalls (j : Job) : List LogCall :=
  if j.remaining = 0 then s.finishCalls j true else []

/-- The calls of the submit case. -/
def submitCalls (wl : Workload) (h : ConnID) (spec : JobSpec) (hDone : Bool) (now : Time) :
    List LogCall :=
  match s.results.lookup spec.id with
  | some _ => []
  | none =>
    match s.jobs.lookup spec.id with
    | some j =>
      let s := (s.rejoin j).1.attach h spec.id { j with client := none } hDone now
      s.1.settleCalls s.2
    | none =>
      let j := freshJob wl spec s.nextCancel now
      let s' := (s.startJob wl spec now).1.attach h spec.id j hDone now
      s.recordCalls (.jobStart ⟨spec.id, spec.lo, spec.hi, spec.size, spec.n, spec.msg⟩) true ++
        s'.1.settleCalls s'.2

/-- The calls of the result case. -/
def resultCalls (wl : Workload) (r : ChunkResult) : List LogCall :=
  match s.jobs.lookup r.id.job with
  | none => []
  | some j =>
    if j.spec.n ≤ r.id.idx then []
    else if r.id ∈ s.done then []
    else
      s.recordCalls (.chunkDone ⟨r.id.job, r.id.idx, r.hash, r.nonce⟩) false ++
        (s.counted wl j r).settleCalls (countJob wl j r.value)

/-- The calls of one round of the first loop of a tick. -/
def dropCalls (p : Params) (now : Time) (id : UInt64) : List LogCall :=
  match s.jobs.lookup id with
  | some j =>
    match j.orphanedAt with
    | some t => if now - t > p.jobGrace then s.finishCalls j false else []
    | none => []
  | none => []

/-- The calls of one round of the second loop of a tick. -/
def expireCalls (p : Params) (now : Time) (id : UInt64) : List LogCall :=
  match s.results.lookup id with
  | some f => if now - f.at' > p.resultTTL then s.recordCalls (.jobDrop ⟨id⟩) false else []
  | none => []

/-- The calls of the compaction. -/
def compactCalls (ord : RangeOrder UInt64) : List LogCall :=
  match s.log with
  | none => []
  | some l =>
    if GoMap.len s.jobs = 0 ∧ l.size > compactAbove then
      [.rewrite (snapshotResults ord s.results)]
    else []

/-- The calls of the periodic sync. -/
def syncCalls : List LogCall :=
  match s.log with
  | none => []
  | some _ => if s.dirty then [.sync] else []

/-- The calls of the tick case. -/
def tickCalls (p : Params) (now : Time) (ords : TickOrders) : List LogCall :=
  let dropped := (ords.jobs.range s.jobs).foldl (dropOrphan p now) s
  let expired := (ords.results.range dropped.results).foldl (expire p now) dropped
  collect (dropOrphan p now) (fun s id => s.dropCalls p now id) s (ords.jobs.range s.jobs) ++
    (collect (expire p now) (fun s id => s.expireCalls p now id) dropped
        (ords.results.range dropped.results) ++
      (expired.compactCalls ords.snapshot ++ (expired.compactIdle ords.snapshot).syncCalls))

/-- What an event asks of the log. -/
def calls (wl : Workload) (p : Params) : Event → List LogCall
  | .submit h spec hDone now => s.submitCalls wl h spec hDone now
  | .result r _ => s.resultCalls wl r
  | .clientGone _ _ => []
  | .tick now ords => s.tickCalls p now ords

/-! ## The flag -/

@[simp] lemma reply_dirty (h : Option ConnID) (id : UInt64) (p : Partial) :
    (s.reply h id p).dirty = s.dirty := by
  cases h <;> rfl

@[simp] lemma detach_dirty (j : Job) : (s.detach j).1.dirty = s.dirty := by
  unfold detach
  split <;> rfl

@[simp] lemma remove_dirty (j : Job) : (s.remove j).dirty = s.dirty := by
  simp [remove]

@[simp] lemma rejoin_dirty (j : Job) : (s.rejoin j).1.dirty = s.dirty := by
  simp [rejoin]

@[simp] lemma attach_dirty (h : ConnID) (id : UInt64) (j : Job) (hDone : Bool) (now : Time) :
    (s.attach h id j hDone now).1.dirty = s.dirty := by
  cases hDone <;> rfl

@[simp] lemma discard_dirty (r : ChunkResult) (dup : Bool) : (s.discard r dup).dirty = s.dirty := by
  cases dup <;> rfl

@[simp] lemma clientGone_dirty (conn : ConnID) (now : Time) :
    (s.clientGone conn now).dirty = s.dirty := by
  unfold clientGone
  dsimp only
  split
  · split_ifs
    · simp
    · rfl
  · rfl

/-- A clean flag means a durable log. -/
def Honest : Prop := s.dirty = false → ∀ l, s.log = some l → l.Durable

/-- None of the calls an event makes fails and leaves a record behind. -/
def Spares (wl : Workload) (p : Params) (e : Event) : Prop :=
  ∀ l ∈ s.log, l.Spared (s.calls wl p e)

instance (wl : Workload) (p : Params) : DecidablePred (s.Spares wl p) := fun e =>
  inferInstanceAs (Decidable (∀ l ∈ s.log, l.Spared (s.calls wl p e)))

variable {s} {t u : Agg} {cs ds : List LogCall}

/-- From `s` to `t` by the calls `cs`: they are what happens to the log, and the flag stays honest
if none of them leaves a record behind. -/
structure ByCalls (s : Agg) (cs : List LogCall) (t : Agg) : Prop where
  log : t.log = s.log.map (cs.foldl Log.exec)
  honest : s.Honest → (∀ l, s.log = some l → l.Spared cs) → t.Honest

namespace ByCalls

/-- Neither the log nor the flag is touched. -/
lemma quiet (hlog : t.log = s.log) (hdirty : t.dirty = s.dirty) : ByCalls s [] t where
  log := by
    rw [hlog]
    exact Option.map_id'.symm
  honest h _ := by
    rw [Honest, hlog, hdirty]
    exact h

lemma trans (h : ByCalls s cs t) (h' : ByCalls t ds u) : ByCalls s (cs ++ ds) u where
  log := by
    rw [h'.log, h.log, Option.map_map]
    congr 1
    funext l
    exact (List.foldl_append ..).symm
  honest hs hspared := by
    refine h'.honest (h.honest hs fun l hl => (Log.spared_append.mp (hspared l hl)).1) ?_
    intro l' hl'
    rw [h.log] at hl'
    obtain ⟨l, hl, rfl⟩ := Option.map_eq_some_iff.mp hl'
    exact (Log.spared_append.mp (hspared l hl)).2

/-- A round of a loop at a time. -/
lemma foldl {f : Agg → UInt64 → Agg} {g : Agg → UInt64 → List LogCall}
    (hf : ∀ s id, ByCalls s (g s id) (f s id)) (ids : List UInt64) (s : Agg) :
    ByCalls s (collect f g s ids) (ids.foldl f s) :=
  foldl_collect (P := fun t cs => ByCalls s cs t) (fun t _ id h => h.trans (hf t id)) ids
    (quiet rfl rfl)

end ByCalls

lemma record_byCalls (s : Agg) (r : Record) (syncNow : Bool) :
    ByCalls s (s.recordCalls r syncNow) (s.record r syncNow) := by
  unfold record recordCalls
  cases hlog : s.log with
  | none => exact .quiet (by rw [hlog]) rfl
  | some l =>
      dsimp only
      cases hsync : !(l.append r).1 && syncNow with
      | false =>
          refine ⟨by rw [hlog]; rfl, fun _ _ hclean => ?_⟩
          exact absurd hclean (by simp)
      | true =>
          refine ⟨by rw [hlog]; rfl, fun _ hspared _ l' hl' => ?_⟩
          obtain rfl := Option.some_inj.mp hl'
          obtain ⟨-, hspares, -⟩ := hspared l hlog
          exact hspares.sync

lemma compactIdle_byCalls (s : Agg) (ord : RangeOrder UInt64) :
    ByCalls s (s.compactCalls ord) (s.compactIdle ord) := by
  unfold compactIdle compactCalls
  cases hlog : s.log with
  | none => exact .quiet (by rw [hlog]) rfl
  | some l =>
      dsimp only
      split_ifs
      · refine ⟨by rw [hlog]; rfl, fun _ hspared _ l' hl' => ?_⟩
        obtain rfl := Option.some_inj.mp hl'
        exact (hspared l hlog).1.rewrite
      · exact .quiet rfl rfl

lemma syncDirty_byCalls (s : Agg) : ByCalls s s.syncCalls s.syncDirty := by
  unfold syncDirty syncCalls
  cases hlog : s.log with
  | none => exact .quiet (by rw [hlog]) rfl
  | some l =>
      dsimp only
      split_ifs
      · refine ⟨by rw [hlog]; rfl, fun _ hspared _ l' hl' => ?_⟩
        obtain rfl := Option.some_inj.mp hl'
        exact (hspared l hlog).1.sync
      · exact .quiet rfl rfl

/-- A state with the same log makes the same calls. -/
lemma recordCalls_congr (h : t.log = s.log) (r : Record) (syncNow : Bool) :
    t.recordCalls r syncNow = s.recordCalls r syncNow := by
  rw [recordCalls, recordCalls, h]

/-- `record`, with changes around it that touch neither the log nor the flag. -/
lemma record_byCalls_of_eq (b : Agg) {r : Record} {syncNow : Bool} (hlog : b.log = s.log)
    (hdirty : b.dirty = s.dirty) (hlog' : t.log = (b.record r syncNow).log)
    (hdirty' : t.dirty = (b.record r syncNow).dirty) : ByCalls s (s.recordCalls r syncNow) t := by
  have h := (ByCalls.quiet hlog hdirty).trans
    ((record_byCalls b r syncNow).trans (.quiet hlog' hdirty'))
  rwa [List.nil_append, List.append_nil, recordCalls_congr hlog] at h

lemma finish_byCalls (s : Agg) (j : Job) (completed : Bool) (now : Time) :
    ByCalls s (s.finishCalls j completed) (s.finish j completed now) := by
  cases completed with
  | false =>
      exact record_byCalls_of_eq (s.remove j) (s.remove_log j) (s.remove_dirty j) rfl rfl
  | true =>
      let b : Agg := { s.remove j with
        results := (s.remove j).results.insert j.spec.id ⟨j.acc, now⟩ }
      exact record_byCalls_of_eq b (s.remove_log j) (s.remove_dirty j) rfl rfl

lemma settle_byCalls (s : Agg) (id : UInt64) (j : Job) (now : Time) :
    ByCalls s (s.settleCalls j) (s.settle id j now) := by
  rw [settle, settleCalls]
  split_ifs
  · have hlog := s.reply_log j.client id j.acc
    have hreply : ByCalls s [] (s.reply j.client id j.acc) := .quiet hlog (s.reply_dirty _ _ _)
    have h := hreply.trans (finish_byCalls _ j true now)
    rwa [List.nil_append, finishCalls, recordCalls_congr hlog] at h
  · exact .quiet rfl rfl

/-! ## Events -/

lemma submit_byCalls (s : Agg) (wl : Workload) (h : ConnID) (spec : JobSpec) (hDone : Bool)
    (now : Time) :
    ByCalls s (s.submitCalls wl h spec hDone now) (s.submit wl h spec hDone now).1 := by
  rw [submitCalls]
  cases hr : s.results.lookup spec.id with
  | some f =>
      refine .quiet ?_ ?_
      · simp [submit, hr]
      · simp [submit, hr]
  | none =>
      cases hj : s.jobs.lookup spec.id with
      | some j =>
          rw [submit_running s hr hj]
          dsimp only
          rw [attach_job]
          have hattach : ByCalls s []
              ((s.rejoin j).1.attach h spec.id { j with client := none } hDone now).1 :=
            .quiet (by simp) (by simp)
          exact hattach.trans (settle_byCalls _ spec.id _ now)
      | none =>
          rw [submit_fresh s hr hj]
          dsimp only
          rw [attach_job]
          have hstart := record_byCalls_of_eq (s := s) (t := ((s.startJob wl spec now).1.attach h
            spec.id (freshJob wl spec s.nextCancel now) hDone now).1)
            { s with
              jobs := s.jobs.insert spec.id (freshJob wl spec s.nextCancel now)
              nextCancel := s.nextCancel + 1 } rfl rfl (attach_log ..) (attach_dirty ..)
          exact hstart.trans (settle_byCalls _ spec.id _ now)

lemma result_byCalls (s : Agg) (wl : Workload) (r : ChunkResult) (now : Time) :
    ByCalls s (s.resultCalls wl r) (s.result wl r now) := by
  rw [result, resultCalls]
  cases s.jobs.lookup r.id.job with
  | none => exact .quiet (s.discard_log r false) (s.discard_dirty r false)
  | some j =>
      dsimp only
      split_ifs
      · exact .quiet (s.discard_log r false) (s.discard_dirty r false)
      · exact .quiet (s.discard_log r true) (s.discard_dirty r true)
      · rw [count_eq]
        have hcounted := record_byCalls_of_eq (s := s) (t := s.counted wl j r)
          { s with
            done := insert r.id s.done
            jobs := s.jobs.insert r.id.job (countJob wl j r.value)
            stats := { s.stats with merged := s.stats.merged + 1 } } rfl rfl rfl rfl
        exact hcounted.trans (settle_byCalls _ r.id.job _ now)

lemma dropOrphan_byCalls (s : Agg) (p : Params) (now : Time) (id : UInt64) :
    ByCalls s (s.dropCalls p now id) (s.dropOrphan p now id) := by
  rw [dropOrphan, dropCalls]
  cases s.jobs.lookup id with
  | none => exact .quiet rfl rfl
  | some j =>
      dsimp only
      cases j.orphanedAt with
      | none => exact .quiet rfl rfl
      | some t =>
          dsimp only
          split_ifs
          · exact finish_byCalls s j false now
          · exact .quiet rfl rfl

lemma expire_byCalls (s : Agg) (p : Params) (now : Time) (id : UInt64) :
    ByCalls s (s.expireCalls p now id) (s.expire p now id) := by
  rw [expire, expireCalls]
  cases s.results.lookup id with
  | none => exact .quiet rfl rfl
  | some f =>
      dsimp only
      split_ifs
      · exact record_byCalls_of_eq { s with results := s.results.erase id } rfl rfl rfl rfl
      · exact .quiet rfl rfl

lemma tick_byCalls (s : Agg) (p : Params) (now : Time) (ords : TickOrders) :
    ByCalls s (s.tickCalls p now ords) (s.tick p now ords) :=
  (ByCalls.foldl (fun s id => dropOrphan_byCalls s p now id) _ s).trans
    ((ByCalls.foldl (fun s id => expire_byCalls s p now id) _ _).trans
      ((compactIdle_byCalls _ ords.snapshot).trans (syncDirty_byCalls _)))

/-- **What an event does to the log.**  It makes its calls, and keeps the flag honest if none of
them fails and leaves a record behind. -/
lemma step_byCalls (wl : Workload) (p : Params) (s : Agg) (e : Event) :
    ByCalls s (s.calls wl p e) (s.step wl p e) := by
  cases e with
  | submit h spec hDone now => exact submit_byCalls s wl h spec hDone now
  | result r now => exact result_byCalls s wl r now
  | clientGone conn now => exact .quiet (s.clientGone_log conn now) (s.clientGone_dirty conn now)
  | tick now ords => exact tick_byCalls s p now ords

end Agg

/-! ## Runs -/

/-- `recover` hands over a clean flag and a durable log. -/
lemma recover_honest {wl : Workload} {now : Time} {ords : RecoverOrders}
    {file : Option (List Record × (ℕ → Bool))} {boot : Recovered}
    (h : recover wl now ords file = some boot) : boot.agg.Honest := by
  cases file with
  | none =>
      obtain rfl := Option.some_inj.mp h
      exact fun _ l hl => absurd hl (by simp [Agg.empty])
  | some f =>
      obtain ⟨recs, fails⟩ := f
      simp only [recover] at h
      split_ifs at h
      · obtain rfl := Option.some_inj.mp h
        exact fun _ l hl => Option.some_inj.mp hl ▸ rfl
      · obtain rfl := Option.some_inj.mp h
        intro _ l hl
        obtain rfl := Option.some_inj.mp hl
        exact Log.Spares.rewrite fun _ => rfl

/-- **A clean flag means a durable log**, in every run of the aggregator, from any log or none,
in which no `Sync` and no `Rewrite` fails while a record waits for it.  So the next housekeeping
sync leaves no record out: it is made whenever one waits. -/
theorem clean_flag_durable {wl : Workload} {p : Params} {now : Time} {ords : RecoverOrders}
    {file : Option (List Record × (ℕ → Bool))} {boot : Recovered}
    (hboot : recover wl now ords file = some boot) {es : List Event} {s : Agg}
    (hspares : Along (fun s e => s.Spares wl p e) (fun s e => some (s.step wl p e)) boot.agg es)
    (hrun : run (fun s e => some (s.step wl p e)) boot.agg es = some s) :
    (s.dirty = false → ∀ l, s.log = some l → l.synced = l.recs.length) ∧
      ∀ l, s.log = some l → l.synced ≠ l.recs.length → s.syncCalls = [.sync] := by
  have hhonest : s.Honest := by
    refine run_invariant_along (fun s e t hs hok hstep => ?_) (recover_honest hboot) hspares hrun
    obtain rfl := Option.some_inj.mp hstep
    exact (Agg.step_byCalls wl p s e).honest hs hok
  refine ⟨hhonest, fun l hl hne => ?_⟩
  have hdirty : s.dirty = true := by
    rw [← Bool.not_eq_false]
    exact fun hclean => hne (hhonest hclean l hl)
  rw [Agg.syncCalls, hl]
  exact if_pos hdirty

/-- A client asks for two chunks, one is counted, and the housekeeping tick comes. -/
def chunkThenTick : List Event :=
  [.submit 1 staleSpec false 0,
    .result (Workload.largest.answer (staleSpec.task 0).chunk) 1,
    .tick 50000000 ⟨idOrder, idOrder, idOrder⟩]

/-- The append of the chunk's record fails, everything else works. -/
theorem clean_flag_durable_chunkThenTick :
    ∃ boot s, recover Workload.largest 0 ⟨idOrder, idOrder, idOrder⟩ (some ([], fun k => k == 2)) =
        some boot ∧
      run (fun s e => some (s.step Workload.largest Params.default e)) boot.agg chunkThenTick =
        some s ∧
      ∃ l, s.log = some l ∧ l.synced = l.recs.length := by
  have hgood : ∃ boot, recover Workload.largest 0 ⟨idOrder, idOrder, idOrder⟩
        (some ([], fun k => k == 2)) = some boot ∧
      Along (fun s e => s.Spares Workload.largest Params.default e)
        (fun s e => some (s.step Workload.largest Params.default e)) boot.agg chunkThenTick ∧
      (run (fun s e => some (s.step Workload.largest Params.default e)) boot.agg
        chunkThenTick).map (fun s => (s.dirty, s.log.isSome)) = some (false, true) := by
    refine ⟨_, rfl, ⟨by decide +kernel, fun s hs => ?_⟩, by decide +kernel⟩
    obtain rfl := Option.some_inj.mp hs
    refine ⟨by decide +kernel, fun s hs => ?_⟩
    obtain rfl := Option.some_inj.mp hs
    exact ⟨by decide +kernel, fun _ _ => trivial⟩
  obtain ⟨boot, hboot, hspares, hval⟩ := hgood
  obtain ⟨s, hrun, hs⟩ := Option.map_eq_some_iff.mp hval
  obtain ⟨hclean, hlog⟩ := Prod.mk.inj hs
  obtain ⟨l, hl⟩ := Option.isSome_iff_exists.mp hlog
  exact ⟨boot, s, hboot, hrun, l, hl, (clean_flag_durable hboot hspares hrun).1 hclean l hl⟩

/-- The tick's `Sync` fails: the flag is clean, the chunk's record has not been synced, and the
ticks that follow do not call `Sync` again. -/
theorem failedSync_forgotten :
    ∃ boot, recover Workload.largest 0 ⟨idOrder, idOrder, idOrder⟩ (some ([], fun k => k == 3)) =
        some boot ∧
      ∃ s, run (fun s e => some (s.step Workload.largest Params.default e)) boot.agg
          chunkThenTick = some s ∧
        s.dirty = false ∧ s.log.map (fun l => (l.synced, l.recs.length)) = some (1, 2) ∧
        s.calls Workload.largest Params.default (.tick 100000000 ⟨idOrder, idOrder, idOrder⟩) =
          [] :=
  ⟨_, rfl, _, rfl, by decide +kernel, by decide +kernel, by decide +kernel⟩

end RudpScheduler
