import RudpScheduler.Properties.SystemInvariant

/-!
# No task is lost

A task of a running job that is not counted yet is somewhere: its feeder is still going to queue
it, or it is in one of the queues, or in flight at a worker loop, or a worker loop holds a result
for it.  The code drops copies of a task in several places (an own clone when `pq` is full, a
result nobody waits for, a chunk written to a dead connection); none of them drops the last one.

Only the aggregator takes a task out of these places for good, by counting its result, and only a
closed cancel channel stops a feeder; a running job's channel is open.  So what a step of a
worker loop keeps (`Worker.Move.has`), every step keeps (`Sys.Move.has`), up to the delivery of a
result; `no_task_lost` is the statement for every run of a scheduler started without a log.
Tasks are identified by their `TaskID`, as everywhere in the code, so nothing is assumed about
the contents of requests.
-/

namespace RudpScheduler

/-- Some copy of the task is in `nq` or `pq`. -/
def Queues.Has (q : Queues) (x : TaskID) : Prop := ∃ t, (t ∈ q.nq ∨ t ∈ q.pq) ∧ t.id = x

/-- The task is in flight at a loop that has not exited. -/
def Worker.InFlight (w : Worker) (x : TaskID) : Prop :=
  w.phase ≠ .exited ∧ ∃ e, w.inflight.lookup x = some e

/-- The loop holds a result for the task, on its way to the aggregator. -/
def Worker.HoldsResult (w : Worker) (x : TaskID) : Prop := ∃ r, w.phase = .holding r ∧ r.id = x

namespace Sys

/-- The feeder that the cancel channel `c` stops is still going to queue the task. -/
def ToBeQueued (s : Sys) (c : ℕ) (x : TaskID) : Prop :=
  ∃ g h, s.handlers.lookup g = some h ∧ h.cancelOf = some c ∧ ∃ t ∈ h.toQueue, t.id = x

/-- The task is in flight somewhere. -/
def InFlight (s : Sys) (x : TaskID) : Prop := ∃ w l, s.loops.lookup w = some l ∧ l.InFlight x

/-- A result for the task is on its way to the aggregator. -/
def ResultHeld (s : Sys) (x : TaskID) : Prop := ∃ w l, s.loops.lookup w = some l ∧ l.HoldsResult x

/-- The task, of the instance with cancel channel `c`, is in one of its places. -/
def Has (s : Sys) (c : ℕ) (x : TaskID) : Prop :=
  s.ToBeQueued c x ∨ s.queues.Has x ∨ s.InFlight x ∨ s.ResultHeld x

/-- Every uncounted task of a running job is in one of its places. -/
def Lossless (s : Sys) : Prop :=
  ∀ id j i, s.agg.jobs.lookup id = some j → i < j.spec.n → (⟨id, i⟩ : TaskID) ∉ s.agg.done →
    s.Has j.cancel ⟨id, i⟩

end Sys

/-! ## A worker loop -/

namespace Queues

variable {q q' : Queues} {x : TaskID} {t : Task}

lemma Has.pushPQ (h : q.Has x) (t : Task) : (q.pushPQ t).Has x := by
  obtain ⟨t', ht', hid⟩ := h
  exact ⟨t', ht'.imp_right (List.mem_append_left _), hid⟩

lemma has_pushPQ (q : Queues) (t : Task) : (q.pushPQ t).Has t.id :=
  ⟨t, .inr (List.mem_append_right _ (List.mem_singleton_self t)), rfl⟩

/-- What is left in the queues after a pull, besides the task that was pulled. -/
lemma Has.pull (h : q.Has x) (hq : q.Pull t q') : q'.Has x ∨ t.id = x := by
  obtain ⟨t', ht', hid⟩ := h
  cases hq with
  | pq =>
      rcases ht' with h1 | h1
      · exact .inl ⟨t', .inl h1, hid⟩
      · rcases List.mem_cons.mp h1 with rfl | h2
        · exact .inr hid
        · exact .inl ⟨t', .inr h2, hid⟩
  | nq =>
      rcases ht' with h1 | h1
      · rcases List.mem_cons.mp h1 with rfl | h2
        · exact .inr hid
        · exact .inl ⟨t', .inl h2, hid⟩
      · exact .inl ⟨t', .inr h1, hid⟩

end Queues

namespace Worker

variable {p : Params} {q q' : Queues} {w w' : Worker} {chunks : List Chunk} {x : TaskID}

/-- The task is in the loop's hands. -/
def Has (w : Worker) (x : TaskID) : Prop := w.InFlight x ∨ w.HoldsResult x

/-- A step that moves no task: the loop was not sending a result, and does not exit. -/
lemma Has.same (h : w.Has x) (hph : ∀ r, w.phase ≠ .holding r) (hin : w'.inflight = w.inflight)
    (hph' : w'.phase ≠ .exited) : w'.Has x := by
  rcases h with ⟨-, e, he⟩ | ⟨r, hr, -⟩
  · exact .inl ⟨hph', e, hin ▸ he⟩
  · exact absurd hr (hph r)

lemma MayPull.not_holding (h : w.MayPull p) (r : ChunkResult) : w.phase ≠ .holding r := by
  cases h with
  | top hph => simp [hph]
  | select hph => simp [hph]

/-- A task in the queues or in the loop's hands is there after the loop's step. -/
lemma Move.has (hm : w.Move p q q' w' chunks) (hw : w.Ok) (hx : q.Has x ∨ w.Has x) :
    q'.Has x ∨ w'.Has x := by
  have hsame : q' = q → (∀ r, w.phase ≠ .holding r) → w'.inflight = w.inflight →
      w'.phase ≠ .exited → q'.Has x ∨ w'.Has x := fun hq hph hin hph' =>
    hx.imp (hq ▸ id) fun h => h.same hph hin hph'
  cases hm with
  | wait hph => exact hsame rfl (by simp [hph]) rfl (by simp)
  | send hq hpull hnew =>
      rename_i t now
      -- the task that was pulled is in flight now
      have hin : (Finmap.insert t.id (⟨t, now, false⟩ : Entry) w.inflight).lookup t.id =
        some ⟨t, now, false⟩ := Finmap.lookup_insert _
      rcases hx with hx | ⟨-, e, he⟩ | ⟨r, hr, -⟩
      · rcases hx.pull hq with hx | rfl
        · exact .inl hx
        · exact .inr (.inl ⟨by simp, _, hin⟩)
      · refine .inr (.inl ⟨by simp, e, ?_⟩)
        rw [GoMap.lookup_insert_ite, if_neg, he]
        rintro rfl
        rw [hnew] at he
        cases he
      · exact absurd hr (hpull.not_holding r)
  | own hq hpull hmine =>
      -- the clone that was pulled is a copy of an entry of this loop
      rcases hx with hx | hx
      · rcases hx.pull hq with hx | rfl
        · exact .inl hx
        · exact .inr (.inl ⟨by simp, _, hmine⟩)
      · exact .inr (hx.same hpull.not_holding rfl (by simp))
  | putBack hph hq =>
      rcases hx with hx | hx
      · rcases hq with rfl | rfl
        · exact .inl hx
        · exact .inl (hx.pushPQ _)
      · exact .inr (hx.same (by simp [hph]) rfl (by simp))
  | duplicate hph => exact hsame rfl (by simp [hph]) rfl (by simp)
  | result hph hr he =>
      rename_i r _ _ _ _
      rcases hx with hx | ⟨-, e, hxe⟩ | ⟨r', hr', -⟩
      · exact .inl hx
      · by_cases hid : x = r.id
        · exact .inr (.inr ⟨r, rfl, hid.symm⟩)
        · exact .inr (.inl ⟨by simp, e, by rw [GoMap.lookup_erase_ite, if_neg hid, hxe]⟩)
      · rw [hph] at hr'
        cases hr'
  | tick hph => exact hsame rfl (by simp [hph]) rfl (by simp)
  | scan _ hph => exact hsame rfl (by simp [hph]) rfl (by simp)
  | clone hph he =>
      rcases hx with hx | ⟨-, e, hxe⟩ | ⟨r, hr, -⟩
      · exact .inl (hx.pushPQ _)
      · refine .inr (.inl ⟨by simp, ?_⟩)
        rw [GoMap.lookup_insert_ite]
        split_ifs
        · exact ⟨_, rfl⟩
        · exact ⟨e, hxe⟩
      · rw [hph] at hr
        cases hr
  | skip hph => exact hsame rfl (by simp [hph]) rfl (by simp)
  | scanned hph => exact hsame rfl (by simp [hph]) rfl (by simp)
  | lost _ hph => exact hsame rfl (by simp [hph]) rfl (by simp)
  | requeue hph he hroom =>
      rename_i id rest e
      rcases hx with hx | ⟨-, e', hxe⟩ | ⟨r, hr, -⟩
      · exact .inl (hx.pushPQ _)
      · by_cases hid : x = id
        · rw [hid, ← hw.entry_id id e he]
          exact .inl (q.has_pushPQ e.task)
        · exact .inr (.inl ⟨by simp, e', by rw [GoMap.lookup_erase_ite, if_neg hid, hxe]⟩)
      · rw [hph] at hr
        cases hr
  | pass hph => exact hsame rfl (by simp [hph]) rfl (by simp)
  | exit hph =>
      rcases hx with hx | ⟨-, e, hxe⟩ | ⟨r, hr, -⟩
      · exact .inl hx
      · cases hw.handBack _ hph x e hxe
      · rw [hph] at hr
        cases hr

end Worker

/-! ## The system -/

namespace Sys

variable {wl : Workload} {p : Params} {s t : Sys} {c : ℕ} {x : TaskID}

/-- The last two places, one loop at a time. -/
lemma has_iff : s.Has c x ↔
    s.ToBeQueued c x ∨ s.queues.Has x ∨ ∃ w l, s.loops.lookup w = some l ∧ l.Has x := by
  constructor
  · rintro (h | h | ⟨w, l, hl, h⟩ | ⟨w, l, hl, h⟩)
    · exact .inl h
    · exact .inr (.inl h)
    · exact .inr (.inr ⟨w, l, hl, .inl h⟩)
    · exact .inr (.inr ⟨w, l, hl, .inr h⟩)
  · rintro (h | h | ⟨w, l, hl, h | h⟩)
    · exact .inl h
    · exact .inr (.inl h)
    · exact .inr (.inr (.inl ⟨w, l, hl, h⟩))
    · exact .inr (.inr (.inr ⟨w, l, hl, h⟩))

/-- A step keeps the task in its places when it keeps it in each of them. -/
lemma Has.mono (h : s.Has c x) (hf : s.ToBeQueued c x → t.Has c x)
    (hq : s.queues.Has x → t.Has c x)
    (hw : ∀ w l, s.loops.lookup w = some l → l.Has x → t.Has c x) : t.Has c x := by
  rcases has_iff.mp h with h | h | ⟨w, l, hl, h⟩
  · exact hf h
  · exact hq h
  · exact hw w l hl h

/-- Handlers that are not touched. -/
lemma ToBeQueued.mono (h : s.ToBeQueued c x)
    (hh : ∀ g h, s.handlers.lookup g = some h → h.cancelOf = some c → ∀ t' ∈ h.toQueue,
      t'.id = x → t.Has c x) : t.Has c x := by
  obtain ⟨g, h, hg, hc, t', ht', hid⟩ := h
  exact hh g h hg hc t' ht' hid

lemma has_feeder {g : ℕ} {h : Handler} {u : Task} (hg : s.handlers.lookup g = some h)
    (hc : h.cancelOf = some c) (hu : u ∈ h.toQueue) (hid : u.id = x) : s.Has c x :=
  .inl ⟨g, h, hg, hc, u, hu, hid⟩

lemma has_worker {w : ℕ} {l : Worker} (hl : s.loops.lookup w = some l) (h : l.Has x) :
    s.Has c x := has_iff.mpr (.inr (.inr ⟨w, l, hl, h⟩))

/-- A step that leaves queues and loops alone, and the handlers but one. -/
lemma Has.handler (h : s.Has c x) (hq : t.queues = s.queues) (hl : t.loops = s.loops) (g : ℕ)
    (hh : ∀ g', g' ≠ g → t.handlers.lookup g' = s.handlers.lookup g')
    (hg : ∀ h, s.handlers.lookup g = some h → h.cancelOf = some c → ∀ u ∈ h.toQueue, u.id = x →
      t.Has c x) : t.Has c x := by
  refine h.mono (fun hf => hf.mono fun g' h' hg' hc u hu hid => ?_) (fun h => ?_) fun w l hw h => ?_
  · by_cases he : g' = g
    · exact hg h' (he ▸ hg') hc u hu hid
    · exact has_feeder ((hh g' he).trans hg') hc hu hid
  · exact .inr (.inl (hq ▸ h))
  · exact has_worker (hl ▸ hw) h

/-- A step that touches one loop only. -/
lemma Has.loop (h : s.Has c x) (hq : t.queues = s.queues) (hh : t.handlers = s.handlers) (w : ℕ)
    (hl : ∀ w', w' ≠ w → t.loops.lookup w' = s.loops.lookup w')
    (hw : ∀ l, s.loops.lookup w = some l → l.Has x → t.Has c x) : t.Has c x := by
  refine h.mono (fun hf => hf.mono fun g h' hg hc u hu hid => ?_) (fun h => ?_) fun w' l hl' h => ?_
  · exact has_feeder (hh ▸ hg) hc hu hid
  · exact .inr (.inl (hq ▸ h))
  · by_cases he : w' = w
    · exact hw l (he ▸ hl') h
    · exact has_worker ((hl w' he).trans hl') h

/-- Only the delivery of a result can take a task of an open instance out of its places. -/
lemma Move.has {a : Action} (h : Move wl p s a t) (hs : s.Ok) (hc : c ∉ s.agg.closed)
    (hx : s.Has c x) :
    t.Has c x ∨ ∃ r now, r.id = x ∧ t.agg = s.agg.step wl p (.result r now) := by
  have hne : ∀ {V : Type} (m : GoMap ℕ V) (k : ℕ) (v : V), ∀ k' ≠ k,
      (Finmap.insert k v m).lookup k' = m.lookup k' := fun m k v k' hk => by
    rw [GoMap.lookup_insert_ite, if_neg hk]
  cases h with
  | ignored => exact .inl hx
  | connDown => exact .inl hx
  | @lostWorker c w hr hd hw =>
      refine .inl (hx.mono (fun h => .inl h) (fun h => .inr (.inl h)) fun w' l hl h => ?_)
      obtain ⟨l', hl', h'⟩ : ∃ l', (closeDead s.loops w).lookup w' = some l' ∧ l'.Has x := by
        unfold closeDead
        split
        · rename_i k hk
          rw [GoMap.lookup_insert_ite]
          split_ifs with he
          · rw [he, hk] at hl
            obtain rfl := Option.some_inj.mp hl
            exact ⟨_, rfl, h⟩
          · exact ⟨l, hl, h⟩
        · exact ⟨l, hl, h⟩
      exact has_worker hl' h'
  | lostClient => exact .inl hx
  | join =>
      refine .inl (hx.loop rfl rfl s.nextGo (hne _ _ _) fun l hl => ?_)
      rw [hs.loops_next] at hl
      cases hl
  | request =>
      refine .inl (hx.handler rfl rfl s.nextGo (hne _ _ _) fun h hg => ?_)
      rw [hs.handlers_next] at hg
      cases hg
  | result => exact .inl hx
  | @forward w r l hd hl hroom =>
      refine .inl (hx.loop rfl rfl w (hne _ _ _) fun l' hl' h => ?_)
      rw [hl] at hl'
      obtain rfl := Option.some_inj.mp hl'
      exact has_worker (Finmap.lookup_insert _) h
  | gone => exact .inl hx
  | @submit g h spec now hg =>
      refine .inl (hx.handler rfl rfl g (hne _ _ _) fun h hg' => ?_)
      rw [hg] at hg'
      obtain rfl := Option.some_inj.mp hg'
      simp [Handler.cancelOf]
  | @begin g h spec reply hg hf =>
      refine .inl (hx.handler rfl rfl g (hne _ _ _) fun h hg' hc u hu hid => ?_)
      rw [hg] at hg'
      obtain rfl := Option.some_inj.mp hg'
      rw [Handler.toQueue, if_pos hf] at hu
      exact has_feeder (Finmap.lookup_insert _) hc hu hid
  | @leave g h spec reply hg hf =>
      refine .inl (hx.handler rfl rfl g (fun g' hg' => Finmap.lookup_erase_ne hg')
        fun h hg' hc u hu => ?_)
      rw [hg] at hg'
      obtain rfl := Option.some_inj.mp hg'
      simp [Handler.toQueue, hf] at hu
  | @feed g cancel u rest hg hroom =>
      refine .inl (hx.mono (fun hf => hf.mono fun g' h hg' hc v hv hid => ?_) (fun h => ?_)
        fun w l hl h => has_worker hl h)
      · by_cases he : g' = g
        · subst he
          rw [hg] at hg'
          obtain rfl := Option.some_inj.mp hg'
          -- the first task of the feeder is in `nq` now
          rcases List.mem_cons.mp hv with rfl | hv
          · exact .inr (.inl ⟨v, .inl (List.mem_append_right _ (List.mem_singleton_self v)), hid⟩)
          · exact has_feeder (Finmap.lookup_insert _) hc hv hid
        · exact has_feeder ((hne _ _ _ g' he).trans hg') hc hv hid
      · obtain ⟨v, hv, hid⟩ := h
        exact .inr (.inl ⟨v, hv.imp_left (List.mem_append_left _), hid⟩)
  | @feedCancel g c' u rest hg hclosed =>
      refine .inl (hx.handler rfl rfl g (fun g' hg' => Finmap.lookup_erase_ne hg')
        fun h hg' hc' u hu => ?_)
      rw [hg] at hg'
      obtain rfl := Option.some_inj.mp hg'
      exact absurd (Option.some_inj.mp hc' ▸ hclosed) hc
  | @loop w a l q l' chunks hl hm =>
      have hmove := hm.has (x := x) (hs.loops w l hl)
      refine .inl (hx.mono (fun h => .inl h) (fun h => ?_) fun w' k hk h => ?_)
      · rcases hmove (.inl h) with h | h
        · exact .inr (.inl h)
        · exact has_worker (Finmap.lookup_insert _) h
      · by_cases he : w' = w
        · subst he
          rw [hl] at hk
          obtain rfl := Option.some_inj.mp hk
          rcases hmove (.inr h) with h | h
          · exact .inr (.inl h)
          · exact has_worker (Finmap.lookup_insert _) h
        · exact has_worker ((hne _ _ _ w' he).trans hk) h
  | @deliver w l r now hl hph =>
      by_cases hid : r.id = x
      · exact .inr ⟨r, now, hid, rfl⟩
      · refine .inl (hx.loop rfl rfl w (hne _ _ _) fun l' hl' h => ?_)
        rw [hl] at hl'
        obtain rfl := Option.some_inj.mp hl'
        rcases h with ⟨-, e, he⟩ | ⟨r', hr', hid'⟩
        · exact has_worker (Finmap.lookup_insert _) (.inl ⟨by simp, e, he⟩)
        · rw [hph] at hr'
          obtain rfl := LoopPhase.holding.inj hr'
          exact absurd hid' hid
  | tick => exact .inl hx

/-- A step loses no task. -/
lemma Move.lossless {a : Action} (h : Move wl p s a t) (hs : s.Ok) (hl : s.Lossless) :
    t.Lossless := by
  intro id j' i hj' hi hd
  rcases h.jobs hj' with ⟨j, hj, hspec, hcancel, hdone⟩ | ⟨g, c, now, -, -, -, hid, hg⟩
  · have hx : s.Has j'.cancel ⟨id, i⟩ := by
      rw [hcancel]
      exact hl id j i hj (hspec ▸ hi) fun hmem => hd (hdone i hmem)
    have hopen : j'.cancel ∉ s.agg.closed := hcancel ▸ hs.agg.cancel_open id j hj
    rcases h.has hs hopen hx with hx | ⟨r, now, hr, hagg⟩
    · exact hx
    · -- a delivered result is counted, unless its job does not wait for it
      rw [hagg] at hj' hd
      refine absurd ?_ hd
      rw [← hr]
      exact Agg.step_result_done r now (by rw [hr]; exact hj') (by rw [hr]; exact hi)
  · refine has_feeder hg rfl (u := j'.spec.task i) ?_ (by rw [JobSpec.task_id, hid])
    exact JobSpec.mem_feed.mpr ⟨i, hi, Finset.notMem_empty _, rfl⟩

lemma run_lossless {boot : Recovered} (hb : boot.Boots) (h0 : (start boot).Lossless)
    {as : List Action} (h : run (Sys.step wl p) (start boot) as = some s) : s.Lossless := by
  refine (run_invariant (P := fun s => s.Ok ∧ s.Lossless) ?_ ⟨start_ok hb, h0⟩ h).2
  rintro s a t ⟨hs, hl⟩ hstep
  exact ⟨(step_move hstep).ok hs, (step_move hstep).lossless hs hl⟩

/-- A running job waits for some task. -/
lemma Ok.exists_uncounted (hs : s.Ok) {id : UInt64} {j : Job}
    (hj : s.agg.jobs.lookup id = some j) :
    ∃ i < j.spec.n, (⟨id, i⟩ : TaskID) ∉ s.agg.done := by
  by_contra hall
  push Not at hall
  -- all indices are counted, so nothing remains
  have hsub : indicesBelow j.spec.n ⊆ s.agg.countedIdx id := fun i hi =>
    Tables.mem_countedIdx.mpr (hall i (mem_indicesBelow.mp hi))
  have hcard := Finset.card_le_card hsub
  rw [card_indicesBelow] at hcard
  have hrem := hs.agg.remaining id j hj
  refine hs.settled id j hj (UInt32.toNat_inj.mp ?_)
  rw [UInt32.toNat_zero]
  omega

end Sys

/-- **No task is lost.**  In every state a scheduler started without a log can reach, every task
of a running job that is not counted is still to be queued by that job's feeder, or in `nq` or
`pq`, or in flight at a worker loop that has not exited, or a worker loop holds a result for it;
so when all of these places are empty, no job is running. -/
theorem no_task_lost {wl : Workload} {p : Params} {now : Time} {ords : RecoverOrders}
    {boot : Recovered} (hboot : recover wl now ords none = some boot) {as : List Action} {s : Sys}
    (hrun : run (Sys.step wl p) (Sys.start boot) as = some s) :
    (∀ id j i, s.agg.jobs.lookup id = some j → i < j.spec.n → (⟨id, i⟩ : TaskID) ∉ s.agg.done →
        s.ToBeQueued j.cancel ⟨id, i⟩ ∨ s.queues.Has ⟨id, i⟩ ∨ s.InFlight ⟨id, i⟩ ∨
          s.ResultHeld ⟨id, i⟩) ∧
      ((∀ x, (∀ c, ¬ s.ToBeQueued c x) ∧ ¬ s.queues.Has x ∧ ¬ s.InFlight x ∧ ¬ s.ResultHeld x) →
        ∀ id, s.agg.jobs.lookup id = none) := by
  have hb := recover_boots hboot
  have h0 : (Sys.start boot).Lossless := by
    obtain rfl := Option.some_inj.mp hboot
    intro id j i hj
    simp [Sys.start, Sys.initial, Agg.empty] at hj
  have hl := Sys.run_lossless hb h0 hrun
  refine ⟨hl, fun hnone id => ?_⟩
  by_contra hj
  obtain ⟨j, hj⟩ := Option.ne_none_iff_exists'.mp hj
  obtain ⟨i, hi, hd⟩ := (Sys.run_ok hb hrun).exists_uncounted hj
  obtain ⟨h1, h2, h3, h4⟩ := hnone ⟨id, i⟩
  rcases hl id j i hj hi hd with h | h | h | h
  · exact h1 _ h
  · exact h2 h
  · exact h3 h
  · exact h4 h

/-- A job of two chunks: the first is handed to a worker, whose connection then breaks; the
second is still with the feeder. -/
def handedBackRun : List Action :=
  [.readRequest 1 ⟨7, 0, 15000, []⟩, .submit 0 0, .takeReply 0, .readJoin 2, .feed 0,
    .loop 1 (.poll 1), .loop 1 (.pullNQ 1), .connDown 2, .readError 2, .loop 1 (.poll 2),
    .loop 1 (.dead taskOrder), .loop 1 .handBack]

theorem no_task_lost_handedBackRun :
    ∃ s, run (Sys.step Workload.largest Params.default) (Sys.start ⟨Agg.empty, []⟩) handedBackRun =
        some s ∧ (s.agg.jobs.lookup 7).map Job.remaining = some 2 ∧ s.queues.nq = [] ∧
      (s.ToBeQueued 0 ⟨7, 0⟩ ∨ s.queues.Has ⟨7, 0⟩ ∨ s.InFlight ⟨7, 0⟩ ∨ s.ResultHeld ⟨7, 0⟩) := by
  have hval : (run (Sys.step Workload.largest Params.default) (Sys.start ⟨Agg.empty, []⟩)
      handedBackRun).map (fun s => (s.agg.jobs.lookup 7, s.queues.nq, s.agg.done)) =
      some (some ⟨JobSpec.ofRequest 10000 ⟨7, 0, 15000, []⟩, some 1, 2, ⟨0, 0⟩, 0, none, 0⟩, [],
        ∅) := by
    decide +kernel
  obtain ⟨s, hrun, hs⟩ := Option.map_eq_some_iff.mp hval
  obtain ⟨hj, hq, hd⟩ := Prod.mk.inj hs |>.imp id Prod.mk.inj
  have hboot : recover Workload.largest 0 ⟨idOrder, idOrder, idOrder⟩ none =
    some ⟨Agg.empty, []⟩ := rfl
  refine ⟨s, hrun, by rw [hj]; rfl, hq, ?_⟩
  exact (no_task_lost hboot hrun).1 7 _ 0 hj (by decide) (by simp [hd])

end RudpScheduler
