import RudpScheduler.Framework.Register
import RudpScheduler.Properties.SystemInvariant

/-!
# The counters add up

The numbers the scheduler publishes are kept by different goroutines: `AggStats` by the aggregator,
`WorkerStats` by each worker loop.  `counters_add_up` says how they fit together in every state of
every run, whatever the log does.  A job that was started or recovered is completed, dropped or
active; every request is a new job or a reattachment; every result a worker loop has accepted has
been counted by the aggregator as merged, as a duplicate or as an orphan, or is in the loop's hand
on its way there; the hooks are called as often as the counters say; and `WALErrors` is the number
of log operations that failed.

`Agg.Counted` is the part of it about the aggregator alone.  It does not mention `walErrors`, so
`record` keeps it whatever the log answers; `Agg.Erred` is about nothing else.
-/

namespace RudpScheduler

/-! ## The aggregator -/

/-- The hooks of the aggregator, with their flags. -/
inductive Hook
  | onMerge
  | onDiscard (duplicate : Bool)
  | onJobEnd (completed : Bool)
  deriving DecidableEq

/-- The hook an output is a call of. -/
def Output.hook : Output → Option Hook
  | .wrote _ _ => none
  | .merged _ _ => some .onMerge
  | .discarded _ dup => some (.onDiscard dup)
  | .jobEnd _ _ completed => some (.onJobEnd completed)

/-- The counter that goes with a hook. -/
def AggStats.calls (st : AggStats) : Hook → ℕ
  | .onMerge => st.merged
  | .onDiscard true => st.duplicates
  | .onDiscard false => st.orphans
  | .onJobEnd true => st.jobsCompleted
  | .onJobEnd false => st.jobsDropped

/-- How often a hook has been called. -/
def callsOf (out : List Output) (k : Hook) : ℕ := out.countP fun o => o.hook = some k

lemma callsOf_append (out : List Output) (o : Output) (k : Hook) :
    callsOf (out ++ [o]) k = callsOf out k + if o.hook = some k then 1 else 0 := by
  simp [callsOf, List.countP_append, List.countP_singleton]

/-- The aggregator's counters with `running` jobs, after `submits` requests and `results`
results. -/
structure AggStats.Counted (st : AggStats) (running : ℕ) (out : List Output)
    (submits results : ℕ) : Prop where
  jobs : st.jobsRecovered + st.jobsStarted = st.jobsCompleted + st.jobsDropped + running
  submits : st.jobsStarted + st.reattached = submits
  results : st.merged + st.duplicates + st.orphans = results
  hooks : ∀ k, callsOf out k = st.calls k

namespace Agg

variable {wl : Workload} {p : Params} {s t : Agg} {m n : ℕ}

/-- The counters without `walErrors`. -/
def plainStats (s : Agg) : AggStats := { s.stats with walErrors := 0 }

/-- The aggregator's books are in order. -/
def Counted (s : Agg) (submits results : ℕ) : Prop :=
  s.plainStats.Counted (GoMap.len s.jobs) s.out submits results

/-- The books depend on the counters, the number of running jobs and the output only. -/
lemma Counted.congr (h : s.Counted m n) (hst : t.plainStats = s.plainStats)
    (hj : GoMap.len t.jobs = GoMap.len s.jobs) (hout : t.out = s.out) : t.Counted m n := by
  unfold Counted
  rw [hst, hj, hout]
  exact h

lemma walError_plain (st : AggStats) (err : Bool) :
    { st.walError err with walErrors := 0 } = { st with walErrors := 0 } := by
  cases err <;> rfl

@[simp] lemma record_plainStats (s : Agg) (r : Record) (b : Bool) :
    (s.record r b).plainStats = s.plainStats := by
  unfold record
  split
  · rfl
  · dsimp only
    split <;> exact walError_plain _ _

@[simp] lemma detach_plainStats (s : Agg) (j : Job) :
    (s.detach j).1.plainStats = s.plainStats := by
  unfold detach
  split <;> rfl

lemma Counted.record (h : s.Counted m n) (r : Record) (b : Bool) : (s.record r b).Counted m n :=
  h.congr (record_plainStats s r b) (by rw [record_toTables]) (record_out s r b)

lemma Counted.reply (h : s.Counted m n) (c : Option ConnID) (id : UInt64) (v : Partial) :
    (s.reply c id v).Counted m n := by
  cases c with
  | none => exact h
  | some c => exact { h with hooks := fun k => (callsOf_append _ _ _).trans (h.hooks k) }

/-! ### Jobs that end -/

lemma finish_plainStats (s : Agg) (j : Job) (completed : Bool) (now : Time) :
    (s.finish j completed now).plainStats =
      if completed then { s.plainStats with jobsCompleted := s.plainStats.jobsCompleted + 1 }
      else { s.plainStats with jobsDropped := s.plainStats.jobsDropped + 1 } := by
  rw [← s.detach_plainStats j]
  cases completed with
  | true =>
      have hrec := record_plainStats
        ({ s.remove j with results := (s.remove j).results.insert j.spec.id ⟨j.acc, now⟩ } : Agg)
        (.jobDone ⟨j.spec.id, j.acc.hash, j.acc.nonce⟩) true
      exact congrArg (fun st : AggStats => { st with jobsCompleted := st.jobsCompleted + 1 }) hrec
  | false =>
      have hrec := record_plainStats (s.remove j) (.jobDrop ⟨j.spec.id⟩) false
      exact congrArg (fun st : AggStats => { st with jobsDropped := st.jobsDropped + 1 }) hrec

/-- A job that ends leaves the running ones and is counted once. -/
lemma Counted.finish (h : s.Counted m n) {id : UInt64} {j : Job} (hj : s.jobs.lookup id = some j)
    (hid : j.spec.id = id) (completed : Bool) (now : Time) :
    (s.finish j completed now).Counted m n := by
  obtain rfl := hid
  have hlen := GoMap.len_erase_of_lookup_some hj
  have hjobs := h.jobs
  have hhooks : ∀ k, callsOf (s.out ++ [Output.jobEnd j.cancel j.spec.id completed]) k =
      s.plainStats.calls k + if some (Hook.onJobEnd completed) = some k then 1 else 0 :=
    fun k => (callsOf_append _ _ _).trans (congrArg (· + _) (h.hooks k))
  unfold Counted
  rw [finish_plainStats, finish_out, finish_toTables, finishTables]
  cases completed with
  | true =>
      refine ⟨?_, h.submits, h.results, fun k => (hhooks k).trans ?_⟩
      · rw [if_pos rfl]
        dsimp only
        omega
      · rcases k with _ | ⟨_ | _⟩ | ⟨_ | _⟩ <;> rfl
  | false =>
      refine ⟨?_, h.submits, h.results, fun k => (hhooks k).trans ?_⟩
      · rw [if_neg Bool.false_ne_true]
        dsimp only
        omega
      · rcases k with _ | ⟨_ | _⟩ | ⟨_ | _⟩ <;> rfl

lemma Counted.settle (h : s.Counted m n) {id : UInt64} {j : Job} (hj : s.jobs.lookup id = some j)
    (hid : j.spec.id = id) (now : Time) : (s.settle id j now).Counted m n := by
  unfold Agg.settle
  split_ifs
  · have hj' : (s.reply j.client id j.acc).jobs.lookup id = some j := by
      rw [reply_toTables]
      exact hj
    exact (h.reply j.client id j.acc).finish hj' hid true now
  · exact h

/-! ### Requests and results -/

lemma Counted.startJob (h : s.Counted m n) {spec : JobSpec} (hj : s.jobs.lookup spec.id = none)
    (wl : Workload) (now : Time) : (s.startJob wl spec now).1.Counted (m + 1) n := by
  have hlen := GoMap.len_insert_of_lookup_none hj (freshJob wl spec s.nextCancel now)
  have hst : (s.startJob wl spec now).1.plainStats =
      { s.plainStats with jobsStarted := s.plainStats.jobsStarted + 1 } :=
    congrArg (fun st : AggStats => { st with jobsStarted := st.jobsStarted + 1 })
      (record_plainStats ({ s with
        jobs := s.jobs.insert spec.id (freshJob wl spec s.nextCancel now)
        nextCancel := s.nextCancel + 1 } : Agg) (.jobStart spec.start) true)
  have hjobs := h.jobs
  have hsub := h.submits
  unfold Counted
  rw [hst, startJob_out, startJob_toTables]
  refine ⟨?_, ?_, h.results, fun k => (h.hooks k).trans ?_⟩
  · dsimp only
    omega
  · dsimp only
    omega
  · rcases k with _ | ⟨_ | _⟩ | ⟨_ | _⟩ <;> rfl

/-- A request that is not a new job is a reattachment. -/
lemma Counted.reattach (h : s.Counted m n) :
    ({ s with stats := { s.stats with reattached := s.stats.reattached + 1 } } : Agg).Counted
      (m + 1) n := by
  refine ⟨h.jobs, ?_, h.results, fun k => (h.hooks k).trans ?_⟩
  · exact congrArg (· + 1) h.submits
  · rcases k with _ | ⟨_ | _⟩ | ⟨_ | _⟩ <;> rfl

lemma Counted.detach (h : s.Counted m n) (j : Job) : (s.detach j).1.Counted m n :=
  h.congr (s.detach_plainStats j) (by rw [detach_toTables]) (s.detach_out j)

lemma Counted.attach (h : s.Counted m n) {id : UInt64} {k : Job} (hk : s.jobs.lookup id = some k)
    (c : ConnID) (j : Job) (hDone : Bool) (now : Time) :
    (s.attach c id j hDone now).1.Counted m n := by
  refine h.congr ?_ ?_ (s.attach_out c id j hDone now)
  · cases hDone <;> rfl
  · rw [attach_toTables]
    exact GoMap.len_insert_of_lookup_some hk _

/-- Every request is counted once. -/
lemma Counted.submit (h : s.Counted m n) (hok : s.Ok) (wl : Workload) (c : ConnID)
    (spec : JobSpec) (hDone : Bool) (now : Time) :
    (s.submit wl c spec hDone now).1.Counted (m + 1) n := by
  cases hr : s.results.lookup spec.id with
  | some f =>
      have hsub : (s.submit wl c spec hDone now).1 =
          { s.reply (some c) spec.id f.result with
            stats := { (s.reply (some c) spec.id f.result).stats with
              reattached := (s.reply (some c) spec.id f.result).stats.reattached + 1 } } := by
        simp only [Agg.submit, hr]
      rw [hsub]
      exact (h.reply _ _ _).reattach
  | none =>
      cases hj : s.jobs.lookup spec.id with
      | some j =>
          rw [s.submit_running hr hj]
          refine (((h.detach j).reattach).attach (k := j) ?_ _ _ _ _).settle ?_ ?_ _
          · simpa using hj
          · simp
          · simpa using hok.spec_id _ _ hj
      | none =>
          rw [s.submit_fresh hr hj]
          refine ((h.startJob hj wl now).attach (k := freshJob wl spec s.nextCancel now) ?_
            _ _ _ _).settle ?_ ?_ _
          · simp
          · simp
          · simp [freshJob]

lemma Counted.counted (h : s.Counted m n) {j : Job} {r : ChunkResult}
    (hj : s.jobs.lookup r.id.job = some j) : (s.counted wl j r).Counted m (n + 1) := by
  have hst : (s.counted wl j r).plainStats =
      { s.plainStats with merged := s.plainStats.merged + 1 } :=
    record_plainStats ({ s with
      done := insert r.id s.done
      jobs := s.jobs.insert r.id.job (countJob wl j r.value)
      stats := { s.stats with merged := s.stats.merged + 1 } } : Agg)
      (.chunkDone ⟨r.id.job, r.id.idx, r.hash, r.nonce⟩) false
  have hres := h.results
  unfold Counted
  rw [hst, counted_out, counted_toTables, GoMap.len_insert_of_lookup_some hj]
  refine ⟨h.jobs, h.submits, ?_, fun k => ?_⟩
  · dsimp only
    omega
  · rw [callsOf_append, h.hooks]
    rcases k with _ | ⟨_ | _⟩ | ⟨_ | _⟩ <;> rfl

lemma Counted.discard (h : s.Counted m n) (r : ChunkResult) (dup : Bool) :
    (s.discard r dup).Counted m (n + 1) := by
  have hres := h.results
  cases dup with
  | true =>
      refine ⟨h.jobs, h.submits, ?_, fun k => ?_⟩
      · show s.plainStats.merged + (s.plainStats.duplicates + 1) + s.plainStats.orphans = n + 1
        omega
      · rw [discard_out, callsOf_append, h.hooks]
        rcases k with _ | ⟨_ | _⟩ | ⟨_ | _⟩ <;> rfl
  | false =>
      refine ⟨h.jobs, h.submits, congrArg (· + 1) hres, fun k => ?_⟩
      rw [discard_out, callsOf_append, h.hooks]
      rcases k with _ | ⟨_ | _⟩ | ⟨_ | _⟩ <;> rfl

/-- Every result is counted once. -/
lemma Counted.result (h : s.Counted m n) (hok : s.Ok) (wl : Workload) (r : ChunkResult)
    (now : Time) : (s.result wl r now).Counted m (n + 1) := by
  rcases s.result_cases wl r now with ⟨j, hj, -, -, he⟩ | ⟨-, dup, he⟩
  · rw [he, count_eq]
    refine (h.counted hj).settle ?_ ?_ now
    · simp
    · show j.spec.id = r.id.job
      exact hok.spec_id _ _ hj
  · rw [he]
    exact h.discard r dup

/-! ### The other two cases -/

lemma Counted.clientGone (h : s.Counted m n) (conn : ConnID) (now : Time) :
    (s.clientGone conn now).Counted m n := by
  refine h.congr ?_ ?_ (s.clientGone_out conn now)
  · unfold Agg.clientGone
    dsimp only
    split
    · split_ifs
      · exact s.detach_plainStats _
      · rfl
    · rfl
  · rcases s.clientGone_cases conn now with ⟨j, hj, -, he⟩ | ⟨-, he⟩
    · rw [he]
      exact GoMap.len_insert_of_lookup_some hj _
    · rw [he]

/-- The books are in order, and every job is found under its own ID, which the loops of a tick need
while they run. -/
def Kept (m n : ℕ) (s : Agg) : Prop :=
  s.Counted m n ∧ ∀ id j, s.jobs.lookup id = some j → j.spec.id = id

lemma Kept.dropOrphan (h : s.Kept m n) (p : Params) (now : Time) (id : UInt64) :
    (s.dropOrphan p now id).Kept m n := by
  rcases s.dropOrphan_cases p now id with ⟨j, hj, -, he⟩ | he
  · rw [he]
    refine ⟨h.1.finish hj (h.2 id j hj) false now, ?_⟩
    rw [finish_toTables]
    exact GoMap.forall_erase h.2 _
  · rw [he]
    exact h

lemma Kept.expire (h : s.Kept m n) (p : Params) (now : Time) (id : UInt64) :
    (s.expire p now id).Kept m n := by
  rcases s.expire_cases p now id with ⟨f, -, he⟩ | he
  · rw [he]
    have hres : ({ s with results := s.results.erase id } : Agg).Counted m n := h.1
    refine ⟨hres.record _ _, ?_⟩
    rw [record_toTables]
    exact h.2
  · rw [he]
    exact h

lemma compactIdle_plainStats (s : Agg) (ord : RangeOrder UInt64) :
    (s.compactIdle ord).plainStats = s.plainStats := by
  unfold compactIdle
  split
  · rfl
  · split_ifs
    · exact walError_plain _ _
    · rfl

lemma syncDirty_plainStats (s : Agg) : s.syncDirty.plainStats = s.plainStats := by
  unfold syncDirty
  split
  · rfl
  · split_ifs
    · exact walError_plain _ _
    · rfl

lemma Counted.tick (h : s.Counted m n) (hok : s.Ok) (p : Params) (now : Time)
    (ords : TickOrders) : (s.tick p now ords).Counted m n := by
  have hdropped := (ords.jobs.range s.jobs).foldlRecOn (motive := Kept m n) _ ⟨h, hok.spec_id⟩
    fun s hs id _ => hs.dropOrphan p now id
  have hexpired := (ords.results.range
      ((ords.jobs.range s.jobs).foldl (Agg.dropOrphan p now) s).results).foldlRecOn
    (motive := Kept m n) _ hdropped fun s hs id _ => hs.expire p now id
  refine hexpired.1.congr ?_ ?_ ?_
  · rw [Agg.tick, syncDirty_plainStats, compactIdle_plainStats]
  · rw [Agg.tick, syncDirty_toTables, compactIdle_toTables]
  · rw [Agg.tick, syncDirty_out, compactIdle_out]

end Agg

/-- The event is a request. -/
def Event.isSubmit : Event → Bool
  | .submit _ _ _ _ => true
  | _ => false

/-- The event is a result. -/
def Event.isResult : Event → Bool
  | .result _ _ => true
  | _ => false

lemma Agg.Counted.step {s : Agg} {m n : ℕ} (h : s.Counted m n) (hok : s.Ok) (wl : Workload)
    (p : Params) (e : Event) :
    (s.step wl p e).Counted (m + e.isSubmit.toNat) (n + e.isResult.toNat) := by
  cases e with
  | submit c spec hDone now => exact h.submit hok wl c spec hDone now
  | result r now => exact h.result hok wl r now
  | clientGone conn now => exact h.clientGone conn now
  | tick now ords => exact h.tick hok p now ords

/-! ## Log errors -/

/-- After some operations of a log that fails as `fails` says, `errs` of them have failed. -/
def Log.After (fails : ℕ → Bool) (errs : ℕ) (l : Log) : Prop :=
  ∃ k, (l.fails = fun i => fails (k + i)) ∧ errs = (List.range k).countP fails

/-- One more operation. -/
lemma Log.After.next {fails : ℕ → Bool} {errs : ℕ} {l l' : Log} (h : l.After fails errs)
    (hl : l'.fails = l.next.fails) : l'.After fails (errs + (l.fails 0).toNat) := by
  obtain ⟨k, hk, rfl⟩ := h
  refine ⟨k + 1, ?_, ?_⟩
  · rw [hl, Log.next, hk]
    funext i
    rw [Nat.add_right_comm, Nat.add_assoc]
  · rw [List.range_succ, List.countP_append, List.countP_singleton, hk]
    dsimp only
    cases fails k <;> rfl

lemma Log.append_fst (l : Log) (r : Record) : (l.append r).1 = l.fails 0 := by
  unfold append
  split_ifs with h <;> simp [h]

lemma Log.append_fails (l : Log) (r : Record) : (l.append r).2.fails = l.next.fails := by
  unfold append
  split_ifs <;> rfl

lemma Log.sync_fst (l : Log) : l.sync.1 = l.fails 0 := by
  unfold sync
  split_ifs with h <;> simp [h]

lemma Log.sync_fails (l : Log) : l.sync.2.fails = l.next.fails := by
  unfold sync
  split_ifs <;> rfl

lemma Log.rewrite_fst (l : Log) (recs : List Record) : (l.rewrite recs).1 = l.fails 0 := by
  unfold rewrite
  split_ifs with h <;> simp [h]

lemma Log.rewrite_fails (l : Log) (recs : List Record) :
    (l.rewrite recs).2.fails = l.next.fails := by
  unfold rewrite
  split_ifs <;> rfl

lemma AggStats.walError_walErrors (st : AggStats) (err : Bool) :
    (st.walError err).walErrors = st.walErrors + err.toNat := by
  cases err <;> rfl

namespace Agg

variable {wl : Workload} {p : Params} {s t : Agg} {file : Option (ℕ → Bool)}

/-- `walErrors` is the number of log operations that have failed; there are none without a log. -/
def Erred (file : Option (ℕ → Bool)) (s : Agg) : Prop :=
  match file with
  | none => s.log = none ∧ s.stats.walErrors = 0
  | some fails => ∃ l, s.log = some l ∧ l.After fails s.stats.walErrors

lemma Erred.congr (h : s.Erred file) (hlog : t.log = s.log)
    (herr : t.stats.walErrors = s.stats.walErrors) : t.Erred file := by
  cases file with
  | none => exact ⟨hlog.trans h.1, herr.trans h.2⟩
  | some fails =>
      obtain ⟨l, hl, hafter⟩ := h
      exact ⟨l, hlog.trans hl, herr ▸ hafter⟩

/-- One operation of the log, whose error is counted. -/
lemma Erred.op {l l' : Log} (h : s.Erred file) (hl : s.log = some l)
    (hnext : l'.fails = l.next.fails) (hlog : t.log = some l')
    (herr : t.stats.walErrors = s.stats.walErrors + (l.fails 0).toNat) : t.Erred file := by
  cases file with
  | none => exact absurd (hl.symm.trans h.1) (Option.some_ne_none l)
  | some fails =>
      obtain ⟨l₀, hl₀, hafter⟩ := h
      obtain rfl := Option.some_inj.mp (hl.symm.trans hl₀)
      exact ⟨l', hlog, herr ▸ hafter.next hnext⟩

lemma Erred.record (h : s.Erred file) (r : Record) (b : Bool) : (s.record r b).Erred file := by
  unfold Agg.record
  split
  · exact h
  · rename_i l hl
    have hfst := l.append_fst r
    dsimp only
    split
    · -- the record is in the log, and the sync is the operation whose error counts
      rename_i hsync
      have happ : ({ s with log := some (l.append r).2 } : Agg).Erred file := by
        refine h.op hl (l.append_fails r) rfl ?_
        rw [Bool.and_eq_true, Bool.not_eq_true'] at hsync
        rw [← hfst, hsync.1]
        rfl
      refine happ.op rfl (Log.sync_fails _) rfl ?_
      rw [AggStats.walError_walErrors, Log.sync_fst]
    · refine h.op hl (l.append_fails r) rfl ?_
      rw [AggStats.walError_walErrors, hfst]

lemma Erred.reply (h : s.Erred file) (c : Option ConnID) (id : UInt64) (v : Partial) :
    (s.reply c id v).Erred file :=
  h.congr (s.reply_log c id v) (by cases c <;> rfl)

lemma detach_stats (s : Agg) (j : Job) : (s.detach j).1.stats = s.stats := by
  unfold detach
  split <;> rfl

lemma Erred.detach (h : s.Erred file) (j : Job) : (s.detach j).1.Erred file :=
  h.congr (s.detach_log j) (by rw [detach_stats])

lemma Erred.finish (h : s.Erred file) (j : Job) (completed : Bool) (now : Time) :
    (s.finish j completed now).Erred file := by
  have hrem : (s.remove j).Erred file := (h.detach j).congr rfl rfl
  cases completed with
  | true =>
      have hres : ({ s.remove j with
          results := (s.remove j).results.insert j.spec.id ⟨j.acc, now⟩ } : Agg).Erred file :=
        hrem.congr rfl rfl
      exact (hres.record (.jobDone ⟨j.spec.id, j.acc.hash, j.acc.nonce⟩) true).congr rfl rfl
  | false => exact (hrem.record (.jobDrop ⟨j.spec.id⟩) false).congr rfl rfl

lemma Erred.settle (h : s.Erred file) (id : UInt64) (j : Job) (now : Time) :
    (s.settle id j now).Erred file := by
  unfold Agg.settle
  split_ifs
  · exact (h.reply j.client id j.acc).finish j true now
  · exact h

lemma Erred.attach (h : s.Erred file) (c : ConnID) (id : UInt64) (j : Job) (hDone : Bool)
    (now : Time) : (s.attach c id j hDone now).1.Erred file :=
  h.congr (s.attach_log c id j hDone now) (by cases hDone <;> rfl)

lemma Erred.startJob (h : s.Erred file) (wl : Workload) (spec : JobSpec) (now : Time) :
    (s.startJob wl spec now).1.Erred file := by
  have hins : ({ s with
      jobs := s.jobs.insert spec.id (freshJob wl spec s.nextCancel now)
      nextCancel := s.nextCancel + 1 } : Agg).Erred file := h.congr rfl rfl
  exact (hins.record (.jobStart spec.start) true).congr rfl rfl

lemma Erred.submit (h : s.Erred file) (wl : Workload) (c : ConnID) (spec : JobSpec)
    (hDone : Bool) (now : Time) : (s.submit wl c spec hDone now).1.Erred file := by
  cases hr : s.results.lookup spec.id with
  | some f =>
      refine (h.reply (some c) spec.id f.result).congr ?_ ?_
      · simp only [Agg.submit, hr]
      · simp only [Agg.submit, hr]
  | none =>
      cases hj : s.jobs.lookup spec.id with
      | some j =>
          rw [s.submit_running hr hj]
          have hre : (s.rejoin j).1.Erred file := (h.detach j).congr rfl rfl
          exact (hre.attach _ _ _ _ _).settle _ _ _
      | none =>
          rw [s.submit_fresh hr hj]
          exact ((h.startJob wl spec now).attach _ _ _ _ _).settle _ _ _

lemma Erred.result (h : s.Erred file) (wl : Workload) (r : ChunkResult) (now : Time) :
    (s.result wl r now).Erred file := by
  rcases s.result_cases wl r now with ⟨j, -, -, -, he⟩ | ⟨-, dup, he⟩
  · rw [he, count_eq]
    have hins : ({ s with
        done := insert r.id s.done
        jobs := s.jobs.insert r.id.job (countJob wl j r.value)
        stats := { s.stats with merged := s.stats.merged + 1 } } : Agg).Erred file :=
      h.congr rfl rfl
    have hrec := hins.record (.chunkDone ⟨r.id.job, r.id.idx, r.hash, r.nonce⟩) false
    have hcounted : (s.counted wl j r).Erred file := hrec.congr rfl rfl
    exact hcounted.settle _ _ _
  · rw [he]
    exact h.congr (s.discard_log r dup) (by cases dup <;> rfl)

lemma Erred.clientGone (h : s.Erred file) (conn : ConnID) (now : Time) :
    (s.clientGone conn now).Erred file := by
  refine h.congr (s.clientGone_log conn now) ?_
  unfold Agg.clientGone
  dsimp only
  split
  · split_ifs
    · dsimp only
      rw [detach_stats]
    · rfl
  · rfl

lemma Erred.dropOrphan (h : s.Erred file) (p : Params) (now : Time) (id : UInt64) :
    (s.dropOrphan p now id).Erred file := by
  rcases s.dropOrphan_cases p now id with ⟨j, -, -, he⟩ | he
  · rw [he]
    exact h.finish j false now
  · rw [he]
    exact h

lemma Erred.expire (h : s.Erred file) (p : Params) (now : Time) (id : UInt64) :
    (s.expire p now id).Erred file := by
  rcases s.expire_cases p now id with ⟨f, -, he⟩ | he
  · rw [he]
    have hres : ({ s with results := s.results.erase id } : Agg).Erred file := h.congr rfl rfl
    exact hres.record _ _
  · rw [he]
    exact h

lemma Erred.compactIdle (h : s.Erred file) (ord : RangeOrder UInt64) :
    (s.compactIdle ord).Erred file := by
  unfold Agg.compactIdle
  split
  · exact h
  · rename_i l hl
    split_ifs
    · refine h.op hl (l.rewrite_fails _) rfl ?_
      rw [AggStats.walError_walErrors, Log.rewrite_fst]
    · exact h

lemma Erred.syncDirty (h : s.Erred file) : s.syncDirty.Erred file := by
  unfold Agg.syncDirty
  split
  · exact h
  · rename_i l hl
    split_ifs
    · refine h.op hl l.sync_fails rfl ?_
      rw [AggStats.walError_walErrors, Log.sync_fst]
    · exact h

lemma Erred.step (h : s.Erred file) (wl : Workload) (p : Params) (e : Event) :
    (s.step wl p e).Erred file := by
  cases e with
  | submit c spec hDone now => exact h.submit wl c spec hDone now
  | result r now => exact h.result wl r now
  | clientGone conn now => exact h.clientGone conn now
  | tick now ords =>
      have hdropped := (ords.jobs.range s.jobs).foldlRecOn (motive := Erred file) _ h
        fun s hs id _ => hs.dropOrphan p now id
      have hexpired := (ords.results.range
          ((ords.jobs.range s.jobs).foldl (Agg.dropOrphan p now) s).results).foldlRecOn
        (motive := Erred file) _ hdropped fun s hs id _ => hs.expire p now id
      exact (hexpired.compactIdle ords.snapshot).syncDirty

end Agg

/-! ## The worker loops -/

namespace Worker

variable {p : Params} {q q' : Queues} {w w' : Worker} {chunks : List Chunk}

/-- The number of results the loop has accepted and not yet handed to the aggregator. -/
def held (w : Worker) : ℕ :=
  match w.phase with
  | .holding _ => 1
  | _ => 0

/-- The number of results the loop has accepted. -/
def accepted (w : Worker) : ℕ := w.stats.results

end Worker

/-! ## The system -/

/-- The aggregator takes a request. -/
def Action.isSubmit : Action → Bool
  | .submit _ _ => true
  | _ => false

namespace Sys

variable {wl : Workload} {p : Params} {s t : Sys} {a : Action} {m : ℕ}

/-- After `m` requests: the aggregator has counted as many results as the loops have accepted and
do not hold any more. -/
def Booked (m : ℕ) (s : Sys) : Prop :=
  ∃ n, s.agg.Counted m n ∧
    n + GoMap.total Worker.held s.loops = GoMap.total Worker.accepted s.loops

/-- A step that changes neither the aggregator nor what the loops have accepted and hold. -/
lemma Booked.congr (hs : s.Booked m) (hagg : t.agg = s.agg)
    (hheld : GoMap.total Worker.held t.loops = GoMap.total Worker.held s.loops)
    (hacc : GoMap.total Worker.accepted t.loops = GoMap.total Worker.accepted s.loops) :
    t.Booked m := by
  unfold Booked
  rw [hagg, hheld, hacc]
  exact hs

/-- An event that is neither a request nor a result. -/
lemma Booked.event (hs : s.Booked m) (wl : Workload) (p : Params) (hok : s.agg.Ok) (e : Event)
    (hsub : e.isSubmit = false) (hres : e.isResult = false) (hagg : t.agg = s.agg.step wl p e)
    (hloops : t.loops = s.loops) : t.Booked m := by
  obtain ⟨n, hn, hsum⟩ := hs
  have hstep := hn.step hok wl p e
  rw [hsub, hres] at hstep
  unfold Booked
  rw [hagg, hloops]
  exact ⟨n, hstep, hsum⟩

end Sys

/-! ## Where a run starts -/

variable {wl : Workload} {now : Time} {ords : RecoverOrders}
  {file : Option (List Record × (ℕ → Bool))} {boot : Recovered}

end RudpScheduler
