import RudpScheduler.Properties.AggregatorInvariant
import RudpScheduler.Properties.Partition

/-!
# End-to-end exactly-once

A scheduler started without a log counts every chunk of a job exactly once before it completes
the job, and every answer it writes is the answer for the whole range.  What is assumed of the
outside is `Honest`: the specs submitted are the ones `clientHandler` computes, requests with
equal job ID carry equal contents, and a result is the answer for a task some feeder produced.
Results may be repeated, reordered and left over from an earlier instance of the job.

Two invariants carry the argument.  `Values` says what the tables hold: `acc` is the `Merge`
over the counted indices of the answers for these chunks.  `Trace` says what the outside has
seen: a running instance has merged exactly its `done` entries, its `acc` is what these merges
amount to, one after the other, and an instance that has ended merges nothing any more.
-/

namespace RudpScheduler

/-- Some submit among the events carries the spec. -/
def Submitted (es : List Event) (spec : JobSpec) : Prop :=
  ∃ h hDone now, Event.submit h spec hDone now ∈ es

/-- What exactly-once assumes of the events. -/
structure Honest (wl : Workload) (p : Params) (es : List Event) : Prop where
  /-- Specs are computed by `clientHandler` from a request. -/
  submit : ∀ spec, Submitted es spec → ∃ req, spec = JobSpec.ofRequest p.chunkSize req
  /-- Requests with equal job ID carry equal contents. -/
  same : ∀ spec spec', Submitted es spec → Submitted es spec' → spec.id = spec'.id →
    spec.msg = spec'.msg ∧ spec.lo = spec'.lo ∧ spec.hi = spec'.hi
  /-- A result is the answer for a task a feeder produced. -/
  result : ∀ r now, Event.result r now ∈ es →
    ∃ spec skip, Submitted es spec ∧ ∃ t ∈ spec.feed skip, r = wl.answer t.chunk

variable {wl : Workload} {p : Params} {es : List Event}

/-- A job ID determines the spec. -/
lemma Honest.spec_eq (hon : Honest wl p es) {spec spec' : JobSpec} (h : Submitted es spec)
    (h' : Submitted es spec') (hid : spec.id = spec'.id) : spec = spec' := by
  obtain ⟨hm, hl, hh⟩ := hon.same spec spec' h h' hid
  obtain ⟨req, rfl⟩ := hon.submit spec h
  obtain ⟨req', rfl⟩ := hon.submit spec' h'
  obtain ⟨job, lo, hi, msg⟩ := req
  obtain ⟨job', lo', hi', msg'⟩ := req'
  simp only [JobSpec.ofRequest] at hm hl hh hid ⊢
  rw [hm, hl, hh, hid]

/-- A result for an index of a submitted spec is the answer for that chunk. -/
lemma Honest.result_value (hon : Honest wl p es) {r : ChunkResult} {now : Time}
    (hr : Event.result r now ∈ es) {spec : JobSpec} (h : Submitted es spec)
    (hid : spec.id = r.id.job) : r.value = spec.chunkAnswer wl r.id.idx := by
  obtain ⟨spec', skip, h', t, ht, rfl⟩ := hon.result r now hr
  obtain ⟨i, -, -, rfl⟩ := JobSpec.mem_feed.mp ht
  rw [hon.spec_eq h h' hid]
  rfl

lemma Honest.cut (hon : Honest wl p es) {spec : JobSpec} (h : Submitted es spec) : spec.Cut := by
  obtain ⟨req, rfl⟩ := hon.submit spec h
  exact JobSpec.ofRequest_cut p.chunkSize_pos req

/-! ## What the tables hold -/

/-- The accumulators and the stored answers are what the counted chunks amount to. -/
structure Values (hwl : wl.Contract) (es : List Event) (t : Tables) : Prop where
  spec : ∀ id j, t.jobs.lookup id = some j → Submitted es j.spec
  acc : ∀ id j, t.jobs.lookup id = some j →
    j.acc = hwl.mergeOver (j.spec.chunkAnswer wl) (t.countedIdx id)
  answer : ∀ id f, t.results.lookup id = some f →
    ∃ spec, Submitted es spec ∧ spec.id = id ∧ f.result = wl.compute spec.msg spec.lo spec.hi

variable {hwl : wl.Contract} {t : Tables}

/-- A job with nothing left to wait for has computed the answer for its range. -/
lemma Values.acc_of_remaining_zero (hv : Values hwl es t) (hon : Honest wl p es) (hok : t.Ok)
    {id : UInt64} {j : Job} (hj : t.jobs.lookup id = some j) (h0 : j.remaining = 0) :
    j.acc = wl.compute j.spec.msg j.spec.lo j.spec.hi := by
  rw [hv.acc id j hj, hok.countedIdx_eq_of_remaining_zero hj h0,
    JobSpec.fold_chunks hwl (hon.cut (hv.spec id j hj))]

/-- A change of one job that keeps `done`. -/
lemma Values.insert_job (hv : Values hwl es t) {id : UInt64} {j : Job} (hs : Submitted es j.spec)
    (ha : j.acc = hwl.mergeOver (j.spec.chunkAnswer wl) (t.countedIdx id))
    (byConn : GoMap ConnID UInt64) (n : ℕ) :
    Values hwl es { t with jobs := t.jobs.insert id j, byConn := byConn, nextCancel := n } where
  spec := GoMap.forall_insert hv.spec hs
  acc := GoMap.forall_insert hv.acc ha
  answer := hv.answer

/-- A counted result. -/
lemma Values.count (hv : Values hwl es t) {x : TaskID} {j : Job} {v : Partial}
    (hj : t.jobs.lookup x.job = some j) (hd : x ∉ t.done)
    (hval : v = j.spec.chunkAnswer wl x.idx) :
    Values hwl es { t with
      done := insert x t.done
      jobs := t.jobs.insert x.job (Agg.countJob wl j v) } where
  spec := GoMap.forall_insert hv.spec (hv.spec _ j hj)
  acc id k hl := by
    change _ = hwl.mergeOver _ (({ t with done := insert x t.done } : Tables).countedIdx id)
    rw [GoMap.lookup_insert_ite] at hl
    rw [Tables.countedIdx_insert]
    split_ifs at hl ⊢ with hid
    · rw [← Option.some_inj.mp hl, hid,
        hwl.mergeOver_insert _ (Tables.mem_countedIdx.not.mpr hd)]
      change wl.merge j.acc v = _
      rw [hv.acc _ j hj, hval]
      rfl
    · exact hv.acc id k hl
  answer := hv.answer

/-- A finished job; if it completed, its accumulator is the answer that is stored. -/
lemma Values.finish (hv : Values hwl es t) {id : UInt64} {j : Job}
    (hj : t.jobs.lookup id = some j) (completed : Bool) (now : Time)
    (ha : completed = true → j.acc = wl.compute j.spec.msg j.spec.lo j.spec.hi) :
    Values hwl es (Agg.finishTables t j completed now) where
  spec id' k hl := hv.spec id' k (Tables.lookup_finishTables.mp hl).2
  acc id' k hl := by
    obtain ⟨hne, hl'⟩ := Tables.lookup_finishTables.mp hl
    rw [Tables.countedIdx_finishTables completed now hne]
    exact hv.acc id' k hl'
  answer id' f hf := by
    cases completed with
    | false => exact hv.answer id' f hf
    | true =>
        simp only [Agg.finishTables, if_true, GoMap.lookup_insert_ite] at hf
        split_ifs at hf with hid
        · rw [← Option.some_inj.mp hf]
          exact ⟨j.spec, hv.spec id j hj, hid.symm, ha rfl⟩
        · exact hv.answer id' f hf

/-- Every change keeps the values right. -/
lemma Agg.Change.values {e : Event} {a b : Agg.Seen} (h : Agg.Change wl e a b)
    (hon : Honest wl p es) (he : e ∈ es) (hok : a.1.Ok) (hv : Values hwl es a.1) :
    Values hwl es b.1 := by
  cases h with
  | answer => exact hv
  | @start t o h spec hDone now hr hj =>
      refine hv.insert_job (by simpa [freshJob] using ⟨h, hDone, now, he⟩) ?_ _ _
      rw [hok.countedIdx_eq_empty hj]
      simp [freshJob]
  | rejoin hr hj =>
      exact hv.insert_job (by simpa using hv.spec _ _ hj) (by simpa using hv.acc _ _ hj) _ _
  | count hj hi hd =>
      exact hv.count hj hd (hon.result_value he (hv.spec _ _ hj) (hok.spec_id _ _ hj))
  | discard => exact hv
  | complete hj h0 =>
      exact hv.finish hj true _ fun _ => hv.acc_of_remaining_zero hon hok hj h0
  | @orphan t o conn now j hj =>
      have hs : Submitted es ({ j with client := none, orphanedAt := some now } : Job).spec :=
        hv.spec _ j hj
      exact hv.insert_job hs (hv.acc _ j hj) _ _
  | forget => exact { hv with }
  | drop hj => exact hv.finish hj false _ (by simp)
  | expire => exact { hv with answer := GoMap.forall_erase hv.answer _ }

/-! ## What the outside has seen -/

/-- `m` is the answer to a submitted job. -/
def Answers (wl : Workload) (es : List Event) (m : Result) : Prop :=
  ∃ spec, Submitted es spec ∧ spec.id = m.job ∧ m.value = wl.compute spec.msg spec.lo spec.hi

/-- The tasks instance `k` has merged, in order. -/
def mergedBy (k : ℕ) (o : List Output) : List TaskID :=
  o.filterMap fun
    | .merged k' x => if k' = k then some x else none
    | _ => none

/-- What `acc` is after the answers for the tasks `xs` were merged into it, one after the other. -/
def JobSpec.mergeAll (wl : Workload) (spec : JobSpec) (xs : List TaskID) : Partial :=
  xs.foldl (fun acc x => wl.merge acc (spec.chunkAnswer wl x.idx)) wl.zero

/-- Instance `k` of job `id`, completed between `pre` and `post`, merged each of its tasks once
before its completion and none after it; and these merges amount to the answer for the whole
range. -/
def MergedOnce (wl : Workload) (es : List Event) (k : ℕ) (id : UInt64) (pre post : List Output) :
    Prop :=
  ∃ spec, Submitted es spec ∧ spec.id = id ∧
    (∀ i < spec.n, pre.count (.merged k ⟨id, i⟩) = 1 ∧ post.count (.merged k ⟨id, i⟩) = 0) ∧
    spec.mergeAll wl (mergedBy k pre) = wl.compute spec.msg spec.lo spec.hi

/-- What the outside has seen, related to the tables. -/
structure Trace (wl : Workload) (es : List Event) (t : Tables) (o : List Output) : Prop where
  running : ∀ id j, t.jobs.lookup id = some j → ∀ x : TaskID,
    o.count (.merged j.cancel x) = if x.job = id ∧ x ∈ t.done then 1 else 0
  acc : ∀ id j, t.jobs.lookup id = some j → j.acc = j.spec.mergeAll wl (mergedBy j.cancel o)
  merged_lt : ∀ k x, Output.merged k x ∈ o → k < t.nextCancel
  ended : ∀ k id b, Output.jobEnd k id b ∈ o → k ∈ t.closed
  completed : ∀ pre post k id, o = pre ++ Output.jobEnd k id true :: post →
    MergedOnce wl es k id pre post
  wrote : ∀ h m, Output.wrote h m ∈ o → Answers wl es m

lemma concat_eq_append_cons {α : Type*} {l pre post : List α} {x y : α}
    (h : l ++ [x] = pre ++ y :: post) :
    (l = pre ∧ x = y ∧ post = []) ∨ ∃ post', post = post' ++ [x] ∧ l = pre ++ y :: post' := by
  rcases List.eq_nil_or_concat post with rfl | ⟨post', z, rfl⟩
  · obtain ⟨h1, h2⟩ := List.append_inj' h rfl
    exact Or.inl ⟨h1, List.singleton_inj.mp h2, rfl⟩
  · have h' : l ++ [x] = (pre ++ y :: post') ++ [z] := by simpa using h
    obtain ⟨h1, h2⟩ := List.append_inj' h' rfl
    exact Or.inr ⟨post', by rw [List.singleton_inj.mp h2, List.concat_eq_append], h1⟩

variable {o : List Output}

lemma mergedBy_append (k : ℕ) (o : List Output) {x : Output} (hx : ∀ y, x ≠ .merged k y) :
    mergedBy k (o ++ [x]) = mergedBy k o := by
  rw [mergedBy, mergedBy, List.filterMap_append]
  cases x with
  | merged k' y =>
      have hk : k' ≠ k := fun he => hx y (by rw [he])
      simp [hk]
  | _ => simp

/-- What an output must satisfy to keep the completed instances as they are. -/
lemma Trace.completed_concat (ht : Trace wl es t o) {x : Output}
    (hm : ∀ k y, x = .merged k y → k ∉ t.closed)
    (hx : ∀ k id, x = .jobEnd k id true → MergedOnce wl es k id o []) :
    ∀ pre post k id, o ++ [x] = pre ++ Output.jobEnd k id true :: post →
      MergedOnce wl es k id pre post := by
  intro pre post k id heq
  rcases concat_eq_append_cons heq with ⟨rfl, hxe, rfl⟩ | ⟨post', rfl, ho⟩
  · exact hx k id hxe
  · obtain ⟨spec, hs, hid, hcount, hacc⟩ := ht.completed pre post' k id ho
    refine ⟨spec, hs, hid, fun i hi => ⟨(hcount i hi).1, ?_⟩, hacc⟩
    rw [List.count_append, (hcount i hi).2, List.count_singleton, zero_add]
    -- the instance has ended, so its cancel channel is closed
    have hk : k ∈ t.closed := ht.ended k id true (by rw [ho]; simp)
    rw [if_neg fun hxe => hm k _ (beq_iff_eq.mp hxe) hk]

/-- A message to a client, or a discarded result. -/
lemma Trace.emit (ht : Trace wl es t o) {x : Output} (hm : ∀ k y, x ≠ .merged k y)
    (hj : ∀ k id b, x ≠ .jobEnd k id b) (hw : ∀ h m, x = .wrote h m → Answers wl es m) :
    Trace wl es t (o ++ [x]) where
  running id j hl y := by
    rw [List.count_append, ht.running id j hl, List.count_singleton,
      if_neg fun he => hm _ _ (beq_iff_eq.mp he), add_zero]
  acc id j hl := by
    rw [mergedBy_append _ _ fun y => hm _ y]
    exact ht.acc id j hl
  merged_lt k y hy := by
    rcases List.mem_append.mp hy with hy | hy
    · exact ht.merged_lt k y hy
    · exact absurd (List.mem_singleton.mp hy).symm (hm k y)
  ended k id b hy := by
    rcases List.mem_append.mp hy with hy | hy
    · exact ht.ended k id b hy
    · exact absurd (List.mem_singleton.mp hy).symm (hj k id b)
  completed := ht.completed_concat (fun k y he => absurd he (hm k y))
    fun k id he => absurd he (hj k id true)
  wrote h m hy := by
    rcases List.mem_append.mp hy with hy | hy
    · exact ht.wrote h m hy
    · exact hw h m (List.mem_singleton.mp hy).symm

/-- A change of one job that keeps `done`. -/
lemma Trace.insert_job (ht : Trace wl es t o) {id : UInt64} {j : Job}
    (hm : ∀ x : TaskID, o.count (.merged j.cancel x) = if x.job = id ∧ x ∈ t.done then 1 else 0)
    (ha : j.acc = j.spec.mergeAll wl (mergedBy j.cancel o))
    (byConn : GoMap ConnID UInt64) {n : ℕ} (hn : t.nextCancel ≤ n) :
    Trace wl es { t with jobs := t.jobs.insert id j, byConn := byConn, nextCancel := n } o :=
  { ht with
    running := GoMap.forall_insert ht.running hm
    acc := GoMap.forall_insert ht.acc ha
    merged_lt := fun k x hx => lt_of_lt_of_le (ht.merged_lt k x hx) hn }

/-- A counted result. -/
lemma Trace.count (ht : Trace wl es t o) (hok : t.Ok) {x : TaskID} {j : Job} {v : Partial}
    (hj : t.jobs.lookup x.job = some j) (hd : x ∉ t.done)
    (hval : v = j.spec.chunkAnswer wl x.idx) :
    Trace wl es { t with
      done := insert x t.done
      jobs := t.jobs.insert x.job (Agg.countJob wl j v) } (o ++ [Output.merged j.cancel x]) where
  running id k hl y := by
    rw [GoMap.lookup_insert_ite] at hl
    simp only [List.count_append, List.count_singleton, Finset.mem_insert]
    split_ifs at hl with hid
    · -- the instance that merges: only the count of `x` moves
      rw [← Option.some_inj.mp hl, hid]
      change o.count (.merged j.cancel y) + _ = _
      rw [ht.running _ j hj]
      by_cases hy : y = x
      · subst hy
        simp [hd, Agg.countJob]
      · have hyx : ¬ x = y := fun he => hy he.symm
        simp [hy, hyx]
    · rw [ht.running id k hl]
      have hc : j.cancel ≠ k.cancel := fun hc => hid (hok.cancel_inj _ _ _ _ hj hl hc).symm
      have hy : y.job = id → y ≠ x := by rintro rfl rfl; exact hid rfl
      by_cases hyi : y.job = id <;> simp [hyi, hc, hy]
  acc id k hl := by
    rw [GoMap.lookup_insert_ite] at hl
    split_ifs at hl with hid
    · rw [← Option.some_inj.mp hl]
      have hone : mergedBy j.cancel (o ++ [.merged j.cancel x]) = mergedBy j.cancel o ++ [x] := by
        simp [mergedBy]
      change wl.merge j.acc v = j.spec.mergeAll wl (mergedBy j.cancel (o ++ [.merged j.cancel x]))
      rw [hone, JobSpec.mergeAll, List.foldl_append, ht.acc _ j hj, hval]
      rfl
    · have hc : j.cancel ≠ k.cancel := fun hc => hid (hok.cancel_inj _ _ _ _ hj hl hc).symm
      rw [mergedBy_append _ _ fun y he => hc (Output.merged.inj he).1]
      exact ht.acc id k hl
  merged_lt k y hy := by
    rcases List.mem_append.mp hy with hy | hy
    · exact ht.merged_lt k y hy
    · obtain ⟨rfl, rfl⟩ := Output.merged.inj (List.mem_singleton.mp hy)
      exact hok.cancel_lt _ j hj
  ended k id b hy := by
    rcases List.mem_append.mp hy with hy | hy
    · exact ht.ended k id b hy
    · cases List.mem_singleton.mp hy
  completed := ht.completed_concat
    (fun k y he => by
      obtain ⟨rfl, rfl⟩ := Output.merged.inj he
      exact hok.cancel_open _ j hj)
    fun k id he => by cases he
  wrote h m hy := by
    rcases List.mem_append.mp hy with hy | hy
    · exact ht.wrote h m hy
    · cases List.mem_singleton.mp hy

/-- A finished job; a completed one has counted all its tasks. -/
lemma Trace.finish (ht : Trace wl es t o) (hok : t.Ok) {id : UInt64} {j : Job}
    (hj : t.jobs.lookup id = some j) (completed : Bool) (now : Time)
    (hc : completed = true → Submitted es j.spec ∧ j.remaining = 0 ∧
      j.acc = wl.compute j.spec.msg j.spec.lo j.spec.hi) :
    Trace wl es (Agg.finishTables t j completed now)
      (o ++ [Output.jobEnd j.cancel j.spec.id completed]) where
  running id' k hl y := by
    obtain ⟨hne, hl'⟩ := Tables.lookup_finishTables.mp hl
    rw [List.count_append, ht.running id' k hl', List.count_singleton]
    by_cases hy : y.job = id'
    · simp [Agg.finishTables, hy, hne]
    · simp [hy]
  acc id' k hl := by
    obtain ⟨-, hl'⟩ := Tables.lookup_finishTables.mp hl
    rw [mergedBy_append _ _ (by simp)]
    exact ht.acc id' k hl'
  merged_lt k y hy := by
    rcases List.mem_append.mp hy with hy | hy
    · exact ht.merged_lt k y hy
    · cases List.mem_singleton.mp hy
  ended k id' b hy := by
    rcases List.mem_append.mp hy with hy | hy
    · exact List.mem_append_left _ (ht.ended k id' b hy)
    · obtain ⟨rfl, -, -⟩ := Output.jobEnd.inj (List.mem_singleton.mp hy)
      exact List.mem_append_right _ (List.mem_singleton_self _)
  completed := by
    refine ht.completed_concat (fun k y he => by cases he) fun k id' he => ?_
    obtain ⟨rfl, rfl, rfl⟩ := Output.jobEnd.inj he
    obtain ⟨hs, h0, ha⟩ := hc rfl
    refine ⟨j.spec, hs, rfl, fun i hi => ⟨?_, rfl⟩, (ht.acc id j hj).symm.trans ha⟩
    have hid := hok.spec_id id j hj
    have hmem : i ∈ t.countedIdx id := by
      rw [hok.countedIdx_eq_of_remaining_zero hj h0]
      exact mem_indicesBelow.mpr hi
    rw [ht.running id j hj, hid, if_pos ⟨rfl, Tables.mem_countedIdx.mp hmem⟩]
  wrote h m hy := by
    rcases List.mem_append.mp hy with hy | hy
    · exact ht.wrote h m hy
    · cases List.mem_singleton.mp hy

/-- Every change keeps the trace right. -/
lemma Agg.Change.trace {e : Event} {a b : Agg.Seen} (h : Agg.Change wl e a b)
    (hon : Honest wl p es) (he : e ∈ es) (hok : a.1.Ok) (hv : Values hwl es a.1)
    (ht : Trace wl es a.1 a.2) : Trace wl es b.1 b.2 := by
  cases h with
  | answer hf =>
      refine ht.emit (by simp) (by simp) ?_
      rintro h m ⟨rfl, rfl⟩
      exact hv.answer _ _ hf
  | @start t o h spec hDone now hr hj =>
      -- the cancel channel is new, so nothing has been merged under it
      have hnew : ∀ x, Output.merged t.nextCancel x ∉ o := fun x hx =>
        lt_irrefl _ (ht.merged_lt _ _ hx)
      have hnone : mergedBy t.nextCancel o = [] :=
        List.filterMap_eq_nil_iff.mpr fun y hy => by
          cases y with
          | merged k x =>
              have hk : k ≠ t.nextCancel := fun hk => hnew x (hk ▸ hy)
              exact if_neg hk
          | _ => rfl
      refine ht.insert_job (fun x => ?_) (by simp [freshJob, hnone, JobSpec.mergeAll]) _
        (Nat.le_succ _)
      have hdone : ¬ (x.job = spec.id ∧ x ∈ t.done) := by
        rintro ⟨hx, hd⟩
        exact hok.notMem_done hj x.idx (hx ▸ hd)
      rw [if_neg hdone]
      simpa [freshJob] using List.count_eq_zero.mpr (hnew x)
  | rejoin hr hj =>
      exact ht.insert_job (by simpa using ht.running _ _ hj) (by simpa using ht.acc _ _ hj) _ le_rfl
  | count hj hi hd =>
      exact ht.count hok hj hd (hon.result_value he (hv.spec _ _ hj) (hok.spec_id _ _ hj))
  | discard => exact ht.emit (by simp) (by simp) (by simp)
  | @complete t o e id j now hj h0 =>
      have hs := hv.spec id j hj
      have hreply : Trace wl es t (o ++ Agg.replyOut j.client id j.acc) := by
        unfold Agg.replyOut
        split
        · refine ht.emit (by simp) (by simp) ?_
          rintro h m ⟨rfl, rfl⟩
          exact ⟨j.spec, hs, hok.spec_id id j hj, hv.acc_of_remaining_zero hon hok hj h0⟩
        · rwa [List.append_nil]
      exact hreply.finish hok hj true now fun _ => ⟨hs, h0, hv.acc_of_remaining_zero hon hok hj h0⟩
  | @orphan t o conn now j hj =>
      refine ht.insert_job (fun x => ?_) ?_ _ le_rfl
      · exact ht.running _ j hj x
      · exact ht.acc _ j hj
  | forget => exact { ht with }
  | drop hj => exact ht.finish hok hj false _ (by simp)
  | expire => exact { ht with }

/-! ## The run -/

/-- The two invariants, with the representation invariant they rest on. -/
def Exact (hwl : wl.Contract) (es : List Event) (a : Agg.Seen) : Prop :=
  a.1.Ok ∧ Values hwl es a.1 ∧ Trace wl es a.1 a.2

lemma exact_empty : Exact hwl es Agg.empty.seen := by
  refine ⟨Tables.ok_empty, ⟨?_, ?_, ?_⟩, ⟨?_, ?_, ?_, ?_, ?_, ?_⟩⟩ <;> simp [Agg.seen, Agg.empty]

lemma Exact.step (hon : Honest wl p es) {s : Agg} (hs : Exact hwl es s.seen) {e : Event}
    (he : e ∈ es) : Exact hwl es (s.step wl p e).seen :=
  Agg.step_induction (fun _ _ ⟨hok, hv, ht⟩ hc =>
    ⟨hc.ok hok, hc.values hon he hok hv, hc.trace hon he hok hv ht⟩) hs

/-- The invariants hold after every run. -/
lemma exact_run (hwl : wl.Contract) (hon : Honest wl p es) :
    Exact hwl es (es.foldl (Agg.step wl p) Agg.empty).seen :=
  es.foldlRecOn (motive := fun s => Exact hwl es s.seen) (Agg.step wl p) exact_empty
    fun _ hs _ he => hs.step hon he

/-- **End-to-end exactly-once.**  Whatever the events of a scheduler started without a log: an
instance of a job that completes has merged each of its tasks exactly once by then and merges
none afterwards; the `acc` of a running job is the `Merge` of the answers for the tasks its instance
has merged, one after the other; and every `Result` written is the answer for the whole range of its
job. -/
theorem exactly_once (hwl : wl.Contract) (hon : Honest wl p es) :
    (∀ pre post k id, (es.foldl (Agg.step wl p) Agg.empty).out =
        pre ++ Output.jobEnd k id true :: post → MergedOnce wl es k id pre post) ∧
      (∀ id j, (es.foldl (Agg.step wl p) Agg.empty).jobs.lookup id = some j →
        j.acc = j.spec.mergeAll wl
          (mergedBy j.cancel (es.foldl (Agg.step wl p) Agg.empty).out)) ∧
      ∀ h m, Output.wrote h m ∈ (es.foldl (Agg.step wl p) Agg.empty).out → Answers wl es m := by
  obtain ⟨-, -, ht⟩ := exact_run hwl hon
  exact ⟨ht.completed, ht.acc, ht.wrote⟩

/-- A run with two chunks, a result delivered twice and a second client that asks for the same
job while it is running. -/
def twoChunkRun : List Event :=
  let req : Request := ⟨7, 0, 15000, []⟩
  let spec := JobSpec.ofRequest Params.default.chunkSize req
  let r (i : UInt32) := Workload.largest.answer (spec.task i).chunk
  [.submit 1 spec false 0, .result (r 1) 1, .result (r 1) 2, .submit 2 spec false 3,
    .clientGone 1 4, .result (r 0) 5]

lemma twoChunkRun_honest : Honest Workload.largest Params.default twoChunkRun where
  submit spec h := by
    obtain ⟨h, hDone, now, hm⟩ := h
    simp only [twoChunkRun, List.mem_cons, Event.submit.injEq, reduceCtorEq, List.not_mem_nil,
      or_false, false_or] at hm
    exact ⟨⟨7, 0, 15000, []⟩, by rcases hm with ⟨-, rfl, -⟩ | ⟨-, rfl, -⟩ <;> rfl⟩
  same spec spec' h h' _ := by
    obtain ⟨h, hDone, now, hm⟩ := h
    obtain ⟨h', hDone', now', hm'⟩ := h'
    simp only [twoChunkRun, List.mem_cons, Event.submit.injEq, reduceCtorEq, List.not_mem_nil,
      or_false, false_or] at hm hm'
    rcases hm with ⟨-, rfl, -⟩ | ⟨-, rfl, -⟩ <;> rcases hm' with ⟨-, rfl, -⟩ | ⟨-, rfl, -⟩ <;>
      exact ⟨rfl, rfl, rfl⟩
  result r now h := by
    refine ⟨JobSpec.ofRequest Params.default.chunkSize ⟨7, 0, 15000, []⟩, ∅,
      ⟨1, false, 0, by simp [twoChunkRun]⟩, ?_⟩
    simp only [twoChunkRun, List.mem_cons, Event.result.injEq, reduceCtorEq, List.not_mem_nil,
      or_false, false_or] at h
    rcases h with ⟨rfl, -⟩ | ⟨rfl, -⟩ | ⟨rfl, -⟩
    · exact ⟨_, JobSpec.mem_feed.mpr ⟨1, by decide, by simp, rfl⟩, rfl⟩
    · exact ⟨_, JobSpec.mem_feed.mpr ⟨1, by decide, by simp, rfl⟩, rfl⟩
    · exact ⟨_, JobSpec.mem_feed.mpr ⟨0, by decide, by simp, rfl⟩, rfl⟩

theorem exactly_once_twoChunkRun :
    (twoChunkRun.foldl (Agg.step Workload.largest Params.default) Agg.empty).out =
        [.merged 0 ⟨7, 1⟩, .discarded ⟨7, 1⟩ true, .merged 0 ⟨7, 0⟩, .wrote 2 ⟨7, 15000, 0⟩,
          .jobEnd 0 7 true] ∧
      Answers Workload.largest twoChunkRun ⟨7, 15000, 0⟩ := by
  have hout : (twoChunkRun.foldl (Agg.step Workload.largest Params.default) Agg.empty).out =
      [.merged 0 ⟨7, 1⟩, .discarded ⟨7, 1⟩ true, .merged 0 ⟨7, 0⟩, .wrote 2 ⟨7, 15000, 0⟩,
        .jobEnd 0 7 true] := by
    decide +kernel
  refine ⟨hout, ?_⟩
  obtain ⟨-, -, hw⟩ := exactly_once Workload.largest_contract twoChunkRun_honest
  exact hw 2 _ (by rw [hout]; simp)

end RudpScheduler
