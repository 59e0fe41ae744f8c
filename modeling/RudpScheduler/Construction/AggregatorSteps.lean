import RudpScheduler.Construction.Aggregator

/-!
# What the aggregator's operations do to its tables

One equation per closure of `Construction/Aggregator.lean` for the tables, and one for the
output.  `record` touches neither, which is why nothing the aggregator computes depends on the
log.

`Change` lists what can happen to the tables, with the guards the code checks, and
`step_changes` says that every event is a sequence of such changes.  An invariant of the
aggregator is therefore proved once per change (`step_induction`), never by unfolding an event.
-/

namespace RudpScheduler

/-! ## Deleting a job's `done` entries -/

lemma mem_foldl_erase {ι : Type*} (f : ι → TaskID) (l : List ι) (d : Finset TaskID)
    (x : TaskID) : x ∈ l.foldl (fun d i => d.erase (f i)) d ↔ x ∈ d ∧ ∀ i ∈ l, x ≠ f i := by
  induction l generalizing d with
  | nil => simp
  | cons a l ih =>
      rw [List.foldl_cons, ih, Finset.mem_erase]
      constructor
      · rintro ⟨⟨h1, h2⟩, h3⟩
        refine ⟨h2, fun i hi => ?_⟩
        rcases List.mem_cons.mp hi with rfl | hi
        · exact h1
        · exact h3 i hi
      · rintro ⟨h1, h2⟩
        exact ⟨⟨h2 a List.mem_cons_self, h1⟩, fun i hi => h2 i (List.mem_cons_of_mem _ hi)⟩

@[simp] lemma mem_deleteTasks {done : Finset TaskID} {id : UInt64} {n : UInt32} {x : TaskID} :
    x ∈ deleteTasks done id n ↔ x ∈ done ∧ ¬ (x.job = id ∧ x.idx < n) := by
  rw [deleteTasks, mem_foldl_erase]
  refine and_congr_right fun _ => ?_
  constructor
  · rintro h ⟨rfl, hx⟩
    rw [← mem_indicesBelow, indicesBelow, Finset.mem_image] at hx
    obtain ⟨k, hk, hkx⟩ := hx
    refine h k (List.mem_range.mpr (Finset.mem_range.mp hk)) ?_
    rw [hkx]
  · rintro h k hk rfl
    refine h ⟨rfl, ?_⟩
    rw [← mem_indicesBelow, indicesBelow]
    exact Finset.mem_image_of_mem _ (Finset.mem_range.mpr (List.mem_range.mp hk))

/-- `byConn` after `detach` of a job with the given client. -/
def detachConn (byConn : GoMap ConnID UInt64) (client : Option ConnID) : GoMap ConnID UInt64 :=
  match client with
  | some c => byConn.erase c
  | none => byConn

namespace Agg

variable (s : Agg)

/-! ## `record`, `emit`, `reply` -/

@[simp] lemma emit_toTables (o : Output) : (s.emit o).toTables = s.toTables := rfl

@[simp] lemma emit_out (o : Output) : (s.emit o).out = s.out ++ [o] := rfl

@[simp] lemma emit_log (o : Output) : (s.emit o).log = s.log := rfl

@[simp] lemma record_toTables (r : Record) (b : Bool) :
    (s.record r b).toTables = s.toTables := by
  unfold record
  split
  · rfl
  · dsimp only
    split <;> rfl

@[simp] lemma record_out (r : Record) (b : Bool) : (s.record r b).out = s.out := by
  unfold record
  split
  · rfl
  · dsimp only
    split <;> rfl

/-- What `reply` writes. -/
def replyOut (h : Option ConnID) (id : UInt64) (p : Partial) : List Output :=
  match h with
  | some c => [.wrote c ⟨id, p.hash, p.nonce⟩]
  | none => []

@[simp] lemma reply_toTables (h : Option ConnID) (id : UInt64) (p : Partial) :
    (s.reply h id p).toTables = s.toTables := by
  cases h <;> rfl

@[simp] lemma reply_out (h : Option ConnID) (id : UInt64) (p : Partial) :
    (s.reply h id p).out = s.out ++ replyOut h id p := by
  cases h
  · exact (List.append_nil _).symm
  · rfl

@[simp] lemma reply_log (h : Option ConnID) (id : UInt64) (p : Partial) :
    (s.reply h id p).log = s.log := by
  cases h <;> rfl

/-! ## `detach`, `finish`, `settle` -/

@[simp] lemma detach_job (j : Job) : (s.detach j).2 = { j with client := none } := by
  obtain ⟨spec, client, remaining, acc, started, orphanedAt, cancel⟩ := j
  cases client <;> rfl

@[simp] lemma detach_toTables (j : Job) :
    (s.detach j).1.toTables = { s.toTables with byConn := detachConn s.byConn j.client } := by
  obtain ⟨spec, client, remaining, acc, started, orphanedAt, cancel⟩ := j
  cases client <;> rfl

@[simp] lemma detach_out (j : Job) : (s.detach j).1.out = s.out := by
  unfold detach
  split <;> rfl

@[simp] lemma detach_log (j : Job) : (s.detach j).1.log = s.log := by
  unfold detach
  split <;> rfl

/-- The tables once `finish` has run. -/
def finishTables (t : Tables) (j : Job) (completed : Bool) (now : Time) : Tables where
  done := deleteTasks t.done j.spec.id j.spec.n
  jobs := t.jobs.erase j.spec.id
  results := if completed then t.results.insert j.spec.id ⟨j.acc, now⟩ else t.results
  byConn := detachConn t.byConn j.client
  nextCancel := t.nextCancel
  closed := t.closed ++ [j.cancel]

@[simp] lemma remove_toTables (j : Job) :
    (s.remove j).toTables = finishTables s.toTables j false 0 := by
  simp [remove, finishTables]

@[simp] lemma remove_out (j : Job) : (s.remove j).out = s.out := by
  simp [remove]

@[simp] lemma remove_log (j : Job) : (s.remove j).log = s.log := by
  simp [remove]

@[simp] lemma finish_toTables (j : Job) (completed : Bool) (now : Time) :
    (s.finish j completed now).toTables = finishTables s.toTables j completed now := by
  cases completed <;> simp [finish, finishTables]

@[simp] lemma finish_out (j : Job) (completed : Bool) (now : Time) :
    (s.finish j completed now).out = s.out ++ [Output.jobEnd j.cancel j.spec.id completed] := by
  cases completed <;> simp [finish]

lemma settle_of_ne_zero {j : Job} (h : j.remaining ≠ 0) (id : UInt64) (now : Time) :
    s.settle id j now = s := by
  rw [settle, if_neg h]

lemma settle_toTables_of_zero {j : Job} (h : j.remaining = 0) (id : UInt64) (now : Time) :
    (s.settle id j now).toTables = finishTables s.toTables j true now := by
  rw [settle, if_pos h, finish_toTables, reply_toTables]

lemma settle_out_of_zero {j : Job} (h : j.remaining = 0) (id : UInt64) (now : Time) :
    (s.settle id j now).out =
      s.out ++ replyOut j.client id j.acc ++ [Output.jobEnd j.cancel j.spec.id true] := by
  rw [settle, if_pos h, finish_out, reply_out]

/-! ## The submit case -/

/-- The job `startJob` registers. -/
def freshJob (wl : Workload) (spec : JobSpec) (cancel : ℕ) (now : Time) : Job :=
  { spec := spec, client := none, remaining := spec.n, acc := wl.zero, started := now,
    orphanedAt := none, cancel := cancel }

@[simp] lemma startJob_job (wl : Workload) (spec : JobSpec) (now : Time) :
    (s.startJob wl spec now).2 = freshJob wl spec s.nextCancel now := rfl

@[simp] lemma startJob_toTables (wl : Workload) (spec : JobSpec) (now : Time) :
    (s.startJob wl spec now).1.toTables =
      { s.toTables with
        jobs := s.jobs.insert spec.id (freshJob wl spec s.nextCancel now)
        nextCancel := s.nextCancel + 1 } := by
  simp [startJob, freshJob]

@[simp] lemma startJob_out (wl : Workload) (spec : JobSpec) (now : Time) :
    (s.startJob wl spec now).1.out = s.out := by
  simp [startJob]

@[simp] lemma rejoin_job (j : Job) : (s.rejoin j).2 = { j with client := none } := by
  simp [rejoin]

@[simp] lemma rejoin_toTables (j : Job) :
    (s.rejoin j).1.toTables = { s.toTables with byConn := detachConn s.byConn j.client } := by
  simp [rejoin]

@[simp] lemma rejoin_out (j : Job) : (s.rejoin j).1.out = s.out := by
  simp [rejoin]

@[simp] lemma rejoin_log (j : Job) : (s.rejoin j).1.log = s.log := by
  simp [rejoin]

/-- The job as `attach` leaves it. -/
def attachJob (j : Job) (h : ConnID) (hDone : Bool) (now : Time) : Job :=
  if hDone then { j with orphanedAt := some now }
  else { j with client := some h, orphanedAt := none }

@[simp] lemma attach_job (h : ConnID) (id : UInt64) (j : Job) (hDone : Bool) (now : Time) :
    (s.attach h id j hDone now).2 = attachJob j h hDone now := by
  cases hDone <;> rfl

@[simp] lemma attach_toTables (h : ConnID) (id : UInt64) (j : Job) (hDone : Bool)
    (now : Time) :
    (s.attach h id j hDone now).1.toTables =
      { s.toTables with
        jobs := s.jobs.insert id (attachJob j h hDone now)
        byConn := if hDone then s.byConn else s.byConn.insert h id } := by
  cases hDone <;> rfl

@[simp] lemma attach_out (h : ConnID) (id : UInt64) (j : Job) (hDone : Bool) (now : Time) :
    (s.attach h id j hDone now).1.out = s.out := by
  cases hDone <;> rfl

@[simp] lemma attach_log (h : ConnID) (id : UInt64) (j : Job) (hDone : Bool) (now : Time) :
    (s.attach h id j hDone now).1.log = s.log := by
  cases hDone <;> rfl

@[simp] lemma attachJob_spec (j : Job) (h : ConnID) (hDone : Bool) (now : Time) :
    (attachJob j h hDone now).spec = j.spec := by
  cases hDone <;> rfl

@[simp] lemma attachJob_remaining (j : Job) (h : ConnID) (hDone : Bool) (now : Time) :
    (attachJob j h hDone now).remaining = j.remaining := by
  cases hDone <;> rfl

@[simp] lemma attachJob_acc (j : Job) (h : ConnID) (hDone : Bool) (now : Time) :
    (attachJob j h hDone now).acc = j.acc := by
  cases hDone <;> rfl

@[simp] lemma attachJob_cancel (j : Job) (h : ConnID) (hDone : Bool) (now : Time) :
    (attachJob j h hDone now).cancel = j.cancel := by
  cases hDone <;> rfl

/-- The three branches of the submit case: the answer is stored, the job is running, or the job
is new.  Everything but the log is given. -/
lemma submit_answered {f : Finished} {spec : JobSpec} (hf : s.results.lookup spec.id = some f)
    (wl : Workload) (h : ConnID) (hDone : Bool) (now : Time) :
    (s.submit wl h spec hDone now).1.toTables = s.toTables ∧
      (s.submit wl h spec hDone now).1.out = s.out ++ replyOut (some h) spec.id f.result := by
  simp [submit, hf]

lemma submit_running {j : Job} {spec : JobSpec} (hr : s.results.lookup spec.id = none)
    (hj : s.jobs.lookup spec.id = some j) (wl : Workload) (h : ConnID) (hDone : Bool)
    (now : Time) :
    (s.submit wl h spec hDone now).1 =
      ((s.rejoin j).1.attach h spec.id { j with client := none } hDone now).1.settle spec.id
        (attachJob { j with client := none } h hDone now) now := by
  simp [submit, hr, hj]

lemma submit_fresh {spec : JobSpec} (hr : s.results.lookup spec.id = none)
    (hj : s.jobs.lookup spec.id = none) (wl : Workload) (h : ConnID) (hDone : Bool)
    (now : Time) :
    (s.submit wl h spec hDone now).1 =
      ((s.startJob wl spec now).1.attach h spec.id (freshJob wl spec s.nextCancel now) hDone
        now).1.settle spec.id (attachJob (freshJob wl spec s.nextCancel now) h hDone now) now := by
  simp [submit, hr, hj]

/-! ## The result case -/

/-- The job after one more result has been merged into it. -/
def countJob (wl : Workload) (j : Job) (p : Partial) : Job :=
  { j with acc := wl.merge j.acc p, remaining := j.remaining - 1 }

/-- The aggregator after counting a result, before it looks at `remaining`. -/
def counted (wl : Workload) (j : Job) (r : ChunkResult) : Agg :=
  (({ s with
      done := insert r.id s.done
      jobs := s.jobs.insert r.id.job (countJob wl j r.value)
      stats := { s.stats with merged := s.stats.merged + 1 } } : Agg).record
    (.chunkDone ⟨r.id.job, r.id.idx, r.hash, r.nonce⟩) false).emit (.merged j.cancel r.id)

lemma count_eq (wl : Workload) (j : Job) (r : ChunkResult) (now : Time) :
    s.count wl j r now = (s.counted wl j r).settle r.id.job (countJob wl j r.value) now := rfl

@[simp] lemma counted_toTables (wl : Workload) (j : Job) (r : ChunkResult) :
    (s.counted wl j r).toTables =
      { s.toTables with
        done := insert r.id s.done
        jobs := s.jobs.insert r.id.job (countJob wl j r.value) } := by
  simp [counted]

@[simp] lemma counted_out (wl : Workload) (j : Job) (r : ChunkResult) :
    (s.counted wl j r).out = s.out ++ [Output.merged j.cancel r.id] := by
  simp [counted]

@[simp] lemma discard_toTables (r : ChunkResult) (dup : Bool) :
    (s.discard r dup).toTables = s.toTables := by
  cases dup <;> rfl

@[simp] lemma discard_out (r : ChunkResult) (dup : Bool) :
    (s.discard r dup).out = s.out ++ [Output.discarded r.id dup] := by
  cases dup <;> rfl

@[simp] lemma discard_log (r : ChunkResult) (dup : Bool) : (s.discard r dup).log = s.log := by
  cases dup <;> rfl

/-- The result case counts the result or drops it; it counts exactly the results of a running
job whose index is in range and not yet done. -/
lemma result_cases (wl : Workload) (r : ChunkResult) (now : Time) :
    (∃ j, s.jobs.lookup r.id.job = some j ∧ r.id.idx < j.spec.n ∧ r.id ∉ s.done ∧
        s.result wl r now = s.count wl j r now) ∨
      ((∀ j, s.jobs.lookup r.id.job = some j → r.id.idx < j.spec.n → r.id ∈ s.done) ∧
        ∃ dup, s.result wl r now = s.discard r dup) := by
  unfold result
  cases hj : s.jobs.lookup r.id.job with
  | none => exact Or.inr ⟨by simp, false, rfl⟩
  | some j =>
      dsimp only
      split_ifs with hn hd
      · refine Or.inr ⟨?_, false, rfl⟩
        intro j' hj' hlt
        rw [← Option.some_inj.mp hj'] at hlt
        exact absurd hlt (UInt32.not_lt.mpr hn)
      · exact Or.inr ⟨fun _ _ _ => hd, true, rfl⟩
      · exact Or.inl ⟨j, rfl, UInt32.not_le.mp hn, hd, rfl⟩

/-! ## The client-gone and the tick case -/

/-- The client-gone case either detaches the connection from the job it waits for, or finds
none and only forgets the connection. -/
lemma clientGone_cases (conn : ConnID) (now : Time) :
    (∃ j, s.jobs.lookup ((s.byConn.lookup conn).getD 0) = some j ∧ j.client = some conn ∧
        (s.clientGone conn now).toTables =
          { s.toTables with
            jobs := s.jobs.insert ((s.byConn.lookup conn).getD 0)
              { j with client := none, orphanedAt := some now }
            byConn := (s.byConn.erase conn).erase conn }) ∨
      ((∀ j, s.jobs.lookup ((s.byConn.lookup conn).getD 0) = some j → j.client ≠ some conn) ∧
        (s.clientGone conn now).toTables = { s.toTables with byConn := s.byConn.erase conn }) := by
  unfold clientGone
  cases hj : s.jobs.lookup ((s.byConn.lookup conn).getD 0) with
  | none => exact Or.inr ⟨by simp, by simp [hj]⟩
  | some j =>
      by_cases hc : j.client = some conn
      · refine Or.inl ⟨j, rfl, hc, ?_⟩
        simp [hj, hc, detachConn]
      · refine Or.inr ⟨?_, by simp [hj, hc]⟩
        intro j' hj'
        rwa [← Option.some_inj.mp hj']

@[simp] lemma clientGone_out (conn : ConnID) (now : Time) :
    (s.clientGone conn now).out = s.out := by
  unfold clientGone
  dsimp only
  split
  · split_ifs
    · simp
    · rfl
  · rfl

@[simp] lemma clientGone_log (conn : ConnID) (now : Time) :
    (s.clientGone conn now).log = s.log := by
  unfold clientGone
  dsimp only
  split
  · split_ifs
    · simp
    · rfl
  · rfl

/-- One round of the drop loop finishes an orphaned job without completing it, or does
nothing. -/
lemma dropOrphan_cases (p : Params) (now : Time) (id : UInt64) :
    (∃ j, s.jobs.lookup id = some j ∧ j.orphanedAt ≠ none ∧
        s.dropOrphan p now id = s.finish j false now) ∨ s.dropOrphan p now id = s := by
  unfold dropOrphan
  split
  · rename_i j hj
    split
    · rename_i t ht
      split_ifs
      · exact Or.inl ⟨j, hj, by simp [ht], rfl⟩
      · exact Or.inr rfl
    · exact Or.inr rfl
  · exact Or.inr rfl

/-- One round of the expiry loop forgets a stored answer, or does nothing. -/
lemma expire_cases (p : Params) (now : Time) (id : UInt64) :
    (∃ f, s.results.lookup id = some f ∧ s.expire p now id =
        ({ s with results := s.results.erase id } : Agg).record (.jobDrop ⟨id⟩) false) ∨
      s.expire p now id = s := by
  unfold expire
  split
  · rename_i f hf
    split_ifs
    · exact Or.inl ⟨f, hf, rfl⟩
    · exact Or.inr rfl
  · exact Or.inr rfl

@[simp] lemma compactIdle_toTables (ord : RangeOrder UInt64) :
    (s.compactIdle ord).toTables = s.toTables := by
  unfold compactIdle
  split
  · rfl
  · split_ifs <;> rfl

@[simp] lemma compactIdle_out (ord : RangeOrder UInt64) : (s.compactIdle ord).out = s.out := by
  unfold compactIdle
  split
  · rfl
  · split_ifs <;> rfl

@[simp] lemma syncDirty_toTables : s.syncDirty.toTables = s.toTables := by
  unfold syncDirty
  split
  · rfl
  · split_ifs <;> rfl

@[simp] lemma syncDirty_out : s.syncDirty.out = s.out := by
  unfold syncDirty
  split
  · rfl
  · split_ifs <;> rfl

/-! ## The changes an event is made of -/

/-- What the tables and the output look like from the outside: the log, its flag and the
counters are left out. -/
abbrev Seen := Tables × List Output

/-- The part of the state that is not about the log. -/
def seen (s : Agg) : Seen := (s.toTables, s.out)

/-- One change of the tables, with what it lets the outside see.  Every event is a sequence of
these (`step_changes`); the guards are the ones the code checks. -/
inductive Change (wl : Workload) : Event → Seen → Seen → Prop
  /-- The answer is stored: write it again. -/
  | answer {t : Tables} {o : List Output} {h spec hDone now f}
      (hf : t.results.lookup spec.id = some f) :
      Change wl (.submit h spec hDone now) (t, o)
        (t, o ++ [.wrote h ⟨spec.id, f.result.hash, f.result.nonce⟩])
  /-- A new job. -/
  | start {t : Tables} {o : List Output} {h spec hDone now}
      (hr : t.results.lookup spec.id = none) (hj : t.jobs.lookup spec.id = none) :
      Change wl (.submit h spec hDone now) (t, o)
        ({ t with
            jobs := t.jobs.insert spec.id
              (attachJob (freshJob wl spec t.nextCancel now) h hDone now)
            byConn := if hDone then t.byConn else t.byConn.insert h spec.id
            nextCancel := t.nextCancel + 1 }, o)
  /-- A submit for a running job. -/
  | rejoin {t : Tables} {o : List Output} {h spec hDone now j}
      (hr : t.results.lookup spec.id = none) (hj : t.jobs.lookup spec.id = some j) :
      Change wl (.submit h spec hDone now) (t, o)
        ({ t with
            jobs := t.jobs.insert spec.id (attachJob { j with client := none } h hDone now)
            byConn := if hDone then detachConn t.byConn j.client
              else (detachConn t.byConn j.client).insert h spec.id }, o)
  /-- A counted result. -/
  | count {t : Tables} {o : List Output} {r now j} (hj : t.jobs.lookup r.id.job = some j)
      (hi : r.id.idx < j.spec.n) (hd : r.id ∉ t.done) :
      Change wl (.result r now) (t, o)
        ({ t with
            done := insert r.id t.done
            jobs := t.jobs.insert r.id.job (countJob wl j r.value) }, o ++ [.merged j.cancel r.id])
  /-- A dropped result. -/
  | discard {t : Tables} {o : List Output} {r now dup}
      (hd : ∀ j, t.jobs.lookup r.id.job = some j → r.id.idx < j.spec.n → r.id ∈ t.done) :
      Change wl (.result r now) (t, o) (t, o ++ [.discarded r.id dup])
  /-- A job with nothing left to wait for is answered and finished. -/
  | complete {t : Tables} {o : List Output} {e id j now} (hj : t.jobs.lookup id = some j)
      (h0 : j.remaining = 0) :
      Change wl e (t, o) (finishTables t j true now,
        o ++ replyOut j.client id j.acc ++ [.jobEnd j.cancel j.spec.id true])
  /-- The attached client is gone. -/
  | orphan {t : Tables} {o : List Output} {conn now j}
      (hj : t.jobs.lookup ((t.byConn.lookup conn).getD 0) = some j) (hc : j.client = some conn) :
      Change wl (.clientGone conn now) (t, o)
        ({ t with
            jobs := t.jobs.insert ((t.byConn.lookup conn).getD 0)
              { j with client := none, orphanedAt := some now }
            byConn := (t.byConn.erase conn).erase conn }, o)
  /-- A connection nobody waits on is gone. -/
  | forget {t : Tables} {o : List Output} {conn now}
      (hc : ∀ j, t.jobs.lookup ((t.byConn.lookup conn).getD 0) = some j → j.client ≠ some conn) :
      Change wl (.clientGone conn now) (t, o) ({ t with byConn := t.byConn.erase conn }, o)
  /-- An orphaned job is dropped. -/
  | drop {t : Tables} {o : List Output} {now ords id j} (hj : t.jobs.lookup id = some j)
      (ho : j.orphanedAt ≠ none) :
      Change wl (.tick now ords) (t, o)
        (finishTables t j false now, o ++ [.jobEnd j.cancel j.spec.id false])
  /-- A stored answer expires. -/
  | expire {t : Tables} {o : List Output} {now ords id f} (hf : t.results.lookup id = some f) :
      Change wl (.tick now ords) (t, o) ({ t with results := t.results.erase id }, o)

/-- The changes one event makes, in order. -/
abbrev Changes (wl : Workload) (e : Event) : Seen → Seen → Prop :=
  Relation.ReflTransGen (Change wl e)

lemma settle_changes (wl : Workload) (e : Event) {id : UInt64} {j : Job} (now : Time)
    (hj : s.jobs.lookup id = some j) : Changes wl e s.seen (s.settle id j now).seen := by
  by_cases h0 : j.remaining = 0
  · have : (s.settle id j now).seen = (finishTables s.toTables j true now,
        s.out ++ replyOut j.client id j.acc ++ [Output.jobEnd j.cancel j.spec.id true]) := by
      rw [seen, settle_toTables_of_zero s h0, settle_out_of_zero s h0]
    rw [this]
    exact .single (.complete hj h0)
  · rw [settle_of_ne_zero s h0]

lemma submit_changes (wl : Workload) (h : ConnID) (spec : JobSpec) (hDone : Bool) (now : Time) :
    Changes wl (.submit h spec hDone now) s.seen (s.submit wl h spec hDone now).1.seen := by
  cases hr : s.results.lookup spec.id with
  | some f =>
      obtain ⟨h1, h2⟩ := s.submit_answered hr wl h hDone now
      rw [seen, seen, h1, h2]
      exact .single (.answer hr)
  | none =>
      cases hj : s.jobs.lookup spec.id with
      | some j =>
          rw [s.submit_running hr hj]
          refine .head (.rejoin hr hj) ?_
          convert settle_changes _ wl _ now _ using 1
          · simp [seen]
          · simp
      | none =>
          rw [s.submit_fresh hr hj]
          refine .head (.start hr hj) ?_
          convert settle_changes _ wl _ now _ using 1
          · simp [seen, Finmap.insert_insert]
          · simp

lemma result_changes (wl : Workload) (r : ChunkResult) (now : Time) :
    Changes wl (.result r now) s.seen (s.result wl r now).seen := by
  rcases s.result_cases wl r now with ⟨j, hj, hi, hd, he⟩ | ⟨hd, dup, he⟩
  · rw [he, count_eq]
    refine .head (.count hj hi hd) ?_
    convert settle_changes _ wl _ now _ using 1
    · simp [seen]
    · simp
  · rw [he, seen, seen, discard_toTables, discard_out]
    exact .single (.discard hd)

lemma clientGone_changes (wl : Workload) (conn : ConnID) (now : Time) :
    Changes wl (.clientGone conn now) s.seen (s.clientGone conn now).seen := by
  rcases s.clientGone_cases conn now with ⟨j, hj, hc, he⟩ | ⟨hc, he⟩
  · rw [seen, seen, he, clientGone_out]
    exact .single (.orphan hj hc)
  · rw [seen, seen, he, clientGone_out]
    exact .single (.forget hc)

lemma foldl_changes {wl : Workload} {e : Event} {f : Agg → UInt64 → Agg}
    (hf : ∀ s id, Changes wl e s.seen (f s id).seen) (l : List UInt64) (s : Agg) :
    Changes wl e s.seen (l.foldl f s).seen := by
  induction l generalizing s with
  | nil => exact .refl
  | cons id l ih => exact (hf s id).trans (ih (f s id))

lemma tick_changes (wl : Workload) (p : Params) (now : Time) (ords : TickOrders) :
    Changes wl (.tick now ords) s.seen (s.tick p now ords).seen := by
  have hdrop : ∀ (s : Agg) id, Changes wl (.tick now ords) s.seen (s.dropOrphan p now id).seen := by
    intro s id
    rcases s.dropOrphan_cases p now id with ⟨j, hj, ho, he⟩ | he
    · rw [he, seen, seen, finish_toTables, finish_out]
      exact .single (.drop hj ho)
    · rw [he]
  have hexp : ∀ (s : Agg) id, Changes wl (.tick now ords) s.seen (s.expire p now id).seen := by
    intro s id
    rcases s.expire_cases p now id with ⟨f, hf, he⟩ | he
    · rw [he, seen, seen, record_toTables, record_out]
      exact .single (.expire hf)
    · rw [he]
  have htail : ∀ s : Agg, (s.compactIdle ords.snapshot).syncDirty.seen = s.seen := by
    intro s
    rw [seen, seen, syncDirty_toTables, syncDirty_out, compactIdle_toTables, compactIdle_out]
  rw [tick, htail]
  exact (foldl_changes hdrop _ _).trans (foldl_changes hexp _ _)

/-- Every event is a sequence of changes. -/
theorem step_changes (wl : Workload) (p : Params) (e : Event) :
    Changes wl e s.seen (s.step wl p e).seen := by
  cases e with
  | submit h spec hDone now => exact s.submit_changes wl h spec hDone now
  | result r now => exact s.result_changes wl r now
  | clientGone conn now => exact s.clientGone_changes wl conn now
  | tick now ords => exact s.tick_changes wl p now ords

/-- The step rule: what every change of an event preserves, the event preserves. -/
lemma step_induction {wl : Workload} {p : Params} {e : Event} {P : Seen → Prop}
    (hP : ∀ a b, P a → Change wl e a b → P b) {s : Agg} (hs : P s.seen) :
    P (s.step wl p e).seen := by
  have h := s.step_changes wl p e
  generalize (s.step wl p e).seen = b at h ⊢
  induction h with
  | refl => exact hs
  | tail _ hc ih => exact hP _ _ ih hc

end Agg

end RudpScheduler
