import RudpScheduler.Construction.Host
import RudpScheduler.Properties.DirtyFlag
import RudpScheduler.Properties.ExactlyOnce
import RudpScheduler.Properties.MessageBound
import RudpScheduler.Properties.OwnChunk

/-!
# What the scheduler holds and writes is right

`exactly_once` is about a scheduler without a log, and takes the results it is given on trust.  Here
the same facts are put in a form that survives a restart.  The jobs that exist are given once and
for all, as a list of submits `es`; a message, a record of the log or an event is *right* if it says
what `Compute` says about the range it stands for.  Right input keeps the aggregator's tables, its
output and its log right (`Agg.Right.step`), recovery from right records gives right tables and a
right log again (`recover_right`), and so everything the scheduler writes is right
(`Sys.Right.move`, `Sys.Right.written`).

What a recovered job has accumulated is read off the history of its records
(`Replay.rebuilt_shows`): a history repeats what records say (`History.All`), and a life that counts
right records has merged the answers for its indices (`Life.acc_right`).
-/

namespace RudpScheduler

/-! ## Right messages, records and events -/

section Right

variable (wl : Workload) (es : List Event)

/-- The result is the answer for its chunk, for every job that exists. -/
def ChunkResult.Right (r : ChunkResult) : Prop := ∀ spec, Submitted es spec → spec.OwnResult wl r

/-- The chunk is cut as its job's spec says, for every job that exists. -/
def Chunk.Right (ch : Chunk) : Prop := ∀ spec, Submitted es spec → spec.OwnChunk ch

/-- The message says nothing wrong. -/
def Message.Right (p : Params) : Message → Prop
  | .join => True
  | .request req => Submitted es (JobSpec.ofRequest p.chunkSize req)
  | .chunk ch => ch.Right es
  | .chunkResult r => r.Right wl es
  | .result m => Answers wl es m

/-- The record says nothing wrong. -/
def Record.Right : Record → Prop
  | .jobStart s => Submitted es s.spec
  | .chunkDone c => ChunkResult.Right wl es ⟨c.id, c.hash, c.nonce⟩
  | .jobDone d => Answers wl es ⟨d.job, d.hash, d.nonce⟩
  | .jobDrop _ => True

/-- The event brings nothing wrong. -/
def Event.Right : Event → Prop
  | .submit _ spec _ _ => Submitted es spec
  | .result r _ => r.Right wl es
  | .clientGone _ _ | .tick _ _ => True

/-- The call puts nothing wrong into the log. -/
def LogCall.Right : LogCall → Prop
  | .append r => r.Right wl es
  | .sync => True
  | .rewrite recs => ∀ r ∈ recs, r.Right wl es

end Right

/-- What the aggregator holds, has written and has logged is right. -/
structure Agg.Right {wl : Workload} (hwl : wl.Contract) (es : List Event) (s : Agg) : Prop where
  ok : s.Ok
  values : Values hwl es s.toTables
  out : ∀ h m, Output.wrote h m ∈ s.out → Answers wl es m
  log : ∀ l, s.log = some l → ∀ r ∈ l.recs, r.Right wl es

variable {wl : Workload} {p : Params} {es : List Event} {hwl : wl.Contract}

/-- The accumulator of a job with nothing left to wait for is an answer. -/
lemma Values.acc_answers {t : Tables} (hv : Values hwl es t) (hon : Honest wl p es) (hok : t.Ok)
    {id : UInt64} {j : Job} (hj : t.jobs.lookup id = some j) (h0 : j.remaining = 0) :
    Answers wl es ⟨id, j.acc.hash, j.acc.nonce⟩ :=
  ⟨j.spec, hv.spec id j hj, hok.spec_id id j hj, hv.acc_of_remaining_zero hon hok hj h0⟩

/-! ## The tables and the output -/

/-- A change brought about by a right event keeps the values right. -/
lemma Agg.Change.values_right {e : Event} {a b : Agg.Seen} (h : Agg.Change wl e a b)
    (hon : RudpScheduler.Honest wl p es) (he : e.Right wl es) (hok : a.1.Ok)
    (hv : Values hwl es a.1) : Values hwl es b.1 := by
  cases h with
  | @start t o h spec hDone now hr hj =>
      have hspec : Submitted es spec := he
      refine hv.insert_job (by simpa [freshJob] using hspec) ?_ _ _
      rw [hok.countedIdx_eq_empty hj]
      simp [freshJob]
  | @count t o r now j hj hi hd =>
      have hr : r.Right wl es := he
      exact hv.count hj hd (hr _ (hv.spec _ _ hj) (hok.spec_id _ _ hj).symm hi)
  | answer => exact hv
  | discard => exact hv
  | rejoin hr hj =>
      exact hv.insert_job (by simpa using hv.spec _ _ hj) (by simpa using hv.acc _ _ hj) _ _
  | complete hj h0 => exact hv.finish hj true _ fun _ => hv.acc_of_remaining_zero hon hok hj h0
  | @orphan t o conn now j hj =>
      have hs : Submitted es ({ j with client := none, orphanedAt := some now } : Job).spec :=
        hv.spec _ j hj
      exact hv.insert_job hs (hv.acc _ j hj) _ _
  | forget => exact { hv with }
  | drop hj => exact hv.finish hj false _ (by simp)
  | expire => exact { hv with answer := GoMap.forall_erase hv.answer _ }

/-- What a change writes is an answer. -/
lemma Agg.Change.out_right {e : Event} {a b : Agg.Seen} (h : Agg.Change wl e a b)
    (hon : RudpScheduler.Honest wl p es) (hok : a.1.Ok) (hv : Values hwl es a.1)
    (ho : ∀ h m, Output.wrote h m ∈ a.2 → Answers wl es m) :
    ∀ h m, Output.wrote h m ∈ b.2 → Answers wl es m := by
  intro c m hm
  cases h with
  | answer hf =>
      rcases List.mem_append.mp hm with hm | hm
      · exact ho c m hm
      · obtain ⟨-, rfl⟩ := Output.wrote.inj (List.mem_singleton.mp hm)
        exact hv.answer _ _ hf
  | @complete t o e id j now hj h0 =>
      rcases List.mem_append.mp hm with hm | hm
      · rcases List.mem_append.mp hm with hm | hm
        · exact ho c m hm
        · cases hc : j.client with
          | none => simp [Agg.replyOut, hc] at hm
          | some c' =>
              rw [hc] at hm
              obtain ⟨-, rfl⟩ := Output.wrote.inj (List.mem_singleton.mp hm)
              exact hv.acc_answers hon hok hj h0
      · simp at hm
  | count => exact ho c m (by simpa using hm)
  | discard => exact ho c m (by simpa using hm)
  | drop => exact ho c m (by simpa using hm)
  | start => exact ho c m hm
  | rejoin => exact ho c m hm
  | orphan => exact ho c m hm
  | forget => exact ho c m hm
  | expire => exact ho c m hm

/-- A right event keeps the tables and the output right. -/
lemma Agg.step_seen_right {s : Agg} {e : Event} (hon : RudpScheduler.Honest wl p es)
    (he : e.Right wl es) (hok : s.Ok) (hv : Values hwl es s.toTables)
    (ho : ∀ h m, Output.wrote h m ∈ s.out → Answers wl es m) :
    (s.step wl p e).Ok ∧ Values hwl es (s.step wl p e).toTables ∧
      ∀ h m, Output.wrote h m ∈ (s.step wl p e).out → Answers wl es m :=
  Agg.step_induction
    (P := fun a : Agg.Seen => a.1.Ok ∧ Values hwl es a.1 ∧
      ∀ h m, Output.wrote h m ∈ a.2 → Answers wl es m)
    (fun _ _ ⟨hok, hv, ho⟩ hc =>
      ⟨hc.ok hok, hc.values_right hon he hok hv, hc.out_right hon hok hv ho⟩) ⟨hok, hv, ho⟩

/-! ## The log -/

lemma Log.exec_right {l : Log} (hl : ∀ r ∈ l.recs, r.Right wl es) {c : LogCall}
    (hc : c.Right wl es) : ∀ r ∈ (l.exec c).recs, r.Right wl es := by
  cases c with
  | append r =>
      rw [Log.exec, Log.append]
      split_ifs
      · exact hl
      · exact List.forall_mem_append.mpr ⟨hl, List.forall_mem_singleton.mpr hc⟩
  | sync => rwa [Log.exec, Log.sync_recs]
  | rewrite recs =>
      rw [Log.exec, Log.rewrite]
      split_ifs
      · exact hl
      · exact hc

/-- Stored answers that are right give right records. -/
lemma Values.snapshotResults_right {t : Tables} (hv : Values hwl es t) (ord : RangeOrder UInt64) :
    ∀ r ∈ Agg.snapshotResults ord t.results, r.Right wl es := by
  intro r hr
  obtain ⟨id, -, hid⟩ := List.mem_filterMap.mp hr
  obtain ⟨f, hf, rfl⟩ := Option.map_eq_some_iff.mp hid
  exact hv.answer id f hf

namespace Agg

variable {s : Agg}

lemma recordCalls_right {r : Record} (hr : r.Right wl es) (b : Bool) :
    ∀ c ∈ s.recordCalls r b, c.Right wl es := by
  intro c hc
  unfold recordCalls at hc
  split at hc
  · cases hc
  · rcases List.mem_cons.mp hc with rfl | hc
    · exact hr
    · split_ifs at hc
      · rw [List.mem_singleton.mp hc]
        trivial
      · cases hc

/-- The job that `settle` looks at is one of the table. -/
lemma settleCalls_right (hon : RudpScheduler.Honest wl p es) (hok : s.Ok)
    (hv : Values hwl es s.toTables) (id : UInt64) {j : Job} (hj : s.jobs.lookup id = some j) :
    ∀ c ∈ s.settleCalls j, c.Right wl es := by
  unfold settleCalls
  split_ifs with h0
  · refine recordCalls_right ?_ true
    have hans := hv.acc_answers hon hok hj h0
    rwa [← hok.spec_id id j hj] at hans
  · simp

lemma compactCalls_right (hv : Values hwl es s.toTables) (ord : RangeOrder UInt64) :
    ∀ c ∈ s.compactCalls ord, c.Right wl es := by
  unfold compactCalls
  split
  · simp
  · split_ifs
    · exact List.forall_mem_singleton.mpr (hv.snapshotResults_right ord)
    · simp

lemma syncCalls_right (s : Agg) : ∀ c ∈ s.syncCalls, c.Right wl es := by
  unfold syncCalls
  split
  · simp
  · split_ifs
    · exact List.forall_mem_singleton.mpr trivial
    · simp

/-- What the rounds of a loop ask of the log. -/
lemma collect_right {f : Agg → UInt64 → Agg} {g : Agg → UInt64 → List LogCall}
    (hg : ∀ t id, ∀ c ∈ g t id, c.Right wl es) (ids : List UInt64) (s : Agg) :
    ∀ c ∈ collect f g s ids, c.Right wl es :=
  foldl_collect (P := fun _ (cs : List LogCall) => ∀ c ∈ cs, c.Right wl es) (l := [])
    (fun t _ id h => List.forall_mem_append.mpr ⟨h, hg t id⟩) ids (by simp)

/-- What a right event asks of the log is right. -/
lemma Right.calls (hon : RudpScheduler.Honest wl p es) (hs : s.Right hwl es) {e : Event}
    (he : e.Right wl es) : ∀ c ∈ s.calls wl p e, c.Right wl es := by
  obtain ⟨hok, hv, ho, -⟩ := hs
  -- the tables after the first change of an event
  have hafter : ∀ {t : Agg} {o : List Output}, Change wl e s.seen (t.toTables, o) →
      t.Ok ∧ Values hwl es t.toTables := fun hc =>
    ⟨hc.ok hok, hc.values_right hon he hok hv⟩
  cases e with
  | clientGone conn now => simp [Agg.calls]
  | submit h spec hDone now =>
      rw [Agg.calls, submitCalls]
      cases hr : s.results.lookup spec.id with
      | some f => simp
      | none =>
          cases hj : s.jobs.lookup spec.id with
          | some j =>
              obtain ⟨hok', hv'⟩ := hafter
                (t := ((s.rejoin j).1.attach h spec.id { j with client := none } hDone now).1)
                (o := s.out) (by simpa [seen] using Change.rejoin hr hj)
              exact settleCalls_right hon hok' hv' spec.id (by simp)
          | none =>
              obtain ⟨hok', hv'⟩ := hafter
                (t := ((s.startJob wl spec now).1.attach h spec.id
                  (freshJob wl spec s.nextCancel now) hDone now).1)
                (o := s.out) (by simpa [seen, Finmap.insert_insert] using Change.start hr hj)
              have hrec : (Record.jobStart spec.start).Right wl es := he
              refine List.forall_mem_append.mpr ⟨recordCalls_right hrec true, ?_⟩
              exact settleCalls_right hon hok' hv' spec.id (by simp)
  | result r now =>
      rw [Agg.calls, resultCalls]
      cases hj : s.jobs.lookup r.id.job with
      | none => simp
      | some j =>
          dsimp only
          split_ifs with hn hd
          · simp
          · simp
          · obtain ⟨hok', hv'⟩ := hafter (t := s.counted wl j r)
              (o := s.out ++ [.merged j.cancel r.id])
              (by simpa [seen] using Change.count hj (UInt32.not_le.mp hn) hd)
            have hrec : (Record.chunkDone ⟨r.id.job, r.id.idx, r.hash, r.nonce⟩).Right wl es := he
            refine List.forall_mem_append.mpr ⟨recordCalls_right hrec false, ?_⟩
            exact settleCalls_right hon hok' hv' r.id.job (by simp)
  | tick now ords =>
      have hdrop : ∀ (t : Agg) id, ∀ c ∈ t.dropCalls p now id, c.Right wl es := by
        intro t id
        unfold dropCalls
        split
        · split
          · split_ifs
            · exact recordCalls_right (r := .jobDrop _) trivial false
            · simp
          · simp
        · simp
      have hexpire : ∀ (t : Agg) id, ∀ c ∈ t.expireCalls p now id, c.Right wl es := by
        intro t id
        unfold expireCalls
        split
        · split_ifs
          · exact recordCalls_right (r := .jobDrop _) trivial false
          · simp
        · simp
      refine List.forall_mem_append.mpr ⟨collect_right hdrop _ _, ?_⟩
      refine List.forall_mem_append.mpr ⟨collect_right hexpire _ _, ?_⟩
      refine List.forall_mem_append.mpr ⟨?_, syncCalls_right _⟩
      -- the rest of the tick leaves the tables as the two loops have left them
      obtain ⟨-, hv', -⟩ := step_seen_right hon he hok hv ho
      rw [step, tick, syncDirty_toTables, compactIdle_toTables] at hv'
      exact compactCalls_right hv' ords.snapshot

/-- A right event keeps everything right. -/
lemma Right.step (hon : RudpScheduler.Honest wl p es) (hs : s.Right hwl es) {e : Event}
    (he : e.Right wl es) : (s.step wl p e).Right hwl es := by
  obtain ⟨hok, hv, ho⟩ := step_seen_right hon he hs.ok hs.values hs.out
  refine ⟨hok, hv, ho, fun l hl => ?_⟩
  rw [(step_byCalls wl p s e).log] at hl
  obtain ⟨l₀, hl₀, rfl⟩ := Option.map_eq_some_iff.mp hl
  have hcalls := hs.calls hon he
  exact List.foldlRecOn _ (motive := fun l : Log => ∀ r ∈ l.recs, r.Right wl es) _ (hs.log l₀ hl₀)
    fun _ hl c hc => Log.exec_right hl (hcalls c hc)

end Agg

/-! ## Recovery -/

/-- Everything the history repeats is said by a record with property `P`. -/
structure History.All {id : UInt64} (P : Record → Prop) (h : History id) : Prop where
  start : ∀ l, h.cur = some l → P (.jobStart l.start)
  counted : ∀ c ∈ h.allCounted, P (.chunkDone c)
  answer : ∀ a, h.answer = some a → P (.jobDone ⟨id, a.hash, a.nonce⟩)

namespace History

variable {id : UInt64} {P : Record → Prop} {h : History id}

lemma All.stop (hh : h.All P) {a : Option Partial}
    (ha : ∀ v, a = some v → P (.jobDone ⟨id, v.hash, v.nonce⟩)) : (h.stop a).All P where
  start l hl := by cases hl
  counted := by
    rw [allCounted_stop]
    exact hh.counted
  answer := ha

lemma All.mem_counted (hh : h.All P) {l : Life id} (hl : l ∈ h.past ++ h.cur.toList) :
    ∀ c ∈ l.counted, P (.chunkDone c) := fun c hc =>
  hh.counted c (List.mem_flatMap.mpr ⟨l, hl, hc⟩)

lemma All.chunkDone (hh : h.All P) {c : ChunkDone} (hc : c.job = id) (hr : P (.chunkDone c)) :
    (h.next (.chunkDone c)).All P := by
  rw [next_chunkDone h hc]
  refine ⟨fun l hl => ?_, fun d hd => ?_, hh.answer⟩
  · obtain ⟨k, hk, rfl⟩ := Option.map_eq_some_iff.mp hl
    rw [Life.count_start]
    exact hh.start k hk
  · obtain ⟨l, hl, hd⟩ := List.mem_flatMap.mp hd
    rcases List.mem_append.mp hl with hl | hl
    · exact hh.mem_counted (List.mem_append_left _ hl) d hd
    · obtain ⟨k, hk, rfl⟩ := Option.map_eq_some_iff.mp (Option.mem_toList.mp hl)
      have hold := hh.mem_counted (List.mem_append_right _ (Option.mem_toList.mpr hk))
      -- the life has counted the record, or skipped it
      rw [Life.count_counted, keepFirst] at hd
      split_ifs at hd
      · rcases List.mem_append.mp hd with hd | hd
        · exact hold d hd
        · rwa [List.mem_singleton.mp hd]
      · exact hold d hd

/-- One more record. -/
lemma All.next (hh : h.All P) {r : Record} (hr : P r) : (h.next r).All P := by
  by_cases hid : r.job = id
  · cases r with
    | jobStart s =>
        cases hc : h.cur with
        | some l =>
            rw [next_jobStart_running hc]
            exact hh
        | none =>
            refine ⟨fun l hl => ?_, ?_, ?_⟩
            · rw [next_jobStart_idle hid hc] at hl
              obtain rfl := Option.some_inj.mp hl
              exact hr
            · rw [allCounted_jobStart]
              exact hh.counted
            · simp [next_jobStart_idle hid hc]
    | chunkDone c => exact hh.chunkDone hid hr
    | jobDone d =>
        rw [next_jobDone h hid]
        refine hh.stop fun v hv => ?_
        obtain rfl := Option.some_inj.mp hv
        rw [← show d.job = id from hid]
        exact hr
    | jobDrop d =>
        rw [next_jobDrop h hid]
        exact hh.stop (by simp)
  · rwa [next_of_ne h hid]

/-- What `settle` stores is what was stored, or what a full life has merged. -/
lemma settle_answer_cases {a : Partial} (ha : (h.settle wl).answer = some a) :
    h.answer = some a ∨ ∃ l, h.cur = some l ∧ l.Full ∧ a = l.acc wl := by
  unfold settle at ha
  split at ha
  · rename_i l hl
    split_ifs at ha with hfull
    · exact .inr ⟨l, hl, hfull, (Option.some_inj.mp ha).symm⟩
    · exact .inl ha
  · exact .inl ha

lemma allCounted_settle : (h.settle wl).allCounted = h.allCounted := by
  unfold settle
  split
  · split_ifs
    · rw [allCounted_stop]
    · rfl
  · rfl

end History

/-- The history of a list of records repeats what they say. -/
lemma history_all {P : Record → Prop} (id : UInt64) {recs : List Record} (hrecs : ∀ r ∈ recs, P r) :
    (history id recs).All P :=
  recs.foldlRecOn (motive := History.All P) _
    ⟨by simp [History.nothing], by simp [History.nothing, History.allCounted],
      by simp [History.nothing]⟩ fun _ hh r hr => hh.next (hrecs r hr)

/-- Counted values that are the ones `f` gives merge to the merge of `f` over their indices. -/
lemma foldl_merge_eq (hwl : wl.MergeLaws) {f : UInt32 → Partial} (cs : List ChunkDone)
    (hnodup : (cs.map ChunkDone.idx).Nodup) (hf : ∀ c ∈ cs, c.value = f c.idx) :
    cs.foldl (fun a c => wl.merge a c.value) wl.zero =
      hwl.mergeOver f (cs.map ChunkDone.idx).toFinset := by
  induction cs using List.reverseRecOn with
  | nil => rfl
  | append_singleton cs c ih =>
      rw [List.map_append, List.map_singleton] at hnodup ⊢
      obtain ⟨h1, -, h2⟩ := List.nodup_append.mp hnodup
      have hnew : c.idx ∉ (cs.map ChunkDone.idx).toFinset := fun hc =>
        h2 _ (List.mem_toFinset.mp hc) _ (List.mem_singleton_self _) rfl
      have hset : (cs.map ChunkDone.idx ++ [c.idx]).toFinset =
          insert c.idx (cs.map ChunkDone.idx).toFinset := by
        ext i
        simp
      rw [List.foldl_append, ih h1 fun d hd => hf d (List.mem_append_left _ hd), hset,
        hwl.mergeOver_insert f hnew, List.foldl_cons, List.foldl_nil, hf c (by simp)]

namespace Life

variable {id : UInt64} {l : Life id}

/-- A life that has counted right records has merged the answers for its indices. -/
lemma acc_right (hwl : wl.Contract) (hstart : Submitted es l.start.spec)
    (hcounted : ∀ c ∈ l.counted, (Record.chunkDone c).Right wl es) :
    l.acc wl = hwl.mergeOver (l.start.spec.chunkAnswer wl) l.idxs.toFinset :=
  foldl_merge_eq hwl.toMergeLaws l.counted l.counted_nodup fun c hc =>
    hcounted c hc l.start.spec hstart ((l.counted_job c hc).trans l.start_job.symm)
      (l.counted_lt c hc)

lemma Full.idxs (hl : l.Full) : l.idxs.toFinset = indicesBelow l.start.n := by
  refine Finset.eq_of_subset_of_card_le l.idxs_subset ?_
  rw [card_idxs, card_indicesBelow, hl]

end Life

section Recover

variable {now : Time} {ords : RecoverOrders} {recs : List Record} {fails : ℕ → Bool}
  {boot : Recovered}

/-- The tables recovered from right records are right. -/
lemma recover_values (hon : Honest wl p es) (hrecs : ∀ r ∈ recs, r.Right wl es)
    (h : recover wl now ords (some (recs, fails)) = some boot) :
    Values hwl es boot.agg.toTables := by
  have hs := Replay.rebuilt_shows wl now ords.finish recs
  have hall := fun id => history_all (P := Record.Right wl es) id hrecs
  obtain ⟨hd, hj, hr, -⟩ := recover_tables h
  refine ⟨fun id j hl => ?_, fun id j hl => ?_, fun id f hf => ?_⟩
  · obtain ⟨l, hcur, hjl⟩ := hs.exists_life (hj ▸ hl)
    rw [hjl.spec]
    exact (hall id).start l (History.settle_cur_eq_some.mp hcur).1
  · obtain ⟨l, hcur, hjl⟩ := hs.exists_life (hj ▸ hl)
    have hidx : boot.agg.countedIdx id = l.idxs.toFinset := by
      ext i
      rw [Tables.mem_countedIdx, hd, hs.mem_done hcur, List.mem_toFinset]
    have hcur' := (History.settle_cur_eq_some.mp hcur).1
    rw [hjl.acc, hjl.spec, hidx]
    exact Life.acc_right hwl ((hall id).start l hcur') ((hall id).mem_counted (by simp [hcur']))
  · have hans := hs.results id
    rw [← hr, hf] at hans
    rcases History.settle_answer_cases hans.symm with ha | ⟨l, hcur, hfull, ha⟩
    · exact (hall id).answer _ ha
    · -- the last chunk was logged, the answer was not
      have hstart : Submitted es l.start.spec := (hall id).start l hcur
      refine ⟨l.start.spec, hstart, l.start_job, ?_⟩
      rw [ha, Life.acc_right hwl hstart ((hall id).mem_counted (by simp [hcur])), hfull.idxs]
      exact JobSpec.fold_chunks hwl (hon.cut hstart)

/-- The log that right records are compacted to is right. -/
lemma recover_compact_right (hrecs : ∀ r ∈ recs, r.Right wl es)
    (h : recover wl now ords (some (recs, fails)) = some boot)
    (hv : Values hwl es boot.agg.toTables) :
    ∀ rec ∈ (Replay.rebuilt wl now ords.finish recs).compact ords.snapshot ords.jobs,
      rec.Right wl es := by
  have hs := Replay.rebuilt_shows wl now ords.finish recs
  obtain ⟨-, -, hr, -⟩ := recover_tables h
  intro rec hrec
  rcases List.mem_append.mp hrec with hrec | hrec
  · rw [← hr] at hrec
    exact hv.snapshotResults_right _ rec hrec
  · obtain ⟨id, -, hrec⟩ := List.mem_flatMap.mp hrec
    have hall := history_all (P := Record.Right wl es) id hrecs
    cases hl : ((history id recs).settle wl).cur with
    | none =>
        rw [hs.compactJob_idle hl] at hrec
        cases hrec
    | some l =>
        rw [hs.compactJob_running hl, History.allCounted_settle] at hrec
        rcases List.mem_cons.mp hrec with rfl | hrec
        · exact hall.start l (History.settle_cur_eq_some.mp hl).1
        · obtain ⟨c, hc, rfl⟩ := List.mem_map.mp hrec
          exact hall.counted c hc

/-- **Recovery from right records** gives right tables and a right log. -/
lemma recover_right {file : Option (List Record × (ℕ → Bool))} (hon : Honest wl p es)
    (hfile : ∀ recs fails, file = some (recs, fails) → ∀ r ∈ recs, r.Right wl es)
    (h : recover wl now ords file = some boot) : boot.agg.Right hwl es := by
  have hok := (recover_boots h).ok
  cases file with
  | none =>
      obtain rfl := Option.some_inj.mp h
      obtain ⟨-, hv, -⟩ := (exact_empty : Exact hwl es Agg.empty.seen)
      exact ⟨hok, hv, by simp [Agg.empty], by simp [Agg.empty]⟩
  | some file =>
      obtain ⟨recs, fails⟩ := file
      have hrecs := hfile recs fails rfl
      have hv : Values hwl es boot.agg.toTables := recover_values hon hrecs h
      have hcompact := recover_compact_right hrecs h hv
      rw [recover] at h
      dsimp only at h
      split_ifs at h with hnil
      · obtain rfl := Option.some_inj.mp h
        exact ⟨hok, hv, by simp, fun l hl => Option.some_inj.mp hl ▸ hrecs⟩
      · obtain rfl := Option.some_inj.mp h
        refine ⟨hok, hv, by simp, fun l hl => ?_⟩
        obtain rfl := Option.some_inj.mp hl
        unfold Log.rewrite
        split_ifs
        · exact hrecs
        · exact hcompact

end Recover

/-! ## The system -/

/-- The spec a handler has is one of a job that exists. -/
def Handler.Right (es : List Event) : Handler → Prop
  | .submitting _ spec | .replied _ spec _ => Submitted es spec
  | .feeding _ _ => True

/-- What comes in with the action is right. -/
def Action.Right (wl : Workload) (p : Params) (es : List Event) : Action → Prop
  | .readRequest _ req => Submitted es (JobSpec.ofRequest p.chunkSize req)
  | .readResult _ r => r.Right wl es
  | _ => True

/-- What the scheduler holds is right, and what circulates is cut as the specs say. -/
structure Sys.Right {wl : Workload} (hwl : wl.Contract) (es : List Event) (s : Sys) : Prop where
  ok : s.Ok
  agg : s.agg.Right hwl es
  own : ∀ spec, Submitted es spec → s.Own wl spec
  handler : ∀ g h, s.handlers.lookup g = some h → h.Right es

namespace Sys

variable {s t : Sys} {a : Action}

/-- What a step asks of the aggregator is right. -/
lemma Right.event (hs : s.Right hwl es) (h : Move wl p s a t) :
    t.agg = s.agg ∨ ∃ e, e.Right wl es ∧ t.agg = s.agg.step wl p e := by
  cases h with
  | @gone c now => exact .inr ⟨.clientGone c now, trivial, rfl⟩
  | @submit g h spec now hg =>
      exact .inr ⟨.submit h spec (h ∈ s.down) now, hs.handler _ _ hg, rfl⟩
  | @deliver w l r now hl hph =>
      refine .inr ⟨.result r now, fun spec hspec => ?_, rfl⟩
      exact ((hs.own spec hspec).loop w l hl).held r hph
  | @tick now ords => exact .inr ⟨.tick now ords, trivial, rfl⟩
  | _ => exact .inl rfl

/-- A result that is right for every job is as good as the answer to a chunk of this run, which is
what `Own.move` asks for: after a restart a worker may still answer chunks of the run before. -/
lemma Right.own_move (hon : Honest wl p es) (hs : s.Right hwl es) (ha : a.Right wl p es)
    (h : Move wl p s a t) {spec : JobSpec} (hspec : Submitted es spec) : t.Own wl spec := by
  have hown := hs.own spec hspec
  have hnew : ∀ g now c spec', a = .submit g now →
      s.handlers.lookup g = some (.submitting c spec') → s.agg.Starts spec' →
      spec'.id = spec.id → spec' = spec := fun g now c spec' _ hg _ hid =>
    hon.spec_eq (hs.handler g _ hg) hspec hid
  by_cases hres : ∃ c r, a = .readResult c r
  · obtain ⟨c, r, rfl⟩ := hres
    cases h with
    | ignored => exact hown
    | result =>
        refine { hown with disp := ?_ }
        rintro _ _ ⟨rfl, rfl⟩
        exact ha spec hspec
  · refine hown.move hs.ok ?_ hnew h
    unfold WorkersHonest
    split
    · exact absurd ⟨_, _, rfl⟩ hres
    · trivial

lemma Right.handler_move (hs : s.Right hwl es) (ha : a.Right wl p es) (h : Move wl p s a t) :
    ∀ g h, t.handlers.lookup g = some h → h.Right es := by
  cases h with
  | request => exact GoMap.forall_insert hs.handler ha
  | submit hg =>
      have hspec := hs.handler _ _ hg
      exact GoMap.forall_insert hs.handler hspec
  | begin => exact GoMap.forall_insert hs.handler trivial
  | leave => exact GoMap.forall_erase hs.handler _
  | feed => exact GoMap.forall_insert hs.handler trivial
  | feedCancel => exact GoMap.forall_erase hs.handler _
  | _ => exact hs.handler

/-- **A step keeps the scheduler right**, if what comes in is. -/
lemma Right.move (hon : Honest wl p es) (hs : s.Right hwl es) (ha : a.Right wl p es)
    (h : Move wl p s a t) : t.Right hwl es where
  ok := h.ok hs.ok
  agg := by
    rcases hs.event h with he | ⟨e, hright, he⟩
    · rw [he]
      exact hs.agg
    · rw [he]
      exact hs.agg.step hon hright
  own _ hspec := hs.own_move hon ha h hspec
  handler := hs.handler_move ha h

/-- The chunks a step writes are right. -/
lemma Right.wrote (hs : s.Right hwl es) (h : Move wl p s a t) :
    ∃ chunks : List (ℕ × Chunk), t.wrote = s.wrote ++ chunks ∧ ∀ ch ∈ chunks, ch.2.Right es := by
  cases h with
  | @loop w a l q l' chunks hl hm =>
      refine ⟨_, rfl, fun ch hmem spec hspec => ?_⟩
      obtain ⟨ch', hch', rfl⟩ := List.mem_map.mp hmem
      have hown := hs.own spec hspec
      exact ((hown.loop w l hl).move hown.queues hm).2.2 ch' hch'
  | _ => exact ⟨[], (List.append_nil _).symm, by simp⟩

/-- **What a step writes is right.** -/
lemma Right.written (hon : Honest wl p es) (hs : s.Right hwl es) (ha : a.Right wl p es)
    (h : Move wl p s a t) : ∀ e ∈ s.written t, e.2.2.Right wl es p := by
  obtain ⟨chunks, hwrote, hright⟩ := hs.wrote h
  intro e he
  rcases List.mem_append.mp he with he | he
  · rw [hwrote, List.drop_left] at he
    obtain ⟨ch, hch, rfl⟩ := List.mem_map.mp he
    exact hright ch hch
  · obtain ⟨o, ho, he⟩ := List.mem_filterMap.mp he
    split at he
    · obtain rfl := Option.some_inj.mp he
      exact (hs.move hon ha h).agg.out _ _ (List.mem_of_mem_drop ho)
    · cases he

/-- A scheduler that starts from a right state. -/
lemma start_right {boot : Recovered} (hon : Honest wl p es) (hb : boot.Boots)
    (hagg : boot.agg.Right hwl es) : (start boot).Right hwl es := by
  have hsame : (start boot).agg = boot.agg :=
    start_induction (P := fun s => s.agg = boot.agg) rfl fun _ _ _ hs => hs
  refine ⟨start_ok hb, hsame ▸ hagg, fun spec hspec => ?_, ?_⟩
  · refine start_induction (P := Sys.Own wl spec) ?_ fun s f hf hs => ?_
    · refine ⟨?_, ⟨?_, ?_⟩, ?_, ?_, ?_⟩ <;> simp [initial]
    · refine { hs with handler := GoMap.forall_insert hs.handler fun u hu => ?_ }
      refine JobSpec.ownTask_of_mem_feed (fun hid => ?_) hu
      obtain ⟨j, hj, hfs, -⟩ := hb.feeds f hf
      exact hon.spec_eq (hfs ▸ hagg.values.spec _ j hj) hspec hid
  · refine start_induction (P := fun s => ∀ g h, s.handlers.lookup g = some h → h.Right es)
      (by simp [initial]) fun s f hf hs => ?_
    exact GoMap.forall_insert hs trivial

end Sys

end RudpScheduler
