import RudpScheduler.Properties.Resume

/-!
# Compacting the log at start-up

After the replay `recover` replaces the log by a shorter one: the stored answers, and for every
unfinished job its `JobStart` followed by the side list of its `ChunkDone` records.
`history_compact_running` and `history_compact_idle` say what the shorter log says about a job;
for an unfinished one it is a life that counts the first record of each index on the side list.

`view_compact_iff` compares the state rebuilt from the shorter log with the one rebuilt from the
log, and `compaction_keeps_iff` says when compaction loses nothing and is idempotent.
-/

namespace RudpScheduler

variable {wl : Workload} {r : Replay} {h : ∀ id, History id}

/-! ## The compacted log, job by job -/

lemma History.allCounted_job {id : UInt64} (h : History id) : ∀ c ∈ h.allCounted, c.job = id := by
  intro c hc
  obtain ⟨l, -, hl⟩ := List.mem_flatMap.mp hc
  exact l.counted_job c hl

lemma History.mem_allCounted {id : UInt64} {h : History id} {l : Life id} (hl : h.cur = some l)
    {c : ChunkDone} :
    c ∈ h.allCounted ↔ (∃ p ∈ h.past, c ∈ p.counted) ∨ c ∈ l.counted := by
  simp [History.allCounted, hl, List.mem_flatMap]

/-- What `snapshotResults` writes about one job. -/
lemma Agg.filter_snapshotResults (ord : RangeOrder UInt64) (rs : GoMap UInt64 Finished)
    (id : UInt64) :
    (Agg.snapshotResults ord rs).filter (fun rec => rec.job = id) =
      (((rs.lookup id).map Finished.result).map fun a =>
        Record.jobDone ⟨id, a.hash, a.nonce⟩).toList := by
  rw [Agg.snapshotResults, RangeOrder.filter_filterMap_key Record.job ?_ (ord.range_nodup _)]
  · split_ifs with hid
    · rw [Option.map_map]
      rfl
    · rw [ord.mem_range_iff_lookup] at hid
      rw [Option.eq_none_iff_forall_ne_some.mpr fun f hf => hid ⟨f, hf⟩]
      rfl
  · intro id' rec hrec
    obtain ⟨f, -, rfl⟩ := Option.map_eq_some_iff.mp hrec
    rfl

namespace Replay.Shows

lemma compactJob_job (hs : r.Shows wl h) (id : UInt64) : ∀ rec ∈ r.compactJob id, rec.job = id := by
  intro rec hrec
  unfold Replay.compactJob at hrec
  split at hrec
  · rcases List.mem_cons.mp hrec with rfl | hrec
    · rfl
    · obtain ⟨c, hc, rfl⟩ := List.mem_map.mp hrec
      rw [hs.chunks] at hc
      exact (h id).allCounted_job c hc
  · cases hrec

/-- The records of the compacted log about one job. -/
lemma filter_compact (hs : r.Shows wl h) (o o' : RangeOrder UInt64) (id : UInt64) :
    (r.compact o o').filter (fun rec => rec.job = id) =
      ((h id).answer.map fun a => Record.jobDone ⟨id, a.hash, a.nonce⟩).toList ++
        r.compactJob id := by
  rw [Replay.compact, List.filter_append, Agg.filter_snapshotResults, hs.results,
    RangeOrder.filter_flatMap_key Record.job hs.compactJob_job (o'.range_nodup _)]
  split_ifs with hid
  · rfl
  · rw [o'.mem_range_iff_lookup] at hid
    rw [Replay.compactJob, Option.eq_none_iff_forall_ne_some.mpr fun j hj => hid ⟨j, hj⟩]

/-- The records of an unfinished job: its start, and the side list. -/
lemma compactJob_running (hs : r.Shows wl h) {id : UInt64} {l : Life id}
    (hl : (h id).cur = some l) :
    r.compactJob id = .jobStart l.start :: (h id).allCounted.map .chunkDone := by
  obtain ⟨j, hj, hjl⟩ := hs.exists_job hl
  have hstart : (⟨id, j.spec.lo, j.spec.hi, j.spec.size, j.spec.n, j.spec.msg⟩ : JobStart) =
      l.start := by
    rw [hjl.spec, ← l.start.spec_start]
    simp only [JobSpec.start, JobStart.spec, l.start_job]
  simp only [Replay.compactJob, hj, hs.chunks, hstart]

lemma compactJob_idle (hs : r.Shows wl h) {id : UInt64} (hl : (h id).cur = none) :
    r.compactJob id = [] := by
  rw [Replay.compactJob, hs.lookup_eq_none hl]

lemma mem_compact (hs : r.Shows wl h) (o o' : RangeOrder UInt64) (rec : Record) :
    rec ∈ r.compact o o' ↔
      rec ∈ ((h rec.job).answer.map fun a => Record.jobDone ⟨rec.job, a.hash, a.nonce⟩).toList ∨
        rec ∈ r.compactJob rec.job := by
  rw [← List.mem_append, ← hs.filter_compact o o', List.mem_filter, decide_eq_true rfl]
  simp

/-- The compacted log repeats the side list of an unfinished job. -/
lemma chunkDone_mem_compact (hs : r.Shows wl h) (o o' : RangeOrder UInt64) {id : UInt64}
    {l : Life id} (hl : (h id).cur = some l) {c : ChunkDone} (hc : c.job = id) :
    .chunkDone c ∈ r.compact o o' ↔ c ∈ (h id).allCounted := by
  subst hc
  rw [hs.mem_compact, Record.job, hs.compactJob_running hl]
  simp

/-- An unfinished job: the compacted log counts the first record of each index on the side
list. -/
lemma history_compact_running (hs : r.Shows wl h) (o o' : RangeOrder UInt64) {id : UInt64}
    {l : Life id} (hl : (h id).cur = some l) (ha : (h id).answer = none) :
    ∃ l' : Life id, history id (r.compact o o') = ⟨[], some l', none⟩ ∧ l'.start = l.start ∧
      l'.counted = firsts l.start.n (h id).allCounted := by
  rw [← history_filter, hs.filter_compact, ha, hs.compactJob_running hl]
  exact history_start l.start_job (h id).allCounted_job

/-- Any other job: the compacted log repeats its answer, if there is one. -/
lemma history_compact_idle (hs : r.Shows wl h) (o o' : RangeOrder UInt64) {id : UInt64}
    (hl : (h id).cur = none) :
    history id (r.compact o o') = ⟨[], none, (h id).answer⟩ := by
  rw [← history_filter, hs.filter_compact, hs.compactJob_idle hl, List.append_nil]
  cases (h id).answer with
  | none => rfl
  | some a => exact History.next_jobDone _ rfl

end Replay.Shows

/-! ## The state rebuilt from the compacted log -/

/-- The replayed tables with clients and timestamps ignored. -/
def Replay.view (r : Replay) : View := RudpScheduler.view r.jobs r.done r.results

/-- For every unfinished job, the first records of the indices counted in any of its lives are
about the indices counted in the current one, and merge to the same answer. -/
def CountsAlike (wl : Workload) (recs : List Record) : Prop :=
  ∀ id (l : Life id), (history id recs).cur = some l → ¬ l.Full →
    ((firsts l.start.n (history id recs).allCounted).map ChunkDone.idx).toFinset =
        l.idxs.toFinset ∧
      (firsts l.start.n (history id recs).allCounted).foldl
        (fun a c => wl.merge a c.value) wl.zero = l.acc wl

lemma History.settle_answer {id : UInt64} {h : History id} {l : Life id}
    (hh : ∀ l, h.cur = some l → h.answer = none) (hl : (h.settle wl).cur = some l) :
    (h.settle wl).answer = none := by
  rw [settle_of_cur hl]
  exact hh l (settle_cur_eq_some.mp hl).1

/-- An unfinished job looks the same in the compacted log exactly when the side list counts what
its current life has counted. -/
lemma History.shown_settle_eq_iff {id : UInt64} {h : History id} {l l' : Life id}
    (hl : h.cur = some l) (ha : h.answer = none) (hfull : ¬ l.Full) (hstart : l'.start = l.start) :
    ((⟨[], some l', none⟩ : History id).settle wl).shown wl = h.shown wl ↔
      l'.idxs.toFinset = l.idxs.toFinset ∧ l'.acc wl = l.acc wl := by
  have hcard : l'.idxs.toFinset = l.idxs.toFinset → ¬ l'.Full := by
    intro he
    rwa [Life.Full, ← l'.card_idxs, he, l.card_idxs, hstart]
  by_cases hfull' : l'.Full
  · simp only [settle, hfull', if_true, stop, shown, hl, Option.map_none, Option.map_some,
      Prod.mk.injEq, reduceCtorEq, false_and, false_iff, not_and]
    exact fun he => absurd hfull' (hcard he)
  · simp [settle, hfull', shown, hl, ha, hstart]

/-- **When compaction keeps the state.**  Whatever the orders of the loops and the clocks, the
state rebuilt from the compacted log is the one it was built from, up to timestamps, if and only
if every unfinished job's side list counts what its current life has counted. -/
lemma view_compact_iff (wl : Workload) (now now' : Time) (ord ord' o o' : RangeOrder UInt64)
    (recs : List Record) :
    (Replay.rebuilt wl now' ord' ((Replay.rebuilt wl now ord recs).compact o o')).view =
      (Replay.rebuilt wl now ord recs).view ↔ CountsAlike wl recs := by
  have hs := Replay.rebuilt_shows wl now ord recs
  generalize Replay.rebuilt wl now ord recs = r at hs ⊢
  have hs' := Replay.rebuilt_shows wl now' ord' (r.compact o o')
  rw [Replay.view, Replay.view, hs'.view_eq_iff hs.toShows]
  refine forall_congr' fun id => ?_
  cases hcur : ((history id recs).settle wl).cur with
  | none =>
      -- nothing to compare: the job is idle on both sides
      have hidle : ∀ l, (history id recs).cur = some l → l.Full := by
        intro l hl
        by_contra hfull
        rw [History.settle_cur_eq_some.mpr ⟨hl, hfull⟩] at hcur
        cases hcur
      rw [hs.history_compact_idle o o' hcur]
      refine iff_of_true ?_ fun l hl hfull => absurd (hidle l hl) hfull
      rw [History.shown, History.shown, hcur]
      rfl
  | some l =>
      have ha := History.settle_answer (history_answer id recs) hcur
      obtain ⟨hl, hfull⟩ := History.settle_cur_eq_some.mp hcur
      obtain ⟨l', hl', hstart, hcounted⟩ := hs.history_compact_running o o' hcur ha
      rw [hl', History.shown_settle_eq_iff hcur ha hfull hstart, Life.idxs, Life.acc, hcounted,
        History.settle_of_cur hcur]
      refine ⟨fun he k hk _ => ?_, fun he => he l hl hfull⟩
      rwa [← Option.some_inj.mp (hl.symm.trans hk)]

/-! ## Compaction loses nothing and is idempotent -/

/-- Replaying the compacted log gives the state it was made from, and compacting that once more
gives the same set of records. -/
def CompactionKeeps (wl : Workload) (recs : List Record) (now now' : Time)
    (o o' : RecoverOrders) : Prop :=
  let r := Replay.rebuilt wl now o.finish recs
  let c := r.compact o.snapshot o.jobs
  let r' := Replay.rebuilt wl now' o'.finish c
  r'.view = r.view ∧ ∀ rec, rec ∈ r'.compact o'.snapshot o'.jobs ↔ rec ∈ c

/-- Every record counted in an earlier life of an unfinished job has been counted again, with the
same answer, in the current one. -/
def NoStaleRecord (recs : List Record) : Prop :=
  ∀ id (l : Life id), (history id recs).cur = some l → ¬ l.Full →
    ∀ p ∈ (history id recs).past, ∀ c ∈ p.counted, c ∈ l.counted

/-- The first records of a list that repeats what a life has counted. -/
lemma Life.mem_firsts {id : UInt64} {l : Life id} {cs : List ChunkDone}
    (hcs : ∀ c, c ∈ cs ↔ c ∈ l.counted) {c : ChunkDone} :
    c ∈ firsts l.start.n cs ↔ c ∈ l.counted := by
  refine ⟨fun hc => (hcs c).mp (mem_of_mem_firsts hc), fun hc => ?_⟩
  obtain ⟨e, he, hidx⟩ := exists_mem_firsts ((hcs c).mpr hc) (l.counted_lt c hc)
  have hec : e = c :=
    List.inj_on_of_nodup_map l.counted_nodup ((hcs e).mp (mem_of_mem_firsts he)) hc hidx
  rwa [← hec]

/-- Lives that have counted the same records have merged the same. -/
lemma Life.acc_eq_of_mem_iff (hwl : wl.MergeLaws) {id : UInt64} {l l' : Life id}
    (hmem : ∀ c, c ∈ l'.counted ↔ c ∈ l.counted) : l'.acc wl = l.acc wl := by
  have hperm : l'.counted.Perm l.counted :=
    (List.perm_ext_iff_of_nodup (l'.counted_nodup.of_map _) (l.counted_nodup.of_map _)).mpr hmem
  refine hperm.foldl_eq' (fun x _ y _ z => ?_) _
  rw [hwl.merge_assoc, hwl.merge_comm x.value, ← hwl.merge_assoc]

lemma NoStaleRecord.mem_allCounted {recs : List Record} (hstale : NoStaleRecord recs)
    {id : UInt64} {l : Life id} (hl : (history id recs).cur = some l) (hfull : ¬ l.Full)
    (c : ChunkDone) : c ∈ (history id recs).allCounted ↔ c ∈ l.counted := by
  rw [History.mem_allCounted hl]
  refine or_iff_right_of_imp ?_
  rintro ⟨p, hp, hc⟩
  exact hstale id l hl hfull p hp c hc

/-- Two replays with the same view and the same side lists, as sets, have the same records in
their compacted logs. -/
lemma Replay.Shows.mem_compact_iff {r' : Replay} {h' : ∀ id, History id} (hs : r.Shows wl h)
    (hs' : r'.Shows wl h') (hview : r'.view = r.view)
    (hchunks : ∀ id l, (h id).cur = some l → ∀ c, c ∈ (h' id).allCounted ↔ c ∈ (h id).allCounted)
    (o o' p p' : RangeOrder UInt64) (rec : Record) :
    rec ∈ r'.compact p p' ↔ rec ∈ r.compact o o' := by
  have hshown := hs'.shown_eq_of_view_eq hs.toShows hview rec.job
  have hans : (h' rec.job).answer = (h rec.job).answer := congrArg Prod.snd hshown
  rw [hs.mem_compact, hs'.mem_compact, hans]
  refine or_congr Iff.rfl ?_
  cases hl : (h rec.job).cur with
  | none =>
      have hl' : (h' rec.job).cur = none := by
        have := congrArg Prod.fst hshown
        simpa [History.shown, hl] using this
      rw [hs.compactJob_idle hl, hs'.compactJob_idle hl']
  | some l =>
      have := congrArg Prod.fst hshown
      simp only [History.shown, hl, Option.map_some, Option.map_eq_some_iff, Prod.mk.injEq] at this
      obtain ⟨l', hl', hstart, -⟩ := this
      rw [hs.compactJob_running hl, hs'.compactJob_running hl', hstart, List.mem_cons,
        List.mem_cons, List.mem_map, List.mem_map]
      simp only [hchunks rec.job l hl]

lemma NoStaleRecord.countsAlike (hwl : wl.MergeLaws) {recs : List Record}
    (hstale : NoStaleRecord recs) : CountsAlike wl recs := by
  intro id l hl hfull
  obtain ⟨l', -, -, hcounted⟩ := history_start l.start_job (history id recs).allCounted_job
  have hmem : ∀ c, c ∈ l'.counted ↔ c ∈ l.counted := by
    intro c
    rw [hcounted]
    exact Life.mem_firsts (hstale.mem_allCounted hl hfull)
  rw [← hcounted]
  refine ⟨?_, Life.acc_eq_of_mem_iff hwl hmem⟩
  ext i
  simp only [List.mem_toFinset, List.mem_map, Life.idxs, hmem]

/-- Where compaction keeps the state, an unfinished job has one life in the compacted log, which
counts the first records of the side list and the indices of the current life. -/
lemma Replay.Shows.compacted_life {recs : List Record} {o o' : RangeOrder UInt64} {r' : Replay}
    (hs : r.Shows wl fun id => (history id recs).settle wl)
    (hs' : r'.Shows wl fun id => (history id (r.compact o o')).settle wl)
    (hview : r'.view = r.view) {id : UInt64} {l : Life id}
    (hcur : ((history id recs).settle wl).cur = some l) :
    ∃ l' : Life id, (history id (r.compact o o')).settle wl = ⟨[], some l', none⟩ ∧
      l'.counted = firsts l.start.n ((history id recs).settle wl).allCounted ∧
      l'.idxs.toFinset = l.idxs.toFinset := by
  have hshown := congrArg Prod.fst (hs'.shown_eq_of_view_eq hs.toShows hview id)
  simp only [History.shown, hcur, Option.map_some, Option.map_eq_some_iff, Prod.mk.injEq] at hshown
  obtain ⟨l', hcur', -, hidxs, -⟩ := hshown
  obtain ⟨k, hk, -, hcounted⟩ :=
    hs.history_compact_running o o' hcur (History.settle_answer (history_answer id recs) hcur)
  -- the life is not over, so settling changes nothing
  have hsame := (History.settle_of_cur hcur').trans hk
  rw [hsame] at hcur'
  obtain rfl := Option.some_inj.mp hcur'
  exact ⟨k, hsame, hcounted, hidxs⟩

lemma History.allCounted_single {id : UInt64} (l : Life id) (a : Option Partial) :
    (⟨[], some l, a⟩ : History id).allCounted = l.counted := by
  simp [History.allCounted]

/-- **When start-up compaction preserves the state.**  For every list of records, whatever the
clocks and the orders of the loops: replaying the compacted log gives the state it was made from,
and compacting that state gives the same records again, if and only if everything counted in an
earlier life of an unfinished job has been counted again in its current life. -/
theorem compaction_keeps_iff (hwl : wl.MergeLaws) (recs : List Record) (now now' : Time)
    (o o' : RecoverOrders) : CompactionKeeps wl recs now now' o o' ↔ NoStaleRecord recs := by
  have hiff := view_compact_iff wl now now' o.finish o'.finish o.snapshot o.jobs recs
  have hs := Replay.rebuilt_shows wl now o.finish recs
  rw [CompactionKeeps]
  generalize Replay.rebuilt wl now o.finish recs = r at *
  have hs' := Replay.rebuilt_shows wl now' o'.finish (r.compact o.snapshot o.jobs)
  generalize Replay.rebuilt wl now' o'.finish (r.compact o.snapshot o.jobs) = r' at *
  constructor
  · rintro ⟨hview, hrecs⟩ id l hl hfull p hp c hc
    have hcur : ((history id recs).settle wl).cur = some l :=
      History.settle_cur_eq_some.mpr ⟨hl, hfull⟩
    obtain ⟨l', hlife, -, hidxs⟩ := hs.compacted_life hs' hview hcur
    -- what was counted in any life of the job is counted in the life after compaction
    have hcounted : ∀ c ∈ (history id recs).allCounted, c ∈ l'.counted := by
      intro c hc
      have hjob := (history id recs).allCounted_job c hc
      rw [← History.settle_of_cur hcur, ← hs.chunkDone_mem_compact o.snapshot o.jobs hcur hjob,
        ← hrecs, hs'.chunkDone_mem_compact _ _ (by rw [hlife]) hjob, hlife,
        History.allCounted_single] at hc
      exact hc
    have hc' := hcounted c ((History.mem_allCounted hl).mpr (Or.inl ⟨p, hp, hc⟩))
    have hidx : c.idx ∈ l.idxs := by
      rw [← List.mem_toFinset, ← hidxs, List.mem_toFinset]
      exact List.mem_map_of_mem hc'
    -- so the current life has a record of the index, and it is the same one
    obtain ⟨e, he, hei⟩ := Life.mem_idxs.mp hidx
    have he' := hcounted e ((History.mem_allCounted hl).mpr (Or.inr he))
    rwa [← List.inj_on_of_nodup_map l'.counted_nodup he' hc' hei]
  · intro hstale
    have hview := hiff.mpr (hstale.countsAlike hwl)
    refine ⟨hview, hs.mem_compact_iff hs' hview (fun id l hcur c => ?_) _ _ _ _⟩
    obtain ⟨hl, hfull⟩ := History.settle_cur_eq_some.mp hcur
    obtain ⟨l', hlife, hcounted, -⟩ := hs.compacted_life hs' hview hcur
    have hmem := hstale.mem_allCounted hl hfull
    rw [hlife, History.allCounted_single, hcounted, History.settle_of_cur hcur, hmem]
    exact Life.mem_firsts hmem

/-- The job of `staleLog`, once the chunk of its first life has been counted again. -/
def recountedLog : List Record := staleLog ++ [.chunkDone ⟨7, 0, 10000, 0⟩]

/-- The one record of `recountedLog` that both lives have counted. -/
lemma recountedLog_noStaleRecord : NoStaleRecord recountedLog := by
  intro id l hl hfull p hp c hc
  have hid : id = 7 := by
    by_contra hne
    have hnothing : history id recountedLog = History.nothing := by
      rw [← history_filter]
      have : recountedLog.filter (fun rec => rec.job = id) = [] := by
        rw [List.filter_eq_nil_iff]
        have hall : ∀ rec ∈ recountedLog, rec.job = 7 := by decide
        intro rec hrec
        rw [hall rec hrec, decide_eq_true_eq]
        exact Ne.symm hne
      rw [this]
      rfl
    rw [hnothing] at hl
    cases hl
  subst hid
  have hcur : (history 7 recountedLog).cur.map Life.counted = some [⟨7, 0, 10000, 0⟩] := by
    decide +kernel
  have hpast : ∀ q ∈ (history 7 recountedLog).past, q.counted = [⟨7, 0, 10000, 0⟩] := by
    decide +kernel
  rw [hl, Option.map_some, Option.some_inj] at hcur
  rwa [hcur, ← hpast p hp]

theorem compaction_keeps_recountedLog :
    Workload.largest.MergeLaws ∧
      CompactionKeeps Workload.largest recountedLog 0 0 ⟨idOrder, idOrder, idOrder⟩
        ⟨idOrder, idOrder, idOrder⟩ :=
  ⟨Workload.largest_contract.toMergeLaws,
    (compaction_keeps_iff Workload.largest_contract.toMergeLaws recountedLog 0 0 _ _).mpr
      recountedLog_noStaleRecord⟩

/-- The log of `staleRun`: after compaction the replay counts chunk 0, which was never counted in
the job's current life. -/
theorem staleLog_not_keeps :
    ¬ CompactionKeeps Workload.largest staleLog 0 0 ⟨idOrder, idOrder, idOrder⟩
      ⟨idOrder, idOrder, idOrder⟩ := by
  rintro ⟨hview, -⟩
  have hdone := congrArg View.done hview
  exact absurd hdone (by decide +kernel)

end RudpScheduler
