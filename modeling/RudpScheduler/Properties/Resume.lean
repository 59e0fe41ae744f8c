import RudpScheduler.Properties.Recovery

/-!
# Which chunks a recovered job queues

`recover` starts a feeder for every unfinished job and tells it which indices to skip.  The skip
set is built from the side list `chunks`, the table the aggregator consults is `done`, and
`queues_iff` says when the two agree: exactly when no index counted in an earlier life of an
unfinished job is still uncounted in the current one.

The section on stale chunks is the other side.  A client that loses its job to the grace period
and asks again leaves a log in which they disagree; the resumed feeder then skips a chunk that
is not counted, and the job never finishes.
-/

namespace RudpScheduler

/-- `f` is the one resume entry of job `id`, and it queues what is not counted. -/
structure ResumesAs (r : Replay) (ord : RangeOrder UInt64) (id : UInt64) (j : Job)
    (f : Resume) : Prop where
  single : (r.feeds ord).filter (fun f => f.spec.id = id) = [f]
  spec : f.spec = j.spec
  cancel : f.cancel = j.cancel
  /-- What is skipped is what is counted. -/
  skip : ∀ i, i ∈ f.skip ↔ i < j.spec.n ∧ (⟨id, i⟩ : TaskID) ∈ r.done
  remaining : j.remaining.toNat + f.skip.card = j.spec.n.toNat
  /-- Every index is either queued by the feeder or counted, and not both. -/
  queued : ∀ i < j.spec.n,
    (∃ t ∈ f.spec.feed f.skip, t.id = ⟨id, i⟩) ↔ (⟨id, i⟩ : TaskID) ∉ r.done

/-- Every recovered job queues exactly its uncounted chunks. -/
def QueuesUncounted (r : Replay) (ord : RangeOrder UInt64) : Prop :=
  ∀ id j, r.jobs.lookup id = some j → ∃ f, ResumesAs r ord id j f

/-- No index counted in an earlier life of an unfinished job is uncounted in the current one. -/
def NoStaleIndex (recs : List Record) : Prop :=
  ∀ id (l : Life id), (history id recs).cur = some l → ¬ l.Full →
    ∀ p ∈ (history id recs).past, ∀ c ∈ p.counted, c.idx ∈ l.idxs

variable {wl : Workload} {r : Replay} {h : ∀ id, History id}

/-- The resume entry of a running job. -/
lemma Replay.Shows.feeds_eq (hs : r.Shows wl h) (ord : RangeOrder UInt64) {id : UInt64} {j : Job}
    (hj : r.jobs.lookup id = some j) :
    (r.feeds ord).filter (fun f => f.spec.id = id) =
      [⟨j.spec, ((r.chunksOf id).map ChunkDone.idx).toFinset, j.cancel⟩] := by
  rw [feeds, RangeOrder.filter_filterMap_key (fun f : Resume => f.spec.id) ?_ (ord.range_nodup _),
    if_pos ((ord.mem_range_iff_lookup _ _).mpr ⟨j, hj⟩), hj]
  · rfl
  · intro id' f hf
    obtain ⟨k, hk, rfl⟩ := Option.map_eq_some_iff.mp hf
    exact hs.spec_id hk

/-- An index is on the side list when some life of the job has counted it. -/
lemma Replay.Shows.mem_chunks_idx (hs : r.Shows wl h) {id : UInt64} {l : Life id}
    (hl : (h id).cur = some l) (i : UInt32) :
    i ∈ ((r.chunksOf id).map ChunkDone.idx).toFinset ↔
      (∃ p ∈ (h id).past, ∃ c ∈ p.counted, c.idx = i) ∨ i ∈ l.idxs := by
  rw [hs.chunks, List.mem_toFinset, Life.mem_idxs]
  simp only [History.allCounted, hl, Option.toList_some, List.flatMap_append, List.map_append,
    List.mem_append, List.mem_map, List.mem_flatMap, List.mem_singleton, exists_eq_left]
  constructor
  · rintro (⟨c, ⟨p, hp, hc⟩, rfl⟩ | hc)
    · exact Or.inl ⟨p, hp, c, hc, rfl⟩
    · exact Or.inr hc
  · rintro (⟨p, hp, c, hc, rfl⟩ | hc)
    · exact Or.inl ⟨c, ⟨p, hp, hc⟩, rfl⟩
    · exact Or.inr hc

/-- Skipping what the current life has counted is right. -/
lemma Replay.Shows.resumesAs (hs : r.Shows wl h) (ord : RangeOrder UInt64) {id : UInt64} {j : Job}
    (hj : r.jobs.lookup id = some j) {l : Life id} (hl : (h id).cur = some l)
    (hjl : j.Shows wl l)
    (hskip : ((r.chunksOf id).map ChunkDone.idx).toFinset = l.idxs.toFinset) :
    ResumesAs r ord id j ⟨j.spec, ((r.chunksOf id).map ChunkDone.idx).toFinset, j.cancel⟩ where
  single := hs.feeds_eq ord hj
  spec := rfl
  cancel := rfl
  skip i := by
    rw [hs.mem_done hl, hskip, List.mem_toFinset, hjl.spec]
    refine ⟨fun hi => ⟨?_, hi⟩, And.right⟩
    exact mem_indicesBelow.mp (l.idxs_subset (List.mem_toFinset.mpr hi))
  remaining := by
    rw [hskip, l.card_idxs, hjl.spec]
    exact hjl.remaining
  queued i hi := by
    rw [hs.mem_done hl, hskip]
    constructor
    · rintro ⟨t, ht, hid⟩ hmem
      obtain ⟨k, -, hk, rfl⟩ := JobSpec.mem_feed.mp ht
      rw [JobSpec.task_id, TaskID.mk.injEq] at hid
      rw [hid.2] at hk
      exact hk (List.mem_toFinset.mpr hmem)
    · intro hnot
      refine ⟨j.spec.task i, JobSpec.mem_feed.mpr ⟨i, hi, ?_, rfl⟩, ?_⟩
      · exact fun hmem => hnot (List.mem_toFinset.mp hmem)
      · rw [JobSpec.task_id, hs.spec_id hj]

/-- **When recovery queues exactly the uncounted chunks.**  For every list of records, whatever
the orders of the loops: every job left running has one resume entry that skips what `done`
holds and queues the rest, if and only if no index counted in an earlier life of an unfinished
job is uncounted in its current life. -/
theorem queues_iff (wl : Workload) (now : Time) (ord ord' : RangeOrder UInt64)
    (recs : List Record) :
    QueuesUncounted (Replay.rebuilt wl now ord recs) ord' ↔ NoStaleIndex recs := by
  have hs := Replay.rebuilt_shows wl now ord recs
  constructor
  · intro hq id l hl hfull p hp c hc
    have hcur : ((history id recs).settle wl).cur = some l :=
      History.settle_cur_eq_some.mpr ⟨hl, hfull⟩
    obtain ⟨j, hj, -⟩ := hs.exists_job hcur
    obtain ⟨f, hf⟩ := hq id j hj
    -- the entry is the one built from the side list, so it skips the stale index
    have hfeq := List.singleton_inj.mp (hf.single.symm.trans (hs.feeds_eq ord' hj))
    have hmem : c.idx ∈ f.skip := by
      rw [hfeq, hs.mem_chunks_idx hcur, History.settle_of_cur hcur]
      exact Or.inl ⟨p, hp, c, hc, rfl⟩
    exact (hs.mem_done hcur c.idx).mp ((hf.skip c.idx).mp hmem).2
  · intro hstale id j hj
    obtain ⟨l, hcur, hjl⟩ := hs.exists_life hj
    obtain ⟨hl, hfull⟩ := History.settle_cur_eq_some.mp hcur
    refine ⟨_, hs.resumesAs ord' hj hcur hjl ?_⟩
    ext i
    rw [hs.mem_chunks_idx hcur, History.settle_of_cur hcur, List.mem_toFinset]
    refine or_iff_right_of_imp ?_
    rintro ⟨p, hp, c, hc, rfl⟩
    exact hstale id l hl hfull p hp c hc

/-! ## Stale chunks -/

/-- The two chunks of the job below. -/
def staleSpec : JobSpec := JobSpec.ofRequest Params.default.chunkSize ⟨7, 0, 15000, []⟩

/-- A client asks, one chunk is counted, the client is lost for longer than the grace period,
and asks again over a new connection. -/
def staleRun : List Event :=
  [.submit 1 staleSpec false 0,
    .result (Workload.largest.answer (staleSpec.task 0).chunk) 1,
    .clientGone 1 2,
    .tick 6000000000 ⟨idOrder, idOrder, idOrder⟩,
    .submit 2 staleSpec false 6000000001]

/-- The log this run leaves behind. -/
def staleLog : List Record :=
  [.jobStart staleSpec.start, .chunkDone ⟨7, 0, 10000, 0⟩, .jobDrop ⟨7⟩, .jobStart staleSpec.start]

/-- The run starts from a fresh log and leaves `staleLog`. -/
def StaleRunWrites : Prop :=
  ∃ boot, recover Workload.largest 0 ⟨idOrder, idOrder, idOrder⟩ (some ([], fun _ => false)) =
      some boot ∧
    (staleRun.foldl (Agg.step Workload.largest Params.default) boot.agg).log.map Log.recs =
      some staleLog

lemma staleRun_writes : StaleRunWrites := ⟨_, rfl, by decide +kernel⟩

/-- Recovery from the log of `staleRun` skips chunk 0, which is not counted. -/
theorem staleLog_not_queues :
    StaleRunWrites ∧
      ¬ QueuesUncounted (Replay.rebuilt Workload.largest 0 idOrder staleLog) idOrder := by
  refine ⟨staleRun_writes, fun hq => ?_⟩
  obtain ⟨f, hf⟩ := hq 7 ⟨staleSpec, none, 2, ⟨0, 0⟩, 0, some 0, 1⟩ (by decide +kernel)
  have hfeeds : ((Replay.rebuilt Workload.largest 0 idOrder staleLog).feeds idOrder).filter
      (fun f => f.spec.id = 7) = [⟨staleSpec, {0}, 1⟩] := by
    decide +kernel
  have hfeq := List.singleton_inj.mp (hf.single.symm.trans hfeeds)
  have hdone := ((hf.skip 0).mp (by rw [hfeq]; decide)).2
  exact absurd hdone (by decide +kernel)

end RudpScheduler
