import RudpScheduler.Properties.Histories

/-!
# Replay refines the history of every job

After any list of records the three tables `recover` builds say, for every job ID, what the
records say about it (`Replay.Shows`).  The side list `chunks` is different: it holds what was
counted in *all* lives, because neither `forget` nor a new `JobStart` resets it.

`replay_shows` is the statement for the replay loop, `rebuilt_shows` the one for the state handed
to the aggregator.  What follows from the side list's difference is in `Properties/Resume.lean`
and `Properties/Compaction.lean`.
-/

namespace RudpScheduler

/-- The tables of the replay say what the histories say, and the side list repeats what was
counted in every life. -/
structure Replay.Shows (wl : Workload) (r : Replay) (h : ∀ id, History id) : Prop extends
    RudpScheduler.Shows wl r.jobs r.done r.results h where
  chunks : ∀ id, r.chunksOf id = (h id).allCounted

variable {wl : Workload} {r : Replay} {h : ∀ id, History id}

/-! ## `forget` -/

namespace Replay

lemma lookup_forget (r : Replay) (id id' : UInt64) :
    (r.forget id).jobs.lookup id' = if id' = id then none else r.jobs.lookup id' := by
  unfold forget
  split
  · rename_i hj
    split_ifs with he
    · rw [he, hj]
    · rfl
  · exact GoMap.lookup_erase_ite _ _ _

@[simp] lemma forget_results (r : Replay) (id : UInt64) : (r.forget id).results = r.results := by
  unfold forget
  split <;> rfl

@[simp] lemma forget_nextCancel (r : Replay) (id : UInt64) :
    (r.forget id).nextCancel = r.nextCancel := by
  unfold forget
  split <;> rfl

@[simp] lemma forget_chunksOf (r : Replay) (id id' : UInt64) :
    (r.forget id).chunksOf id' = r.chunksOf id' := by
  unfold forget
  split <;> rfl

end Replay

namespace Replay.Shows

/-- `forget` removes all `done` entries of the job. -/
lemma mem_forget_done (hs : r.Shows wl h) (id : UInt64) (x : TaskID) :
    x ∈ (r.forget id).done ↔ x.job ≠ id ∧ x ∈ r.done := by
  unfold Replay.forget
  split
  · rename_i hj
    refine ⟨fun hx => ⟨?_, hx⟩, And.right⟩
    rintro rfl
    obtain ⟨l, hl, -⟩ := (hs.done x).mp hx
    rw [hs.cur_eq_none hj] at hl
    cases hl
  · rename_i j hj
    exact hs.mem_deleteTasks hj x

/-- `forget`, with a new table of answers: the current life of one job ends. -/
lemma forget (hs : r.Shows wl h) (id : UInt64) {a : Option Partial} {R : GoMap UInt64 Finished}
    (ha : (R.lookup id).map Finished.result = a)
    (hR : ∀ id' ≠ id, R.lookup id' = r.results.lookup id') {h' : ∀ id, History id}
    (h0 : h' id = (h id).stop a) (hne : ∀ id' ≠ id, h' id' = h id') :
    ({ r.forget id with results := R } : Replay).Shows wl h' where
  toShows := hs.stop id (r.lookup_forget id) (hs.mem_forget_done id) ha hR h0 hne
  chunks id' := by
    change (r.forget id).chunksOf id' = _
    rw [forget_chunksOf, hs.chunks]
    by_cases he : id' = id
    · rw [he, h0, History.allCounted_stop]
    · rw [hne id' he]

/-! ## One record -/

/-- A `ChunkDone` that is not counted changes nothing. -/
lemma skip (hs : r.Shows wl h) {c : ChunkDone}
    (hskip : ∀ l, (h c.job).cur = some l → ¬ (c.idx < l.start.n ∧ c.idx ∉ l.idxs)) :
    r.Shows wl fun id => (h id).next (.chunkDone c) := by
  have heq : (fun id => (h id).next (.chunkDone c)) = h := by
    funext id
    by_cases he : c.job = id
    · subst he
      rw [History.next_chunkDone _ rfl]
      generalize h c.job = H at hskip ⊢
      obtain ⟨past, cur, answer⟩ := H
      cases cur with
      | none => rfl
      | some l => simp only [Option.map_some, Life.count_of_old rfl (hskip l rfl)]
    · exact (h id).next_of_ne he
  rwa [heq]

/-- A `ChunkDone` that is counted also goes to the side list. -/
lemma chunks_count (hs : r.Shows wl h) {c : ChunkDone} {l : Life c.job}
    (hl : (h c.job).cur = some l) (hlt : c.idx < l.start.n) (hnew : c.idx ∉ l.idxs)
    (id : UInt64) :
    ((r.chunks.insert c.job (r.chunksOf c.job ++ [c])).lookup id).getD [] =
      ((h id).next (.chunkDone c)).allCounted := by
  rw [GoMap.lookup_insert_ite]
  split_ifs with he
  · subst he
    rw [History.next_chunkDone_running rfl hl, Option.getD_some, hs.chunks]
    simp [History.allCounted, hl, Life.count_of_new rfl hlt hnew]
  · rw [(h id).next_of_ne (r := .chunkDone c) fun hid => he hid.symm]
    exact hs.chunks id

/-- One round of the replay loop says what one record says. -/
lemma apply (hs : r.Shows wl h) (now : Time) (rec : Record) :
    (r.apply wl now rec).Shows wl fun id => (h id).next rec := by
  cases rec with
  | jobStart s =>
      simp only [Replay.apply]
      cases hj : r.jobs.lookup s.job with
      | none =>
          refine ⟨hs.start hj rfl rfl rfl (GoMap.lookup_erase_ite _ _), fun id => ?_⟩
          change r.chunksOf id = _
          rw [hs.chunks, History.allCounted_jobStart]
      | some j =>
          have heq : (fun id => (h id).next (.jobStart s)) = h := by
            funext id
            by_cases he : s.job = id
            · obtain ⟨l, hl, -⟩ := hs.exists_life (he ▸ hj)
              exact History.next_jobStart_running hl
            · exact (h id).next_of_ne he
          rwa [heq]
  | chunkDone c =>
      simp only [Replay.apply]
      cases hj : r.jobs.lookup c.job with
      | none =>
          refine hs.skip fun l hl => ?_
          rw [hs.cur_eq_none hj] at hl
          cases hl
      | some j =>
          obtain ⟨l, hl, hjl⟩ := hs.exists_life hj
          have hn : j.spec.n = l.start.n := by rw [hjl.spec]; rfl
          have hd : c.id ∈ r.done ↔ c.idx ∈ l.idxs := hs.mem_done hl c.idx
          dsimp only
          split_ifs with hskip
          · refine hs.skip fun l' hl' => ?_
            rw [← Option.some_inj.mp (hl.symm.trans hl'), ← hn, ← hd]
            rintro ⟨h1, h2⟩
            exact hskip.elim (UInt32.not_le.mpr h1) h2
          · rw [not_or, hn, hd] at hskip
            have hlt := UInt32.not_le.mp hskip.1
            exact ⟨hs.count hj hl hlt hskip.2, hs.chunks_count hl hlt hskip.2⟩
  | jobDone d =>
      refine hs.forget d.job (a := some ⟨d.hash, d.nonce⟩) ?_ ?_ ?_ ?_
      · rw [forget_results, Finmap.lookup_insert]; rfl
      · intro id he
        rw [forget_results, GoMap.lookup_insert_ite, if_neg he]
      · exact (h d.job).next_jobDone rfl
      · exact fun id he => (h id).next_of_ne fun hid => he hid.symm
  | jobDrop d =>
      refine hs.forget d.job (a := none) ?_ ?_ ?_ ?_
      · rw [forget_results, Finmap.lookup_erase]; rfl
      · intro id he
        rw [forget_results, GoMap.lookup_erase_ite, if_neg he]
      · exact (h d.job).next_jobDrop rfl
      · exact fun id he => (h id).next_of_ne fun hid => he hid.symm

end Replay.Shows

namespace Replay

lemma shows_empty : Replay.empty.Shows wl fun _ => History.nothing where
  jobs _ := .none
  done x := by simp [Replay.empty, History.nothing]
  results _ := rfl
  chunks _ := rfl

/-- **Replay refines the histories.**  After any list of records the tables say, for every job
ID, what the records say about it. -/
theorem replay_shows (wl : Workload) (now : Time) (recs : List Record) :
    (replay wl now recs).Shows wl fun id => history id recs := by
  induction recs using List.reverseRecOn with
  | nil => exact shows_empty
  | append_singleton recs rec ih =>
      have hstep := ih.apply now rec
      simp only [← history_concat] at hstep
      rwa [replay, List.foldl_append]

/-! ## Finishing the complete jobs -/

/-- One round of the loop over `jobs` settles the history of the job it visits. -/
lemma Shows.finishOne (hs : r.Shows wl h) (now : Time) (id : UInt64) {h' : ∀ id, History id}
    (h0 : h' id = (h id).settle wl) (hne : ∀ id' ≠ id, h' id' = h id') :
    (r.finishOne now id).Shows wl h' := by
  have hsame : (h id).settle wl = h id → r.Shows wl h' := fun he => by
    have : h' = h := funext fun id' => by
      by_cases hid : id' = id
      · rw [hid, h0, he]
      · exact hne id' hid
    rwa [this]
  unfold Replay.finishOne
  cases hj : r.jobs.lookup id with
  | none => exact hsame (by rw [History.settle, hs.cur_eq_none hj])
  | some j =>
      obtain ⟨l, hl, hjl⟩ := hs.exists_life hj
      have hzero := hjl.remaining_eq_zero_iff
      dsimp only
      split_ifs with hr
      · refine hs.forget id (a := some (l.acc wl)) ?_ ?_ ?_ hne
        · rw [forget_results, Finmap.lookup_insert, ← hjl.acc]; rfl
        · intro id' he
          rw [forget_results, GoMap.lookup_insert_ite, if_neg he]
        · rw [h0, History.settle, hl]
          exact if_pos (hzero.mp hr)
      · refine hsame ?_
        rw [History.settle, hl]
        exact if_neg (mt hzero.mpr hr)

lemma Shows.finishList (hs : r.Shows wl h) (now : Time) (ids : List UInt64) :
    (ids.foldl (Replay.finishOne now) r).Shows wl fun id =>
      if id ∈ ids then (h id).settle wl else h id := by
  induction ids using List.reverseRecOn with
  | nil => simpa using hs
  | append_singleton ids id ih =>
      rw [List.foldl_append]
      refine ih.finishOne now id ?_ fun id' he => by simp [he]
      -- settling twice is settling once
      simp only [List.mem_append, List.mem_singleton, or_true, if_true]
      split_ifs
      · rw [History.settle_settle]
      · rfl

/-- **The state handed to the aggregator refines the settled histories.** -/
theorem rebuilt_shows (wl : Workload) (now : Time) (ord : RangeOrder UInt64)
    (recs : List Record) :
    (rebuilt wl now ord recs).Shows wl fun id => (history id recs).settle wl := by
  have hs := replay_shows wl now recs
  have hfin := hs.finishList now (ord.range (replay wl now recs).jobs)
  have heq : (fun id => if id ∈ ord.range (replay wl now recs).jobs
      then (history id recs).settle wl else history id recs) =
      fun id => (history id recs).settle wl := by
    funext id
    split_ifs with hid
    · rfl
    · have hj : (replay wl now recs).jobs.lookup id = none := by
        rw [ord.mem_range_iff_lookup] at hid
        exact Option.eq_none_iff_forall_ne_some.mpr fun j hj => hid ⟨j, hj⟩
      rw [History.settle, hs.cur_eq_none hj]
  rw [heq] at hfin
  exact hfin

end Replay

end RudpScheduler
