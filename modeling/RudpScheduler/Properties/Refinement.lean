import RudpScheduler.Properties.Compaction

/-!
# Replaying the log refines the live aggregator

The aggregator and the replay loop are two folds over different things, events and records.
`Tracks` says that they agree: the live tables say what the records in the log say about every
job, and no life in the log is complete without its `JobDone`.  A stage of the aggregator either
appends records or, when it is idle and the log is large, replaces them.  In the first case a
crash may leave only some of the records of the stage; `SettlesTo` says that the replay of such a
prefix ends where the replay of all of them does (`Tracks.stage`).

`Watched` remembers, for every crash point, what the live tables were right after the stage that
appended the last surviving record; every run of the aggregator can be watched
(`Watched.covers`).  `replay_refines_iff` says when the replay of every crash prefix, in every
run, is what was remembered.
-/

namespace RudpScheduler

/-! ## Stages -/

/-- The events of the aggregator, with a tick cut into its parts: the jobs it drops and the
answers it expires one at a time, the compaction, the sync. -/
inductive Stage
  | submit (h : ConnID) (spec : JobSpec) (hDone : Bool) (now : Time)
  | result (r : ChunkResult) (now : Time)
  | clientGone (conn : ConnID) (now : Time)
  | drop (now : Time) (id : UInt64)
  | expire (now : Time) (id : UInt64)
  | compact (ord : RangeOrder UInt64)
  | sync

namespace Agg

/-- One stage of the aggregator's loop. -/
def stage (wl : Workload) (p : Params) (s : Agg) : Stage → Agg
  | .submit h spec hDone now => (s.submit wl h spec hDone now).1
  | .result r now => s.result wl r now
  | .clientGone conn now => s.clientGone conn now
  | .drop now id => s.dropOrphan p now id
  | .expire now id => s.expire p now id
  | .compact ord => s.compactIdle ord
  | .sync => s.syncDirty

/-- Every event is a sequence of stages. -/
lemma step_stages (wl : Workload) (p : Params) (s : Agg) (e : Event) :
    ∃ es : List Stage, s.step wl p e = es.foldl (stage wl p) s := by
  cases e with
  | submit h spec hDone now => exact ⟨[.submit h spec hDone now], rfl⟩
  | result r now => exact ⟨[.result r now], rfl⟩
  | clientGone conn now => exact ⟨[.clientGone conn now], rfl⟩
  | tick now ords =>
      let s' := (ords.jobs.range s.jobs).foldl (dropOrphan p now) s
      refine ⟨(ords.jobs.range s.jobs).map (.drop now) ++
        ((ords.results.range s'.results).map (.expire now) ++
          [Stage.compact ords.snapshot, .sync]), ?_⟩
      rw [List.foldl_append, List.foldl_append, List.foldl_map, List.foldl_map]
      rfl

/-- The stage replaces the log. -/
def rewrites (s : Agg) : Stage → Bool
  | .compact _ =>
    match s.log with
    | some l => GoMap.len s.jobs = 0 ∧ l.size > compactAbove
    | none => false
  | _ => false

/-- The live tables with clients and timestamps ignored. -/
def view (s : Agg) : View := RudpScheduler.view s.jobs s.done s.results

/-- The number of records in the log. -/
def logLength (s : Agg) : ℕ := (s.log.map fun l => l.recs.length).getD 0

end Agg

/-- An aggregator, with what it was right after the stage that appended the last surviving record
of a crash that leaves the records of the last rewrite, one more, two more, and so on. -/
structure Watched where
  agg : Agg
  views : List View

namespace Watched

/-- Nothing has been appended yet. -/
def start (s : Agg) : Watched := ⟨s, [s.view]⟩

/-- One stage; the crash points it adds are remembered with the tables it leaves. -/
def step (wl : Workload) (p : Params) (w : Watched) (e : Stage) : Watched :=
  let s := w.agg.stage wl p e
  { agg := s
    views :=
      if w.agg.rewrites e then [s.view]
      else w.views ++ List.replicate (s.logLength - w.agg.logLength) s.view }

@[simp] lemma step_agg (wl : Workload) (p : Params) (w : Watched) (e : Stage) :
    (w.step wl p e).agg = w.agg.stage wl p e := rfl

lemma foldl_agg (wl : Workload) (p : Params) (es : List Stage) (w : Watched) :
    (es.foldl (step wl p) w).agg = es.foldl (Agg.stage wl p) w.agg := by
  induction es generalizing w with
  | nil => rfl
  | cons e es ih => exact ih (w.step wl p e)

/-- Every run of the aggregator can be watched. -/
lemma covers (wl : Workload) (p : Params) (s : Agg) (es : List Event) :
    ∃ stages : List Stage,
      (stages.foldl (step wl p) (start s)).agg = es.foldl (Agg.step wl p) s := by
  induction es using List.reverseRecOn with
  | nil => exact ⟨[], rfl⟩
  | append_singleton es e ih =>
      obtain ⟨stages, hstages⟩ := ih
      obtain ⟨last, hlast⟩ := (es.foldl (Agg.step wl p) s).step_stages wl p e
      refine ⟨stages ++ last, ?_⟩
      rw [List.foldl_append, foldl_agg, hstages, ← hlast, List.foldl_append]
      rfl

/-- The replay of every prefix of the log that a crash can leave, finishing complete jobs, gives
the live tables of the moment. -/
def Recovers (wl : Workload) (w : Watched) : Prop :=
  ∀ l, w.agg.log = some l → ∀ k, l.base ≤ k → k ≤ l.recs.length → ∀ now ord,
    w.views[k - l.base]? = some (Replay.rebuilt wl now ord (l.recs.take k)).view

end Watched

/-! ## The log of a stage -/

variable {wl : Workload} {p : Params} {s s' : Agg} {b : ℕ} {recs : List Record}

/-- The log holds `recs`, the first `b` of them from the last rewrite, and its operations
succeed. -/
def Agg.Logs (s : Agg) (b : ℕ) (recs : List Record) : Prop :=
  ∃ l, s.log = some l ∧ l.recs = recs ∧ l.base = b ∧ l.fails = fun _ => false

/-- The record `finish` appends. -/
def Job.endRecord (j : Job) (completed : Bool) : Record :=
  if completed then .jobDone ⟨j.spec.id, j.acc.hash, j.acc.nonce⟩ else .jobDrop ⟨j.spec.id⟩

namespace Agg.Logs

lemma of_log (hl : s.Logs b recs) (he : s'.log = s.log) : s'.Logs b recs := by
  obtain ⟨l, h1, h2⟩ := hl
  exact ⟨l, he.trans h1, h2⟩

lemma logLength_eq (hl : s.Logs b recs) : s.logLength = recs.length := by
  obtain ⟨l, h1, h2, -⟩ := hl
  rw [logLength, h1, Option.map_some, Option.getD_some, h2]

lemma record (hl : s.Logs b recs) (r : Record) (sync : Bool) :
    (s.record r sync).Logs b (recs ++ [r]) := by
  obtain ⟨⟨recs, synced, base, fails⟩, h1, rfl, rfl, rfl⟩ := hl
  cases sync <;> simp [Agg.record, h1, Logs, Log.append, Log.sync, Log.next]

lemma syncDirty (hl : s.Logs b recs) : s.syncDirty.Logs b recs := by
  obtain ⟨⟨recs, synced, base, fails⟩, h1, rfl, rfl, rfl⟩ := hl
  unfold Agg.syncDirty
  rw [h1]
  dsimp only
  split_ifs
  · simp [Logs, Log.sync, Log.next]
  · exact ⟨_, h1, rfl, rfl, rfl⟩

lemma finish (hl : s.Logs b recs) (j : Job) (completed : Bool) (now : Time) :
    (s.finish j completed now).Logs b (recs ++ [j.endRecord completed]) := by
  have hrem : (s.remove j).Logs b recs := hl.of_log (s.remove_log j)
  cases completed with
  | false => exact (hrem.record (.jobDrop ⟨j.spec.id⟩) false).of_log rfl
  | true =>
      have hres : ({ s.remove j with
          results := (s.remove j).results.insert j.spec.id ⟨j.acc, now⟩ } : Agg).Logs b recs :=
        hrem.of_log rfl
      exact (hres.record (.jobDone ⟨j.spec.id, j.acc.hash, j.acc.nonce⟩) true).of_log rfl

lemma startJob (hl : s.Logs b recs) (wl : Workload) (spec : JobSpec) (now : Time) :
    (s.startJob wl spec now).1.Logs b (recs ++ [Record.jobStart spec.start]) := by
  have hins : ({ s with
      jobs := s.jobs.insert spec.id (freshJob wl spec s.nextCancel now)
      nextCancel := s.nextCancel + 1 } : Agg).Logs b recs := hl.of_log rfl
  exact (hins.record (.jobStart spec.start) true).of_log rfl

lemma counted (hl : s.Logs b recs) (wl : Workload) (j : Job) (r : ChunkResult) :
    (s.counted wl j r).Logs b
      (recs ++ [Record.chunkDone ⟨r.id.job, r.id.idx, r.hash, r.nonce⟩]) := by
  have hins : ({ s with
      done := insert r.id s.done
      jobs := s.jobs.insert r.id.job (countJob wl j r.value)
      stats := { s.stats with merged := s.stats.merged + 1 } } : Agg).Logs b recs := hl.of_log rfl
  exact (hins.record (.chunkDone ⟨r.id.job, r.id.idx, r.hash, r.nonce⟩) false).of_log rfl

end Agg.Logs

/-! ## The tables and the log -/

/-- The tables say what the histories say. -/
abbrev Tables.Shows (wl : Workload) (t : Tables) (h : ∀ id, History id) : Prop :=
  RudpScheduler.Shows wl t.jobs t.done t.results h

/-- `finish` ends the job's life the way its record says. -/
lemma Tables.Shows.finish {t : Tables} {h : ∀ id, History id} (hs : t.Shows wl h) {id : UInt64}
    {j : Job} (hj : t.jobs.lookup id = some j) (ha : (h id).answer = none) (completed : Bool)
    (now : Time) :
    (Agg.finishTables t j completed now).Shows wl
      fun id => (h id).next (j.endRecord completed) := by
  obtain rfl : j.spec.id = id := hs.spec_id hj
  have hother : ∀ id ≠ j.spec.id, (h id).next (j.endRecord completed) = h id := by
    intro id hne
    refine (h id).next_of_ne ?_
    cases completed <;> exact hne.symm
  cases completed with
  | true =>
      refine hs.stop j.spec.id (GoMap.lookup_erase_ite _ _) (hs.mem_deleteTasks hj)
        (a := some j.acc) ?_ (fun id hne => ?_) ((h _).next_jobDone rfl) hother
      · simp [Agg.finishTables]
      · simp [Agg.finishTables, hne]
  | false =>
      refine hs.stop j.spec.id (GoMap.lookup_erase_ite _ _) (hs.mem_deleteTasks hj)
        (a := none) ?_ (fun _ _ => rfl) ((h _).next_jobDrop rfl) hother
      rw [← ha]
      exact hs.results _

/-- Replaying `recs` and finishing the complete jobs ends where replaying `recs'` does. -/
def SettlesTo (wl : Workload) (recs recs' : List Record) : Prop :=
  ∀ id, (history id recs).settle wl = history id recs'

/-- The live tables say what the log says, and every complete life in the log is over. -/
structure Tracks (wl : Workload) (s : Agg) (b : ℕ) (recs : List Record) : Prop where
  logs : s.Logs b recs
  shows : s.toTables.Shows wl fun id => history id recs
  settled : SettlesTo wl recs recs

/-- `s'` comes from a stage that has appended records to `recs`; if a crash leaves some of them,
the replay ends where it does when all are there. -/
def Grows (wl : Workload) (b : ℕ) (recs : List Record) (s' : Agg) : Prop :=
  ∃ new, Tracks wl s' b (recs ++ new) ∧
    ∀ k, recs.length < k → k ≤ (recs ++ new).length →
      SettlesTo wl ((recs ++ new).take k) (recs ++ new)

lemma History.settle_eq_self_iff {id : UInt64} {h : History id} :
    h.settle wl = h ↔ ∀ l, h.cur = some l → ¬ l.Full := by
  constructor
  · intro he l hl
    rw [← he] at hl
    exact (settle_cur_eq_some.mp hl).2
  · intro hh
    cases hc : h.cur with
    | none => rw [settle, hc]
    | some l => exact settle_of_cur (settle_cur_eq_some.mpr ⟨hc, hh l hc⟩)

/-- A stage that appends nothing. -/
lemma Tracks.quiet (ht : Tracks wl s' b recs) : Grows wl b recs s' := by
  refine ⟨[], by rwa [List.append_nil], fun k h1 h2 => ?_⟩
  rw [List.append_nil] at h2
  omega

/-- A stage that appends one record. -/
lemma Tracks.single {r : Record} (ht : Tracks wl s' b (recs ++ [r])) : Grows wl b recs s' := by
  refine ⟨[r], ht, fun k h1 _ => ?_⟩
  rw [List.take_of_length_le]
  · exact ht.settled
  · rw [List.length_append, List.length_singleton]
    omega

/-- The tail of the submit and of the result case: a complete job is finished, with a record
that says what settling says anyway. -/
lemma Agg.Logs.settle {id : UInt64} {j : Job} (hlog : s.Logs b recs)
    (hshow : s.toTables.Shows wl fun id => history id recs)
    (hother : ∀ id' ≠ id, ∀ l, (history id' recs).cur = some l → ¬ l.Full)
    (hj : s.jobs.lookup id = some j) (now : Time) :
    ∃ tail, tail.length ≤ 1 ∧ Tracks wl (s.settle id j now) b (recs ++ tail) ∧
      SettlesTo wl recs (recs ++ tail) := by
  obtain ⟨l, hl, hjl⟩ := hshow.exists_life hj
  obtain rfl : j.spec.id = id := hshow.spec_id hj
  by_cases h0 : j.remaining = 0
  · have hlog' := (hlog.of_log (s.reply_log j.client j.spec.id j.acc)).finish j true now
    have hshow' := hshow.finish hj (history_answer _ _ l hl) true now
    simp only [← history_concat] at hshow'
    have hend : SettlesTo wl recs (recs ++ [j.endRecord true]) := by
      intro id
      rw [history_concat]
      by_cases hid : id = j.spec.id
      · subst hid
        have hnext := (history j.spec.id recs).next_jobDone
          (d := ⟨j.spec.id, j.acc.hash, j.acc.nonce⟩) rfl
        rw [History.settle, hl, Job.endRecord, if_pos rfl, hnext, hjl.acc]
        exact if_pos (hjl.remaining_eq_zero_iff.mp h0)
      · rw [History.next_of_ne _ (r := j.endRecord true) fun h => hid h.symm]
        exact History.settle_eq_self_iff.mpr (hother id hid)
    have hsettled : SettlesTo wl (recs ++ [j.endRecord true]) (recs ++ [j.endRecord true]) :=
      fun id => by rw [← hend id, History.settle_settle]
    refine ⟨[j.endRecord true], le_rfl, ?_, hend⟩
    rw [Agg.settle, if_pos h0]
    refine ⟨hlog', ?_, hsettled⟩
    rwa [Agg.finish_toTables, Agg.reply_toTables]
  · have hsettled : SettlesTo wl recs recs := by
      refine fun id => History.settle_eq_self_iff.mpr fun k hk => ?_
      by_cases hid : id = j.spec.id
      · subst hid
        rwa [← Option.some_inj.mp (hl.symm.trans hk), ← hjl.remaining_eq_zero_iff]
      · exact hother id hid k hk
    rw [Agg.settle_of_ne_zero s h0]
    refine ⟨[], Nat.zero_le 1, ?_, ?_⟩
    · rw [List.append_nil]; exact ⟨hlog, hshow, hsettled⟩
    · rwa [List.append_nil]

/-- A stage that appends a record about a job and, if that completes it, its `JobDone`. -/
lemma Grows.settle {r : Record} {id : UInt64} {j : Job} (hlog : s.Logs b (recs ++ [r]))
    (hshow : s.toTables.Shows wl fun id => history id (recs ++ [r]))
    (hother : ∀ id' ≠ id, ∀ l, (history id' (recs ++ [r])).cur = some l → ¬ l.Full)
    (hj : s.jobs.lookup id = some j) (now : Time) : Grows wl b recs (s.settle id j now) := by
  obtain ⟨tail, hlen, htracks, hsettles⟩ := hlog.settle hshow hother hj now
  have hassoc : recs ++ ([r] ++ tail) = recs ++ [r] ++ tail := (List.append_assoc ..).symm
  refine ⟨[r] ++ tail, hassoc ▸ htracks, fun k h1 h2 => ?_⟩
  rw [hassoc] at h2 ⊢
  simp only [List.length_append, List.length_singleton] at h2
  by_cases hk : k = recs.length + 1
  · rwa [List.take_left' (by simp [hk])]
  · rw [List.take_of_length_le]
    · exact htracks.settled
    · simp only [List.length_append, List.length_singleton]
      omega

/-! ## One stage -/

/-- Recording something about one job leaves the other jobs' lives as they are. -/
lemma Tracks.not_full_of_ne (ht : Tracks wl s b recs) (r : Record) :
    ∀ id ≠ r.job, ∀ l, (history id (recs ++ [r])).cur = some l → ¬ l.Full := by
  intro id hne l hl
  rw [history_concat, History.next_of_ne _ (Ne.symm hne)] at hl
  exact History.settle_eq_self_iff.mp (ht.settled id) l hl

/-- A record that ends a life, or is about an answer, keeps the log settled. -/
lemma Tracks.settled_stop (ht : Tracks wl s b recs) {r : Record} {a : Option Partial}
    (hr : (history r.job recs).next r = (history r.job recs).stop a) :
    SettlesTo wl (recs ++ [r]) (recs ++ [r]) := by
  refine fun id => History.settle_eq_self_iff.mpr fun l hl => ?_
  by_cases hid : id = r.job
  · subst hid
    rw [history_concat, hr] at hl
    cases hl
  · exact ht.not_full_of_ne r id hid l hl

lemma Tracks.of_eq (ht : Tracks wl s b recs) (hlog : s'.Logs b recs)
    (he : s'.toTables.Shows wl fun id => history id recs) : Tracks wl s' b recs :=
  ⟨hlog, he, ht.settled⟩

lemma Tracks.submit (ht : Tracks wl s b recs) (h : ConnID) (spec : JobSpec) (hDone : Bool)
    (now : Time) : Grows wl b recs (s.submit wl h spec hDone now).1 := by
  cases hr : s.results.lookup spec.id with
  | some f =>
      refine Tracks.quiet (ht.of_eq (ht.logs.of_log ?_) ?_)
      · simp [Agg.submit, hr]
      · rw [(s.submit_answered hr wl h hDone now).1]
        exact ht.shows
  | none =>
      cases hj : s.jobs.lookup spec.id with
      | some j =>
          -- a running job waits for something, so attaching the client completes nothing
          obtain ⟨l, hl, hjl⟩ := ht.shows.exists_life hj
          have h0 : (Agg.attachJob { j with client := none } h hDone now).remaining ≠ 0 := by
            rw [Agg.attachJob_remaining, Ne, hjl.remaining_eq_zero_iff]
            exact History.settle_eq_self_iff.mp (ht.settled spec.id) l hl
          rw [s.submit_running hr hj, Agg.settle_of_ne_zero _ h0]
          refine Tracks.quiet (ht.of_eq (ht.logs.of_log (by simp)) ?_)
          rw [Agg.attach_toTables, Agg.rejoin_toTables]
          exact ht.shows.update hj (by simp) (by simp) (by simp)
      | none =>
          have hresults : ∀ id, s.results.lookup id =
              if id = spec.start.job then none else s.results.lookup id := by
            intro id
            split_ifs with hid
            · rw [hid]; exact hr
            · rfl
          rw [s.submit_fresh hr hj]
          refine Grows.settle ((ht.logs.startJob wl spec now).of_log (by simp)) ?_
            (ht.not_full_of_ne _) ?_ now
          · simp only [history_concat, Agg.attach_toTables, Agg.startJob_toTables,
              Finmap.insert_insert]
            exact ht.shows.start hj (by simp [Agg.freshJob])
              (by simp [Agg.freshJob, JobSpec.start]) (by simp [Agg.freshJob]) hresults
          · rw [Agg.attach_toTables]
            exact Finmap.lookup_insert _

lemma Tracks.result (ht : Tracks wl s b recs) (r : ChunkResult) (now : Time) :
    Grows wl b recs (s.result wl r now) := by
  rcases s.result_cases wl r now with ⟨j, hj, hi, hd, he⟩ | ⟨-, dup, he⟩
  · rw [he, Agg.count_eq]
    obtain ⟨l, hl, hjl⟩ := ht.shows.exists_life hj
    have hshow := ht.shows.count (c := ⟨r.id.job, r.id.idx, r.hash, r.nonce⟩) hj hl ?_ ?_
    · refine Grows.settle (ht.logs.counted wl j r) ?_ (ht.not_full_of_ne _) ?_ now
      · simp only [history_concat, Agg.counted_toTables]
        exact hshow
      · rw [Agg.counted_toTables]
        exact Finmap.lookup_insert _
    · rw [hjl.spec] at hi
      exact hi
    · rw [← ht.shows.mem_done hl]
      exact hd
  · refine Tracks.quiet (ht.of_eq (ht.logs.of_log ?_) ?_)
    · rw [he, Agg.discard_log]
    · rw [he, Agg.discard_toTables]; exact ht.shows

lemma Tracks.clientGone (ht : Tracks wl s b recs) (conn : ConnID) (now : Time) :
    Grows wl b recs (s.clientGone conn now) := by
  refine Tracks.quiet (ht.of_eq (ht.logs.of_log (s.clientGone_log conn now)) ?_)
  rcases s.clientGone_cases conn now with ⟨j, hj, -, he⟩ | ⟨-, he⟩
  · rw [he]
    exact ht.shows.update hj rfl rfl rfl
  · rw [he]
    exact ht.shows

lemma Tracks.dropOrphan (ht : Tracks wl s b recs) (now : Time) (id : UInt64) :
    Grows wl b recs (s.dropOrphan p now id) := by
  rcases s.dropOrphan_cases p now id with ⟨j, hj, -, he⟩ | he
  · obtain ⟨l, hl, -⟩ := ht.shows.exists_life hj
    rw [he]
    refine Tracks.single ⟨ht.logs.finish j false now, ?_, ht.settled_stop (a := none) ?_⟩
    · rw [Agg.finish_toTables]
      simp only [history_concat]
      exact ht.shows.finish hj (history_answer _ _ l hl) false now
    · exact History.next_jobDrop _ rfl
  · rw [he]
    exact ht.quiet

lemma Tracks.expire (ht : Tracks wl s b recs) (now : Time) (id : UInt64) :
    Grows wl b recs (s.expire p now id) := by
  rcases s.expire_cases p now id with ⟨f, hf, he⟩ | he
  · -- an answered job is not running, so the `JobDrop` ends no life
    have hcur : (history id recs).cur = none := by
      have hans := ht.shows.results id
      rw [hf] at hans
      cases hc : (history id recs).cur with
      | none => rfl
      | some l => rw [history_answer id recs l hc] at hans; cases hans
    have hlog : ({ s with results := s.results.erase id } : Agg).Logs b recs := ht.logs.of_log rfl
    have hdrop : ∀ id', (history id' recs).next (.jobDrop ⟨id⟩) =
        if id' = id then (history id' recs).stop none else history id' recs := by
      intro id'
      split_ifs with hid
      · exact History.next_jobDrop _ hid.symm
      · exact History.next_of_ne _ fun h => hid h.symm
    rw [he]
    refine Tracks.single ⟨hlog.record _ _, ?_, ht.settled_stop (a := none) ?_⟩
    · rw [Agg.record_toTables]
      simp only [history_concat]
      refine ht.shows.stop id (a := none) (fun id' => ?_) (fun x => ?_) ?_ (fun id' hne => ?_)
        (by rw [hdrop, if_pos rfl]) fun id' hne => by rw [hdrop, if_neg hne]
      · split_ifs with hid
        · rw [hid]; exact ht.shows.lookup_eq_none hcur
        · rfl
      · refine (and_iff_right_of_imp fun hx hid => ?_).symm
        obtain ⟨l, hl, -⟩ := (ht.shows.done x).mp hx
        subst hid
        rw [hcur] at hl
        cases hl
      · rw [Finmap.lookup_erase]; rfl
      · exact Finmap.lookup_erase_ne hne
    · exact History.next_jobDrop _ rfl
  · rw [he]
    exact ht.quiet

/-- A stage that does not replace the log. -/
lemma Tracks.stage (ht : Tracks wl s b recs) {e : Stage} (he : s.rewrites e = false) :
    Grows wl b recs (s.stage wl p e) := by
  cases e with
  | submit h spec hDone now => exact ht.submit h spec hDone now
  | result r now => exact ht.result r now
  | clientGone conn now => exact ht.clientGone conn now
  | drop now id => exact ht.dropOrphan now id
  | expire now id => exact ht.expire now id
  | compact ord =>
      refine Tracks.quiet ?_
      obtain ⟨l, hl, -⟩ := ht.logs
      have hsame : s.compactIdle ord = s := by
        simp only [Agg.rewrites, hl, decide_eq_false_iff_not] at he
        simp only [Agg.compactIdle, hl, if_neg he]
      rw [Agg.stage, hsame]
      exact ht
  | sync =>
      refine Tracks.quiet (ht.of_eq ht.logs.syncDirty ?_)
      rw [Agg.stage, Agg.syncDirty_toTables]
      exact ht.shows

/-- What a log of stored answers says about a job. -/
lemma history_snapshotResults (ord : RangeOrder UInt64) (rs : GoMap UInt64 Finished)
    (id : UInt64) :
    history id (Agg.snapshotResults ord rs) =
      ⟨[], none, (rs.lookup id).map Finished.result⟩ := by
  rw [← history_filter, Agg.filter_snapshotResults]
  cases (rs.lookup id).map Finished.result with
  | none => rfl
  | some a => exact History.next_jobDone _ rfl

/-- A stage that replaces the log. -/
lemma Tracks.compact (ht : Tracks wl s b recs) {e : Stage} (he : s.rewrites e = true) :
    ∃ recs', Tracks wl (s.stage wl p e) recs'.length recs' := by
  cases e with
  | compact ord =>
      obtain ⟨⟨recs, synced, base, fails⟩, hl, rfl, rfl, rfl⟩ := ht.logs
      simp only [Agg.rewrites, hl, decide_eq_true_eq] at he
      have hjobs : ∀ id, s.jobs.lookup id = none := (GoMap.len_eq_zero_iff _).mp he.1
      refine ⟨Agg.snapshotResults ord s.results, ?_, ?_, fun id => ?_⟩
      · refine ⟨Log.opened (Agg.snapshotResults ord s.results) fun _ => false, ?_, rfl, rfl, rfl⟩
        simp only [Agg.stage, Agg.compactIdle, hl, if_pos he]
        rfl
      · rw [Agg.stage, Agg.compactIdle_toTables]
        refine ⟨fun id => ?_, fun x => ?_, fun id => ?_⟩
        · rw [hjobs, history_snapshotResults]
          exact .none
        · rw [ht.shows.done, ht.shows.cur_eq_none (hjobs _), history_snapshotResults]
        · rw [history_snapshotResults]
      · rw [history_snapshotResults]
        rfl
  | submit => cases he
  | result => cases he
  | clientGone => cases he
  | drop => cases he
  | expire => cases he
  | sync => cases he

/-! ## Crash points -/

/-- The replay of a prefix that settles to the whole log rebuilds the live tables. -/
lemma Tracks.rebuilt_view (ht : Tracks wl s b recs) {pre : List Record}
    (hpre : SettlesTo wl pre recs) (now : Time) (ord : RangeOrder UInt64) :
    (Replay.rebuilt wl now ord pre).view = s.view := by
  have hs := (Replay.rebuilt_shows wl now ord pre).toShows
  simp only [hpre _] at hs
  exact hs.view_eq ht.shows

/-- Every crash point is remembered with the view its replay rebuilds. -/
structure Watched.Ok (wl : Workload) (w : Watched) (b : ℕ) (recs : List Record) : Prop where
  tracks : Tracks wl w.agg b recs
  base_le : b ≤ recs.length
  length : w.views.length = recs.length - b + 1
  views : ∀ k, b ≤ k → k ≤ recs.length → ∀ now ord,
    w.views[k - b]? = some (Replay.rebuilt wl now ord (recs.take k)).view

lemma Tracks.watched (ht : Tracks wl s recs.length recs) :
    (Watched.start s).Ok wl recs.length recs where
  tracks := ht
  base_le := le_rfl
  length := by simp [Watched.start]
  views k h1 h2 now ord := by
    obtain rfl : k = recs.length := le_antisymm h2 h1
    rw [List.take_length, Nat.sub_self, ht.rebuilt_view ht.settled]
    rfl

lemma Watched.Ok.step {w : Watched} (hw : w.Ok wl b recs) (e : Stage) :
    ∃ b' recs', (w.step wl p e).Ok wl b' recs' := by
  cases he : w.agg.rewrites e with
  | true =>
      obtain ⟨recs', ht⟩ := hw.tracks.compact (p := p) he
      refine ⟨recs'.length, recs', ?_⟩
      have hstep : w.step wl p e = Watched.start (w.agg.stage wl p e) := by
        simp [Watched.step, Watched.start, he]
      rw [hstep]
      exact ht.watched
  | false =>
      obtain ⟨new, ht, hpre⟩ := hw.tracks.stage (p := p) he
      have hviews : (w.step wl p e).views =
          w.views ++ List.replicate new.length (w.agg.stage wl p e).view := by
        simp [Watched.step, he, ht.logs.logLength_eq, hw.tracks.logs.logLength_eq]
      have hbase := hw.base_le
      have hlen := hw.length
      refine ⟨b, recs ++ new, ht, ?_, ?_, fun k h1 h2 now ord => ?_⟩
      · rw [List.length_append]
        omega
      · rw [hviews, List.length_append, List.length_replicate, List.length_append]
        omega
      · rw [hviews]
        rw [List.length_append] at h2
        by_cases hk : k ≤ recs.length
        · -- an old crash point
          rw [List.getElem?_append_left (by omega), List.take_append_of_le_length hk]
          exact hw.views k h1 hk now ord
        · -- a crash point of this stage
          rw [List.getElem?_append_right (by omega), List.getElem?_replicate, if_pos (by omega),
            ht.rebuilt_view (hpre k (by omega) (by rwa [List.length_append]))]

lemma Watched.Ok.run {w : Watched} (hw : w.Ok wl b recs) (es : List Stage) :
    ∃ b' recs', (es.foldl (Watched.step wl p) w).Ok wl b' recs' := by
  induction es generalizing w b recs with
  | nil => exact ⟨b, recs, hw⟩
  | cons e es ih =>
      obtain ⟨b', recs', hw'⟩ := hw.step (p := p) e
      exact ih hw'

lemma Watched.Ok.recovers {w : Watched} (hw : w.Ok wl b recs) : w.Recovers wl := by
  intro l hl k h1 h2 now ord
  obtain ⟨l', hl', rfl, rfl, -⟩ := hw.tracks.logs
  obtain rfl := Option.some_inj.mp (hl.symm.trans hl')
  exact hw.views k h1 h2 now ord

/-! ## The start -/

/-- With a log whose operations succeed the aggregator starts from the rebuilt tables and the
compacted log. -/
lemma recover_succeeds (wl : Workload) (now : Time) (ords : RecoverOrders) (recs : List Record) :
    ∃ boot, recover wl now ords (some (recs, fun _ => false)) = some boot ∧
      boot.agg.jobs = (Replay.rebuilt wl now ords.finish recs).jobs ∧
      boot.agg.done = (Replay.rebuilt wl now ords.finish recs).done ∧
      boot.agg.results = (Replay.rebuilt wl now ords.finish recs).results ∧
      boot.agg.Logs
        ((Replay.rebuilt wl now ords.finish recs).compact ords.snapshot ords.jobs).length
        ((Replay.rebuilt wl now ords.finish recs).compact ords.snapshot ords.jobs) := by
  by_cases hrecs : recs = []
  · subst hrecs
    -- nothing to compact: the log stays empty
    have hempty : (Replay.rebuilt wl now ords.finish []).compact ords.snapshot ords.jobs = [] := by
      simp [Replay.rebuilt, Replay.replay, Replay.finishComplete, Replay.empty, Replay.compact,
        Agg.snapshotResults]
    rw [hempty]
    exact ⟨_, rfl, rfl, rfl, rfl, Log.opened [] fun _ => false, rfl, rfl, rfl, rfl⟩
  · simp only [recover, if_neg hrecs, Log.rewrite, Log.opened, Bool.false_eq_true, if_false,
      Option.some_inj, exists_eq_left']
    exact ⟨trivial, trivial, trivial, _, rfl, rfl, rfl, rfl⟩

/-- Where compaction keeps the state, the compacted log is settled. -/
lemma Replay.Shows.compact_settled {r r' : Replay} {o o' : RangeOrder UInt64}
    (hs : r.Shows wl fun id => (history id recs).settle wl)
    (hs' : r'.Shows wl fun id => (history id (r.compact o o')).settle wl)
    (hview : r'.view = r.view) : SettlesTo wl (r.compact o o') (r.compact o o') := by
  intro id
  cases hcur : ((history id recs).settle wl).cur with
  | none =>
      rw [hs.history_compact_idle o o' hcur]
      rfl
  | some l =>
      obtain ⟨l', hlife, -⟩ := hs.compacted_life hs' hview hcur
      exact History.settle_of_cur (l := l') (by rw [hlife])

/-- **When replaying the log refines the live aggregator.**  Start the aggregator on a log with
records `recs` whose operations succeed.  In every run, the replay of every prefix of the log
that a crash can leave rebuilds the jobs, the done set and the stored answers that were live
right after the stage that appended the prefix's last record, if and only if every unfinished
job's side list counts what its current life in `recs` has counted. -/
theorem replay_refines_iff (wl : Workload) (p : Params) (now : Time) (ords : RecoverOrders)
    (recs : List Record) :
    ∃ boot, recover wl now ords (some (recs, fun _ => false)) = some boot ∧
      ((∀ es : List Stage,
          (es.foldl (Watched.step wl p) (Watched.start boot.agg)).Recovers wl) ↔
        CountsAlike wl recs) := by
  obtain ⟨boot, hboot, hjobs, hdone, hresults, hlogs⟩ := recover_succeeds wl now ords recs
  refine ⟨boot, hboot, ?_⟩
  rw [← view_compact_iff wl now now ords.finish ords.finish ords.snapshot ords.jobs recs]
  have hs := Replay.rebuilt_shows wl now ords.finish recs
  have hview : boot.agg.view = (Replay.rebuilt wl now ords.finish recs).view := by
    rw [Agg.view, Replay.view, hjobs, hdone, hresults]
  generalize Replay.rebuilt wl now ords.finish recs = r at *
  have hs' := Replay.rebuilt_shows wl now ords.finish (r.compact ords.snapshot ords.jobs)
  constructor
  · -- a crash right after the start
    intro hall
    obtain ⟨l, hl, hrecs, hbase, -⟩ := hlogs
    have hcrash := hall [] l hl l.base le_rfl (by rw [hrecs, hbase]) now ords.finish
    rw [Nat.sub_self, hbase, hrecs, List.take_length] at hcrash
    rw [← hview]
    exact (Option.some_inj.mp hcrash).symm
  · intro hkeeps es
    have hsettled := hs.compact_settled hs' hkeeps
    have hshow : boot.agg.toTables.Shows wl fun id =>
        history id (r.compact ords.snapshot ords.jobs) := by
      refine RudpScheduler.Shows.congr (h := fun id => (history id recs).settle wl) ?_ fun id => ?_
      · rw [hjobs, hdone, hresults]
        exact hs.toShows
      · rw [hs.shown_eq_of_view_eq hs'.toShows hkeeps.symm, hsettled id]
    obtain ⟨b, recs', hok⟩ := (Tracks.watched ⟨hlogs, hshow, hsettled⟩).run (p := p) es
    exact hok.recovers

/-- A run from a fresh log leaves `staleLog`; the aggregator started on it has counted nothing,
but a crash before it does anything recovers chunk 0 as counted. -/
theorem staleLog_not_refines :
    StaleRunWrites ∧
      ∃ boot, recover Workload.largest 0 ⟨idOrder, idOrder, idOrder⟩
          (some (staleLog, fun _ => false)) = some boot ∧
        ¬ (Watched.start boot.agg).Recovers Workload.largest := by
  refine ⟨staleRun_writes, _, rfl, fun hrec => ?_⟩
  have hcrash := hrec _ rfl 2 (by decide +kernel) (by decide +kernel) 0 idOrder
  have hdone := congrArg (Option.map View.done) hcrash
  exact absurd hdone (by decide +kernel)

end RudpScheduler
