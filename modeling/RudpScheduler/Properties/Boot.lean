import RudpScheduler.Properties.AggregatorInvariant
import RudpScheduler.Properties.Resume

/-!
# The state a scheduler starts from

Whatever the log holds, and without one, the aggregator starts from a state that satisfies its
representation invariant, with no client attached to any job and every recovered job's grace
period running (`recover_boots`).  The part about remaining counts, `done` and answers is read
off the histories (`Replay.rebuilt_shows`); the part about cancel channels is an invariant of
the replay loop of its own (`Replay.Numbered`), since a history does not know about them.
-/

namespace RudpScheduler

/-- What is true of the state handed to the aggregator. -/
structure Recovered.Boots (boot : Recovered) : Prop where
  ok : boot.agg.Ok
  settled : boot.agg.Settled
  byConn : boot.agg.byConn = ∅
  detached : ∀ id j, boot.agg.jobs.lookup id = some j → j.client = none ∧ j.orphanedAt ≠ none
  feeds : ∀ f ∈ boot.feeds, ∃ j, boot.agg.jobs.lookup f.spec.id = some j ∧
    f.spec = j.spec ∧ f.cancel = j.cancel

/-! ## Cancel channels -/

/-- The recovered jobs have no client, and cancel channels of their own. -/
structure Replay.Numbered (r : Replay) : Prop where
  detached : ∀ id j, r.jobs.lookup id = some j → j.client = none ∧ j.orphanedAt ≠ none
  cancel_lt : ∀ id j, r.jobs.lookup id = some j → j.cancel < r.nextCancel
  cancel_inj : ∀ id j id' j', r.jobs.lookup id = some j → r.jobs.lookup id' = some j' →
    j.cancel = j'.cancel → id = id'

namespace Replay.Numbered

variable {r : Replay} {wl : Workload}

/-- Removing jobs. -/
lemma of_le (hr : r.Numbered) {r' : Replay} (hn : r'.nextCancel = r.nextCancel)
    (hj : ∀ id j, r'.jobs.lookup id = some j → r.jobs.lookup id = some j) : r'.Numbered where
  detached id j h := hr.detached id j (hj id j h)
  cancel_lt id j h := hn ▸ hr.cancel_lt id j (hj id j h)
  cancel_inj id j id' j' h h' := hr.cancel_inj id j id' j' (hj id j h) (hj id' j' h')

/-- A new job. -/
lemma start (hr : r.Numbered) (now : Time) (s : JobStart) {r' : Replay}
    (hn : r'.nextCancel = r.nextCancel + 1)
    (hj : r'.jobs = r.jobs.insert s.job (startedJob wl now s r.nextCancel)) : r'.Numbered where
  detached := by
    rw [hj]
    exact GoMap.forall_insert hr.detached (by simp [startedJob])
  cancel_lt := by
    rw [hj, hn]
    exact GoMap.forall_insert (fun id j h => Nat.lt_succ_of_lt (hr.cancel_lt id j h))
      (Nat.lt_succ_self _)
  cancel_inj := by
    rw [hj]
    -- the new channel's number is above every old one
    exact GoMap.inj_insert hr.cancel_inj fun id j h he => absurd he (hr.cancel_lt id j h).ne

/-- A change of a job's counters. -/
lemma update (hr : r.Numbered) {id : UInt64} {j j' : Job} (hj : r.jobs.lookup id = some j)
    (hc : j'.client = j.client) (ho : j'.orphanedAt = j.orphanedAt) (hk : j'.cancel = j.cancel)
    {r' : Replay} (hn : r'.nextCancel = r.nextCancel) (hjs : r'.jobs = r.jobs.insert id j') :
    r'.Numbered := by
  -- every job of the new table has a job of the old one with the same three fields
  have hold : ∀ i k, r'.jobs.lookup i = some k → ∃ k', r.jobs.lookup i = some k' ∧
      k.client = k'.client ∧ k.orphanedAt = k'.orphanedAt ∧ k.cancel = k'.cancel := by
    intro i k h
    rw [hjs] at h
    obtain ⟨rfl, rfl⟩ | ⟨-, h⟩ := GoMap.of_lookup_insert h
    · exact ⟨j, hj, hc, ho, hk⟩
    · exact ⟨k, h, rfl, rfl, rfl⟩
  refine ⟨fun i k h => ?_, fun i k h => ?_, fun i k i' k' h h' he => ?_⟩
  · obtain ⟨k₀, h₀, hc₀, ho₀, -⟩ := hold i k h
    rw [hc₀, ho₀]; exact hr.detached i k₀ h₀
  · obtain ⟨k₀, h₀, -, -, hk₀⟩ := hold i k h
    rw [hk₀, hn]; exact hr.cancel_lt i k₀ h₀
  · obtain ⟨k₀, h₀, -, -, hk₀⟩ := hold i k h
    obtain ⟨k₁, h₁, -, -, hk₁⟩ := hold i' k' h'
    exact hr.cancel_inj i k₀ i' k₁ h₀ h₁ (by rw [← hk₀, ← hk₁, he])

lemma forget (hr : r.Numbered) (id : UInt64) (R : GoMap UInt64 Finished) :
    ({ r.forget id with results := R } : Replay).Numbered := by
  refine hr.of_le (r.forget_nextCancel id) fun i j h => ?_
  · rw [Replay.lookup_forget] at h
    split_ifs at h
    exact h

lemma apply (hr : r.Numbered) (now : Time) (rec : Record) : (r.apply wl now rec).Numbered := by
  cases rec with
  | jobStart s =>
      simp only [Replay.apply]
      split
      · exact hr
      · exact hr.start now s rfl rfl
  | chunkDone c =>
      simp only [Replay.apply]
      split
      · exact hr
      · rename_i j hj
        split_ifs
        · exact hr
        · refine hr.update hj ?_ ?_ ?_ rfl rfl <;> rfl
  | jobDone d => exact hr.forget d.job _
  | jobDrop d => exact hr.forget d.job _

lemma finishOne (hr : r.Numbered) (now : Time) (id : UInt64) : (r.finishOne now id).Numbered := by
  unfold Replay.finishOne
  split
  · split_ifs
    · exact hr.forget id _
    · exact hr
  · exact hr

end Replay.Numbered

lemma Replay.rebuilt_numbered (wl : Workload) (now : Time) (ord : RangeOrder UInt64)
    (recs : List Record) : (rebuilt wl now ord recs).Numbered := by
  have hempty : Replay.empty.Numbered := by
    refine ⟨?_, ?_, ?_⟩ <;> simp [Replay.empty]
  refine List.foldlRecOn _ (motive := Replay.Numbered) _ ?_ fun r hr id _ => hr.finishOne now id
  exact recs.foldlRecOn (motive := Replay.Numbered) _ hempty fun r hr rec _ => hr.apply now rec

/-! ## The state handed over -/

/-- The tables recovery hands over satisfy the representation invariant. -/
lemma Replay.rebuilt_ok (wl : Workload) (now : Time) (ord : RangeOrder UInt64)
    (recs : List Record) {t : Tables} (hd : t.done = (rebuilt wl now ord recs).done)
    (hj : t.jobs = (rebuilt wl now ord recs).jobs)
    (hr : t.results = (rebuilt wl now ord recs).results)
    (hn : t.nextCancel = (rebuilt wl now ord recs).nextCancel) (hc : t.closed = []) :
    t.Ok ∧ t.Settled := by
  have hs := rebuilt_shows wl now ord recs
  have hnum := rebuilt_numbered wl now ord recs
  generalize rebuilt wl now ord recs = r at *
  refine ⟨⟨?_, ?_, ?_, ?_, ?_, ?_, ?_, ?_, ?_⟩, ?_⟩
  · intro id j h
    exact hs.spec_id (hj ▸ h)
  · intro id j h
    obtain ⟨l, hl, hjl⟩ := hs.exists_life (hj ▸ h)
    have hidx : t.countedIdx id = l.idxs.toFinset := by
      ext i
      rw [Tables.mem_countedIdx, hd, hs.mem_done hl, List.mem_toFinset]
    rw [hidx, l.card_idxs, hjl.spec]
    exact hjl.remaining
  · intro x hx
    obtain ⟨l, hl, hi⟩ := (hs.done x).mp (hd ▸ hx)
    obtain ⟨j, hj', hjl⟩ := hs.exists_job hl
    refine ⟨j, hj ▸ hj', ?_⟩
    rw [hjl.spec]
    exact mem_indicesBelow.mp (l.idxs_subset (List.mem_toFinset.mpr hi))
  · intro id j h
    obtain ⟨l, hl, -⟩ := hs.exists_life (hj ▸ h)
    have hans := hs.results id
    rw [History.settle_of_cur hl, history_answer id recs l (History.settle_of_cur hl ▸ hl)] at hans
    rw [hr]
    exact Option.map_eq_none_iff.mp hans
  · intro id j h
    rw [hn]
    exact hnum.cancel_lt id j (hj ▸ h)
  · intro id j id' j' h h'
    exact hnum.cancel_inj id j id' j' (hj ▸ h) (hj ▸ h')
  · simp [hc]
  · simp [hc]
  · simp [hc]
  · intro id j h h0
    obtain ⟨l, hl, hjl⟩ := hs.exists_life (hj ▸ h)
    exact (History.settle_cur_eq_some.mp hl).2 (hjl.remaining_eq_zero_iff.mp h0)

/-- The tables `recover` hands over are the ones rebuilt from the log. -/
lemma recover_tables {wl : Workload} {now : Time} {ords : RecoverOrders} {recs : List Record}
    {fails : ℕ → Bool} {boot : Recovered}
    (h : recover wl now ords (some (recs, fails)) = some boot) :
    boot.agg.done = (Replay.rebuilt wl now ords.finish recs).done ∧
      boot.agg.jobs = (Replay.rebuilt wl now ords.finish recs).jobs ∧
      boot.agg.results = (Replay.rebuilt wl now ords.finish recs).results ∧
      boot.agg.nextCancel = (Replay.rebuilt wl now ords.finish recs).nextCancel ∧
      boot.agg.closed = [] ∧ boot.agg.byConn = ∅ ∧
      boot.feeds = (Replay.rebuilt wl now ords.finish recs).feeds ords.jobs := by
  simp only [recover] at h
  split_ifs at h
  all_goals
    obtain rfl := Option.some_inj.mp h
    exact ⟨rfl, rfl, rfl, rfl, rfl, rfl, rfl⟩

/-- **Every start is well formed.**  Whatever the log holds, and without one. -/
theorem recover_boots {wl : Workload} {now : Time} {ords : RecoverOrders}
    {file : Option (List Record × (ℕ → Bool))} {boot : Recovered}
    (h : recover wl now ords file = some boot) : boot.Boots := by
  cases file with
  | none =>
      obtain rfl := Option.some_inj.mp h
      refine ⟨Tables.ok_empty, ?_, rfl, ?_, ?_⟩ <;> simp [Tables.Settled, Agg.empty]
  | some f =>
      obtain ⟨recs, fails⟩ := f
      obtain ⟨hd, hj, hr, hn, hc, hb, hf⟩ := recover_tables h
      obtain ⟨hok, hset⟩ := Replay.rebuilt_ok wl now ords.finish recs hd hj hr hn hc
      refine ⟨hok, hset, hb, fun id j h => ?_, fun f hmem => ?_⟩
      · exact (Replay.rebuilt_numbered wl now ords.finish recs).detached id j (hj ▸ h)
      · rw [hf] at hmem
        obtain ⟨id, -, hid⟩ := List.mem_filterMap.mp hmem
        obtain ⟨j, hjl, rfl⟩ := Option.map_eq_some_iff.mp hid
        have hspec := (Replay.rebuilt_shows wl now ords.finish recs).spec_id hjl
        exact ⟨j, by rw [hj]; dsimp only; rw [hspec]; exact hjl, rfl, rfl⟩

end RudpScheduler
