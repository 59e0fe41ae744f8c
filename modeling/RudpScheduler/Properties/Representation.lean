import RudpScheduler.Framework.Folds
import RudpScheduler.Properties.Boot

/-!
# The representation invariant over whole runs

`Tables.Ok` relates the tables to each other at one moment.  Two parts of what the aggregator's
tables mean refer to the past: `acc` is the `Merge` of the results that were *counted* for the
job, and a cancel channel is closed when its job is *removed*.

The past is kept in a ledger: the list of all results merged so far, each with the instance it
was merged into.  `mergesOf` is what one round of either loop merges, by the guards in front of
`remaining--`; the replay loop and the aggregator's loop share it, and a run's ledger is what its
rounds collect.  `Tally` relates the tables to the ledger, and is kept by the four things that can
happen to a job: it starts, changes its client, counts a result, or is removed.

`Agg.represents` assembles the invariant, from the state recovery builds out of any record list
and after any events.
-/

namespace RudpScheduler

/-- One merged result: the instance it was merged into, its index and its value. -/
structure Counted where
  inst : ℕ
  idx : UInt32
  value : Partial
  deriving DecidableEq, Repr

/-- The entries of one instance. -/
def ofInst (L : List Counted) (inst : ℕ) : List Counted := L.filter (·.inst = inst)

/-- What a result with value `v` for task `x` adds to the ledger: nothing, unless the job is
running, the index is in range and the task is not done. -/
def mergesOf (js : GoMap UInt64 Job) (d : Finset TaskID) (x : TaskID) (v : Partial) :
    List Counted :=
  match js.lookup x.job with
  | none => []
  | some j => if j.spec.n ≤ x.idx ∨ x ∈ d then [] else [⟨j.cancel, x.idx, v⟩]

/-- What a round of the replay loop merges. -/
def Replay.merges (r : Replay) : Record → List Counted
  | .chunkDone rec => mergesOf r.jobs r.done rec.id rec.value
  | _ => []

/-- What a round of the aggregator's loop merges. -/
def Agg.merges (s : Agg) : Event → List Counted
  | .result r _ => mergesOf s.jobs s.done r.id r.value
  | _ => []

/-- The ledger recovery leaves behind. -/
def recoveredLedger (wl : Workload) (now : Time) :
    Option (List Record × (ℕ → Bool)) → List Counted
  | none => []
  | some (recs, _) => collect (Replay.apply wl now) Replay.merges Replay.empty recs

/-- The ledger of a run of the aggregator. -/
def Agg.ledger (wl : Workload) (p : Params) (s : Agg) (es : List Event) : List Counted :=
  collect (Agg.step wl p) Agg.merges s es

lemma mergesOf_counted {js : GoMap UInt64 Job} {d : Finset TaskID} {x : TaskID} {j : Job}
    (hj : js.lookup x.job = some j) (hi : x.idx < j.spec.n) (hd : x ∉ d) (v : Partial) :
    mergesOf js d x v = [⟨j.cancel, x.idx, v⟩] := by
  simp [mergesOf, hj, hi, hd]

lemma mergesOf_skipped {js : GoMap UInt64 Job} {d : Finset TaskID} {x : TaskID}
    (h : ∀ j, js.lookup x.job = some j → x.idx < j.spec.n → x ∈ d) (v : Partial) :
    mergesOf js d x v = [] := by
  unfold mergesOf
  split
  · rfl
  · rename_i j hj
    refine if_pos ?_
    by_cases hn : j.spec.n ≤ x.idx
    · exact Or.inl hn
    · exact Or.inr (h j hj (UInt32.not_le.mp hn))

/-! ## The tables and the ledger -/

/-- The job has merged exactly the ledger's entries of its instance, one for each of its `done`
entries. -/
structure Job.Tallied (wl : Workload) (d : Finset TaskID) (L : List Counted) (id : UInt64)
    (j : Job) : Prop where
  nodup : ((ofInst L j.cancel).map Counted.idx).Nodup
  done : ∀ i, i ∈ (ofInst L j.cancel).map Counted.idx ↔ (⟨id, i⟩ : TaskID) ∈ d
  acc : j.acc = (ofInst L j.cancel).foldl (fun a c => wl.merge a c.value) wl.zero

/-- Every running job is tallied, and the ledger knows no instance of the future. -/
structure Tally (wl : Workload) (js : GoMap UInt64 Job) (d : Finset TaskID) (n : ℕ)
    (L : List Counted) : Prop where
  inst_lt : ∀ c ∈ L, c.inst < n
  jobs : ∀ id j, js.lookup id = some j → j.Tallied wl d L id

namespace Tally

variable {wl : Workload} {js : GoMap UInt64 Job} {d : Finset TaskID} {n : ℕ} {L : List Counted}

/-- A new job, with the next cancel channel. -/
lemma start (h : Tally wl js d n L) {id : UInt64} {j : Job} (hc : j.cancel = n)
    (ha : j.acc = wl.zero) (hd : ∀ i, (⟨id, i⟩ : TaskID) ∉ d) :
    Tally wl (js.insert id j) d (n + 1) L where
  inst_lt c hcl := Nat.lt_succ_of_lt (h.inst_lt c hcl)
  jobs := by
    have hnone : ofInst L j.cancel = [] := by
      refine List.filter_eq_nil_iff.mpr fun c hcl => ?_
      simpa [hc] using (h.inst_lt c hcl).ne
    refine GoMap.forall_insert h.jobs ⟨?_, fun i => ?_, ?_⟩
    · simp [hnone]
    · simpa [hnone] using hd i
    · simpa [hnone] using ha

/-- A change of a job that keeps its instance and its accumulator. -/
lemma update (h : Tally wl js d n L) {id : UInt64} {j j' : Job} (hj : js.lookup id = some j)
    (hc : j'.cancel = j.cancel) (ha : j'.acc = j.acc) : Tally wl (js.insert id j') d n L where
  inst_lt := h.inst_lt
  jobs := by
    have ht := h.jobs id j hj
    exact GoMap.forall_insert h.jobs ⟨hc ▸ ht.nodup, hc ▸ ht.done, by rw [ha, hc]; exact ht.acc⟩

/-- A counted result, which goes to the ledger. -/
lemma count (h : Tally wl js d n L) {x : TaskID} {j : Job} (hj : js.lookup x.job = some j)
    (hlt : j.cancel < n)
    (hinj : ∀ id k, js.lookup id = some k → k.cancel = j.cancel → id = x.job) (hd : x ∉ d)
    (v : Partial) :
    Tally wl (js.insert x.job (Agg.countJob wl j v)) (insert x d) n
      (L ++ [⟨j.cancel, x.idx, v⟩]) where
  inst_lt c hc := by
    rcases List.mem_append.mp hc with hc | hc
    · exact h.inst_lt c hc
    · rw [List.mem_singleton.mp hc]; exact hlt
  jobs := by
    have hown : ofInst (L ++ [⟨j.cancel, x.idx, v⟩]) j.cancel =
        ofInst L j.cancel ++ [⟨j.cancel, x.idx, v⟩] := by simp [ofInst]
    have ht := h.jobs x.job j hj
    intro id k hk
    obtain ⟨hid, rfl⟩ | ⟨hid, hk⟩ := GoMap.of_lookup_insert hk
    · have hc : (Agg.countJob wl j v).cancel = j.cancel := rfl
      refine ⟨?_, fun i => ?_, ?_⟩
      · rw [hc, hown, List.map_append, List.map_singleton]
        have hnew : x.idx ∉ (ofInst L j.cancel).map Counted.idx := mt (ht.done x.idx).mp hd
        rw [← List.concat_eq_append]
        exact ht.nodup.concat hnew
      · rw [hc, hown, List.map_append, List.mem_append, ht.done, hid]
        obtain ⟨job, idx⟩ := x
        simp [or_comm]
      · rw [hc, hown, List.foldl_append, ← ht.acc]
        rfl
    · -- another job is another instance, and its entries are where they were
      have hne : k.cancel ≠ j.cancel := fun he => hid (hinj id k hk he)
      have hother : ofInst (L ++ [⟨j.cancel, x.idx, v⟩]) k.cancel = ofInst L k.cancel := by
        simp [ofInst, hne.symm]
      have hk' := h.jobs id k hk
      refine ⟨hother ▸ hk'.nodup, fun i => ?_, by rw [hother]; exact hk'.acc⟩
      rw [hother, hk'.done, Finset.mem_insert]
      refine ⟨Or.inr, fun hi => hi.resolve_left ?_⟩
      rintro rfl
      exact hid rfl

/-- Jobs are removed, with no `done` entry of any other job. -/
lemma remove (h : Tally wl js d n L) {js' : GoMap UInt64 Job} {d' : Finset TaskID}
    (hj : ∀ id j, js'.lookup id = some j → js.lookup id = some j ∧
      ∀ i, (⟨id, i⟩ : TaskID) ∈ d' ↔ (⟨id, i⟩ : TaskID) ∈ d) : Tally wl js' d' n L where
  inst_lt := h.inst_lt
  jobs id j hl := by
    obtain ⟨hl', hd⟩ := hj id j hl
    have ht := h.jobs id j hl'
    exact ⟨ht.nodup, fun i => (ht.done i).trans (hd i).symm, ht.acc⟩

end Tally

/-! ## Replay -/

namespace Replay

variable {wl : Workload} {r : Replay} {h : ∀ id, History id} {L : List Counted}

/-- What the replay loop keeps. -/
structure Keeps (wl : Workload) (r : Replay) (L : List Counted) : Prop where
  numbered : r.Numbered
  shows : ∃ h, r.Shows wl h
  tally : Tally wl r.jobs r.done r.nextCancel L

/-- `forget` removes the job with all its `done` entries, and no other's. -/
lemma Keeps.tally_forget (hk : Keeps wl r L) (id : UInt64) :
    Tally wl (r.forget id).jobs (r.forget id).done (r.forget id).nextCancel L := by
  obtain ⟨h, hs⟩ := hk.shows
  rw [forget_nextCancel]
  refine hk.tally.remove fun id' j hj => ?_
  rw [lookup_forget] at hj
  split_ifs at hj with hid
  exact ⟨hj, fun i => (hs.mem_forget_done id ⟨id', i⟩).trans (and_iff_right hid)⟩

lemma tally_apply (hk : Keeps wl r L) (now : Time) (rec : Record) :
    Tally wl (r.apply wl now rec).jobs (r.apply wl now rec).done (r.apply wl now rec).nextCancel
      (L ++ r.merges rec) := by
  obtain ⟨h, hs⟩ := hk.shows
  cases rec with
  | jobStart s =>
      simp only [Replay.apply, merges, List.append_nil]
      cases hj : r.jobs.lookup s.job with
      | some j => exact hk.tally
      | none =>
          refine hk.tally.start rfl rfl fun i hi => ?_
          obtain ⟨l, hl, -⟩ := (hs.done _).mp hi
          rw [hs.cur_eq_none hj] at hl
          cases hl
  | chunkDone c =>
      simp only [Replay.apply, merges, mergesOf]
      cases hj : r.jobs.lookup c.job with
      | none => simpa [ChunkDone.id, hj] using hk.tally
      | some j =>
          have hj' : r.jobs.lookup c.id.job = some j := hj
          simp only [hj']
          change Tally wl _ _ _ (L ++ if j.spec.n ≤ c.idx ∨ c.id ∈ r.done then [] else _)
          split_ifs with hskip
          · simpa using hk.tally
          · refine hk.tally.count hj' (hk.numbered.cancel_lt _ j hj) ?_ ?_ c.value
            · exact fun id k hk' => hk.numbered.cancel_inj id k _ j hk' hj
            · exact fun hd => hskip (Or.inr hd)
  | jobDone d => exact (List.append_nil L).symm ▸ hk.tally_forget d.job
  | jobDrop d => exact (List.append_nil L).symm ▸ hk.tally_forget d.job

lemma Keeps.apply (hk : Keeps wl r L) (now : Time) (rec : Record) :
    Keeps wl (r.apply wl now rec) (L ++ r.merges rec) where
  numbered := hk.numbered.apply now rec
  shows := hk.shows.elim fun _ hs => ⟨_, hs.apply now rec⟩
  tally := tally_apply hk now rec

lemma Keeps.finishOne (hk : Keeps wl r L) (now : Time) (id : UInt64) :
    Keeps wl (r.finishOne now id) L where
  numbered := hk.numbered.finishOne now id
  shows := by
    obtain ⟨h, hs⟩ := hk.shows
    classical
    exact ⟨fun id' => if id' = id then (h id').settle wl else h id',
      hs.finishOne now id (if_pos rfl) fun id' he => if_neg he⟩
  tally := by
    unfold Replay.finishOne
    split
    · split_ifs
      · exact hk.tally_forget id
      · exact hk.tally
    · exact hk.tally

lemma rebuilt_keeps (wl : Workload) (now : Time) (ord : RangeOrder UInt64) (recs : List Record) :
    Keeps wl (rebuilt wl now ord recs)
      (collect (Replay.apply wl now) Replay.merges Replay.empty recs) := by
  have hempty : Keeps wl Replay.empty [] := by
    refine ⟨⟨?_, ?_, ?_⟩, ⟨_, shows_empty⟩, ⟨?_, ?_⟩⟩ <;> simp [Replay.empty]
  refine List.foldlRecOn _ (motive := fun r => Keeps wl r _) _ ?_ fun r hr id _ =>
    hr.finishOne now id
  exact foldl_collect (P := Keeps wl) (fun r L rec hk => hk.apply now rec) recs hempty

end Replay

/-! ## The aggregator -/

namespace Agg

variable {wl : Workload} {p : Params} {L : List Counted}

/-- The tables of the aggregator and the ledger. -/
def Tallied (wl : Workload) (t : Tables) (L : List Counted) : Prop :=
  Tally wl t.jobs t.done t.nextCancel L

lemma Tallied.finish {t : Tables} (h : Tallied wl t L) (j : Job) (completed : Bool)
    (now : Time) : Tallied wl (finishTables t j completed now) L := by
  refine Tally.remove h fun id k hk => ?_
  obtain ⟨hne, hk'⟩ := Tables.lookup_finishTables.mp hk
  refine ⟨hk', fun i => ?_⟩
  simp [finishTables, hne]

/-- Every change but a counted result leaves the ledger as it is. -/
lemma Change.tallied {e : Event} (he : ∀ r now, e ≠ .result r now) {a b : Seen}
    (h : Change wl e a b) (hok : a.1.Ok) (ha : Tallied wl a.1 L) : Tallied wl b.1 L := by
  cases h with
  | answer => exact ha
  | start hr hj =>
      refine Tally.start ha ?_ ?_ fun i => hok.notMem_done hj i
      · rw [attachJob_cancel]; rfl
      · rw [attachJob_acc]; rfl
  | rejoin hr hj => exact Tally.update ha hj (by simp) (by simp)
  | count => exact absurd rfl (he _ _)
  | discard => exact absurd rfl (he _ _)
  | complete => exact ha.finish _ true _
  | orphan hj => exact Tally.update ha hj rfl rfl
  | forget => exact ha
  | drop => exact ha.finish _ false _
  | expire => exact ha

lemma settle_tallied {s : Agg} (h : Tallied wl s.toTables L) (id : UInt64) (j : Job)
    (now : Time) : Tallied wl (s.settle id j now).toTables L := by
  by_cases h0 : j.remaining = 0
  · rw [settle_toTables_of_zero s h0]
    exact h.finish j true now
  · rwa [settle_of_ne_zero s h0]

/-- Every event keeps the tally, with what it merges added to the ledger. -/
lemma step_tallied {s : Agg} (hok : s.Ok) (h : Tallied wl s.toTables L) (e : Event) :
    Tallied wl (s.step wl p e).toTables (L ++ s.merges e) := by
  by_cases he : ∃ r now, e = .result r now
  · obtain ⟨r, now, rfl⟩ := he
    rw [step, merges]
    rcases s.result_cases wl r now with ⟨j, hj, hi, hd, heq⟩ | ⟨hd, dup, heq⟩
    · rw [heq, count_eq, mergesOf_counted hj hi hd]
      refine settle_tallied ?_ _ _ now
      rw [Tallied, counted_toTables]
      refine Tally.count h hj (hok.cancel_lt _ j hj) ?_ hd r.value
      exact fun id k hk => hok.cancel_inj id k _ j hk hj
    · rw [heq, discard_toTables, mergesOf_skipped hd, List.append_nil]
      exact h
  · have hne : ∀ r now, e ≠ .result r now := fun r now h => he ⟨r, now, h⟩
    have hnil : s.merges e = [] := by
      cases e with
      | result r now => exact absurd rfl (hne r now)
      | submit | clientGone | tick => rfl
    rw [hnil, List.append_nil]
    refine (step_induction (P := fun a => a.1.Ok ∧ Tallied wl a.1 L) ?_ ⟨hok, h⟩).2
    exact fun a b ha hc => ⟨hc.ok ha.1, hc.tallied hne ha.1 ha.2⟩

end Agg

/-! ## Cancel channels -/

namespace Tables

/-- The instance with cancel channel `c` is running. -/
def Runs (t : Tables) (c : ℕ) : Prop := ∃ id j, t.jobs.lookup id = some j ∧ j.cancel = c

/-- From `t` to `t'` the cancel channels closed are exactly the ones of the instances that were
running in `t`, or were started since, and are not running in `t'`. -/
def ClosesRemoved (t t' : Tables) : Prop :=
  ∃ cs, t'.closed = t.closed ++ cs ∧
    ∀ c, c ∈ cs ↔ (t.Runs c ∨ t.nextCancel ≤ c ∧ c < t'.nextCancel) ∧ ¬ t'.Runs c

variable {t a b : Tables}

lemma Ok.runs_lt (h : t.Ok) {c : ℕ} (hc : t.Runs c) : c < t.nextCancel := by
  obtain ⟨id, j, hj, rfl⟩ := hc
  exact h.cancel_lt id j hj

/-- Replacing a job by one of the same instance starts and removes nothing. -/
lemma runs_update {id : UInt64} {j j' : Job} (hj : a.jobs.lookup id = some j)
    (hb : b.jobs = a.jobs.insert id j') (hc : j'.cancel = j.cancel) (c : ℕ) :
    b.Runs c ↔ a.Runs c := by
  constructor
  · rintro ⟨id', k, hk, rfl⟩
    rw [hb] at hk
    obtain ⟨-, rfl⟩ | ⟨-, hk⟩ := GoMap.of_lookup_insert hk
    · exact ⟨id, j, hj, hc.symm⟩
    · exact ⟨id', k, hk, rfl⟩
  · rintro ⟨id', k, hk, rfl⟩
    by_cases hid : id' = id
    · subst hid
      refine ⟨id', j', by rw [hb, GoMap.lookup_insert_ite, if_pos rfl], ?_⟩
      rw [hc, Option.some_inj.mp (hj.symm.trans hk)]
    · exact ⟨id', k, by rw [hb, GoMap.lookup_insert_ite, if_neg hid]; exact hk, rfl⟩

lemma runs_start {id : UInt64} {j : Job} (hj : a.jobs.lookup id = none)
    (hb : b.jobs = a.jobs.insert id j) (c : ℕ) : b.Runs c ↔ a.Runs c ∨ c = j.cancel := by
  constructor
  · rintro ⟨id', k, hk, rfl⟩
    rw [hb] at hk
    obtain ⟨-, rfl⟩ | ⟨-, hk⟩ := GoMap.of_lookup_insert hk
    · exact Or.inr rfl
    · exact Or.inl ⟨id', k, hk, rfl⟩
  · rintro (⟨id', k, hk, rfl⟩ | rfl)
    · refine ⟨id', k, ?_, rfl⟩
      rw [hb, GoMap.lookup_insert_ite, if_neg, hk]
      rintro rfl
      rw [hj] at hk
      cases hk
    · exact ⟨id, j, by rw [hb, GoMap.lookup_insert_ite, if_pos rfl], rfl⟩

lemma runs_finish (h : a.Ok) {id : UInt64} {j : Job} (hj : a.jobs.lookup id = some j)
    (completed : Bool) (now : Time) (c : ℕ) :
    (Agg.finishTables a j completed now).Runs c ↔ a.Runs c ∧ c ≠ j.cancel := by
  have hid := h.spec_id id j hj
  constructor
  · rintro ⟨id', k, hk, rfl⟩
    obtain ⟨hne, hk'⟩ := lookup_finishTables.mp hk
    refine ⟨⟨id', k, hk', rfl⟩, fun hc => hne ?_⟩
    rw [hid]
    exact h.cancel_inj id' k id j hk' hj hc
  · rintro ⟨⟨id', k, hk, rfl⟩, hc⟩
    refine ⟨id', k, lookup_finishTables.mpr ⟨?_, hk⟩, rfl⟩
    rintro rfl
    rw [hid, hj] at hk
    exact hc (congrArg Job.cancel (Option.some_inj.mp hk)).symm

namespace ClosesRemoved

lemma refl (t : Tables) : t.ClosesRemoved t := by
  refine ⟨[], (List.append_nil _).symm, fun c => ?_⟩
  simp only [List.not_mem_nil, false_iff, not_and, not_not]
  rintro (hc | ⟨h1, h2⟩)
  · exact hc
  · omega

/-- A change that neither starts nor removes an instance. -/
lemma keep (h : t.ClosesRemoved a) (hc : b.closed = a.closed) (hn : b.nextCancel = a.nextCancel)
    (hr : ∀ c, b.Runs c ↔ a.Runs c) : t.ClosesRemoved b := by
  obtain ⟨cs, hcs, hmem⟩ := h
  exact ⟨cs, hc.trans hcs, fun c => by rw [hmem, hn, hr]⟩

/-- A change that starts the instance with the next number. -/
lemma start (h : t.ClosesRemoved a) (ht : t.Ok) (hle : t.nextCancel ≤ a.nextCancel)
    (hc : b.closed = a.closed) (hn : b.nextCancel = a.nextCancel + 1)
    (hr : ∀ c, b.Runs c ↔ a.Runs c ∨ c = a.nextCancel) : t.ClosesRemoved b := by
  obtain ⟨cs, hcs, hmem⟩ := h
  refine ⟨cs, hc.trans hcs, fun c => ?_⟩
  rw [hmem, hn, hr]
  constructor
  · rintro ⟨h1, h2⟩
    refine ⟨h1.imp_right fun h => ⟨h.1, Nat.lt_succ_of_lt h.2⟩, not_or.mpr ⟨h2, ?_⟩⟩
    rintro rfl
    rcases h1 with h1 | h1
    · exact absurd (ht.runs_lt h1) (by omega)
    · omega
  · rintro ⟨h1, h2⟩
    obtain ⟨h2, h3⟩ := not_or.mp h2
    exact ⟨h1.imp_right fun h => ⟨h.1, by omega⟩, h2⟩

/-- A change that removes an instance and closes its channel. -/
lemma finish (h : t.ClosesRemoved a) (ha : a.Ok)
    (hold : ∀ c, a.Runs c → c < t.nextCancel → t.Runs c) {id : UInt64} {j : Job}
    (hj : a.jobs.lookup id = some j) (completed : Bool) (now : Time) :
    t.ClosesRemoved (Agg.finishTables a j completed now) := by
  obtain ⟨cs, hcs, hmem⟩ := h
  have hrun : a.Runs j.cancel := ⟨id, j, hj, rfl⟩
  have hlt := ha.runs_lt hrun
  refine ⟨cs ++ [j.cancel], by rw [← List.append_assoc, ← hcs]; rfl, fun c => ?_⟩
  rw [List.mem_append, List.mem_singleton, hmem, runs_finish ha hj]
  change _ ↔ (t.Runs c ∨ t.nextCancel ≤ c ∧ c < a.nextCancel) ∧ _
  constructor
  · rintro (⟨h1, h2⟩ | rfl)
    · exact ⟨h1, fun h => h2 h.1⟩
    · refine ⟨?_, fun h => h.2 rfl⟩
      by_cases hc : j.cancel < t.nextCancel
      · exact Or.inl (hold _ hrun hc)
      · exact Or.inr ⟨by omega, hlt⟩
  · rintro ⟨h1, h2⟩
    by_cases hc : c = j.cancel
    · exact Or.inr hc
    · exact Or.inl ⟨h1, fun h => h2 ⟨h, hc⟩⟩

end ClosesRemoved

end Tables

namespace Agg

variable {wl : Workload} {p : Params} {t : Tables}

/-- What is known in the middle of an event that began with the tables `t`. -/
structure Since (t a : Tables) : Prop where
  ok : a.Ok
  le : t.nextCancel ≤ a.nextCancel
  old : ∀ c, a.Runs c → c < t.nextCancel → t.Runs c
  closes : t.ClosesRemoved a

lemma Since.keep {a b : Tables} (h : Since t a) (hok : b.Ok) (hc : b.closed = a.closed)
    (hn : b.nextCancel = a.nextCancel) (hr : ∀ c, b.Runs c ↔ a.Runs c) : Since t b where
  ok := hok
  le := hn ▸ h.le
  old c hc hlt := h.old c ((hr c).mp hc) hlt
  closes := h.closes.keep hc hn hr

lemma Since.start {a b : Tables} (h : Since t a) (ht : t.Ok) (hok : b.Ok) {id : UInt64} {j : Job}
    (hj : a.jobs.lookup id = none) (hb : b.jobs = a.jobs.insert id j)
    (hcancel : j.cancel = a.nextCancel) (hc : b.closed = a.closed)
    (hn : b.nextCancel = a.nextCancel + 1) : Since t b := by
  have hruns := hcancel ▸ Tables.runs_start hj hb
  refine ⟨hok, hn ▸ Nat.le_succ_of_le h.le, fun c hc hlt => ?_, h.closes.start ht h.le hc hn hruns⟩
  rcases (hruns c).mp hc with hc | rfl
  · exact h.old c hc hlt
  · exact absurd hlt (not_lt.mpr h.le)

lemma Since.finish {a : Tables} (h : Since t a) {id : UInt64} {j : Job}
    (hj : a.jobs.lookup id = some j) (completed : Bool) (now : Time) :
    Since t (finishTables a j completed now) where
  ok := h.ok.finish hj completed now
  le := h.le
  old c hc hlt := h.old c ((Tables.runs_finish h.ok hj completed now c).mp hc).1 hlt
  closes := h.closes.finish h.ok h.old hj completed now

lemma Change.since {e : Event} {a b : Seen} (h : Change wl e a b) (ht : t.Ok)
    (ha : Since t a.1) : Since t b.1 := by
  have hok := h.ok ha.ok
  cases h with
  | answer => exact ha
  | start hr hj => exact ha.start ht hok hj rfl (attachJob_cancel _ _ _ _) rfl rfl
  | rejoin hr hj => exact ha.keep hok rfl rfl (Tables.runs_update hj rfl (by simp))
  | count hj => exact ha.keep hok rfl rfl (Tables.runs_update hj rfl rfl)
  | discard => exact ha
  | complete hj => exact ha.finish hj true _
  | orphan hj => exact ha.keep hok rfl rfl (Tables.runs_update hj rfl rfl)
  | forget => exact ha.keep hok rfl rfl fun _ => Iff.rfl
  | drop hj => exact ha.finish hj false _
  | expire => exact ha.keep hok rfl rfl fun _ => Iff.rfl

/-- An event closes the cancel channels of the instances it removes, and no others. -/
lemma step_closes {s : Agg} (hok : s.Ok) (e : Event) :
    s.ClosesRemoved (s.step wl p e).toTables := by
  have hinit : Since s.toTables s.toTables :=
    ⟨hok, le_rfl, fun _ hc _ => hc, .refl s.toTables⟩
  exact (step_induction (P := fun a => Since s.toTables a.1)
    (fun _ _ ha hc => hc.since hok ha) hinit).closes

end Agg

/-! ## The invariant -/

/-- Wherever the guards in front of `remaining--` let a result through, there is something to
subtract from. -/
def NoUnderflow (js : GoMap UInt64 Job) (d : Finset TaskID) : Prop :=
  ∀ x j, js.lookup x.job = some j → x.idx < j.spec.n → x ∉ d → 1 ≤ j.remaining

/-- What the four tables and the accumulators mean, given the ledger of what was merged. -/
structure Tables.Represents (wl : Workload) (t : Tables) (L : List Counted) : Prop where
  remaining : ∀ id j, t.jobs.lookup id = some j → j.remaining.toNat =
    j.spec.n.toNat - ((indicesBelow j.spec.n).filter fun i => (⟨id, i⟩ : TaskID) ∈ t.done).card
  remaining_pos : ∀ id j, t.jobs.lookup id = some j → 0 < j.remaining
  acc : ∀ id j, t.jobs.lookup id = some j → j.Tallied wl t.done L id
  done_running : ∀ x ∈ t.done, ∃ j, t.jobs.lookup x.job = some j ∧ x.idx < j.spec.n
  not_both : ∀ id, t.jobs.lookup id = none ∨ t.results.lookup id = none
  no_underflow : NoUnderflow t.jobs t.done

lemma Tables.Ok.toRepresents {wl : Workload} {t : Tables} {L : List Counted} (h : t.Ok)
    (hs : t.Settled) (ht : Agg.Tallied wl t L) : t.Represents wl L where
  remaining id j hj := by
    have hcounted : (indicesBelow j.spec.n).filter (fun i => (⟨id, i⟩ : TaskID) ∈ t.done) =
        t.countedIdx id := by
      ext i
      rw [Finset.mem_filter, Tables.mem_countedIdx, and_iff_right_iff_imp]
      exact fun hi => h.countedIdx_subset hj (Tables.mem_countedIdx.mpr hi)
    rw [hcounted, ← h.remaining id j hj]
    omega
  remaining_pos id j hj := UInt32.pos_iff_ne_zero.mpr (hs id j hj)
  acc := ht.jobs
  done_running := h.done_running
  not_both id := by
    cases hj : t.jobs.lookup id with
    | none => exact Or.inl rfl
    | some j => exact Or.inr (h.not_both id j hj)
  no_underflow x j hj hi hd := UInt32.le_iff_toNat_le.mpr (h.one_le_remaining hj hi hd)

/-- The replay loop never subtracts from zero either. -/
lemma Replay.replay_noUnderflow (wl : Workload) (now : Time) (recs : List Record) :
    NoUnderflow (replay wl now recs).jobs (replay wl now recs).done := by
  intro x j hj hi hd
  have hs := replay_shows wl now recs
  obtain ⟨l, hl, hjl⟩ := hs.exists_life hj
  have hnew : x.idx ∉ l.idxs := mt (hs.mem_done hl x.idx).mpr hd
  have hlt : l.idxs.toFinset.card < (indicesBelow l.start.n).card := by
    refine Finset.card_lt_card ⟨l.idxs_subset, fun hsub => hnew ?_⟩
    rw [hjl.spec] at hi
    exact List.mem_toFinset.mp (hsub (mem_indicesBelow.mpr hi))
  rw [l.card_idxs, card_indicesBelow] at hlt
  have hr := hjl.remaining
  rw [UInt32.le_iff_toNat_le, UInt32.toNat_one]
  omega

/-- Recovery starts the run's ledger with what the replay loop merged. -/
lemma recover_tallied {wl : Workload} {now : Time} {ords : RecoverOrders}
    {file : Option (List Record × (ℕ → Bool))} {boot : Recovered}
    (hboot : recover wl now ords file = some boot) :
    Agg.Tallied wl boot.agg.toTables (recoveredLedger wl now file) := by
  cases file with
  | none =>
      obtain rfl := Option.some_inj.mp hboot
      refine ⟨?_, ?_⟩ <;> simp [recoveredLedger, Agg.empty]
  | some f =>
      obtain ⟨recs, fails⟩ := f
      obtain ⟨hd, hj, -, hn, -⟩ := recover_tables hboot
      rw [Agg.Tallied, hd, hj, hn]
      exact (Replay.rebuilt_keeps wl now ords.finish recs).tally

/-- **The representation invariant.**  From the state `recover` builds out of any log, or without
one, and after any events: the tables and the accumulators mean what the ledger of merged
results says, and the next event closes exactly the cancel channels of the jobs it removes, none
of them twice.  No round of the replay loop subtracts from zero, whatever the records before
it. -/
theorem Agg.represents {wl : Workload} {p : Params} {now : Time} {ords : RecoverOrders}
    {file : Option (List Record × (ℕ → Bool))} {boot : Recovered}
    (hboot : recover wl now ords file = some boot) (es : List Event) :
    (es.foldl (Agg.step wl p) boot.agg).Represents wl
        (recoveredLedger wl now file ++ boot.agg.ledger wl p es) ∧
      (∀ e, (es.foldl (Agg.step wl p) boot.agg).ClosesRemoved
          ((es.foldl (Agg.step wl p) boot.agg).step wl p e).toTables ∧
        ((es.foldl (Agg.step wl p) boot.agg).step wl p e).closed.Nodup) ∧
      ∀ recs, NoUnderflow (Replay.replay wl now recs).jobs (Replay.replay wl now recs).done := by
  have hb := recover_boots hboot
  obtain ⟨hok, hset, htally⟩ := foldl_collect
    (P := fun (s : Agg) L => s.Ok ∧ s.Settled ∧ Agg.Tallied wl s.toTables L)
    (fun s L e h => ⟨Agg.step_ok wl p h.1 e, Agg.step_settled wl p h.1 h.2.1 e,
      Agg.step_tallied h.1 h.2.2 e⟩) es ⟨hb.ok, hb.settled, recover_tallied hboot⟩
  refine ⟨hok.toRepresents hset htally, fun e => ⟨Agg.step_closes hok e, ?_⟩, ?_⟩
  · exact (Agg.step_ok wl p hok e).closed_nodup
  · exact Replay.replay_noUnderflow wl now

/-- A log with a job of three chunks, of which the first is counted, and a stray record. -/
def threeChunkLog : List Record :=
  [.chunkDone ⟨7, 0, 1, 0⟩, .jobStart ⟨7, 0, 30, 10, 3, []⟩, .chunkDone ⟨7, 0, 10, 0⟩,
    .chunkDone ⟨7, 0, 10, 0⟩]

/-- The recovered job counts its second chunk, once. -/
def threeChunkRun : List Event :=
  [.result ⟨⟨7, 1⟩, 20, 0⟩ 1, .result ⟨⟨7, 1⟩, 20, 0⟩ 2, .result ⟨⟨7, 5⟩, 9, 0⟩ 3]

theorem Agg.represents_threeChunkLog :
    ∃ boot, recover Workload.largest 0 ⟨idOrder, idOrder, idOrder⟩
        (some (threeChunkLog, fun _ => false)) = some boot ∧
      recoveredLedger Workload.largest 0 (some (threeChunkLog, fun _ => false)) ++
          boot.agg.ledger Workload.largest Params.default threeChunkRun =
        [⟨0, 0, ⟨10, 0⟩⟩, ⟨0, 1, ⟨20, 0⟩⟩] ∧
      (threeChunkRun.foldl (Agg.step Workload.largest Params.default) boot.agg).Represents
        Workload.largest [⟨0, 0, ⟨10, 0⟩⟩, ⟨0, 1, ⟨20, 0⟩⟩] := by
  have hval : (recover Workload.largest 0 ⟨idOrder, idOrder, idOrder⟩
      (some (threeChunkLog, fun _ => false))).map (fun boot =>
        recoveredLedger Workload.largest 0 (some (threeChunkLog, fun _ => false)) ++
          boot.agg.ledger Workload.largest Params.default threeChunkRun) =
      some [⟨0, 0, ⟨10, 0⟩⟩, ⟨0, 1, ⟨20, 0⟩⟩] := by decide +kernel
  obtain ⟨boot, hboot, hledger⟩ := Option.map_eq_some_iff.mp hval
  refine ⟨boot, hboot, hledger, ?_⟩
  rw [← hledger]
  exact (Agg.represents hboot threeChunkRun).1

end RudpScheduler
