import RudpScheduler.Construction.AggregatorSteps
import RudpScheduler.Construction.History

/-!
# Tables that say what the histories say

`Shows` compares three tables (`jobs`, `done`, `results`) with the abstract `History` of every
job ID: a job is in `jobs` when its current life goes on, `done` holds the indices counted in
that life, `results` the stored answer.  The replay loop and the live aggregator change these
tables in four ways, and each has one lemma here: a life begins (`Shows.start`), counts
(`Shows.count`), ends (`Shows.stop`), or the job changes in a way the log does not record
(`Shows.update`).

`View` is what the tables are once clients and timestamps are ignored.  Two pairs of tables and
histories have the same view exactly when the histories look alike (`Shows.view_eq_iff`).
-/

namespace RudpScheduler

/-- A job's record fields say what a life says. -/
structure Job.Shows (wl : Workload) {id : UInt64} (j : Job) (l : Life id) : Prop where
  spec : j.spec = l.start.spec
  remaining : j.remaining.toNat + l.counted.length = l.start.n.toNat
  acc : j.acc = l.acc wl

/-- The tables `jobs`, `done` and `results` say what the histories say. -/
structure Shows (wl : Workload) (js : GoMap UInt64 Job) (d : Finset TaskID)
    (rs : GoMap UInt64 Finished) (h : ∀ id, History id) : Prop where
  jobs : ∀ id, Option.Rel (Job.Shows wl) (js.lookup id) (h id).cur
  done : ∀ x : TaskID, x ∈ d ↔ ∃ l, (h x.job).cur = some l ∧ x.idx ∈ l.idxs
  results : ∀ id, (rs.lookup id).map Finished.result = (h id).answer

variable {wl : Workload} {js : GoMap UInt64 Job} {d : Finset TaskID}
  {rs : GoMap UInt64 Finished} {h : ∀ id, History id}

/-! ## Jobs and lives -/

namespace Job.Shows

variable {id : UInt64} {j : Job} {l : Life id}

lemma remaining_eq_zero_iff (hjl : j.Shows wl l) : j.remaining = 0 ↔ l.Full := by
  have hr := hjl.remaining
  rw [← UInt32.toNat_inj, Life.Full]
  simp only [UInt32.toNat_zero]
  omega

/-- A counted record moves a job and its life in step. -/
lemma count (hjl : j.Shows wl l) {c : ChunkDone} (hc : c.job = id) (h1 : c.idx < l.start.n)
    (h2 : c.idx ∉ l.idxs) : (Agg.countJob wl j c.value).Shows wl (l.count c hc) where
  spec := by rw [Life.count_start]; exact hjl.spec
  remaining := by
    -- there is room for one more index, so the counter does not wrap
    have hlen := (l.count c hc).counted_length_le
    have hr := hjl.remaining
    rw [Life.count_start, Life.count_of_new hc h1 h2, List.length_append,
      List.length_singleton] at hlen ⊢
    have h1' : (1 : UInt32) ≤ j.remaining := by
      rw [UInt32.le_iff_toNat_le, UInt32.toNat_one]
      omega
    simp only [Agg.countJob, UInt32.toNat_sub_of_le _ _ h1', UInt32.toNat_one]
    omega
  acc := by
    rw [Life.acc, Life.count_of_new hc h1 h2, List.foldl_append]
    simp only [List.foldl_cons, List.foldl_nil]
    rw [Agg.countJob, hjl.acc]
    rfl

end Job.Shows

namespace Shows

lemma exists_life (hs : Shows wl js d rs h) {id : UInt64} {j : Job}
    (hj : js.lookup id = some j) : ∃ l, (h id).cur = some l ∧ j.Shows wl l := by
  have hrel := hs.jobs id
  rw [hj] at hrel
  generalize (h id).cur = c at hrel ⊢
  cases hrel with
  | some hjl => exact ⟨_, rfl, hjl⟩

lemma cur_eq_none (hs : Shows wl js d rs h) {id : UInt64} (hj : js.lookup id = none) :
    (h id).cur = none := by
  have hrel := hs.jobs id
  rw [hj] at hrel
  generalize (h id).cur = c at hrel ⊢
  cases hrel
  rfl

lemma exists_job (hs : Shows wl js d rs h) {id : UInt64} {l : Life id}
    (hl : (h id).cur = some l) : ∃ j, js.lookup id = some j ∧ j.Shows wl l := by
  have hrel := hs.jobs id
  rw [hl] at hrel
  generalize js.lookup id = c at hrel ⊢
  cases hrel with
  | some hjl => exact ⟨_, rfl, hjl⟩

lemma lookup_eq_none (hs : Shows wl js d rs h) {id : UInt64} (hl : (h id).cur = none) :
    js.lookup id = none := by
  cases hj : js.lookup id with
  | none => rfl
  | some j =>
      obtain ⟨l, hl', -⟩ := hs.exists_life hj
      rw [hl] at hl'
      cases hl'

lemma spec_id (hs : Shows wl js d rs h) {id : UInt64} {j : Job} (hj : js.lookup id = some j) :
    j.spec.id = id := by
  obtain ⟨l, -, hjl⟩ := hs.exists_life hj
  rw [hjl.spec]
  exact l.start_job

lemma mem_done (hs : Shows wl js d rs h) {id : UInt64} {l : Life id}
    (hl : (h id).cur = some l) (i : UInt32) : (⟨id, i⟩ : TaskID) ∈ d ↔ i ∈ l.idxs := by
  rw [hs.done]
  constructor
  · rintro ⟨l', hl', hi⟩
    rwa [Option.some_inj.mp (hl.symm.trans hl')]
  · exact fun hi => ⟨l, hl, hi⟩

/-- Deleting the entries of a running job's tasks deletes all its `done` entries, since they are
all in range. -/
lemma mem_deleteTasks (hs : Shows wl js d rs h) {id : UInt64} {j : Job}
    (hj : js.lookup id = some j) (x : TaskID) :
    x ∈ deleteTasks d id j.spec.n ↔ x.job ≠ id ∧ x ∈ d := by
  rw [RudpScheduler.mem_deleteTasks]
  constructor
  · rintro ⟨hx, hn⟩
    refine ⟨?_, hx⟩
    rintro rfl
    obtain ⟨l, hl, hjl⟩ := hs.exists_life hj
    obtain ⟨c, hc, hci⟩ := Life.mem_idxs.mp ((hs.mem_done hl x.idx).mp hx)
    refine hn ⟨rfl, ?_⟩
    rw [hjl.spec, ← hci]
    exact l.counted_lt c hc
  · rintro ⟨hne, hx⟩
    exact ⟨hx, fun hn => hne hn.1⟩

/-! ## What happens to a life -/

/-- The current life of one job ends. -/
lemma stop (hs : Shows wl js d rs h) (id : UInt64) {js' : GoMap UInt64 Job}
    {d' : Finset TaskID} {rs' : GoMap UInt64 Finished} {a : Option Partial}
    (hjs : ∀ id', js'.lookup id' = if id' = id then none else js.lookup id')
    (hd : ∀ x, x ∈ d' ↔ x.job ≠ id ∧ x ∈ d) (ha : (rs'.lookup id).map Finished.result = a)
    (hrs : ∀ id' ≠ id, rs'.lookup id' = rs.lookup id') {h' : ∀ id, History id}
    (h0 : h' id = (h id).stop a) (hne : ∀ id' ≠ id, h' id' = h id') : Shows wl js' d' rs' h' where
  jobs id' := by
    rw [hjs]
    split_ifs with he
    · rw [he, h0]; exact .none
    · rw [hne id' he]; exact hs.jobs id'
  done x := by
    rw [hd]
    by_cases he : x.job = id
    · rw [he, h0]
      simp [History.stop]
    · rw [hne _ he, hs.done]
      simp [he]
  results id' := by
    by_cases he : id' = id
    · rw [he, h0]; exact ha
    · rw [hne id' he, hrs id' he]; exact hs.results id'

/-- A `JobStart` of a job that is not running opens a life. -/
lemma start (hs : Shows wl js d rs h) {s : JobStart} (hj : js.lookup s.job = none) {j : Job}
    (hspec : j.spec = s.spec) (hrem : j.remaining = s.n) (hacc : j.acc = wl.zero)
    {rs' : GoMap UInt64 Finished}
    (hrs : ∀ id, rs'.lookup id = if id = s.job then none else rs.lookup id) :
    Shows wl (js.insert s.job j) d rs' fun id => (h id).next (.jobStart s) := by
  have hcur := hs.cur_eq_none hj
  have h0 := History.next_jobStart_idle (h := h s.job) rfl hcur
  have hne : ∀ id ≠ s.job, (h id).next (.jobStart s) = h id := fun id he =>
    (h id).next_of_ne fun hid => he hid.symm
  refine ⟨fun id => ?_, fun x => ?_, fun id => ?_⟩
  · rw [GoMap.lookup_insert_ite]
    split_ifs with he
    · subst he
      rw [h0]
      exact .some ⟨hspec, by simp [hrem], hacc⟩
    · rw [hne id he]; exact hs.jobs id
  · by_cases he : x.job = s.job
    · have hx : x ∉ d := by
        rw [hs.done, he, hcur]
        simp
      have hempty : ∀ l, ((h s.job).next (.jobStart s)).cur = some l → x.idx ∉ l.idxs := by
        rw [h0]
        rintro l ⟨rfl⟩
        simp [Life.idxs]
      rw [he]
      simp only [hx, false_iff, not_exists, not_and]
      exact hempty
    · rw [hne _ he]; exact hs.done x
  · rw [hrs]
    split_ifs with he
    · subst he
      rw [h0]
      rfl
    · rw [hne id he]; exact hs.results id

/-- A `ChunkDone` that is counted. -/
lemma count (hs : Shows wl js d rs h) {c : ChunkDone} {j : Job} {l : Life c.job}
    (hj : js.lookup c.job = some j) (hl : (h c.job).cur = some l) (hlt : c.idx < l.start.n)
    (hnew : c.idx ∉ l.idxs) :
    Shows wl (js.insert c.job (Agg.countJob wl j c.value)) (insert c.id d) rs
      fun id => (h id).next (.chunkDone c) := by
  have hjl : j.Shows wl l := by
    obtain ⟨l', hl', hjl⟩ := hs.exists_life hj
    rwa [Option.some_inj.mp (hl.symm.trans hl')]
  have h0 := History.next_chunkDone_running (c := c) rfl hl
  have hne : ∀ id ≠ c.job, (h id).next (.chunkDone c) = h id := fun id he =>
    (h id).next_of_ne fun hid => he hid.symm
  refine ⟨fun id => ?_, fun x => ?_, fun id => ?_⟩
  · rw [GoMap.lookup_insert_ite]
    split_ifs with he
    · subst he
      rw [h0]
      exact .some (hjl.count rfl hlt hnew)
    · rw [hne id he]; exact hs.jobs id
  · obtain ⟨job, idx⟩ := x
    by_cases he : job = c.job
    · subst he
      simp only [h0, Option.some_inj, exists_eq_left', Finset.mem_insert, hs.mem_done hl,
        Life.idxs, Life.count_of_new rfl hlt hnew, List.map_append, List.mem_append,
        List.map_singleton, List.mem_singleton, ChunkDone.id, TaskID.mk.injEq, true_and]
      exact Or.comm
    · rw [Finset.mem_insert, hs.done]
      simp only [hne _ he, or_iff_right_iff_imp]
      exact fun hx => absurd (congrArg TaskID.job hx) he
  · by_cases he : id = c.job
    · subst he
      rw [h0]; exact hs.results c.job
    · rw [hne id he]; exact hs.results id

/-- A change of a job that the log does not record. -/
lemma update (hs : Shows wl js d rs h) {id : UInt64} {j j' : Job} (hj : js.lookup id = some j)
    (hspec : j'.spec = j.spec) (hrem : j'.remaining = j.remaining) (hacc : j'.acc = j.acc) :
    Shows wl (js.insert id j') d rs h where
  jobs id' := by
    rw [GoMap.lookup_insert_ite]
    split_ifs with he
    · obtain ⟨l, hl, hjl⟩ := hs.exists_life hj
      subst he
      rw [hl]
      exact .some ⟨hspec.trans hjl.spec, hrem ▸ hjl.remaining, hacc.trans hjl.acc⟩
    · exact hs.jobs id'
  done := hs.done
  results := hs.results

end Shows

/-! ## Views -/

/-- The tables with clients and timestamps ignored. -/
@[ext]
structure View where
  /-- The running jobs, with what is left of them and what has been merged. -/
  jobs : UInt64 → Option (JobSpec × UInt32 × Partial)
  done : Finset TaskID
  /-- The stored answers. -/
  answers : UInt64 → Option Partial

/-- The view of the tables `jobs`, `done` and `results`. -/
def view (js : GoMap UInt64 Job) (d : Finset TaskID) (rs : GoMap UInt64 Finished) : View where
  jobs id := (js.lookup id).map fun j => (j.spec, j.remaining, j.acc)
  done := d
  answers id := (rs.lookup id).map Finished.result

/-- What the tables show of a history. -/
def History.shown {id : UInt64} (wl : Workload) (h : History id) :
    Option (JobStart × Finset UInt32 × Partial) × Option Partial :=
  (h.cur.map fun l => (l.start, l.idxs.toFinset, l.acc wl), h.answer)

namespace Shows

variable {js' : GoMap UInt64 Job} {d' : Finset TaskID} {rs' : GoMap UInt64 Finished}
  {h' : ∀ id, History id}

lemma shown_eq_of_view_eq (hs : Shows wl js d rs h) (hs' : Shows wl js' d' rs' h')
    (hv : view js d rs = view js' d' rs') (id : UInt64) : (h id).shown wl = (h' id).shown wl := by
  have hjobs := congrFun (congrArg View.jobs hv) id
  have hdone : d = d' := congrArg View.done hv
  have hans := congrFun (congrArg View.answers hv) id
  simp only [view, hs.results, hs'.results] at hjobs hans
  rw [History.shown, History.shown, hans]
  cases hj : js.lookup id with
  | none =>
      rw [hj, Option.map_none, eq_comm, Option.map_eq_none_iff] at hjobs
      rw [hs.cur_eq_none hj, hs'.cur_eq_none hjobs]
  | some j =>
      rw [hj, Option.map_some, eq_comm, Option.map_eq_some_iff] at hjobs
      obtain ⟨j', hj', he⟩ := hjobs
      simp only [Prod.mk.injEq] at he
      obtain ⟨hspec, -, hacc⟩ := he
      obtain ⟨l, hl, hjl⟩ := hs.exists_life hj
      obtain ⟨l', hl', hjl'⟩ := hs'.exists_life hj'
      have hstart : l.start = l'.start := by
        rw [← l.start.spec_start, ← hjl.spec, ← hspec, hjl'.spec, JobStart.spec_start]
      have hidxs : l.idxs.toFinset = l'.idxs.toFinset := by
        ext i
        rw [List.mem_toFinset, List.mem_toFinset, ← hs.mem_done hl, ← hs'.mem_done hl', hdone]
      rw [hl, hl', Option.map_some, Option.map_some, hstart, hidxs, ← hjl.acc, ← hjl'.acc, hacc]

/-- The tables that say what the histories say are unique up to what a view ignores. -/
lemma view_eq (hs : Shows wl js d rs h) (hs' : Shows wl js' d' rs' h) :
    view js d rs = view js' d' rs' := by
  refine View.ext (funext fun id => ?_) (Finset.ext fun x => ?_) (funext fun id => ?_)
  · simp only [view]
    cases hl : (h id).cur with
    | none => rw [hs.lookup_eq_none hl, hs'.lookup_eq_none hl]
    | some l =>
        obtain ⟨j, hj, hjl⟩ := hs.exists_job hl
        obtain ⟨j', hj', hjl'⟩ := hs'.exists_job hl
        have hrem : j.remaining = j'.remaining := by
          have h1 := hjl.remaining
          have h2 := hjl'.remaining
          rw [← UInt32.toNat_inj]
          omega
        rw [hj, hj', Option.map_some, Option.map_some, hjl.spec, hjl'.spec, hjl.acc, hjl'.acc, hrem]
  · change x ∈ d ↔ x ∈ d'
    rw [hs.done, hs'.done]
  · simp only [view, hs.results, hs'.results]

/-- What the tables say is all that is shown of the histories. -/
lemma congr (hs : Shows wl js d rs h) (hv : ∀ id, (h id).shown wl = (h' id).shown wl) :
    Shows wl js d rs h' := by
  have hcur := fun id => congrArg Prod.fst (hv id)
  simp only [History.shown] at hcur
  -- the lives of two histories that look alike have the same start, indices and merge
  have hlife : ∀ id l, (h id).cur = some l → ∃ l', (h' id).cur = some l' ∧
      l'.start = l.start ∧ l'.idxs.toFinset = l.idxs.toFinset ∧ l'.acc wl = l.acc wl := by
    intro id l hl
    have he := hcur id
    rw [hl, Option.map_some, eq_comm, Option.map_eq_some_iff] at he
    simpa only [Prod.mk.injEq] using he
  have hnone : ∀ id, (h id).cur = none → (h' id).cur = none := by
    intro id hl
    have he := hcur id
    rwa [hl, Option.map_none, eq_comm, Option.map_eq_none_iff] at he
  refine ⟨fun id => ?_, fun x => ?_, fun id => ?_⟩
  · cases hl : (h id).cur with
    | none =>
        rw [hs.lookup_eq_none hl, hnone id hl]
        exact .none
    | some l =>
        obtain ⟨l', hl', hstart, hidxs, hacc⟩ := hlife id l hl
        obtain ⟨j, hj, hjl⟩ := hs.exists_job hl
        rw [hj, hl']
        refine .some ⟨hjl.spec.trans (by rw [hstart]), ?_, hjl.acc.trans hacc.symm⟩
        rw [← l'.card_idxs, hidxs, l.card_idxs, hstart]
        exact hjl.remaining
  · cases hl : (h x.job).cur with
    | none => rw [hs.done, hl, hnone _ hl]
    | some l =>
        obtain ⟨l', hl', -, hidxs, -⟩ := hlife x.job l hl
        rw [hs.mem_done hl x.idx, hl', ← List.mem_toFinset, ← hidxs, List.mem_toFinset]
        simp
  · exact (hs.results id).trans (congrArg Prod.snd (hv id))

/-- **Two views are equal exactly when the histories behind them look alike.** -/
lemma view_eq_iff (hs : Shows wl js d rs h) (hs' : Shows wl js' d' rs' h') :
    view js d rs = view js' d' rs' ↔ ∀ id, (h id).shown wl = (h' id).shown wl :=
  ⟨hs.shown_eq_of_view_eq hs', fun hv => (hs.congr hv).view_eq hs'⟩

end Shows

end RudpScheduler
