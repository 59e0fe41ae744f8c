import RudpScheduler.Construction.AggregatorSteps

/-!
# The aggregator's representation invariant

`Tables.Ok` relates the four tables to each other: a running job's `remaining` is what is left
of its `n` tasks once the `done` entries under its ID are taken away, `done` holds nothing of a
job that is not running, no ID is both running and answered, and the cancel channels of running
jobs are open and pairwise different.  `Tables.Settled` adds that no running job has nothing
left to wait for, which holds between events but not inside one.

Every operation of the aggregator is a composition of five changes of the tables: a new job, a
change of a job's client, a counted result, a finished job and an expired answer.  Each has one
lemma here, and `Agg.step_ok` assembles them into the step rule.
-/

namespace RudpScheduler

namespace Tables

variable {t : Tables}

/-- The indices of job `id` that have been counted. -/
def countedIdx (t : Tables) (id : UInt64) : Finset UInt32 :=
  (t.done.filter (·.job = id)).image TaskID.idx

@[simp] lemma mem_countedIdx {id : UInt64} {i : UInt32} :
    i ∈ t.countedIdx id ↔ (⟨id, i⟩ : TaskID) ∈ t.done := by
  simp only [countedIdx, Finset.mem_image, Finset.mem_filter]
  constructor
  · rintro ⟨⟨job, idx⟩, ⟨hx, rfl⟩, rfl⟩
    exact hx
  · intro h
    exact ⟨⟨id, i⟩, ⟨h, rfl⟩, rfl⟩

lemma countedIdx_insert (x : TaskID) (id : UInt64) :
    ({ t with done := insert x t.done } : Tables).countedIdx id =
      if id = x.job then insert x.idx (t.countedIdx id) else t.countedIdx id := by
  obtain ⟨job, idx⟩ := x
  ext i
  by_cases h : id = job <;> simp [h]

/-- The representation invariant. -/
structure Ok (t : Tables) : Prop where
  spec_id : ∀ id j, t.jobs.lookup id = some j → j.spec.id = id
  remaining : ∀ id j, t.jobs.lookup id = some j →
    j.remaining.toNat + (t.countedIdx id).card = j.spec.n.toNat
  done_running : ∀ x ∈ t.done, ∃ j, t.jobs.lookup x.job = some j ∧ x.idx < j.spec.n
  not_both : ∀ id j, t.jobs.lookup id = some j → t.results.lookup id = none
  cancel_lt : ∀ id j, t.jobs.lookup id = some j → j.cancel < t.nextCancel
  cancel_inj : ∀ id j id' j', t.jobs.lookup id = some j → t.jobs.lookup id' = some j' →
    j.cancel = j'.cancel → id = id'
  cancel_open : ∀ id j, t.jobs.lookup id = some j → j.cancel ∉ t.closed
  closed_lt : ∀ c ∈ t.closed, c < t.nextCancel
  closed_nodup : t.closed.Nodup

/-- No running job has nothing left to wait for. -/
def Settled (t : Tables) : Prop := ∀ id j, t.jobs.lookup id = some j → j.remaining ≠ 0

lemma Ok.countedIdx_subset (h : t.Ok) {id : UInt64} {j : Job}
    (hj : t.jobs.lookup id = some j) : t.countedIdx id ⊆ indicesBelow j.spec.n := by
  intro i hi
  obtain ⟨j', hj', hlt⟩ := h.done_running _ (mem_countedIdx.mp hi)
  rw [show j = j' from Option.some_inj.mp (hj.symm.trans hj')]
  exact mem_indicesBelow.mpr hlt

/-- A job that is not running has no `done` entries. -/
lemma Ok.notMem_done (h : t.Ok) {id : UInt64} (hj : t.jobs.lookup id = none) (i : UInt32) :
    (⟨id, i⟩ : TaskID) ∉ t.done := by
  intro hx
  obtain ⟨j, hj', -⟩ := h.done_running _ hx
  simp [hj] at hj'

lemma Ok.countedIdx_eq_empty (h : t.Ok) {id : UInt64} (hj : t.jobs.lookup id = none) :
    t.countedIdx id = ∅ := by
  ext i
  simpa using h.notMem_done hj i

/-- A job with nothing left to wait for has counted all its tasks. -/
lemma Ok.countedIdx_eq_of_remaining_zero (h : t.Ok) {id : UInt64} {j : Job}
    (hj : t.jobs.lookup id = some j) (h0 : j.remaining = 0) :
    t.countedIdx id = indicesBelow j.spec.n := by
  refine Finset.eq_of_subset_of_card_le (h.countedIdx_subset hj) ?_
  have hr := h.remaining id j hj
  rw [h0] at hr
  rw [card_indicesBelow, ← hr]
  simp

/-- A job that waits for an index waits for at least one. -/
lemma Ok.one_le_remaining (h : t.Ok) {id : UInt64} {j : Job} {i : UInt32}
    (hj : t.jobs.lookup id = some j) (hi : i < j.spec.n) (hd : (⟨id, i⟩ : TaskID) ∉ t.done) :
    1 ≤ j.remaining.toNat := by
  have hlt : (t.countedIdx id).card < (indicesBelow j.spec.n).card := by
    refine Finset.card_lt_card ⟨h.countedIdx_subset hj, fun hsub => hd ?_⟩
    exact mem_countedIdx.mp (hsub (mem_indicesBelow.mpr hi))
  rw [card_indicesBelow] at hlt
  have hr := h.remaining id j hj
  omega

/-! ## The five changes of the tables -/

/-- A new job. -/
lemma Ok.insert_fresh (h : t.Ok) {spec : JobSpec} (hj : t.jobs.lookup spec.id = none)
    (hr : t.results.lookup spec.id = none) (wl : Workload) (now : Time) :
    ({ t with
        jobs := t.jobs.insert spec.id (Agg.freshJob wl spec t.nextCancel now)
        nextCancel := t.nextCancel + 1 } : Tables).Ok where
  spec_id := GoMap.forall_insert h.spec_id rfl
  remaining id j hl := by
    change _ + (t.countedIdx id).card = _
    obtain ⟨rfl, rfl⟩ | ⟨-, hl⟩ := GoMap.of_lookup_insert hl
    · rw [h.countedIdx_eq_empty hj]
      rfl
    · exact h.remaining id j hl
  done_running x hx := by
    obtain ⟨j, hj', hlt⟩ := h.done_running x hx
    refine ⟨j, ?_, hlt⟩
    rw [GoMap.lookup_insert_ite, if_neg (fun he => ?_), hj']
    rw [← he, hj'] at hj
    cases hj
  not_both := GoMap.forall_insert h.not_both hr
  cancel_lt := GoMap.forall_insert (fun id j hl => Nat.lt_succ_of_lt (h.cancel_lt id j hl))
    (Nat.lt_succ_self _)
  cancel_inj := GoMap.inj_insert h.cancel_inj fun id j hl hc => absurd hc (h.cancel_lt id j hl).ne
  cancel_open := GoMap.forall_insert h.cancel_open fun hc => lt_irrefl _ (h.closed_lt _ hc)
  closed_lt c hc := Nat.lt_succ_of_lt (h.closed_lt c hc)
  closed_nodup := h.closed_nodup

/-- A change of a job that keeps its spec, its cancel channel and the relation between
`remaining` and `done`.  Both a change of client and a counted result are of this kind. -/
lemma Ok.update (h : t.Ok) {id : UInt64} {j j' : Job} (hj : t.jobs.lookup id = some j)
    (hs : j'.spec = j.spec) (hc : j'.cancel = j.cancel) {done : Finset TaskID}
    (hd : ∀ x ∈ done, x ∈ t.done ∨ x.job = id ∧ x.idx < j.spec.n)
    (hd' : ∀ id', id' ≠ id → ({ t with done := done } : Tables).countedIdx id' = t.countedIdx id')
    (hr : j'.remaining.toNat + (({ t with done := done } : Tables).countedIdx id).card =
      j.spec.n.toNat) (byConn : GoMap ConnID UInt64) :
    ({ t with done := done, jobs := t.jobs.insert id j', byConn := byConn } : Tables).Ok where
  spec_id := GoMap.forall_insert h.spec_id (hs ▸ h.spec_id id j hj)
  remaining id' k hl := by
    obtain ⟨rfl, rfl⟩ | ⟨hid, hl⟩ := GoMap.of_lookup_insert hl
    · rw [hs]
      exact hr
    · have hrest := h.remaining id' k hl
      rwa [← hd' id' hid] at hrest
  done_running x hx := by
    rcases hd x hx with hx' | ⟨hx1, hx2⟩
    · obtain ⟨k, hk, hlt⟩ := h.done_running x hx'
      by_cases hid : x.job = id
      · refine ⟨j', by rw [GoMap.lookup_insert_ite, if_pos hid], ?_⟩
        rw [hs, show j = k from Option.some_inj.mp (hj.symm.trans (hid ▸ hk))]
        exact hlt
      · exact ⟨k, by rw [GoMap.lookup_insert_ite, if_neg hid]; exact hk, hlt⟩
    · exact ⟨j', by rw [GoMap.lookup_insert_ite, if_pos hx1], by rw [hs]; exact hx2⟩
  not_both := GoMap.forall_insert h.not_both (h.not_both id j hj)
  cancel_lt := GoMap.forall_insert h.cancel_lt (hc ▸ h.cancel_lt id j hj)
  cancel_inj := GoMap.inj_insert h.cancel_inj fun id' k hl hk =>
    h.cancel_inj id' k id j hl hj (hk.trans hc)
  cancel_open := GoMap.forall_insert h.cancel_open (hc ▸ h.cancel_open id j hj)
  closed_lt := h.closed_lt
  closed_nodup := h.closed_nodup

/-- A change of a job's client. -/
lemma Ok.update_client (h : t.Ok) {id : UInt64} {j j' : Job} (hj : t.jobs.lookup id = some j)
    (hs : j'.spec = j.spec) (hc : j'.cancel = j.cancel) (hr : j'.remaining = j.remaining)
    (byConn : GoMap ConnID UInt64) :
    ({ t with jobs := t.jobs.insert id j', byConn := byConn } : Tables).Ok := by
  refine h.update hj hs hc (fun x hx => Or.inl hx) (fun _ _ => rfl) ?_ byConn
  rw [hr]
  exact h.remaining id j hj

/-- A counted result. -/
lemma Ok.count (h : t.Ok) {x : TaskID} {j : Job} (hj : t.jobs.lookup x.job = some j)
    (hi : x.idx < j.spec.n) (hd : x ∉ t.done) (wl : Workload) (p : Partial) :
    ({ t with
        done := insert x t.done
        jobs := t.jobs.insert x.job (Agg.countJob wl j p) } : Tables).Ok := by
  have hs : (Agg.countJob wl j p).spec = j.spec := rfl
  have hc : (Agg.countJob wl j p).cancel = j.cancel := rfl
  refine h.update hj hs hc (fun y hy => ?_) (fun id' hid => ?_) ?_ t.byConn
  · rcases Finset.mem_insert.mp hy with rfl | hy
    · exact Or.inr ⟨rfl, hi⟩
    · exact Or.inl hy
  · rw [countedIdx_insert, if_neg hid]
  · have h1 := h.one_le_remaining hj hi hd
    have hr := h.remaining _ _ hj
    rw [countedIdx_insert, if_pos rfl,
      Finset.card_insert_of_notMem (mem_countedIdx.not.mpr hd)]
    have h1' : (1 : UInt32) ≤ j.remaining := UInt32.le_iff_toNat_le.mpr h1
    change (j.remaining - 1).toNat + _ = _
    rw [UInt32.toNat_sub_of_le _ _ h1']
    change j.remaining.toNat - 1 + _ = _
    omega

lemma lookup_finishTables {j k : Job} {completed : Bool} {now : Time} {id : UInt64} :
    (Agg.finishTables t j completed now).jobs.lookup id = some k ↔
      id ≠ j.spec.id ∧ t.jobs.lookup id = some k := by
  rw [Agg.finishTables, GoMap.lookup_erase_ite]
  split_ifs with h <;> simp [h]

lemma countedIdx_finishTables {j : Job} (completed : Bool) (now : Time) {id : UInt64}
    (h : id ≠ j.spec.id) :
    (Agg.finishTables t j completed now).countedIdx id = t.countedIdx id := by
  ext i
  simp [Agg.finishTables, h]

/-- A finished job, completed or dropped. -/
lemma Ok.finish (h : t.Ok) {id : UInt64} {j : Job} (hj : t.jobs.lookup id = some j)
    (completed : Bool) (now : Time) : (Agg.finishTables t j completed now).Ok := by
  have hid : j.spec.id = id := h.spec_id id j hj
  have hlook : ∀ id' k, (Agg.finishTables t j completed now).jobs.lookup id' = some k →
      id' ≠ id ∧ t.jobs.lookup id' = some k := by
    intro id' k hl
    rwa [lookup_finishTables, hid] at hl
  refine ⟨?_, ?_, ?_, ?_, ?_, ?_, ?_, ?_, ?_⟩
  · intro id' k hl
    exact h.spec_id id' k (hlook id' k hl).2
  · intro id' k hl
    obtain ⟨hne, hl'⟩ := hlook id' k hl
    rw [countedIdx_finishTables completed now (hid ▸ hne)]
    exact h.remaining id' k hl'
  · intro x hx
    simp only [Agg.finishTables, mem_deleteTasks, hid] at hx
    obtain ⟨k, hk, hlt⟩ := h.done_running x hx.1
    have hne : x.job ≠ id := by
      intro he
      refine hx.2 ⟨he, ?_⟩
      rwa [show j = k from Option.some_inj.mp (hj.symm.trans (he ▸ hk))]
    exact ⟨k, lookup_finishTables.mpr ⟨by rwa [hid], hk⟩, hlt⟩
  · intro id' k hl
    obtain ⟨hne, hl'⟩ := hlook id' k hl
    simp only [Agg.finishTables, hid]
    split_ifs
    · rw [GoMap.lookup_insert_ite, if_neg hne]
      exact h.not_both id' k hl'
    · exact h.not_both id' k hl'
  · intro id' k hl
    exact h.cancel_lt id' k (hlook id' k hl).2
  · intro id₁ k₁ id₂ k₂ hl₁ hl₂ hc
    exact h.cancel_inj id₁ k₁ id₂ k₂ (hlook _ _ hl₁).2 (hlook _ _ hl₂).2 hc
  · intro id' k hl hc
    obtain ⟨hne, hl'⟩ := hlook id' k hl
    rcases List.mem_append.mp hc with hc | hc
    · exact h.cancel_open id' k hl' hc
    · exact hne (h.cancel_inj id' k id j hl' hj (List.mem_singleton.mp hc))
  · exact List.forall_mem_append.mpr
      ⟨h.closed_lt, List.forall_mem_singleton.mpr (h.cancel_lt id j hj)⟩
  · refine List.nodup_append.mpr ⟨h.closed_nodup, List.nodup_singleton _, ?_⟩
    intro a ha b hb
    rw [List.mem_singleton.mp hb]
    exact fun he => h.cancel_open id j hj (he ▸ ha)

/-- An expired answer. -/
lemma Ok.erase_result (h : t.Ok) (id : UInt64) :
    ({ t with results := t.results.erase id } : Tables).Ok :=
  { h with
    not_both := fun id' j hl => by
      rw [GoMap.lookup_erase_ite, h.not_both id' j hl, ite_self] }

lemma Settled.update (h : t.Settled) {id : UInt64} {j' : Job} (hr : j'.remaining ≠ 0)
    (done : Finset TaskID) (byConn : GoMap ConnID UInt64) (n : ℕ) :
    ({ t with
        done := done, jobs := t.jobs.insert id j', byConn := byConn,
        nextCancel := n } : Tables).Settled :=
  GoMap.forall_insert h hr

/-- Finishing the one job that may have nothing left to wait for settles the tables. -/
lemma settled_finish {j : Job} (h : ∀ id k, t.jobs.lookup id = some k → id ≠ j.spec.id →
    k.remaining ≠ 0) (completed : Bool) (now : Time) :
    (Agg.finishTables t j completed now).Settled := by
  intro id k hl
  obtain ⟨hid, hl'⟩ := lookup_finishTables.mp hl
  exact h id k hl' hid

lemma ok_empty : Agg.empty.Ok where
  spec_id _ _ h := by simp [Agg.empty] at h
  remaining _ _ h := by simp [Agg.empty] at h
  done_running _ h := by simp [Agg.empty] at h
  not_both _ _ h := by simp [Agg.empty] at h
  cancel_lt _ _ h := by simp [Agg.empty] at h
  cancel_inj _ _ _ _ h := by simp [Agg.empty] at h
  cancel_open _ _ h := by simp [Agg.empty] at h
  closed_lt _ h := by simp [Agg.empty] at h
  closed_nodup := List.nodup_nil

end Tables

/-! ## The step rule -/

namespace Agg

open Tables

/-- Every change preserves the representation invariant. -/
lemma Change.ok {wl : Workload} {e : Event} {a b : Seen} (h : Change wl e a b) (ha : a.1.Ok) :
    b.1.Ok := by
  cases h with
  | answer => exact ha
  | @start t o h spec hDone now hr hj =>
      have hfresh := ha.insert_fresh hj hr wl now
      have hlook := Finmap.lookup_insert (a := spec.id)
        (b := freshJob wl spec t.nextCancel now) t.jobs
      have := hfresh.update_client hlook (attachJob_spec _ h hDone now)
        (attachJob_cancel _ h hDone now) (attachJob_remaining _ h hDone now)
        (if hDone then t.byConn else t.byConn.insert h spec.id)
      simpa only [Finmap.insert_insert] using this
  | rejoin hr hj => exact ha.update_client hj (by simp) (by simp) (by simp) _
  | count hj hi hd => exact ha.count hj hi hd wl _
  | discard => exact ha
  | complete hj => exact ha.finish hj true _
  | @orphan t o conn now j hj =>
      have hs : ({ j with client := none, orphanedAt := some now } : Job).spec = j.spec := rfl
      exact ha.update_client hj hs rfl rfl _
  | forget => exact { ha with }
  | drop hj => exact ha.finish hj false _
  | expire => exact ha.erase_result _

lemma step_ok (wl : Workload) (p : Params) {s : Agg} (hs : s.Ok) (e : Event) :
    (s.step wl p e).Ok :=
  step_induction (P := fun a => a.1.Ok) (fun _ _ ha hc => hc.ok ha) hs

/-- `settle` finishes the one job that may have nothing left to wait for. -/
lemma settle_settled {s : Agg} {id : UInt64} {j : Job} (hj : s.jobs.lookup id = some j)
    (hid : j.spec.id = id) (h : ∀ id' k, s.jobs.lookup id' = some k → id' ≠ id → k.remaining ≠ 0)
    (now : Time) : (s.settle id j now).Settled := by
  by_cases h0 : j.remaining = 0
  · rw [settle_toTables_of_zero s h0]
    exact settled_finish (by rwa [hid]) true now
  · rw [settle_of_ne_zero s h0]
    intro id' k hk
    by_cases he : id' = id
    · rwa [show k = j from Option.some_inj.mp (hk.symm.trans (he ▸ hj))]
    · exact h id' k hk he

/-- Between events no running job has nothing left to wait for. -/
lemma step_settled (wl : Workload) (p : Params) {s : Agg} (hok : s.Ok) (hs : s.Settled)
    (e : Event) : (s.step wl p e).Settled := by
  have hother : ∀ (t : Tables) id, (∃ j', t.jobs = s.jobs.insert id j') →
      ∀ id' k, t.jobs.lookup id' = some k → id' ≠ id → k.remaining ≠ 0 := by
    rintro t id ⟨j', ht⟩ id' k hk hne
    rw [ht, GoMap.lookup_insert_ite, if_neg hne] at hk
    exact hs id' k hk
  have hfold : ∀ (f : Agg → UInt64 → Agg), (∀ s id, s.Settled → (f s id).Settled) →
      ∀ (l : List UInt64) (s : Agg), s.Settled → (l.foldl f s).Settled := fun f hf l s h =>
    l.foldlRecOn f h fun s hs id _ => hf s id hs
  cases e with
  | submit h spec hDone now =>
      rw [step]
      cases hr : s.results.lookup spec.id with
      | some f => rw [(s.submit_answered hr wl h hDone now).1]; exact hs
      | none =>
          cases hj : s.jobs.lookup spec.id with
          | some j =>
              rw [s.submit_running hr hj]
              refine settle_settled (by simp) (by simpa using hok.spec_id _ _ hj) ?_ now
              exact hother _ spec.id ⟨_, by simp; rfl⟩
          | none =>
              rw [s.submit_fresh hr hj]
              refine settle_settled (by simp) (by simp [freshJob]) ?_ now
              exact hother _ spec.id ⟨_, by simp [Finmap.insert_insert]; rfl⟩
  | result r now =>
      rw [step]
      rcases s.result_cases wl r now with ⟨j, hj, hi, hd, he⟩ | ⟨hd, dup, he⟩
      · rw [he, count_eq]
        have hid : (countJob wl j r.value).spec.id = r.id.job := hok.spec_id _ j hj
        refine settle_settled (by simp) hid ?_ now
        exact hother _ r.id.job ⟨_, by rw [counted_toTables]⟩
      · rw [he, discard_toTables]; exact hs
  | clientGone conn now =>
      rw [step]
      rcases s.clientGone_cases conn now with ⟨j, hj, hc, he⟩ | ⟨hc, he⟩
      · have hne : ({ j with client := none, orphanedAt := some now } : Job).remaining ≠ 0 :=
          hs _ j hj
        rw [he]
        exact hs.update hne s.done _ s.nextCancel
      · rw [he]; exact hs
  | tick now ords =>
      rw [step, tick, syncDirty_toTables, compactIdle_toTables]
      refine hfold _ (fun s id hs => ?_) _ _ (hfold _ (fun s id hs => ?_) _ _ hs)
      · rcases s.expire_cases p now id with ⟨f, hf, he⟩ | he
        · rw [he, record_toTables]; exact hs
        · rw [he]; exact hs
      · rcases s.dropOrphan_cases p now id with ⟨j, hj, ho, he⟩ | he
        · rw [he, finish_toTables]
          exact settled_finish (fun id' k hk _ => hs id' k hk) false now
        · rw [he]; exact hs

end Agg

/-! ## Where a running job comes from -/

/-- Every job running later was running before, as the same instance, and its `done` entries are
still there. -/
def Tables.Keeps (t t' : Tables) : Prop :=
  ∀ id j', t'.jobs.lookup id = some j' → ∃ j, t.jobs.lookup id = some j ∧ j'.spec = j.spec ∧
    j'.cancel = j.cancel ∧ ∀ i, (⟨id, i⟩ : TaskID) ∈ t.done → (⟨id, i⟩ : TaskID) ∈ t'.done

namespace Tables.Keeps

variable {t t' t'' : Tables}

lemma refl (t : Tables) : t.Keeps t := fun _ j' h => ⟨j', h, rfl, rfl, fun _ => id⟩

lemma trans (h : t.Keeps t') (h' : t'.Keeps t'') : t.Keeps t'' := by
  intro id j'' hj''
  obtain ⟨j', hj', hs', hc', hd'⟩ := h' id j'' hj''
  obtain ⟨j, hj, hs, hc, hd⟩ := h id j' hj'
  exact ⟨j, hj, hs'.trans hs, hc'.trans hc, fun i hi => hd' i (hd i hi)⟩

/-- A change of one job that keeps its spec and its cancel channel. -/
lemma insert {id : UInt64} {j j' : Job} (hj : t.jobs.lookup id = some j)
    (hjobs : t'.jobs = t.jobs.insert id j') (hs : j'.spec = j.spec) (hc : j'.cancel = j.cancel)
    (hd : t.done ⊆ t'.done) : t.Keeps t' := by
  intro id' k hk
  rw [hjobs] at hk
  obtain ⟨rfl, rfl⟩ | ⟨-, hk⟩ := GoMap.of_lookup_insert hk
  · exact ⟨j, hj, hs, hc, fun i hi => hd hi⟩
  · exact ⟨k, hk, rfl, rfl, fun i hi => hd hi⟩

/-- `finish` removes the job and no other job's entries. -/
lemma finish (t : Tables) (j : Job) (completed : Bool) (now : Time) :
    t.Keeps (Agg.finishTables t j completed now) := by
  intro id k hk
  obtain ⟨hne, hk⟩ := lookup_finishTables.mp hk
  refine ⟨k, hk, rfl, rfl, fun i hi => ?_⟩
  exact mem_deleteTasks.mpr ⟨hi, fun h => hne h.1⟩

lemma of_jobs_eq (hj : t'.jobs = t.jobs) (hd : t'.done = t.done) : t.Keeps t' := by
  intro id k hk
  rw [hd]
  exact ⟨k, hj ▸ hk, rfl, rfl, fun _ hi => hi⟩

end Tables.Keeps

namespace Agg

variable {wl : Workload} {p : Params}

/-- A submit for this spec starts a new instance. -/
def Starts (s : Agg) (spec : JobSpec) : Prop :=
  s.results.lookup spec.id = none ∧ s.jobs.lookup spec.id = none

instance (s : Agg) (spec : JobSpec) : Decidable (s.Starts spec) :=
  inferInstanceAs (Decidable (_ ∧ _))

lemma settle_keeps (s : Agg) (id : UInt64) (j : Job) (now : Time) :
    s.Keeps (s.settle id j now).toTables := by
  by_cases h0 : j.remaining = 0
  · rw [settle_toTables_of_zero s h0]
    exact .finish _ j true now
  · rw [settle_of_ne_zero s h0]
    exact .refl _

/-- An event other than a submit starts nothing. -/
lemma step_keeps {e : Event} (he : ∀ h spec hDone now, e ≠ .submit h spec hDone now) (s : Agg) :
    s.Keeps (s.step wl p e).toTables := by
  refine step_induction (P := fun b => s.Keeps b.1) (fun a b ha hc => ha.trans ?_) (.refl _)
  cases hc with
  | answer => exact .refl _
  | start => exact absurd rfl (he _ _ _ _)
  | rejoin => exact absurd rfl (he _ _ _ _)
  | count hj => exact .insert hj rfl rfl rfl (Finset.subset_insert _ _)
  | discard => exact .refl _
  | complete => exact .finish _ _ _ _
  | orphan hj => exact .insert hj rfl rfl rfl (Finset.Subset.refl _)
  | forget => exact .of_jobs_eq rfl rfl
  | drop => exact .finish _ _ _ _
  | expire => exact .of_jobs_eq rfl rfl

/-- A submit that starts nothing. -/
lemma submit_keeps {s : Agg} {spec : JobSpec} (hs : ¬ s.Starts spec) (h : ConnID) (hDone : Bool)
    (now : Time) : s.Keeps (s.submit wl h spec hDone now).1.toTables := by
  cases hr : s.results.lookup spec.id with
  | some f => rw [(s.submit_answered hr wl h hDone now).1]; exact .refl _
  | none =>
      cases hj : s.jobs.lookup spec.id with
      | none => exact absurd ⟨hr, hj⟩ hs
      | some j =>
          rw [s.submit_running hr hj]
          refine .trans ?_ (settle_keeps _ _ _ now)
          refine .insert hj (by simp; rfl) ?_ ?_ (by simp)
          · simp
          · simp

/-- A submit that starts an instance: the other jobs are as they were. -/
lemma submit_starts {s : Agg} {spec : JobSpec} (hs : s.Starts spec) (h : ConnID) (hDone : Bool)
    (now : Time) {id : UInt64} {j' : Job}
    (hj' : (s.submit wl h spec hDone now).1.jobs.lookup id = some j') :
    (id = spec.id ∧ j'.spec = spec ∧ j'.cancel = s.nextCancel) ∨
      ∃ j, s.jobs.lookup id = some j ∧ j'.spec = j.spec ∧ j'.cancel = j.cancel ∧
        ∀ i, (⟨id, i⟩ : TaskID) ∈ s.done →
          (⟨id, i⟩ : TaskID) ∈ (s.submit wl h spec hDone now).1.done := by
  rw [s.submit_fresh hs.1 hs.2] at hj' ⊢
  obtain ⟨j, hj, hspec, hcancel, hdone⟩ := settle_keeps _ _ _ now id j' hj'
  simp only [attach_toTables, startJob_toTables, Finmap.insert_insert,
    GoMap.lookup_insert_ite] at hj
  split_ifs at hj with hid
  · left
    rw [hspec, hcancel, ← Option.some_inj.mp hj]
    simp [hid, freshJob]
  · exact Or.inr ⟨j, hj, hspec, hcancel, fun i hi => hdone i (by simpa using hi)⟩

/-- The reply to a submit that starts an instance asks for a feeder. -/
lemma submit_reply_starts {s : Agg} {spec : JobSpec} (hs : s.Starts spec) (h : ConnID)
    (hDone : Bool) (now : Time) :
    (s.submit wl h spec hDone now).2 = ⟨true, some s.nextCancel⟩ := by
  simp [submit, hs.1, hs.2, freshJob]

/-- A submit that starts nothing asks for none. -/
lemma submit_reply_of_not_starts {s : Agg} {spec : JobSpec} (hs : ¬ s.Starts spec) (h : ConnID)
    (hDone : Bool) (now : Time) : (s.submit wl h spec hDone now).2.feed = false := by
  cases hr : s.results.lookup spec.id with
  | some f => simp [submit, hr]
  | none =>
      cases hj : s.jobs.lookup spec.id with
      | none => exact absurd ⟨hr, hj⟩ hs
      | some j => simp [submit, hr, hj]

/-- A running job was running before the event, as the same instance, or the event is the submit
that started it. -/
lemma step_jobs {s : Agg} {e : Event} {id : UInt64} {j' : Job}
    (hj' : (s.step wl p e).jobs.lookup id = some j') :
    (∃ j, s.jobs.lookup id = some j ∧ j'.spec = j.spec ∧ j'.cancel = j.cancel ∧
        ∀ i, (⟨id, i⟩ : TaskID) ∈ s.done → (⟨id, i⟩ : TaskID) ∈ (s.step wl p e).done) ∨
      ∃ h hDone now, e = .submit h j'.spec hDone now ∧ s.Starts j'.spec ∧ id = j'.spec.id ∧
        j'.cancel = s.nextCancel := by
  by_cases he : ∃ h spec hDone now, e = .submit h spec hDone now
  · obtain ⟨h, spec, hDone, now, rfl⟩ := he
    by_cases hs : s.Starts spec
    · rcases submit_starts hs h hDone now hj' with ⟨hid, hspec, hc⟩ | hold
      · exact Or.inr ⟨h, hDone, now, by rw [hspec], by rwa [hspec], by rw [hspec, hid], hc⟩
      · exact Or.inl hold
    · exact Or.inl (submit_keeps hs h hDone now id j' hj')
  · exact Or.inl
      (step_keeps (fun h spec hDone now hev => he ⟨h, spec, hDone, now, hev⟩) s id j' hj')

/-- A result is dealt with: afterwards its task is done, or its job does not wait for it. -/
lemma step_result_done {s : Agg} (r : ChunkResult) (now : Time) {j' : Job}
    (hj' : (s.step wl p (.result r now)).jobs.lookup r.id.job = some j')
    (hi : r.id.idx < j'.spec.n) : r.id ∈ (s.step wl p (.result r now)).done := by
  rw [step] at hj' ⊢
  rcases s.result_cases wl r now with ⟨j, hj, -, -, he⟩ | ⟨hd, dup, he⟩
  · rw [he, count_eq] at hj' ⊢
    obtain ⟨k, hk, -, -, hdone⟩ := settle_keeps _ _ _ now _ _ hj'
    exact hdone r.id.idx (by simp)
  · rw [he, discard_toTables] at hj' ⊢
    exact hd j' hj' hi

end Agg

end RudpScheduler
