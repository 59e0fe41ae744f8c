import RudpScheduler.Construction.Recover

/-!
# What a log says about one job

The abstract model behind the write-ahead log.  Seen from one job ID, a log is a sequence of
*lives*: a `JobStart` opens one, the `ChunkDone` records after it count each index once, and a
`JobDone` or `JobDrop` ends it.  `History` keeps the lives that have ended, the current one and
the stored answer; `history` folds a list of records into it.

A `Life` carries what makes it one: its records are about its job, in range, and no index is
counted twice.  Recovery and the live aggregator are both compared with this model
(`Properties/Recovery.lean`, `Properties/Refinement.lean`).
-/

namespace RudpScheduler

/-- One life of a job: its start, and the first record of each index counted since. -/
structure Life (id : UInt64) where
  start : JobStart
  counted : List ChunkDone
  start_job : start.job = id
  counted_job : ∀ c ∈ counted, c.job = id
  counted_lt : ∀ c ∈ counted, c.idx < start.n
  counted_nodup : (counted.map ChunkDone.idx).Nodup

namespace Life

variable {id : UInt64}

/-- The indices counted in this life. -/
def idxs (l : Life id) : List UInt32 := l.counted.map ChunkDone.idx

/-- The beginning of a life. -/
def begin (s : JobStart) (h : s.job = id) : Life id where
  start := s
  counted := []
  start_job := h
  counted_job := by simp
  counted_lt := by simp
  counted_nodup := by simp

/-- One more `ChunkDone`: it counts when its index is in range and new. -/
def count (l : Life id) (c : ChunkDone) (hc : c.job = id) : Life id :=
  if h : c.idx < l.start.n ∧ c.idx ∉ l.idxs then
    { l with
      counted := l.counted ++ [c]
      counted_job := by
        intro c' hc'
        rcases List.mem_append.mp hc' with hc' | hc'
        · exact l.counted_job c' hc'
        · rwa [List.mem_singleton.mp hc']
      counted_lt := by
        intro c' hc'
        rcases List.mem_append.mp hc' with hc' | hc'
        · exact l.counted_lt c' hc'
        · rw [List.mem_singleton.mp hc']; exact h.1
      counted_nodup := by
        rw [List.map_append, List.map_singleton, ← List.concat_eq_append]
        exact l.counted_nodup.concat h.2 }
  else l

/-- The `Merge` of what has been counted, in the order of the log. -/
def acc (wl : Workload) (l : Life id) : Partial :=
  l.counted.foldl (fun a c => wl.merge a c.value) wl.zero

/-- Every index has been counted. -/
def Full (l : Life id) : Prop := l.counted.length = l.start.n.toNat

instance (l : Life id) : Decidable l.Full := inferInstanceAs (Decidable (_ = _))

@[simp] lemma begin_start (s : JobStart) (h : s.job = id) : (begin s h).start = s := rfl

@[simp] lemma begin_counted (s : JobStart) (h : s.job = id) : (begin s h).counted = [] := rfl

@[simp] lemma begin_acc (wl : Workload) (s : JobStart) (h : s.job = id) :
    (begin s h).acc wl = wl.zero := rfl

lemma count_of_new {l : Life id} {c : ChunkDone} (hc : c.job = id) (h1 : c.idx < l.start.n)
    (h2 : c.idx ∉ l.idxs) : (l.count c hc).counted = l.counted ++ [c] := by
  rw [count, dif_pos ⟨h1, h2⟩]

lemma count_of_old {l : Life id} {c : ChunkDone} (hc : c.job = id)
    (h : ¬ (c.idx < l.start.n ∧ c.idx ∉ l.idxs)) : l.count c hc = l := by
  rw [count, dif_neg h]

@[simp] lemma count_start (l : Life id) (c : ChunkDone) (hc : c.job = id) :
    (l.count c hc).start = l.start := by
  unfold count
  split <;> rfl

lemma mem_idxs {l : Life id} {i : UInt32} : i ∈ l.idxs ↔ ∃ c ∈ l.counted, c.idx = i := by
  simp [idxs]

lemma idxs_subset (l : Life id) : l.idxs.toFinset ⊆ indicesBelow l.start.n := by
  intro i hi
  obtain ⟨c, hc, rfl⟩ := mem_idxs.mp (List.mem_toFinset.mp hi)
  exact mem_indicesBelow.mpr (l.counted_lt c hc)

lemma card_idxs (l : Life id) : l.idxs.toFinset.card = l.counted.length := by
  rw [idxs, List.toFinset_card_of_nodup l.counted_nodup, List.length_map]

lemma counted_length_le (l : Life id) : l.counted.length ≤ l.start.n.toNat := by
  rw [← card_idxs, ← card_indicesBelow]
  exact Finset.card_le_card l.idxs_subset

end Life

/-- What a log says about job `id`. -/
structure History (id : UInt64) where
  /-- The lives that have ended, in order. -/
  past : List (Life id)
  /-- The life that is going on. -/
  cur : Option (Life id)
  /-- The stored answer. -/
  answer : Option Partial

namespace History

variable {id : UInt64}

/-- Nothing has been said about the job. -/
def nothing : History id := ⟨[], none, none⟩

/-- The current life, if any, ends with the given answer. -/
def stop (h : History id) (answer : Option Partial) : History id :=
  ⟨h.past ++ h.cur.toList, none, answer⟩

/-- What one more record says. -/
def next (h : History id) : Record → History id
  | .jobStart s =>
    if hs : s.job = id then
      match h.cur with
      | some _ => h
      | none => { h with cur := some (Life.begin s hs), answer := none }
    else h
  | .chunkDone c => if hc : c.job = id then { h with cur := h.cur.map (·.count c hc) } else h
  | .jobDone d => if d.job = id then h.stop (some ⟨d.hash, d.nonce⟩) else h
  | .jobDrop d => if d.job = id then h.stop none else h

/-- A record about another job says nothing. -/
lemma next_of_ne (h : History id) {r : Record} (hr : r.job ≠ id) : h.next r = h := by
  cases r with
  | jobStart s => exact dif_neg hr
  | chunkDone c => exact dif_neg hr
  | jobDone d => exact if_neg hr
  | jobDrop d => exact if_neg hr

lemma next_jobStart_running {h : History id} {s : JobStart} {l : Life id} (hl : h.cur = some l) :
    h.next (.jobStart s) = h := by
  simp only [next, hl]
  split <;> rfl

lemma next_jobStart_idle {h : History id} {s : JobStart} (hs : s.job = id) (hl : h.cur = none) :
    h.next (.jobStart s) = { h with cur := some (Life.begin s hs), answer := none } := by
  simp only [next, hl, dif_pos hs]

lemma next_chunkDone (h : History id) {c : ChunkDone} (hc : c.job = id) :
    h.next (.chunkDone c) = { h with cur := h.cur.map (·.count c hc) } := by
  simp only [next, dif_pos hc]

lemma next_chunkDone_running {h : History id} {c : ChunkDone} {l : Life id} (hc : c.job = id)
    (hl : h.cur = some l) : h.next (.chunkDone c) = { h with cur := some (l.count c hc) } := by
  rw [next_chunkDone h hc, hl]
  rfl

lemma next_jobDone (h : History id) {d : JobDone} (hd : d.job = id) :
    h.next (.jobDone d) = h.stop (some ⟨d.hash, d.nonce⟩) := by
  simp only [next, if_pos hd]

lemma next_jobDrop (h : History id) {d : JobDrop} (hd : d.job = id) :
    h.next (.jobDrop d) = h.stop none := by
  simp only [next, if_pos hd]

/-- A record keeps a job from being both running and answered. -/
lemma next_answer {h : History id} (hh : ∀ l, h.cur = some l → h.answer = none) (rec : Record) :
    ∀ l, (h.next rec).cur = some l → (h.next rec).answer = none := by
  intro l hl
  by_cases hr : rec.job = id
  · cases rec with
    | jobStart s =>
        cases hc : h.cur with
        | some k => rw [next_jobStart_running hc]; exact hh k hc
        | none => rw [next_jobStart_idle hr hc]
    | chunkDone c =>
        rw [next_chunkDone h hr] at hl ⊢
        obtain ⟨k, hk, -⟩ := Option.map_eq_some_iff.mp hl
        exact hh k hk
    | jobDone d => rw [next_jobDone h hr] at hl; cases hl
    | jobDrop d => rw [next_jobDrop h hr] at hl; cases hl
  · rw [next_of_ne h hr] at hl ⊢
    exact hh l hl

/-- A life that has counted everything is over, whether or not its `JobDone` was logged. -/
def settle (wl : Workload) (h : History id) : History id :=
  match h.cur with
  | some l => if l.Full then h.stop (some (l.acc wl)) else h
  | none => h

lemma settle_settle (wl : Workload) (h : History id) :
    (h.settle wl).settle wl = h.settle wl := by
  obtain ⟨past, cur, answer⟩ := h
  cases cur with
  | none => rfl
  | some l => by_cases hl : l.Full <;> simp [settle, stop, hl]

/-- What is left of the current life after settling: it goes on if it is not full. -/
lemma settle_cur_eq_some {wl : Workload} {h : History id} {l : Life id} :
    (h.settle wl).cur = some l ↔ h.cur = some l ∧ ¬ l.Full := by
  obtain ⟨past, cur, answer⟩ := h
  cases cur with
  | none => simp [settle]
  | some k =>
      by_cases hk : k.Full
      · simp only [settle, if_pos hk, stop, reduceCtorEq, false_iff, Option.some_inj, not_and,
          not_not]
        exact fun he => he ▸ hk
      · simp only [settle, if_neg hk, Option.some_inj, iff_self_and]
        exact fun he => he ▸ hk

lemma settle_of_cur {wl : Workload} {h : History id} {l : Life id}
    (hl : (h.settle wl).cur = some l) : h.settle wl = h := by
  obtain ⟨h1, h2⟩ := settle_cur_eq_some.mp hl
  simp [settle, h1, h2]

/-- Every `ChunkDone` that was counted in some life, in the order of the log. -/
def allCounted (h : History id) : List ChunkDone :=
  (h.past ++ h.cur.toList).flatMap Life.counted

/-- A life begins with nothing counted. -/
lemma allCounted_jobStart (h : History id) (s : JobStart) :
    (h.next (.jobStart s)).allCounted = h.allCounted := by
  by_cases hs : s.job = id
  · cases hc : h.cur with
    | some l => rw [next_jobStart_running hc]
    | none =>
        rw [next_jobStart_idle hs hc]
        simp [allCounted, hc]
  · rw [next_of_ne h (r := .jobStart s) hs]

@[simp] lemma allCounted_stop (h : History id) (a : Option Partial) :
    (h.stop a).allCounted = h.allCounted := by
  simp [allCounted, stop]

end History

/-- The history of job `id` in a list of records. -/
def history (id : UInt64) (recs : List Record) : History id :=
  recs.foldl History.next History.nothing

@[simp] lemma history_nil (id : UInt64) : history id [] = History.nothing := rfl

lemma history_concat (id : UInt64) (recs : List Record) (r : Record) :
    history id (recs ++ [r]) = (history id recs).next r := by
  rw [history, List.foldl_append]
  rfl

/-- A running job has no stored answer. -/
lemma history_answer (id : UInt64) (recs : List Record) :
    ∀ l, (history id recs).cur = some l → (history id recs).answer = none := by
  induction recs using List.reverseRecOn with
  | nil => simp [History.nothing]
  | append_singleton recs rec ih => rw [history_concat]; exact History.next_answer ih rec

/-- The history of a job is the history of its own records. -/
lemma history_filter (id : UInt64) (recs : List Record) :
    history id (recs.filter fun r => r.job = id) = history id recs := by
  induction recs using List.reverseRecOn with
  | nil => rfl
  | append_singleton recs r ih =>
      rw [List.filter_append, history_concat]
      by_cases hr : r.job = id
      · rw [List.filter_cons_of_pos (by simpa using hr), List.filter_nil, history_concat, ih]
      · rw [List.filter_cons_of_neg (by simpa using hr), List.filter_nil, List.append_nil, ih,
          History.next_of_ne _ hr]

/-! ## Counting a list of records from the beginning -/

/-- One more record, kept if its index is below `n` and new. -/
def keepFirst (n : UInt32) (kept : List ChunkDone) (c : ChunkDone) : List ChunkDone :=
  if c.idx < n ∧ c.idx ∉ kept.map ChunkDone.idx then kept ++ [c] else kept

/-- The first record of each index below `n`. -/
def firsts (n : UInt32) (cs : List ChunkDone) : List ChunkDone := cs.foldl (keepFirst n) []

lemma firsts_concat (n : UInt32) (cs : List ChunkDone) (c : ChunkDone) :
    firsts n (cs ++ [c]) = keepFirst n (firsts n cs) c := by
  rw [firsts, List.foldl_append]
  rfl

lemma Life.count_counted {id : UInt64} (l : Life id) (c : ChunkDone) (hc : c.job = id) :
    (l.count c hc).counted = keepFirst l.start.n l.counted c := by
  unfold keepFirst
  split_ifs with h
  · exact Life.count_of_new hc h.1 h.2
  · rw [Life.count_of_old hc h]

/-- A start followed by counted chunks: the life that counts the first record of each index. -/
lemma history_start {id : UInt64} {s : JobStart} (hs : s.job = id) {cs : List ChunkDone}
    (hcs : ∀ c ∈ cs, c.job = id) :
    ∃ l : Life id, history id (.jobStart s :: cs.map .chunkDone) = ⟨[], some l, none⟩ ∧
      l.start = s ∧ l.counted = firsts s.n cs := by
  induction cs using List.reverseRecOn with
  | nil => exact ⟨Life.begin s hs, History.next_jobStart_idle hs rfl, rfl, rfl⟩
  | append_singleton cs c ih =>
      obtain ⟨l, hl, hstart, hcounted⟩ := ih fun c' hc' => hcs c' (List.mem_append_left _ hc')
      have hc : c.job = id := hcs c (by simp)
      refine ⟨l.count c hc, ?_, by rw [Life.count_start, hstart], ?_⟩
      · rw [List.map_append, List.map_singleton, ← List.cons_append, history_concat, hl,
          History.next_chunkDone _ hc]
        rfl
      · rw [Life.count_counted, hstart, hcounted, firsts_concat]

lemma mem_of_mem_firsts {n : UInt32} {cs : List ChunkDone} {c : ChunkDone}
    (h : c ∈ firsts n cs) : c ∈ cs := by
  induction cs using List.reverseRecOn with
  | nil => cases h
  | append_singleton cs d ih =>
      rw [firsts_concat, keepFirst] at h
      split_ifs at h
      · rcases List.mem_append.mp h with h | h
        · exact List.mem_append_left _ (ih h)
        · exact List.mem_append_right _ h
      · exact List.mem_append_left _ (ih h)

/-- Every index below `n` is kept. -/
lemma exists_mem_firsts {n : UInt32} {cs : List ChunkDone} {c : ChunkDone} (hc : c ∈ cs)
    (hn : c.idx < n) : ∃ d ∈ firsts n cs, d.idx = c.idx := by
  induction cs using List.reverseRecOn with
  | nil => cases hc
  | append_singleton cs d ih =>
      have hkeep : ∀ e ∈ firsts n cs, e ∈ firsts n (cs ++ [d]) := by
        intro e he
        rw [firsts_concat, keepFirst]
        split_ifs
        · exact List.mem_append_left _ he
        · exact he
      rcases List.mem_append.mp hc with hc | hc
      · obtain ⟨e, he, hidx⟩ := ih hc
        exact ⟨e, hkeep e he, hidx⟩
      · obtain rfl := List.mem_singleton.mp hc
        by_cases hnew : c.idx ∈ (firsts n cs).map ChunkDone.idx
        · obtain ⟨e, he, hidx⟩ := List.mem_map.mp hnew
          exact ⟨e, hkeep e he, hidx⟩
        · refine ⟨c, ?_, rfl⟩
          rw [firsts_concat, keepFirst, if_pos ⟨hn, hnew⟩]
          exact List.mem_append_right _ (List.mem_singleton_self c)

end RudpScheduler
