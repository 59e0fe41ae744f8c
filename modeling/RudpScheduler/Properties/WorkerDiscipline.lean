import RudpScheduler.Properties.OneWorker

/-!
# What a worker loop has in flight

The discipline of `workerLoop` with its `inflight` map, in every interleaving of the scheduler's
goroutines.  The window bound is `Worker.Fits`; here are the book-keeping of the counters
(`Worker.Balanced`), the fate of the loop's own clones (`Worker.step_own`), and the number of clones
`speculate` makes of one entry.

That number is counted along a run (`Sys.clonesOf`).  An entry is marked by the step that clones it,
and nothing but the end of its life takes the mark away (`Sys.Marked`), so in a run in which the
entry is there all the time at most one clone is made of it.
-/

namespace RudpScheduler

/-! ## The loop -/

namespace Worker

variable {p : Params} {q q' : Queues} {w w' : Worker} {chunks : List Chunk}

/-- Everything sent has come back, has been handed back or is in flight. -/
def Balanced (w : Worker) : Prop :=
  w.stats.sent = w.stats.results + w.stats.requeued + GoMap.len w.inflight

lemma Balanced.move (hw : w.Balanced) (hm : w.Move p q q' w' chunks) : w'.Balanced := by
  unfold Balanced at hw ⊢
  cases hm with
  | send hq hpull hnew =>
      rw [GoMap.len_insert_of_lookup_none hnew]
      dsimp only
      omega
  | result hph hr he =>
      have hlen := GoMap.len_erase_of_lookup_some he
      dsimp only
      omega
  | clone hph he =>
      rw [GoMap.len_insert_of_lookup_some he]
      exact hw
  | requeue hph he =>
      have hlen := GoMap.len_erase_of_lookup_some he
      dsimp only
      omega
  | _ => exact hw

/-- Taking a task that is already in flight changes no entry. -/
lemma step_own {a : LoopAction} {o : Queues × Worker × List Chunk} (h : w.step p q a = some o)
    {t : Task} (ht : w.takes p q a = some t) {e : Entry}
    (he : w.inflight.lookup t.id = some e) : o.2.1.inflight = w.inflight := by
  have hsend : ∀ now, (w.send t now).1.inflight = w.inflight := fun now => by
    unfold send
    rw [he]
  cases a with
  | poll now =>
      rw [takes] at ht
      split_ifs at ht with hroom
      obtain ⟨hlen, hhold⟩ := hroom
      rw [step] at h
      split_ifs at h
      obtain rfl := Option.some_inj.mp h
      obtain ⟨pq, hq⟩ : ∃ pq, q.pq = t :: pq := List.head?_eq_some_iff.mp ht
      simp only [poll, hlen, hhold, hq, if_true, Bool.false_eq_true, if_false]
      exact hsend now
  | pullPQ now =>
      obtain ⟨pq, hq⟩ : ∃ pq, q.pq = t :: pq := List.head?_eq_some_iff.mp ht
      simp only [step, hq] at h
      split at h
      · rename_i heq
        obtain rfl := Option.some_inj.mp h
        rw [← (List.cons.inj heq).1]
        exact hsend now
      · cases h
  | pullNQ now =>
      obtain ⟨nq, hq⟩ : ∃ nq, q.nq = t :: nq := List.head?_eq_some_iff.mp ht
      simp only [step, hq] at h
      split at h
      · rename_i heq
        obtain rfl := Option.some_inj.mp h
        rw [← (List.cons.inj heq).1]
        exact hsend now
      · cases h
  | _ => cases ht

/-! ## Clones -/

/-- How many clones of task `x` the next round of `speculate` pushes into `pq`. -/
def clones (p : Params) (q : Queues) (w : Worker) (x : TaskID) : ℕ :=
  match w.phase with
  | .speculating now threshold (id :: _) =>
    if id = x then (speculate p q w now threshold id).1.pq.length - q.pq.length else 0
  | _ => 0

/-- Every entry of task `x` has been cloned. -/
def Marked (w : Worker) (x : TaskID) : Prop :=
  ∀ e, w.inflight.lookup x = some e → e.speculated = true

/-- A round of `speculate` that makes a clone finds the entry unmarked and marks it. -/
lemma step_clones {x : TaskID} {o : Queues × Worker × List Chunk}
    (h : w.step p q .speculate = some o) :
    w.clones p q x = 0 ∨
      w.clones p q x = 1 ∧ (∃ e, w.inflight.lookup x = some e ∧ e.speculated = false) ∧
        o.2.1.Marked x := by
  unfold clones
  simp only [step] at h
  split at h
  · rename_i hph
    rw [hph]
    exact .inl rfl
  · rename_i now threshold id rest hph
    obtain rfl := Option.some_inj.mp h
    rw [hph]
    dsimp only
    split_ifs with hid
    · subst hid
      unfold speculate
      cases he : w.inflight.lookup id with
      | none => exact .inl (by simp)
      | some e =>
          dsimp only
          split_ifs with hskip hroom
          · exact .inl (by simp)
          · refine .inr ⟨by simp [Queues.pushPQ], ⟨e, rfl, ?_⟩, fun e' he' => ?_⟩
            · simpa using (not_or.mp hskip).1
            · dsimp only at he'
              rw [Finmap.lookup_insert] at he'
              rw [← Option.some_inj.mp he']
          · exact .inl (by simp)
    · exact .inl rfl
  · cases h

/-- The mark of an entry stays as long as the entry does. -/
lemma Move.marked (hm : w.Move p q q' w' chunks) {x : TaskID} (hw : w.Marked x)
    (hx : w.inflight.lookup x ≠ none) : w'.Marked x := by
  cases hm with
  | send hq hpull hnew =>
      intro e he
      obtain ⟨rfl, -⟩ | ⟨-, he⟩ := GoMap.of_lookup_insert he
      · exact absurd hnew hx
      · exact hw e he
  | result => exact fun e he => hw e (GoMap.of_lookup_erase he).2
  | clone =>
      intro e he
      obtain ⟨-, rfl⟩ | ⟨-, he⟩ := GoMap.of_lookup_insert he
      · rfl
      · exact hw e he
  | requeue => exact fun e he => hw e (GoMap.of_lookup_erase he).2
  | _ => exact hw

end Worker

/-! ## The system -/

namespace Sys

variable {wl : Workload} {p : Params} {s t : Sys} {a : Action}

/-- Task `x` is in flight at loop `w`. -/
def Holds (s : Sys) (w : ℕ) (x : TaskID) : Prop :=
  ∃ l, s.loops.lookup w = some l ∧ l.inflight.lookup x ≠ none

/-- How many clones of task `x` loop `w` pushes into `pq` in this step. -/
def clonesOf (p : Params) (w : ℕ) (x : TaskID) (s : Sys) : Action → ℕ
  | .loop w' .speculate =>
    if w' = w then (s.loops.lookup w).elim 0 fun l => l.clones p s.queues x else 0
  | _ => 0

/-- Loop `w` has cloned its entry of task `x`. -/
def Marked (s : Sys) (w : ℕ) (x : TaskID) : Prop :=
  ∀ l, s.loops.lookup w = some l → l.Marked x

/-- A step of anybody keeps the mark of an entry. -/
lemma Move.marked (h : Move wl p s a t) {w : ℕ} {x : TaskID} (hs : s.Marked w x)
    (hx : s.Holds w x) : t.Marked w x := by
  obtain ⟨l₀, hl₀, hin⟩ := hx
  have hmark := hs l₀ hl₀
  intro l hl
  cases h with
  | lostWorker =>
      obtain ⟨l', hl', rfl | rfl⟩ := lookup_closeDead hl
      · exact hs l hl'
      · exact hs l' hl'
  | join =>
      obtain ⟨-, rfl⟩ | ⟨-, hl⟩ := GoMap.of_lookup_insert hl
      · exact fun e he => by cases he
      · exact hs l hl
  | @forward w' r l' hd hl' =>
      obtain ⟨rfl, rfl⟩ | ⟨-, hl⟩ := GoMap.of_lookup_insert hl
      · exact hs l' hl'
      · exact hs l hl
  | loop hl' hm =>
      obtain ⟨rfl, rfl⟩ | ⟨-, hl⟩ := GoMap.of_lookup_insert hl
      · obtain rfl := Option.some_inj.mp (hl₀.symm.trans hl')
        exact hm.marked hmark hin
      · exact hs l hl
  | @deliver w' l' r now hl' =>
      obtain ⟨rfl, rfl⟩ | ⟨-, hl⟩ := GoMap.of_lookup_insert hl
      · exact hs l' hl'
      · exact hs l hl
  | _ => exact hs l hl

/-- A step that clones the entry of task `x` finds it unmarked and marks it. -/
lemma step_clonesOf (h : s.step wl p a = some t) {w : ℕ} {x : TaskID} :
    s.clonesOf p w x a = 0 ∨ s.clonesOf p w x a = 1 ∧ ¬ s.Marked w x ∧ t.Marked w x := by
  unfold clonesOf
  split
  · rename_i w'
    split_ifs with hw
    · subst hw
      obtain ⟨l, hl, h'⟩ := Option.bind_eq_some_iff.mp h
      obtain ⟨o, ho, rfl⟩ := Option.map_eq_some_iff.mp h'
      rw [hl, Option.elim_some]
      refine (Worker.step_clones ho).imp_right fun ⟨hone, ⟨e, he, hfalse⟩, hmark⟩ =>
        ⟨hone, fun hs => ?_, fun l' hl' => ?_⟩
      · rw [hs l hl e he] at hfalse
        cases hfalse
      · rw [Finmap.lookup_insert] at hl'
        rw [← Option.some_inj.mp hl']
        exact hmark
    · exact .inl rfl
  · exact .inl rfl

/-- As long as an entry is in flight at most one clone is made of it. -/
lemma clones_le_one {w : ℕ} {x : TaskID} {bs : List Action}
    (hrun : run (Sys.step wl p) s bs = some t)
    (hlife : Along (fun u _ => u.Holds w x) (Sys.step wl p) s bs) :
    tally (clonesOf p w x) (Sys.step wl p) s bs ≤ 1 := by
  have hinv := run_tally_along (f := clonesOf p w x)
    (P := fun n (u : Sys) => n ≤ 1 ∧ (n = 1 → u.Marked w x)) (fun n u b u' hu hholds hstep => ?_)
    (n := 0) ⟨Nat.zero_le 1, by simp⟩ hlife hrun
  · rw [Nat.zero_add] at hinv
    exact hinv.1
  · obtain ⟨hle, hmarked⟩ := hu
    rcases step_clonesOf hstep (w := w) (x := x) with hzero | ⟨hone, hnot, hmark⟩
    · rw [hzero, Nat.add_zero]
      exact ⟨hle, fun hn => (step_move hstep).marked (hmarked hn) hholds⟩
    · -- this is the first clone
      have hn : n = 0 := by
        by_contra hn
        exact hnot (hmarked (by omega))
      rw [hn, hone]
      exact ⟨le_rfl, fun _ => hmark⟩

/-- Every loop keeps its tasks in order, its window and its books. -/
def Disciplined (p : Params) (s : Sys) : Prop :=
  ∀ w l, s.loops.lookup w = some l → l.Ok ∧ l.Fits p ∧ l.Balanced

lemma Move.disciplined (h : Move wl p s a t) (hs : s.Disciplined p) : t.Disciplined p := by
  refine h.all_loops (fun c => ⟨Worker.ok_new c, Worker.fits_new c, rfl⟩)
    (fun l hl => ⟨hl.1.congr rfl rfl, ⟨hl.2.1.le, hl.2.1.room⟩, hl.2.2⟩)
    (fun l r hl => ⟨hl.1.congr rfl rfl, ⟨hl.2.1.le, hl.2.1.room⟩, hl.2.2⟩)
    (fun l r hl _ => ⟨?_, .of_le hl.2.1.le (by simp), hl.2.2⟩)
    (fun q q' l l' chunks hl hm => ⟨hl.1.move hm, hl.2.1.move hm, hl.2.2.move hm⟩) hs
  exact Worker.ok_of_entry_id (by simp) (by simp) hl.1.entry_id

lemma run_disciplined {boot : Recovered} {as : List Action}
    (hrun : run (Sys.step wl p) (start boot) as = some s) : s.Disciplined p := by
  refine run_invariant (fun s a t hs hstep => (step_move hstep).disciplined hs) ?_ hrun
  exact start_induction (by simp [Disciplined, initial]) fun _ _ _ hs => hs

/-- **The in-flight discipline of a worker loop**, in every state of every interleaving: at most
`window` entries, each under its own task's ID; the counters balance; at most one clone of an entry
as long as it is in flight; and taking a task that is in flight already, its own clone, leaves the
entries as they are, and so does putting it back. -/
theorem worker_discipline {boot : Recovered} {as : List Action}
    (hrun : run (Sys.step wl p) (start boot) as = some s) {w : ℕ} {l : Worker}
    (hl : s.loops.lookup w = some l) :
    GoMap.len l.inflight ≤ p.window ∧
      (∀ x e, l.inflight.lookup x = some e → e.task.id = x) ∧
      l.stats.sent = l.stats.results + l.stats.requeued + GoMap.len l.inflight ∧
      (∀ x bs t, run (Sys.step wl p) s bs = some t →
        Along (fun u _ => u.Holds w x) (Sys.step wl p) s bs →
        tally (clonesOf p w x) (Sys.step wl p) s bs ≤ 1) ∧
      ∀ a t, s.step wl p (.loop w a) = some t →
        (∃ task e, l.takes p s.queues a = some task ∧ l.inflight.lookup task.id = some e) ∨
          a = .putBack →
        ∃ l', t.loops.lookup w = some l' ∧ l'.inflight = l.inflight := by
  obtain ⟨hok, hfits, hbalanced⟩ := run_disciplined hrun w l hl
  refine ⟨hfits.le, hok.entry_id, hbalanced, fun x bs t hrun' hlife => clones_le_one hrun' hlife,
    fun a t hstep hown => ?_⟩
  obtain ⟨l₀, hl₀, h'⟩ := Option.bind_eq_some_iff.mp hstep
  obtain rfl := Option.some_inj.mp (hl.symm.trans hl₀)
  obtain ⟨o, ho, rfl⟩ := Option.map_eq_some_iff.mp h'
  refine ⟨o.2.1, Finmap.lookup_insert _, ?_⟩
  rcases hown with ⟨task, e, htakes, he⟩ | rfl
  · exact Worker.step_own ho htakes he
  · simp only [Worker.step] at ho
    split at ho
    · obtain rfl := Option.some_inj.mp ho
      rfl
    · cases ho

/-- A worker has two tasks in flight; the result of the first gives a sample, and a late tick clones
the second. -/
def stragglerRun : List Action :=
  [.readRequest 1 ⟨7, 0, 15000, []⟩, .submit 0 0, .takeReply 0, .readJoin 2, .feed 0, .feed 0,
    .loop 1 (.poll 1), .loop 1 (.pullNQ 1), .loop 1 (.poll 1), .loop 1 (.pullNQ 1),
    .loop 1 (.poll 2), .readResult 2 ⟨⟨7, 0⟩, 5, 3⟩, .forward, .loop 1 (.recvResult 2),
    .deliver 1 2, .loop 1 (.poll 3), .loop 1 (.tick (10 ^ 12) taskOrder), .loop 1 .speculate,
    .loop 1 .speculate]

theorem worker_discipline_stragglerRun :
    ∃ s t l l' task, run (Sys.step Workload.largest Params.default) (start ⟨Agg.empty, []⟩)
        stragglerRun = some s ∧ s.loops.lookup 1 = some l ∧
      l.takes Params.default s.queues (.poll (10 ^ 12)) = some task ∧
      (l.inflight.lookup task.id).map Entry.speculated = some true ∧
      s.step Workload.largest Params.default (.loop 1 (.poll (10 ^ 12))) = some t ∧
      GoMap.len l.inflight ≤ Params.default.window ∧
      t.loops.lookup 1 = some l' ∧ l'.inflight = l.inflight := by
  have hval : ((run (Sys.step Workload.largest Params.default) (start ⟨Agg.empty, []⟩)
      stragglerRun).bind fun s => (s.loops.lookup 1).bind fun l =>
        (l.takes Params.default s.queues (.poll (10 ^ 12))).bind fun task =>
          (s.step Workload.largest Params.default (.loop 1 (.poll (10 ^ 12)))).bind fun _ =>
            (l.inflight.lookup task.id).map Entry.speculated) = some true := by
    decide +kernel
  obtain ⟨s, hrun, hs⟩ := Option.bind_eq_some_iff.mp hval
  obtain ⟨l, hl, hs⟩ := Option.bind_eq_some_iff.mp hs
  obtain ⟨task, htask, hs⟩ := Option.bind_eq_some_iff.mp hs
  obtain ⟨t, hstep, hs⟩ := Option.bind_eq_some_iff.mp hs
  obtain ⟨e, he, -⟩ := Option.map_eq_some_iff.mp hs
  obtain ⟨hwindow, -, -, -, hown⟩ := worker_discipline hrun hl
  obtain ⟨l', hl', hin⟩ := hown _ t hstep (.inl ⟨task, e, htask, he⟩)
  exact ⟨s, t, l, l', task, hrun, hl, htask, hs, hstep, hwindow, hl', hin⟩

end Sys

end RudpScheduler
