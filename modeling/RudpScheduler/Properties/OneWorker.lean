import RudpScheduler.Construction.Pipeline
import RudpScheduler.Properties.SystemInvariant

/-!
# One worker's loop inside the system

What the rest of the scheduler can do to the loop of one worker, whose connection is `c`, as long as
the dispatcher does not hear from `c`: nothing but put a result it already carries into
`resultCh` (`Sys.Move.loop_of`).  The loop itself keeps to its window (`Worker.Fits`), and loses an
entry only to a result (`Worker.Move.keeps_entry`).  A connection the dispatcher knows no client on
is one the aggregator never writes to (`Sys.Stranger`).
-/

namespace RudpScheduler

/-! ## The loop -/

namespace Worker

variable {p : Params} {q q' : Queues} {w w' : Worker} {chunks : List Chunk}

/-- The task a step of the loop takes from a queue. -/
def takes (p : Params) (q : Queues) (w : Worker) : LoopAction → Option Task
  | .poll _ => if GoMap.len w.inflight < p.window ∧ w.pqHold = false then q.pq.head? else none
  | .pullPQ _ => q.pq.head?
  | .pullNQ _ => q.nq.head?
  | _ => none

lemma send_chunk {t : Task} {now : Time} {ch : Chunk} (h : ch ∈ (w.send t now).2) :
    w.inflight.lookup t.id = none ∧ ch = t.chunk := by
  unfold send at h
  split at h
  · cases h
  · exact ⟨‹_›, List.mem_singleton.mp h⟩

/-- A chunk is written only for a task the step has taken and that is not in flight. -/
lemma step_chunk {a : LoopAction} {o : Queues × Worker × List Chunk}
    (h : w.step p q a = some o) {ch : Chunk} (hch : ch ∈ o.2.2) :
    ∃ t, w.takes p q a = some t ∧ w.inflight.lookup t.id = none ∧ ch = t.chunk := by
  cases a with
  | poll now =>
      rw [step] at h
      split_ifs at h
      obtain rfl := Option.some_inj.mp h
      unfold poll at hch
      split_ifs at hch with hroom hhold
      · cases hch
      · split at hch
        · rename_i t pq hq
          refine ⟨t, ?_, send_chunk hch⟩
          rw [takes, if_pos ⟨hroom, by simpa using hhold⟩, hq, List.head?_cons]
        · cases hch
      · cases hch
  | pullPQ now =>
      simp only [step] at h
      split at h
      · rename_i t pq _ hq
        obtain rfl := Option.some_inj.mp h
        exact ⟨t, by rw [takes, hq, List.head?_cons], send_chunk hch⟩
      · cases h
  | pullNQ now =>
      simp only [step] at h
      split at h
      · rename_i t nq _ hq
        obtain rfl := Option.some_inj.mp h
        exact ⟨t, by rw [takes, hq, List.head?_cons], send_chunk hch⟩
      · cases h
  | recvResult now =>
      simp only [step] at h
      split at h
      · obtain rfl := Option.some_inj.mp h
        cases hch
      · cases h
  | putBack =>
      simp only [step] at h
      split at h
      · obtain rfl := Option.some_inj.mp h
        cases hch
      · cases h
  | tick now ord =>
      simp only [step] at h
      split at h
      · obtain rfl := Option.some_inj.mp h
        cases hch
      · cases h
  | speculate =>
      simp only [step] at h
      split at h
      · obtain rfl := Option.some_inj.mp h
        cases hch
      · obtain rfl := Option.some_inj.mp h
        cases hch
      · cases h
  | dead ord =>
      simp only [step] at h
      split at h
      · split_ifs at h
        obtain rfl := Option.some_inj.mp h
        cases hch
      · cases h
  | handBack =>
      simp only [step] at h
      split at h
      · obtain rfl := Option.some_inj.mp h
        cases hch
      · obtain ⟨o', -, rfl⟩ := Option.map_eq_some_iff.mp h
        cases hch
      · cases h

/-- An entry leaves a serving loop's map only with a result. -/
lemma Move.keeps_entry (hm : w.Move p q q' w' chunks) (hs : w.Serving) {x : TaskID}
    (hx : w.inflight.lookup x ≠ none) :
    w'.inflight.lookup x ≠ none ∨ ∃ r ∈ w.resultCh, r.id = x := by
  have hassigned : ∀ (id : TaskID) (e : Entry), (w.inflight.insert id e).lookup x ≠ none := by
    intro id e
    rw [GoMap.lookup_insert_ite]
    split_ifs
    · simp
    · exact hx
  cases hm with
  | send => exact .inl (hassigned _ _)
  | result hph hr he =>
      dsimp only
      rw [GoMap.lookup_erase_ite]
      split_ifs with hid
      · exact .inr ⟨_, hr ▸ List.mem_cons_self, hid.symm⟩
      · exact .inl hx
  | clone => exact .inl (hassigned _ _)
  | requeue hph => exact absurd hph (hs.handBack _)
  | _ => exact .inl hx

/-- The loop only takes results from its channel. -/
lemma Move.resultCh_mem (hm : w.Move p q q' w' chunks) {r : ChunkResult} (hr : r ∈ w'.resultCh) :
    r ∈ w.resultCh := by
  cases hm with
  | duplicate _ hch => exact hch ▸ List.mem_cons_of_mem _ hr
  | result _ hch => exact hch ▸ List.mem_cons_of_mem _ hr
  | _ => exact hr

/-- What is written is one chunk, which is in flight from then on. -/
lemma Move.chunks_cases (hm : w.Move p q q' w' chunks) :
    chunks = [] ∨ ∃ t : Task, chunks = [t.chunk] ∧ w'.inflight.lookup t.id ≠ none := by
  cases hm with
  | send => exact .inr ⟨_, rfl, by simp⟩
  | _ => exact .inl rfl

/-- The loop keeps to its window, and waits for a task only with room in it. -/
structure Fits (p : Params) (w : Worker) : Prop where
  le : GoMap.len w.inflight ≤ p.window
  room : ∀ a b, w.phase = .select a b → a = true ∨ b = true → GoMap.len w.inflight < p.window

lemma fits_new (h : ConnID) : (newWorker h).Fits p where
  le := Nat.zero_le _
  room := by simp [newWorker]

lemma Fits.of_le (h : GoMap.len w.inflight ≤ p.window) (hph : ∀ a b, w.phase ≠ .select a b) :
    w.Fits p := ⟨h, fun a b hab => absurd hab (hph a b)⟩

lemma Fits.pull_room (hw : w.Fits p) (h : MayPull p w) : GoMap.len w.inflight < p.window := by
  cases h with
  | top _ hroom => exact hroom
  | select hph hset => exact hw.room _ _ hph hset

/-- **A loop never has more tasks in flight than its window.** -/
lemma Fits.move (hw : w.Fits p) (hm : w.Move p q q' w' chunks) : w'.Fits p := by
  cases hm with
  | wait hph hroom =>
      refine ⟨hw.le, ?_⟩
      rintro a b ⟨rfl, rfl⟩
      exact hroom
  | send hq hpull hnew =>
      refine .of_le ?_ (by simp)
      rw [GoMap.len_insert_of_lookup_none hnew]
      exact hw.pull_room hpull
  | result hph hr he => exact .of_le ((GoMap.len_erase_le _ _).trans hw.le) (by simp)
  | clone hph he =>
      refine .of_le ?_ (by simp)
      rw [GoMap.len_insert_of_lookup_some he]
      exact hw.le
  | requeue hph he => exact .of_le ((GoMap.len_erase_le _ _).trans hw.le) (by simp)
  | _ => exact .of_le hw.le (by simp)

end Worker

/-! ## The system -/

/-- The client's connection, of a handler that has not been told yet whether to feed. -/
def Handler.conn : Handler → Option ConnID
  | .submitting h _ | .replied h _ _ => some h
  | .feeding _ _ => none

/-- The aggregator writes to a connection only for a job it has submitted. -/
lemma Agg.step_out (wl : Workload) (p : Params) {s : Agg} (e : Event) {c : ConnID}
    (he : ∀ spec hDone now, e ≠ .submit c spec hDone now)
    (hs : ∀ id j, s.jobs.lookup id = some j → j.client ≠ some c) :
    (∀ id j, (s.step wl p e).jobs.lookup id = some j → j.client ≠ some c) ∧
      ∃ new, (s.step wl p e).out = s.out ++ new ∧ ∀ m, Output.wrote c m ∉ new := by
  have hattach : ∀ (j : Job) h hDone now, j.client = none → h ≠ c →
      (attachJob j h hDone now).client ≠ some c := by
    intro j h hDone now hj hne
    unfold attachJob
    split_ifs
    · simp [hj]
    · simpa using hne
  refine Agg.step_induction (P := fun u => (∀ id j, u.1.jobs.lookup id = some j →
    j.client ≠ some c) ∧ ∃ new, u.2 = s.out ++ new ∧ ∀ m, Output.wrote c m ∉ new)
    (fun u v hu hch => ?_) ⟨hs, [], by simp [seen], by simp⟩
  obtain ⟨hjobs, new, hnew, hout⟩ := hu
  have hadd : ∀ outs : List Output, (∀ m, Output.wrote c m ∉ outs) →
      ∃ new', u.2 ++ outs = s.out ++ new' ∧ ∀ m, Output.wrote c m ∉ new' := by
    intro outs houts
    refine ⟨new ++ outs, by rw [hnew, List.append_assoc], fun m hm => ?_⟩
    exact (List.mem_append.mp hm).elim (hout m) (houts m)
  cases hch with
  | answer =>
      refine ⟨hjobs, hadd _ fun m hm => ?_⟩
      obtain ⟨rfl, -⟩ := Output.wrote.inj (List.mem_singleton.mp hm)
      exact he _ _ _ rfl
  | start =>
      refine ⟨GoMap.forall_insert hjobs (hattach _ _ _ _ rfl ?_), new, hnew, hout⟩
      rintro rfl
      exact he _ _ _ rfl
  | rejoin =>
      refine ⟨GoMap.forall_insert hjobs (hattach _ _ _ _ rfl ?_), new, hnew, hout⟩
      rintro rfl
      exact he _ _ _ rfl
  | count hj =>
      have hclient := hjobs _ _ hj
      exact ⟨GoMap.forall_insert hjobs hclient, hadd _ (by simp)⟩
  | discard => exact ⟨hjobs, hadd _ (by simp)⟩
  | @complete t o e id j now hj =>
      refine ⟨GoMap.forall_erase hjobs _, ?_⟩
      rw [List.append_assoc]
      refine hadd _ fun m hm => ?_
      have hclient := hjobs _ _ hj
      cases hc : j.client with
      | none => simp [replyOut, hc] at hm
      | some c' =>
          simp only [replyOut, hc, List.mem_append, List.mem_singleton, Output.wrote.injEq,
            reduceCtorEq, or_false] at hm
          exact hclient (hm.1 ▸ hc)
  | orphan => exact ⟨GoMap.forall_insert hjobs (by simp), new, hnew, hout⟩
  | forget => exact ⟨hjobs, new, hnew, hout⟩
  | drop => exact ⟨GoMap.forall_erase hjobs _, hadd _ (by simp)⟩
  | expire => exact ⟨hjobs, new, hnew, hout⟩

namespace Sys

variable {wl : Workload} {p : Params} {s t : Sys} {a : Action} {c : ConnID}

/-- The rule for a property of every worker loop: it holds of a new worker and is kept by whatever
the dispatcher and the aggregator do to a loop, and by the loop's own steps. -/
lemma Move.all_loops {I : Worker → Prop} (h : Move wl p s a t) (hnew : ∀ c, I (newWorker c))
    (hdead : ∀ l, I l → I { l with dead := true })
    (hresult : ∀ l r, I l → I { l with resultCh := l.resultCh ++ [r] })
    (htaken : ∀ l r, I l → l.phase = .holding r → I { l with phase := .top })
    (hmove : ∀ q q' l l' chunks, I l → l.Move p q q' l' chunks → I l')
    (hs : ∀ w l, s.loops.lookup w = some l → I l) :
    ∀ w l, t.loops.lookup w = some l → I l := by
  cases h with
  | lostWorker =>
      intro k l hl
      obtain ⟨l', hl', rfl | rfl⟩ := lookup_closeDead hl
      · exact hs k l hl'
      · exact hdead l' (hs k l' hl')
  | join => exact GoMap.forall_insert hs (hnew _)
  | forward hd hl => exact GoMap.forall_insert hs (hresult _ _ (hs _ _ hl))
  | loop hl hm => exact GoMap.forall_insert hs (hmove _ _ _ _ _ (hs _ _ hl) hm)
  | deliver hl hph => exact GoMap.forall_insert hs (htaken _ _ (hs _ _ hl) hph)
  | _ => exact hs

/-- Every loop keeps to its window. -/
def Fits (p : Params) (s : Sys) : Prop := ∀ w l, s.loops.lookup w = some l → l.Fits p

lemma Move.fits (h : Move wl p s a t) (hs : s.Fits p) : t.Fits p :=
  h.all_loops Worker.fits_new (fun _ hl => ⟨hl.le, hl.room⟩) (fun _ _ hl => ⟨hl.le, hl.room⟩)
    (fun _ _ hl _ => .of_le hl.le (by simp)) (fun _ _ _ _ _ hl hm => hl.move hm) hs

lemma start_fits (boot : Recovered) : (start boot).Fits p :=
  start_induction (by simp [Fits, initial]) fun _ _ _ hs => hs

/-- Unless the dispatcher hears from it, a connection keeps its place in the table. -/
lemma Move.workers_eq (h : Move wl p s a t) (hc : a.heard ≠ some c) :
    t.workers.lookup c = s.workers.lookup c := by
  cases h with
  | @lostWorker c' w =>
      refine (GoMap.lookup_erase_ite _ _ _).trans (if_neg ?_)
      rintro rfl
      exact hc rfl
  | @join c' =>
      refine (GoMap.lookup_insert_ite _ _ _ _).trans (if_neg ?_)
      rintro rfl
      exact hc rfl
  | _ => rfl

/-- **What a step can do to the loop of a worker the dispatcher does not hear from.**  It leaves its
entries and its channel alone, or puts the result the dispatcher carries into the channel, or is a
step of the loop. -/
lemma Move.loop_of (h : Move wl p s a t) (hok : s.Ok) {w : ℕ} {l : Worker}
    (hs : s.Served) (hw : s.workers.lookup c = some w) (hl : s.loops.lookup w = some l)
    (hc : a.heard ≠ some c) :
    ∃ l', t.loops.lookup w = some l' ∧
      ((l'.inflight = l.inflight ∧ l'.resultCh = l.resultCh) ∨
        (∃ r, s.disp = .forwarding w r ∧ l'.inflight = l.inflight ∧
          l'.resultCh = l.resultCh ++ [r]) ∨
        ∃ q chunks, l.Move p s.queues q l' chunks) := by
  cases h with
  | @lostWorker c' w' hr hd hw' =>
      obtain ⟨l', hl', hh', -⟩ := hs.workers c' w' hw'
      obtain ⟨l₀, hl₀, hh, -⟩ := hs.workers c w hw
      have hne : w ≠ w' := by
        rintro rfl
        obtain rfl := Option.some_inj.mp (hl'.symm.trans hl₀)
        exact hc (congrArg some (hh'.symm.trans hh))
      refine ⟨l, ?_, .inl ⟨rfl, rfl⟩⟩
      rw [closeDead, hl']
      exact (GoMap.lookup_insert_ite _ _ _ _).trans ((if_neg hne).trans hl)
  | join =>
      refine ⟨l, ?_, .inl ⟨rfl, rfl⟩⟩
      exact (GoMap.lookup_insert_ite _ _ _ _).trans
        ((if_neg (hok.loops_lt w l hl).ne).trans hl)
  | @forward w' r l' hd hl' =>
      refine GoMap.exists_lookup_insert hl (.inl ⟨rfl, rfl⟩) fun he => ?_
      subst he
      obtain rfl := Option.some_inj.mp (hl.symm.trans hl')
      exact .inr (.inl ⟨r, hd, rfl, rfl⟩)
  | @loop w' a l₁ q l' chunks hl' hm =>
      refine GoMap.exists_lookup_insert hl (.inl ⟨rfl, rfl⟩) fun he => ?_
      subst he
      obtain rfl := Option.some_inj.mp (hl.symm.trans hl')
      exact .inr (.inr ⟨q, chunks, hm⟩)
  | @deliver w' l' r now hl' =>
      refine GoMap.exists_lookup_insert hl (.inl ⟨rfl, rfl⟩) fun he => ?_
      subst he
      obtain rfl := Option.some_inj.mp (hl.symm.trans hl')
      exact .inl ⟨rfl, rfl⟩
  | _ => exact ⟨l, hl, .inl ⟨rfl, rfl⟩⟩

/-- The dispatcher carries a result for a worker only after it has heard from it. -/
lemma Move.forwarding_of (h : Move wl p s a t) (hs : s.Served) {w : ℕ} {r : ChunkResult}
    (hw : s.workers.lookup c = some w) (hc : a.heard ≠ some c)
    (hd : t.disp = .forwarding w r) : s.disp = .forwarding w r := by
  cases h with
  | lostClient => cases hd
  | @result c' w' r' hr hw' =>
      obtain ⟨rfl, rfl⟩ := Disp.forwarding.inj hd
      obtain ⟨l', hl', hh', -⟩ := hs.workers c' w' hw'
      obtain ⟨l, hl, hh, -⟩ := hs.workers c w' hw
      obtain rfl := Option.some_inj.mp (hl'.symm.trans hl)
      exact absurd (congrArg some (hh'.symm.trans hh)) hc
  | forward => cases hd
  | gone => cases hd
  | _ => exact hd

/-- A result for task `x` from connection `c` is in the dispatcher's hand or in the loop's
channel. -/
def HasResult (s : Sys) (c : ConnID) (x : TaskID) : Prop :=
  ∃ w, s.workers.lookup c = some w ∧
    ((∃ r, s.disp = .forwarding w r ∧ r.id = x) ∨
      ∃ l, s.loops.lookup w = some l ∧ ∃ r ∈ l.resultCh, r.id = x)

/-- The loop of the worker on connection `c` waits for task `x`. -/
def Awaits (s : Sys) (c : ConnID) (x : TaskID) : Prop :=
  ∃ w l, s.workers.lookup c = some w ∧ s.loops.lookup w = some l ∧ l.inflight.lookup x ≠ none

lemma Move.hasResult (h : Move wl p s a t) (hok : s.Ok) (hs : s.Served) (hc : a.heard ≠ some c)
    {x : TaskID} (ht : t.HasResult c x) : s.HasResult c x := by
  obtain ⟨w, hw, ht⟩ := ht
  rw [h.workers_eq hc] at hw
  refine ⟨w, hw, ?_⟩
  rcases ht with ⟨r, hd, hr⟩ | ⟨l', hl', r, hr, hx⟩
  · exact .inl ⟨r, h.forwarding_of hs hw hc hd, hr⟩
  · obtain ⟨l, hl, -⟩ := hs.workers c w hw
    obtain ⟨l₁, hl₁, hcases⟩ := h.loop_of hok hs hw hl hc
    obtain rfl := Option.some_inj.mp (hl'.symm.trans hl₁)
    rcases hcases with ⟨-, hch⟩ | ⟨r', hd, -, hch⟩ | ⟨q, chunks, hm⟩
    · exact .inr ⟨l, hl, r, hch ▸ hr, hx⟩
    · rw [hch] at hr
      rcases List.mem_append.mp hr with hr | hr
      · exact .inr ⟨l, hl, r, hr, hx⟩
      · exact .inl ⟨r', hd, List.mem_singleton.mp hr ▸ hx⟩
    · exact .inr ⟨l, hl, r, hm.resultCh_mem hr, hx⟩

/-- A task for which no result has come stays in flight. -/
lemma Move.awaits (h : Move wl p s a t) (hok : s.Ok) (hs : s.Served) (hc : a.heard ≠ some c)
    {x : TaskID} (hx : s.Awaits c x) (hnone : ¬ s.HasResult c x) : t.Awaits c x := by
  obtain ⟨w, l, hw, hl, hin⟩ := hx
  obtain ⟨l₀, hl₀, -, hserv⟩ := hs.workers c w hw
  obtain rfl := Option.some_inj.mp (hl.symm.trans hl₀)
  obtain ⟨l', hl', hcases⟩ := h.loop_of hok hs hw hl hc
  refine ⟨w, l', h.workers_eq hc ▸ hw, hl', ?_⟩
  rcases hcases with ⟨he, -⟩ | ⟨r, -, he, -⟩ | ⟨q, chunks, hm⟩
  · rw [he]; exact hin
  · rw [he]; exact hin
  · exact (hm.keeps_entry hserv hin).resolve_right fun hr => hnone ⟨w, hw, .inr ⟨l, hl, hr⟩⟩

/-- A loop that serves connection `c` has served it before, or the dispatcher has heard from `c`. -/
lemma Move.loop_h (h : Move wl p s a t) (hc : a.heard ≠ some c) :
    ∀ w l', t.loops.lookup w = some l' → l'.h = c → ∃ l, s.loops.lookup w = some l ∧ l.h = c := by
  have hself : ∀ w l, s.loops.lookup w = some l → l.h = c →
      ∃ l, s.loops.lookup w = some l ∧ l.h = c := fun w l hl hh => ⟨l, hl, hh⟩
  cases h with
  | lostWorker =>
      intro w l' hl' hh
      obtain ⟨l, hl, rfl | rfl⟩ := lookup_closeDead hl'
      · exact ⟨l', hl, hh⟩
      · exact ⟨l, hl, hh⟩
  | join => exact GoMap.forall_insert hself fun hh => absurd (congrArg some hh) hc
  | forward hd hl => exact GoMap.forall_insert hself fun hh => ⟨_, hl, hh⟩
  | loop hl hm => exact GoMap.forall_insert hself fun hh => ⟨_, hl, hm.h_eq ▸ hh⟩
  | deliver hl => exact GoMap.forall_insert hself fun hh => ⟨_, hl, hh⟩
  | _ => exact hself

/-! ## Connections without a client -/

/-- No client is known on connection `c`, and no handler and no job has to do with it. -/
structure Stranger (s : Sys) (c : ConnID) : Prop where
  client : c ∉ s.clients
  handler : ∀ g h, s.handlers.lookup g = some h → h.conn ≠ some c
  job : ∀ id j, s.agg.jobs.lookup id = some j → j.client ≠ some c

/-- A connection stays a stranger until the dispatcher hears from it, and the aggregator writes
nothing to it. -/
lemma Stranger.move (hs : s.Stranger c) (h : Move wl p s a t) (hc : a.heard ≠ some c) :
    t.Stranger c ∧ ∃ new, t.agg.out = s.agg.out ++ new ∧ ∀ m, Output.wrote c m ∉ new := by
  have hout : ∀ u : Sys, u.agg = s.agg →
      ∃ new, u.agg.out = s.agg.out ++ new ∧ ∀ m, Output.wrote c m ∉ new :=
    fun u he => ⟨[], by rw [he, List.append_nil], by simp⟩
  cases h with
  | lostClient =>
      exact ⟨{ hs with client := fun hm => hs.client (Finset.mem_of_mem_erase hm) }, hout _ rfl⟩
  | @request c' req =>
      have hne : c' ≠ c := fun he => hc (congrArg some he)
      refine ⟨{ hs with client := fun hm => ?_, handler := ?_ }, hout _ rfl⟩
      · exact (Finset.mem_insert.mp hm).elim (fun he => hne he.symm) hs.client
      · exact GoMap.forall_insert hs.handler fun he => hne (Option.some_inj.mp he)
  | @gone c' now =>
      obtain ⟨hjob, hnew⟩ := Agg.step_out wl p (.clientGone c' now) (by simp) hs.job
      exact ⟨{ hs with job := hjob }, hnew⟩
  | @submit g h' spec now hg =>
      have hne : h' ≠ c := fun he => hs.handler g _ hg (congrArg some he)
      obtain ⟨hjob, hnew⟩ := Agg.step_out wl p (.submit h' spec (h' ∈ s.down) now)
        (fun _ _ _ he => hne (Event.submit.inj he).1) hs.job
      refine ⟨{ hs with job := hjob, handler := ?_ }, hnew⟩
      exact GoMap.forall_insert hs.handler fun he => hne (Option.some_inj.mp he)
  | begin => exact ⟨{ hs with handler := GoMap.forall_insert hs.handler (by simp [Handler.conn]) },
      hout _ rfl⟩
  | leave => exact ⟨{ hs with handler := GoMap.forall_erase hs.handler _ }, hout _ rfl⟩
  | feed => exact ⟨{ hs with handler := GoMap.forall_insert hs.handler (by simp [Handler.conn]) },
      hout _ rfl⟩
  | feedCancel => exact ⟨{ hs with handler := GoMap.forall_erase hs.handler _ }, hout _ rfl⟩
  | @deliver w l r now =>
      obtain ⟨hjob, hnew⟩ := Agg.step_out wl p (.result r now) (by simp) hs.job
      exact ⟨{ hs with job := hjob }, hnew⟩
  | @tick now ords =>
      obtain ⟨hjob, hnew⟩ := Agg.step_out wl p (.tick now ords) (by simp) hs.job
      exact ⟨{ hs with job := hjob }, hnew⟩
  | _ => exact ⟨{ hs with }, hout _ rfl⟩

lemma start_stranger {boot : Recovered} (hb : boot.Boots) : (start boot).Stranger c := by
  have h0 : (initial boot.agg).Stranger c := by
    refine ⟨by simp [initial], by simp [initial], fun id j hj => ?_⟩
    rw [(hb.detached id j hj).1]
    simp
  refine start_induction (P := fun s => s.Stranger c) h0 fun s f _ hs => ?_
  exact { hs with handler := GoMap.forall_insert hs.handler (by simp [Handler.conn]) }

/-- What is written to a stranger is one chunk by the loop that serves it. -/
lemma writtenTo_cases (hs : s.Stranger c) (hc : a.heard ≠ some c) (h : s.step wl p a = some t) :
    Pipeline.writtenTo c s t = [] ∨
      ∃ w la l o ch, a = .loop w la ∧ s.loops.lookup w = some l ∧ l.h = c ∧
        l.step p s.queues la = some o ∧ o.2.2 = [ch] ∧ t.loops.lookup w = some o.2.1 ∧
        Pipeline.writtenTo c s t = [(.loop w, .chunk ch)] := by
  have hquiet : t.wrote = s.wrote → Pipeline.writtenTo c s t = [] := by
    intro hw
    obtain ⟨-, new, hnew, hout⟩ := hs.move (step_move h) hc
    rw [Pipeline.writtenTo, written, hw, List.drop_length, List.map_nil, List.nil_append, hnew,
      List.drop_left, List.filterMap_eq_nil_iff]
    intro e he
    obtain ⟨o, ho, hoe⟩ := List.mem_filterMap.mp he
    split at hoe
    · obtain rfl := Option.some_inj.mp hoe
      refine if_neg ?_
      rintro rfl
      exact hout _ ho
    · cases hoe
  cases a with
  | loop w la =>
      obtain ⟨l, hl, h'⟩ := Option.bind_eq_some_iff.mp h
      obtain ⟨⟨q, l', chunks⟩, ho, rfl⟩ := Option.map_eq_some_iff.mp h'
      have hh : l'.h = l.h := (Worker.step_move ho).h_eq
      rcases (Worker.step_move ho).chunks_cases with rfl | ⟨task, rfl, -⟩
      · exact .inl (hquiet (List.append_nil _))
      · by_cases hlc : l.h = c
        · refine .inr ⟨w, la, l, _, task.chunk, rfl, hl, hlc, ho, rfl, by simp, ?_⟩
          simp [Pipeline.writtenTo, written, hh, hlc]
        · refine .inl ?_
          simp [Pipeline.writtenTo, written, hh, hlc]
  | _ => exact .inl (hquiet (by cases step_move h <;> rfl))

end Sys

end RudpScheduler
