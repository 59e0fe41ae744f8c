import RudpScheduler.Construction.AggregatorSteps
import RudpScheduler.Construction.System

/-!
# What a step of the system can do

`Worker.Move` lists what one step of a worker loop can do to the loop and to the queues, and
`Sys.Move` what one step of the system can do, each with the guards the code checks;
`Worker.step_move` and `Sys.step_move` say that there is nothing else.  An invariant of the
system is proved over `Sys.Move`, and the part of it that concerns the worker loops over
`Worker.Move`; neither unfolds a step.

`Handler.toQueue` and `Handler.cancelOf` are what a handler is still going to push into `nq`,
and the channel that can stop it.
-/

namespace RudpScheduler

/-! ## A worker loop -/

/-- Task `t` is taken from the front of one of the queues. -/
inductive Queues.Pull : Queues → Task → Queues → Prop
  | pq {t : Task} {nq pq : List Task} : Pull ⟨nq, t :: pq⟩ t ⟨nq, pq⟩
  | nq {t : Task} {nq pq : List Task} : Pull ⟨t :: nq, pq⟩ t ⟨nq, pq⟩

namespace Worker

/-- The loop takes a task only with room in its window, tested at the top of the loop or before
it entered the `select` with a queue's channel set. -/
inductive MayPull (p : Params) (w : Worker) : Prop
  | top (hph : w.phase = .top) (hroom : GoMap.len w.inflight < p.window)
  | select {a b : Bool} (hph : w.phase = .select a b) (hset : a = true ∨ b = true)

/-- What one step of a worker loop does. -/
inductive Move (p : Params) : Queues → Worker → Queues → Worker → List Chunk → Prop
  /-- Enter the `select`. -/
  | wait {q w} (hph : w.phase = .top) {a b : Bool}
      (hroom : a = true ∨ b = true → GoMap.len w.inflight < p.window) :
      Move p q w q { w with phase := .select a b } []
  /-- Take a task and write it to the worker. -/
  | send {q q' w t} {now : Time} (hq : Queues.Pull q t q') (hpull : MayPull p w)
      (hnew : w.inflight.lookup t.id = none) :
      Move p q w q'
        { w with
          inflight := w.inflight.insert t.id ⟨t, now, false⟩
          stats := { w.stats with sent := w.stats.sent + 1 }
          phase := .top } [t.chunk]
  /-- Take a task that is already in flight here. -/
  | own {q q' w t e} (hq : Queues.Pull q t q') (hpull : MayPull p w)
      (hmine : w.inflight.lookup t.id = some e) :
      Move p q w q' { w with phase := .own t } []
  /-- Put the own clone back, or drop it because `pq` is full. -/
  | putBack {q q' w t} (hph : w.phase = .own t) (hq : q' = q ∨ q' = q.pushPQ t) :
      Move p q w q' { w with pqHold := true, phase := .top } []
  /-- Drop a result for a task that is not in flight. -/
  | duplicate {q w a b r rest} (hph : w.phase = .select a b) (hr : w.resultCh = r :: rest)
      (hnone : w.inflight.lookup r.id = none) :
      Move p q w q
        { w with
          resultCh := rest
          stats := { w.stats with dupResults := w.stats.dupResults + 1 }
          phase := .top } []
  /-- Accept a result. -/
  | result {q w a b r rest e srtt hasSRTT} (hph : w.phase = .select a b)
      (hr : w.resultCh = r :: rest) (he : w.inflight.lookup r.id = some e) :
      Move p q w q
        { w with
          resultCh := rest
          inflight := w.inflight.erase r.id
          srtt := srtt
          hasSRTT := hasSRTT
          stats := { w.stats with results := w.stats.results + 1 }
          phase := .holding r } []
  /-- A tick that has nothing to look for. -/
  | tick {q w a b} (hph : w.phase = .select a b) :
      Move p q w q { w with pqHold := false, phase := .top } []
  /-- A tick that starts a scan. -/
  | scan {q w a b now threshold} (ord : RangeOrder TaskID) (hph : w.phase = .select a b) :
      Move p q w q
        { w with pqHold := false, phase := .speculating now threshold (ord.range w.inflight) } []
  /-- Clone a straggler. -/
  | clone {q w now threshold id rest e} (hph : w.phase = .speculating now threshold (id :: rest))
      (he : w.inflight.lookup id = some e) (hs : e.speculated = false)
      (hroom : q.pq.length < p.pqCap) :
      Move p q w (q.pushPQ e.task)
        { w with
          inflight := w.inflight.insert id { e with speculated := true }
          stats := { w.stats with speculated := w.stats.speculated + 1 }
          phase := .speculating now threshold rest } []
  /-- Leave an entry as it is. -/
  | skip {q w now threshold id rest} (hph : w.phase = .speculating now threshold (id :: rest)) :
      Move p q w q { w with phase := .speculating now threshold rest } []
  /-- The scan is over. -/
  | scanned {q w now threshold} (hph : w.phase = .speculating now threshold []) :
      Move p q w q { w with phase := .top } []
  /-- The connection is lost. -/
  | lost {q w a b} (ord : RangeOrder TaskID) (hph : w.phase = .select a b) (hd : w.dead = true) :
      Move p q w q { w with phase := .handBack (ord.range w.inflight) } []
  /-- Hand a task back. -/
  | requeue {q w id rest e} (hph : w.phase = .handBack (id :: rest))
      (he : w.inflight.lookup id = some e) (hroom : q.pq.length < p.pqCap) :
      Move p q w (q.pushPQ e.task)
        { w with
          inflight := w.inflight.erase id
          stats := { w.stats with requeued := w.stats.requeued + 1 }
          phase := .handBack rest } []
  /-- An entry that is no longer there. -/
  | pass {q w id rest} (hph : w.phase = .handBack (id :: rest))
      (he : w.inflight.lookup id = none) : Move p q w q { w with phase := .handBack rest } []
  /-- Everything has been handed back. -/
  | exit {q w} (hph : w.phase = .handBack []) : Move p q w q { w with phase := .exited } []

variable {p : Params} {q q' : Queues} {w : Worker}

lemma send_move {t : Task} {now : Time} (hq : Queues.Pull q t q') (hpull : MayPull p w) :
    Move p q w q' (w.send t now).1 (w.send t now).2 := by
  unfold send
  split
  · exact .own hq hpull ‹_›
  · exact .send hq hpull ‹_›

lemma poll_move {now : Time} (hph : w.phase = .top) :
    Move p q w (poll p q w now).1 (poll p q w now).2.1 (poll p q w now).2.2 := by
  unfold poll
  split_ifs with hroom hhold
  · exact .wait hph fun _ => hroom
  · obtain ⟨nq, pq⟩ := q
    cases pq with
    | nil => exact .wait hph fun _ => hroom
    | cons t pq => exact send_move .pq (.top hph hroom)
  · exact .wait hph (by simp)

lemma recvResult_move {a b : Bool} {r : ChunkResult} {rest : List ChunkResult} {now : Time}
    (hph : w.phase = .select a b) (hr : w.resultCh = r :: rest) :
    Move p q w q ({ w with resultCh := rest }.recvResult r now) [] := by
  unfold recvResult
  cases he : w.inflight.lookup r.id with
  | none => simpa [he] using Move.duplicate hph hr he
  | some e =>
      dsimp only
      split_ifs
      · exact .result hph hr he
      · unfold updateSRTT
        split_ifs <;> exact .result hph hr he

lemma speculate_move {now : Time} {threshold : Duration} {id : TaskID} {rest : List TaskID}
    (hph : w.phase = .speculating now threshold (id :: rest)) :
    Move p q w (speculate p q w now threshold id).1
      { (speculate p q w now threshold id).2 with phase := .speculating now threshold rest }
      [] := by
  unfold speculate
  split
  · exact .skip hph
  · rename_i e he
    split_ifs with hs hroom
    · exact .skip hph
    · refine .clone hph he ?_ hroom
      rw [not_or] at hs
      simpa using hs.1
    · exact .skip hph

/-- There is nothing else a step of a worker loop can do. -/
theorem step_move {a : LoopAction} {o : Queues × Worker × List Chunk}
    (h : w.step p q a = some o) : Move p q w o.1 o.2.1 o.2.2 := by
  cases a with
  | poll now =>
      rw [step] at h
      split_ifs at h with hph
      obtain rfl := Option.some_inj.mp h
      exact poll_move hph
  | recvResult now =>
      unfold step at h
      dsimp only at h
      split at h
      · rename_i hph hr
        obtain rfl := Option.some_inj.mp h
        exact recvResult_move hph hr
      · cases h
  | pullPQ now =>
      unfold step at h
      dsimp only at h
      split at h
      · rename_i b t pq hph hq
        obtain ⟨nq, pq'⟩ := q
        cases hq
        obtain rfl := Option.some_inj.mp h
        exact send_move .pq (.select hph (.inl rfl))
      · cases h
  | pullNQ now =>
      unfold step at h
      dsimp only at h
      split at h
      · rename_i a t nq hph hq
        obtain ⟨nq', pq⟩ := q
        cases hq
        obtain rfl := Option.some_inj.mp h
        exact send_move .nq (.select hph (.inr rfl))
      · cases h
  | putBack =>
      unfold step at h
      dsimp only at h
      split at h
      · rename_i t hph
        obtain rfl := Option.some_inj.mp h
        refine .putBack hph ?_
        dsimp only [putBack]
        split_ifs
        · exact .inr rfl
        · exact .inl rfl
      · cases h
  | tick now ord =>
      unfold step at h
      dsimp only at h
      split at h
      · rename_i hph
        obtain rfl := Option.some_inj.mp h
        unfold tick
        split_ifs
        · exact .tick hph
        · exact .scan ord hph
      · cases h
  | speculate =>
      unfold step at h
      dsimp only at h
      split at h
      · rename_i hph
        obtain rfl := Option.some_inj.mp h
        exact .scanned hph
      · rename_i hph
        obtain rfl := Option.some_inj.mp h
        exact speculate_move hph
      · cases h
  | dead ord =>
      unfold step at h
      dsimp only at h
      split at h
      · rename_i hph
        split_ifs at h with hd
        obtain rfl := Option.some_inj.mp h
        exact .lost ord hph hd
      · cases h
  | handBack =>
      unfold step at h
      dsimp only at h
      split at h
      · rename_i hph
        obtain rfl := Option.some_inj.mp h
        exact .exit hph
      · rename_i id rest hph
        unfold handBack at h
        split at h
        · rename_i he
          obtain rfl := Option.some_inj.mp h
          exact .pass hph he
        · rename_i e he
          split_ifs at h with hroom
          · obtain rfl := Option.some_inj.mp h
            exact .requeue hph he hroom
          · cases h
      · cases h

end Worker

/-! ## The system -/

/-- The tasks a handler is still going to push into `nq`. -/
def Handler.toQueue : Handler → List Task
  | .submitting _ _ => []
  | .replied _ spec reply => if reply.feed then spec.feed ∅ else []
  | .feeding _ rest => rest

/-- The channel that stops a handler. -/
def Handler.cancelOf : Handler → Option ℕ
  | .submitting _ _ => none
  | .replied _ _ reply => reply.cancel
  | .feeding cancel _ => cancel

namespace Sys

/-- What one step of the system does. -/
inductive Move (wl : Workload) (p : Params) : Sys → Action → Sys → Prop
  /-- The dispatcher has nothing to do for what it read. -/
  | ignored {s a} : Move wl p s a s
  | connDown {s c} : Move wl p s (.connDown c) { s with down := insert c s.down }
  /-- The connection of a worker is gone. -/
  | lostWorker {s c w} (hr : s.disp = .reading) (hd : c ∈ s.down)
      (hw : s.workers.lookup c = some w) :
      Move wl p s (.readError c)
        { s with workers := s.workers.erase c, loops := closeDead s.loops w }
  /-- The connection of a client is gone. -/
  | lostClient {s c} (hr : s.disp = .reading) (hd : c ∈ s.down)
      (hw : s.workers.lookup c = none) (hc : c ∈ s.clients) :
      Move wl p s (.readError c) { s with clients := s.clients.erase c, disp := .notifying c }
  /-- A new worker. -/
  | join {s c} (hr : s.disp = .reading) (hw : s.workers.lookup c = none) (hc : c ∉ s.clients) :
      Move wl p s (.readJoin c)
        { s with
          workers := s.workers.insert c s.nextGo
          loops := s.loops.insert s.nextGo (newWorker c)
          nextGo := s.nextGo + 1 }
  /-- A new client. -/
  | request {s c req} (hr : s.disp = .reading) (hw : s.workers.lookup c = none)
      (hc : c ∉ s.clients) :
      Move wl p s (.readRequest c req)
        { s with
          clients := insert c s.clients
          handlers := s.handlers.insert s.nextGo
            (.submitting c (JobSpec.ofRequest p.chunkSize req))
          nextGo := s.nextGo + 1 }
  /-- A worker's result. -/
  | result {s c w r} (hr : s.disp = .reading) (hw : s.workers.lookup c = some w) :
      Move wl p s (.readResult c r) { s with disp := .forwarding w r }
  | forward {s w r l} (hd : s.disp = .forwarding w r) (hl : s.loops.lookup w = some l)
      (hroom : l.resultCh.length < 4 * p.window) :
      Move wl p s .forward
        { s with
          disp := .reading
          loops := s.loops.insert w { l with resultCh := l.resultCh ++ [r] } }
  | gone {s c now} (hd : s.disp = .notifying c) :
      Move wl p s (.gone now)
        { s with
          agg := s.agg.step wl p (.clientGone c now)
          disp := .reading
          notified := insert c s.notified }
  | submit {s g h spec now} (hg : s.handlers.lookup g = some (.submitting h spec)) :
      Move wl p s (.submit g now)
        { s with
          agg := s.agg.step wl p (.submit h spec (h ∈ s.down) now)
          handlers := s.handlers.insert g
            (.replied h spec (s.agg.submit wl h spec (h ∈ s.down) now).2) }
  /-- The handler of a new job starts to feed. -/
  | begin {s g h spec reply} (hg : s.handlers.lookup g = some (.replied h spec reply))
      (hf : reply.feed = true) :
      Move wl p s (.takeReply g)
        { s with handlers := s.handlers.insert g (.feeding reply.cancel (spec.feed ∅)) }
  /-- There is nothing to feed. -/
  | leave {s g h spec reply} (hg : s.handlers.lookup g = some (.replied h spec reply))
      (hf : reply.feed = false) :
      Move wl p s (.takeReply g) { s with handlers := s.handlers.erase g }
  | feed {s g cancel t rest} (hg : s.handlers.lookup g = some (.feeding cancel (t :: rest)))
      (hroom : s.queues.nq.length < p.nqCap) :
      Move wl p s (.feed g)
        { s with
          queues := { s.queues with nq := s.queues.nq ++ [t] }
          handlers := s.handlers.insert g (.feeding cancel rest) }
  | feedCancel {s g c t rest} (hg : s.handlers.lookup g = some (.feeding (some c) (t :: rest)))
      (hc : c ∈ s.agg.closed) :
      Move wl p s (.feedCancel g) { s with handlers := s.handlers.erase g }
  | loop {s w a l q l' chunks} (hl : s.loops.lookup w = some l)
      (hm : l.Move p s.queues q l' chunks) :
      Move wl p s (.loop w a)
        { s with
          queues := q
          loops := s.loops.insert w l'
          wrote := s.wrote ++ chunks.map (w, ·) }
  | deliver {s w l r now} (hl : s.loops.lookup w = some l) (hph : l.phase = .holding r) :
      Move wl p s (.deliver w now)
        { s with
          agg := s.agg.step wl p (.result r now)
          loops := s.loops.insert w { l with phase := .top } }
  | tick {s now ords} :
      Move wl p s (.tick now ords) { s with agg := s.agg.step wl p (.tick now ords) }

variable {wl : Workload} {p : Params} {s t : Sys}

lemma onError_move {c : ConnID} (hr : s.disp = .reading) (hd : c ∈ s.down) :
    Move wl p s (.readError c) (s.onError c) := by
  unfold onError
  split
  · exact .lostWorker hr hd ‹_›
  · split_ifs with hc
    · exact .lostClient hr hd ‹_› hc
    · exact .ignored

lemma onJoin_move {c : ConnID} (hr : s.disp = .reading) :
    Move wl p s (.readJoin c) (s.onJoin c) := by
  unfold onJoin
  split_ifs with h
  · exact .ignored
  · rw [not_or, Option.not_isSome_iff_eq_none] at h
    exact .join hr h.1 h.2

lemma onRequest_move {c : ConnID} {req : Request} (hr : s.disp = .reading) :
    Move wl p s (.readRequest c req) (s.onRequest p c req) := by
  unfold onRequest
  split_ifs with h
  · exact .ignored
  · rw [not_or, Option.not_isSome_iff_eq_none] at h
    exact .request hr h.1 h.2

lemma onResult_move {c : ConnID} {r : ChunkResult} (hr : s.disp = .reading) :
    Move wl p s (.readResult c r) (s.onResult c r) := by
  unfold onResult
  split
  · exact .result hr ‹_›
  · exact .ignored

lemma forward_move (h : s.forward p = some t) : Move wl p s .forward t := by
  unfold forward at h
  split at h
  · split at h
    · split_ifs at h with hroom
      obtain rfl := Option.some_inj.mp h
      exact .forward ‹_› ‹_› hroom
    · cases h
  · cases h

lemma takeReply_move {g : ℕ} (h : s.takeReply g = some t) : Move wl p s (.takeReply g) t := by
  unfold takeReply at h
  split at h
  · split_ifs at h with hf
    · obtain rfl := Option.some_inj.mp h
      exact .begin ‹_› hf
    · obtain rfl := Option.some_inj.mp h
      exact .leave ‹_› (by simpa using hf)
  · cases h

lemma feed_move {g : ℕ} (h : s.feed p g = some t) : Move wl p s (.feed g) t := by
  unfold feed at h
  split at h
  · split_ifs at h with hroom
    obtain rfl := Option.some_inj.mp h
    exact .feed ‹_› hroom
  · cases h

lemma feedCancel_move {g : ℕ} (h : s.feedCancel g = some t) : Move wl p s (.feedCancel g) t := by
  unfold feedCancel at h
  split at h
  · split_ifs at h with hc
    obtain rfl := Option.some_inj.mp h
    exact .feedCancel ‹_› hc
  · cases h

lemma deliver_move {w : ℕ} {now : Time} (h : s.deliver wl w now = some t) :
    Move wl p s (.deliver w now) t := by
  unfold deliver at h
  split at h
  · split at h
    · obtain rfl := Option.some_inj.mp h
      exact .deliver ‹_› ‹_›
    · cases h
  · cases h

lemma loopStep_move {w : ℕ} {a : LoopAction} (h : s.loopStep p w a = some t) :
    Move wl p s (.loop w a) t := by
  obtain ⟨l, hl, h⟩ := Option.bind_eq_some_iff.mp h
  obtain ⟨o, ho, rfl⟩ := Option.map_eq_some_iff.mp h
  exact .loop hl (Worker.step_move ho)

/-- There is nothing else a step of the system can do. -/
theorem step_move {a : Action} (h : s.step wl p a = some t) : Move wl p s a t := by
  cases a with
  | connDown c => obtain rfl := Option.some_inj.mp h; exact .connDown
  | readError c =>
      rw [step] at h
      split_ifs at h with hr
      obtain rfl := Option.some_inj.mp h
      exact onError_move hr.1 hr.2
  | readJoin c =>
      rw [step] at h
      split_ifs at h with hr
      obtain rfl := Option.some_inj.mp h
      exact onJoin_move hr
  | readRequest c req =>
      rw [step] at h
      split_ifs at h with hr
      obtain rfl := Option.some_inj.mp h
      exact onRequest_move hr
  | readResult c r =>
      rw [step] at h
      split_ifs at h with hr
      obtain rfl := Option.some_inj.mp h
      exact onResult_move hr
  | forward => exact forward_move h
  | gone now =>
      rw [step, gone] at h
      split at h
      · obtain rfl := Option.some_inj.mp h
        exact .gone ‹_›
      · cases h
  | submit g now =>
      rw [step, submit] at h
      split at h
      · obtain rfl := Option.some_inj.mp h
        exact .submit ‹_›
      · cases h
  | takeReply g => exact takeReply_move h
  | feed g => exact feed_move h
  | feedCancel g => exact feedCancel_move h
  | loop w a => exact loopStep_move h
  | deliver w now => exact deliver_move h
  | tick now ords => obtain rfl := Option.some_inj.mp h; exact .tick

end Sys

end RudpScheduler
