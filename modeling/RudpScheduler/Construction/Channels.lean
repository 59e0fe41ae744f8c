import RudpScheduler.Construction.SystemSteps

/-!
# Who waits for whom

In `Sys` a round of the aggregator is one step.  Whether it can get stuck in the middle of one
is a question about the single channel operation inside: `req.reply <- submitReply{...}`.
`Sched` takes the round apart there.  The aggregator takes a handler's request in one step and
answers it in another, which waits while the handler's reply channel is full; the channel is
made with room for one reply.

`Goroutine` names the goroutines, `SchedAction.actor` says whose step an action is, and
`WaitsFor` lists the channel operations a goroutine can be held up in, each with the goroutines
that can complete it.  A goroutine has an enabled step (`CanStep`) only through its own actions,
so a step that needs a clock to tick first does not count.
-/

namespace RudpScheduler

/-- Where the aggregator is. -/
inductive AggPhase
  /-- In its `select`. -/
  | selecting
  /-- Sending the reply to handler `g`, whose request it took at time `now`. -/
  | replying (g : ℕ) (now : Time)
  deriving DecidableEq

/-- The scheduler's goroutines, with the reply channels. -/
structure Sched where
  sys : Sys
  phase : AggPhase
  /-- The handlers whose reply channel is full. -/
  full : Finset ℕ

/-- A step of the scheduler. -/
inductive SchedAction
  /-- The aggregator takes a handler's request. -/
  | take (g : ℕ) (now : Time)
  /-- The aggregator answers the request it has taken, and finishes the round. -/
  | reply
  /-- Any step but the aggregator's `submitCh` case. -/
  | other (a : Action)

namespace Sched

/-- What `Run` starts. -/
def start (boot : Recovered) : Sched := ⟨Sys.start boot, .selecting, ∅⟩

/-- `case req := <-s.submitCh`, up to the send of the reply. -/
def take (s : Sched) (g : ℕ) (now : Time) : Option Sched :=
  match s.phase, s.sys.handlers.lookup g with
  | .selecting, some (.submitting _ _) => some { s with phase := .replying g now }
  | _, _ => none

/-- `req.reply <- submitReply{...}`, on a channel made with capacity 1, and what follows. -/
def reply (wl : Workload) (s : Sched) : Option Sched :=
  match s.phase with
  | .replying g now =>
    if g ∈ s.full then none
    else (s.sys.submit wl g now).map fun sys => ⟨sys, .selecting, insert g s.full⟩
  | .selecting => none

/-- A step of the system that leaves the reply channels alone. -/
def lift (wl : Workload) (p : Params) (s : Sched) (a : Action) : Option Sched :=
  (s.sys.step wl p a).map fun sys => { s with sys := sys }

/-- One step; `none` where the goroutine waits or is somewhere else. -/
def step (wl : Workload) (p : Params) (s : Sched) : SchedAction → Option Sched
  | .take g now => s.take g now
  | .reply => s.reply wl
  | .other a =>
    match a with
    | .submit _ _ => none
    | .takeReply g =>
      if g ∈ s.full then
        (s.sys.takeReply g).map fun sys => { s with sys := sys, full := s.full.erase g }
      else none
    -- the other cases of the aggregator's `select`
    | .gone _ | .deliver _ _ | .tick _ _ =>
      if s.phase = .selecting then s.lift wl p a else none
    | _ => s.lift wl p a

end Sched

/-! ## Waiting -/

/-- The goroutines of the scheduler; loops and handlers go by their numbers. -/
inductive Goroutine
  | dispatcher
  | aggregator
  | loop (w : ℕ)
  | handler (g : ℕ)
  deriving DecidableEq

/-- Whose step a step is.  A rendezvous counts as the receiver's.  A connection that ends and a
ticker that fires are nobody's. -/
def SchedAction.actor : SchedAction → Option Goroutine
  | .take _ _ | .reply => some .aggregator
  | .other a =>
    match a with
    | .connDown _ | .tick _ _ | .loop _ (.tick _ _) => none
    | .readError _ | .readJoin _ | .readRequest _ _ | .readResult _ _ | .forward =>
      some .dispatcher
    | .gone _ | .submit _ _ | .deliver _ _ => some .aggregator
    | .takeReply g | .feed g | .feedCancel g => some (.handler g)
    | .loop w _ => some (.loop w)

namespace Sched

/-- Goroutine `x` has an enabled step. -/
def CanStep (wl : Workload) (p : Params) (s : Sched) (x : Goroutine) : Prop :=
  ∃ a, a.actor = some x ∧ (s.step wl p a).isSome

/-- Worker loop `w` is in its `select` and no case of it is ready. -/
structure Idle (s : Sched) (w : ℕ) (l : Worker) (a b : Bool) : Prop where
  loop : s.sys.loops.lookup w = some l
  phase : l.phase = .select a b
  resultCh : l.resultCh = []
  dead : l.dead = false
  pq : a = true → s.sys.queues.pq = []
  nq : b = true → s.sys.queues.nq = []

/-- Feeder `g` is at its `select` and no case of it is ready. -/
structure Stalled (p : Params) (s : Sched) (g : ℕ) : Prop where
  ready : ∃ cancel t rest, s.sys.handlers.lookup g = some (.feeding cancel (t :: rest)) ∧
    ∀ c, cancel = some c → c ∉ s.sys.agg.closed
  full : p.nqCap ≤ s.sys.queues.nq.length

/-- `WaitsFor p s x y`: goroutine `x` is at a channel operation that cannot go through as things
are, and `y` is a goroutine on the other side of it. -/
inductive WaitsFor (p : Params) (s : Sched) : Goroutine → Goroutine → Prop
  /-- `w.resultCh <- m`, with the channel full. -/
  | resultCh {w r l} (hd : s.sys.disp = .forwarding w r) (hl : s.sys.loops.lookup w = some l)
      (hfull : 4 * p.window ≤ l.resultCh.length) : WaitsFor p s .dispatcher (.loop w)
  /-- `s.clientGoneCh <- h.ID()`. -/
  | clientGone {c} (hd : s.sys.disp = .notifying c) : WaitsFor p s .dispatcher .aggregator
  /-- `s.resultsCh <- r`. -/
  | results {w l r} (hl : s.sys.loops.lookup w = some l) (hph : l.phase = .holding r) :
      WaitsFor p s (.loop w) .aggregator
  /-- A loop's `select`: `resultCh` and `dead` are the dispatcher's to fill and to close. -/
  | select {w l a b} (hi : s.Idle w l a b) : WaitsFor p s (.loop w) .dispatcher
  /-- A loop's `select`: any other loop may push into `pq`. -/
  | selectPQ {w l b w' l'} (hi : s.Idle w l true b) (hne : w' ≠ w)
      (hl' : s.sys.loops.lookup w' = some l') : WaitsFor p s (.loop w) (.loop w')
  /-- A loop's `select`: any handler may push into `nq`. -/
  | selectNQ {w l a g h} (hi : s.Idle w l a true) (hg : s.sys.handlers.lookup g = some h) :
      WaitsFor p s (.loop w) (.handler g)
  /-- The hand-back's `s.pq <- e.task`, with `pq` full: any other loop may pull from it. -/
  | handBack {w l id rest e w' l'} (hl : s.sys.loops.lookup w = some l)
      (hph : l.phase = .handBack (id :: rest)) (he : l.inflight.lookup id = some e)
      (hfull : p.pqCap ≤ s.sys.queues.pq.length) (hne : w' ≠ w)
      (hl' : s.sys.loops.lookup w' = some l') : WaitsFor p s (.loop w) (.loop w')
  /-- `s.submitCh <- submitReq{...}`, and then the wait for the reply. -/
  | submit {g h spec} (hg : s.sys.handlers.lookup g = some (.submitting h spec)) :
      WaitsFor p s (.handler g) .aggregator
  /-- `case s.nq <- t`, with `nq` full: any loop may pull from it. -/
  | feed {g w l} (hs : s.Stalled p g) (hl : s.sys.loops.lookup w = some l) :
      WaitsFor p s (.handler g) (.loop w)
  /-- `case <-cancel`: the aggregator may close it. -/
  | cancel {g} (hs : s.Stalled p g) : WaitsFor p s (.handler g) .aggregator
  /-- `req.reply <- submitReply{...}`, with the channel full. -/
  | reply {g now} (hph : s.phase = .replying g now) (hfull : g ∈ s.full) :
      WaitsFor p s .aggregator (.handler g)
  /-- The aggregator's `select`, with nobody at the other end of its channels. -/
  | idle {y} (hph : s.phase = .selecting) (hd : ∀ c, s.sys.disp ≠ .notifying c)
      (hl : ∀ w l r, s.sys.loops.lookup w = some l → l.phase ≠ .holding r)
      (hg : ∀ g h spec, s.sys.handlers.lookup g ≠ some (.submitting h spec))
      (hy : y ≠ .aggregator) : WaitsFor p s .aggregator y

end Sched

end RudpScheduler
