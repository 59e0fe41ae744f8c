import RudpScheduler.Framework.Float64
import RudpScheduler.Framework.Heap
import RudpScheduler.Framework.Int64
import RudpScheduler.Framework.Runs
import RudpScheduler.Construction.Wire

/-!
# The impaired socket

Package `lossy`: a `net.PacketConn` that drops, duplicates and delays what is written to it, decided
by a seeded random source.  `WriteTo` hands datagrams over `writeCh` to the goroutine `run`, which
owns the random source, the filter's memory, the counters and the heap of parked datagrams.

A random source is what `math/rand` promises of the two methods the code calls (`Source`): `Float64`
is in `[0, 1)` and `Int63n(n)` in `[0, n)`.  A draw is a number; a probability may be any `float64`,
NaN included, and the code only compares them.

A `WriteTo` is two steps, its look at `done` and its send on `writeCh`, so calls that overlap with
`Close` are in the model.  One round of the loop of `run` is one step with its readings of the
clock; after `closeCh` each datagram drained is one, and so is everything from the last look at
`writeCh` on.  `timer` is the time at which the timer fires, if it is running.

`accepted`, `admitted` and `parked` are ghosts: what `WriteTo` has put on `writeCh`, what `run` has
taken from it, and every copy that was pushed on the heap.
-/

namespace RudpScheduler.Lossy

/-! ## Configuration -/

/-- A `*rand.Rand`, by the methods the code calls. -/
structure Source (ρ : Type) where
  /-- `rand.New(rand.NewSource(seed))`. -/
  new : ℤ → ρ
  float64 : ρ → ℚ × ρ
  int63n : ℤ → ρ → ℤ × ρ
  float64_mem : ∀ r, 0 ≤ (float64 r).1 ∧ (float64 r).1 < 1
  int63n_mem : ∀ n r, 0 < n → 0 ≤ (int63n n r).1 ∧ (int63n n r).1 < n

/-- A `Config`.  The filter may keep state, of type `φ`. -/
structure Config (φ : Type) where
  drop : Go.Float64
  dup : Go.Float64
  jitter : Duration
  seed : ℤ
  filter : Option (φ → List UInt8 → Bool × φ)

/-- `c.cfg.Filter != nil && c.cfg.Filter(p.b)`, and the filter's memory after it. -/
def Config.filtered {φ : Type} (cfg : Config φ) (memory : φ) (b : List UInt8) : Bool × φ :=
  match cfg.filter with
  | none => (false, memory)
  | some f => f memory b

/-- The command-line flags. -/
structure Flags where
  drop : Go.Float64
  dup : Go.Float64
  jitterMs : ℤ
  seed : ℤ
  deriving DecidableEq

/-- The `Config` that `Wrapper` builds from the flags; the jitter is an `int64` product. -/
def Flags.config (f : Flags) : Config Unit :=
  ⟨f.drop, f.dup, Go.wrap64 (f.jitterMs * 1000000), f.seed, none⟩

/-- `Wrapper`: the configuration to wrap sockets with, if any. -/
def Flags.wrapper (f : Flags) : Option (Config Unit) :=
  if f.drop ≤ 0 ∧ f.dup ≤ 0 ∧ f.jitterMs ≤ 0 then none else some f.config

/-! ## The socket -/

/-- What is written to a socket, and where to. -/
structure Datagram (A : Type) where
  b : List UInt8
  addr : A
  deriving DecidableEq, Repr

/-- An `outPacket` on the heap. -/
structure OutPacket (A : Type) extends Datagram A where
  due : Time
  deriving DecidableEq, Repr

structure Stats where
  written : ℕ
  dropped : ℕ
  duplicated : ℕ
  delayed : ℕ
  deriving DecidableEq, Repr

/-- A datagram of which `n` copies are made is counted. -/
def Stats.count (c : Stats) (n : ℕ) : Stats :=
  { c with
    written := c.written + 1
    dropped := if n = 0 then c.dropped + 1 else c.dropped
    duplicated := if n = 2 then c.duplicated + 1 else c.duplicated }

/-- Where `run` is: in its loop, in the loops after `closeCh`, or returned, with the inner socket
and `done` closed. -/
inductive Phase
  | running
  | draining
  | exited
  deriving DecidableEq, Repr

structure Sock (ρ φ A : Type) where
  rng : ρ
  /-- What the filter remembers. -/
  memory : φ
  stats : Stats
  delayed : Array (OutPacket A)
  timer : Option Time
  writeCh : List (Datagram A)
  /-- Calls of `WriteTo` that have found `done` open and have not sent yet. -/
  writers : List (Datagram A)
  phase : Phase
  /-- What has been written to the inner socket. -/
  sent : List (Datagram A)
  accepted : List (Datagram A)
  admitted : List (Datagram A)
  parked : List (OutPacket A)

/-- The capacity of `writeCh`. -/
def writeCap : ℕ := 1024

inductive Action (A : Type)
  /-- A `WriteTo` looks at `done` and finds it open. -/
  | enter (p : Datagram A)
  /-- The `i`-th of the calls under way sends on `writeCh`. -/
  | queue (i : ℕ)
  /-- The `i`-th of the calls under way finds `done` closed. -/
  | refuse (i : ℕ)
  /-- A round that takes a datagram; its copies are parked at `first` and `second`. -/
  | recv (first second now : Time)
  /-- A round that the timer wakes. -/
  | fire (now : Time)
  /-- A round that answers a `Stats`. -/
  | stats (now : Time)
  /-- A `Close` is taken from `closeCh`. -/
  | close
  /-- The loop after `closeCh` takes a datagram. -/
  | drain (first second : Time)
  /-- `writeCh` is empty: what is parked is written, the inner socket and `done` are closed.  A
  `WriteTo` that sends in between is one that has looked at `done` before and sends after this. -/
  | finish

namespace Sock

variable {ρ φ A : Type}

/-- The state when `run` starts. -/
def init (src : Source ρ) (cfg : Config φ) (memory : φ) : Sock ρ φ A where
  rng := src.new cfg.seed
  memory := memory
  stats := ⟨0, 0, 0, 0⟩
  delayed := #[]
  timer := none
  writeCh := []
  writers := []
  phase := .running
  sent := []
  accepted := []
  admitted := []
  parked := []

/-- The delay of one copy. -/
def delay (src : Source ρ) (cfg : Config φ) (r : ρ) : Duration × ρ :=
  if 0 < cfg.jitter then src.int63n cfg.jitter r else (0, r)

/-- One round of the loop over the copies of a datagram. -/
def copy (src : Source ρ) (cfg : Config φ) (allowDelay : Bool) (p : Datagram A) (s : Sock ρ φ A)
    (now : Time) : Sock ρ φ A :=
  match delay src cfg s.rng with
  | (d, rng) =>
    if d = 0 ∨ allowDelay = false then { s with rng := rng, sent := s.sent ++ [p] }
    else
      { s with
        rng := rng
        stats := { s.stats with delayed := s.stats.delayed + 1 }
        delayed := Heap.push OutPacket.due s.delayed ⟨p, now + d⟩
        parked := s.parked ++ [⟨p, now + d⟩] }

/-- The decisions of `admit`: how many copies are made, 0 when the datagram is discarded, with the
filter's memory and the random source after them. -/
def verdict (src : Source ρ) (cfg : Config φ) (memory : φ) (r : ρ) (b : List UInt8) : ℕ × φ × ρ :=
  match cfg.filtered memory b with
  | (true, memory) => (0, memory, r)
  | (false, memory) =>
    match src.float64 r with
    | (loss, r) =>
      if (loss : Go.Float64) < cfg.drop then (0, memory, r)
      else
        match src.float64 r with
        | (twice, r) => (if (twice : Go.Float64) < cfg.dup then 2 else 1, memory, r)

/-- `admit`; its copies are made at `first` and `second`. -/
def admitPacket (src : Source ρ) (cfg : Config φ) (allowDelay : Bool) (s : Sock ρ φ A)
    (p : Datagram A) (first second : Time) : Sock ρ φ A :=
  match verdict src cfg s.memory s.rng p.b with
  | (n, memory, rng) =>
    ([first, second].take n).foldl (copy src cfg allowDelay p)
      { s with memory := memory, rng := rng, stats := s.stats.count n }

/-- The loop that writes parked datagrams as long as the earliest passes a test. -/
def release (s : Sock ρ φ A) (test : OutPacket A → Bool) : Sock ρ φ A :=
  let out := Heap.popWhile OutPacket.due test s.delayed.size s.delayed
  { s with delayed := out.2, sent := s.sent ++ out.1.map OutPacket.toDatagram }

/-- The end of a round: what is due is written, and the timer is set for the earliest of the
rest. -/
def settle (s : Sock ρ φ A) (now : Time) : Sock ρ φ A :=
  let s := s.release fun p => decide (p.due ≤ now)
  match s.delayed[0]? with
  | some p => { s with timer := some p.due }
  | none => s

/-- `run` takes the oldest datagram of `writeCh`. -/
def take (src : Source ρ) (cfg : Config φ) (allowDelay : Bool) (s : Sock ρ φ A)
    (first second : Time) : Option (Sock ρ φ A) :=
  match s.writeCh with
  | [] => none
  | p :: rest =>
    let s := { s with writeCh := rest, admitted := s.admitted ++ [p] }
    some (s.admitPacket src cfg allowDelay p first second)

def step (src : Source ρ) (cfg : Config φ) (s : Sock ρ φ A) : Action A → Option (Sock ρ φ A)
  | .enter p => if s.phase ≠ .exited then some { s with writers := s.writers ++ [p] } else none
  | .queue i =>
      match s.writers[i]? with
      | some p =>
          if s.writeCh.length < writeCap then
            some { s with
              writers := s.writers.eraseIdx i
              writeCh := s.writeCh ++ [p]
              accepted := s.accepted ++ [p] }
          else none
      | none => none
  | .refuse i =>
      if s.phase = .exited ∧ i < s.writers.length then
        some { s with writers := s.writers.eraseIdx i }
      else none
  | .recv first second now =>
      if s.phase = .running then
        (s.take src cfg true first second).map fun s => s.settle now
      else none
  | .fire now =>
      match s.timer with
      | some t =>
          if s.phase = .running ∧ t ≤ now then some ({ s with timer := none }.settle now) else none
      | none => none
  | .stats now => if s.phase = .running then some (s.settle now) else none
  | .close => if s.phase = .running then some { s with phase := .draining } else none
  | .drain first second => if s.phase = .draining then s.take src cfg false first second else none
  | .finish =>
      if s.phase = .draining ∧ s.writeCh = [] then
        some { s.release fun _ => true with phase := .exited }
      else none

end Sock

/-! ## The steps -/

/-- What a step does, with what it needs. -/
inductive Move {ρ φ A : Type} (src : Source ρ) (cfg : Config φ) (s : Sock ρ φ A) :
    Action A → Sock ρ φ A → Prop
  | enter {p} (hphase : s.phase ≠ .exited) :
      Move src cfg s (.enter p) { s with writers := s.writers ++ [p] }
  | queue {i p} (hp : s.writers[i]? = some p) (hroom : s.writeCh.length < writeCap) :
      Move src cfg s (.queue i)
        { s with
          writers := s.writers.eraseIdx i
          writeCh := s.writeCh ++ [p]
          accepted := s.accepted ++ [p] }
  | refuse {i} (hphase : s.phase = .exited) (hi : i < s.writers.length) :
      Move src cfg s (.refuse i) { s with writers := s.writers.eraseIdx i }
  | recv {first second now u} (hphase : s.phase = .running)
      (hu : s.take src cfg true first second = some u) :
      Move src cfg s (.recv first second now) (u.settle now)
  | fire {timer now} (hphase : s.phase = .running) (htimer : s.timer = some timer)
      (hnow : timer ≤ now) : Move src cfg s (.fire now) ({ s with timer := none }.settle now)
  | stats {now} (hphase : s.phase = .running) : Move src cfg s (.stats now) (s.settle now)
  | close (hphase : s.phase = .running) : Move src cfg s .close { s with phase := .draining }
  | drain {first second t} (hphase : s.phase = .draining)
      (ht : s.take src cfg false first second = some t) : Move src cfg s (.drain first second) t
  | finish (hphase : s.phase = .draining) (hch : s.writeCh = []) :
      Move src cfg s .finish { s.release fun _ => true with phase := .exited }

lemma step_move {ρ φ A : Type} {src : Source ρ} {cfg : Config φ} {s t : Sock ρ φ A} {a : Action A}
    (h : s.step src cfg a = some t) : Move src cfg s a t := by
  cases a with
  | enter p =>
      simp only [Sock.step] at h
      split_ifs at h with hphase
      exact Option.some_inj.mp h ▸ .enter hphase
  | queue i =>
      simp only [Sock.step] at h
      split at h
      · next p hp =>
          split_ifs at h with hroom
          exact Option.some_inj.mp h ▸ .queue hp hroom
      · exact absurd h (by simp)
  | refuse i =>
      simp only [Sock.step] at h
      split_ifs at h with hg
      exact Option.some_inj.mp h ▸ .refuse hg.1 hg.2
  | recv first second now =>
      simp only [Sock.step] at h
      split_ifs at h with hphase
      obtain ⟨u, hu, rfl⟩ := Option.map_eq_some_iff.mp h
      exact .recv hphase hu
  | fire now =>
      simp only [Sock.step] at h
      split at h
      · next timer htimer =>
          split_ifs at h with hg
          exact Option.some_inj.mp h ▸ .fire hg.1 htimer hg.2
      · exact absurd h (by simp)
  | stats now =>
      simp only [Sock.step] at h
      split_ifs at h with hphase
      exact Option.some_inj.mp h ▸ .stats hphase
  | close =>
      simp only [Sock.step] at h
      split_ifs at h with hphase
      exact Option.some_inj.mp h ▸ .close hphase
  | drain first second =>
      simp only [Sock.step] at h
      split_ifs at h with hphase
      exact .drain hphase h
  | finish =>
      simp only [Sock.step] at h
      split_ifs at h with hg
      exact Option.some_inj.mp h ▸ .finish hg.1 hg.2

end RudpScheduler.Lossy
