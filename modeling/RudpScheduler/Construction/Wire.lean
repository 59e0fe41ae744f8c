import Mathlib

/-!
# Application messages and the workload contract

The vocabulary of package `wire` and package `workload`: the messages exchanged between
client, server and worker, the identity `TaskID` that every de-duplication in the system is
keyed by, and the three operations a job is made of.

`Workload.Contract` is the contract the package documentation of `workload` states: `Merge` is
commutative, associative and idempotent with identity `Zero`, `Zero` is the answer for an
empty range, and the answer for a range is the `Merge` of the answers for its pieces.
-/

namespace RudpScheduler

/-- A Go `string`: an immutable sequence of bytes. -/
abbrev Msg := List UInt8

/-- `transport.Conn.ID()`, unique among the connections of one server process. -/
abbrev ConnID := ℕ

/-- A reading of the clock, in nanoseconds. -/
abbrev Time := ℤ

/-- A `time.Duration`, in nanoseconds. -/
abbrev Duration := ℤ

/-! ## Messages -/

/-- One chunk of one job: the job's ID and the chunk's index within it. -/
structure TaskID where
  job : UInt64
  idx : UInt32
  deriving DecidableEq, Repr

/-- A client asks for the best result over `[lo, hi)` of job `msg`. -/
structure Request where
  job : UInt64
  lo : UInt64
  hi : UInt64
  msg : Msg
  deriving DecidableEq, Repr

/-- One task handed to a worker. -/
structure Chunk where
  id : TaskID
  lo : UInt64
  hi : UInt64
  msg : Msg
  deriving DecidableEq, Repr

/-- A worker's answer for one `Chunk`. -/
structure ChunkResult where
  id : TaskID
  hash : UInt64
  nonce : UInt64
  deriving DecidableEq, Repr

/-- The answer to a `Request`. -/
structure Result where
  job : UInt64
  hash : UInt64
  nonce : UInt64
  deriving DecidableEq, Repr

/-! ## Workloads -/

/-- The answer for one range of a job. -/
structure Partial where
  hash : UInt64
  nonce : UInt64
  deriving DecidableEq, Repr

/-- The partial answer a `ChunkResult` carries. -/
def ChunkResult.value (r : ChunkResult) : Partial := ⟨r.hash, r.nonce⟩

/-- The partial answer a `Result` carries. -/
def Result.value (r : Result) : Partial := ⟨r.hash, r.nonce⟩

/-- One kind of job. -/
structure Workload where
  /-- Evaluate the half-open range `[lo, hi)` of the job identified by `msg`. -/
  compute : Msg → UInt64 → UInt64 → Partial
  /-- Combine two partial answers. -/
  merge : Partial → Partial → Partial
  /-- The answer for an empty range. -/
  zero : Partial

namespace Workload

/-- The laws package `workload` demands of `Merge` and `Zero`. -/
structure MergeLaws (wl : Workload) : Prop where
  merge_comm : ∀ a b, wl.merge a b = wl.merge b a
  merge_assoc : ∀ a b c, wl.merge (wl.merge a b) c = wl.merge a (wl.merge b c)
  merge_idem : ∀ a, wl.merge a a = a
  zero_merge : ∀ a, wl.merge wl.zero a = a

/-- The whole contract: the laws of `Merge`, and `Compute` compatible with cutting a range. -/
structure Contract (wl : Workload) : Prop extends MergeLaws wl where
  compute_empty : ∀ msg lo hi, hi ≤ lo → wl.compute msg lo hi = wl.zero
  compute_split : ∀ msg lo mid hi, lo ≤ mid → mid ≤ hi →
    wl.compute msg lo hi = wl.merge (wl.compute msg lo mid) (wl.compute msg mid hi)

lemma MergeLaws.commutative {wl : Workload} (h : wl.MergeLaws) : Std.Commutative wl.merge :=
  ⟨h.merge_comm⟩

lemma MergeLaws.associative {wl : Workload} (h : wl.MergeLaws) : Std.Associative wl.merge :=
  ⟨h.merge_assoc⟩

/-- The `Merge` of the values `f i` over a set of indices; the order is immaterial. -/
def MergeLaws.mergeOver {wl : Workload} (h : wl.MergeLaws) (f : UInt32 → Partial)
    (S : Finset UInt32) : Partial :=
  haveI := h.commutative
  haveI := h.associative
  S.fold wl.merge wl.zero f

@[simp] lemma MergeLaws.mergeOver_empty {wl : Workload} (h : wl.MergeLaws)
    (f : UInt32 → Partial) : h.mergeOver f ∅ = wl.zero := rfl

lemma MergeLaws.mergeOver_insert {wl : Workload} (h : wl.MergeLaws) (f : UInt32 → Partial)
    {S : Finset UInt32} {i : UInt32} (hi : i ∉ S) :
    h.mergeOver f (insert i S) = wl.merge (h.mergeOver f S) (f i) := by
  have := h.commutative
  have := h.associative
  rw [h.merge_comm]
  exact Finset.fold_insert hi

/-- A workload that meets the contract: the answer for a range is its end, and `Merge` keeps
the larger of two answers. -/
def largest : Workload where
  compute _ lo hi := if hi ≤ lo then ⟨0, 0⟩ else ⟨hi, 0⟩
  merge a b := ⟨if a.hash ≤ b.hash then b.hash else a.hash, a.nonce ||| b.nonce⟩
  zero := ⟨0, 0⟩

lemma largest_contract : largest.Contract where
  merge_comm a b := by
    simp only [largest, UInt64.or_comm, Partial.mk.injEq, and_true, UInt64.le_iff_toNat_le]
    rw [← UInt64.toNat_inj]
    split_ifs <;> omega
  merge_assoc a b c := by
    simp only [largest, UInt64.or_assoc, Partial.mk.injEq, and_true, UInt64.le_iff_toNat_le]
    rw [← UInt64.toNat_inj]
    split_ifs <;> omega
  merge_idem a := by simp [largest]
  zero_merge a := by simp [largest]
  compute_empty msg lo hi h := by simp [largest, h]
  compute_split msg lo mid hi h h' := by
    by_cases h2 : mid ≤ lo
    · obtain rfl : lo = mid := UInt64.le_antisymm h h2
      simp [largest]
    · by_cases h3 : hi ≤ mid
      · obtain rfl : mid = hi := UInt64.le_antisymm h' h3
        have h0 : ¬ mid ≤ 0 := fun h0 => h2 (UInt64.le_trans h0 UInt64.zero_le)
        simp only [largest, if_neg h2, if_pos h3, if_neg h0, UInt64.or_self]
      · have h1 : ¬ hi ≤ lo := fun h1 => h3 (UInt64.le_trans h1 h)
        simp only [largest, if_neg h1, if_neg h2, if_neg h3, if_pos h', UInt64.or_self]

/-- What a worker answers for a chunk: `RunWorker` computes the chunk's own range. -/
def answer (wl : Workload) (c : Chunk) : ChunkResult :=
  let p := wl.compute c.msg c.lo c.hi
  ⟨c.id, p.hash, p.nonce⟩

@[simp] lemma answer_id (wl : Workload) (c : Chunk) : (wl.answer c).id = c.id := rfl

@[simp] lemma answer_value (wl : Workload) (c : Chunk) :
    (wl.answer c).value = wl.compute c.msg c.lo c.hi := rfl

end Workload

end RudpScheduler
