import RudpScheduler.Construction.Wire

/-!
# Splitting a job

`split` decides how many tasks cover a range and how wide each is; `feed` turns the index of a
task into its range.  Both work on `uint64` values, so sums and products wrap: that they do
not for the specs `split` produces is a theorem (`Properties/Partition.lean`), not a
convention.
-/

namespace RudpScheduler

/-- Bounds a job's task count. -/
def maxChunksPerJob : UInt64 := (1 : UInt64) <<< 20

/-- `split`: how many tasks cover `[lo, hi)` and how wide each one is. -/
def split (lo hi chunkSize : UInt64) : UInt32 × UInt64 :=
  if hi ≤ lo then (0, chunkSize)
  else
    let span := hi - lo
    let size := if span / chunkSize ≥ maxChunksPerJob then span / maxChunksPerJob + 1
      else chunkSize
    let count := if span % size ≠ 0 then span / size + 1 else span / size
    let count := if count > 4294967295 then 4294967295 else count
    (count.toUInt32, size)

/-- What is needed to split a job into tasks, now or after a restart. -/
structure JobSpec where
  id : UInt64
  lo : UInt64
  hi : UInt64
  size : UInt64
  n : UInt32
  msg : Msg
  deriving DecidableEq, Repr

/-- One independent slice of a job. -/
structure Task where
  id : TaskID
  msg : Msg
  lo : UInt64
  hi : UInt64
  deriving DecidableEq, Repr

/-- The message `send` writes for a task. -/
def Task.chunk (t : Task) : Chunk := ⟨t.id, t.lo, t.hi, t.msg⟩

namespace JobSpec

/-- `clientHandler`: the spec of a request under the server's chunk size. -/
def ofRequest (chunkSize : UInt64) (req : Request) : JobSpec :=
  let (n, size) := split req.lo req.hi chunkSize
  ⟨req.job, req.lo, req.hi, size, n, req.msg⟩

/-- Where `feed` starts chunk `i`. -/
def chunkLo (spec : JobSpec) (i : UInt32) : UInt64 := spec.lo + i.toUInt64 * spec.size

/-- Where `feed` ends chunk `i`. -/
def chunkHi (spec : JobSpec) (i : UInt32) : UInt64 :=
  if spec.hi - spec.chunkLo i > spec.size then spec.chunkLo i + spec.size else spec.hi

/-- The task `feed` queues for index `i`. -/
def task (spec : JobSpec) (i : UInt32) : Task :=
  ⟨⟨spec.id, i⟩, spec.msg, spec.chunkLo i, spec.chunkHi i⟩

/-- The answer for chunk `i`. -/
def chunkAnswer (spec : JobSpec) (wl : Workload) (i : UInt32) : Partial :=
  wl.compute spec.msg (spec.chunkLo i) (spec.chunkHi i)

/-- The tasks `feed` queues, in order, when nothing stops it. -/
def feed (spec : JobSpec) (skip : Finset UInt32) : List Task :=
  (((List.range spec.n.toNat).map UInt32.ofNat).filter (· ∉ skip)).map spec.task

@[simp] lemma task_id (spec : JobSpec) (i : UInt32) : (spec.task i).id = ⟨spec.id, i⟩ := rfl

@[simp] lemma task_msg (spec : JobSpec) (i : UInt32) : (spec.task i).msg = spec.msg := rfl

@[simp] lemma task_lo (spec : JobSpec) (i : UInt32) : (spec.task i).lo = spec.chunkLo i := rfl

@[simp] lemma task_hi (spec : JobSpec) (i : UInt32) : (spec.task i).hi = spec.chunkHi i := rfl

end JobSpec

/-! ## Indices below a bound -/

/-- The task indices `0, …, n - 1`. -/
def indicesBelow (n : UInt32) : Finset UInt32 := (Finset.range n.toNat).image UInt32.ofNat

@[simp] lemma mem_indicesBelow {n i : UInt32} : i ∈ indicesBelow n ↔ i < n := by
  simp only [indicesBelow, Finset.mem_image, Finset.mem_range]
  constructor
  · rintro ⟨k, hk, rfl⟩
    rw [UInt32.lt_iff_toNat_lt, UInt32.toNat_ofNat']
    exact lt_of_le_of_lt (Nat.mod_le _ _) hk
  · intro h
    exact ⟨i.toNat, UInt32.lt_iff_toNat_lt.mp h, UInt32.ofNat_toNat⟩

lemma ofNat_injOn_range (n : UInt32) :
    Set.InjOn UInt32.ofNat (Finset.range n.toNat : Set ℕ) := by
  intro a ha b hb hab
  have hn := n.toNat_lt
  simp only [Finset.coe_range, Set.mem_Iio] at ha hb
  have h := congrArg UInt32.toNat hab
  rw [UInt32.toNat_ofNat', UInt32.toNat_ofNat'] at h
  rwa [Nat.mod_eq_of_lt (by omega), Nat.mod_eq_of_lt (by omega)] at h

@[simp] lemma card_indicesBelow (n : UInt32) : (indicesBelow n).card = n.toNat := by
  rw [indicesBelow, Finset.card_image_of_injOn (ofNat_injOn_range n), Finset.card_range]

lemma JobSpec.mem_feed {spec : JobSpec} {skip : Finset UInt32} {t : Task} :
    t ∈ spec.feed skip ↔ ∃ i < spec.n, i ∉ skip ∧ t = spec.task i := by
  have hmem : ∀ i, i ∈ (List.range spec.n.toNat).map UInt32.ofNat ↔ i < spec.n := by
    intro i
    rw [← mem_indicesBelow, indicesBelow]
    simp
  simp only [JobSpec.feed, List.mem_map, List.mem_filter, hmem, decide_eq_true_eq]
  constructor
  · rintro ⟨i, ⟨hi, hs⟩, rfl⟩
    exact ⟨i, hi, hs, rfl⟩
  · rintro ⟨i, hi, hs, rfl⟩
    exact ⟨i, ⟨hi, hs⟩, rfl⟩

end RudpScheduler
