import RudpScheduler.Framework.Folds
import RudpScheduler.Construction.Split

/-!
# The chunks of a job partition its range

`split` returns a width and a count such that the chunks `feed` computes are consecutive,
non-empty and cover `[lo, hi)`, and no `uint64` operation on the way wraps.  The facts are
stated over the natural numbers the words denote (`JobSpec.Cut`), because the code computes in
wrapping arithmetic and the point is that it does not wrap.

`JobSpec.fold_chunks` is what the rest of the development uses: for a workload that meets its
contract, merging the answers for all chunks gives the answer for the whole range.
-/

namespace RudpScheduler

/-! ## What `split` returns -/

/-- The number of chunks of width `size` that cover a span: `⌈span / size⌉`, as the source
writes it. -/
lemma ceilDiv_bounds {span size : ℕ} (hs : 1 ≤ size) (hspan : 1 ≤ span) :
    let count := if span % size ≠ 0 then span / size + 1 else span / size
    1 ≤ count ∧ (count - 1) * size < span ∧ span ≤ count * size ∧ count ≤ span / size + 1 := by
  intro count
  have hdm := Nat.div_add_mod span size
  have hmod := Nat.mod_lt span (show size > 0 from hs)
  have hcomm : size * (span / size) = span / size * size := Nat.mul_comm _ _
  by_cases h : span % size = 0
  · have hc : count = span / size := if_neg (not_not.mpr h)
    have hq : 1 ≤ span / size := by
      by_contra hq
      rw [Nat.lt_one_iff.mp (not_le.mp hq)] at hcomm hdm
      omega
    have hpred : (span / size - 1) * size + size = span / size * size := by
      rw [← Nat.succ_mul, Nat.succ_eq_add_one, Nat.sub_add_cancel hq]
    rw [hc]
    refine ⟨hq, ?_, ?_, Nat.le_succ _⟩ <;> omega
  · have hc : count = span / size + 1 := if_pos h
    have hsucc : (span / size + 1) * size = span / size * size + size := Nat.succ_mul _ _
    rw [hc]
    refine ⟨Nat.le_add_left _ _, ?_, ?_, le_rfl⟩
    · rw [Nat.add_sub_cancel]; omega
    · omega

/-- The width keeps the count within `maxChunksPerJob`. -/
lemma width_bounds (span : ℕ) {cs : ℕ} (hcs : 1 ≤ cs) :
    let size := if 1048576 ≤ span / cs then span / 1048576 + 1 else cs
    1 ≤ size ∧ cs ≤ size ∧ span / size + 1 ≤ 1048576 := by
  intro size
  by_cases h : 1048576 ≤ span / cs
  · have hsz : size = span / 1048576 + 1 := if_pos h
    rw [hsz]
    have hle : 1048576 * cs ≤ span := (Nat.le_div_iff_mul_le hcs).mp h
    have hcs' : cs ≤ span / 1048576 := (Nat.le_div_iff_mul_le (by omega)).mpr (by omega)
    have hlt : span < 1048576 * (span / 1048576 + 1) := Nat.lt_mul_div_succ _ (by omega)
    have : span / (span / 1048576 + 1) < 1048576 :=
      (Nat.div_lt_iff_lt_mul (Nat.succ_pos _)).mpr hlt
    exact ⟨by omega, by omega, by omega⟩
  · have hsz : size = cs := if_neg h
    rw [hsz]
    exact ⟨hcs, le_rfl, by omega⟩

/-- What `split` returns for a non-empty range. -/
structure SplitOk (lo hi chunkSize : ℕ) (n size : ℕ) : Prop where
  one_le_n : 1 ≤ n
  n_le : n ≤ 1048576
  chunkSize_le : chunkSize ≤ size
  last_nonempty : (n - 1) * size < hi - lo
  cover : hi - lo ≤ n * size

lemma split_empty {lo hi chunkSize : UInt64} (h : hi ≤ lo) :
    split lo hi chunkSize = (0, chunkSize) := by
  rw [split, if_pos h]

lemma toNat_div_add_one {a b : UInt64} (hfit : a.toNat / b.toNat + 1 < 2 ^ 64) :
    (a / b + 1).toNat = a.toNat / b.toNat + 1 := by
  rw [UInt64.toNat_add, UInt64.toNat_div]
  exact Nat.mod_eq_of_lt hfit

/-- The width `split` computes, as a number. -/
lemma width_toNat (span chunkSize : UInt64) :
    (if span / chunkSize ≥ maxChunksPerJob then span / maxChunksPerJob + 1 else chunkSize).toNat =
      if 1048576 ≤ span.toNat / chunkSize.toNat then span.toNat / 1048576 + 1
      else chunkSize.toNat := by
  have hmax : maxChunksPerJob.toNat = 1048576 := by decide
  have hspan := span.toNat_lt
  have hcond : span / chunkSize ≥ maxChunksPerJob ↔
      1048576 ≤ span.toNat / chunkSize.toNat := by
    rw [ge_iff_le, UInt64.le_iff_toNat_le, UInt64.toNat_div, hmax]
  by_cases hc : 1048576 ≤ span.toNat / chunkSize.toNat
  · rw [if_pos (hcond.mpr hc), if_pos hc, toNat_div_add_one (by rw [hmax]; omega), hmax]
  · rw [if_neg (mt hcond.mp hc), if_neg hc]

/-- The count `split` computes, as a number, when it is far from the end of the type. -/
lemma count_toNat {span size : UInt64} (hfit : span.toNat / size.toNat + 1 < 2 ^ 64) :
    (if span % size ≠ 0 then span / size + 1 else span / size).toNat =
      if span.toNat % size.toNat ≠ 0 then span.toNat / size.toNat + 1
      else span.toNat / size.toNat := by
  have hcond : span % size ≠ 0 ↔ span.toNat % size.toNat ≠ 0 := by
    rw [Ne, Ne, ← UInt64.toNat_inj, UInt64.toNat_mod]
    rfl
  by_cases hc : span.toNat % size.toNat ≠ 0
  · rw [if_pos (hcond.mpr hc), if_pos hc, toNat_div_add_one hfit]
  · rw [if_neg (mt hcond.mp hc), if_neg hc, UInt64.toNat_div]

lemma split_ok {lo hi chunkSize : UInt64} (h : lo < hi) (hcs : 1 ≤ chunkSize) :
    SplitOk lo.toNat hi.toNat chunkSize.toNat (split lo hi chunkSize).1.toNat
      (split lo hi chunkSize).2.toNat := by
  have hlt : lo.toNat < hi.toNat := UInt64.lt_iff_toNat_lt.mp h
  have hspan : (hi - lo).toNat = hi.toNat - lo.toNat :=
    UInt64.toNat_sub_of_le _ _ (UInt64.le_iff_toNat_le.mpr hlt.le)
  have hspan1 : 1 ≤ (hi - lo).toNat := by omega
  set span := hi - lo with hspan_def
  set size : UInt64 := if span / chunkSize ≥ maxChunksPerJob then span / maxChunksPerJob + 1
    else chunkSize with hsize_def
  set count : UInt64 := if span % size ≠ 0 then span / size + 1 else span / size with hcount_def
  obtain ⟨hs1, hs2, hs3⟩ := width_bounds span.toNat (UInt64.le_iff_toNat_le.mp hcs)
  rw [← width_toNat, ← hsize_def] at hs1 hs2 hs3
  obtain ⟨hc1, hc2, hc3, hc4⟩ := ceilDiv_bounds hs1 hspan1
  rw [← count_toNat (by omega), ← hcount_def] at hc1 hc2 hc3 hc4
  -- the count never reaches the cap of 2^32 - 1
  have hcap : ¬ count > 4294967295 := by
    rw [gt_iff_lt, UInt64.lt_iff_toNat_lt]
    have : (4294967295 : UInt64).toNat = 4294967295 := rfl
    omega
  have hsplit : split lo hi chunkSize = (count.toUInt32, size) := by
    rw [split, if_neg (UInt64.not_le.mpr h)]
    simp only [← hspan_def, ← hsize_def, ← hcount_def, if_neg hcap]
  have hn : count.toUInt32.toNat = count.toNat := by
    rw [UInt64.toNat_toUInt32]
    exact Nat.mod_eq_of_lt (by omega)
  rw [hsplit, hn]
  exact ⟨hc1, by omega, hs2, by rw [← hspan]; exact hc2, by rw [← hspan]; exact hc3⟩

/-! ## Chunks of a spec -/

namespace JobSpec

/-- The chunks of the spec are non-empty, consecutive and cover the range, all of it within
64-bit arithmetic. -/
structure Cut (spec : JobSpec) : Prop where
  size_pos : 1 ≤ spec.size.toNat
  start_lt : ∀ i < spec.n.toNat, spec.lo.toNat + i * spec.size.toNat < spec.hi.toNat
  cover : spec.hi.toNat ≤ spec.lo.toNat + spec.n.toNat * spec.size.toNat

/-- What `clientHandler` computes for a request is such a spec. -/
lemma ofRequest_cut {chunkSize : UInt64} (hcs : 1 ≤ chunkSize) (req : Request) :
    (ofRequest chunkSize req).Cut := by
  by_cases h : req.hi ≤ req.lo
  · have hle := UInt64.le_iff_toNat_le.mp h
    simp only [ofRequest, split_empty h]
    refine ⟨UInt64.le_iff_toNat_le.mp hcs, fun i hi => absurd hi (Nat.not_lt_zero i), ?_⟩
    exact le_trans hle (Nat.le_add_right _ _)
  · have h' := UInt64.not_le.mp h
    have hlt := UInt64.lt_iff_toNat_lt.mp h'
    obtain ⟨h1, h2, h3, h4, h5⟩ := split_ok h' hcs
    simp only [ofRequest]
    refine ⟨le_trans (UInt64.le_iff_toNat_le.mp hcs) h3, fun i hi => ?_, ?_⟩
    · dsimp only at hi ⊢
      have hmul := Nat.mul_le_mul_right (split req.lo req.hi chunkSize).2.toNat
        (Nat.le_sub_one_of_lt hi)
      omega
    · dsimp only
      omega

variable {spec : JobSpec}

/-- `feed` computes the start of a chunk without wrapping. -/
lemma Cut.chunkLo_toNat (h : spec.Cut) {i : UInt32} (hi : i < spec.n) :
    (spec.chunkLo i).toNat = spec.lo.toNat + i.toNat * spec.size.toNat := by
  have hlt := h.start_lt i.toNat (UInt32.lt_iff_toNat_lt.mp hi)
  have hhi := spec.hi.toNat_lt
  rw [chunkLo, UInt64.toNat_add, UInt64.toNat_mul, UInt32.toNat_toUInt64,
    Nat.mod_eq_of_lt (show i.toNat * spec.size.toNat < 2 ^ 64 by omega),
    Nat.mod_eq_of_lt (by omega)]

/-- `feed` computes the end of a chunk without wrapping. -/
lemma Cut.chunkHi_toNat (h : spec.Cut) {i : UInt32} (hi : i < spec.n) :
    (spec.chunkHi i).toNat =
      min (spec.lo.toNat + (i.toNat + 1) * spec.size.toNat) spec.hi.toNat := by
  have hlo := h.chunkLo_toNat hi
  have hlt := h.start_lt i.toNat (UInt32.lt_iff_toNat_lt.mp hi)
  have hhi := spec.hi.toNat_lt
  have hsub : (spec.hi - spec.chunkLo i).toNat = spec.hi.toNat - (spec.chunkLo i).toNat :=
    UInt64.toNat_sub_of_le _ _ (UInt64.le_iff_toNat_le.mpr (by omega))
  have hmul : (i.toNat + 1) * spec.size.toNat = i.toNat * spec.size.toNat + spec.size.toNat :=
    Nat.succ_mul _ _
  have hcond : spec.hi - spec.chunkLo i > spec.size ↔
      spec.size.toNat < spec.hi.toNat - (spec.chunkLo i).toNat := by
    rw [gt_iff_lt, UInt64.lt_iff_toNat_lt, hsub]
  rw [chunkHi]
  split_ifs with hc
  · have hc' := hcond.mp hc
    rw [UInt64.toNat_add, Nat.mod_eq_of_lt (by omega)]
    omega
  · have hc' := mt hcond.mpr hc
    omega

/-- The boundaries of the chunks: the start of the range, then the end of each chunk. -/
def boundary (spec : JobSpec) : ℕ → UInt64
  | 0 => spec.lo
  | i + 1 => spec.chunkHi (UInt32.ofNat i)

lemma ofNat_lt {n : UInt32} {i : ℕ} (hi : i < n.toNat) :
    UInt32.ofNat i < n ∧ (UInt32.ofNat i).toNat = i := by
  have hn := n.toNat_lt
  have : (UInt32.ofNat i).toNat = i := by
    rw [UInt32.toNat_ofNat']
    exact Nat.mod_eq_of_lt (by omega)
  exact ⟨UInt32.lt_iff_toNat_lt.mpr (by omega), this⟩

lemma Cut.boundary_toNat (h : spec.Cut) {i : ℕ} (hi : i ≤ spec.n.toNat) (hlo : spec.lo ≤ spec.hi) :
    (spec.boundary i).toNat = min (spec.lo.toNat + i * spec.size.toNat) spec.hi.toNat := by
  have hle := UInt64.le_iff_toNat_le.mp hlo
  cases i with
  | zero =>
      rw [Nat.zero_mul, Nat.add_zero, min_eq_left hle]
      rfl
  | succ i =>
      obtain ⟨h1, h2⟩ := ofNat_lt hi
      rw [boundary, h.chunkHi_toNat h1, h2]

/-- Every chunk but the first starts where the one before it ends. -/
lemma Cut.boundary_eq_chunkLo (h : spec.Cut) {i : UInt32} (hi : i < spec.n) :
    spec.boundary i.toNat = spec.chunkLo i := by
  have hlt := h.start_lt i.toNat (UInt32.lt_iff_toNat_lt.mp hi)
  have h0 := h.start_lt 0 (lt_of_le_of_lt (Nat.zero_le _) (UInt32.lt_iff_toNat_lt.mp hi))
  have hlo : spec.lo ≤ spec.hi := UInt64.le_iff_toNat_le.mpr (by omega)
  rw [← UInt64.toNat_inj, h.boundary_toNat (UInt32.lt_iff_toNat_lt.mp hi).le hlo,
    h.chunkLo_toNat hi]
  omega

/-- **Merging the answers for all chunks gives the answer for the range.** -/
theorem fold_chunks {wl : Workload} (hwl : wl.Contract) (h : spec.Cut) :
    hwl.mergeOver (spec.chunkAnswer wl) (indicesBelow spec.n) =
      wl.compute spec.msg spec.lo spec.hi := by
  have := hwl.commutative
  have := hwl.associative
  by_cases hlo : spec.lo ≤ spec.hi
  · have hle := UInt64.le_iff_toNat_le.mp hlo
    have hmono : ∀ i j, i ≤ j → j ≤ spec.n.toNat → spec.boundary i ≤ spec.boundary j := by
      intro i j hij hj
      rw [UInt64.le_iff_toNat_le, h.boundary_toNat (le_trans hij hj) hlo,
        h.boundary_toNat hj hlo]
      have := Nat.mul_le_mul_right spec.size.toNat hij
      omega
    have hend : spec.boundary spec.n.toNat = spec.hi := by
      rw [← UInt64.toNat_inj, h.boundary_toNat le_rfl hlo]
      exact min_eq_right h.cover
    have hpieces := fold_pieces (hwl.compute_split spec.msg) spec.boundary
      spec.n.toNat hmono (hwl.compute_empty _ _ _ (UInt64.le_refl _))
    rw [hend] at hpieces
    refine Eq.trans ?_ hpieces.symm
    rw [Workload.MergeLaws.mergeOver, indicesBelow, Finset.fold_image (ofNat_injOn_range spec.n)]
    refine Finset.fold_congr fun i hi => ?_
    obtain ⟨h1, h2⟩ := ofNat_lt (Finset.mem_range.mp hi)
    have hb := h.boundary_eq_chunkLo h1
    rw [h2] at hb
    rw [hb]
    rfl
  · -- an inverted range has no chunk
    have hlt := UInt64.lt_iff_toNat_lt.mp (UInt64.not_le.mp hlo)
    have hn : spec.n.toNat = 0 := by
      by_contra hn
      have := h.start_lt 0 (Nat.pos_of_ne_zero hn)
      omega
    rw [hwl.compute_empty _ _ _ (UInt64.le_of_lt (UInt64.not_le.mp hlo)), indicesBelow, hn]
    simp

end JobSpec

end RudpScheduler
