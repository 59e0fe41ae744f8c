import RudpScheduler.Framework.Checked
import RudpScheduler.Properties.Partition

/-!
# Splitting is an exact partition

`splitChecked` and `feedChecked` are `split` and `feed` once more, with arithmetic that fails
instead of wrapping.  They never fail for a non-empty range and return what `split` and `feed` do,
so nothing wraps there.  The chunks are then numbers in a row (`JobSpec.Cut`), and every nonce of
the range is in exactly one of them, whatever indices `feed` is told to skip
(`split_exact_partition`).
-/

namespace RudpScheduler

/-! ## The two functions without wrapping -/

/-- The width `split` chooses, with checked arithmetic. -/
def widthChecked (span chunkSize : UInt64) : Option UInt64 := do
  let count ← Checked.div span chunkSize
  if count ≥ maxChunksPerJob then Checked.add (← Checked.div span maxChunksPerJob) 1
  else return chunkSize

/-- The count `split` chooses, with checked arithmetic. -/
def countChecked (span size : UInt64) : Option UInt64 := do
  let count ← Checked.div span size
  if (← Checked.mod span size) ≠ 0 then Checked.add count 1 else return count

/-- `split` with checked arithmetic. -/
def splitChecked (lo hi chunkSize : UInt64) : Option (UInt32 × UInt64) :=
  if hi ≤ lo then some (0, chunkSize)
  else do
    let span ← Checked.sub hi lo
    let size ← widthChecked span chunkSize
    let count ← countChecked span size
    let count := if count > 4294967295 then 4294967295 else count
    return (← Checked.toUInt32 count, size)

namespace JobSpec

/-- The end of the chunk `feed` starts at `lo`, with checked arithmetic. -/
def endChecked (spec : JobSpec) (lo : UInt64) : Option UInt64 := do
  if (← Checked.sub spec.hi lo) > spec.size then Checked.add lo spec.size else return spec.hi

/-- The range `feed` computes for index `i`, with checked arithmetic. -/
def rangeChecked (spec : JobSpec) (i : UInt32) : Option (UInt64 × UInt64) := do
  let lo ← Checked.add spec.lo (← Checked.mul i.toUInt64 spec.size)
  return (lo, ← spec.endChecked lo)

/-- `feed` with checked arithmetic. -/
def feedChecked (spec : JobSpec) (skip : Finset UInt32) : Option (List Task) :=
  (((List.range spec.n.toNat).map UInt32.ofNat).filter (· ∉ skip)).mapM fun i =>
    (spec.rangeChecked i).map fun r => ⟨⟨spec.id, i⟩, spec.msg, r.1, r.2⟩

end JobSpec

lemma ne_zero_of_pos {a : UInt64} (h : 1 ≤ a.toNat) : a ≠ 0 := by
  rintro rfl
  exact absurd h (by decide)

lemma widthChecked_eq (span : UInt64) {chunkSize : UInt64} (hcs : 1 ≤ chunkSize.toNat) :
    widthChecked span chunkSize =
      some (if span / chunkSize ≥ maxChunksPerJob then span / maxChunksPerJob + 1
        else chunkSize) := by
  have hspan := span.toNat_lt
  have hmax : maxChunksPerJob.toNat = 1048576 := by decide
  rw [widthChecked, Checked.div_eq (ne_zero_of_pos hcs),
    Checked.div_eq (show maxChunksPerJob ≠ 0 by decide)]
  simp only [Option.bind_eq_bind, Option.bind_some, Option.pure_def]
  split_ifs
  · refine Checked.add_eq ?_
    rw [UInt64.toNat_div, hmax, UInt64.toNat_one]
    omega
  · rfl

lemma countChecked_eq {span size : UInt64} (hs : 1 ≤ size.toNat)
    (hfit : span.toNat / size.toNat + 1 < 2 ^ 64) :
    countChecked span size =
      some (if span % size ≠ 0 then span / size + 1 else span / size) := by
  rw [countChecked, Checked.div_eq (ne_zero_of_pos hs), Checked.mod_eq (ne_zero_of_pos hs)]
  simp only [Option.bind_eq_bind, Option.bind_some, Option.pure_def]
  split_ifs
  · refine Checked.add_eq ?_
    rw [UInt64.toNat_div, UInt64.toNat_one]
    exact hfit
  · rfl

/-- No operation of `split` wraps. -/
lemma splitChecked_eq {lo hi chunkSize : UInt64} (h : lo < hi) (hcs : 1 ≤ chunkSize) :
    splitChecked lo hi chunkSize = some (split lo hi chunkSize) := by
  have hcs1 : 1 ≤ chunkSize.toNat := UInt64.le_iff_toNat_le.mp hcs
  rw [splitChecked, if_neg (UInt64.not_le.mpr h), Checked.sub_eq (UInt64.le_of_lt h), split,
    if_neg (UInt64.not_le.mpr h)]
  generalize hi - lo = span
  obtain ⟨hs1, -, hs3⟩ := width_bounds span.toNat hcs1
  rw [← width_toNat] at hs1 hs3
  simp only [Option.bind_eq_bind, Option.bind_some, Option.pure_def, widthChecked_eq span hcs1]
  generalize (if span / chunkSize ≥ maxChunksPerJob then span / maxChunksPerJob + 1
    else chunkSize) = size at hs1 hs3 ⊢
  have hsmall : (if span % size ≠ 0 then span / size + 1 else span / size).toNat < 2 ^ 32 := by
    rw [count_toNat (by omega)]
    split_ifs <;> omega
  simp only [countChecked_eq hs1 (show span.toNat / size.toNat + 1 < 2 ^ 64 by omega),
    Option.bind_some]
  generalize (if span % size ≠ 0 then span / size + 1 else span / size) = count at hsmall ⊢
  rw [Checked.toUInt32_eq]
  · rfl
  · split_ifs
    · decide
    · exact hsmall

namespace JobSpec

variable {spec : JobSpec}

/-- No operation of `feed` wraps. -/
lemma Cut.rangeChecked_eq (h : spec.Cut) {i : UInt32} (hi : i < spec.n) :
    spec.rangeChecked i = some (spec.chunkLo i, spec.chunkHi i) := by
  have hlt := h.start_lt i.toNat (UInt32.lt_iff_toNat_lt.mp hi)
  have hhi := spec.hi.toNat_lt
  have hlo := h.chunkLo_toNat hi
  have hmul : (i.toUInt64 * spec.size).toNat = i.toNat * spec.size.toNat := by
    rw [UInt64.toNat_mul, UInt32.toNat_toUInt64, Nat.mod_eq_of_lt (by omega)]
  have hle : spec.chunkLo i ≤ spec.hi := UInt64.le_iff_toNat_le.mpr (by omega)
  have hend : spec.endChecked (spec.chunkLo i) = some (spec.chunkHi i) := by
    rw [endChecked, Checked.sub_eq hle, chunkHi]
    simp only [Option.bind_eq_bind, Option.bind_some, Option.pure_def]
    split_ifs with hc
    · refine Checked.add_eq ?_
      have hc' := UInt64.lt_iff_toNat_lt.mp hc
      rw [UInt64.toNat_sub_of_le _ _ hle] at hc'
      omega
    · rfl
  rw [rangeChecked, Checked.mul_eq (by rw [UInt32.toNat_toUInt64]; omega)]
  simp only [Option.bind_eq_bind, Option.bind_some, Option.pure_def]
  rw [Checked.add_eq (by rw [hmul]; omega), ← chunkLo, Option.bind_some, hend, Option.bind_some]

lemma Cut.feedChecked_eq (h : spec.Cut) (skip : Finset UInt32) :
    spec.feedChecked skip = some (spec.feed skip) := by
  refine Checked.mapM_eq_some fun i hi => ?_
  have hlt : i < spec.n := by
    rw [← mem_indicesBelow, indicesBelow]
    simpa using (List.mem_filter.mp hi).1
  rw [h.rangeChecked_eq hlt]
  rfl

/-! ## Which chunk a nonce is in -/

/-- The chunk of a nonce of the range. -/
lemma Cut.exists_chunk (h : spec.Cut) {x : UInt64} (hlo : spec.lo ≤ x) (hhi : x < spec.hi) :
    ∃ i < spec.n, spec.chunkLo i ≤ x ∧ x < spec.chunkHi i := by
  have hlo' := UInt64.le_iff_toNat_le.mp hlo
  have hhi' := UInt64.lt_iff_toNat_lt.mp hhi
  have hcover := h.cover
  have hpos := h.size_pos
  -- count the whole chunks below it
  obtain ⟨k, hk⟩ : ∃ k, k = (x.toNat - spec.lo.toNat) / spec.size.toNat := ⟨_, rfl⟩
  have hbelow : k * spec.size.toNat ≤ x.toNat - spec.lo.toNat := by
    rw [hk]
    exact Nat.div_mul_le_self _ _
  have habove : x.toNat - spec.lo.toNat < (k + 1) * spec.size.toNat := by
    rw [hk, Nat.add_mul, Nat.one_mul]
    exact Nat.lt_div_mul_add hpos
  have hkn : k < spec.n.toNat := by
    rw [hk]
    refine (Nat.div_lt_iff_lt_mul hpos).mpr ?_
    omega
  obtain ⟨hi, hik⟩ := ofNat_lt hkn
  refine ⟨UInt32.ofNat k, hi, ?_, ?_⟩
  · rw [UInt64.le_iff_toNat_le, h.chunkLo_toNat hi, hik]
    omega
  · rw [UInt64.lt_iff_toNat_lt, h.chunkHi_toNat hi, hik]
    omega

/-- A nonce is in one chunk only. -/
lemma Cut.chunk_unique (h : spec.Cut) {i j : UInt32} (hi : i < spec.n) (hj : j < spec.n)
    {x : UInt64} (hxi : spec.chunkLo i ≤ x ∧ x < spec.chunkHi i)
    (hxj : spec.chunkLo j ≤ x ∧ x < spec.chunkHi j) : i = j := by
  have hdiv : ∀ {k : UInt32}, k < spec.n → spec.chunkLo k ≤ x ∧ x < spec.chunkHi k →
      (x.toNat - spec.lo.toNat) / spec.size.toNat = k.toNat := by
    rintro k hk ⟨hle, hlt⟩
    rw [UInt64.le_iff_toNat_le, h.chunkLo_toNat hk] at hle
    rw [UInt64.lt_iff_toNat_lt, h.chunkHi_toNat hk] at hlt
    exact Nat.div_eq_of_lt_le (by omega) (by omega)
  rw [← UInt32.toNat_inj, ← hdiv hi hxi, hdiv hj hxj]

/-- `feed` queues every task once. -/
lemma feed_nodup (spec : JobSpec) (skip : Finset UInt32) : (spec.feed skip).Nodup := by
  have hindices : ((List.range spec.n.toNat).map UInt32.ofNat).Nodup := by
    refine List.Nodup.map_on (fun a ha b hb hab => ?_) List.nodup_range
    exact ofNat_injOn_range spec.n (by simpa using ha) (by simpa using hb) hab
  refine (hindices.filter _).map fun i j hij => ?_
  exact congrArg (fun t : Task => t.id.idx) hij

/-- Among the tasks `feed` queues a nonce is in the task of its chunk, unless that is skipped. -/
lemma Cut.countP_feed (h : spec.Cut) {i : UInt32} (hi : i < spec.n) {x : UInt64}
    (hx : spec.chunkLo i ≤ x ∧ x < spec.chunkHi i) (skip : Finset UInt32) :
    (spec.feed skip).countP (fun t => t.lo ≤ x ∧ x < t.hi) = if i ∈ skip then 0 else 1 := by
  -- a task that covers `x` is the one for `i`
  have hcovers : ∀ t ∈ spec.feed skip, (t.lo ≤ x ∧ x < t.hi ↔ t = spec.task i) := by
    intro t ht
    obtain ⟨j, hj, -, rfl⟩ := mem_feed.mp ht
    refine ⟨fun hxj => ?_, fun he => ?_⟩
    · rw [h.chunk_unique hi hj hx hxj]
    · rw [he]
      exact hx
  split_ifs with hskip
  · refine List.countP_eq_zero.mpr fun t ht hxt => ?_
    obtain ⟨j, -, hjskip, rfl⟩ := mem_feed.mp ht
    have hji : j = i :=
      congrArg (fun t : Task => t.id.idx) ((hcovers _ ht).mp (of_decide_eq_true hxt))
    exact hjskip (hji ▸ hskip)
  · have hmem : spec.task i ∈ spec.feed skip := mem_feed.mpr ⟨i, hi, hskip, rfl⟩
    rw [← List.count_eq_one_of_mem (spec.feed_nodup skip) hmem, List.count]
    refine List.countP_congr fun t ht => ?_
    rw [decide_eq_true_eq, hcovers t ht, beq_iff_eq]

/-- Chunks are non-empty and at most `size` wide. -/
lemma Cut.chunk_width (h : spec.Cut) {i : UInt32} (hi : i < spec.n) :
    spec.chunkLo i < spec.chunkHi i ∧ spec.chunkHi i - spec.chunkLo i ≤ spec.size := by
  have hlt := h.start_lt i.toNat (UInt32.lt_iff_toNat_lt.mp hi)
  have hpos := h.size_pos
  have hlo := h.chunkLo_toNat hi
  have hhi := h.chunkHi_toNat hi
  rw [Nat.add_mul, Nat.one_mul] at hhi
  have hne : spec.chunkLo i < spec.chunkHi i := UInt64.lt_iff_toNat_lt.mpr (by omega)
  refine ⟨hne, ?_⟩
  rw [UInt64.le_iff_toNat_le, UInt64.toNat_sub_of_le _ _ (UInt64.le_of_lt hne)]
  omega

/-- A chunk ends where the next one starts. -/
lemma Cut.chunkHi_eq_next (h : spec.Cut) {i : UInt32} (hi : i.toNat + 1 < spec.n.toNat) :
    spec.chunkHi i = spec.chunkLo (i + 1) := by
  have hn := spec.n.toNat_lt
  have hnext : (i + 1).toNat = i.toNat + 1 := by
    rw [UInt32.toNat_add, UInt32.toNat_one, Nat.mod_eq_of_lt (by omega)]
  have hlt := h.start_lt (i.toNat + 1) hi
  rw [← UInt64.toNat_inj, h.chunkHi_toNat (UInt32.lt_iff_toNat_lt.mpr (by omega)),
    h.chunkLo_toNat (UInt32.lt_iff_toNat_lt.mpr (by omega)), hnext]
  omega

end JobSpec

/-- **Splitting is an exact partition without overflow.** -/
theorem split_exact_partition {lo hi chunkSize : UInt64} (h : lo < hi) (hcs : 1 ≤ chunkSize)
    (id : UInt64) (msg : Msg) {n : UInt32} {size : UInt64}
    (hsplit : split lo hi chunkSize = (n, size)) {spec : JobSpec}
    (hspec : spec = ⟨id, lo, hi, size, n, msg⟩) :
    1 ≤ n ∧ n.toNat ≤ 2 ^ 20 ∧ chunkSize ≤ size ∧
      splitChecked lo hi chunkSize = some (n, size) ∧
      (∀ skip, spec.feedChecked skip = some (spec.feed skip)) ∧
      (∀ i < n, spec.chunkLo i < spec.chunkHi i ∧ spec.chunkHi i - spec.chunkLo i ≤ size) ∧
      spec.chunkLo 0 = lo ∧ (∀ i, i < n - 1 → spec.chunkHi i = spec.chunkLo (i + 1)) ∧
      spec.chunkHi (n - 1) = hi ∧
      (∀ x, lo ≤ x → x < hi → ∃ i < n, (spec.chunkLo i ≤ x ∧ x < spec.chunkHi i) ∧
        ∀ skip, (spec.feed skip).countP (fun t => t.lo ≤ x ∧ x < t.hi) =
          if i ∈ skip then 0 else 1) ∧
      ∀ skip, ∀ t ∈ spec.feed skip, lo ≤ t.lo ∧ t.hi ≤ hi := by
  have hok := split_ok h hcs
  rw [hsplit] at hok
  dsimp only at hok
  have hcut : spec.Cut := by
    have hreq := JobSpec.ofRequest_cut hcs ⟨id, lo, hi, msg⟩
    rw [JobSpec.ofRequest] at hreq
    simp only [hsplit] at hreq
    rw [hspec]
    exact hreq
  have hn : spec.n = n := by rw [hspec]
  have hlo : spec.lo = lo := by rw [hspec]
  have hhi : spec.hi = hi := by rw [hspec]
  have hsize : spec.size = size := by rw [hspec]
  subst hn hlo hhi hsize
  have hpos := hok.one_le_n
  have h1 : (1 : UInt32) ≤ spec.n := UInt32.le_iff_toNat_le.mpr hpos
  have hpred : (spec.n - 1).toNat = spec.n.toNat - 1 := UInt32.toNat_sub_of_le _ _ h1
  have hlast : spec.n - 1 < spec.n := UInt32.lt_iff_toNat_lt.mpr (by omega)
  have hzero : (0 : UInt32) < spec.n := UInt32.lt_iff_toNat_lt.mpr hpos
  refine ⟨h1, hok.n_le, UInt64.le_iff_toNat_le.mpr hok.chunkSize_le, ?_, hcut.feedChecked_eq,
    fun i hi => hcut.chunk_width hi, ?_, fun i hi => ?_, ?_, fun x hx hx' => ?_,
    fun skip t ht => ?_⟩
  · rw [splitChecked_eq h hcs, hsplit]
  · rw [← UInt64.toNat_inj, hcut.chunkLo_toNat hzero, UInt32.toNat_zero, Nat.zero_mul,
      Nat.add_zero]
  · have hi' := UInt32.lt_iff_toNat_lt.mp hi
    exact hcut.chunkHi_eq_next (by omega)
  · have hcover := hcut.cover
    rw [← UInt64.toNat_inj, hcut.chunkHi_toNat hlast, hpred, Nat.sub_add_cancel hpos]
    exact min_eq_right hcover
  · obtain ⟨i, hi, hxi⟩ := hcut.exists_chunk hx hx'
    exact ⟨i, hi, hxi, hcut.countP_feed hi hxi⟩
  · obtain ⟨i, hi, -, rfl⟩ := JobSpec.mem_feed.mp ht
    rw [JobSpec.task_lo, JobSpec.task_hi, UInt64.le_iff_toNat_le, UInt64.le_iff_toNat_le,
      hcut.chunkLo_toNat hi, hcut.chunkHi_toNat hi]
    exact ⟨Nat.le_add_right _ _, min_le_right _ _⟩

/-- The widest range there is, in chunks of one nonce. -/
theorem split_exact_partition_widest :
    split 0 18446744073709551615 1 = (1048576, 17592186044416) ∧
      splitChecked 0 18446744073709551615 1 = some (1048576, 17592186044416) := by
  have hsplit : split 0 18446744073709551615 1 = (1048576, 17592186044416) := by decide +kernel
  exact ⟨hsplit, (split_exact_partition (by decide) (by decide) 1 [] hsplit rfl).2.2.2.1⟩

end RudpScheduler
