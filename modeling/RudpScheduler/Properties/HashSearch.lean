import RudpScheduler.Construction.HashSearch
import RudpScheduler.Properties.Partition

/-!
# Any order, any repetition gives the sequential answer

Partial answers are ordered by hash and then by nonce, `Zero` is the greatest of them and `Merge`
is the minimum.  The loop of `Compute` is therefore an infimum (`compute_eq_inf`), from which the
contract of the workload follows: cutting a range cuts the set of nonces the infimum is taken over.

A list of chunk results folds to the infimum over its elements, whatever their order and number
(`foldl_eq_fold_toFinset`), and over all chunks of a range this is the answer for the range
(`JobSpec.fold_chunks`).
-/

namespace RudpScheduler

/-! ## The order of partial answers -/

namespace Partial

/-- Hash first, then nonce. -/
def key (p : Partial) : ℕ ×ₗ ℕ := toLex (p.hash.toNat, p.nonce.toNat)

lemma key_injective : Function.Injective key := by
  intro a b h
  have h' := congrArg ofLex h
  simp only [key, ofLex_toLex, Prod.mk.injEq, UInt64.toNat_inj] at h'
  obtain ⟨hash, nonce⟩ := a
  obtain ⟨hash', nonce'⟩ := b
  rw [Partial.mk.injEq]
  exact h'

instance : LinearOrder Partial := LinearOrder.lift' key key_injective

lemma lt_iff {a b : Partial} :
    a < b ↔ a.hash < b.hash ∨ a.hash = b.hash ∧ a.nonce < b.nonce := by
  change key a < key b ↔ _
  rw [key, key, Prod.Lex.toLex_lt_toLex, UInt64.lt_iff_toNat_lt, UInt64.lt_iff_toNat_lt,
    UInt64.toNat_inj]

lemma le_iff {a b : Partial} :
    a ≤ b ↔ a.hash < b.hash ∨ a.hash = b.hash ∧ a.nonce ≤ b.nonce := by
  change key a ≤ key b ↔ _
  rw [key, key, Prod.Lex.toLex_le_toLex, UInt64.lt_iff_toNat_lt, UInt64.le_iff_toNat_le,
    UInt64.toNat_inj]

instance : OrderTop Partial where
  top := HashSearch.zero
  le_top a := by
    rw [le_iff, UInt64.lt_iff_toNat_lt, UInt64.le_iff_toNat_le, ← UInt64.toNat_inj]
    have h1 := a.hash.toNat_lt
    have h2 := a.nonce.toNat_lt
    have h3 : HashSearch.zero.hash.toNat = 18446744073709551615 := rfl
    have h4 : HashSearch.zero.nonce.toNat = 18446744073709551615 := rfl
    omega

end Partial

namespace HashSearch

variable {sum : List UInt8 → UInt64}

lemma zero_eq_top : zero = (⊤ : Partial) := rfl

lemma merge_eq_min (a b : Partial) : merge a b = min a b := by
  rw [merge, min_comm, min_def_lt]
  simp only [Partial.lt_iff]

/-- What one nonce contributes. -/
def candidate (sum : List UInt8 → UInt64) (msg : Msg) (k : ℕ) : Partial :=
  ⟨hash sum msg (UInt64.ofNat k), UInt64.ofNat k⟩

/-- The loop keeps the minimum of what it started with and of the nonces it has seen. -/
lemma computeLoop_eq (msg : Msg) (hi : UInt64) (rounds : ℕ) (nonce : UInt64) (best : Partial)
    (h : nonce.toNat + rounds = hi.toNat) :
    computeLoop sum msg hi rounds nonce best =
      min best ((Finset.Ico nonce.toNat hi.toNat).inf (candidate sum msg)) := by
  induction rounds generalizing nonce best with
  | zero => simp [computeLoop, ← h]
  | succ rounds ih =>
      have hhi := hi.toNat_lt
      have hlt : nonce.toNat < hi.toNat := by omega
      have hnext : (nonce + 1).toNat = nonce.toNat + 1 := by
        rw [UInt64.toNat_add, UInt64.toNat_one]
        omega
      have hcand : candidate sum msg nonce.toNat = ⟨hash sum msg nonce, nonce⟩ := by
        rw [candidate, UInt64.ofNat_toNat]
      -- the comparison in the loop is the one of `Merge`
      have hbest : (if hash sum msg nonce < best.hash ∨
            hash sum msg nonce = best.hash ∧ nonce < best.nonce
          then (⟨hash sum msg nonce, nonce⟩ : Partial) else best) =
          min best (candidate sum msg nonce.toNat) := by
        rw [hcand, ← merge_eq_min]
        rfl
      rw [computeLoop, if_pos (UInt64.lt_iff_toNat_lt.mpr hlt)]
      dsimp only
      rw [hbest, ih _ _ (by omega), hnext, ← Finset.insert_Ico_add_one_left_eq_Ico hlt,
        Finset.inf_insert, min_assoc]

/-- `Compute` is an infimum. -/
lemma compute_eq_inf (msg : Msg) (lo hi : UInt64) :
    compute sum msg lo hi = (Finset.Ico lo.toNat hi.toNat).inf (candidate sum msg) := by
  by_cases h : lo.toNat ≤ hi.toNat
  · rw [compute, computeLoop_eq msg hi _ lo zero (by omega), zero_eq_top]
    exact top_inf_eq _
  · rw [compute, Nat.sub_eq_zero_of_le (by omega), Finset.Ico_eq_empty_of_le (by omega)]
    rfl

/-- The default workload meets the contract. -/
lemma contract (sum : List UInt8 → UInt64) : (workload sum).Contract where
  merge_comm a b := by
    change merge a b = merge b a
    rw [merge_eq_min, merge_eq_min, min_comm]
  merge_assoc a b c := by
    change merge (merge a b) c = merge a (merge b c)
    simp only [merge_eq_min, min_assoc]
  merge_idem a := by
    change merge a a = a
    rw [merge_eq_min, min_self]
  zero_merge a := by
    change merge zero a = a
    rw [merge_eq_min, zero_eq_top]
    exact top_inf_eq a
  compute_empty msg lo hi h := by
    change compute sum msg lo hi = zero
    rw [compute_eq_inf, Finset.Ico_eq_empty_of_le (UInt64.le_iff_toNat_le.mp h)]
    rfl
  compute_split msg lo mid hi h h' := by
    change compute sum msg lo hi = merge (compute sum msg lo mid) (compute sum msg mid hi)
    rw [merge_eq_min, compute_eq_inf, compute_eq_inf, compute_eq_inf,
      ← Finset.Ico_union_Ico_eq_Ico (UInt64.le_iff_toNat_le.mp h) (UInt64.le_iff_toNat_le.mp h'),
      Finset.inf_union]

/-- On a range that is not empty the answer is the least pair of a hash and its nonce. -/
lemma compute_least (sum : List UInt8 → UInt64) (msg : Msg) {lo hi : UInt64} (h : lo < hi) :
    ∃ nonce, lo ≤ nonce ∧ nonce < hi ∧ compute sum msg lo hi = ⟨hash sum msg nonce, nonce⟩ ∧
      ∀ k, lo ≤ k → k < hi → compute sum msg lo hi ≤ ⟨hash sum msg k, k⟩ := by
  have hlt := UInt64.lt_iff_toNat_lt.mp h
  have hhi := hi.toNat_lt
  rw [compute_eq_inf]
  obtain ⟨k, hk, heq⟩ := Finset.exists_mem_eq_inf (Finset.Ico lo.toNat hi.toNat)
    (Finset.nonempty_Ico.mpr hlt) (candidate sum msg)
  rw [Finset.mem_Ico] at hk
  have hnat : (UInt64.ofNat k).toNat = k := by
    rw [UInt64.toNat_ofNat']
    exact Nat.mod_eq_of_lt (by omega)
  refine ⟨UInt64.ofNat k, ?_, ?_, heq, fun k' h1 h2 => ?_⟩
  · rw [UInt64.le_iff_toNat_le, hnat]
    exact hk.1
  · rw [UInt64.lt_iff_toNat_lt, hnat]
    exact hk.2
  · rw [UInt64.le_iff_toNat_le] at h1
    rw [UInt64.lt_iff_toNat_lt] at h2
    have hle := Finset.inf_le (f := candidate sum msg) (Finset.mem_Ico.mpr ⟨h1, h2⟩)
    rwa [candidate, UInt64.ofNat_toNat] at hle

end HashSearch

/-! ## Any order, any repetition -/

/-- What the workers answer for the chunks `split` and `feed` produce. -/
def JobSpec.parts (spec : JobSpec) (wl : Workload) : List Partial :=
  (spec.feed ∅).map fun t => wl.compute t.msg t.lo t.hi

lemma JobSpec.mem_parts {spec : JobSpec} {wl : Workload} {x : Partial} :
    x ∈ spec.parts wl ↔ x ∈ (indicesBelow spec.n).image (spec.chunkAnswer wl) := by
  simp only [parts, List.mem_map, Finset.mem_image, mem_indicesBelow, mem_feed]
  constructor
  · rintro ⟨t, ⟨i, hi, -, rfl⟩, rfl⟩
    exact ⟨i, hi, rfl⟩
  · rintro ⟨i, hi, rfl⟩
    exact ⟨spec.task i, ⟨i, hi, Finset.notMem_empty i, rfl⟩, rfl⟩

/-- For every workload that meets the contract: folding `Merge` over the answers for the chunks,
in any order and with any repetition, gives the answer for the range. -/
lemma JobSpec.foldl_parts {wl : Workload} (hwl : wl.Contract) {spec : JobSpec} (hcut : spec.Cut)
    {l : List Partial} (hl : ∀ x, x ∈ l ↔ x ∈ spec.parts wl) :
    l.foldl wl.merge wl.zero = wl.compute spec.msg spec.lo spec.hi := by
  have := hwl.commutative
  have := hwl.associative
  have : Std.IdempotentOp wl.merge := ⟨hwl.merge_idem⟩
  have hset : l.toFinset = (indicesBelow spec.n).image (spec.chunkAnswer wl) := by
    ext x
    rw [List.mem_toFinset, hl, mem_parts]
  rw [foldl_eq_fold_toFinset, hset, Finset.fold_image_idem, ← JobSpec.fold_chunks hwl hcut]
  rfl

/-- **Any order, any repetition gives the sequential answer.**  For every message, range, chunk
size of at least one and hash function: folding `Merge` from `Zero` over any list that consists of
the answers for the chunks of the range, each at least once, gives what `Compute` gives for the
whole range.  That is `Zero` for an empty range, and otherwise the pair of a hash and its nonce
that is least in lexicographic order. -/
theorem HashSearch.any_order_any_repetition (sum : List UInt8 → UInt64) (msg : Msg)
    (lo hi chunkSize : UInt64) (hcs : 1 ≤ chunkSize) (job : UInt64) (l : List Partial)
    (hl : ∀ x ∈ l, x ∈ (JobSpec.ofRequest chunkSize ⟨job, lo, hi, msg⟩).parts (workload sum))
    (hl' : ∀ x ∈ (JobSpec.ofRequest chunkSize ⟨job, lo, hi, msg⟩).parts (workload sum), x ∈ l) :
    l.foldl merge zero = compute sum msg lo hi ∧
      (hi ≤ lo → compute sum msg lo hi = zero) ∧
      (lo < hi → ∃ nonce, lo ≤ nonce ∧ nonce < hi ∧
        compute sum msg lo hi = ⟨hash sum msg nonce, nonce⟩ ∧
        ∀ k, lo ≤ k → k < hi → hash sum msg nonce < hash sum msg k ∨
          hash sum msg nonce = hash sum msg k ∧ nonce ≤ k) := by
  refine ⟨?_, (contract sum).compute_empty msg lo hi, fun h => ?_⟩
  · exact JobSpec.foldl_parts (contract sum) (JobSpec.ofRequest_cut hcs ⟨job, lo, hi, msg⟩)
      fun x => ⟨hl x, hl' x⟩
  · obtain ⟨nonce, h1, h2, heq, hleast⟩ := compute_least sum msg h
    refine ⟨nonce, h1, h2, heq, fun k hk1 hk2 => ?_⟩
    have hle := hleast k hk1 hk2
    rwa [heq, Partial.le_iff] at hle

/-- A hash for which 7 is the best nonce between 5 and 8. -/
def lastDigitSum (b : List UInt8) : UInt64 := 60 - (b.getLastD 0).toUInt64

theorem HashSearch.any_order_any_repetition_fiveToEight :
    (JobSpec.ofRequest 2 ⟨1, 5, 8, []⟩).parts (workload lastDigitSum) = [⟨6, 6⟩, ⟨5, 7⟩] ∧
      [(⟨5, 7⟩ : Partial), ⟨6, 6⟩, ⟨5, 7⟩].foldl merge zero = compute lastDigitSum [] 5 8 := by
  have hparts : (JobSpec.ofRequest 2 ⟨1, 5, 8, []⟩).parts (workload lastDigitSum) =
      [⟨6, 6⟩, ⟨5, 7⟩] := by decide +kernel
  refine ⟨hparts, (any_order_any_repetition lastDigitSum [] 5 8 2 (by decide) 1 _ ?_ ?_).1⟩
  · rw [hparts]
    decide
  · rw [hparts]
    decide

end RudpScheduler
