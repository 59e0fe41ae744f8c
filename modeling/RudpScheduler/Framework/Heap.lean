import Mathlib

/-!
# Binary heaps

The heap of Go's `container/heap` over an array, for elements compared by a key.  `Heap.push` puts
an element at the end and sifts it up; `Heap.pop` moves the last element to the root and sifts it
down.

The keys of an array are a function on all of `ℕ` that is `⊤` past its end (`Heap.keys`), so being a
heap needs no bounds: no key is below that of its parent (`HeapOrder`), and the tests of the code
for a child past the end are comparisons with `⊤`.  Swapping two elements is composing with
`Equiv.swap`.  While an element is sifted, one edge of the tree may be out of order and the
neighbours on both sides of the element are in order across it (`HeapOrder.Up`, `HeapOrder.Down`).

The rules are `Heap.push_heap` and `Heap.push_perm`, and `Heap.pop_spec`: what is taken is least,
and what is left is a heap of the rest.  `Heap.popWhile` is the loop that pops while the root passes
a test (`Heap.popWhile_spec`): what it takes comes in order, and nothing it leaves passes.
-/

namespace RudpScheduler

/-! ## Heap order -/

section Order

variable {β : Type*} [LinearOrder β] {f : ℕ → β} {i j k : ℕ}

/-- The parent of a node; the root is its own. -/
def parent (k : ℕ) : ℕ := (k - 1) / 2

lemma parent_le (k : ℕ) : parent k ≤ k := by
  unfold parent
  omega

lemma parent_lt (h : k ≠ 0) : parent k < k := by
  unfold parent
  omega

lemma parent_eq_iff (h : k ≠ 0) : parent k = i ↔ k = 2 * i + 1 ∨ k = 2 * i + 2 := by
  unfold parent
  omega

/-- No key is below that of its parent. -/
def HeapOrder (f : ℕ → β) : Prop := ∀ k, f (parent k) ≤ f k

/-- The root is least. -/
lemma HeapOrder.root_le (h : HeapOrder f) (k : ℕ) : f 0 ≤ f k := by
  induction k using Nat.strong_induction_on with
  | _ k ih =>
      by_cases hk : k = 0
      · rw [hk]
      · exact (ih _ (parent_lt hk)).trans (h k)

/-- In order but for the edge above `j`, and across `j`. -/
structure HeapOrder.Up (f : ℕ → β) (j : ℕ) : Prop where
  edges : ∀ k, k ≠ j → f (parent k) ≤ f k
  across : ∀ k, k ≠ j → parent k = j → f (parent j) ≤ f k

lemma HeapOrder.Up.heapOrder (h : HeapOrder.Up f j) (hj : f (parent j) ≤ f j) : HeapOrder f := by
  intro k
  by_cases hk : k = j
  · rw [hk]
    exact hj
  · exact h.edges k hk

/-- An element below its parent is swapped with it. -/
lemma HeapOrder.Up.swap (h : HeapOrder.Up f j) (hj : f j < f (parent j)) :
    HeapOrder.Up (f ∘ Equiv.swap (parent j) j) (parent j) := by
  have hne : parent j ≠ j := fun he => hj.ne (congrArg f he.symm)
  have hj0 : j ≠ 0 := by
    rintro rfl
    exact hne rfl
  refine ⟨fun k hk => ?_, fun k hk hpar => ?_⟩
  · simp only [Function.comp_apply]
    by_cases hkj : k = j
    · -- the edge that was out of order
      subst hkj
      rw [Equiv.swap_apply_left, Equiv.swap_apply_right]
      exact hj.le
    · rw [Equiv.swap_apply_of_ne_of_ne hk hkj]
      by_cases hpj : parent k = j
      · rw [hpj, Equiv.swap_apply_right]
        exact h.across k hkj hpj
      · by_cases hpp : parent k = parent j
        · -- a sibling of `j`
          rw [hpp, Equiv.swap_apply_left]
          exact hj.le.trans (hpp ▸ h.edges k hkj)
        · rw [Equiv.swap_apply_of_ne_of_ne hpp hpj]
          exact h.edges k hkj
  · simp only [Function.comp_apply]
    have hroot : parent (parent j) ≠ j := by
      have := parent_le (parent j)
      have := parent_lt hj0
      omega
    have htop : f (Equiv.swap (parent j) j (parent (parent j))) ≤ f (parent j) := by
      by_cases hpp : parent (parent j) = parent j
      · rw [hpp, Equiv.swap_apply_left]
        exact hj.le
      · rw [Equiv.swap_apply_of_ne_of_ne hpp hroot]
        exact h.edges _ hne
    refine htop.trans ?_
    by_cases hkj : k = j
    · rw [hkj, Equiv.swap_apply_right]
    · rw [Equiv.swap_apply_of_ne_of_ne hk hkj]
      exact hpar ▸ h.edges k hkj

/-- In order but for the edges below `i`, and across `i`. -/
structure HeapOrder.Down (f : ℕ → β) (i : ℕ) : Prop where
  edges : ∀ k, k = i ∨ parent k ≠ i → f (parent k) ≤ f k
  across : i ≠ 0 → ∀ k, k ≠ i → parent k = i → f (parent i) ≤ f k

lemma HeapOrder.Down.heapOrder (h : HeapOrder.Down f i) (h1 : f i ≤ f (2 * i + 1))
    (h2 : f i ≤ f (2 * i + 2)) : HeapOrder f := by
  intro k
  by_cases hk : k = i ∨ parent k ≠ i
  · exact h.edges k hk
  · rw [not_or, not_not] at hk
    have hk0 : k ≠ 0 := by
      rintro rfl
      exact hk.1 hk.2
    rw [hk.2]
    rcases (parent_eq_iff hk0).mp hk.2 with rfl | rfl
    · exact h1
    · exact h2

/-- An element above its lesser child is swapped with it. -/
lemma HeapOrder.Down.swap {c : ℕ} (h : HeapOrder.Down f i) (hc : c = 2 * i + 1 ∨ c = 2 * i + 2)
    (hlt : f c < f i) (h1 : f c ≤ f (2 * i + 1)) (h2 : f c ≤ f (2 * i + 2)) :
    HeapOrder.Down (f ∘ Equiv.swap i c) c := by
  have hc0 : c ≠ 0 := by omega
  have hpc : parent c = i := (parent_eq_iff hc0).mpr hc
  have hic : i < c := by omega
  have hchild : ∀ k, k ≠ i → parent k = i → f c ≤ f k := by
    intro k hk hpk
    have hk0 : k ≠ 0 := by
      rintro rfl
      exact hk hpk
    rcases (parent_eq_iff hk0).mp hpk with rfl | rfl
    · exact h1
    · exact h2
  refine ⟨fun k hk => ?_, fun _ k hk hpk => ?_⟩
  · simp only [Function.comp_apply]
    by_cases hkc : k = c
    · -- the edge that was out of order
      rw [hkc, hpc, Equiv.swap_apply_left, Equiv.swap_apply_right]
      exact hlt.le
    · have hpk : parent k ≠ c := hk.resolve_left hkc
      by_cases hki : k = i
      · subst hki
        rw [Equiv.swap_apply_left]
        by_cases hk0 : k = 0
        · rw [hk0] at hpk ⊢
          rw [show parent 0 = 0 from rfl, Equiv.swap_apply_left]
        · have hpar := parent_lt hk0
          rw [Equiv.swap_apply_of_ne_of_ne hpar.ne hpk]
          exact h.across hk0 c (fun he => hkc he.symm) hpc
      · rw [Equiv.swap_apply_of_ne_of_ne hki hkc]
        by_cases hpi : parent k = i
        · -- the other child
          rw [hpi, Equiv.swap_apply_left]
          exact hchild k hki hpi
        · rw [Equiv.swap_apply_of_ne_of_ne hpi hpk]
          exact h.edges k (.inr hpi)
  · simp only [Function.comp_apply]
    have hk0 : k ≠ 0 := by
      rintro rfl
      exact hk hpk
    have hkc := parent_lt hk0
    rw [hpk] at hkc
    rw [hpc, Equiv.swap_apply_left, Equiv.swap_apply_of_ne_of_ne (by omega) hk]
    have hedge := h.edges k (.inr (by omega))
    rwa [hpk] at hedge

end Order

/-! ## Heaps in an array -/

namespace Heap

variable {α κ : Type*} (key : α → κ)

/-- The keys of an array, `⊤` past its end. -/
def keys (a : Array α) (k : ℕ) : WithTop κ := a[k]?.elim ⊤ fun x => (key x : WithTop κ)

section Keys

variable {key} {a : Array α} {i j : ℕ}

lemma keys_of_lt (h : i < a.size) : keys key a i = (key a[i] : WithTop κ) := by
  rw [keys, Array.getElem?_eq_getElem h, Option.elim_some]

lemma keys_of_ge (h : a.size ≤ i) : keys key a i = ⊤ := by
  rw [keys, Array.getElem?_eq_none h, Option.elim_none]

lemma keys_push (a : Array α) (x : α) (k : ℕ) :
    keys key (a.push x) k = if k = a.size then (key x : WithTop κ) else keys key a k := by
  rw [keys, Array.getElem?_push]
  split_ifs <;> rfl

lemma keys_pop (a : Array α) (k : ℕ) :
    keys key a.pop k = if k < a.size - 1 then keys key a k else ⊤ := by
  rw [keys, Array.getElem?_pop]
  split_ifs <;> rfl

lemma keys_swap (hi : i < a.size) (hj : j < a.size) :
    keys key (a.swapIfInBounds i j) = keys key a ∘ Equiv.swap i j := by
  funext k
  simp only [Function.comp_apply]
  rw [Array.swapIfInBounds, dif_pos hi, dif_pos hj, keys, Array.getElem?_swap]
  by_cases hkj : j = k
  · subst hkj
    rw [if_pos rfl, Equiv.swap_apply_right, keys_of_lt hi]
    rfl
  · rw [if_neg hkj]
    by_cases hki : i = k
    · subst hki
      rw [if_pos rfl, Equiv.swap_apply_left, keys_of_lt hj]
      rfl
    · rw [if_neg hki, Equiv.swap_apply_of_ne_of_ne (Ne.symm hki) (Ne.symm hkj)]
      rfl

lemma swap_perm (hi : i < a.size) (hj : j < a.size) :
    (a.swapIfInBounds i j).toList.Perm a.toList := by
  rw [Array.swapIfInBounds, dif_pos hi, dif_pos hj]
  exact (Array.swap_perm hi hj).toList

end Keys

variable [LinearOrder κ]

/-- The array is a heap. -/
def IsHeap (a : Array α) : Prop := HeapOrder (keys key a)

/-- `up`: the element at `j` is moved towards the root; `fuel` bounds the rounds. -/
def siftUp : ℕ → Array α → ℕ → Array α
  | 0, a, _ => a
  | fuel + 1, a, j =>
    if keys key a j < keys key a (parent j) then
      siftUp fuel (a.swapIfInBounds (parent j) j) (parent j)
    else a

/-- `heap.Push`. -/
def push (a : Array α) (x : α) : Array α := siftUp key (a.size + 1) (a.push x) a.size

/-- The lesser child of `i`, the left one if there is none. -/
def lesserChild (a : Array α) (i : ℕ) : ℕ :=
  if keys key a (2 * i + 2) < keys key a (2 * i + 1) then 2 * i + 2 else 2 * i + 1

/-- `down`: the element at `i` is moved away from the root. -/
def siftDown : ℕ → Array α → ℕ → Array α
  | 0, a, _ => a
  | fuel + 1, a, i =>
    let c := lesserChild key a i
    if keys key a c < keys key a i then siftDown fuel (a.swapIfInBounds i c) c else a

/-- `heap.Pop`: the root, and what is left. -/
def pop (a : Array α) : Option (α × Array α) :=
  a[0]?.map fun x => (x, siftDown key a.size (a.swapIfInBounds 0 (a.size - 1)).pop 0)

/-- Pop as long as the root passes a test; `fuel` bounds the rounds. -/
def popWhile (test : α → Bool) : ℕ → Array α → List α × Array α
  | 0, a => ([], a)
  | fuel + 1, a =>
    match pop key a with
    | none => ([], a)
    | some (x, b) =>
      if test x then
        let next := popWhile test fuel b
        (x :: next.1, next.2)
      else ([], a)

variable {a : Array α} {i j : ℕ}

/-! ## Sifting -/

section Sift

variable {key}

/-- A key below another is that of an element. -/
lemma lt_size_of_keys_lt {x : WithTop κ} (h : keys key a i < x) : i < a.size := by
  by_contra hge
  rw [keys_of_ge (Nat.le_of_not_lt hge)] at h
  exact not_top_lt h

/-- Sifting up makes a heap, if there are rounds enough to reach the root. -/
lemma siftUp_heap {fuel : ℕ} (h : HeapOrder.Up (keys key a) j) (hfuel : j < fuel) :
    IsHeap key (siftUp key fuel a j) := by
  induction fuel generalizing a j with
  | zero => exact absurd hfuel (Nat.not_lt_zero j)
  | succ fuel ih =>
      unfold siftUp
      split_ifs with hlt
      · have hj := lt_size_of_keys_lt hlt
        have hp : parent j < a.size := (parent_le j).trans_lt hj
        have hswap := h.swap hlt
        rw [← keys_swap hp hj] at hswap
        have hj0 : j ≠ 0 := by
          rintro rfl
          exact hlt.ne rfl
        have hpj := parent_lt hj0
        exact ih hswap (by omega)
      · exact h.heapOrder (not_lt.mp hlt)

lemma siftUp_perm (fuel : ℕ) (a : Array α) (j : ℕ) :
    (siftUp key fuel a j).toList.Perm a.toList := by
  induction fuel generalizing a j with
  | zero => exact List.Perm.refl _
  | succ fuel ih =>
      unfold siftUp
      split_ifs with hlt
      · have hj := lt_size_of_keys_lt hlt
        exact (ih _ _).trans (swap_perm ((parent_le j).trans_lt hj) hj)
      · exact List.Perm.refl _

variable (key) in
lemma lesserChild_cases (a : Array α) (i : ℕ) :
    lesserChild key a i = 2 * i + 1 ∨ lesserChild key a i = 2 * i + 2 := by
  unfold lesserChild
  split_ifs
  · exact .inr rfl
  · exact .inl rfl

variable (key) in
lemma keys_lesserChild_le (a : Array α) (i : ℕ) :
    keys key a (lesserChild key a i) ≤ keys key a (2 * i + 1) ∧
      keys key a (lesserChild key a i) ≤ keys key a (2 * i + 2) := by
  unfold lesserChild
  split_ifs with h
  · exact ⟨h.le, le_rfl⟩
  · exact ⟨le_rfl, not_lt.mp h⟩

/-- Sifting down makes a heap, if there are rounds enough to reach the end. -/
lemma siftDown_heap {fuel : ℕ} (h : HeapOrder.Down (keys key a) i) (hfuel : a.size ≤ i + fuel) :
    IsHeap key (siftDown key fuel a i) := by
  induction fuel generalizing a i with
  | zero =>
      rw [siftDown]
      refine h.heapOrder ?_ ?_
      · rw [keys_of_ge (i := 2 * i + 1) (by omega)]
        exact le_top
      · rw [keys_of_ge (i := 2 * i + 2) (by omega)]
        exact le_top
  | succ fuel ih =>
      obtain ⟨h1, h2⟩ := keys_lesserChild_le key a i
      unfold siftDown
      dsimp only
      split_ifs with hlt
      · have hc := lt_size_of_keys_lt hlt
        have hcases := lesserChild_cases key a i
        have hi : i < a.size := by omega
        have hswap := h.swap hcases hlt h1 h2
        rw [← keys_swap hi hc] at hswap
        refine ih hswap ?_
        rw [Array.size_swapIfInBounds]
        omega
      · have hle := not_lt.mp hlt
        exact h.heapOrder (hle.trans h1) (hle.trans h2)

lemma siftDown_perm (fuel : ℕ) (a : Array α) (i : ℕ) :
    (siftDown key fuel a i).toList.Perm a.toList := by
  induction fuel generalizing a i with
  | zero => exact List.Perm.refl _
  | succ fuel ih =>
      unfold siftDown
      dsimp only
      split_ifs with hlt
      · have hc := lt_size_of_keys_lt hlt
        have hcases := lesserChild_cases key a i
        exact (ih _ _).trans (swap_perm (by omega) hc)
      · exact List.Perm.refl _

end Sift

/-! ## The operations -/

section Operations

variable {key}

lemma isHeap_empty : IsHeap key #[] := by
  intro k
  exact le_top

/-- Pushing keeps a heap. -/
lemma push_heap (h : IsHeap key a) (x : α) : IsHeap key (push key a x) := by
  refine siftUp_heap ⟨fun k hk => ?_, fun k hk hp => ?_⟩ (Nat.lt_succ_self _)
  · rw [keys_push, keys_push, if_neg hk]
    split_ifs with hp
    · -- the new element has no children
      have hle := parent_le k
      rw [keys_of_ge (i := k) (by omega)]
      exact le_top
    · exact h k
  · have hle := parent_le k
    rw [keys_push _ _ k, if_neg hk, keys_of_ge (i := k) (by omega)]
    exact le_top

variable (key) in
lemma push_perm (a : Array α) (x : α) : (push key a x).toList.Perm (x :: a.toList) := by
  refine (siftUp_perm _ _ _).trans ?_
  rw [Array.toList_push]
  exact List.perm_append_singleton x a.toList

lemma pop_eq_none : pop key a = none ↔ a = #[] := by
  rw [pop, Option.map_eq_none_iff, Array.getElem?_eq_none_iff, Nat.le_zero, Array.size_eq_zero_iff]

/-- The root goes to the end and is cut off. -/
lemma perm_swap_pop (h0 : 0 < a.size) :
    a.toList.Perm (a[0] :: (a.swapIfInBounds 0 (a.size - 1)).pop.toList) := by
  have hlast : a.size - 1 < a.size := by omega
  have hperm := (swap_perm h0 hlast).symm
  generalize hb : a.swapIfInBounds 0 (a.size - 1) = b at hperm ⊢
  have hsize : b.size = a.size := by rw [← hb, Array.size_swapIfInBounds]
  have hne : b.toList ≠ [] := by
    rw [Ne, ← List.length_eq_zero_iff, Array.length_toList]
    omega
  have hback : b.toList.getLast hne = a[0] := by
    have hget := List.getLast_eq_getElem hne
    simp only [Array.length_toList, hsize, Array.getElem_toList] at hget
    rw [hget]
    subst hb
    exact Array.getElem_swapIfInBounds_right h0 _
  refine hperm.trans ?_
  rw [Array.toList_pop, ← hback]
  conv_lhs => rw [← List.dropLast_append_getLast hne]
  exact List.perm_append_singleton _ _

/-- The root is least. -/
lemma root_least (h : IsHeap key a) {x : α} (hx : a[0]? = some x) :
    ∀ y ∈ a.toList, key x ≤ key y := by
  obtain ⟨h0, rfl⟩ := Array.getElem?_eq_some_iff.mp hx
  intro y hy
  obtain ⟨k, hk, rfl⟩ := List.mem_iff_getElem.mp hy
  have hle := h.root_le k
  rw [Array.length_toList] at hk
  rw [keys_of_lt h0, keys_of_lt hk, WithTop.coe_le_coe] at hle
  simpa using hle

/-- What is taken is least, and what is left is a heap of the rest. -/
lemma pop_spec (h : IsHeap key a) {x : α} {b : Array α} (hpop : pop key a = some (x, b)) :
    IsHeap key b ∧ a.toList.Perm (x :: b.toList) ∧ ∀ y ∈ a.toList, key x ≤ key y := by
  obtain ⟨x', hx, heq⟩ := Option.map_eq_some_iff.mp hpop
  obtain ⟨rfl, rfl⟩ := Prod.mk.inj heq
  obtain ⟨h0, rfl⟩ := Array.getElem?_eq_some_iff.mp hx
  have hlast : a.size - 1 < a.size := by omega
  refine ⟨siftDown_heap ⟨fun k hk => ?_, fun hne => absurd rfl hne⟩ (by simp), ?_,
    root_least h hx⟩
  · rw [keys_pop, keys_pop, keys_swap h0 hlast, Array.size_swapIfInBounds]
    by_cases hlt : k < a.size - 1
    · have hle := parent_le k
      rw [if_pos hlt, if_pos (by omega)]
      rcases hk with rfl | hp
      · exact le_rfl
      · have hk0 : k ≠ 0 := by
          rintro rfl
          exact hp rfl
        simp only [Function.comp_apply]
        rw [Equiv.swap_apply_of_ne_of_ne hp (by omega),
          Equiv.swap_apply_of_ne_of_ne hk0 (by omega)]
        exact h k
    · rw [if_neg hlt]
      exact le_top
  · exact (perm_swap_pop h0).trans ((siftDown_perm _ _ _).symm.cons _)

/-- The loop takes elements in order and stops when none that is left passes, for a test that a
smaller key passes as well. -/
lemma popWhile_spec {test : α → Bool}
    (htest : ∀ x y, key x ≤ key y → test y = true → test x = true) {fuel : ℕ}
    (h : IsHeap key a) (hfuel : a.size ≤ fuel) :
    IsHeap key (popWhile key test fuel a).2 ∧
      a.toList.Perm ((popWhile key test fuel a).1 ++ (popWhile key test fuel a).2.toList) ∧
      (popWhile key test fuel a).1.Pairwise (fun x y => key x ≤ key y) ∧
      (∀ x ∈ (popWhile key test fuel a).1, test x = true) ∧
      ∀ x ∈ (popWhile key test fuel a).2.toList, test x = false := by
  induction fuel generalizing a with
  | zero =>
      have hnil : a.toList = [] := by
        rw [← List.length_eq_zero_iff, Array.length_toList]
        exact Nat.le_zero.mp hfuel
      refine ⟨h, List.Perm.refl _, List.Pairwise.nil, by simp [popWhile], fun x hx => ?_⟩
      rw [popWhile, hnil] at hx
      exact absurd hx List.not_mem_nil
  | succ fuel ih =>
      unfold popWhile
      split
      · next hpop =>
          obtain rfl := pop_eq_none.mp hpop
          simpa using h
      · next x b hpop =>
          obtain ⟨hb, hperm, hleast⟩ := pop_spec h hpop
          split_ifs with hx
          · have hsize := hperm.length_eq
            rw [List.length_cons, Array.length_toList, Array.length_toList] at hsize
            obtain ⟨hheap, hrest, hsorted, htaken, hleft⟩ := ih hb (by omega)
            refine ⟨hheap, hperm.trans (hrest.cons x), ?_, ?_, hleft⟩
            · refine List.pairwise_cons.mpr ⟨fun y hy => hleast y ?_, hsorted⟩
              refine hperm.mem_iff.mpr (List.mem_cons_of_mem _ (hrest.mem_iff.mpr ?_))
              exact List.mem_append_left _ hy
            · intro y hy
              rcases List.mem_cons.mp hy with rfl | hy
              · exact hx
              · exact htaken y hy
          · -- the root is least: if it fails the test, so does everything else
            refine ⟨h, List.Perm.refl _, List.Pairwise.nil, by simp, fun y hy => ?_⟩
            rw [← Bool.not_eq_true]
            exact fun hyes => hx (htest x y (hleast y hy) hyes)

end Operations

end Heap

end RudpScheduler
