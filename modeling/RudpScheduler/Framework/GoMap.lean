import Mathlib

/-!
# Go maps

A Go map is a finite partial function whose `range` loop visits every key once, in an order
the language leaves open.  `GoMap` is Mathlib's `Finmap` at a constant family, so two maps are
equal as soon as their lookups are; `RangeOrder` is the open order, a chooser that enumerates
any finite set of keys without repetition.  A model that ranges over a map takes a
`RangeOrder` as an argument, and its theorems quantify over it.

The lemmas below put `lookup` after `insert` and `erase` in one `if` form, which is the shape
a `split` or `grind` wants, invert it (`of_lookup_insert`, `of_lookup_erase`), and give `len` after
each of the two.
-/

namespace RudpScheduler

/-- A Go `map[K]V`. -/
abbrev GoMap (K V : Type*) := Finmap (fun _ : K => V)

namespace GoMap

variable {K V : Type*} [DecidableEq K]

/-- `len(m)`. -/
def len (m : GoMap K V) : ℕ := m.keys.card

@[grind =]
lemma lookup_insert_ite (m : GoMap K V) (k k' : K) (v : V) :
    (Finmap.insert k v m).lookup k' = if k' = k then some v else m.lookup k' := by
  split_ifs with h
  · rw [h, Finmap.lookup_insert]
  · exact Finmap.lookup_insert_of_ne m h

@[grind =]
lemma lookup_erase_ite (m : GoMap K V) (k k' : K) :
    (m.erase k).lookup k' = if k' = k then none else m.lookup k' := by
  split_ifs with h
  · rw [h, Finmap.lookup_erase]
  · exact Finmap.lookup_erase_ne h

/-- An entry after an assignment is the one assigned or an old one. -/
lemma of_lookup_insert {m : GoMap K V} {k k' : K} {v v' : V}
    (h : (Finmap.insert k v m).lookup k' = some v') :
    k' = k ∧ v' = v ∨ k' ≠ k ∧ m.lookup k' = some v' := by
  rw [lookup_insert_ite] at h
  split_ifs at h with he
  · exact .inl ⟨he, (Option.some_inj.mp h).symm⟩
  · exact .inr ⟨he, h⟩

/-- An entry after a deletion was there before. -/
lemma of_lookup_erase {m : GoMap K V} {k k' : K} {v : V} (h : (m.erase k).lookup k' = some v) :
    k' ≠ k ∧ m.lookup k' = some v := by
  rw [lookup_erase_ite] at h
  split_ifs at h with he
  exact ⟨he, h⟩

/-- An entry is still there after an assignment, or has been assigned to. -/
lemma exists_lookup_insert {P : V → Prop} {m : GoMap K V} {k k' : K} {v v' : V}
    (h : m.lookup k' = some v') (hold : P v') (hnew : k' = k → P v) :
    ∃ u, (Finmap.insert k v m).lookup k' = some u ∧ P u := by
  rw [lookup_insert_ite]
  split_ifs with he
  · exact ⟨v, rfl, hnew he⟩
  · exact ⟨v', h, hold⟩

/-- What holds of every entry still does after an assignment that keeps to it. -/
lemma forall_insert {P : K → V → Prop} {m : GoMap K V}
    (hm : ∀ k v, m.lookup k = some v → P k v) {k : K} {v : V} (hv : P k v) :
    ∀ k' v', (Finmap.insert k v m).lookup k' = some v' → P k' v' := by
  intro k' v' h
  obtain ⟨rfl, rfl⟩ | ⟨-, h⟩ := of_lookup_insert h
  · exact hv
  · exact hm k' v' h

/-- What holds of every entry still does after a deletion. -/
lemma forall_erase {P : K → V → Prop} {m : GoMap K V}
    (hm : ∀ k v, m.lookup k = some v → P k v) (k : K) :
    ∀ k' v', (m.erase k).lookup k' = some v' → P k' v' :=
  fun k' v' h => hm k' v' (of_lookup_erase h).2

/-- Entries that are told apart by `f` still are after an assignment that clashes with no other
entry. -/
lemma inj_insert {β : Type*} {f : V → β} {m : GoMap K V}
    (hm : ∀ k v k' v', m.lookup k = some v → m.lookup k' = some v' → f v = f v' → k = k')
    {k : K} {v : V} (hv : ∀ k' v', m.lookup k' = some v' → f v' = f v → k' = k) :
    ∀ k₁ v₁ k₂ v₂, (Finmap.insert k v m).lookup k₁ = some v₁ →
      (Finmap.insert k v m).lookup k₂ = some v₂ → f v₁ = f v₂ → k₁ = k₂ := by
  intro k₁ v₁ k₂ v₂ h₁ h₂ hf
  obtain ⟨rfl, rfl⟩ | ⟨-, hold₁⟩ := of_lookup_insert h₁
  · obtain ⟨rfl, rfl⟩ | ⟨-, hold₂⟩ := of_lookup_insert h₂
    · rfl
    · exact (hv k₂ v₂ hold₂ hf.symm).symm
  · obtain ⟨rfl, rfl⟩ | ⟨-, hold₂⟩ := of_lookup_insert h₂
    · exact hv k₁ v₁ hold₁ hf
    · exact hm k₁ v₁ k₂ v₂ hold₁ hold₂ hf

lemma mem_iff_lookup_ne_none (m : GoMap K V) (k : K) : k ∈ m ↔ m.lookup k ≠ none := by
  rw [Ne, Finmap.lookup_eq_none, not_not]

lemma len_eq_zero_iff (m : GoMap K V) : m.len = 0 ↔ ∀ k, m.lookup k = none := by
  simp only [len, Finset.card_eq_zero, Finset.eq_empty_iff_forall_notMem, Finmap.mem_keys,
    Finmap.lookup_eq_none]

lemma keys_insert (m : GoMap K V) (k : K) (v : V) :
    (Finmap.insert k v m).keys = insert k m.keys := by
  ext k'
  rw [Finset.mem_insert, Finmap.mem_keys, Finmap.mem_insert, Finmap.mem_keys]

lemma len_insert_of_lookup_none {m : GoMap K V} {k : K} (h : m.lookup k = none) (v : V) :
    GoMap.len (Finmap.insert k v m) = m.len + 1 := by
  rw [len, keys_insert, Finset.card_insert_of_notMem, len]
  rwa [Finmap.mem_keys, ← Finmap.lookup_eq_none]

lemma len_insert_of_lookup_some {m : GoMap K V} {k : K} {w : V} (h : m.lookup k = some w)
    (v : V) : GoMap.len (Finmap.insert k v m) = m.len := by
  rw [len, keys_insert, Finset.insert_eq_of_mem, len]
  exact Finmap.mem_keys.mpr (Finmap.mem_of_lookup_eq_some h)

lemma len_erase_of_lookup_some {m : GoMap K V} {k : K} {w : V} (h : m.lookup k = some w) :
    GoMap.len (m.erase k) + 1 = m.len := by
  have hk : k ∈ m.keys := Finmap.mem_keys.mpr (Finmap.mem_of_lookup_eq_some h)
  rw [len, Finmap.keys_erase, Finset.card_erase_of_mem hk, len]
  exact Nat.sub_add_cancel (Finset.card_pos.mpr ⟨k, hk⟩)

lemma len_erase_le (m : GoMap K V) (k : K) : GoMap.len (m.erase k) ≤ m.len := by
  rw [len, Finmap.keys_erase, len]
  exact Finset.card_erase_le

/-- A map is no larger than another one if its keys can be told apart by keys of the other. -/
lemma len_le_len {K' V' : Type*} [DecidableEq K'] {m : GoMap K V} {m' : GoMap K' V'}
    (R : K → K' → Prop) (h : ∀ k, m.lookup k ≠ none → ∃ k', m'.lookup k' ≠ none ∧ R k k')
    (hinj : ∀ k₁ k₂ k', R k₁ k' → R k₂ k' → k₁ = k₂) : m.len ≤ m'.len := by
  refine Finset.card_le_card_of_forall_subsingleton R (fun k hk => ?_) fun k' _ => ?_
  · obtain ⟨k', hk', hR⟩ := h k ((mem_iff_lookup_ne_none m k).mp (Finmap.mem_keys.mp hk))
    exact ⟨k', Finmap.mem_keys.mpr ((mem_iff_lookup_ne_none m' k').mpr hk'), hR⟩
  · rintro k₁ ⟨-, h₁⟩ k₂ ⟨-, h₂⟩
    exact hinj k₁ k₂ k' h₁ h₂

end GoMap

/-! ## Range loops -/

/-- One order in which a `range` loop may visit the keys of a map: an enumeration of every
finite key set, each key once. -/
structure RangeOrder (K : Type*) [DecidableEq K] where
  /-- The keys in the order the loop visits them. -/
  toList : Finset K → List K
  /-- No key is visited twice. -/
  nodup : ∀ s, (toList s).Nodup
  /-- Exactly the keys present are visited. -/
  mem_toList : ∀ s k, k ∈ toList s ↔ k ∈ s

namespace RangeOrder

open scoped List

variable {K V : Type*} [DecidableEq K]

/-- The visiting order over the keys of `m`. -/
def range (ord : RangeOrder K) (m : GoMap K V) : List K := ord.toList m.keys

lemma range_nodup (ord : RangeOrder K) (m : GoMap K V) : (ord.range m).Nodup :=
  ord.nodup _

lemma mem_range (ord : RangeOrder K) (m : GoMap K V) (k : K) : k ∈ ord.range m ↔ k ∈ m := by
  rw [range, ord.mem_toList, Finmap.mem_keys]

lemma mem_range_iff_lookup (ord : RangeOrder K) (m : GoMap K V) (k : K) :
    k ∈ ord.range m ↔ ∃ v, m.lookup k = some v := by
  rw [ord.mem_range, Finmap.mem_iff]

@[simp] lemma range_empty (ord : RangeOrder K) : ord.range (∅ : GoMap K V) = [] := by
  rw [List.eq_nil_iff_forall_not_mem]
  intro k hk
  exact Finmap.notMem_empty ((ord.mem_range _ k).mp hk)

/-- A loop over distinct keys that appends something for one key only. -/
lemma flatMap_eq_ite {α : Type*} {g : K → List α} {k : K} {l : List K} (hl : l.Nodup)
    (hg : ∀ k' ∈ l, k' ≠ k → g k' = []) : l.flatMap g = if k ∈ l then g k else [] := by
  induction l with
  | nil => rfl
  | cons a l ih =>
      obtain ⟨hnot, hl'⟩ := List.nodup_cons.mp hl
      rw [List.flatMap_cons, ih hl' fun k' hk' => hg k' (List.mem_cons_of_mem _ hk')]
      by_cases he : a = k
      · subst he
        rw [if_neg hnot, List.append_nil, if_pos List.mem_cons_self]
      · rw [hg a List.mem_cons_self he, List.nil_append]
        simp only [List.mem_cons, Ne.symm he, false_or]

/-- In what a loop over distinct keys appends, labelled with the key, the entries of one key are
the ones appended for it. -/
lemma filter_flatMap_key {α : Type*} {g : K → List α} (key : α → K)
    (hg : ∀ k, ∀ a ∈ g k, key a = k) {l : List K} (hl : l.Nodup) (k : K) :
    (l.flatMap g).filter (fun x => key x = k) = if k ∈ l then g k else [] := by
  rw [List.filter_flatMap, flatMap_eq_ite (k := k) hl]
  · refine if_congr Iff.rfl (List.filter_eq_self.mpr fun a ha => ?_) rfl
    exact decide_eq_true (hg k a ha)
  · intro k' _ hne
    rw [List.filter_eq_nil_iff]
    intro a ha
    rwa [decide_eq_true_eq, hg k' a ha]

/-- The same for a loop that appends at most one entry per key. -/
lemma filter_filterMap_key {α : Type*} {g : K → Option α} (key : α → K)
    (hg : ∀ k a, g k = some a → key a = k) {l : List K} (hl : l.Nodup) (k : K) :
    (l.filterMap g).filter (fun x => key x = k) = if k ∈ l then (g k).toList else [] := by
  rw [List.filterMap_eq_flatMap_toList]
  exact filter_flatMap_key key (fun k' a ha => hg k' a (Option.mem_toList.mp ha)) hl k

/-- The keys in ascending order of a numbering, the order used where a concrete run is
evaluated. -/
def ascending (f : K → ℕ) (hf : Function.Injective f) : RangeOrder K where
  toList s := Quot.lift (fun l => l.insertionSort fun a b => f a ≤ f b)
    (fun a b h => by
      have hp : a.insertionSort (fun a b => f a ≤ f b) ~ b.insertionSort (fun a b => f a ≤ f b) :=
        (List.perm_insertionSort _ a).trans (h.trans (List.perm_insertionSort _ b).symm)
      have : Std.Total fun a b : K => f a ≤ f b := ⟨fun a b => le_total (f a) (f b)⟩
      have : IsTrans K fun a b => f a ≤ f b := ⟨fun _ _ _ => le_trans⟩
      exact hp.eq_of_pairwise (fun x y _ _ h1 h2 => hf (le_antisymm h1 h2))
        (List.pairwise_insertionSort _ a) (List.pairwise_insertionSort _ b)) s.val
  nodup s := by
    obtain ⟨⟨l⟩, hl⟩ := s
    exact (List.perm_insertionSort (fun a b => f a ≤ f b) l).nodup_iff.mpr hl
  mem_toList s k := by
    obtain ⟨⟨l⟩, hl⟩ := s
    exact List.mem_insertionSort fun a b => f a ≤ f b

end RangeOrder

end RudpScheduler
