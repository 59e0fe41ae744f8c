import Mathlib

/-!
# Folds

Three rules for loops.  A function of half-open ranges that turns a cut of a range into `op` of its
two pieces turns a cut into `n` pieces into the fold of `op` over them (`fold_pieces`); nothing is
assumed of the order on the end points beyond what the cuts themselves provide.  Folding an
idempotent, commutative and associative operation over a list depends on the elements of the list
only, not on their order or number (`foldl_eq_fold_toFinset`).  And a relation between the state of
a loop and a list that every round appends to holds after the loop, if every round keeps it
(`foldl_collect`).
-/

namespace RudpScheduler

/-! ## Pieces of a range -/

section Pieces

variable {β M : Type*} [LE β]

/-- The value of a range is the fold of the values of its consecutive pieces. -/
lemma fold_pieces {op : M → M → M} [Std.Commutative op] [Std.Associative op] {e : M}
    {f : β → β → M}
    (hf : ∀ a b c, a ≤ b → b ≤ c → f a c = op (f a b) (f b c)) (b : ℕ → β) (n : ℕ)
    (hb : ∀ i j, i ≤ j → j ≤ n → b i ≤ b j) (h0 : f (b 0) (b 0) = e) :
    f (b 0) (b n) = (Finset.range n).fold op e fun i => f (b i) (b (i + 1)) := by
  induction n with
  | zero => simpa using h0
  | succ n ih =>
      have hcut := hf (b 0) (b n) (b (n + 1)) (hb 0 n (Nat.zero_le n) (Nat.le_succ n))
        (hb n (n + 1) (Nat.le_succ n) le_rfl)
      rw [Finset.range_add_one, Finset.fold_insert Finset.notMem_range_self, hcut,
        ih fun i j hij hj => hb i j hij (Nat.le_succ_of_le hj)]
      exact Std.Commutative.comm _ _

end Pieces

/-! ## Order and repetition -/

/-- A fold of an idempotent operation is a fold over the set of elements. -/
lemma foldl_eq_fold_toFinset {M : Type*} [DecidableEq M] {op : M → M → M} [Std.Commutative op]
    [Std.Associative op] [Std.IdempotentOp op] (e : M) (l : List M) :
    l.foldl op e = l.toFinset.fold op e id := by
  induction l using List.reverseRecOn with
  | nil => rfl
  | append_singleton l a ih =>
      have hset : (l ++ [a]).toFinset = insert a l.toFinset := by
        ext x
        simp
      rw [List.foldl_append, List.foldl_cons, List.foldl_nil, ih, hset, Finset.fold_insert_idem, id]
      exact Std.Commutative.comm _ _

/-! ## What a loop collects -/

section Collect

variable {σ α β : Type*}

/-- What the rounds of the loop `as.foldl step s` collect, where `f` gives what one round
collects from the state before it. -/
def collect (step : σ → α → σ) (f : σ → α → List β) : σ → List α → List β
  | _, [] => []
  | s, a :: as => f s a ++ collect step f (step s a) as

/-- The invariant rule for a loop and what it collects. -/
lemma foldl_collect {step : σ → α → σ} {f : σ → α → List β} {P : σ → List β → Prop}
    (hstep : ∀ s l a, P s l → P (step s a) (l ++ f s a)) (as : List α) {s : σ} {l : List β}
    (h : P s l) : P (as.foldl step s) (l ++ collect step f s as) := by
  induction as generalizing s l with
  | nil => simpa [collect] using h
  | cons a as ih =>
      rw [collect, ← List.append_assoc]
      exact ih (hstep s l a h)

end Collect

end RudpScheduler
