import RudpScheduler.Framework.GoMap

/-!
# A register of owners that publish cumulative counters

An owner publishes snapshots of its counters, each of which takes the place of the one before.  The
register keeps the latest snapshot of every owner that is there, and one running total of those that
are gone: an owner is retired into the total when it publishes its final snapshot, or when a sweep
finds its latest snapshot stale.

`History` is what has been published: the latest snapshot of every owner seen, and the owners whose
latest snapshot a sweep has found stale.  The main result is `Agrees.foldl`: as long as no owner
publishes again after it was retired, the total and the entries together account for the latest
snapshot of every owner, once.
-/

namespace RudpScheduler

namespace GoMap

variable {K V M : Type*} [DecidableEq K] [AddCommMonoid M]

/-- The sum of `f` over the values of a map. -/
def total (f : V → M) (m : GoMap K V) : M := ∑ k ∈ m.keys, (m.lookup k).elim 0 f

@[simp] lemma total_empty (f : V → M) : total f (∅ : GoMap K V) = 0 := rfl

lemma total_erase (f : V → M) (m : GoMap K V) (k : K) :
    total f m = (m.lookup k).elim 0 f + total f (m.erase k) := by
  have hrest : total f (m.erase k) = ∑ k' ∈ m.keys.erase k, (m.lookup k').elim 0 f := by
    rw [total, Finmap.keys_erase]
    refine Finset.sum_congr rfl fun k' hk' => ?_
    rw [Finmap.lookup_erase_ne (Finset.ne_of_mem_erase hk')]
  rw [hrest, total]
  by_cases hk : k ∈ m.keys
  · exact (Finset.add_sum_erase _ _ hk).symm
  · have hnone : m.lookup k = none := Finmap.lookup_eq_none.mpr fun h => hk (Finmap.mem_keys.mpr h)
    rw [hnone, Finset.erase_eq_of_notMem hk, Option.elim_none, zero_add]

lemma total_insert (f : V → M) (m : GoMap K V) (k : K) (v : V) :
    total f (Finmap.insert k v m) = f v + total f (m.erase k) := by
  have herase : (Finmap.insert k v m).erase k = m.erase k := by
    refine Finmap.ext_lookup fun k' => ?_
    rw [lookup_erase_ite, lookup_erase_ite, lookup_insert_ite]
    split_ifs <;> rfl
  rw [total_erase f _ k, Finmap.lookup_insert, herase, Option.elim_some]

/-- A `range` loop over a map adds up to the total. -/
lemma sum_range (f : V → M) (m : GoMap K V) (ord : RangeOrder K) :
    (((ord.range m).filterMap m.lookup).map f).sum = total f m := by
  have hkeys : (ord.range m).toFinset = m.keys := by
    ext k
    rw [List.mem_toFinset, RangeOrder.range, ord.mem_toList]
  have hsum : ∀ l : List K, ((l.filterMap m.lookup).map f).sum =
      (l.map fun k => (m.lookup k).elim 0 f).sum := by
    intro l
    induction l with
    | nil => rfl
    | cons k l ih =>
        rw [List.map_cons, List.sum_cons, ← ih]
        cases hk : m.lookup k with
        | none => simp only [List.filterMap_cons, hk, Option.elim_none, zero_add]
        | some v =>
            simp only [List.filterMap_cons, hk, List.map_cons, List.sum_cons, Option.elim_some]
  rw [hsum, total, ← hkeys, List.sum_toFinset _ (ord.range_nodup m)]

end GoMap

/-- How snapshots are read: whose they are, whether they are an owner's last, and what they add to
the total. -/
structure Owners (K S T : Type) where
  key : S → K
  final : S → Bool
  add : T → S → T

/-- The latest snapshot of every owner that is there, with the time it came, and the total of those
that are gone. -/
structure Register (K S T τ : Type) where
  live : GoMap K (S × τ)
  gone : T

namespace Register

variable {K S T τ : Type} [DecidableEq K]

inductive Event (K S τ : Type) [DecidableEq K]
  | publish (s : S) (now : τ)
  /-- Every owner whose latest snapshot is stale is retired. -/
  | sweep (ord : RangeOrder K) (stale : τ → Bool)

section Steps

variable (o : Owners K S T) (r : Register K S T τ)

def retire (k : K) (s : S) : Register K S T τ := ⟨r.live.erase k, o.add r.gone s⟩

def publish (s : S) (now : τ) : Register K S T τ :=
  if o.final s then r.retire o (o.key s) s
  else { r with live := r.live.insert (o.key s) (s, now) }

/-- One round of a sweep. -/
def sweepOne (stale : τ → Bool) (r : Register K S T τ) (k : K) : Register K S T τ :=
  match r.live.lookup k with
  | some (s, seen) => if stale seen then r.retire o k s else r
  | none => r

def sweep (ord : RangeOrder K) (stale : τ → Bool) : Register K S T τ :=
  (ord.range r.live).foldl (sweepOne o stale) r

def step : Event K S τ → Register K S T τ
  | .publish s now => r.publish o s now
  | .sweep ord stale => r.sweep o ord stale

end Steps

/-! ## What has been published -/

/-- The latest snapshot of every owner seen, with the time it came, and the owners whose latest
snapshot a sweep has found stale. -/
structure History (K S τ : Type) where
  latest : GoMap K (S × τ)
  overdue : K → Bool

namespace History

def empty : History K S τ := ⟨∅, fun _ => false⟩

def step (o : Owners K S T) (h : History K S τ) : Event K S τ → History K S τ
  | .publish s now => { h with latest := h.latest.insert (o.key s) (s, now) }
  | .sweep _ stale =>
    { h with overdue := fun k => h.overdue k || (h.latest.lookup k).any fun x => stale x.2 }

/-- A check of every event against what has been published before it. -/
def obeys (o : Owners K S T) (ok : History K S τ → Event K S τ → Bool) :
    History K S τ → List (Event K S τ) → Bool
  | _, [] => true
  | h, e :: es => ok h e && obeys o ok (h.step o e) es

/-- No owner publishes after its final snapshot. -/
def finalIsLast (o : Owners K S T) (h : History K S τ) : Event K S τ → Bool
  | .publish s _ => (h.latest.lookup (o.key s)).all fun x => !o.final x.1
  | .sweep _ _ => true

/-- No owner publishes after a sweep has found its latest snapshot stale. -/
def timely (o : Owners K S T) (h : History K S τ) : Event K S τ → Bool
  | .publish s _ => !h.overdue (o.key s)
  | .sweep _ _ => true

/-- The counters an owner publishes are related to the ones before by `le`. -/
def grows (o : Owners K S T) (le : S → S → Bool) (h : History K S τ) : Event K S τ → Bool
  | .publish s _ => (h.latest.lookup (o.key s)).all fun x => le x.1 s
  | .sweep _ _ => true

end History

/-! ## Nothing lost and nothing counted twice -/

variable {o : Owners K S T} {r : Register K S T τ} {h : History K S τ}

/-- The entries are latest snapshots, and an owner without one was retired for a reason. -/
structure Agrees (o : Owners K S T) (r : Register K S T τ) (h : History K S τ) : Prop where
  live : ∀ k x, r.live.lookup k = some x → h.latest.lookup k = some x
  retired : ∀ k x, h.latest.lookup k = some x → r.live.lookup k = none →
    o.final x.1 = true ∨ h.overdue k = true

/-- The total and the entries account for the latest snapshots: `f` reads a counter of a snapshot,
and `F` the same counter of the total. -/
def Balanced {M : Type} [AddCommGroup M] (f : S → M) (F : T → M) (r : Register K S T τ)
    (h : History K S τ) : Prop :=
  F r.gone + GoMap.total (fun x => f x.1) r.live = GoMap.total (fun x => f x.1) h.latest

/-- An owner that may publish is either new or there. -/
lemma Agrees.lookup_eq (ha : Agrees o r h) {s : S} {now : τ}
    (hfinal : h.finalIsLast o (.publish s now) = true)
    (htimely : h.timely o (.publish s now) = true) :
    r.live.lookup (o.key s) = h.latest.lookup (o.key s) := by
  cases hl : r.live.lookup (o.key s) with
  | some x => exact (ha.live _ x hl).symm
  | none =>
      cases hx : h.latest.lookup (o.key s) with
      | none => rfl
      | some x =>
          simp only [History.finalIsLast, hx, Option.all_some, Bool.not_eq_true'] at hfinal
          simp only [History.timely, Bool.not_eq_true'] at htimely
          rcases ha.retired _ x hx hl with hclosed | hoverdue
          · rw [hfinal] at hclosed
            cases hclosed
          · rw [htimely] at hoverdue
            cases hoverdue

lemma Agrees.publish (ha : Agrees o r h) (s : S) (now : τ) :
    Agrees o (r.publish o s now) (h.step o (.publish s now)) := by
  unfold Register.publish
  split_ifs with hs
  · refine ⟨fun k x hx => ?_, fun k x hx hnone => ?_⟩
    · obtain ⟨hk, hx⟩ := GoMap.of_lookup_erase hx
      exact (GoMap.lookup_insert_ite _ _ _ _).trans ((if_neg hk).trans (ha.live k x hx))
    · dsimp only [History.step, retire] at hx hnone
      rw [GoMap.lookup_insert_ite] at hx
      rw [GoMap.lookup_erase_ite] at hnone
      split_ifs at hx hnone
      · rw [← Option.some_inj.mp hx]
        exact .inl hs
      · exact ha.retired k x hx hnone
  · refine ⟨fun k x hx => ?_, fun k x hx hnone => ?_⟩
    · dsimp only [History.step] at hx ⊢
      rw [GoMap.lookup_insert_ite] at hx ⊢
      split_ifs at hx ⊢
      · exact hx
      · exact ha.live k x hx
    · dsimp only [History.step] at hx hnone
      rw [GoMap.lookup_insert_ite] at hx hnone
      split_ifs at hx hnone
      exact ha.retired k x hx hnone

section Counters

variable {M : Type} [AddCommGroup M] {f : S → M} {F : T → M}

lemma Balanced.publish (hb : Balanced f F r h) (ha : Agrees o r h)
    (hF : ∀ t s, F (o.add t s) = F t + f s) {s : S} {now : τ}
    (hfinal : h.finalIsLast o (.publish s now) = true)
    (htimely : h.timely o (.publish s now) = true) :
    Balanced f F (r.publish o s now) (h.step o (.publish s now)) := by
  have hlookup := ha.lookup_eq hfinal htimely
  -- apart from this owner, the total and the entries account for the latest snapshots
  have hrest : F r.gone + GoMap.total (fun x => f x.1) (r.live.erase (o.key s)) =
      GoMap.total (fun x => f x.1) (h.latest.erase (o.key s)) := by
    have hall := hb
    rw [Balanced, GoMap.total_erase _ r.live (o.key s), GoMap.total_erase _ h.latest (o.key s),
      hlookup, add_left_comm] at hall
    exact add_left_cancel hall
  have hnew : GoMap.total (fun x => f x.1) (h.step o (.publish s now)).latest =
      f s + GoMap.total (fun x => f x.1) (h.latest.erase (o.key s)) := GoMap.total_insert _ _ _ _
  rw [Balanced, hnew, ← hrest, ← add_assoc, add_comm (f s)]
  unfold Register.publish
  split_ifs with hs
  · rw [retire, hF]
  · rw [GoMap.total_insert, add_assoc]

/-- One round of a sweep moves a stale entry into the total. -/
lemma sweepOne_keeps {stale : τ → Bool} (hF : ∀ t s, F (o.add t s) = F t + f s)
    (hstale : ∀ k x, h.latest.lookup k = some x → stale x.2 = true → h.overdue k = true)
    (ha : Agrees o r h) (hb : Balanced f F r h) (k : K) :
    Agrees o (sweepOne o stale r k) h ∧ Balanced f F (sweepOne o stale r k) h := by
  unfold sweepOne
  split
  · rename_i s seen hk
    split_ifs with hs
    · refine ⟨⟨fun k' x hx => ?_, fun k' x hx hnone => ?_⟩, ?_⟩
      · exact ha.live k' x (GoMap.of_lookup_erase hx).2
      · dsimp only [retire] at hnone
        rw [GoMap.lookup_erase_ite] at hnone
        split_ifs at hnone with he
        · rw [he] at hx ⊢
          have hx' := ha.live k _ hk
          rw [hx, Option.some_inj] at hx'
          exact .inr (hstale k x hx (by rw [hx']; exact hs))
        · exact ha.retired k' x hx hnone
      · have hall := hb
        rw [Balanced, GoMap.total_erase _ r.live k, hk, Option.elim_some, ← add_assoc] at hall
        rw [Balanced, retire, hF]
        exact hall
    · exact ⟨ha, hb⟩
  · exact ⟨ha, hb⟩

lemma Agrees.step (ha : Agrees o r h) (hb : Balanced f F r h)
    (hF : ∀ t s, F (o.add t s) = F t + f s) {e : Event K S τ} (hfinal : h.finalIsLast o e = true)
    (htimely : h.timely o e = true) :
    Agrees o (r.step o e) (h.step o e) ∧ Balanced f F (r.step o e) (h.step o e) := by
  cases e with
  | publish s now => exact ⟨ha.publish s now, hb.publish ha hF hfinal htimely⟩
  | sweep ord stale =>
      have ha' : Agrees o r (h.step o (.sweep ord stale)) := by
        refine ⟨ha.live, fun k x hx hnone => (ha.retired k x hx hnone).imp_right fun hk => ?_⟩
        simp only [History.step, hk, Bool.true_or]
      have hstale : ∀ k x, (h.step o (.sweep ord stale)).latest.lookup k = some x →
          stale x.2 = true → (h.step o (.sweep ord stale)).overdue k = true := by
        intro k x hx hs
        have hx' : h.latest.lookup k = some x := hx
        simp only [History.step, hx', Option.any_some, hs, Bool.or_true]
      exact (ord.range r.live).foldlRecOn (motive := fun r' =>
        Agrees o r' (h.step o (.sweep ord stale)) ∧ Balanced f F r' (h.step o (.sweep ord stale))) _
        ⟨ha', hb⟩ fun r' hr' k _ => sweepOne_keeps hF hstale hr'.1 hr'.2 k

/-- As long as nobody publishes after it was retired, the total and the entries account for the
latest snapshot of every owner, once. -/
lemma Agrees.foldl (ha : Agrees o r h) (hb : Balanced f F r h)
    (hF : ∀ t s, F (o.add t s) = F t + f s) {es : List (Event K S τ)}
    (hfinal : h.obeys o (History.finalIsLast o) es = true)
    (htimely : h.obeys o (History.timely o) es = true) :
    Agrees o (es.foldl (Register.step o) r) (es.foldl (History.step o) h) ∧
      Balanced f F (es.foldl (Register.step o) r) (es.foldl (History.step o) h) := by
  induction es generalizing r h with
  | nil => exact ⟨ha, hb⟩
  | cons e es ih =>
      simp only [History.obeys, Bool.and_eq_true] at hfinal htimely
      obtain ⟨ha', hb'⟩ := ha.step hb hF hfinal.1 htimely.1
      exact ih ha' hb' hfinal.2 htimely.2

end Counters

end Register

end RudpScheduler
