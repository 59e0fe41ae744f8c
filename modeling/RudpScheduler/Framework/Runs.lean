import Mathlib

/-!
# Runs of a partial step function

A system is a step function `σ → α → Option σ`: `none` says the action is not enabled in the
state.  A run performs a list of actions in order.  The rules are the ones every safety
argument in this development uses: what a step preserves, a run preserves (`run_invariant`);
the same when every step of the run meets a side condition (`run_invariant_along`), when the
invariant speaks of something counted along the run (`run_tally`), or both (`run_tally_along`), or
of the actions so far (`run_history`);
a run is no longer than a measure that every step lowers (`run_length_le`, with an invariant
`run_length_le_along`); and what holds at the
end of every run holds in the middle of one, because a run can be cut anywhere (`run_append`).
-/

namespace RudpScheduler

variable {σ α : Type*}

/-- The state reached from `s` by the actions `as`, or `none` when one of them was not
enabled. -/
def run (step : σ → α → Option σ) : σ → List α → Option σ
  | s, [] => some s
  | s, a :: as => (step s a).bind fun s' => run step s' as

@[simp] lemma run_nil (step : σ → α → Option σ) (s : σ) : run step s [] = some s := rfl

lemma run_cons_eq_some {step : σ → α → Option σ} {s t : σ} {a : α} {as : List α} :
    run step s (a :: as) = some t ↔ ∃ s', step s a = some s' ∧ run step s' as = some t := by
  simp [run, Option.bind_eq_some_iff]

lemma run_append (step : σ → α → Option σ) (s : σ) (as bs : List α) :
    run step s (as ++ bs) = (run step s as).bind fun s' => run step s' bs := by
  induction as generalizing s with
  | nil => rfl
  | cons a as ih =>
      simp only [List.cons_append, run, Option.bind_assoc]
      congr 1
      funext s'
      exact ih s'

/-- `t` is reachable from `s`. -/
def Reaches (step : σ → α → Option σ) (s t : σ) : Prop := ∃ as, run step s as = some t

lemma Reaches.refl (step : σ → α → Option σ) (s : σ) : Reaches step s s := ⟨[], rfl⟩

lemma Reaches.trans {step : σ → α → Option σ} {s t u : σ} (h : Reaches step s t)
    (h' : Reaches step t u) : Reaches step s u := by
  obtain ⟨as, has⟩ := h
  obtain ⟨bs, hbs⟩ := h'
  exact ⟨as ++ bs, by rw [run_append, has]; exact hbs⟩

lemma Reaches.single {step : σ → α → Option σ} {s t : σ} {a : α} (h : step s a = some t) :
    Reaches step s t :=
  ⟨[a], run_cons_eq_some.mpr ⟨t, h, rfl⟩⟩

/-- The invariant rule. -/
lemma run_invariant {step : σ → α → Option σ} {P : σ → Prop}
    (hstep : ∀ s a t, P s → step s a = some t → P t) :
    ∀ {as : List α} {s t : σ}, P s → run step s as = some t → P t
  | [], _, _, hs, h => by rw [run_nil, Option.some_inj] at h; exact h ▸ hs
  | _ :: _, _, _, hs, h => by
      obtain ⟨s', h1, h2⟩ := run_cons_eq_some.mp h
      exact run_invariant hstep (hstep _ _ _ hs h1) h2

/-- Every step of the run from `s` by `as` meets the side condition `ok`. -/
def Along (ok : σ → α → Prop) (step : σ → α → Option σ) : σ → List α → Prop
  | _, [] => True
  | s, a :: as => ok s a ∧ ∀ s', step s a = some s' → Along ok step s' as

/-- On a given run the side condition can be checked step by step. -/
instance Along.decidable {ok : σ → α → Prop} [∀ s a, Decidable (ok s a)]
    {step : σ → α → Option σ} : ∀ (s : σ) (as : List α), Decidable (Along ok step s as)
  | _, [] => .isTrue trivial
  | s, a :: as =>
    match h : step s a with
    | none => decidable_of_iff (ok s a)
        ⟨fun hok => ⟨hok, fun t ht => by cases h.symm.trans ht⟩, And.left⟩
    | some t =>
      have : Decidable (Along ok step t as) := Along.decidable t as
      decidable_of_iff (ok s a ∧ Along ok step t as)
        ⟨fun hok => ⟨hok.1, fun t' ht => Option.some_inj.mp (h.symm.trans ht) ▸ hok.2⟩,
          fun hok => ⟨hok.1, hok.2 t h⟩⟩

lemma Along.and {ok ok' : σ → α → Prop} {step : σ → α → Option σ} :
    ∀ {s : σ} {as : List α}, Along ok step s as → Along ok' step s as →
      Along (fun s a => ok s a ∧ ok' s a) step s as
  | _, [], _, _ => trivial
  | _, _ :: _, h, h' => ⟨⟨h.1, h'.1⟩, fun s' hs' => (h.2 s' hs').and (h'.2 s' hs')⟩

lemma Along.of_forall {ok : σ → α → Prop} {step : σ → α → Option σ} :
    ∀ {s : σ} {as : List α}, (∀ a ∈ as, ∀ s, ok s a) → Along ok step s as
  | _, [], _ => trivial
  | s, a :: _, h => ⟨h a List.mem_cons_self s, fun _ _ =>
      Along.of_forall fun b hb => h b (List.mem_cons_of_mem _ hb)⟩

/-- A run whose side condition needs a look at the state in one place only. -/
lemma Along.append_cons {ok : σ → α → Prop} {step : σ → α → Option σ} {s : σ} (as : List α)
    {a : α} {bs : List α} (has : Along ok step s as)
    (ha : ∀ t, run step s as = some t → ok t a) (hbs : ∀ s, Along ok step s bs) :
    Along ok step s (as ++ a :: bs) := by
  induction as generalizing s with
  | nil => exact ⟨ha s rfl, fun t _ => hbs t⟩
  | cons b as ih =>
      refine ⟨has.1, fun t ht => ih (has.2 t ht) fun u hu => ha u ?_⟩
      exact run_cons_eq_some.mpr ⟨t, ht, hu⟩

/-- The invariant rule for runs whose steps all meet a side condition. -/
lemma run_invariant_along {step : σ → α → Option σ} {ok : σ → α → Prop} {P : σ → Prop}
    (hstep : ∀ s a t, P s → ok s a → step s a = some t → P t) :
    ∀ {as : List α} {s t : σ}, P s → Along ok step s as → run step s as = some t → P t
  | [], _, _, hs, _, h => by rw [run_nil, Option.some_inj] at h; exact h ▸ hs
  | _ :: _, _, _, hs, hok, h => by
      obtain ⟨s', h1, h2⟩ := run_cons_eq_some.mp h
      exact run_invariant_along hstep (hstep _ _ _ hs hok.1 h1) (hok.2 _ h1) h2

/-- The invariant rule for a property that speaks of the actions so far. -/
lemma run_history {step : σ → α → Option σ} {P : List α → σ → Prop} {s t : σ} (hs : P [] s)
    (hstep : ∀ as u a v, P as u → step u a = some v → P (as ++ [a]) v) {as : List α}
    (h : run step s as = some t) : P as t := by
  induction as using List.reverseRecOn generalizing t with
  | nil =>
      rw [run_nil, Option.some_inj] at h
      exact h ▸ hs
  | append_singleton as a ih =>
      rw [run_append] at h
      obtain ⟨u, hu, h⟩ := Option.bind_eq_some_iff.mp h
      obtain ⟨v, hv, h⟩ := run_cons_eq_some.mp h
      rw [run_nil, Option.some_inj] at h
      exact h ▸ hstep as u a v (ih hu) hv

/-- A run whose every step lowers `μ` is no longer than `μ` allows. -/
lemma run_length_le {step : σ → α → Option σ} {μ : σ → ℕ}
    (hstep : ∀ s a t, step s a = some t → μ t < μ s) :
    ∀ {as : List α} {s t : σ}, run step s as = some t → as.length + μ t ≤ μ s
  | [], _, _, h => by
      rw [run_nil, Option.some_inj] at h
      rw [h, List.length_nil, Nat.zero_add]
  | _ :: _, _, _, h => by
      obtain ⟨s', h1, h2⟩ := run_cons_eq_some.mp h
      have hlt := hstep _ _ _ h1
      have hle := run_length_le hstep h2
      rw [List.length_cons]
      omega

/-- The same with an invariant, for runs whose steps all meet a side condition. -/
lemma run_length_le_along {step : σ → α → Option σ} {ok : σ → α → Prop} {P : σ → Prop} {μ : σ → ℕ}
    (hstep : ∀ s a t, P s → ok s a → step s a = some t → P t ∧ μ t < μ s) :
    ∀ {as : List α} {s t : σ}, P s → Along ok step s as → run step s as = some t →
      as.length + μ t ≤ μ s
  | [], _, _, _, _, h => by
      rw [run_nil, Option.some_inj] at h
      rw [h, List.length_nil, Nat.zero_add]
  | _ :: _, _, _, hs, hok, h => by
      obtain ⟨s', h1, h2⟩ := run_cons_eq_some.mp h
      obtain ⟨hs', hlt⟩ := hstep _ _ _ hs hok.1 h1
      have hle := run_length_le_along hstep hs' (hok.2 _ h1) h2
      rw [List.length_cons]
      omega

/-- The sum of `f` over the steps of the run from `s` by `as`. -/
def tally (f : σ → α → ℕ) (step : σ → α → Option σ) : σ → List α → ℕ
  | _, [] => 0
  | s, a :: as => f s a + (step s a).elim 0 fun s' => tally f step s' as

lemma tally_append (f : σ → α → ℕ) {step : σ → α → Option σ} {s t : σ} {as : List α}
    (h : run step s as = some t) (bs : List α) :
    tally f step s (as ++ bs) = tally f step s as + tally f step t bs := by
  induction as generalizing s with
  | nil =>
      rw [run_nil, Option.some_inj] at h
      rw [h, List.nil_append, tally, Nat.zero_add]
  | cons a as ih =>
      obtain ⟨s', h1, h2⟩ := run_cons_eq_some.mp h
      rw [List.cons_append, tally, tally, h1, Option.elim_some, Option.elim_some, ih h2,
        Nat.add_assoc]

/-- The invariant rule with a counter that grows by `f` in every step, for runs whose steps all meet
a side condition. -/
lemma run_tally_along {f : σ → α → ℕ} {step : σ → α → Option σ} {ok : σ → α → Prop}
    {P : ℕ → σ → Prop}
    (hstep : ∀ n s a t, P n s → ok s a → step s a = some t → P (n + f s a) t) :
    ∀ {as : List α} {s t : σ} {n : ℕ}, P n s → Along ok step s as → run step s as = some t →
      P (n + tally f step s as) t
  | [], _, _, _, hs, _, h => by rw [run_nil, Option.some_inj] at h; exact h ▸ hs
  | _ :: _, _, _, _, hs, hok, h => by
      obtain ⟨s', h1, h2⟩ := run_cons_eq_some.mp h
      rw [tally, h1, Option.elim_some, ← Nat.add_assoc]
      exact run_tally_along hstep (hstep _ _ _ _ hs hok.1 h1) (hok.2 _ h1) h2

/-- The invariant rule with a counter that grows by `f` in every step. -/
lemma run_tally {f : σ → α → ℕ} {step : σ → α → Option σ} {P : ℕ → σ → Prop}
    (hstep : ∀ n s a t, P n s → step s a = some t → P (n + f s a) t) {as : List α} {s t : σ}
    {n : ℕ} (hs : P n s) (h : run step s as = some t) : P (n + tally f step s as) t :=
  run_tally_along (fun n s a t hP (_ : True) => hstep n s a t hP) hs
    (Along.of_forall fun _ _ _ => trivial) h

end RudpScheduler
