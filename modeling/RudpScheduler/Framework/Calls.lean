import RudpScheduler.Framework.Bytes

/-!
# Programs that call their environment

A program is a tree: it returns, panics, or makes a call and goes on with the reply.  The
environment is a function `exec` that takes a state, a call and a choice to a reply and the next
state; the choice stands for what the program cannot foresee, such as whether the call fails.  A run
is given by the choices of its calls.  When they are used up before the program returns, the program
was stopped there, so a crash between any two calls is a run with fewer choices.

`wp` is the weakest precondition with a crash condition `I`: whatever the choices, the state in
front of every call meets `I` and the program returns in a state that meets the postcondition.  The
rules are the ones of any such calculus, `wp_bind` for sequencing, `wp_mono` for consequence and
`wp_and` for conjunction; what every single call keeps is added with `wp.keeps`.
`wp.sound` turns a proof into a statement about runs, and `wp.returns` gives a run that ends: a
program that is never denied its next choice returns.
-/

namespace RudpScheduler

/-- A program with calls `C`, answered with values of `R`. -/
inductive Prog (C : Type) (R : C → Type) (α : Type) : Type
  | ret (a : α)
  | call (c : C) (k : R c → Prog C R α)
  | panics (e : Panic)

/-- How a run ends: the program has returned, was stopped in front of a call, or has panicked. -/
inductive Outcome (σ α : Type) : Type
  | returned (a : α) (s : σ)
  | halted (s : σ)
  | panicked (e : Panic)

/-- The run has returned with the postcondition `Q`, or was stopped with the condition `I`. -/
def Outcome.Meets {σ α : Type} (Q : α → σ → Prop) (I : σ → Prop) : Outcome σ α → Prop
  | .returned a s => Q a s
  | .halted s => I s
  | .panicked _ => False

namespace Prog

variable {C : Type} {R : C → Type} {α β σ χ : Type}

/-- Sequencing. -/
def bind : Prog C R α → (α → Prog C R β) → Prog C R β
  | .ret a, f => f a
  | .call c k, f => .call c fun r => (k r).bind f
  | .panics e, _ => .panics e

instance : Monad (Prog C R) where
  pure := .ret
  bind := .bind

/-- A single call. -/
def perform (c : C) : Prog C R (R c) := .call c .ret

/-- A computation that may panic. -/
def lift : Go α → Prog C R α
  | .ok a => .ret a
  | .error e => .panics e

/-- The run of a program with the given choices. -/
def run (exec : σ → (c : C) → χ → R c × σ) : Prog C R α → List χ → σ → Outcome σ α
  | .ret a, _, s => .returned a s
  | .panics e, _, _ => .panicked e
  | .call _ _, [], s => .halted s
  | .call c k, x :: xs, s => run exec (k (exec s c x).1) xs (exec s c x).2

/-! ## Weakest preconditions -/

variable {exec : σ → (c : C) → χ → R c × σ} {may : χ → Prop} {I : σ → Prop} {s : σ}

/-- Whatever choices with `may` are made, the program meets the crash condition `I` in front of
every call and returns with the postcondition. -/
def wp (exec : σ → (c : C) → χ → R c × σ) (may : χ → Prop) (I : σ → Prop) :
    Prog C R α → (α → σ → Prop) → σ → Prop
  | .ret a, Q, s => Q a s
  | .panics _, _, _ => False
  | .call c k, Q, s => I s ∧ ∀ x, may x → wp exec may I (k (exec s c x).1) Q (exec s c x).2

@[simp] lemma wp_pure {Q : α → σ → Prop} {a : α} :
    wp exec may I (pure a : Prog C R α) Q s ↔ Q a s := Iff.rfl

@[simp] lemma wp_perform {c : C} {Q : R c → σ → Prop} :
    wp exec may I (perform c) Q s ↔
      I s ∧ ∀ x, may x → Q (exec s c x).1 (exec s c x).2 := Iff.rfl

@[simp] lemma wp_lift_ok {Q : α → σ → Prop} {a : α} :
    wp exec may I (lift (.ok a) : Prog C R α) Q s ↔ Q a s := Iff.rfl

@[simp] lemma wp_bind {p : Prog C R α} {f : α → Prog C R β} {Q : β → σ → Prop} :
    wp exec may I (p >>= f) Q s ↔ wp exec may I p (fun a t => wp exec may I (f a) Q t) s := by
  change wp exec may I (p.bind f) Q s ↔ _
  induction p generalizing s with
  | ret a => rfl
  | panics e => rfl
  | call c k ih =>
      refine and_congr_right fun _ => forall_congr' fun x => forall_congr' fun _ => ?_
      exact ih _

lemma wp_mono {I' : σ → Prop} {p : Prog C R α} {Q Q' : α → σ → Prop} (hI : ∀ t, I t → I' t)
    (hQ : ∀ a t, Q a t → Q' a t) (h : wp exec may I p Q s) : wp exec may I' p Q' s := by
  induction p generalizing s with
  | ret a => exact hQ a s h
  | panics e => exact h
  | call c k ih => exact ⟨hI s h.1, fun x hx => ih _ (h.2 x hx)⟩

/-- What is proved of a program in two parts holds together. -/
lemma wp_and {I' : σ → Prop} {p : Prog C R α} {Q Q' : α → σ → Prop} (h : wp exec may I p Q s)
    (h' : wp exec may I' p Q' s) :
    wp exec may (fun t => I t ∧ I' t) p (fun a t => Q a t ∧ Q' a t) s := by
  induction p generalizing s with
  | ret a => exact ⟨h, h'⟩
  | panics e => exact h
  | call c k ih => exact ⟨⟨h.1, h'.1⟩, fun x hx => ih _ (h.2 x hx) (h'.2 x hx)⟩

/-- What every call keeps, a program keeps. -/
lemma wp.keeps {P : σ → Prop} (hexec : ∀ s c x, P s → P (exec s c x).2) {p : Prog C R α}
    {Q : α → σ → Prop} (h : wp exec may I p Q s) (hs : P s) :
    wp exec may (fun t => I t ∧ P t) p (fun a t => Q a t ∧ P t) s := by
  induction p generalizing s with
  | ret a => exact ⟨h, hs⟩
  | panics e => exact h
  | call c k ih => exact ⟨⟨h.1, hs⟩, fun x hx => ih _ (h.2 x hx) (hexec s c x hs)⟩

/-- A proof in the calculus speaks about every run with admitted choices. -/
lemma wp.sound {p : Prog C R α} {Q : α → σ → Prop} (h : wp exec may I p Q s) {xs : List χ}
    (hxs : ∀ x ∈ xs, may x) : (p.run exec xs s).Meets Q I := by
  induction p generalizing s xs with
  | ret a => exact h
  | panics e => exact h
  | call c k ih =>
      cases xs with
      | nil => exact h.1
      | cons x xs =>
          exact ih _ (h.2 x (hxs x List.mem_cons_self))
            fun y hy => hxs y (List.mem_cons_of_mem _ hy)

/-- With one and the same choice for every call the program returns. -/
lemma wp.returns {p : Prog C R α} {Q : α → σ → Prop} (h : wp exec may I p Q s) {x : χ}
    (hx : may x) : ∃ n a t, p.run exec (List.replicate n x) s = .returned a t ∧ Q a t := by
  induction p generalizing s with
  | ret a => exact ⟨0, a, s, rfl, h⟩
  | panics e => exact h.elim
  | call c k ih =>
      obtain ⟨n, a, t, hrun, ht⟩ := ih _ (h.2 x hx)
      exact ⟨n + 1, a, t, hrun, ht⟩

end Prog

end RudpScheduler
