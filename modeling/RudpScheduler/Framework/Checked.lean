import Mathlib

/-!
# Checked 64-bit arithmetic

The operations on `uint64` words that fail where the machine's would not give the number: where a
sum or a product does not fit, a difference is negative, a divisor is 0, or a conversion drops
bits.  A computation written with them that returns a value is one in which nothing wrapped; the
lemmas say when an operation returns what the wrapping one does.
-/

namespace RudpScheduler.Checked

def add (a b : UInt64) : Option UInt64 :=
  if a.toNat + b.toNat < 2 ^ 64 then some (a + b) else none

def sub (a b : UInt64) : Option UInt64 := if b ≤ a then some (a - b) else none

def mul (a b : UInt64) : Option UInt64 :=
  if a.toNat * b.toNat < 2 ^ 64 then some (a * b) else none

def div (a b : UInt64) : Option UInt64 := if b = 0 then none else some (a / b)

def mod (a b : UInt64) : Option UInt64 := if b = 0 then none else some (a % b)

def toUInt32 (a : UInt64) : Option UInt32 :=
  if a.toNat < 2 ^ 32 then some a.toUInt32 else none

variable {a b : UInt64}

lemma add_eq (h : a.toNat + b.toNat < 2 ^ 64) : add a b = some (a + b) := if_pos h

lemma sub_eq (h : b ≤ a) : sub a b = some (a - b) := if_pos h

lemma mul_eq (h : a.toNat * b.toNat < 2 ^ 64) : mul a b = some (a * b) := if_pos h

lemma div_eq (h : b ≠ 0) : div a b = some (a / b) := if_neg h

lemma mod_eq (h : b ≠ 0) : mod a b = some (a % b) := if_neg h

lemma toUInt32_eq (h : a.toNat < 2 ^ 32) : toUInt32 a = some a.toUInt32 := if_pos h

/-- A loop whose rounds all return a value returns the list of them. -/
lemma mapM_eq_some {α β : Type*} {f : α → Option β} {g : α → β} {l : List α}
    (h : ∀ x ∈ l, f x = some (g x)) : l.mapM f = some (l.map g) := by
  induction l with
  | nil => rfl
  | cons x l ih =>
      rw [List.mapM_cons, h x List.mem_cons_self, ih fun y hy => h y (List.mem_cons_of_mem _ hy)]
      rfl

end RudpScheduler.Checked
