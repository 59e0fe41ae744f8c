import Mathlib

/-!
# Comparing `float64` values

A Go `float64` as far as `<` and `<=` can tell values apart: a number, an infinity, or NaN, which is
neither below nor above nor equal to anything.
-/

namespace RudpScheduler.Go

inductive Float64
  | nan
  /-- A number, or one of the infinities `⊥` and `⊤`. -/
  | val (x : WithBot (WithTop ℚ))
  deriving DecidableEq

namespace Float64

/-- A rational on the extended line. -/
def ext (q : ℚ) : WithBot (WithTop ℚ) := ((q : WithTop ℚ) : WithBot (WithTop ℚ))

/-- The `float64` with the value `q`. -/
def ofRat (q : ℚ) : Float64 := .val (ext q)

instance : Coe ℚ Float64 := ⟨ofRat⟩

instance : Zero Float64 := ⟨ofRat 0⟩

instance : One Float64 := ⟨ofRat 1⟩

instance : LT Float64 where
  lt
    | val x, val y => x < y
    | _, _ => False

instance : LE Float64 where
  le
    | val x, val y => x ≤ y
    | _, _ => False

instance : DecidableLT Float64
  | val x, val y => inferInstanceAs (Decidable (x < y))
  | nan, _ | val _, nan => .isFalse id

instance : DecidableLE Float64
  | val x, val y => inferInstanceAs (Decidable (x ≤ y))
  | nan, _ | val _, nan => .isFalse id

variable {q r : ℚ} {x : Float64}

lemma lt_of_le_of_lt (h : q ≤ r) (hr : (r : Float64) < x) : (q : Float64) < x := by
  cases x with
  | nan => exact hr
  | val x =>
      have hle : ext q ≤ ext r := WithBot.coe_le_coe.mpr (WithTop.coe_le_coe.mpr h)
      exact hle.trans_lt hr

lemma not_le_of_lt (h : q < r) (hq : ¬ (q : Float64) < x) : ¬ (r : Float64) ≤ x := by
  cases x with
  | nan => exact id
  | val x =>
      have hlt : ext q < ext r := WithBot.coe_lt_coe.mpr (WithTop.coe_lt_coe.mpr h)
      exact fun hr => hq (hlt.trans_le hr)

/-- NaN apart, what is not above `q` is at most `q`. -/
lemma le_iff_not_lt (hx : x ≠ nan) : x ≤ (q : Float64) ↔ ¬ (q : Float64) < x := by
  cases x with
  | nan => exact absurd rfl hx
  | val x =>
      change x ≤ ext q ↔ ¬ ext q < x
      exact not_lt.symm

end Float64

end RudpScheduler.Go
