import Mathlib

/-!
# Byte strings and the operations that can panic

A Go program that reads a field at an offset, writes one into a buffer or slices a buffer stops
with a panic when the offset is out of range.  `Go` is the monad of such computations, and the
operations here check their offsets, so that "never panics" is a statement about the model and
not a convention.

Fixed-width integers are big-endian: `beBytes k x` are the `k` low bytes of `x`, most significant
first, and `beNat` reads such a string back.  Both round trips are proved, since an encoder is the
inverse of its decoder only if it also reproduces every accepted string (`beBytes_beNat`).

A codec is verified with three rules: fields written one after the other into a fresh buffer
concatenate (`putAt_makeBytes`), a read inside a concatenation is a read of the field
(`slice_append`), and adjacent slices of a string join (`slice_join`).
-/

namespace RudpScheduler

/-- The ways a Go program stops with a panic. -/
inductive Panic
  /-- An index or a slice bound out of range. -/
  | outOfRange
  /-- A field of a nil pointer. -/
  | nilDereference
  | divideByZero
  | closeOfClosedChannel
  /-- A call of `panic`. -/
  | explicit (text : String)
  deriving DecidableEq, Repr

/-- A computation that may panic. -/
abbrev Go (α : Type) := Except Panic α

namespace Go

variable {α β : Type}

@[simp] lemma ok_bind (a : α) (f : α → Go β) : (Except.ok a >>= f : Go β) = f a := rfl

@[simp] lemma error_bind (e : Panic) (f : α → Go β) :
    (Except.error e >>= f : Go β) = .error e := rfl

@[simp] lemma map_ok (f : α → β) (a : α) : (f <$> (Except.ok a : Go α)) = .ok (f a) := rfl

@[simp] lemma map_error (f : α → β) (e : Panic) :
    (f <$> (Except.error e : Go α)) = .error e := rfl

@[simp] lemma pure_eq_ok (a : α) : (pure a : Go α) = .ok a := rfl

lemma bind_eq_ok {x : Go α} {f : α → Go β} {b : β} :
    x >>= f = .ok b ↔ ∃ a, x = .ok a ∧ f a = .ok b := by
  cases x <;> simp

lemma toOption_eq_some {x : Go α} {a : α} : x.toOption = some a ↔ x = .ok a := by
  cases x <;> simp [Except.toOption]

/-- The steps of a system that can panic, as far as it goes on: where a step panics there is no
state after it. -/
def survive {σ ι : Type} (step : σ → ι → Option (Go σ)) (s : σ) (a : ι) : Option σ :=
  (step s a).bind Except.toOption

lemma survive_eq_some {σ ι : Type} {step : σ → ι → Option (Go σ)} {s t : σ} {a : ι} :
    survive step s a = some t ↔ step s a = some (.ok t) := by
  rw [survive, Option.bind_eq_some_iff]
  constructor
  · rintro ⟨_ | u, h, ht⟩
    · cases ht
    · rw [h, Option.some_inj.mp ht]
  · intro h
    exact ⟨_, h, rfl⟩

end Go

/-! ## Big-endian integers -/

/-- The number a byte string stands for, most significant byte first. -/
def beNat (b : List UInt8) : ℕ := b.foldl (fun a x => 256 * a + x.toNat) 0

/-- The `k` low bytes of a number, most significant first. -/
def beBytes : ℕ → ℕ → List UInt8
  | 0, _ => []
  | k + 1, x => beBytes k (x / 256) ++ [UInt8.ofNat x]

@[simp] lemma length_beBytes (k x : ℕ) : (beBytes k x).length = k := by
  induction k generalizing x with
  | zero => rfl
  | succ k ih => simp [beBytes, ih]

@[simp] lemma beNat_nil : beNat [] = 0 := rfl

lemma beNat_concat (b : List UInt8) (x : UInt8) : beNat (b ++ [x]) = 256 * beNat b + x.toNat := by
  simp [beNat]

lemma beNat_lt (b : List UInt8) : beNat b < 256 ^ b.length := by
  induction b using List.reverseRecOn with
  | nil => simp
  | append_singleton b x ih =>
      rw [beNat_concat, List.length_append, List.length_singleton, pow_succ]
      have := x.toNat_lt
      omega

/-- Reading back what was written. -/
lemma beNat_beBytes (k x : ℕ) : beNat (beBytes k x) = x % 256 ^ k := by
  induction k generalizing x with
  | zero => simp [beBytes, Nat.mod_one]
  | succ k ih =>
      rw [beBytes, beNat_concat, ih, UInt8.toNat_ofNat', pow_succ' 256 k, Nat.mod_mul]
      omega

/-- Writing back what was read. -/
lemma beBytes_beNat {b : List UInt8} {k : ℕ} (h : b.length = k) : beBytes k (beNat b) = b := by
  subst h
  induction b using List.reverseRecOn with
  | nil => rfl
  | append_singleton b x ih =>
      have hx := x.toNat_lt
      rw [beNat_concat, List.length_append, List.length_singleton, beBytes,
        show (256 * beNat b + x.toNat) / 256 = beNat b by omega, ih]
      congr 2
      rw [← UInt8.toNat_inj, UInt8.toNat_ofNat']
      omega

/-! ## Slices -/

/-- `b[i:i+n]`. -/
def slice (b : List UInt8) (i n : ℕ) : List UInt8 := (b.drop i).take n

@[simp] lemma length_slice {b : List UInt8} {i n : ℕ} (h : i + n ≤ b.length) :
    (slice b i n).length = n := by
  rw [slice, List.length_take, List.length_drop]
  omega

lemma drop_append_right {b c : List UInt8} {i : ℕ} (h : b.length ≤ i) :
    (b ++ c).drop i = c.drop (i - b.length) := by
  rw [List.drop_append, List.drop_eq_nil_of_le h, List.nil_append]

/-- A slice behind the first part of a concatenation. -/
lemma slice_append {b c : List UInt8} {i n : ℕ} (h : b.length ≤ i) :
    slice (b ++ c) i n = slice c (i - b.length) n := by
  rw [slice, slice, drop_append_right h]

/-- The first part of a concatenation. -/
lemma slice_zero_append {b c : List UInt8} {n : ℕ} (h : b.length = n) :
    slice (b ++ c) 0 n = b := by
  rw [slice, List.drop_zero, ← h, List.take_left]

lemma slice_cons_succ (x : UInt8) (b : List UInt8) (i n : ℕ) :
    slice (x :: b) (i + 1) n = slice b i n := rfl

lemma slice_all {b : List UInt8} {n : ℕ} (h : b.length = n) : slice b 0 n = b := by
  rw [slice, List.drop_zero, ← h, List.take_length]

/-- Adjacent slices join. -/
lemma slice_join {b : List UInt8} {i n j m : ℕ} (h : i + n = j) :
    slice b i n ++ slice b j m = slice b i (n + m) := by
  rw [← h, slice, slice, slice, ← List.drop_drop, List.take_add]

/-- The last slice and what follows an offset. -/
lemma slice_append_drop {b : List UInt8} {i n j : ℕ} (h : i + n = j) :
    slice b i n ++ b.drop j = b.drop i := by
  rw [← h, slice, ← List.drop_drop, List.take_append_drop]

/-! ## Checked reads -/

/-- `b[i]`. -/
def byteAt (b : List UInt8) (i : ℕ) : Go UInt8 :=
  match b[i]? with
  | some x => .ok x
  | none => .error .outOfRange

/-- `b[i:]`. -/
def sliceFrom (b : List UInt8) (i : ℕ) : Go (List UInt8) :=
  if i ≤ b.length then .ok (b.drop i) else .error .outOfRange

/-- The integer in the `k` bytes at offset `i`. -/
def uintAt (k : ℕ) (b : List UInt8) (i : ℕ) : Go ℕ :=
  if i + k ≤ b.length then .ok (beNat (slice b i k)) else .error .outOfRange

/-- `binary.BigEndian.Uint16(b[i:])`. -/
def uint16At (b : List UInt8) (i : ℕ) : Go UInt16 := UInt16.ofNat <$> uintAt 2 b i

/-- `binary.BigEndian.Uint32(b[i:])`. -/
def uint32At (b : List UInt8) (i : ℕ) : Go UInt32 := UInt32.ofNat <$> uintAt 4 b i

/-- `binary.BigEndian.Uint64(b[i:])`. -/
def uint64At (b : List UInt8) (i : ℕ) : Go UInt64 := UInt64.ofNat <$> uintAt 8 b i

section Reads

variable {b : List UInt8} {i k : ℕ}

lemma byteAt_cons (x : UInt8) (b : List UInt8) : byteAt (x :: b) 0 = .ok x := rfl

lemma sliceFrom_of_le (h : i ≤ b.length) : sliceFrom b i = .ok (b.drop i) := if_pos h

lemma uintAt_of_le (h : i + k ≤ b.length) : uintAt k b i = .ok (beNat (slice b i k)) := if_pos h

lemma uint16At_of_le (h : i + 2 ≤ b.length) :
    uint16At b i = .ok (UInt16.ofNat (beNat (slice b i 2))) := by
  rw [uint16At, uintAt_of_le h, Go.map_ok]

lemma uint32At_of_le (h : i + 4 ≤ b.length) :
    uint32At b i = .ok (UInt32.ofNat (beNat (slice b i 4))) := by
  rw [uint32At, uintAt_of_le h, Go.map_ok]

lemma uint64At_of_le (h : i + 8 ≤ b.length) :
    uint64At b i = .ok (UInt64.ofNat (beNat (slice b i 8))) := by
  rw [uint64At, uintAt_of_le h, Go.map_ok]

lemma beNat_slice_lt (h : i + k ≤ b.length) : beNat (slice b i k) < 256 ^ k := by
  have hlt := beNat_lt (slice b i k)
  rwa [length_slice h] at hlt

/-- Writing back an integer that was read. -/
lemma beBytes_uint16 (h : i + 2 ≤ b.length) :
    beBytes 2 (UInt16.ofNat (beNat (slice b i 2))).toNat = slice b i 2 := by
  have hlt : beNat (slice b i 2) < 2 ^ 16 := beNat_slice_lt h
  rw [UInt16.toNat_ofNat', Nat.mod_eq_of_lt hlt, beBytes_beNat (length_slice h)]

lemma beBytes_uint32 (h : i + 4 ≤ b.length) :
    beBytes 4 (UInt32.ofNat (beNat (slice b i 4))).toNat = slice b i 4 := by
  have hlt : beNat (slice b i 4) < 2 ^ 32 := beNat_slice_lt h
  rw [UInt32.toNat_ofNat', Nat.mod_eq_of_lt hlt, beBytes_beNat (length_slice h)]

lemma beBytes_uint64 (h : i + 8 ≤ b.length) :
    beBytes 8 (UInt64.ofNat (beNat (slice b i 8))).toNat = slice b i 8 := by
  have hlt : beNat (slice b i 8) < 2 ^ 64 := beNat_slice_lt h
  rw [UInt64.toNat_ofNat', Nat.mod_eq_of_lt hlt, beBytes_beNat (length_slice h)]

lemma slice_of_byteAt {x : UInt8} (h : byteAt b 0 = .ok x) :
    slice b 0 1 = [x] := by
  cases b with
  | nil => simp [byteAt] at h
  | cons y b =>
      rw [byteAt_cons, Except.ok.injEq] at h
      rw [h]
      rfl

end Reads

/-- Reading back an integer that was written. -/
@[simp] lemma ofNat_beNat_beBytes16 (x : UInt16) :
    UInt16.ofNat (beNat (beBytes 2 x.toNat)) = x := by
  have hlt : x.toNat < 256 ^ 2 := x.toNat_lt
  rw [beNat_beBytes, Nat.mod_eq_of_lt hlt, UInt16.ofNat_toNat]

@[simp] lemma ofNat_beNat_beBytes32 (x : UInt32) :
    UInt32.ofNat (beNat (beBytes 4 x.toNat)) = x := by
  have hlt : x.toNat < 256 ^ 4 := x.toNat_lt
  rw [beNat_beBytes, Nat.mod_eq_of_lt hlt, UInt32.ofNat_toNat]

@[simp] lemma ofNat_beNat_beBytes64 (x : UInt64) :
    UInt64.ofNat (beNat (beBytes 8 x.toNat)) = x := by
  have hlt : x.toNat < 256 ^ 8 := x.toNat_lt
  rw [beNat_beBytes, Nat.mod_eq_of_lt hlt, UInt64.ofNat_toNat]

/-! ## Checked writes -/

/-- `make([]byte, n)`. -/
def makeBytes (n : ℕ) : List UInt8 := List.replicate n 0

@[simp] lemma length_makeBytes (n : ℕ) : (makeBytes n).length = n := List.length_replicate

@[simp] lemma makeBytes_zero : makeBytes 0 = [] := rfl

/-- `copy(b[i:], field)` where the field has to fit. -/
def putAt (b : List UInt8) (i : ℕ) (field : List UInt8) : Go (List UInt8) :=
  if i + field.length ≤ b.length then .ok (b.take i ++ field ++ b.drop (i + field.length))
  else .error .outOfRange

/-- `binary.BigEndian.PutUint16(b[i:], x)`. -/
def putUint16 (b : List UInt8) (i : ℕ) (x : UInt16) : Go (List UInt8) :=
  putAt b i (beBytes 2 x.toNat)

/-- `binary.BigEndian.PutUint32(b[i:], x)`. -/
def putUint32 (b : List UInt8) (i : ℕ) (x : UInt32) : Go (List UInt8) :=
  putAt b i (beBytes 4 x.toNat)

/-- `binary.BigEndian.PutUint64(b[i:], x)`. -/
def putUint64 (b : List UInt8) (i : ℕ) (x : UInt64) : Go (List UInt8) :=
  putAt b i (beBytes 8 x.toNat)

/-- The next field of a buffer that is being filled from the front. -/
lemma putAt_makeBytes {b field : List UInt8} {i m : ℕ} (hi : b.length = i)
    (hm : field.length ≤ m) :
    putAt (b ++ makeBytes m) i field = .ok (b ++ field ++ makeBytes (m - field.length)) := by
  have hfit : i + field.length ≤ (b ++ makeBytes m).length := by
    rw [List.length_append, length_makeBytes]
    omega
  rw [putAt, if_pos hfit, List.take_left' hi, ← List.drop_drop, List.drop_left' hi, makeBytes,
    List.drop_replicate, makeBytes]

/-- The first field. -/
lemma putAt_start {field : List UInt8} {m : ℕ} (hm : field.length ≤ m) :
    putAt (makeBytes m) 0 field = .ok (field ++ makeBytes (m - field.length)) :=
  putAt_makeBytes (b := []) rfl hm

end RudpScheduler
