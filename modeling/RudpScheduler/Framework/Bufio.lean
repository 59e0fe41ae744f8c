import RudpScheduler.Framework.FileSystem

/-!
# Buffered writing

Go's `bufio.Writer` on an open file: bytes are collected in a buffer and written when it is full or
flushed, and the first error of the file sticks.

Writing `p` through a buffer that holds `buf` adds a part of `buf ++ p` to the file, from the front.
If the writer reports no error the rest is in the buffer (`wp_write`); if it does, the part is a
proper one.
-/

namespace RudpScheduler

open Fs Prog

structure BufWriter where
  /-- The file the bytes go to. -/
  h : ℕ
  buf : List UInt8
  /-- Whether a write has failed. -/
  err : Bool
  deriving DecidableEq, Repr

namespace BufWriter

/-- `defaultBufSize`. -/
def bufSize : ℕ := 4096

/-- `bufio.NewWriter`. -/
def new (h : ℕ) : BufWriter := ⟨h, [], false⟩

/-- `Available`. -/
def available (w : BufWriter) : ℕ := bufSize - w.buf.length

/-- `Flush`: whether it failed, and the writer after it. -/
def flush (w : BufWriter) : Proc (Bool × BufWriter) :=
  if w.err then return (true, w)
  else if w.buf = [] then return (false, w)
  else do
    let (n, failed) ← os (.write w.h w.buf)
    if failed ∨ n < w.buf.length then return (true, { w with buf := w.buf.drop n, err := true })
    else return (false, { w with buf := [] })

/-- The loop of `Write`, for as long as the bytes do not fit into the buffer: the buffer is filled
and flushed, or, if it is empty, the bytes are written past it. -/
def writeLoop : ℕ → BufWriter → List UInt8 → Proc (BufWriter × List UInt8)
  | 0, w, p => return (w, p)
  | fuel + 1, w, p =>
    if p.length > w.available ∧ w.err = false then
      if w.buf = [] then do
        let (n, failed) ← os (.write w.h p)
        writeLoop fuel { w with err := failed } (p.drop n)
      else do
        let n := w.available
        let (_, w) ← flush { w with buf := w.buf ++ p.take n }
        writeLoop fuel w (p.drop n)
    else return (w, p)

/-- `Write`: whether it failed, and the writer after it.  The loop makes at most two rounds: after
the first one the buffer is empty, and the second one leaves nothing to write. -/
def write (w : BufWriter) (p : List UInt8) : Proc (Bool × BufWriter) := do
  let (w, p) ← writeLoop 2 w p
  if w.err then return (true, w)
  else return (false, { w with buf := w.buf ++ p })

/-! ## Rules -/

variable {may : Luck → Prop} {I : Fs → Prop} {s : Fs} {h i : ℕ} {buf p : List UInt8}

/-- A call may fail. -/
def CanFail (may : Luck → Prop) : Prop := ∃ n, may (.fails n)

/-- A failed `write` has written a proper part of its bytes. -/
lemma take_written_ne {b : List UInt8} (hb : b ≠ []) (n : ℕ) :
    b.take ((Luck.fails n).written b.length) ≠ b := by
  intro he
  have hlen := congrArg List.length he
  have hpos := List.length_pos_iff.mpr hb
  rw [List.length_take, Luck.written] at hlen
  omega

lemma wp_flush {Q : Bool × BufWriter → Fs → Prop} (hat : s.AtEnd h i) (hI : I s)
    (hok : Q (false, ⟨h, [], false⟩) (s.grow h i buf))
    (hfail : CanFail may →
      ∀ b buf', b <+: buf → b ≠ buf → Q (true, ⟨h, buf', true⟩) (s.grow h i b)) :
    wp exec may I (flush ⟨h, buf, false⟩) Q s := by
  unfold flush
  simp only [Bool.false_eq_true, if_false]
  split_ifs with hbuf
  · rw [hbuf, grow_nil hat] at hok
    rw [hbuf]
    exact hok
  · rw [wp_bind, wp_os]
    refine ⟨hI, fun x hx => ?_⟩
    rw [exec_write hat]
    cases x with
    | ok =>
        simp only [Luck.written, Luck.failed, List.take_length, lt_irrefl, or_false,
          Bool.false_eq_true, if_false]
        exact hok
    | fails n =>
        simp only [Luck.failed, true_or, if_true]
        exact hfail ⟨n, hx⟩ _ _ (List.take_prefix _ _) (take_written_ne hbuf n)

lemma writeLoop_of_err (fuel : ℕ) (p : List UInt8) :
    writeLoop fuel ⟨h, buf, true⟩ p = pure (⟨h, buf, true⟩, p) := by
  cases fuel <;> simp [writeLoop]

lemma writeLoop_of_le (fuel : ℕ) {w : BufWriter} (hp : p.length ≤ w.available) :
    writeLoop fuel w p = pure (w, p) := by
  cases fuel <;> simp [writeLoop, not_lt.mpr hp]

/-- After an error nothing is written any more. -/
lemma write_of_err (p : List UInt8) :
    write ⟨h, buf, true⟩ p = pure (true, ⟨h, buf, true⟩) := by
  rw [write, writeLoop_of_err]
  rfl

lemma flush_of_err : flush ⟨h, buf, true⟩ = pure (true, ⟨h, buf, true⟩) := rfl

/-- The loop from an empty buffer. -/
lemma wp_writeLoop_nil {Q : BufWriter × List UInt8 → Fs → Prop} (fuel : ℕ) (hat : s.AtEnd h i)
    (hI : I s)
    (hok : ∀ b p', b ++ p' = p → Q (⟨h, [], false⟩, p') (s.grow h i b))
    (hfail : CanFail may → ∀ b p', b <+: p → b ≠ p → Q (⟨h, [], true⟩, p') (s.grow h i b)) :
    wp exec may I (writeLoop (fuel + 1) ⟨h, [], false⟩ p) Q s := by
  by_cases hp : p.length ≤ bufSize
  · rw [writeLoop_of_le _ (by simpa [available] using hp)]
    have hnow := hok [] p rfl
    rwa [grow_nil hat] at hnow
  · have hlarge : p.length > (⟨h, [], false⟩ : BufWriter).available ∧ false = false :=
      ⟨by simpa [available] using hp, rfl⟩
    have hne : p ≠ [] := by
      rintro rfl
      exact hp (Nat.zero_le _)
    rw [writeLoop, if_pos hlarge, if_pos rfl, wp_bind, wp_os]
    refine ⟨hI, fun x hx => ?_⟩
    rw [exec_write hat]
    cases x with
    | ok =>
        simp only [Luck.written, Luck.failed, List.take_length, List.drop_length]
        rw [writeLoop_of_le _ (Nat.zero_le _)]
        exact hok p [] (List.append_nil p)
    | fails n =>
        simp only [Luck.failed]
        rw [writeLoop_of_err]
        exact hfail ⟨n, hx⟩ _ _ (List.take_prefix _ _) (take_written_ne hne n)

/-- `Write` adds a part of the buffer and of the bytes given to the file, and keeps the rest unless
the file reports an error. -/
lemma wp_write {Q : Bool × BufWriter → Fs → Prop} (hat : s.AtEnd h i)
    (hI : ∀ b, b <+: buf ++ p → I (s.grow h i b))
    (hok : ∀ b buf', b ++ buf' = buf ++ p → Q (false, ⟨h, buf', false⟩) (s.grow h i b))
    (hfail : CanFail may → ∀ b buf', b <+: buf ++ p → b ≠ buf ++ p →
      Q (true, ⟨h, buf', true⟩) (s.grow h i b)) :
    wp exec may I (write ⟨h, buf, false⟩ p) Q s := by
  have hI' : I s := grow_nil hat ▸ hI [] (List.nil_prefix)
  unfold write
  rw [wp_bind]
  by_cases hp : p.length ≤ (⟨h, buf, false⟩ : BufWriter).available
  · -- the bytes fit into the buffer
    rw [writeLoop_of_le _ hp]
    have hnow := hok [] (buf ++ p) rfl
    rwa [grow_nil hat] at hnow
  · by_cases hbuf : buf = []
    · subst hbuf
      refine wp_writeLoop_nil 1 hat hI' (fun b p' hb => ?_) fun hcan b p' hb hne => ?_
      · exact hok b p' hb
      · exact hfail hcan b [] hb hne
    · -- the buffer is filled and flushed, and the rest goes on from an empty buffer
      have hlarge : p.length > (⟨h, buf, false⟩ : BufWriter).available ∧ false = false :=
        ⟨not_le.mp hp, rfl⟩
      rw [writeLoop, if_pos hlarge, if_neg hbuf]
      generalize (⟨h, buf, false⟩ : BufWriter).available = n
      have hall : (buf ++ p.take n) ++ p.drop n = buf ++ p := by
        rw [List.append_assoc, List.take_append_drop]
      have hpart : buf ++ p.take n <+: buf ++ p := ⟨_, hall⟩
      rw [wp_bind]
      refine wp_flush hat hI' ?_ fun hcan b buf' hb hne => ?_
      · refine wp_writeLoop_nil 0 (hat.grow _) (hI _ hpart) (fun b p' hb => ?_)
          fun hcan b p' hb hne => ?_
        · rw [grow_grow]
          exact hok _ p' (by rw [List.append_assoc, hb, hall])
        · rw [grow_grow]
          refine hfail hcan _ [] ?_ fun he => hne ?_
          · rw [← hall]
            exact (List.prefix_append_right_inj _).mpr hb
          · rw [← hall] at he
            exact List.append_cancel_left he
      · dsimp only
        rw [writeLoop_of_err]
        refine hfail hcan b buf' (hb.trans hpart) fun he => hne ?_
        exact hb.eq_of_length_le (by rw [he]; exact hpart.length_le)

end BufWriter

end RudpScheduler
