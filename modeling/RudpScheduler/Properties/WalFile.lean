import RudpScheduler.Construction.WalFile
import RudpScheduler.Properties.WalCodec

/-!
# What the file of a log holds

`Bears crc node recs k` is what the inode of a log looks like at any time: its bytes are a proper
part, from the front, of the frames of `recs` and of one more record, and the frames of the first
`k` records have been synced.  A crash keeps this (`Bears.cut`), and a file in this form is read
back as a part of `recs` that has at least the first `k` (`Bears.readAll`).

`Holds` is the state of an open log: the file at its path bears the records appended so far, and
unless a write has failed the bytes that are not in the file yet are in the buffer.  `Open`
establishes it, `Append` and `Sync` keep it (`Holds.append`, `Holds.sync`), and so does any sequence
of them (`Holds.session`).
-/

namespace RudpScheduler.Wal

open Fs Prog BufWriter

variable {crc : List UInt8 → UInt32} {node : Inode} {recs : List Record} {k : ℕ}

/-! ## The bytes of a log -/

structure Bears (crc : List UInt8 → UInt32) (node : Inode) (recs : List Record) (k : ℕ) : Prop where
  fits : ∀ r ∈ recs, r.Fits
  le : k ≤ recs.length
  synced_le : node.synced ≤ node.data.length
  durable : (frames crc (recs.take k)).length ≤ node.synced
  torn : ∃ r : Record, r.Fits ∧ node.data <+: frames crc (recs ++ [r]) ∧
    node.data ≠ frames crc (recs ++ [r])

/-- A file that bears records is read back as a part of them. -/
lemma Bears.readAll (h : Bears crc node recs k) :
    ∃ j, k ≤ j ∧ j ≤ recs.length ∧
      Wal.readAll crc node.data = .ok (recs.take j, (frames crc (recs.take j)).length) := by
  obtain ⟨r, hr, hpart, hne⟩ := h.torn
  have hfits : ∀ r' ∈ recs ++ [r], r'.Fits :=
    List.forall_mem_append.mpr ⟨h.fits, List.forall_mem_singleton.mpr hr⟩
  have hle := hpart.length_le
  obtain ⟨j, hj, t, heq, ht, hshort, hlong⟩ := take_frames crc hfits node.data.length
  rw [← List.prefix_iff_eq_take.mp hpart] at heq
  -- the last frame is not complete
  have hj' : j ≤ recs.length := by
    by_contra hcon
    have hall : (recs ++ [r]).take j = recs ++ [r] :=
      List.take_of_length_le (by rw [List.length_append, List.length_singleton]; omega)
    have := hshort hle
    rw [hall] at this
    exact hne (hpart.eq_of_length_le this)
  have htake : ∀ j ≤ recs.length, (recs ++ [r]).take j = recs.take j := fun j hj =>
    List.take_append_of_le_length hj
  rw [htake j hj'] at heq
  refine ⟨j, ?_, hj', ?_⟩
  · by_contra hcon
    have hlt := hlong (by rw [List.length_append, List.length_singleton]; omega)
    have hk := h.le
    have hmono := length_frames_take_le crc recs (show j + 1 ≤ k by omega)
    have hdurable := h.durable
    have hsynced := h.synced_le
    rw [htake (j + 1) (by omega)] at hlt
    omega
  · rw [heq]
    exact readAll_frames (fun r' hr' => h.fits r' (List.mem_of_mem_take hr')) ht

/-- What is left of such a file after a crash. -/
lemma Bears.cut (h : Bears crc node recs k) {n : ℕ} (hn : node.synced ≤ n) :
    Bears crc ⟨node.data.take n, (node.data.take n).length⟩ recs k where
  fits := h.fits
  le := h.le
  synced_le := le_rfl
  durable := by
    have hdurable := h.durable
    have hsynced := h.synced_le
    rw [List.length_take]
    exact le_min (hdurable.trans hn) (hdurable.trans hsynced)
  torn := by
    obtain ⟨r, hr, hpart, hne⟩ := h.torn
    refine ⟨r, hr, (List.take_prefix n _).trans hpart, fun he => hne (hpart.eq_of_length_le ?_)⟩
    rw [← he]
    exact (List.take_prefix n _).length_le

/-- The bytes of a log of which nothing but the buffer is missing. -/
lemma torn_of_append {data buf : List UInt8} (h : data ++ buf = frames crc recs) :
    ∃ r : Record, r.Fits ∧ data <+: frames crc (recs ++ [r]) ∧ data ≠ frames crc (recs ++ [r]) := by
  refine ⟨.jobDrop ⟨0⟩, Record.fits_of_msg_le (Nat.zero_le _), ?_, fun he => ?_⟩
  · rw [frames_append, ← h, List.append_assoc]
    exact List.prefix_append _ _
  · have hlen := congrArg List.length he
    rw [frames_append, ← h] at hlen
    simp [frames, frameHeader] at hlen

/-- The file at `path` bears `recs`. -/
def Keeps (crc : List UInt8 → UInt32) (s : Fs) (path : String) (recs : List Record) (k : ℕ) :
    Prop :=
  ∃ i, s.names path = some i ∧ Bears crc (s.inodes i) recs k

lemma Keeps.crash {s : Fs} {path : String} (h : Keeps crc s path recs k) (keep : ℕ → ℕ) :
    Keeps crc (s.crash keep) path recs k := by
  obtain ⟨i, hi, hbears⟩ := h
  exact ⟨i, hi, hbears.cut (le_max_left _ _)⟩

/-! ## Append and Sync on the file -/

variable {may : Luck → Prop} {I : Fs → Prop} {s : Fs} {l : LogFile} {i : ℕ} {buf : List UInt8}

/-- The header `Append` writes. -/
lemma header_eq (crc : List UInt8 → UInt32) (r : Record) :
    ∃ head, putUint32 (makeBytes frameHeader) 0 (UInt32.ofNat r.bytes.length) = .ok head ∧
      putUint32 head 4 (crc r.bytes) = .ok (header crc r) := by
  have hhead : makeBytes frameHeader = makeBytes 8 := rfl
  rw [hhead]
  simp (disch := simp) only [putUint32, putAt_start]
  refine ⟨_, rfl, ?_⟩
  simp (disch := simp) only [putAt_makeBytes]
  simp [header]

/-- `Append` passes the frame of the record to the buffered writer. -/
lemma wp_append {r : Record} {Q : Bool × LogFile → Fs → Prop} (hw : l.w = ⟨l.f, buf, false⟩)
    (hat : s.AtEnd l.f i) (hI : ∀ b, b <+: buf ++ framed crc r → I (s.grow l.f i b))
    (hok : ∀ b buf', b ++ buf' = buf ++ framed crc r →
      Q (false, { l with w := ⟨l.f, buf', false⟩, size := l.size + (framed crc r).length })
        (s.grow l.f i b))
    (hfail : CanFail may → ∀ b buf', b <+: buf ++ framed crc r → b ≠ buf ++ framed crc r →
      Q (true, { l with w := ⟨l.f, buf', true⟩ }) (s.grow l.f i b)) :
    wp exec may I (l.append crc r) Q s := by
  obtain ⟨head, hhead, hheader⟩ := header_eq crc r
  have hsplit : buf ++ framed crc r = (buf ++ header crc r) ++ r.bytes := by
    rw [framed, List.append_assoc]
  have hpart : buf ++ header crc r <+: buf ++ framed crc r := ⟨_, hsplit.symm⟩
  unfold LogFile.append
  simp only [encode_eq, hhead, hheader, wp_bind, wp_lift_ok]
  rw [hw]
  refine wp_write hat (fun b hb => hI b (hb.trans hpart)) (fun b buf' hb => ?_)
    fun hcan b buf' hb hne => ?_
  · -- the header has been written; now the body
    simp only [Bool.false_eq_true, if_false, wp_bind]
    have hrest : b ++ (buf' ++ r.bytes) = buf ++ framed crc r := by
      rw [hsplit, ← hb, List.append_assoc]
    refine wp_write (hat.grow b) (fun b' hb' => ?_) (fun b' buf'' hb' => ?_)
      fun hcan b' buf'' hb' hne => ?_
    · rw [grow_grow]
      refine hI _ ?_
      rw [← hrest]
      exact (List.prefix_append_right_inj b).mpr hb'
    · rw [grow_grow]
      have hdone := hok (b ++ b') buf'' (by rw [List.append_assoc, hb', hrest])
      rw [length_framed, ← Record.length_bytes] at hdone
      exact hdone
    · rw [grow_grow]
      refine hfail hcan _ buf'' ?_ fun he => hne ?_
      · rw [← hrest]
        exact (List.prefix_append_right_inj b).mpr hb'
      · rw [← hrest] at he
        exact List.append_cancel_left he
  · refine hfail hcan b buf' (hb.trans hpart) fun he => hne ?_
    exact hb.eq_of_length_le (by rw [he]; exact hpart.length_le)

/-- `Sync` writes the buffer and syncs the file. -/
lemma wp_sync {Q : Bool × LogFile → Fs → Prop} (hw : l.w = ⟨l.f, buf, false⟩)
    (hat : s.AtEnd l.f i) (hI : ∀ b, b <+: buf → I (s.grow l.f i b))
    (hok : Q (false, { l with w := ⟨l.f, [], false⟩ }) ((s.grow l.f i buf).settle i))
    (hunsynced : CanFail may → Q (true, { l with w := ⟨l.f, [], false⟩ }) (s.grow l.f i buf))
    (hfail : CanFail may → ∀ b buf', b <+: buf → b ≠ buf →
      Q (true, { l with w := ⟨l.f, buf', true⟩ }) (s.grow l.f i b)) :
    wp exec may I l.sync Q s := by
  have hI' : I s := grow_nil hat ▸ hI [] List.nil_prefix
  unfold LogFile.sync
  rw [wp_bind, hw]
  refine wp_flush hat hI' ?_ fun hcan b buf' hb hne => ?_
  · simp only [Bool.false_eq_true, if_false, wp_bind]
    rw [wp_os]
    refine ⟨hI buf (List.prefix_refl _), fun x hx => ?_⟩
    cases x with
    | ok =>
        rw [exec_sync (hat.grow buf)]
        exact hok
    | fails n => exact hunsynced ⟨n, hx⟩
  · exact hfail hcan b buf' hb hne

/-! ## An open log -/

/-- The log `l` is open on the file at its path, and `recs` have been appended to it, of which the
first `k` have been synced. -/
structure Holds (crc : List UInt8 → UInt32) (s : Fs) (l : LogFile) (recs : List Record) (k : ℕ) :
    Prop where
  ok : s.Ok
  size : l.size = (frames crc recs).length
  handle : l.w.h = l.f
  file : ∃ i, s.names l.path = some i ∧ s.AtEnd l.f i ∧ Bears crc (s.inodes i) recs k ∧
    (l.w.err = false → (s.inodes i).data ++ l.w.buf = frames crc recs)

lemma Holds.keeps (h : Holds crc s l recs k) : Keeps crc s l.path recs k := by
  obtain ⟨i, hi, -, hbears, -⟩ := h.file
  exact ⟨i, hi, hbears⟩

/-- After an error of the file `Append` and `Sync` do nothing. -/
lemma wp_append_of_err {r : Record} {Q : Bool × LogFile → Fs → Prop}
    (hw : l.w = ⟨l.f, buf, true⟩) (hQ : Q (true, l) s) : wp exec may I (l.append crc r) Q s := by
  obtain ⟨head, hhead, hheader⟩ := header_eq crc r
  unfold LogFile.append
  simp only [encode_eq, hhead, hheader, wp_bind, wp_lift_ok]
  rw [hw, write_of_err, ← hw]
  exact hQ

lemma wp_sync_of_err {Q : Bool × LogFile → Fs → Prop} (hw : l.w = ⟨l.f, buf, true⟩)
    (hQ : Q (true, l) s) : wp exec may I l.sync Q s := by
  unfold LogFile.sync
  rw [wp_bind, hw, flush_of_err, ← hw]
  exact hQ

/-- What an operation on the log reports and leaves: it fails only if a call can fail or has failed
before. -/
def Reports (may : Luck → Prop) (l : LogFile) (o : Bool × LogFile) : Prop :=
  o.2.path = l.path ∧
    (l.w.err = false → ¬ CanFail may → o.1 = false ∧ o.2.w.err = false)

/-- The log after bytes have been added to its file, as long as no error has been reported. -/
lemma Holds.grow (h : Holds crc s l recs k) (hat : s.AtEnd l.f i) (hi : s.names l.path = some i)
    (hbears : Bears crc (s.inodes i) recs k) {recs' : List Record} (hfits : ∀ r ∈ recs', r.Fits)
    (hrecs : recs <+: recs') {b buf' : List UInt8} {size : ℕ}
    (hsize : size = (frames crc recs').length)
    (hdata : (s.inodes i).data ++ b ++ buf' = frames crc recs') :
    Holds crc (s.grow l.f i b) ⟨l.path, l.f, ⟨l.f, buf', false⟩, size⟩ recs' k := by
  obtain ⟨added, rfl⟩ := hrecs
  refine ⟨h.ok.grow hat b, hsize, rfl, i, hi, hat.grow b, ?_, fun _ => ?_⟩
  · rw [grow_inodes_self]
    refine ⟨hfits, ?_, ?_, ?_, torn_of_append hdata⟩
    · rw [List.length_append]
      exact hbears.le.trans (Nat.le_add_right _ _)
    · rw [List.length_append]
      exact hbears.synced_le.trans (Nat.le_add_right _ _)
    · rw [List.take_append_of_le_length hbears.le]
      exact hbears.durable
  · rw [grow_inodes_self]
    exact hdata

/-- The log after an error: a proper part of one more frame may be in the file. -/
lemma Holds.broken (h : Holds crc s l recs k) (hat : s.AtEnd l.f i) (hi : s.names l.path = some i)
    (hbears : Bears crc (s.inodes i) recs k) {r : Record} (hr : r.Fits) {b buf' : List UInt8}
    (hpart : (s.inodes i).data ++ b <+: frames crc (recs ++ [r]))
    (hne : (s.inodes i).data ++ b ≠ frames crc (recs ++ [r])) :
    Holds crc (s.grow l.f i b) ⟨l.path, l.f, ⟨l.f, buf', true⟩, l.size⟩ recs k := by
  refine ⟨h.ok.grow hat b, h.size, rfl, i, hi, hat.grow b, ?_, fun he => by cases he⟩
  rw [grow_inodes_self]
  refine ⟨hbears.fits, hbears.le, ?_, hbears.durable, r, hr, hpart, hne⟩
  rw [List.length_append]
  exact hbears.synced_le.trans (Nat.le_add_right _ _)

/-- `Append`. -/
lemma Holds.append (h : Holds crc s l recs k) {r : Record} (hr : r.Fits) :
    wp exec may (fun _ => True) (l.append crc r) (fun o t =>
      Holds crc t o.2 (if o.1 then recs else recs ++ [r]) k ∧ Reports may l o) s := by
  obtain ⟨i, hi, hat, hbears, hdata⟩ := h.file
  have hw : l.w = ⟨l.f, l.w.buf, l.w.err⟩ := by rw [← h.handle]
  cases herr : l.w.err with
  | true =>
      rw [herr] at hw
      exact wp_append_of_err hw ⟨h, rfl, fun he => by rw [herr] at he; cases he⟩
  | false =>
      rw [herr] at hw
      have hall : (s.inodes i).data ++ (l.w.buf ++ framed crc r) = frames crc (recs ++ [r]) := by
        rw [← List.append_assoc, hdata herr, frames_append, frames_cons, frames_nil,
          List.append_nil]
      refine wp_append hw hat (fun _ _ => trivial)
        (fun b buf' hb => ⟨?_, rfl, fun _ _ => ⟨rfl, rfl⟩⟩)
        fun hcan b buf' hb hne => ⟨?_, rfl, fun _ hnot => absurd hcan hnot⟩
      · refine h.grow hat hi hbears ?_ (List.prefix_append _ _) ?_ ?_
        · exact List.forall_mem_append.mpr ⟨hbears.fits, List.forall_mem_singleton.mpr hr⟩
        · rw [h.size, frames_append, List.length_append, frames_cons, frames_nil, List.append_nil]
        · rw [List.append_assoc, hb, hall]
      · refine h.broken hat hi hbears hr ?_ fun he => hne ?_
        · rw [← hall]
          exact (List.prefix_append_right_inj _).mpr hb
        · rw [← hall] at he
          exact List.append_cancel_left he

/-- `Sync`. -/
lemma Holds.sync (h : Holds crc s l recs k) :
    wp exec may (fun _ => True) l.sync (fun o t =>
      Holds crc t o.2 recs (if o.1 then k else recs.length) ∧ Reports may l o) s := by
  obtain ⟨i, hi, hat, hbears, hdata⟩ := h.file
  have hw : l.w = ⟨l.f, l.w.buf, l.w.err⟩ := by rw [← h.handle]
  cases herr : l.w.err with
  | true =>
      rw [herr] at hw
      exact wp_sync_of_err hw ⟨h, rfl, fun he => by rw [herr] at he; cases he⟩
  | false =>
      rw [herr] at hw
      have hflushed : Holds crc (s.grow l.f i l.w.buf) ⟨l.path, l.f, ⟨l.f, [], false⟩, l.size⟩ recs
          k := by
        refine h.grow hat hi hbears hbears.fits (List.prefix_refl _) h.size ?_
        rw [List.append_nil, hdata herr]
      refine wp_sync hw hat (fun _ _ => trivial) ⟨?_, rfl, fun _ _ => ⟨rfl, rfl⟩⟩
        (fun hcan => ⟨hflushed, rfl, fun _ hnot => absurd hcan hnot⟩)
        fun hcan b buf' hb hne => ⟨?_, rfl, fun _ hnot => absurd hcan hnot⟩
      · -- everything appended is in the file and synced
        refine ⟨hflushed.ok.setInode _ _, h.size, rfl, i, hi, (hat.grow _).settle, ?_, fun _ => ?_⟩
        · rw [settle_inodes_self, grow_inodes_self, hdata herr]
          refine ⟨hbears.fits, le_rfl, le_rfl, ?_, torn_of_append (List.append_nil _)⟩
          exact (length_frames_take_le crc recs (le_refl recs.length)).trans_eq (by simp)
        · rw [settle_inodes_self, grow_inodes_self, hdata herr]
          exact List.append_nil _
      · obtain ⟨rest, hrest⟩ := hb
        have hall : (s.inodes i).data ++ b ++ rest = frames crc recs := by
          rw [List.append_assoc, hrest, hdata herr]
        obtain ⟨r, hr, hpart, hne'⟩ := torn_of_append hall
        exact h.broken hat hi hbears hr hpart hne'

/-! ## Sequences of operations -/

/-- A later operation on the log. -/
inductive Op
  | append (r : Record)
  | sync

/-- What the owner of a log knows of the operations since some time: the records whose `Append`
returned nil, and how many these were when `Sync` last returned nil. -/
structure Seen where
  added : List Record := []
  synced : Option ℕ := none

/-- How many records of the log are known to be synced, if there were `recs` and the first `k` of
them were. -/
def Seen.durable (seen : Seen) (recs : List Record) (k : ℕ) : ℕ :=
  seen.synced.elim k (recs.length + ·)

/-- What is known after one more operation. -/
def Seen.next (seen : Seen) : Op → Bool → Seen
  | _, true => seen
  | .append r, false => { seen with added := seen.added ++ [r] }
  | .sync, false => { seen with synced := some seen.added.length }

/-- One operation. -/
def LogFile.perform (crc : List UInt8 → UInt32) (l : LogFile) : Op → Proc (Bool × LogFile)
  | .append r => l.append crc r
  | .sync => l.sync

/-- Operations in order, whatever they return. -/
def LogFile.session (crc : List UInt8 → UInt32) : List Op → LogFile → Seen → Proc (LogFile × Seen)
  | [], l, seen => return (l, seen)
  | op :: ops, l, seen => do
    let (failed, l) ← l.perform crc op
    session crc ops l (seen.next op failed)

/-- One operation extends the log by what its owner has seen. -/
lemma Holds.perform {seen : Seen} (h : Holds crc s l (recs ++ seen.added) (seen.durable recs k))
    {op : Op} (hop : ∀ r, op = .append r → r.Fits) :
    wp exec may (fun _ => True) (l.perform crc op) (fun o t =>
      Holds crc t o.2 (recs ++ (seen.next op o.1).added) ((seen.next op o.1).durable recs k) ∧
        Reports may l o) s := by
  cases op with
  | append r =>
      refine wp_mono (fun _ h => h) (fun o t ho => ⟨?_, ho.2⟩) (h.append (hop r rfl))
      obtain ⟨_ | _, l'⟩ := o
      · have hnow := ho.1
        simp only [Bool.false_eq_true, if_false, List.append_assoc] at hnow
        exact hnow
      · exact ho.1
  | sync =>
      refine wp_mono (fun _ h => h) (fun o t ho => ⟨?_, ho.2⟩) h.sync
      obtain ⟨_ | _, l'⟩ := o
      · have hnow := ho.1
        simp only [Bool.false_eq_true, if_false, List.length_append] at hnow
        exact hnow
      · exact ho.1

/-- Whatever fails, a sequence of operations extends the log by what its owner has seen; if nothing
fails, by all of them. -/
lemma Holds.session {ops : List Op} (hops : ∀ r, .append r ∈ ops → r.Fits) {seen : Seen}
    (h : Holds crc s l (recs ++ seen.added) (seen.durable recs k)) :
    wp exec may (fun _ => True) (l.session crc ops seen) (fun o t =>
      Holds crc t o.1 (recs ++ o.2.added) (o.2.durable recs k) ∧ o.1.path = l.path ∧
        (l.w.err = false → ¬ CanFail may →
          o.2 = ops.foldl (fun seen op => seen.next op false) seen)) s := by
  induction ops generalizing s l seen with
  | nil => exact ⟨h, rfl, fun _ _ => rfl⟩
  | cons op ops ih =>
      unfold LogFile.session
      rw [wp_bind]
      have hop : ∀ r, op = .append r → r.Fits := fun r hr => hops r (hr ▸ List.mem_cons_self)
      refine wp_mono (fun _ h => h) (fun o t ho => ?_) (h.perform hop)
      obtain ⟨failed, l'⟩ := o
      obtain ⟨hholds, hpath, hclean⟩ := ho
      refine wp_mono (fun _ h => h) (fun o' t' ho' => ⟨ho'.1, ho'.2.1.trans hpath, ?_⟩)
        (ih (fun r hr => hops r (List.mem_cons_of_mem _ hr)) hholds)
      intro herr hnot
      obtain ⟨hfalse, herr'⟩ := hclean herr hnot
      rw [ho'.2.2 herr' hnot, List.foldl_cons]
      exact congrArg (fun b => ops.foldl _ (seen.next op b)) hfalse

/-! ## Open -/

/-- `Open` on a file with known contents; `u` is the file system with the file in it, which `Open`
may have to create. -/
lemma wp_openLog {path : String} {u : Fs} {got : List Record} {good : ℕ}
    {Q : Option (LogFile × List Record) → Fs → Prop} (hopened : s.opened path false = u.newHandle i)
    (hnext : u.nextHandle = s.nextHandle)
    (hread : readAll crc (u.inodes i).data = .ok (got, good))
    (hsome : ∀ t : Fs, t.names = u.names → t.inodes i = (u.inodes i).resize good →
      t.handles u.nextHandle = some ⟨i, good⟩ → (u.Ok → t.Ok) →
      Q (some (⟨path, u.nextHandle, .new u.nextHandle, good⟩, got)) t)
    (hnone : CanFail may → ∀ t, Q none t) :
    wp exec may (fun _ => True) (openLog crc path) Q s := by
  unfold openLog
  rw [wp_bind, wp_os]
  refine ⟨trivial, fun x hx => ?_⟩
  cases x with
  | fails n => exact hnone ⟨n, hx⟩ _
  | ok =>
      rw [exec, hopened, ← hnext]
      dsimp only
      rw [wp_bind, wp_os]
      refine ⟨trivial, fun x _ => ?_⟩
      rw [exec_read (newHandle_handles_self u i)]
      have hdata : ((u.newHandle i).inodes i).data.drop 0 = (u.inodes i).data := rfl
      dsimp only
      rw [wp_bind, hdata, hread, wp_lift_ok]
      dsimp only
      -- the file is cut behind the last good frame, and the handle put there
      rw [wp_bind, wp_os]
      refine ⟨trivial, fun x hx => ?_⟩
      cases x with
      | fails n => exact ⟨trivial, fun _ _ => hnone ⟨n, hx⟩ _⟩
      | ok =>
          rw [exec_truncate (setHandle_handles_self _ _ _)]
          refine ⟨trivial, fun x hx => ?_⟩
          cases x with
          | fails n => exact ⟨trivial, fun _ _ => hnone ⟨n, hx⟩ _⟩
          | ok =>
              have hhandle : ∀ (v : Fs) x node,
                  ((v.setHandle u.nextHandle x).setInode i node).handles u.nextHandle = x :=
                fun v x _ => setHandle_handles_self v u.nextHandle x
              rw [exec_seek (hhandle _ _ _)]
              refine hsome _ rfl (setInode_inodes_self _ _ _) (setHandle_handles_self _ _ _)
                fun hu => ?_
              refine Ok.setHandle (Ok.setInode (Ok.setHandle (hu.newHandle i) ?_) _ _) ?_
              · exact fun _ => Nat.lt_succ_self _
              · exact fun _ => Nat.lt_succ_self _

lemma opened_of_some {path : String} (hi : s.names path = some i) :
    s.opened path false = s.newHandle i := by
  simp [opened, hi]

lemma opened_of_none {path : String} (hnone : s.names path = none) :
    s.opened path false = (s.create path).newHandle s.nextInode := by
  simp [opened, hnone]

/-- `Open` on `path` returns `got`: it does so when no call fails, and nothing else whichever calls
fail. -/
def OpensTo (crc : List UInt8 → UInt32) (s : Fs) (path : String) (got : List Record) : Prop :=
  (∃ n l t, (openLog crc path).run exec (List.replicate n .ok) s = .returned (some (l, got)) t) ∧
    ∀ xs l recs t, (openLog crc path).run exec xs s = .returned (some (l, recs)) t → recs = got

/-- `Open` on `path` returns a part of `recs` from the front that has at least the first `k`. -/
def Recovers (crc : List UInt8 → UInt32) (s : Fs) (path : String) (recs : List Record) (k : ℕ) :
    Prop :=
  ∃ got, OpensTo crc s path got ∧ got <+: recs ∧ k ≤ got.length

/-- Nothing fails if every call succeeds. -/
lemma not_canFail : ¬ CanFail (Eq .ok) := fun ⟨_, h⟩ => by cases h

lemma opensTo_of_readAll {path : String} {got : List Record} {good : ℕ}
    (hi : s.names path = some i) (hread : readAll crc (s.inodes i).data = .ok (got, good)) :
    OpensTo crc s path got := by
  constructor
  · have hwp : wp exec (Eq .ok) (fun _ => True) (openLog crc path)
        (fun o _ => ∃ l, o = some (l, got)) s :=
      wp_openLog (opened_of_some hi) rfl hread (fun _ _ _ _ _ => ⟨_, rfl⟩)
        fun hcan => absurd hcan not_canFail
    obtain ⟨n, o, t, hrun, l, rfl⟩ := hwp.returns rfl
    exact ⟨n, l, t, hrun⟩
  · intro xs l recs t hrun
    have hwp : wp exec (fun _ => True) (fun _ => True) (openLog crc path)
        (fun o _ => ∀ l recs, o = some (l, recs) → recs = got) s :=
      wp_openLog (opened_of_some hi) rfl hread
        (fun _ _ _ _ _ l recs h => (Prod.mk.inj (Option.some_inj.mp h)).2.symm)
        fun _ _ l recs h => by cases h
    have hmeets := hwp.sound fun _ (_ : _ ∈ xs) => trivial
    rw [hrun] at hmeets
    exact hmeets l recs rfl

lemma Keeps.recovers {path : String} (h : Keeps crc s path recs k) :
    Recovers crc s path recs k := by
  obtain ⟨i, hi, hbears⟩ := h
  obtain ⟨j, hkj, hj, hread⟩ := hbears.readAll
  refine ⟨recs.take j, opensTo_of_readAll hi hread, List.take_prefix _ _, ?_⟩
  rwa [List.length_take, min_eq_left hj]

/-- The log that `Open` returns holds the records it returns. -/
lemma holds_openLog (crc : List UInt8 → UInt32) {path : String} {u : Fs}
    (hopened : s.opened path false = u.newHandle i) (hnext : u.nextHandle = s.nextHandle)
    (hu : u.Ok) (hi : u.names path = some i) :
    wp exec may (fun _ => True) (openLog crc path) (fun o t => ∀ l recs, o = some (l, recs) →
      ∀ k ≤ recs.length, (frames crc (recs.take k)).length ≤ (u.inodes i).synced →
        Holds crc t l recs k) s := by
  obtain ⟨rs, rest, heq, hfits, hread⟩ :=
    readLoop_spec crc (u.inodes i).data.length (u.inodes i).data [] 0
  rw [List.nil_append, Nat.zero_add] at hread
  refine wp_openLog hopened hnext hread
    (fun t hnames hnode hhandle hok l recs ho k hk hdurable => ?_)
    fun _ _ l recs ho => by cases ho
  obtain ⟨rfl, rfl⟩ := Prod.mk.inj (Option.some_inj.mp ho)
  have hnode' : t.inodes i =
      ⟨frames crc rs, min (u.inodes i).synced (frames crc rs).length⟩ := by
    rw [hnode, Inode.resize, heq, List.take_left, List.length_append,
      Nat.sub_eq_zero_of_le (by omega), List.replicate_zero, List.append_nil]
  refine ⟨hok hu, rfl, rfl, i, by rw [hnames]; exact hi, ⟨?_, ?_⟩, ⟨hfits, hk, ?_, ?_, ?_⟩,
    fun _ => ?_⟩
  · rw [hnode']
    exact hhandle
  · rw [hnode']
    exact min_le_right _ _
  · rw [hnode']
    exact min_le_right _ _
  · rw [hnode']
    refine le_min hdurable ?_
    exact (length_frames_take_le crc rs hk).trans_eq (by simp)
  · rw [hnode']
    exact torn_of_append (List.append_nil _)
  · rw [hnode']
    exact List.append_nil _

end RudpScheduler.Wal
