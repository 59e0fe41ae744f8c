import RudpScheduler.Construction.WalCodec

/-!
# What `Open` returns is what it keeps

`Record.bytes` is the layout of a record's body and `framed` the layout of its frame.  `Append`
produces exactly the frames, and a round of `readAll` either stops or has read one
(`readLoop_cases`), whatever the file contains: every accepted body is the only encoding of what it
decodes to.  So the bytes `Open` keeps are the frames of the records it returns (`open_keeps`).

For a file that was cut anywhere (`torn_tail`) the frames in front of the cut are read one by one
(`readLoop_frames`), and what is left of the next one stops the loop (`readLoop_torn`).
-/

namespace RudpScheduler

namespace Record

/-- The message string of a `JobStart`. -/
def msg : Record → Msg
  | .jobStart r => r.msg
  | _ => []

/-- The layout of a record's body. -/
def bytes : Record → List UInt8
  | .jobStart r =>
    [1] ++ beBytes 8 r.job.toNat ++ beBytes 8 r.lo.toNat ++ beBytes 8 r.hi.toNat ++
      beBytes 8 r.size.toNat ++ beBytes 4 r.n.toNat ++
      beBytes 2 (UInt16.ofNat r.msg.length).toNat ++ r.msg
  | .chunkDone r =>
    [2] ++ beBytes 8 r.job.toNat ++ beBytes 4 r.idx.toNat ++ beBytes 8 r.hash.toNat ++
      beBytes 8 r.nonce.toNat
  | .jobDone r =>
    [3] ++ beBytes 8 r.job.toNat ++ beBytes 8 r.hash.toNat ++ beBytes 8 r.nonce.toNat
  | .jobDrop r => [4] ++ beBytes 8 r.job.toNat

@[simp] lemma length_bytes (r : Record) : r.bytes.length = r.bodyLen := by
  cases r with
  | jobStart r =>
      simp [bytes, bodyLen]
      omega
  | _ => simp [bytes, bodyLen]

lemma bodyLen_pos (r : Record) : 0 < r.bodyLen := by
  cases r <;> simp [bodyLen]

lemma bodyLen_le (r : Record) : r.bodyLen ≤ 39 + r.msg.length := by
  cases r <;> simp [bodyLen, msg]

/-- A record whose frame is read back: the length of the string fits sixteen bits and the body
is not too long. -/
def Fits (r : Record) : Prop := r.msg.length < 2 ^ 16 ∧ r.bodyLen ≤ Wal.maxBody

/-- Every record whose string a message can carry fits. -/
lemma fits_of_msg_le {r : Record} (h : r.msg.length ≤ 1024) : r.Fits := by
  have hlen := r.bodyLen_le
  have hmax : Wal.maxBody = 65536 := rfl
  refine ⟨by omega, by omega⟩

end Record

namespace Wal

/-! ## Bodies -/

lemma encode_eq (r : Record) : encode r = .ok r.bytes := by
  cases r with
  | jobStart r =>
      simp (disch := simp) only [encode, putUint64, putUint32, putUint16, putAt_start,
        putAt_makeBytes, Go.ok_bind]
      simp [Record.bytes]
  | chunkDone r =>
      simp (disch := simp) only [encode, putUint64, putUint32, putAt_start, putAt_makeBytes,
        Go.ok_bind]
      simp [Record.bytes]
  | jobDone r =>
      simp (disch := simp) only [encode, putUint64, putAt_start, putAt_makeBytes, Go.ok_bind]
      simp [Record.bytes]
  | jobDrop r =>
      simp (disch := simp) only [encode, putUint64, putAt_start, putAt_makeBytes, Go.ok_bind]
      simp [Record.bytes]

/-- Which branch `decode` takes. -/
lemma decode_of_typ {b : List UInt8} {x : UInt8} (h : byteAt b 0 = .ok x) :
    decode b =
      if x = 1 then decodeJobStart b
      else if x = 2 then decodeChunkDone b
      else if x = 3 then decodeJobDone b
      else if x = 4 then decodeJobDrop b
      else .ok none := by
  rw [decode, h, Go.ok_bind, Go.pure_eq_ok]

/-! ### What is accepted is a layout -/

lemma bytes_of_decodeJobStart {b : List UInt8} {r : Record} (hb : byteAt b 0 = .ok 1)
    (h : decodeJobStart b = .ok (some r)) : r.msg.length < 2 ^ 16 ∧ b = r.bytes := by
  rw [decodeJobStart] at h
  split_ifs at h with hlen
  · cases h
  · have hle : 39 ≤ b.length := by omega
    have hlt : beNat (slice b 37 2) < 2 ^ 16 := beNat_slice_lt (by omega)
    rw [uint16At_of_le (by omega), Go.ok_bind, UInt16.toNat_ofNat', Nat.mod_eq_of_lt hlt] at h
    split_ifs at h with hn
    · cases h
    · simp (disch := omega) only [Go.ok_bind, uint64At_of_le, uint32At_of_le, sliceFrom_of_le,
        Go.pure_eq_ok, Except.ok.injEq, Option.some.injEq] at h
      subst h
      have hmsg : (b.drop 39).length = beNat (slice b 37 2) := by
        rw [List.length_drop]
        omega
      refine ⟨hmsg ▸ hlt, ?_⟩
      rw [Record.bytes, ← slice_of_byteAt hb]
      simp (disch := omega) only [hmsg, beBytes_uint64, beBytes_uint32, beBytes_uint16, slice_join,
        slice_append_drop, List.drop_zero]

lemma bytes_of_decodeChunkDone {b : List UInt8} {r : Record} (hb : byteAt b 0 = .ok 2)
    (h : decodeChunkDone b = .ok (some r)) : r.msg.length < 2 ^ 16 ∧ b = r.bytes := by
  rw [decodeChunkDone] at h
  split_ifs at h with hlen
  · cases h
  · rw [not_not] at hlen
    simp (disch := omega) only [Go.ok_bind, uint64At_of_le, uint32At_of_le, Go.pure_eq_ok,
      Except.ok.injEq, Option.some.injEq] at h
    subst h
    refine ⟨Nat.two_pow_pos 16, ?_⟩
    rw [Record.bytes, ← slice_of_byteAt hb]
    simp (disch := omega) only [beBytes_uint64, beBytes_uint32, slice_join]
    exact (slice_all hlen).symm

lemma bytes_of_decodeJobDone {b : List UInt8} {r : Record} (hb : byteAt b 0 = .ok 3)
    (h : decodeJobDone b = .ok (some r)) : r.msg.length < 2 ^ 16 ∧ b = r.bytes := by
  rw [decodeJobDone] at h
  split_ifs at h with hlen
  · cases h
  · rw [not_not] at hlen
    simp (disch := omega) only [Go.ok_bind, uint64At_of_le, Go.pure_eq_ok, Except.ok.injEq,
      Option.some.injEq] at h
    subst h
    refine ⟨Nat.two_pow_pos 16, ?_⟩
    rw [Record.bytes, ← slice_of_byteAt hb]
    simp (disch := omega) only [beBytes_uint64, slice_join]
    exact (slice_all hlen).symm

lemma bytes_of_decodeJobDrop {b : List UInt8} {r : Record} (hb : byteAt b 0 = .ok 4)
    (h : decodeJobDrop b = .ok (some r)) : r.msg.length < 2 ^ 16 ∧ b = r.bytes := by
  rw [decodeJobDrop] at h
  split_ifs at h with hlen
  · cases h
  · rw [not_not] at hlen
    simp (disch := omega) only [Go.ok_bind, uint64At_of_le, Go.pure_eq_ok, Except.ok.injEq,
      Option.some.injEq] at h
    subst h
    refine ⟨Nat.two_pow_pos 16, ?_⟩
    rw [Record.bytes, ← slice_of_byteAt hb]
    simp (disch := omega) only [beBytes_uint64, slice_join]
    exact (slice_all hlen).symm

lemma bytes_of_decode {b : List UInt8} {r : Record} (h : decode b = .ok (some r)) :
    r.msg.length < 2 ^ 16 ∧ b = r.bytes := by
  cases b with
  | nil => cases h
  | cons x rest =>
      have hb := byteAt_cons x rest
      rw [decode_of_typ hb] at h
      split_ifs at h with h1 h2 h3 h4
      · exact bytes_of_decodeJobStart (h1 ▸ hb) h
      · exact bytes_of_decodeChunkDone (h2 ▸ hb) h
      · exact bytes_of_decodeJobDone (h3 ▸ hb) h
      · exact bytes_of_decodeJobDrop (h4 ▸ hb) h
      · cases h

/-! ### Every layout is accepted -/

lemma decodeJobStart_bytes {r : JobStart} (h : r.msg.length < 2 ^ 16) :
    decodeJobStart (Record.jobStart r).bytes = .ok (some (.jobStart r)) := by
  have hlen : (Record.jobStart r).bytes.length = 39 + r.msg.length := Record.length_bytes _
  have hdecl : uint16At (Record.jobStart r).bytes 37 = .ok (UInt16.ofNat r.msg.length) := by
    rw [uint16At_of_le (by omega)]
    simp only [Record.bytes, List.append_assoc]
    simp (disch := simp) only [slice_append, slice_zero_append, List.length_singleton,
      length_beBytes, Nat.reduceSub, ofNat_beNat_beBytes16]
  rw [decodeJobStart, if_neg (by omega), hdecl, Go.ok_bind, UInt16.toNat_ofNat',
    Nat.mod_eq_of_lt h, if_neg (not_not.mpr hlen)]
  simp (disch := omega) only [Go.ok_bind, uint64At_of_le, uint32At_of_le, sliceFrom_of_le]
  simp only [Record.bytes, List.append_assoc]
  simp (disch := simp) [slice_append, slice_zero_append, slice_cons_succ, drop_append_right]

lemma decodeChunkDone_bytes (r : ChunkDone) :
    decodeChunkDone (Record.chunkDone r).bytes = .ok (some (.chunkDone r)) := by
  have hlen : (Record.chunkDone r).bytes.length = 29 := Record.length_bytes _
  rw [decodeChunkDone, if_neg (not_not.mpr hlen)]
  simp (disch := omega) only [Go.ok_bind, uint64At_of_le, uint32At_of_le]
  simp only [Record.bytes, List.append_assoc]
  simp (disch := simp) [slice_append, slice_zero_append, slice_cons_succ, slice_all]

lemma decodeJobDone_bytes (r : JobDone) :
    decodeJobDone (Record.jobDone r).bytes = .ok (some (.jobDone r)) := by
  have hlen : (Record.jobDone r).bytes.length = 25 := Record.length_bytes _
  rw [decodeJobDone, if_neg (not_not.mpr hlen)]
  simp (disch := omega) only [Go.ok_bind, uint64At_of_le]
  simp only [Record.bytes, List.append_assoc]
  simp (disch := simp) [slice_append, slice_zero_append, slice_cons_succ, slice_all]

lemma decodeJobDrop_bytes (r : JobDrop) :
    decodeJobDrop (Record.jobDrop r).bytes = .ok (some (.jobDrop r)) := by
  have hlen : (Record.jobDrop r).bytes.length = 9 := Record.length_bytes _
  rw [decodeJobDrop, if_neg (not_not.mpr hlen)]
  simp (disch := omega) only [Go.ok_bind, uint64At_of_le]
  simp only [Record.bytes]
  simp (disch := simp) [slice_cons_succ, slice_all]

lemma decode_bytes {r : Record} (h : r.msg.length < 2 ^ 16) :
    decode r.bytes = .ok (some r) := by
  have hb : ∀ x rest, r.bytes = x :: rest → byteAt r.bytes 0 = .ok x := by
    intro x rest hx
    rw [hx, byteAt_cons]
  cases r with
  | jobStart r =>
      rw [Record.msg] at h
      rw [decode_of_typ (hb _ _ rfl), if_pos rfl, decodeJobStart_bytes h]
  | chunkDone r =>
      rw [decode_of_typ (hb _ _ rfl), if_neg (by decide), if_pos rfl, decodeChunkDone_bytes]
  | jobDone r =>
      rw [decode_of_typ (hb _ _ rfl), if_neg (by decide), if_neg (by decide), if_pos rfl,
        decodeJobDone_bytes]
  | jobDrop r =>
      rw [decode_of_typ (hb _ _ rfl), if_neg (by decide), if_neg (by decide), if_neg (by decide),
        if_pos rfl, decodeJobDrop_bytes]

/-! ### No body is indexed outside -/

lemma decodeJobStart_total (b : List UInt8) : ∃ o, decodeJobStart b = .ok o := by
  rw [decodeJobStart]
  split_ifs with hlen
  · exact ⟨none, rfl⟩
  · rw [uint16At_of_le (by omega), Go.ok_bind]
    split_ifs
    · exact ⟨none, rfl⟩
    · simp (disch := omega) only [Go.ok_bind, uint64At_of_le, uint32At_of_le, sliceFrom_of_le]
      exact ⟨_, rfl⟩

lemma decodeChunkDone_total (b : List UInt8) : ∃ o, decodeChunkDone b = .ok o := by
  rw [decodeChunkDone]
  split_ifs with hlen
  · exact ⟨none, rfl⟩
  · simp (disch := omega) only [Go.ok_bind, uint64At_of_le, uint32At_of_le]
    exact ⟨_, rfl⟩

lemma decodeJobDone_total (b : List UInt8) : ∃ o, decodeJobDone b = .ok o := by
  rw [decodeJobDone]
  split_ifs with hlen
  · exact ⟨none, rfl⟩
  · simp (disch := omega) only [Go.ok_bind, uint64At_of_le]
    exact ⟨_, rfl⟩

lemma decodeJobDrop_total (b : List UInt8) : ∃ o, decodeJobDrop b = .ok o := by
  rw [decodeJobDrop]
  split_ifs with hlen
  · exact ⟨none, rfl⟩
  · simp (disch := omega) only [Go.ok_bind, uint64At_of_le]
    exact ⟨_, rfl⟩

/-- `decode` of a body that is not empty does not panic. -/
lemma decode_total {b : List UInt8} (h : 0 < b.length) : ∃ o, decode b = .ok o := by
  cases b with
  | nil => cases h
  | cons x rest =>
      rw [decode_of_typ (byteAt_cons x rest)]
      split_ifs
      · exact decodeJobStart_total _
      · exact decodeChunkDone_total _
      · exact decodeJobDone_total _
      · exact decodeJobDrop_total _
      · exact ⟨none, rfl⟩

/-! ## Frames -/

variable {crc : List UInt8 → UInt32}

/-- The header of a frame: the length of the body and its checksum. -/
def header (crc : List UInt8 → UInt32) (r : Record) : List UInt8 :=
  beBytes 4 (UInt32.ofNat r.bodyLen).toNat ++ beBytes 4 (crc r.bytes).toNat

/-- The layout of a frame. -/
def framed (crc : List UInt8 → UInt32) (r : Record) : List UInt8 := header crc r ++ r.bytes

/-- The frames of a list of records, one after the other. -/
def frames (crc : List UInt8 → UInt32) (rs : List Record) : List UInt8 := rs.flatMap (framed crc)

@[simp] lemma length_header (r : Record) : (header crc r).length = frameHeader := by
  simp [header, frameHeader]

@[simp] lemma length_framed (r : Record) : (framed crc r).length = frameHeader + r.bodyLen := by
  simp [framed]

@[simp] lemma frames_nil : frames crc [] = [] := rfl

@[simp] lemma frames_cons (r : Record) (rs : List Record) :
    frames crc (r :: rs) = framed crc r ++ frames crc rs := rfl

@[simp] lemma frames_append (rs rs' : List Record) :
    frames crc (rs ++ rs') = frames crc rs ++ frames crc rs' := List.flatMap_append

/-- `Size` at the level of records is the length of the file. -/
lemma length_frames (l : Log) : (frames crc l.recs).length = l.size := by
  rw [frames, List.length_flatMap, Log.size]
  simp

lemma frame_eq (r : Record) : frame crc r = .ok (framed crc r) := by
  have hhead : makeBytes frameHeader = makeBytes 8 := rfl
  rw [frame, encode_eq, Go.ok_bind, hhead]
  simp (disch := simp) only [putUint32, putAt_start, putAt_makeBytes, Go.ok_bind]
  simp [framed, header]

lemma append_eq (f : List UInt8) (r : Record) : append crc f r = .ok (f ++ framed crc r) := by
  rw [append, frame_eq]
  rfl

/-- Appending records one by one concatenates their frames. -/
lemma foldlM_append (f : List UInt8) (rs : List Record) :
    rs.foldlM (append crc) f = .ok (f ++ frames crc rs) := by
  induction rs generalizing f with
  | nil => simp
  | cons r rs ih => rw [List.foldlM_cons, append_eq, Go.ok_bind, ih, frames_cons, List.append_assoc]

/-! ## One round of `readAll` -/

lemma toNat_bodyLen {r : Record} (h : r.Fits) : (UInt32.ofNat r.bodyLen).toNat = r.bodyLen := by
  have hmax : maxBody = 65536 := rfl
  have hlt : r.bodyLen < 2 ^ 32 := lt_of_le_of_lt h.2 (by rw [hmax]; decide)
  rw [UInt32.toNat_ofNat', Nat.mod_eq_of_lt hlt]

lemma uint32At_header (crc : List UInt8 → UInt32) (r : Record) :
    uint32At (header crc r) 0 = .ok (UInt32.ofNat r.bodyLen) ∧
      uint32At (header crc r) 4 = .ok (crc r.bytes) := by
  have hlen : (header crc r).length = 8 := length_header r
  constructor
  · rw [uint32At_of_le (by omega), header, slice_zero_append (length_beBytes 4 _),
      ofNat_beNat_beBytes32]
  · rw [uint32At_of_le (by omega), header, slice_append (by simp), length_beBytes,
      slice_all (length_beBytes 4 _), ofNat_beNat_beBytes32]

/-- A frame that fits is read, and the loop goes on behind it. -/
lemma readLoop_framed {r : Record} (h : r.Fits) (fuel : ℕ) (b : List UInt8) (recs : List Record)
    (good : ℕ) :
    readLoop crc (fuel + 1) (framed crc r ++ b) recs good =
      readLoop crc fuel b (recs ++ [r]) (good + (framed crc r).length) := by
  obtain ⟨h0, h4⟩ := uint32At_header crc r
  have hpos := r.bodyLen_pos
  have hmax := h.2
  have hhead : (framed crc r ++ b).take frameHeader = header crc r := by
    rw [framed, List.append_assoc, List.take_left' (length_header r)]
  have hdrop : (framed crc r ++ b).drop frameHeader = r.bytes ++ b := by
    rw [framed, List.append_assoc, List.drop_left' (length_header r)]
  have hlen : ¬ (framed crc r ++ b).length < frameHeader := by
    rw [List.length_append, length_framed]
    omega
  have hbody : ¬ (r.bytes ++ b).length < r.bodyLen := by
    rw [List.length_append, Record.length_bytes]
    omega
  rw [readLoop, if_neg hlen, hhead, hdrop]
  simp only [h0, Go.ok_bind, toNat_bodyLen h]
  rw [if_neg (by omega), if_neg hbody, List.take_left' (Record.length_bytes r),
    List.drop_left' (Record.length_bytes r), h4, Go.ok_bind, if_neg (not_not.mpr rfl),
    decode_bytes h.1, Go.ok_bind, length_framed]

/-- A round of the loop stops, or the unread bytes begin with a frame that fits.  The second case
is where the file may hold anything: a body that passes all checks is the layout of what it
decodes to, so the header in front of it is that record's header. -/
lemma readLoop_cases (crc : List UInt8 → UInt32) (fuel : ℕ) (b : List UInt8)
    (recs : List Record) (good : ℕ) :
    readLoop crc (fuel + 1) b recs good = .ok (recs, good) ∨
      ∃ r rest, r.Fits ∧ b = framed crc r ++ rest := by
  by_cases hlen : b.length < frameHeader
  · exact Or.inl (by rw [readLoop, if_pos hlen]; rfl)
  · have hhead : (b.take frameHeader).length = 8 := by
      rw [List.length_take]
      exact min_eq_left (not_lt.mp hlen)
    have hb : b = b.take frameHeader ++ b.drop frameHeader := (List.take_append_drop _ _).symm
    rw [readLoop, if_neg hlen]
    generalize b.take frameHeader = head at hhead hb ⊢
    generalize b.drop frameHeader = rest at hb ⊢
    simp only [uint32At_of_le (show 0 + 4 ≤ head.length by omega),
      uint32At_of_le (show 4 + 4 ≤ head.length by omega), Go.ok_bind]
    have hn := beBytes_uint32 (show 0 + 4 ≤ head.length by omega)
    have hc := beBytes_uint32 (show 4 + 4 ≤ head.length by omega)
    generalize UInt32.ofNat (beNat (slice head 0 4)) = n at hn ⊢
    generalize UInt32.ofNat (beNat (slice head 4 4)) = c at hc ⊢
    split_ifs with h1 h2 h3
    · exact Or.inl rfl
    · exact Or.inl rfl
    · exact Or.inl rfl
    · have hbody : (rest.take n.toNat).length = n.toNat := by
        rw [List.length_take]
        omega
      obtain ⟨o, ho⟩ := decode_total (show 0 < (rest.take n.toNat).length by omega)
      rw [ho, Go.ok_bind]
      cases o with
      | none => exact Or.inl rfl
      | some r =>
          obtain ⟨hmsg, hbytes⟩ := bytes_of_decode ho
          have hlenr : r.bodyLen = n.toNat := by rw [← Record.length_bytes, ← hbytes, hbody]
          refine Or.inr ⟨r, rest.drop n.toNat, ⟨hmsg, by omega⟩, ?_⟩
          rw [framed, header, hlenr, UInt32.ofNat_toNat, hn, ← hbytes, not_not.mp h3, hc,
            slice_join rfl, slice_all hhead, List.append_assoc, List.take_append_drop]
          exact hb

/-- Two frames with one header have bodies of one length. -/
lemma bodyLen_eq_of_header {r r' : Record} (h : r.Fits) (h' : r'.Fits)
    (heq : header crc r = header crc r') : r.bodyLen = r'.bodyLen := by
  have h0 := (uint32At_header crc r).1
  rw [heq, (uint32At_header crc r').1, Except.ok.injEq] at h0
  rw [← toNat_bodyLen h, ← toNat_bodyLen h', h0]

/-! ## Files -/

/-- Bytes that stop the loop at once. -/
def Stops (crc : List UInt8 → UInt32) (t : List UInt8) : Prop :=
  ∀ fuel recs good, readLoop crc fuel t recs good = .ok (recs, good)

lemma stops_nil (crc : List UInt8 → UInt32) : Stops crc [] := by
  intro fuel recs good
  cases fuel <;> rfl

/-- A frame that was cut stops the loop. -/
lemma stops_take {r : Record} (h : r.Fits) {k : ℕ} (hk : k < (framed crc r).length) :
    Stops crc ((framed crc r).take k) := by
  intro fuel recs good
  cases fuel with
  | zero => rfl
  | succ fuel =>
      rcases readLoop_cases crc fuel ((framed crc r).take k) recs good with
        hstop | ⟨r', rest, h', heq⟩
      · exact hstop
      · -- a whole frame in there would have the same header, hence the same length
        exfalso
        have hsplit := List.take_append_drop k (framed crc r)
        rw [heq, framed, framed, List.append_assoc, List.append_assoc] at hsplit
        have hheader :=
          List.append_inj_left hsplit ((length_header r').trans (length_header r).symm)
        have hlen := congrArg List.length heq
        have hbody := bodyLen_eq_of_header h' h hheader
        rw [length_framed] at hk
        rw [List.length_take, List.length_append, length_framed, length_framed] at hlen
        omega

lemma length_le_frames (rs : List Record) : rs.length ≤ (frames crc rs).length := by
  induction rs with
  | nil => exact Nat.zero_le _
  | cons r rs ih =>
      rw [frames_cons, List.length_append, length_framed, List.length_cons]
      have := r.bodyLen_pos
      omega

/-- Frames that fit are read one by one. -/
lemma readLoop_frames {rs : List Record} (h : ∀ r ∈ rs, r.Fits) (t : List UInt8) {fuel : ℕ}
    (hfuel : rs.length ≤ fuel) (recs : List Record) (good : ℕ) :
    readLoop crc fuel (frames crc rs ++ t) recs good =
      readLoop crc (fuel - rs.length) t (recs ++ rs) (good + (frames crc rs).length) := by
  induction rs generalizing fuel recs good with
  | nil => simp
  | cons r rs ih =>
      obtain ⟨fuel, rfl⟩ : ∃ k, fuel = k + 1 := ⟨fuel - 1, by simp at hfuel; omega⟩
      rw [frames_cons, List.append_assoc, readLoop_framed (h r List.mem_cons_self),
        ih (fun r' hr' => h r' (List.mem_cons_of_mem _ hr')) (by simpa using hfuel)]
      simp [Nat.add_assoc]

/-- A file of frames that fit, with something behind them that stops the loop. -/
lemma readAll_frames {rs : List Record} (h : ∀ r ∈ rs, r.Fits) {t : List UInt8}
    (ht : Stops crc t) :
    readAll crc (frames crc rs ++ t) = .ok (rs, (frames crc rs).length) := by
  have hfuel : rs.length ≤ (frames crc rs ++ t).length := by
    rw [List.length_append]
    exact (length_le_frames rs).trans (Nat.le_add_right _ _)
  rw [readAll, readLoop_frames h t hfuel, ht]
  simp

/-- Whatever the file holds, the loop has read frames that fit. -/
lemma readLoop_spec (crc : List UInt8 → UInt32) (fuel : ℕ) (b : List UInt8)
    (recs : List Record) (good : ℕ) :
    ∃ rs rest, b = frames crc rs ++ rest ∧ (∀ r ∈ rs, r.Fits) ∧
      readLoop crc fuel b recs good = .ok (recs ++ rs, good + (frames crc rs).length) := by
  induction fuel generalizing b recs good with
  | zero => exact ⟨[], b, rfl, by simp, by simp [readLoop]⟩
  | succ fuel ih =>
      rcases readLoop_cases crc fuel b recs good with hstop | ⟨r, rest, hr, rfl⟩
      · exact ⟨[], b, rfl, by simp, by simpa using hstop⟩
      · obtain ⟨rs, rest', rfl, hrs, heq⟩ :=
          ih rest (recs ++ [r]) (good + (framed crc r).length)
        refine ⟨r :: rs, rest', by simp, ?_, ?_⟩
        · simpa using ⟨hr, hrs⟩
        · rw [readLoop_framed hr, heq]
          simp [Nat.add_assoc]

/-- Opening a file of frames, appending a record and opening it again. -/
lemma open_append_open (crc : List UInt8 → UInt32) {rs : List Record} (h : ∀ r ∈ rs, r.Fits)
    {r : Record} (hr : r.Fits) :
    append crc (frames crc rs) r = .ok (frames crc (rs ++ [r])) ∧
      openFile crc (frames crc (rs ++ [r])) = .ok (rs ++ [r], frames crc (rs ++ [r])) := by
  have hall : ∀ r' ∈ rs ++ [r], r'.Fits :=
    List.forall_mem_append.mpr ⟨h, List.forall_mem_singleton.mpr hr⟩
  refine ⟨by rw [append_eq]; simp, ?_⟩
  have hread := readAll_frames hall (stops_nil crc)
  rw [List.append_nil] at hread
  rw [openFile, hread, Go.ok_bind]
  simp

lemma length_frames_take_le (crc : List UInt8 → UInt32) (rs : List Record) {i j : ℕ}
    (h : i ≤ j) :
    (frames crc (rs.take i)).length ≤ (frames crc (rs.take j)).length := by
  have hsplit := List.take_append_drop i (rs.take j)
  rw [List.take_take, min_eq_left h] at hsplit
  rw [← hsplit, frames_append, List.length_append]
  exact Nat.le_add_right _ _

/-- A cut leaves whole frames and something that stops the loop. -/
lemma take_frames (crc : List UInt8 → UInt32) {rs : List Record} (h : ∀ r ∈ rs, r.Fits) (k : ℕ) :
    ∃ j ≤ rs.length, ∃ t, (frames crc rs).take k = frames crc (rs.take j) ++ t ∧ Stops crc t ∧
      (k ≤ (frames crc rs).length → (frames crc (rs.take j)).length ≤ k) ∧
      (j < rs.length → k < (frames crc (rs.take (j + 1))).length) := by
  induction rs generalizing k with
  | nil => exact ⟨0, le_rfl, [], by simp, stops_nil crc, by simp, by simp⟩
  | cons r rs ih =>
      have hr := h r List.mem_cons_self
      by_cases hk : k < (framed crc r).length
      · refine ⟨0, Nat.zero_le _, (framed crc r).take k, ?_, stops_take hr hk, by simp, ?_⟩
        · rw [frames_cons, List.take_append_of_le_length hk.le]
          rfl
        · simpa using hk
      · -- the cut is behind the first frame
        obtain ⟨k, rfl⟩ := Nat.exists_eq_add_of_le (not_lt.mp hk)
        obtain ⟨j, hj, t, heq, ht, hle, hlt⟩ :=
          ih (fun r' hr' => h r' (List.mem_cons_of_mem _ hr')) k
        refine ⟨j + 1, Nat.succ_le_succ hj, t, ?_, ht, fun hlen => ?_, fun hlen => ?_⟩
        · rw [frames_cons, List.take_length_add_append, heq, List.take_succ_cons, frames_cons,
            List.append_assoc]
        · rw [frames_cons, List.length_append] at hlen
          rw [List.take_succ_cons, frames_cons, List.length_append]
          exact Nat.add_le_add_left (hle (Nat.le_of_add_le_add_left hlen)) _
        · rw [List.take_succ_cons, frames_cons, List.length_append]
          exact Nat.add_lt_add_left (hlt (Nat.lt_of_succ_lt_succ hlen)) _

/-- Appending to a reopened file: what `Open` returned is kept, and followed by the record. -/
def ReopensAs (crc : List UInt8 → UInt32) (f : List UInt8) (recs : List Record) : Prop :=
  ∀ r, r.msg.length ≤ 1024 → ∃ g g', openFile crc f = .ok (recs, g) ∧ append crc g r = .ok g' ∧
    openFile crc g' = .ok (recs ++ [r], g')

lemma reopensAs_of_readAll {f : List UInt8} {rs : List Record} (hrs : ∀ r ∈ rs, r.Fits)
    (hread : readAll crc f = .ok (rs, (frames crc rs).length))
    (hf : f.take (frames crc rs).length = frames crc rs) : ReopensAs crc f rs := by
  intro r hr
  obtain ⟨happ, hopen⟩ := open_append_open crc hrs (Record.fits_of_msg_le hr)
  refine ⟨frames crc rs, _, ?_, happ, hopen⟩
  simp only [openFile, hread, Go.ok_bind, hf]
  rfl

/-- **Torn tail.**  Let `rs` be records whose strings have at most 1024 bytes.  Appending them
produces their frames, and for every cut of this file `readAll` returns the longest prefix of `rs`
whose frames fit in front of the cut, with the length of these frames; opening the cut file,
appending a record and opening it again returns that prefix followed by the record. -/
theorem torn_tail (crc : List UInt8 → UInt32) {rs : List Record}
    (hrs : ∀ r ∈ rs, r.msg.length ≤ 1024) :
    ∃ F, rs.foldlM (append crc) [] = .ok F ∧ ∀ k ≤ F.length, ∃ j ≤ rs.length,
      ∃ P, (rs.take j).foldlM (append crc) [] = .ok P ∧ P.length ≤ k ∧
        (∀ j' ≤ rs.length, ∀ P', (rs.take j').foldlM (append crc) [] = .ok P' →
          P'.length ≤ k → j' ≤ j) ∧
        readAll crc (F.take k) = .ok (rs.take j, P.length) ∧
        ReopensAs crc (F.take k) (rs.take j) := by
  have hfits : ∀ r ∈ rs, r.Fits := fun r hr => Record.fits_of_msg_le (hrs r hr)
  refine ⟨frames crc rs, by simpa using foldlM_append [] rs, fun k hk => ?_⟩
  obtain ⟨j, hj, t, heq, ht, hle, hlt⟩ := take_frames crc hfits k
  have hfits' : ∀ r ∈ rs.take j, r.Fits := fun r hr => hfits r (List.mem_of_mem_take hr)
  have hread := readAll_frames hfits' ht
  refine ⟨j, hj, frames crc (rs.take j), by simpa using foldlM_append [] (rs.take j), hle hk, ?_,
    by rw [heq]; exact hread, ?_⟩
  · intro j' hj' P' hP' hP'k
    rw [foldlM_append, List.nil_append, Except.ok.injEq] at hP'
    by_contra hcon
    have hmono := length_frames_take_le crc rs (show j + 1 ≤ j' by omega)
    have := hlt (by omega)
    rw [hP'] at hmono
    omega
  · rw [heq]
    exact reopensAs_of_readAll hfits' hread List.take_left

/-- Two records, seventeen bytes each in the file. -/
def twoDrops : List Record := [.jobDrop ⟨1⟩, .jobDrop ⟨2⟩]

/-- Cut three bytes into the second. -/
theorem torn_tail_twoDrops :
    ∃ F, twoDrops.foldlM (append fun _ => 0) [] = .ok F ∧ F.length = 34 ∧
      readAll (fun _ => 0) (F.take 20) = .ok ([.jobDrop ⟨1⟩], 17) := by
  have hmsg : ∀ r ∈ twoDrops, r.msg.length ≤ 1024 := by decide
  obtain ⟨F, hF, hcut⟩ := torn_tail (fun _ => 0) hmsg
  have hlength : ∀ {n : ℕ} {P : List UInt8}, n ≤ 2 →
      (twoDrops.take n).foldlM (append fun _ => 0) [] = .ok P → P.length = 17 * n := by
    intro n P hn hP
    rw [foldlM_append, Except.ok.injEq, List.nil_append] at hP
    rw [← hP]
    interval_cases n <;>
      simp [twoDrops, frames_cons, frames_nil, length_framed, Record.bodyLen, frameHeader]
  have hlen : F.length = 34 := hlength le_rfl hF
  obtain ⟨j, hj, P, hP, hle, hmax, hread, -⟩ := hcut 20 (by omega)
  have hj2 : j ≤ 2 := hj
  -- the first frame fits in front of the cut and both do not
  have hone : 1 ≤ j := by
    obtain ⟨P', hP'⟩ : ∃ P', (twoDrops.take 1).foldlM (append fun _ => 0) [] = .ok P' :=
      ⟨_, foldlM_append [] (twoDrops.take 1)⟩
    have hlength' := hlength (by decide) hP'
    exact hmax 1 (by decide) P' hP' (by omega)
  have hPlen := hlength hj2 hP
  obtain rfl : j = 1 := by omega
  rw [hPlen] at hread
  exact ⟨F, hF, hlen, hread⟩

/-- **What `Open` keeps is what it returned.**  Whatever a file contains, `readAll` returns without
indexing outside a body; the offset it returns is inside the file, and the bytes in front of it
are what appending the returned records writes.  So opening the file, appending a record and
opening it again returns these records followed by that one. -/
theorem open_keeps (crc : List UInt8 → UInt32) (f : List UInt8) :
    ∃ recs good, readAll crc f = .ok (recs, good) ∧ good ≤ f.length ∧
      recs.foldlM (append crc) [] = .ok (f.take good) ∧ ReopensAs crc f recs := by
  obtain ⟨rs, rest, heq, hfits, hread⟩ := readLoop_spec crc f.length f [] 0
  rw [List.nil_append, Nat.zero_add] at hread
  have htake : f.take (frames crc rs).length = frames crc rs := by rw [heq, List.take_left]
  refine ⟨rs, (frames crc rs).length, hread, ?_, ?_, reopensAs_of_readAll hfits hread htake⟩
  · rw [heq, List.length_append]
    exact Nat.le_add_right _ _
  · rw [foldlM_append, htake, List.nil_append]

end Wal

end RudpScheduler
