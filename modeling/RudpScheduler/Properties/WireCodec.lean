import RudpScheduler.Construction.WireCodec
import RudpScheduler.Construction.Rudp.Conn

/-!
# The application codec is a bijection onto what it accepts

`Message.bytes` is the layout of a message: its kind, its fields in order and, for two of the
kinds, the length of the message string and the string.  `Encode` produces exactly the layouts of
the messages whose string is not too long (`encode_eq_ok_iff`), and `Decode` accepts exactly the
same byte strings (`decode_eq_some_iff`).  Each direction of the second goes through the slices of
the input: reading inside a layout gives the fields, and the fields written back are the slices
they were read from.
-/

namespace RudpScheduler

namespace Message

/-- The message string, if the message carries one. -/
def msg : Message → Msg
  | .request m => m.msg
  | .chunk m => m.msg
  | _ => []

/-- The message string may be encoded. -/
def Fits (m : Message) : Prop := m.msg.length ≤ Wire.maxMsgLen

instance (m : Message) : Decidable m.Fits := inferInstanceAs (Decidable (_ ≤ _))

/-- The layout of a message. -/
def bytes : Message → List UInt8
  | .join => [Wire.kindJoin]
  | .request m =>
    [Wire.kindRequest] ++ beBytes 8 m.job.toNat ++ beBytes 8 m.lo.toNat ++ beBytes 8 m.hi.toNat ++
      beBytes 2 m.msg.length ++ m.msg
  | .chunk m =>
    [Wire.kindChunk] ++ beBytes 8 m.id.job.toNat ++ beBytes 4 m.id.idx.toNat ++
      beBytes 8 m.lo.toNat ++ beBytes 8 m.hi.toNat ++
      beBytes 2 m.msg.length ++ m.msg
  | .chunkResult m =>
    [Wire.kindChunkResult] ++ beBytes 8 m.id.job.toNat ++ beBytes 4 m.id.idx.toNat ++
      beBytes 8 m.hash.toNat ++ beBytes 8 m.nonce.toNat
  | .result m =>
    [Wire.kindResult] ++ beBytes 8 m.job.toNat ++ beBytes 8 m.hash.toNat ++
      beBytes 8 m.nonce.toNat

/-- The longest layout is that of a `Chunk`. -/
lemma length_bytes_le (m : Message) : m.bytes.length ≤ 31 + m.msg.length := by
  cases m <;> simp [bytes, msg] <;> omega

end Message

namespace Wire

/-! ## Encoding -/

lemma msgLen_of_fits {s : Msg} (h : s.length ≤ maxMsgLen) :
    msgLen s = .ok (UInt16.ofNat s.length) := if_neg (by omega)

lemma msgLen_of_not_fits {s : Msg} (h : ¬ s.length ≤ maxMsgLen) :
    msgLen s = .error (.explicit "wire: message string exceeds MaxMsgLen") := if_pos (by omega)

/-- The length of a string that fits is not truncated to sixteen bits. -/
lemma beBytes_msgLen {s : Msg} (h : s.length ≤ maxMsgLen) :
    beBytes 2 (UInt16.ofNat s.length).toNat = beBytes 2 s.length := by
  have hlt : s.length < 2 ^ 16 := lt_of_le_of_lt h (by decide)
  rw [UInt16.toNat_ofNat', Nat.mod_eq_of_lt hlt]

/-- `Encode` produces the layout of every message that fits. -/
lemma encode_of_fits {m : Message} (h : m.Fits) : encode m = .ok m.bytes := by
  cases m with
  | join => rfl
  | request m =>
      have h : m.msg.length ≤ maxMsgLen := h
      have hlen := msgLen_of_fits h
      simp (disch := simp) only [encode, putUint64, putUint16, putAt_start, putAt_makeBytes, hlen,
        Go.ok_bind, beBytes_msgLen h]
      simp [Message.bytes]
  | chunk m =>
      have h : m.msg.length ≤ maxMsgLen := h
      have hlen := msgLen_of_fits h
      simp (disch := simp) only [encode, putUint64, putUint32, putUint16, putAt_start,
        putAt_makeBytes, hlen, Go.ok_bind, beBytes_msgLen h]
      simp [Message.bytes]
  | chunkResult m =>
      simp (disch := simp) only [encode, putUint64, putUint32, putAt_start, putAt_makeBytes,
        Go.ok_bind]
      simp [Message.bytes]
  | result m =>
      simp (disch := simp) only [encode, putUint64, putAt_start, putAt_makeBytes, Go.ok_bind]
      simp [Message.bytes]

/-- `Encode` panics on every other message. -/
lemma encode_of_not_fits {m : Message} (h : ¬ m.Fits) :
    encode m = .error (.explicit "wire: message string exceeds MaxMsgLen") := by
  cases m with
  | join | chunkResult | result => exact absurd (Nat.zero_le _) h
  | request m =>
      have hlen : msgLen m.msg = _ := msgLen_of_not_fits h
      simp (disch := simp) only [encode, putUint64, putAt_start, putAt_makeBytes, hlen,
        Go.ok_bind, Go.error_bind]
  | chunk m =>
      have hlen : msgLen m.msg = _ := msgLen_of_not_fits h
      simp (disch := simp) only [encode, putUint64, putUint32, putAt_start, putAt_makeBytes, hlen,
        Go.ok_bind, Go.error_bind]

lemma encode_eq_ok_iff {m : Message} {b : List UInt8} :
    encode m = .ok b ↔ m.Fits ∧ b = m.bytes := by
  by_cases h : m.Fits
  · rw [encode_of_fits h, Except.ok.injEq, and_iff_right h, eq_comm]
  · simp [encode_of_not_fits h, h]

/-! ## Decoding -/

/-- `tail` reads a string exactly when its length is written in front of it, and never panics. -/
lemma tail_eq (b : List UInt8) (i : ℕ) :
    tail b i = .ok (if i + 2 ≤ b.length ∧ (b.drop (i + 2)).length ≤ maxMsgLen ∧
        slice b i 2 = beBytes 2 (b.drop (i + 2)).length
      then some (b.drop (i + 2)) else none) := by
  unfold tail
  by_cases hlen : b.length < i + 2
  · rw [if_pos hlen, if_neg (by omega)]
    rfl
  · have hle : i + 2 ≤ b.length := by omega
    have hlt : beNat (slice b i 2) < 2 ^ 16 := beNat_slice_lt hle
    rw [if_neg hlen, uint16At_of_le hle, Go.ok_bind, sliceFrom_of_le hle, UInt16.toNat_ofNat',
      Nat.mod_eq_of_lt hlt, List.length_drop]
    by_cases hn : beNat (slice b i 2) = b.length - (i + 2) ∧ b.length - (i + 2) ≤ maxMsgLen
    · have hlead : slice b i 2 = beBytes 2 (b.length - (i + 2)) := by
        rw [← hn.1, beBytes_beNat (length_slice hle)]
      rw [if_neg (by omega), if_pos ⟨hle, hn.2, hlead⟩, Go.ok_bind, Go.pure_eq_ok]
    · rw [if_pos (by omega), if_neg, Go.pure_eq_ok]
      rintro ⟨-, h1, h2⟩
      refine hn ⟨?_, h1⟩
      have hsmall : b.length - (i + 2) < 256 ^ 2 := lt_of_le_of_lt h1 (by decide)
      rw [h2, beNat_beBytes, Nat.mod_eq_of_lt hsmall]

/-- Which branch `Decode` takes. -/
lemma decode_of_kind {b : List UInt8} {x : UInt8} (h : byteAt b 0 = .ok x) :
    decode b =
      if x = kindJoin then (if b.length = 1 then .ok (some .join) else .ok none)
      else if x = kindRequest then decodeRequest b
      else if x = kindChunk then decodeChunk b
      else if x = kindChunkResult then decodeChunkResult b
      else if x = kindResult then decodeResult b
      else .ok none := by
  have hne : b.length ≠ 0 := by
    intro h0
    rw [List.length_eq_zero_iff.mp h0] at h
    cases h
  rw [decode, if_neg hne, h]
  rfl

/-! ### What is accepted is a layout -/

lemma bytes_of_decodeRequest {b : List UInt8} {m : Message} (hb : byteAt b 0 = .ok kindRequest)
    (h : decodeRequest b = .ok (some m)) : m.Fits ∧ b = m.bytes := by
  rw [decodeRequest, tail_eq] at h
  split_ifs at h with hc
  · obtain ⟨hlen, hfits, hlead⟩ := hc
    simp (disch := omega) only [Go.ok_bind, uint64At_of_le, Go.pure_eq_ok, Except.ok.injEq,
      Option.some.injEq] at h
    subst h
    refine ⟨hfits, ?_⟩
    rw [Message.bytes, ← hlead, ← slice_of_byteAt hb]
    simp (disch := omega) only [beBytes_uint64, slice_join, slice_append_drop, List.drop_zero]
  · cases h

lemma bytes_of_decodeChunk {b : List UInt8} {m : Message} (hb : byteAt b 0 = .ok kindChunk)
    (h : decodeChunk b = .ok (some m)) : m.Fits ∧ b = m.bytes := by
  rw [decodeChunk, tail_eq] at h
  split_ifs at h with hc
  · obtain ⟨hlen, hfits, hlead⟩ := hc
    simp (disch := omega) only [Go.ok_bind, uint64At_of_le, uint32At_of_le, Go.pure_eq_ok,
      Except.ok.injEq, Option.some.injEq] at h
    subst h
    refine ⟨hfits, ?_⟩
    rw [Message.bytes, ← hlead, ← slice_of_byteAt hb]
    simp (disch := omega) only [beBytes_uint64, beBytes_uint32, slice_join, slice_append_drop,
      List.drop_zero]
  · cases h

lemma bytes_of_decodeChunkResult {b : List UInt8} {m : Message}
    (hb : byteAt b 0 = .ok kindChunkResult) (h : decodeChunkResult b = .ok (some m)) :
    m.Fits ∧ b = m.bytes := by
  rw [decodeChunkResult] at h
  split_ifs at h with hlen
  · simp (disch := omega) only [Go.ok_bind, uint64At_of_le, uint32At_of_le, Go.pure_eq_ok,
      Except.ok.injEq, Option.some.injEq] at h
    subst h
    refine ⟨Nat.zero_le _, ?_⟩
    rw [Message.bytes, ← slice_of_byteAt hb]
    simp (disch := omega) only [beBytes_uint64, beBytes_uint32, slice_join]
    exact (slice_all hlen).symm
  · cases h

lemma bytes_of_decodeResult {b : List UInt8} {m : Message} (hb : byteAt b 0 = .ok kindResult)
    (h : decodeResult b = .ok (some m)) : m.Fits ∧ b = m.bytes := by
  rw [decodeResult] at h
  split_ifs at h with hlen
  · simp (disch := omega) only [Go.ok_bind, uint64At_of_le, Go.pure_eq_ok, Except.ok.injEq,
      Option.some.injEq] at h
    subst h
    refine ⟨Nat.zero_le _, ?_⟩
    rw [Message.bytes, ← slice_of_byteAt hb]
    simp (disch := omega) only [beBytes_uint64, slice_join]
    exact (slice_all hlen).symm
  · cases h

lemma bytes_of_decode {b : List UInt8} {m : Message} (h : decode b = .ok (some m)) :
    m.Fits ∧ b = m.bytes := by
  cases b with
  | nil => cases h
  | cons x rest =>
      have hb := byteAt_cons x rest
      rw [decode_of_kind hb] at h
      split_ifs at h with h1 h2 h3 h4 h5 h6
      · obtain rfl : Message.join = m := by simpa using h
        refine ⟨Nat.zero_le _, ?_⟩
        rw [List.length_cons, Nat.add_eq_right, List.length_eq_zero_iff] at h2
        rw [h1, h2]
        rfl
      · cases h
      · exact bytes_of_decodeRequest (h3 ▸ hb) h
      · exact bytes_of_decodeChunk (h4 ▸ hb) h
      · exact bytes_of_decodeChunkResult (h5 ▸ hb) h
      · exact bytes_of_decodeResult (h6 ▸ hb) h
      · cases h

/-! ### Every layout is accepted -/

lemma decodeRequest_bytes {m : Request} (h : m.msg.length ≤ maxMsgLen) :
    decodeRequest (Message.request m).bytes = .ok (some (.request m)) := by
  have hlen : (Message.request m).bytes.length = 27 + m.msg.length := by
    simp [Message.bytes]
    omega
  rw [decodeRequest, tail_eq, if_pos]
  · simp (disch := omega) only [Go.ok_bind, uint64At_of_le]
    simp only [Message.bytes, List.append_assoc]
    simp (disch := simp) [slice_append, slice_zero_append, slice_cons_succ, drop_append_right]
  · have hdrop : (Message.request m).bytes.length - 27 = m.msg.length := by omega
    rw [List.length_drop, hdrop]
    refine ⟨by omega, h, ?_⟩
    simp only [Message.bytes, List.append_assoc]
    simp (disch := simp) [slice_append, slice_zero_append, slice_cons_succ]

lemma decodeChunk_bytes {m : Chunk} (h : m.msg.length ≤ maxMsgLen) :
    decodeChunk (Message.chunk m).bytes = .ok (some (.chunk m)) := by
  have hlen : (Message.chunk m).bytes.length = 31 + m.msg.length := by
    simp [Message.bytes]
    omega
  rw [decodeChunk, tail_eq, if_pos]
  · simp (disch := omega) only [Go.ok_bind, uint64At_of_le, uint32At_of_le]
    simp only [Message.bytes, List.append_assoc]
    simp (disch := simp) [slice_append, slice_zero_append, slice_cons_succ, drop_append_right]
  · have hdrop : (Message.chunk m).bytes.length - 31 = m.msg.length := by omega
    rw [List.length_drop, hdrop]
    refine ⟨by omega, h, ?_⟩
    simp only [Message.bytes, List.append_assoc]
    simp (disch := simp) [slice_append, slice_zero_append, slice_cons_succ]

lemma decodeChunkResult_bytes (m : ChunkResult) :
    decodeChunkResult (Message.chunkResult m).bytes = .ok (some (.chunkResult m)) := by
  have hlen : (Message.chunkResult m).bytes.length = 29 := by simp [Message.bytes]
  rw [decodeChunkResult, if_pos hlen]
  simp (disch := omega) only [Go.ok_bind, uint64At_of_le, uint32At_of_le]
  simp only [Message.bytes, List.append_assoc]
  simp (disch := simp) [slice_append, slice_zero_append, slice_cons_succ, slice_all]

lemma decodeResult_bytes (m : Result) :
    decodeResult (Message.result m).bytes = .ok (some (.result m)) := by
  have hlen : (Message.result m).bytes.length = 25 := by simp [Message.bytes]
  rw [decodeResult, if_pos hlen]
  simp (disch := omega) only [Go.ok_bind, uint64At_of_le]
  simp only [Message.bytes, List.append_assoc]
  simp (disch := simp) [slice_append, slice_zero_append, slice_cons_succ, slice_all]

lemma decode_bytes {m : Message} (h : m.Fits) : decode m.bytes = .ok (some m) := by
  have hb : ∀ x rest, m.bytes = x :: rest → byteAt m.bytes 0 = .ok x := by
    rintro x rest hx
    rw [hx, byteAt_cons]
  cases m with
  | join => rfl
  | request m =>
      rw [decode_of_kind (hb _ _ rfl), if_neg (by decide), if_pos rfl, decodeRequest_bytes h]
  | chunk m =>
      rw [decode_of_kind (hb _ _ rfl), if_neg (by decide), if_neg (by decide), if_pos rfl,
        decodeChunk_bytes h]
  | chunkResult m =>
      rw [decode_of_kind (hb _ _ rfl), if_neg (by decide), if_neg (by decide), if_neg (by decide),
        if_pos rfl, decodeChunkResult_bytes]
  | result m =>
      rw [decode_of_kind (hb _ _ rfl), if_neg (by decide), if_neg (by decide), if_neg (by decide),
        if_neg (by decide), if_pos rfl, decodeResult_bytes]

/-! ## The codec -/

lemma decodeRequest_total (b : List UInt8) : ∃ r, decodeRequest b = .ok r := by
  rw [decodeRequest, tail_eq]
  split_ifs with hc
  · simp (disch := omega) only [Go.ok_bind, uint64At_of_le]
    exact ⟨_, rfl⟩
  · exact ⟨none, rfl⟩

lemma decodeChunk_total (b : List UInt8) : ∃ r, decodeChunk b = .ok r := by
  rw [decodeChunk, tail_eq]
  split_ifs with hc
  · simp (disch := omega) only [Go.ok_bind, uint64At_of_le, uint32At_of_le]
    exact ⟨_, rfl⟩
  · exact ⟨none, rfl⟩

lemma decodeChunkResult_total (b : List UInt8) : ∃ r, decodeChunkResult b = .ok r := by
  rw [decodeChunkResult]
  split_ifs with hlen
  · simp (disch := omega) only [Go.ok_bind, uint64At_of_le, uint32At_of_le]
    exact ⟨_, rfl⟩
  · exact ⟨none, rfl⟩

lemma decodeResult_total (b : List UInt8) : ∃ r, decodeResult b = .ok r := by
  rw [decodeResult]
  split_ifs with hlen
  · simp (disch := omega) only [Go.ok_bind, uint64At_of_le]
    exact ⟨_, rfl⟩
  · exact ⟨none, rfl⟩

/-- `Decode` never reads outside its input. -/
lemma decode_total (b : List UInt8) : ∃ r, decode b = .ok r := by
  cases b with
  | nil => exact ⟨none, rfl⟩
  | cons x rest =>
      rw [decode_of_kind (byteAt_cons x rest)]
      split_ifs
      · exact ⟨_, rfl⟩
      · exact ⟨_, rfl⟩
      · exact decodeRequest_total _
      · exact decodeChunk_total _
      · exact decodeChunkResult_total _
      · exact decodeResult_total _
      · exact ⟨_, rfl⟩

/-- **The codec is a bijection onto what it accepts.**  A byte string is accepted, as `m`, exactly
when `Encode` produces it from `m`; `Encode` produces a string for exactly the messages whose
string is not above `MaxMsgLen`; two accepted strings that denote one message are equal; every
encoded message is one transport payload; and `Decode` never reads outside its input. -/
theorem codec_bijective :
    (∀ m b, encode m = .ok b ↔ decode b = .ok (some m)) ∧
      (∀ m, (∃ b, encode m = .ok b) ↔ m.msg.length ≤ maxMsgLen) ∧
      (∀ b b' m, decode b = .ok (some m) → decode b' = .ok (some m) → b = b') ∧
      (∀ m b, encode m = .ok b → b.length ≤ Rudp.maxPayload) ∧
      ∀ b, ∃ r, decode b = .ok r := by
  have hiff : ∀ m b, encode m = .ok b ↔ decode b = .ok (some m) := by
    intro m b
    rw [encode_eq_ok_iff]
    constructor
    · rintro ⟨hfits, rfl⟩
      exact decode_bytes hfits
    · exact bytes_of_decode
  refine ⟨hiff, fun m => ⟨?_, fun h => ⟨m.bytes, encode_of_fits h⟩⟩, ?_, ?_, decode_total⟩
  · rintro ⟨b, hb⟩
    exact (encode_eq_ok_iff.mp hb).1
  · intro b b' m hb hb'
    rw [(bytes_of_decode hb).2, (bytes_of_decode hb').2]
  · intro m b hb
    obtain ⟨hfits, rfl⟩ := encode_eq_ok_iff.mp hb
    calc m.bytes.length ≤ 31 + m.msg.length := m.length_bytes_le
      _ ≤ 31 + maxMsgLen := Nat.add_le_add_left hfits 31
      _ ≤ Rudp.maxPayload := by decide

end Wire

end RudpScheduler
