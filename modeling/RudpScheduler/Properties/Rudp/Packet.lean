import RudpScheduler.Construction.Rudp.Packet

/-!
# The packet codec is a bijection, and truncating reads are safe

`layout` is the header and the payload.  `marshal` produces it whatever its arguments are, and
`parse` accepts exactly the layouts of packets whose type is known and whose payload is at most
`MaxPayload` (`parse_eq_some_iff`).

The read loops see at most `maxPacket + 1` bytes of a datagram.  A longer datagram leaves exactly
one byte more than the largest packet has, and a packet with that many bytes declares a payload
above `MaxPayload`; so nothing that was cut is accepted (`receive_eq_some_iff`).
-/

namespace RudpScheduler.Rudp

/-! ## Packet types -/

@[simp] lemma PacketType.ofCode_code (t : PacketType) : ofCode t.code = some t := by
  cases t <;> rfl

lemma PacketType.code_of_ofCode {x : UInt8} {t : PacketType} (h : ofCode x = some t) :
    t.code = x := by
  unfold ofCode at h
  split_ifs at h with h1 h2 h3 h4 h5
  all_goals
    obtain rfl := Option.some_inj.mp h
    exact (by assumption : x = _).symm

/-- The known types are the bytes from `typeConnect` to `typeClose`. -/
lemma PacketType.exists_code {x : UInt8} (h1 : 1 ≤ x) (h5 : x ≤ 5) :
    ∃ t : PacketType, t.code = x := by
  rw [UInt8.le_iff_toNat_le] at h1 h5
  have hx : x.toNat = 1 ∨ x.toNat = 2 ∨ x.toNat = 3 ∨ x.toNat = 4 ∨ x.toNat = 5 := by
    have : (1 : UInt8).toNat = 1 := rfl
    have : (5 : UInt8).toNat = 5 := rfl
    omega
  rcases hx with hx | hx | hx | hx | hx
  · exact ⟨.connect, UInt8.toNat_inj.mp hx.symm⟩
  · exact ⟨.connAck, UInt8.toNat_inj.mp hx.symm⟩
  · exact ⟨.data, UInt8.toNat_inj.mp hx.symm⟩
  · exact ⟨.ack, UInt8.toNat_inj.mp hx.symm⟩
  · exact ⟨.close, UInt8.toNat_inj.mp hx.symm⟩

/-! ## `marshal` -/

/-- The header and the payload. -/
def layout (typ : UInt8) (connID seq : UInt32) (payload : Payload) : List UInt8 :=
  [typ] ++ beBytes 4 connID.toNat ++ beBytes 4 seq.toNat ++
    beBytes 2 (UInt16.ofNat payload.length).toNat ++ payload

lemma length_layout (typ : UInt8) (connID seq : UInt32) (payload : Payload) :
    (layout typ connID seq payload).length = headerLen + payload.length := by
  simp [layout, headerLen]
  omega

lemma marshal_eq (typ : UInt8) (connID seq : UInt32) (payload : Payload) :
    marshal typ connID seq payload = .ok (layout typ connID seq payload) := by
  have hrest : headerLen + payload.length - 1 - 4 - 4 - 2 = payload.length := by
    simp only [headerLen]
    omega
  simp (disch := simp [headerLen]; try omega) only [marshal, putUint32, putUint16, putAt_start,
    putAt_makeBytes, Go.ok_bind, length_beBytes, List.length_singleton]
  rw [hrest, putAt_makeBytes (by simp [headerLen]) le_rfl]
  simp [layout]

/-! ## `parse` -/

/-- The length of a payload that `Write` accepts is not truncated to sixteen bits. -/
lemma toNat_payloadLen {payload : Payload} (h : payload.length ≤ maxPayload) :
    (UInt16.ofNat payload.length).toNat = payload.length := by
  have hlt : payload.length < 2 ^ 16 := lt_of_le_of_lt h (by decide)
  rw [UInt16.toNat_ofNat', Nat.mod_eq_of_lt hlt]

/-- `parse` of at least a header, with the reads carried out. -/
lemma parse_of_le {b : List UInt8} {x : UInt8} (hb : byteAt b 0 = .ok x)
    (h : headerLen ≤ b.length) :
    parse b = .ok ((PacketType.ofCode x).bind fun typ =>
      if beNat (slice b 9 2) = b.length - headerLen ∧ b.length - headerLen ≤ maxPayload then
        some ⟨typ, UInt32.ofNat (beNat (slice b 1 4)), UInt32.ofNat (beNat (slice b 5 4)),
          b.drop headerLen⟩
      else none) := by
  have h' : 11 ≤ b.length := h
  have hlt : beNat (slice b 9 2) < 2 ^ 16 := beNat_slice_lt (by omega)
  rw [parse, if_neg (by omega), hb, Go.ok_bind, uint32At_of_le (by omega),
    uint32At_of_le (by omega), Go.ok_bind, Go.ok_bind, uint16At_of_le (by omega),
    sliceFrom_of_le h]
  cases hx : PacketType.ofCode x with
  | none => rfl
  | some typ =>
      simp only [Go.ok_bind, UInt16.toNat_ofNat', Nat.mod_eq_of_lt hlt, Option.bind_some]
      split_ifs with h1 h2 h2
      · omega
      · rfl
      · rfl
      · omega

/-- `parse` never reads outside its input. -/
lemma parse_total (b : List UInt8) : ∃ r, parse b = .ok r := by
  by_cases h : headerLen ≤ b.length
  · cases b with
    | nil => cases h
    | cons x rest => exact ⟨_, parse_of_le (byteAt_cons x rest) h⟩
  · exact ⟨none, if_pos (by omega)⟩

/-- What `parse` accepts is a layout. -/
lemma layout_of_parse {b : List UInt8} {pkt : Packet} (h : parse b = .ok (some pkt)) :
    pkt.payload.length ≤ maxPayload ∧ b = layout pkt.typ.code pkt.connID pkt.seq pkt.payload := by
  by_cases hlen : 11 ≤ b.length
  · cases b with
    | nil => cases hlen
    | cons x rest =>
        have hb := byteAt_cons x rest
        rw [parse_of_le hb hlen, Except.ok.injEq, Option.bind_eq_some_iff] at h
        obtain ⟨typ, htyp, h⟩ := h
        split_ifs at h with hn
        · obtain rfl := Option.some_inj.mp h
          have hpay : ((x :: rest).drop 11).length ≤ maxPayload := by
            rw [List.length_drop]
            exact hn.2
          refine ⟨hpay, ?_⟩
          -- the declared length, written back, is the slice it was read from
          have hdecl : beBytes 2 (UInt16.ofNat ((x :: rest).drop 11).length).toNat =
              slice (x :: rest) 9 2 := by
            rw [toNat_payloadLen hpay, List.length_drop]
            exact hn.1 ▸ beBytes_beNat (length_slice (by omega))
          simp only [layout, headerLen, hdecl, PacketType.code_of_ofCode htyp,
            ← slice_of_byteAt hb]
          simp (disch := omega) only [beBytes_uint32, slice_join, slice_append_drop,
            List.drop_zero]
  · rw [parse, if_pos (by simp only [headerLen]; omega)] at h
    cases h

/-- Every layout with a payload that is not too long is accepted. -/
lemma parse_layout (pkt : Packet) (h : pkt.payload.length ≤ maxPayload) :
    parse (layout pkt.typ.code pkt.connID pkt.seq pkt.payload) = .ok (some pkt) := by
  have hlen := length_layout pkt.typ.code pkt.connID pkt.seq pkt.payload
  have hb : byteAt (layout pkt.typ.code pkt.connID pkt.seq pkt.payload) 0 =
    .ok pkt.typ.code := rfl
  have hdecl : slice (layout pkt.typ.code pkt.connID pkt.seq pkt.payload) 9 2 =
      beBytes 2 (UInt16.ofNat pkt.payload.length).toNat := by
    simp only [layout, List.append_assoc]
    simp (disch := simp) [slice_append, slice_zero_append, slice_cons_succ]
  have hlt : pkt.payload.length < 256 ^ 2 := lt_of_le_of_lt h (by decide)
  rw [parse_of_le hb (by omega), PacketType.ofCode_code, Option.bind_some, if_pos]
  · simp only [layout, List.append_assoc, headerLen]
    simp (disch := simp) [slice_append, slice_zero_append, slice_cons_succ, drop_append_right]
  · rw [hdecl, toNat_payloadLen h, beNat_beBytes, Nat.mod_eq_of_lt hlt, hlen]
    omega

lemma parse_eq_some_iff {b : List UInt8} {pkt : Packet} :
    parse b = .ok (some pkt) ↔ pkt.payload.length ≤ maxPayload ∧
      b = layout pkt.typ.code pkt.connID pkt.seq pkt.payload :=
  ⟨layout_of_parse, fun h => h.2 ▸ parse_layout pkt h.1⟩

/-! ## Truncating reads -/

/-- A read loop takes a datagram for a packet exactly when it is one. -/
lemma receive_eq_some_iff {d : List UInt8} {pkt : Packet} :
    receive d = .ok (some pkt) ↔ pkt.payload.length ≤ maxPayload ∧
      d = layout pkt.typ.code pkt.connID pkt.seq pkt.payload := by
  have hlen := length_layout pkt.typ.code pkt.connID pkt.seq pkt.payload
  rw [receive]
  by_cases hd : d.length ≤ maxPacket + 1
  · rw [List.take_of_length_le hd, parse_eq_some_iff]
  · -- what the buffer keeps is one byte longer than the largest packet
    have htake : (d.take (maxPacket + 1)).length = maxPacket + 1 := by
      rw [List.length_take]
      omega
    rw [parse_eq_some_iff]
    simp only [maxPacket] at hd htake
    constructor
    · rintro ⟨hpay, heq⟩
      have hl := congrArg List.length heq
      simp only [maxPacket] at hl
      omega
    · rintro ⟨hpay, rfl⟩
      omega

/-- **The packet codec is a bijection, and truncating reads are safe.**  Every packet of a known
type with a payload of at most `MaxPayload` bytes is parsed back; every accepted byte string is
what `marshal` makes of the result; and through the `maxPacket + 1` bytes of its buffer a read loop
accepts a datagram of any length exactly when the whole datagram is such a packet, with the same
result. -/
theorem packet_codec_bijective :
    (∀ typ connID seq payload, 1 ≤ typ → typ ≤ 5 → payload.length ≤ maxPayload →
      ∃ b t, marshal typ connID seq payload = .ok b ∧ PacketType.code t = typ ∧
        parse b = .ok (some ⟨t, connID, seq, payload⟩)) ∧
      (∀ b pkt, parse b = .ok (some pkt) →
        marshal pkt.typ.code pkt.connID pkt.seq pkt.payload = .ok b) ∧
      (∀ d pkt, receive d = .ok (some pkt) ↔
        marshal pkt.typ.code pkt.connID pkt.seq pkt.payload = .ok d ∧
          pkt.payload.length ≤ maxPayload) ∧
      ∀ d, ∃ r, receive d = .ok r := by
  refine ⟨?_, ?_, ?_, fun d => parse_total _⟩
  · intro typ connID seq payload h1 h5 hpay
    obtain ⟨t, rfl⟩ := PacketType.exists_code h1 h5
    exact ⟨_, t, marshal_eq _ _ _ _, rfl, parse_layout ⟨t, connID, seq, payload⟩ hpay⟩
  · intro b pkt h
    rw [marshal_eq, ← (layout_of_parse h).2]
  · intro d pkt
    rw [receive_eq_some_iff, marshal_eq, Except.ok.injEq, and_comm, eq_comm]

end RudpScheduler.Rudp
