import RudpScheduler.Construction.Rudp.Addr
import RudpScheduler.Properties.Rudp.Tables

/-!
# Who may speak on a connection

The connection table is keyed by the text of the peer's address, and a packet is routed by
`sameAddr`, which compares the ports and the IPs.  The text tells more apart: it has the zone
(`UDPAddr.string_inj`).  The two notions of peer agree exactly on addresses that do not differ in
their zone alone (`NetAddr.sameAddr_agrees_iff`), and so a packet is handed to the connection of its
ID and its source exactly when the source does not differ from the peer in its zone alone
(`routing_by_text_iff`).

The text is taken apart at its separators: the port has no `:`, so it is what follows the last one,
and the IP has no `%`, so it is what precedes the first one.
-/

namespace RudpScheduler.Rudp

/-! ## Separators -/

lemma append_cons_inj {α : Type*} {c : α} {x x' y y' : List α} (hx : c ∉ x) (hx' : c ∉ x')
    (h : x ++ c :: y = x' ++ c :: y') : x = x' ∧ y = y' := by
  rcases List.append_eq_append_iff.mp h with ⟨z, rfl, hz⟩ | ⟨z, rfl, hz⟩
  · cases z with
    | nil => exact ⟨(List.append_nil x).symm, (List.cons.inj hz).2⟩
    | cons d z =>
        obtain ⟨rfl, -⟩ := List.cons.inj hz
        exact absurd (List.mem_append_right x List.mem_cons_self) hx'
  · cases z with
    | nil => exact ⟨List.append_nil x', (List.cons.inj hz).2.symm⟩
    | cons d z =>
        obtain ⟨rfl, -⟩ := List.cons.inj hz
        exact absurd (List.mem_append_right x' List.mem_cons_self) hx

/-- The same, from the right. -/
lemma append_cons_inj_right {α : Type*} {c : α} {x x' y y' : List α} (hy : c ∉ y) (hy' : c ∉ y')
    (h : x ++ c :: y = x' ++ c :: y') : x = x' ∧ y = y' := by
  have hrev := congrArg List.reverse h
  simp only [List.reverse_append, List.reverse_cons, List.append_assoc,
    List.singleton_append] at hrev
  obtain ⟨h1, h2⟩ := append_cons_inj (mt List.mem_reverse.mp hy) (mt List.mem_reverse.mp hy') hrev
  exact ⟨List.reverse_injective h2, List.reverse_injective h1⟩

/-! ## The text of an address -/

variable {net : IPText}

lemma colon_notMem_repr (n : ℕ) : ':' ∉ n.repr.toList := by
  intro h
  rw [Nat.toList_repr] at h
  exact absurd (Nat.isDigit_of_mem_toDigits (by decide) (by decide) h) (by decide)

/-- The host and the port can be told from what `JoinHostPort` makes of them. -/
lemma joinHostPort_inj {h h' : List Char} {m n : ℕ} (hh : h.head? ≠ some '[')
    (hh' : h'.head? ≠ some '[')
    (heq : joinHostPort h m.repr.toList = joinHostPort h' n.repr.toList) : h = h' ∧ m = n := by
  have hsplit : ∀ {x x' : List Char}, x ++ ':' :: m.repr.toList = x' ++ ':' :: n.repr.toList →
      x = x' ∧ m = n := by
    intro x x' hx
    obtain ⟨h1, h2⟩ := append_cons_inj_right (colon_notMem_repr m) (colon_notMem_repr n) hx
    exact ⟨h1, Nat.repr_inj.mp (String.toList_inj.mp h2)⟩
  unfold joinHostPort at heq
  split_ifs at heq with hc hc' hc'
  · obtain ⟨h1, h2⟩ := hsplit heq
    exact ⟨List.append_cancel_right (List.cons.inj h1).2, h2⟩
  · obtain ⟨h1, -⟩ := hsplit heq
    exact absurd (by rw [← h1]; rfl) hh'
  · obtain ⟨h1, -⟩ := hsplit heq
    exact absurd (by rw [h1]; rfl) hh
  · exact hsplit heq

lemma UDPAddr.host_head (a : UDPAddr) : (a.host net).head? ≠ some '[' := by
  have hip := net.bracket_notMem a.ip
  unfold UDPAddr.host
  generalize net.text a.ip = t at hip
  cases t with
  | nil => split_ifs <;> simp
  | cons c t =>
      have hc : c ≠ '[' := fun hc => hip (hc ▸ List.mem_cons_self)
      split_ifs <;> simpa using hc

/-- The IP and the zone can be told from the host. -/
lemma UDPAddr.host_inj {a b : UDPAddr} (h : a.host net = b.host net) :
    net.text a.ip = net.text b.ip ∧ a.zone = b.zone := by
  have ha := net.percent_notMem a.ip
  have hb := net.percent_notMem b.ip
  unfold UDPAddr.host at h
  split_ifs at h with hza hzb hzb
  · obtain ⟨h1, h2⟩ := append_cons_inj ha hb h
    exact ⟨h1, String.toList_inj.mp h2⟩
  · exact absurd (h ▸ List.mem_append_right _ List.mem_cons_self) hb
  · exact absurd (h.symm ▸ List.mem_append_right _ List.mem_cons_self) ha
  · exact ⟨h, (not_not.mp hza).trans (not_not.mp hzb).symm⟩

/-- **What the text of an address tells**: the IP up to `Equal`, the port and the zone. -/
lemma UDPAddr.string_inj {a b : UDPAddr} :
    a.string net = b.string net ↔ a.ip.equal b.ip = true ∧ a.port = b.port ∧ a.zone = b.zone := by
  rw [← net.text_eq_iff]
  constructor
  · intro h
    obtain ⟨hhost, hport⟩ := joinHostPort_inj a.host_head b.host_head (String.ofList_inj.mp h)
    obtain ⟨hip, hzone⟩ := UDPAddr.host_inj hhost
    exact ⟨hip, hport, hzone⟩
  · rintro ⟨hip, hport, hzone⟩
    rw [UDPAddr.string, UDPAddr.string, UDPAddr.host, UDPAddr.host, hip, hport, hzone]

/-- Two UDP addresses that differ in their zone and in nothing else. -/
def NetAddr.ZoneApart : NetAddr → NetAddr → Prop
  | .udp a, .udp b => a.port = b.port ∧ a.ip.equal b.ip = true ∧ a.zone ≠ b.zone
  | _, _ => False

/-- `sameAddr` agrees with the text exactly on addresses that do not differ in their zone alone. -/
lemma NetAddr.sameAddr_agrees_iff (net : IPText) (a b : NetAddr) :
    (a.sameAddr net b = true ↔ a.string net = b.string net) ↔ ¬ a.ZoneApart b := by
  cases a with
  | udp a =>
      cases b with
      | udp b =>
          simp only [NetAddr.sameAddr, NetAddr.string, NetAddr.ZoneApart, UDPAddr.string_inj,
            Bool.and_eq_true, beq_iff_eq]
          tauto
      | other text => simp [NetAddr.sameAddr, NetAddr.ZoneApart]
  | other text => simp [NetAddr.sameAddr, NetAddr.ZoneApart]

/-! ## The peer of a connection -/

namespace Server

variable {Addr : Type} {ops : AddrOps Addr} {p : Params} {s t : Server Addr}

/-- The datagram is a Connect. -/
def IsConnect (bytes : List UInt8) : Prop :=
  ∃ pkt, receive bytes = .ok (some pkt) ∧ pkt.typ = .connect

/-- In the run by `as`, connection `g` was created by a Connect from `addr`. -/
def CreatedBy (ops : AddrOps Addr) (p : Params) (as : List (ServerAction Addr)) (g : ℕ)
    (addr : Addr) : Prop :=
  ∃ before bytes rest u v, as = before ++ .datagram bytes addr :: rest ∧ IsConnect bytes ∧
    run (Go.survive (step ops p)) start before = some u ∧
    u.step ops p (.datagram bytes addr) = some (.ok v) ∧
    u.gos.lookup g = none ∧ v.gos.lookup g ≠ none

lemma CreatedBy.append {as : List (ServerAction Addr)} {g : ℕ} {addr : Addr}
    (h : CreatedBy ops p as g addr) (bs : List (ServerAction Addr)) :
    CreatedBy ops p (as ++ bs) g addr := by
  obtain ⟨before, bytes, rest, u, v, rfl, hrest⟩ := h
  exact ⟨before, bytes, rest ++ bs, u, v, by simp, hrest⟩

/-- Only a Connect starts a connection. -/
lemma datagram_gos {bytes : List UInt8} {addr : Addr} (h : s.datagram ops bytes addr = .ok t)
    (hne : ¬ IsConnect bytes) : t.gos = s.gos := by
  obtain ⟨pkt, hpkt, h⟩ := Go.bind_eq_ok.mp h
  cases pkt with
  | none =>
      obtain rfl := Except.ok.inj h
      rfl
  | some pkt =>
      dsimp only at h
      rw [if_neg fun htyp => hne ⟨pkt, hpkt, htyp⟩] at h
      split at h
      · obtain rfl := Except.ok.inj h
        rfl
      · split_ifs at h <;> obtain rfl := Except.ok.inj h <;> rfl

/-- A connection keeps its peer's address; one that is new has the address of the Connect. -/
lemma step_raddr (hs : s.Ok ops) {a : ServerAction Addr} (h : s.step ops p a = some (.ok t))
    {g : ℕ} {c : ServerConn Addr} (hc : t.gos.lookup g = some c) :
    (∃ c₀, s.gos.lookup g = some c₀ ∧ c₀.raddr = c.raddr) ∨
      s.gos.lookup g = none ∧ ∃ bytes, IsConnect bytes ∧ a = .datagram bytes c.raddr := by
  have hput : ∀ {k : ℕ} {d e : ServerConn Addr}, s.gos.lookup k = some d → e.raddr = d.raddr →
      (s.gos.insert k e).lookup g = some c →
      ∃ c₀, s.gos.lookup g = some c₀ ∧ c₀.raddr = c.raddr := by
    intro k d e hd hraddr hc
    obtain ⟨rfl, rfl⟩ | ⟨-, hc⟩ := GoMap.of_lookup_insert hc
    · exact ⟨d, hd, hraddr.symm⟩
    · exact ⟨c, hc, rfl⟩
  -- the goroutine a Connect starts
  have hnew : ∀ {u : Server Addr} {bytes : List UInt8} {addr : Addr}, u.gos = s.gos →
      u.accepted = s.accepted → s.datagram ops bytes addr = .ok t →
      (u.accept ops addr).1.gos.lookup g = some c →
      (∃ c₀, s.gos.lookup g = some c₀ ∧ c₀.raddr = c.raddr) ∨
        s.gos.lookup g = none ∧ ∃ b, IsConnect b ∧
          ServerAction.datagram bytes addr = .datagram b c.raddr := by
    intro u bytes addr hgos hacc hdata hc'
    change (u.gos.insert (u.accepted + 1) _).lookup g = some c at hc'
    rw [hgos, hacc, GoMap.lookup_insert_ite] at hc'
    split_ifs at hc' with hk
    · have hnone : s.gos.lookup g = none := by
        by_contra hsome
        obtain ⟨d, hd⟩ := Option.ne_none_iff_exists'.mp hsome
        have hle := hs.go_le g d hd
        omega
      refine .inr ⟨hnone, bytes, ?_, by rw [← Option.some_inj.mp hc']⟩
      by_contra hne
      rw [datagram_gos hdata hne, hnone] at hc
      exact absurd hc (by simp)
    · exact .inl ⟨c, hc', rfl⟩
  cases step_move h with
  | ask hph hd hstep =>
      obtain ⟨-, -, -, hraddr, -⟩ := ServerConn.step_ok hstep
      exact .inl (hput hd hraddr hc)
  | sweep hph =>
      rw [(s.sweep_frame ops _ _).1] at hc
      exact .inl ⟨c, hc, rfl⟩
  | fresh hph hclosing hk =>
      rw [step, if_pos hph] at h
      exact hnew rfl rfl (Option.some_inj.mp h) hc
  | @replaced bytes addr id k hph hclosing hk hg hd =>
      rw [step, if_pos hph] at h
      obtain ⟨-, hgos, -, hacc, -⟩ := forget_frame ops s id k
      exact hnew hgos hacc (Option.some_inj.mp h) hc
  | @handOver k pkt d hph hd hroom =>
      exact .inl (hput (e := { d with inCh := d.inCh ++ [pkt] }) hd rfl hc)
  | @handDead k pkt hph hd =>
      change (s.forget ops pkt.connID k).gos.lookup g = some c at hc
      rw [(forget_frame ops s pkt.connID k).2.1] at hc
      exact .inl ⟨c, hc, rfl⟩
  | recv hd hin hstep =>
      obtain ⟨-, -, -, hraddr, -⟩ := ServerConn.step_ok hstep
      exact .inl (hput hd hraddr hc)
  | conn hd hi hstep =>
      obtain ⟨-, -, -, hraddr, -⟩ := ServerConn.step_ok hstep
      exact .inl (hput hd hraddr hc)
  | _ => exact .inl ⟨c, hc, rfl⟩

/-- The address a connection has is the one its Connect came from. -/
lemma run_createdBy {as : List (ServerAction Addr)}
    (h : run (Go.survive (step ops p)) start as = some s) {g : ℕ} {c : ServerConn Addr}
    (hc : s.gos.lookup g = some c) : CreatedBy ops p as g c.raddr := by
  induction as using List.reverseRecOn generalizing s c with
  | nil =>
      obtain rfl := Option.some_inj.mp h
      exact absurd hc (by simp [start])
  | append_singleton as a ih =>
      rw [run_append] at h
      obtain ⟨u, hu, h⟩ := Option.bind_eq_some_iff.mp h
      obtain ⟨v, hv, h⟩ := run_cons_eq_some.mp h
      obtain rfl := Option.some_inj.mp h
      have hstep := Go.survive_eq_some.mp hv
      rcases step_raddr (run_ok hu) hstep hc with ⟨c₀, hc₀, hraddr⟩ | ⟨hnone, bytes, hconn, rfl⟩
      · exact hraddr ▸ (ih hu hc₀).append [a]
      · exact ⟨as, bytes, [], u, v, rfl, hconn, hu, hstep, hnone, by rw [hc]; simp⟩

/-! ## Routing -/

/-- The read loop takes the datagram and turns to handing its packet to connection `g`. -/
def Hands (ops : AddrOps Addr) (p : Params) (s : Server Addr) (bytes : List UInt8) (addr : Addr)
    (g : ℕ) (pkt : Packet) : Prop :=
  ∃ t, s.step ops p (.datagram bytes addr) = some (.ok t) ∧ t.phase = .handing g pkt

/-- A packet is handed to the connection in the table whose ID it has, if `sameAddr` says so. -/
lemma hands_iff (hs : s.Ok ops) (hph : s.phase = .reading) {bytes : List UInt8} {pkt : Packet}
    (hpkt : receive bytes = .ok (some pkt)) (htyp : pkt.typ ≠ .connect) {g : ℕ}
    {c : ServerConn Addr} (hc : s.gos.lookup g = some c) (hg : s.conns.lookup c.conn.id = some g)
    (addr : Addr) : s.Hands ops p bytes addr g pkt ↔
      pkt.connID = c.conn.id ∧ ops.sameAddr addr c.raddr = true := by
  have hstep : s.step ops p (.datagram bytes addr) = some (s.datagram ops bytes addr) := by
    rw [step, if_pos hph]
  rw [Hands, hstep, datagram, hpkt, Go.ok_bind]
  dsimp only
  rw [if_neg htyp]
  constructor
  · rintro ⟨t, ht, hphase⟩
    cases hk : s.conns.lookup pkt.connID with
    | none =>
        rw [hk] at ht
        obtain rfl := Except.ok.inj (Option.some_inj.mp ht)
        exact absurd hphase (by simp)
    | some k =>
        rw [hk] at ht
        dsimp only at ht
        split_ifs at ht with hsame
        · obtain rfl := Except.ok.inj (Option.some_inj.mp ht)
          obtain ⟨rfl, -⟩ := ReadPhase.handing.inj hphase
          obtain ⟨d, hd, hid⟩ := hs.conns _ _ hk
          obtain rfl := Option.some_inj.mp (hc.symm.trans hd)
          rw [hc] at hsame
          exact ⟨hid.symm, hsame⟩
        · obtain rfl := Except.ok.inj (Option.some_inj.mp ht)
          exact absurd hphase (by simp)
  · rintro ⟨hid, hsame⟩
    rw [hid, hg]
    dsimp only
    rw [hc, Option.any_some, if_pos hsame]
    exact ⟨_, rfl, rfl⟩

end Server

/-- **When routing goes by the peer's text.**  `sameAddr` agrees with the text exactly on addresses
that do not differ in their zone alone.  In every reachable state, a connection in the table was
created by a Connect from its `raddr`; and "a packet that is not a Connect is handed to it if and
only if it has the connection's ID and its source has the text of that address" holds exactly when
it is not a packet with the connection's ID from an address that differs in its zone alone. -/
theorem routing_by_text_iff (net : IPText) (p : Params) {as : List (ServerAction NetAddr)}
    {s : Server NetAddr}
    (hrun : run (Go.survive (Server.step (netOps net) p)) Server.start as = some s) :
    (∀ a b : NetAddr,
      ((a.sameAddr net b = true ↔ a.string net = b.string net) ↔ ¬ a.ZoneApart b)) ∧
      ∀ g c, s.gos.lookup g = some c → s.conns.lookup c.conn.id = some g →
        Server.CreatedBy (netOps net) p as g c.raddr ∧
        ∀ bytes pkt addr, s.phase = .reading → receive bytes = .ok (some pkt) →
          pkt.typ ≠ .connect →
          ((s.Hands (netOps net) p bytes addr g pkt ↔
              pkt.connID = c.conn.id ∧ addr.string net = c.raddr.string net) ↔
            ¬ (pkt.connID = c.conn.id ∧ addr.ZoneApart c.raddr)) := by
  refine ⟨NetAddr.sameAddr_agrees_iff net, fun g c hc hg => ⟨Server.run_createdBy hrun hc, ?_⟩⟩
  intro bytes pkt addr hph hpkt htyp
  rw [Server.hands_iff (Server.run_ok hrun) hph hpkt htyp hc hg addr]
  change (_ ∧ addr.sameAddr net c.raddr = true ↔ _) ↔ _
  rw [not_and, ← NetAddr.sameAddr_agrees_iff net, and_congr_right_iff]

/-! ## Zones -/

/-- The 16-byte form of an address. -/
def IP.to16 (a : IP) : List UInt8 :=
  if a.bytes.length = 4 then v4InV6Prefix ++ a.bytes else a.bytes

lemma v4InV6Prefix_append_eq_iff {x y : List UInt8} :
    v4InV6Prefix ++ x = y ↔ y.take 12 = v4InV6Prefix ∧ x = y.drop 12 := by
  have hlen : v4InV6Prefix.length = 12 := rfl
  constructor
  · rintro rfl
    exact ⟨List.take_left' hlen, (List.drop_left' hlen).symm⟩
  · rintro ⟨htake, rfl⟩
    rw [← htake, List.take_append_drop]

lemma IP.equal_iff (a b : IP) : a.equal b = true ↔ a.to16 = b.to16 := by
  unfold IP.equal IP.to16
  rcases a.length_bytes with ha | ha <;> rcases b.length_bytes with hb | hb
  · simp [ha, hb]
  · simp [ha, hb, v4InV6Prefix_append_eq_iff]
  · have hmapped := v4InV6Prefix_append_eq_iff (x := b.bytes) (y := a.bytes)
    rw [eq_comm, eq_comm (a := b.bytes)] at hmapped
    simp [ha, hb, hmapped]
  · simp [ha, hb]

/-- A letter for a byte. -/
def byteLetter (b : UInt8) : Char := Char.ofNat (256 + b.toNat)

lemma byteLetter_toNat (b : UInt8) : (byteLetter b).toNat = 256 + b.toNat := by
  have hb := b.toNat_lt
  rw [byteLetter, Char.toNat_ofNat, if_pos (Or.inl (by omega))]

lemma byteLetter_injective : Function.Injective byteLetter := by
  intro a b h
  have hnat := congrArg Char.toNat h
  rw [byteLetter_toNat, byteLetter_toNat] at hnat
  exact UInt8.toNat_inj.mp (Nat.add_left_cancel hnat)

lemma notMem_map_byteLetter {c : Char} (hc : c.toNat < 256) (bs : List UInt8) :
    c ∉ bs.map byteLetter := by
  rw [List.mem_map]
  rintro ⟨b, -, rfl⟩
  rw [byteLetter_toNat] at hc
  omega

/-- The 16 bytes of `fe80::1`. -/
def linkLocalBytes : List UInt8 := [0xfe, 0x80, 0, 0, 0, 0, 0, 0, 0, 0, 0, 0, 0, 0, 0, 1]

/-- The 16 bytes of `::1`. -/
def loopbackBytes : List UInt8 := [0, 0, 0, 0, 0, 0, 0, 0, 0, 0, 0, 0, 0, 0, 0, 1]

/-- The text of package `net` for the two addresses of the concrete runs, and one letter for each
byte of any other. -/
def bytesText (bs : List UInt8) : List Char :=
  if bs = linkLocalBytes then "fe80::1".toList
  else if bs = loopbackBytes then "::1".toList
  else bs.map byteLetter

lemma bytesText_injective : Function.Injective bytesText := by
  have hcolon : ∀ bs : List UInt8, ':' ∉ bs.map byteLetter := notMem_map_byteLetter (by decide)
  have hother : ∀ {t : List Char} {bs : List UInt8}, ':' ∈ t → t ≠ bs.map byteLetter :=
    fun ht h => hcolon _ (h ▸ ht)
  have hne : "fe80::1".toList ≠ "::1".toList := by decide
  intro a b h
  unfold bytesText at h
  split_ifs at h with ha hb hb ha' hb hb' hb hb'
  · exact ha.trans hb.symm
  · exact absurd h hne
  · exact absurd h (hother (by decide))
  · exact absurd h hne.symm
  · exact ha'.trans hb'.symm
  · exact absurd h (hother (by decide))
  · exact absurd h.symm (hother (by decide))
  · exact absurd h.symm (hother (by decide))
  · exact List.map_injective_iff.mpr byteLetter_injective h

lemma notMem_bytesText {c : Char} (hc : c.toNat < 256) (h1 : c ∉ "fe80::1".toList)
    (h2 : c ∉ "::1".toList) (bs : List UInt8) : c ∉ bytesText bs := by
  unfold bytesText
  split_ifs
  · exact h1
  · exact h2
  · exact notMem_map_byteLetter hc bs

/-- A way to write IPs for the concrete runs. -/
def runText : IPText where
  text a := bytesText a.to16
  text_eq_iff a b := by
    rw [IP.equal_iff]
    exact bytesText_injective.eq_iff
  percent_notMem _ := notMem_bytesText (by decide) (by decide) (by decide) _
  bracket_notMem _ := notMem_bytesText (by decide) (by decide) (by decide) _

/-- The link-local address `fe80::1`, port 7000, on the given interface. -/
def linkLocal (zone : String) : UDPAddr where
  ip := ⟨linkLocalBytes, .inr rfl⟩
  port := 7000
  zone := zone

example : (linkLocal "eth0").string runText = "[fe80::1%eth0]:7000" := by decide +kernel

/-- A peer on the interface `eth0` connects. -/
def connectRun : List (ServerAction NetAddr) :=
  [.turn seqOrder, .sweep false seqOrder,
    .datagram [1, 0, 0, 0, 0, 0, 0, 0, 0, 0, 0] (.udp (linkLocal "eth0")),
    .turn seqOrder, .sweep false seqOrder]

/-- A Data packet for connection 1. -/
def dataOne : List UInt8 := [3, 0, 0, 0, 1, 0, 0, 0, 1, 0, 1, 5]

lemma connectRun_state :
    ∃ s c, run (Go.survive (Server.step (netOps runText) Params.default)) Server.start
        connectRun = some s ∧
      s.gos.lookup 1 = some c ∧ c.conn.id = 1 ∧ c.raddr = .udp (linkLocal "eth0") ∧
      s.conns.lookup 1 = some 1 ∧ s.phase = .reading := by
  have hval : (run (Go.survive (Server.step (netOps runText) Params.default)) Server.start
      connectRun).map (fun s => ((s.gos.lookup 1).map (fun c => (c.conn.id, c.raddr)),
        s.conns.lookup 1, s.phase)) =
      some (some (1, .udp (linkLocal "eth0")), some 1, .reading) := by
    decide +kernel
  obtain ⟨s, hrun, hs⟩ := Option.map_eq_some_iff.mp hval
  obtain ⟨hgo, hs⟩ := Prod.mk.inj hs
  obtain ⟨hconns, hph⟩ := Prod.mk.inj hs
  obtain ⟨c, hc, hc'⟩ := Option.map_eq_some_iff.mp hgo
  obtain ⟨hid, hraddr⟩ := Prod.mk.inj hc'
  exact ⟨s, c, hrun, hc, hid, hraddr, hconns, hph⟩

lemma receive_dataOne : receive dataOne = .ok (some ⟨.data, 1, 1, [5]⟩) := by
  decide +kernel

/-- The peer's own packet is handed to its connection, which the Connect above created. -/
theorem routing_by_text_connectRun :
    ∃ s, run (Go.survive (Server.step (netOps runText) Params.default)) Server.start
        connectRun = some s ∧
      Server.CreatedBy (netOps runText) Params.default connectRun 1 (.udp (linkLocal "eth0")) ∧
      s.Hands (netOps runText) Params.default dataOne (.udp (linkLocal "eth0")) 1
        ⟨.data, 1, 1, [5]⟩ := by
  obtain ⟨s, c, hrun, hc, hid, hraddr, hconns, hph⟩ := connectRun_state
  obtain ⟨-, hroute⟩ := routing_by_text_iff runText Params.default hrun
  obtain ⟨hcreated, hhands⟩ := hroute 1 c hc (by rw [hid]; exact hconns)
  rw [hraddr] at hcreated hhands
  refine ⟨s, hrun, hcreated, ?_⟩
  have hagree := (hhands dataOne _ (.udp (linkLocal "eth0")) hph receive_dataOne (by simp)).mpr
    (fun h => h.2.2.2 rfl)
  exact hagree.mpr ⟨hid.symm, rfl⟩

/-- A packet from the same address on another interface is handed to the connection of a peer whose
address has another text. -/
theorem zone_not_compared :
    ∃ s c, run (Go.survive (Server.step (netOps runText) Params.default)) Server.start
        connectRun = some s ∧
      s.gos.lookup 1 = some c ∧
      s.Hands (netOps runText) Params.default dataOne (.udp (linkLocal "eth1")) 1
        ⟨.data, 1, 1, [5]⟩ ∧
      NetAddr.string runText (.udp (linkLocal "eth1")) ≠ c.raddr.string runText := by
  obtain ⟨s, c, hrun, hc, hid, hraddr, hconns, hph⟩ := connectRun_state
  refine ⟨s, c, hrun, hc, ?_, ?_⟩
  · rw [Server.hands_iff (Server.run_ok hrun) hph receive_dataOne (by simp) hc
      (by rw [hid]; exact hconns), hraddr]
    exact ⟨hid.symm, by decide⟩
  · rw [hraddr]
    intro h
    exact absurd (UDPAddr.string_inj.mp h).2.2 (by decide)

end RudpScheduler.Rudp
