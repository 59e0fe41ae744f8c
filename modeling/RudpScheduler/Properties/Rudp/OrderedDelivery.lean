import RudpScheduler.Properties.Rudp.InOrder

/-!
# Ordered delivery delivers the contiguous numbers

The receive path of `installOrderedDelivery` on its own, fed with any sequence of numbers from 1 to
`2 ^ 32 - 1`.  After every arrival `deliverQ` holds the payloads of `1, …, k`, where `k` is the
largest number such that all of them have arrived, and what is held back is what has arrived above
`k` (`Delivers`).

`InOrder` has most of this.  What it leaves open is that nothing at or below `k` is held, because
that is where the path fails: when all of `1, …, 2 ^ 32 - 1` have arrived, `next` has wrapped to 0
and the test that should turn away another copy lets it through.  Until then it holds
(`ordered_delivery_iff`).
-/

namespace RudpScheduler.Rudp

/-- `k` is the largest number such that all of `1, …, k` are among `seqs`. -/
def Contiguous (seqs : List UInt32) (k : ℕ) : Prop :=
  (∀ n, 1 ≤ n → n ≤ k → n ∈ seqs.map UInt32.toNat) ∧ k + 1 ∉ seqs.map UInt32.toNat

/-- The connection after the arrivals `seqs`, where number `s` carries the payload `f s`. -/
def arrivals (p : Params) (f : UInt32 → Payload) (c : Conn) (seqs : List UInt32) : Conn :=
  seqs.foldl (fun c s => c.accept p s (f s)) c

/-- The queue holds the payloads of the contiguous numbers, and exactly the numbers above them are
held back. -/
def Delivers (f : UInt32 → Payload) (seqs : List UInt32) (c : Conn) : Prop :=
  ∃ k, Contiguous seqs k ∧
    c.deliverQ = (List.range k).map (fun i => .data (f (UInt32.ofNat (i + 1)))) ∧
    ∀ s, c.recv.held.lookup s = if s ∈ seqs ∧ k < s.toNat then some (f s) else none

/-! ## Nothing held has been released -/

variable {o : Ordered} {app : List Payload} {arr : List (UInt32 × Payload)}

/-- Every held number is above those released. -/
def Above (o : Ordered) (app : List Payload) : Prop :=
  ∀ s d, o.held.lookup s = some d → app.length < s.toNat

lemma Above.release (h : InOrder o app arr) (habove : Above o app) (fuel : ℕ) :
    Above (o.release fuel).1 (app ++ (o.release fuel).2) := by
  induction fuel generalizing o app with
  | zero =>
      rw [Ordered.release, List.append_nil]
      exact habove
  | succ fuel ih =>
      cases hd : o.held.lookup o.next with
      | none =>
          rw [Ordered.release_of_none hd, List.append_nil]
          exact habove
      | some d =>
          have hnext := h.next_eq hd
          have hrest : Above ⟨o.next + 1, o.held.erase o.next⟩ (app ++ [d]) := by
            intro s d' hs
            obtain ⟨he, hs⟩ := GoMap.of_lookup_erase hs
            have hlt := habove s d' hs
            have hne : s.toNat ≠ o.next.toNat := fun hn => he (UInt32.toNat_inj.mp hn)
            rw [List.length_append, List.length_singleton]
            omega
          rw [Ordered.release_of_some hd]
          simpa only [List.append_assoc, List.singleton_append] using ih (h.release_one hd) hrest

/-- One call of `accept` before `next` wraps. -/
lemma Above.accept (h : InOrder o app arr) (hsmall : app.length + 1 < 2 ^ 32)
    (habove : Above o app) {s : UInt32} (hs : s ≠ 0) (d : Payload) :
    Above (o.accept s d).1 (app ++ (o.accept s d).2) := by
  by_cases hskip : s < o.next ∨ (o.held.lookup s).isSome = true
  · rw [Ordered.accept_of_known hskip, List.append_nil]
    exact habove
  · rw [Ordered.accept_of_new hskip]
    refine Above.release (h.hold hs d) ?_ _
    have hnext : o.next.toNat = app.length + 1 := h.next.trans (Nat.mod_eq_of_lt hsmall)
    have hle := UInt32.le_iff_toNat_le.mp (UInt32.not_lt.mp fun hlt => hskip (.inl hlt))
    exact GoMap.forall_insert habove (by omega)

/-! ## After every arrival -/

variable {p : Params} {f : UInt32 → Payload} {seqs : List UInt32} {c : Conn} {s : UInt32}

/-- What holds after every sequence of arrivals. -/
structure Arrived (f : UInt32 → Payload) (seqs : List UInt32) (c : Conn) : Prop where
  inOrder : InOrder c.recv c.appended (seqs.map fun s => (s, f s))
  idle : c.recv.held.lookup c.recv.next = none
  queue : c.deliverQ = c.appended.map .data

/-- The variables of the ordered path after one call of `accept`. -/
lemma Conn.accept_ordered (hp : p.orderedDelivery = true) (c : Conn) (s : UInt32) (d : Payload) :
    (c.accept p s d).recv = (c.recv.accept s d).1 ∧
      (c.accept p s d).appended = c.appended ++ (c.recv.accept s d).2 ∧
      (c.accept p s d).deliverQ = c.deliverQ ++ (c.recv.accept s d).2.map .data := by
  have hview := Conn.accept_view (p := p) c s d
  simp only [View.receive, View.released, hp, if_true] at hview
  exact ⟨congrArg View.recv hview, congrArg View.appended hview, congrArg View.queue hview⟩

lemma Arrived.accept (h : Arrived f seqs c) (hp : p.orderedDelivery = true) (hs : s ≠ 0) :
    Arrived f (seqs ++ [s]) (c.accept p s (f s)) := by
  obtain ⟨hrecv, happ, hqueue⟩ := Conn.accept_ordered hp c s (f s)
  obtain ⟨hin, hidle⟩ := h.inOrder.accept h.idle hs (f s)
  refine ⟨?_, ?_, ?_⟩
  · rw [hrecv, happ, List.map_append]
    exact hin
  · rw [hrecv]
    exact hidle
  · rw [hqueue, happ, h.queue, List.map_append]

lemma arrivals_append (c : Conn) (seqs : List UInt32) (s : UInt32) :
    arrivals p f c (seqs ++ [s]) = (arrivals p f c seqs).accept p s (f s) := by
  rw [arrivals, List.foldl_append]
  rfl

lemma arrivals_arrived (hp : p.orderedDelivery = true) (id : UInt32) (client : Bool)
    (hs : ∀ s ∈ seqs, s ≠ 0) : Arrived f seqs (arrivals p f (newConn id client) seqs) := by
  induction seqs using List.reverseRecOn with
  | nil => exact ⟨inOrder_nil, rfl, rfl⟩
  | append_singleton seqs s ih =>
      rw [arrivals_append]
      refine (ih fun s' hs' => hs s' (List.mem_append_left _ hs')).accept hp ?_
      exact hs s (List.mem_append_right _ (List.mem_singleton_self s))

/-- What was released has arrived. -/
lemma Arrived.released (h : Arrived f seqs c) {i : ℕ} {d : Payload}
    (hi : c.appended[i]? = some d) :
    UInt32.ofNat (i + 1) ∈ seqs ∧ d = f (UInt32.ofNat (i + 1)) := by
  obtain ⟨s, hs, he⟩ := List.mem_map.mp (h.inOrder.released i d hi)
  obtain ⟨rfl, rfl⟩ := Prod.mk.inj he
  exact ⟨hs, rfl⟩

/-- A number that has not arrived is above those released. -/
lemma Arrived.length_lt (h : Arrived f seqs c) (hs0 : s ≠ 0) (hs : s ∉ seqs) :
    c.appended.length < s.toNat := by
  by_contra hge
  have hpos : 0 < s.toNat := Nat.pos_of_ne_zero fun h0 => hs0 (UInt32.toNat_inj.mp h0)
  have hlt : s.toNat - 1 < c.appended.length := by omega
  obtain ⟨hmem, -⟩ := h.released (List.getElem?_eq_getElem hlt)
  rw [Nat.sub_add_cancel hpos, UInt32.ofNat_toNat] at hmem
  exact hs hmem

/-- With nothing held below, the queue is the contiguous numbers. -/
lemma Arrived.delivers (h : Arrived f seqs c) (habove : Above c.recv c.appended) :
    Delivers f seqs c := by
  have hbound := h.inOrder.length_lt
  refine ⟨c.appended.length, ⟨fun n hn hle => ?_, fun hmem => ?_⟩, ?_, fun s => ?_⟩
  · have hlt : n - 1 < c.appended.length := by omega
    obtain ⟨hmem, -⟩ := h.released (List.getElem?_eq_getElem hlt)
    rw [Nat.sub_add_cancel hn] at hmem
    exact List.mem_map.mpr ⟨_, hmem, toNat_seq (hle.trans_lt hbound)⟩
  · -- the next number is neither released nor held
    obtain ⟨s, hs, hnext⟩ := List.mem_map.mp hmem
    have hs32 := s.toNat_lt
    rcases h.inOrder.cover s (f s) (List.mem_map.mpr ⟨s, hs, rfl⟩) with hle | hheld
    · omega
    · have he : s = c.recv.next := by
        rw [← UInt32.toNat_inj, h.inOrder.next, Nat.mod_eq_of_lt (by omega), hnext]
      exact hheld (he ▸ h.idle)
  · rw [h.queue]
    refine List.ext_getElem (by simp) fun i hi _ => ?_
    rw [List.length_map] at hi
    rw [List.getElem_map, List.getElem_map, List.getElem_range,
      (h.released (List.getElem?_eq_getElem hi)).2]
  · cases hl : c.recv.held.lookup s with
    | none =>
        rw [if_neg]
        rintro ⟨hs, hlt⟩
        rcases h.inOrder.cover s (f s) (List.mem_map.mpr ⟨s, hs, rfl⟩) with hle | hheld
        · omega
        · exact hheld hl
    | some d =>
        obtain ⟨s', hs', he⟩ := List.mem_map.mp (h.inOrder.held s d hl)
        obtain ⟨rfl, rfl⟩ := Prod.mk.inj he
        rw [if_pos ⟨hs', habove s' _ hl⟩]

/-- As long as each arrival finds a number still missing, nothing held has been released. -/
lemma arrivals_above (hp : p.orderedDelivery = true) (id : UInt32) (client : Bool)
    (hs : ∀ s ∈ seqs, s ≠ 0)
    (hmissing : ∀ pre s, pre ++ [s] <+: seqs → ∃ t : UInt32, t ≠ 0 ∧ t ∉ pre) :
    Above (arrivals p f (newConn id client) seqs).recv
      (arrivals p f (newConn id client) seqs).appended := by
  induction seqs using List.reverseRecOn with
  | nil => exact fun s d hd => by cases hd
  | append_singleton seqs s ih =>
      have hs' : ∀ s ∈ seqs, s ≠ 0 := fun s' hs' => hs s' (List.mem_append_left _ hs')
      have hstate := arrivals_arrived (f := f) hp id client hs'
      have habove := ih hs' fun pre t ht => hmissing pre t (ht.trans (List.prefix_append _ _))
      obtain ⟨t, ht0, ht⟩ := hmissing seqs s List.prefix_rfl
      have hlt := hstate.length_lt ht0 ht
      have ht32 := t.toNat_lt
      rw [arrivals_append]
      obtain ⟨hrecv, happ, -⟩ :=
        Conn.accept_ordered hp (arrivals p f (newConn id client) seqs) s (f s)
      rw [hrecv, happ]
      exact Above.accept hstate.inOrder (by omega) habove
        (hs s (List.mem_append_right _ (List.mem_singleton_self s))) (f s)

/-- Another copy of any number is held once all numbers have arrived. -/
lemma Arrived.not_delivers (h : Arrived f seqs c) (hp : p.orderedDelivery = true)
    (hall : ∀ t : UInt32, t ≠ 0 → t ∈ seqs) (hs : s ≠ 0) :
    ¬ Delivers f (seqs ++ [s]) (c.accept p s (f s)) := by
  rintro ⟨k, ⟨-, hnot⟩, -, hheld⟩
  -- every number is contiguous, so nothing is to be held
  have hk : 2 ^ 32 ≤ k + 1 := by
    by_contra hlt
    have hne : UInt32.ofNat (k + 1) ≠ 0 := seq_ne_zero k.succ_ne_zero (by omega)
    exact hnot (List.mem_map.mpr
      ⟨_, List.mem_append_left _ (hall _ hne), toNat_seq (by omega)⟩)
  have hs32 := s.toNat_lt
  have hnone := hheld s
  rw [if_neg (by omega), (Conn.accept_ordered hp c s (f s)).1] at hnone
  -- but the counter is back at 0, below every number
  have hlen := h.inOrder.le_length h.idle (n := 2 ^ 32 - 1) (by omega) fun t ht _ =>
    ⟨f t, List.mem_map.mpr ⟨t, hall t ht, rfl⟩⟩
  have hnext : c.recv.next = 0 := by
    have hbound := h.inOrder.length_lt
    rw [← UInt32.toNat_inj, h.inOrder.next, show c.appended.length + 1 = 2 ^ 32 by omega]
    rfl
  by_cases hskip : s < c.recv.next ∨ (c.recv.held.lookup s).isSome = true
  · rw [Ordered.accept_of_known hskip] at hnone
    rcases hskip with hlt | hsome
    · rw [hnext] at hlt
      exact absurd hlt (UInt32.not_lt.mpr (UInt32.le_iff_toNat_le.mpr (Nat.zero_le _)))
    · rw [hnone] at hsome
      cases hsome
  · have hidle : (c.recv.held.insert s (f s)).lookup c.recv.next = none := by
      rw [GoMap.lookup_insert_ite, if_neg (by rw [hnext]; exact hs.symm)]
      exact h.idle
    rw [Ordered.accept_of_new hskip, Ordered.release_of_none hidle] at hnone
    rw [Finmap.lookup_insert] at hnone
    cases hnone

/-- After every arrival the contiguous numbers have been delivered and the rest is held, exactly
when no number arrives after all of `1, …, 2 ^ 32 - 1` have. -/
theorem ordered_delivery_iff (hp : p.orderedDelivery = true) (id : UInt32) (client : Bool)
    (f : UInt32 → Payload) (hs : ∀ s ∈ seqs, s ≠ 0) :
    (∀ pre, pre <+: seqs → Delivers f pre (arrivals p f (newConn id client) pre)) ↔
      ∀ pre s, pre ++ [s] <+: seqs → ∃ t : UInt32, t ≠ 0 ∧ t ∉ pre := by
  constructor
  · intro hdel pre s hpre
    by_contra hall
    have hall' : ∀ t : UInt32, t ≠ 0 → t ∈ pre := fun t ht => by
      by_contra hnot
      exact hall ⟨t, ht, hnot⟩
    have hs' : ∀ t ∈ pre ++ [s], t ≠ 0 := fun t ht => hs t (hpre.subset ht)
    have hstate : Arrived f pre (arrivals p f (newConn id client) pre) :=
      arrivals_arrived hp id client fun t ht => hs' t (List.mem_append_left _ ht)
    have hbad := hstate.not_delivers hp hall' (s := s)
      (hs' s (List.mem_append_right _ (List.mem_singleton_self s)))
    rw [← arrivals_append] at hbad
    exact hbad (hdel _ hpre)
  · intro hmissing pre hpre
    have hs' : ∀ s ∈ pre, s ≠ 0 := fun s hmem => hs s (hpre.subset hmem)
    refine (arrivals_arrived hp id client hs').delivers ?_
    exact arrivals_above hp id client hs' fun pre' s h => hmissing pre' s (h.trans hpre)

/-- The default tunables with the switch on. -/
def orderedParams : Params := { Params.default with orderedDelivery := true }

/-- Number 2 arrives early, and twice. -/
theorem ordered_delivery_early :
    Delivers (fun s => [s.toUInt8]) [2, 1, 2]
      (arrivals orderedParams (fun s => [s.toUInt8]) (newConn 1 true) [2, 1, 2]) := by
  have hne : ∀ s ∈ ([2, 1, 2] : List UInt32), s ≠ 0 := by simp
  refine (ordered_delivery_iff (p := orderedParams) rfl 1 true _ hne).mpr
    (fun pre s h => ⟨3, by decide, fun hmem => ?_⟩) _ List.prefix_rfl
  have hmem' := h.subset (List.mem_append_left _ hmem)
  simp at hmem'

/-- All numbers in order, then number 1 again: it is held though it has been delivered. -/
theorem ordered_delivery_wraps :
    ∃ seqs : List UInt32, (∀ s ∈ seqs, s ≠ 0) ∧
      ¬ Delivers (fun _ => []) seqs
        (arrivals orderedParams (fun _ => []) (newConn 1 true) seqs) := by
  have hall : ∀ t : UInt32, t ∈ (List.range (2 ^ 32 - 1)).map (fun i => UInt32.ofNat (i + 1)) ↔
      t ≠ 0 := by
    intro t
    rw [List.mem_map]
    constructor
    · rintro ⟨i, hi, rfl⟩
      rw [List.mem_range] at hi
      exact seq_ne_zero i.succ_ne_zero (by omega)
    · intro h0
      have ht := t.toNat_lt
      have hpos := seq_pos h0
      refine ⟨t.toNat - 1, List.mem_range.mpr (by omega), ?_⟩
      rw [Nat.sub_add_cancel hpos, UInt32.ofNat_toNat]
  generalize (List.range (2 ^ 32 - 1)).map (fun i => UInt32.ofNat (i + 1)) = seqs at hall
  refine ⟨seqs ++ [1], fun s hmem => ?_, ?_⟩
  · rcases List.mem_append.mp hmem with hmem | hmem
    · exact (hall s).mp hmem
    · rw [List.mem_singleton.mp hmem]
      decide
  · rw [arrivals_append]
    exact (arrivals_arrived rfl 1 true fun s hmem => (hall s).mp hmem).not_delivers rfl
      (fun t ht => (hall t).mpr ht) (by decide)

end RudpScheduler.Rudp
