import RudpScheduler.Construction.Rudp.Protocol

/-!
# The ordered receive path

`InOrder` relates the variables of the ordered receive path to the calls of `accept` made so far:
the payloads released are those of the numbers `1, 2, …` in order, every other number that has
arrived is held, and `next` is the number after the last one released, as far as 32 bits go.
Between two calls the next number is not held, so the path never keeps back what it could
release.

Past the last number `next` wraps to 0, which never arrives; the invariant does not care.

`Gets` is what the rest of the development uses: on the default path what is appended to `deliverQ`
is what arrived, on the ordered path it is in order.
-/

namespace RudpScheduler.Rudp

/-! ## Sequence numbers -/

lemma toNat_seq {n : ℕ} (h : n < 2 ^ 32) : (UInt32.ofNat n).toNat = n :=
  UInt32.toNat_ofNat_of_lt' h

lemma seq_ne_zero {n : ℕ} (h0 : n ≠ 0) (h : n < 2 ^ 32) : UInt32.ofNat n ≠ 0 := by
  rw [Ne, ← UInt32.toNat_inj, toNat_seq h]
  exact h0

lemma seq_pos {s : UInt32} (h0 : s ≠ 0) : 1 ≤ s.toNat :=
  Nat.one_le_iff_ne_zero.mpr fun h => h0 (UInt32.toNat_inj.mp h)

lemma seq_inj {m n : ℕ} (hm : m < 2 ^ 32) (hn : n < 2 ^ 32)
    (h : UInt32.ofNat m = UInt32.ofNat n) : m = n := by
  have hnat := congrArg UInt32.toNat h
  rwa [toNat_seq hm, toNat_seq hn] at hnat

/-! ## The invariant -/

/-- The variables of the ordered receive path, the payloads released so far and the calls of
`accept` so far. -/
structure InOrder (o : Ordered) (app : List Payload) (arr : List (UInt32 × Payload)) : Prop where
  length_lt : app.length < 2 ^ 32
  next : o.next.toNat = (app.length + 1) % 2 ^ 32
  released : ∀ i d, app[i]? = some d → (UInt32.ofNat (i + 1), d) ∈ arr
  held : ∀ s d, o.held.lookup s = some d → (s, d) ∈ arr
  cover : ∀ s d, (s, d) ∈ arr → s.toNat ≤ app.length ∨ o.held.lookup s ≠ none
  ne_zero : ∀ s d, (s, d) ∈ arr → s ≠ 0

variable {o : Ordered} {app : List Payload} {arr : List (UInt32 × Payload)}

/-- A held number is not 0, so `next` has not wrapped when it is held. -/
lemma InOrder.next_eq (h : InOrder o app arr) {d : Payload}
    (hd : o.held.lookup o.next = some d) : o.next.toNat = app.length + 1 := by
  have hne : o.next.toNat ≠ 0 := fun h0 =>
    h.ne_zero _ _ (h.held _ _ hd) (UInt32.toNat_inj.mp h0)
  have hlt := h.length_lt
  have hnext := h.next
  rcases Nat.lt_or_ge (app.length + 1) (2 ^ 32) with hsmall | hbig
  · rwa [Nat.mod_eq_of_lt hsmall] at hnext
  · rw [show app.length + 1 = 2 ^ 32 by omega, Nat.mod_self] at hnext
    exact absurd hnext hne

/-- One round of the release loop. -/
lemma InOrder.release_one (h : InOrder o app arr) {d : Payload}
    (hd : o.held.lookup o.next = some d) :
    InOrder ⟨o.next + 1, o.held.erase o.next⟩ (app ++ [d]) arr := by
  have hnext := h.next_eq hd
  have hbound := o.next.toNat_lt
  refine ⟨?_, ?_, fun i d' hi => ?_, fun s d' hs => ?_, fun s d' hs => ?_, h.ne_zero⟩
  · rw [List.length_append, List.length_singleton]
    omega
  · rw [UInt32.toNat_add, UInt32.toNat_one, hnext, List.length_append, List.length_singleton]
  · rcases Nat.lt_or_ge i app.length with hlt | hge
    · rw [List.getElem?_append_left hlt] at hi
      exact h.released i d' hi
    · -- the payload just released
      rw [List.getElem?_append_right hge, List.getElem?_singleton] at hi
      split_ifs at hi with h0
      obtain rfl := Option.some_inj.mp hi
      have hi' : UInt32.ofNat (i + 1) = o.next := by
        rw [show i + 1 = o.next.toNat by omega]
        exact UInt32.ofNat_toNat
      rw [hi']
      exact h.held _ _ hd
  · exact h.held s d' (GoMap.of_lookup_erase hs).2
  · rw [GoMap.lookup_erase_ite, List.length_append, List.length_singleton]
    by_cases he : s = o.next
    · left
      rw [he, hnext]
    · rw [if_neg he]
      exact (h.cover s d' hs).imp_left fun hle => Nat.le_succ_of_le hle

/-- The release loop ends with the next number not held. -/
lemma InOrder.release (h : InOrder o app arr) {fuel : ℕ} (hf : GoMap.len o.held ≤ fuel) :
    InOrder (o.release fuel).1 (app ++ (o.release fuel).2) arr ∧
      (o.release fuel).1.held.lookup (o.release fuel).1.next = none := by
  induction fuel generalizing o app with
  | zero =>
      have hnone := (GoMap.len_eq_zero_iff _).mp (Nat.le_zero.mp hf)
      simp only [Ordered.release, List.append_nil]
      exact ⟨h, hnone _⟩
  | succ fuel ih =>
      cases hd : o.held.lookup o.next with
      | none =>
          rw [Ordered.release_of_none hd, List.append_nil]
          exact ⟨h, hd⟩
      | some d =>
          have hlen := GoMap.len_erase_of_lookup_some hd
          have hrest := ih (h.release_one hd) (by dsimp only; omega)
          rw [Ordered.release_of_some hd]
          simpa only [List.append_assoc, List.singleton_append] using hrest

/-- A number that has arrived before, or is held now, arrives. -/
lemma InOrder.arrive (h : InOrder o app arr) {s : UInt32} (hs : s ≠ 0) (d : Payload)
    (hcover : s.toNat ≤ app.length ∨ o.held.lookup s ≠ none) :
    InOrder o app (arr ++ [(s, d)]) where
  length_lt := h.length_lt
  next := h.next
  released i d' hi := List.mem_append_left _ (h.released i d' hi)
  held s' d' hl := List.mem_append_left _ (h.held s' d' hl)
  cover s' d' hq := by
    rcases List.mem_append.mp hq with hq | hq
    · exact h.cover s' d' hq
    · rw [(Prod.mk.inj (List.mem_singleton.mp hq)).1]
      exact hcover
  ne_zero s' d' hq := by
    rcases List.mem_append.mp hq with hq | hq
    · exact h.ne_zero s' d' hq
    · rw [(Prod.mk.inj (List.mem_singleton.mp hq)).1]
      exact hs

/-- A number arrives and is held. -/
lemma InOrder.hold (h : InOrder o app arr) {s : UInt32} (hs : s ≠ 0) (d : Payload) :
    InOrder ⟨o.next, o.held.insert s d⟩ app (arr ++ [(s, d)]) where
  length_lt := h.length_lt
  next := h.next
  released i d' hi := List.mem_append_left _ (h.released i d' hi)
  held := GoMap.forall_insert (P := fun s' d' => (s', d') ∈ arr ++ [(s, d)])
    (fun s' d' hl => List.mem_append_left _ (h.held s' d' hl))
    (List.mem_append_right _ (List.mem_singleton_self _))
  cover s' d' hq := by
    rw [GoMap.lookup_insert_ite]
    split_ifs with he
    · exact Or.inr (Option.some_ne_none d)
    · rcases List.mem_append.mp hq with hq | hq
      · exact h.cover s' d' hq
      · exact absurd (Prod.mk.inj (List.mem_singleton.mp hq)).1 he
  ne_zero s' d' hq := by
    rcases List.mem_append.mp hq with hq | hq
    · exact h.ne_zero s' d' hq
    · rw [(Prod.mk.inj (List.mem_singleton.mp hq)).1]
      exact hs

/-- One call of `accept`. -/
lemma InOrder.accept (h : InOrder o app arr) (hnone : o.held.lookup o.next = none) {s : UInt32}
    (hs : s ≠ 0) (d : Payload) :
    InOrder (o.accept s d).1 (app ++ (o.accept s d).2) (arr ++ [(s, d)]) ∧
      (o.accept s d).1.held.lookup (o.accept s d).1.next = none := by
  by_cases hskip : s < o.next ∨ (o.held.lookup s).isSome = true
  · -- already released or already held
    rw [Ordered.accept_of_known hskip, List.append_nil]
    refine ⟨h.arrive hs d ?_, hnone⟩
    rcases hskip with hlt | hheld
    · have hlt' := UInt32.lt_iff_toNat_lt.mp hlt
      have hle := Nat.mod_le (app.length + 1) (2 ^ 32)
      rw [← h.next] at hle
      exact Or.inl (by omega)
    · exact Or.inr (Option.isSome_iff_ne_none.mp hheld)
  · rw [Ordered.accept_of_new hskip]
    exact (h.hold hs d).release le_rfl

/-- When the first `n` numbers have all arrived, their payloads have all been released. -/
lemma InOrder.le_length (h : InOrder o app arr) (hnone : o.held.lookup o.next = none) {n : ℕ}
    (hn : n < 2 ^ 32) (hall : ∀ s : UInt32, s ≠ 0 → s.toNat ≤ n → ∃ d, (s, d) ∈ arr) :
    n ≤ app.length := by
  by_contra hlt
  have hsmall : app.length + 1 < 2 ^ 32 := by omega
  have hnext : o.next.toNat = app.length + 1 := h.next.trans (Nat.mod_eq_of_lt hsmall)
  have hne : o.next ≠ 0 := by
    rw [Ne, ← UInt32.toNat_inj, hnext]
    exact Nat.succ_ne_zero _
  obtain ⟨d, hd⟩ := hall o.next hne (by omega)
  rcases h.cover _ _ hd with hle | hheld
  · omega
  · exact hheld hnone

lemma inOrder_nil : InOrder ⟨1, ∅⟩ [] [] where
  length_lt := by decide
  next := by decide
  released _ _ h := by simp at h
  held _ _ h := by simp at h
  cover _ _ h := by simp at h
  ne_zero _ _ h := by simp at h

/-! ## Both receive paths -/

variable {ordered : Bool} {wire : Packet → Prop} {y y' : View}

/-- What the receive path has done with the calls of `accept` so far. -/
structure Gets (ordered : Bool) (y : View) : Prop where
  inOrder : ordered = true →
    InOrder y.recv y.appended y.arrived ∧ y.recv.held.lookup y.recv.next = none
  onArrival : ordered = false → y.appended = y.arrived.map Prod.snd

lemma Change.gets (h : Change ordered wire y y') (hy : Gets ordered y) : Gets ordered y' := by
  cases h with
  | @deliver s d hp hw hs =>
      refine ⟨?_, ?_⟩
      · rintro rfl
        obtain ⟨hin, hnone⟩ := hy.inOrder rfl
        exact hin.accept hnone hs d
      · rintro rfl
        simp [View.send, View.receive, View.released, hy.onArrival rfl]
  | _ => exact { hy with }

/-- After every run the receive path has done its work at each end. -/
lemma link_gets {pa pb : Params} {id : UInt32} {acts : List (Side × Input)} {l : Link}
    (hrun : run (Link.step pa pb) (Link.init id) acts = some l) (sd : Side) :
    Gets (sd.params pa pb).orderedDelivery (l.conn sd).view :=
  Link.invariant_end (fun _ _ => ⟨fun _ => ⟨inOrder_nil, rfl⟩, fun _ => rfl⟩)
    (fun _ _ _ _ h hg => h.gets hg) hrun sd

end RudpScheduler.Rudp
