import RudpScheduler.Construction.Lossy

/-!
# What the impaired socket does to what is written

Every datagram taken from `writeCh` has a fate: the number of copies of it that were made, 0, 1
or 2.  The fates account for everything (`lossy_accounts`): the copies are exactly what has been
written to the inner socket and what is parked, the counters count the fates and the parked copies,
and a fate is one the configuration allows, because the draws lie in `[0, 1)`.  When `Close` has
finished, every datagram accepted before its last look at `writeCh` has its fate and nothing is
parked.

`lossy_on_time` is about the heap and the timer: no parked datagram is overdue after a round, none
is kept longer than the jitter, the timer is set for the earliest, and a round writes what it
releases in the order of the due times and none of it early.

`wrapper_none_iff` says when the flags make no wrapper: exactly when wrapping would change nothing,
whatever the random source draws.  This is for flags that are numbers and a jitter that is an
`int64` number of nanoseconds; `transparent_iff` says for all flags when wrapping changes nothing.
-/

namespace RudpScheduler.Lossy

variable {ρ φ A : Type} {src : Source ρ} {cfg : Config φ}

/-! ## Fates -/

/-- How many copies of a datagram the configuration can lead to. -/
def Config.Allows (cfg : Config φ) : ℕ → Prop
  | 0 => cfg.filter ≠ none ∨ 0 < cfg.drop
  | 1 => ¬ 1 ≤ cfg.drop ∧ ¬ 1 ≤ cfg.dup
  | 2 => ¬ 1 ≤ cfg.drop ∧ 0 < cfg.dup
  | _ => False

/-- All the copies of the datagrams in `fates`. -/
def copies (fates : List (Datagram A × ℕ)) : List (Datagram A) :=
  fates.flatMap fun x => List.replicate x.2 x.1

lemma copies_append_singleton (fates : List (Datagram A × ℕ)) (p : Datagram A) (n : ℕ) :
    copies (fates ++ [(p, n)]) = copies fates ++ List.replicate n p := by
  simp [copies]

lemma Config.Allows.le_two {n : ℕ} (h : cfg.Allows n) : n ≤ 2 := by
  match n with
  | 0 | 1 | 2 => decide
  | _ + 3 => exact h.elim

/-- Each datagram has one copy, but for those that were dropped and those that were doubled. -/
lemma length_copies {fates : List (Datagram A × ℕ)} (h : ∀ x ∈ fates, x.2 ≤ 2) :
    fates.length + fates.countP (fun x => x.2 == 2) =
      fates.countP (fun x => x.2 == 0) + (copies fates).length := by
  induction fates using List.reverseRecOn with
  | nil => rfl
  | append_singleton fates x ih =>
      obtain ⟨p, n⟩ := x
      have ih := ih fun y hy => h y (List.mem_append_left _ hy)
      have hn : n ≤ 2 := h (p, n) (by simp)
      rw [copies_append_singleton, List.length_append, List.length_append, List.countP_append,
        List.countP_append, List.countP_singleton, List.countP_singleton, List.length_replicate,
        List.length_singleton]
      simp only [beq_iff_eq]
      interval_cases n <;> simp <;> omega

/-! ## What the pieces of a round do -/

/-- `n` copies of `p` are written or parked, at readings of the clock from `clock`; nothing else
happens to what is written and parked, the parked ones are counted, and the rest stays but for the
random source and the filter's memory. -/
structure Puts (cfg : Config φ) (clock : List Time) (p : Datagram A) (n : ℕ) (s t : Sock ρ φ A) :
    Prop where
  out : ∃ k parked, k + parked.length = n ∧ t.sent = s.sent ++ List.replicate k p ∧
    t.delayed.toList.Perm (parked ++ s.delayed.toList) ∧
    (t.parked = s.parked ++ parked ∧ t.stats.delayed = s.stats.delayed + parked.length) ∧
    ∀ q ∈ parked, q.toDatagram = p ∧ ∃ now ∈ clock, now < q.due ∧ q.due < now + cfg.jitter
  heap : Heap.IsHeap OutPacket.due s.delayed → Heap.IsHeap OutPacket.due t.delayed
  written : t.stats.written = s.stats.written
  dropped : t.stats.dropped = s.stats.dropped
  duplicated : t.stats.duplicated = s.stats.duplicated
  timer : t.timer = s.timer
  phase : t.phase = s.phase
  writeCh : t.writeCh = s.writeCh
  accepted : t.accepted = s.accepted
  admitted : t.admitted = s.admitted

lemma Puts.refl (clock : List Time) (p : Datagram A) (s : Sock ρ φ A) :
    Puts cfg clock p 0 s s where
  out := ⟨0, [], rfl, (List.append_nil _).symm, List.Perm.refl _,
    ⟨(List.append_nil _).symm, rfl⟩, by simp⟩
  heap h := h
  written := rfl
  dropped := rfl
  duplicated := rfl
  timer := rfl
  phase := rfl
  writeCh := rfl
  accepted := rfl
  admitted := rfl

lemma Puts.trans {clock : List Time} {p : Datagram A} {m n : ℕ} {s u t : Sock ρ φ A}
    (h : Puts cfg clock p m s u) (h' : Puts cfg clock p n u t) : Puts cfg clock p (m + n) s t where
  out := by
    obtain ⟨k, parked, hk, hsent, hperm, ⟨hparked, hcount⟩, hin⟩ := h.out
    obtain ⟨k', parked', hk', hsent', hperm', ⟨hparked', hcount'⟩, hin'⟩ := h'.out
    refine ⟨k + k', parked ++ parked', ?_, ?_, ?_, ⟨?_, ?_⟩, fun q hq => ?_⟩
    · rw [List.length_append]
      omega
    · rw [hsent', hsent, List.append_assoc, List.replicate_add]
    · refine (hperm'.trans (hperm.append_left parked')).trans ?_
      rw [← List.append_assoc]
      exact List.perm_append_comm.append_right _
    · rw [hparked', hparked, List.append_assoc]
    · rw [hcount', hcount, List.length_append, Nat.add_assoc]
    · exact (List.mem_append.mp hq).elim (hin q) (hin' q)
  heap hs := h'.heap (h.heap hs)
  written := h'.written.trans h.written
  dropped := h'.dropped.trans h.dropped
  duplicated := h'.duplicated.trans h.duplicated
  timer := h'.timer.trans h.timer
  phase := h'.phase.trans h.phase
  writeCh := h'.writeCh.trans h.writeCh
  accepted := h'.accepted.trans h.accepted
  admitted := h'.admitted.trans h.admitted

/-- A delay is less than the jitter, and is never negative. -/
lemma delay_mem (src : Source ρ) (cfg : Config φ) (r : ρ) :
    0 ≤ (Sock.delay src cfg r).1 ∧
      ((Sock.delay src cfg r).1 ≠ 0 → (Sock.delay src cfg r).1 < cfg.jitter) := by
  unfold Sock.delay
  split_ifs with hjit
  · have hdraw := src.int63n_mem cfg.jitter r hjit
    exact ⟨hdraw.1, fun _ => hdraw.2⟩
  · exact ⟨le_rfl, fun h => absurd rfl h⟩

/-- One copy is written or parked. -/
lemma copy_puts (src : Source ρ) (cfg : Config φ) (allowDelay : Bool) (p : Datagram A)
    (s : Sock ρ φ A) {clock : List Time} {now : Time} (hnow : now ∈ clock) :
    Puts cfg clock p 1 s (s.copy src cfg allowDelay p now) := by
  have hmem := delay_mem src cfg s.rng
  unfold Sock.copy
  generalize Sock.delay src cfg s.rng = draw at hmem ⊢
  obtain ⟨d, rng⟩ := draw
  dsimp only at hmem ⊢
  split_ifs with hsend
  · exact ⟨⟨1, [], rfl, rfl, List.Perm.refl _, ⟨(List.append_nil _).symm, rfl⟩, by simp⟩,
      fun h => h, rfl, rfl, rfl, rfl, rfl, rfl, rfl, rfl⟩
  · have hne : d ≠ 0 := fun h0 => hsend (Or.inl h0)
    have hpos : 0 < d := lt_of_le_of_ne hmem.1 hne.symm
    refine ⟨⟨0, [⟨p, now + d⟩], rfl, (List.append_nil _).symm, Heap.push_perm _ _ _, ⟨rfl, rfl⟩,
      fun q hq => ?_⟩, fun h => Heap.push_heap h _, rfl, rfl, rfl, rfl, rfl, rfl, rfl, rfl⟩
    obtain rfl := List.mem_singleton.mp hq
    exact ⟨rfl, now, hnow, lt_add_of_pos_right now hpos, add_lt_add_right (hmem.2 hne) now⟩

/-- The loop over the copies. -/
lemma foldl_copy_puts (src : Source ρ) (cfg : Config φ) (allowDelay : Bool) (p : Datagram A)
    {clock : List Time} (times : List Time) (htimes : ∀ now ∈ times, now ∈ clock)
    (s : Sock ρ φ A) :
    Puts cfg clock p times.length s (times.foldl (Sock.copy src cfg allowDelay p) s) := by
  induction times generalizing s with
  | nil => exact Puts.refl clock p s
  | cons now times ih =>
      rw [List.foldl_cons, List.length_cons, Nat.add_comm]
      have hhead := copy_puts src cfg allowDelay p s (htimes now List.mem_cons_self)
      exact hhead.trans (ih (fun t ht => htimes t (List.mem_cons_of_mem _ ht)) _)

/-- The configuration allows what `admit` decides. -/
lemma verdict_allows (src : Source ρ) (cfg : Config φ) (memory : φ) (r : ρ) (b : List UInt8) :
    cfg.Allows (Sock.verdict src cfg memory r b).1 := by
  have hloss := src.float64_mem r
  have htwice := src.float64_mem (src.float64 r).2
  unfold Sock.verdict
  split
  · next hhit =>
      refine Or.inl fun hf => ?_
      rw [Config.filtered, hf] at hhit
      exact absurd (congrArg Prod.fst hhit) Bool.false_ne_true
  · dsimp only
    split_ifs with h1 h2
    · exact Or.inr (Go.Float64.lt_of_le_of_lt hloss.1 h1)
    · exact ⟨Go.Float64.not_le_of_lt hloss.2 h1, Go.Float64.lt_of_le_of_lt htwice.1 h2⟩
    · exact ⟨Go.Float64.not_le_of_lt hloss.2 h1, Go.Float64.not_le_of_lt htwice.2 h2⟩

/-- `admit` gives the datagram a fate the configuration allows, and counts it. -/
lemma admitPacket_spec (src : Source ρ) (cfg : Config φ) (allowDelay : Bool) (s : Sock ρ φ A)
    (p : Datagram A) (first second : Time) :
    ∃ n memory rng, cfg.Allows n ∧
      Puts cfg [first, second] p n
        { s with memory := memory, rng := rng, stats := s.stats.count n }
        (s.admitPacket src cfg allowDelay p first second) := by
  have hallows := verdict_allows src cfg s.memory s.rng p.b
  unfold Sock.admitPacket
  generalize Sock.verdict src cfg s.memory s.rng p.b = v at hallows ⊢
  obtain ⟨n, memory, rng⟩ := v
  refine ⟨n, memory, rng, hallows, ?_⟩
  have hputs := foldl_copy_puts src cfg allowDelay p ([first, second].take n)
    (fun t ht => List.mem_of_mem_take ht)
    { s with memory := memory, rng := rng, stats := s.stats.count n }
  have hlen : ([first, second].take n).length = n := by
    rw [List.length_take]
    exact Nat.min_eq_left hallows.le_two
  rwa [hlen] at hputs

/-- `run` takes a datagram and admits it. -/
lemma take_spec {s t : Sock ρ φ A} {allowDelay : Bool} {first second : Time}
    (ht : s.take src cfg allowDelay first second = some t) :
    ∃ p rest n memory rng, s.writeCh = p :: rest ∧ cfg.Allows n ∧
      Puts cfg [first, second] p n
        { s with
          writeCh := rest
          admitted := s.admitted ++ [p]
          memory := memory
          rng := rng
          stats := s.stats.count n } t := by
  unfold Sock.take at ht
  split at ht
  · exact absurd ht (by simp)
  · next p rest hch =>
      obtain ⟨n, memory, rng, hallows, hputs⟩ := admitPacket_spec src cfg allowDelay
        { s with writeCh := rest, admitted := s.admitted ++ [p] } p first second
      rw [Option.some_inj.mp ht] at hputs
      exact ⟨p, rest, n, memory, rng, hch, hallows, hputs⟩

/-- The loop writes what it takes from the heap. -/
lemma release_spec {s : Sock ρ φ A} (hheap : Heap.IsHeap OutPacket.due s.delayed)
    (test : OutPacket A → Bool)
    (htest : ∀ x y : OutPacket A, x.due ≤ y.due → test y = true → test x = true) :
    ∃ released : List (OutPacket A),
      (s.release test).sent = s.sent ++ released.map OutPacket.toDatagram ∧
      s.delayed.toList.Perm (released ++ (s.release test).delayed.toList) ∧
      released.Pairwise (fun x y => x.due ≤ y.due) ∧ (∀ x ∈ released, test x = true) ∧
      (∀ x ∈ (s.release test).delayed.toList, test x = false) ∧
      Heap.IsHeap OutPacket.due (s.release test).delayed := by
  obtain ⟨hh, hperm, hsorted, htaken, hleft⟩ := Heap.popWhile_spec htest hheap le_rfl
  exact ⟨_, rfl, hperm, hsorted, htaken, hleft, hh⟩

/-- A round ends with the timer set for the earliest datagram left. -/
lemma settle_spec (s : Sock ρ φ A) (now : Time) :
    ∃ timer, s.settle now = { s.release (fun p => decide (p.due ≤ now)) with timer := timer } ∧
      ∀ p, (s.settle now).delayed[0]? = some p → timer = some p.due := by
  unfold Sock.settle
  generalize s.release (fun p => decide (p.due ≤ now)) = t
  dsimp only
  split
  · next q hq =>
      refine ⟨some q.due, rfl, fun p hp => ?_⟩
      rw [Option.some_inj.mp (hq.symm.trans hp)]
  · next hnone =>
      refine ⟨t.timer, rfl, fun p hp => ?_⟩
      exact absurd (hnone.symm.trans hp) (Option.some_ne_none p).symm

/-! ## The invariant -/

/-- The fates account for what has been taken from `writeCh`. -/
structure Accounts (cfg : Config φ) (fates : List (Datagram A × ℕ)) (s : Sock ρ φ A) : Prop where
  heap : Heap.IsHeap OutPacket.due s.delayed
  admitted : fates.map Prod.fst = s.admitted
  accepted : s.accepted = s.admitted ++ s.writeCh
  allowed : ∀ x ∈ fates, cfg.Allows x.2
  contents : (s.sent ++ s.delayed.toList.map OutPacket.toDatagram).Perm (copies fates)
  inOrder : cfg.jitter ≤ 0 → s.delayed = #[] ∧ s.sent = copies fates
  written : s.stats.written = fates.length
  dropped : s.stats.dropped = fates.countP fun x => x.2 == 0
  duplicated : s.stats.duplicated = fates.countP fun x => x.2 == 2
  delayed : s.stats.delayed = s.parked.length
  /-- What was ever parked has been written or is parked still. -/
  parked : ∃ released, s.parked.Perm (released ++ s.delayed.toList) ∧
    (released.map OutPacket.toDatagram).Subperm s.sent
  exited : s.phase = .exited → s.delayed = #[]

lemma accounts_init (src : Source ρ) (cfg : Config φ) (memory : φ) :
    Accounts cfg [] (Sock.init src cfg memory : Sock ρ φ A) where
  heap := Heap.isHeap_empty
  admitted := rfl
  accepted := rfl
  allowed := by simp
  contents := List.Perm.refl _
  inOrder _ := ⟨rfl, rfl⟩
  written := rfl
  dropped := rfl
  duplicated := rfl
  delayed := rfl
  parked := ⟨[], List.Perm.refl _, List.Subperm.refl _⟩
  exited _ := rfl

variable {fates : List (Datagram A × ℕ)} {s t : Sock ρ φ A}

/-- `run` takes a datagram, which gets its fate. -/
lemma Accounts.take (h : Accounts cfg fates s) (hphase : s.phase ≠ .exited) {allowDelay : Bool}
    {first second : Time} (ht : s.take src cfg allowDelay first second = some t) :
    ∃ p n, Accounts cfg (fates ++ [(p, n)]) t ∧ t.phase = s.phase := by
  obtain ⟨p, rest, n, memory, rng, hch, hallows, hputs⟩ := take_spec ht
  obtain ⟨k, parked, hk, hsent, hperm, ⟨hparked, hcount⟩, hin⟩ := hputs.out
  dsimp only at hsent hperm hparked hcount
  have hmap : parked.map OutPacket.toDatagram = List.replicate parked.length p :=
    List.eq_replicate_iff.mpr ⟨List.length_map _, fun d hd => by
      obtain ⟨q, hq, rfl⟩ := List.mem_map.mp hd
      exact (hin q hq).1⟩
  refine ⟨p, n, ⟨hputs.heap h.heap, ?_, ?_, ?_, ?_, fun hjit => ?_, ?_, ?_, ?_, ?_, ?_,
    fun hex => ?_⟩, hputs.phase⟩
  · rw [List.map_append, h.admitted, hputs.admitted]
    rfl
  · rw [hputs.accepted, hputs.admitted, hputs.writeCh, List.append_assoc]
    exact h.accepted.trans (congrArg _ hch)
  · intro x hx
    rcases List.mem_append.mp hx with hx | hx
    · exact h.allowed x hx
    · rw [List.mem_singleton.mp hx]
      exact hallows
  · -- what is new is `k` copies written and the others parked
    rw [copies_append_singleton, hsent, ← hk, List.replicate_add, ← hmap]
    refine List.Perm.trans ?_ (h.contents.append_right _)
    refine (List.Perm.append_left _ (hperm.map OutPacket.toDatagram)).trans ?_
    rw [List.map_append]
    simp only [List.append_assoc]
    refine List.Perm.append_left _ ?_
    rw [← List.append_assoc]
    exact List.perm_append_comm
  · obtain ⟨hdel, hold⟩ := h.inOrder hjit
    -- nothing can be parked: its due time would lie in an empty interval
    obtain rfl : parked = [] := by
      refine List.eq_nil_iff_forall_not_mem.mpr fun q hq => ?_
      obtain ⟨_, now, _, h1, h2⟩ := hin q hq
      exact absurd (h1.trans h2) (not_lt.mpr (add_le_of_nonpos_right hjit))
    rw [hdel] at hperm
    refine ⟨Array.toList_eq_nil_iff.mp (List.perm_nil.mp hperm), ?_⟩
    rw [hsent, hold, copies_append_singleton, ← hk]
    rfl
  · rw [hputs.written, List.length_append]
    exact congrArg (· + 1) h.written
  · rw [hputs.dropped, List.countP_append, List.countP_singleton, ← h.dropped]
    simp only [Stats.count, beq_iff_eq]
    split_ifs <;> rfl
  · rw [hputs.duplicated, List.countP_append, List.countP_singleton, ← h.duplicated]
    simp only [Stats.count, beq_iff_eq]
    split_ifs <;> rfl
  · rw [hcount, hparked, List.length_append, ← h.delayed]
    rfl
  · obtain ⟨released, hparts, hwritten⟩ := h.parked
    refine ⟨released, ?_, hwritten.trans ?_⟩
    · rw [hparked]
      refine (hparts.append_right parked).trans ?_
      rw [List.append_assoc]
      exact (List.perm_append_comm.trans hperm.symm).append_left released
    · rw [hsent]
      exact (List.sublist_append_left _ _).subperm
  · exact absurd (hputs.phase.symm.trans hex) hphase

/-- The loop that releases parked datagrams moves them from the heap to the inner socket. -/
lemma Accounts.release (h : Accounts cfg fates s) {test : OutPacket A → Bool}
    (htest : ∀ x y : OutPacket A, x.due ≤ y.due → test y = true → test x = true) :
    Accounts cfg fates (s.release test) := by
  obtain ⟨released, hsent, hperm, -, -, -, hheap⟩ := release_spec h.heap test htest
  have hempty : s.delayed = #[] → released = [] ∧ (s.release test).delayed = #[] := by
    intro hdel
    rw [hdel] at hperm
    obtain ⟨hr, hd⟩ := List.append_eq_nil_iff.mp (List.nil_perm.mp hperm)
    exact ⟨hr, Array.toList_eq_nil_iff.mp hd⟩
  refine { h with heap := hheap, contents := ?_, inOrder := ?_, parked := ?_, exited := ?_ }
  · rw [hsent, List.append_assoc, ← List.map_append]
    exact (List.Perm.append_left _ (hperm.symm.map _)).trans h.contents
  · intro hjit
    obtain ⟨hdel, hold⟩ := h.inOrder hjit
    obtain ⟨hr, hd⟩ := hempty hdel
    refine ⟨hd, ?_⟩
    rw [hsent, hr, ← hold]
    exact List.append_nil _
  · obtain ⟨earlier, hparts, hwritten⟩ := h.parked
    refine ⟨earlier ++ released, ?_, ?_⟩
    · rw [List.append_assoc]
      exact hparts.trans (hperm.append_left earlier)
    · rw [hsent, List.map_append]
      exact (List.subperm_append_right _).mpr hwritten
  · exact fun hex => (hempty (h.exited hex)).2

lemma due_test (now : Time) (x y : OutPacket A) (h : x.due ≤ y.due)
    (hy : decide (y.due ≤ now) = true) : decide (x.due ≤ now) = true :=
  decide_eq_true (h.trans (of_decide_eq_true hy))

lemma Accounts.settle (h : Accounts cfg fates s) (now : Time) :
    Accounts cfg fates (s.settle now) := by
  obtain ⟨timer, heq, -⟩ := settle_spec s now
  rw [heq]
  exact { h.release (due_test now) with }

/-- At the end nothing is parked. -/
lemma release_all (hheap : Heap.IsHeap OutPacket.due s.delayed) :
    (s.release fun _ => true).delayed = #[] := by
  obtain ⟨released, -, -, -, -, hleft, -⟩ := release_spec hheap (fun _ => true)
    fun _ _ _ h => h
  refine Array.toList_eq_nil_iff.mp (List.eq_nil_iff_forall_not_mem.mpr fun x hx => ?_)
  exact Bool.false_ne_true (hleft x hx).symm

/-- Every step keeps the accounts. -/
lemma Move.accounts {a : Action A} (hmove : Move src cfg s a t) (h : Accounts cfg fates s) :
    ∃ fates', Accounts cfg fates' t := by
  cases hmove with
  | enter | refuse => exact ⟨fates, { h with }⟩
  | queue =>
      refine ⟨fates, { h with accepted := ?_ }⟩
      show s.accepted ++ _ = s.admitted ++ (s.writeCh ++ _)
      rw [h.accepted, List.append_assoc]
  | @recv _ _ now _ hphase hu =>
      obtain ⟨p, n, hok, -⟩ := h.take (by rw [hphase]; decide) hu
      exact ⟨_, hok.settle now⟩
  | @fire _ now =>
      have hok : Accounts cfg fates { s with timer := none } := { h with }
      exact ⟨fates, hok.settle now⟩
  | @stats now => exact ⟨fates, h.settle now⟩
  | close =>
      have hne : Phase.draining ≠ .exited := by decide
      exact ⟨fates, { h with exited := fun hex => absurd hex hne }⟩
  | drain hphase ht =>
      obtain ⟨p, n, hok, -⟩ := h.take (by rw [hphase]; decide) ht
      exact ⟨_, hok⟩
  | finish =>
      have hok : Accounts cfg fates (s.release fun _ => true) := h.release fun _ _ _ h => h
      exact ⟨fates, { hok with exited := fun _ => release_all h.heap }⟩

lemma run_accounts {memory : φ} {acts : List (Action A)}
    (hrun : run (Sock.step src cfg) (Sock.init src cfg memory) acts = some s) :
    ∃ fates, Accounts cfg fates s :=
  run_invariant (P := fun s => ∃ fates, Accounts cfg fates s)
    (fun _ _ _ ⟨_, h⟩ hstep => (step_move hstep).accounts h) ⟨[], accounts_init src cfg memory⟩ hrun

/-- Once `run` has returned, nothing is written or counted any more. -/
lemma run_exited {acts : List (Action A)} (hex : s.phase = .exited)
    (hrun : run (Sock.step src cfg) s acts = some t) : t.sent = s.sent ∧ t.stats = s.stats := by
  refine (run_invariant (P := fun u => u.phase = .exited ∧ u.sent = s.sent ∧ u.stats = s.stats)
    (fun u a v hu hstep => ?_) ⟨hex, rfl, rfl⟩ hrun).2
  cases step_move hstep with
  | enter hphase => exact absurd hu.1 hphase
  | queue | refuse => exact hu
  | recv hphase | fire hphase | stats hphase | close hphase | drain hphase | finish hphase =>
      exact absurd (hphase.symm.trans hu.1) (by decide)

/-- The fates account for everything that has been accepted, and once `Close` has finished they
account for what was accepted before its last look at `writeCh` in what was written. -/
theorem lossy_accounts {memory : φ} {acts : List (Action A)}
    (hrun : run (Sock.step src cfg) (Sock.init src cfg memory) acts = some s) :
    (∃ fates : List (Datagram A × ℕ), s.accepted = fates.map Prod.fst ++ s.writeCh ∧
      (∀ x ∈ fates, cfg.Allows x.2) ∧
      (s.sent ++ s.delayed.toList.map OutPacket.toDatagram).Perm (copies fates) ∧
      (cfg.jitter ≤ 0 → s.delayed = #[] ∧ s.sent = copies fates) ∧
      s.stats.written = fates.length ∧
      s.stats.dropped = fates.countP (fun x => x.2 == 0) ∧
      s.stats.duplicated = fates.countP (fun x => x.2 == 2) ∧
      s.stats.written + s.stats.duplicated =
        s.stats.dropped + s.sent.length + s.delayed.size ∧
      s.stats.delayed = s.parked.length ∧
      ∃ released, s.parked.Perm (released ++ s.delayed.toList) ∧
        (released.map OutPacket.toDatagram).Subperm s.sent) ∧
    ∀ before after, acts = before ++ .finish :: after →
      ∃ u, run (Sock.step src cfg) (Sock.init src cfg memory) (before ++ [.finish]) = some u ∧
        u.writeCh = [] ∧ u.delayed = #[] ∧ s.sent = u.sent ∧ s.stats = u.stats := by
  refine ⟨?_, ?_⟩
  · obtain ⟨fates, h⟩ := run_accounts hrun
    refine ⟨fates, ?_, h.allowed, h.contents, h.inOrder, h.written, h.dropped, h.duplicated, ?_,
      h.delayed, h.parked⟩
    · rw [h.admitted]
      exact h.accepted
    · have hlen := h.contents.length_eq
      rw [List.length_append, List.length_map, Array.length_toList] at hlen
      rw [h.written, h.dropped, h.duplicated, Nat.add_assoc, hlen]
      exact length_copies fun x hx => (h.allowed x hx).le_two
  · rintro before after rfl
    rw [List.append_cons, run_append] at hrun
    obtain ⟨u, hu, hafter⟩ := Option.bind_eq_some_iff.mp hrun
    refine ⟨u, hu, ?_⟩
    rw [run_append] at hu
    obtain ⟨w, hw, hfinish⟩ := Option.bind_eq_some_iff.mp hu
    obtain ⟨v, hv, hnil⟩ := run_cons_eq_some.mp hfinish
    rw [run_nil, Option.some_inj] at hnil
    subst hnil
    obtain ⟨fates, hacc⟩ := run_accounts hw
    cases step_move hv with
    | finish hphase hch =>
        obtain ⟨hsent, hstats⟩ := run_exited rfl hafter
        exact ⟨hch, release_all hacc.heap, hsent, hstats⟩

/-- A source that counts. -/
def wheel : Source ℕ where
  new _ := 0
  float64 r := (mkRat (r % 4 : ℕ) 4, r + 1)
  int63n n r := ((r : ℤ) % n, r + 1)
  float64_mem r := by
    have hlt : r % 4 < 4 := Nat.mod_lt r (by decide)
    dsimp only
    interval_cases r % 4 <;> decide +kernel
  int63n_mem n r hn := ⟨Int.emod_nonneg _ hn.ne', Int.emod_lt_of_pos _ hn⟩

/-- A quarter is dropped, most of the rest is doubled, and copies are delayed by less than 10. -/
def rough : Config Unit := ⟨(1/4 : ℚ), (3/4 : ℚ), 10, 0, none⟩

/-- Three datagrams are written; the first is dropped, both copies of the second are parked and one
of them is released. -/
def roughRun : List (Action Unit) :=
  [.enter ⟨[1], ()⟩, .enter ⟨[2], ()⟩, .enter ⟨[3], ()⟩, .queue 0, .queue 0, .queue 0,
    .recv 100 101 102, .recv 103 104 105, .stats 106]

/-- The third is drained by `Close`. -/
def roughClose : List (Action Unit) := roughRun ++ [.close, .drain 107 107, .finish]

lemma roughRun_state :
    (run (Sock.step wheel rough) (Sock.init wheel rough ()) roughRun).map (fun s =>
      (s.phase, s.delayed.toList, s.sent)) =
        some (.running, [⟨⟨[2], ()⟩, 108⟩], [⟨[2], ()⟩]) := by
  decide +kernel

lemma roughClose_state :
    (run (Sock.step wheel rough) (Sock.init wheel rough ()) roughClose).map (fun s =>
      (s.stats, s.sent)) =
        some (⟨3, 1, 2, 2⟩, [⟨[2], ()⟩, ⟨[3], ()⟩, ⟨[3], ()⟩, ⟨[2], ()⟩]) := by
  decide +kernel

theorem lossy_accounts_roughClose :
    ∃ s, run (Sock.step wheel rough) (Sock.init wheel rough ()) roughClose = some s ∧
      s.stats = ⟨3, 1, 2, 2⟩ ∧
      ∃ fates : List (Datagram Unit × ℕ), s.accepted = fates.map Prod.fst ++ s.writeCh ∧
        (s.sent ++ s.delayed.toList.map OutPacket.toDatagram).Perm (copies fates) := by
  obtain ⟨s, hrun, hs⟩ := Option.map_eq_some_iff.mp roughClose_state
  obtain ⟨⟨fates, hacc, -, hperm, -⟩, -⟩ := lossy_accounts hrun
  exact ⟨s, hrun, (Prod.mk.inj hs).1, fates, hacc, hperm⟩

/-! ## The heap and the timer -/

/-- The readings of the clock in a step. -/
def Action.readings : Action A → List Time
  | .recv first second now => [first, second, now]
  | .fire now | .stats now => [now]
  | .drain first second => [first, second]
  | _ => []

/-- The reading a round ends with. -/
def Action.round : Action A → Option Time
  | .recv _ _ now | .fire now | .stats now => some now
  | _ => none

/-- Where the parked datagrams are in time, when the clock has shown `seen`. -/
structure OnTime (cfg : Config φ) (seen : List Time) (s : Sock ρ φ A) : Prop where
  within : ∀ p ∈ s.delayed.toList, ∃ now ∈ seen, p.due < now + cfg.jitter
  later : s.phase = .running → ∀ p ∈ s.delayed.toList, ∀ now ∈ seen, now < p.due
  timer : s.phase = .running → ∀ p, s.delayed[0]? = some p → s.timer = some p.due

/-- What a round leaves was parked before it and is due later. -/
lemma settle_later (hheap : Heap.IsHeap OutPacket.due s.delayed) (now : Time) :
    ∀ p ∈ (s.settle now).delayed.toList, p ∈ s.delayed.toList ∧ now < p.due := by
  obtain ⟨timer, heq, -⟩ := settle_spec s now
  obtain ⟨released, -, hperm, -, -, hleft, -⟩ := release_spec hheap _ (due_test now)
  rw [heq]
  intro p hp
  refine ⟨hperm.mem_iff.mpr (List.mem_append_right _ hp), ?_⟩
  exact not_le.mp (of_decide_eq_false (hleft p hp))

/-- A round brings everything up to date, if the clock does not run backwards. -/
lemma OnTime.settle (hheap : Heap.IsHeap OutPacket.due s.delayed) {seen : List Time} {now : Time}
    (hwithin : ∀ p ∈ s.delayed.toList, ∃ r ∈ seen, p.due < r + cfg.jitter)
    (hnow : ∀ r ∈ seen, r ≤ now) : OnTime cfg seen (s.settle now) where
  within p hp := hwithin p (settle_later hheap now p hp).1
  later _ p hp r hr := (hnow r hr).trans_lt (settle_later hheap now p hp).2
  timer _ p hp := by
    obtain ⟨timer, heq, htimer⟩ := settle_spec s now
    rw [← htimer p hp, heq]

/-- What is parked after a datagram is taken was parked before or is parked now. -/
lemma take_within {allowDelay : Bool} {first second : Time}
    (ht : s.take src cfg allowDelay first second = some t) {seen : List Time}
    (hseen : ∀ r ∈ [first, second], r ∈ seen)
    (hwithin : ∀ p ∈ s.delayed.toList, ∃ r ∈ seen, p.due < r + cfg.jitter) :
    ∀ p ∈ t.delayed.toList, ∃ r ∈ seen, p.due < r + cfg.jitter := by
  obtain ⟨_, _, _, _, _, -, -, hputs⟩ := take_spec ht
  obtain ⟨k, parked, -, -, hperm, -, hin⟩ := hputs.out
  intro q hq
  rcases List.mem_append.mp (hperm.mem_iff.mp hq) with hq | hq
  · obtain ⟨-, r, hr, -, hlt⟩ := hin q hq
    exact ⟨r, hseen r hr, hlt⟩
  · exact hwithin q hq

lemma take_heap {allowDelay : Bool} {first second : Time}
    (ht : s.take src cfg allowDelay first second = some t)
    (hheap : Heap.IsHeap OutPacket.due s.delayed) : Heap.IsHeap OutPacket.due t.delayed := by
  obtain ⟨_, _, _, _, _, -, -, hputs⟩ := take_spec ht
  exact hputs.heap hheap

/-- A step keeps parked datagrams on time, as long as the clock does not run backwards. -/
lemma Move.onTime {a : Action A} (hmove : Move src cfg s a t) {seen : List Time}
    (hheap : Heap.IsHeap OutPacket.due s.delayed)
    (hclock : (seen ++ a.readings).Pairwise (· ≤ ·)) (h : OnTime cfg seen s) :
    OnTime cfg (seen ++ a.readings) t := by
  have hwithin : ∀ p ∈ s.delayed.toList, ∃ r ∈ seen ++ a.readings, p.due < r + cfg.jitter := by
    intro p hp
    obtain ⟨r, hr, hlt⟩ := h.within p hp
    exact ⟨r, List.mem_append_left _ hr, hlt⟩
  -- the last reading of a round is the latest
  have hlast : ∀ now, a.readings.getLast? = some now → ∀ r ∈ seen ++ a.readings, r ≤ now := by
    intro now hnow r hr
    obtain ⟨init, hinit⟩ := List.getLast?_eq_some_iff.mp hnow
    rw [hinit, ← List.append_assoc] at hclock hr
    rcases List.mem_append.mp hr with hr | hr
    · exact (List.pairwise_append.mp hclock).2.2 r hr now (List.mem_singleton_self now)
    · exact (List.mem_singleton.mp hr).le
  cases hmove with
  | enter | queue | refuse =>
      simp only [Action.readings, List.append_nil]
      exact { h with }
  | @recv first second now u hphase hu =>
      refine OnTime.settle (take_heap hu hheap) (take_within hu ?_ hwithin) (hlast now rfl)
      intro r hr
      exact List.mem_append_right _ (List.mem_append_left [now] hr)
  | @fire timer now =>
      exact OnTime.settle (s := { s with timer := none }) hheap hwithin (hlast now rfl)
  | @stats now => exact OnTime.settle hheap hwithin (hlast now rfl)
  | close =>
      have hne : Phase.draining ≠ .running := by decide
      exact ⟨hwithin, fun hrun => absurd hrun hne, fun hrun => absurd hrun hne⟩
  | drain hphase ht =>
      obtain ⟨_, _, _, _, _, -, -, hputs⟩ := take_spec ht
      have hne : t.phase ≠ .running := by
        rw [hputs.phase, hphase]
        decide
      exact ⟨take_within ht (fun r hr => List.mem_append_right _ hr) hwithin,
        fun hrun => absurd hrun hne, fun hrun => absurd hrun hne⟩
  | finish =>
      have hne : Phase.exited ≠ .running := by decide
      have hempty : (s.release fun _ => true).delayed.toList = [] :=
        Array.toList_eq_nil_iff.mpr (release_all hheap)
      refine ⟨fun p hp => ?_, fun hrun => absurd hrun hne, fun hrun => absurd hrun hne⟩
      exact absurd (hempty ▸ hp) List.not_mem_nil

lemma run_onTime {memory : φ} {acts : List (Action A)}
    (hrun : run (Sock.step src cfg) (Sock.init src cfg memory) acts = some s)
    (hclock : (acts.flatMap Action.readings).Pairwise (· ≤ ·)) :
    OnTime cfg (acts.flatMap Action.readings) s := by
  refine (run_history (P := fun as u => (∃ fates, Accounts cfg fates u) ∧
    ((as.flatMap Action.readings).Pairwise (· ≤ ·) →
      OnTime cfg (as.flatMap Action.readings) u)) ?_ ?_ hrun).2 hclock
  · refine ⟨⟨[], accounts_init src cfg memory⟩, fun _ => ⟨?_, ?_, ?_⟩⟩
    · simp [Sock.init]
    · simp [Sock.init]
    · simp [Sock.init]
  · rintro as u a v ⟨⟨fates, hacc⟩, htime⟩ hstep
    refine ⟨(step_move hstep).accounts hacc, fun hclock => ?_⟩
    rw [List.flatMap_append, List.flatMap_singleton] at hclock ⊢
    exact (step_move hstep).onTime hacc.heap hclock (htime (List.pairwise_append.mp hclock).1)

/-- A round writes what it releases in the order of the due times, after the copies that were not
delayed. -/
lemma Move.round_spec {a : Action A} (hmove : Move src cfg s a t)
    (hheap : Heap.IsHeap OutPacket.due s.delayed) {now : Time} (hround : a.round = some now) :
    ∃ direct parked released, t.sent = s.sent ++ direct ++ released.map OutPacket.toDatagram ∧
      (s.delayed.toList ++ parked).Perm (released ++ t.delayed.toList) ∧
      released.Pairwise (fun x y => x.due ≤ y.due) ∧ (∀ p ∈ released, p.due ≤ now) ∧
      ∀ p ∈ t.delayed.toList, now < p.due := by
  have hsettle : ∀ u : Sock ρ φ A, Heap.IsHeap OutPacket.due u.delayed →
      ∃ released, (u.settle now).sent = u.sent ++ released.map OutPacket.toDatagram ∧
        u.delayed.toList.Perm (released ++ (u.settle now).delayed.toList) ∧
        released.Pairwise (fun x y => x.due ≤ y.due) ∧ ∀ p ∈ released, p.due ≤ now := by
    intro u hu
    obtain ⟨timer, heq, -⟩ := settle_spec u now
    obtain ⟨released, hsent, hperm, hsorted, htaken, -, -⟩ := release_spec hu _ (due_test now)
    rw [heq]
    exact ⟨released, hsent, hperm, hsorted, fun p hp => of_decide_eq_true (htaken p hp)⟩
  cases hmove with
  | enter | queue | refuse | close | drain | finish => exact absurd hround (by simp [Action.round])
  | @recv first second now' u hphase hu =>
      obtain rfl := Option.some_inj.mp hround
      have hheap' := take_heap hu hheap
      obtain ⟨released, hsent, hperm, hsorted, hdue⟩ := hsettle u hheap'
      obtain ⟨p, rest, n, memory, rng, -, -, hputs⟩ := take_spec hu
      obtain ⟨k, parked, -, hsent', hperm', -, -⟩ := hputs.out
      refine ⟨List.replicate k p, parked, released, ?_, ?_, hsorted, hdue,
        fun q hq => (settle_later hheap' _ q hq).2⟩
      · rw [hsent, hsent']
      · exact List.perm_append_comm.trans (hperm'.symm.trans hperm)
  | @fire timer now' =>
      obtain rfl := Option.some_inj.mp hround
      obtain ⟨released, hsent, hperm, hsorted, hdue⟩ := hsettle { s with timer := none } hheap
      refine ⟨[], [], released, ?_, ?_, hsorted, hdue, fun q hq => ?_⟩
      · rw [hsent, List.append_nil]
      · rw [List.append_nil]
        exact hperm
      · exact (settle_later (s := { s with timer := none }) hheap _ q hq).2
  | @stats now' =>
      obtain rfl := Option.some_inj.mp hround
      obtain ⟨released, hsent, hperm, hsorted, hdue⟩ := hsettle s hheap
      refine ⟨[], [], released, ?_, ?_, hsorted, hdue, fun q hq => (settle_later hheap _ q hq).2⟩
      · rw [hsent, List.append_nil]
      · rw [List.append_nil]
        exact hperm

/-- With a clock that does not run backwards, a parked datagram is never overdue between rounds and
never waits longer than the jitter; the timer is set for the earliest; and a round writes what it
releases in the order of the due times, none of it early. -/
theorem lossy_on_time {memory : φ} {acts : List (Action A)}
    (hrun : run (Sock.step src cfg) (Sock.init src cfg memory) acts = some s)
    (hclock : (acts.flatMap Action.readings).Pairwise (· ≤ ·)) (hphase : s.phase = .running) :
    (∀ p ∈ s.delayed.toList, (∀ now ∈ acts.flatMap Action.readings, now < p.due) ∧
      ∃ now ∈ acts.flatMap Action.readings, p.due < now + cfg.jitter) ∧
    (∀ p, s.delayed[0]? = some p →
      s.timer = some p.due ∧ ∀ q ∈ s.delayed.toList, p.due ≤ q.due) ∧
    ∀ a now t, a.round = some now → s.step src cfg a = some t →
      ∃ direct parked released, t.sent = s.sent ++ direct ++ released.map OutPacket.toDatagram ∧
        (s.delayed.toList ++ parked).Perm (released ++ t.delayed.toList) ∧
        released.Pairwise (fun x y => x.due ≤ y.due) ∧ (∀ p ∈ released, p.due ≤ now) ∧
        ∀ p ∈ t.delayed.toList, now < p.due := by
  obtain ⟨fates, hacc⟩ := run_accounts hrun
  have htime := run_onTime hrun hclock
  refine ⟨fun p hp => ⟨htime.later hphase p hp, htime.within p hp⟩, fun p hp => ?_, ?_⟩
  · exact ⟨htime.timer hphase p hp, Heap.root_least hacc.heap hp⟩
  · intro a now t hround hstep
    exact (step_move hstep).round_spec hacc.heap hround

theorem lossy_on_time_roughRun :
    ∃ s, run (Sock.step wheel rough) (Sock.init wheel rough ()) roughRun = some s ∧
      s.delayed[0]? = some ⟨⟨[2], ()⟩, 108⟩ ∧ s.timer = some 108 := by
  obtain ⟨s, hrun, hs⟩ := Option.map_eq_some_iff.mp roughRun_state
  obtain ⟨hphase, hdel, -⟩ := And.imp_right Prod.mk.inj (Prod.mk.inj hs)
  have hroot : s.delayed[0]? = some ⟨⟨[2], ()⟩, 108⟩ := by
    rw [← Array.getElem?_toList, hdel]
    rfl
  exact ⟨s, hrun, hroot, ((lossy_on_time hrun (by decide) hphase).2.1 _ hroot).1⟩

/-! ## When the flags make no wrapper -/

/-- A source whose every draw is as low as the code can notice. -/
def lowest : Source Unit where
  new _ := ()
  float64 _ := (0, ())
  int63n n _ := (if 1 < n then 1 else 0, ())
  float64_mem _ := by decide
  int63n_mem n _ hn := by
    dsimp only
    split_ifs with h
    · exact ⟨zero_le_one, h⟩
    · exact ⟨le_rfl, hn⟩

/-- One datagram is written and one round is made at time 0. -/
def oneWrite : List (Action Unit) := [.enter ⟨[], ()⟩, .queue 0, .recv 0 0 0]

lemma verdict_lowest (f : Flags) (b : List UInt8) :
    Sock.verdict lowest f.config () () b =
      if 0 < f.drop then (0, (), ()) else (if 0 < f.dup then 2 else 1, (), ()) := rfl

lemma delay_lowest (f : Flags) :
    Sock.delay lowest f.config () = (if 0 < f.config.jitter then 1 else 0, ()) := by
  show (if 0 < f.config.jitter then (if 1 < f.config.jitter then 1 else 0, ()) else (0, ())) = _
  split_ifs with hpos hone
  · rfl
  · -- a wrapped multiple of 1000000 is even
    refine absurd ?_ hone
    change 0 < Go.wrap64 (f.jitterMs * 1000000) at hpos
    change 1 < Go.wrap64 (f.jitterMs * 1000000)
    rw [Go.wrap64, Int.bmod_def] at hpos ⊢
    omega
  · rfl

/-- With the lowest draws an impairment of any kind shows at once. -/
lemma oneWrite_impaired {f : Flags}
    (h : ¬ (¬ 0 < f.drop ∧ ¬ 0 < f.dup ∧ f.config.jitter ≤ 0)) :
    ∃ s, run (Sock.step lowest f.config) (Sock.init lowest f.config ()) oneWrite = some s ∧
      s.sent ++ s.writeCh ≠ s.accepted := by
  refine ⟨_, rfl, ?_⟩
  have hverdict := verdict_lowest f []
  have hdelay := delay_lowest f
  by_cases hdrop : 0 < f.drop
  · rw [if_pos hdrop] at hverdict
    simp only [Sock.admitPacket, Sock.init, hverdict, List.take_zero, List.foldl_nil]
    decide
  · rw [if_neg hdrop] at hverdict
    by_cases hjit : 0 < f.config.jitter
    · -- the copies are parked
      rw [if_pos hjit] at hdelay
      by_cases hdup : 0 < f.dup
      · rw [if_pos hdup] at hverdict
        simp only [Sock.admitPacket, Sock.init, hverdict, List.take, List.foldl, Sock.copy, hdelay]
        decide
      · rw [if_neg hdup] at hverdict
        simp only [Sock.admitPacket, Sock.init, hverdict, List.take, List.foldl, Sock.copy, hdelay]
        decide
    · have hdup : 0 < f.dup := by
        by_contra hdup
        exact h ⟨hdrop, hdup, not_lt.mp hjit⟩
      rw [if_neg hjit] at hdelay
      rw [if_pos hdup] at hverdict
      simp only [Sock.admitPacket, Sock.init, hverdict, List.take, List.foldl, Sock.copy, hdelay]
      decide

/-- Without loss, duplication and a filter every fate is 1. -/
lemma copies_of_clean (hdrop : ¬ 0 < cfg.drop) (hdup : ¬ 0 < cfg.dup) (hfilter : cfg.filter = none)
    (h : ∀ x ∈ fates, cfg.Allows x.2) : copies fates = fates.map Prod.fst := by
  have hone : ∀ x ∈ fates, x.2 = 1 := by
    intro x hx
    have hall := h x hx
    have hle := hall.le_two
    interval_cases hn : x.2
    · exact hall.elim (absurd hfilter) fun h0 => absurd h0 hdrop
    · rfl
    · exact absurd hall.2 hdup
  rw [copies, List.map_eq_flatMap]
  exact List.flatMap_congr fun x hx => by rw [hone x hx]; rfl

/-- A socket wrapped with these flags writes what it is given, once each and in order, over every
run and whatever the draws. -/
def Flags.Transparent (f : Flags) : Prop :=
  ∀ (ρ A : Type) (src : Source ρ) (acts : List (Action A)) (s : Sock ρ Unit A),
    run (Sock.step src f.config) (Sock.init src f.config ()) acts = some s →
      s.sent ++ s.writeCh = s.accepted

lemma transparent_iff (f : Flags) :
    f.Transparent ↔ ¬ 0 < f.drop ∧ ¬ 0 < f.dup ∧ f.config.jitter ≤ 0 := by
  constructor
  · intro h
    by_contra hbad
    obtain ⟨s, hrun, hne⟩ := oneWrite_impaired hbad
    exact hne (h _ _ _ _ s hrun)
  · rintro ⟨hdrop, hdup, hjit⟩ ρ A src acts s hrun
    obtain ⟨fates, h⟩ := run_accounts hrun
    rw [(h.inOrder hjit).2, copies_of_clean hdrop hdup rfl h.allowed, h.admitted, h.accepted]

/-- With probabilities that are not NaN and a jitter that is an `int64` number of nanoseconds, the
flags make no wrapper exactly when a wrapped socket would write what it is given, once each and in
order, whatever the draws. -/
theorem wrapper_none_iff (f : Flags) (hdrop : f.drop ≠ .nan) (hdup : f.dup ≠ .nan)
    (hlow : -2 ^ 63 ≤ f.jitterMs * 1000000) (hhigh : f.jitterMs * 1000000 < 2 ^ 63) :
    f.wrapper = none ↔ f.Transparent := by
  have hnone : f.wrapper = none ↔ f.drop ≤ 0 ∧ f.dup ≤ 0 ∧ f.jitterMs ≤ 0 := by
    unfold Flags.wrapper
    split_ifs with h
    · exact iff_of_true rfl h
    · exact iff_of_false not_false h
  have hjitter : f.config.jitter ≤ 0 ↔ f.jitterMs ≤ 0 := by
    change Go.wrap64 (f.jitterMs * 1000000) ≤ 0 ↔ f.jitterMs ≤ 0
    rw [Go.wrap64_eq hlow hhigh]
    omega
  rw [hnone, transparent_iff, hjitter]
  exact and_congr (Go.Float64.le_iff_not_lt hdrop)
    (and_congr_left' (Go.Float64.le_iff_not_lt hdup))

/-- Flags that do not ask for anything. -/
theorem wrapper_none_iff_plain : (⟨0, 0, 0, 1⟩ : Flags).wrapper = none ∧
    (⟨0, 0, 0, 1⟩ : Flags).Transparent :=
  have h := wrapper_none_iff ⟨0, 0, 0, 1⟩ (by decide) (by decide) (by decide) (by decide)
  ⟨by decide, h.mp (by decide)⟩

-- a NaN makes a wrapper that changes nothing, and so does a jitter that wraps to a negative one;
-- a negative one may wrap to a positive one
example : (⟨.nan, 0, 0, 1⟩ : Flags).wrapper.isSome = true ∧ (⟨.nan, 0, 0, 1⟩ : Flags).Transparent :=
  ⟨by decide, (transparent_iff _).mpr (by decide)⟩

example : (⟨0, 0, 9223372036855, 1⟩ : Flags).wrapper.isSome = true ∧
    (⟨0, 0, 9223372036855, 1⟩ : Flags).Transparent :=
  ⟨by decide, (transparent_iff _).mpr (by decide)⟩

example : (⟨0, 0, -9223372036855, 1⟩ : Flags).wrapper = none ∧
    ¬ (⟨0, 0, -9223372036855, 1⟩ : Flags).Transparent :=
  ⟨by decide, fun h => absurd ((transparent_iff _).mp h) (by decide)⟩

end RudpScheduler.Lossy
