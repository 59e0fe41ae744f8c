import RudpScheduler.Construction.Metrics

/-!
# Metric totals

The totals of a scrape count the latest snapshot of every connection and every worker once, provided
that nobody publishes again after a scrape has found its latest snapshot stale
(`totals_count_once`).  An owner that does, because it was blocked for five seconds or its snapshots
were dropped, has already been added to the totals of those that left; its next snapshot is counted
in addition (`stale_owner_counted_twice`).
-/

namespace RudpScheduler.Metrics

open Register

/-! ## What the two registers see -/

/-- What an event is for the register of connections. -/
def Event.forConns : Event → Option (Register.Event ConnKey ConnStats Time)
  | .conn s now => some (.publish s now)
  | .scrape now ords _ => some (.sweep ords.retireConns (Collector.stale now))
  | _ => none

/-- What an event is for the register of workers. -/
def Event.forWorkers : Event → Option (Register.Event ℕ WorkerStats Time)
  | .worker s now => some (.publish s now)
  | .scrape now ords _ => some (.sweep ords.retireWorkers (Collector.stale now))
  | _ => none

lemma foldl_conns (c : Collector) (es : List Event) :
    (es.foldl Collector.step c).conns =
      (es.filterMap Event.forConns).foldl (Register.step connOwners) c.conns := by
  induction es generalizing c with
  | nil => rfl
  | cons e es ih => cases e <;> exact ih _

lemma foldl_workers (c : Collector) (es : List Event) :
    (es.foldl Collector.step c).workers =
      (es.filterMap Event.forWorkers).foldl (Register.step workerOwners) c.workers := by
  induction es generalizing c with
  | nil => rfl
  | cons e es ih => cases e <;> exact ih _

/-- The most recent snapshot received from every connection, with the time it came. -/
def latestConns (es : List Event) : GoMap ConnKey (ConnStats × Time) :=
  es.foldl (fun m e => match e with | .conn s now => m.insert s.key (s, now) | _ => m) ∅

/-- The most recent snapshot received from every worker, with the time it came. -/
def latestWorkers (es : List Event) : GoMap ℕ (WorkerStats × Time) :=
  es.foldl (fun m e => match e with | .worker s now => m.insert s.worker (s, now) | _ => m) ∅

lemma latest_forConns (es : List Event) :
    ((es.filterMap Event.forConns).foldl (Register.History.step connOwners) .empty).latest =
      latestConns es := by
  have hfold : ∀ (h : Register.History ConnKey ConnStats Time),
      ((es.filterMap Event.forConns).foldl (Register.History.step connOwners) h).latest =
        es.foldl (fun m e => match e with | .conn s now => m.insert s.key (s, now) | _ => m)
          h.latest := by
    induction es with
    | nil => exact fun h => rfl
    | cons e es ih => exact fun h => by cases e <;> exact ih _
  exact hfold .empty

lemma latest_forWorkers (es : List Event) :
    ((es.filterMap Event.forWorkers).foldl (Register.History.step workerOwners) .empty).latest =
      latestWorkers es := by
  have hfold : ∀ (h : Register.History ℕ WorkerStats Time),
      ((es.filterMap Event.forWorkers).foldl (Register.History.step workerOwners) h).latest =
        es.foldl (fun m e => match e with | .worker s now => m.insert s.worker (s, now) | _ => m)
          h.latest := by
    induction es with
    | nil => exact fun h => rfl
    | cons e es ih => exact fun h => by cases e <;> exact ih _
  exact hfold .empty

/-! ## Conditions on the events -/

/-- A check of the snapshots of every connection and of every worker. -/
def Obey
    (okConn : Register.History ConnKey ConnStats Time →
      Register.Event ConnKey ConnStats Time → Bool)
    (okWorker : Register.History ℕ WorkerStats Time → Register.Event ℕ WorkerStats Time → Bool)
    (es : List Event) : Prop :=
  Register.History.obeys connOwners okConn .empty (es.filterMap Event.forConns) = true ∧
    Register.History.obeys workerOwners okWorker .empty (es.filterMap Event.forWorkers) = true

/-- The final snapshot of an owner is its last. -/
def FinalIsLast : List Event → Prop :=
  Obey (Register.History.finalIsLast connOwners) (Register.History.finalIsLast workerOwners)

/-- No owner publishes again after a scrape has found its latest snapshot stale. -/
def Timely : List Event → Prop :=
  Obey (Register.History.timely connOwners) (Register.History.timely workerOwners)

/-- The counters of an owner never decrease. -/
def CountersGrow : List Event → Prop :=
  Obey (Register.History.grows connOwners fun s s' => s.dataSent ≤ s'.dataSent ∧
      s.retransmits ≤ s'.retransmits ∧ s.dataReceived ≤ s'.dataReceived ∧
      s.heartbeats ≤ s'.heartbeats)
    (Register.History.grows workerOwners fun s s' => s.sent ≤ s'.sent ∧ s.results ≤ s'.results ∧
      s.dupResults ≤ s'.dupResults ∧ s.speculated ≤ s'.speculated ∧ s.requeued ≤ s'.requeued)

/-! ## The totals -/

/-- A loop that adds up a counter. -/
lemma foldl_add {S T M : Type} [AddCommMonoid M] {F : T → M} {f : S → M} {g : T → S → T}
    (hg : ∀ t s, F (g t s) = F t + f s) (l : List S) (t : T) :
    F (l.foldl g t) = F t + (l.map f).sum := by
  induction l generalizing t with
  | nil => exact (add_zero _).symm
  | cons s l ih => rw [List.foldl_cons, ih, hg, List.map_cons, List.sum_cons, add_assoc]

/-- What a scrape reports of a counter: the loop of the total starts from those that are gone and
goes over the entries listed, in whatever order. -/
lemma reported {K S T A M : Type} [DecidableEq K] [AddCommGroup M] {f : S → M} {F : T → M}
    {G : A → M} {g : A → S → A} {r : Register K S T Time} {h : Register.History K S Time}
    (hb : Balanced f F r h) (hg : ∀ a s, G (g a s) = G a + f s) {a : A} (ha : G a = F r.gone)
    (ord : RangeOrder K) {l : List S}
    (hl : l.Perm (((ord.range r.live).filterMap r.live.lookup).map Prod.fst)) :
    G (l.foldl g a) = GoMap.total (fun x => f x.1) h.latest := by
  rw [foldl_add hg, ha, (hl.map f).sum_eq, List.map_map, ← hb]
  exact congrArg (F r.gone + ·) (GoMap.sum_range (f ∘ Prod.fst) r.live ord)

/-- After the retirements of a scrape a register accounts for everything published. -/
lemma balanced_sweep {K S T M : Type} [DecidableEq K] [AddCommGroup M] {o : Owners K S T}
    {f : S → M} {F : T → M} (hF : ∀ t s, F (o.add t s) = F t + f s) {t₀ : T} (hzero : F t₀ = 0)
    {es : List (Register.Event K S Time)}
    (hfinal : Register.History.obeys o (Register.History.finalIsLast o) .empty es = true)
    (htimely : Register.History.obeys o (Register.History.timely o) .empty es = true)
    (ord : RangeOrder K) (stale : Time → Bool) :
    Balanced f F ((es.foldl (Register.step o) ⟨∅, t₀⟩).sweep o ord stale)
      ((es.foldl (Register.History.step o) .empty).step o (.sweep ord stale)) := by
  have hstart : Agrees o (⟨∅, t₀⟩ : Register K S T Time) .empty :=
    ⟨fun k x hx => (by cases hx), fun k x hx => (by cases hx)⟩
  have hzero' : Balanced f F (⟨∅, t₀⟩ : Register K S T Time) .empty := by
    rw [Register.Balanced, hzero, zero_add]
    rfl
  obtain ⟨ha, hb⟩ := hstart.foldl hzero' hF hfinal htimely
  exact (ha.step hb hF (e := .sweep ord stale) rfl rfl).2

section Scrape

variable {es : List Event} (hfinal : FinalIsLast es) (htimely : Timely es) (now : Time)
  (ords : ScrapeOrders) (depths : Option (ℕ × ℕ))

include hfinal htimely

/-- A total over the connections. -/
lemma total_conns {f : ConnStats → UInt64} {F : ConnTotals → UInt64}
    (hF : ∀ t s, F (t.add s) = F t + f s) (hzero : F {} = 0) :
    ((Collector.run es).scrape now ords depths).1.conns.foldl (fun n c => n + f c)
      (F ((Collector.run es).scrape now ords depths).1.closedConns) =
      GoMap.total (fun x => f x.1) (latestConns es) := by
  have hb := balanced_sweep (o := connOwners) hF hzero hfinal.1 htimely.1 ords.retireConns
    (Collector.stale now)
  have hrun : (Collector.run es).conns = _ := foldl_conns Collector.init es
  rw [← latest_forConns]
  refine reported (r := (Collector.run es).conns.sweep connOwners ords.retireConns
    (Collector.stale now)) (F := F) (G := id) ?_ (fun _ _ => rfl) rfl ords.listConns
    (List.perm_insertionSort _ _)
  rw [hrun]
  exact hb

/-- A total over the workers: `g` is the loop that adds up all counters. -/
lemma total_workers {f : WorkerStats → UInt64} {F : WorkerTotals → UInt64}
    {g : WorkerTotals → WorkerStats → WorkerTotals} (hF : ∀ t s, F (t.add s) = F t + f s)
    (hzero : F {} = 0) (hg : ∀ t s, F (g t s) = F t + f s) :
    F (((Collector.run es).scrape now ords depths).1.workers.foldl g
      ((Collector.run es).scrape now ords depths).1.goneWorkers) =
      GoMap.total (fun x => f x.1) (latestWorkers es) := by
  have hb := balanced_sweep (o := workerOwners) hF hzero hfinal.2 htimely.2 ords.retireWorkers
    (Collector.stale now)
  have hrun : (Collector.run es).workers = _ := foldl_workers Collector.init es
  rw [← latest_forWorkers]
  refine reported (r := (Collector.run es).workers.sweep workerOwners ords.retireWorkers
    (Collector.stale now)) ?_ hg rfl ords.listWorkers (List.perm_insertionSort _ _)
  rw [hrun]
  exact hb

end Scrape

/-- **Metric totals count every owner once.**  If the final snapshot of an owner is its last and no
owner publishes again after a scrape has found its latest snapshot stale, the totals of every scrape
are the sums of the counters in the most recent snapshots of all connections and workers seen so
far. -/
theorem totals_count_once {es : List Event} (hfinal : FinalIsLast es) (htimely : Timely es)
    (now : Time) (ords : ScrapeOrders) (depths : Option (ℕ × ℕ)) :
    let snap := ((Collector.run es).scrape now ords depths).1
    snap.dataSent = GoMap.total (fun x => x.1.dataSent) (latestConns es) ∧
      snap.retransmits = GoMap.total (fun x => x.1.retransmits) (latestConns es) ∧
      snap.workerTotals.sent = GoMap.total (fun x => x.1.sent) (latestWorkers es) ∧
      snap.workerTotals.results = GoMap.total (fun x => x.1.results) (latestWorkers es) ∧
      snap.workerTotals.dupResults = GoMap.total (fun x => x.1.dupResults) (latestWorkers es) ∧
      snap.workerTotals.speculated = GoMap.total (fun x => x.1.speculated) (latestWorkers es) ∧
      snap.workerTotals.requeued = GoMap.total (fun x => x.1.requeued) (latestWorkers es) := by
  refine ⟨?_, ?_, ?_, ?_, ?_, ?_, ?_⟩
  · exact total_conns hfinal htimely now ords depths (fun _ _ => rfl) rfl
  · exact total_conns hfinal htimely now ords depths (fun _ _ => rfl) rfl
  · exact total_workers hfinal htimely now ords depths (fun _ _ => rfl) rfl fun _ _ => rfl
  · exact total_workers hfinal htimely now ords depths (fun _ _ => rfl) rfl fun _ _ => rfl
  · exact total_workers hfinal htimely now ords depths (fun _ _ => rfl) rfl fun _ _ => rfl
  · exact total_workers hfinal htimely now ords depths (fun _ _ => rfl) rfl fun _ _ => rfl
  · exact total_workers hfinal htimely now ords depths (fun _ _ => rfl) rfl fun _ _ => rfl

/-! ## Runs of the collector -/

/-- Ascending orders, for concrete runs. -/
def ascendingOrders : ScrapeOrders :=
  let conns := RangeOrder.ascending (fun k : ConnKey => 2 * k.id + k.client.toNat) fun k k' h => by
    obtain ⟨client, id⟩ := k
    obtain ⟨client', id'⟩ := k'
    dsimp only at h
    cases client <;> cases client' <;> simp [Bool.toNat] at h ⊢ <;> omega
  let workers := RangeOrder.ascending (fun n : ℕ => n) fun _ _ h => h
  ⟨conns, workers, conns, workers⟩

/-- A connection and a worker publish; both leave with a final snapshot. -/
def departedRun : List Event :=
  [.conn { connID := 1, dataSent := 10, retransmits := 2 } 0,
    .worker { worker := 1, sent := 9 } 0,
    .scrape (10 ^ 9) ascendingOrders none,
    .conn { connID := 1, dataSent := 26, retransmits := 4, closed := true } (2 * 10 ^ 9),
    .worker { worker := 1, sent := 12, requeued := 5, gone := true } (2 * 10 ^ 9)]

theorem totals_count_once_departedRun :
    FinalIsLast departedRun ∧ Timely departedRun ∧
      ((Collector.run departedRun).scrape (3 * 10 ^ 9) ascendingOrders none).1.dataSent = 26 := by
  have hfinal : FinalIsLast departedRun := by
    unfold FinalIsLast Obey
    decide +kernel
  have htimely : Timely departedRun := by
    unfold Timely Obey
    decide +kernel
  refine ⟨hfinal, htimely, ?_⟩
  rw [(totals_count_once hfinal htimely (3 * 10 ^ 9) ascendingOrders none).1]
  decide +kernel

/-- A scrape six seconds after the snapshots of a connection and a worker retires both; the
connection publishes again, and the worker sends its final snapshot. -/
def staleRun : List Event :=
  [.conn { connID := 1, dataSent := 10 } 0,
    .worker { worker := 1, sent := 3 } 0,
    .scrape (6 * 10 ^ 9) ascendingOrders none,
    .conn { connID := 1, dataSent := 25 } (7 * 10 ^ 9),
    .worker { worker := 1, sent := 5, gone := true } (7 * 10 ^ 9)]

/-- Every counter grows and the final snapshot is the last, but the ten first transmissions and the
three tasks of the retired owners are counted again. -/
theorem stale_owner_counted_twice :
    FinalIsLast staleRun ∧ CountersGrow staleRun ∧
      ((Collector.run staleRun).scrape (8 * 10 ^ 9) ascendingOrders none).1.dataSent = 35 ∧
      GoMap.total (fun x => x.1.dataSent) (latestConns staleRun) = 25 ∧
      ((Collector.run staleRun).scrape (8 * 10 ^ 9) ascendingOrders none).1.workerTotals.sent = 8 ∧
      GoMap.total (fun x => x.1.sent) (latestWorkers staleRun) = 5 := by
  unfold FinalIsLast CountersGrow Obey
  decide +kernel

end RudpScheduler.Metrics
