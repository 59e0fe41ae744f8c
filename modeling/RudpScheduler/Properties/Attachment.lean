import RudpScheduler.Properties.SystemInvariant

/-!
# Which client a job waits with

`Tables.Attached` relates `byConn` to the jobs: a connection is entered for a job exactly when it
is the job's client, and a job without a client has its grace period running.  The aggregator's
events keep that as long as a connection submits at most once before it ends, which is what the
dispatcher's table of clients is for (`Sys.Clients`).  `no_vanished_client` is the statement for
every run: once the gone notice of a connection has been consumed, no job waits with it.

The last section is about the one event that can part a job from a client that is alive.  A
submit detaches the job's client before it looks at the submitting connection, so the delayed
request of a connection that has already ended leaves the job without any
(`delayed_request_detaches`).
-/

namespace RudpScheduler

/-- `byConn` and the jobs' clients say the same, and a job without client is orphaned. -/
structure Tables.Attached (t : Tables) : Prop where
  byConn : ∀ c id, t.byConn.lookup c = some id ↔
    ∃ j, t.jobs.lookup id = some j ∧ j.client = some c
  orphaned : ∀ id j, t.jobs.lookup id = some j → (j.client = none ↔ j.orphanedAt ≠ none)

/-! ## The aggregator's tables -/

lemma lookup_detachConn (byConn : GoMap ConnID UInt64) (client : Option ConnID) (c : ConnID) :
    (detachConn byConn client).lookup c = if client = some c then none else byConn.lookup c := by
  cases client with
  | none => simp [detachConn]
  | some d =>
      rw [detachConn, GoMap.lookup_erase_ite]
      simp only [Option.some_inj, eq_comm]

namespace Tables.Attached

variable {t t' : Tables}

/-- One job gets the record `j'`; its former client is forgotten and its new one entered. -/
lemma assign (ha : t.Attached) {id : UInt64} {j' : Job} (hjobs : t'.jobs = t.jobs.insert id j')
    (hconn : ∀ c, t'.byConn.lookup c =
      if j'.client = some c then some id
      else if (t.jobs.lookup id).bind Job.client = some c then none else t.byConn.lookup c)
    (hfree : ∀ c, j'.client = some c → ∀ id', t.byConn.lookup c = some id' → id' = id)
    (ho : j'.client = none ↔ j'.orphanedAt ≠ none) : t'.Attached where
  byConn c id' := by
    rw [hconn, hjobs]
    simp only [GoMap.lookup_insert_ite]
    by_cases hc : j'.client = some c
    · rw [if_pos hc, Option.some_inj]
      constructor
      · rintro rfl
        exact ⟨j', if_pos rfl, hc⟩
      · rintro ⟨k, hk, hkc⟩
        split_ifs at hk with he
        · exact he.symm
        · exact (hfree c hc id' ((ha.byConn c id').mpr ⟨k, hk, hkc⟩)).symm
    · rw [if_neg hc]
      have hother : ∀ k, (if id' = id then some j' else t.jobs.lookup id') = some k →
          k.client = some c → id' ≠ id ∧ t.jobs.lookup id' = some k := by
        intro k hk hkc
        split_ifs at hk with he
        · rw [← Option.some_inj.mp hk] at hkc
          exact absurd hkc hc
        · exact ⟨he, hk⟩
      constructor
      · intro h
        split_ifs at h with hold
        obtain ⟨k, hk, hkc⟩ := (ha.byConn c id').mp h
        refine ⟨k, ?_, hkc⟩
        rw [if_neg, hk]
        rintro rfl
        exact hold (by rw [hk]; exact hkc)
      · rintro ⟨k, hk, hkc⟩
        obtain ⟨hne, hk⟩ := hother k hk hkc
        have hb := (ha.byConn c id').mpr ⟨k, hk, hkc⟩
        rw [if_neg, hb]
        -- the former client of this job cannot be entered for another one
        intro hold
        obtain ⟨k', hk', hkc'⟩ := Option.bind_eq_some_iff.mp hold
        have hb' := (ha.byConn c id).mpr ⟨k', hk', hkc'⟩
        exact hne (Option.some_inj.mp (hb.symm.trans hb'))
  orphaned := by
    rw [hjobs]
    exact GoMap.forall_insert ha.orphaned ho

/-- A change of a job that is not about its client. -/
lemma update (ha : t.Attached) {id : UInt64} {j j' : Job} (hj : t.jobs.lookup id = some j)
    (hjobs : t'.jobs = t.jobs.insert id j') (hconn : t'.byConn = t.byConn)
    (hc : j'.client = j.client) (ho : j'.orphanedAt = j.orphanedAt) : t'.Attached := by
  refine ha.assign hjobs (fun c => ?_) (fun c hcl id' hid' => ?_) ?_
  · rw [hconn, hj, hc]
    dsimp only [Option.bind_some]
    split_ifs with h
    · exact (ha.byConn c id).mpr ⟨j, hj, h⟩
    · rfl
  · have hb := (ha.byConn c id).mpr ⟨j, hj, hc ▸ hcl⟩
    exact Option.some_inj.mp (hid'.symm.trans hb)
  · rw [hc, ho]
    exact ha.orphaned id j hj

/-- A job is finished. -/
lemma finish (ha : t.Attached) {id : UInt64} {j : Job} (hj : t.jobs.lookup id = some j)
    (hid : j.spec.id = id) (completed : Bool) (now : Time) :
    (Agg.finishTables t j completed now).Attached where
  byConn c id' := by
    simp only [lookup_finishTables, hid]
    change (detachConn t.byConn j.client).lookup c = _ ↔ _
    rw [lookup_detachConn]
    constructor
    · intro h
      split_ifs at h with hc
      obtain ⟨k, hk, hkc⟩ := (ha.byConn c id').mp h
      refine ⟨k, ⟨?_, hk⟩, hkc⟩
      rintro rfl
      rw [hj] at hk
      exact hc (Option.some_inj.mp hk ▸ hkc)
    · rintro ⟨k, ⟨hne, hk⟩, hkc⟩
      have hb := (ha.byConn c id').mpr ⟨k, hk, hkc⟩
      rw [if_neg, hb]
      intro hc
      exact hne (Option.some_inj.mp (hb.symm.trans ((ha.byConn c id).mpr ⟨j, hj, hc⟩)))
  orphaned id' k hk := ha.orphaned id' k (lookup_finishTables.mp hk).2

end Tables.Attached

namespace Agg

variable {wl : Workload} {p : Params} {s : Agg}

lemma settle_attached {id : UInt64} {j : Job} (ha : s.Attached) (hj : s.jobs.lookup id = some j)
    (hid : j.spec.id = id) (now : Time) : (s.settle id j now).Attached := by
  by_cases h0 : j.remaining = 0
  · rw [settle_toTables_of_zero s h0]
    exact ha.finish hj hid true now
  · rwa [settle_of_ne_zero s h0]

/-- The job as `attach` leaves it has a client or is orphaned. -/
lemma attachJob_orphaned {j : Job} (hj : j.client = none) (h : ConnID) (hDone : Bool)
    (now : Time) :
    (attachJob j h hDone now).client = none ↔ (attachJob j h hDone now).orphanedAt ≠ none := by
  cases hDone <;> simp [attachJob, hj]

lemma attachJob_client {j : Job} (hj : j.client = none) (h : ConnID) (hDone : Bool) (now : Time)
    (c : ConnID) : (attachJob j h hDone now).client = some c ↔ hDone = false ∧ h = c := by
  cases hDone <;> simp [attachJob, hj]

/-- A submit keeps the two sides together, if a connection that can be attached is not yet. -/
lemma submit_attached (hok : s.Ok) (ha : s.Attached) {h : ConnID} {spec : JobSpec} {hDone : Bool}
    (hfree : hDone = false → s.byConn.lookup h = none) (now : Time) :
    (s.submit wl h spec hDone now).1.Attached := by
  cases hr : s.results.lookup spec.id with
  | some f => rw [(s.submit_answered hr wl h hDone now).1]; exact ha
  | none =>
      cases hj : s.jobs.lookup spec.id with
      | some j =>
          rw [s.submit_running hr hj]
          refine settle_attached ?_ (by simp) (by simpa using hok.spec_id _ j hj) now
          refine ha.assign (by simp; rfl) (fun c => ?_) (fun c hc id' hid' => ?_)
            (attachJob_orphaned rfl h hDone now)
          · rw [hj, Option.bind_some]
            simp only [attach_toTables, rejoin_toTables, attachJob_client]
            cases hDone
            · simp [GoMap.lookup_insert_ite, lookup_detachConn, eq_comm]
            · simp [lookup_detachConn]
          · obtain ⟨h1, rfl⟩ := (attachJob_client rfl h hDone now c).mp hc
            rw [hfree h1] at hid'
            cases hid'
      | none =>
          rw [s.submit_fresh hr hj]
          refine settle_attached ?_ (by simp) (by simp [freshJob]) now
          refine ha.assign (by simp [Finmap.insert_insert]; rfl) (fun c => ?_)
            (fun c hc id' hid' => ?_) (attachJob_orphaned rfl h hDone now)
          · rw [hj, Option.bind_none]
            simp only [attach_toTables, startJob_toTables,
              attachJob_client (j := freshJob _ _ _ _) rfl]
            cases hDone
            · simp [GoMap.lookup_insert_ite, eq_comm]
            · simp
          · obtain ⟨h1, rfl⟩ := (attachJob_client rfl h hDone now c).mp hc
            rw [hfree h1] at hid'
            cases hid'

/-- So does every other event. -/
lemma step_attached {e : Event} (he : ∀ h spec hDone now, e ≠ .submit h spec hDone now)
    (hok : s.Ok) (ha : s.Attached) : (s.step wl p e).Attached := by
  refine (step_induction (P := fun b => b.1.Ok ∧ b.1.Attached) ?_ ⟨hok, ha⟩).2
  rintro a b ⟨hok, ha⟩ hc
  refine ⟨hc.ok hok, ?_⟩
  cases hc with
  | answer => exact ha
  | start => exact absurd rfl (he _ _ _ _)
  | rejoin => exact absurd rfl (he _ _ _ _)
  | count hj => exact ha.update hj rfl rfl rfl rfl
  | discard => exact ha
  | complete hj => exact ha.finish hj (hok.spec_id _ _ hj) true _
  | orphan hj hc =>
      refine ha.assign rfl (fun c => ?_) (by simp) (by simp)
      simp only [GoMap.lookup_erase_ite, hj, Option.bind_some, hc, Option.some_inj, reduceCtorEq,
        if_false, eq_comm (a := c)]
      split_ifs <;> rfl
  | @forget t o conn now hc =>
      refine ⟨fun c id => ?_, ha.orphaned⟩
      -- the connection was not entered for any job
      have hnone : t.byConn.lookup conn = none := by
        by_contra hsome
        obtain ⟨id', hid'⟩ := Option.ne_none_iff_exists'.mp hsome
        obtain ⟨j, hj, hjc⟩ := (ha.byConn conn id').mp hid'
        exact hc j (by rw [hid']; exact hj) hjc
      rw [← ha.byConn, GoMap.lookup_erase_ite]
      split_ifs with h
      · rw [h, hnone]
        simp
      · rfl
  | drop hj => exact ha.finish hj (hok.spec_id _ _ hj) false _
  | expire => exact ⟨ha.byConn, ha.orphaned⟩

/-- A connection is entered in `byConn` by its own submit only, and only while it is up. -/
lemma step_byConn {e : Event} {c : ConnID} {id : UInt64}
    (h : (s.step wl p e).byConn.lookup c = some id) :
    (∃ id', s.byConn.lookup c = some id') ∨ ∃ spec now, e = .submit c spec false now := by
  have hdetach : ∀ {b : GoMap ConnID UInt64} {client : Option ConnID} {c : ConnID} {id : UInt64},
      (detachConn b client).lookup c = some id → b.lookup c = some id := by
    intro b client c id h
    rw [lookup_detachConn] at h
    split_ifs at h
    exact h
  refine step_induction (P := fun b => ∀ c id, b.1.byConn.lookup c = some id →
    (∃ id', s.byConn.lookup c = some id') ∨ ∃ spec now, e = .submit c spec false now) ?_
    (fun c id h => .inl ⟨id, h⟩) c id h
  intro a b ha hc
  cases hc with
  | answer => exact ha
  | @start t o h spec hDone now =>
      cases hDone with
      | true => exact ha
      | false => exact GoMap.forall_insert ha (.inr ⟨spec, now, rfl⟩)
  | @rejoin t o h spec hDone now j =>
      cases hDone with
      | true => exact fun c id h => ha c id (hdetach h)
      | false =>
          exact GoMap.forall_insert (fun c id h => ha c id (hdetach h)) (.inr ⟨spec, now, rfl⟩)
  | count => exact ha
  | discard => exact ha
  | complete => exact fun c id h => ha c id (hdetach h)
  | orphan => exact GoMap.forall_erase (GoMap.forall_erase ha _) _
  | forget => exact GoMap.forall_erase ha _
  | drop => exact fun c id h => ha c id (hdetach h)
  | expire => exact ha

/-- The connection of a consumed gone notice is not entered. -/
lemma clientGone_byConn (s : Agg) (c : ConnID) (now : Time) :
    (s.clientGone c now).byConn.lookup c = none := by
  rcases s.clientGone_cases c now with ⟨j, -, -, he⟩ | ⟨-, he⟩ <;> rw [he] <;> simp

end Agg

/-! ## The system -/

/-- The dispatcher lets a connection submit once before it ends, and reports its end only after
`Done` is closed. -/
structure Sys.Clients (s : Sys) : Prop where
  attached : s.agg.Attached
  /-- A connection with a request under way is a client and not attached yet. -/
  submitting : ∀ g c spec, s.handlers.lookup g = some (.submitting c spec) → c ∉ s.down →
    c ∈ s.clients ∧ s.agg.byConn.lookup c = none
  once : ∀ g c spec g' spec', s.handlers.lookup g = some (.submitting c spec) →
    s.handlers.lookup g' = some (.submitting c spec') → c ∉ s.down → g = g'
  entered : ∀ c id, s.agg.byConn.lookup c = some id → c ∉ s.down → c ∈ s.clients
  notifying : ∀ c, s.disp = .notifying c → c ∈ s.down
  notified : ∀ c ∈ s.notified, c ∈ s.down ∧ s.agg.byConn.lookup c = none

namespace Sys

variable {wl : Workload} {p : Params} {s t : Sys}

/-- A handler leaves the submit behind; nothing else about clients changes. -/
lemma Clients.handlers (hs : s.Clients) {H : GoMap ℕ Handler}
    (hH : ∀ g c spec, H.lookup g = some (.submitting c spec) →
      s.handlers.lookup g = some (.submitting c spec)) :
    ({ s with handlers := H } : Sys).Clients where
  attached := hs.attached
  submitting g c spec h := hs.submitting g c spec (hH g c spec h)
  once g c spec g' spec' h h' := hs.once g c spec g' spec' (hH g c spec h) (hH g' c spec' h')
  entered := hs.entered
  notifying := hs.notifying
  notified := hs.notified

/-- An event that is not a submit. -/
lemma Clients.event (hs : s.Clients) (hok : s.Ok) {e : Event}
    (he : ∀ h spec hDone now, e ≠ .submit h spec hDone now) :
    ({ s with agg := s.agg.step wl p e } : Sys).Clients := by
  have hnone : ∀ c, s.agg.byConn.lookup c = none → (s.agg.step wl p e).byConn.lookup c = none := by
    intro c hc
    refine Option.eq_none_iff_forall_ne_some.mpr fun id hid => ?_
    rcases Agg.step_byConn hid with ⟨id', h⟩ | ⟨spec, now, h⟩
    · rw [hc] at h
      cases h
    · exact he _ _ _ _ h
  refine { hs with
    attached := Agg.step_attached he hok.agg hs.attached
    submitting := fun g c spec h hd => (hs.submitting g c spec h hd).imp_right (hnone c)
    entered := fun c id h hd => ?_
    notified := fun c hc => (hs.notified c hc).imp_right (hnone c) }
  rcases Agg.step_byConn h with ⟨id', h'⟩ | ⟨spec, now, h'⟩
  · exact hs.entered c id' h' hd
  · exact absurd h' (he _ _ _ _)

/-- A submit: only the submitting connection can be entered, and only while it is up. -/
lemma Clients.submit (hs : s.Clients) (hok : s.Ok) {g : ℕ} {h : ConnID} {spec : JobSpec}
    {reply : SubmitReply} {now : Time} (hg : s.handlers.lookup g = some (.submitting h spec)) :
    ({ s with
        agg := s.agg.step wl p (.submit h spec (h ∈ s.down) now)
        handlers := s.handlers.insert g (.replied h spec reply) } : Sys).Clients := by
  have hbyConn : ∀ {c id}, (s.agg.step wl p (.submit h spec (h ∈ s.down) now)).byConn.lookup c =
      some id → (∃ id', s.agg.byConn.lookup c = some id') ∨ (c = h ∧ h ∉ s.down) := by
    intro c id hc
    rcases Agg.step_byConn hc with hold | ⟨spec', now', he⟩
    · exact .inl hold
    · obtain ⟨rfl, -, hd, -⟩ := Event.submit.inj he
      exact .inr ⟨rfl, of_decide_eq_false hd⟩
  -- the handlers that are still submitting are other ones
  have hother : ∀ g' c spec', (s.handlers.insert g (.replied h spec reply)).lookup g' =
      some (.submitting c spec') → g' ≠ g ∧ s.handlers.lookup g' = some (.submitting c spec') := by
    intro g' c spec' h'
    obtain ⟨-, he⟩ | h' := GoMap.of_lookup_insert h'
    · cases he
    · exact h'
  refine ⟨?_, fun g' c spec' h' hd => ?_, fun g₁ c spec₁ g₂ spec₂ h₁ h₂ => ?_,
    fun c id hc hd => ?_, hs.notifying, fun c hc => ?_⟩
  · refine Agg.submit_attached hok.agg hs.attached (fun hd => ?_) now
    exact (hs.submitting g h spec hg (of_decide_eq_false hd)).2
  · obtain ⟨hne, hsub⟩ := hother g' c spec' h'
    obtain ⟨hc, hnone⟩ := hs.submitting g' c spec' hsub hd
    refine ⟨hc, Option.eq_none_iff_forall_ne_some.mpr fun id hid => ?_⟩
    rcases hbyConn hid with ⟨id', hid'⟩ | ⟨rfl, -⟩
    · rw [hnone] at hid'
      cases hid'
    · exact hne (hs.once g' c spec' g spec hsub hg hd)
  · exact hs.once g₁ c spec₁ g₂ spec₂ (hother g₁ c spec₁ h₁).2 (hother g₂ c spec₂ h₂).2
  · rcases hbyConn hc with ⟨id', hid'⟩ | ⟨rfl, -⟩
    · exact hs.entered c id' hid' hd
    · exact (hs.submitting g c spec hg hd).1
  · obtain ⟨hd, hnone⟩ := hs.notified c hc
    refine ⟨hd, Option.eq_none_iff_forall_ne_some.mpr fun id hid => ?_⟩
    rcases hbyConn hid with ⟨id', hid'⟩ | ⟨rfl, hup⟩
    · rw [hnone] at hid'
      cases hid'
    · exact hup hd

/-- A new client. -/
lemma Clients.request (hs : s.Clients) {c : ConnID} (hc : c ∉ s.clients)
    (spec : JobSpec) :
    ({ s with
        clients := insert c s.clients
        handlers := s.handlers.insert s.nextGo (.submitting c spec)
        nextGo := s.nextGo + 1 } : Sys).Clients := by
  have hold : ∀ g spec', s.handlers.lookup g = some (.submitting c spec') → c ∈ s.down := by
    intro g spec' hg
    by_contra hd
    exact hc (hs.submitting g c spec' hg hd).1
  refine { hs with
    submitting := fun g d spec' h hd => ?_
    once := fun g₁ d spec₁ g₂ spec₂ h₁ h₂ hd => ?_
    entered := fun d id h hd => Finset.mem_insert_of_mem (hs.entered d id h hd) }
  · obtain ⟨-, he⟩ | ⟨-, h⟩ := GoMap.of_lookup_insert h
    · obtain ⟨rfl, -⟩ := Handler.submitting.inj he
      refine ⟨Finset.mem_insert_self _ _, Option.eq_none_iff_forall_ne_some.mpr fun id hid => ?_⟩
      exact hc (hs.entered d id hid hd)
    · exact (hs.submitting g d spec' h hd).imp_left Finset.mem_insert_of_mem
  · obtain ⟨hg₁, he₁⟩ | ⟨-, h₁'⟩ := GoMap.of_lookup_insert h₁ <;>
      obtain ⟨hg₂, he₂⟩ | ⟨-, h₂'⟩ := GoMap.of_lookup_insert h₂
    · rw [hg₁, hg₂]
    · obtain ⟨rfl, -⟩ := Handler.submitting.inj he₁
      exact absurd (hold g₂ spec₂ h₂') hd
    · obtain ⟨rfl, -⟩ := Handler.submitting.inj he₂
      exact absurd (hold g₁ spec₁ h₁') hd
    · exact hs.once g₁ d spec₁ g₂ spec₂ h₁' h₂' hd

/-- A step keeps the invariant. -/
lemma Clients.move {a : Action} (hs : s.Clients) (hok : s.Ok) (h : Move wl p s a t) :
    t.Clients := by
  cases h with
  | ignored => exact hs
  | @connDown c =>
      have hd : ∀ {d}, d ∉ insert c s.down → d ∉ s.down := fun hd h =>
        hd (Finset.mem_insert_of_mem h)
      exact ⟨hs.attached, fun g d spec h h' => hs.submitting g d spec h (hd h'),
        fun g d spec g' spec' h h' hd' => hs.once g d spec g' spec' h h' (hd hd'),
        fun d id h h' => hs.entered d id h (hd h'),
        fun d h => Finset.mem_insert_of_mem (hs.notifying d h),
        fun d h => (hs.notified d h).imp_left Finset.mem_insert_of_mem⟩
  | lostWorker => exact { hs with }
  | @lostClient c hr hd =>
      have hne : ∀ {d}, d ∉ s.down → d ∈ s.clients → d ∈ s.clients.erase c := fun h hm =>
        Finset.mem_erase.mpr ⟨fun he => h (he ▸ hd), hm⟩
      refine { hs with
        submitting := fun g d spec h h' => (hs.submitting g d spec h h').imp_left (hne h')
        entered := fun d id h h' => hne h' (hs.entered d id h h')
        notifying := ?_ }
      rintro d ⟨rfl⟩
      exact hd
  | join => exact { hs with }
  | request _ _ hc => exact hs.request hc _
  | result => exact { hs with notifying := by simp }
  | forward => exact { hs with notifying := by simp }
  | @gone c now hd =>
      have hev : ({ s with agg := s.agg.step wl p (.clientGone c now) } : Sys).Clients :=
        hs.event hok (by simp)
      refine { hev with notifying := by simp, notified := fun d hm => ?_ }
      rcases Finset.mem_insert.mp hm with rfl | hm
      · exact ⟨hs.notifying d hd, Agg.clientGone_byConn _ _ _⟩
      · exact hev.notified d hm
  | submit hg => exact hs.submit hok hg
  | @begin g =>
      refine hs.handlers fun g' c spec h => ?_
      obtain ⟨-, he⟩ | ⟨-, h⟩ := GoMap.of_lookup_insert h
      · cases he
      · exact h
  | leave => exact hs.handlers fun g' c spec h => (GoMap.of_lookup_erase h).2
  | @feed g =>
      refine { hs.handlers (H := s.handlers.insert g _) fun g' c spec h => ?_ with }
      obtain ⟨-, he⟩ | ⟨-, h⟩ := GoMap.of_lookup_insert h
      · cases he
      · exact h
  | feedCancel => exact hs.handlers fun g' c spec h => (GoMap.of_lookup_erase h).2
  | loop => exact { hs with }
  | deliver => exact { hs.event hok (by simp) with }
  | tick => exact hs.event hok (by simp)

lemma start_clients {boot : Recovered} (hb : boot.Boots) : (start boot).Clients := by
  refine start_induction (P := Sys.Clients) ?_ fun s f _ hs => ?_
  · refine ⟨⟨fun c id => ?_, fun id j hj => ?_⟩, ?_, ?_, ?_, ?_, ?_⟩
    · change boot.agg.byConn.lookup c = _ ↔ _
      rw [hb.byConn]
      simp only [Finmap.lookup_empty, reduceCtorEq, false_iff, not_exists, not_and]
      intro j hj
      rw [(hb.detached id j hj).1]
      simp
    · simp [hb.detached id j hj]
    all_goals simp [initial, hb.byConn]
  · refine { hs.handlers (H := s.handlers.insert s.nextGo _) fun g c spec h => ?_ with }
    obtain ⟨-, he⟩ | ⟨-, h⟩ := GoMap.of_lookup_insert h
    · cases he
    · exact h

lemma run_clients {boot : Recovered} (hb : boot.Boots) {as : List Action}
    (h : run (Sys.step wl p) (start boot) as = some s) : s.Clients := by
  refine (run_invariant (P := fun s => s.Ok ∧ s.Clients) ?_
    ⟨start_ok hb, start_clients hb⟩ h).2
  rintro s a t ⟨hok, hs⟩ hstep
  exact ⟨(step_move hstep).ok hok, hs.move hok (step_move hstep)⟩

end Sys

/-- **No job stays attached to a vanished client.**  In every state a scheduler can reach: a
connection is entered for a job exactly when it is the job's client, a running job has no client
exactly when its grace period is running, and no job waits with a connection whose gone notice has
been consumed, so its grace period has started or another connection is attached. -/
theorem no_vanished_client {wl : Workload} {p : Params} {now : Time} {ords : RecoverOrders}
    {file : Option (List Record × (ℕ → Bool))} {boot : Recovered}
    (hboot : recover wl now ords file = some boot) {as : List Action} {s : Sys}
    (hrun : run (Sys.step wl p) (Sys.start boot) as = some s) :
    (∀ c id, s.agg.byConn.lookup c = some id ↔
        ∃ j, s.agg.jobs.lookup id = some j ∧ j.client = some c) ∧
      (∀ id j, s.agg.jobs.lookup id = some j → (j.client = none ↔ j.orphanedAt ≠ none)) ∧
      ∀ c ∈ s.notified, ∀ id j, s.agg.jobs.lookup id = some j → j.client ≠ some c ∧
        (j.orphanedAt ≠ none ∨ ∃ d, d ≠ c ∧ j.client = some d) := by
  have hs := Sys.run_clients (recover_boots hboot) hrun
  refine ⟨hs.attached.byConn, hs.attached.orphaned, fun c hc id j hj => ?_⟩
  have hne : j.client ≠ some c := by
    intro hcl
    have hb := (hs.attached.byConn c id).mpr ⟨j, hj, hcl⟩
    rw [(hs.notified c hc).2] at hb
    cases hb
  refine ⟨hne, ?_⟩
  cases hcl : j.client with
  | none => exact .inl ((hs.attached.orphaned id j hj).mp hcl)
  | some d => exact .inr ⟨d, fun he => hne (hcl.trans (by rw [he])), rfl⟩

/-- The gone notice of a client overtakes its own handler: the notice is consumed first, and the
request is registered without a client. -/
def overtakenRun : List Action :=
  [.readRequest 1 ⟨7, 0, 15000, []⟩, .connDown 1, .readError 1, .gone 1, .submit 0 2]

theorem no_vanished_client_overtakenRun :
    ∃ s, run (Sys.step Workload.largest Params.default) (Sys.start ⟨Agg.empty, []⟩) overtakenRun =
        some s ∧ 1 ∈ s.notified ∧ ∃ j, s.agg.jobs.lookup 7 = some j ∧ j.client ≠ some 1 ∧
      (j.orphanedAt ≠ none ∨ ∃ d, d ≠ 1 ∧ j.client = some d) := by
  have hval : (run (Sys.step Workload.largest Params.default) (Sys.start ⟨Agg.empty, []⟩)
      overtakenRun).map (fun s => (s.notified, s.agg.jobs.lookup 7)) =
      some ({1},
        some ⟨JobSpec.ofRequest 10000 ⟨7, 0, 15000, []⟩, none, 2, ⟨0, 0⟩, 2, some 2, 0⟩) := by
    decide +kernel
  obtain ⟨s, hrun, hs⟩ := Option.map_eq_some_iff.mp hval
  obtain ⟨hn, hj⟩ := Prod.mk.inj hs
  have hboot : recover Workload.largest 0 ⟨idOrder, idOrder, idOrder⟩ none =
    some ⟨Agg.empty, []⟩ := rfl
  have h1 : 1 ∈ s.notified := hn ▸ Finset.mem_singleton_self 1
  exact ⟨s, hrun, h1, _, hj, (no_vanished_client hboot hrun).2.2 1 h1 7 _ hj⟩

/-! ## A delayed request -/

/-- Connection `c` waits for job `id`: it is the job's client, entered in `byConn`, and the grace
period is not running. -/
def Agg.Waits (s : Agg) (c : ConnID) (id : UInt64) : Prop :=
  s.byConn.lookup c = some id ∧
    ∃ j, s.jobs.lookup id = some j ∧ j.client = some c ∧ j.orphanedAt = none

/-- A submit from a connection that has ended takes the client from a running job. -/
lemma Agg.submit_done (wl : Workload) {s : Agg} (hok : s.Ok) (hset : s.Settled) {spec : JobSpec}
    {j : Job} (hj : s.jobs.lookup spec.id = some j) (d : ConnID) (now : Time) :
    (s.submit wl d spec true now).1.toTables =
      { s.toTables with
        jobs := s.jobs.insert spec.id { j with client := none, orphanedAt := some now }
        byConn := detachConn s.byConn j.client } := by
  rw [s.submit_running (hok.not_both _ j hj) hj, settle_of_ne_zero]
  · simp [attachJob]
  · simpa using hset _ j hj

/-- **A delayed request parts a job from its live client.**  In every state a scheduler can reach:
if connection `c` is up and waits for a running job, then the submit of another connection for
that job, processed after that connection has ended, always leaves the job without a client and
with its grace period running; `c` does not wait for it any more. -/
theorem delayed_request_detaches {wl : Workload} {p : Params} {now : Time} {ords : RecoverOrders}
    {file : Option (List Record × (ℕ → Bool))} {boot : Recovered}
    (hboot : recover wl now ords file = some boot) {as : List Action} {s t : Sys}
    (hrun : run (Sys.step wl p) (Sys.start boot) as = some s) {g : ℕ} {c d : ConnID}
    {spec : JobSpec} {at' : Time} (hc : s.agg.Waits c spec.id) (hup : c ∉ s.down)
    (hg : s.handlers.lookup g = some (.submitting d spec)) (hd : d ∈ s.down)
    (hstep : Sys.step wl p s (.submit g at') = some t) :
    ¬ t.agg.Waits c spec.id ∧ t.agg.byConn.lookup c = none ∧ c ∉ t.down ∧
      ∃ j, t.agg.jobs.lookup spec.id = some j ∧ j.client = none ∧ j.orphanedAt = some at' := by
  have hok := Sys.run_ok (recover_boots hboot) hrun
  obtain ⟨-, j, hj, hcl, -⟩ := hc
  have htab := Agg.submit_done wl hok.agg hok.settled hj d at'
  have ht : t = { s with
      agg := (s.agg.submit wl d spec true at').1
      handlers := s.handlers.insert g (.replied d spec (s.agg.submit wl d spec true at').2) } := by
    simpa [Sys.step, Sys.submit, hg, hd, eq_comm] using hstep
  have hjob : t.agg.jobs.lookup spec.id =
      some { j with client := none, orphanedAt := some at' } := by
    rw [ht]
    dsimp only
    rw [htab, Finmap.lookup_insert]
  refine ⟨?_, ?_, ?_, _, hjob, rfl, rfl⟩
  · rintro ⟨-, k, hk, hkc, -⟩
    rw [hjob] at hk
    rw [← Option.some_inj.mp hk] at hkc
    cases hkc
  · rw [ht]
    dsimp only
    rw [htab, lookup_detachConn, if_pos hcl]
  · rw [ht]
    exact hup

/-- The client's first connection breaks before its handler reaches the aggregator; the client
comes back over connection 2 and is attached; then the first handler's request is processed, and
after the grace period the job is dropped. -/
def delayedRun : List Action :=
  [.readRequest 1 ⟨7, 0, 15000, []⟩, .connDown 1, .readError 1, .gone 0,
    .readRequest 2 ⟨7, 0, 15000, []⟩, .submit 1 1, .submit 0 2,
    .tick 6000000000 ⟨idOrder, idOrder, idOrder⟩]

/-- Right before the delayed submit connection 2 waits for the job. -/
lemma delayedRun_before :
    ∃ s, run (Sys.step Workload.largest Params.default) (Sys.start ⟨Agg.empty, []⟩)
        (delayedRun.take 6) = some s ∧ s.agg.Waits 2 7 ∧ s.down = {1} ∧
      s.handlers.lookup 0 = some (.submitting 1 (JobSpec.ofRequest 10000 ⟨7, 0, 15000, []⟩)) := by
  have hval : (run (Sys.step Workload.largest Params.default) (Sys.start ⟨Agg.empty, []⟩)
      (delayedRun.take 6)).map (fun s => (s.agg.byConn.lookup 2, s.agg.jobs.lookup 7, s.down,
        s.handlers.lookup 0)) =
      some (some 7,
        some ⟨JobSpec.ofRequest 10000 ⟨7, 0, 15000, []⟩, some 2, 2, ⟨0, 0⟩, 1, none, 0⟩, {1},
        some (.submitting 1 (JobSpec.ofRequest 10000 ⟨7, 0, 15000, []⟩))) := by
    decide +kernel
  obtain ⟨s, hrun, hs⟩ := Option.map_eq_some_iff.mp hval
  simp only [Prod.mk.injEq] at hs
  obtain ⟨hb, hj, hd, hg⟩ := hs
  exact ⟨s, hrun, ⟨hb, _, hj, rfl, rfl⟩, hd, hg⟩

/-- Connection 2 is up, waits for the job before the delayed submit, and loses it: the job is
dropped although its client is there, and no `Result` is ever written. -/
theorem delayedRun_displaces :
    (∃ s, run (Sys.step Workload.largest Params.default) (Sys.start ⟨Agg.empty, []⟩)
        (delayedRun.take 6) = some s ∧ s.agg.Waits 2 7 ∧ 2 ∉ s.down ∧ 1 ∈ s.down ∧
        s.handlers.lookup 0 =
          some (.submitting 1 (JobSpec.ofRequest 10000 ⟨7, 0, 15000, []⟩)) ∧
        ∃ t, Sys.step Workload.largest Params.default s (.submit 0 2) = some t ∧
          ¬ t.agg.Waits 2 7) ∧
      ∃ s, run (Sys.step Workload.largest Params.default) (Sys.start ⟨Agg.empty, []⟩) delayedRun =
        some s ∧ 2 ∉ s.down ∧ s.agg.jobs.lookup 7 = none ∧ s.agg.out = [.jobEnd 0 7 false] := by
  constructor
  · obtain ⟨s, hrun, hw, hd, hg⟩ := delayedRun_before
    have hnext : ((run (Sys.step Workload.largest Params.default) (Sys.start ⟨Agg.empty, []⟩)
        (delayedRun.take 6)).bind fun s =>
          Sys.step Workload.largest Params.default s (.submit 0 2)).map
            (fun t => t.agg.byConn.lookup 2) = some none := by
      decide +kernel
    rw [hrun, Option.bind_some] at hnext
    obtain ⟨t, ht, hbt⟩ := Option.map_eq_some_iff.mp hnext
    refine ⟨s, hrun, hw, by simp [hd], by simp [hd], hg, t, ht, ?_⟩
    rintro ⟨h, -⟩
    rw [hbt] at h
    cases h
  · have hval : (run (Sys.step Workload.largest Params.default) (Sys.start ⟨Agg.empty, []⟩)
        delayedRun).map (fun s => (s.down, s.agg.jobs.lookup 7, s.agg.out)) =
        some ({1}, none, [.jobEnd 0 7 false]) := by
      decide +kernel
    obtain ⟨s, hrun, hs⟩ := Option.map_eq_some_iff.mp hval
    simp only [Prod.mk.injEq] at hs
    exact ⟨s, hrun, by simp [hs.1], hs.2⟩

theorem delayed_request_detaches_delayedRun :
    ∃ s t, run (Sys.step Workload.largest Params.default) (Sys.start ⟨Agg.empty, []⟩)
        (delayedRun.take 6) = some s ∧ s.agg.Waits 2 7 ∧
      Sys.step Workload.largest Params.default s (.submit 0 2) = some t ∧ ¬ t.agg.Waits 2 7 := by
  obtain ⟨s, hrun, hw, hd, hg⟩ := delayedRun_before
  have hboot : recover Workload.largest 0 ⟨idOrder, idOrder, idOrder⟩ none =
    some ⟨Agg.empty, []⟩ := rfl
  obtain ⟨t, ht⟩ : ∃ t, Sys.step Workload.largest Params.default s (.submit 0 2) = some t :=
    ⟨_, by rw [Sys.step, Sys.submit, hg]⟩
  exact ⟨s, t, hrun, hw, ht,
    (delayed_request_detaches hboot hrun hw (by simp [hd]) hg (by simp [hd]) ht).1⟩

end RudpScheduler
