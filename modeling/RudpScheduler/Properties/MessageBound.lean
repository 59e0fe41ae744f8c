import RudpScheduler.Construction.WireCodec
import RudpScheduler.Properties.SystemInvariant
import RudpScheduler.Properties.WalCodec

/-!
# Job messages stay short

`Decode` accepts a request only if its string has at most `MaxMsgLen` bytes, and nothing in the
scheduler makes a new string: it travels from the request into the spec, from there into the
tasks and into the log, and after a restart from the log into the specs again.  `Sys.Short` says
so of everything the scheduler holds, and of the log; every step keeps it (`Sys.Move.short`) and
recovery from a log of short records establishes it (`start_short`).
-/

namespace RudpScheduler

/-- The string fits a message. -/
def Short (m : Msg) : Prop := m.length ≤ Wire.maxMsgLen

lemma short_nil : Short [] := Nat.zero_le _

/-! ## The log -/

@[simp] lemma Log.sync_recs (l : Log) : l.sync.2.recs = l.recs := by
  unfold Log.sync
  split_ifs <;> rfl

lemma snapshotResults_short (ord : RangeOrder UInt64) (rs : GoMap UInt64 Finished) :
    ∀ r ∈ Agg.snapshotResults ord rs, Short r.msg := by
  intro r hr
  obtain ⟨id, -, hid⟩ := List.mem_filterMap.mp hr
  obtain ⟨f, -, rfl⟩ := Option.map_eq_some_iff.mp hid
  exact short_nil

/-- Every record of the log is short. -/
def Agg.ShortLog (s : Agg) : Prop := ∀ l, s.log = some l → ∀ r ∈ l.recs, Short r.msg

namespace Agg

variable {s t : Agg}

lemma ShortLog.of_log (hs : s.ShortLog) (h : t.log = s.log) : t.ShortLog := fun l hl =>
  hs l (h ▸ hl)

/-- `Append` adds one record, or none. -/
lemma ShortLog.record (hs : s.ShortLog) (r : Record) (hr : Short r.msg) (b : Bool) :
    (s.record r b).ShortLog := by
  have happ : ∀ l : Log, s.log = some l → ∀ r' ∈ (l.append r).2.recs, Short r'.msg := by
    intro l hl
    unfold Log.append
    split_ifs
    · exact hs l hl
    · exact List.forall_mem_append.mpr ⟨hs l hl, List.forall_mem_singleton.mpr hr⟩
  unfold Agg.record
  split
  · exact hs
  · rename_i l hl
    dsimp only
    split_ifs
    · intro l' hl' r' hr'
      rw [← Option.some_inj.mp hl', Log.sync_recs] at hr'
      exact happ l hl r' hr'
    · intro l' hl' r' hr'
      rw [← Option.some_inj.mp hl'] at hr'
      exact happ l hl r' hr'

lemma ShortLog.finish (hs : s.ShortLog) (j : Job) (completed : Bool) (now : Time) :
    (s.finish j completed now).ShortLog := by
  have hrem : (s.remove j).ShortLog := hs.of_log (s.remove_log j)
  unfold Agg.finish
  cases completed with
  | true =>
      refine ShortLog.of_log (ShortLog.record ?_ (.jobDone _) short_nil true) rfl
      exact hrem.of_log rfl
  | false => exact (hrem.record (.jobDrop ⟨j.spec.id⟩) short_nil false).of_log rfl

lemma ShortLog.settle (hs : s.ShortLog) (id : UInt64) (j : Job) (now : Time) :
    (s.settle id j now).ShortLog := by
  unfold Agg.settle
  split_ifs
  · exact (hs.of_log (s.reply_log _ _ _)).finish j true now
  · exact hs

lemma ShortLog.submit (wl : Workload) (hs : s.ShortLog) {spec : JobSpec} (hspec : Short spec.msg)
    (h : ConnID) (hDone : Bool) (now : Time) : (s.submit wl h spec hDone now).1.ShortLog := by
  cases hr : s.results.lookup spec.id with
  | some f => exact hs.of_log (by simp [Agg.submit, hr])
  | none =>
      cases hj : s.jobs.lookup spec.id with
      | some j =>
          rw [s.submit_running hr hj]
          exact ShortLog.settle (hs.of_log (by simp)) _ _ now
      | none =>
          have hstart : (s.startJob wl spec now).1.ShortLog := by
            refine ShortLog.of_log (ShortLog.record ?_ (.jobStart spec.start) hspec true) rfl
            exact hs.of_log rfl
          rw [s.submit_fresh hr hj]
          exact ShortLog.settle (hstart.of_log (by simp)) _ _ now

lemma ShortLog.result (wl : Workload) (hs : s.ShortLog) (r : ChunkResult) (now : Time) :
    (s.result wl r now).ShortLog := by
  rcases s.result_cases wl r now with ⟨j, -, -, -, he⟩ | ⟨-, dup, he⟩
  · have hcount : (s.counted wl j r).ShortLog := by
      refine ShortLog.of_log (ShortLog.record ?_ (.chunkDone _) short_nil false) rfl
      exact hs.of_log rfl
    rw [he, Agg.count_eq]
    exact hcount.settle _ _ now
  · exact hs.of_log (by rw [he, Agg.discard_log])

lemma ShortLog.dropOrphan (p : Params) (hs : s.ShortLog) (now : Time) (id : UInt64) :
    (s.dropOrphan p now id).ShortLog := by
  rcases s.dropOrphan_cases p now id with ⟨j, -, -, he⟩ | he
  · rw [he]
    exact hs.finish j false now
  · rw [he]
    exact hs

lemma ShortLog.expire (p : Params) (hs : s.ShortLog) (now : Time) (id : UInt64) :
    (s.expire p now id).ShortLog := by
  rcases s.expire_cases p now id with ⟨f, -, he⟩ | he
  · rw [he]
    refine ShortLog.record ?_ (.jobDrop ⟨id⟩) short_nil false
    exact hs.of_log rfl
  · rw [he]
    exact hs

/-- The compacted log of an idle aggregator has no strings in it. -/
lemma ShortLog.compactIdle (hs : s.ShortLog) (ord : RangeOrder UInt64) :
    (s.compactIdle ord).ShortLog := by
  unfold Agg.compactIdle
  split
  · exact hs
  · rename_i l hl
    split_ifs
    · intro l' hl' r hr
      rw [← Option.some_inj.mp hl'] at hr
      unfold Log.rewrite at hr
      split_ifs at hr
      · exact hs l hl r hr
      · exact snapshotResults_short _ _ r hr
    · exact hs

lemma ShortLog.syncDirty (hs : s.ShortLog) : s.syncDirty.ShortLog := by
  unfold Agg.syncDirty
  split
  · exact hs
  · rename_i l hl
    split_ifs
    · intro l' hl' r hr
      rw [← Option.some_inj.mp hl', Log.sync_recs] at hr
      exact hs l hl r hr
    · exact hs

lemma ShortLog.tick (p : Params) (hs : s.ShortLog) (now : Time) (ords : TickOrders) :
    (s.tick p now ords).ShortLog := by
  have hdrop : ∀ ids : List UInt64, (ids.foldl (Agg.dropOrphan p now) s).ShortLog := fun ids =>
    ids.foldlRecOn (motive := ShortLog) _ hs fun _ hb id _ => hb.dropOrphan p now id
  have hexpire : ∀ (ids : List UInt64) (t : Agg), t.ShortLog →
      (ids.foldl (Agg.expire p now) t).ShortLog := fun ids t ht =>
    ids.foldlRecOn (motive := ShortLog) _ ht fun _ hb id _ => hb.expire p now id
  exact ((hexpire _ _ (hdrop _)).compactIdle ords.snapshot).syncDirty

/-- Only a submit puts a string into the log. -/
lemma ShortLog.step (wl : Workload) (p : Params) (hs : s.ShortLog) {e : Event}
    (he : ∀ h spec hDone now, e = .submit h spec hDone now → Short spec.msg) :
    (s.step wl p e).ShortLog := by
  cases e with
  | submit h spec hDone now => exact hs.submit wl (he h spec hDone now rfl) h hDone now
  | result r now => exact hs.result wl r now
  | clientGone conn now => exact hs.of_log (s.clientGone_log conn now)
  | tick now ords => exact hs.tick p now ords

end Agg

/-! ## Recovery -/

/-- Every running job has a short string. -/
def Replay.Short (r : Replay) : Prop :=
  ∀ id j, r.jobs.lookup id = some j → RudpScheduler.Short j.spec.msg

namespace Replay

variable {r : Replay}

lemma Short.forget (hr : r.Short) (id : UInt64) : (r.forget id).Short := by
  unfold Replay.forget
  split
  · exact hr
  · exact GoMap.forall_erase hr id

lemma Short.apply (wl : Workload) (now : Time) (hr : r.Short) {rec : Record}
    (hrec : RudpScheduler.Short rec.msg) : (r.apply wl now rec).Short := by
  unfold Replay.apply
  split
  · split
    · exact hr
    · exact GoMap.forall_insert hr hrec
  · split
    · exact hr
    · rename_i j hj
      split_ifs
      · exact hr
      · exact GoMap.forall_insert hr (hr _ j hj)
  · exact fun id j hj => hr.forget _ id j hj
  · exact fun id j hj => hr.forget _ id j hj

lemma Short.finishOne (now : Time) (hr : r.Short) (id : UInt64) : (r.finishOne now id).Short := by
  unfold Replay.finishOne
  split
  · split_ifs
    · exact fun id j hj => hr.forget _ id j hj
    · exact hr
  · exact hr

lemma rebuilt_short (wl : Workload) (now : Time) (ord : RangeOrder UInt64) {recs : List Record}
    (h : ∀ rec ∈ recs, RudpScheduler.Short rec.msg) : (rebuilt wl now ord recs).Short := by
  have hreplay : (replay wl now recs).Short :=
    recs.foldlRecOn (motive := Replay.Short) _ (fun id j hj => by cases hj)
      fun _ hb rec hrec => hb.apply wl now (h rec hrec)
  exact (ord.range _).foldlRecOn (motive := Replay.Short) _ hreplay
    fun _ hb id _ => hb.finishOne now id

lemma Short.compact (hr : r.Short) (snapshot jobs : RangeOrder UInt64) :
    ∀ rec ∈ r.compact snapshot jobs, RudpScheduler.Short rec.msg := by
  intro rec hrec
  rcases List.mem_append.mp hrec with hrec | hrec
  · exact snapshotResults_short _ _ rec hrec
  · obtain ⟨id, -, hrec⟩ := List.mem_flatMap.mp hrec
    unfold compactJob at hrec
    split at hrec
    · rename_i j hj
      rcases List.mem_cons.mp hrec with rfl | hrec
      · exact hr id j hj
      · obtain ⟨c, -, rfl⟩ := List.mem_map.mp hrec
        exact short_nil
    · cases hrec

lemma Short.feeds (hr : r.Short) (jobs : RangeOrder UInt64) :
    ∀ f ∈ r.feeds jobs, RudpScheduler.Short f.spec.msg := by
  intro f hf
  obtain ⟨id, -, hid⟩ := List.mem_filterMap.mp hf
  obtain ⟨j, hj, rfl⟩ := Option.map_eq_some_iff.mp hid
  exact hr id j hj

end Replay

/-- Recovery from a log of short records. -/
lemma recover_short {wl : Workload} {now : Time} {ords : RecoverOrders}
    {file : Option (List Record × (ℕ → Bool))} {boot : Recovered}
    (hfile : ∀ recs fails, file = some (recs, fails) → ∀ r ∈ recs, Short r.msg)
    (h : recover wl now ords file = some boot) :
    boot.agg.ShortLog ∧ ∀ f ∈ boot.feeds, Short f.spec.msg := by
  cases file with
  | none =>
      obtain rfl := Option.some_inj.mp h
      refine ⟨fun l hl => ?_, by simp⟩
      cases hl
  | some file =>
      obtain ⟨recs, fails⟩ := file
      have hrecs := hfile recs fails rfl
      have hr := Replay.rebuilt_short wl now ords.finish hrecs
      rw [recover] at h
      dsimp only at h
      split_ifs at h with hnil
      · obtain rfl := Option.some_inj.mp h
        refine ⟨fun l hl => ?_, hr.feeds ords.jobs⟩
        obtain rfl := Option.some_inj.mp hl
        exact hrecs
      · obtain rfl := Option.some_inj.mp h
        refine ⟨fun l hl => ?_, hr.feeds ords.jobs⟩
        obtain rfl := Option.some_inj.mp hl
        unfold Log.rewrite
        split_ifs
        · exact hrecs
        · exact hr.compact _ _

/-! ## The system -/

/-- The strings a handler has are short. -/
def Handler.Short : Handler → Prop
  | .submitting _ spec | .replied _ spec _ => RudpScheduler.Short spec.msg
  | .feeding _ rest => ∀ t ∈ rest, RudpScheduler.Short t.msg

/-- The task's string is short. -/
def Task.Short (t : Task) : Prop := RudpScheduler.Short t.msg

lemma JobSpec.feed_short {spec : JobSpec} (h : Short spec.msg) (skip : Finset UInt32) :
    ∀ t ∈ spec.feed skip, Short t.msg := by
  intro t ht
  obtain ⟨i, -, -, rfl⟩ := mem_feed.mp ht
  exact h

/-- Every string the scheduler holds or has logged is short. -/
structure Sys.Short (s : Sys) : Prop where
  log : s.agg.ShortLog
  handlers : ∀ g h, s.handlers.lookup g = some h → h.Short
  queues : s.queues.All Task.Short
  loops : ∀ w l, s.loops.lookup w = some l → l.All Task.Short

namespace Sys

variable {wl : Workload} {p : Params} {s t : Sys}

/-- A step keeps strings short, if the strings that come in are. -/
lemma Move.short {a : Action} (h : Move wl p s a t) (hs : s.Short)
    (hreq : ∀ c req, a = .readRequest c req → RudpScheduler.Short req.msg) : t.Short := by
  have hlog : ∀ e, (∀ h spec hDone now, e = .submit h spec hDone now →
      RudpScheduler.Short spec.msg) → (s.agg.step wl p e).ShortLog := fun e he =>
    hs.log.step wl p he
  cases h with
  | ignored => exact hs
  | connDown => exact { hs with }
  | lostWorker =>
      refine { hs with loops := fun k l hl => ?_ }
      obtain ⟨l', hl', rfl | rfl⟩ := lookup_closeDead hl
      · exact hs.loops k l hl'
      · exact ⟨(hs.loops k l' hl').entry, (hs.loops k l' hl').hand⟩
  | lostClient => exact { hs with }
  | join => exact { hs with loops := GoMap.forall_insert hs.loops (Worker.all_new _) }
  | request => exact { hs with handlers := GoMap.forall_insert hs.handlers (hreq _ _ rfl) }
  | result => exact { hs with }
  | forward hd hl =>
      have hl' := hs.loops _ _ hl
      exact { hs with loops := GoMap.forall_insert hs.loops ⟨hl'.entry, hl'.hand⟩ }
  | gone => exact { hs with log := hlog _ (by simp) }
  | submit hg =>
      have hspec := hs.handlers _ _ hg
      refine { hs with
        log := hlog _ ?_, handlers := GoMap.forall_insert hs.handlers hspec }
      rintro _ _ _ _ ⟨rfl, rfl, rfl, rfl⟩
      exact hspec
  | begin hg =>
      have hfeed := JobSpec.feed_short (hs.handlers _ _ hg) ∅
      exact { hs with handlers := GoMap.forall_insert hs.handlers hfeed }
  | leave => exact { hs with handlers := GoMap.forall_erase hs.handlers _ }
  | feed hg =>
      have hrest := hs.handlers _ _ hg
      exact { hs with
        queues := hs.queues.pushNQ (hrest _ List.mem_cons_self)
        handlers := GoMap.forall_insert hs.handlers fun t ht =>
          hrest t (List.mem_cons_of_mem _ ht) }
  | feedCancel => exact { hs with handlers := GoMap.forall_erase hs.handlers _ }
  | loop hl hm =>
      obtain ⟨hq, hl', -⟩ := (hs.loops _ _ hl).move hs.queues hm
      exact { hs with queues := hq, loops := GoMap.forall_insert hs.loops hl' }
  | deliver hl =>
      refine { hs with log := hlog _ (by simp), loops := GoMap.forall_insert hs.loops ?_ }
      exact (hs.loops _ _ hl).idle rfl (by simp)
  | tick => exact { hs with log := hlog _ (by simp) }

/-- The chunks a step writes have short strings. -/
lemma Move.wrote_short {a : Action} (h : Move wl p s a t) (hs : s.Short) :
    ∃ chunks : List (ℕ × Chunk), t.wrote = s.wrote ++ chunks ∧
      ∀ ch ∈ chunks, RudpScheduler.Short ch.2.msg := by
  cases h with
  | @loop w a l q l' chunks hl hm =>
      obtain ⟨-, -, hch⟩ := (hs.loops _ _ hl).move hs.queues hm
      refine ⟨_, rfl, fun ch hmem => ?_⟩
      obtain ⟨ch', hch', rfl⟩ := List.mem_map.mp hmem
      obtain ⟨u, hu, rfl⟩ := hch ch' hch'
      exact hu
  | _ => exact ⟨[], (List.append_nil _).symm, by simp⟩

/-- A scheduler that starts from a log of short records. -/
lemma start_short {boot : Recovered} (hlog : boot.agg.ShortLog)
    (hfeeds : ∀ f ∈ boot.feeds, RudpScheduler.Short f.spec.msg) : (start boot).Short := by
  have h0 : (initial boot.agg).Short := by
    refine ⟨hlog, ?_, ⟨?_, ?_⟩, ?_⟩ <;> simp [initial]
  refine start_induction h0 fun s f hf hs => ?_
  exact { hs with
    handlers := GoMap.forall_insert hs.handlers (JobSpec.feed_short (hfeeds f hf) f.skip) }

end Sys

end RudpScheduler
