import RudpScheduler.Properties.WalFile

/-!
# Rewrite is all or nothing

`Rewrite` writes the new records to a temporary file, syncs it and renames it over the log.  Until
the rename it touches nothing but the temporary file and a new handle (`Staged`), so whatever fails
the old log is as it was (`Untouched`), and a crash finds it at its path.  The rename puts a file
there that bears exactly the new records, all of them synced.
-/

namespace RudpScheduler.Wal

open Fs Prog BufWriter

variable {crc : List UInt8 → UInt32} {may : Luck → Prop} {I : Fs → Prop} {s t : Fs} {l : LogFile}
  {old recs : List Record} {k f i j : ℕ}

/-! ## The temporary file -/

/-- The log's name, file and handle are in `t` as they were in `s`. -/
structure Untouched (s t : Fs) (l : LogFile) : Prop where
  ok : t.Ok
  names : t.names l.path = s.names l.path
  handle : t.handles l.f = s.handles l.f
  inode : ∀ i, s.names l.path = some i → t.inodes i = s.inodes i

lemma Untouched.holds (ht : Untouched s t l) (h : Holds crc s l old k) : Holds crc t l old k := by
  obtain ⟨i, hi, hat, hbears, hdata⟩ := h.file
  have hnode := ht.inode i hi
  refine ⟨ht.ok, h.size, h.handle, i, ht.names.trans hi, ⟨?_, ?_⟩, ?_, ?_⟩
  · rw [ht.handle, hnode]
    exact hat.handle
  · rw [hnode]
    exact hat.synced_le
  · rw [hnode]
    exact hbears
  · rw [hnode]
    exact hdata

/-- The temporary file is inode `j`, open at its end with handle `f`, and apart from the log. -/
structure Staged (s t : Fs) (l : LogFile) (f j : ℕ) : Prop extends Untouched s t l where
  other : f ≠ l.f
  tmp : t.names (l.path ++ ".tmp") = some j
  apart : s.names l.path ≠ some j
  atEnd : t.AtEnd f j

lemma tmp_ne (path : String) : path ++ ".tmp" ≠ path := by
  intro h
  have hlen := congrArg String.length h
  rw [String.length_append] at hlen
  have : ".tmp".length = 4 := by decide
  omega

lemma Staged.grow (ht : Staged s t l f j) (b : List UInt8) : Staged s (t.grow f j b) l f j where
  ok := ht.ok.grow ht.atEnd b
  names := ht.names
  handle := (grow_handles_of_ne t ht.other.symm j b).trans ht.handle
  inode i hi := by
    have hne : i ≠ j := by
      rintro rfl
      exact ht.apart hi
    exact (grow_inodes_of_ne t f hne b).trans (ht.inode i hi)
  other := ht.other
  tmp := ht.tmp
  apart := ht.apart
  atEnd := ht.atEnd.grow b

lemma Staged.settle (ht : Staged s t l f j) : Staged s (t.settle j) l f j where
  ok := ht.ok.setInode _ _
  names := ht.names
  handle := ht.handle
  inode i hi := by
    have hne : i ≠ j := by
      rintro rfl
      exact ht.apart hi
    exact (Function.update_of_ne hne ..).trans (ht.inode i hi)
  other := ht.other
  tmp := ht.tmp
  apart := ht.apart
  atEnd := ht.atEnd.settle

/-- The temporary file is given up. -/
lemma Staged.close (ht : Staged s t l f j) : Untouched s (t.setHandle f none) l where
  ok := ht.ok.setHandle fun hne => absurd rfl hne
  names := ht.names
  handle := by
    rw [setHandle_handles, if_neg ht.other.symm]
    exact ht.handle
  inode := ht.inode

/-- Opening the temporary file, whether or not there is one left from an earlier attempt. -/
lemma Holds.staged (h : Holds crc s l old k) :
    ∃ j, Staged s (s.opened (l.path ++ ".tmp") true) l s.nextHandle j ∧
      (s.opened (l.path ++ ".tmp") true).inodes j = ⟨[], 0⟩ := by
  obtain ⟨i, hi, hat, -, -⟩ := h.file
  have hother : s.nextHandle ≠ l.f := (h.ok.handles_lt _ _ hat.handle).ne'
  have hok := h.ok.opened (l.path ++ ".tmp") true
  cases htmp : s.names (l.path ++ ".tmp") with
  | some j =>
      -- a stale temporary file is emptied
      have hopened : s.opened (l.path ++ ".tmp") true = (s.setInode j ⟨[], 0⟩).newHandle j := by
        simp [opened, htmp]
      have hne : i ≠ j := by
        rintro rfl
        exact tmp_ne _ (h.ok.names_inj _ _ _ htmp hi)
      have hnode : ((s.setInode j ⟨[], 0⟩).newHandle j).inodes j = ⟨[], 0⟩ :=
        setInode_inodes_self ..
      rw [hopened] at hok ⊢
      refine ⟨j, ⟨⟨hok, rfl, ?_, fun i' hi' => ?_⟩, hother, htmp, ?_, ⟨?_, ?_⟩⟩, hnode⟩
      · exact (newHandle_handles _ _ _).trans (if_neg hother.symm)
      · rw [hi, Option.some_inj] at hi'
        exact Function.update_of_ne (hi' ▸ hne) ..
      · rw [hi, Ne, Option.some_inj]
        exact hne
      · rw [hnode]
        exact newHandle_handles_self (s.setInode j ⟨[], 0⟩) j
      · rw [hnode]
        exact le_rfl
  | none =>
      have hopened : s.opened (l.path ++ ".tmp") true =
          (s.create (l.path ++ ".tmp")).newHandle s.nextInode := by simp [opened, htmp]
      have hne : i ≠ s.nextInode := (h.ok.names_lt _ _ hi).ne
      have hnode : ((s.create (l.path ++ ".tmp")).newHandle s.nextInode).inodes s.nextInode =
          ⟨[], 0⟩ := Function.update_self ..
      rw [hopened] at hok ⊢
      refine ⟨s.nextInode, ⟨⟨hok, ?_, ?_, fun i' hi' => ?_⟩, hother, ?_, ?_, ⟨?_, ?_⟩⟩, hnode⟩
      · exact (create_names _ _ _).trans (if_neg (tmp_ne l.path).symm)
      · exact (newHandle_handles _ _ _).trans (if_neg hother.symm)
      · rw [hi, Option.some_inj] at hi'
        exact Function.update_of_ne (hi' ▸ hne) ..
      · exact (create_names _ _ _).trans (if_pos rfl)
      · rw [hi, Ne, Option.some_inj]
        exact hne
      · rw [hnode]
        exact newHandle_handles_self (s.create (l.path ++ ".tmp")) s.nextInode
      · rw [hnode]
        exact le_rfl

/-! ## Writing the records -/

/-- The loop over the records passes their frames to the buffered writer. -/
lemma wp_appendAll {buf : List UInt8} {Q : Bool × LogFile → Fs → Prop}
    (hw : l.w = ⟨l.f, buf, false⟩) (hat : s.AtEnd l.f i) (hI : ∀ b, I (s.grow l.f i b))
    (hok : ∀ b buf', b ++ buf' = buf ++ frames crc recs →
      Q (false, { l with w := ⟨l.f, buf', false⟩, size := l.size + (frames crc recs).length })
        (s.grow l.f i b))
    (hfail : CanFail may → ∀ b l', Q (true, l') (s.grow l.f i b)) :
    wp exec may I (l.appendAll crc recs) Q s := by
  induction recs generalizing s l buf with
  | nil =>
      have hnow := hok [] buf (by simp)
      rw [grow_nil hat] at hnow
      rw [LogFile.appendAll]
      exact (show ({ l with w := ⟨l.f, buf, false⟩, size := l.size + 0 } : LogFile) = l by
        rw [← hw]; rfl) ▸ hnow
  | cons r recs ih =>
      unfold LogFile.appendAll
      rw [wp_bind]
      refine wp_append hw hat (fun b _ => hI b) (fun b buf' hb => ?_)
        fun hcan b buf' _ _ => hfail hcan b _
      simp only [Bool.false_eq_true, if_false]
      refine ih rfl (hat.grow b) (fun b' => ?_) (fun b' buf'' hb' => ?_) fun hcan b' l' => ?_
      · rw [grow_grow]
        exact hI _
      · rw [grow_grow]
        have hnow := hok (b ++ b') buf'' (by
          rw [List.append_assoc, hb', ← List.append_assoc, hb, frames_cons, List.append_assoc])
        rw [frames_cons, List.length_append, ← Nat.add_assoc] at hnow
        exact hnow
      · rw [grow_grow]
        exact hfail hcan _ l'

/-! ## The rename -/

/-- The file system after the rename. -/
lemma Staged.replaced (ht : Staged s t l f j) (hnode : t.inodes j = ⟨[], 0⟩)
    (hrecs : ∀ r ∈ recs, r.Fits) (size : ℕ) (hsize : size = (frames crc recs).length) :
    let u := ((t.grow f j (frames crc recs)).settle j).renamed (l.path ++ ".tmp") l.path j
    Keeps crc u l.path recs recs.length ∧
      Holds crc (u.setHandle l.f none) ⟨l.path, f, ⟨f, [], false⟩, size⟩ recs recs.length := by
  have hsettled := (ht.grow (frames crc recs)).settle
  have hnode' : ((t.grow f j (frames crc recs)).settle j).inodes j =
      ⟨frames crc recs, (frames crc recs).length⟩ := by
    rw [settle_inodes_self, grow_inodes_self, hnode, List.nil_append]
  have hbears : Bears crc (((t.grow f j (frames crc recs)).settle j).inodes j) recs
      recs.length := by
    rw [hnode']
    refine ⟨hrecs, le_rfl, le_rfl, ?_, torn_of_append (List.append_nil _)⟩
    rw [List.take_length]
  have hname : (((t.grow f j (frames crc recs)).settle j).renamed (l.path ++ ".tmp") l.path j).names
      l.path = some j := by
    rw [renamed_names, if_neg (tmp_ne l.path).symm, if_pos rfl]
  refine ⟨⟨j, hname, hbears⟩, ?_, hsize, rfl, j, hname, ⟨?_, hsettled.atEnd.synced_le⟩, hbears,
    fun _ => ?_⟩
  · exact (hsettled.ok.renamed hsettled.tmp).setHandle fun hne => absurd rfl hne
  · rw [setHandle_handles, if_neg ht.other]
    exact hsettled.atEnd.handle
  · exact (congrArg (·.data ++ []) hnode').trans (List.append_nil _)

/-- Every error ends with the temporary file closed and the log returned as it was. -/
lemma wp_giveUp {Q : Bool × LogFile → Fs → Prop} (ht : Staged s t l f j) (hI : I t)
    (hQ : ∀ u, Untouched s u l → Q (true, l) u) :
    wp exec may I (os (.close f) >>= fun _ => pure (true, l)) Q t :=
  ⟨hI, fun _ _ => hQ _ ht.close⟩

/-- What `Rewrite` returns: with an error the log untouched, and without one a log that holds the
new records. -/
structure Rewritten (crc : List UInt8 → UInt32) (may : Luck → Prop) (s : Fs) (l : LogFile)
    (recs : List Record) (o : Bool × LogFile) (t : Fs) : Prop where
  failed : o.1 = true → o.2 = l ∧ Untouched s t l ∧ CanFail may
  done : o.1 = false → o.2.path = l.path ∧ o.2.w.err = false ∧ Holds crc t o.2 recs recs.length

/-- What `Rewrite` does: in front of every call the old log is at its path, or the new one. -/
lemma wp_rewrite (h : Holds crc s l old k) (hrecs : ∀ r ∈ recs, r.Fits) :
    wp exec may (fun t => Keeps crc t l.path old k ∨ Keeps crc t l.path recs recs.length)
      (l.rewrite crc recs) (Rewritten crc may s l recs) s := by
  unfold LogFile.rewrite
  rw [wp_bind, wp_os]
  have hfailed : ∀ u, Untouched s u l → CanFail may → Rewritten crc may s l recs (true, l) u :=
    fun u hu hcan => ⟨fun _ => ⟨rfl, hu, hcan⟩, fun he => by cases he⟩
  refine ⟨.inl h.keeps, fun x hx => ?_⟩
  cases x with
  | fails n => exact hfailed s ⟨h.ok, rfl, rfl, fun _ _ => rfl⟩ ⟨n, hx⟩
  | ok =>
      obtain ⟨j, hstaged, hnode⟩ := h.staged
      rw [exec]
      generalize s.opened (l.path ++ ".tmp") true = t at hstaged hnode
      generalize s.nextHandle = f at hstaged
      dsimp only
      -- as long as only the temporary file is written, a crash finds the old log
      have hold : ∀ u, Staged s u l f j → Keeps crc u l.path old k := fun u hu =>
        (hu.toUntouched.holds h).keeps
      rw [wp_bind]
      refine wp_appendAll (l := ⟨l.path, f, .new f, 0⟩) rfl hstaged.atEnd
        (fun b => .inl (hold _ (hstaged.grow b))) (fun b buf' hb => ?_) fun hcan b l' => ?_
      · simp only [Bool.false_eq_true, if_false]
        rw [wp_bind]
        refine wp_sync rfl (hstaged.grow b).atEnd
          (fun b' _ => .inl (hold _ ((hstaged.grow b).grow b'))) ?_ (fun hcan => ?_)
          fun hcan b' buf'' _ _ => ?_
        · simp only [Bool.false_eq_true, if_false]
          rw [wp_bind, wp_os, grow_grow, hb]
          have hsettled := (hstaged.grow (frames crc recs)).settle
          obtain ⟨hkeeps, hholds⟩ := hstaged.replaced hnode hrecs (0 + (frames crc recs).length)
            (Nat.zero_add _)
          refine ⟨.inl (hold _ hsettled), fun x hx => ?_⟩
          cases x with
          | fails n =>
              exact wp_giveUp hsettled (.inl (hold _ hsettled)) fun u hu => hfailed u hu ⟨n, hx⟩
          | ok =>
              -- from here on the new log is at the path
              rw [List.nil_append, exec_rename hsettled.tmp]
              simp only [Bool.false_eq_true, if_false]
              generalize ((t.grow f j (frames crc recs)).settle j).renamed
                (l.path ++ ".tmp") l.path j = u at hkeeps hholds
              have hdone : Rewritten crc may s l recs
                  (false, ⟨l.path, f, ⟨f, [], false⟩, 0 + (frames crc recs).length⟩)
                  (u.setHandle l.f none) :=
                ⟨fun he => (by cases he), fun _ => ⟨rfl, rfl, hholds⟩⟩
              rw [wp_bind, wp_os]
              refine ⟨.inr hkeeps, fun x _ => ?_⟩
              cases x with
              | fails n => exact ⟨.inr hkeeps, fun _ _ => hdone⟩
              | ok =>
                  refine ⟨.inr hkeeps, fun _ _ => ⟨.inr hkeeps, fun _ _ => ?_⟩⟩
                  exact ⟨.inr hkeeps, fun _ _ => hdone⟩
        · exact wp_giveUp ((hstaged.grow b).grow buf') (.inl (hold _ ((hstaged.grow b).grow buf')))
            fun u hu => hfailed u hu hcan
        · exact wp_giveUp ((hstaged.grow b).grow b') (.inl (hold _ ((hstaged.grow b).grow b')))
            fun u hu => hfailed u hu hcan
      · exact wp_giveUp (hstaged.grow b) (.inl (hold _ (hstaged.grow b)))
          fun u hu => hfailed u hu hcan

/-! ## All or nothing -/

/-- The log goes on from `recs`, of which the first `k` are synced: after any later `Append`s and
`Sync`s, whichever of their calls fail, `Open` returns `recs` followed by the records whose `Append`
returned nil, or a part of that which has everything synced, with and without a crash.  If the log
has seen no error and no call fails, no operation does. -/
def Continues (crc : List UInt8 → UInt32) (s : Fs) (l : LogFile) (recs : List Record) (k : ℕ) :
    Prop :=
  ∀ ops : List Op, (∀ r, .append r ∈ ops → r.msg.length ≤ 1024) →
    (∀ xs, ((l.session crc ops {}).run exec xs s).Meets (fun o t =>
      Recovers crc t l.path (recs ++ o.2.added) (o.2.durable recs k) ∧
        ∀ keep, Recovers crc (t.crash keep) l.path (recs ++ o.2.added) (o.2.durable recs k))
      fun _ => True) ∧
    (l.w.err = false → ∃ n l' t, (l.session crc ops {}).run exec (List.replicate n .ok) s =
      .returned (l', ops.foldl (fun seen op => seen.next op false) {}) t)

lemma Holds.continues (h : Holds crc s l recs k) : Continues crc s l recs k := by
  intro ops hops
  have hfits : ∀ r, .append r ∈ ops → r.Fits := fun r hr => Record.fits_of_msg_le (hops r hr)
  have h0 : Holds crc s l (recs ++ ({} : Seen).added) (({} : Seen).durable recs k) := by
    rw [List.append_nil]
    exact h
  refine ⟨fun xs => ?_, fun herr => ?_⟩
  · refine (wp_mono (fun _ h => h) (fun o t ho => ?_)
      (Holds.session hfits h0)).sound fun _ (_ : _ ∈ xs) => trivial
    obtain ⟨hholds, hpath, -⟩ := ho
    rw [← hpath]
    exact ⟨hholds.keeps.recovers, fun keep => (hholds.keeps.crash keep).recovers⟩
  · obtain ⟨n, o, t, hrun, -, -, hseen⟩ := (Holds.session hfits h0).returns (x := .ok) rfl
    obtain ⟨l', seen⟩ := o
    exact ⟨n, l', t, by rw [hrun, ← hseen herr not_canFail]⟩

/-- All records are returned if all are synced. -/
lemma Recovers.all {path : String} (h : Recovers crc s path recs recs.length) :
    OpensTo crc s path recs := by
  obtain ⟨got, hopens, hpart, hle⟩ := h
  rwa [hpart.eq_of_length_le hle] at hopens

/-- **Rewrite is all or nothing.**  Let the log hold `old`, with the first `k` records synced, and
let any of the calls `Rewrite` makes fail or a crash stop it in front of any of them.  After a crash
`Open` returns a part of `old` from the front with all synced records, or exactly `recs`.  If
`Rewrite` returns an error, the log and its file are as they were and the log goes on from `old`; if
it returns nil, the size is the length of the frames of `recs` and the log goes on from `recs`.  It
returns nil if no call fails. -/
theorem rewrite_all_or_nothing (h : Holds crc s l old k)
    (hrecs : ∀ r ∈ recs, r.msg.length ≤ 1024) :
    (∀ xs, ((l.rewrite crc recs).run exec xs s).Meets
      (fun o t =>
        (o.1 = true → o.2 = l ∧ Untouched s t l ∧ Continues crc t l old k) ∧
        (o.1 = false → o.2.path = l.path ∧ o.2.w.err = false ∧
          o.2.size = (recs.map fun r => frameHeader + r.bodyLen).sum ∧
          Continues crc t o.2 recs recs.length) ∧
        ∀ keep, Recovers crc (t.crash keep) l.path old k ∨ OpensTo crc (t.crash keep) l.path recs)
      fun t =>
        ∀ keep, Recovers crc (t.crash keep) l.path old k ∨ OpensTo crc (t.crash keep) l.path recs) ∧
    ∃ n l' t, (l.rewrite crc recs).run exec (List.replicate n .ok) s = .returned (false, l') t := by
  have hfits : ∀ r ∈ recs, r.Fits := fun r hr => Record.fits_of_msg_le (hrecs r hr)
  have hcrash : ∀ t : Fs, Keeps crc t l.path old k ∨ Keeps crc t l.path recs recs.length →
      ∀ keep, Recovers crc (t.crash keep) l.path old k ∨ OpensTo crc (t.crash keep) l.path recs :=
    fun t ht keep => ht.imp (fun hold => (hold.crash keep).recovers)
      fun hnew => (hnew.crash keep).recovers.all
  refine ⟨fun xs => ?_, ?_⟩
  · refine (wp_mono hcrash (fun o t ho => ⟨fun hfailed => ?_, fun hnil => ?_, hcrash t ?_⟩)
      (wp_rewrite h hfits)).sound fun _ (_ : _ ∈ xs) => trivial
    · obtain ⟨hlog, huntouched, -⟩ := ho.failed hfailed
      exact ⟨hlog, huntouched, (huntouched.holds h).continues⟩
    · obtain ⟨hpath, herr, hholds⟩ := ho.done hnil
      refine ⟨hpath, herr, ?_, hholds.continues⟩
      rw [hholds.size]
      exact length_frames (Log.opened recs fun _ => false)
    · cases hout : o.1 with
      | true =>
          obtain ⟨-, huntouched, -⟩ := ho.failed hout
          exact .inl (huntouched.holds h).keeps
      | false =>
          obtain ⟨hpath, -, hholds⟩ := ho.done hout
          exact .inr (hpath ▸ hholds.keeps)
  · obtain ⟨n, o, t, hrun, hpost⟩ := (wp_rewrite h hfits).returns (x := .ok) rfl
    obtain ⟨_ | _, l'⟩ := o
    · exact ⟨n, l', t, hrun⟩
    · exact absurd (hpost.failed rfl).2.2 not_canFail

/-- A file system without files. -/
def emptyDisk : Fs := ⟨fun _ => none, fun _ => ⟨[], 0⟩, fun _ => none, 0, 0⟩

lemma emptyDisk_ok : emptyDisk.Ok where
  names_lt _ _ h := by cases h
  names_inj _ _ _ h := by cases h
  handles_lt _ _ h := by cases h

/-- A log with two records, of which the first is synced. -/
lemma holds_twoDrops : ∃ s l, Holds (fun _ => 0) s l twoDrops 1 := by
  obtain ⟨t, hrun⟩ : ∃ t, (openLog (fun _ => 0) "log").run exec [.ok, .ok, .ok, .ok] emptyDisk =
      .returned (some (⟨"log", 0, .new 0, 0⟩, [])) t := ⟨_, rfl⟩
  have hopen := (holds_openLog (fun _ => 0) (opened_of_none rfl) rfl (emptyDisk_ok.create "log")
    ((create_names _ _ _).trans (if_pos rfl))).sound
    fun _ (_ : _ ∈ [Luck.ok, .ok, .ok, .ok]) => trivial
  rw [hrun] at hopen
  have hholds : Holds (fun _ => 0) t ⟨"log", 0, .new 0, 0⟩ ([] ++ ({} : Seen).added) 0 :=
    hopen _ _ rfl 0 le_rfl (Nat.zero_le _)
  have hops : ∀ r, .append r ∈ [Op.append (.jobDrop ⟨1⟩), .sync, .append (.jobDrop ⟨2⟩)] →
      r.Fits := by
    intro r hr
    simp only [List.mem_cons, Op.append.injEq, reduceCtorEq, List.not_mem_nil, or_false,
      false_or] at hr
    rcases hr with rfl | rfl <;> exact Record.fits_of_msg_le (Nat.zero_le _)
  obtain ⟨n, ⟨l, seen⟩, u, -, hsession, -, hseen⟩ :=
    (Holds.session hops (k := 0) hholds).returns (x := .ok) rfl
  have hseen' := hseen rfl not_canFail
  subst hseen'
  exact ⟨u, l, hsession⟩

theorem rewrite_all_or_nothing_twoDrops :
    ∃ s l n l' t, Holds (fun _ => 0) s l twoDrops 1 ∧
      (l.rewrite (fun _ => 0) [.jobDrop ⟨3⟩]).run exec (List.replicate n .ok) s =
        .returned (false, l') t ∧
      l'.size = 17 ∧ Continues (fun _ => 0) t l' [.jobDrop ⟨3⟩] 1 := by
  obtain ⟨s, l, hholds⟩ := holds_twoDrops
  have hmsg : ∀ r ∈ [Record.jobDrop ⟨3⟩], r.msg.length ≤ 1024 := by decide
  obtain ⟨hall, n, l', t, hrun⟩ := rewrite_all_or_nothing hholds hmsg
  have hmeets := hall (List.replicate n .ok)
  rw [hrun] at hmeets
  obtain ⟨-, hnil, -⟩ := hmeets
  obtain ⟨-, -, hsize, hcontinues⟩ := hnil rfl
  exact ⟨s, l, n, l', t, hholds, hrun, hsize, hcontinues⟩

end RudpScheduler.Wal
