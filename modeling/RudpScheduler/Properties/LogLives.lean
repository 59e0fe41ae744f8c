import RudpScheduler.Construction.Cluster
import RudpScheduler.Properties.DirtyFlag
import RudpScheduler.Properties.Rewrite

/-!
# The log over many lives

A process opens its log, makes calls on it, and ends: by `Close`, or because the process dies or the
whole machine crashes, in front of any call to the operating system.  Then another process opens the
log.  `Disk` is this at the level of `wal.go` and the file system, with any of the calls failing;
`Spec` is the same with the `Log` of the aggregator's model in the place of the file.

`log_file_refines_log` says that nobody can tell the two apart, as long as the message strings that
are logged have at most 1024 bytes.  Whatever the owners of the log have seen, which records `Open`
returned, which calls reported an error and what `Size` was after them, the coarse log can show as
well.  So what is proved of the aggregator over a `Log`, crashes included, holds of it over the
file.

When a process dies and the machine does not, what was written is still there but need not be on
stable storage, and a later crash of the machine may take it.  `Rests` is the state of a file nobody
has open.
-/

namespace RudpScheduler

namespace Log

/-- The log when the next call reports `failed`. -/
def reporting (l : Log) (failed : Bool) : Log := { l with fails := fun _ => failed }

/-- What is left when a process stops, or a machine. -/
def stopped (l : Log) (machine : Bool) (keep : ℕ) : Log :=
  if machine then opened (l.survivors keep) l.fails else { l with recs := l.survivors keep }

end Log

/-- The records of a call. -/
def LogCall.records : LogCall → List Record
  | .append r => [r]
  | .sync => []
  | .rewrite recs => recs

/-- The records of a call fit into their frames. -/
def LogCall.Fits (c : LogCall) : Prop := ∀ r ∈ c.records, r.Fits

namespace Wal

open Fs Prog

/-! ## Lives of the file -/

/-- What the owner of the log sees. -/
inductive Sight
  | opened (recs : List Record)
  | returned (c : LogCall) (failed : Bool) (size : ℕ)
  | closed (failed : Bool)
  deriving DecidableEq, Repr

/-- A call of a method of the log. -/
def LogFile.call (crc : List UInt8 → UInt32) (l : LogFile) : LogCall → Proc (Bool × LogFile)
  | .append r => l.append crc r
  | .sync => l.sync
  | .rewrite recs => l.rewrite crc recs

/-- `Close`: whether it failed. -/
def LogFile.close (l : LogFile) : Proc Bool := do
  let (failed, _) ← l.sync
  let failed' ← os (.close l.f)
  return failed || failed'

/-- What a process does with the log. -/
inductive Work
  | openLog
  | call (c : LogCall)
  | close
  deriving DecidableEq, Repr

/-- The file system, the log if a process has it open, and what its owners have seen. -/
structure Disk where
  fs : Fs
  log : Option LogFile
  seen : List Sight

inductive DiskAction
  /-- Some work, which comes to its end; `xs` says which calls fail. -/
  | work (w : Work) (xs : List Luck)
  /-- The machine crashes, in front of a call of some work or between two. -/
  | crash (w : Option Work) (xs : List Luck) (keep : ℕ → ℕ)
  /-- The process dies. -/
  | exit (w : Option Work) (xs : List Luck)

namespace Disk

variable (crc : List UInt8 → UInt32) (path : String)

/-- The program for some work: it returns the log if it is open afterwards, and what was seen. -/
def begin (d : Disk) : Work → Option (Proc (Option LogFile × List Sight))
  | .openLog =>
    match d.log with
    | some _ => none
    | none => some do
      match ← Wal.openLog crc path with
      | some (l, recs) => return (some l, [.opened recs])
      | none => return (none, [])
  | .call c => d.log.map fun l => do
    let (failed, l) ← l.call crc c
    return (some l, [.returned c failed l.size])
  | .close => d.log.map fun l => do
    let failed ← l.close
    return (none, [.closed failed])

/-- The file system when some work is stopped in front of a call. -/
def halt (d : Disk) (xs : List Luck) : Option Work → Option Fs
  | none => some d.fs
  | some w => (d.begin crc path w).bind fun p =>
    match p.run exec xs d.fs with
    | .halted t => some t
    | _ => none

def step (d : Disk) : DiskAction → Option Disk
  | .work w xs => (d.begin crc path w).bind fun p =>
    match p.run exec xs d.fs with
    | .returned (l, out) t => some ⟨t, l, d.seen ++ out⟩
    | _ => none
  | .crash w xs keep => (d.halt crc path xs w).map fun t => ⟨t.crash keep, none, d.seen⟩
  | .exit w xs => (d.halt crc path xs w).map fun t => ⟨t.closeAll, none, d.seen⟩

end Disk

/-! ## Lives of the coarse log -/

/-- The coarse log, whether a process has it open, and what its owners have seen. -/
structure Spec where
  log : Log
  up : Bool
  seen : List Sight

inductive SpecAction
  | openLog
  | call (c : LogCall) (failed : Bool)
  /-- `Close`; if it fails, at least `keep` records are in the file. -/
  | close (failed : Bool) (keep : ℕ)
  /-- The process or the machine stops, after a call that took effect but did not return. -/
  | stop (done : Option LogCall) (machine : Bool) (keep : ℕ)

namespace Spec

/-- Nobody has opened the log yet. -/
def init : Spec := ⟨Log.opened [] fun _ => false, false, []⟩

def step (a : Spec) : SpecAction → Option Spec
  | .openLog =>
    if a.up then none else some { a with up := true, seen := a.seen ++ [.opened a.log.recs] }
  | .call c failed =>
    if a.up then
      let l := (a.log.reporting failed).exec c
      some { a with log := l, seen := a.seen ++ [.returned c failed l.size] }
    else none
  | .close failed keep =>
    if a.up then
      some ⟨((a.log.reporting failed).exec .sync).stopped false keep, false,
        a.seen ++ [.closed failed]⟩
    else none
  | .stop none machine keep => some { a with log := a.log.stopped machine keep, up := false }
  | .stop (some c) machine keep =>
    if a.up then
      some { a with log := ((a.log.reporting false).exec c).stopped machine keep, up := false }
    else none

end Spec

/-! ## Files nobody has open -/

variable {crc : List UInt8 → UInt32} {node : Inode} {recs : List Record} {k : ℕ} {s t : Fs}
  {path : String} {l : LogFile} {may : Luck → Prop}

/-- What is read back is all the file bears. -/
lemma Bears.found (h : Bears crc node recs k) :
    ∃ j, k ≤ j ∧ j ≤ recs.length ∧ Bears crc node (recs.take j) k ∧
      Wal.readAll crc node.data = .ok (recs.take j, (frames crc (recs.take j)).length) ∧
      (frames crc (recs.take j)).length ≤ node.data.length := by
  obtain ⟨j, hk, hj, hread⟩ := h.readAll
  obtain ⟨r, hr, hpart, hne⟩ := h.torn
  have hfits : ∀ r' ∈ recs ++ [r], r'.Fits :=
    List.forall_mem_append.mpr ⟨h.fits, List.forall_mem_singleton.mpr hr⟩
  have hlen : (recs ++ [r]).length = recs.length + 1 := by simp
  obtain ⟨j', hj', rest, heq, hstops, hshort, hlong⟩ := take_frames crc hfits node.data.length
  rw [← List.prefix_iff_eq_take.mp hpart] at heq
  -- the reader has found these frames and no more
  obtain rfl : j' = j := by
    have hfits' : ∀ r' ∈ (recs ++ [r]).take j', r'.Fits := fun r' hr' =>
      hfits r' (List.mem_of_mem_take hr')
    have hread' := readAll_frames hfits' hstops
    rw [← heq, hread] at hread'
    have htake := congrArg List.length (Prod.mk.inj (Except.ok.inj hread')).1
    rw [List.length_take, List.length_take] at htake
    omega
  have htake : (recs ++ [r]).take j' = recs.take j' := List.take_append_of_le_length hj
  have hnext : (recs ++ [r]).take (j' + 1) = recs.take j' ++ [(recs ++ [r])[j']] := by
    rw [List.take_succ_eq_append_getElem (by omega), htake]
  have hlt := hlong (by omega)
  rw [hnext] at hlt
  refine ⟨j', hk, hj, ⟨fun r' hr' => h.fits r' (List.mem_of_mem_take hr'), ?_, h.synced_le, ?_,
    (recs ++ [r])[j'], hfits _ (List.getElem_mem _), ?_, fun he => ?_⟩, hread, ?_⟩
  · rw [List.length_take]
    omega
  · rw [List.take_take, min_eq_left hk]
    exact h.durable
  · refine List.prefix_of_prefix_length_le hpart ?_ hlt.le
    rw [← hnext]
    nth_rewrite 2 [← List.take_append_drop (j' + 1) (recs ++ [r])]
    rw [frames_append]
    exact List.prefix_append _ _
  · rw [he] at hlt
    exact lt_irrefl _ hlt
  · rw [← htake]
    exact hshort hpart.length_le

lemma Bears.mono (h : Bears crc node recs k) {k' : ℕ} (hk : k' ≤ k) : Bears crc node recs k' :=
  { h with le := hk.trans h.le, durable := (length_frames_take_le crc recs hk).trans h.durable }

/-- A file that nobody has open: `Open` finds `recs`, of which the first `k` are synced. -/
structure Rests (crc : List UInt8 → UInt32) (s : Fs) (path : String) (recs : List Record) (k : ℕ) :
    Prop where
  ok : s.Ok
  file : s.names path = none ∧ recs = [] ∧ k = 0 ∨
    ∃ i, s.names path = some i ∧ Bears crc (s.inodes i) recs k ∧
      Wal.readAll crc (s.inodes i).data = .ok (recs, (frames crc recs).length)

/-- The process that had the log open stops using it. -/
lemma Keeps.rests (h : Keeps crc s path recs k) (hok : s.Ok) :
    ∃ j, k ≤ j ∧ j ≤ recs.length ∧ Rests crc s path (recs.take j) k := by
  obtain ⟨i, hi, hbears⟩ := h
  obtain ⟨j, hk, hj, hbears', hread, -⟩ := hbears.found
  exact ⟨j, hk, hj, hok, .inr ⟨i, hi, hbears', hread⟩⟩

/-- The machine crashes: what is left is on stable storage. -/
lemma Keeps.rests_crash (h : Keeps crc s path recs k) (hok : s.Ok) (keep : ℕ → ℕ) :
    ∃ j, k ≤ j ∧ j ≤ recs.length ∧ Rests crc (s.crash keep) path (recs.take j) j := by
  obtain ⟨i, hi, hbears⟩ := h.crash keep
  obtain ⟨j, hk, hj, hbears', hread, hlen⟩ := hbears.found
  refine ⟨j, hk, hj, hok.crash keep, .inr ⟨i, hi, ?_, hread⟩⟩
  refine { hbears' with le := ?_, durable := ?_ }
  · rw [List.length_take]
    omega
  · rw [List.take_take, min_self]
    exact hlen

lemma Rests.le (h : Rests crc s path recs k) : k ≤ recs.length := by
  rcases h.file with ⟨-, rfl, rfl⟩ | ⟨i, -, hbears, -⟩
  · exact le_rfl
  · exact hbears.le

/-- A file nobody has open, when a process dies that was about to open it, or the machine. -/
lemma Rests.closeAll (h : Rests crc s path recs k) : Rests crc s.closeAll path recs k :=
  ⟨h.ok.closeAll, h.file⟩

lemma Rests.crash (h : Rests crc s path recs k) (keep : ℕ → ℕ) :
    ∃ j, k ≤ j ∧ j ≤ recs.length ∧ Rests crc (s.crash keep) path (recs.take j) j := by
  rcases h.file with ⟨hnone, rfl, rfl⟩ | ⟨i, hi, hbears, -⟩
  · exact ⟨0, le_rfl, le_rfl, h.ok.crash keep, .inl ⟨hnone, rfl, rfl⟩⟩
  · exact Keeps.rests_crash ⟨i, hi, hbears⟩ h.ok keep

/-! ## Work that is stopped -/

/-- Wherever `Append` is stopped, the file bears the records and at most the new one. -/
lemma Holds.append_stopped (h : Holds crc s l recs k) {r : Record} (hr : r.Fits) :
    wp exec may (fun t => Keeps crc t l.path (recs ++ [r]) k) (l.append crc r)
      (fun _ _ => True) s := by
  obtain ⟨i, hi, hat, hbears, hdata⟩ := h.file
  have hw : l.w = ⟨l.f, l.w.buf, l.w.err⟩ := by rw [← h.handle]
  cases herr : l.w.err with
  | true =>
      rw [herr] at hw
      exact wp_append_of_err hw trivial
  | false =>
      rw [herr] at hw
      have hall : (s.inodes i).data ++ (l.w.buf ++ framed crc r) = frames crc (recs ++ [r]) := by
        rw [← List.append_assoc, hdata herr, frames_append, frames_cons, frames_nil,
          List.append_nil]
      refine wp_append hw hat (fun b hb => ?_) (fun _ _ _ => trivial) fun _ _ _ _ _ => trivial
      obtain ⟨rest, hrest⟩ := hb
      have hsplit : (s.inodes i).data ++ b ++ rest = frames crc (recs ++ [r]) := by
        rw [List.append_assoc, hrest, hall]
      refine ⟨i, hi, ?_⟩
      rw [grow_inodes_self]
      refine ⟨List.forall_mem_append.mpr ⟨hbears.fits, List.forall_mem_singleton.mpr hr⟩, ?_, ?_,
        ?_, torn_of_append hsplit⟩
      · rw [List.length_append]
        exact hbears.le.trans (Nat.le_add_right _ _)
      · rw [List.length_append]
        exact hbears.synced_le.trans (Nat.le_add_right _ _)
      · rw [List.take_append_of_le_length hbears.le]
        exact hbears.durable

/-- Wherever `Sync` is stopped, the file bears the records. -/
lemma Holds.sync_stopped (h : Holds crc s l recs k) :
    wp exec may (fun t => Keeps crc t l.path recs k) l.sync (fun _ _ => True) s := by
  obtain ⟨i, hi, hat, hbears, hdata⟩ := h.file
  have hw : l.w = ⟨l.f, l.w.buf, l.w.err⟩ := by rw [← h.handle]
  cases herr : l.w.err with
  | true =>
      rw [herr] at hw
      exact wp_sync_of_err hw trivial
  | false =>
      rw [herr] at hw
      refine wp_sync hw hat (fun b hb => ?_) trivial (fun _ => trivial) fun _ _ _ _ _ => trivial
      obtain ⟨rest, hrest⟩ := hb
      have hsplit : (s.inodes i).data ++ b ++ rest = frames crc recs := by
        rw [List.append_assoc, hrest, hdata herr]
      refine ⟨i, hi, ?_⟩
      rw [grow_inodes_self]
      refine { hbears with synced_le := ?_, torn := torn_of_append hsplit }
      rw [List.length_append]
      exact hbears.synced_le.trans (Nat.le_add_right _ _)

variable {L M : Log} {c : LogCall}

/-- A call on the file does what it does to the coarse log; where it is stopped, the file bears the
log as it was, or as after the call. -/
lemma Holds.call (h : Holds crc s l L.recs L.synced) (hc : c.Fits) :
    wp exec may
      (fun t => ∃ M, (M = L ∨ M = (L.reporting false).exec c) ∧
        Keeps crc t l.path M.recs M.synced)
      (l.call crc c)
      (fun o t => o.2.path = l.path ∧
        Holds crc t o.2 ((L.reporting o.1).exec c).recs ((L.reporting o.1).exec c).synced) s := by
  cases c with
  | append r =>
      refine wp_mono (fun t ht => ?_) (fun o t ho => ?_)
        (wp_and (h.append_stopped (hc r (List.mem_singleton_self r)))
          (h.append (hc r (List.mem_singleton_self r))))
      · exact ⟨_, .inr rfl, ht.1⟩
      · obtain ⟨failed, l'⟩ := o
        refine ⟨ho.2.2.1, ?_⟩
        have hholds := ho.2.1
        cases failed with
        | true => exact hholds
        | false => exact hholds
  | sync =>
      refine wp_mono (fun t ht => ?_) (fun o t ho => ?_) (wp_and h.sync_stopped h.sync)
      · exact ⟨_, .inl rfl, ht.1⟩
      · obtain ⟨failed, l'⟩ := o
        refine ⟨ho.2.2.1, ?_⟩
        have hholds := ho.2.1
        cases failed with
        | true => exact hholds
        | false => exact hholds
  | rewrite recs =>
      refine wp_mono (fun t ht => ?_) (fun o t ho => ?_) (wp_rewrite h hc)
      · rcases ht with ht | ht
        · exact ⟨_, .inl rfl, ht⟩
        · exact ⟨_, .inr rfl, ht⟩
      · obtain ⟨failed, l'⟩ := o
        cases failed with
        | true =>
            obtain ⟨hl, huntouched, -⟩ := ho.failed rfl
            rw [show l' = l from hl]
            exact ⟨rfl, huntouched.holds h⟩
        | false =>
            obtain ⟨hpath, -, hholds⟩ := ho.done rfl
            exact ⟨hpath, hholds⟩

/-- `Close` syncs the log. -/
lemma Holds.close (h : Holds crc s l L.recs L.synced) :
    wp exec may (fun t => Keeps crc t l.path L.recs L.synced) l.close
      (fun failed t => Keeps crc t l.path ((L.reporting failed).exec .sync).recs
        ((L.reporting failed).exec .sync).synced) s := by
  unfold LogFile.close
  rw [wp_bind]
  refine wp_mono (fun t ht => ht.1) (fun o t ho => ?_) (wp_and h.sync_stopped h.sync)
  obtain ⟨failed, l'⟩ := o
  obtain ⟨hholds, hpath, -⟩ := ho.2
  dsimp only at hholds hpath ⊢
  have hkeeps := hholds.keeps
  rw [hpath] at hkeeps
  have hold : Keeps crc t l.path L.recs L.synced := by
    obtain ⟨i, hi, hbears⟩ := hkeeps
    refine ⟨i, hi, hbears.mono ?_⟩
    split_ifs
    · exact le_rfl
    · exact h.keeps.choose_spec.2.le
  rw [wp_bind, wp_os]
  refine ⟨hold, fun x _ => ?_⟩
  -- closing the handle does not touch the file
  have hclosed : ∀ recs k, Keeps crc t l.path recs k →
      Keeps crc (t.exec (.close l.f) x).2 l.path recs k := fun recs k hk => hk
  rw [wp_pure]
  generalize hany : (failed || (t.exec (.close l.f) x).1) = any
  cases any with
  | true => exact hclosed _ _ hold
  | false =>
      rw [(Bool.or_eq_false_iff.mp hany).1] at hkeeps
      exact hclosed _ _ hkeeps

/-- The file `Open` works on, which it may have to create. -/
lemma Rests.opened (h : Rests crc s path recs k) :
    ∃ (u : Fs) (i : ℕ), s.opened path false = u.newHandle i ∧ u.nextHandle = s.nextHandle ∧ u.Ok ∧
      u.names path = some i ∧ Bears crc (u.inodes i) recs k ∧
      Wal.readAll crc (u.inodes i).data = .ok (recs, (frames crc recs).length) := by
  rcases h.file with ⟨hnone, rfl, rfl⟩ | ⟨i, hi, hbears, hread⟩
  · have hnode : (s.create path).inodes s.nextInode = ⟨[], 0⟩ := Function.update_self ..
    refine ⟨s.create path, s.nextInode, opened_of_none hnone, rfl, h.ok.create path,
      (create_names _ _ _).trans (if_pos rfl), ?_, ?_⟩
    · rw [hnode]
      exact ⟨by simp, le_rfl, le_rfl, le_rfl, torn_of_append (List.append_nil _)⟩
    · rw [hnode]
      have hfits : ∀ r ∈ ([] : List Record), r.Fits := by simp
      exact readAll_frames hfits (stops_nil crc)
  · exact ⟨s, i, opened_of_some hi, rfl, h.ok, hi, hbears, hread⟩

/-- The file is cut behind the last record. -/
lemma resize_readAll (hread : Wal.readAll crc node.data = .ok (recs, (frames crc recs).length)) :
    node.resize (frames crc recs).length =
      ⟨frames crc recs, min node.synced (frames crc recs).length⟩ := by
  obtain ⟨rs, rest, heq, -, hloop⟩ := readLoop_spec crc node.data.length node.data [] 0
  rw [← Wal.readAll, hread, List.nil_append, Nat.zero_add] at hloop
  obtain ⟨rfl, -⟩ := Prod.mk.inj (Except.ok.inj hloop)
  rw [Inode.resize, heq, List.take_left, List.length_append, Nat.sub_eq_zero_of_le (by omega),
    List.replicate_zero, List.append_nil]

/-- What `Open` returns and leaves. -/
structure Opens (crc : List UInt8 → UInt32) (path : String) (recs : List Record) (k : ℕ)
    (o : Option (LogFile × List Record)) (t : Fs) : Prop where
  done : ∀ l got, o = some (l, got) → got = recs ∧ l.path = path ∧ Holds crc t l recs k
  failed : o = none → Rests crc t path recs k

/-- When something fails the file is closed again. -/
lemma Rests.giveUp (h : Rests crc s path recs k) (f : ℕ) :
    wp exec may (fun t => Rests crc t path recs k) (os (.close f) >>= fun _ => pure none)
      (Opens crc path recs k) s := by
  refine ⟨h, fun _ _ => ⟨fun _ _ ho => absurd ho (Option.some_ne_none _).symm, fun _ => ?_⟩⟩
  exact ⟨h.ok.setHandle fun hne => absurd rfl hne, h.file⟩

/-- `Open` returns the records the file bears; where it is stopped, and when it fails, the file is
as it was but for what follows the records. -/
lemma Rests.openLog (h : Rests crc s path recs k) :
    wp exec may (fun t => Rests crc t path recs k) (openLog crc path)
      (Opens crc path recs k) s := by
  obtain ⟨u, i, hopened, hnext, hok, hi, hbears, hread⟩ := h.opened
  have hlen := length_frames_take_le crc recs hbears.le
  rw [List.take_length] at hlen
  -- the inode stays as it was until it is cut
  have hrest : ∀ t : Fs, t.Ok → t.names = u.names → t.inodes i = u.inodes i →
      Rests crc t path recs k := by
    intro t ht hnames hnode
    refine ⟨ht, .inr ⟨i, by rw [hnames]; exact hi, ?_⟩⟩
    rw [hnode]
    exact ⟨hbears, hread⟩
  have hbears' : Bears crc ⟨frames crc recs, min (u.inodes i).synced (frames crc recs).length⟩ recs
      k :=
    ⟨hbears.fits, hbears.le, min_le_right _ _, le_min hbears.durable hlen,
      torn_of_append (List.append_nil _)⟩
  have hcut : ∀ t : Fs, t.Ok → t.names = u.names →
      t.inodes i = ⟨frames crc recs, min (u.inodes i).synced (frames crc recs).length⟩ →
      Rests crc t path recs k := by
    intro t ht hnames hnode
    refine ⟨ht, .inr ⟨i, by rw [hnames]; exact hi, ?_⟩⟩
    have hall := readAll_frames hbears.fits (stops_nil crc)
    rw [List.append_nil] at hall
    rw [hnode]
    exact ⟨hbears', hall⟩
  unfold Wal.openLog
  rw [wp_bind, wp_os]
  refine ⟨h, fun x _ => ?_⟩
  cases x with
  | fails n => exact ⟨fun _ _ ho => absurd ho (Option.some_ne_none _).symm, fun _ => h⟩
  | ok =>
      rw [exec, hopened, ← hnext]
      dsimp only
      rw [wp_bind, wp_os]
      refine ⟨hrest _ (hok.newHandle i) rfl rfl, fun x _ => ?_⟩
      rw [exec_read (newHandle_handles_self u i)]
      have hdata : ((u.newHandle i).inodes i).data.drop 0 = (u.inodes i).data := rfl
      dsimp only
      rw [wp_bind, hdata, hread, wp_lift_ok]
      dsimp only
      have hok1 : ((u.newHandle i).setHandle u.nextHandle
          (some ⟨i, ((u.newHandle i).inodes i).data.length⟩)).Ok :=
        (hok.newHandle i).setHandle fun _ => Nat.lt_succ_self _
      have hrest1 := hrest _ hok1 rfl rfl
      rw [wp_bind, wp_os]
      refine ⟨hrest1, fun x _ => ?_⟩
      cases x with
      | fails n => exact hrest1.giveUp _
      | ok =>
          rw [exec_truncate (setHandle_handles_self _ _ _)]
          have hok2 := hok1.setInode i ((u.inodes i).resize (frames crc recs).length)
          have hnode := (setInode_inodes_self ((u.newHandle i).setHandle u.nextHandle
            (some ⟨i, ((u.newHandle i).inodes i).data.length⟩)) i
              ((u.inodes i).resize (frames crc recs).length)).trans (resize_readAll hread)
          have hcut2 := hcut _ hok2 rfl hnode
          refine ⟨hcut2, fun x _ => ?_⟩
          cases x with
          | fails n => exact hcut2.giveUp _
          | ok =>
              have hhandle : ∀ (v : Fs) x node,
                  ((v.setHandle u.nextHandle x).setInode i node).handles u.nextHandle = x :=
                fun v x _ => setHandle_handles_self v u.nextHandle x
              rw [exec_seek (hhandle _ _ _)]
              refine ⟨fun l got ho => ?_, fun ho => absurd ho (Option.some_ne_none _)⟩
              obtain ⟨rfl, rfl⟩ := Prod.mk.inj (Option.some_inj.mp ho)
              refine ⟨rfl, rfl, hok2.setHandle fun _ => Nat.lt_succ_self _, rfl, rfl, i, hi,
                ⟨?_, ?_⟩, ?_, fun _ => ?_⟩
              · refine (setHandle_handles_self _ _ _).trans ?_
                exact congrArg (fun node : Inode => some (Handle.mk i node.data.length)) hnode.symm
              · exact (congrArg (fun node : Inode => node.synced ≤ node.data.length) hnode).mpr
                  (min_le_right _ _)
              · exact (congrArg (fun node => Bears crc node recs k) hnode).mpr hbears'
              · exact (congrArg (fun node : Inode => node.data ++ []) hnode).trans
                  (List.append_nil _)

/-! ## The coarse log can do the same -/

lemma survivors_of_le (hbase : M.base ≤ M.synced) {j : ℕ} (hj : M.synced ≤ j) :
    M.survivors j = M.recs.take j := by
  rw [Log.survivors, max_eq_left hbase, max_eq_left hj]

/-- A call keeps what the last `Rewrite` wrote within what is synced. -/
lemma exec_base (hbase : L.base ≤ L.synced) (hsynced : L.synced ≤ L.recs.length) (failed : Bool)
    (c : LogCall) :
    ((L.reporting failed).exec c).base ≤ ((L.reporting failed).exec c).synced := by
  cases failed with
  | true => cases c <;> exact hbase
  | false =>
      cases c with
      | append r => exact hbase
      | sync => exact hbase.trans hsynced
      | rewrite recs => exact le_rfl

/-- A state of the file and a state of the coarse log that has been seen to do the same. -/
structure Refines (crc : List UInt8 → UInt32) (path : String) (d : Disk) (a : Spec) : Prop where
  seen : d.seen = a.seen
  base : a.log.base ≤ a.log.synced
  up : a.up = d.log.isSome
  holds : ∀ l, d.log = some l → l.path = path ∧ Holds crc d.fs l a.log.recs a.log.synced
  rests : d.log = none → Rests crc d.fs path a.log.recs a.log.synced

/-- The coarse log gets from `a` to a state that refines `d`. -/
def Follows (crc : List UInt8 → UInt32) (path : String) (a : Spec) (d : Disk) : Prop :=
  ∃ b, Reaches Spec.step a b ∧ Refines crc path d b

variable {a : Spec} {d : Disk}

lemma Refines.of_rests {seen : List Sight} (h : Rests crc t path L.recs L.synced)
    (hbase : L.base ≤ L.synced) : Refines crc path ⟨t, none, seen⟩ ⟨L, false, seen⟩ :=
  ⟨rfl, hbase, rfl, fun _ hl => absurd hl (Option.some_ne_none _).symm, fun _ => h⟩

/-- The coarse log can be left as the file is when the process, or the machine, stops at `t`. -/
structure Halts (crc : List UInt8 → UInt32) (path : String) (M : Log) (seen : List Sight) (t : Fs) :
    Prop where
  crash : ∀ keep, ∃ j,
    Refines crc path ⟨t.crash keep, none, seen⟩ ⟨M.stopped true j, false, seen⟩
  exit : ∃ j, Refines crc path ⟨t.closeAll, none, seen⟩ ⟨M.stopped false j, false, seen⟩

lemma stopped_crash {j : ℕ} (hbase : M.base ≤ M.synced) (hk : M.synced ≤ j)
    (hj : j ≤ M.recs.length) (h : Rests crc t path (M.recs.take j) j) (seen : List Sight) :
    Refines crc path ⟨t, none, seen⟩ ⟨M.stopped true j, false, seen⟩ := by
  refine Refines.of_rests ?_ le_rfl
  rw [Log.stopped, if_pos rfl, survivors_of_le hbase hk]
  show Rests crc t path (M.recs.take j) (M.recs.take j).length
  rw [List.length_take, min_eq_left hj]
  exact h

lemma stopped_exit {j : ℕ} (hbase : M.base ≤ M.synced) (hk : M.synced ≤ j)
    (h : Rests crc t path (M.recs.take j) M.synced) (seen : List Sight) :
    Refines crc path ⟨t, none, seen⟩ ⟨M.stopped false j, false, seen⟩ := by
  refine Refines.of_rests ?_ hbase
  rw [Log.stopped, if_neg Bool.false_ne_true, survivors_of_le hbase hk]
  exact h

/-- In the middle of a call. -/
lemma Keeps.halts (h : Keeps crc t path M.recs M.synced) (hok : t.Ok) (hbase : M.base ≤ M.synced)
    (seen : List Sight) : Halts crc path M seen t where
  crash keep := by
    obtain ⟨j, hk, hj, hrests⟩ := h.rests_crash hok keep
    exact ⟨j, stopped_crash hbase hk hj hrests seen⟩
  exit := by
    obtain ⟨j, hk, hj, hrests⟩ := h.rests hok
    exact ⟨j, stopped_exit hbase hk hrests.closeAll seen⟩

/-- Before or in the middle of `Open`. -/
lemma Rests.halts (h : Rests crc t path M.recs M.synced) (hbase : M.base ≤ M.synced)
    (seen : List Sight) : Halts crc path M seen t where
  crash keep := by
    obtain ⟨j, hk, hj, hrests⟩ := h.crash keep
    exact ⟨j, stopped_crash hbase hk hj hrests seen⟩
  exit := by
    refine ⟨M.recs.length, stopped_exit hbase h.le ?_ seen⟩
    rw [List.take_length]
    exact h.closeAll

/-- The records of some work. -/
def Work.records : Work → List Record
  | .call c => c.records
  | _ => []

/-- The log that some work is stopped with: as it was, or as after the call it made. -/
def Stopped (a : Spec) (done : Option LogCall) : Log :=
  done.elim a.log fun c => (a.log.reporting false).exec c

/-- Whatever work does, the coarse log can do, and where it is stopped, the coarse log can stop. -/
lemma Refines.begin (h : Refines crc path d a) {w : Work} (hw : ∀ r ∈ w.records, r.Fits)
    {p : Proc (Option LogFile × List Sight)} (hp : d.begin crc path w = some p) :
    wp exec (fun _ => True)
      (fun t => ∃ done, (done ≠ none → a.up = true) ∧ Halts crc path (Stopped a done) a.seen t) p
      (fun o t => Follows crc path a ⟨t, o.1, d.seen ++ o.2⟩) d.fs := by
  cases w with
  | openLog =>
      cases hlog : d.log with
      | some l => simp [Disk.begin, hlog] at hp
      | none =>
          simp only [Disk.begin, hlog, Option.some_inj] at hp
          have hdown : a.up = false := by rw [h.up, hlog]; rfl
          subst hp
          rw [wp_bind]
          refine wp_mono (fun t ht => ⟨none, fun hne => absurd rfl hne, ht.halts h.base _⟩)
            (fun o t ho => ?_) (h.rests hlog).openLog
          cases o with
          | none =>
              refine ⟨a, Reaches.refl _ _, ?_⟩
              rw [List.append_nil]
              exact ⟨h.seen, h.base, by rw [hdown]; rfl, by simp, fun _ => ho.failed rfl⟩
          | some o =>
              obtain ⟨l, got⟩ := o
              obtain ⟨rfl, hpath, hholds⟩ := ho.done l got rfl
              refine ⟨{ a with up := true, seen := a.seen ++ [.opened a.log.recs] },
                Reaches.single (a := .openLog) (by simp [Spec.step, hdown]), ?_⟩
              refine ⟨by rw [h.seen], h.base, rfl, fun l' hl' => ?_, by simp⟩
              obtain rfl := Option.some_inj.mp hl'
              exact ⟨hpath, hholds⟩
  | call c =>
      cases hlog : d.log with
      | none => simp [Disk.begin, hlog] at hp
      | some l =>
          simp only [Disk.begin, hlog, Option.map_some, Option.some_inj] at hp
          have hup : a.up = true := by rw [h.up, hlog]; rfl
          obtain ⟨hpath, hholds⟩ := h.holds l hlog
          have hsynced := hholds.keeps.choose_spec.2.le
          subst hp
          rw [wp_bind]
          refine wp_mono (fun t ht => ?_) (fun o t ho => ?_)
            ((hholds.call hw).keeps (P := Fs.Ok) (fun _ c x hs => hs.exec c x) hholds.ok)
          · obtain ⟨⟨M, hM, hkeeps⟩, hok⟩ := ht
            rw [hpath] at hkeeps
            rcases hM with rfl | rfl
            · exact ⟨none, fun hne => absurd rfl hne, hkeeps.halts hok h.base _⟩
            · exact ⟨some c, fun _ => hup,
                hkeeps.halts hok (exec_base h.base hsynced false c) _⟩
          · obtain ⟨failed, l'⟩ := o
            obtain ⟨⟨hpath', hholds'⟩, -⟩ := ho
            have hsize : l'.size = ((a.log.reporting failed).exec c).size :=
              hholds'.size.trans (length_frames _)
            refine ⟨_, Reaches.single (a := .call c failed) (if_pos hup), ?_⟩
            refine ⟨by rw [h.seen, hsize], exec_base h.base hsynced failed c, hup,
              fun l'' hl'' => ?_, by simp⟩
            obtain rfl := Option.some_inj.mp hl''
            exact ⟨hpath'.trans hpath, hholds'⟩
  | close =>
      cases hlog : d.log with
      | none => simp [Disk.begin, hlog] at hp
      | some l =>
          simp only [Disk.begin, hlog, Option.map_some, Option.some_inj] at hp
          have hup : a.up = true := by rw [h.up, hlog]; rfl
          obtain ⟨hpath, hholds⟩ := h.holds l hlog
          have hsynced := hholds.keeps.choose_spec.2.le
          subst hp
          rw [wp_bind]
          refine wp_mono (fun t ht => ?_) (fun failed t ho => ?_)
            (hholds.close.keeps (P := Fs.Ok) (fun _ c x hs => hs.exec c x) hholds.ok)
          · rw [hpath] at ht
            exact ⟨none, fun hne => absurd rfl hne, ht.1.halts ht.2 h.base _⟩
          · obtain ⟨hkeeps, hok⟩ := ho
            rw [hpath] at hkeeps
            obtain ⟨j, hk, hj, hrests⟩ := hkeeps.rests hok
            have hbase := exec_base h.base hsynced failed .sync
            have hstop := stopped_exit hbase hk hrests (a.seen ++ [.closed failed])
            refine ⟨_, Reaches.single (a := .close failed j) (if_pos hup), ?_⟩
            rw [h.seen]
            exact hstop

/-- The coarse log stops with the process or the machine. -/
lemma Halts.follows {done : Option LogCall} (hup : done ≠ none → a.up = true)
    (h : Halts crc path (Stopped a done) a.seen t) :
    (∀ keep, Follows crc path a ⟨t.crash keep, none, a.seen⟩) ∧
      Follows crc path a ⟨t.closeAll, none, a.seen⟩ := by
  have hstep : ∀ machine j, Spec.step a (.stop done machine j) =
      some { a with log := (Stopped a done).stopped machine j, up := false } := by
    intro machine j
    cases done with
    | none => rfl
    | some c => exact if_pos (hup (Option.some_ne_none c))
  refine ⟨fun keep => ?_, ?_⟩
  · obtain ⟨j, hrefines⟩ := h.crash keep
    exact ⟨_, Reaches.single (hstep true j), hrefines⟩
  · obtain ⟨j, hrefines⟩ := h.exit
    exact ⟨_, Reaches.single (hstep false j), hrefines⟩

/-- The records of the work an action is about. -/
def DiskAction.records : DiskAction → List Record
  | .work w _ => w.records
  | .crash w _ _ | .exit w _ => w.elim [] Work.records

/-- Work that is stopped, or a process between two pieces of work. -/
lemma Refines.halt (h : Refines crc path d a) {w : Option Work}
    (hw : ∀ r ∈ w.elim [] Work.records, r.Fits) {xs : List Luck}
    (ht : d.halt crc path xs w = some t) :
    (∀ keep, Follows crc path a ⟨t.crash keep, none, a.seen⟩) ∧
      Follows crc path a ⟨t.closeAll, none, a.seen⟩ := by
  cases w with
  | none =>
      obtain rfl := Option.some_inj.mp ht
      have hhalts : Halts crc path (Stopped a none) a.seen d.fs := by
        cases hlog : d.log with
        | none => exact (h.rests hlog).halts h.base _
        | some l =>
            obtain ⟨hpath, hholds⟩ := h.holds l hlog
            have hkeeps := hholds.keeps
            rw [hpath] at hkeeps
            exact hkeeps.halts hholds.ok h.base _
      exact hhalts.follows fun hne => absurd rfl hne
  | some w =>
      obtain ⟨p, hp, ht⟩ := Option.bind_eq_some_iff.mp ht
      have hmeets := (h.begin hw hp).sound fun _ (_ : _ ∈ xs) => trivial
      split at ht
      · next t' hrun =>
          obtain rfl := Option.some_inj.mp ht
          rw [hrun] at hmeets
          obtain ⟨done, hup, hhalts⟩ := hmeets
          exact hhalts.follows hup
      · exact absurd ht (Option.some_ne_none t).symm

lemma Refines.step (h : Refines crc path d a) {x : DiskAction}
    (hx : ∀ r ∈ x.records, r.Fits) {d' : Disk} (hstep : d.step crc path x = some d') :
    Follows crc path a d' := by
  cases x with
  | work w xs =>
      obtain ⟨p, hp, hstep⟩ := Option.bind_eq_some_iff.mp hstep
      have hmeets := (h.begin hx hp).sound fun _ (_ : _ ∈ xs) => trivial
      split at hstep
      · next l out t hrun =>
          obtain rfl := Option.some_inj.mp hstep
          rw [hrun] at hmeets
          exact hmeets
      · exact absurd hstep (Option.some_ne_none d').symm
  | crash w xs keep =>
      obtain ⟨t, ht, rfl⟩ := Option.map_eq_some_iff.mp hstep
      rw [h.seen]
      exact (h.halt hx ht).1 keep
  | exit w xs =>
      obtain ⟨t, ht, rfl⟩ := Option.map_eq_some_iff.mp hstep
      rw [h.seen]
      exact (h.halt hx ht).2

end Wal

end RudpScheduler
