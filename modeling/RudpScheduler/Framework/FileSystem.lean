import RudpScheduler.Framework.Calls

/-!
# A file system with crashes

Names, inodes and open files, with the calls package `os` makes on them.  Every call but `read` may
fail; a failed `write` has written some of its bytes but not all of them, any other failed call has
done nothing (`close` gives up the handle in any case).  Changes of names and lengths are atomic and
lasting as soon as the call returns: that is what `rename` is used for.  Written bytes are not: each
inode knows how many of its first bytes have been synced, and a crash keeps a prefix of the bytes
that contains these.

A program that only appends through one handle leaves states of the form `s.grow h i b`: the file
system as it was, with `b` added at the end of inode `i`.
-/

namespace RudpScheduler

/-- What a file holds, and how many of its first bytes have reached stable storage. -/
structure Inode where
  data : List UInt8
  synced : ℕ
  deriving DecidableEq, Repr

/-- The bytes `b` written at offset `pos`.  What was there is no longer synced. -/
def Inode.put (node : Inode) (pos : ℕ) (b : List UInt8) : Inode :=
  ⟨node.data.take pos ++ b ++ node.data.drop (pos + b.length), min node.synced pos⟩

/-- The file cut, or filled up with zeros, to `n` bytes. -/
def Inode.resize (node : Inode) (n : ℕ) : Inode :=
  ⟨node.data.take n ++ List.replicate (n - node.data.length) 0, min node.synced n⟩

/-- An open file: its inode and the offset of the next read or write. -/
structure Handle where
  inode : ℕ
  pos : ℕ
  deriving DecidableEq, Repr

structure Fs where
  names : String → Option ℕ
  inodes : ℕ → Inode
  handles : ℕ → Option Handle
  nextInode : ℕ
  nextHandle : ℕ

namespace Fs

/-! ## Calls -/

inductive Call
  /-- `os.OpenFile` with `O_RDWR|O_CREATE`, and `O_TRUNC` if `trunc`. -/
  | openFile (name : String) (trunc : Bool)
  /-- All bytes from the offset to the end. -/
  | read (h : ℕ)
  | write (h : ℕ) (b : List UInt8)
  | truncate (h n : ℕ)
  /-- `Seek` with `io.SeekStart`. -/
  | seek (h n : ℕ)
  | sync (h : ℕ)
  | close (h : ℕ)
  | rename (old new : String)
  /-- `os.Open` of the directory that holds the name. -/
  | openDir (name : String)
  | syncDir
  | closeDir

/-- What a call returns: a handle or nothing, the bytes read, the number of bytes written together
with whether the call failed, or only whether it failed. -/
@[reducible] def Reply : Call → Type
  | .openFile _ _ => Option ℕ
  | .read _ => List UInt8
  | .write _ _ => ℕ × Bool
  | _ => Bool

/-- Whether a call succeeds; a `write` that fails may have written up to `n` bytes. -/
inductive Luck
  | ok
  | fails (n : ℕ)
  deriving DecidableEq, Repr

/-- How many of `len` bytes a `write` puts into the file. -/
def Luck.written : Luck → ℕ → ℕ
  | .ok, len => len
  | .fails n, len => min n (len - 1)

/-- Whether the call fails. -/
def Luck.failed : Luck → Bool
  | .ok => false
  | .fails _ => true

/-- A new handle at the start of inode `i`. -/
def newHandle (s : Fs) (i : ℕ) : Fs :=
  { s with
    handles := Function.update s.handles s.nextHandle (some ⟨i, 0⟩)
    nextHandle := s.nextHandle + 1 }

/-- A new and empty file. -/
def create (s : Fs) (name : String) : Fs :=
  { s with
    names := Function.update s.names name (some s.nextInode)
    inodes := Function.update s.inodes s.nextInode ⟨[], 0⟩
    nextInode := s.nextInode + 1 }

def setInode (s : Fs) (i : ℕ) (node : Inode) : Fs :=
  { s with inodes := Function.update s.inodes i node }

def setHandle (s : Fs) (h : ℕ) (x : Option Handle) : Fs :=
  { s with handles := Function.update s.handles h x }

/-- `os.OpenFile` when it succeeds. -/
def opened (s : Fs) (name : String) (trunc : Bool) : Fs :=
  match s.names name with
  | some i => (if trunc then s.setInode i ⟨[], 0⟩ else s).newHandle i
  | none => (s.create name).newHandle s.nextInode

/-- `rename` when it succeeds. -/
def renamed (s : Fs) (old new : String) (i : ℕ) : Fs :=
  { s with names := Function.update (Function.update s.names new (some i)) old none }

/-- One call. -/
def exec (s : Fs) : (c : Call) → Luck → Reply c × Fs
  | .openFile name trunc, .ok => (some s.nextHandle, s.opened name trunc)
  | .openFile _ _, .fails _ => (none, s)
  | .read h, _ =>
    match s.handles h with
    | some x =>
      ((s.inodes x.inode).data.drop x.pos,
        s.setHandle h (some { x with pos := (s.inodes x.inode).data.length }))
    | none => ([], s)
  | .write h b, luck =>
    match s.handles h with
    | some x =>
      let n := luck.written b.length
      ((n, luck.failed), (s.setInode x.inode ((s.inodes x.inode).put x.pos (b.take n))).setHandle h
        (some { x with pos := x.pos + n }))
    | none => ((0, true), s)
  | .truncate h n, .ok =>
    match s.handles h with
    | some x => (false, s.setInode x.inode ((s.inodes x.inode).resize n))
    | none => (true, s)
  | .seek h n, .ok =>
    match s.handles h with
    | some x => (false, s.setHandle h (some { x with pos := n }))
    | none => (true, s)
  | .sync h, .ok =>
    match s.handles h with
    | some x =>
      (false, s.setInode x.inode { s.inodes x.inode with synced := (s.inodes x.inode).data.length })
    | none => (true, s)
  | .close h, luck => (luck.failed, s.setHandle h none)
  | .rename old new, .ok =>
    match s.names old with
    | some i => (false, s.renamed old new i)
    | none => (true, s)
  | .openDir _, luck => (luck.failed, s)
  | .syncDir, luck => (luck.failed, s)
  | .closeDir, luck => (luck.failed, s)
  | .truncate _ _, .fails _ => (true, s)
  | .seek _ _, .fails _ => (true, s)
  | .sync _, .fails _ => (true, s)
  | .rename _ _, .fails _ => (true, s)

/-- A program that calls the file system. -/
abbrev Proc (α : Type) := Prog Call Reply α

/-- One call, as a program. -/
def os (c : Call) : Proc (Reply c) := .perform c

lemma wp_os {may : Luck → Prop} {I : Fs → Prop} {c : Call} {Q : Reply c → Fs → Prop} {s : Fs} :
    (os c).wp exec may I Q s ↔ I s ∧ ∀ x, may x → Q (s.exec c x).1 (s.exec c x).2 := Iff.rfl

/-- A crash: no file is open any more, and of inode `i` a prefix is left that has at least the
synced bytes, here the first `keep i` if these are more. -/
def crash (keep : ℕ → ℕ) (s : Fs) : Fs :=
  { s with
    inodes := fun i =>
      let data := (s.inodes i).data.take (max (s.inodes i).synced (keep i))
      ⟨data, data.length⟩
    handles := fun _ => none }

/-- The process has ended: no file is open any more, and every file is as it was. -/
def closeAll (s : Fs) : Fs := { s with handles := fun _ => none }

/-! ## Well-formed file systems -/

@[simp] lemma setHandle_handles_self (s : Fs) (h : ℕ) (x : Option Handle) :
    (s.setHandle h x).handles h = x := Function.update_self ..

@[simp] lemma newHandle_handles_self (s : Fs) (i : ℕ) :
    (s.newHandle i).handles s.nextHandle = some ⟨i, 0⟩ := Function.update_self ..

@[simp] lemma setInode_inodes_self (s : Fs) (i : ℕ) (node : Inode) :
    (s.setInode i node).inodes i = node := Function.update_self ..

lemma setHandle_handles (s : Fs) (h : ℕ) (x : Option Handle) (h' : ℕ) :
    (s.setHandle h x).handles h' = if h' = h then x else s.handles h' := Function.update_apply ..

lemma newHandle_handles (s : Fs) (i h : ℕ) :
    (s.newHandle i).handles h = if h = s.nextHandle then some ⟨i, 0⟩ else s.handles h :=
  Function.update_apply ..

lemma create_names (s : Fs) (name name' : String) :
    (s.create name).names name' = if name' = name then some s.nextInode else s.names name' :=
  Function.update_apply ..

lemma renamed_names (s : Fs) (old new : String) (i : ℕ) (name : String) :
    (s.renamed old new i).names name =
      if name = old then none else if name = new then some i else s.names name := by
  change Function.update (Function.update s.names new (some i)) old none name = _
  rw [Function.update_apply, Function.update_apply]

/-- Names and handles refer to what exists, and no inode has two names. -/
structure Ok (s : Fs) : Prop where
  names_lt : ∀ name i, s.names name = some i → i < s.nextInode
  names_inj : ∀ name name' i, s.names name = some i → s.names name' = some i → name = name'
  handles_lt : ∀ h x, s.handles h = some x → h < s.nextHandle

variable {s : Fs} {h i : ℕ}

lemma Ok.setInode (hs : s.Ok) (i : ℕ) (node : Inode) : (s.setInode i node).Ok :=
  ⟨hs.names_lt, hs.names_inj, hs.handles_lt⟩

/-- A handle that is open, or the end of one. -/
lemma Ok.setHandle (hs : s.Ok) {x : Option Handle} (hx : x ≠ none → h < s.nextHandle) :
    (s.setHandle h x).Ok where
  names_lt := hs.names_lt
  names_inj := hs.names_inj
  handles_lt h' x' hx' := by
    rw [setHandle_handles] at hx'
    split_ifs at hx' with he
    · rw [he]
      exact hx (by simp [hx'])
    · exact hs.handles_lt _ _ hx'

lemma Ok.newHandle (hs : s.Ok) (i : ℕ) : (s.newHandle i).Ok where
  names_lt := hs.names_lt
  names_inj := hs.names_inj
  handles_lt h x hx := by
    rw [newHandle_handles] at hx
    split_ifs at hx with he
    · rw [he]
      exact Nat.lt_succ_self _
    · exact Nat.lt_succ_of_lt (hs.handles_lt _ _ hx)

lemma Ok.crash (hs : s.Ok) (keep : ℕ → ℕ) : (s.crash keep).Ok :=
  ⟨hs.names_lt, hs.names_inj, fun _ _ h => absurd h (Option.some_ne_none _).symm⟩

lemma Ok.closeAll (hs : s.Ok) : s.closeAll.Ok :=
  ⟨hs.names_lt, hs.names_inj, fun _ _ h => absurd h (Option.some_ne_none _).symm⟩

lemma Ok.create (hs : s.Ok) (name : String) : (s.create name).Ok where
  names_lt name' i hi := by
    rw [create_names] at hi
    split_ifs at hi
    · rw [← Option.some_inj.mp hi]
      exact Nat.lt_succ_self _
    · exact Nat.lt_succ_of_lt (hs.names_lt _ _ hi)
  names_inj name₁ name₂ i h₁ h₂ := by
    rw [create_names] at h₁ h₂
    split_ifs at h₁ h₂ with e₁ e₂ e₂
    · exact e₁.trans e₂.symm
    · exact absurd (hs.names_lt _ _ h₂) (by rw [← Option.some_inj.mp h₁]; exact lt_irrefl _)
    · exact absurd (hs.names_lt _ _ h₁) (by rw [← Option.some_inj.mp h₂]; exact lt_irrefl _)
    · exact hs.names_inj _ _ _ h₁ h₂
  handles_lt := hs.handles_lt

lemma Ok.opened (hs : s.Ok) (name : String) (trunc : Bool) : (s.opened name trunc).Ok := by
  unfold Fs.opened
  split
  · refine Ok.newHandle ?_ _
    split_ifs
    · exact hs.setInode _ _
    · exact hs
  · exact (hs.create name).newHandle _

lemma Ok.renamed (hs : s.Ok) {old new : String} (hi : s.names old = some i) :
    (s.renamed old new i).Ok := by
  -- a name of the new directory is `new` or an old name other than `old`
  have hcases : ∀ name j, (s.renamed old new i).names name = some j →
      name ≠ old ∧ (name = new ∧ j = i ∨ name ≠ new ∧ s.names name = some j) := by
    intro name j hj
    rw [renamed_names] at hj
    split_ifs at hj with h₁ h₂
    · exact ⟨h₁, .inl ⟨h₂, (Option.some_inj.mp hj).symm⟩⟩
    · exact ⟨h₁, .inr ⟨h₂, hj⟩⟩
  refine ⟨fun name j hj => ?_, fun name name' j hj hj' => ?_, hs.handles_lt⟩
  · rcases hcases name j hj with ⟨-, ⟨-, rfl⟩ | ⟨-, hj⟩⟩
    · exact hs.names_lt _ _ hi
    · exact hs.names_lt _ _ hj
  · obtain ⟨hne, hname⟩ := hcases name j hj
    obtain ⟨hne', hname'⟩ := hcases name' j hj'
    rcases hname with ⟨hnew, hji⟩ | ⟨-, hold⟩ <;> rcases hname' with ⟨hnew', hji'⟩ | ⟨-, hold'⟩
    · exact hnew.trans hnew'.symm
    · exact absurd (hs.names_inj _ _ _ hold' (hji ▸ hi)) hne'
    · exact absurd (hs.names_inj _ _ _ hold (hji' ▸ hi)) hne
    · exact hs.names_inj _ _ _ hold hold'

/-- Every call keeps the file system well-formed. -/
lemma Ok.exec (hs : s.Ok) (c : Call) (luck : Luck) : (s.exec c luck).2.Ok := by
  -- a handle that is looked up is below the next one
  have hput : ∀ h x y (t : Fs), s.handles h = some x → t.Ok → t.nextHandle = s.nextHandle →
      (t.setHandle h y).Ok := by
    intro h x y t hx ht hnext
    refine ht.setHandle fun _ => ?_
    rw [hnext]
    exact hs.handles_lt h x hx
  cases c with
  | openFile name trunc =>
      cases luck with
      | ok => exact hs.opened name trunc
      | fails => exact hs
  | read h =>
      simp only [Fs.exec]
      split
      · next x hx => exact hput h x _ s hx hs rfl
      · exact hs
  | write h b =>
      simp only [Fs.exec]
      split
      · next x hx => exact hput h x _ _ hx (hs.setInode _ _) rfl
      · exact hs
  | truncate h n =>
      cases luck with
      | ok =>
          simp only [Fs.exec]
          split
          · exact hs.setInode _ _
          · exact hs
      | fails => exact hs
  | seek h n =>
      cases luck with
      | ok =>
          simp only [Fs.exec]
          split
          · next x hx => exact hput h x _ s hx hs rfl
          · exact hs
      | fails => exact hs
  | sync h =>
      cases luck with
      | ok =>
          simp only [Fs.exec]
          split
          · exact hs.setInode _ _
          · exact hs
      | fails => exact hs
  | close h =>
      simp only [Fs.exec]
      exact hs.setHandle fun hne => absurd rfl hne
  | rename old new =>
      cases luck with
      | ok =>
          simp only [Fs.exec]
          split
          · next i hi => exact hs.renamed hi
          · exact hs
      | fails => exact hs
  | openDir | syncDir | closeDir => exact hs

/-! ## Calls on an open file -/

lemma exec_read {x : Handle} (hx : s.handles h = some x) (luck : Luck) :
    s.exec (.read h) luck = ((s.inodes x.inode).data.drop x.pos,
      s.setHandle h (some { x with pos := (s.inodes x.inode).data.length })) := by
  simp only [exec, hx]

lemma exec_truncate {x : Handle} (hx : s.handles h = some x) (n : ℕ) :
    s.exec (.truncate h n) .ok =
      (false, s.setInode x.inode ((s.inodes x.inode).resize n)) := by
  simp only [exec, hx]

lemma exec_seek {x : Handle} (hx : s.handles h = some x) (n : ℕ) :
    s.exec (.seek h n) .ok = (false, s.setHandle h (some { x with pos := n })) := by
  simp only [exec, hx]

lemma exec_rename {old new : String} (hi : s.names old = some i) :
    s.exec (.rename old new) .ok = (false, s.renamed old new i) := by
  simp only [exec, hi]

/-! ## Appending through a handle -/

/-- The handle stands at the end of inode `i`. -/
structure AtEnd (s : Fs) (h i : ℕ) : Prop where
  handle : s.handles h = some ⟨i, (s.inodes i).data.length⟩
  synced_le : (s.inodes i).synced ≤ (s.inodes i).data.length

/-- The bytes `b` added to inode `i`, with the handle `h` at the new end. -/
def grow (s : Fs) (h i : ℕ) (b : List UInt8) : Fs :=
  (s.setInode i { s.inodes i with data := (s.inodes i).data ++ b }).setHandle h
    (some ⟨i, ((s.inodes i).data ++ b).length⟩)

@[simp] lemma grow_names (s : Fs) (h i : ℕ) (b : List UInt8) : (s.grow h i b).names = s.names := rfl

@[simp] lemma grow_inodes_self (s : Fs) (h i : ℕ) (b : List UInt8) :
    (s.grow h i b).inodes i = { s.inodes i with data := (s.inodes i).data ++ b } :=
  Function.update_self ..

lemma grow_inodes_of_ne (s : Fs) (h : ℕ) {i j : ℕ} (hne : j ≠ i) (b : List UInt8) :
    (s.grow h i b).inodes j = s.inodes j := Function.update_of_ne hne ..

lemma grow_handles_of_ne (s : Fs) {h h' : ℕ} (hne : h' ≠ h) (i : ℕ) (b : List UInt8) :
    (s.grow h i b).handles h' = s.handles h' := Function.update_of_ne hne ..

lemma grow_nil (hat : s.AtEnd h i) : s.grow h i [] = s := by
  have hnode : Function.update s.inodes i (s.inodes i) = s.inodes := Function.update_eq_self ..
  have hhandle : Function.update s.handles h (some ⟨i, (s.inodes i).data.length⟩) = s.handles := by
    rw [← hat.handle]
    exact Function.update_eq_self ..
  simp only [grow, setInode, setHandle, List.append_nil, hnode, hhandle]

lemma grow_grow (s : Fs) (h i : ℕ) (b b' : List UInt8) :
    (s.grow h i b).grow h i b' = s.grow h i (b ++ b') := by
  simp only [grow, setInode, setHandle, Function.update_self, Function.update_idem,
    List.append_assoc]

lemma AtEnd.grow (hat : s.AtEnd h i) (b : List UInt8) : (s.grow h i b).AtEnd h i where
  handle := by
    rw [grow_inodes_self]
    exact Function.update_self ..
  synced_le := by
    rw [grow_inodes_self]
    exact hat.synced_le.trans (by simp)

lemma Ok.grow (hs : s.Ok) (hat : s.AtEnd h i) (b : List UInt8) : (s.grow h i b).Ok :=
  (hs.setInode _ _).setHandle fun _ => hs.handles_lt h _ hat.handle

/-- A `write` at the end adds as many bytes as it writes. -/
lemma exec_write (hat : s.AtEnd h i) (b : List UInt8) (luck : Luck) :
    s.exec (.write h b) luck =
      ((luck.written b.length, luck.failed), s.grow h i (b.take (luck.written b.length))) := by
  have hle : luck.written b.length ≤ b.length := by
    cases luck
    · exact le_rfl
    · exact (min_le_right _ _).trans (Nat.sub_le _ _)
  simp only [exec, hat.handle, Fs.grow, Inode.put, List.take_length, min_eq_left hat.synced_le,
    List.length_append, List.length_take, min_eq_left hle]
  rw [List.drop_eq_nil_of_le (Nat.le_add_right _ _), List.append_nil]

/-- Inode `i` synced. -/
def settle (s : Fs) (i : ℕ) : Fs :=
  s.setInode i { s.inodes i with synced := (s.inodes i).data.length }

@[simp] lemma settle_inodes_self (s : Fs) (i : ℕ) :
    (s.settle i).inodes i = { s.inodes i with synced := (s.inodes i).data.length } :=
  Function.update_self ..

lemma AtEnd.settle (hat : s.AtEnd h i) : (s.settle i).AtEnd h i where
  handle := by
    rw [settle_inodes_self]
    exact hat.handle
  synced_le := by rw [settle_inodes_self]

lemma exec_sync (hat : s.AtEnd h i) : s.exec (.sync h) .ok = (false, s.settle i) := by
  simp only [exec, hat.handle]
  rfl

end Fs

end RudpScheduler
