import RudpScheduler.Framework.Bytes
import RudpScheduler.Framework.Runs
import RudpScheduler.Framework.PrefixCode

/-!
# The TCP transport

One direction of a `tcpConn` pair: the sending application's `Write` and `Close`, the `queue`,
`writer` and `read` goroutines of the sending end, the byte stream TCP carries, and the `read`
goroutine of the receiving end with the application that takes what it reports.  Every channel of
the source is unbuffered, so a channel operation is one step of both parties.

The application's calls are a `script`.  `queue` owns the backlog `pending`; it meets `Write` and
`Close` in its `select`, hands the oldest message to `writer`, and closes `toWriter` when the
backlog is empty and `closing` is set.  `writer` puts one frame at a time on the stream and closes
the socket once `toWriter` is closed.  A socket write is any number of `send` steps and
`io.ReadFull` any number of `recv` steps, so a frame may be cut anywhere.  TCP itself is a queue of
bytes, at most `cap` of them under way, which carries everything in order until it is `reset`; after
a reset reads and writes may fail at any time.

The receiving end writes nothing and does not close.  The sending end's reader therefore only waits
for its socket to be closed, and the receiving end's own `nc.Close` and `close(dead)`, which come
after its last read, are not observed here.

`consumed` is a ghost: the bytes the receiving end's reader has taken off the stream.
-/

namespace RudpScheduler.Tcp

/-- A `[]byte` given to `Write`. -/
abbrev Message := List UInt8

/-- What the sending application does with its connection. -/
inductive Op
  | write (data : Message)
  | close
  deriving DecidableEq, Repr

/-- `append(head[:], d...)` after `PutUint16(head[:], uint16(len(d)))`. -/
def frame (d : Message) : List UInt8 := beBytes 2 (UInt16.ofNat d.length).toNat ++ d

/-! ## The goroutines -/

/-- Where `queue` is: in its loop, returned after `close(c.toWriter)`, or returned because of
`dead`. -/
inductive Queue
  | serving
  | drained
  | abandoned
  deriving DecidableEq, Repr

/-- Where `writer` is: in its `select`, in `nc.Write` with some bytes not yet taken by the socket,
or returned. -/
inductive Writer
  | idle
  | sending (rest : List UInt8)
  | returned
  deriving DecidableEq, Repr

/-- The writer after the socket has taken some bytes: `nc.Write` returns when none is left. -/
def Writer.after (rest : List UInt8) : Writer := if rest = [] then .idle else .sending rest

/-- The errors `io.ReadFull` returns. -/
inductive ReadErr
  | eof
  | unexpectedEOF
  | reset
  deriving DecidableEq, Repr

/-- A `tcpDelivery`. -/
inductive Delivery
  | message (data : Message)
  | error (err : ReadErr)
  deriving DecidableEq, Repr

/-- Where `read` is: in `io.ReadFull` for the length or for the `n` bytes of a message, with the
bytes got so far; offering a message; offering the error; or returned. -/
inductive Reader
  | head (got : List UInt8)
  | body (n : ℕ) (got : List UInt8)
  | forward (data : Message)
  | report (err : ReadErr)
  | returned
  deriving DecidableEq, Repr

namespace Reader

/-- How many more bytes `io.ReadFull` asks the socket for. -/
def wants : Reader → ℕ
  | .head got => 2 - got.length
  | .body n got => n - got.length
  | _ => 0

/-- After the length: `io.ReadFull` returns at once when the message is empty. -/
def start (n : ℕ) : Reader := if n = 0 then .forward [] else .body n []

/-- The socket returns the bytes `c`. -/
def fill : Reader → List UInt8 → Reader
  | .head got, c => if (got ++ c).length < 2 then .head (got ++ c) else start (beNat (got ++ c))
  | .body n got, c => if (got ++ c).length < n then .body n (got ++ c) else .forward (got ++ c)
  | r, _ => r

/-- What `io.ReadFull` makes of the end of the stream. -/
def eofErr : Reader → Option ReadErr
  | .head got => some (if got = [] then .eof else .unexpectedEOF)
  | .body _ got => some (if got = [] then .eof else .unexpectedEOF)
  | _ => none

/-- The message that is read but not yet reported. -/
def holding : Reader → List Message
  | .forward d => [d]
  | _ => []

end Reader

/-! ## The connection -/

structure State where
  /-- The calls the sending application has not made yet. -/
  script : List Op
  /-- The backlog. -/
  pending : List Message
  closing : Bool
  queue : Queue
  writer : Writer
  /-- The sending end's socket is closed. -/
  hungUp : Bool
  /-- The sending end's `dead` is closed. -/
  dead : Bool
  /-- The bytes under way. -/
  wire : List UInt8
  /-- The connection has been reset. -/
  broken : Bool
  consumed : List UInt8
  reader : Reader
  /-- What the receiving application's `Read`s have taken from the reader. -/
  reports : List Delivery
  deriving DecidableEq, Repr

namespace State

/-- The state after `newTCPConn` on both sides, with the calls the application will make. -/
def init (script : List Op) : State where
  script := script
  pending := []
  closing := false
  queue := .serving
  writer := .idle
  hungUp := false
  dead := false
  wire := []
  broken := false
  consumed := []
  reader := .head []
  reports := []

/-- `queue` is in its `select`: at the top of the loop it returns instead when there is nothing
left to hand off and `closing` is set. -/
def Selecting (s : State) : Prop := s.queue = .serving ∧ (s.pending ≠ [] ∨ s.closing = false)

instance (s : State) : Decidable s.Selecting := inferInstanceAs (Decidable (_ ∧ _))

end State

/-- What can happen next. -/
inductive Action
  /-- `queue` takes the application's next `Write` or `Close`. -/
  | take
  /-- The next `Write` or `Close` finds `dead` closed. -/
  | skip
  /-- `queue` hands the oldest message to `writer`. -/
  | handOff
  /-- `queue` closes `toWriter` and returns. -/
  | drain
  /-- `queue` finds `dead` closed. -/
  | abandon
  /-- The socket takes `k` more bytes of the frame. -/
  | send (k : ℕ)
  /-- `nc.Write` fails: `writer` closes the socket and returns. -/
  | writeFails
  /-- `writer` finds `toWriter` closed: it closes the socket and returns. -/
  | hangUp
  /-- `writer` finds `dead` closed. -/
  | quit
  /-- The sending end's reader gets an error: it closes the socket and `dead`. -/
  | die
  /-- The connection is reset. -/
  | reset
  /-- The receiving end's reader gets `k` bytes. -/
  | recv (k : ℕ)
  /-- The receiving end's reader is at the end of the stream. -/
  | eof
  /-- The receiving end's reader gets another error. -/
  | readFails
  /-- The receiving application takes what the reader offers. -/
  | deliver
  deriving DecidableEq, Repr

/-- One step, when `cap` bytes can be under way. -/
def State.step (cap : ℕ) (s : State) : Action → Option State
  | .take =>
      if s.Selecting then
        match s.script with
        | .write d :: rest =>
            -- after `Close` the message is dropped
            some { s with
              script := rest
              pending := if s.closing then s.pending else s.pending ++ [d] }
        | .close :: rest => some { s with script := rest, closing := true }
        | [] => none
      else none
  | .skip =>
      match s.script with
      | _ :: rest => if s.dead = true then some { s with script := rest } else none
      | [] => none
  | .handOff =>
      match s.queue, s.pending, s.writer with
      | .serving, d :: rest, .idle => some { s with pending := rest, writer := .sending (frame d) }
      | _, _, _ => none
  | .drain =>
      if s.queue = .serving ∧ s.pending = [] ∧ s.closing = true then
        some { s with queue := .drained }
      else none
  | .abandon =>
      if s.Selecting ∧ s.dead = true then some { s with queue := .abandoned } else none
  | .send k =>
      match s.writer with
      | .sending rest =>
          if 0 < k ∧ k ≤ rest.length ∧ s.wire.length + k ≤ cap then
            some { s with wire := s.wire ++ rest.take k, writer := .after (rest.drop k) }
          else none
      | _ => none
  | .writeFails =>
      match s.writer with
      | .sending _ =>
          if s.broken = true then some { s with writer := .returned, hungUp := true } else none
      | _ => none
  | .hangUp =>
      if s.writer = .idle ∧ s.queue = .drained then
        some { s with writer := .returned, hungUp := true }
      else none
  | .quit =>
      if s.writer = .idle ∧ s.dead = true then some { s with writer := .returned } else none
  | .die =>
      if s.dead = false ∧ (s.hungUp = true ∨ s.broken = true) then
        some { s with hungUp := true, dead := true }
      else none
  | .reset => if s.broken = false then some { s with broken := true } else none
  | .recv k =>
      if 0 < k ∧ k ≤ s.wire.length ∧ k ≤ s.reader.wants then
        some { s with
          wire := s.wire.drop k
          consumed := s.consumed ++ s.wire.take k
          reader := s.reader.fill (s.wire.take k) }
      else none
  | .eof =>
      match s.reader.eofErr with
      | some e =>
          if s.wire = [] ∧ s.hungUp = true then some { s with reader := .report e } else none
      | none => none
  | .readFails =>
      if s.reader.eofErr ≠ none ∧ s.broken = true then
        some { s with reader := .report .reset }
      else none
  | .deliver =>
      match s.reader with
      | .forward d =>
          some { s with reader := .head [], reports := s.reports ++ [.message d] }
      | .report e => some { s with reader := .returned, reports := s.reports ++ [.error e] }
      | _ => none

/-! ## The steps -/

/-- What a step does, with what it needs. -/
inductive Move (cap : ℕ) (s : State) : Action → State → Prop
  | write {d rest} (hsel : s.Selecting) (hs : s.script = .write d :: rest)
      (hopen : s.closing = false) :
      Move cap s .take { s with script := rest, pending := s.pending ++ [d] }
  | writeLate {d rest} (hsel : s.Selecting) (hs : s.script = .write d :: rest)
      (hclosing : s.closing = true) : Move cap s .take { s with script := rest }
  | close {rest} (hsel : s.Selecting) (hs : s.script = .close :: rest) :
      Move cap s .take { s with script := rest, closing := true }
  | skip {op rest} (hs : s.script = op :: rest) (hdead : s.dead = true) :
      Move cap s .skip { s with script := rest }
  | handOff {d rest} (hq : s.queue = .serving) (hp : s.pending = d :: rest)
      (hw : s.writer = .idle) :
      Move cap s .handOff { s with pending := rest, writer := .sending (frame d) }
  | drain (hq : s.queue = .serving) (hp : s.pending = []) (hclosing : s.closing = true) :
      Move cap s .drain { s with queue := .drained }
  | abandon (hsel : s.Selecting) (hdead : s.dead = true) :
      Move cap s .abandon { s with queue := .abandoned }
  | send {k rest} (hw : s.writer = .sending rest) (h0 : 0 < k) (hk : k ≤ rest.length)
      (hroom : s.wire.length + k ≤ cap) :
      Move cap s (.send k)
        { s with wire := s.wire ++ rest.take k, writer := .after (rest.drop k) }
  | writeFails {rest} (hw : s.writer = .sending rest) (hb : s.broken = true) :
      Move cap s .writeFails { s with writer := .returned, hungUp := true }
  | hangUp (hw : s.writer = .idle) (hq : s.queue = .drained) :
      Move cap s .hangUp { s with writer := .returned, hungUp := true }
  | quit (hw : s.writer = .idle) (hdead : s.dead = true) :
      Move cap s .quit { s with writer := .returned }
  | die (hdead : s.dead = false) (hend : s.hungUp = true ∨ s.broken = true) :
      Move cap s .die { s with hungUp := true, dead := true }
  | reset (hb : s.broken = false) : Move cap s .reset { s with broken := true }
  | recv {k} (h0 : 0 < k) (hk : k ≤ s.wire.length) (hwants : k ≤ s.reader.wants) :
      Move cap s (.recv k)
        { s with
          wire := s.wire.drop k
          consumed := s.consumed ++ s.wire.take k
          reader := s.reader.fill (s.wire.take k) }
  | eof {e} (hr : s.reader.eofErr = some e) (hwire : s.wire = []) (hup : s.hungUp = true) :
      Move cap s .eof { s with reader := .report e }
  | readFails {e} (hr : s.reader.eofErr = some e) (hb : s.broken = true) :
      Move cap s .readFails { s with reader := .report .reset }
  | message {d} (hr : s.reader = .forward d) :
      Move cap s .deliver { s with reader := .head [], reports := s.reports ++ [.message d] }
  | error {e} (hr : s.reader = .report e) :
      Move cap s .deliver { s with reader := .returned, reports := s.reports ++ [.error e] }

lemma step_move {cap : ℕ} {s t : State} {a : Action} (h : s.step cap a = some t) :
    Move cap s a t := by
  cases a with
  | take =>
      simp only [State.step] at h
      split_ifs at h with hsel hc
      · split at h
        · rename_i d rest hs
          exact Option.some_inj.mp h ▸ .writeLate hsel hs hc
        · rename_i rest hs
          exact Option.some_inj.mp h ▸ .close hsel hs
        · exact absurd h (by simp)
      · split at h
        · rename_i d rest hs
          exact Option.some_inj.mp h ▸ .write hsel hs (Bool.eq_false_iff.mpr hc)
        · rename_i rest hs
          exact Option.some_inj.mp h ▸ .close hsel hs
        · exact absurd h (by simp)
  | skip =>
      simp only [State.step] at h
      split at h
      · rename_i op rest hs
        split_ifs at h with hdead
        exact Option.some_inj.mp h ▸ .skip hs hdead
      · exact absurd h (by simp)
  | handOff =>
      simp only [State.step] at h
      split at h
      · rename_i d rest hq hp hw
        exact Option.some_inj.mp h ▸ .handOff hq hp hw
      · exact absurd h (by simp)
  | drain =>
      simp only [State.step] at h
      split_ifs at h with hg
      exact Option.some_inj.mp h ▸ .drain hg.1 hg.2.1 hg.2.2
  | abandon =>
      simp only [State.step] at h
      split_ifs at h with hg
      exact Option.some_inj.mp h ▸ .abandon hg.1 hg.2
  | send k =>
      simp only [State.step] at h
      split at h
      · rename_i rest hw
        split_ifs at h with hg
        exact Option.some_inj.mp h ▸ .send hw hg.1 hg.2.1 hg.2.2
      · exact absurd h (by simp)
  | writeFails =>
      simp only [State.step] at h
      split at h
      · rename_i rest hw
        split_ifs at h with hb
        exact Option.some_inj.mp h ▸ .writeFails hw hb
      · exact absurd h (by simp)
  | hangUp =>
      simp only [State.step] at h
      split_ifs at h with hg
      exact Option.some_inj.mp h ▸ .hangUp hg.1 hg.2
  | quit =>
      simp only [State.step] at h
      split_ifs at h with hg
      exact Option.some_inj.mp h ▸ .quit hg.1 hg.2
  | die =>
      simp only [State.step] at h
      split_ifs at h with hg
      exact Option.some_inj.mp h ▸ .die hg.1 hg.2
  | reset =>
      simp only [State.step] at h
      split_ifs at h with hb
      exact Option.some_inj.mp h ▸ .reset hb
  | recv k =>
      simp only [State.step] at h
      split_ifs at h with hg
      exact Option.some_inj.mp h ▸ .recv hg.1 hg.2.1 hg.2.2
  | eof =>
      simp only [State.step] at h
      split at h
      · rename_i e he
        split_ifs at h with hg
        exact Option.some_inj.mp h ▸ .eof he hg.1 hg.2
      · exact absurd h (by simp)
  | readFails =>
      simp only [State.step] at h
      split_ifs at h with hg
      obtain ⟨e, he⟩ := Option.ne_none_iff_exists'.mp hg.1
      exact Option.some_inj.mp h ▸ .readFails he hg.2
  | deliver =>
      simp only [State.step] at h
      split at h
      · rename_i d hr
        exact Option.some_inj.mp h ▸ .message hr
      · rename_i e hr
        exact Option.some_inj.mp h ▸ .error hr
      · exact absurd h (by simp)

end RudpScheduler.Tcp
