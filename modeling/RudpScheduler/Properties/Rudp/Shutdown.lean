import RudpScheduler.Properties.Rudp.ServerInvariant

/-!
# Shutdown and the routing of Acks

`beginShutdown` asks one connection after the other to close, from the read loop, and
`ConnHandle.Close` waits until the connection takes the request or is dead.  A connection takes
it in `mainLoop` and while it drains, but not in `flushThenExit`: a connection the application
has already closed, and that still owes its peer something, makes the read loop wait, and it
waits itself for Acks that only the read loop can route (`flushingAtShutdown_stuck`).

What holds is `Server.shutdown_handsOff`: if no connection in the table is flushing when shutdown
begins, and the application does not start a flush while the read loop still has to ask that
connection, then the connection being asked always takes the request at once or is dead.
-/

namespace RudpScheduler.Rudp

/-- The hand-off of `beginShutdown`: the connection that is being asked is dead or takes the
request now, and so is not flushing. -/
structure Server.HandsOff {Addr : Type} (p : Params) (s : Server Addr) : Prop where
  takes : ∀ g rest, s.phase = .asking (g :: rest) → ∃ c, s.gos.lookup g = some c ∧
    (c.dead = true ∨ ∀ clock, (c.step p (.close clock)).isSome)
  notFlushing : ∀ g rest c, s.phase = .asking (g :: rest) → s.gos.lookup g = some c →
    c.conn.phase ≠ .flushing

namespace Server

variable {Addr : Type} {ops : AddrOps Addr} {p : Params} {s t : Server Addr}

/-- No flush is in the way of a shutdown: none is going on in the table when it begins, and the
application's `Close` starts none on a connection that is still to be asked. -/
def NoFlushInTheWay (s : Server Addr) : ServerAction Addr → Prop
  | .turn _ => s.closing = false → s.closeReq = true →
    ∀ id g c, s.conns.lookup id = some g → s.gos.lookup g = some c → c.conn.phase ≠ .flushing
  | .conn g (.close _) => ∀ rest c, s.phase = .asking rest → g ∈ rest →
    s.gos.lookup g = some c → c.conn.phase = .main → ¬ c.conn.Owes
  | _ => True

/-- While connections are still to be asked, none of them is flushing, and each is asked once. -/
def Asks (s : Server Addr) : Prop :=
  ∀ rest, s.phase = .asking rest →
    rest.Nodup ∧ ∀ g ∈ rest, ∃ c, s.gos.lookup g = some c ∧ c.conn.phase ≠ .flushing

lemma asks_of_ne (h : ∀ rest, s.phase ≠ .asking rest) : s.Asks :=
  fun rest hph => absurd hph (h rest)

lemma askNext_eq_asking {rest rest' : List ℕ} (h : ReadPhase.askNext rest = .asking rest') :
    rest' = rest := by
  cases rest with
  | nil => cases h
  | cons g rest => exact (ReadPhase.asking.inj h).symm

/-- The connections `beginShutdown` ranges over are distinct. -/
lemma TableOk.nodup_asked (hs : s.TableOk ops) (ord : RangeOrder UInt32) :
    ((ord.range s.conns).filterMap s.conns.lookup).Nodup := by
  refine (ord.range_nodup _).filterMap fun id id' g hg hg' => ?_
  obtain ⟨c, hc, hid⟩ := hs.conns id g hg
  obtain ⟨c', hc', hid'⟩ := hs.conns id' g hg'
  obtain rfl := Option.some_inj.mp (hc.symm.trans hc')
  exact hid.symm.trans hid'

/-- A round of a connection keeps it from flushing unless it starts a flush. -/
lemma Asks.insert_go (hs : s.Asks) {g : ℕ} {c' : ServerConn Addr}
    (hc' : ∀ rest, s.phase = .asking rest → g ∈ rest → c'.conn.phase ≠ .flushing) :
    Asks { s with gos := s.gos.insert g c' } := by
  intro rest hph
  obtain ⟨hnd, hrest⟩ := hs rest hph
  refine ⟨hnd, fun k hk => ?_⟩
  rw [GoMap.lookup_insert_ite]
  split_ifs with he
  · exact ⟨c', rfl, hc' rest hph (he ▸ hk)⟩
  · exact hrest k hk

/-- A step that starts no flush in the way keeps the connections to be asked ready. -/
lemma Move.asks {a : ServerAction Addr} (h : Move ops p s a t) (hok : s.Ok ops) (hs : s.Asks)
    (hsafe : s.NoFlushInTheWay a) : t.Asks := by
  cases h with
  | close => exact hs
  | @shutdown ord hph hc hreq =>
      intro rest hrest
      obtain rfl := askNext_eq_asking hrest
      refine ⟨hok.nodup_asked ord, fun g hg => ?_⟩
      obtain ⟨id, -, hid⟩ := List.mem_filterMap.mp hg
      obtain ⟨c, hc', -⟩ := hok.conns id g hid
      exact ⟨c, hc', hsafe hc hreq id g c hid hc'⟩
  | @ask g rest c c' clock hph hc hstep =>
      intro rest' hrest
      obtain rfl := askNext_eq_asking hrest
      obtain ⟨hnd, hall⟩ := hs _ hph
      refine ⟨(List.nodup_cons.mp hnd).2, fun k hk => ?_⟩
      rw [GoMap.lookup_insert_ite, if_neg]
      · exact hall k (List.mem_cons_of_mem _ hk)
      · rintro rfl
        exact (List.nodup_cons.mp hnd).1 hk
  | askDead hph =>
      intro rest' hrest
      obtain rfl := askNext_eq_asking hrest
      obtain ⟨hnd, hall⟩ := hs _ hph
      exact ⟨(List.nodup_cons.mp hnd).2, fun k hk => hall k (List.mem_cons_of_mem _ hk)⟩
  | sweep =>
      refine asks_of_ne fun rest => ?_
      unfold Server.sweep
      dsimp only
      split_ifs <;> simp
  | recv hc hin hstep =>
      refine hs.insert_go fun rest hph hmem hfl => ?_
      obtain ⟨conn, hconn, rfl, -⟩ := ServerConn.step_ok hstep
      obtain ⟨c, hc', hnot⟩ := (hs rest hph).2 _ hmem
      obtain rfl := Option.some_inj.mp (hc.symm.trans hc')
      rcases Conn.step_flushing hconn hfl with hold | ⟨-, ⟨clock, hi⟩, -⟩
      · exact hnot hold
      · cases hi
  | @conn g c c' i hc hi hstep =>
      refine hs.insert_go fun rest hph hmem hfl => ?_
      obtain ⟨conn, hconn, rfl, -⟩ := ServerConn.step_ok hstep
      obtain ⟨c₀, hc₀, hnot⟩ := (hs rest hph).2 _ hmem
      obtain rfl := Option.some_inj.mp (hc.symm.trans hc₀)
      rcases Conn.step_flushing hconn hfl with hold | ⟨hmain, ⟨clock, rfl⟩, howes⟩
      · exact hnot hold
      · exact hsafe rest c hph hmem hc hmain howes
  | _ => exact asks_of_ne (by simp)

/-- Connections that are ready take the request or are dead. -/
lemma Asks.toHandsOff (hs : s.Asks) (hok : s.Ok ops) : s.HandsOff p where
  takes g rest hph := by
    obtain ⟨c, hc, hnot⟩ := (hs _ hph).2 g List.mem_cons_self
    refine ⟨c, hc, ?_⟩
    have hdead := hok.dead g c hc
    cases hp : c.conn.phase with
    | main => exact .inr fun clock => by simp [ServerConn.step, Conn.step, hp]
    | flushing => exact absurd hp hnot
    | draining => exact .inl (by rw [hdead, hp]; rfl)
    | ended => exact .inl (by rw [hdead, hp]; rfl)
  notFlushing g rest c hph hc := by
    obtain ⟨c', hc', hnot⟩ := (hs _ hph).2 g List.mem_cons_self
    obtain rfl := Option.some_inj.mp (hc.symm.trans hc')
    exact hnot

/-- **With no flush in its way, shutdown never waits for a connection that waits for Acks.** -/
theorem shutdown_handsOff {as : List (ServerAction Addr)}
    (hsafe : Along NoFlushInTheWay (Go.survive (step ops p)) start as)
    (hrun : run (Go.survive (step ops p)) start as = some s) : s.HandsOff p := by
  have hinv : s.Ok ops ∧ s.Asks := by
    refine run_invariant_along (P := fun s => s.Ok ops ∧ s.Asks)
      (fun s a t hs hok hstep => ?_) ⟨start_ok, asks_of_ne (by simp [start])⟩ hsafe hrun
    have hmove := step_move (Go.survive_eq_some.mp hstep)
    exact ⟨hmove.ok hs.1, hmove.asks hs.1 hs.2 hok⟩
  exact hinv.2.toHandsOff hinv.1

/-- A connection is accepted and the application writes one byte to it. -/
def writeRun : List (ServerAction ℕ) :=
  [.turn seqOrder, .sweep false seqOrder, .datagram [1, 0, 0, 0, 0, 0, 0, 0, 0, 0, 0] 7,
    .conn 1 (.write [5] fun _ => 0)]

/-- The byte is not acknowledged when the server is closed, and the connection is asked. -/
theorem shutdown_handsOff_writeRun :
    ∃ s, run (Go.survive (step onePeer Params.default)) start
        (writeRun ++ [.close] ++ [.turn seqOrder]) = some s ∧
      s.phase = .asking [1] ∧ s.HandsOff Params.default := by
  have hmid : (run (Go.survive (step onePeer Params.default)) start
      (writeRun ++ [ServerAction.close])).map
        (fun s => (s.conns, (s.gos.lookup 1).map (·.conn.phase))) =
      some (Finmap.insert 1 1 ∅, some .main) := by
    decide +kernel
  have hval : (run (Go.survive (step onePeer Params.default)) start
      (writeRun ++ [ServerAction.close] ++ [ServerAction.turn seqOrder])).map phase =
      some (.asking [1]) := by
    decide +kernel
  have hsafe : Along NoFlushInTheWay (Go.survive (step onePeer Params.default)) start
      (writeRun ++ [ServerAction.close] ++ [ServerAction.turn seqOrder]) := by
    -- only the two looks at `closeReq` have something to meet, and the first finds it empty
    have hfirst : Along NoFlushInTheWay (Go.survive (step onePeer Params.default)) start
        (writeRun ++ [ServerAction.close]) :=
      ⟨fun _ hreq => absurd hreq (by simp [start]),
        fun _ _ => Along.of_forall (by simp [NoFlushInTheWay])⟩
    refine Along.append_cons _ hfirst (fun u hu => ?_) fun _ => trivial
    intro _ _ id g c hid hc
    rw [hu, Option.map_some, Option.some_inj] at hmid
    obtain ⟨hconns, hphase⟩ := Prod.mk.inj hmid
    rw [hconns, GoMap.lookup_insert_ite] at hid
    split_ifs at hid with he
    · obtain rfl := Option.some_inj.mp hid
      rw [hc, Option.map_some, Option.some_inj] at hphase
      rw [hphase]
      decide
    · cases hid
  obtain ⟨s, hrun, hs⟩ := Option.map_eq_some_iff.mp hval
  exact ⟨s, hrun, hs, shutdown_handsOff hsafe hrun⟩

/-- The same connection, closed by the application before the server is: it is flushing when the
read loop asks it to close, does not take the request, and the read loop takes no datagram. -/
theorem flushingAtShutdown_stuck :
    ∃ s, run (Go.survive (step onePeer Params.default)) start
        (writeRun ++ [.conn 1 (.close fun _ => 0), .close, .turn seqOrder]) = some s ∧
      (∃ c, s.gos.lookup 1 = some c ∧ c.dead = false ∧ c.conn.phase = .flushing ∧
        ∀ clock, c.step Params.default (.close clock) = none) ∧
      (∀ bytes addr, s.step onePeer Params.default (.datagram bytes addr) = none) ∧
      ¬ s.HandsOff Params.default := by
  have hval : (run (Go.survive (step onePeer Params.default)) start
      (writeRun ++ [ServerAction.conn 1 (.close fun _ => 0), .close, .turn seqOrder])).map
        (fun s => (s.phase, (s.gos.lookup 1).map fun c => (c.dead, c.conn.phase))) =
      some (.asking [1], some (false, .flushing)) := by
    decide +kernel
  obtain ⟨s, hrun, hs⟩ := Option.map_eq_some_iff.mp hval
  obtain ⟨hphase, hgo⟩ := Prod.mk.inj hs
  obtain ⟨c, hc, hc'⟩ := Option.map_eq_some_iff.mp hgo
  obtain ⟨hdead, hfl⟩ := Prod.mk.inj hc'
  refine ⟨s, hrun, ⟨c, hc, hdead, hfl, fun clock => ?_⟩, fun bytes addr => ?_, fun h => ?_⟩
  · simp [ServerConn.step, Conn.step, hfl]
  · simp [step, hphase]
  · exact h.notFlushing 1 [] c hphase hc hfl

end Server

end RudpScheduler.Rudp
