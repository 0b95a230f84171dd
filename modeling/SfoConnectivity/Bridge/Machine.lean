import SfoConnectivity.Bridge.Forward

/-! # The bridge and its goroutines (`internal/client/bridge/bridge.go`)

`WaitForGame` and `ConnectRelay` run in their callers' goroutines, `ConnectRelay` starts the
two forwarding loops, and any goroutine may call `Close`. A goroutine stands at a point where
another may run before it: each region under `b.mu` (`setState`, the store of the two
connections, the whole of `Close`) is one step, and so is each call that waits on the
network (the deadline check with `isPortListening`, the dial, a `Read`, a `Write`), which
takes what the network answers. Connections are numbers, and a `Read` or a `Write` on a
closed one fails at once. The state callback, `stats.StartTime` and the log lines are left
out.
-/

namespace SfoConnectivity.Bridge

inductive State where
  | init
  | waitingForGame
  | ready
  | connectingRelay
  | connected
  | disconnected
  | error
  deriving DecidableEq, Repr

/-- Where a `WaitForGame` call is. -/
inductive Waiting where
  /-- `b.setState(StateWaitingForGame)` is next. -/
  | start
  /-- At the `select` on `stopCh`, the top of the loop. -/
  | top
  /-- Past the `select`: the deadline check and `isPortListening` are next. -/
  | probing
  /-- `isPortListening` reached the game; `b.setState(StateReady)` is next. -/
  | listening
  /-- Returned this error (`none` for `nil`). -/
  | returned (err : Option String)
  deriving DecidableEq, Repr

/-- Where a `ConnectRelay(relayConn)` call is. -/
inductive Connecting where
  /-- `b.setState(StateConnectingRelay)` is next. -/
  | start
  /-- `net.DialTimeout` to the game is next. -/
  | dialing
  /-- The dial failed and `LastError` is written; `b.setState(StateError)` is next. -/
  | dialFailed (err : String)
  /-- The dial gave `localConn`; the store of both connections under `b.mu` is next. -/
  | dialed (localConn : Nat)
  /-- `b.setState(StateConnected)` is next. -/
  | stored
  /-- `go b.forwardToLocal()` and `go b.forwardToRelay()` are next. -/
  | connected
  /-- Returned this error (`none` for `nil`). -/
  | returned (err : Option String)
  deriving DecidableEq, Repr

/-- A goroutine running the bridge's code. -/
inductive Goroutine where
  | waitForGame (pc : Waiting)
  | connectRelay (relayConn : Nat) (pc : Connecting)
  | forward (d : Dir) (pc : Fwd)
  deriving DecidableEq, Repr

end SfoConnectivity.Bridge

namespace SfoConnectivity

open Bridge in
structure Bridge where
  state : State
  targetAddr : String
  relayConn : Option Nat
  localConn : Option Nat
  stats : Stats
  /-- `stopCh` is closed. -/
  stopped : Bool
  /-- The connections closed so far. -/
  closed : List Nat
  /-- The goroutines, by number. -/
  calls : List Goroutine
  /-- The number of the next connection opened. -/
  nextConn : Nat
  deriving DecidableEq, Repr

namespace Bridge

/-- `NewBridge`. -/
def newBridge (targetAddr : String) : Bridge :=
  { state := .init, targetAddr := targetAddr, relayConn := none, localConn := none,
    stats := ⟨0, 0, ""⟩, stopped := false, closed := [], calls := [], nextConn := 0 }

/-- What the network answers a goroutine at its next step. -/
inductive Answer where
  | none
  /-- The deadline check and `isPortListening`: whether the deadline has passed, whether
  the dial to the game went through. -/
  | probe (late listening : Bool)
  /-- What `net.DialTimeout` returns: a connection (`none`), or the text of its error. -/
  | dial (err : Option String)
  | read (r : ReadResult)
  | write (w : Option Nat)
  deriving DecidableEq, Repr

variable (b : Bridge)

def setState (s : State) : Bridge := { b with state := s }

/-- `Close`, all of it under `b.mu`. -/
def close : Bridge :=
  if b.stopped then b
  else { b with stopped := true, closed := b.relayConn.toList ++ b.localConn.toList ++ b.closed,
                state := .disconnected }

def isOpen : Option Nat → Bool
  | some c => c ∉ b.closed
  | none => false

/-- The connection a loop reads. -/
def source : Dir → Option Nat
  | .toLocal => b.relayConn
  | .toRelay => b.localConn

/-- The connection a loop writes. -/
def dest : Dir → Option Nat
  | .toLocal => b.localConn
  | .toRelay => b.relayConn

/-- What the loop at `pc` is answered: its `select` sees `stopCh` as it is, and a `Read` or
a `Write` on a closed connection fails having moved no byte. -/
def input (d : Dir) : Fwd → Answer → Option Input
  | .top, .none => some (.select b.stopped)
  | .reading, .read r =>
    some (.read (if b.isOpen (b.source d) then r
      else ⟨[], some (.other "use of closed network connection")⟩))
  | .read _, .none | .closing, .none => some .go
  | .added _, .write w => some (.write (if b.isOpen (b.dest d) then w else some 0))
  | _, _ => none

def apply (d : Dir) : Effect → Bridge
  | .add n => { b with stats := b.stats.add d n }
  | .close => b.close
  | .none | .took _ | .wrote _ => b

def waitForGame : Waiting → Answer → Option (Waiting × Bridge)
  | .start, .none => some (.top, b.setState .waitingForGame)
  | .top, .none => some (if b.stopped then .returned (some "cancelled") else .probing, b)
  | .probing, .probe late listening =>
    some (if late then .returned (some ("timeout waiting for game on " ++ b.targetAddr))
      else if listening then .listening else .top, b)
  | .listening, .none => some (.returned none, b.setState .ready)
  | _, _ => none

def connectRelay (relayConn : Nat) : Connecting → Answer → Option (Connecting × Bridge)
  | .start, .none => some (.dialing, b.setState .connectingRelay)
  | .dialing, .dial (some err) =>
    some (.dialFailed err,
      { b with stats := { b.stats with lastError := "failed to connect to game: " ++ err } })
  | .dialing, .dial none => some (.dialed b.nextConn, { b with nextConn := b.nextConn + 1 })
  | .dialFailed err, .none =>
    some (.returned (some ("failed to connect to game at " ++ b.targetAddr ++ ": " ++ err)),
      b.setState .error)
  | .dialed localConn, .none =>
    some (.stored, { b with relayConn := some relayConn, localConn := some localConn })
  | .stored, .none => some (.connected, b.setState .connected)
  | .connected, .none =>
    some (.returned none,
      { b with calls := b.calls ++ [.forward .toLocal .top, .forward .toRelay .top] })
  | _, _ => none

def setCall (g : Nat) (c : Goroutine) : Bridge := { b with calls := b.calls.set g c }

/-- A caller runs a call of the bridge's code in its goroutine. -/
def spawn (c : Goroutine) : Bridge := { b with calls := b.calls ++ [c] }

inductive Action where
  /-- A caller starts `WaitForGame`. -/
  | waitForGame
  /-- A caller starts `ConnectRelay` with a relay connection it has just opened. -/
  | connectRelay
  | close
  /-- Goroutine `g` takes its next step, given what the network answers. -/
  | run (g : Nat) (a : Answer)
  deriving DecidableEq, Repr

/-- One step; `none` when goroutine `g` does not take that answer at its point. -/
def step : Action → Option Bridge
  | .waitForGame => some (b.spawn (.waitForGame .start))
  | .connectRelay =>
    some ({ b with nextConn := b.nextConn + 1 }.spawn (.connectRelay b.nextConn .start))
  | .close => some b.close
  | .run g a =>
    match b.calls[g]? with
    | some (.waitForGame pc) =>
      (b.waitForGame pc a).map fun (pc', b') => b'.setCall g (.waitForGame pc')
    | some (.connectRelay r pc) =>
      (b.connectRelay r pc a).map fun (pc', b') => b'.setCall g (.connectRelay r pc')
    | some (.forward d pc) =>
      ((b.input d pc a).bind pc.step).map fun (pc', e) => (b.setCall g (.forward d pc')).apply d e
    | none => none

def run : Bridge → List Action → Option Bridge
  | b, [] => some b
  | b, a :: as => (b.step a).bind (run · as)

/-- The states a bridge reaches from `NewBridge` through any interleaving. -/
inductive Reachable : Bridge → Prop
  | init (targetAddr : String) : Reachable (newBridge targetAddr)
  | step {b b' : Bridge} (a : Action) : Reachable b → b.step a = some b' → Reachable b'

variable {b b' : Bridge}

@[simp] theorem stopped_close : b.close.stopped = true := by
  unfold close; split <;> simp_all

theorem close_of_stopped (h : b.stopped = true) : b.close = b := by simp [close, h]

@[simp] theorem calls_close : b.close.calls = b.calls := by
  unfold close; split <;> rfl

@[simp] theorem nextConn_close : b.close.nextConn = b.nextConn := by
  unfold close; split <;> rfl

theorem getElem?_append_length_add {α : Type} (l m : List α) (k : Nat) :
    (l ++ m)[l.length + k]? = m[k]? := by
  rw [List.getElem?_append_right (by omega), Nat.add_sub_cancel_left]

theorem getElem?_append_length {α : Type} (l m : List α) : (l ++ m)[l.length]? = m[0]? :=
  getElem?_append_length_add l m 0

theorem set_append_length_add {α : Type} (l m : List α) (k : Nat) (x : α) :
    (l ++ m).set (l.length + k) x = l ++ m.set k x := by
  induction l with
  | nil => simp
  | cons a l ih => simp [Nat.add_right_comm _ 1 k, ih]

theorem set_append_length {α : Type} (l m : List α) (x : α) :
    (l ++ m).set l.length x = l ++ m.set 0 x :=
  set_append_length_add l m 0 x

/-! ## Connection numbers are fresh -/

/-- The connections a goroutine holds in its own variables. -/
def Goroutine.conns : Goroutine → List Nat
  | .connectRelay r (.dialed l) => [r, l]
  | .connectRelay r _ => [r]
  | _ => []

/-- Every connection the bridge has closed, holds, or has handed to a goroutine has a number
below `nextConn`: a dial and a new relay connection get numbers not seen before. -/
structure Below (b : Bridge) : Prop where
  closed : ∀ c ∈ b.closed, c < b.nextConn
  relayConn : ∀ c ∈ b.relayConn, c < b.nextConn
  localConn : ∀ c ∈ b.localConn, c < b.nextConn
  calls : ∀ g ∈ b.calls, ∀ c ∈ g.conns, c < b.nextConn

theorem Below.close (h : b.Below) : b.close.Below := by
  unfold Bridge.close
  split
  · exact h
  · refine ⟨?_, h.2, h.3, h.4⟩
    simp only [List.mem_append, Option.mem_toList]
    rintro c ((hc | hc) | hc)
    exacts [h.2 c hc, h.3 c hc, h.1 c hc]

theorem Below.setCall (h : b.Below) {g : Nat} {x : Goroutine}
    (hx : ∀ c ∈ x.conns, c < b.nextConn) : (b.setCall g x).Below :=
  ⟨h.1, h.2, h.3, fun _ hg => (List.mem_or_eq_of_mem_set hg).elim (h.4 _) (· ▸ hx)⟩

theorem Below.apply (h : b.Below) (d : Dir) (e : Effect) : (b.apply d e).Below := by
  cases e
  case close => exact h.close
  all_goals exact ⟨h.1, h.2, h.3, h.4⟩

theorem Below.waitForGame (h : b.Below) {pc pc' : Waiting} {a : Answer}
    (hs : b.waitForGame pc a = some (pc', b')) : b'.Below := by
  unfold Bridge.waitForGame at hs
  split at hs <;> cases hs <;> exact ⟨h.1, h.2, h.3, h.4⟩

theorem Below.connectRelay (h : b.Below) {r : Nat} {pc pc' : Connecting} {a : Answer}
    (hr : ∀ c ∈ (Goroutine.connectRelay r pc).conns, c < b.nextConn)
    (hs : b.connectRelay r pc a = some (pc', b')) :
    b'.Below ∧ ∀ c ∈ (Goroutine.connectRelay r pc').conns, c < b'.nextConn := by
  have hr₀ : r < b.nextConn := hr r (by cases pc <;> simp [Goroutine.conns])
  unfold Bridge.connectRelay at hs
  split at hs <;> cases hs
  case h_3 =>
    refine ⟨⟨fun c hc => ?_, fun c hc => ?_, fun c hc => ?_, fun g hg c hc => ?_⟩, ?_⟩
    · have := h.1 c hc; simp only; omega
    · have := h.2 c hc; simp only; omega
    · have := h.3 c hc; simp only; omega
    · have := h.4 g hg c hc; simp only; omega
    · intro c hc
      simp only [Goroutine.conns, List.mem_cons, List.mem_singleton, List.not_mem_nil,
        or_false] at hc ⊢
      omega
  case h_5 l =>
    have hl : l < b.nextConn := hr l (by simp [Goroutine.conns])
    refine ⟨⟨h.1, ?_, ?_, h.4⟩, by simpa [Goroutine.conns] using hr₀⟩ <;> simpa
  case h_7 =>
    refine ⟨⟨h.1, h.2, h.3, ?_⟩, by simpa [Goroutine.conns] using hr₀⟩
    simp only [List.mem_append, List.mem_cons, List.not_mem_nil, or_false]
    rintro g (hg | rfl | rfl)
    exacts [h.4 g hg, by simp [Goroutine.conns], by simp [Goroutine.conns]]
  all_goals exact ⟨⟨h.1, h.2, h.3, h.4⟩, by simpa [Goroutine.conns] using hr₀⟩

theorem Below.step (h : b.Below) {a : Action} (hs : b.step a = some b') : b'.Below := by
  cases a with
  | waitForGame =>
    cases hs
    refine ⟨h.1, h.2, h.3, ?_⟩
    simp only [spawn, List.mem_append, List.mem_singleton]
    rintro g (hg | rfl)
    exacts [h.4 g hg, by simp [Goroutine.conns]]
  | connectRelay =>
    cases hs
    refine ⟨fun c hc => Nat.lt_succ_of_lt (h.1 c hc), fun c hc => Nat.lt_succ_of_lt (h.2 c hc),
      fun c hc => Nat.lt_succ_of_lt (h.3 c hc), ?_⟩
    simp only [spawn, List.mem_append, List.mem_singleton]
    rintro g (hg | rfl) c hc
    · exact Nat.lt_succ_of_lt (h.4 g hg c hc)
    · simp only [Goroutine.conns, List.mem_singleton] at hc; omega
  | close => cases hs; exact h.close
  | run g a =>
    simp only [Bridge.step] at hs
    split at hs
    · obtain ⟨⟨pc', b₁⟩, hw, rfl⟩ := Option.map_eq_some'.mp hs
      exact (h.waitForGame hw).setCall (by simp [Goroutine.conns])
    · rename_i r pc hg
      obtain ⟨⟨pc', b₁⟩, hw, rfl⟩ := Option.map_eq_some'.mp hs
      obtain ⟨h₁, hc⟩ := h.connectRelay (h.4 _ (List.getElem?_mem hg)) hw
      exact h₁.setCall hc
    · obtain ⟨⟨pc', e⟩, -, rfl⟩ := Option.map_eq_some'.mp hs
      exact (h.setCall (by simp [Goroutine.conns])).apply _ _
    · cases hs

theorem Reachable.conns_below (hb : Reachable b) : b.Below := by
  induction hb with
  | init => exact ⟨by simp [newBridge], by simp [newBridge], by simp [newBridge], by simp [newBridge]⟩
  | step _ _ hs ih => exact ih.step hs

/-! ## `Close` does not stop the other calls -/

/-- After `Close`, a `ConnectRelay` call whose dial goes through runs to the end: it sets the
state to connected, stores two connections, and starts two loops that return at their first
`select`. -/
theorem connectRelay_after_stop (hs : b.stopped = true) :
    b.run [.connectRelay, .run b.calls.length .none, .run b.calls.length (.dial none),
      .run b.calls.length .none, .run b.calls.length .none, .run b.calls.length .none,
      .run (b.calls.length + 1) .none, .run (b.calls.length + 2) .none] =
    some { b with state := .connected, relayConn := some b.nextConn,
                  localConn := some (b.nextConn + 1), nextConn := b.nextConn + 2,
                  calls := b.calls ++ [.connectRelay b.nextConn (.returned none),
                    .forward .toLocal .done, .forward .toRelay .done] } := by
  iterate 8 (rw [run]; simp only [step, spawn, setCall, connectRelay, setState, input, hs,
    Fwd.step, apply, getElem?_append_length_add, getElem?_append_length, set_append_length_add,
    set_append_length, List.getElem?_cons_zero, List.getElem?_cons_succ, List.set_cons_zero,
    List.set_cons_succ, Option.map_some', Option.some_bind, List.append_assoc, List.cons_append,
    List.nil_append, if_true])
  rfl

/-- A `Close` that lands while a `WaitForGame` call is between a successful probe and
`setState(StateReady)` is undone by it. -/
theorem waitForGame_across_close (hs : b.stopped = false) :
    b.run [.waitForGame, .run b.calls.length .none, .run b.calls.length .none,
      .run b.calls.length (.probe false true), .close, .run b.calls.length .none] =
    some { b with state := .ready, stopped := true,
                  closed := b.relayConn.toList ++ b.localConn.toList ++ b.closed,
                  calls := b.calls ++ [.waitForGame (.returned none)] } := by
  iterate 6 (rw [run]; simp only [step, spawn, setCall, waitForGame, setState, hs, close,
    getElem?_append_length, set_append_length, List.getElem?_cons_zero, List.set_cons_zero,
    Option.map_some', Option.some_bind, Bool.false_eq_true, if_false, if_true])
  rfl

/-- `Close` does not end the bridge, from any state the bridge can reach. After it, a
`ConnectRelay` call sets the state to connected and leaves the bridge holding two open
connections that a second `Close` leaves open, `stopCh` being closed already, while both new
loops have returned. And a `Close` that lands between a `WaitForGame` probe and its
`setState(StateReady)` is followed by the state ready. -/
theorem close_is_not_absorbing (hb : Reachable b) :
    (∃ b', b.close.run [.connectRelay, .run b.calls.length .none,
        .run b.calls.length (.dial none), .run b.calls.length .none, .run b.calls.length .none,
        .run b.calls.length .none, .run (b.calls.length + 1) .none,
        .run (b.calls.length + 2) .none] = some b' ∧
      b'.stopped = true ∧ b'.state = .connected ∧ b'.isOpen b'.relayConn = true ∧
      b'.isOpen b'.localConn = true ∧ b'.close = b' ∧
      b'.calls.drop b.calls.length = [.connectRelay b.nextConn (.returned none),
        .forward .toLocal .done, .forward .toRelay .done]) ∧
    (b.stopped = false → ∃ b', b.run [.waitForGame, .run b.calls.length .none,
        .run b.calls.length .none, .run b.calls.length (.probe false true), .close,
        .run b.calls.length .none] = some b' ∧ b'.stopped = true ∧ b'.state = .ready) := by
  have hc := hb.conns_below.close
  have hrun := connectRelay_after_stop (b := b.close) stopped_close
  rw [calls_close, nextConn_close] at hrun
  refine ⟨⟨_, hrun, stopped_close, rfl, ?_, ?_, close_of_stopped stopped_close, by simp⟩,
    fun hs => ⟨_, waitForGame_across_close hs, rfl, rfl⟩⟩
  · simpa [isOpen] using fun h => Nat.lt_irrefl _ (hc.1 _ h)
  · simpa [isOpen] using fun h => Nat.lt_irrefl _ (Nat.lt_of_succ_lt (hc.1 _ h))

theorem close_is_not_absorbing_from_start :
    (∃ b', (newBridge "127.0.0.1:1626").close.run [.connectRelay, .run 0 .none,
        .run 0 (.dial none), .run 0 .none, .run 0 .none, .run 0 .none, .run 1 .none,
        .run 2 .none] = some b' ∧
      b'.stopped = true ∧ b'.state = .connected ∧ b'.isOpen b'.relayConn = true ∧
      b'.isOpen b'.localConn = true ∧ b'.close = b' ∧
      b'.calls.drop 0 = [.connectRelay 0 (.returned none), .forward .toLocal .done,
        .forward .toRelay .done]) ∧
    ((newBridge "127.0.0.1:1626").stopped = false → ∃ b', (newBridge "127.0.0.1:1626").run
        [.waitForGame, .run 0 .none, .run 0 .none, .run 0 (.probe false true), .close,
          .run 0 .none] = some b' ∧ b'.stopped = true ∧ b'.state = .ready) :=
  close_is_not_absorbing (.init _)

/-! ## What `Close` does guarantee -/

/-- A `WaitForGame` or `ConnectRelay` call that has not returned. -/
def Goroutine.pending : Goroutine → Bool
  | .waitForGame (.returned _) | .connectRelay _ (.returned _) | .forward _ _ => false
  | _ => true

/-- What `Close` leaves when no `WaitForGame` or `ConnectRelay` call is under way: `stopCh`
closed, the state disconnected, and neither connection open. -/
structure Settled (b : Bridge) : Prop where
  stopped : b.stopped = true
  state : b.state = .disconnected
  quiet : ∀ g ∈ b.calls, g.pending = false
  relayConn : b.isOpen b.relayConn = false
  localConn : b.isOpen b.localConn = false

theorem settled_close (hs : b.stopped = false) (hq : ∀ g ∈ b.calls, g.pending = false) :
    b.close.Settled := by
  simp only [close, hs, Bool.false_eq_true, if_false]
  refine ⟨rfl, rfl, hq, ?_, ?_⟩ <;> cases b.relayConn <;> cases b.localConn <;> simp [isOpen]

theorem Settled.close_eq (h : b.Settled) : b.close = b := close_of_stopped h.stopped

theorem Settled.isOpen_source (h : b.Settled) (d : Dir) : b.isOpen (b.source d) = false := by
  cases d
  exacts [h.relayConn, h.localConn]

theorem Settled.isOpen_dest (h : b.Settled) (d : Dir) : b.isOpen (b.dest d) = false := by
  cases d
  exacts [h.localConn, h.relayConn]

theorem Settled.setCall_forward (h : b.Settled) (g : Nat) (d : Dir) (pc : Fwd) :
    (b.setCall g (.forward d pc)).Settled :=
  ⟨h.1, h.2, fun _ hg => (List.mem_or_eq_of_mem_set hg).elim (h.3 _) (· ▸ rfl), h.4, h.5⟩

theorem Settled.apply (h : b.Settled) (d : Dir) (e : Effect) : (b.apply d e).Settled := by
  cases e
  case close => simpa [Bridge.apply, h.close_eq] using h
  all_goals exact ⟨h.1, h.2, h.3, h.4, h.5⟩

theorem waitForGame_returned {e : Option String} {a : Answer} :
    b.waitForGame (.returned e) a = none := by
  cases a <;> rfl

theorem connectRelay_returned {r : Nat} {e : Option String} {a : Answer} :
    b.connectRelay r (.returned e) a = none := by
  cases a <;> rfl

/-- Once settled, a step that starts no call leaves the bridge settled: the forwarding loops
and further `Close` calls keep the state disconnected and open no connection. -/
theorem Settled.step (h : b.Settled) {a : Action} (ha : a ≠ .waitForGame ∧ a ≠ .connectRelay)
    (hs : b.step a = some b') : b'.Settled := by
  cases a with
  | waitForGame => exact absurd rfl ha.1
  | connectRelay => exact absurd rfl ha.2
  | close => cases hs; rwa [h.close_eq]
  | run g a =>
    simp only [Bridge.step] at hs
    split at hs
    · rename_i pc hg
      have hq := h.quiet _ (List.getElem?_mem hg)
      cases pc <;> simp only [Goroutine.pending, reduceCtorEq] at hq
      simp [waitForGame_returned] at hs
    · rename_i pc hg
      have hq := h.quiet _ (List.getElem?_mem hg)
      cases pc <;> simp only [Goroutine.pending, reduceCtorEq] at hq
      simp [connectRelay_returned] at hs
    · obtain ⟨⟨pc', e⟩, -, rfl⟩ := Option.map_eq_some'.mp hs
      exact (h.setCall_forward _ _ _).apply _ _
    · cases hs

theorem Settled.run (h : b.Settled) {as : List Action}
    (ha : ∀ a ∈ as, a ≠ .waitForGame ∧ a ≠ .connectRelay) (hr : b.run as = some b') :
    b'.Settled := by
  induction as generalizing b with
  | nil => cases hr; exact h
  | cons a as ih =>
    obtain ⟨b₁, h₁, hr⟩ := Option.bind_eq_some.mp hr
    exact ih (h.step (ha a (List.mem_cons_self _ _)) h₁)
      (fun a' ha' => ha a' (List.mem_cons_of_mem _ ha')) hr

/-- The answers a loop gets once `stopCh` and both its connections are closed: the `select`
sees `stopCh` closed, a `Read` fails with no byte, a `Write` fails with none written. -/
def Input.failing : Input → Bool
  | .select stopped => stopped
  | .read r => r.err.isSome && r.data.isEmpty
  | .write w => w == some 0
  | .go => true

/-- The steps a loop has left when every answer fails. -/
def Fwd.stepsLeft : Fwd → Nat
  | .done => 0
  | .top | .closing => 1
  | .reading | .added _ => 2
  | .read _ => 3

theorem Fwd.stepsLeft_step {pc pc' : Fwd} {i : Input} {e : Effect} (hi : i.failing = true)
    (hs : pc.step i = some (pc', e)) : pc'.stepsLeft < pc.stepsLeft := by
  match pc, i, hs with
  | .top, .select _, hs | .reading, .read ⟨_, some _⟩, hs | .read _, .go, hs
  | .added _, .write (some _), hs | .closing, .go, hs =>
    simp only [Input.failing] at hi
    simp only [Fwd.step, hi, if_true, Option.some.injEq, Prod.mk.injEq] at hs
    obtain ⟨rfl, -⟩ := hs
    simp [Fwd.stepsLeft]
  | .reading, .read ⟨_, none⟩, _ => simp [Input.failing] at hi
  | .added _, .write none, _ => simp [Input.failing] at hi

theorem Settled.input_failing (h : b.Settled) {d : Dir} {pc : Fwd} {a : Answer} {i : Input}
    (hi : b.input d pc a = some i) : i.failing = true := by
  cases pc <;> cases a <;> simp only [input, Option.some.injEq, reduceCtorEq] at hi <;>
    subst hi <;> simp [Input.failing, h.stopped, h.isOpen_source, h.isOpen_dest]

@[simp] theorem calls_apply (d : Dir) (e : Effect) : (b.apply d e).calls = b.calls := by
  cases e <;> simp [Bridge.apply]

/-- Once settled, every step of a forwarding loop, whatever the network answers, brings it
nearer to its return. -/
theorem Settled.forward_step (h : b.Settled) {g : Nat} {d : Dir} {pc : Fwd} {a : Answer}
    (hg : b.calls[g]? = some (.forward d pc)) (hs : b.step (.run g a) = some b') :
    ∃ pc', b'.calls[g]? = some (.forward d pc') ∧ pc'.stepsLeft < pc.stepsLeft := by
  simp only [Bridge.step, hg] at hs
  obtain ⟨⟨pc', e⟩, hi, rfl⟩ := Option.map_eq_some'.mp hs
  obtain ⟨i, hin, hst⟩ := Option.bind_eq_some.mp hi
  have hlt : g < b.calls.length := (List.getElem?_eq_some_iff.mp hg).1
  exact ⟨pc', by simp [setCall, hlt], Fwd.stepsLeft_step (h.input_failing hin) hst⟩

/-- Once settled, a forwarding loop that has not returned can always take a step. -/
theorem Settled.forward_enabled (h : b.Settled) {g : Nat} {d : Dir} {pc : Fwd}
    (hg : b.calls[g]? = some (.forward d pc)) (hpc : pc ≠ .done) :
    ∃ a b', b.step (.run g a) = some b' := by
  cases pc with
  | top | read _ | closing => exact ⟨.none, by simp [Bridge.step, hg, input, Fwd.step]⟩
  | reading =>
    exact ⟨.read ⟨[], none⟩, by simp [Bridge.step, hg, input, Fwd.step, h.isOpen_source]⟩
  | added _ => exact ⟨.write none, by simp [Bridge.step, hg, input, Fwd.step, h.isOpen_dest]⟩
  | done => exact absurd rfl hpc

/-- `Close` of a bridge on which no `WaitForGame` or `ConnectRelay` call is under way settles it
for good. Along every later interleaving that starts neither call, the state stays
disconnected and neither connection is open; every forwarding loop still running can always
take a step, and each of its steps, whatever the network answers, brings it nearer its
return. -/
theorem close_settles_quiet_bridge (hs : b.stopped = false)
    (hq : ∀ g ∈ b.calls, g.pending = false) {as : List Action}
    (ha : ∀ a ∈ as, a ≠ .waitForGame ∧ a ≠ .connectRelay) (hr : b.close.run as = some b') :
    b'.Settled ∧ ∀ g d pc, b'.calls[g]? = some (.forward d pc) → pc ≠ .done →
      (∃ a b'', b'.step (.run g a) = some b'') ∧
        ∀ a b'', b'.step (.run g a) = some b'' →
          ∃ pc', b''.calls[g]? = some (.forward d pc') ∧ pc'.stepsLeft < pc.stepsLeft :=
  have h := (settled_close hs hq).run ha hr
  ⟨h, fun _ _ _ hg hpc => ⟨h.forward_enabled hg hpc, fun _ _ => h.forward_step hg⟩⟩

/-- `ConnectRelay` run to its return from `NewBridge`: both loops stand at their first
`select`. -/
def connectedBridge : Bridge :=
  { newBridge "127.0.0.1:1626" with
    state := .connected, relayConn := some 0, localConn := some 1, nextConn := 2,
    calls := [.connectRelay 0 (.returned none), .forward .toLocal .top, .forward .toRelay .top] }

theorem close_settles_connected_bridge :
    (newBridge "127.0.0.1:1626").run [.connectRelay, .run 0 .none, .run 0 (.dial none),
        .run 0 .none, .run 0 .none, .run 0 .none] = some connectedBridge ∧
      connectedBridge.stopped = false ∧ (∀ g ∈ connectedBridge.calls, g.pending = false) ∧
      (∀ a ∈ [Action.run 1 .none, .run 2 .none], a ≠ .waitForGame ∧ a ≠ .connectRelay) ∧
      ∃ b', connectedBridge.close.run [.run 1 .none, .run 2 .none] = some b' ∧
        b'.Settled ∧ ∀ g d pc, b'.calls[g]? = some (.forward d pc) → pc ≠ .done →
          (∃ a b'', b'.step (.run g a) = some b'') ∧
            ∀ a b'', b'.step (.run g a) = some b'' →
              ∃ pc', b''.calls[g]? = some (.forward d pc') ∧ pc'.stepsLeft < pc.stepsLeft :=
  ⟨rfl, rfl, by decide, by decide,
    _, rfl, close_settles_quiet_bridge (b := connectedBridge) rfl (by decide)
      (by decide : ∀ a ∈ [Action.run 1 .none, .run 2 .none], a ≠ .waitForGame ∧ a ≠ .connectRelay)
      rfl⟩

end Bridge

end SfoConnectivity
