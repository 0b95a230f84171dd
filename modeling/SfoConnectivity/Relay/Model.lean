import Mathlib.Data.List.AList

/-! # The relay (`internal/relay/relay.go`)

`acceptLoop` runs `HandleConnection` in a goroutine of its own for each connection, and the
goroutines meet only in the pending table, under `r.mu`. A goroutine is the place where it
can stop and let the others run; each locked region is one step, and so is the handshake,
which touches only its own connection. Connections are numbers, instants nanoseconds.
`authed` and `paired` are bookkeeping for the proofs: they record what the code did and
nothing reads them.
-/

namespace SfoConnectivity

namespace Relay

structure AuthMessage where
  sessionID : String
  relayToken : String
  role : String
  deriving DecidableEq, Repr

structure AuthResponse where
  success : Bool
  error : String
  deriving DecidableEq, Repr

structure PendingConnection where
  conn : Nat
  role : String
  sessionID : String
  createdAt : Nat
  deriving DecidableEq, Repr

/-- `TokenValidator.Validate`: the session id and the role a token carries. -/
def TokenValidator := String → Except String (String × String)

/-- Where a `HandleConnection` goroutine is. -/
inductive Phase where
  /-- Reading the auth message under the handshake deadline. -/
  | handshake
  /-- Answered `{success:true}`; about to take `r.mu`. -/
  | authenticated (sessionID role : String)
  /-- Took the pending entry away and let go of `r.mu`; about to call `pairConnections`. -/
  | pairing (sessionID : String) (hostConn joinerConn : Nat)
  /-- In `pairConnections`, at `wg.Wait()`; a flag is set while its copy runs. -/
  | splicing (sessionID : String) (hostConn joinerConn : Nat) (hostToJoiner joinerToHost : Bool)
  /-- In `waitForPair`, at the top of its loop. -/
  | waiting (sessionID : String) (deadline : Nat)
  /-- In `waitForPair`, past the deadline, about to take its entry away. -/
  | timedOut (sessionID : String)
  /-- Returning from `HandleConnection`: the deferred `conn.Close()` is next. -/
  | returning
  deriving DecidableEq, Repr

end Relay

open Relay in
structure Relay where
  pending : AList (fun _ : String => PendingConnection)
  pairTimeout : Nat
  /-- The goroutine of each connection, while it runs. -/
  handlers : AList (fun _ : Nat => Phase)
  closed : List Nat
  /-- What the relay wrote in answer to each handshake. -/
  answers : List (Nat × AuthResponse)
  now : Nat
  /-- The number of the next accepted connection. -/
  nextConn : Nat
  /-- The auth message of each connection that passed the handshake. -/
  authed : AList (fun _ : Nat => AuthMessage)
  /-- The calls `pairConnections(sessionID, hostConn, joinerConn)` so far. -/
  paired : List (String × Nat × Nat)

namespace Relay

def newRelay (pairTimeout : Nat) : Relay :=
  { pending := ∅, pairTimeout := pairTimeout, handlers := ∅, closed := [], answers := [],
    now := 0, nextConn := 0, authed := ∅, paired := [] }

inductive Action where
  /-- `listener.Accept()` and `go r.HandleConnection(conn)`. -/
  | accept
  /-- The handshake: the decoded message (none when it is malformed, truncated or late),
  and whether the write of `{success:true}` went through. -/
  | handshake (conn : Nat) (msg : Option AuthMessage) (sent : Bool)
  /-- The pairing decision under `r.mu`. -/
  | lock (conn : Nat)
  /-- The call of `pairConnections`, which starts the two copies. -/
  | pair (conn : Nat)
  /-- One copy ends (read EOF, an error, or the deadline) and closes the side it wrote to. -/
  | copyDone (conn : Nat) (hostToJoiner : Bool)
  /-- One turn of the `waitForPair` loop. -/
  | poll (conn : Nat)
  /-- The removal after the pair timeout, under `r.mu`. -/
  | expire (conn : Nat)
  /-- The deferred `conn.Close()`. -/
  | exit (conn : Nat)
  /-- One tick of `cleanupLoop`. -/
  | cleanup
  | tick (d : Nat)

section Step

variable (validator : TokenValidator) (r : Relay)

def setPhase (c : Nat) (ph : Phase) : Relay := { r with handlers := r.handlers.insert c ph }

/-- Lines 63 to 93 of `HandleConnection`, for a connection whose goroutine reads the
handshake. -/
def handshake (c : Nat) (msg : Option AuthMessage) (sent : Bool) : Relay :=
  let fail (e : String) : Relay :=
    { r.setPhase c .returning with answers := r.answers ++ [(c, ⟨false, e⟩)] }
  match msg with
  | none => fail "Invalid auth message"
  | some m =>
    match validator m.relayToken with
    | .error _ => fail "Invalid token"
    | .ok (sessionID, role) =>
      if sessionID ≠ m.sessionID ∨ role ≠ m.role then fail "Token mismatch"
      else if sent then
        { r.setPhase c (.authenticated sessionID role) with
          answers := r.answers ++ [(c, ⟨true, ""⟩)], authed := r.authed.insert c m }
      else r.setPhase c .returning

/-- The critical section of lines 95 to 123: splice with a pending connection of the other
role, or become the pending connection, closing one of the same role. -/
def lock (c : Nat) (sessionID role : String) : Relay :=
  let park (s : Relay) : Relay :=
    { s.setPhase c (.waiting sessionID (r.now + r.pairTimeout)) with
      pending := s.pending.insert sessionID ⟨c, role, sessionID, r.now⟩ }
  match r.pending.lookup sessionID with
  | some p =>
    if p.role ≠ role then
      let pair := if role = "host" then (c, p.conn) else (p.conn, c)
      { r.setPhase c (.pairing sessionID pair.1 pair.2) with
        pending := r.pending.erase sessionID }
    else park { r with closed := p.conn :: r.closed }
  | none => park r

/-- The copy in one direction ends and closes the connection it wrote to; `wg.Wait()`
returns when both have. -/
def copyDone (c : Nat) (sessionID : String) (h j : Nat) (hj jh hostToJoiner : Bool) :
    Relay :=
  let (hj, jh, dst) := if hostToJoiner then (false, jh, j) else (hj, false, h)
  { r.setPhase c (if hj || jh then .splicing sessionID h j hj jh else .returning) with
    closed := dst :: r.closed }

/-- The first half of a turn of `waitForPair`: look at the entry under `r.mu`, then at the
clock. -/
def poll (c : Nat) (sessionID : String) (deadline : Nat) : Relay :=
  match r.pending.lookup sessionID with
  | some p =>
    if p.conn ≠ c then r.setPhase c .returning
    else if r.now > deadline then r.setPhase c (.timedOut sessionID)
    else r
  | none => r.setPhase c .returning

def expire (c : Nat) (sessionID : String) : Relay :=
  match r.pending.lookup sessionID with
  | some p =>
    if p.conn = c then { r.setPhase c .returning with pending := r.pending.erase sessionID }
    else r.setPhase c .returning
  | none => r.setPhase c .returning

/-- `cleanup`: every entry older than the pair timeout is closed and removed. -/
def cleanup : Relay :=
  r.pending.entries.foldl (fun acc e =>
    if e.2.createdAt < r.now - r.pairTimeout then
      { acc with closed := e.2.conn :: acc.closed, pending := acc.pending.erase e.1 }
    else acc) r

/-- One step of one goroutine; `none` when the goroutine is not at that point. -/
def step : Action → Option Relay
  | .accept => some { r.setPhase r.nextConn .handshake with nextConn := r.nextConn + 1 }
  | .handshake c msg sent =>
    match r.handlers.lookup c with
    | some .handshake => some (r.handshake validator c msg sent)
    | _ => none
  | .lock c =>
    match r.handlers.lookup c with
    | some (.authenticated sessionID role) => some (r.lock c sessionID role)
    | _ => none
  | .pair c =>
    match r.handlers.lookup c with
    | some (.pairing sessionID h j) =>
      some { r.setPhase c (.splicing sessionID h j true true) with
        paired := r.paired ++ [(sessionID, h, j)] }
    | _ => none
  | .copyDone c dir =>
    match r.handlers.lookup c with
    | some (.splicing sessionID h j hj jh) =>
      if (if dir then hj else jh) then some (r.copyDone c sessionID h j hj jh dir) else none
    | _ => none
  | .poll c =>
    match r.handlers.lookup c with
    | some (.waiting sessionID deadline) => some (r.poll c sessionID deadline)
    | _ => none
  | .expire c =>
    match r.handlers.lookup c with
    | some (.timedOut sessionID) => some (r.expire c sessionID)
    | _ => none
  | .exit c =>
    match r.handlers.lookup c with
    | some .returning => some { r with handlers := r.handlers.erase c, closed := c :: r.closed }
    | _ => none
  | .cleanup => some r.cleanup
  | .tick d => some { r with now := r.now + d }

end Step

/-- The states a relay reaches from `NewRelay` through any interleaving of the goroutines. -/
inductive Reachable (validator : TokenValidator) (pairTimeout : Nat) : Relay → Prop
  | init : Reachable validator pairTimeout (newRelay pairTimeout)
  | step {r r' : Relay} (a : Action) :
    Reachable validator pairTimeout r → r.step validator a = some r' →
      Reachable validator pairTimeout r'

/-- The steps of a run, in order; `none` when one of them cannot be taken. -/
def run (validator : TokenValidator) : Relay → List Action → Option Relay
  | r, [] => some r
  | r, a :: as => (r.step validator a).bind (run validator · as)

theorem Reachable.run {validator : TokenValidator} {pairTimeout : Nat} {r r' : Relay}
    {as : List Action} (hr : Reachable validator pairTimeout r) (h : r.run validator as = some r') :
    Reachable validator pairTimeout r' := by
  induction as generalizing r with
  | nil => exact Option.some.inj h ▸ hr
  | cons a as ih =>
    obtain ⟨r₁, h₁, h₂⟩ := Option.bind_eq_some.mp h
    exact ih (.step a hr h₁) h₂

end Relay

end SfoConnectivity
