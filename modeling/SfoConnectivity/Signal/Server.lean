import SfoConnectivity.Rendezvous.Lifecycle

/-! # The signaling server of the peer-to-peer path (`internal/p2p/signal_server.go`)

A store of sessions keyed by id and by an `SFO-XXXX` code, each with two mailboxes. A
`*SignalMessage` can be nil, so a slot holds an `Option SignalMessage`. `AddSignal` and
`GetSignal` find the session under the server's lock and then work under the session's own
lock; with no janitor in between, each call is one atomic step on the session.
-/

namespace SfoConnectivity.Signal

open Rendezvous (hexString)

structure SignalMessage where
  type : String
  sdp : String
  candidate : String
  deriving DecidableEq, Repr

structure Session where
  id : String
  code : String
  hostSignals : List (Option SignalMessage)
  joinSignals : List (Option SignalMessage)
  hostIndex : Nat
  joinIndex : Nat
  createdAt : Nat
  deriving DecidableEq, Repr

structure SignalServer where
  sessions : AList (fun _ : String => Session)
  byCodes : AList (fun _ : String => String)
  ttl : Nat

def newSignalServer (ttl : Nat) : SignalServer := { sessions := ∅, byCodes := ∅, ttl := ttl }

/-- `fmt.Sprintf("%x", b)` of sixteen bytes; the error of `rand.Read` is ignored. -/
def generateID (b : Fin 16 → UInt8) : String := hexString (List.ofFn b)

def codeChars : List Char := "ABCDEFGHIJKLMNOPQRSTUVWXYZ0123456789".toList

def generateCode (b : Fin 4 → UInt8) : String :=
  "SFO-" ++ ⟨(List.ofFn b).map fun x => codeChars.getD (x.toNat % codeChars.length) 'A'⟩

/-! ## One session's mailboxes -/

def Session.addSignal (session : Session) (role : String) (signal : Option SignalMessage) :
    Session :=
  if role = "host" then { session with hostSignals := session.hostSignals ++ [signal] }
  else { session with joinSignals := session.joinSignals ++ [signal] }

/-- The host receives the joiner's signals, and every other role the host's. -/
def Session.getSignal (session : Session) (role : String) : Option SignalMessage × Session :=
  if role = "host" then
    if h : session.hostIndex < session.joinSignals.length then
      (session.joinSignals[session.hostIndex], { session with hostIndex := session.hostIndex + 1 })
    else (none, session)
  else
    if h : session.joinIndex < session.hostSignals.length then
      (session.hostSignals[session.joinIndex], { session with joinIndex := session.joinIndex + 1 })
    else (none, session)

/-! ## The server -/

def SignalServer.createSession (s : SignalServer) (idDraw : Fin 16 → UInt8)
    (codeDraw : Fin 4 → UInt8) (now : Nat) : Session × SignalServer :=
  let id := generateID idDraw
  let code := generateCode codeDraw
  let session : Session :=
    { id := id, code := code, hostSignals := [], joinSignals := [], hostIndex := 0,
      joinIndex := 0, createdAt := now }
  (session,
    { s with sessions := s.sessions.insert id session, byCodes := s.byCodes.insert code id })

def SignalServer.joinSession (s : SignalServer) (code : String) : Except String Session :=
  match s.byCodes.lookup code with
  | none => .error "session not found"
  | some id =>
    match s.sessions.lookup id with
    | none => .error "session expired"
    | some session => .ok session

def SignalServer.addSignal (s : SignalServer) (sessionID role : String)
    (signal : Option SignalMessage) : Except String SignalServer :=
  match s.sessions.lookup sessionID with
  | none => .error "session not found"
  | some session =>
    .ok { s with sessions := s.sessions.insert sessionID (session.addSignal role signal) }

def SignalServer.getSignal (s : SignalServer) (sessionID role : String) :
    Except String (Option SignalMessage) × SignalServer :=
  match s.sessions.lookup sessionID with
  | none => (.error "session not found", s)
  | some session =>
    let r := session.getSignal role
    (.ok r.1, { s with sessions := s.sessions.insert sessionID r.2 })

def SignalServer.cleanup (s : SignalServer) (now : Nat) : SignalServer :=
  let m := sweep Session.code (fun session => now - session.createdAt > s.ttl)
    (s.sessions, s.byCodes)
  { s with sessions := m.1, byCodes := m.2 }

inductive Op where
  | createSession (idDraw : Fin 16 → UInt8) (codeDraw : Fin 4 → UInt8)
  | joinSession (code : String)
  | addSignal (sessionID role : String) (signal : Option SignalMessage)
  | getSignal (sessionID role : String)
  | cleanup

inductive Reply where
  | session (r : Except String Session)
  | sent (r : Except String Unit)
  | signal (r : Except String (Option SignalMessage))
  | done

/-- One call at the instant `now`. -/
def SignalServer.step (s : SignalServer) (now : Nat) : Op → Reply × SignalServer
  | .createSession i c => let r := s.createSession i c now; (.session (.ok r.1), r.2)
  | .joinSession code => (.session (s.joinSession code), s)
  | .addSignal sid role signal =>
    match s.addSignal sid role signal with
    | .ok s' => (.sent (.ok ()), s')
    | .error e => (.sent (.error e), s)
  | .getSignal sid role => let r := s.getSignal sid role; (.signal r.1, r.2)
  | .cleanup => (.done, s.cleanup now)

def SignalServer.run (s : SignalServer) : List (Nat × Op) → List Reply × SignalServer
  | [] => ([], s)
  | (now, op) :: ops =>
    let r := s.step now op
    let rest := r.2.run ops
    (r.1 :: rest.1, rest.2)

/-! ## The code index -/

/-- The id and the code that a `CreateSession` draws are not in the server yet.
`CreateSession` does not check this. -/
def Op.Fresh (s : SignalServer) : Op → Prop
  | .createSession i c => generateID i ∉ s.sessions ∧ generateCode c ∉ s.byCodes
  | _ => True

def SignalServer.FreshRun : SignalServer → List (Nat × Op) → Prop
  | _, [] => True
  | s, (now, op) :: ops => op.Fresh s ∧ (s.step now op).2.FreshRun ops

theorem SignalServer.codeIndexed_step {s : SignalServer} {now : Nat} {op : Op}
    (h : CodeIndexed Session.code s.sessions s.byCodes) (hf : op.Fresh s) :
    CodeIndexed Session.code (s.step now op).2.sessions (s.step now op).2.byCodes := by
  cases op with
  | createSession i c => exact codeIndexed_insert h hf.1 hf.2
  | joinSession _ => exact h
  | addSignal sid role signal =>
    simp only [SignalServer.step, SignalServer.addSignal]
    split <;> rename_i he
    · split at he
      · cases he
      · cases he
        exact codeIndexed_update h ‹_› (by unfold Session.addSignal; split <;> rfl)
    · exact h
  | getSignal sid role =>
    simp only [SignalServer.step, SignalServer.getSignal]
    split
    · exact h
    · exact codeIndexed_update h ‹_› (by unfold Session.getSignal; split <;> split <;> rfl)
  | cleanup => exact codeIndexed_sweep _ (s.sessions, s.byCodes) h

theorem SignalServer.codeIndexed_run {s : SignalServer} {ops : List (Nat × Op)}
    (h : CodeIndexed Session.code s.sessions s.byCodes) (hf : s.FreshRun ops) :
    CodeIndexed Session.code (s.run ops).2.sessions (s.run ops).2.byCodes := by
  induction ops generalizing s with
  | nil => exact h
  | cons p ops ih =>
    obtain ⟨now, op⟩ := p
    exact ih (SignalServer.codeIndexed_step h hf.1) hf.2

theorem code_index_holds_for_fresh_draws :
    (∀ ttl ops, (Rendezvous.newStore ttl).FreshRun ops →
      CodeIndexed Rendezvous.Session.code ((Rendezvous.newStore ttl).run ops).2.sessions
        ((Rendezvous.newStore ttl).run ops).2.byCodes) ∧
    (∀ ttl ops, (newSignalServer ttl).FreshRun ops →
      CodeIndexed Session.code ((newSignalServer ttl).run ops).2.sessions
        ((newSignalServer ttl).run ops).2.byCodes) :=
  ⟨fun _ _ hf => Rendezvous.codeIndexed_run codeIndexed_empty hf,
    fun _ _ hf => SignalServer.codeIndexed_run codeIndexed_empty hf⟩

/-- Three records drawn from distinct bytes at 0, 800 and 810; the second is joined by its
code, the third deleted, and the janitor's pass at 950 sweeps the first. -/
def freshStoreOps : List (Nat × Rendezvous.Op) :=
  [(0, .create (.ok fun _ => 0) (.ok fun _ => 0) (.ok fun _ => 0)),
   (800, .create (.ok fun _ => 1) (.ok fun _ => 1) (.ok fun _ => 1)),
   (810, .create (.ok fun _ => 2) (.ok fun _ => 2) (.ok fun _ => 2)),
   (850, .join "AEAQ-CAIB-AEAQ" (.ok fun _ => 3)),
   (860, .delete (hexString (List.replicate 16 2))),
   (950, .cleanup)]

/-- Two sessions drawn from distinct bytes at 0 and 100; the second is joined by its code and
the host posts an offer that the joiner takes; the janitor's pass at 350 sweeps the first. -/
def freshSignalOps : List (Nat × Op) :=
  [(0, .createSession (fun _ => 0) (fun _ => 0)),
   (100, .createSession (fun _ => 1) (fun _ => 1)),
   (150, .joinSession "SFO-BBBB"),
   (160, .addSignal (hexString (List.replicate 16 1)) "host" (some ⟨"offer", "v=0", ""⟩)),
   (170, .getSignal (hexString (List.replicate 16 1)) "joiner"),
   (350, .cleanup)]

theorem code_index_holds_through_join_delete_cleanup :
    ((Rendezvous.newStore 900).FreshRun freshStoreOps ∧
      CodeIndexed Rendezvous.Session.code ((Rendezvous.newStore 900).run freshStoreOps).2.sessions
        ((Rendezvous.newStore 900).run freshStoreOps).2.byCodes) ∧
    ((newSignalServer 300).FreshRun freshSignalOps ∧
      CodeIndexed Session.code ((newSignalServer 300).run freshSignalOps).2.sessions
        ((newSignalServer 300).run freshSignalOps).2.byCodes) := by
  have hs : (Rendezvous.newStore 900).FreshRun freshStoreOps := by
    refine ⟨⟨?_, ?_⟩, ⟨?_, ?_⟩, ⟨?_, ?_⟩, trivial, trivial, trivial, trivial⟩ <;>
      intro x hx <;> cases hx <;> decide
  have hg : (newSignalServer 300).FreshRun freshSignalOps :=
    ⟨⟨by decide, by decide⟩, ⟨by decide, by decide⟩, trivial, trivial, trivial, trivial, trivial⟩
  exact ⟨⟨hs, code_index_holds_for_fresh_draws.1 900 _ hs⟩,
    ⟨hg, code_index_holds_for_fresh_draws.2 300 _ hg⟩⟩

end SfoConnectivity.Signal
