import Mathlib.Data.List.Count

/-! # The connection-state handler of a WebRTC peer (`src/unnamed/part_001`)

`NewPeerConnection` installs one handler for the state pion reports. On `Connected` it sets
`connected` and closes `connectedCh`, the channel `WaitForConnection` selects on; on
`Disconnected`, `Failed` and `Closed` it clears `connected`. Nothing remembers that the channel
is already closed, so a second `Connected`, after the ICE layer recovers from `Disconnected`,
closes it again, and closing a closed Go channel panics. `Close` guards its channel with
`closeOnce` and never does.
-/

namespace SfoConnectivity.P2p

/-- The states pion reports (`webrtc.PeerConnectionState`). -/
inductive PeerConnectionState
  | unknown | new | connecting | connected | disconnected | failed | closed
  deriving DecidableEq, Repr

/-- The callback the handler calls. -/
inductive Notice
  | connected | disconnected
  deriving DecidableEq, Repr

/-- The fields of `PeerConnection` that the state handler, `Close` and `WaitForConnection`
use. A channel is its flag "closed"; `onConnected` and `onDisconnected` say whether a callback
is set, and `notified` lists the callback calls made. -/
structure PeerConnection where
  connected : Bool
  connectedCh : Bool
  closeCh : Bool
  closeOnce : Bool
  onConnected : Bool
  onDisconnected : Bool
  notified : List Notice
  deriving DecidableEq, Repr

/-- Go's `close(ch)`: closing a closed channel panics. -/
def closeChan (ch : Bool) : Except String Bool :=
  if ch then .error "close of closed channel" else .ok true

/-- The value `NewPeerConnection` returns once `webrtc.NewPeerConnection` succeeds: both
channels open, no callback set. -/
def newPeerConnection : PeerConnection :=
  { connected := false, connectedCh := false, closeCh := false, closeOnce := false,
    onConnected := false, onDisconnected := false, notified := [] }

namespace PeerConnection

/-- `if cb != nil { cb() }`. -/
def call (p : PeerConnection) (set : Bool) (n : Notice) : PeerConnection :=
  { p with notified := if set then p.notified ++ [n] else p.notified }

/-- The handler passed to `pc.OnConnectionStateChange`. -/
def onConnectionStateChange (p : PeerConnection) :
    PeerConnectionState → Except String PeerConnection
  | .connected => do
    let p := { p with connected := true }
    let ch ← closeChan p.connectedCh
    let p := { p with connectedCh := ch }
    pure (p.call p.onConnected .connected)
  | .disconnected | .failed | .closed =>
    let p := { p with connected := false }
    pure (p.call p.onDisconnected .disconnected)
  | _ => pure p

/-- `Close`: the body runs under `closeOnce` and closes `closeCh`. Closing the data channel
and the pion connection is outside the model. -/
def close (p : PeerConnection) : Except String PeerConnection :=
  if p.closeOnce then .ok p else do
    let ch ← closeChan p.closeCh
    pure { p with closeOnce := true, closeCh := ch }

def setCallbacks (p : PeerConnection) (onConnected onDisconnected : Bool) : PeerConnection :=
  { p with onConnected := onConnected, onDisconnected := onDisconnected }

/-- The results `WaitForConnection` can return, once `timedOut` says whether its timer has
fired: `select` takes any ready case, and blocks while none is (the empty list). -/
def waitForConnection (p : PeerConnection) (timedOut : Bool) : List (Option String) :=
  (if p.connectedCh then [none] else []) ++ (if timedOut then [some "connection timeout"] else []) ++
    (if p.closeCh then [some "connection closed"] else [])

end PeerConnection

/-- What happens to a peer connection: pion delivers a state to the handler, or the client
sets the callbacks or calls `Close`. -/
inductive Event
  | stateChange (state : PeerConnectionState)
  | setCallbacks (onConnected onDisconnected : Bool)
  | close
  deriving DecidableEq, Repr

def Event.isConnected : Event → Bool
  | .stateChange .connected => true
  | _ => false

theorem Event.isConnected_iff {e : Event} : e.isConnected = true ↔ e = .stateChange .connected := by
  rcases e with ⟨_ | _ | _ | _ | _ | _ | _⟩ | _ | _ <;> simp [Event.isConnected]

theorem Event.isConnected_stateChange (state : PeerConnectionState) :
    (Event.stateChange state).isConnected = (state == .connected) := by
  cases state <;> rfl

namespace PeerConnection

def handle (p : PeerConnection) : Event → Except String PeerConnection
  | .stateChange state => p.onConnectionStateChange state
  | .setCallbacks c d => .ok (p.setCallbacks c d)
  | .close => p.close

/-- The events in order; a panic ends the run. -/
def run (p : PeerConnection) : List Event → Except String PeerConnection
  | [] => .ok p
  | e :: es => do (← p.handle e).run es

variable {p p' : PeerConnection} {e : Event} {es : List Event} {m : String}

/-! ## One event -/

theorem handle_connected :
    p.handle (.stateChange .connected) = if p.connectedCh then .error "close of closed channel"
      else .ok ({ p with connected := true, connectedCh := true }.call p.onConnected .connected) := by
  unfold handle onConnectionStateChange closeChan
  cases p.connectedCh <;> rfl

theorem handle_close :
    p.handle .close = if p.closeOnce then .ok p else if p.closeCh then
      .error "close of closed channel" else .ok { p with closeOnce := true, closeCh := true } := by
  unfold handle close closeChan
  cases p.closeOnce <;> cases p.closeCh <;> rfl

/-- Every other event leaves the three channel flags as they are. -/
theorem handle_other (p : PeerConnection) (hc : e.isConnected = false) (he : e ≠ .close) :
    ∃ p', p.handle e = .ok p' ∧ p'.connectedCh = p.connectedCh ∧ p'.closeCh = p.closeCh ∧
      p'.closeOnce = p.closeOnce := by
  rcases e with ⟨_ | _ | _ | _ | _ | _ | _⟩ | _ | _
  all_goals first | exact ⟨_, rfl, rfl, rfl, rfl⟩ | exact absurd rfl he | cases hc

/-- `closeOnce` is set exactly when `closeCh` is closed. -/
def CloseGuarded (p : PeerConnection) : Prop := p.closeCh = p.closeOnce

theorem closeGuarded_new : newPeerConnection.CloseGuarded := rfl

/-- Under the guard an event panics exactly when it is `Connected` and `connectedCh` is
already closed. -/
theorem handle_eq_error (hp : p.CloseGuarded) : p.handle e = .error m ↔
    m = "close of closed channel" ∧ p.connectedCh = true ∧ e.isConnected = true := by
  by_cases hc : e.isConnected
  · obtain rfl := Event.isConnected_iff.mp hc
    rw [handle_connected]
    cases p.connectedCh
    · simp
    · simp only [if_true, Except.error.injEq, Event.isConnected, and_true]
      exact eq_comm
  · by_cases he : e = .close
    · subst he
      rw [handle_close, ← hp]
      cases p.closeCh <;> simp [Event.isConnected]
    · obtain ⟨p', h, -⟩ := handle_other p (by simpa using hc) he
      simp [h, hc]

/-- What an event that does not panic does to the channels; it keeps the guard. -/
theorem handle_ok (hp : p.CloseGuarded) (h : p.handle e = .ok p') :
    p'.connectedCh = (p.connectedCh || e.isConnected) ∧
      (p'.closeCh = true ↔ p.closeCh = true ∨ e = .close) ∧ p'.CloseGuarded := by
  unfold CloseGuarded at *
  by_cases hc : e.isConnected
  · obtain rfl := Event.isConnected_iff.mp hc
    rw [handle_connected] at h
    cases hcc : p.connectedCh <;> simp only [hcc, if_true, if_false, reduceCtorEq, Except.ok.injEq] at h
    subst h
    simp [call, hp, Event.isConnected]
  · by_cases he : e = .close
    · subst he
      rw [handle_close, ← hp] at h
      cases hcl : p.closeCh <;> simp only [hcl, if_true, if_false, reduceCtorEq, Except.ok.injEq] at h <;>
        subst h <;> simp [← hp, hcl, Event.isConnected]
    · obtain ⟨q, hq, h₁, h₂, h₃⟩ := handle_other p (by simpa using hc) he
      obtain rfl : q = p' := Except.ok.inj (hq.symm.trans h)
      simp [h₁, h₂, h₃, hc, he, hp]

/-! ## A run of events -/

/-- A run panics exactly when it delivers `Connected` while `connectedCh` is closed: when the
closed channel and the `Connected` states of the run number two or more. -/
theorem run_eq_error_iff (hp : p.CloseGuarded) : p.run es = .error m ↔
    m = "close of closed channel" ∧ 2 ≤ p.connectedCh.toNat + es.countP Event.isConnected := by
  induction es generalizing p with
  | nil =>
    have := p.connectedCh.toNat_le
    simp only [run, reduceCtorEq, List.countP_nil, false_iff, not_and]
    exact fun _ => by omega
  | cons e es ih =>
    rcases h : p.handle e with m' | p₁
    · obtain ⟨rfl, hc, he⟩ := (handle_eq_error hp).mp h
      have hge : 2 ≤ p.connectedCh.toNat + (e :: es).countP Event.isConnected := by
        simp only [List.countP_cons, hc, he, Bool.toNat_true, ↓reduceIte]
        omega
      rw [run, h]
      exact ⟨fun hm => ⟨(Except.error.inj hm).symm, hge⟩, fun ⟨hm, _⟩ => hm ▸ rfl⟩
    · obtain ⟨hc, -, hp₁⟩ := handle_ok hp h
      have hn : ¬ (p.connectedCh = true ∧ e.isConnected = true) := fun hb => by
        simpa [h] using (handle_eq_error hp).mpr ⟨rfl, hb⟩
      have hcount : p₁.connectedCh.toNat + es.countP Event.isConnected =
          p.connectedCh.toNat + (e :: es).countP Event.isConnected := by
        rw [hc, List.countP_cons]
        revert hn
        cases p.connectedCh <;> cases e.isConnected <;> simp [Nat.add_comm]
      rw [← hcount, ← ih hp₁, run, h]
      exact Iff.rfl

/-- What a run that does not panic does to the channels; it keeps the guard. -/
theorem run_ok (hp : p.CloseGuarded) (h : p.run es = .ok p') :
    p'.connectedCh = (p.connectedCh || es.any Event.isConnected) ∧
      (p'.closeCh = true ↔ p.closeCh = true ∨ .close ∈ es) ∧ p'.CloseGuarded := by
  induction es generalizing p with
  | nil =>
    simp only [run, Except.ok.injEq] at h
    subst h
    simp [hp]
  | cons e es ih =>
    rcases hq : p.handle e with m | q
    · rw [run, hq] at h
      cases h
    · rw [run, hq] at h
      obtain ⟨hc, hcl, hpq⟩ := handle_ok hp hq
      obtain ⟨hc', hcl', hp'⟩ := ih hpq h
      refine ⟨by rw [hc', hc, List.any_cons, Bool.or_assoc], ?_, hp'⟩
      rw [hcl', hcl, List.mem_cons]
      tauto

end PeerConnection

open PeerConnection in
/-- The handler run over the states pion delivers panics exactly when two of them are
`Connected`; until then `connectedCh` is closed exactly when one was. -/
theorem handler_panics_iff_two_connected (states : List PeerConnectionState) :
    (newPeerConnection.run (states.map .stateChange) = .error "close of closed channel" ↔
        2 ≤ states.count .connected) ∧
      ∀ p, newPeerConnection.run (states.map .stateChange) = .ok p →
        (p.connectedCh = true ↔ .connected ∈ states) := by
  have hcount : (states.map Event.stateChange).countP Event.isConnected =
      states.count .connected := by
    simp [List.countP_map, List.count, Function.comp_def, Event.isConnected_stateChange]
  refine ⟨(run_eq_error_iff closeGuarded_new).trans ?_, fun p h => ?_⟩
  · simp [hcount, newPeerConnection]
  · rw [(run_ok closeGuarded_new h).1]
    simp [newPeerConnection, List.any_map, Function.comp_def, Event.isConnected_stateChange]

theorem reconnect_closes_connectedCh_again :
    newPeerConnection.run ([.connected, .disconnected, .connected].map .stateChange) =
        .error "close of closed channel" ∧
      2 ≤ [PeerConnectionState.connected, .disconnected, .connected].count .connected :=
  ⟨(handler_panics_iff_two_connected _).1.mpr (by decide), by decide⟩

end SfoConnectivity.P2p
