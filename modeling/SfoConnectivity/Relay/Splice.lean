import SfoConnectivity.Relay.Pairing

/-! # Who closes a spliced connection

`HandleConnection` defers `conn.Close()`. The goroutine that parked a connection in
`pending` keeps polling after another goroutine has taken the entry and spliced the
connection; its next poll returns, and the deferred close then shuts the connection under
the running splice.
-/

namespace SfoConnectivity.Relay

/-- A host parks, a joiner of the same session pairs with it and starts the splice, and
the host's goroutine polls once more. -/
def parkedThenSpliced (sessionID hostToken joinerToken : String) : List Action :=
  [.accept, .accept,
   .handshake 0 (some ⟨sessionID, hostToken, "host"⟩) true,
   .handshake 1 (some ⟨sessionID, joinerToken, "joiner"⟩) true,
   .lock 0, .lock 1, .pair 1, .poll 0]

theorem parked_exit_closes_live_splice (validator : TokenValidator) (pairTimeout : Nat)
    (sessionID hostToken joinerToken : String)
    (hHost : validator hostToken = .ok (sessionID, "host"))
    (hJoiner : validator joinerToken = .ok (sessionID, "joiner")) :
    ∃ r r', (newRelay pairTimeout).run validator
        (parkedThenSpliced sessionID hostToken joinerToken) = some r ∧
      r.handlers.lookup 1 = some (.splicing sessionID 0 1 true true) ∧ 0 ∉ r.closed ∧
      r.step validator (.exit 0) = some r' ∧
      r'.handlers.lookup 1 = some (.splicing sessionID 0 1 true true) ∧ 0 ∈ r'.closed := by
  simp [run, step, newRelay, setPhase, handshake, lock, poll, parkedThenSpliced, hHost, hJoiner,
    -AList.insert_empty]

theorem parked_exit_closes_live_splice_two_roles :
    (twoRoleValidator "s" "h" "h" = .ok ("s", "host") ∧
      twoRoleValidator "s" "h" "j" = .ok ("s", "joiner")) ∧
    ∃ r r', (newRelay 30).run (twoRoleValidator "s" "h") (parkedThenSpliced "s" "h" "j") = some r ∧
      r.handlers.lookup 1 = some (.splicing "s" 0 1 true true) ∧ 0 ∉ r.closed ∧
      r.step (twoRoleValidator "s" "h") (.exit 0) = some r' ∧
      r'.handlers.lookup 1 = some (.splicing "s" 0 1 true true) ∧ 0 ∈ r'.closed :=
  ⟨⟨rfl, rfl⟩, parked_exit_closes_live_splice _ 30 "s" "h" "j" rfl rfl⟩

end SfoConnectivity.Relay
