import Mathlib.Algebra.Order.Ring.Nat
import SfoConnectivity.Relay.Pairing

/-! # Two clients of one session meet at the relay

The host and the joiner of a session each open a connection to the relay and send the auth
message of their token. Their goroutines run in any order, the clock moves and `cleanupLoop`
ticks in between. As long as the schedule lets no more than `pairTimeout` pass, neither parked
connection is given up or reaped, and once both have taken `r.mu` the second one pairs them,
the host's connection as `hostConn`.
-/

namespace SfoConnectivity.Relay

/-! ## The actions of two clients -/

/-- The connection whose goroutine takes the action. -/
def Action.conn : Action → Option Nat
  | .handshake c _ _ | .lock c | .pair c | .copyDone c _ | .poll c | .expire c | .exit c => some c
  | .accept | .cleanup | .tick _ => none

/-- The time the action lets pass. -/
def Action.elapsed : Action → Nat
  | .tick d => d
  | _ => 0

/-- Only the clock lets time pass: a step of a goroutine takes none. -/
theorem Action.elapsed_of_conn {a : Action} {c : Nat} (h : a.conn = some c) : a.elapsed = 0 := by
  cases a <;> simp_all [Action.conn, Action.elapsed]

/-- Whether the action is the pairing decision of `c`. -/
def Action.locks (c : Nat) : Action → Bool
  | .lock c' => c' == c
  | _ => false

theorem Action.locks_eq_false {a : Action} {c : Nat} (h : a ≠ .lock c) : a.locks c = false := by
  cases a <;> simp_all [Action.locks]

/-- An action of the goroutines of connections `h` and `j`, whose handshakes read `mH` and `mJ`
and write `{success:true}`, or of the clock and `cleanupLoop`. -/
def Action.OfClients (h j : Nat) (mH mJ : AuthMessage) : Action → Prop
  | .accept => False
  | .handshake c msg sent => sent = true ∧ (c = h ∧ msg = some mH ∨ c = j ∧ msg = some mJ)
  | .lock c | .pair c | .copyDone c _ | .poll c | .expire c | .exit c => c = h ∨ c = j
  | .cleanup | .tick _ => True

/-! ## What a step leaves alone -/

section Frame

variable {v : TokenValidator} {r r' : Relay} {a : Action} {c : Nat}

/-- A step of the goroutine of `c` keeps the clock, the pair timeout and the calls of
`pairConnections` made so far, and moves no other goroutine. -/
structure Keeps (c : Nat) (r r' : Relay) : Prop where
  now : r'.now = r.now
  pairTimeout : r'.pairTimeout = r.pairTimeout
  paired : r.paired <+: r'.paired
  others : ∀ x, x ≠ c → r'.handlers.lookup x = r.handlers.lookup x

theorem Keeps.of_insert {ph : Phase} (hn : r'.now = r.now) (ht : r'.pairTimeout = r.pairTimeout)
    (hp : r'.paired = r.paired) (hh : r'.handlers = r.handlers.insert c ph) : Keeps c r r' :=
  ⟨hn, ht, hp ▸ List.prefix_refl _, fun _ hx => hh ▸ AList.lookup_insert_ne hx⟩

theorem keeps_handshake (msg : Option AuthMessage) (sent : Bool) :
    Keeps c r (r.handshake v c msg sent) := by
  unfold handshake
  split <;> (try split) <;> (try split_ifs) <;> exact .of_insert rfl rfl rfl rfl

theorem keeps_lock (sessionID role : String) : Keeps c r (r.lock c sessionID role) := by
  unfold lock
  split <;> (try split_ifs) <;> exact .of_insert rfl rfl rfl rfl

theorem keeps_poll (sessionID : String) (deadline : Nat) :
    Keeps c r (r.poll c sessionID deadline) := by
  unfold poll
  split
  · split_ifs
    · exact .of_insert rfl rfl rfl rfl
    · exact .of_insert rfl rfl rfl rfl
    · exact ⟨rfl, rfl, List.prefix_refl _, fun _ _ => rfl⟩
  · exact .of_insert rfl rfl rfl rfl

/-- What a step of the goroutine of `c` can do, by the action it takes. -/
theorem step_keeps (hs : r.step v a = some r') (hc : a.conn = some c) : Keeps c r r' := by
  cases a <;> simp only [Action.conn, Option.some.injEq, reduceCtorEq] at hc <;> subst hc <;>
    simp only [Relay.step] at hs <;> split at hs <;> (try cases hs)
  case handshake.h_1 => exact keeps_handshake _ _
  case lock.h_1 => exact keeps_lock _ _
  case pair.h_1 =>
    exact ⟨rfl, rfl, List.prefix_append _ _, fun _ hx => AList.lookup_insert_ne hx⟩
  case copyDone.h_1 =>
    split_ifs at hs <;> cases hs <;> unfold copyDone <;> split_ifs <;>
      exact .of_insert rfl rfl rfl rfl
  case poll.h_1 => exact keeps_poll _ _
  case expire.h_1 =>
    unfold expire
    split <;> (try split_ifs) <;> exact .of_insert rfl rfl rfl rfl
  case exit.h_1 => exact ⟨rfl, rfl, List.prefix_refl _, fun _ hx => AList.lookup_erase_ne hx⟩

/-- `cleanup` keeps every entry of `pending` parked less than the pair timeout ago. -/
theorem cleanup_keeps {s : String} {p : PendingConnection} (hp : r.pending.lookup s = some p)
    (hfresh : r.now - r.pairTimeout ≤ p.createdAt) : r.cleanup.pending.lookup s = some p := by
  have hentry : ∀ e ∈ r.pending.entries, e.1 = s → e.2 = p := fun e he hs => by
    have := AList.mem_lookup_iff.mpr he
    rw [hs, hp] at this
    exact (Option.some.inj (Option.mem_def.mp this)).symm
  suffices key : ∀ (l : List (Σ _ : String, PendingConnection)) (acc : Relay),
      (∀ e ∈ l, e.1 = s → e.2 = p) → acc.pending.lookup s = some p →
      (l.foldl (fun acc e =>
        if e.2.createdAt < r.now - r.pairTimeout then
          { acc with closed := e.2.conn :: acc.closed, pending := acc.pending.erase e.1 }
        else acc) acc).pending.lookup s = some p from key _ r hentry hp
  intro l
  induction l with
  | nil => exact fun _ _ h => h
  | cons e l ih =>
    intro acc hl hacc
    simp only [List.foldl_cons]
    refine ih _ (fun e' he' => hl e' (List.mem_cons_of_mem _ he')) ?_
    split_ifs with hold
    · have hne : e.1 ≠ s := fun hs => by
        rw [hl e (List.mem_cons_self _ _) hs] at hold
        omega
      exact (AList.lookup_erase_ne (Ne.symm hne)).trans hacc
    · exact hacc

/-- A tick or a pass of `cleanupLoop` moves no goroutine and calls no `pairConnections`. -/
theorem step_of_conn_none (hs : r.step v a = some r') (ha : a ≠ .accept) (hc : a.conn = none) :
    r'.handlers = r.handlers ∧ r'.paired = r.paired ∧ r'.pairTimeout = r.pairTimeout ∧
      r'.now = r.now + a.elapsed ∧
      ∀ s p, r'.pending.lookup s = some p → r.pending.lookup s = some p := by
  cases a <;> simp only [Action.conn, reduceCtorEq] at hc
  case accept => exact absurd rfl ha
  case cleanup =>
    obtain ⟨pending, closed, heq, hsub, -⟩ := cleanup_spec r
    cases hs
    rw [heq]
    exact ⟨rfl, rfl, rfl, rfl, hsub⟩
  case tick d =>
    cases hs
    exact ⟨rfl, rfl, rfl, rfl, fun _ _ h => h⟩

/-- The goroutine of a connection other than the one that steps stays where it is. -/
theorem step_lookup (hs : r.step v a = some r') (ha : a ≠ .accept) {x : Nat}
    (hx : a.conn ≠ some x) : r'.handlers.lookup x = r.handlers.lookup x := by
  rcases hc : a.conn with _ | c
  · rw [(step_of_conn_none hs ha hc).1]
  · exact (step_keeps hs hc).others x fun h => hx (h ▸ hc)

theorem step_paired (hs : r.step v a = some r') (ha : a ≠ .accept) : r.paired <+: r'.paired := by
  rcases hc : a.conn with _ | c
  · rw [(step_of_conn_none hs ha hc).2.1]
  · exact (step_keeps hs hc).paired

theorem step_pairTimeout (hs : r.step v a = some r') (ha : a ≠ .accept) :
    r'.pairTimeout = r.pairTimeout := by
  rcases hc : a.conn with _ | c
  · exact (step_of_conn_none hs ha hc).2.2.1
  · exact (step_keeps hs hc).pairTimeout

theorem step_now (hs : r.step v a = some r') (ha : a ≠ .accept) : r'.now = r.now + a.elapsed := by
  rcases hc : a.conn with _ | c
  · exact (step_of_conn_none hs ha hc).2.2.2.1
  · rw [(step_keeps hs hc).now, Action.elapsed_of_conn hc, Nat.add_zero]

end Frame

/-! ## Where each client stands -/

section Stages

variable {v : TokenValidator} {r r' : Relay} {a : Action} {c c' : Nat} {sid ρ ρ' : String}
  {T0 : Nat}

/-- Client `c` has not taken `r.mu` yet: it reads its handshake, or passed it as `role`. -/
def Before (r : Relay) (c : Nat) (sid role : String) : Prop :=
  r.handlers.lookup c = some .handshake ∨ r.handlers.lookup c = some (.authenticated sid role)

/-- Client `c` is parked: its entry of `pending`, made at `t` no earlier than `T0`, and its
`waitForPair` loop with the deadline `t + pairTimeout`. -/
def Parked (r : Relay) (c : Nat) (sid role : String) (T0 : Nat) : Prop :=
  ∃ t, T0 ≤ t ∧ r.pending.lookup sid = some ⟨c, role, sid, t⟩ ∧
    r.handlers.lookup c = some (.waiting sid (t + r.pairTimeout))

/-- `pairConnections(sid, h, j)` was called, or a goroutine is about to call it. -/
def Met (r : Relay) (sid : String) (h j : Nat) : Prop :=
  (sid, h, j) ∈ r.paired ∨ ∃ c, r.handlers.lookup c = some (.pairing sid h j)

/-- What a goroutine that has not taken `r.mu` can do: its handshake, or take the lock. -/
theorem step_of_before (hb : r.Before c sid ρ) (hs : r.step v a = some r')
    (hc : a.conn = some c) :
    (∃ msg sent, a = .handshake c msg sent ∧ r.handlers.lookup c = some .handshake ∧
      r' = r.handshake v c msg sent) ∨
    (a = .lock c ∧ r.handlers.lookup c = some (.authenticated sid ρ) ∧ r' = r.lock c sid ρ) := by
  cases a <;> simp only [Action.conn, Option.some.injEq, reduceCtorEq] at hc <;> subst hc <;>
    rcases hb with hb | hb <;> simp [Relay.step, hb] at hs
  case handshake.inl msg sent => exact .inl ⟨msg, sent, rfl, hb, hs.symm⟩
  case lock.inr => exact .inr ⟨rfl, hb, hs.symm⟩

/-- A parked goroutine can only look at its entry and the clock. -/
theorem step_of_waiting {d : Nat} (hw : r.handlers.lookup c = some (.waiting sid d))
    (hs : r.step v a = some r') (hc : a.conn = some c) : r' = r.poll c sid d := by
  cases a <;> simp only [Action.conn, Option.some.injEq, reduceCtorEq] at hc <;> subst hc <;>
    simp [Relay.step, hw] at hs
  exact hs.symm

theorem Met.step {h j : Nat} (hm : r.Met sid h j) (hs : r.step v a = some r')
    (ha : a ≠ .accept) : r'.Met sid h j := by
  rcases hm with hp | ⟨c, hc⟩
  · exact .inl ((step_paired hs ha).subset hp)
  · by_cases hac : a.conn = some c
    · -- the goroutine about to call `pairConnections` calls it
      cases a <;> simp only [Action.conn, Option.some.injEq, reduceCtorEq] at hac <;> subst hac <;>
        simp [Relay.step, hc] at hs
      exact .inl (hs ▸ List.mem_append_right _ (List.mem_singleton_self _))
    · exact .inr ⟨c, (step_lookup hs ha hac).trans hc⟩

/-- A goroutine before `r.mu` stays there, through its own handshake, which the validator
passes, and through the steps of others. -/
theorem Before.step {tok : String} (hb : r.Before c sid ρ) (hv : v tok = .ok (sid, ρ))
    (hs : r.step v a = some r') (ha : a ≠ .accept) (hl : a ≠ .lock c)
    (hm : ∀ msg sent, a = .handshake c msg sent → msg = some ⟨sid, tok, ρ⟩ ∧ sent = true) :
    r'.Before c sid ρ := by
  by_cases hc : a.conn = some c
  · rcases step_of_before hb hs hc with ⟨msg, sent, rfl, -, rfl⟩ | ⟨rfl, -, -⟩
    · obtain ⟨rfl, rfl⟩ := hm msg sent rfl
      exact .inr (by simp [handshake, hv, setPhase])
    · exact absurd rfl hl
  · unfold Before
    rw [step_lookup hs ha hc]
    exact hb

/-- The first of the two to take `r.mu` parks. -/
theorem Before.park (hb : r.Before c sid ρ) (hp : r.pending.lookup sid = none) (hT : T0 ≤ r.now)
    (hs : r.step v (.lock c) = some r') : r'.Parked c sid ρ T0 := by
  rcases step_of_before hb hs rfl with ⟨_, _, h, -⟩ | ⟨-, -, rfl⟩
  · cases h
  · exact ⟨r.now, hT, by simp [lock, hp], by simp [lock, hp, setPhase]⟩

/-- The second to take `r.mu`, of the other role, pairs with the parked one, the host's
connection first. -/
theorem Parked.pairUp (hp : r.Parked c sid ρ T0) (hb : r.Before c' sid ρ') (hρ : ρ ≠ ρ')
    (hs : r.step v (.lock c') = some r') :
    r'.handlers.lookup c' = some (.pairing sid (if ρ' = "host" then c' else c)
      (if ρ' = "host" then c else c')) := by
  obtain ⟨t, -, hpe, -⟩ := hp
  rcases step_of_before hb hs rfl with ⟨_, _, h, -⟩ | ⟨-, hauth, -⟩
  · cases h
  · obtain ⟨r'', hs'', -, hl⟩ := @lock_pairs_with_other_role v _ _ _ _ _ hauth hpe hρ
    rw [hs] at hs''
    exact Option.some.inj hs'' ▸ hl

/-- A parked goroutine stays parked while the other client has not taken `r.mu`, as long as the
clock stays within the pair timeout of `T0`: its loop finds its entry and an open deadline, and
`cleanup` keeps the entry. -/
theorem Parked.step {tok : String} (hp : r.Parked c sid ρ T0) (hb : r.Before c' sid ρ')
    (hcc : c' ≠ c) (hv : v tok = .ok (sid, ρ')) (hs : r.step v a = some r') (ha : a ≠ .accept)
    (hl : a ≠ .lock c') (hown : a.conn = some c ∨ a.conn = some c' ∨ a.conn = none)
    (hm : ∀ msg sent, a = .handshake c' msg sent → msg = some ⟨sid, tok, ρ'⟩ ∧ sent = true)
    (hnow : r.now + a.elapsed ≤ T0 + r.pairTimeout) : r'.Parked c sid ρ T0 := by
  obtain ⟨t, ht, hpe, hw⟩ := hp
  rcases hown with hc | hc | hc
  · -- its own loop: the entry is there and the deadline is not past
    rw [step_of_waiting hw hs hc]
    have hle : ¬ r.now > t + r.pairTimeout := by rw [Action.elapsed_of_conn hc] at hnow; omega
    rw [show r.poll c sid (t + r.pairTimeout) = r by simp [poll, hpe, hle]]
    exact ⟨t, ht, hpe, hw⟩
  · -- the other client's handshake
    rcases step_of_before hb hs hc with ⟨msg, sent, rfl, -, rfl⟩ | ⟨rfl, -, -⟩
    · obtain ⟨rfl, rfl⟩ := hm msg sent rfl
      have hpend : (r.handshake v c' (some ⟨sid, tok, ρ'⟩) true).pending = r.pending := by
        simp [handshake, hv, setPhase]
      have hk := keeps_handshake (v := v) (c := c') (r := r) (some ⟨sid, tok, ρ'⟩) true
      exact ⟨t, ht, hpend ▸ hpe, by rw [hk.others c (Ne.symm hcc), hk.pairTimeout]; exact hw⟩
    · exact absurd rfl hl
  · -- a tick or `cleanup`, before the entry is due
    obtain ⟨hh, -, hT, hn, -⟩ := step_of_conn_none hs ha hc
    refine ⟨t, ht, ?_, by rw [hh, hT]; exact hw⟩
    cases a <;> simp only [Action.conn, reduceCtorEq] at hc
    case accept => exact absurd rfl ha
    case cleanup =>
      cases hs
      exact cleanup_keeps hpe (show r.now - r.pairTimeout ≤ t by
        simp only [Action.elapsed] at hnow; omega)
    case tick => cases hs; exact hpe

/-- The pending entry of the session stays absent while neither client has taken `r.mu`. -/
theorem Before.pending_none {h j : Nat} (hbh : r.Before h sid ρ) (hbj : r.Before j sid ρ')
    (hp : r.pending.lookup sid = none) (hs : r.step v a = some r') (ha : a ≠ .accept)
    (hlh : a ≠ .lock h) (hlj : a ≠ .lock j)
    (hown : a.conn = some h ∨ a.conn = some j ∨ a.conn = none) : r'.pending.lookup sid = none := by
  have hshake : ∀ {c ρ}, r.Before c sid ρ → a.conn = some c → a ≠ .lock c →
      r'.pending = r.pending := fun hb hc hl => by
    rcases step_of_before hb hs hc with ⟨msg, sent, rfl, -, rfl⟩ | ⟨rfl, -, -⟩
    · unfold handshake
      split <;> (try split) <;> (try split_ifs) <;> rfl
    · exact absurd rfl hl
  rcases hown with hc | hc | hc
  · rw [hshake hbh hc hlh, hp]
  · rw [hshake hbj hc hlj, hp]
  · exact Option.eq_none_iff_forall_not_mem.mpr fun p hm =>
      by simp [(step_of_conn_none hs ha hc).2.2.2.2 _ _ hm] at hp

end Stages

/-! ## Every schedule of the two clients -/

section Schedule

variable {v : TokenValidator} {r r' : Relay} {a : Action} {sid hostToken joinerToken : String}
  {h j T0 : Nat}

/-- Where the two clients stand, by which of them has taken `r.mu`: neither, one of them,
parked, or both, and then they have met. -/
def Meet (sid : String) (h j T0 : Nat) (r : Relay) : Bool → Bool → Prop
  | false, false => r.Before h sid "host" ∧ r.Before j sid "joiner" ∧ r.pending.lookup sid = none
  | true, false => r.Parked h sid "host" T0 ∧ r.Before j sid "joiner"
  | false, true => r.Before h sid "host" ∧ r.Parked j sid "joiner" T0
  | true, true => r.Met sid h j

theorem ofClients_conn (ha : a.OfClients h j ⟨sid, hostToken, "host"⟩ ⟨sid, joinerToken, "joiner"⟩) :
    a ≠ .accept ∧ (a.conn = some h ∨ a.conn = some j ∨ a.conn = none) := by
  cases a <;> simp_all [Action.OfClients, Action.conn]
  case handshake => rcases ha.2 with ⟨rfl, -⟩ | ⟨rfl, -⟩ <;> simp

theorem ofClients_handshake
    (ha : a.OfClients h j ⟨sid, hostToken, "host"⟩ ⟨sid, joinerToken, "joiner"⟩) (hhj : h ≠ j) :
    (∀ msg sent, a = .handshake h msg sent → msg = some ⟨sid, hostToken, "host"⟩ ∧ sent = true) ∧
    (∀ msg sent, a = .handshake j msg sent → msg = some ⟨sid, joinerToken, "joiner"⟩ ∧
      sent = true) := by
  constructor <;> rintro msg sent rfl <;> simp only [Action.OfClients] at ha <;>
    rcases ha with ⟨rfl, ⟨hc, rfl⟩ | ⟨hc, rfl⟩⟩ <;> simp_all

/-- One step of either client, of the clock or of `cleanupLoop`, within the pair timeout of
`T0`, keeps where the clients stand, and records a client's pairing decision. -/
theorem Meet.step {lh lj : Bool} (hm : Meet sid h j T0 r lh lj) (hhj : h ≠ j)
    (hH : v hostToken = .ok (sid, "host")) (hJ : v joinerToken = .ok (sid, "joiner"))
    (hT : T0 ≤ r.now) (hnow : r.now + a.elapsed ≤ T0 + r.pairTimeout)
    (ha : a.OfClients h j ⟨sid, hostToken, "host"⟩ ⟨sid, joinerToken, "joiner"⟩)
    (hs : r.step v a = some r') : Meet sid h j T0 r' (lh || a.locks h) (lj || a.locks j) := by
  obtain ⟨hacc, hown⟩ := ofClients_conn ha
  obtain ⟨hmh, hmj⟩ := ofClients_handshake ha hhj
  have hjh : j ≠ h := Ne.symm hhj
  by_cases hah : a = .lock h
  · -- the host takes `r.mu`: it parks, or pairs with the parked joiner
    subst hah
    have hl : Action.lock h ≠ .lock j := by simp [hhj]
    cases lh <;> cases lj <;>
      simp only [Meet, Action.locks, beq_self_eq_true, beq_eq_false_iff_ne.mpr hhj, Bool.or_true,
        Bool.or_false] at hm ⊢
    · exact ⟨hm.1.park hm.2.2 hT hs, hm.2.1.step hJ hs hacc hl hmj⟩
    · exact .inr ⟨h, by simpa using hm.2.pairUp hm.1 (by decide) hs⟩
    · obtain ⟨t, -, -, hw⟩ := hm.1
      exact absurd (step_of_waiting hw hs rfl) (by simp [Relay.step, hw] at hs)
    · exact hm.step hs hacc
  by_cases haj : a = .lock j
  · -- the joiner takes `r.mu`: it parks, or pairs with the parked host
    subst haj
    have hl : Action.lock j ≠ .lock h := by simp [hjh]
    cases lh <;> cases lj <;>
      simp only [Meet, Action.locks, beq_self_eq_true, beq_eq_false_iff_ne.mpr hjh, Bool.or_true,
        Bool.or_false] at hm ⊢
    · exact ⟨hm.1.step hH hs hacc hl hmh, hm.2.1.park hm.2.2 hT hs⟩
    · obtain ⟨t, -, -, hw⟩ := hm.2
      exact absurd (step_of_waiting hw hs rfl) (by simp [Relay.step, hw] at hs)
    · exact .inr ⟨j, by simpa using hm.1.pairUp hm.2 (by decide) hs⟩
    · exact hm.step hs hacc
  · -- any other step keeps both where they are
    rw [Action.locks_eq_false hah, Action.locks_eq_false haj, Bool.or_false, Bool.or_false]
    cases lh <;> cases lj <;> simp only [Meet] at hm ⊢
    · exact ⟨hm.1.step hH hs hacc hah hmh, hm.2.1.step hJ hs hacc haj hmj,
        Before.pending_none hm.1 hm.2.1 hm.2.2 hs hacc hah haj hown⟩
    · exact ⟨hm.1.step hH hs hacc hah hmh,
        hm.2.step hm.1 hhj hH hs hacc hah (by tauto) hmh hnow⟩
    · exact ⟨hm.1.step hm.2 hjh hJ hs hacc haj hown hmj hnow, hm.2.step hJ hs hacc haj hmj⟩
    · exact hm.step hs hacc

theorem Meet.run {lh lj : Bool} {as : List Action} (hm : Meet sid h j T0 r lh lj) (hhj : h ≠ j)
    (hH : v hostToken = .ok (sid, "host")) (hJ : v joinerToken = .ok (sid, "joiner"))
    (hT : T0 ≤ r.now) (hnow : r.now + (as.map Action.elapsed).sum ≤ T0 + r.pairTimeout)
    (ha : ∀ a ∈ as, a.OfClients h j ⟨sid, hostToken, "host"⟩ ⟨sid, joinerToken, "joiner"⟩)
    (hr : r.run v as = some r') :
    Meet sid h j T0 r' (lh || as.any (Action.locks h)) (lj || as.any (Action.locks j)) := by
  induction as generalizing r lh lj with
  | nil => cases hr; simpa using hm
  | cons a as ih =>
    obtain ⟨r₁, h₁, h₂⟩ := Option.bind_eq_some.mp hr
    have ha₀ := ha a (List.mem_cons_self _ _)
    have hacc := (ofClients_conn ha₀).1
    have hn₁ := step_now h₁ hacc
    have ht₁ := step_pairTimeout h₁ hacc
    simp only [List.map_cons, List.sum_cons] at hnow
    simpa [Bool.or_assoc] using ih (hm.step hhj hH hJ hT (by omega) ha₀ h₁) (by omega)
      (by rw [hn₁, ht₁]; omega) (fun a' h' => ha a' (List.mem_cons_of_mem _ h')) h₂

end Schedule

end SfoConnectivity.Relay
