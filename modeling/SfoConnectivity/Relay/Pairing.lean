import Mathlib.Data.Multiset.Bind
import Mathlib.Data.Multiset.Nodup
import SfoConnectivity.CodeIndex
import SfoConnectivity.Relay.Model

/-! # Pairing safety of the relay

Every connection that the relay has taken to splice is held in exactly one place: in
`pending`, in the hands of the goroutine about to call `pairConnections`, or in the log of
the calls. The connections it holds are gathered in one multiset, and the pairing
invariant says it has no duplicate and that everything in it passed the handshake.
-/

namespace SfoConnectivity.Relay

/-! ## Gathering over a map -/

section Gather

variable {α β γ : Type} [DecidableEq α] (f : β → Multiset γ)

/-- The values of a map, each turned into a multiset, added up. -/
def gather (s : AList (fun _ : α => β)) : Multiset γ :=
  (s.entries : Multiset (Σ _ : α, β)).bind fun e => f e.2

theorem erase_of_lookup_eq_none {s : AList (fun _ : α => β)} {a : α} (h : s.lookup a = none) :
    s.erase a = s :=
  AList.ext (List.kerase_of_not_mem_keys (AList.lookup_eq_none.mp h))

theorem entries_erase (s : AList (fun _ : α => β)) (a : α) :
    (s.erase a).entries = s.entries.kerase a := rfl

theorem gather_insert (s : AList (fun _ : α => β)) (a : α) (b : β) :
    gather f (s.insert a b) = f b + gather f (s.erase a) := by
  simp [gather, AList.insert_entries, entries_erase, ← Multiset.cons_coe]

theorem gather_erase {s : AList (fun _ : α => β)} {a : α} {b : β} (h : s.lookup a = some b) :
    gather f s = f b + gather f (s.erase a) := by
  have hmem : (⟨a, b⟩ : Σ _ : α, β) ∈ s.entries := AList.mem_lookup_iff.mp h
  obtain ⟨b', l₁, l₂, -, hl, hk⟩ := List.exists_of_kerase (List.mem_keys_of_mem hmem)
  obtain rfl : b' = b := s.nodupKeys.eq_of_mk_mem (by simp [hl]) hmem
  have hperm : List.Perm s.entries (⟨a, b'⟩ :: s.entries.kerase a) := by
    rw [hk, hl]
    exact List.perm_middle
  simp only [gather, entries_erase, Multiset.coe_eq_coe.mpr hperm, ← Multiset.cons_coe,
    Multiset.cons_bind]

theorem gather_erase_le (s : AList (fun _ : α => β)) (a : α) :
    gather f (s.erase a) ≤ gather f s := by
  cases h : s.lookup a with
  | none => rw [erase_of_lookup_eq_none h]
  | some b => rw [gather_erase f h]; exact Multiset.le_add_left _ _

end Gather

/-! ## Where the relay holds a connection -/

/-- The connections a goroutine has taken out of `pending` and not yet passed on. -/
def Phase.taken : Phase → Multiset Nat
  | .pairing _ hostConn joinerConn => {hostConn, joinerConn}
  | _ => 0

/-- The goroutine has not made its pairing decision yet. -/
def Phase.beforeLock : Phase → Bool
  | .handshake | .authenticated _ _ => true
  | _ => false

/-- A phase the invariant says nothing of: the goroutine has decided and holds nothing. -/
def Phase.quiet : Phase → Bool
  | .splicing .. | .waiting .. | .timedOut _ | .returning => true
  | _ => false

theorem Phase.quiet_beforeLock {ph : Phase} (h : ph.quiet = true) : ph.beforeLock = false := by
  cases ph <;> simp_all [quiet, beforeLock]

theorem Phase.quiet_taken {ph : Phase} (h : ph.quiet = true) : ph.taken = 0 := by
  cases ph <;> simp_all [quiet, taken]

/-- The connections passed to `pairConnections`, two a call. -/
def pairedConns (paired : List (String × Nat × Nat)) : List Nat :=
  paired.flatMap fun call => [call.2.1, call.2.2]

/-- Parked in `pending`, taken out by a goroutine, or passed to `pairConnections`. -/
def held (r : Relay) : Multiset Nat :=
  gather (fun p : PendingConnection => {p.conn}) r.pending + gather Phase.taken r.handlers +
    (pairedConns r.paired : Multiset Nat)

/-- `c` sent a message asserting `sessionID` and `role`, and its token validated to both. -/
def Authenticated (validator : TokenValidator) (authed : AList (fun _ : Nat => AuthMessage))
    (c : Nat) (sessionID role : String) : Prop :=
  ∃ m, authed.lookup c = some m ∧ validator m.relayToken = .ok (sessionID, role) ∧
    m.sessionID = sessionID ∧ m.role = role

/-- The roles `CreateRelayToken` is called with. -/
def HostOrJoiner (validator : TokenValidator) : Prop :=
  ∀ token sessionID role, validator token = .ok (sessionID, role) →
    role = "host" ∨ role = "joiner"

section Authenticated

variable {validator : TokenValidator} {authed : AList (fun _ : Nat => AuthMessage)}
  {c c' : Nat} {sessionID role : String}

theorem Authenticated.mem (h : Authenticated validator authed c sessionID role) : c ∈ authed := by
  obtain ⟨m, hm, -⟩ := h
  exact AList.lookup_isSome.mp (by rw [hm]; rfl)

theorem Authenticated.insert {m : AuthMessage} (hc : c' ∉ authed)
    (h : Authenticated validator authed c sessionID role) :
    Authenticated validator (authed.insert c' m) c sessionID role := by
  have hne : c ≠ c' := fun e => hc (e ▸ h.mem)
  obtain ⟨m₀, hm, rest⟩ := h
  exact ⟨m₀, by rw [AList.lookup_insert_ne hne, hm], rest⟩

theorem Authenticated.role_eq (hv : HostOrJoiner validator)
    (h : Authenticated validator authed c sessionID role) : role = "host" ∨ role = "joiner" := by
  obtain ⟨m, -, hm, -⟩ := h
  exact hv _ _ _ hm

end Authenticated

/-! ## The pairing invariant -/

structure PairInv (validator : TokenValidator) (r : Relay) : Prop where
  handlers_lt : ∀ c ∈ r.handlers, c < r.nextConn
  authed_lt : ∀ c ∈ r.authed, c < r.nextConn
  answers_lt : ∀ c resp, (c, resp) ∈ r.answers → c < r.nextConn
  handshake_fresh : ∀ c, r.handlers.lookup c = some .handshake →
    c ∉ r.authed ∧ ∀ resp, (c, resp) ∉ r.answers
  failed_unauthed : ∀ c e, (c, ⟨false, e⟩) ∈ r.answers → c ∉ r.authed
  authenticated : ∀ c sessionID role, r.handlers.lookup c = some (.authenticated sessionID role) →
    Authenticated validator r.authed c sessionID role
  pending : ∀ sessionID p, r.pending.lookup sessionID = some p →
    p.sessionID = sessionID ∧ Authenticated validator r.authed p.conn sessionID p.role
  pairing : ∀ c sessionID h j, r.handlers.lookup c = some (.pairing sessionID h j) →
    Authenticated validator r.authed h sessionID "host" ∧
      Authenticated validator r.authed j sessionID "joiner"
  paired : ∀ sessionID h j, (sessionID, h, j) ∈ r.paired →
    Authenticated validator r.authed h sessionID "host" ∧
      Authenticated validator r.authed j sessionID "joiner"
  held_nodup : r.held.Nodup
  held_locked : ∀ c ∈ r.held, c < r.nextConn ∧
    ∀ ph, r.handlers.lookup c = some ph → ph.beforeLock = false

section Preservation

variable {validator : TokenValidator} {r : Relay} {c : Nat} {ph ph₀ : Phase}

theorem pairInv_newRelay (pairTimeout : Nat) : PairInv validator (newRelay pairTimeout) where
  handlers_lt c h := absurd h (AList.not_mem_empty c)
  authed_lt c h := absurd h (AList.not_mem_empty c)
  answers_lt := by simp [newRelay]
  handshake_fresh := by simp [newRelay]
  failed_unauthed := by simp [newRelay]
  authenticated := by simp [newRelay]
  pending := by simp [newRelay]
  pairing := by simp [newRelay]
  paired := by simp [newRelay]
  held_nodup := by simp [held, gather, newRelay, pairedConns]
  held_locked := by simp [held, gather, newRelay, pairedConns]

/-- The invariant does not look at the closed connections or at the clock. -/
theorem PairInv.frame (hi : PairInv validator r) (closed : List Nat) (now : Nat) :
    PairInv validator { r with closed := closed, now := now } := by
  cases hi
  constructor <;> assumption

theorem held_setPhase (hc : r.handlers.lookup c = some ph₀) (h₀ : ph₀.taken = 0) (ph : Phase)
    (h : ph.taken = 0) : (r.setPhase c ph).held = r.held := by
  simp only [held, setPhase, gather_insert, h, zero_add, gather_erase Phase.taken hc, h₀]

theorem mem_handlers_of_lookup (hc : r.handlers.lookup c = some ph₀) : c ∈ r.handlers :=
  AList.lookup_isSome.mp (by rw [hc]; rfl)

theorem PairInv.not_mem_held (hi : PairInv validator r) (hc : r.handlers.lookup c = some ph₀)
    (h₀ : ph₀.beforeLock = true) : c ∉ r.held := fun hh => by
  rw [(hi.held_locked c hh).2 ph₀ hc] at h₀
  cases h₀

section Handlers

variable {s : AList (fun _ : Nat => Phase)} {x : Nat} {q : Phase}

theorem mem_of_mem_insert (hc : c ∈ s) (hx : x ∈ s.insert c ph) : x ∈ s := by
  rcases (AList.mem_insert _).mp hx with rfl | hx
  · exact hc
  · exact hx

/-- Past a quiet phase written at `c`, a lookup the invariant speaks of is an old one. -/
theorem lookup_of_insert_quiet (hq : ph.quiet = true) (hx : (s.insert c ph).lookup x = some q)
    (hq' : q.quiet = false) : s.lookup x = some q := by
  rcases lookup_insert_cases hx with ⟨-, rfl⟩ | ⟨-, hx⟩
  · rw [hq] at hq'
    cases hq'
  · exact hx

theorem beforeLock_of_insert (hph : ph.beforeLock = false)
    (old : ∀ q, s.lookup x = some q → q.beforeLock = false)
    (hx : (s.insert c ph).lookup x = some q) : q.beforeLock = false := by
  rcases lookup_insert_cases hx with ⟨-, rfl⟩ | ⟨-, hx⟩
  · exact hph
  · exact old q hx

end Handlers

/-- A goroutine moves to a quiet phase: the ends of the handshake that hold nothing,
every turn of `waitForPair`, the end of a copy. -/
theorem PairInv.quiet (hi : PairInv validator r) (hc : r.handlers.lookup c = some ph₀)
    (h₀ : ph₀.taken = 0) (ph : Phase) (hq : ph.quiet = true) :
    PairInv validator (r.setPhase c ph) := by
  have old : ∀ {x q}, (r.handlers.insert c ph).lookup x = some q → q.quiet = false →
      r.handlers.lookup x = some q := lookup_of_insert_quiet hq
  have hheld := held_setPhase hc h₀ ph (Phase.quiet_taken hq)
  refine ⟨fun x hx => ?_, hi.authed_lt, hi.answers_lt,
    fun x hx => hi.handshake_fresh x (old hx rfl), hi.failed_unauthed,
    fun x s ρ hx => hi.authenticated x s ρ (old hx rfl), hi.pending,
    fun x s h j hx => hi.pairing x s h j (old hx rfl), hi.paired,
    hheld ▸ hi.held_nodup, fun x hx => ?_⟩
  · exact hi.handlers_lt x (mem_of_mem_insert (mem_handlers_of_lookup hc) hx)
  · rw [hheld] at hx
    exact ⟨(hi.held_locked x hx).1,
      fun q => beforeLock_of_insert (Phase.quiet_beforeLock hq) (hi.held_locked x hx).2⟩

theorem PairInv.accept (hi : PairInv validator r) :
    PairInv validator { r.setPhase r.nextConn .handshake with nextConn := r.nextConn + 1 } := by
  have hn : r.handlers.lookup r.nextConn = none :=
    AList.lookup_eq_none.mpr fun h => lt_irrefl _ (hi.handlers_lt _ h)
  have cases : ∀ x q, (r.handlers.insert r.nextConn .handshake).lookup x = some q →
      x = r.nextConn ∧ q = .handshake ∨ x ≠ r.nextConn ∧ r.handlers.lookup x = some q :=
    fun _ _ hx => lookup_insert_cases hx
  have hheld : r.held = held { r.setPhase r.nextConn .handshake with
      nextConn := r.nextConn + 1 } := by
    simp only [held, setPhase, gather_insert, Phase.taken, zero_add, erase_of_lookup_eq_none hn]
  refine ⟨fun x hx => ?_, fun x hx => Nat.lt_succ_of_lt (hi.authed_lt x hx),
    fun x e hx => Nat.lt_succ_of_lt (hi.answers_lt x e hx), fun x hx => ?_,
    hi.failed_unauthed, fun x s ρ hx => ?_, hi.pending, fun x s h j hx => ?_, hi.paired,
    hheld ▸ hi.held_nodup, fun x hx => ?_⟩
  · rcases (AList.mem_insert _).mp hx with rfl | hx
    · exact Nat.lt_succ_self _
    · exact Nat.lt_succ_of_lt (hi.handlers_lt x hx)
  · rcases cases x _ hx with ⟨rfl, -⟩ | ⟨-, hx⟩
    · exact ⟨fun h => lt_irrefl _ (hi.authed_lt _ h),
        fun resp h => lt_irrefl _ (hi.answers_lt _ resp h)⟩
    · exact hi.handshake_fresh x hx
  · rcases cases x _ hx with ⟨-, ⟨⟩⟩ | ⟨-, hx⟩
    exact hi.authenticated x s ρ hx
  · rcases cases x _ hx with ⟨-, ⟨⟩⟩ | ⟨-, hx⟩
    exact hi.pairing x s h j hx
  · rw [← hheld] at hx
    obtain ⟨hlt, hph⟩ := hi.held_locked x hx
    refine ⟨Nat.lt_succ_of_lt hlt, fun q hq => ?_⟩
    rcases cases x _ hq with ⟨rfl, -⟩ | ⟨-, hq⟩
    · exact absurd hlt (lt_irrefl _)
    · exact hph q hq

/-- The relay writes an answer to a goroutine past its handshake; a failure only to one that
did not authenticate. -/
theorem PairInv.answer (hi : PairInv validator r) (hc : r.handlers.lookup c = some ph₀)
    (h₀ : ph₀ ≠ .handshake) (resp : AuthResponse) (hf : resp.success = false → c ∉ r.authed) :
    PairInv validator { r with answers := r.answers ++ [(c, resp)] } := by
  have hlt := hi.handlers_lt c (mem_handlers_of_lookup hc)
  refine ⟨hi.handlers_lt, hi.authed_lt, fun x e hx => ?_, fun x hx => ?_, fun x e hx => ?_,
    hi.authenticated, hi.pending, hi.pairing, hi.paired, hi.held_nodup, hi.held_locked⟩
  · rcases List.mem_append.mp hx with hx | hx
    · exact hi.answers_lt x e hx
    · obtain ⟨rfl, -⟩ := Prod.mk.inj (List.mem_singleton.mp hx)
      exact hlt
  · refine ⟨(hi.handshake_fresh x hx).1, fun e he => ?_⟩
    rcases List.mem_append.mp he with he | he
    · exact (hi.handshake_fresh x hx).2 e he
    · obtain ⟨rfl, -⟩ := Prod.mk.inj (List.mem_singleton.mp he)
      exact h₀ (Option.some.inj (hc.symm.trans hx))
  · rcases List.mem_append.mp hx with hx | hx
    · exact hi.failed_unauthed x e hx
    · obtain ⟨rfl, rfl⟩ := Prod.mk.inj (List.mem_singleton.mp hx)
      exact hf rfl

/-- The handshake succeeds: `{success:true}` is written and the message is recorded. -/
theorem PairInv.authenticate (hi : PairInv validator r) (hc : r.handlers.lookup c = some .handshake)
    {m : AuthMessage} (hm : validator m.relayToken = .ok (m.sessionID, m.role)) :
    PairInv validator { r.setPhase c (.authenticated m.sessionID m.role) with
      answers := r.answers ++ [(c, ⟨true, ""⟩)], authed := r.authed.insert c m } := by
  obtain ⟨hna, hnr⟩ := hi.handshake_fresh c hc
  have hlt := hi.handlers_lt c (mem_handlers_of_lookup hc)
  have hnh := hi.not_mem_held hc rfl
  have cases : ∀ x q, (r.handlers.insert c (.authenticated m.sessionID m.role)).lookup x = some q →
      x = c ∧ q = .authenticated m.sessionID m.role ∨ x ≠ c ∧ r.handlers.lookup x = some q :=
    fun _ _ hx => lookup_insert_cases hx
  have hheld := held_setPhase hc rfl (.authenticated m.sessionID m.role) rfl
  refine ⟨fun x hx => ?_, fun x hx => ?_, fun x e hx => ?_, fun x hx => ?_, fun x e hx => ?_,
    fun x s ρ hx => ?_, fun s p hp => ?_, fun x s h j hx => ?_, fun s h j hx => ?_,
    hheld ▸ hi.held_nodup, fun x hx => ?_⟩
  · rcases (AList.mem_insert _).mp hx with rfl | hx
    · exact hlt
    · exact hi.handlers_lt x hx
  · rcases (AList.mem_insert _).mp hx with rfl | hx
    · exact hlt
    · exact hi.authed_lt x hx
  · rcases List.mem_append.mp hx with hx | hx
    · exact hi.answers_lt x e hx
    · obtain ⟨rfl, -⟩ := Prod.mk.inj (List.mem_singleton.mp hx)
      exact hlt
  · rcases cases x _ hx with ⟨-, ⟨⟩⟩ | ⟨hne, hx⟩
    obtain ⟨hxa, hxr⟩ := hi.handshake_fresh x hx
    refine ⟨fun h => ?_, fun e he => ?_⟩
    · rcases (AList.mem_insert _).mp h with h | h
      · exact hne h
      · exact hxa h
    · rcases List.mem_append.mp he with he | he
      · exact hxr e he
      · exact hne (Prod.mk.inj (List.mem_singleton.mp he)).1
  · rcases List.mem_append.mp hx with hx' | hx'
    · intro h
      rcases (AList.mem_insert _).mp h with rfl | h
      · exact hnr _ hx'
      · exact hi.failed_unauthed x e hx' h
    · cases (Prod.mk.inj (List.mem_singleton.mp hx')).2
  · rcases cases x _ hx with ⟨rfl, ⟨⟩⟩ | ⟨-, hx⟩
    · exact ⟨m, AList.lookup_insert _, hm, rfl, rfl⟩
    · exact (hi.authenticated x s ρ hx).insert hna
  · exact ⟨(hi.pending s p hp).1, (hi.pending s p hp).2.insert hna⟩
  · rcases cases x _ hx with ⟨-, ⟨⟩⟩ | ⟨-, hx⟩
    exact ⟨(hi.pairing x s h j hx).1.insert hna, (hi.pairing x s h j hx).2.insert hna⟩
  · exact ⟨(hi.paired s h j hx).1.insert hna, (hi.paired s h j hx).2.insert hna⟩
  · have hx' : x ∈ r.held := by rw [← hheld]; exact hx
    obtain ⟨hlt', hph⟩ := hi.held_locked x hx'
    refine ⟨hlt', fun q hq => ?_⟩
    rcases cases x _ hq with ⟨rfl, -⟩ | ⟨-, hq⟩
    · exact absurd hx' hnh
    · exact hph q hq

/-- The pairing decision finds no entry of the other role: `c` is parked, in place of the
entry of its own role if there is one. -/
theorem PairInv.park {sessionID role : String} (hi : PairInv validator r)
    (hc : r.handlers.lookup c = some (.authenticated sessionID role)) (deadline createdAt : Nat) :
    PairInv validator { r.setPhase c (.waiting sessionID deadline) with
      pending := r.pending.insert sessionID ⟨c, role, sessionID, createdAt⟩ } := by
  have old : ∀ {x q}, (r.handlers.insert c (.waiting sessionID deadline)).lookup x = some q →
      q.quiet = false → r.handlers.lookup x = some q := lookup_of_insert_quiet rfl
  have hle : held { r.setPhase c (.waiting sessionID deadline) with
      pending := r.pending.insert sessionID ⟨c, role, sessionID, createdAt⟩ } ≤ c ::ₘ r.held := by
    calc _ = {c} + gather (fun p : PendingConnection => {p.conn}) (r.pending.erase sessionID) +
          gather Phase.taken r.handlers + (pairedConns r.paired : Multiset Nat) := by
          simp only [held, setPhase, gather_insert, gather_erase Phase.taken hc, Phase.taken]
      _ ≤ {c} + gather (fun p : PendingConnection => {p.conn}) r.pending +
          gather Phase.taken r.handlers + (pairedConns r.paired : Multiset Nat) := by
          gcongr
          exact gather_erase_le _ _ _
      _ = c ::ₘ r.held := by simp only [held, Multiset.singleton_add, Multiset.cons_add]
  refine ⟨fun x hx => hi.handlers_lt x (mem_of_mem_insert (mem_handlers_of_lookup hc) hx),
    hi.authed_lt, hi.answers_lt, fun x hx => hi.handshake_fresh x (old hx rfl),
    hi.failed_unauthed, fun x s ρ hx => hi.authenticated x s ρ (old hx rfl), fun s p hp => ?_,
    fun x s h j hx => hi.pairing x s h j (old hx rfl), hi.paired,
    Multiset.nodup_of_le hle (Multiset.nodup_cons.mpr ⟨hi.not_mem_held hc rfl, hi.held_nodup⟩),
    fun x hx => ?_⟩
  · rcases lookup_insert_cases hp with ⟨rfl, rfl⟩ | ⟨-, hp⟩
    · exact ⟨rfl, hi.authenticated c _ _ hc⟩
    · exact hi.pending s p hp
  · rcases Multiset.mem_cons.mp (Multiset.mem_of_le hle hx) with rfl | hx
    · refine ⟨hi.handlers_lt x (mem_handlers_of_lookup hc), fun q hq => ?_⟩
      rcases lookup_insert_cases hq with ⟨-, rfl⟩ | ⟨hne, -⟩
      · rfl
      · exact absurd rfl hne
    · exact ⟨(hi.held_locked x hx).1, fun q => beforeLock_of_insert rfl (hi.held_locked x hx).2⟩

/-- The pairing decision finds the entry of the other role: `c` takes it out, and with it
the connection it holds. -/
theorem PairInv.pairUp {sessionID role : String} {p : PendingConnection} {h j : Nat}
    (hv : HostOrJoiner validator) (hi : PairInv validator r)
    (hc : r.handlers.lookup c = some (.authenticated sessionID role))
    (hp : r.pending.lookup sessionID = some p) (hne : p.role ≠ role)
    (hhj : (h, j) = if role = "host" then (c, p.conn) else (p.conn, c)) :
    PairInv validator { r.setPhase c (.pairing sessionID h j) with
      pending := r.pending.erase sessionID } := by
  have hac := hi.authenticated c sessionID role hc
  have hpa := (hi.pending sessionID p hp).2
  have hnh := hi.not_mem_held hc rfl
  have hroles : Authenticated validator r.authed h sessionID "host" ∧
      Authenticated validator r.authed j sessionID "joiner" := by
    by_cases hr : role = "host"
    · rw [if_pos hr] at hhj
      obtain ⟨rfl, rfl⟩ := Prod.mk.inj hhj
      have hpr : p.role = "joiner" := (hpa.role_eq hv).resolve_left (hr ▸ hne)
      exact ⟨hr ▸ hac, hpr ▸ hpa⟩
    · rw [if_neg hr] at hhj
      obtain ⟨rfl, rfl⟩ := Prod.mk.inj hhj
      have hjr : role = "joiner" := (hac.role_eq hv).resolve_left hr
      have hpr : p.role = "host" := (hpa.role_eq hv).resolve_right (hjr ▸ hne)
      exact ⟨hpr ▸ hpa, hjr ▸ hac⟩
  have hpair : ({h, j} : Multiset Nat) = {c, p.conn} := by
    split at hhj <;> obtain ⟨rfl, rfl⟩ := Prod.mk.inj hhj
    · rfl
    · exact Multiset.pair_comm _ _
  have hheld : held { r.setPhase c (.pairing sessionID h j) with
      pending := r.pending.erase sessionID } = c ::ₘ r.held := by
    simp only [held, setPhase, gather_insert, Phase.taken, hpair, gather_erase Phase.taken hc,
      gather_erase _ hp, zero_add, Multiset.insert_eq_cons, ← Multiset.singleton_add]
    ac_rfl
  have cases : ∀ {x q}, (r.handlers.insert c (.pairing sessionID h j)).lookup x = some q →
      x = c ∧ q = .pairing sessionID h j ∨ x ≠ c ∧ r.handlers.lookup x = some q :=
    lookup_insert_cases
  refine ⟨fun x hx => hi.handlers_lt x (mem_of_mem_insert (mem_handlers_of_lookup hc) hx),
    hi.authed_lt, hi.answers_lt, fun x hx => ?_, hi.failed_unauthed, fun x s ρ hx => ?_,
    fun s q hq => hi.pending s q (lookup_erase_cases hq).2, fun x s h' j' hx => ?_, hi.paired,
    hheld ▸ Multiset.nodup_cons.mpr ⟨hnh, hi.held_nodup⟩, fun x hx => ?_⟩
  · rcases cases hx with ⟨-, ⟨⟩⟩ | ⟨-, hx⟩
    exact hi.handshake_fresh x hx
  · rcases cases hx with ⟨-, ⟨⟩⟩ | ⟨-, hx⟩
    exact hi.authenticated x s ρ hx
  · rcases cases hx with ⟨-, ⟨⟩⟩ | ⟨-, hx⟩
    · exact hroles
    · exact hi.pairing x s h' j' hx
  · rw [hheld] at hx
    rcases Multiset.mem_cons.mp hx with rfl | hx
    · refine ⟨hi.handlers_lt x (mem_handlers_of_lookup hc), fun q hq => ?_⟩
      rcases cases hq with ⟨-, rfl⟩ | ⟨hne, -⟩
      · rfl
      · exact absurd rfl hne
    · exact ⟨(hi.held_locked x hx).1, fun q => beforeLock_of_insert rfl (hi.held_locked x hx).2⟩

/-- `pairConnections` is called with the two connections the goroutine took. -/
theorem PairInv.pair {sessionID : String} {h j : Nat} (hi : PairInv validator r)
    (hc : r.handlers.lookup c = some (.pairing sessionID h j)) :
    PairInv validator { r.setPhase c (.splicing sessionID h j true true) with
      paired := r.paired ++ [(sessionID, h, j)] } := by
  have old : ∀ {x q}, (r.handlers.insert c (.splicing sessionID h j true true)).lookup x = some q →
      q.quiet = false → r.handlers.lookup x = some q := lookup_of_insert_quiet rfl
  have hheld : held { r.setPhase c (.splicing sessionID h j true true) with
      paired := r.paired ++ [(sessionID, h, j)] } = r.held := by
    simp only [held, setPhase, gather_insert, Phase.taken, gather_erase Phase.taken hc, zero_add,
      pairedConns, List.flatMap_append, ← Multiset.coe_add]
    simp only [List.flatMap_cons, List.flatMap_nil, List.append_nil, Multiset.insert_eq_cons,
      ← Multiset.cons_coe, Multiset.coe_nil, ← Multiset.singleton_add, add_zero, zero_add]
    ac_rfl
  refine ⟨fun x hx => hi.handlers_lt x (mem_of_mem_insert (mem_handlers_of_lookup hc) hx),
    hi.authed_lt, hi.answers_lt, fun x hx => hi.handshake_fresh x (old hx rfl),
    hi.failed_unauthed, fun x s ρ hx => hi.authenticated x s ρ (old hx rfl), hi.pending,
    fun x s h' j' hx => hi.pairing x s h' j' (old hx rfl), fun s h' j' hx => ?_,
    hheld ▸ hi.held_nodup, fun x hx => ?_⟩
  · rcases List.mem_append.mp hx with hx | hx
    · exact hi.paired s h' j' hx
    · obtain ⟨rfl, rfl, rfl⟩ : s = sessionID ∧ h' = h ∧ j' = j := by simpa using hx
      exact hi.pairing c s h' j' hc
  · rw [hheld] at hx
    exact ⟨(hi.held_locked x hx).1, fun q => beforeLock_of_insert rfl (hi.held_locked x hx).2⟩

/-- The goroutine returns and its deferred `conn.Close()` runs. -/
theorem PairInv.exit (hi : PairInv validator r) (hc : r.handlers.lookup c = some .returning) :
    PairInv validator { r with handlers := r.handlers.erase c, closed := c :: r.closed } := by
  have hheld : held { r with handlers := r.handlers.erase c, closed := c :: r.closed } =
      r.held := by
    simp only [held, gather_erase Phase.taken hc, Phase.taken, zero_add]
  refine ⟨fun x hx => hi.handlers_lt x (AList.mem_erase.mp hx).2, hi.authed_lt, hi.answers_lt,
    fun x hx => hi.handshake_fresh x (lookup_erase_cases hx).2, hi.failed_unauthed,
    fun x s ρ hx => hi.authenticated x s ρ (lookup_erase_cases hx).2, hi.pending,
    fun x s h j hx => hi.pairing x s h j (lookup_erase_cases hx).2, hi.paired,
    hheld ▸ hi.held_nodup, fun x hx => ?_⟩
  rw [hheld] at hx
  exact ⟨(hi.held_locked x hx).1, fun q hq => (hi.held_locked x hx).2 q (lookup_erase_cases hq).2⟩

/-- Entries leave `pending` (`cleanup`, or the goroutine giving up) and nothing else moves. -/
theorem PairInv.pendingSub (hi : PairInv validator r) {pending : AList (fun _ : String => PendingConnection)}
    (hsub : ∀ s p, pending.lookup s = some p → r.pending.lookup s = some p)
    (hle : gather (fun p : PendingConnection => {p.conn}) pending ≤
      gather (fun p : PendingConnection => {p.conn}) r.pending) (closed : List Nat) :
    PairInv validator { r with pending := pending, closed := closed } := by
  have hheld : held { r with pending := pending, closed := closed } ≤ r.held := by
    simp only [held]
    gcongr
  exact ⟨hi.handlers_lt, hi.authed_lt, hi.answers_lt, hi.handshake_fresh, hi.failed_unauthed,
    hi.authenticated, fun s p hp => hi.pending s p (hsub s p hp), hi.pairing, hi.paired,
    Multiset.nodup_of_le hheld hi.held_nodup, fun x hx => hi.held_locked x (Multiset.mem_of_le hheld hx)⟩

/-- The handshake fails and `{success:false}` is written. -/
theorem PairInv.fail (hi : PairInv validator r) (hc : r.handlers.lookup c = some .handshake)
    (e : String) : PairInv validator { r.setPhase c .returning with
      answers := r.answers ++ [(c, ⟨false, e⟩)] } :=
  (hi.quiet hc rfl .returning rfl).answer (AList.lookup_insert _) (by decide) ⟨false, e⟩
    fun _ => (hi.handshake_fresh c hc).1

theorem PairInv.handshake (hi : PairInv validator r) (hc : r.handlers.lookup c = some .handshake)
    (msg : Option AuthMessage) (sent : Bool) : PairInv validator (r.handshake validator c msg sent) := by
  unfold Relay.handshake
  rcases msg with _ | m
  · exact hi.fail hc _
  · dsimp only
    split
    · exact hi.fail hc _
    · rename_i sessionID role hm
      split_ifs with hne hs
      · exact hi.fail hc _
      · obtain ⟨rfl, rfl⟩ : sessionID = m.sessionID ∧ role = m.role := by simpa using hne
        exact hi.authenticate hc hm
      · exact hi.quiet hc rfl .returning rfl

theorem PairInv.lock {sessionID role : String} (hv : HostOrJoiner validator)
    (hi : PairInv validator r) (hc : r.handlers.lookup c = some (.authenticated sessionID role)) :
    PairInv validator (r.lock c sessionID role) := by
  unfold Relay.lock
  split
  · rename_i p hp
    by_cases hne : p.role ≠ role
    · rw [if_pos hne]
      exact hi.pairUp hv hc hp hne rfl
    · rw [if_neg hne]
      exact (hi.frame (p.conn :: r.closed) r.now).park hc _ _
  · exact hi.park hc _ _

theorem PairInv.copyDone {sessionID : String} {h j : Nat} {hj jh : Bool} (hi : PairInv validator r)
    (hc : r.handlers.lookup c = some (.splicing sessionID h j hj jh)) (hostToJoiner : Bool) :
    PairInv validator (r.copyDone c sessionID h j hj jh hostToJoiner) := by
  cases hostToJoiner <;> exact (hi.quiet hc rfl _ (by split <;> rfl)).frame _ _

theorem PairInv.poll {sessionID : String} {deadline : Nat} (hi : PairInv validator r)
    (hc : r.handlers.lookup c = some (.waiting sessionID deadline)) :
    PairInv validator (r.poll c sessionID deadline) := by
  unfold Relay.poll
  split
  · split_ifs
    · exact hi.quiet hc rfl .returning rfl
    · exact hi.quiet hc rfl (.timedOut sessionID) rfl
    · exact hi
  · exact hi.quiet hc rfl .returning rfl

theorem PairInv.expire {sessionID : String} (hi : PairInv validator r)
    (hc : r.handlers.lookup c = some (.timedOut sessionID)) :
    PairInv validator (r.expire c sessionID) := by
  unfold Relay.expire
  split
  · split_ifs
    · exact (hi.quiet hc rfl .returning rfl).pendingSub (fun _ _ hp => (lookup_erase_cases hp).2)
        (gather_erase_le _ _ _) _
    · exact hi.quiet hc rfl .returning rfl
  · exact hi.quiet hc rfl .returning rfl

/-- `cleanup` only removes entries of `pending` and closes their connections. -/
theorem cleanup_spec (r : Relay) : ∃ pending closed,
    r.cleanup = { r with pending := pending, closed := closed } ∧
    (∀ s p, pending.lookup s = some p → r.pending.lookup s = some p) ∧
    gather (fun p : PendingConnection => {p.conn}) pending ≤
      gather (fun p : PendingConnection => {p.conn}) r.pending := by
  suffices key : ∀ (l : List (Σ _ : String, PendingConnection)) (acc : Relay), ∃ pending closed,
      l.foldl (fun acc e =>
        if e.2.createdAt < r.now - r.pairTimeout then
          { acc with closed := e.2.conn :: acc.closed, pending := acc.pending.erase e.1 }
        else acc) acc = { acc with pending := pending, closed := closed } ∧
      (∀ s p, pending.lookup s = some p → acc.pending.lookup s = some p) ∧
      gather (fun p : PendingConnection => {p.conn}) pending ≤
        gather (fun p : PendingConnection => {p.conn}) acc.pending from key _ r
  intro l
  induction l with
  | nil => exact fun acc => ⟨acc.pending, acc.closed, rfl, fun _ _ h => h, le_rfl⟩
  | cons e l ih =>
    intro acc
    simp only [List.foldl_cons]
    split_ifs
    · obtain ⟨pending, closed, heq, hsub, hle⟩ :=
        ih { acc with closed := e.2.conn :: acc.closed, pending := acc.pending.erase e.1 }
      exact ⟨pending, closed, heq, fun s p hp => (lookup_erase_cases (hsub s p hp)).2,
        hle.trans (gather_erase_le _ _ _)⟩
    · exact ih acc

theorem PairInv.cleanup (hi : PairInv validator r) : PairInv validator r.cleanup := by
  obtain ⟨pending, closed, heq, hsub, hle⟩ := cleanup_spec r
  rw [heq]
  exact hi.pendingSub hsub hle closed

theorem PairInv.step {r' : Relay} {a : Action} (hv : HostOrJoiner validator)
    (hi : PairInv validator r) (h : r.step validator a = some r') : PairInv validator r' := by
  cases a with
  | accept => exact Option.some.inj h ▸ hi.accept
  | handshake c msg sent =>
    simp only [Relay.step] at h
    split at h
    · exact Option.some.inj h ▸ hi.handshake ‹_› msg sent
    · cases h
  | lock c =>
    simp only [Relay.step] at h
    split at h
    · exact Option.some.inj h ▸ hi.lock hv ‹_›
    · cases h
  | pair c =>
    simp only [Relay.step] at h
    split at h
    · exact Option.some.inj h ▸ hi.pair ‹_›
    · cases h
  | copyDone c dir =>
    simp only [Relay.step] at h
    split at h
    · split_ifs at h <;> exact Option.some.inj h ▸ hi.copyDone ‹_› dir
    · cases h
  | poll c =>
    simp only [Relay.step] at h
    split at h
    · exact Option.some.inj h ▸ hi.poll ‹_›
    · cases h
  | expire c =>
    simp only [Relay.step] at h
    split at h
    · exact Option.some.inj h ▸ hi.expire ‹_›
    · cases h
  | exit c =>
    simp only [Relay.step] at h
    split at h
    · exact Option.some.inj h ▸ hi.exit ‹_›
    · cases h
  | cleanup => exact Option.some.inj h ▸ hi.cleanup
  | tick d => exact Option.some.inj h ▸ hi.frame r.closed _

theorem Reachable.pairInv {pairTimeout : Nat} (hv : HostOrJoiner validator)
    (hr : Reachable validator pairTimeout r) : PairInv validator r := by
  induction hr with
  | init => exact pairInv_newRelay pairTimeout
  | step _ _ h ih => exact ih.step hv h

end Preservation

/-! ## Pairing safety -/

theorem gather_mem {s : AList (fun _ : String => PendingConnection)} {sessionID : String}
    {p : PendingConnection} (hp : s.lookup sessionID = some p) :
    p.conn ∈ gather (fun p : PendingConnection => {p.conn}) s := by
  rw [gather_erase _ hp]
  exact Multiset.mem_add.mpr (.inl (Multiset.mem_singleton_self _))

theorem lock_pairs_with_other_role {validator : TokenValidator} {r : Relay} {c : Nat}
    {sessionID role : String} {p : PendingConnection}
    (hc : r.handlers.lookup c = some (.authenticated sessionID role))
    (hp : r.pending.lookup sessionID = some p) (hne : p.role ≠ role) :
    ∃ r', r.step validator (.lock c) = some r' ∧ r'.pending.lookup sessionID = none ∧
      r'.handlers.lookup c = some (.pairing sessionID (if role = "host" then c else p.conn)
        (if role = "host" then p.conn else c)) := by
  by_cases hr : role = "host"
  · subst hr
    simp [Relay.step, hc, Relay.lock, hp, hne, setPhase, AList.lookup_erase]
  · simp [Relay.step, hc, Relay.lock, hp, hne, hr, setPhase, AList.lookup_erase]

/-- What the relay promises about pairing, in one state. -/
structure PairingSafe (validator : TokenValidator) (r : Relay) : Prop where
  pending_authenticated : ∀ sessionID p, r.pending.lookup sessionID = some p →
    p.sessionID = sessionID ∧ Authenticated validator r.authed p.conn sessionID p.role
  failed_not_pending : ∀ c e, (c, ⟨false, e⟩) ∈ r.answers →
    ∀ sessionID p, r.pending.lookup sessionID = some p → p.conn ≠ c
  paired_authenticated : ∀ sessionID h j, (sessionID, h, j) ∈ r.paired →
    Authenticated validator r.authed h sessionID "host" ∧
      Authenticated validator r.authed j sessionID "joiner"
  paired_once : (pairedConns r.paired).Nodup
  paired_not_pending : ∀ sessionID p, r.pending.lookup sessionID = some p →
    p.conn ∉ pairedConns r.paired
  lock_pairs : ∀ c sessionID role p, r.handlers.lookup c = some (.authenticated sessionID role) →
    r.pending.lookup sessionID = some p → p.role ≠ role →
    ∃ r', r.step validator (.lock c) = some r' ∧ r'.pending.lookup sessionID = none ∧
      r'.handlers.lookup c = some (.pairing sessionID (if role = "host" then c else p.conn)
        (if role = "host" then p.conn else c))

theorem pairing_safe (validator : TokenValidator) (hv : HostOrJoiner validator)
    (pairTimeout : Nat) (r : Relay) (hr : Reachable validator pairTimeout r) :
    PairingSafe validator r := by
  have hi := hr.pairInv hv
  obtain ⟨-, hpaired, hdisj⟩ := Multiset.nodup_add.mp hi.held_nodup
  refine ⟨hi.pending, fun c e he s p hp hpc => ?_, hi.paired, Multiset.coe_nodup.mp hpaired,
    fun s p hp hmem => ?_, fun _ _ _ _ => lock_pairs_with_other_role⟩
  · exact hi.failed_unauthed c e he (hpc ▸ (hi.pending s p hp).2.mem)
  · exact Multiset.disjoint_left.mp hdisj (Multiset.mem_add.mpr (.inl (gather_mem hp))) hmem

/-- A validator that gives one session and tells the host's token from every other. -/
def twoRoleValidator (sessionID hostToken : String) : TokenValidator :=
  fun token => .ok (sessionID, if token = hostToken then "host" else "joiner")

theorem twoRoleValidator_hostOrJoiner (sessionID hostToken : String) :
    HostOrJoiner (twoRoleValidator sessionID hostToken) := by
  intro token s role h
  simp only [twoRoleValidator, Except.ok.injEq, Prod.mk.injEq] at h
  rw [← h.2]
  split_ifs
  · exact .inl rfl
  · exact .inr rfl

theorem pairing_safe_after_pairing :
    HostOrJoiner (twoRoleValidator "s" "h") ∧
    ∃ r, (newRelay 30).run (twoRoleValidator "s" "h")
        [.accept, .accept, .handshake 0 (some ⟨"s", "h", "host"⟩) true,
          .handshake 1 (some ⟨"s", "j", "joiner"⟩) true, .lock 0, .lock 1, .pair 1] = some r ∧
      Reachable (twoRoleValidator "s" "h") 30 r ∧ PairingSafe (twoRoleValidator "s" "h") r := by
  obtain ⟨r, hr⟩ : ∃ r, (newRelay 30).run (twoRoleValidator "s" "h")
      [.accept, .accept, .handshake 0 (some ⟨"s", "h", "host"⟩) true,
        .handshake 1 (some ⟨"s", "j", "joiner"⟩) true, .lock 0, .lock 1, .pair 1] = some r :=
    ⟨_, rfl⟩
  have hreach := Reachable.init.run hr
  exact ⟨twoRoleValidator_hostOrJoiner "s" "h", r, hr, hreach,
    pairing_safe _ (twoRoleValidator_hostOrJoiner "s" "h") 30 r hreach⟩

end SfoConnectivity.Relay
