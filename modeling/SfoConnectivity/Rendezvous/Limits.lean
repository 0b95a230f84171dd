import SfoConnectivity.Rendezvous.Server

/-! # The server's rate limits

`handleCreate` and `handleJoin` ask `AllowCreate` and `AllowJoin` of the server's
`MultiLimiter` for the address `getClientIP` reads, and the two janitors of the limiters tick on
their own. Seen from one limiter, a run of the server is a run of `Limiter` on the calls its
steps make, at their instants; so what `Limiter` guarantees holds of the server under every
interleaving of its goroutines.
-/

namespace SfoConnectivity.Rendezvous

/-! ## The two limiters -/

/-- The limiters of the server's `MultiLimiter`. -/
inductive Gate where
  | create
  | join

def Gate.limiter : Gate → Bridge.MultiLimiter → Bridge.Limiter
  | .create, m => m.create
  | .join, m => m.join

/-- The address and the answer of an `Allow` on the gate that `o` shows. -/
def Gate.answer : Gate → Obs → Option (String × Bool)
  | .create, .allowCreate r ok => some (getClientIP r, ok)
  | .join, .allowJoin r ok => some (getClientIP r, ok)
  | _, _ => none

/-- The answers of the gate that a run shows, each at its instant, as `Limiter.run` lists them. -/
def Gate.answers (g : Gate) (obs : List (Nat × Obs)) : List (Nat × String × Bool) :=
  obs.filterMap fun o => (g.answer o.2).map ((o.1, ·))

theorem Gate.answers_append (g : Gate) (o₁ o₂ : List (Nat × Obs)) :
    g.answers (o₁ ++ o₂) = g.answers o₁ ++ g.answers o₂ :=
  List.filterMap_append _ _ _

theorem Gate.answers_map (g : Gate) (now : Nat) (obs : List Obs) :
    g.answers (obs.map ((now, ·))) = (obs.filterMap g.answer).map ((now, ·)) := by
  induction obs with
  | nil => rfl
  | cons o obs ih =>
    cases h : g.answer o <;> simp [Gate.answers, h] at ih ⊢ <;> exact ih

/-! ## Runs of one limiter -/

/-- `l` gives `answers` and becomes `l'` by some calls, each at one of `instants`, in order. -/
def LimiterRun (l : Bridge.Limiter) (instants : List Nat) (answers : List (Nat × String × Bool))
    (l' : Bridge.Limiter) : Prop :=
  ∃ calls : List (Nat × Bridge.Call), (calls.map Prod.fst).Sublist instants ∧
    answers = (l.run calls).1 ∧ l' = (l.run calls).2

theorem LimiterRun.nil (l : Bridge.Limiter) (instants : List Nat) : LimiterRun l instants [] l :=
  ⟨[], List.nil_sublist _, rfl, rfl⟩

theorem LimiterRun.append {l l' l'' : Bridge.Limiter} {i₁ i₂ : List Nat}
    {a₁ a₂ : List (Nat × String × Bool)} (h₁ : LimiterRun l i₁ a₁ l') (h₂ : LimiterRun l' i₂ a₂ l'') :
    LimiterRun l (i₁ ++ i₂) (a₁ ++ a₂) l'' := by
  obtain ⟨c₁, hs₁, rfl, rfl⟩ := h₁
  obtain ⟨c₂, hs₂, rfl, rfl⟩ := h₂
  exact ⟨c₁ ++ c₂, List.map_append _ _ _ ▸ hs₁.append hs₂, by rw [Bridge.run_append],
    by rw [Bridge.run_append]⟩

/-! ## One step, seen from a limiter -/

section Steps

variable {upper : Char → Char} {srv : Server} {now : Nat}

theorem handleSession_limiter (r : Request) :
    (srv.handleSession now r).obs = [] ∧ (srv.handleSession now r).limiter = srv.limiter := by
  unfold Server.handleSession
  dsimp only
  split_ifs <;> exact ⟨rfl, rfl⟩

/-- What a goroutine's step does to the limiters: nothing, or one `Allow` of its client's
address on one of them, which it shows. -/
theorem advance_limiter (h : Handler) :
    ((srv.advance upper now h).obs = [] ∧ (srv.advance upper now h).limiter = srv.limiter) ∨
    (∃ r, (srv.advance upper now h).obs =
        [.allowCreate r (srv.limiter.create.allow (getClientIP r) now).1] ∧
      (srv.advance upper now h).limiter =
        { srv.limiter with create := (srv.limiter.create.allow (getClientIP r) now).2 }) ∨
    (∃ r, (srv.advance upper now h).obs =
        [.allowJoin r (srv.limiter.join.allow (getClientIP r) now).1] ∧
      (srv.advance upper now h).limiter =
        { srv.limiter with join := (srv.limiter.join.allow (getClientIP r) now).2 }) := by
  unfold Server.advance
  split
  · unfold Server.serveHTTP
    split_ifs
    · exact .inl ⟨rfl, rfl⟩
    · split
      · exact .inl ⟨rfl, rfl⟩
      · unfold Server.handleCreate
        split_ifs
        · exact .inl ⟨rfl, rfl⟩
        · exact .inr (.inl ⟨_, rfl, rfl⟩)
      · unfold Server.handleJoin
        split_ifs
        · exact .inl ⟨rfl, rfl⟩
        · exact .inr (.inr ⟨_, rfl, rfl⟩)
      · exact .inl (handleSession_limiter _)
      · exact .inl ⟨rfl, rfl⟩
      · exact .inl ⟨rfl, rfl⟩
  · split <;> exact .inl ⟨rfl, rfl⟩
  · exact .inl ⟨rfl, rfl⟩
  · split <;> exact .inl ⟨rfl, rfl⟩
  · exact .inl ⟨rfl, rfl⟩
  · exact .inl ⟨rfl, rfl⟩

theorem advance_gate (g : Gate) (h : Handler) :
    LimiterRun (g.limiter srv.limiter) [now]
      (((srv.advance upper now h).obs.filterMap g.answer).map ((now, ·)))
      (g.limiter (srv.advance upper now h).limiter) := by
  rcases @advance_limiter upper srv now h with
    ⟨ho, hl⟩ | ⟨r, ho, hl⟩ | ⟨r, ho, hl⟩ <;> rw [ho, hl] <;> cases g
  all_goals first
    | exact LimiterRun.nil _ _
    | exact ⟨[(now, .allow (getClientIP r))], List.Sublist.refl _, rfl, rfl⟩

/-- A step of the server, seen from one limiter: at most one call, at the step's instant. -/
theorem step_gate (g : Gate) (e : Event) :
    LimiterRun (g.limiter srv.limiter) [now] (g.answers ((srv.step upper now e).1.map ((now, ·))))
      (g.limiter (srv.step upper now e).2.limiter) := by
  cases e with
  | request r d => exact LimiterRun.nil _ _
  | resume i =>
    rcases hi : srv.handlers[i]? with _ | h
    · simpa [Server.step, hi] using LimiterRun.nil (g.limiter srv.limiter) [now]
    · have hg := @advance_gate upper srv now g h
      rcases step_resume hi with ⟨_, -, he⟩ | ⟨_, -, he⟩ <;>
        rw [he, apply_limiter, Gate.answers_map]
      · exact hg
      · rw [List.filterMap_append]
        cases g <;> simpa [Gate.answer] using hg
  | storeCleanup => exact LimiterRun.nil _ _
  | createCleanup =>
    cases g
    · exact ⟨[(now, .doCleanup)], List.Sublist.refl _, rfl, rfl⟩
    · exact LimiterRun.nil _ _
  | joinCleanup =>
    cases g
    · exact LimiterRun.nil _ _
    · exact ⟨[(now, .doCleanup)], List.Sublist.refl _, rfl, rfl⟩

end Steps

/-- Every run of the server, seen from one limiter, is a run of that limiter on calls made at
instants of the run's events, in order. -/
theorem run_gate (upper : Char → Char) (g : Gate) (srv : Server) (events : List (Nat × Event)) :
    LimiterRun (g.limiter srv.limiter) (events.map Prod.fst) (g.answers (srv.run upper events).1)
      (g.limiter (srv.run upper events).2.limiter) := by
  induction events generalizing srv with
  | nil => exact LimiterRun.nil _ _
  | cons e events ih =>
    obtain ⟨now, e⟩ := e
    simp only [Server.run, Gate.answers_append, List.map_cons]
    exact (step_gate g e).append (ih _)

/-! ## What a client is answered -/

theorem gate_newMultiLimiter (g : Gate) : ∃ (r : ℚ) (burst : Nat), 0 ≤ r ∧
    (burst : ℚ) ≤ Bridge.tokensFromDuration r (3 * 60 * 10 ^ 9) ∧
    g.limiter Bridge.newMultiLimiter = Bridge.newLimiter r burst := by
  cases g
  · exact ⟨10 / 60, 3, by norm_num, by norm_num [Bridge.tokensFromDuration], rfl⟩
  · exact ⟨30 / 60, 10, by norm_num, by norm_num [Bridge.tokensFromDuration], rfl⟩

section Clients

variable (upper : Char → Char) (mac : Auth.Mac) (secret : List UInt8) (ttl : Nat)
  (events : List (Nat × Event))

/-- Two clients, each creating a session at its own instant. -/
def twoClients : List (Nat × Event) :=
  [(0, .request ⟨"POST", "/session/create", "", "10.0.0.1", "", "", none, none, none⟩
      ⟨.error "", .error "", .error ""⟩),
    (1, .request ⟨"POST", "/session/create", "", "10.0.0.2", "", "", none, none, none⟩
      ⟨.error "", .error "", .error ""⟩),
    (2, .resume 1), (3, .resume 0), (4, .createCleanup)]

/-- Over every run of a server `main` starts, with its events in order of time, what
`AllowCreate` (or `AllowJoin`) answers one client address is what a new limiter answers that
address's own requests alone, at their instants: no other client, no interleaving of the
goroutines and no janitor tick changes whether a request of the client passes. -/
theorem client_answers_isolated (hsorted : (events.map Prod.fst).Sorted (· ≤ ·)) (g : Gate)
    (ip : String) :
    ((g.answers ((newServer mac secret ttl).run upper events).1).filter fun a => a.2.1 == ip) =
      ((g.limiter Bridge.newMultiLimiter).run
        (((g.answers ((newServer mac secret ttl).run upper events).1).filter
          fun a => a.2.1 == ip).map fun a => (a.1, .allow ip))).1 := by
  obtain ⟨calls, hs, h, -⟩ := run_gate upper g (newServer mac secret ttl) events
  obtain ⟨r, burst, hr, hb, hg⟩ := gate_newMultiLimiter g
  have hl : (newServer mac secret ttl).limiter = Bridge.newMultiLimiter := rfl
  rw [h, hl, hg]
  exact Bridge.newLimiter_isolated hr hb calls (hsorted.sublist hs) ip

theorem two_clients_isolated :
    (twoClients.map Prod.fst).Sorted (· ≤ ·) ∧
    ((Gate.create.answers ((newServer Auth.zeroMac [] 600).run id twoClients).1).filter
        fun a => a.2.1 == "10.0.0.1") =
      ((Gate.create.limiter Bridge.newMultiLimiter).run
        (((Gate.create.answers ((newServer Auth.zeroMac [] 600).run id twoClients).1).filter
          fun a => a.2.1 == "10.0.0.1").map fun a => (a.1, .allow "10.0.0.1"))).1 :=
  ⟨by decide, client_answers_isolated id Auth.zeroMac [] 600 twoClients (by decide) .create "10.0.0.1"⟩

/-- Over every run of a server `main` starts, with its events in order of time, the first 3
create requests and the first 10 join requests of any client address pass the limiter, whatever
the other clients, the goroutines and the janitors do. The address is the one `getClientIP`
reads, the first `X-Forwarded-For` entry when there is one. -/
theorem client_first_requests_pass (hsorted : (events.map Prod.fst).Sorted (· ≤ ·))
    (ip : String) :
    ((((Gate.create.answers ((newServer mac secret ttl).run upper events).1).filter
        fun a => a.2.1 == ip).take 3).all fun a => a.2.2) = true ∧
    ((((Gate.join.answers ((newServer mac secret ttl).run upper events).1).filter
        fun a => a.2.1 == ip).take 10).all fun a => a.2.2) = true := by
  obtain ⟨c₁, hs₁, h₁, -⟩ := run_gate upper .create (newServer mac secret ttl) events
  obtain ⟨c₂, hs₂, h₂, -⟩ := run_gate upper .join (newServer mac secret ttl) events
  rw [h₁, h₂]
  exact ⟨Bridge.newLimiter_first_pass (by norm_num) (by norm_num [Bridge.tokensFromDuration]) c₁
      (hsorted.sublist hs₁) ip,
    Bridge.newLimiter_first_pass (by norm_num) (by norm_num [Bridge.tokensFromDuration]) c₂
      (hsorted.sublist hs₂) ip⟩

theorem two_clients_first_requests_pass :
    (twoClients.map Prod.fst).Sorted (· ≤ ·) ∧
    ((((Gate.create.answers ((newServer Auth.zeroMac [] 600).run id twoClients).1).filter
        fun a => a.2.1 == "10.0.0.2").take 3).all fun a => a.2.2) = true ∧
    ((((Gate.join.answers ((newServer Auth.zeroMac [] 600).run id twoClients).1).filter
        fun a => a.2.1 == "10.0.0.2").take 10).all fun a => a.2.2) = true :=
  ⟨by decide, client_first_requests_pass id Auth.zeroMac [] 600 twoClients (by decide) "10.0.0.2"⟩

end Clients

end SfoConnectivity.Rendezvous
