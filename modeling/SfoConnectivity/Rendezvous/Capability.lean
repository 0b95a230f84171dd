import SfoConnectivity.Rendezvous.Lifecycle

/-! # Who `ValidateToken` lets in (`server/internal/session/store.go`)

`ValidateToken` compares the token it is given with the host token or the join token of a
live record. A host token is drawn by `Create` and is never empty. A join token is drawn by
a `Join`; before that it is the empty string, and `ValidateToken` compares with it all the
same.
-/

namespace SfoConnectivity.Rendezvous

/-! ## Where every token of the store comes from -/

/-- Every record sits under its own id; its host token is not empty and was returned by a
`Create` of the run, and its join token is empty or was returned by a `Join` of the run. -/
structure Minted (s : Store) (replies : List Reply) : Prop where
  id_eq : ∀ id r, s.sessions.lookup id = some r → r.id = id
  host : ∀ id r, s.sessions.lookup id = some r → r.hostToken ≠ "" ∧
    ∃ rc, .created (.ok rc) ∈ replies ∧ rc.id = id ∧ rc.hostToken = r.hostToken
  join : ∀ id r, s.sessions.lookup id = some r → r.joinToken = "" ∨
    ∃ rj, .joined (.ok rj) ∈ replies ∧ rj.id = id ∧ rj.joinToken = r.joinToken

variable {s s' : Store} {now : Nat} {replies : List Reply}

theorem Minted.of_lookup (h : Minted s replies) {replies' : List Reply}
    (hr : replies ⊆ replies')
    (hl : ∀ id r, s'.sessions.lookup id = some r → s.sessions.lookup id = some r) :
    Minted s' replies' where
  id_eq id r hs := h.id_eq id r (hl id r hs)
  host id r hs := (h.host id r (hl id r hs)).imp_right fun ⟨rc, hm, he⟩ => ⟨rc, hr hm, he⟩
  join id r hs := (h.join id r (hl id r hs)).imp_right fun ⟨rj, hm, he⟩ => ⟨rj, hr hm, he⟩

/-- Writing back under its id a record with the same id and host token, and a join token
that is the old one or one the replies hold. -/
theorem Minted.insert (h : Minted s replies) {id : String} {r r' : Session}
    (hs : s.sessions.lookup id = some r) (hid : r'.id = r.id) (hhost : r'.hostToken = r.hostToken)
    (hjoin : r'.joinToken = r.joinToken ∨
      ∃ rj, .joined (.ok rj) ∈ replies ∧ rj.id = id ∧ rj.joinToken = r'.joinToken) :
    Minted { s with sessions := s.sessions.insert id r' } replies := by
  refine ⟨fun x q hq => ?_, fun x q hq => ?_, fun x q hq => ?_⟩ <;>
    rcases lookup_insert_cases hq with ⟨rfl, rfl⟩ | ⟨-, hq⟩
  · exact hid.trans (h.id_eq _ r hs)
  · exact h.id_eq x q hq
  · rw [hhost]; exact h.host _ r hs
  · exact h.host x q hq
  · rcases hjoin with he | he
    · rw [he]; exact h.join _ r hs
    · exact .inr he
  · exact h.join x q hq

theorem Minted.step (h : Minted s replies) (op : Op) :
    Minted (s.step now op).2 (replies ++ [(s.step now op).1]) := by
  have keep : ∀ reply : Reply, Minted s (replies ++ [reply]) := fun _ =>
    h.of_lookup (List.subset_append_left _ _) fun _ _ hs => hs
  rcases step_sessions s now op with
    ⟨hl, -, -⟩ | ⟨i, c, t, r, hc, hrep⟩ | ⟨code, t, r, -, hj, hrep⟩ | ⟨id, set, hset, hs, -⟩
  · exact (keep _).of_lookup (fun _ hm => hm) hl
  · obtain ⟨id, code, tok, -, -, ht, rfl, he⟩ := create_eq_ok hc
    rw [he, hrep]
    refine ⟨fun x q hq => ?_, fun x q hq => ?_, fun x q hq => ?_⟩ <;>
      rcases lookup_insert_cases hq with ⟨rfl, rfl⟩ | ⟨-, hq⟩
    · rfl
    · exact h.id_eq x q hq
    · exact ⟨generateID_ne_empty ht, _, by simp, rfl, rfl⟩
    · exact (keep _).host x q hq
    · exact .inl rfl
    · exact (keep _).join x q hq
  · obtain ⟨id, session, tok, -, hs, -, -, rfl, he⟩ := join_eq_ok hj
    have hl := (liveSession_eq_some.mp hs).1
    rw [he, hrep]
    exact (keep _).insert hl rfl rfl
      (.inr ⟨_, List.mem_append_right _ (List.mem_singleton_self _), h.id_eq id session hl, rfl⟩)
  · obtain ⟨session, hl, he⟩ := setConnected_eq_ok hs
    rw [he]
    exact (keep _).insert hl (hset session).1 (hset session).2.1 (.inl (hset session).2.2.1)

theorem Minted.run (h : Minted s replies) (ops : List (Nat × Op)) :
    Minted (s.run ops).2 (replies ++ (s.run ops).1) := by
  induction ops generalizing s replies with
  | nil => simpa [Store.run] using h
  | cons p ops ih =>
    obtain ⟨now, op⟩ := p
    simpa [Store.run] using ih (h.step op)

theorem minted_new (ttl : Nat) : Minted (newStore ttl) [] where
  id_eq := by simp [newStore, AList.lookup_empty]
  host := by simp [newStore, AList.lookup_empty]
  join := by simp [newStore, AList.lookup_empty]

/-- A `true` from `ValidateToken`: the record is live and the token is its host token or its
join token, as the role asks. -/
theorem validateToken_spec {id token role : String} (h : s.validateToken id token role now = true) :
    ∃ r, s.liveSession id now = some r ∧
      (role = "host" ∧ token = r.hostToken ∨ role = "joiner" ∧ token = r.joinToken) := by
  unfold Store.validateToken at h
  split at h
  · cases h
  · rename_i r hr
    refine ⟨r, hr, ?_⟩
    split_ifs at h with hh hj
    · exact .inl ⟨hh, (beq_iff_eq.mp h).symm⟩
    · exact .inr ⟨hj, (beq_iff_eq.mp h).symm⟩

/-- What `ValidateToken` accepts after any run of the store: a live record's host token,
which is not empty and which a `Create` of the run returned, or its join token, which a
`Join` of the run returned or, until one does, is empty. -/
theorem validateToken_run {ttl : Nat} {ops : List (Nat × Op)} {sessionID token role : String}
    (h : ((newStore ttl).run ops).2.validateToken sessionID token role now = true) :
    ∃ r, ((newStore ttl).run ops).2.liveSession sessionID now = some r ∧
      ((role = "host" ∧ token = r.hostToken ∧ token ≠ "" ∧
          ∃ rc, .created (.ok rc) ∈ ((newStore ttl).run ops).1 ∧ rc.id = sessionID ∧
            rc.hostToken = token) ∨
        (role = "joiner" ∧ token = r.joinToken ∧ (token = "" ∨
          ∃ rj, .joined (.ok rj) ∈ ((newStore ttl).run ops).1 ∧ rj.id = sessionID ∧
            rj.joinToken = token))) := by
  obtain ⟨r, hr, hrole⟩ := validateToken_spec h
  have hm := (minted_new ttl).run ops
  have hl := (liveSession_eq_some.mp hr).1
  simp only [List.nil_append] at hm
  refine ⟨r, hr, ?_⟩
  rcases hrole with ⟨hh, rfl⟩ | ⟨hj, rfl⟩
  · exact .inl ⟨hh, rfl, hm.host _ r hl⟩
  · exact .inr ⟨hj, rfl, hm.join _ r hl⟩

/-- A `Create` at 0 and a `Join` of its code at 1, every drawn byte of the join token 5. -/
def createJoinOps : List (Nat × Op) :=
  [(0, .create (.ok fun _ => 0) (.ok fun _ => 0) (.ok fun _ => 0)),
   (1, .join "AAAA-AAAA-AAAA" (.ok fun _ => 5))]

theorem join_token_validates_after_join :
    ((newStore 900).run createJoinOps).2.validateToken (hexString (List.replicate 16 0))
        (hexString (List.replicate 32 5)) "joiner" 2 = true ∧
      ∃ r, ((newStore 900).run createJoinOps).2.liveSession (hexString (List.replicate 16 0)) 2 =
          some r ∧
        (("joiner" = "host" ∧ hexString (List.replicate 32 5) = r.hostToken ∧
            hexString (List.replicate 32 5) ≠ "" ∧
            ∃ rc, .created (.ok rc) ∈ ((newStore 900).run createJoinOps).1 ∧
              rc.id = hexString (List.replicate 16 0) ∧ rc.hostToken = hexString (List.replicate 32 5)) ∨
          ("joiner" = "joiner" ∧ hexString (List.replicate 32 5) = r.joinToken ∧
            (hexString (List.replicate 32 5) = "" ∨
              ∃ rj, .joined (.ok rj) ∈ ((newStore 900).run createJoinOps).1 ∧
                rj.id = hexString (List.replicate 16 0) ∧
                rj.joinToken = hexString (List.replicate 32 5)))) :=
  have h : ((newStore 900).run createJoinOps).2.validateToken (hexString (List.replicate 16 0))
      (hexString (List.replicate 32 5)) "joiner" 2 = true := by decide
  ⟨h, validateToken_run h⟩

/-! ## The empty join token -/

/-- After a `Create`, and until a `Join` draws the record a join token, `ValidateToken` takes
the empty string as the record's joiner token; the empty string is never its host token. -/
theorem validateToken_accepts_empty_joiner_token {i c t} {r : Session}
    (h : s.create i c t now = .ok (r, s')) {now' : Nat} (hlive : now' ≤ r.expiresAt) :
    s'.validateToken r.id "" "joiner" now' = true ∧ s'.validateToken r.id "" "host" now' = false := by
  obtain ⟨id, code, tok, -, -, ht, rfl, rfl⟩ := create_eq_ok h
  simp only [Store.validateToken, Store.liveSession, AList.lookup_insert] at hlive ⊢
  simpa [Nat.not_lt.mpr hlive] using generateID_ne_empty ht

theorem empty_joiner_token_after_first_create :
    ∃ r s', (newStore 900).create (.ok fun _ => 0) (.ok fun _ => 0) (.ok fun _ => 0) 0 =
        .ok (r, s') ∧ 0 ≤ r.expiresAt ∧
      s'.validateToken r.id "" "joiner" 0 = true ∧ s'.validateToken r.id "" "host" 0 = false :=
  have hc : (newStore 900).create (.ok fun _ => 0) (.ok fun _ => 0) (.ok fun _ => 0) 0 =
      .ok (_, _) := rfl
  ⟨_, _, hc, Nat.zero_le _, validateToken_accepts_empty_joiner_token hc (Nat.zero_le _)⟩

end SfoConnectivity.Rendezvous
