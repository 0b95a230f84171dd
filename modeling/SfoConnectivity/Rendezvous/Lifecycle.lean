import Mathlib.Data.List.OfFn
import SfoConnectivity.Rendezvous.Store

/-! # The life of a session record

The code index under `Create`, the one join token of a record, and what the janitor's
pass changes for the calls that look records up.
-/

namespace SfoConnectivity.Rendezvous

variable {s : Store} {now : Nat}

/-! ## The code index -/

/-- The id and the code that a `Create` draws are not in the store yet. `Create` does not
check this. -/
def Op.Fresh (s : Store) : Op → Prop
  | .create i c _ => (∀ id, generateID 16 i = .ok id → id ∉ s.sessions) ∧
      (∀ code, generateCode c = .ok code → code ∉ s.byCodes)
  | _ => True

/-- Every `Create` of the run draws fresh values. -/
def Store.FreshRun : Store → List (Nat × Op) → Prop
  | _, [] => True
  | s, (now, op) :: ops => op.Fresh s ∧ (s.step now op).2.FreshRun ops

theorem codeIndexed_setConnected {id : String} (set : Session → Session) {s' : Store}
    (h : CodeIndexed Session.code s.sessions s.byCodes) (hset : ∀ r, (set r).code = r.code)
    (hs : s.setConnected id set = .ok s') : CodeIndexed Session.code s'.sessions s'.byCodes := by
  obtain ⟨session, hl, rfl⟩ := setConnected_eq_ok hs
  exact codeIndexed_update h hl (hset session)

theorem codeIndexed_step {op : Op} (h : CodeIndexed Session.code s.sessions s.byCodes)
    (hf : op.Fresh s) :
    CodeIndexed Session.code (s.step now op).2.sessions (s.step now op).2.byCodes := by
  cases op with
  | create i c t =>
    rcases answer_cases (s := s) .created (s.create i c t now) with he | ⟨r, hr, -⟩
    · simpa only [Store.step, he] using h
    · obtain ⟨id, code, tok, hi, hc, -, rfl, he⟩ := create_eq_ok hr
      simp only [Store.step, he]
      exact codeIndexed_insert h (hf.1 id hi) (hf.2 code hc)
  | join code t =>
    rcases answer_cases (s := s) .joined (s.join code t now) with he | ⟨r, hr, -⟩
    · simpa only [Store.step, he] using h
    · obtain ⟨id, session, tok, -, hs, -, -, rfl, he⟩ := join_eq_ok hr
      simp only [Store.step, he]
      exact codeIndexed_update h (liveSession_eq_some.mp hs).1 rfl
  | setHostConnected id b =>
    rcases answerSet_cases (s := s) (s.setHostConnected id b) with he | he
    · simpa only [Store.step, he] using h
    · exact codeIndexed_setConnected (fun r => { r with hostConnected := b }) h
        (fun _ => rfl) he
  | setJoinConnected id b =>
    rcases answerSet_cases (s := s) (s.setJoinConnected id b) with he | he
    · simpa only [Store.step, he] using h
    · exact codeIndexed_setConnected (fun r => { r with joinConnected := b }) h
        (fun _ => rfl) he
  | delete id =>
    simp only [Store.step, Store.delete]
    split
    · exact codeIndexed_erase h ‹_›
    · exact h
  | cleanup => exact codeIndexed_sweep _ (s.sessions, s.byCodes) h
  | getByID _ | getByCode _ | validateToken _ _ _ => exact h

/-- Two `Create` calls that draw the same code: the first record stays live, but its code
leads to the second. -/
def collidingCreates : List (Nat × Op) :=
  [(0, .create (.ok fun _ => 0) (.ok fun _ => 0) (.ok fun _ => 0)),
   (1, .create (.ok fun _ => 1) (.ok fun _ => 0) (.ok fun _ => 1))]

theorem codeIndexed_run {ops : List (Nat × Op)}
    (h : CodeIndexed Session.code s.sessions s.byCodes) (hf : s.FreshRun ops) :
    CodeIndexed Session.code (s.run ops).2.sessions (s.run ops).2.byCodes := by
  induction ops generalizing s with
  | nil => exact h
  | cons p ops ih =>
    obtain ⟨now, op⟩ := p
    exact ih (codeIndexed_step h hf.1) hf.2

theorem create_collision_hides_session :
    (∃ r, ((newStore 900).run collidingCreates).2.getByID (hexString (List.replicate 16 0)) 2 =
        some r ∧ ((newStore 900).run collidingCreates).2.getByCode r.code 2 ≠ some r) ∧
      ¬ CodeIndexed Session.code ((newStore 900).run collidingCreates).2.sessions
        ((newStore 900).run collidingCreates).2.byCodes := by
  refine ⟨⟨_, rfl, by decide⟩, fun h => ?_⟩
  have := (h "AAAA-AAAA-AAAA" (hexString (List.replicate 16 0))).mpr ⟨_, rfl, rfl⟩
  exact absurd this (by decide)

/-! ## One joiner per record -/

/-- The pointer of the record that a successful `Join` returned. -/
def Reply.joinedRef : Reply → Option Nat
  | .joined (.ok r) => some r.ref
  | _ => none

theorem generateID_ne_empty {n : Nat} {read : Except String (Fin (n + 1) → UInt8)} {t : String}
    (h : generateID (n + 1) read = .ok t) : t ≠ "" := by
  cases read with
  | error e => cases h
  | ok b =>
    cases h
    intro he
    have hd : (List.ofFn b).flatMap (fun x => [hexDigit (x.toNat / 16), hexDigit (x.toNat % 16)])
        = [] := congrArg String.data he
    obtain ⟨x, hx⟩ := List.exists_mem_of_ne_nil (List.ofFn b) (List.ne_nil_of_length_pos (by simp))
    exact absurd (List.flatMap_eq_nil_iff.mp hd x hx) (by simp)

theorem delete_lookup {id x : String} {r : Session} (h : (s.delete id).sessions.lookup x = some r) :
    s.sessions.lookup x = some r := by
  unfold Store.delete at h
  split at h
  · by_cases hx : x = id
    · subst hx
      simp [AList.lookup_erase] at h
    · rwa [AList.lookup_erase_ne hx] at h
  · exact h

/-- Everything a call can do to the records: remove some, add one in `Create`, give one a
join token in `Join`, or set a flag. -/
theorem step_sessions (s : Store) (now : Nat) (op : Op) :
    ((∀ id r, (s.step now op).2.sessions.lookup id = some r → s.sessions.lookup id = some r) ∧
      (s.step now op).2.nextRef = s.nextRef ∧ (s.step now op).1.joinedRef = none) ∨
    (∃ i c t r, s.create i c t now = .ok (r, (s.step now op).2) ∧
      (s.step now op).1 = .created (.ok r)) ∨
    (∃ code t r, op = .join code t ∧ s.join code t now = .ok (r, (s.step now op).2) ∧
      (s.step now op).1 = .joined (.ok r)) ∨
    (∃ id set, (∀ r : Session, (set r).id = r.id ∧ (set r).hostToken = r.hostToken ∧
        (set r).joinToken = r.joinToken ∧ (set r).ref = r.ref) ∧
      s.setConnected id set = .ok (s.step now op).2 ∧ (s.step now op).1.joinedRef = none) := by
  cases op with
  | create i c t =>
    rcases hc : s.create i c t now with e | ⟨r, s'⟩
    · exact .inl ⟨by simp [Store.step, hc, Store.answer], by simp [Store.step, hc, Store.answer],
        by simp [Store.step, hc, Store.answer, Reply.joinedRef]⟩
    · exact .inr (.inl ⟨i, c, t, r, by simp [Store.step, hc, Store.answer],
        by simp [Store.step, hc, Store.answer]⟩)
  | join code t =>
    rcases hj : s.join code t now with e | ⟨r, s'⟩
    · exact .inl ⟨by simp [Store.step, hj, Store.answer], by simp [Store.step, hj, Store.answer],
        by simp [Store.step, hj, Store.answer, Reply.joinedRef]⟩
    · exact .inr (.inr (.inl ⟨code, t, r, rfl, by simp [Store.step, hj, Store.answer],
        by simp [Store.step, hj, Store.answer]⟩))
  | setHostConnected id b =>
    rcases hs : s.setHostConnected id b with e | s'
    · exact .inl ⟨by simp [Store.step, hs, Store.answerSet],
        by simp [Store.step, hs, Store.answerSet], by simp [Store.step, hs, Store.answerSet,
          Reply.joinedRef]⟩
    · exact .inr (.inr (.inr ⟨id, fun r => { r with hostConnected := b },
        fun _ => ⟨rfl, rfl, rfl, rfl⟩, by simpa [Store.step, hs, Store.answerSet],
        by simp [Store.step, hs, Store.answerSet, Reply.joinedRef]⟩))
  | setJoinConnected id b =>
    rcases hs : s.setJoinConnected id b with e | s'
    · exact .inl ⟨by simp [Store.step, hs, Store.answerSet],
        by simp [Store.step, hs, Store.answerSet], by simp [Store.step, hs, Store.answerSet,
          Reply.joinedRef]⟩
    · exact .inr (.inr (.inr ⟨id, fun r => { r with joinConnected := b },
        fun _ => ⟨rfl, rfl, rfl, rfl⟩, by simpa [Store.step, hs, Store.answerSet],
        by simp [Store.step, hs, Store.answerSet, Reply.joinedRef]⟩))
  | delete id =>
    refine .inl ⟨fun x r h => delete_lookup h, ?_, rfl⟩
    simp only [Store.step, Store.delete]
    split <;> rfl
  | cleanup => exact .inl ⟨fun _ _ h => (cleanup_lookup.mp h).1, rfl, rfl⟩
  | getByID _ | getByCode _ | validateToken _ _ _ => exact .inl ⟨fun _ _ h => h, rfl, rfl⟩

/-- The pointers of the store: below `nextRef`, one id each, and a record whose pointer a
successful `Join` returned keeps a join token. -/
structure JoinInv (s : Store) (joined : List Nat) : Prop where
  joined_lt : ∀ k ∈ joined, k < s.nextRef
  ref_lt : ∀ id r, s.sessions.lookup id = some r → r.ref < s.nextRef
  ref_inj : ∀ id id' r r', s.sessions.lookup id = some r → s.sessions.lookup id' = some r' →
    r.ref = r'.ref → id = id'
  minted : ∀ id r, s.sessions.lookup id = some r → r.ref ∈ joined → r.joinToken ≠ ""

theorem joinInv_new (ttl : Nat) : JoinInv (newStore ttl) [] where
  joined_lt := by simp
  ref_lt := by simp [newStore, AList.lookup_empty]
  ref_inj := by simp [newStore, AList.lookup_empty]
  minted := by simp

variable {joined : List Nat}

theorem JoinInv.eq_of_ref (h : JoinInv s joined) {id id' : String} {r r' : Session}
    (hr : s.sessions.lookup id = some r) (hr' : s.sessions.lookup id' = some r')
    (he : r'.ref = r.ref) : r' = r := by
  obtain rfl := h.ref_inj id' id r' r hr' hr he
  exact Option.some.inj (hr'.symm.trans hr)

theorem JoinInv.of_lookup {s' : Store} (h : JoinInv s joined) (hn : s'.nextRef = s.nextRef)
    (hl : ∀ id r, s'.sessions.lookup id = some r → s.sessions.lookup id = some r) :
    JoinInv s' joined where
  joined_lt k hk := hn ▸ h.joined_lt k hk
  ref_lt id r hr := hn ▸ h.ref_lt id r (hl id r hr)
  ref_inj id id' r r' hr hr' := h.ref_inj id id' r r' (hl _ _ hr) (hl _ _ hr')
  minted id r hr := h.minted id r (hl id r hr)

/-- Writing a record back under its id with its pointer. -/
theorem JoinInv.insert {joined' : List Nat} (h : JoinInv s joined) {id : String} {r r' : Session}
    (hr : s.sessions.lookup id = some r) (href : r'.ref = r.ref)
    (hj : ∀ k ∈ joined', k ∈ joined ∨ k = r.ref) (ht : r.ref ∈ joined' → r'.joinToken ≠ "") :
    JoinInv { s with sessions := s.sessions.insert id r' } joined' := by
  -- every record of the new store has the pointer of a record of the old one
  have old : ∀ x q, (s.sessions.insert id r').lookup x = some q →
      ∃ q₀, s.sessions.lookup x = some q₀ ∧ q.ref = q₀.ref ∧ (x ≠ id → q = q₀) := by
    intro x q hq
    rcases lookup_insert_cases hq with ⟨rfl, rfl⟩ | ⟨hx, hq⟩
    · exact ⟨r, hr, href, fun h => absurd rfl h⟩
    · exact ⟨q, hq, rfl, fun _ => rfl⟩
  refine ⟨fun k hk => (hj k hk).elim (h.joined_lt k) (fun e => e ▸ h.ref_lt id r hr),
    fun x q hq => ?_, fun x y q q' hq hq' he => ?_, fun x q hq hk => ?_⟩
  · obtain ⟨q₀, hq₀, e, -⟩ := old x q hq
    exact e ▸ h.ref_lt x q₀ hq₀
  · obtain ⟨q₀, hq₀, e, -⟩ := old x q hq
    obtain ⟨q₁, hq₁, e₁, -⟩ := old y q' hq'
    exact h.ref_inj x y q₀ q₁ hq₀ hq₁ (e ▸ e₁ ▸ he)
  · rcases lookup_insert_cases hq with ⟨rfl, rfl⟩ | ⟨hx, hq⟩
    · exact ht (href ▸ hk)
    · rcases hj _ hk with hk | hk
      · exact h.minted x q hq hk
      · exact absurd (h.ref_inj x id q r hq hr hk) hx

theorem JoinInv.create {i c t} {r : Session} {s' : Store} (h : JoinInv s joined)
    (hc : s.create i c t now = .ok (r, s')) : JoinInv s' joined := by
  obtain ⟨id, code, tok, -, -, -, rfl, rfl⟩ := create_eq_ok hc
  have lt := fun k hk => Nat.lt_succ_of_lt (h.joined_lt k hk)
  refine ⟨lt, fun x q hq => ?_, fun x y q q' hq hq' he => ?_, fun x q hq hk => ?_⟩
  · rcases lookup_insert_cases hq with ⟨rfl, rfl⟩ | ⟨-, hq⟩
    · exact Nat.lt_succ_self _
    · exact Nat.lt_succ_of_lt (h.ref_lt x q hq)
  · rcases lookup_insert_cases hq with ⟨rfl, rfl⟩ | ⟨-, hq₀⟩ <;>
      rcases lookup_insert_cases hq' with ⟨rfl, rfl⟩ | ⟨-, hq₁⟩
    · rfl
    · exact absurd he (Nat.ne_of_gt (h.ref_lt y q' hq₁))
    · exact absurd he (Nat.ne_of_lt (h.ref_lt x q hq₀))
    · exact h.ref_inj x y q q' hq₀ hq₁ he
  · rcases lookup_insert_cases hq with ⟨rfl, rfl⟩ | ⟨-, hq⟩
    · exact absurd (h.joined_lt _ hk) (Nat.lt_irrefl _)
    · exact h.minted x q hq hk

theorem JoinInv.join {code t} {r : Session} {s' : Store} (h : JoinInv s joined)
    (hj : s.join code t now = .ok (r, s')) : r.ref ∉ joined ∧ JoinInv s' (joined ++ [r.ref]) := by
  obtain ⟨id, session, tok, -, hs, hempty, ht, rfl, rfl⟩ := join_eq_ok hj
  have hl := (liveSession_eq_some.mp hs).1
  refine ⟨fun hk => h.minted id session hl hk hempty, h.insert hl rfl ?_ ?_⟩
  · simp only [List.mem_append, List.mem_singleton]
    exact fun k hk => hk
  · exact fun _ => generateID_ne_empty ht

theorem JoinInv.setConnected {id : String} {set : Session → Session} {s' : Store}
    (h : JoinInv s joined) (hset : ∀ r, (set r).joinToken = r.joinToken ∧ (set r).ref = r.ref)
    (hs : s.setConnected id set = .ok s') : JoinInv s' joined := by
  obtain ⟨session, hl, rfl⟩ := setConnected_eq_ok hs
  exact h.insert hl (hset session).2 (fun k hk => .inl hk)
    (fun hk => (hset session).1 ▸ h.minted id session hl hk)

theorem JoinInv.step (h : JoinInv s joined) (now : Nat) (op : Op) :
    (∀ k, (s.step now op).1.joinedRef = some k → k ∉ joined) ∧
      JoinInv (s.step now op).2 (joined ++ ((s.step now op).1.joinedRef).toList) := by
  rcases step_sessions s now op with
    ⟨hl, hn, hj⟩ | ⟨i, c, t, r, hc, hj⟩ | ⟨code, t, r, -, hjn, hj⟩ | ⟨id, set, hset, hs, hj⟩
  · simpa [hj] using h.of_lookup hn hl
  · simpa [hj, Reply.joinedRef] using h.create hc
  · simpa [hj, Reply.joinedRef] using h.join hjn
  · simpa [hj] using h.setConnected (fun r => ⟨(hset r).2.2.1, (hset r).2.2.2⟩) hs

theorem filterMap_joinedRef_cons (r : Reply) (rs : List Reply) :
    (r :: rs).filterMap Reply.joinedRef = r.joinedRef.toList ++ rs.filterMap Reply.joinedRef := by
  cases h : r.joinedRef <;> simp [List.filterMap_cons, h]

theorem JoinInv.run (h : JoinInv s joined) (hn : joined.Nodup) (ops : List (Nat × Op)) :
    JoinInv (s.run ops).2 (joined ++ (s.run ops).1.filterMap Reply.joinedRef) ∧
      (joined ++ (s.run ops).1.filterMap Reply.joinedRef).Nodup := by
  induction ops generalizing s joined with
  | nil => simpa [Store.run] using ⟨h, hn⟩
  | cons p ops ih =>
    obtain ⟨now, op⟩ := p
    obtain ⟨hfresh, h'⟩ := h.step now op
    have hn' : (joined ++ ((s.step now op).1.joinedRef).toList).Nodup := by
      cases hk : (s.step now op).1.joinedRef with
      | none => simpa using hn
      | some k => simpa [List.nodup_append, hk] using ⟨hn, hfresh k hk⟩
    simpa [Store.run, filterMap_joinedRef_cons] using ih h' hn'

/-- What one call does to a record that stays (the same pointer): its id and host token
never change, and its join token changes only from empty to a freshly drawn one, in a
`Join` that returns the record. -/
theorem JoinInv.record_step (h : JoinInv s joined) {op : Op} {id id' : String} {r r' : Session}
    (hr : s.sessions.lookup id = some r) (hr' : (s.step now op).2.sessions.lookup id' = some r')
    (href : r'.ref = r.ref) :
    r'.id = r.id ∧ r'.hostToken = r.hostToken ∧ (r'.joinToken = r.joinToken ∨
      r.joinToken = "" ∧ r'.joinToken ≠ "" ∧ ∃ code t, op = .join code t ∧
        generateID 32 t = .ok r'.joinToken ∧ (s.step now op).1 = .joined (.ok r')) := by
  rcases step_sessions s now op with
    ⟨hl, -, -⟩ | ⟨i, c, t, q, hc, -⟩ | ⟨code, t, q, rfl, hj, hrep⟩ | ⟨x, set, hset, hs, -⟩
  · obtain rfl := h.eq_of_ref hr (hl _ _ hr') href
    exact ⟨rfl, rfl, .inl rfl⟩
  · obtain ⟨x, code, tok, -, -, -, rfl, he⟩ := create_eq_ok hc
    rw [he] at hr'
    rcases lookup_insert_cases hr' with ⟨-, rfl⟩ | ⟨-, hq⟩
    · exact absurd href (Nat.ne_of_gt (h.ref_lt id r hr))
    · obtain rfl := h.eq_of_ref hr hq href
      exact ⟨rfl, rfl, .inl rfl⟩
  · obtain ⟨x, session, tok, -, hs, hempty, ht, rfl, he⟩ := join_eq_ok hj
    rw [he] at hr'
    rcases lookup_insert_cases hr' with ⟨-, rfl⟩ | ⟨-, hq⟩
    · obtain rfl := h.eq_of_ref hr (liveSession_eq_some.mp hs).1 href
      exact ⟨rfl, rfl, .inr ⟨hempty, generateID_ne_empty ht, code, t, rfl, ht, hrep⟩⟩
    · obtain rfl := h.eq_of_ref hr hq href
      exact ⟨rfl, rfl, .inl rfl⟩
  · obtain ⟨session, hl, he⟩ := setConnected_eq_ok hs
    rw [he] at hr'
    rcases lookup_insert_cases hr' with ⟨-, rfl⟩ | ⟨-, hq⟩
    · obtain rfl := h.eq_of_ref hr hl ((hset session).2.2.2.symm.trans href)
      exact ⟨(hset _).1, (hset _).2.1, .inl (hset _).2.2.1⟩
    · obtain rfl := h.eq_of_ref hr hq href
      exact ⟨rfl, rfl, .inl rfl⟩

theorem join_succeeds_once_per_record (ttl : Nat) (ops : List (Nat × Op)) :
    (((newStore ttl).run ops).1.filterMap Reply.joinedRef).Nodup ∧
    ∀ now op id id' r r', ((newStore ttl).run ops).2.sessions.lookup id = some r →
      (((newStore ttl).run ops).2.step now op).2.sessions.lookup id' = some r' →
      r'.ref = r.ref → r'.id = r.id ∧ r'.hostToken = r.hostToken ∧
        (r'.joinToken = r.joinToken ∨ r.joinToken = "" ∧ r'.joinToken ≠ "" ∧
          ∃ code t, op = .join code t ∧ generateID 32 t = .ok r'.joinToken ∧
            (((newStore ttl).run ops).2.step now op).1 = .joined (.ok r')) := by
  obtain ⟨h, hn⟩ := (joinInv_new ttl).run List.nodup_nil ops
  exact ⟨by simpa using hn, fun _ _ _ _ _ _ hr hr' he => h.record_step hr hr' he⟩

/-! ## The janitor -/

theorem liveSession_cleanup (id : String) :
    (s.cleanup now).liveSession id now = s.liveSession id now := by
  refine Option.ext fun r => ?_
  simp only [Option.mem_def, liveSession_eq_some, cleanup_lookup, and_assoc, and_self]

theorem validateToken_cleanup (sessionID token role : String) :
    (s.cleanup now).validateToken sessionID token role now =
      s.validateToken sessionID token role now := by
  simp only [Store.validateToken, liveSession_cleanup]

/-- On an indexed store, a code that the janitor keeps leads where it led, and a code that it
drops led to an expired record. -/
theorem lookup_code_cleanup (h : CodeIndexed Session.code s.sessions s.byCodes) (now : Nat)
    (code : String) :
    (s.cleanup now).byCodes.lookup code = s.byCodes.lookup code ∨
      (s.cleanup now).byCodes.lookup code = none ∧
        ∀ id, s.byCodes.lookup code = some id → s.liveSession id now = none := by
  cases hc : s.byCodes.lookup code with
  | none =>
    refine .inl (Option.eq_none_iff_forall_not_mem.mpr fun x hx => ?_)
    simp [(cleanup_lookup_codes.mp hx).1] at hc
  | some id =>
    obtain ⟨r, hr, rfl⟩ := (h _ _).mp hc
    by_cases hs : now > r.expiresAt
    · refine .inr ⟨Option.eq_none_iff_forall_not_mem.mpr fun x hx => ?_, fun id' he => ?_⟩
      · exact (cleanup_lookup_codes.mp hx).2 id r hr rfl hs
      · cases Option.some.inj he
        simp [Store.liveSession, hr, hs]
    · refine .inl (cleanup_lookup_codes.mpr ⟨hc, fun id' r' hr' hc' => ?_⟩)
      obtain rfl : id' = id := Option.some.inj (((h _ _).mpr ⟨r', hr', hc'⟩).symm.trans hc)
      obtain rfl : r' = r := Option.some.inj (hr'.symm.trans hr)
      exact hs

theorem getByCode_cleanup (h : CodeIndexed Session.code s.sessions s.byCodes) (code : String) :
    (s.cleanup now).getByCode code now = s.getByCode code now := by
  rcases lookup_code_cleanup h now code with he | ⟨he, hdead⟩
  · simp only [Store.getByCode, he, liveSession_cleanup]
  · cases hc : s.byCodes.lookup code with
    | none => simp [Store.getByCode, he, hc]
    | some id => simp [Store.getByCode, he, hc, hdead id hc]

/-- `Join` returns the same record, or fails, whether or not the janitor ran first. -/
theorem join_cleanup (h : CodeIndexed Session.code s.sessions s.byCodes) (code : String)
    (t : Except String (Fin 32 → UInt8)) :
    ((s.cleanup now).join code t now).toOption.map Prod.fst =
      (s.join code t now).toOption.map Prod.fst := by
  rcases lookup_code_cleanup h now code with he | ⟨he, hdead⟩
  · cases hc : s.byCodes.lookup code with
    | none => simp [Store.join, he, hc]
    | some id =>
      cases hl : s.liveSession id now with
      | none => simp [Store.join, he, hc, hl, liveSession_cleanup]
      | some session =>
        simp only [Store.join, he, hc, hl, liveSession_cleanup]
        split_ifs
        · rfl
        · cases generateID 32 t <;> rfl
  · cases hc : s.byCodes.lookup code with
    | none => simp [Store.join, he, hc]
    | some id => simp [Store.join, he, hc, hdead id hc, Except.toOption]

/-- On a store whose code index is exact, as every store a run with fresh draws reaches, the
janitor's pass at an instant changes no answer that `GetByID`, `GetByCode` and `ValidateToken`
give at that instant, and `Join` returns the same record, or fails, with or without it. -/
theorem janitor_invisible_to_lookups (h : CodeIndexed Session.code s.sessions s.byCodes)
    (now : Nat) :
    (∀ id, (s.cleanup now).getByID id now = s.getByID id now) ∧
      (∀ code, (s.cleanup now).getByCode code now = s.getByCode code now) ∧
      (∀ sessionID token role, (s.cleanup now).validateToken sessionID token role now =
        s.validateToken sessionID token role now) ∧
      ∀ code t, ((s.cleanup now).join code t now).toOption.map Prod.fst =
        (s.join code t now).toOption.map Prod.fst :=
  ⟨liveSession_cleanup, getByCode_cleanup h, validateToken_cleanup, join_cleanup h⟩

/-- Two records with distinct draws, created at 0 and 500 with a time to live of 900, then
swept at 1000, when only the first has expired. -/
def sweptOps : List (Nat × Op) :=
  [(0, .create (.ok fun _ => 0) (.ok fun _ => 0) (.ok fun _ => 0)),
   (500, .create (.ok fun _ => 1) (.ok fun _ => 1) (.ok fun _ => 1))]

theorem janitor_invisible_after_two_creates :
    CodeIndexed Session.code ((newStore 900).run sweptOps).2.sessions
        ((newStore 900).run sweptOps).2.byCodes ∧
      (∀ id, (((newStore 900).run sweptOps).2.cleanup 1000).getByID id 1000 =
        ((newStore 900).run sweptOps).2.getByID id 1000) ∧
      (∀ code, (((newStore 900).run sweptOps).2.cleanup 1000).getByCode code 1000 =
        ((newStore 900).run sweptOps).2.getByCode code 1000) ∧
      (∀ sessionID token role,
        (((newStore 900).run sweptOps).2.cleanup 1000).validateToken sessionID token role 1000 =
          ((newStore 900).run sweptOps).2.validateToken sessionID token role 1000) ∧
      ∀ code t, ((((newStore 900).run sweptOps).2.cleanup 1000).join code t 1000).toOption.map
          Prod.fst = (((newStore 900).run sweptOps).2.join code t 1000).toOption.map Prod.fst :=
  have h : CodeIndexed Session.code ((newStore 900).run sweptOps).2.sessions
      ((newStore 900).run sweptOps).2.byCodes :=
    codeIndexed_run codeIndexed_empty
      ⟨⟨fun _ _ => AList.not_mem_empty _, fun _ _ => AList.not_mem_empty _⟩,
        ⟨fun x hx => by cases hx; decide, fun x hx => by cases hx; decide⟩, trivial⟩
  ⟨h, janitor_invisible_to_lookups h 1000⟩

/-- Every drawn byte 0: one record, created at 0 with a time to live of 10. -/
def expiringStore : Store :=
  ((newStore 10).run [(0, .create (.ok fun _ => 0) (.ok fun _ => 0) (.ok fun _ => 0))]).2

/-- The id of the record of `expiringStore`. -/
def expiringID : String := hexString (List.replicate 16 0)

theorem set_connected_sees_expired_record :
    expiringStore.getByID expiringID 11 = none ∧
      (expiringStore.setHostConnected expiringID true).toBool = true ∧
      ((expiringStore.cleanup 11).setHostConnected expiringID true).toBool = false ∧
      (expiringStore.setJoinConnected expiringID true).toBool = true ∧
      ((expiringStore.cleanup 11).setJoinConnected expiringID true).toBool = false := by
  decide

end SfoConnectivity.Rendezvous
