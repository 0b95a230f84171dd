import Mathlib.Algebra.Group.Nat.Basic
import SfoConnectivity.CodeIndex

/-! # The session store (`server/internal/session/store.go`)

A Go map is an `AList`. `Create` allocates `&Session{...}` and every later write goes
through the store under its mutex, so the record behind a pointer is the value in
`sessions`. `ref` stands for the pointer: two records with equal fields stay apart.
Instants are nanoseconds. What `rand.Read` puts in a buffer, or its error, is an input.
-/

namespace SfoConnectivity.Rendezvous

/-! ## Identifiers and join codes -/

def hexDigit (n : Nat) : Char := if n < 10 then Char.ofNat (48 + n) else Char.ofNat (87 + n)

/-- `fmt.Sprintf("%x", b)`. -/
def hexString (b : List UInt8) : String :=
  ⟨b.flatMap fun x => [hexDigit (x.toNat / 16), hexDigit (x.toNat % 16)]⟩

def generateID (length : Nat) (read : Except String (Fin length → UInt8)) :
    Except String String :=
  read.map fun b => hexString (List.ofFn b)

/-- The alphabet of `base32.StdEncoding`. -/
def base32Char (n : Nat) : Char := if n < 26 then Char.ofNat (65 + n) else Char.ofNat (24 + n)

/-- One block of at most five bytes, five bits to a character, without padding. -/
def base32Block (b : List UInt8) : List Char :=
  let v := (b ++ List.replicate (5 - b.length) 0).foldl (fun acc (x : UInt8) => acc * 256 + x.toNat) 0
  (List.range ((8 * b.length + 4) / 5)).map fun i => base32Char (v / 2 ^ (35 - 5 * i) % 32)

/-- `base32.StdEncoding.WithPadding(base32.NoPadding).EncodeToString`. -/
def base32Encode : List UInt8 → List Char
  | a :: b :: c :: d :: e :: rest => base32Block [a, b, c, d, e] ++ base32Encode rest
  | b => base32Block b

/-- The first twelve characters of the encoding, upper-cased, as `XXXX-XXXX-XXXX`. -/
def generateCode (read : Except String (Fin 8 → UInt8)) : Except String String :=
  read.map fun b =>
    let e := ((base32Encode (List.ofFn b)).take 12).map Char.toUpper
    ⟨e.take 4 ++ '-' :: (e.drop 4).take 4 ++ '-' :: (e.drop 8).take 4⟩

/-! ## Records and the store -/

structure Session where
  id : String
  code : String
  hostToken : String
  joinToken : String
  hostConnected : Bool
  joinConnected : Bool
  createdAt : Nat
  expiresAt : Nat
  ref : Nat
  deriving DecidableEq, Repr

structure Store where
  sessions : AList (fun _ : String => Session)
  byCodes : AList (fun _ : String => String)
  ttl : Nat
  /-- The pointer that the next `&Session{...}` gets. -/
  nextRef : Nat
  deriving DecidableEq

def newStore (ttl : Nat) : Store := { sessions := ∅, byCodes := ∅, ttl := ttl, nextRef := 0 }

def Store.create (s : Store) (idRead : Except String (Fin 16 → UInt8))
    (codeRead : Except String (Fin 8 → UInt8)) (tokenRead : Except String (Fin 32 → UInt8))
    (now : Nat) : Except String (Session × Store) :=
  match generateID 16 idRead, generateCode codeRead, generateID 32 tokenRead with
  | .error e, _, _ => .error ("failed to generate session ID: " ++ e)
  | .ok _, .error e, _ => .error ("failed to generate join code: " ++ e)
  | .ok _, .ok _, .error e => .error ("failed to generate host token: " ++ e)
  | .ok id, .ok code, .ok hostToken =>
    let session : Session :=
      { id := id, code := code, hostToken := hostToken, joinToken := "",
        hostConnected := false, joinConnected := false, createdAt := now,
        expiresAt := now + s.ttl, ref := s.nextRef }
    .ok (session,
      { s with sessions := s.sessions.insert id session, byCodes := s.byCodes.insert code id,
               nextRef := s.nextRef + 1 })

/-- `session, ok := s.sessions[id]` and `!ok || time.Now().After(session.ExpiresAt)`, the
lookup of `GetByID`, `GetByCode`, `Join` and `ValidateToken`. -/
def Store.liveSession (s : Store) (id : String) (now : Nat) : Option Session :=
  match s.sessions.lookup id with
  | some session => if now > session.expiresAt then none else some session
  | none => none

def Store.getByID (s : Store) (id : String) (now : Nat) : Option Session := s.liveSession id now

def Store.getByCode (s : Store) (code : String) (now : Nat) : Option Session :=
  match s.byCodes.lookup code with
  | some id => s.liveSession id now
  | none => none

def Store.join (s : Store) (code : String) (tokenRead : Except String (Fin 32 → UInt8))
    (now : Nat) : Except String (Session × Store) :=
  match s.byCodes.lookup code with
  | none => .error "session not found"
  | some id =>
    match s.liveSession id now with
    | none => .error "session expired"
    | some session =>
      if session.joinToken ≠ "" then .error "session already has a joiner"
      else match generateID 32 tokenRead with
        | .error e => .error ("failed to generate join token: " ++ e)
        | .ok joinToken =>
          let session := { session with joinToken := joinToken }
          .ok (session, { s with sessions := s.sessions.insert id session })

/-- The body of `SetHostConnected` and `SetJoinConnected`: `set` writes the flag. -/
def Store.setConnected (s : Store) (id : String) (set : Session → Session) :
    Except String Store :=
  match s.sessions.lookup id with
  | none => .error "session not found"
  | some session => .ok { s with sessions := s.sessions.insert id (set session) }

def Store.setHostConnected (s : Store) (id : String) (connected : Bool) : Except String Store :=
  s.setConnected id fun session => { session with hostConnected := connected }

def Store.setJoinConnected (s : Store) (id : String) (connected : Bool) : Except String Store :=
  s.setConnected id fun session => { session with joinConnected := connected }

def Store.delete (s : Store) (id : String) : Store :=
  match s.sessions.lookup id with
  | some session => { s with byCodes := s.byCodes.erase session.code, sessions := s.sessions.erase id }
  | none => s

def Store.validateToken (s : Store) (sessionID token role : String) (now : Nat) : Bool :=
  match s.liveSession sessionID now with
  | none => false
  | some session =>
    if role = "host" then session.hostToken == token
    else if role = "joiner" then session.joinToken == token
    else false

def Store.cleanup (s : Store) (now : Nat) : Store :=
  let m := sweep Session.code (fun session => now > session.expiresAt) (s.sessions, s.byCodes)
  { s with sessions := m.1, byCodes := m.2 }

/-! ## Runs -/

inductive Op where
  | create (idRead : Except String (Fin 16 → UInt8)) (codeRead : Except String (Fin 8 → UInt8))
      (tokenRead : Except String (Fin 32 → UInt8))
  | getByID (id : String)
  | getByCode (code : String)
  | join (code : String) (tokenRead : Except String (Fin 32 → UInt8))
  | setHostConnected (id : String) (connected : Bool)
  | setJoinConnected (id : String) (connected : Bool)
  | delete (id : String)
  | validateToken (sessionID token role : String)
  | cleanup

inductive Reply where
  | created (r : Except String Session)
  | joined (r : Except String Session)
  | found (r : Option Session)
  | status (r : Except String Unit)
  | valid (b : Bool)
  | done

/-- The reply of `Create` or `Join`; the store is kept when the call fails. -/
def Store.answer (s : Store) (reply : Except String Session → Reply) :
    Except String (Session × Store) → Reply × Store
  | .ok (r, s') => (reply (.ok r), s')
  | .error e => (reply (.error e), s)

/-- The reply of `SetHostConnected` or `SetJoinConnected`. -/
def Store.answerSet (s : Store) : Except String Store → Reply × Store
  | .ok s' => (.status (.ok ()), s')
  | .error e => (.status (.error e), s)

/-- One call, atomic under the store's mutex, at the instant `now`. -/
def Store.step (s : Store) (now : Nat) : Op → Reply × Store
  | .create i c t => s.answer .created (s.create i c t now)
  | .getByID id => (.found (s.getByID id now), s)
  | .getByCode code => (.found (s.getByCode code now), s)
  | .join code t => s.answer .joined (s.join code t now)
  | .setHostConnected id b => s.answerSet (s.setHostConnected id b)
  | .setJoinConnected id b => s.answerSet (s.setJoinConnected id b)
  | .delete id => (.done, s.delete id)
  | .validateToken sid token role => (.valid (s.validateToken sid token role now), s)
  | .cleanup => (.done, s.cleanup now)

/-- Calls in order, each with the instant it runs at. -/
def Store.run (s : Store) : List (Nat × Op) → List Reply × Store
  | [] => ([], s)
  | (now, op) :: ops =>
    let r := s.step now op
    let rest := r.2.run ops
    (r.1 :: rest.1, rest.2)

/-! ## What each call does -/

variable {s s' : Store} {now : Nat}

@[simp] theorem liveSession_eq_some {id : String} {r : Session} :
    s.liveSession id now = some r ↔ s.sessions.lookup id = some r ∧ ¬ now > r.expiresAt := by
  unfold Store.liveSession
  cases s.sessions.lookup id with
  | none => simp
  | some session =>
    by_cases he : now > session.expiresAt
    · simp only [he, if_true, reduceCtorEq, Option.some.injEq, false_iff, not_and]
      rintro rfl
      exact not_not.mpr he
    · simp only [he, if_false, Option.some.injEq]
      exact ⟨fun h => ⟨h, h ▸ he⟩, And.left⟩

theorem create_eq_ok {i c t} {r : Session} (h : s.create i c t now = .ok (r, s')) :
    ∃ id code hostToken, generateID 16 i = .ok id ∧ generateCode c = .ok code ∧
      generateID 32 t = .ok hostToken ∧
      r = { id := id, code := code, hostToken := hostToken, joinToken := "",
            hostConnected := false, joinConnected := false, createdAt := now,
            expiresAt := now + s.ttl, ref := s.nextRef } ∧
      s' = { s with sessions := s.sessions.insert id r, byCodes := s.byCodes.insert code id,
                    nextRef := s.nextRef + 1 } := by
  unfold Store.create at h
  split at h
  · cases h
  · cases h
  · cases h
  · rename_i id code hostToken h1 h2 h3
    cases h
    exact ⟨id, code, hostToken, h1, h2, h3, rfl, rfl⟩

theorem join_eq_ok {code t} {r : Session} (h : s.join code t now = .ok (r, s')) :
    ∃ id session joinToken, s.byCodes.lookup code = some id ∧
      s.liveSession id now = some session ∧ session.joinToken = "" ∧
      generateID 32 t = .ok joinToken ∧ r = { session with joinToken := joinToken } ∧
      s' = { s with sessions := s.sessions.insert id r } := by
  unfold Store.join at h
  split at h
  · cases h
  · rename_i id hid
    split at h
    · cases h
    · rename_i session hs
      split at h
      · cases h
      · rename_i hj
        split at h
        · cases h
        · rename_i joinToken ht
          cases h
          exact ⟨id, session, joinToken, hid, hs, not_not.mp hj, ht, rfl, rfl⟩

theorem setConnected_eq_ok {id set} (h : s.setConnected id set = .ok s') :
    ∃ session, s.sessions.lookup id = some session ∧
      s' = { s with sessions := s.sessions.insert id (set session) } := by
  unfold Store.setConnected at h
  split at h
  · cases h
  · cases h
    exact ⟨_, ‹_›, rfl⟩

theorem cleanup_lookup {id : String} {r : Session} :
    (s.cleanup now).sessions.lookup id = some r ↔
      s.sessions.lookup id = some r ∧ ¬ now > r.expiresAt := by
  simp [Store.cleanup, sweep_lookup]

theorem cleanup_lookup_codes {c x : String} :
    (s.cleanup now).byCodes.lookup c = some x ↔ s.byCodes.lookup c = some x ∧
      ∀ id r, s.sessions.lookup id = some r → r.code = c → ¬ now > r.expiresAt := by
  simp [Store.cleanup, sweep_lookup_codes]

@[simp] theorem cleanup_ttl : (s.cleanup now).ttl = s.ttl := rfl

@[simp] theorem cleanup_nextRef : (s.cleanup now).nextRef = s.nextRef := rfl

/-- A call that answers with a record either fails and keeps the store, or succeeds. -/
theorem answer_cases (reply : Except String Session → Reply) (e : Except String (Session × Store)) :
    (s.answer reply e).2 = s ∨
      ∃ r, e = .ok (r, (s.answer reply e).2) ∧ (s.answer reply e).1 = reply (.ok r) := by
  rcases e with e | ⟨r, s'⟩
  · exact .inl rfl
  · exact .inr ⟨r, rfl, rfl⟩

theorem answerSet_cases (e : Except String Store) :
    (s.answerSet e).2 = s ∨ e = .ok (s.answerSet e).2 := by
  rcases e with e | s'
  · exact .inl rfl
  · exact .inr rfl

end SfoConnectivity.Rendezvous
