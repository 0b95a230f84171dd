import SfoConnectivity.Net.HostPort
import SfoConnectivity.Rendezvous.JoinCode
import SfoConnectivity.Rendezvous.Lifecycle
import SfoConnectivity.Auth.Signer
import SfoConnectivity.Bridge.RateLimit

/-! # The rendezvous server (`src/unnamed/part_005`)

`main` serves five routes behind `withCORS`, and `net/http` runs each request in a goroutine of
its own. The goroutines share the store and the two limiters, each behind its mutex; the signer
only reads its secret. A handler is therefore a sequence of steps, one for each call it makes on
a shared object, and the steps of the goroutines interleave in any order. What a handler
computes between two such calls touches nothing shared and goes with the step before it; the two
steps that read the clock for a relay token are steps of their own.

A request is what the handlers read of it: the method, the path, three headers (`Header.Get`
gives `""` for one that is absent), the remote address, and what `json.NewDecoder(r.Body).Decode`
makes of the body for each handler's struct (`none`: it fails). What `crypto/rand` gives the
store's calls is an input of the request, as in the store. Session ids are hex text, one byte to
a character, so `ascii` and `asciiString` turn a key of the store into the bytes of a claim and
back. Instants are nanoseconds.
-/

namespace SfoConnectivity.Rendezvous

/-! ## Requests and responses -/

structure Request where
  method : String
  path : String
  /-- `r.Header.Get("Authorization")`. -/
  authorization : String
  /-- `r.Header.Get("X-Forwarded-For")`. -/
  forwardedFor : String
  /-- `r.Header.Get("X-Real-IP")`. -/
  realIP : String
  remoteAddr : String
  /-- The body decoded into the `struct { Code string }` of `handleJoin`. -/
  joinBody : Option String
  /-- The body decoded into the `struct { Role string; Connected bool }` of `handleConnect`. -/
  connectBody : Option (String × Bool)
  /-- The body decoded into the `struct { Token string }` of `handleValidate`. -/
  validateBody : Option (List UInt8)
  deriving DecidableEq

/-- What `crypto/rand` gives `Create` and `Join` while they serve the request. -/
structure Draws where
  id : Except String (Fin 16 → UInt8)
  code : Except String (Fin 8 → UInt8)
  token : Except String (Fin 32 → UInt8)

/-- A value in the objects the handlers encode: a text of the store, the bytes of a Go string
that came out of a token, a flag or a number. -/
inductive Json where
  | str (s : String)
  | bytes (b : List UInt8)
  | bool (b : Bool)
  | int (i : Int)
  deriving DecidableEq

/-- What a handler writes. -/
inductive Response where
  /-- `http.Error(w, text, status)`. -/
  | error (status : Nat) (text : String)
  /-- `w.WriteHeader(status)` and no body. -/
  | empty (status : Nat)
  /-- Status 200 and the object `json.NewEncoder(w).Encode` writes, field by field. -/
  | json (fields : List (String × Json))
  deriving DecidableEq

/-- `strings.TrimPrefix`. -/
def trimPrefix (s pre : String) : String :=
  if pre.data.isPrefixOf s.data then ⟨s.data.drop pre.data.length⟩ else s

/-- `getClientIP`: the first entry of `X-Forwarded-For`, else `X-Real-IP`, else the host of the
remote address, or the whole address when it does not split. -/
def getClientIP (r : Request) : String :=
  if r.forwardedFor ≠ "" then trimSpace ⟨r.forwardedFor.data.takeWhile (· != ',')⟩
  else if r.realIP ≠ "" then r.realIP
  else
    match Net.splitHostPort r.remoteAddr with
    | .ok (ip, _) => ip
    | .error _ => r.remoteAddr

/-! ## The routes -/

/-- The pattern of `main`'s `ServeMux` a path falls under. -/
inductive Route where
  | health
  | create
  | join
  | session
  | validate
  | notFound
  deriving DecidableEq

def route (path : String) : Route :=
  if path = "/health" then .health
  else if path = "/session/create" then .create
  else if path = "/session/join" then .join
  else if path = "/internal/validate" then .validate
  else if "/session/".data.isPrefixOf path.data then .session
  else .notFound

/-- `parts[0]` of `strings.Split(rest, "/")`. -/
def firstSegment (rest : List Char) : String := ⟨rest.takeWhile (· != '/')⟩

/-- `parts[1]` of `strings.Split(rest, "/")` when there is one, else `""`: what follows the
first `/`, up to the next. -/
def secondSegment (rest : List Char) : String :=
  ⟨((rest.dropWhile (· != '/')).drop 1).takeWhile (· != '/')⟩

/-! ## The server and its goroutines -/

/-- Where the goroutine serving a request is: the call on a shared object it makes next. -/
inductive Stage where
  /-- The request has come; the handler has not run. -/
  | start
  /-- `handleCreate` is past `AllowCreate`: `store.Create` is next. -/
  | create
  /-- `handleCreate` is past `store.Create`: `CreateRelayToken` reads the clock next. -/
  | createToken (sess : Session)
  /-- `handleJoin` is past `AllowJoin` and the decoding: `store.Join` is next. -/
  | join (code : String)
  /-- `handleJoin` is past `store.Join`: `CreateRelayToken` reads the clock next. -/
  | joinToken (sess : Session)
  /-- `handleDelete` is past `ValidateToken`: `store.Delete` is next. -/
  | delete (sessionID : String)
  deriving DecidableEq

structure Handler where
  request : Request
  draws : Draws
  stage : Stage

/-- `Server`, with the goroutines serving a request. -/
structure Server where
  store : Store
  limiter : Bridge.MultiLimiter
  mac : Auth.Mac
  secret : List UInt8
  tokenTTL : Nat
  /-- The goroutines serving a request, in the order the requests came. -/
  handlers : List Handler

/-- The server `main` builds: sessions live `sessionTTL`, and so do relay tokens;
`NewSigner(secret)` keeps the bytes of the secret. -/
def newServer (mac : Auth.Mac) (secret : List UInt8) (sessionTTL : Nat) : Server :=
  ⟨newStore sessionTTL, Bridge.newMultiLimiter, mac, secret, sessionTTL, []⟩

/-- Where a step of a handler leads. -/
inductive Outcome where
  | next (stage : Stage)
  | done (response : Response)

/-- What a step shows: the answer a limiter gives a request, or the response to a request. -/
inductive Obs where
  | allowCreate (r : Request) (ok : Bool)
  | allowJoin (r : Request) (ok : Bool)
  | respond (r : Request) (response : Response)

/-- A step of a handler: where it leads, what it shows, and the store and limiters it leaves. -/
structure Effect where
  outcome : Outcome
  obs : List Obs
  store : Store
  limiter : Bridge.MultiLimiter

/-- The step that writes `response` and touches nothing shared. -/
def Server.answer (srv : Server) (response : Response) : Effect :=
  ⟨.done response, [], srv.store, srv.limiter⟩

/-! ## The handlers -/

def handleHealth : Response := .json [("status", .str "ok")]

/-- `sess.ExpiresAt.Unix()`. -/
def Session.expiresUnix (sess : Session) : Int := (sess.expiresAt / 10 ^ 9 : Nat)

/-- `s.signer.CreateRelayToken(sess.ID, role, s.tokenTTL)` at `now`. -/
def Server.relayToken (srv : Server) (sess : Session) (role : String) (now : Nat) : List UInt8 :=
  Auth.createRelayToken srv.mac srv.secret (Auth.ascii sess.id) (Auth.ascii role) srv.tokenTTL now

/-- `handleCreate` up to `AllowCreate`. -/
def Server.handleCreate (srv : Server) (now : Nat) (r : Request) : Effect :=
  if r.method ≠ "POST" then srv.answer (.error 405 "Method not allowed")
  else
    let a := srv.limiter.create.allow (getClientIP r) now
    ⟨if a.1 then .next .create else .done (.error 429 "Rate limit exceeded"),
      [.allowCreate r a.1], srv.store, { srv.limiter with create := a.2 }⟩

/-- `handleJoin` up to `AllowJoin` and the decoding of the body. -/
def Server.handleJoin (srv : Server) (now : Nat) (r : Request) : Effect :=
  if r.method ≠ "POST" then srv.answer (.error 405 "Method not allowed")
  else
    let a := srv.limiter.join.allow (getClientIP r) now
    ⟨if a.1 then
        match r.joinBody with
        | some code => .next (.join code)
        | none => .done (.error 400 "Invalid request")
      else .done (.error 429 "Rate limit exceeded"),
      [.allowJoin r a.1], srv.store, { srv.limiter with join := a.2 }⟩

/-- `handleStatus`. -/
def Store.handleStatus (s : Store) (now : Nat) (sessionID : String) : Response :=
  match s.getByID sessionID now with
  | none => .error 404 "Session not found"
  | some sess =>
    .json [("sessionId", .str sess.id), ("hostConnected", .bool sess.hostConnected),
      ("joinConnected", .bool sess.joinConnected), ("expiresAt", .int sess.expiresUnix)]

/-- The end of `handleConnect` once the store has answered. -/
def Store.answerConnect (s : Store) : Except String Store → Response × Store
  | .ok s' => (.empty 200, s')
  | .error _ => (.error 404 "Session not found", s)

/-- `handleConnect`. It reads no credential. -/
def Store.handleConnect (s : Store) (r : Request) (sessionID : String) : Response × Store :=
  match r.connectBody with
  | none => (.error 400 "Invalid request", s)
  | some (role, connected) =>
    if role = "host" then s.answerConnect (s.setHostConnected sessionID connected)
    else if role = "joiner" then s.answerConnect (s.setJoinConnected sessionID connected)
    else (.error 400 "Invalid role", s)

/-- `handleDelete` up to `ValidateToken`. -/
def Store.handleDelete (s : Store) (now : Nat) (r : Request) (sessionID : String) : Outcome :=
  if r.authorization = "" then .done (.error 401 "Authorization required")
  else if s.validateToken sessionID (trimPrefix r.authorization "Bearer ") "host" now then
    .next (.delete sessionID)
  else .done (.error 403 "Invalid token")

/-- `handleSession`: the session id and the action out of the path, then the method. -/
def Server.handleSession (srv : Server) (now : Nat) (r : Request) : Effect :=
  let rest := (trimPrefix r.path "/session/").data
  let sessionID := firstSegment rest
  let action := secondSegment rest
  if sessionID = "" then srv.answer (.error 400 "Session ID required")
  else if r.method = "GET" ∧ action = "status" then
    srv.answer (srv.store.handleStatus now sessionID)
  else if r.method = "POST" ∧ action = "connect" then
    let c := srv.store.handleConnect r sessionID
    ⟨.done c.1, [], c.2, srv.limiter⟩
  else if r.method = "DELETE" then
    ⟨srv.store.handleDelete now r sessionID, [], srv.store, srv.limiter⟩
  else srv.answer (.error 404 "Not found")

/-- `handleValidate`. -/
def Server.handleValidate (srv : Server) (now : Nat) (r : Request) : Response :=
  if r.method ≠ "POST" then .error 405 "Method not allowed"
  else
    match r.validateBody with
    | none => .error 400 "Invalid request"
    | some token =>
      match Auth.verify srv.mac srv.secret (Auth.unix now) token with
      | .error _ => .error 401 "Invalid token"
      | .ok claims =>
        match srv.store.getByID (Auth.asciiString claims.sessionID) now with
        | none => .error 404 "Session not found"
        | some _ =>
          .json [("sessionId", .bytes claims.sessionID), ("role", .bytes claims.role),
            ("valid", .bool true)]

/-- `withCORS(mux)`: an `OPTIONS` request is answered at once, any other goes to the handler of
its route, or to `http.NotFound`. -/
def Server.serveHTTP (srv : Server) (now : Nat) (r : Request) : Effect :=
  if r.method = "OPTIONS" then srv.answer (.empty 200)
  else
    match route r.path with
    | .health => srv.answer handleHealth
    | .create => srv.handleCreate now r
    | .join => srv.handleJoin now r
    | .session => srv.handleSession now r
    | .validate => srv.answer (srv.handleValidate now r)
    | .notFound => srv.answer (.error 404 "404 page not found")

section Run

variable (upper : Char → Char)

/-- One step of the goroutine serving `h`: from where it stands to its next call on a shared
object, or to its response. -/
def Server.advance (srv : Server) (now : Nat) (h : Handler) : Effect :=
  match h.stage with
  | .start => srv.serveHTTP now h.request
  | .create =>
    match srv.store.create h.draws.id h.draws.code h.draws.token now with
    | .error _ => srv.answer (.error 500 "Failed to create session")
    | .ok (sess, store) => ⟨.next (.createToken sess), [], store, srv.limiter⟩
  | .createToken sess =>
    srv.answer (.json [("sessionId", .str sess.id), ("code", .str sess.code),
      ("hostToken", .str sess.hostToken), ("relayToken", .bytes (srv.relayToken sess "host" now)),
      ("expiresAt", .int sess.expiresUnix)])
  | .join code =>
    match srv.store.handleJoin upper code h.draws.token now with
    | .error _ => srv.answer (.error 404 "Invalid or expired code")
    | .ok (sess, store) => ⟨.next (.joinToken sess), [], store, srv.limiter⟩
  | .joinToken sess =>
    srv.answer (.json [("sessionId", .str sess.id), ("joinToken", .str sess.joinToken),
      ("relayToken", .bytes (srv.relayToken sess "joiner" now)),
      ("hostConnected", .bool sess.hostConnected)])
  | .delete sessionID => ⟨.done (.empty 200), [], srv.store.delete sessionID, srv.limiter⟩

/-- What can happen next. -/
inductive Event where
  /-- A request comes in, and `net/http` starts the goroutine that serves it. -/
  | request (r : Request) (d : Draws)
  /-- The `i`-th goroutine still serving a request takes its next step. -/
  | resume (i : Nat)
  /-- A tick of the store's `cleanupLoop`. -/
  | storeCleanup
  /-- A tick of the create limiter's `cleanupLoop`. -/
  | createCleanup
  /-- A tick of the join limiter's `cleanupLoop`. -/
  | joinCleanup

/-- The server after a step of a handler, which is then at `handlers`. -/
def Server.apply (srv : Server) (e : Effect) (handlers : List Handler) : Server :=
  { srv with store := e.store, limiter := e.limiter, handlers }

def Server.step (srv : Server) (now : Nat) : Event → List Obs × Server
  | .request r d => ([], { srv with handlers := srv.handlers ++ [⟨r, d, .start⟩] })
  | .resume i =>
    match srv.handlers[i]? with
    | none => ([], srv)
    | some h =>
      let e := srv.advance upper now h
      match e.outcome with
      | .next stage => (e.obs, srv.apply e (srv.handlers.set i { h with stage }))
      | .done response => (e.obs ++ [.respond h.request response], srv.apply e (srv.handlers.eraseIdx i))
  | .storeCleanup => ([], { srv with store := srv.store.cleanup now })
  | .createCleanup =>
    ([], { srv with limiter := { srv.limiter with create := srv.limiter.create.doCleanup now } })
  | .joinCleanup =>
    ([], { srv with limiter := { srv.limiter with join := srv.limiter.join.doCleanup now } })

/-- Events in order, each at its instant, and what they show. -/
def Server.run (srv : Server) : List (Nat × Event) → List (Nat × Obs) × Server
  | [] => ([], srv)
  | (now, e) :: es =>
    let r := srv.step upper now e
    let rest := r.2.run es
    (r.1.map ((now, ·)) ++ rest.1, rest.2)

end Run

/-! ## What a step can do -/

section Steps

variable {upper : Char → Char} {srv : Server} {now : Nat}

@[simp] theorem answer_outcome (response : Response) : (srv.answer response).outcome = .done response := rfl
@[simp] theorem answer_obs (response : Response) : (srv.answer response).obs = [] := rfl
@[simp] theorem answer_store (response : Response) : (srv.answer response).store = srv.store := rfl
@[simp] theorem answer_limiter (response : Response) : (srv.answer response).limiter = srv.limiter := rfl

@[simp] theorem apply_store (e : Effect) (hs : List Handler) : (srv.apply e hs).store = e.store := rfl
@[simp] theorem apply_limiter (e : Effect) (hs : List Handler) : (srv.apply e hs).limiter = e.limiter := rfl
@[simp] theorem apply_handlers (e : Effect) (hs : List Handler) : (srv.apply e hs).handlers = hs := rfl
@[simp] theorem apply_mac (e : Effect) (hs : List Handler) : (srv.apply e hs).mac = srv.mac := rfl
@[simp] theorem apply_secret (e : Effect) (hs : List Handler) : (srv.apply e hs).secret = srv.secret := rfl
@[simp] theorem apply_tokenTTL (e : Effect) (hs : List Handler) : (srv.apply e hs).tokenTTL = srv.tokenTTL := rfl

/-- Everything the `i`-th goroutine's step does: it moves on to a stage, or it answers and is
gone. -/
theorem step_resume {i : Nat} {h : Handler} (hi : srv.handlers[i]? = some h) :
    (∃ stage, (srv.advance upper now h).outcome = .next stage ∧
      srv.step upper now (.resume i) = ((srv.advance upper now h).obs,
        srv.apply (srv.advance upper now h) (srv.handlers.set i { h with stage }))) ∨
    (∃ response, (srv.advance upper now h).outcome = .done response ∧
      srv.step upper now (.resume i) =
        ((srv.advance upper now h).obs ++ [.respond h.request response],
          srv.apply (srv.advance upper now h) (srv.handlers.eraseIdx i))) := by
  rcases ho : (srv.advance upper now h).outcome with stage | response
  · exact .inl ⟨stage, rfl, by simp [Server.step, hi, ho]⟩
  · exact .inr ⟨response, rfl, by simp [Server.step, hi, ho]⟩

/-- A goroutine of the server after a step: one that was there, maybe one stage on, or the one
a new request starts. Its request and its draws are those it came with. -/
theorem mem_step_handlers {e : Event} {h' : Handler} (hm : h' ∈ (srv.step upper now e).2.handlers) :
    (∃ h ∈ srv.handlers, h'.request = h.request ∧ h'.draws = h.draws ∧
      (h'.stage = h.stage ∨ (srv.advance upper now h).outcome = .next h'.stage)) ∨
    (∃ r d, e = .request r d ∧ h' = ⟨r, d, .start⟩) := by
  cases e with
  | request r d =>
    rcases List.mem_append.mp hm with hm | hm
    · exact .inl ⟨h', hm, rfl, rfl, .inl rfl⟩
    · exact .inr ⟨r, d, rfl, List.mem_singleton.mp hm⟩
  | resume i =>
    rcases hi : srv.handlers[i]? with _ | h
    · simp only [Server.step, hi] at hm
      exact .inl ⟨h', hm, rfl, rfl, .inl rfl⟩
    · rcases step_resume hi with ⟨stage, ho, he⟩ | ⟨response, -, he⟩ <;>
        rw [he, apply_handlers] at hm
      · rcases List.mem_or_eq_of_mem_set hm with hm | rfl
        · exact .inl ⟨h', hm, rfl, rfl, .inl rfl⟩
        · exact .inl ⟨h, List.getElem?_mem hi, rfl, rfl, .inr ho⟩
      · exact .inl ⟨h', List.mem_of_mem_eraseIdx hm, rfl, rfl, .inl rfl⟩
  | storeCleanup | createCleanup | joinCleanup => exact .inl ⟨h', hm, rfl, rfl, .inl rfl⟩

end Steps

/-! ## The store under the goroutines

Each step of a goroutine makes at most one call on the store that changes it, so the store of
the server runs as the store of `Store.run` does, one call at a time. -/

/-- The calls on the store that change at most a connection flag. -/
def Op.SetsFlag : Op → Prop
  | .setHostConnected _ _ | .setJoinConnected _ _ | .getByID _ => True
  | _ => False

/-- The calls on the store the goroutine `h` may make next: `Create` with its own draws only
once past `AllowCreate`, `Delete` only of the id it validated, and never the janitor's sweep. -/
def Handler.MayCall (h : Handler) : Op → Prop
  | .create i c t => h.stage = .create ∧ i = h.draws.id ∧ c = h.draws.code ∧ t = h.draws.token
  | .delete x => h.stage = .delete x
  | .cleanup => False
  | _ => True

theorem Op.SetsFlag.mayCall {op : Op} (hop : op.SetsFlag) (h : Handler) : h.MayCall op := by
  cases op <;> trivial

theorem answerConnect_snd (s : Store) (e : Except String Store) :
    (s.answerConnect e).2 = (s.answerSet e).2 := by
  cases e <;> rfl

theorem handleConnect_store (s : Store) (now : Nat) (r : Request) (sessionID : String) :
    ∃ op : Op, op.SetsFlag ∧ (s.handleConnect r sessionID).2 = (s.step now op).2 := by
  unfold Store.handleConnect
  split
  · exact ⟨.getByID "", trivial, rfl⟩
  · split_ifs
    · exact ⟨.setHostConnected _ _, trivial, answerConnect_snd _ _⟩
    · exact ⟨.setJoinConnected _ _, trivial, answerConnect_snd _ _⟩
    · exact ⟨.getByID "", trivial, rfl⟩

@[simp] theorem handleCreate_store (srv : Server) (now : Nat) (r : Request) :
    (srv.handleCreate now r).store = srv.store := by
  unfold Server.handleCreate
  split_ifs <;> rfl

@[simp] theorem handleJoin_store (srv : Server) (now : Nat) (r : Request) :
    (srv.handleJoin now r).store = srv.store := by
  unfold Server.handleJoin
  split_ifs <;> rfl

theorem handleSession_store (srv : Server) (now : Nat) (r : Request) :
    ∃ op : Op, op.SetsFlag ∧ (srv.handleSession now r).store = (srv.store.step now op).2 := by
  have keep : ∃ op : Op, op.SetsFlag ∧ srv.store = (srv.store.step now op).2 :=
    ⟨.getByID "", trivial, rfl⟩
  unfold Server.handleSession
  dsimp only
  split_ifs
  · exact keep
  · exact keep
  · exact handleConnect_store _ _ _ _
  · exact keep
  · exact keep

theorem serveHTTP_store (srv : Server) (now : Nat) (r : Request) :
    ∃ op : Op, op.SetsFlag ∧ (srv.serveHTTP now r).store = (srv.store.step now op).2 := by
  have keep : ∃ op : Op, op.SetsFlag ∧ srv.store = (srv.store.step now op).2 :=
    ⟨.getByID "", trivial, rfl⟩
  unfold Server.serveHTTP
  split_ifs
  · exact keep
  · split
    · exact keep
    · simpa using keep
    · simpa using keep
    · exact handleSession_store srv now r
    · exact keep
    · exact keep

/-- The store after a step of the goroutine at `h` is the store after one call `h` may make. -/
theorem advance_store (upper : Char → Char) (srv : Server) (now : Nat) (h : Handler) :
    ∃ op, h.MayCall op ∧ (srv.advance upper now h).store = (srv.store.step now op).2 := by
  have keep : ∃ op, h.MayCall op ∧ srv.store = (srv.store.step now op).2 :=
    ⟨.getByID "", trivial, rfl⟩
  unfold Server.advance
  split
  · obtain ⟨op, hop, he⟩ := serveHTTP_store srv now h.request
    exact ⟨op, hop.mayCall h, he⟩
  · rename_i hs
    refine ⟨.create h.draws.id h.draws.code h.draws.token, ⟨hs, rfl, rfl, rfl⟩, ?_⟩
    rcases hc : srv.store.create h.draws.id h.draws.code h.draws.token now with e | ⟨sess, s'⟩ <;>
      simp [hc, Store.step, Store.answer]
  · exact keep
  · rename_i code _
    rcases hn : normalizeJoinCode upper code with _ | code'
    · simpa [Store.handleJoin, hn] using keep
    · refine ⟨.join code' h.draws.token, trivial, ?_⟩
      rcases hj : srv.store.join code' h.draws.token now with e | ⟨sess, s'⟩ <;>
        simp [Store.handleJoin, hn, hj, Store.step, Store.answer]
  · exact keep
  · rename_i x hs
    exact ⟨.delete x, hs, rfl⟩

/-! ## Only the host token takes a session away -/

/-- `r'` is `r` but for its join token and its connection flags. -/
structure Session.SameRecord (r r' : Session) : Prop where
  id : r'.id = r.id
  code : r'.code = r.code
  hostToken : r'.hostToken = r.hostToken
  createdAt : r'.createdAt = r.createdAt
  expiresAt : r'.expiresAt = r.expiresAt
  ref : r'.ref = r.ref

theorem Session.SameRecord.refl (r : Session) : r.SameRecord r := ⟨rfl, rfl, rfl, rfl, rfl, rfl⟩

theorem Session.SameRecord.trans {r r' r'' : Session} (h₁ : r.SameRecord r')
    (h₂ : r'.SameRecord r'') : r.SameRecord r'' :=
  ⟨h₂.id.trans h₁.id, h₂.code.trans h₁.code, h₂.hostToken.trans h₁.hostToken,
    h₂.createdAt.trans h₁.createdAt, h₂.expiresAt.trans h₁.expiresAt, h₂.ref.trans h₁.ref⟩

/-- The calls on the store that leave the record of `id`, which expires at `expiresAt`, in
place: no `Create` that draws `id`, no `Delete` of `id`, no sweep after the expiry. -/
def Op.Spares (id : String) (now expiresAt : Nat) : Op → Prop
  | .create i _ _ => generateID 16 i ≠ .ok id
  | .delete x => x ≠ id
  | .cleanup => now ≤ expiresAt
  | _ => True

section Spares

variable {s : Store} {id : String} {r : Session}

theorem lookup_delete_ne {x : String} (h : x ≠ id) :
    (s.delete x).sessions.lookup id = s.sessions.lookup id := by
  unfold Store.delete
  split
  · exact AList.lookup_erase_ne (Ne.symm h)
  · rfl

theorem answerSet_spares (hl : s.sessions.lookup id = some r) (x : String)
    {set : Session → Session} (hset : ∀ q : Session, q.SameRecord (set q)) :
    ∃ r', (s.answerSet (s.setConnected x set)).2.sessions.lookup id = some r' ∧ r.SameRecord r' := by
  rcases hs : s.setConnected x set with e | s'
  · exact ⟨r, hl, .refl r⟩
  · obtain ⟨q, hq, rfl⟩ := setConnected_eq_ok hs
    by_cases hx : id = x
    · subst hx
      rw [hl] at hq
      cases hq
      exact ⟨set r, by simp [Store.answerSet], hset r⟩
    · exact ⟨r, by simp [Store.answerSet, AList.lookup_insert_ne hx, hl], .refl r⟩

/-- A call that spares the record of `id` leaves it there, but for its join token and flags. -/
theorem step_spares (hl : s.sessions.lookup id = some r) {now : Nat} {op : Op}
    (hop : op.Spares id now r.expiresAt) :
    ∃ r', (s.step now op).2.sessions.lookup id = some r' ∧ r.SameRecord r' := by
  cases op with
  | create i c t =>
    rcases hc : s.create i c t now with e | ⟨r₀, s'⟩
    · exact ⟨r, by simp [Store.step, Store.answer, hc, hl], .refl r⟩
    · have hst : (s.step now (.create i c t)).2 = s' := by simp [Store.step, Store.answer, hc]
      obtain ⟨x, _, _, hx, -, -, -, hnew⟩ := create_eq_ok hc
      have hne : id ≠ x := fun e => hop (e ▸ hx)
      exact ⟨r, by rw [hst, hnew]; simpa [AList.lookup_insert_ne hne] using hl, .refl r⟩
  | join code t =>
    rcases hj : s.join code t now with e | ⟨r₀, s'⟩
    · exact ⟨r, by simp [Store.step, Store.answer, hj, hl], .refl r⟩
    · obtain ⟨x, session, jt, -, hs, -, -, rfl, rfl⟩ := join_eq_ok hj
      by_cases hx : id = x
      · subst hx
        obtain ⟨hq, -⟩ := liveSession_eq_some.mp hs
        rw [hl] at hq
        cases hq
        exact ⟨{ r with joinToken := jt }, by simp [Store.step, Store.answer, hj],
          ⟨rfl, rfl, rfl, rfl, rfl, rfl⟩⟩
      · exact ⟨r, by simp [Store.step, Store.answer, hj, AList.lookup_insert_ne hx, hl], .refl r⟩
  | setHostConnected x b => exact answerSet_spares hl x fun _ => ⟨rfl, rfl, rfl, rfl, rfl, rfl⟩
  | setJoinConnected x b => exact answerSet_spares hl x fun _ => ⟨rfl, rfl, rfl, rfl, rfl, rfl⟩
  | delete x => exact ⟨r, by rw [← hl]; exact lookup_delete_ne hop, .refl r⟩
  | cleanup => exact ⟨r, cleanup_lookup.mpr ⟨hl, by simp only [Op.Spares] at hop; omega⟩, .refl r⟩
  | getByID _ | getByCode _ | validateToken _ _ _ => exact ⟨r, hl, .refl r⟩

theorem validateToken_host {tok : String} {now : Nat}
    (h : s.validateToken id tok "host" now = true) :
    ∃ r, s.sessions.lookup id = some r ∧ r.hostToken = tok := by
  unfold Store.validateToken at h
  split at h
  · cases h
  · rename_i session hs
    exact ⟨session, (liveSession_eq_some.mp hs).1, by simpa using h⟩

end Spares

section Survival

variable {upper : Char → Char} {srv : Server} {now : Nat} {id : String} {r : Session}

theorem handleCreate_outcome (srv : Server) (now : Nat) (r : Request) :
    (srv.handleCreate now r).outcome = .next .create ∨
      ∃ status text, (srv.handleCreate now r).outcome = .done (.error status text) := by
  simp only [Server.handleCreate]
  split_ifs <;> simp

theorem handleJoin_outcome (srv : Server) (now : Nat) (r : Request) :
    (∃ code, (srv.handleJoin now r).outcome = .next (.join code)) ∨
      ∃ status text, (srv.handleJoin now r).outcome = .done (.error status text) := by
  simp only [Server.handleJoin]
  split_ifs
  · simp
  · split <;> simp
  · simp

theorem handleConnect_fst (s : Store) (r : Request) (sessionID : String)
    (fields : List (String × Json)) : (s.handleConnect r sessionID).1 ≠ .json fields := by
  have ha : ∀ e, (s.answerConnect e).1 ≠ .json fields := fun e => by
    cases e <;> simp [Store.answerConnect]
  unfold Store.handleConnect
  split
  · simp
  · split_ifs
    · exact ha _
    · exact ha _
    · simp

/-- What `handleSession` does: move on to `Delete` once `ValidateToken` took the host token, or
answer, with an object only for the status of a session. -/
theorem handleSession_cases (srv : Server) (now : Nat) (r : Request) :
    (∃ x, (srv.handleSession now r).outcome = .next (.delete x) ∧ r.method = "DELETE" ∧
        srv.store.validateToken x (trimPrefix r.authorization "Bearer ") "host" now = true) ∨
      ∃ resp, (srv.handleSession now r).outcome = .done resp ∧
        ∀ fields, resp = .json fields → ∃ sess : Session,
          fields = [("sessionId", .str sess.id), ("hostConnected", .bool sess.hostConnected),
            ("joinConnected", .bool sess.joinConnected), ("expiresAt", .int sess.expiresUnix)] := by
  unfold Server.handleSession
  dsimp only
  split_ifs with h₁ h₂ h₃ h₄
  · exact .inr ⟨_, rfl, fun _ h => by cases h⟩
  · refine .inr ⟨_, rfl, fun fields h => ?_⟩
    unfold Store.handleStatus at h
    split at h
    · cases h
    · exact ⟨_, (Response.json.inj h).symm⟩
  · exact .inr ⟨_, rfl, fun fields h => absurd h (handleConnect_fst _ _ _ fields)⟩
  · unfold Store.handleDelete
    split_ifs with h₅ h₆
    · exact .inr ⟨_, rfl, fun _ h => by cases h⟩
    · exact .inl ⟨_, rfl, h₄, h₆⟩
    · exact .inr ⟨_, rfl, fun _ h => by cases h⟩
  · exact .inr ⟨_, rfl, fun _ h => by cases h⟩

theorem handleSession_next {r : Request} {stage : Stage}
    (ho : (srv.handleSession now r).outcome = .next stage) :
    ∃ x, stage = .delete x ∧ r.method = "DELETE" ∧
      srv.store.validateToken x (trimPrefix r.authorization "Bearer ") "host" now = true := by
  rcases handleSession_cases srv now r with ⟨x, h, hm, hv⟩ | ⟨_, h, -⟩ <;> rw [h] at ho
  · cases ho
    exact ⟨x, rfl, hm, hv⟩
  · cases ho

/-- A goroutine moves on to `Delete` only for a `DELETE` whose token `ValidateToken` took for
the host token of the session. -/
theorem advance_next_delete {h : Handler} {x : String}
    (ho : (srv.advance upper now h).outcome = .next (.delete x)) :
    h.request.method = "DELETE" ∧
      srv.store.validateToken x (trimPrefix h.request.authorization "Bearer ") "host" now = true := by
  unfold Server.advance at ho
  split at ho
  · unfold Server.serveHTTP at ho
    split_ifs at ho
    · simp at ho
    · split at ho
      · simp at ho
      · rcases handleCreate_outcome srv now h.request with h' | ⟨_, _, h'⟩ <;> rw [h'] at ho <;>
          cases ho
      · rcases handleJoin_outcome srv now h.request with ⟨_, h'⟩ | ⟨_, _, h'⟩ <;> rw [h'] at ho <;>
          cases ho
      · obtain ⟨x', hx, hm, hv⟩ := handleSession_next ho
        cases hx
        exact ⟨hm, hv⟩
      · simp at ho
      · simp at ho
  · split at ho <;> simp at ho
  · simp at ho
  · split at ho <;> simp at ho
  · simp at ho
  · simp at ho

/-- An event that cannot take the record `r` of `id` away: a request whose draw is not `id` and
which, if it is a `DELETE`, does not carry `r`'s host token; or a sweep before `r` expires. -/
def Event.Spares (id : String) (r : Session) (now : Nat) : Event → Prop
  | .request q d => generateID 16 d.id ≠ .ok id ∧
      (q.method = "DELETE" → trimPrefix q.authorization "Bearer " ≠ r.hostToken)
  | .storeCleanup => now ≤ r.expiresAt
  | _ => True

/-- A goroutine that cannot take the record `r` of `id` away. -/
def Handler.Spares (id : String) (r : Session) (h : Handler) : Prop :=
  h.stage ≠ .delete id ∧ generateID 16 h.draws.id ≠ .ok id ∧
    (h.request.method = "DELETE" → trimPrefix h.request.authorization "Bearer " ≠ r.hostToken)

/-- The record of `id` is `r` but for its join token and flags, and no goroutine can take it
away. -/
structure Spared (id : String) (r : Session) (srv : Server) : Prop where
  record : ∃ r', srv.store.sessions.lookup id = some r' ∧ r.SameRecord r'
  handlers : ∀ h ∈ srv.handlers, h.Spares id r

theorem Spared.step (hs : Spared id r srv) {e : Event} (he : e.Spares id r now) :
    Spared id r (srv.step upper now e).2 := by
  obtain ⟨⟨r', hl, hr'⟩, hh⟩ := hs
  have hhandlers : ∀ h' ∈ (srv.step upper now e).2.handlers, h'.Spares id r := by
    intro h' hm
    rcases mem_step_handlers hm with ⟨h, hm, hq, hd, hst⟩ | ⟨q, d, rfl, rfl⟩
    · obtain ⟨hdel, hfresh, htok⟩ := hh h hm
      refine ⟨?_, hd ▸ hfresh, hq ▸ htok⟩
      rcases hst with hst | hst
      · exact hst ▸ hdel
      · intro hx
        rw [hx] at hst
        obtain ⟨hdm, hv⟩ := advance_next_delete hst
        obtain ⟨q, hq', ht⟩ := validateToken_host hv
        rw [hl] at hq'
        cases hq'
        exact htok hdm (ht.symm.trans hr'.hostToken)
    · exact ⟨nofun, he.1, he.2⟩
  refine ⟨?_, hhandlers⟩
  cases e with
  | request q d => exact ⟨r', hl, hr'⟩
  | resume i =>
    rcases hi : srv.handlers[i]? with _ | h
    · simpa [Server.step, hi] using ⟨r', hl, hr'⟩
    · obtain ⟨hdel, hfresh, -⟩ := hh h (List.getElem?_mem hi)
      obtain ⟨op, hop, hst⟩ := advance_store upper srv now h
      have hsp : op.Spares id now r'.expiresAt := by
        cases op with
        | create i c t => exact hop.2.1 ▸ hfresh
        | delete x => exact fun hx => hdel (hx ▸ hop)
        | cleanup => exact hop.elim
        | _ => trivial
      obtain ⟨r'', hl'', hr''⟩ := step_spares hl hsp
      refine ⟨r'', ?_, hr'.trans hr''⟩
      rcases step_resume hi with ⟨_, _, he⟩ | ⟨_, _, he⟩ <;> rw [he, apply_store, hst] <;>
        exact hl''
  | storeCleanup =>
    refine ⟨r', cleanup_lookup.mpr ⟨hl, ?_⟩, hr'⟩
    have : now ≤ r.expiresAt := he
    rw [hr'.expiresAt]
    omega
  | createCleanup | joinCleanup => exact ⟨r', hl, hr'⟩

theorem Spared.run (hs : Spared id r srv) {events : List (Nat × Event)}
    (he : ∀ e ∈ events, e.2.Spares id r e.1) : Spared id r (srv.run upper events).2 := by
  induction events generalizing srv with
  | nil => exact hs
  | cons e events ih =>
    exact ih (hs.step (he e (List.mem_cons_self _ _))) fun e' hm => he e' (List.mem_cons_of_mem _ hm)

/-- Whatever the order the goroutines run in, a session keeps its place in the store, with the
same id, code, host token and expiry, through every run in which no request draws its id, no
`DELETE` carries its host token (after `Bearer `), and the janitor does not sweep after it
expires. -/
theorem session_survives_without_host_token (upper : Char → Char) (srv : Server) (id : String)
    (r : Session) (events : List (Nat × Event)) (hl : srv.store.sessions.lookup id = some r)
    (hh : ∀ h ∈ srv.handlers, h.Spares id r) (he : ∀ e ∈ events, e.2.Spares id r e.1) :
    ∃ r', (srv.run upper events).2.store.sessions.lookup id = some r' ∧ r.SameRecord r' :=
  (Spared.run ⟨⟨r, hl, .refl r⟩, hh⟩ he).record

end Survival

/-- A session `a` with host token `tok`, alone in a server that has just started. -/
def keptSession : Session := ⟨"a", "C", "tok", "", false, false, 0, 10, 0⟩

def keptServer : Server :=
  { newServer Auth.zeroMac [] 10 with
    store := ⟨(∅ : AList fun _ : String => Session).insert "a" keptSession,
      (∅ : AList fun _ : String => String).insert "C" "a", 10, 1⟩ }

/-- A create that draws another id and a `DELETE` of `a` with the wrong token, both served,
then the janitor before the expiry. -/
def wrongTokenDelete : List (Nat × Event) :=
  [(0, .request ⟨"POST", "/session/create", "", "", "", "10.0.0.1:5", none, none, none⟩
      ⟨.ok fun _ => 1, .ok fun _ => 1, .ok fun _ => 1⟩),
    (0, .request ⟨"DELETE", "/session/a", "Bearer nope", "", "", "", none, none, none⟩
      ⟨.error "", .error "", .error ""⟩),
    (0, .resume 1), (0, .resume 0), (0, .resume 0), (0, .resume 0), (1, .storeCleanup)]

theorem wrong_token_delete_keeps_session :
    ∃ r', (keptServer.run id wrongTokenDelete).2.store.sessions.lookup "a" = some r' ∧
      keptSession.SameRecord r' :=
  session_survives_without_host_token id keptServer "a" keptSession wrongTokenDelete rfl
    (by simp [keptServer, newServer])
    (by
      simp only [wrongTokenDelete, List.mem_cons, List.mem_singleton, List.not_mem_nil, or_false]
      rintro e (rfl | rfl | rfl | rfl | rfl | rfl | rfl)
      · exact ⟨fun h => absurd (Except.ok.inj h) (by decide), by decide⟩
      · exact ⟨fun h => (by cases h), fun _ => by decide⟩
      iterate 4 trivial
      show 1 ≤ 10
      omega)

/-! ## Session ids are ASCII -/

/-- Text below `0x80`, whose Go bytes are `ascii` of it. -/
def IsAscii (s : String) : Prop := ∀ c ∈ s.data, c.toNat < 0x80

instance (s : String) : Decidable (IsAscii s) := inferInstanceAs (Decidable (∀ c ∈ s.data, _))

theorem map_toUInt8_eq_flatMap {cs : List Char} (h : ∀ c ∈ cs, c.toNat < 0x80) :
    cs.map (fun ch => ch.toNat.toUInt8) = (cs.map Char.toNat).flatMap Auth.encodeRune := by
  induction cs with
  | nil => rfl
  | cons c cs ih =>
    rw [List.map_cons, List.map_cons, List.flatMap_cons,
      Auth.encodeRune_of_lt (h c (List.mem_cons_self _ _)),
      ih fun c hc => h c (List.mem_cons_of_mem _ hc)]
    rfl

theorem validUTF8_ascii {s : String} (h : IsAscii s) : Auth.ValidUTF8 (Auth.ascii s) := by
  refine ⟨s.data.map Char.toNat, fun r hr => ?_, map_toUInt8_eq_flatMap h⟩
  obtain ⟨c, hc, rfl⟩ := List.mem_map.mp hr
  exact .inl (by have := h c hc; omega)

theorem asciiString_ascii {s : String} (h : IsAscii s) : Auth.asciiString (Auth.ascii s) = s := by
  obtain ⟨cs⟩ := s
  simp only [Auth.asciiString, Auth.ascii, String.toList, List.map_map]
  congr 1
  conv_rhs => rw [← List.map_id cs]
  refine List.map_congr_left fun c hc => ?_
  simp [Auth.toNat_toUInt8 (by have := h c hc; omega : c.toNat < 256)]

theorem isAscii_hexString (b : List UInt8) : IsAscii (hexString b) := by
  have hd : ∀ n < 16, (hexDigit n).toNat < 0x80 := by decide
  intro c hc
  obtain ⟨x, -, hx⟩ := List.mem_flatMap.mp hc
  have : x.toNat < 256 := UInt8.toNat_lt_size x
  rcases List.mem_pair.mp hx with rfl | rfl
  · exact hd _ (by omega)
  · exact hd _ (Nat.mod_lt _ (by omega))

theorem generateID_isAscii {n : Nat} {read : Except String (Fin n → UInt8)} {x : String}
    (h : generateID n read = .ok x) : IsAscii x := by
  cases read with
  | error e => cases h
  | ok b =>
    cases h
    exact isAscii_hexString _

/-- Every record sits under its own id, which is ASCII text. -/
def Store.AsciiIds (s : Store) : Prop :=
  ∀ id r, s.sessions.lookup id = some r → r.id = id ∧ IsAscii id

theorem Store.AsciiIds.step {s : Store} (h : s.AsciiIds) (now : Nat) (op : Op) :
    (s.step now op).2.AsciiIds := by
  intro x q hq
  rcases step_sessions s now op with
    ⟨hl, -, -⟩ | ⟨i, c, t, r, hc, -⟩ | ⟨code, t, r, -, hj, -⟩ | ⟨y, set, hset, hs, -⟩
  · exact h x q (hl x q hq)
  · obtain ⟨id, _, _, hid, -, -, rfl, he⟩ := create_eq_ok hc
    rw [he] at hq
    rcases lookup_insert_cases hq with ⟨rfl, rfl⟩ | ⟨-, hq⟩
    · exact ⟨rfl, generateID_isAscii hid⟩
    · exact h x q hq
  · obtain ⟨y, session, _, -, hs, -, -, rfl, he⟩ := join_eq_ok hj
    rw [he] at hq
    rcases lookup_insert_cases hq with ⟨rfl, rfl⟩ | ⟨-, hq⟩
    · exact h x session (liveSession_eq_some.mp hs).1
    · exact h x q hq
  · obtain ⟨session, hl, he⟩ := setConnected_eq_ok hs
    rw [he] at hq
    rcases lookup_insert_cases hq with ⟨rfl, rfl⟩ | ⟨-, hq⟩
    · exact (hset session).1 ▸ h x session hl
    · exact h x q hq

/-- The stages a goroutine serving `r` can stand at: those of the handler `r` goes to, holding a
record with an ASCII id once past `store.Create` or `store.Join`. -/
def Stage.Fits (r : Request) : Stage → Prop
  | .start => True
  | .create => r.path = "/session/create"
  | .createToken sess => r.path = "/session/create" ∧ IsAscii sess.id
  | .join _ => r.path = "/session/join"
  | .joinToken sess => r.path = "/session/join" ∧ IsAscii sess.id
  | .delete _ => r.method = "DELETE"

/-- The server is as its goroutines can make it: records under their own ASCII ids, and every
goroutine at a stage that fits its request. -/
structure Server.Wf (srv : Server) : Prop where
  store : srv.store.AsciiIds
  handlers : ∀ h ∈ srv.handlers, h.stage.Fits h.request

theorem route_eq_create {p : String} (h : route p = .create) : p = "/session/create" := by
  unfold route at h
  split_ifs at h
  simp_all

theorem route_eq_join {p : String} (h : route p = .join) : p = "/session/join" := by
  unfold route at h
  split_ifs at h
  simp_all

section Fits

variable {upper : Char → Char} {srv : Server} {now : Nat}

/-- A step of a goroutine takes it to a stage that fits its request. -/
theorem advance_fits {h : Handler} (hs : srv.store.AsciiIds) (hh : h.stage.Fits h.request)
    {stage : Stage} (ho : (srv.advance upper now h).outcome = .next stage) :
    stage.Fits h.request := by
  unfold Server.advance at ho
  split at ho
  · unfold Server.serveHTTP at ho
    split_ifs at ho
    · simp at ho
    · split at ho
      · simp at ho
      · rename_i hr
        rcases handleCreate_outcome srv now h.request with h' | ⟨_, _, h'⟩ <;> rw [h'] at ho <;>
          cases ho
        exact route_eq_create hr
      · rename_i hr
        rcases handleJoin_outcome srv now h.request with ⟨_, h'⟩ | ⟨_, _, h'⟩ <;> rw [h'] at ho <;>
          cases ho
        exact route_eq_join hr
      · obtain ⟨x, rfl, hm, -⟩ := handleSession_next ho
        exact hm
      · simp at ho
      · simp at ho
  · rename_i hst
    rw [hst] at hh
    split at ho
    · simp at ho
    · rename_i sess s' hc
      cases ho
      obtain ⟨id, _, _, hid, -, -, rfl, -⟩ := create_eq_ok hc
      exact ⟨hh, generateID_isAscii hid⟩
  · simp at ho
  · rename_i code hst
    rw [hst] at hh
    split at ho
    · simp at ho
    · rename_i sess s' hj
      cases ho
      refine ⟨hh, ?_⟩
      unfold Store.handleJoin at hj
      split at hj
      · obtain ⟨x, session, _, -, hl, -, -, rfl, -⟩ := join_eq_ok hj
        obtain ⟨hid, hx⟩ := hs x session (liveSession_eq_some.mp hl).1
        exact hid ▸ hx
      · cases hj
  · simp at ho
  · simp at ho

end Fits

section Wf

variable {upper : Char → Char} {srv : Server} {now : Nat}

/-- The store after any event is the store after one call of the store. -/
theorem step_store (e : Event) : ∃ op, (srv.step upper now e).2.store = (srv.store.step now op).2 := by
  cases e with
  | resume i =>
    rcases hi : srv.handlers[i]? with _ | h
    · exact ⟨.getByID "", by simp [Server.step, hi]; rfl⟩
    · obtain ⟨op, -, he⟩ := advance_store upper srv now h
      exact ⟨op, by rcases step_resume hi with ⟨_, _, hs⟩ | ⟨_, _, hs⟩ <;> rw [hs, apply_store, he]⟩
  | storeCleanup => exact ⟨.cleanup, rfl⟩
  | request _ _ | createCleanup | joinCleanup => exact ⟨.getByID "", rfl⟩

theorem Server.Wf.step (hw : srv.Wf) (e : Event) : (srv.step upper now e).2.Wf := by
  obtain ⟨op, hop⟩ := @step_store upper srv now e
  refine ⟨hop ▸ hw.store.step now op, fun h' hm => ?_⟩
  rcases mem_step_handlers hm with ⟨h, hm, hq, -, hst⟩ | ⟨q, d, -, rfl⟩
  · rw [hq]
    rcases hst with hst | hst
    · exact hst ▸ hw.handlers h hm
    · exact advance_fits hw.store (hw.handlers h hm) hst
  · trivial

@[simp] theorem step_mac (e : Event) : (srv.step upper now e).2.mac = srv.mac := by
  cases e with
  | resume i =>
    rcases hi : srv.handlers[i]? with _ | h
    · simp [Server.step, hi]
    · rcases step_resume hi with ⟨_, _, hs⟩ | ⟨_, _, hs⟩ <;> rw [hs, apply_mac]
  | _ => rfl

@[simp] theorem step_secret (e : Event) : (srv.step upper now e).2.secret = srv.secret := by
  cases e with
  | resume i =>
    rcases hi : srv.handlers[i]? with _ | h
    · simp [Server.step, hi]
    · rcases step_resume hi with ⟨_, _, hs⟩ | ⟨_, _, hs⟩ <;> rw [hs, apply_secret]
  | _ => rfl

@[simp] theorem step_tokenTTL (e : Event) : (srv.step upper now e).2.tokenTTL = srv.tokenTTL := by
  cases e with
  | resume i =>
    rcases hi : srv.handlers[i]? with _ | h
    · simp [Server.step, hi]
    · rcases step_resume hi with ⟨_, _, hs⟩ | ⟨_, _, hs⟩ <;> rw [hs, apply_tokenTTL]
  | _ => rfl

end Wf

theorem Server.Wf.run {upper : Char → Char} {srv : Server} (hw : srv.Wf)
    (events : List (Nat × Event)) : (srv.run upper events).2.Wf := by
  induction events generalizing srv with
  | nil => exact hw
  | cons e events ih => exact ih (hw.step e.2)

theorem newServer_wf (mac : Auth.Mac) (secret : List UInt8) (ttl : Nat) :
    (newServer mac secret ttl).Wf :=
  ⟨fun _ _ h => by simp [newServer, newStore] at h, fun _ h => by simp [newServer] at h⟩

/-! ## The relay tokens the server hands out -/

section Tokens

variable {upper : Char → Char} {srv : Server} {now : Nat}

/-- What a step shows before a response: the answers of the limiters only. -/
def Obs.IsAnswer : Obs → Prop
  | .respond _ _ => False
  | _ => True

theorem advance_obs (h : Handler) : ∀ o ∈ (srv.advance upper now h).obs, o.IsAnswer := by
  unfold Server.advance
  split
  · unfold Server.serveHTTP
    split_ifs
    · simp
    · split
      · simp
      · unfold Server.handleCreate
        split_ifs <;> simp [Obs.IsAnswer]
      · unfold Server.handleJoin
        split_ifs <;> simp [Obs.IsAnswer]
      · unfold Server.handleSession
        dsimp only
        split_ifs <;> simp
      · simp
      · simp
  all_goals first | simp | (split <;> simp)

/-- The one response that ends a step of the `i`-th goroutine is that goroutine's. -/
theorem respond_mem_step {i : Nat} {q : Request} {response : Response}
    (hr : Obs.respond q response ∈ (srv.step upper now (.resume i)).1) :
    ∃ h, srv.handlers[i]? = some h ∧ q = h.request ∧
      (srv.advance upper now h).outcome = .done response := by
  rcases hi : srv.handlers[i]? with _ | h
  · simp [Server.step, hi] at hr
  · rcases step_resume hi with ⟨_, -, he⟩ | ⟨response', ho, he⟩ <;> rw [he] at hr
    · exact absurd (advance_obs h _ hr) id
    · rcases List.mem_append.mp hr with hr | hr
      · exact absurd (advance_obs h _ hr) id
      · obtain ⟨rfl, rfl⟩ : q = h.request ∧ response = response' := by simpa using hr
        exact ⟨h, rfl, rfl, ho⟩

theorem handleValidate_json {r : Request} {fields : List (String × Json)}
    (h : srv.handleValidate now r = .json fields) :
    ∃ a b, fields = [("sessionId", .bytes a), ("role", .bytes b), ("valid", .bool true)] := by
  unfold Server.handleValidate at h
  split_ifs at h
  split at h
  · cases h
  split at h
  · cases h
  split at h
  · cases h
  exact ⟨_, _, (Response.json.inj h).symm⟩

/-- A handler's first step never hands out a relay token. -/
theorem serveHTTP_no_relayToken {r : Request} {fields : List (String × Json)}
    (hv : (srv.serveHTTP now r).outcome = .done (.json fields)) (tok : List UInt8) :
    ("relayToken", Json.bytes tok) ∉ fields := by
  unfold Server.serveHTTP at hv
  split_ifs at hv
  · simp at hv
  · split at hv
    · simp only [answer_outcome, handleHealth, Outcome.done.injEq, Response.json.injEq] at hv
      simp [← hv]
    · rcases handleCreate_outcome srv now r with h' | ⟨_, _, h'⟩ <;> rw [h'] at hv <;> cases hv
    · rcases handleJoin_outcome srv now r with ⟨_, h'⟩ | ⟨_, _, h'⟩ <;> rw [h'] at hv <;> cases hv
    · rcases handleSession_cases srv now r with ⟨_, h, -⟩ | ⟨_, h, hf⟩ <;> rw [h] at hv
      · cases hv
      · obtain ⟨sess, rfl⟩ := hf fields (Outcome.done.inj hv)
        simp
    · obtain ⟨a, b, rfl⟩ := handleValidate_json (Outcome.done.inj hv)
      simp
    · simp at hv

/-- The responses that carry a relay token: those of a goroutine past `store.Create`, for the
host, or past `store.Join`, for the joiner; the session id beside it is the record's. -/
theorem advance_relayToken {h : Handler} {fields : List (String × Json)} {tok : List UInt8}
    (ho : (srv.advance upper now h).outcome = .done (.json fields))
    (ht : ("relayToken", Json.bytes tok) ∈ fields) :
    ∃ sess role, (h.stage = .createToken sess ∧ role = "host" ∨
        h.stage = .joinToken sess ∧ role = "joiner") ∧
      tok = srv.relayToken sess role now ∧ ∀ id, ("sessionId", Json.str id) ∈ fields → id = sess.id := by
  unfold Server.advance at ho
  split at ho
  · exact absurd ht (serveHTTP_no_relayToken ho tok)
  · split at ho <;> simp at ho
  · rename_i sess hs
    simp only [answer_outcome, Outcome.done.injEq, Response.json.injEq] at ho
    subst ho
    simp only [List.mem_cons, Prod.mk.injEq, Json.bytes.injEq, List.mem_singleton] at ht
    refine ⟨sess, "host", .inl ⟨hs, rfl⟩, by simpa using ht, fun id hid => ?_⟩
    simpa using hid
  · split at ho <;> simp at ho
  · rename_i sess hs
    simp only [answer_outcome, Outcome.done.injEq, Response.json.injEq] at ho
    subst ho
    simp only [List.mem_cons, Prod.mk.injEq, Json.bytes.injEq, List.mem_singleton] at ht
    refine ⟨sess, "joiner", .inr ⟨hs, rfl⟩, by simpa using ht, fun id hid => ?_⟩
    simpa using hid
  · simp at ho

/-- `handleValidate` on a relay token made at `t` to last `ttl`, at an instant up to `ttl` later:
the session id and the role of the token while the session is live, `Session not found` once it
is not. -/
theorem handleValidate_createRelayToken (srv : Server) {id role : String} (hid : IsAscii id)
    (hr : IsAscii role) {ttl t t' : Nat} (ht : t' ≤ t + ttl) (hb : (t + ttl) / 10 ^ 9 < 2 ^ 63)
    {q : Request} (hpost : q.method = "POST")
    (hbody : q.validateBody =
      some (Auth.createRelayToken srv.mac srv.secret (Auth.ascii id) (Auth.ascii role) ttl t)) :
    srv.handleValidate t' q =
      match srv.store.getByID id t' with
      | none => .error 404 "Session not found"
      | some _ => .json [("sessionId", .bytes (Auth.ascii id)), ("role", .bytes (Auth.ascii role)),
          ("valid", .bool true)] := by
  simp only [Server.handleValidate, hpost, ne_eq, not_true_eq_false, if_false, hbody,
    Auth.verify_createRelayToken srv.mac srv.secret (validUTF8_ascii hid) (validUTF8_ascii hr) ht hb,
    asciiString_ascii hid]

end Tokens

/-- Every relay token a server as its goroutines can make it hands out, in its answer to a
create (for the host) or to a join (for the joiner), is taken by `/internal/validate` of a
server with the same signer at any instant up to the token lifetime after it was made: the
answer names the session and the role while the session is live, and is `Session not found`
once it is not. Every server `main` starts and runs is such a server (`Server.Wf.run`). -/
theorem relay_token_validates (upper : Char → Char) (srv₀ : Server) (hw : srv₀.Wf) (t i : Nat)
    (q : Request) (fields : List (String × Json))
    (hr : Obs.respond q (.json fields) ∈ (srv₀.step upper t (.resume i)).1)
    (id : String) (tok : List UInt8) (hid : ("sessionId", Json.str id) ∈ fields)
    (htok : ("relayToken", Json.bytes tok) ∈ fields) (srv : Server) (hmac : srv.mac = srv₀.mac)
    (hsecret : srv.secret = srv₀.secret) (t' : Nat) (ht : t' ≤ t + srv₀.tokenTTL)
    (hb : (t + srv₀.tokenTTL) / 10 ^ 9 < 2 ^ 63) (q' : Request) (hpost : q'.method = "POST")
    (hbody : q'.validateBody = some tok) :
    srv.handleValidate t' q' =
      match srv.store.getByID id t' with
      | none => .error 404 "Session not found"
      | some _ => .json [("sessionId", .bytes (Auth.ascii id)),
          ("role", .bytes (Auth.ascii (if q.path = "/session/create" then "host" else "joiner"))),
          ("valid", .bool true)] := by
  obtain ⟨h, hi, rfl, ho⟩ := respond_mem_step hr
  obtain ⟨sess, role, hst, rfl, hsid⟩ := advance_relayToken ho htok
  obtain rfl := hsid id hid
  have hfit := hw.handlers h (List.getElem?_mem hi)
  have hrole : role = if h.request.path = "/session/create" then "host" else "joiner" := by
    rcases hst with ⟨hs, rfl⟩ | ⟨hs, rfl⟩ <;> rw [hs] at hfit <;> simp [Stage.Fits, hfit.1]
  have hascii : IsAscii sess.id := by
    rcases hst with ⟨hs, -⟩ | ⟨hs, -⟩ <;> rw [hs] at hfit <;> exact hfit.2
  have hrascii : IsAscii role := by rcases hst with ⟨-, rfl⟩ | ⟨-, rfl⟩ <;> decide
  rw [← hrole]
  refine handleValidate_createRelayToken srv hascii hrascii ht hb hpost ?_
  rw [hbody, Server.relayToken, hmac, hsecret]

/-- A session `ab` a goroutine has just created, about to hand out its relay token. -/
def createdSession : Session := ⟨"ab", "C", "tok", "", false, false, 0, 600, 0⟩

def createRequest : Request := ⟨"POST", "/session/create", "", "", "", "", none, none, none⟩

def creatingServer : Server :=
  { newServer Auth.zeroMac [] 600 with
    store := ⟨(∅ : AList (fun _ : String => Session)).insert "ab" createdSession,
      (∅ : AList (fun _ : String => String)).insert "C" "ab", 600, 1⟩
    handlers := [⟨createRequest, ⟨.error "", .error "", .error ""⟩, .createToken createdSession⟩] }

theorem creatingServer_wf : creatingServer.Wf := by
  refine ⟨fun x r h => ?_, fun h hh => ?_⟩
  · by_cases hx : x = "ab"
    · subst hx
      simp only [creatingServer, AList.lookup_insert, Option.some.injEq] at h
      subst h
      decide
    · simp only [creatingServer] at h
      rw [AList.lookup_insert_ne hx] at h
      cases h
  · simp only [creatingServer, List.mem_singleton] at hh
    subst hh
    exact ⟨rfl, by decide⟩

/-- The host's token handed out at 0 and checked at 600, while the session lives. -/
theorem created_token_validates_while_live :
    creatingServer.handleValidate 600
        ⟨"POST", "/internal/validate", "", "", "", "", none, none,
          some (creatingServer.relayToken createdSession "host" 0)⟩ =
      match creatingServer.store.getByID "ab" 600 with
      | none => .error 404 "Session not found"
      | some _ => .json [("sessionId", .bytes (Auth.ascii "ab")),
          ("role", .bytes (Auth.ascii (if createRequest.path = "/session/create" then "host"
            else "joiner"))), ("valid", .bool true)] :=
  relay_token_validates id creatingServer creatingServer_wf 0 0 createRequest
    [("sessionId", .str createdSession.id), ("code", .str createdSession.code),
      ("hostToken", .str createdSession.hostToken),
      ("relayToken", .bytes (creatingServer.relayToken createdSession "host" 0)),
      ("expiresAt", .int createdSession.expiresUnix)]
    (List.mem_singleton.mpr rfl) "ab" _ (by simp [createdSession]) (by simp) creatingServer rfl rfl
    600 (by decide) (by decide) _ rfl rfl

end SfoConnectivity.Rendezvous
