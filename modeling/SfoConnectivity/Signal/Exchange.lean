import SfoConnectivity.Signal.Mailbox

/-! # The signaling exchange (`src/unnamed/part_001`)

`ExchangeSignals` runs `exchangeAsHost` on the peer that created the session and
`exchangeAsJoiner` on the peer that joined it. The host posts its offer to `/signal/send` and
then polls `/signal/receive` until a signal comes; the joiner polls until a signal comes, answers
it and posts the answer. Each request is one call of the signal server. The two peers' requests
and the server's janitor come in any order, and a peer whose two minutes of polling run out
gives up. pion gathers every candidate before it writes the offer or the answer, so these two
are the only signals the peers post.
-/

namespace SfoConnectivity.Signal

/-- What `CreateOffer` returns: an offer with the SDP pion wrote. -/
def createOffer (sdp : String) : SignalMessage := ⟨"offer", sdp, ""⟩

/-- What `HandleOffer` returns: an answer with the SDP pion writes for the offer's. -/
def handleOffer (answerSdp : String → String) (offer : SignalMessage) : SignalMessage :=
  ⟨"answer", answerSdp offer.sdp, ""⟩

@[simp] theorem handleOffer_type (answerSdp : String → String) (offer : SignalMessage) :
    (handleOffer answerSdp offer).type = "answer" := rfl

/-- `SendSignal`: the server's `AddSignal`; a request the server refuses (400) fails with
`signal send failed`. -/
def sendSignal (s : SignalServer) (sessionID role : String) (msg : SignalMessage) :
    Except String SignalServer :=
  match s.addSignal sessionID role (some msg) with
  | .ok s' => .ok s'
  | .error _ => .error "signal send failed"

/-- One poll of `WaitForSignal`: the signal, when the server answers with one, and the server
after. A refused request (400) and an empty mailbox (204) both lead to the next poll. -/
def pollSignal (s : SignalServer) (sessionID role : String) : Option SignalMessage × SignalServer :=
  match s.getSignal sessionID role with
  | (.ok (some sig), s') => (some sig, s')
  | (_, s') => (none, s')

/-- Where `exchangeAsHost` stands. -/
inductive HostStage where
  | sendOffer
  | waitAnswer
  /-- It got `answer` and hands it to `HandleAnswer`. -/
  | answered (answer : SignalMessage)
  | failed (err : String)
  deriving DecidableEq

/-- Where `exchangeAsJoiner` stands. -/
inductive JoinStage where
  | waitOffer
  /-- It got `offer` and posts the answer `HandleOffer` made for it. -/
  | sendAnswer (offer : SignalMessage)
  | answered (offer : SignalMessage)
  | failed (err : String)
  deriving DecidableEq

structure Exchange where
  server : SignalServer
  sessionID : String
  offer : SignalMessage
  host : HostStage
  joiner : JoinStage

/-- The session the host creates, its offer made, and the joiner told the session's id. -/
def Exchange.start (s : SignalServer) (idDraw : Fin 16 → UInt8) (codeDraw : Fin 4 → UInt8)
    (now : Nat) (sdp : String) : Exchange :=
  let created := s.createSession idDraw codeDraw now
  ⟨created.2, created.1.id, createOffer sdp, .sendOffer, .waitOffer⟩

inductive Turn where
  /-- The host's next request. -/
  | host
  /-- The joiner's next request. -/
  | joiner
  /-- The host's two minutes of polling run out. -/
  | hostTimeout
  /-- The joiner's two minutes of polling run out. -/
  | joinerTimeout
  /-- A tick of the server's janitor. -/
  | cleanup (now : Nat)

namespace Exchange

def hostTurn (x : Exchange) : Exchange :=
  match x.host with
  | .sendOffer =>
    match sendSignal x.server x.sessionID "host" x.offer with
    | .ok s' => { x with server := s', host := .waitAnswer }
    | .error e => { x with host := .failed ("failed to send offer: " ++ e) }
  | .waitAnswer =>
    let r := pollSignal x.server x.sessionID "host"
    match r.1 with
    | none => { x with server := r.2 }
    | some answer =>
      { x with
        server := r.2
        host := if answer.type = "answer" then .answered answer
          else .failed ("expected answer, got " ++ answer.type) }
  | _ => x

def joinerTurn (answerSdp : String → String) (x : Exchange) : Exchange :=
  match x.joiner with
  | .waitOffer =>
    let r := pollSignal x.server x.sessionID "joiner"
    match r.1 with
    | none => { x with server := r.2 }
    | some offer =>
      { x with
        server := r.2
        joiner := if offer.type = "offer" then .sendAnswer offer
          else .failed ("expected offer, got " ++ offer.type) }
  | .sendAnswer offer =>
    match sendSignal x.server x.sessionID "joiner" (handleOffer answerSdp offer) with
    | .ok s' => { x with server := s', joiner := .answered offer }
    | .error e => { x with joiner := .failed ("failed to send answer: " ++ e) }
  | _ => x

def turn (answerSdp : String → String) (x : Exchange) : Turn → Exchange
  | .host => x.hostTurn
  | .joiner => x.joinerTurn answerSdp
  | .hostTimeout =>
    match x.host with
    | .waitAnswer => { x with host := .failed "failed to receive answer: timeout waiting for signal" }
    | _ => x
  | .joinerTimeout =>
    match x.joiner with
    | .waitOffer => { x with joiner := .failed "failed to receive offer: timeout waiting for signal" }
    | _ => x
  | .cleanup now => { x with server := x.server.cleanup now }

def run (answerSdp : String → String) (x : Exchange) (turns : List Turn) : Exchange :=
  turns.foldl (turn answerSdp) x

end Exchange

/-! ## The calls the peers make -/

section Calls

variable {s s' : SignalServer} {id role : String} {msg : SignalMessage}

theorem sendSignal_eq_ok (h : sendSignal s id role msg = .ok s') :
    ∃ session, s.sessions.lookup id = some session ∧
      s'.sessions.lookup id = some (session.addSignal role (some msg)) := by
  unfold sendSignal SignalServer.addSignal at h
  rcases hl : s.sessions.lookup id with _ | session <;> simp only [hl] at h
  · cases h
  · cases h
    exact ⟨session, rfl, AList.lookup_insert _⟩

theorem sendSignal_eq_error {e : String} (h : sendSignal s id role msg = .error e) :
    e = "signal send failed" ∧ s.sessions.lookup id = none := by
  unfold sendSignal SignalServer.addSignal at h
  rcases hl : s.sessions.lookup id with _ | session <;> simp only [hl] at h
  · exact ⟨(Except.error.inj h).symm, rfl⟩
  · cases h

theorem pollSignal_eq : pollSignal s id role =
    match s.sessions.lookup id with
    | none => (none, s)
    | some session =>
      ((session.getSignal role).1,
        { s with sessions := s.sessions.insert id (session.getSignal role).2 }) := by
  unfold pollSignal SignalServer.getSignal
  rcases hl : s.sessions.lookup id with _ | session
  · rfl
  · rcases h : (session.getSignal role).1 with _ | sig <;> simp [h]

theorem cleanup_lookup {now : Nat} {session : Session}
    (h : (s.cleanup now).sessions.lookup id = some session) : s.sessions.lookup id = some session :=
  ((sweep_lookup _ _ id session).mp h).1

end Calls

@[simp] theorem Session.addSignal_host (session : Session) (sig : Option SignalMessage) :
    session.addSignal "host" sig = { session with hostSignals := session.hostSignals ++ [sig] } :=
  if_pos rfl

@[simp] theorem Session.addSignal_joiner (session : Session) (sig : Option SignalMessage) :
    session.addSignal "joiner" sig = { session with joinSignals := session.joinSignals ++ [sig] } :=
  if_neg (by decide)

/-- The host's `GetSignal` when its cursor is at the start. -/
theorem Session.getSignal_host_zero {session : Session} (h : session.hostIndex = 0) :
    session.getSignal "host" = match session.joinSignals with
      | [] => (none, session)
      | sig :: _ => (sig, { session with hostIndex := 1 }) := by
  unfold Session.getSignal
  rw [if_pos rfl]
  cases hj : session.joinSignals <;> simp [hj, h]

theorem Session.getSignal_joiner_zero {session : Session} (h : session.joinIndex = 0) :
    session.getSignal "joiner" = match session.hostSignals with
      | [] => (none, session)
      | sig :: _ => (sig, { session with joinIndex := 1 }) := by
  unfold Session.getSignal
  rw [if_neg (by decide)]
  cases hj : session.hostSignals <;> simp [hj, h]

/-! ## What every interleaving keeps -/

/-- What the host has posted, as its stage says. -/
def HostStage.Posted (offer : SignalMessage) (signals : List (Option SignalMessage)) :
    HostStage → Prop
  | .sendOffer => signals = []
  | .waitAnswer => signals = [some offer]
  | .answered _ => signals = [some offer]
  | .failed _ => signals = [] ∨ signals = [some offer]

/-- What the joiner has posted, as its stage says. -/
def JoinStage.Posted (answer : SignalMessage) (signals : List (Option SignalMessage)) :
    JoinStage → Prop
  | .waitOffer => signals = []
  | .sendAnswer _ => signals = []
  | .answered _ => signals = [some answer]
  | .failed _ => signals = [] ∨ signals = [some answer]

/-- The host has not read a signal yet. -/
def HostStage.Unread : HostStage → Bool
  | .sendOffer | .waitAnswer => true
  | _ => false

/-- The joiner has not read a signal yet. -/
def JoinStage.Unread : JoinStage → Bool
  | .waitOffer => true
  | _ => false

theorem HostStage.Posted.cases {offer : SignalMessage} {signals : List (Option SignalMessage)}
    {stage : HostStage} (h : stage.Posted offer signals) : signals = [] ∨ signals = [some offer] := by
  cases stage <;> simp_all [HostStage.Posted]

theorem JoinStage.Posted.cases {answer : SignalMessage} {signals : List (Option SignalMessage)}
    {stage : JoinStage} (h : stage.Posted answer signals) : signals = [] ∨ signals = [some answer] := by
  cases stage <;> simp_all [JoinStage.Posted]

namespace Exchange

/-- The session's mailboxes and cursors, as the two peers' stages say. -/
structure Mailboxes (offer answer : SignalMessage) (host : HostStage) (joiner : JoinStage)
    (session : Session) : Prop where
  host_posted : host.Posted offer session.hostSignals
  joiner_posted : joiner.Posted answer session.joinSignals
  host_cursor : host.Unread → session.hostIndex = 0
  joiner_cursor : joiner.Unread → session.joinIndex = 0

/-- What every interleaving keeps, for the answers pion makes with `answerSdp`. -/
structure Inv (answerSdp : String → String) (x : Exchange) : Prop where
  offer_type : x.offer.type = "offer"
  mailboxes : ∀ session, x.server.sessions.lookup x.sessionID = some session →
    Mailboxes x.offer (handleOffer answerSdp x.offer) x.host x.joiner session
  host_answered : ∀ a, x.host = .answered a → a = handleOffer answerSdp x.offer
  joiner_offer : ∀ o, x.joiner = .sendAnswer o ∨ x.joiner = .answered o → o = x.offer
  host_failed : ∀ e, x.host = .failed e →
    e = "failed to send offer: signal send failed" ∨
      e = "failed to receive answer: timeout waiting for signal"
  joiner_failed : ∀ e, x.joiner = .failed e →
    e = "failed to receive offer: timeout waiting for signal" ∨
      e = "failed to send answer: signal send failed"

variable {answerSdp : String → String} {x : Exchange}

theorem Inv.hostTurn (hi : x.Inv answerSdp) : x.hostTurn.Inv answerSdp := by
  unfold Exchange.hostTurn
  split
  · -- the offer is posted
    rename_i hh
    split
    · rename_i s' hs
      obtain ⟨session, hl, hl'⟩ := sendSignal_eq_ok hs
      have hm := hi.mailboxes session hl
      refine ⟨hi.offer_type, fun session' h' => ?_, fun _ h => (by cases h), hi.joiner_offer,
        fun _ h => (by cases h), hi.joiner_failed⟩
      rw [hl', Option.some.injEq] at h'
      subst h'
      have hp : session.hostSignals = [] := by simpa [hh, HostStage.Posted] using hm.host_posted
      exact ⟨by simp [HostStage.Posted, hp], hm.joiner_posted,
        fun _ => hm.host_cursor (by simp [hh, HostStage.Unread]), hm.joiner_cursor⟩
    · rename_i e hs
      obtain ⟨rfl, hnone⟩ := sendSignal_eq_error hs
      refine ⟨hi.offer_type, fun session h => by simp [hnone] at h, fun _ h => (by cases h),
        hi.joiner_offer, fun _ h => ?_, hi.joiner_failed⟩
      cases h
      exact .inl rfl
  · -- a poll for the answer
    rename_i hh
    rcases hl : x.server.sessions.lookup x.sessionID with _ | session
    · simp only [pollSignal_eq, hl]
      exact hi
    · have hm := hi.mailboxes session hl
      have h0 := hm.host_cursor (by simp [hh, HostStage.Unread])
      rcases hm.joiner_posted.cases with hj | hj
      · simp only [pollSignal_eq, hl, Session.getSignal_host_zero h0, hj]
        refine ⟨hi.offer_type, fun s' h' => ?_, hi.host_answered, hi.joiner_offer, hi.host_failed,
          hi.joiner_failed⟩
        rw [AList.lookup_insert, Option.some.injEq] at h'
        subst h'
        exact hm
      · simp only [pollSignal_eq, hl, Session.getSignal_host_zero h0, hj, handleOffer_type, if_true]
        refine ⟨hi.offer_type, fun s' h' => ?_, fun a h => ?_, hi.joiner_offer,
          fun _ h => (by cases h), hi.joiner_failed⟩
        · rw [AList.lookup_insert, Option.some.injEq] at h'
          subst h'
          exact ⟨by simpa [hh, HostStage.Posted] using hm.host_posted,
            by simpa [hj] using hm.joiner_posted, fun h => by simp [HostStage.Unread] at h,
            hm.joiner_cursor⟩
        · cases h
          rfl
  · exact hi

theorem Inv.joinerTurn (hi : x.Inv answerSdp) : (x.joinerTurn answerSdp).Inv answerSdp := by
  unfold Exchange.joinerTurn
  split
  · -- a poll for the offer
    rename_i hjs
    rcases hl : x.server.sessions.lookup x.sessionID with _ | session
    · simp only [pollSignal_eq, hl]
      exact hi
    · have hm := hi.mailboxes session hl
      have h0 := hm.joiner_cursor (by simp [hjs, JoinStage.Unread])
      rcases hm.host_posted.cases with hp | hp
      · simp only [pollSignal_eq, hl, Session.getSignal_joiner_zero h0, hp]
        refine ⟨hi.offer_type, fun s' h' => ?_, hi.host_answered, hi.joiner_offer, hi.host_failed,
          hi.joiner_failed⟩
        rw [AList.lookup_insert, Option.some.injEq] at h'
        subst h'
        exact hm
      · simp only [pollSignal_eq, hl, Session.getSignal_joiner_zero h0, hp, hi.offer_type, if_true]
        refine ⟨hi.offer_type, fun s' h' => ?_, hi.host_answered, fun o h => ?_, hi.host_failed,
          fun _ h => (by cases h)⟩
        · rw [AList.lookup_insert, Option.some.injEq] at h'
          subst h'
          exact ⟨by simpa [hp] using hm.host_posted,
            by simpa [hjs, JoinStage.Posted] using hm.joiner_posted, hm.host_cursor,
            fun h => by simp [JoinStage.Unread] at h⟩
        · rcases h with h | h <;> cases h
          rfl
  · -- the answer is posted
    rename_i offer hjs
    have ho : offer = x.offer := hi.joiner_offer offer (.inl hjs)
    split
    · rename_i s' hs
      obtain ⟨session, hl, hl'⟩ := sendSignal_eq_ok hs
      have hm := hi.mailboxes session hl
      refine ⟨hi.offer_type, fun session' h' => ?_, hi.host_answered, fun o h => ?_, hi.host_failed,
        fun _ h => (by cases h)⟩
      · rw [hl', Option.some.injEq] at h'
        subst h'
        have hj : session.joinSignals = [] := by simpa [hjs, JoinStage.Posted] using hm.joiner_posted
        exact ⟨hm.host_posted, by simp [JoinStage.Posted, hj, ho], hm.host_cursor,
          fun h => by simp [JoinStage.Unread] at h⟩
      · rcases h with h | h <;> cases h
        exact ho
    · rename_i e hs
      obtain ⟨rfl, hnone⟩ := sendSignal_eq_error hs
      refine ⟨hi.offer_type, fun session h => by simp [hnone] at h, hi.host_answered, fun o h => ?_,
        hi.host_failed, fun _ h => ?_⟩
      · rcases h with h | h <;> cases h
      · cases h
        exact .inr rfl
  · exact hi

theorem Inv.turn (hi : x.Inv answerSdp) (t : Turn) : (x.turn answerSdp t).Inv answerSdp := by
  cases t with
  | host => exact hi.hostTurn
  | joiner => exact hi.joinerTurn
  | hostTimeout =>
    simp only [Exchange.turn]
    split
    · rename_i hh
      refine ⟨hi.offer_type, fun session h => ?_, fun _ h => (by cases h), hi.joiner_offer,
        fun _ h => ?_, hi.joiner_failed⟩
      · have hm := hi.mailboxes session h
        exact ⟨.inr (by simpa [hh, HostStage.Posted] using hm.host_posted), hm.joiner_posted,
          fun h => by simp [HostStage.Unread] at h, hm.joiner_cursor⟩
      · cases h
        exact .inr rfl
    · exact hi
  | joinerTimeout =>
    simp only [Exchange.turn]
    split
    · rename_i hjs
      refine ⟨hi.offer_type, fun session h => ?_, hi.host_answered, fun _ h => ?_, hi.host_failed,
        fun _ h => ?_⟩
      · have hm := hi.mailboxes session h
        exact ⟨hm.host_posted, .inl (by simpa [hjs, JoinStage.Posted] using hm.joiner_posted),
          hm.host_cursor, fun h => by simp [JoinStage.Unread] at h⟩
      · rcases h with h | h <;> cases h
      · cases h
        exact .inl rfl
    · exact hi
  | cleanup now =>
    exact ⟨hi.offer_type, fun session h => hi.mailboxes session (cleanup_lookup h),
      hi.host_answered, hi.joiner_offer, hi.host_failed, hi.joiner_failed⟩

theorem Inv.run (hi : x.Inv answerSdp) (turns : List Turn) :
    (x.run answerSdp turns).Inv answerSdp := by
  induction turns generalizing x with
  | nil => exact hi
  | cons t turns ih => exact ih (hi.turn t)

end Exchange

end SfoConnectivity.Signal
