import SfoConnectivity.Signal.Server

/-! # The mailboxes deliver every signal once, in order

Seen from one role, a session is a queue and a cursor: the host reads `JoinSignals` from
`HostIndex`, every other role reads `HostSignals` from `JoinIndex`.
-/

namespace SfoConnectivity.Signal

/-- The signals that `GetSignal` with `role` reads. -/
def Session.inbox (session : Session) (role : String) : List (Option SignalMessage) :=
  if role = "host" then session.joinSignals else session.hostSignals

def Session.cursor (session : Session) (role : String) : Nat :=
  if role = "host" then session.hostIndex else session.joinIndex

/-- `AddSignal` with `role` writes to what `r` reads when exactly one of them is the host. -/
def writesTo (role r : String) : Bool := (role == "host") != (r == "host")

/-- `role` and `r` read the same signals. -/
def sameSide (role r : String) : Bool := (role == "host") == (r == "host")

variable (session : Session)

theorem inbox_addSignal (role r : String) (signal : Option SignalMessage) :
    (session.addSignal role signal).inbox r =
      session.inbox r ++ (if writesTo role r then [signal] else []) := by
  by_cases h : role = "host" <;> by_cases h' : r = "host" <;>
    simp [Session.inbox, Session.addSignal, writesTo, h, h']

theorem cursor_addSignal (role r : String) (signal : Option SignalMessage) :
    (session.addSignal role signal).cursor r = session.cursor r := by
  by_cases h : role = "host" <;> by_cases h' : r = "host" <;>
    simp [Session.cursor, Session.addSignal, h, h']

theorem inbox_getSignal (role r : String) :
    (session.getSignal role).2.inbox r = session.inbox r := by
  unfold Session.getSignal
  by_cases h : role = "host" <;> simp only [h, if_true, if_false] <;> split <;>
    simp [Session.inbox]

/-- The cursor of `r` moves by one when a `GetSignal` on its side finds a signal. -/
theorem cursor_getSignal (role r : String) :
    (session.getSignal role).2.cursor r = session.cursor r +
      if sameSide role r ∧ session.cursor role < (session.inbox role).length then 1 else 0 := by
  unfold Session.getSignal
  by_cases h : role = "host" <;> by_cases h' : r = "host" <;>
    simp only [h, h', if_true, if_false] <;> split <;>
    simp_all [Session.cursor, Session.inbox, sameSide]

/-- `GetSignal` returns the slot at its cursor, or nil past the end. -/
theorem getSignal_fst (role : String) :
    (session.getSignal role).1 = ((session.inbox role)[session.cursor role]?).join := by
  unfold Session.getSignal
  by_cases h : role = "host" <;> simp only [h, if_true, if_false] <;> split <;>
    simp_all [Session.inbox, Session.cursor, List.getElem?_eq_none]

theorem inbox_of_sameSide {role r : String} (h : sameSide role r) :
    session.inbox r = session.inbox role ∧ session.cursor r = session.cursor role := by
  by_cases hr : role = "host" <;> by_cases hr' : r = "host" <;>
    simp_all [Session.inbox, Session.cursor, sameSide]

/-! ## Runs on one session -/

inductive MailOp where
  | add (role : String) (signal : Option SignalMessage)
  | get (role : String)

/-- The calls in order. Each `GetSignal` logs its role, what it returned, and whether its
cursor moved. -/
def Session.mail (session : Session) :
    List MailOp → List (String × Option SignalMessage × Bool) × Session
  | [] => ([], session)
  | .add role signal :: ops => (session.addSignal role signal).mail ops
  | .get role :: ops =>
    let r := session.getSignal role
    let rest := r.2.mail ops
    ((role, r.1, decide (session.cursor role < (session.inbox role).length)) :: rest.1, rest.2)

/-- What the run sent to the signals `r` reads. -/
def sends (r : String) : List MailOp → List (Option SignalMessage)
  | [] => []
  | .add role signal :: ops => (if writesTo role r then [signal] else []) ++ sends r ops
  | .get _ :: ops => sends r ops

/-- What the calls on `r`'s side returned when their cursor moved. -/
def receives (r : String) (log : List (String × Option SignalMessage × Bool)) :
    List (Option SignalMessage) :=
  log.filterMap fun e => if e.2.2 && sameSide e.1 r then some e.2.1 else none

theorem inbox_mail (ops : List MailOp) (r : String) :
    (session.mail ops).2.inbox r = session.inbox r ++ sends r ops := by
  induction ops generalizing session with
  | nil => simp [Session.mail, sends]
  | cons op ops ih =>
    cases op with
    | add role signal => simp [Session.mail, sends, ih, inbox_addSignal]
    | get role => simp [Session.mail, sends, ih, inbox_getSignal]

theorem cursor_mail (ops : List MailOp) (r : String) :
    (session.mail ops).2.cursor r = session.cursor r + (receives r (session.mail ops).1).length := by
  induction ops generalizing session with
  | nil => simp [Session.mail, receives]
  | cons op ops ih =>
    cases op with
    | add role signal => simp [Session.mail, ih, cursor_addSignal]
    | get role =>
      simp only [Session.mail, receives, List.filterMap_cons]
      rw [ih, cursor_getSignal]
      by_cases hc : sameSide role r ∧ session.cursor role < (session.inbox role).length
      · simp [hc.1, hc.2, receives]
        omega
      · rcases not_and_or.mp hc with hs | hs <;> simp [hs, receives]

/-- What a side received is the start of what was sent to it, in order, from its first
cursor on. -/
theorem receives_mail (ops : List MailOp) (r : String) :
    receives r (session.mail ops).1 <+: (session.inbox r ++ sends r ops).drop (session.cursor r) := by
  induction ops generalizing session with
  | nil => simp [Session.mail, receives]
  | cons op ops ih =>
    cases op with
    | add role signal =>
      have := ih (session.addSignal role signal)
      rwa [inbox_addSignal, cursor_addSignal, List.append_assoc] at this
    | get role =>
      have ih' := ih (session.getSignal role).2
      rw [inbox_getSignal, cursor_getSignal] at ih'
      by_cases hc : sameSide role r ∧ session.cursor role < (session.inbox role).length
      · obtain ⟨hin, hcur⟩ := inbox_of_sameSide session hc.1
        have hlt : session.cursor r < (session.inbox r ++ sends r ops).length := by
          rw [List.length_append, hin, hcur]; omega
        simp only [Session.mail, receives, List.filterMap_cons, hc.1, hc.2, decide_true_eq_true,
          Bool.and_self, if_true, and_self, sends] at ih' ⊢
        rw [List.drop_eq_getElem_cons hlt, List.cons_prefix_cons]
        refine ⟨?_, ih'⟩
        rw [getSignal_fst, ← hin, ← hcur, List.getElem_append_left (by rw [hin, hcur]; exact hc.2),
          List.getElem?_eq_getElem (by rw [hin, hcur]; exact hc.2)]
        rfl
      · rcases not_and_or.mp hc with hs | hs <;>
          simpa [Session.mail, receives, sends, hs] using ih'

/-! ## Through the server -/

/-- `AddSignal(id, …)` and `GetSignal(id, …)` calls through the server, with the replies of
the gets. -/
def SignalServer.mail (s : SignalServer) (id : String) :
    List MailOp → List (Except String (Option SignalMessage)) × SignalServer
  | [] => ([], s)
  | .add role signal :: ops =>
    match s.addSignal id role signal with
    | .ok s' => s'.mail id ops
    | .error _ => s.mail id ops
  | .get role :: ops =>
    let r := s.getSignal id role
    let rest := r.2.mail id ops
    (r.1 :: rest.1, rest.2)

/-- The server's calls on a session act on its record alone. -/
theorem SignalServer.mail_lookup {s : SignalServer} {id : String} {session : Session}
    (h : s.sessions.lookup id = some session) (ops : List MailOp) :
    (s.mail id ops).2.sessions.lookup id = some (session.mail ops).2 ∧
      (s.mail id ops).1 = (session.mail ops).1.map fun e => .ok e.2.1 := by
  induction ops generalizing s session with
  | nil => exact ⟨h, rfl⟩
  | cons op ops ih =>
    cases op with
    | add role signal =>
      simpa [SignalServer.mail, SignalServer.addSignal, h, Session.mail] using
        ih (s := { s with sessions := s.sessions.insert id (session.addSignal role signal) })
          (AList.lookup_insert _)
    | get role =>
      have := ih (s := { s with sessions := s.sessions.insert id (session.getSignal role).2 })
        (AList.lookup_insert _)
      simp only [SignalServer.mail, SignalServer.getSignal, h, Session.mail, List.map_cons]
      exact ⟨this.1, by rw [this.2]⟩

theorem signals_delivered_once_in_order (srv : SignalServer) (idDraw : Fin 16 → UInt8)
    (codeDraw : Fin 4 → UInt8) (now : Nat) (ops : List MailOp) (r : String) :
    let created := srv.createSession idDraw codeDraw now
    let run := created.1.mail ops
    (created.2.mail created.1.id ops).2.sessions.lookup created.1.id = some run.2 ∧
    (created.2.mail created.1.id ops).1 = run.1.map (fun e => .ok e.2.1) ∧
    receives r run.1 <+: sends r ops ∧
    run.2.inbox r = sends r ops ∧ run.2.cursor r = (receives r run.1).length ∧
    run.2.cursor r ≤ (run.2.inbox r).length ∧
    ((∃ v, (run.2.inbox r)[run.2.cursor r]? = some v ∧ (run.2.getSignal r).1 = v ∧
        (run.2.getSignal r).2.cursor r = run.2.cursor r + 1) ∨
      (receives r run.1 = sends r ops ∧ run.2.getSignal r = (none, run.2))) := by
  intro created run
  have h0 : created.2.sessions.lookup created.1.id = some created.1 := AList.lookup_insert _
  have hin : created.1.inbox r = [] := by
    by_cases h : r = "host" <;> simp [Session.inbox, h, created, SignalServer.createSession]
  have hcur : created.1.cursor r = 0 := by
    by_cases h : r = "host" <;> simp [Session.cursor, h, created, SignalServer.createSession]
  have hpre : receives r run.1 <+: sends r ops := by
    have := receives_mail created.1 ops r
    rwa [hin, hcur, List.nil_append, List.drop_zero] at this
  have hc : run.2.cursor r = (receives r run.1).length := by
    rw [cursor_mail, hcur, Nat.zero_add]
  have hi : run.2.inbox r = sends r ops := by rw [inbox_mail, hin, List.nil_append]
  refine ⟨(SignalServer.mail_lookup h0 ops).1, (SignalServer.mail_lookup h0 ops).2, hpre, hi, hc,
    hc ▸ hi ▸ hpre.length_le, ?_⟩
  by_cases hlt : run.2.cursor r < (run.2.inbox r).length
  · refine .inl ⟨_, List.getElem?_eq_getElem hlt, ?_, ?_⟩
    · rw [getSignal_fst, List.getElem?_eq_getElem hlt]
      rfl
    · rw [cursor_getSignal]
      simp [sameSide, hlt]
  · refine .inr ⟨?_, ?_⟩
    · rw [hi, hc] at hlt
      exact hpre.eq_of_length (by have := hpre.length_le; omega)
    · unfold Session.getSignal
      by_cases h : r = "host" <;>
        simp_all [Session.cursor, Session.inbox]

end SfoConnectivity.Signal
