import Mathlib.Data.List.Basic

/-! # The data channel's read buffer (`src/unnamed/part_001`)

`setupDataChannel` gives every message pion delivers to a handler that puts it in `readBuf`, a
channel of 256 messages. When the channel is full the handler takes the oldest message out and
puts the new one in, as three channel operations of its own: a send that gives up at once, a
receive that gives up at once, and a send that waits. `Read` takes one message and copies what
fits in its buffer, or returns `io.EOF` once `closeCh` is closed; when both are ready Go's
`select` may take either. pion calls the handler for one message at a time, and any goroutine may
`Read` in between its operations.
-/

namespace SfoConnectivity.P2p

/-- `make(chan []byte, 256)`. -/
def readBufCap : Nat := 256

/-- Where the goroutine running the `OnMessage` handler stands. -/
inductive Handler where
  | idle
  /-- Its first send found `readBuf` full. -/
  | dropping (data : List UInt8)
  /-- It is at its last send, `p.readBuf <- msg.Data`. -/
  | sending (data : List UInt8)
  deriving DecidableEq

/-- The message the handler holds. -/
def Handler.held : Handler → List (List UInt8)
  | .idle => []
  | .dropping data => [data]
  | .sending data => [data]

/-- The fields of `PeerConnection` the reading side uses: `readBuf`, oldest message first, the
handler's goroutine, and whether `closeCh` is closed. -/
structure ReadSide where
  readBuf : List (List UInt8)
  handler : Handler
  closed : Bool
  deriving DecidableEq

/-- As `NewPeerConnection` makes it. -/
def newReadSide : ReadSide := ⟨[], .idle, false⟩

inductive DataEvent where
  /-- pion calls the `OnMessage` handler with `msg.Data`. -/
  | message (data : List UInt8)
  /-- The handler's `select { case <-p.readBuf: default: }`. -/
  | drop
  /-- The handler's `p.readBuf <- msg.Data`. -/
  | send
  /-- `Read(b)` with `len(b) = len`; `eofFirst` is the case `select` takes when both are ready. -/
  | read (len : Nat) (eofFirst : Bool)
  /-- `Close()`, which closes `closeCh` once. -/
  | close
  deriving DecidableEq

inductive DataObs where
  | received (data : List UInt8)
  | dropped (data : List UInt8)
  /-- `Read(b)` with `len(b) = len` took `data` out of `readBuf`. -/
  | read (data : List UInt8) (len : Nat)
  | eof
  deriving DecidableEq

/-- The bytes `copy(b, data)` gives the caller of `Read`. -/
def DataObs.bytes : DataObs → List UInt8
  | .read data len => data.take len
  | _ => []

namespace ReadSide

/-- One step of a goroutine, or `none` while it waits. -/
def step (s : ReadSide) : DataEvent → Option (List DataObs × ReadSide)
  | .message data =>
    match s.handler with
    | .idle =>
      if s.readBuf.length < readBufCap then
        some ([.received data], { s with readBuf := s.readBuf ++ [data] })
      else some ([.received data], { s with handler := .dropping data })
    | _ => none
  | .drop =>
    match s.handler, s.readBuf with
    | .dropping data, [] => some ([], { s with handler := .sending data })
    | .dropping data, d :: rest =>
      some ([.dropped d], { s with readBuf := rest, handler := .sending data })
    | _, _ => none
  | .send =>
    match s.handler with
    | .sending data =>
      if s.readBuf.length < readBufCap then
        some ([], { s with readBuf := s.readBuf ++ [data], handler := .idle })
      else none
    | _ => none
  | .read len eofFirst =>
    if s.closed ∧ eofFirst then some ([.eof], s)
    else
      match s.readBuf with
      | d :: rest => some ([.read d len], { s with readBuf := rest })
      | [] => if s.closed then some ([.eof], s) else none
  | .close => some ([], { s with closed := true })

/-- The events in order; one whose goroutine waits is not taken. -/
def run (s : ReadSide) : List DataEvent → List DataObs × ReadSide
  | [] => ([], s)
  | e :: es =>
    match s.step e with
    | none => s.run es
    | some (o, s') => let r := s'.run es; (o ++ r.1, r.2)

end ReadSide

/-! ## What a run shows -/

def DataObs.receivedData : DataObs → Option (List UInt8)
  | .received data => some data
  | _ => none

def DataObs.droppedData : DataObs → Option (List UInt8)
  | .dropped data => some data
  | _ => none

def DataObs.takenData : DataObs → Option (List UInt8)
  | .read data _ => some data
  | _ => none

/-- The messages the handler was given, in order. -/
def received (obs : List DataObs) : List (List UInt8) := obs.filterMap DataObs.receivedData

/-- The messages the handler dropped to make room. -/
def dropped (obs : List DataObs) : List (List UInt8) := obs.filterMap DataObs.droppedData

/-- The messages `Read` took out of `readBuf`. -/
def taken (obs : List DataObs) : List (List UInt8) := obs.filterMap DataObs.takenData

@[simp] theorem received_nil : received [] = [] := rfl
@[simp] theorem dropped_nil : dropped [] = [] := rfl
@[simp] theorem taken_nil : taken [] = [] := rfl

@[simp] theorem received_append (o₁ o₂ : List DataObs) :
    received (o₁ ++ o₂) = received o₁ ++ received o₂ := List.filterMap_append _ _ _
@[simp] theorem dropped_append (o₁ o₂ : List DataObs) :
    dropped (o₁ ++ o₂) = dropped o₁ ++ dropped o₂ := List.filterMap_append _ _ _
@[simp] theorem taken_append (o₁ o₂ : List DataObs) :
    taken (o₁ ++ o₂) = taken o₁ ++ taken o₂ := List.filterMap_append _ _ _

@[simp] theorem received_cons (o : DataObs) (obs : List DataObs) :
    received (o :: obs) = o.receivedData.toList ++ received obs := by
  cases o <;> rfl
@[simp] theorem dropped_cons (o : DataObs) (obs : List DataObs) :
    dropped (o :: obs) = o.droppedData.toList ++ dropped obs := by
  cases o <;> rfl
@[simp] theorem taken_cons (o : DataObs) (obs : List DataObs) :
    taken (o :: obs) = o.takenData.toList ++ taken obs := by
  cases o <;> rfl

/-! ## What a step can do -/

namespace ReadSide

variable {s s' : ReadSide} {e : DataEvent} {o : List DataObs}

/-- Everything a step of a goroutine can do. -/
theorem step_eq_some (h : s.step e = some (o, s')) :
    (∃ data, e = .message data ∧ s.handler = .idle ∧ s.readBuf.length < readBufCap ∧
      o = [.received data] ∧ s' = { s with readBuf := s.readBuf ++ [data] }) ∨
    (∃ data, e = .message data ∧ s.handler = .idle ∧ o = [.received data] ∧
      s' = { s with handler := .dropping data }) ∨
    (∃ data, s.handler = .dropping data ∧ s.readBuf = [] ∧ o = [] ∧
      s' = { s with handler := .sending data }) ∨
    (∃ data d rest, s.handler = .dropping data ∧ s.readBuf = d :: rest ∧ o = [.dropped d] ∧
      s' = { s with readBuf := rest, handler := .sending data }) ∨
    (∃ data, s.handler = .sending data ∧ s.readBuf.length < readBufCap ∧ o = [] ∧
      s' = { s with readBuf := s.readBuf ++ [data], handler := .idle }) ∨
    (∃ len b d rest, e = .read len b ∧ s.readBuf = d :: rest ∧ o = [.read d len] ∧
      s' = { s with readBuf := rest }) ∨
    (o = [.eof] ∧ s' = s) ∨
    (o = [] ∧ s' = { s with closed := true }) := by
  cases e with
  | message data =>
    simp only [step] at h
    split at h
    · split_ifs at h with hl <;> obtain ⟨rfl, rfl⟩ := Prod.mk.inj (Option.some.inj h)
      · exact .inl ⟨data, rfl, ‹_›, hl, rfl, rfl⟩
      · exact .inr (.inl ⟨data, rfl, ‹_›, rfl, rfl⟩)
    · cases h
  | drop =>
    simp only [step] at h
    split at h
    · obtain ⟨rfl, rfl⟩ := Prod.mk.inj (Option.some.inj h)
      exact .inr (.inr (.inl ⟨_, ‹_›, ‹_›, rfl, rfl⟩))
    · obtain ⟨rfl, rfl⟩ := Prod.mk.inj (Option.some.inj h)
      exact .inr (.inr (.inr (.inl ⟨_, _, _, ‹_›, ‹_›, rfl, rfl⟩)))
    · cases h
  | send =>
    simp only [step] at h
    split at h
    · split_ifs at h with hl
      obtain ⟨rfl, rfl⟩ := Prod.mk.inj (Option.some.inj h)
      exact .inr (.inr (.inr (.inr (.inl ⟨_, ‹_›, hl, rfl, rfl⟩))))
    · cases h
  | read len b =>
    simp only [step] at h
    by_cases hc : s.closed = true ∧ b = true
    · rw [if_pos hc] at h
      obtain ⟨rfl, rfl⟩ := Prod.mk.inj (Option.some.inj h)
      exact .inr (.inr (.inr (.inr (.inr (.inr (.inl ⟨rfl, rfl⟩))))))
    · rw [if_neg hc] at h
      split at h
      · obtain ⟨rfl, rfl⟩ := Prod.mk.inj (Option.some.inj h)
        exact .inr (.inr (.inr (.inr (.inr (.inl ⟨len, b, _, _, rfl, ‹_›, rfl, rfl⟩)))))
      · split_ifs at h
        obtain ⟨rfl, rfl⟩ := Prod.mk.inj (Option.some.inj h)
        exact .inr (.inr (.inr (.inr (.inr (.inr (.inl ⟨rfl, rfl⟩))))))
  | close =>
    obtain ⟨rfl, rfl⟩ := Prod.mk.inj (Option.some.inj h)
    exact .inr (.inr (.inr (.inr (.inr (.inr (.inr ⟨rfl, rfl⟩))))))

end ReadSide

/-! ## Every message is accounted for -/

/-- Every message given to the handler is either dropped or kept, and the kept ones, listed in
`kept`, are in the order they came. -/
structure Accounted (obs : List DataObs) (kept : List (List UInt8)) : Prop where
  perm : (received obs).Perm (kept ++ dropped obs)
  order : kept.Sublist (received obs)

section Accounted

variable {obs o : List DataObs} {kept : List (List UInt8)}

theorem Accounted.grow (h : Accounted obs kept) {x : List UInt8} (hr : received o = [x])
    (hd : dropped o = []) : Accounted (obs ++ o) (kept ++ [x]) := by
  refine ⟨?_, ?_⟩
  · rw [received_append, dropped_append, hr, hd, List.append_nil, List.append_assoc]
    exact (h.perm.append_right [x]).trans
      (by rw [List.append_assoc]; exact List.perm_append_comm.append_left kept)
  · rw [received_append, hr]
    exact h.order.append (List.Sublist.refl [x])

theorem Accounted.same (h : Accounted obs kept) (hr : received o = []) (hd : dropped o = []) :
    Accounted (obs ++ o) kept :=
  ⟨by rw [received_append, dropped_append, hr, hd, List.append_nil, List.append_nil]; exact h.perm,
    by rw [received_append, hr, List.append_nil]; exact h.order⟩

theorem Accounted.drop {a b : List (List UInt8)} {d : List UInt8} (h : Accounted obs (a ++ d :: b))
    (hr : received o = []) (hd : dropped o = [d]) : Accounted (obs ++ o) (a ++ b) := by
  refine ⟨?_, ?_⟩
  · rw [received_append, dropped_append, hr, hd, List.append_nil]
    have hmid : List.Perm (a ++ d :: b ++ dropped obs) (a ++ b ++ (dropped obs ++ [d])) := by
      rw [show a ++ d :: b ++ dropped obs = a ++ d :: (b ++ dropped obs) by simp,
        show a ++ b ++ (dropped obs ++ [d]) = a ++ (b ++ dropped obs) ++ [d] by simp]
      exact List.perm_middle.trans (List.perm_append_singleton d _).symm
    exact h.perm.trans hmid
  · rw [received_append, hr, List.append_nil]
    exact ((List.sublist_cons_self d b).append_left a).trans h.order

end Accounted

/-! ## What every run keeps -/

namespace ReadSide

/-- The messages not dropped, in the order they came: those `Read` took, then `readBuf`, then
the one the handler holds. -/
def kept (s : ReadSide) (obs : List DataObs) : List (List UInt8) :=
  taken obs ++ s.readBuf ++ s.handler.held

/-- What every state the goroutines reach keeps, with what they showed on the way there. -/
structure Inv (s : ReadSide) (obs : List DataObs) : Prop where
  bounded : s.readBuf.length ≤ readBufCap
  room : ∀ data, s.handler = .sending data → s.readBuf.length < readBufCap
  accounted : Accounted obs (s.kept obs)

theorem inv_new : newReadSide.Inv [] :=
  ⟨by decide, fun _ h => (by cases h), ⟨by simp [kept, newReadSide, Handler.held],
    by simp [kept, newReadSide, Handler.held]⟩⟩

variable {s s' : ReadSide} {e : DataEvent} {o obs : List DataObs}

theorem Inv.step (hi : s.Inv obs) (h : s.step e = some (o, s')) : s'.Inv (obs ++ o) := by
  rcases step_eq_some h with
    ⟨data, -, hid, hl, rfl, rfl⟩ | ⟨data, -, hid, rfl, rfl⟩ | ⟨data, hd, he, rfl, rfl⟩ |
    ⟨data, d, rest, hd, he, rfl, rfl⟩ | ⟨data, hd, hl, rfl, rfl⟩ |
    ⟨len, b, d, rest, -, he, rfl, rfl⟩ | ⟨rfl, rfl⟩ | ⟨rfl, rfl⟩
  · -- a message that fits
    refine ⟨by simp only [List.length_append, List.length_singleton]; omega,
      fun _ h => by simp [hid] at h, ?_⟩
    simpa [kept, hid, Handler.held] using
      hi.accounted.grow (show received [.received data] = [data] from rfl) rfl
  · -- a message that finds `readBuf` full
    refine ⟨hi.bounded, fun _ h => (by cases h), ?_⟩
    simpa [kept, hid, Handler.held] using
      hi.accounted.grow (show received [.received data] = [data] from rfl) rfl
  · -- nothing to drop
    refine ⟨hi.bounded, fun _ _ => by simp [he, readBufCap], ?_⟩
    simpa [kept, hd, Handler.held] using
      hi.accounted.same (show received [] = [] from rfl) rfl
  · -- the oldest message dropped
    have hb := hi.bounded
    rw [he] at hb
    refine ⟨by simp only [List.length_cons] at hb ⊢; omega,
      fun _ _ => by simp only [List.length_cons] at hb ⊢; omega, ?_⟩
    have hk : s.kept obs = taken obs ++ d :: (rest ++ [data]) := by simp [kept, he, hd, Handler.held]
    have ha := hi.accounted
    rw [hk] at ha
    simpa [kept, Handler.held, List.append_assoc] using
      ha.drop (show received [.dropped d] = [] from rfl) rfl
  · -- the last send
    refine ⟨by simp only [List.length_append, List.length_singleton]; omega,
      fun _ h => (by cases h), ?_⟩
    simpa [kept, hd, Handler.held] using
      hi.accounted.same (show received [] = [] from rfl) rfl
  · -- `Read` takes a message
    have hb := hi.bounded
    rw [he] at hb
    refine ⟨by simp only [List.length_cons] at hb ⊢; omega,
      fun data' h' => ?_, ?_⟩
    · have := hi.room data' h'
      rw [he] at this
      simp only [List.length_cons] at this ⊢
      omega
    · simpa [kept, he] using hi.accounted.same (o := [.read d len]) rfl rfl
  · -- `io.EOF`
    exact ⟨hi.bounded, hi.room, by simpa [kept] using hi.accounted.same (o := [.eof]) rfl rfl⟩
  · -- `Close`
    exact ⟨hi.bounded, hi.room, by simpa [kept] using hi.accounted.same (o := []) rfl rfl⟩

theorem Inv.run (hi : s.Inv obs) (events : List DataEvent) :
    (s.run events).2.Inv (obs ++ (s.run events).1) := by
  induction events generalizing s obs with
  | nil => simpa [ReadSide.run] using hi
  | cons e events ih =>
    rcases h : s.step e with _ | ⟨o, s'⟩
    · simpa [ReadSide.run, h] using ih hi
    · simpa [ReadSide.run, h, List.append_assoc] using ih (hi.step h)

end ReadSide

/-- Under every interleaving of the handler's operations, `Read`s with any buffers and `Close`,
from the state `NewPeerConnection` makes, every message the handler was given is exactly once
taken by a `Read`, dropped, in `readBuf` or held by the handler, and those not dropped are in the
order they came. -/
theorem messages_accounted (events : List DataEvent) :
    (received (newReadSide.run events).1).Perm
      (taken (newReadSide.run events).1 ++ (newReadSide.run events).2.readBuf ++
        (newReadSide.run events).2.handler.held ++ dropped (newReadSide.run events).1) ∧
    (taken (newReadSide.run events).1 ++ (newReadSide.run events).2.readBuf ++
        (newReadSide.run events).2.handler.held).Sublist (received (newReadSide.run events).1) :=
  let h := (ReadSide.inv_new.run events).accounted
  ⟨by simpa [ReadSide.kept] using h.perm, by simpa [ReadSide.kept] using h.order⟩

/-- Under every interleaving, `readBuf` never holds more than 256 messages, and the handler's
last send, `p.readBuf <- msg.Data`, never waits: whenever the handler stands there, the send
goes through at once. -/
theorem handler_never_waits (events : List DataEvent) :
    (newReadSide.run events).2.readBuf.length ≤ readBufCap ∧
    ∀ data, (newReadSide.run events).2.handler = .sending data →
      (newReadSide.run events).2.step .send =
        some ([], { (newReadSide.run events).2 with
          readBuf := (newReadSide.run events).2.readBuf ++ [data], handler := .idle }) := by
  have h := ReadSide.inv_new.run events
  refine ⟨h.bounded, fun data hd => ?_⟩
  simp only [ReadSide.step, hd, if_pos (h.room data hd)]

/-! ## `BridgeToTCP`'s copy to the game

The goroutine that copies the data channel to the game's TCP connection, and the only caller of
`Read`: `n, err := p.Read(buf)` with `buf := make([]byte, 4096)`, then `conn.Write(buf[:n])`,
returning at the first error of either.
-/

/-- `len(buf)` of the copy loop. -/
def copyBufLen : Nat := 4096

/-- Where the copy goroutine stands. -/
inductive CopyPc where
  /-- At `p.Read(buf)`. -/
  | reading
  /-- At `conn.Write(buf[:n])`, with the bytes of `buf[:n]`. -/
  | writing (data : List UInt8)
  /-- Returned: `Read` gave an error. -/
  | readFailed
  /-- Returned: `Write` gave an error. -/
  | writeFailed
  deriving DecidableEq

/-- The bytes the goroutine holds for its next `Write`. -/
def CopyPc.held : CopyPc → List UInt8
  | .writing data => data
  | _ => []

/-- The read side, the copy goroutine, and the bytes the game's connection took. -/
structure Copier where
  side : ReadSide
  pc : CopyPc
  written : List UInt8
  deriving DecidableEq

def newCopier : Copier := ⟨newReadSide, .reading, []⟩

inductive CopyEvent where
  /-- A step of the handler, or `Close`. -/
  | peer (e : DataEvent)
  /-- The goroutine's `p.Read(buf)`; `eofFirst` as in `DataEvent.read`. -/
  | read (eofFirst : Bool)
  /-- What the goroutine's `conn.Write(buf[:n])` returns: `none` for `nil`, `some k` for an
  error after `k` bytes. -/
  | write (w : Option Nat)
  deriving DecidableEq

/-- Where `Read`'s answer sends the goroutine: to `Write` the `n` bytes it copied, or out. -/
def CopyPc.afterRead : List DataObs → CopyPc
  | [.read data len] => .writing (data.take len)
  | _ => .readFailed

namespace Copier

/-- One step of the handler, of `Close` or of the copy goroutine, or `none` while it waits. No
other goroutine calls `Read`. -/
def step (c : Copier) : CopyEvent → Option (List DataObs × Copier)
  | .peer (.read _ _) => none
  | .peer e => (c.side.step e).map fun (o, s) => (o, { c with side := s })
  | .read eofFirst =>
    match c.pc with
    | .reading =>
      (c.side.step (.read copyBufLen eofFirst)).map fun (o, s) =>
        (o, { c with side := s, pc := CopyPc.afterRead o })
    | _ => none
  | .write w =>
    match c.pc with
    | .writing data =>
      some ([], { c with
        pc := if w = none then .reading else .writeFailed
        written := c.written ++ match w with | none => data | some k => data.take k })
    | _ => none

/-- The events in order; one whose goroutine waits is not taken. -/
def run (c : Copier) : List CopyEvent → List DataObs × Copier
  | [] => ([], c)
  | e :: es =>
    match c.step e with
    | none => c.run es
    | some (o, c') => let r := c'.run es; (o ++ r.1, r.2)

variable {c c' : Copier} {e : CopyEvent} {o obs : List DataObs}

/-- Everything a step can do: a step of the read side that is no `Read`, the goroutine's
`Read`, or its `Write`. -/
theorem step_eq_some (h : c.step e = some (o, c')) :
    (∃ d, e = .peer d ∧ (∀ len b, d ≠ .read len b) ∧ c.side.step d = some (o, c'.side) ∧
      c'.pc = c.pc ∧ c'.written = c.written) ∨
    (∃ b, c.pc = .reading ∧ c.side.step (.read copyBufLen b) = some (o, c'.side) ∧
      c'.pc = CopyPc.afterRead o ∧ c'.written = c.written) ∨
    (∃ w data, c.pc = .writing data ∧ o = [] ∧ c'.side = c.side ∧
      c'.pc = (if w = none then .reading else .writeFailed) ∧
      c'.written = c.written ++ match w with | none => data | some k => data.take k) := by
  cases e with
  | peer d =>
    refine .inl ⟨d, rfl, ?_⟩
    cases d <;> simp only [step] at h
    case read => cases h
    all_goals
      obtain ⟨⟨o', s⟩, hs, he⟩ := Option.map_eq_some'.mp h
      cases he
      exact ⟨nofun, hs, rfl, rfl⟩
  | read b =>
    simp only [step] at h
    split at h
    · obtain ⟨⟨o', s⟩, hs, he⟩ := Option.map_eq_some'.mp h
      cases he
      exact .inr (.inl ⟨b, ‹_›, hs, rfl, rfl⟩)
    · cases h
  | write w =>
    simp only [step] at h
    split at h
    · obtain ⟨rfl, rfl⟩ := Prod.mk.inj (Option.some.inj h)
      exact .inr (.inr ⟨w, _, ‹_›, rfl, rfl, rfl, rfl⟩)
    · cases h

end Copier

/-- What every state of the copy keeps, with what the read side showed on the way there: the
read side's own invariant, every `Read` is the goroutine's, every message given to the handler
came from the peer, and what the game's connection took, followed by what the goroutine holds,
is what the `Read`s handed out until a `Write` fails, and a prefix of it after. -/
structure Copier.Inv (events : List CopyEvent) (c : Copier) (obs : List DataObs) : Prop where
  side : c.side.Inv obs
  reads : ∀ data len, .read data len ∈ obs → len = copyBufLen
  fromPeer : ∀ data ∈ received obs, .peer (.message data) ∈ events
  written : c.pc ≠ .writeFailed → c.written ++ c.pc.held = obs.flatMap DataObs.bytes
  failed : c.pc = .writeFailed → c.written <+: obs.flatMap DataObs.bytes

namespace Copier

variable {events : List CopyEvent} {c c' : Copier} {e : CopyEvent} {o obs : List DataObs}

theorem inv_new : newCopier.Inv events [] :=
  ⟨ReadSide.inv_new, by simp, by simp, fun _ => rfl, nofun⟩

/-- A step of the read side that is no `Read` shows no `Read`, hands out no byte, and shows a
message only as the handler is given it. -/
theorem obs_of_not_read {s s' : ReadSide} {d : DataEvent} (hd : ∀ len b, d ≠ .read len b)
    (h : s.step d = some (o, s')) :
    (∀ data len, .read data len ∉ o) ∧ o.flatMap DataObs.bytes = [] ∧
      ∀ data ∈ received o, d = .message data := by
  rcases ReadSide.step_eq_some h with
    ⟨_, rfl, -, -, rfl, -⟩ | ⟨_, rfl, -, rfl, -⟩ | ⟨_, -, -, rfl, -⟩ | ⟨_, _, _, -, -, rfl, -⟩ |
    ⟨_, -, -, rfl, -⟩ | ⟨len, b, _, _, rfl, -, -, -⟩ | ⟨rfl, -⟩ | ⟨rfl, -⟩
  case inr.inr.inr.inr.inr.inl => exact absurd rfl (hd len b)
  all_goals simp [received, DataObs.receivedData, DataObs.bytes]

/-- A `Read` shows one message read into its buffer, or `io.EOF`. -/
theorem read_obs {s s' : ReadSide} {len : Nat} {b : Bool} (h : s.step (.read len b) = some (o, s')) :
    (∃ data, o = [.read data len]) ∨ o = [.eof] := by
  simp only [ReadSide.step] at h
  split_ifs at h <;> (try split at h) <;> cases h <;> simp

theorem Inv.step (hi : c.Inv events obs) (hmem : e ∈ events) (h : c.step e = some (o, c')) :
    c'.Inv events (obs ++ o) := by
  rcases step_eq_some h with ⟨d, rfl, hd, hs, hpc, hw⟩ | ⟨b, hpc, hs, hpc', hw⟩ |
    ⟨w, data, hpc, rfl, hside, hpc', hw⟩
  · -- the handler or `Close`: no byte handed out
    obtain ⟨hno, hnil, hrec⟩ := obs_of_not_read hd hs
    refine ⟨hi.side.step hs, fun data len hm => ?_, fun data hm => ?_, fun hne => ?_,
      fun hf => ?_⟩
    · exact (List.mem_append.mp hm).elim (hi.reads data len) fun hm => absurd hm (hno _ _)
    · rw [received_append, List.mem_append] at hm
      exact hm.elim (hi.fromPeer data) fun hm => hrec data hm ▸ hmem
    · rw [hpc, hw, List.flatMap_append, hnil, List.append_nil]; exact hi.written (hpc ▸ hne)
    · rw [hw, List.flatMap_append, hnil, List.append_nil]; exact hi.failed (hpc ▸ hf)
  · -- the goroutine's `Read`: the bytes it copied are the ones it holds next
    have hw₀ := hi.written (by simp [hpc])
    simp only [hpc, CopyPc.held, List.append_nil] at hw₀
    have hrec : ∀ data ∈ received (obs ++ o), .peer (.message data) ∈ events := by
      rcases read_obs hs with ⟨_, rfl⟩ | rfl <;> simpa [DataObs.receivedData] using hi.fromPeer
    rcases read_obs hs with ⟨data, rfl⟩ | rfl
    · refine ⟨hi.side.step hs, fun d len hm => ?_, hrec, fun _ => ?_,
        fun hf => by simp [hpc', CopyPc.afterRead] at hf⟩
      · simp only [List.mem_append, List.mem_singleton, DataObs.read.injEq] at hm
        exact hm.elim (hi.reads d len) fun h => h.2
      · simp [hpc', CopyPc.afterRead, CopyPc.held, hw, hw₀, DataObs.bytes]
    · refine ⟨hi.side.step hs, by simpa using hi.reads, hrec, fun _ => ?_,
        fun hf => by simp [hpc', CopyPc.afterRead] at hf⟩
      simp [hpc', CopyPc.afterRead, CopyPc.held, hw, hw₀, DataObs.bytes]
  · -- the goroutine's `Write`: the connection takes what it holds, or a prefix of it
    have hw₀ := hi.written (by simp [hpc])
    rw [hpc, CopyPc.held] at hw₀
    rw [List.append_nil]
    cases w with
    | none =>
      have hr : c'.pc = .reading := by simpa using hpc'
      refine ⟨hside ▸ hi.side, hi.reads, hi.fromPeer, fun _ => ?_, fun hf => by simp [hr] at hf⟩
      rw [hr]
      simpa [CopyPc.held, hw] using hw₀
    | some k =>
      have hf : c'.pc = .writeFailed := by simpa using hpc'
      refine ⟨hside ▸ hi.side, hi.reads, hi.fromPeer, fun hne => absurd hf hne, fun _ => ?_⟩
      rw [hw, ← hw₀]
      exact (List.prefix_append_right_inj _).mpr (List.take_prefix k data)

theorem Inv.run (hi : c.Inv events obs) (es : List CopyEvent) (hes : ∀ e ∈ es, e ∈ events) :
    (c.run es).2.Inv events (obs ++ (c.run es).1) := by
  induction es generalizing c obs with
  | nil => simpa [Copier.run] using hi
  | cons e es ih =>
    have hrest := fun e' he' => hes e' (List.mem_cons_of_mem e he')
    rcases h : c.step e with _ | ⟨o, c'⟩
    · simpa [Copier.run, h] using ih hi hrest
    · simpa [Copier.run, h, List.append_assoc] using
        ih (hi.step (hes e (List.mem_cons_self _ _)) h) hrest

end Copier

/-- What the `Read`s of a buffer of `n` bytes hand out: each message they took, cut to `n`. -/
theorem flatMap_bytes_eq {n : Nat} :
    ∀ {obs : List DataObs}, (∀ data len, .read data len ∈ obs → len = n) →
      obs.flatMap DataObs.bytes = ((taken obs).map (·.take n)).flatten
  | [], _ => rfl
  | x :: obs, h => by
    have ih := flatMap_bytes_eq fun data len hm => h data len (List.mem_cons_of_mem _ hm)
    cases x with
    | read data len =>
      obtain rfl := h data len (List.mem_cons_self _ _)
      simp [DataObs.bytes, DataObs.takenData, ih]
    | _ => simpa [DataObs.bytes, DataObs.takenData] using ih

/-- Under every interleaving of the handler, `Close`, and `BridgeToTCP`'s `Read`s and `Write`s,
whatever the game's connection answers, from the state `NewPeerConnection` and `BridgeToTCP`
start in: until a `Write` fails, what the game's connection took, followed by what the goroutine
holds for its next `Write`, is the messages its `Read`s took, in order, each cut to its first
4096 bytes; once a `Write` fails the goroutine has returned, having written a prefix of that.
When the peer sends no message longer than 4096 bytes, as its own `BridgeToTCP` does, no message
is cut. -/
theorem bridge_writes_taken_messages (events : List CopyEvent) :
    ((newCopier.run events).2.pc ≠ .writeFailed →
      (newCopier.run events).2.written ++ (newCopier.run events).2.pc.held =
        ((taken (newCopier.run events).1).map (·.take 4096)).flatten) ∧
    ((newCopier.run events).2.pc = .writeFailed →
      (newCopier.run events).2.written <+:
        ((taken (newCopier.run events).1).map (·.take 4096)).flatten) ∧
    ((∀ data, .peer (.message data) ∈ events → data.length ≤ 4096) →
      (taken (newCopier.run events).1).map (·.take 4096) = taken (newCopier.run events).1) := by
  have hi := Copier.inv_new.run events fun _ h => h
  rw [List.nil_append] at hi
  have hb := flatMap_bytes_eq hi.reads
  refine ⟨fun hne => hb ▸ hi.written hne, fun hf => hb ▸ hi.failed hf, fun hfit => ?_⟩
  refine (List.map_congr_left fun data hd => List.take_of_length_le (hfit data ?_)).trans
    (List.map_id _)
  have hk : data ∈ (newCopier.run events).2.side.kept (newCopier.run events).1 :=
    List.mem_append_left _ (List.mem_append_left _ hd)
  exact hi.fromPeer data (hi.side.accounted.order.subset hk)

/-- Two messages from the peer; the goroutine reads and writes the first, reads the second, and
the game's connection fails after one of its bytes. -/
def twoWrites : List CopyEvent :=
  [.peer (.message [1, 2]), .peer (.message [3, 4]), .read false, .write none, .read false,
    .write (some 1), .read false]

example : (newCopier.run twoWrites).2.written = [1, 2, 3] ∧
    (newCopier.run twoWrites).2.pc = .writeFailed := by
  decide

theorem two_writes_second_fails :
    ((newCopier.run twoWrites).2.pc ≠ .writeFailed →
      (newCopier.run twoWrites).2.written ++ (newCopier.run twoWrites).2.pc.held =
        ((taken (newCopier.run twoWrites).1).map (·.take 4096)).flatten) ∧
    ((newCopier.run twoWrites).2.pc = .writeFailed →
      (newCopier.run twoWrites).2.written <+:
        ((taken (newCopier.run twoWrites).1).map (·.take 4096)).flatten) ∧
    ((∀ data, .peer (.message data) ∈ twoWrites → data.length ≤ 4096) →
      (taken (newCopier.run twoWrites).1).map (·.take 4096) = taken (newCopier.run twoWrites).1) :=
  bridge_writes_taken_messages twoWrites

end SfoConnectivity.P2p
