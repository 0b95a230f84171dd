import Mathlib.Data.List.Basic

/-! # The forwarding loops (`internal/client/bridge/bridge.go`)

`forwardToLocal` and `forwardToRelay` run one loop: read up to 32 KiB from one connection,
add the count to a counter of `stats`, write the bytes to the other connection. A goroutine
running it stands at one of the points of `Fwd`, and each step takes what the environment
answers there: whether `stopCh` is closed, what `Read` returns, what `Write` returns. The
answers range over all that `io.Reader` and `io.Writer` allow: a `Read` may return bytes
together with an error, `io.EOF` included, and a `Write` may fail after any number of the
bytes it was given. The counters are `atomic.Int64`, kept as 64-bit words.
-/

namespace SfoConnectivity.Bridge

/-! ## Counters -/

/-- `Stats` without `StartTime`. -/
structure Stats where
  bytesIn : BitVec 64
  bytesOut : BitVec 64
  lastError : String
  deriving DecidableEq, Repr

/-- `forwardToLocal` reads `relayConn`, writes `localConn` and counts in `BytesIn`;
`forwardToRelay` goes the other way and counts in `BytesOut`. -/
inductive Dir where
  | toLocal
  | toRelay
  deriving DecidableEq, Repr

def Stats.counter (s : Stats) : Dir → BitVec 64
  | .toLocal => s.bytesIn
  | .toRelay => s.bytesOut

/-- `stats.BytesIn.Add(int64(n))`, or `BytesOut`. -/
def Stats.add (s : Stats) (d : Dir) (n : Nat) : Stats :=
  match d with
  | .toLocal => { s with bytesIn := s.bytesIn + .ofNat 64 n }
  | .toRelay => { s with bytesOut := s.bytesOut + .ofNat 64 n }

@[simp] theorem Stats.counter_add (s : Stats) (d : Dir) (n : Nat) :
    (s.add d n).counter d = s.counter d + .ofNat 64 n := by
  cases d <;> rfl

/-! ## One step of the loop -/

inductive ReadError where
  | eof
  | other (msg : String)
  deriving DecidableEq, Repr

/-- What `Read(buf)` returns: the bytes it put in `buf`, and its error. -/
structure ReadResult where
  data : List UInt8
  err : Option ReadError
  deriving DecidableEq, Repr

/-- Where the loop is. -/
inductive Fwd where
  /-- At the `select` on `stopCh`, the top of the loop. -/
  | top
  /-- Past the `select`, in `Read`. -/
  | reading
  /-- `Read` returned `n > 0` bytes and no error; the counter's `Add` is next. -/
  | read (data : List UInt8)
  /-- Added to the counter; `Write(buf[:n])` is next. -/
  | added (data : List UInt8)
  /-- A `Read` or a `Write` failed; `b.Close()` is next. -/
  | closing
  | done
  deriving DecidableEq, Repr

/-- What the environment answers at a point of the loop. -/
inductive Input where
  /-- Whether `stopCh` is closed at the `select`. -/
  | select (stopped : Bool)
  | read (r : ReadResult)
  /-- What `Write(buf[:n])` returns: `none` when it wrote the `n` bytes, `some k` when it
  failed after the first `k` of them. -/
  | write (w : Option Nat)
  /-- A step that takes no answer: the counter's `Add`, `b.Close()`. -/
  | go
  deriving DecidableEq, Repr

/-- What a step does outside the goroutine. -/
inductive Effect where
  | none
  /-- `Read` took these bytes off the source connection. -/
  | took (bytes : List UInt8)
  | add (n : Nat)
  /-- The destination connection took these bytes. -/
  | wrote (bytes : List UInt8)
  /-- `b.Close()`. -/
  | close
  deriving DecidableEq, Repr

/-- One step of the loop; `none` when the answer is not one the point takes. -/
def Fwd.step : Fwd → Input → Option (Fwd × Effect)
  | .top, .select stopped => some (if stopped then .done else .reading, .none)
  | .reading, .read r =>
    match r.err with
    | some _ => some (.closing, .took r.data)
    | none => some (if r.data.length > 0 then .read r.data else .top, .took r.data)
  | .read data, .go => some (.added data, .add data.length)
  | .added data, .write none => some (.top, .wrote data)
  | .added data, .write (some k) => some (.closing, .wrote (data.take k))
  | .closing, .go => some (.done, .close)
  | _, _ => none

/-! ## The loop on its own -/

/-- One loop with what it touches: the bytes `Read` returned so far, the bytes the
destination took so far, and the counters. -/
structure Pipe where
  taken : List UInt8
  written : List UInt8
  stats : Stats
  deriving DecidableEq, Repr

def Pipe.apply (d : Dir) (p : Pipe) : Effect → Pipe
  | .took bytes => { p with taken := p.taken ++ bytes }
  | .add n => { p with stats := p.stats.add d n }
  | .wrote bytes => { p with written := p.written ++ bytes }
  | .none | .close => p

/-- The loop over the answers of a run; `none` when one of them does not fit its point. -/
def forward (d : Dir) : Fwd → Pipe → List Input → Option (Fwd × Pipe)
  | pc, p, [] => some (pc, p)
  | pc, p, i :: is => (pc.step i).bind fun (pc', e) => forward d pc' (p.apply d e) is

def forwardToLocal : Fwd → Pipe → List Input → Option (Fwd × Pipe) := forward .toLocal

def forwardToRelay : Fwd → Pipe → List Input → Option (Fwd × Pipe) := forward .toRelay

/-- An answer that loses bytes: a `Read` that returns bytes with an error, a `Write` that
stops short. -/
def Fwd.lossy : Fwd → Input → Bool
  | .reading, .read r => r.err.isSome && !r.data.isEmpty
  | .added data, .write (some k) => decide (k < data.length)
  | _, _ => false

/-- No answer of the run loses bytes. -/
def Fwd.lossless : Fwd → List Input → Bool
  | _, [] => true
  | pc, i :: is => !pc.lossy i &&
    match pc.step i with
    | some (pc', _) => pc'.lossless is
    | none => true

/-- Between two iterations: not between a `Read` and its `Write`. -/
def Fwd.between : Fwd → Bool
  | .read _ | .added _ => false
  | _ => true

/-! ## What a lossless run keeps -/

/-- Every byte read has been written, but for the bytes of the iteration under way, and
the counter has grown by the bytes written and those already added for the `Write` next. -/
def Fwd.Inv (d : Dir) (c₀ : BitVec 64) : Fwd → Pipe → Prop
  | .read data, p =>
    p.written ++ data = p.taken ∧ p.stats.counter d = c₀ + .ofNat 64 p.written.length
  | .added data, p =>
    p.written ++ data = p.taken ∧
      p.stats.counter d = c₀ + .ofNat 64 (p.written.length + data.length)
  | _, p => p.written = p.taken ∧ p.stats.counter d = c₀ + .ofNat 64 p.written.length

variable {d : Dir} {c₀ : BitVec 64} {pc pc' : Fwd} {p p' : Pipe} {i : Input} {e : Effect}

theorem Fwd.inv_step (hi : pc.Inv d c₀ p) (h : pc.step i = some (pc', e))
    (hl : pc.lossy i = false) : pc'.Inv d c₀ (p.apply d e) := by
  match pc, i, h with
  | .top, .select stopped, h =>
    obtain ⟨rfl, rfl⟩ := Prod.mk.inj (Option.some.inj h)
    cases stopped <;> exact hi
  | .reading, .read ⟨data, err⟩, h =>
    obtain ⟨hw, hc⟩ := hi
    cases err with
    | some _ =>
      obtain ⟨rfl, rfl⟩ := Prod.mk.inj (Option.some.inj h)
      simp only [Fwd.lossy, Option.isSome_some, Bool.true_and, Bool.not_eq_false',
        List.isEmpty_iff] at hl
      exact ⟨by simp [Pipe.apply, hw, hl], hc⟩
    | none =>
      obtain ⟨rfl, rfl⟩ := Prod.mk.inj (Option.some.inj h)
      by_cases hn : data.length > 0
      · simp only [hn, if_true]
        exact ⟨by simp [Pipe.apply, hw], hc⟩
      · obtain rfl : data = [] := List.eq_nil_of_length_eq_zero (by omega)
        exact ⟨by simp [Pipe.apply, hw], hc⟩
  | .read data, .go, h =>
    obtain ⟨rfl, rfl⟩ := Prod.mk.inj (Option.some.inj h)
    exact ⟨hi.1, by simp [Pipe.apply, hi.2, BitVec.ofNat_add, BitVec.add_assoc]⟩
  | .added data, .write none, h =>
    obtain ⟨rfl, rfl⟩ := Prod.mk.inj (Option.some.inj h)
    exact ⟨hi.1, by simpa [Pipe.apply] using hi.2⟩
  | .added data, .write (some k), h =>
    obtain ⟨rfl, rfl⟩ := Prod.mk.inj (Option.some.inj h)
    have hk : data.take k = data := List.take_of_length_le (by simpa [Fwd.lossy] using hl)
    exact ⟨by simpa [Pipe.apply, hk] using hi.1, by simpa [Pipe.apply, hk] using hi.2⟩
  | .closing, .go, h =>
    obtain ⟨rfl, rfl⟩ := Prod.mk.inj (Option.some.inj h)
    exact hi

/-- A lossy answer leaves bytes that were read and never written, and sends the loop to
`b.Close()`. -/
theorem Fwd.lossy_step (hi : pc.Inv d c₀ p) (h : pc.step i = some (pc', e))
    (hl : pc.lossy i = true) : pc' = .closing ∧ (p.apply d e).written ≠ (p.apply d e).taken := by
  match pc, i, h with
  | .reading, .read ⟨data, some _⟩, h =>
    obtain ⟨rfl, rfl⟩ := Prod.mk.inj (Option.some.inj h)
    have hne : data ≠ [] := by simpa [Fwd.lossy] using hl
    refine ⟨rfl, fun hw => hne ?_⟩
    simpa [Pipe.apply, hi.1] using hw
  | .added data, .write (some k), h =>
    obtain ⟨rfl, rfl⟩ := Prod.mk.inj (Option.some.inj h)
    have hk : k < data.length := by simpa [Fwd.lossy] using hl
    refine ⟨rfl, fun hw => ?_⟩
    have := congrArg List.length hw
    simp only [Pipe.apply, ← hi.1, List.length_append, List.length_take] at this
    omega

/-- From `b.Close()` on, the loop only returns. -/
theorem forward_closing {is : List Input} (h : forward d .closing p is = some (pc', p')) :
    p'.written = p.written ∧ p'.taken = p.taken := by
  match is, h with
  | [], h => cases h; exact ⟨rfl, rfl⟩
  | [.go], h => cases h; exact ⟨rfl, rfl⟩
  | .go :: _ :: _, h => simp [forward, Fwd.step] at h
  | .select _ :: _, h | .read _ :: _, h | .write _ :: _, h => simp [forward, Fwd.step] at h

theorem forward_inv {is : List Input} (hi : pc.Inv d c₀ p)
    (h : forward d pc p is = some (pc', p')) (hl : pc.lossless is = true) :
    pc'.Inv d c₀ p' := by
  induction is generalizing pc p with
  | nil => cases h; exact hi
  | cons i is ih =>
    obtain ⟨⟨pc₁, e⟩, hs, h⟩ := Option.bind_eq_some.mp h
    simp only [Fwd.lossless, hs, Bool.and_eq_true, Bool.not_eq_true'] at hl
    exact ih (Fwd.inv_step hi hs hl.1) h hl.2

theorem forward_lossy {is : List Input} (hi : pc.Inv d c₀ p)
    (h : forward d pc p is = some (pc', p')) (hl : pc.lossless is = false) :
    p'.written ≠ p'.taken := by
  induction is generalizing pc p with
  | nil => simp [Fwd.lossless] at hl
  | cons i is ih =>
    obtain ⟨⟨pc₁, e⟩, hs, h⟩ := Option.bind_eq_some.mp h
    cases hli : pc.lossy i with
    | true =>
      obtain ⟨rfl, hne⟩ := Fwd.lossy_step hi hs hli
      obtain ⟨hw, ht⟩ := forward_closing h
      rwa [hw, ht]
    | false =>
      simp only [Fwd.lossless, hs, hli, Bool.not_false, Bool.true_and] at hl
      exact ih (Fwd.inv_step hi hs hli) h hl

/-- Between two iterations of any run of `forwardToLocal` or `forwardToRelay`, the bytes
written are exactly the bytes read and the counter has grown by their number, if and only
if no `Read` of the run returned bytes with an error and no `Write` stopped short. -/
theorem forward_exact_iff_lossless (d : Dir) (s : Stats) {is : List Input}
    (h : forward d .top ⟨[], [], s⟩ is = some (pc', p')) (hb : pc'.between = true) :
    (p'.written = p'.taken ∧ p'.stats.counter d = s.counter d + .ofNat 64 p'.written.length) ↔
      Fwd.top.lossless is = true := by
  have h₀ : Fwd.top.Inv d (s.counter d) ⟨[], [], s⟩ := ⟨rfl, by simp⟩
  constructor
  · intro hw
    by_contra hl
    exact forward_lossy h₀ h (by simpa using hl) hw.1
  · intro hl
    have hi := forward_inv h₀ h hl
    match pc', hb, hi with
    | .top, _, hi | .reading, _, hi | .closing, _, hi | .done, _, hi => exact hi

/-- Two runs the contracts allow: the last `Read` returns a byte with `io.EOF`, and the loop
closes the bridge without writing it; a `Write` of two bytes fails after one, and the
counter has two. -/
theorem lossy_runs_break_forwarding :
    (forwardToLocal .top ⟨[], [], ⟨0, 0, ""⟩⟩ [.select false, .read ⟨[7], some .eof⟩, .go] =
        some (.done, ⟨[7], [], ⟨0, 0, ""⟩⟩) ∧
      (([] : List UInt8) = [7] ∧ (0 : BitVec 64) = 0 + .ofNat 64 0 ↔
        Fwd.top.lossless [.select false, .read ⟨[7], some .eof⟩, .go] = true)) ∧
    (forwardToLocal .top ⟨[], [], ⟨0, 0, ""⟩⟩
        [.select false, .read ⟨[7, 8], none⟩, .go, .write (some 1), .go] =
        some (.done, ⟨[7, 8], [7], ⟨2, 0, ""⟩⟩) ∧
      (([7] : List UInt8) = [7, 8] ∧ (2 : BitVec 64) = 0 + .ofNat 64 1 ↔
        Fwd.top.lossless [.select false, .read ⟨[7, 8], none⟩, .go, .write (some 1), .go] = true)) := by
  have h₁ : forwardToLocal .top ⟨[], [], ⟨0, 0, ""⟩⟩ [.select false, .read ⟨[7], some .eof⟩, .go] =
      some (.done, ⟨[7], [], ⟨0, 0, ""⟩⟩) := rfl
  have h₂ : forwardToLocal .top ⟨[], [], ⟨0, 0, ""⟩⟩
      [.select false, .read ⟨[7, 8], none⟩, .go, .write (some 1), .go] =
      some (.done, ⟨[7, 8], [7], ⟨2, 0, ""⟩⟩) := rfl
  exact ⟨⟨h₁, forward_exact_iff_lossless .toLocal _ h₁ rfl⟩,
    ⟨h₂, forward_exact_iff_lossless .toLocal _ h₂ rfl⟩⟩

end SfoConnectivity.Bridge
