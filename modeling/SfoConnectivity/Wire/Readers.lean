import SfoConnectivity.Auth.JsonScan

/-! # Reading a frame through a buffer: `json.Decoder` and `bufio.Reader`

Both readers fill a buffer by `Read`s on the connection, and a `Read` returns what the
connection holds at that moment, up to the buffer's free space (512 bytes or more for the
decoder, 4096 for `bufio`). A stream is the list of what successive `Read`s return; the model
takes it as given, and past its last chunk `Read` returns `io.EOF`. A reader takes whole chunks:
what it buffered past its frame stays in its buffer, and what it did not read stays on the
connection.
-/

namespace SfoConnectivity.Wire

open SfoConnectivity.Auth

/-! ## Taking whole chunks -/

/-- A reader that takes whole chunks until it holds `n` bytes: what the last chunk it took
holds past them, and the chunks it leaves on the connection. -/
def cut : Nat → List (List UInt8) → List UInt8 × List (List UInt8)
  | _, [] => ([], [])
  | n, c :: cs => if n ≤ c.length then (c.drop n, cs) else cut (n - c.length) cs

theorem cut_cons_of_le {n : Nat} {c : List UInt8} (cs : List (List UInt8)) (h : n ≤ c.length) :
    cut n (c :: cs) = (c.drop n, cs) := if_pos h

theorem cut_cons_of_lt {n : Nat} {c : List UInt8} (cs : List (List UInt8)) (h : c.length < n) :
    cut n (c :: cs) = cut (n - c.length) cs := if_neg (by omega)

/-- The stream cut into reads of one byte each. -/
def bytewise (l : List UInt8) : List (List UInt8) := l.map fun b => [b]

theorem flatten_bytewise (l : List UInt8) : (bytewise l).flatten = l := by
  induction l with
  | nil => rfl
  | cons b l ih => rw [bytewise, List.map_cons, List.flatten_cons, ← bytewise, ih]; rfl

/-- One-byte reads bring a reader exactly to its count. -/
theorem cut_bytewise_append (l : List UInt8) {n : Nat} (hn : 0 < n) (cs : List (List UInt8)) :
    cut (l.length + n) (bytewise l ++ cs) = cut n cs := by
  induction l with
  | nil => rw [List.length_nil, Nat.zero_add]; rfl
  | cons b l ih =>
    rw [bytewise, List.map_cons, List.cons_append, ← bytewise,
      cut_cons_of_lt _ (by simp; omega), List.length_cons, List.length_singleton,
      show l.length + 1 + n - 1 = l.length + n by omega, ih]

/-- The reader's buffer and the connection together hold the stream past the frame. -/
theorem cut_flatten {n : Nat} {cs : List (List UInt8)} (h : n ≤ cs.flatten.length) :
    (cut n cs).1 ++ (cut n cs).2.flatten = cs.flatten.drop n := by
  induction cs generalizing n with
  | nil => simp_all [cut]
  | cons c cs ih =>
    rw [List.flatten_cons] at *
    by_cases hn : n ≤ c.length
    · rw [cut_cons_of_le cs hn, List.drop_append_of_le_length hn]
    · have hn' : c.length < n := by omega
      rw [List.length_append] at h
      rw [cut_cons_of_lt cs hn', ih (by omega), List.drop_append_eq_append_drop,
        List.drop_eq_nil_of_le hn'.le, List.nil_append]

/-- Nothing stays buffered exactly when the stream has a chunk boundary after `n` bytes. -/
theorem cut_fst_eq_nil_iff {n : Nat} {cs : List (List UInt8)} (hn : 0 < n)
    (h : n ≤ cs.flatten.length) :
    (cut n cs).1 = [] ↔ ∃ k, (cs.take k).flatten.length = n := by
  induction cs generalizing n with
  | nil => simp at h; omega
  | cons c cs ih =>
    have htake : ∀ k, ((c :: cs).take (k + 1)).flatten.length =
        c.length + (cs.take k).flatten.length := fun k => by
      rw [List.take_succ_cons, List.flatten_cons, List.length_append]
    rw [List.flatten_cons, List.length_append] at h
    by_cases hc : n ≤ c.length
    · rw [cut_cons_of_le cs hc, List.drop_eq_nil_iff]
      constructor
      · exact fun h => ⟨1, by rw [htake]; simp; omega⟩
      · rintro ⟨_ | k, hk⟩
        · simp at hk; omega
        · rw [htake] at hk; omega
    · have hc' : c.length < n := by omega
      rw [cut_cons_of_lt cs hc', ih (Nat.sub_pos_of_lt hc') (by omega)]
      constructor
      · rintro ⟨k, hk⟩
        exact ⟨k + 1, by rw [htake, hk]; omega⟩
      · rintro ⟨_ | k, hk⟩
        · simp at hk; omega
        · exact ⟨k, by rw [htake] at hk; omega⟩

/-- A buffered byte past `n` is the first byte past `n + 1` too: the same chunk ends both. -/
theorem cut_succ {n : Nat} {cs : List (List UInt8)} (h : (cut n cs).1 ≠ []) :
    cut (n + 1) cs = ((cut n cs).1.drop 1, (cut n cs).2) := by
  induction cs generalizing n with
  | nil => simp [cut] at h
  | cons c cs ih =>
    by_cases hc : n ≤ c.length
    · rw [cut_cons_of_le cs hc] at *
      have hc' : n + 1 ≤ c.length := by simp at h; omega
      rw [cut_cons_of_le cs hc', List.drop_drop, Nat.add_comm]
    · have hc' : c.length < n := by omega
      rw [cut_cons_of_lt cs hc'] at *
      rw [cut_cons_of_lt cs (by omega : c.length < n + 1),
        show n + 1 - c.length = n - c.length + 1 by omega, ih h]

/-- A chunk boundary after as many bytes as a prefix of the stream has is that prefix. -/
theorem flatten_take_eq_iff {cs : List (List UInt8)} {pre rest : List UInt8} (k : Nat)
    (h : cs.flatten = pre ++ rest) :
    (cs.take k).flatten.length = pre.length ↔ (cs.take k).flatten = pre := by
  refine ⟨fun hk => ?_, fun hk => hk ▸ rfl⟩
  have hpre : (cs.take k).flatten <+: pre ++ rest :=
    ⟨(cs.drop k).flatten, by rw [← List.flatten_append, List.take_append_drop, h]⟩
  exact (List.prefix_of_prefix_length_le hpre (List.prefix_append _ _) hk.le).eq_of_length hk

/-- Of two splits of one list, the longer first part extends the shorter. -/
theorem exists_append_of_length_le {α : Type} {a b c d : List α} (h : a ++ b = c ++ d)
    (hl : c.length ≤ a.length) : ∃ w, a = c ++ w := by
  obtain ⟨w, hw⟩ := List.prefix_of_prefix_length_le (List.prefix_append c d)
    (h ▸ List.prefix_append a b) hl
  exact ⟨w, hw.symm⟩

/-- A reader that finishes inside a chunk holding its frame's end, and otherwise takes the
whole chunk and goes on, takes whole chunks up to the frame's end and leaves the rest. `E st body`
says that from state `st` the frame ends with `body ++ [close]`. -/
theorem reads_whole_chunks {σ : Type}
    (R : σ → List UInt8 → List (List UInt8) →
      Except String (List UInt8 × List UInt8 × List (List UInt8)))
    (E : σ → List UInt8 → Prop) {close : UInt8}
    (hend : ∀ st body w acc chunks, E st body →
      R st acc ((body ++ close :: w) :: chunks) = .ok (acc ++ body ++ [close], w, chunks))
    (hmore : ∀ st chunk body acc chunks, E st (chunk ++ body) →
      ∃ st', E st' body ∧ R st acc (chunk :: chunks) = R st' (acc ++ chunk) chunks)
    (st : σ) {body : List UInt8} (h : E st body) (acc rest : List UInt8)
    {chunks : List (List UInt8)} (hc : chunks.flatten = body ++ close :: rest) :
    R st acc chunks = .ok (acc ++ body ++ [close], cut (body.length + 1) chunks) := by
  induction chunks generalizing st body acc with
  | nil => simp at hc
  | cons chunk chunks ih =>
    rw [List.flatten_cons] at hc
    by_cases hn : body.length + 1 ≤ chunk.length
    · -- the chunk holds the frame's end
      have hc' : chunk ++ chunks.flatten = (body ++ [close]) ++ rest := by simp [hc]
      obtain ⟨w, rfl⟩ := exists_append_of_length_le hc' (by simpa using hn)
      rw [List.append_assoc, List.singleton_append, hend _ _ w acc chunks h,
        cut_cons_of_le _ (by simp)]
      simp [List.take_append_eq_append_take]
    · -- the chunk is all frame
      obtain ⟨body', rfl⟩ := exists_append_of_length_le hc.symm (by simp at hn ⊢; omega)
      obtain ⟨st', h', hR⟩ := hmore _ chunk _ acc chunks h
      rw [List.append_assoc, List.append_cancel_left_eq] at hc
      rw [hR, ih st' h' _ hc, cut_cons_of_lt _ (by simp at hn ⊢; omega),
        show (chunk ++ body').length + 1 - chunk.length = body'.length + 1 by simp; omega]
      simp

/-! ## `json.Decoder` -/

/-- The codes of `scanner.step` that `Decoder.readValue` tells apart. -/
inductive ScanCode
  /-- `scanEnd`: the top-level value ended before the byte. -/
  | scanEnd
  /-- `scanEndObject` or `scanEndArray` that leaves the stack empty: the value ends with the
  byte. -/
  | scanEndTop
  | scanError (err : String)
  /-- Any other code, with the scanner's next state. -/
  | scanContinue (s : Scanner)
  deriving DecidableEq, Repr

/-- A space would end the value. -/
def spaceEnds (s : Scanner) : Bool :=
  match s.next 32 with
  | .ok s' => s'.endTop
  | .error _ => false

/-- The code of `s.step(s, c)`. `step` returns `scanEnd` only from `stateEndTop`, entered from
`stateEndValue` on an empty stack, and the scanner sets `endTop` on the way there; a closing
bracket that empties the stack sets it in `popParseState`. A byte that cannot follow a finished
number, string or literal makes `stateEndTop` return `scanEnd` and keep the error for the next
call; the model's scanner reports it at once, so that case is told by a space ending the
value. -/
def scanCode (s : Scanner) (c : UInt8) : ScanCode :=
  match s.next c with
  | .ok s' =>
    if s'.endTop then (if s.parseState = [] then .scanEnd else .scanEndTop) else .scanContinue s'
  | .error e => if s.parseState = [] ∧ spaceEnds s then .scanEnd else .scanError e

/-- What the inner loop of `readValue` makes of the bytes one `Read` brought. -/
inductive Scanned
  /-- The value ends after the first `n` of them. -/
  | ended (n : Nat)
  /-- The value goes on, from this scanner. -/
  | more (s : Scanner)
  | failed (err : String)
  deriving DecidableEq, Repr

/-- The same outcome, `k` bytes later. -/
def Scanned.shift (k : Nat) : Scanned → Scanned
  | .ended n => .ended (n + k)
  | r => r

/-- The inner loop of `readValue`: `switch dec.scan.step(&dec.scan, c)` over the new bytes. -/
def scanValue (s : Scanner) : List UInt8 → Scanned
  | [] => .more s
  | c :: cs =>
    match scanCode s c with
    | .scanEnd => .ended 0
    | .scanEndTop => .ended 1
    | .scanError e => .failed e
    | .scanContinue s' => (scanValue s' cs).shift 1

/-- `Decoder.readValue` with its `refill`s, from an empty buffer and with the value read so
far in `buf`: the bytes of the value, the bytes buffered after it, and the chunks left on the
connection. At `io.EOF` a space that ends the value ends it there (`nonSpace` picks the
error). -/
def readValue (s : Scanner) (buf : List UInt8) :
    List (List UInt8) → Except String (List UInt8 × List UInt8 × List (List UInt8))
  | [] =>
    match scanCode s 32 with
    | .scanEnd => .ok (buf, [], [])
    | _ => .error (if buf.any (!isSpace ·) then "unexpected EOF" else "EOF")
  | chunk :: chunks =>
    match scanValue s chunk with
    | .ended n => .ok (buf ++ chunk.take n, chunk.drop n, chunks)
    | .more s' => readValue s' (buf ++ chunk) chunks
    | .failed e => .error e

/-- `json.NewDecoder(conn).Decode(v)` as far as bytes go: the value handed to `Unmarshal`, the
bytes left in the decoder's buffer, and the chunks left on the connection. -/
def decode (chunks : List (List UInt8)) :
    Except String (List UInt8 × List UInt8 × List (List UInt8)) :=
  readValue .reset [] chunks

example : decode [[123, 125, 10], [1]] = .ok ([123, 125], [10], [[1]]) := rfl
example : decode [[49, 50], [32]] = .ok ([49, 50], [32], []) := rfl
example : decode [[123]] = .error "unexpected EOF" := rfl

/-! ## The value ends where the scanner closes it -/

theorem Scanned.shift_zero (r : Scanned) : r.shift 0 = r := by cases r <;> rfl

theorem Scanned.shift_shift (r : Scanned) (k l : Nat) : (r.shift k).shift l = r.shift (k + l) := by
  cases r <;> simp only [Scanned.shift, Nat.add_assoc]

theorem scanValue_cons_continue {s s₁ : Scanner} {c : UInt8} (hc : s.next c = .ok s₁)
    (ht : s₁.endTop = false) (cs : List UInt8) :
    scanValue s (c :: cs) = (scanValue s₁ cs).shift 1 := by
  simp only [scanValue, scanCode, hc, ht, Bool.false_eq_true, if_false]

/-- Bytes the scanner goes through without ending the value are taken one by one. -/
theorem scanValue_append {s s' : Scanner} {u : List UInt8} (h : s.scan u = .ok s')
    (ht : s'.endTop = false) (w : List UInt8) :
    scanValue s (u ++ w) = (scanValue s' w).shift u.length := by
  induction u generalizing s with
  | nil =>
    cases h
    rw [List.nil_append, List.length_nil, Scanned.shift_zero]
  | cons c u ih =>
    cases hc : s.next c with
    | ok s₁ =>
      rw [Scanner.scan_cons_ok hc] at h
      rw [List.cons_append, scanValue_cons_continue hc (Scanner.endTop_false_of_scan h ht), ih h,
        Scanned.shift_shift, List.length_cons]
    | error e => simp [Scanner.scan, hc] at h

/-- From `s` the scanner goes through `body` without ending the value, and `close` then
empties its stack: `body ++ [close]` is a whole object or array. -/
def Closes (s : Scanner) (body : List UInt8) (close : UInt8) : Prop :=
  ∃ s₁ s₂, s.scan body = .ok s₁ ∧ s₁.endTop = false ∧ s₁.parseState ≠ [] ∧
    s₁.next close = .ok s₂ ∧ s₂.endTop = true

theorem scanValue_cons_closes {s s₁ : Scanner} {c : UInt8} (hc : s.next c = .ok s₁)
    (ht : s₁.endTop = true) (hp : s.parseState ≠ []) (cs : List UInt8) :
    scanValue s (c :: cs) = .ended 1 := by
  simp only [scanValue, scanCode, hc, ht, hp, if_true, if_false]

theorem scanValue_closes {s : Scanner} {body : List UInt8} {close : UInt8}
    (h : Closes s body close) (w : List UInt8) :
    scanValue s (body ++ close :: w) = .ended (body.length + 1) := by
  obtain ⟨s₁, s₂, h₁, ht₁, hp₁, h₂, ht₂⟩ := h
  rw [scanValue_append h₁ ht₁, scanValue_cons_closes h₂ ht₂ hp₁, Scanned.shift,
    Nat.add_comm]

/-- The decoder takes whole chunks until the value has closed, and leaves the rest. -/
theorem readValue_closes {s : Scanner} {body : List UInt8} {close : UInt8}
    (h : Closes s body close) (buf rest : List UInt8) {chunks : List (List UInt8)}
    (hc : chunks.flatten = body ++ close :: rest) :
    readValue s buf chunks = .ok (buf ++ body ++ [close], cut (body.length + 1) chunks) := by
  refine reads_whole_chunks readValue (fun s body => Closes s body close)
    (fun s body w acc chunks h => ?_) (fun s chunk body acc chunks h => ?_) s h buf rest hc
  · rw [readValue, scanValue_closes h]
    simp [List.take_append_eq_append_take]
  · obtain ⟨s₁, s₂, h₁, ht₁, hp₁, h₂, ht₂⟩ := h
    obtain ⟨s', hs', h₁'⟩ := Scanner.scan_append_ok h₁
    have hmore : scanValue s chunk = .more s' := by
      simpa using scanValue_append hs' (Scanner.endTop_false_of_scan h₁' ht₁) []
    exact ⟨s', ⟨s₁, s₂, h₁', ht₁, hp₁, h₂, ht₂⟩, by rw [readValue, hmore]⟩

/-! ## `bufio.Reader.ReadBytes` -/

/-- `reader.ReadBytes(delim)` on a new `bufio.Reader`, with the line read so far in `line`:
the line through the first `delim`, the bytes buffered after it, and the chunks left on the
connection. `io.EOF` before a `delim` ends it with that error. -/
def readBytes (delim : UInt8) (line : List UInt8) :
    List (List UInt8) → Except String (List UInt8 × List UInt8 × List (List UInt8))
  | [] => .error "EOF"
  | chunk :: chunks =>
    if delim ∈ chunk then
      let i := chunk.indexOf delim
      .ok (line ++ chunk.take (i + 1), chunk.drop (i + 1), chunks)
    else readBytes delim (line ++ chunk) chunks

example : readBytes 10 [] [[1, 2], [10, 3]] = .ok ([1, 2, 10], [3], []) := rfl

/-- The reader takes whole chunks until it holds the line, and leaves the rest. -/
theorem readBytes_line {delim : UInt8} {body : List UInt8} (hb : delim ∉ body)
    (line rest : List UInt8) {chunks : List (List UInt8)}
    (hc : chunks.flatten = body ++ delim :: rest) :
    readBytes delim line chunks = .ok (line ++ body ++ [delim], cut (body.length + 1) chunks) := by
  refine reads_whole_chunks (fun (_ : Unit) => readBytes delim) (fun _ body => delim ∉ body)
    (fun _ body w acc chunks hb => ?_) (fun _ chunk body acc chunks hb => ?_) () hb line rest hc
  · have hi : (body ++ delim :: w).indexOf delim = body.length := by
      rw [List.indexOf_append_of_not_mem hb, List.indexOf_cons_self, Nat.add_zero]
    dsimp only
    rw [readBytes, if_pos (by simp), hi]
    simp [List.take_append_eq_append_take]
  · exact ⟨(), fun h => hb (List.mem_append_right _ h),
      by dsimp only; rw [readBytes, if_neg (fun h => hb (List.mem_append_left _ h))]⟩

end SfoConnectivity.Wire
