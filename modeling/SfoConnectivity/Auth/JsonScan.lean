import Mathlib.Data.List.Basic

/-! # `encoding/json`: the scanner

`Unmarshal` first runs `checkValid`: the scanner of `scanner.go` steps over every byte and then
over one space at the end of the input (`eof`). Each state function `stateX` is a constructor of
`Step`, and `Step.run` is the call `s.step(s, c)`. The error state is the `.error` of `Except`,
holding the text of the `SyntaxError` (its offset is not printed, so it is not kept). The parse
stack has its innermost entry first.
-/

namespace SfoConnectivity.Auth

/-- `isSpace`. -/
def isSpace (c : UInt8) : Bool := c = 32 ∨ c = 9 ∨ c = 13 ∨ c = 10

def isDigit (c : UInt8) : Bool := 48 ≤ c ∧ c ≤ 57

def isHex (c : UInt8) : Bool := isDigit c ∨ (97 ≤ c ∧ c ≤ 102) ∨ (65 ≤ c ∧ c ≤ 70)

/-- `lowerhex[n]`, for `n < 16`. -/
def hexDigit (n : Nat) : UInt8 := if n < 10 then (48 + n).toUInt8 else (87 + n).toUInt8

@[simp] theorem byte_toNat_lit (n : Nat) : (no_index (OfNat.ofNat n : UInt8)).toNat = n % 256 := rfl

theorem byte_eq_iff {a b : UInt8} : a = b ↔ a.toNat = b.toNat := ⟨congrArg _, UInt8.toNat.inj⟩

theorem byte_le_iff {a b : UInt8} : a ≤ b ↔ a.toNat ≤ b.toNat := Iff.rfl

theorem byte_lt_iff {a b : UInt8} : a < b ↔ a.toNat < b.toNat := Iff.rfl

theorem isHex_hexDigit : ∀ n, n < 16 → isHex (hexDigit n) := by decide

/-! ## Error texts -/

def hexString (n : Nat) : String :=
  String.mk [Char.ofNat (hexDigit (n / 16)).toNat, Char.ofNat (hexDigit (n % 16)).toNat]

/-- `strconv.Quote` of the rune `r < 256`, without its double quotes. -/
def escapedRune (r : Nat) : String :=
  if r = 92 then "\\\\"
  else if 0x20 ≤ r ∧ r ≤ 0x7E ∨ 0xA1 ≤ r ∧ r ≠ 0xAD then (Char.ofNat r).toString
  else if r = 7 then "\\a" else if r = 8 then "\\b" else if r = 12 then "\\f"
  else if r = 10 then "\\n" else if r = 13 then "\\r" else if r = 9 then "\\t"
  else if r = 11 then "\\v"
  else if r < 0x20 ∨ r = 0x7F then "\\x" ++ hexString r
  else "\\u00" ++ hexString r

/-- `quoteChar`: the byte between single quotes, as the scanner's messages show it. -/
def quoteChar (c : UInt8) : String :=
  if c = 39 then "\x27\\\x27\x27"
  else if c = 34 then "\x27\"\x27"
  else "\x27" ++ escapedRune c.toNat ++ "\x27"

/-! ## The scanner -/

/-- `parseObjectKey`, `parseObjectValue`, `parseArrayValue`. -/
inductive ParseState
  | objectKey | objectValue | arrayValue
  deriving DecidableEq, Repr

/-- The state functions of the scanner. -/
inductive Step
  | beginValueOrEmpty | beginValue | beginStringOrEmpty | beginString | endValue | endTop
  | inString | inStringEsc
  /-- `stateInStringEscU`, `…U1`, `…U12`, `…U123`: `k` hex digits of `\u` read. -/
  | inStringEscU (k : Nat)
  | neg | zero | one | dot | dot0 | e | eSign | e0
  /-- `stateT`, `stateTr`, …, `stateNul`: the literal `name` expects `next`, then `rest`. -/
  | literal (name : String) (next : UInt8) (rest : List UInt8)
  deriving DecidableEq, Repr

structure Scanner where
  step : Step
  parseState : List ParseState
  endTop : Bool
  deriving DecidableEq, Repr

/-- `maxNestingDepth`. -/
def maxNestingDepth : Nat := 10000

namespace Scanner

/-- `s.error(c, context)`. -/
def error (c : UInt8) (context : String) : Except String Scanner :=
  .error ("invalid character " ++ quoteChar c ++ " " ++ context)

def goto (s : Scanner) (step : Step) : Except String Scanner := .ok { s with step }

def pushParseState (s : Scanner) (c : UInt8) (ps : ParseState) (step : Step) :
    Except String Scanner :=
  if s.parseState.length + 1 ≤ maxNestingDepth then .ok { s with step, parseState := ps :: s.parseState }
  else error c "exceeded max depth"

def popParseState (s : Scanner) : Scanner :=
  if s.parseState.tail = [] then { s with step := .endTop, parseState := [], endTop := true }
  else { s with step := .endValue, parseState := s.parseState.tail }

def stateEndTop (s : Scanner) (c : UInt8) : Except String Scanner :=
  if isSpace c then .ok s else error c "after top-level value"

def stateEndValue (s : Scanner) (c : UInt8) : Except String Scanner :=
  match s.parseState with
  | [] => stateEndTop { s with step := .endTop, endTop := true } c
  | ps :: rest =>
    if isSpace c then s.goto .endValue
    else match ps with
      | .objectKey =>
        if c = 58 then .ok { s with step := .beginValue, parseState := .objectValue :: rest }
        else error c "after object key"
      | .objectValue =>
        if c = 44 then .ok { s with step := .beginString, parseState := .objectKey :: rest }
        else if c = 125 then .ok s.popParseState
        else error c "after object key:value pair"
      | .arrayValue =>
        if c = 44 then s.goto .beginValue
        else if c = 93 then .ok s.popParseState
        else error c "after array element"

def stateBeginValue (s : Scanner) (c : UInt8) : Except String Scanner :=
  if isSpace c then .ok s
  else if c = 123 then s.pushParseState c .objectKey .beginStringOrEmpty
  else if c = 91 then s.pushParseState c .arrayValue .beginValueOrEmpty
  else if c = 34 then s.goto .inString
  else if c = 45 then s.goto .neg
  else if c = 48 then s.goto .zero
  else if c = 116 then s.goto (.literal "true" 114 [117, 101])
  else if c = 102 then s.goto (.literal "false" 97 [108, 115, 101])
  else if c = 110 then s.goto (.literal "null" 117 [108, 108])
  else if 49 ≤ c ∧ c ≤ 57 then s.goto .one
  else error c "looking for beginning of value"

def stateBeginValueOrEmpty (s : Scanner) (c : UInt8) : Except String Scanner :=
  if isSpace c then .ok s
  else if c = 93 then stateEndValue s c
  else stateBeginValue s c

def stateBeginString (s : Scanner) (c : UInt8) : Except String Scanner :=
  if isSpace c then .ok s
  else if c = 34 then s.goto .inString
  else error c "looking for beginning of object key string"

def stateBeginStringOrEmpty (s : Scanner) (c : UInt8) : Except String Scanner :=
  if isSpace c then .ok s
  else if c = 125 then stateEndValue { s with parseState := .objectValue :: s.parseState.tail } c
  else stateBeginString s c

def stateInString (s : Scanner) (c : UInt8) : Except String Scanner :=
  if c = 34 then s.goto .endValue
  else if c = 92 then s.goto .inStringEsc
  else if c < 0x20 then error c "in string literal"
  else .ok s

def stateInStringEsc (s : Scanner) (c : UInt8) : Except String Scanner :=
  if c ∈ [98, 102, 110, 114, 116, 92, 47, 34] then s.goto .inString
  else if c = 117 then s.goto (.inStringEscU 0)
  else error c "in string escape code"

def stateInStringEscU (k : Nat) (s : Scanner) (c : UInt8) : Except String Scanner :=
  if isHex c then s.goto (if k = 3 then .inString else .inStringEscU (k + 1))
  else error c "in \\u hexadecimal character escape"

def stateNeg (s : Scanner) (c : UInt8) : Except String Scanner :=
  if c = 48 then s.goto .zero
  else if 49 ≤ c ∧ c ≤ 57 then s.goto .one
  else error c "in numeric literal"

def state0 (s : Scanner) (c : UInt8) : Except String Scanner :=
  if c = 46 then s.goto .dot
  else if c = 101 ∨ c = 69 then s.goto .e
  else stateEndValue s c

def state1 (s : Scanner) (c : UInt8) : Except String Scanner :=
  if isDigit c then .ok s else state0 s c

def stateDot (s : Scanner) (c : UInt8) : Except String Scanner :=
  if isDigit c then s.goto .dot0 else error c "after decimal point in numeric literal"

def stateDot0 (s : Scanner) (c : UInt8) : Except String Scanner :=
  if isDigit c then .ok s
  else if c = 101 ∨ c = 69 then s.goto .e
  else stateEndValue s c

def stateESign (s : Scanner) (c : UInt8) : Except String Scanner :=
  if isDigit c then s.goto .e0 else error c "in exponent of numeric literal"

def stateE (s : Scanner) (c : UInt8) : Except String Scanner :=
  if c = 43 ∨ c = 45 then s.goto .eSign else stateESign s c

def stateE0 (s : Scanner) (c : UInt8) : Except String Scanner :=
  if isDigit c then .ok s else stateEndValue s c

/-- `stateT` to `stateNul`, one function per letter in the source. -/
def stateLiteral (name : String) (next : UInt8) (rest : List UInt8) (s : Scanner) (c : UInt8) :
    Except String Scanner :=
  if c = next then
    match rest with
    | [] => s.goto .endValue
    | b :: bs => s.goto (.literal name b bs)
  else error c ("in literal " ++ name ++ " (expecting \x27" ++ (Char.ofNat next.toNat).toString ++ "\x27)")

end Scanner

/-- `s.step(s, c)`. -/
def Step.run : Step → Scanner → UInt8 → Except String Scanner
  | .beginValueOrEmpty => Scanner.stateBeginValueOrEmpty
  | .beginValue => Scanner.stateBeginValue
  | .beginStringOrEmpty => Scanner.stateBeginStringOrEmpty
  | .beginString => Scanner.stateBeginString
  | .endValue => Scanner.stateEndValue
  | .endTop => Scanner.stateEndTop
  | .inString => Scanner.stateInString
  | .inStringEsc => Scanner.stateInStringEsc
  | .inStringEscU k => Scanner.stateInStringEscU k
  | .neg => Scanner.stateNeg
  | .zero => Scanner.state0
  | .one => Scanner.state1
  | .dot => Scanner.stateDot
  | .dot0 => Scanner.stateDot0
  | .e => Scanner.stateE
  | .eSign => Scanner.stateESign
  | .e0 => Scanner.stateE0
  | .literal name next rest => Scanner.stateLiteral name next rest

namespace Scanner

def next (s : Scanner) (c : UInt8) : Except String Scanner := s.step.run s c

/-- `reset`. -/
def reset : Scanner := ⟨.beginValue, [], false⟩

/-- `eof`: the input ended; one space finishes a number, anything else unfinished is an error. -/
def eof (s : Scanner) : Except String Unit :=
  if s.endTop then .ok ()
  else match s.next 32 with
    | .error e => .error e
    | .ok s' => if s'.endTop then .ok () else .error "unexpected end of JSON input"

/-- The loop of `checkValid`: the scanner over bytes, stopping at the first error. -/
def scan (s : Scanner) : List UInt8 → Except String Scanner
  | [] => .ok s
  | c :: data =>
    match s.next c with
    | .ok s' => s'.scan data
    | .error e => .error e

end Scanner

/-- `checkValid`. -/
def checkValid (data : List UInt8) : Except String Unit :=
  Scanner.reset.scan data >>= Scanner.eof

example : checkValid [123, 34, 97, 34, 58, 49, 125] = .ok () := rfl
example : checkValid [45] = .error "invalid character \x27 \x27 in numeric literal" := rfl
example : checkValid [91, 49] = .error "unexpected end of JSON input" := rfl

/-! ## Runs of the scanner -/

namespace Scanner

theorem scan_append {s s' : Scanner} {a : List UInt8} (h : s.scan a = .ok s') (b : List UInt8) :
    s.scan (a ++ b) = s'.scan b := by
  induction a generalizing s with
  | nil => cases h; rfl
  | cons c a ih =>
    simp only [scan] at h
    split at h
    · simp only [List.cons_append, scan, *]
      exact ih h
    · cases h

theorem scan_cons_ok {s s' : Scanner} {c : UInt8} (h : s.next c = .ok s') (data : List UInt8) :
    s.scan (c :: data) = s'.scan data := by
  simp only [scan, h]

theorem scan_append_ok {s s' : Scanner} {a b : List UInt8} (h : s.scan (a ++ b) = .ok s') :
    ∃ s₁, s.scan a = .ok s₁ ∧ s₁.scan b = .ok s' := by
  induction a generalizing s with
  | nil => exact ⟨s, rfl, h⟩
  | cons c a ih =>
    cases hc : s.next c with
    | ok s₁ =>
      rw [List.cons_append, scan_cons_ok hc] at h
      rw [scan_cons_ok hc]
      exact ih h
    | error e => simp [scan, hc] at h

/-! ### Once the top-level value has ended, `endTop` stays set -/

section EndTop

variable {s s' : Scanner} {c : UInt8}

theorem endTop_of_ite {p : Prop} [Decidable p] {a b : Except String Scanner}
    (ha : a = .ok s' → s'.endTop) (hb : b = .ok s' → s'.endTop) :
    (if p then a else b) = .ok s' → s'.endTop := by
  split
  · exact ha
  · exact hb

theorem popParseState_endTop (ht : s.endTop) : s.popParseState.endTop := by
  unfold popParseState
  split_ifs
  · rfl
  · exact ht

theorem stateEndValue_endTop (ht : s.endTop) : s.stateEndValue c = .ok s' → s'.endTop := by
  unfold stateEndValue stateEndTop
  split
  · exact endTop_of_ite (fun h => by cases h; rfl) (fun h => by cases h)
  · repeat' (first | apply endTop_of_ite | split)
    all_goals first
      | (intro h; cases h; exact ht)
      | (intro h; cases h; exact popParseState_endTop ht)
      | (intro h; cases h)

/-- Each state function keeps `endTop`, or sets it where the value ends. -/
theorem next_endTop (ht : s.endTop) : s.next c = .ok s' → s'.endTop := by
  obtain ⟨step, ps, et⟩ := s
  cases step <;>
    dsimp only [next, Step.run, stateBeginValueOrEmpty, stateBeginValue, stateBeginStringOrEmpty,
      stateBeginString, stateEndTop, stateInString, stateInStringEsc, stateInStringEscU, stateNeg,
      state0, state1, stateDot, stateDot0, stateESign, stateE, stateE0, stateLiteral]
  all_goals
    repeat' apply endTop_of_ite
  all_goals first
    | (refine stateEndValue_endTop ?_; exact ht)
    | (intro h; cases h; exact ht)
    | (intro h; cases h; exact popParseState_endTop ht)
    | (intro h; cases h)
    | (split <;> intro h <;> cases h <;> exact ht)

theorem scan_endTop {u : List UInt8} (h : s.scan u = .ok s') (ht : s.endTop) : s'.endTop := by
  induction u generalizing s with
  | nil => cases h; exact ht
  | cons c u ih =>
    simp only [scan] at h
    split at h
    · exact ih h (next_endTop ht ‹_›)
    · cases h

/-- A run that ends before the value ended starts from a state that had not ended it. -/
theorem endTop_false_of_scan {u : List UInt8} (h : s.scan u = .ok s') (ht : s'.endTop = false) :
    s.endTop = false := by
  cases h₀ : s.endTop
  · rfl
  · exact absurd (scan_endTop h h₀) (by simp [ht])

end EndTop

end Scanner

/-- The bytes between the quotes of a string literal that the scanner takes: bytes from space
up but quote and backslash, the two-byte escapes, and `\u` with four hex digits. -/
inductive LiteralBody : List UInt8 → Prop
  | nil : LiteralBody []
  | plain {c : UInt8} {s : List UInt8} :
      ¬ c < 0x20 → c ≠ 34 → c ≠ 92 → LiteralBody s → LiteralBody (c :: s)
  | short {e : UInt8} {s : List UInt8} :
      e ∈ [98, 102, 110, 114, 116, 92, 47, 34] → LiteralBody s → LiteralBody (92 :: e :: s)
  | unicode {h₁ h₂ h₃ h₄ : UInt8} {s : List UInt8} :
      isHex h₁ → isHex h₂ → isHex h₃ → isHex h₄ → LiteralBody s →
      LiteralBody (92 :: 117 :: h₁ :: h₂ :: h₃ :: h₄ :: s)

theorem LiteralBody.append {a b : List UInt8} (ha : LiteralBody a) (hb : LiteralBody b) :
    LiteralBody (a ++ b) := by
  induction ha with
  | nil => exact hb
  | plain h₁ h₂ h₃ _ ih => exact .plain h₁ h₂ h₃ ih
  | short h _ ih => exact .short h ih
  | unicode h₁ h₂ h₃ h₄ _ ih => exact .unicode h₁ h₂ h₃ h₄ ih

section Runs

variable (ps : List ParseState) (et : Bool)

theorem next_beginValue_quote :
    (⟨.beginValue, ps, et⟩ : Scanner).next 34 = .ok ⟨.inString, ps, et⟩ := rfl

theorem next_beginValue_minus :
    (⟨.beginValue, ps, et⟩ : Scanner).next 45 = .ok ⟨.neg, ps, et⟩ := rfl

theorem next_beginValue_digit {d : UInt8} (h₁ : 49 ≤ d.toNat) (h₂ : d.toNat ≤ 57) :
    (⟨.beginValue, ps, et⟩ : Scanner).next d = .ok ⟨.one, ps, et⟩ := by
  have : ¬ (d = 32 ∨ d = 9 ∨ d = 13 ∨ d = 10) ∧ d ≠ 123 ∧ d ≠ 91 ∧ d ≠ 34 ∧ d ≠ 45 ∧ d ≠ 48 ∧
      d ≠ 116 ∧ d ≠ 102 ∧ d ≠ 110 ∧ (49 ≤ d ∧ d ≤ 57) := by
    simp only [Ne, byte_eq_iff, byte_le_iff, byte_toNat_lit]
    omega
  simp only [Scanner.next, Step.run, Scanner.stateBeginValue, isSpace, decide_eq_true_eq, this,
    if_false, if_true]
  rfl

theorem next_neg_digit {d : UInt8} (h₁ : 49 ≤ d.toNat) (h₂ : d.toNat ≤ 57) :
    (⟨.neg, ps, et⟩ : Scanner).next d = .ok ⟨.one, ps, et⟩ := by
  have : d ≠ 48 ∧ (49 ≤ d ∧ d ≤ 57) := by
    simp only [Ne, byte_eq_iff, byte_le_iff, byte_toNat_lit]
    omega
  simp only [Scanner.next, Step.run, Scanner.stateNeg, this, if_false, if_true]
  rfl

theorem next_inString_backslash :
    (⟨.inString, ps, et⟩ : Scanner).next 92 = .ok ⟨.inStringEsc, ps, et⟩ := rfl

theorem next_inStringEsc_u :
    (⟨.inStringEsc, ps, et⟩ : Scanner).next 117 = .ok ⟨.inStringEscU 0, ps, et⟩ := rfl

theorem next_inStringEscU {k : Nat} {c : UInt8} (hk : k < 3) (h : isHex c) :
    (⟨.inStringEscU k, ps, et⟩ : Scanner).next c = .ok ⟨.inStringEscU (k + 1), ps, et⟩ := by
  simp only [Scanner.next, Step.run, Scanner.stateInStringEscU, h, if_true, if_neg hk.ne]
  rfl

theorem next_inStringEscU_three {c : UInt8} (h : isHex c) :
    (⟨.inStringEscU 3, ps, et⟩ : Scanner).next c = .ok ⟨.inString, ps, et⟩ := by
  simp only [Scanner.next, Step.run, Scanner.stateInStringEscU, h, if_true]
  rfl

/-- Inside a string, the scanner reads a literal body and is inside the string again. -/
theorem scan_literalBody {body : List UInt8} (h : LiteralBody body) :
    (⟨.inString, ps, et⟩ : Scanner).scan body = .ok ⟨.inString, ps, et⟩ := by
  induction h with
  | nil => rfl
  | plain h₁ h₂ h₃ _ ih =>
    rw [Scanner.scan_cons_ok _ _, ih]
    simp only [Scanner.next, Step.run, Scanner.stateInString, if_neg h₁, if_neg h₂, if_neg h₃]
  | short h _ ih =>
    rw [Scanner.scan_cons_ok (next_inString_backslash ps et), Scanner.scan_cons_ok _ _, ih]
    simp only [Scanner.next, Step.run, Scanner.stateInStringEsc, if_pos h]
    rfl
  | unicode h₁ h₂ h₃ h₄ _ ih =>
    rw [Scanner.scan_cons_ok (next_inString_backslash ps et),
      Scanner.scan_cons_ok (next_inStringEsc_u ps et),
      Scanner.scan_cons_ok (next_inStringEscU ps et (by decide) h₁),
      Scanner.scan_cons_ok (next_inStringEscU ps et (by decide) h₂),
      Scanner.scan_cons_ok (next_inStringEscU ps et (by decide) h₃),
      Scanner.scan_cons_ok (next_inStringEscU_three ps et h₄)]
    exact ih

/-- In a number, the scanner reads digits and stays in it. -/
theorem scan_digits {ds : List UInt8} (h : ∀ c ∈ ds, isDigit c) :
    (⟨.one, ps, et⟩ : Scanner).scan ds = .ok ⟨.one, ps, et⟩ := by
  induction ds with
  | nil => rfl
  | cons c ds ih =>
    rw [Scanner.scan_cons_ok _ _, ih fun c hc => h c (.tail _ hc)]
    simp only [Scanner.next, Step.run, Scanner.state1, h c (.head _), if_true]

end Runs

end SfoConnectivity.Auth
