import Mathlib.Data.Nat.Digits
import SfoConnectivity.Auth.Utf8
import SfoConnectivity.Auth.JsonScan

/-! # `encoding/json`: what `Marshal` writes for a string and an `int64`

`appendString` with `escapeHTML` set, as `json.Marshal` calls it, and `strconv.AppendInt` in
base 10. The source copies runs of safe bytes at once (`src[start:i]`); writing each byte as it
is passed gives the same bytes.
-/

namespace SfoConnectivity.Auth

/-- `htmlSafeSet`: ASCII from space up, but `"`, `\`, `<`, `>` and `&`. -/
def htmlSafe (b : UInt8) : Bool :=
  0x20 ≤ b ∧ b < 0x80 ∧ b ≠ 34 ∧ b ≠ 92 ∧ b ≠ 60 ∧ b ≠ 62 ∧ b ≠ 38

/-- The `switch b` of `appendString`: an ASCII byte outside `htmlSafeSet`. -/
def escapeASCII (b : UInt8) : List UInt8 :=
  if b = 92 ∨ b = 34 then [92, b]
  else if b = 8 then [92, 98]
  else if b = 12 then [92, 102]
  else if b = 10 then [92, 110]
  else if b = 13 then [92, 114]
  else if b = 9 then [92, 116]
  else [92, 117, 48, 48, hexDigit (b.toNat / 16), hexDigit (b.toNat % 16)]

/-- The loop of `appendString`: ASCII byte by byte, other runes as `DecodeRune` reads them; an
invalid byte becomes `�`, U+2028 and U+2029 are escaped. -/
def appendStringBody : List UInt8 → List UInt8
  | [] => []
  | b :: src =>
    if b < 0x80 then (if htmlSafe b then [b] else escapeASCII b) ++ appendStringBody src
    else
      let r := decodeRune (b :: src)
      (if r.1 = runeError ∧ r.2 = 1 then [92, 117, 102, 102, 102, 100]
       else if r.1 = 0x2028 ∨ r.1 = 0x2029 then [92, 117, 50, 48, 50, hexDigit (r.1 % 16)]
       else (b :: src).take r.2) ++ appendStringBody ((b :: src).drop r.2)
termination_by src => src.length
decreasing_by
  all_goals simp_wf
  exact decodeRune_snd_pos _ _

/-- `appendString(dst, src, true)` on an empty `dst`. -/
def appendString (src : List UInt8) : List UInt8 := 34 :: appendStringBody src ++ [34]

/-- The decimal digits of `n`, most significant first. -/
def decimalDigits (n : Nat) : List UInt8 :=
  if n = 0 then [48] else (Nat.digits 10 n).reverse.map fun d => (48 + d).toUInt8

/-- `strconv.AppendInt(dst, i, 10)` on an empty `dst`. -/
def formatInt (i : Int) : List UInt8 := (if i < 0 then [45] else []) ++ decimalDigits i.natAbs

example : appendString [60, 0, 0xE2, 0x80, 0xA8, 0xFF] =
    [34, 92, 117, 48, 48, 51, 99, 92, 117, 48, 48, 48, 48, 92, 117, 50, 48, 50, 56,
      92, 117, 102, 102, 102, 100, 34] := by
  simp [appendString, appendStringBody, htmlSafe, escapeASCII, decodeRune, firstByte, hexDigit,
    isTail, runeError, UInt8.size]
  decide

/-! ## Every string is written as a literal the scanner takes -/

theorem literalBody_escapeASCII (b : UInt8) : LiteralBody (escapeASCII b) := by
  have hb := b.toNat_lt_size
  unfold escapeASCII
  split_ifs with h₁
  · obtain rfl | rfl := h₁ <;> exact .short (by decide) .nil
  all_goals first
    | exact .short (by decide) .nil
    | exact .unicode (by decide) (by decide) (isHex_hexDigit _ (by simp only [UInt8.size] at hb; omega))
        (isHex_hexDigit _ (by omega)) .nil

theorem literalBody_high {bs : List UInt8} (h : ∀ x ∈ bs, 0x80 ≤ x.toNat) : LiteralBody bs := by
  induction bs with
  | nil => exact .nil
  | cons b bs ih =>
    have hb := h b (.head _)
    refine .plain ?_ ?_ ?_ (ih fun x hx => h x (.tail _ hx)) <;>
      simp only [byte_lt_iff, Ne, byte_eq_iff] <;> simp only [show (32 : UInt8).toNat = 32 from rfl,
        show (34 : UInt8).toNat = 34 from rfl, show (92 : UInt8).toNat = 92 from rfl] <;> omega

/-- `appendString` writes every Go string, valid UTF-8 or not, as a literal body. -/
theorem literalBody_appendStringBody (src : List UInt8) : LiteralBody (appendStringBody src) := by
  induction src using appendStringBody.induct with
  | case1 => simp only [appendStringBody]; exact .nil
  | case2 b src hb ih =>
    rw [appendStringBody, if_pos hb]
    refine .append ?_ ih
    split_ifs with hs
    · simp only [htmlSafe, decide_eq_true_eq] at hs
      exact .plain (by simpa [byte_lt_iff] using hs.1) hs.2.2.1 hs.2.2.2.1 .nil
    · exact literalBody_escapeASCII b
  | case3 b src hb r ih =>
    rw [appendStringBody, if_neg hb]
    refine .append ?_ ih
    split_ifs
    · exact .unicode (by decide) (by decide) (by decide) (by decide) .nil
    · exact .unicode (by decide) (by decide) (by decide) (isHex_hexDigit _ (Nat.mod_lt _ (by decide))) .nil
    · exact literalBody_high (decodeRune_take_high (by simpa [byte_lt_iff] using hb) src)

/-- A string of bytes from `htmlSafeSet` is written as it is. -/
theorem appendStringBody_of_htmlSafe {s : List UInt8} (h : ∀ c ∈ s, htmlSafe c) :
    appendStringBody s = s := by
  induction s with
  | nil => simp only [appendStringBody]
  | cons c s ih =>
    have hc := h c (.head _)
    have hc' : c < 0x80 := by simp only [htmlSafe, decide_eq_true_eq] at hc; exact hc.2.1
    rw [appendStringBody, if_pos hc', if_pos hc, ih fun c hc => h c (.tail _ hc)]
    rfl

/-! ## A valid string is written rune by rune -/

/-- What `appendString` writes for one scalar value. -/
def escapeRune (r : Nat) : List UInt8 :=
  if r < 0x80 then (if htmlSafe r.toUInt8 then [r.toUInt8] else escapeASCII r.toUInt8)
  else if r = 0x2028 ∨ r = 0x2029 then [92, 117, 50, 48, 50, hexDigit (r % 16)]
  else encodeRune r

theorem appendStringBody_encodeRune {r : Nat} (hs : IsScalar r) (rest : List UInt8) :
    appendStringBody (encodeRune r ++ rest) = escapeRune r ++ appendStringBody rest := by
  by_cases h : r < 0x80
  · have hb : r.toUInt8 < 0x80 := by
      show r.toUInt8.toNat < 128
      rw [toNat_toUInt8 (by omega)]
      exact h
    rw [encodeRune_of_lt h, List.singleton_append, appendStringBody, if_pos hb]
    simp only [escapeRune, if_pos h]
  · obtain ⟨b, bs, hbs, hb⟩ := encodeRune_cons_high hs h
    have hlen := (encodeRune_high hs h).1
    replace hb : ¬ b < 0x80 := by simp only [byte_lt_iff, byte_toNat_lit]; omega
    rw [hbs, List.cons_append, appendStringBody, if_neg hb, ← List.cons_append, ← hbs,
      decodeRune_encodeRune rest hs]
    dsimp only
    rw [List.take_left, List.drop_left,
      if_neg (show ¬ (r = runeError ∧ (encodeRune r).length = 1) by omega)]
    simp only [escapeRune, if_neg h]

/-- A valid UTF-8 string is written as the escapes of its runes. -/
theorem appendStringBody_flatMap {rs : List Nat} (h : ∀ r ∈ rs, IsScalar r) :
    appendStringBody (rs.flatMap encodeRune) = rs.flatMap escapeRune := by
  induction rs with
  | nil => simp only [List.flatMap_nil, appendStringBody]
  | cons r rs ih =>
    rw [List.flatMap_cons, List.flatMap_cons, appendStringBody_encodeRune (h r (.head _)),
      ih fun r hr => h r (.tail _ hr)]

end SfoConnectivity.Auth
