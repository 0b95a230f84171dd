import Mathlib.Algebra.Group.Nat.Basic
import Mathlib.Data.List.Basic

/-! # `unicode/utf8`

`DecodeRune` and `EncodeRune` over bytes, as `encoding/json` calls them on the strings of the
claims. Runes are `Nat`; a byte's bits are its value's digits, so Go's masks become
subtractions of the tag bits.
-/

namespace SfoConnectivity.Auth

/-- `utf8.RuneError`, U+FFFD. -/
def runeError : Nat := 0xFFFD

/-- The `first` table and `acceptRanges`: the length of a sequence led by `b₀`, and the range
of its second byte. -/
def firstByte (b₀ : Nat) : Option (Nat × Nat × Nat) :=
  if 0xC2 ≤ b₀ ∧ b₀ ≤ 0xDF then some (2, 0x80, 0xBF)
  else if b₀ = 0xE0 then some (3, 0xA0, 0xBF)
  else if 0xE1 ≤ b₀ ∧ b₀ ≤ 0xEC then some (3, 0x80, 0xBF)
  else if b₀ = 0xED then some (3, 0x80, 0x9F)
  else if 0xEE ≤ b₀ ∧ b₀ ≤ 0xEF then some (3, 0x80, 0xBF)
  else if b₀ = 0xF0 then some (4, 0x90, 0xBF)
  else if 0xF1 ≤ b₀ ∧ b₀ ≤ 0xF3 then some (4, 0x80, 0xBF)
  else if b₀ = 0xF4 then some (4, 0x80, 0x8F)
  else none

/-- A continuation byte, `locb` to `hicb`. -/
def isTail (b : UInt8) : Bool := 0x80 ≤ b.toNat ∧ b.toNat ≤ 0xBF

/-- `utf8.DecodeRune`: the first rune and its length in bytes; `(RuneError, 1)` where the bytes
are not UTF-8, `(RuneError, 0)` on no bytes. -/
def decodeRune : List UInt8 → Nat × Nat
  | [] => (runeError, 0)
  | p₀ :: rest =>
    if p₀.toNat < 0x80 then (p₀.toNat, 1)
    else
      match firstByte p₀.toNat, rest with
      | some (2, lo, hi), p₁ :: _ =>
        if lo ≤ p₁.toNat ∧ p₁.toNat ≤ hi then
          ((p₀.toNat - 0xC0) * 2 ^ 6 + (p₁.toNat - 0x80), 2)
        else (runeError, 1)
      | some (3, lo, hi), p₁ :: p₂ :: _ =>
        if lo ≤ p₁.toNat ∧ p₁.toNat ≤ hi ∧ isTail p₂ then
          ((p₀.toNat - 0xE0) * 2 ^ 12 + (p₁.toNat - 0x80) * 2 ^ 6 + (p₂.toNat - 0x80), 3)
        else (runeError, 1)
      | some (4, lo, hi), p₁ :: p₂ :: p₃ :: _ =>
        if lo ≤ p₁.toNat ∧ p₁.toNat ≤ hi ∧ isTail p₂ ∧ isTail p₃ then
          ((p₀.toNat - 0xF0) * 2 ^ 18 + (p₁.toNat - 0x80) * 2 ^ 12 + (p₂.toNat - 0x80) * 2 ^ 6 +
            (p₃.toNat - 0x80), 4)
        else (runeError, 1)
      | _, _ => (runeError, 1)

/-- A Unicode scalar value: a code point that is not a surrogate. -/
def IsScalar (r : Nat) : Prop := r < 0xD800 ∨ (0xDFFF < r ∧ r < 0x110000)

instance (r : Nat) : Decidable (IsScalar r) := inferInstanceAs (Decidable (_ ∨ _))

/-- `utf8.EncodeRune`; a surrogate or a value past U+10FFFF is written as `RuneError`. -/
def encodeRune (r : Nat) : List UInt8 :=
  (if r < 0x80 then [r]
  else if r < 0x800 then [0xC0 + r / 2 ^ 6, 0x80 + r % 2 ^ 6]
  else if IsScalar r then
    if r < 0x10000 then [0xE0 + r / 2 ^ 12, 0x80 + r / 2 ^ 6 % 2 ^ 6, 0x80 + r % 2 ^ 6]
    else [0xF0 + r / 2 ^ 18, 0x80 + r / 2 ^ 12 % 2 ^ 6, 0x80 + r / 2 ^ 6 % 2 ^ 6, 0x80 + r % 2 ^ 6]
  else [0xEF, 0xBF, 0xBD]).map Nat.toUInt8

/-- Bytes that are the UTF-8 encoding of a list of scalar values. -/
def ValidUTF8 (s : List UInt8) : Prop :=
  ∃ rs : List Nat, (∀ r ∈ rs, IsScalar r) ∧ s = rs.flatMap encodeRune

theorem toNat_toUInt8 {n : Nat} (h : n < 256) : n.toUInt8.toNat = n :=
  UInt8.toNat_ofNat_of_lt h

/-! ## The lead byte of an encoding -/

theorem firstByte_three_mid {b : Nat} (h : 0xE1 ≤ b ∧ b ≤ 0xEF) (h' : b ≠ 0xED) :
    firstByte b = some (3, 0x80, 0xBF) := by
  unfold firstByte
  rw [if_neg (by omega), if_neg (by omega)]
  by_cases hb : b ≤ 0xEC
  · rw [if_pos ⟨h.1, hb⟩]
  · rw [if_neg (by omega), if_neg h', if_pos ⟨by omega, h.2⟩]

/-- The lead byte `EncodeRune` writes for a three-byte rune admits the second byte it writes. -/
theorem firstByte_lead_three {r : Nat} (h₂ : ¬ r < 0x800) (hs : IsScalar r) (h₃ : r < 0x10000) :
    ∃ lo hi, firstByte (0xE0 + r / 2 ^ 12) = some (3, lo, hi) ∧
      lo ≤ 0x80 + r / 2 ^ 6 % 2 ^ 6 ∧ 0x80 + r / 2 ^ 6 % 2 ^ 6 ≤ hi := by
  unfold IsScalar at hs
  by_cases h0 : r / 2 ^ 12 = 0
  · exact ⟨_, _, by rw [h0]; rfl, by omega, by omega⟩
  by_cases hd : r / 2 ^ 12 = 13
  · exact ⟨_, _, by rw [hd]; rfl, by omega, by omega⟩
  · exact ⟨_, _, firstByte_three_mid (by omega) (by omega), by omega, by omega⟩

/-- The same for a four-byte rune; its lead byte is one of five. -/
theorem firstByte_lead_four {r : Nat} (hs : IsScalar r) (h₃ : ¬ r < 0x10000) :
    ∃ lo hi, firstByte (0xF0 + r / 2 ^ 18) = some (4, lo, hi) ∧
      lo ≤ 0x80 + r / 2 ^ 12 % 2 ^ 6 ∧ 0x80 + r / 2 ^ 12 % 2 ^ 6 ≤ hi := by
  unfold IsScalar at hs
  obtain h | h | h | h | h : r / 2 ^ 18 = 0 ∨ r / 2 ^ 18 = 1 ∨ r / 2 ^ 18 = 2 ∨ r / 2 ^ 18 = 3 ∨
    r / 2 ^ 18 = 4 := by omega
  all_goals exact ⟨_, _, by rw [h]; rfl, by omega, by omega⟩

section EncodeDecode

variable {r : Nat} (rest : List UInt8)

theorem decodeRune_encodeRune_one (h₁ : r < 0x80) :
    decodeRune (encodeRune r ++ rest) = (r, (encodeRune r).length) := by
  have e := toNat_toUInt8 (show r < 256 by omega)
  simp only [encodeRune, if_pos h₁, List.map_cons, List.map_nil, List.cons_append,
    List.nil_append, decodeRune, e, List.length_cons, List.length_nil]

theorem decodeRune_encodeRune_two (h₁ : ¬ r < 0x80) (h₂ : r < 0x800) :
    decodeRune (encodeRune r ++ rest) = (r, (encodeRune r).length) := by
  have e₀ := toNat_toUInt8 (show 0xC0 + r / 2 ^ 6 < 256 by omega)
  have e₁ := toNat_toUInt8 (show 0x80 + r % 2 ^ 6 < 256 by omega)
  have hf : firstByte (0xC0 + r / 2 ^ 6) = some (2, 0x80, 0xBF) := by
    unfold firstByte
    rw [if_pos (by omega)]
  simp only [encodeRune, if_neg h₁, if_pos h₂, List.map_cons, List.map_nil, List.cons_append,
    List.nil_append, decodeRune, e₀, e₁, hf, List.length_cons, List.length_nil]
  split_ifs with ha hb
  · exact absurd ha (by omega)
  · exact Prod.ext (by simp only; omega) rfl
  · exact absurd ⟨by omega, by omega⟩ hb

theorem decodeRune_encodeRune_three (h₂ : ¬ r < 0x800) (hs : IsScalar r) (h₃ : r < 0x10000) :
    decodeRune (encodeRune r ++ rest) = (r, (encodeRune r).length) := by
  have h₁ : ¬ r < 0x80 := by omega
  have e₀ := toNat_toUInt8 (show 0xE0 + r / 2 ^ 12 < 256 by omega)
  have e₁ := toNat_toUInt8 (show 0x80 + r / 2 ^ 6 % 2 ^ 6 < 256 by omega)
  have e₂ := toNat_toUInt8 (show 0x80 + r % 2 ^ 6 < 256 by omega)
  obtain ⟨lo, hi, hf, hlo, hhi⟩ := firstByte_lead_three h₂ hs h₃
  simp only [encodeRune, if_neg h₁, if_neg h₂, if_pos hs, if_pos h₃, List.map_cons,
    List.map_nil, List.cons_append, List.nil_append, decodeRune, e₀, e₁, hf, isTail, e₂,
    List.length_cons, List.length_nil]
  split_ifs with ha hb
  · exact absurd ha (by omega)
  · exact Prod.ext (by simp only; omega) rfl
  · exact absurd ⟨hlo, hhi, by simp only [decide_eq_true_eq]; omega⟩ hb

theorem decodeRune_encodeRune_four (hs : IsScalar r) (h₃ : ¬ r < 0x10000) :
    decodeRune (encodeRune r ++ rest) = (r, (encodeRune r).length) := by
  have hr := hs
  unfold IsScalar at hr
  have h₁ : ¬ r < 0x80 := by omega
  have h₂ : ¬ r < 0x800 := by omega
  have e₀ := toNat_toUInt8 (show 0xF0 + r / 2 ^ 18 < 256 by omega)
  have e₁ := toNat_toUInt8 (show 0x80 + r / 2 ^ 12 % 2 ^ 6 < 256 by omega)
  have e₂ := toNat_toUInt8 (show 0x80 + r / 2 ^ 6 % 2 ^ 6 < 256 by omega)
  have e₃ := toNat_toUInt8 (show 0x80 + r % 2 ^ 6 < 256 by omega)
  obtain ⟨lo, hi, hf, hlo, hhi⟩ := firstByte_lead_four hs h₃
  simp only [encodeRune, if_neg h₁, if_neg h₂, if_pos hs, if_neg h₃, List.map_cons,
    List.map_nil, List.cons_append, List.nil_append, decodeRune, e₀, e₁, hf, isTail, e₂, e₃,
    List.length_cons, List.length_nil]
  split_ifs with ha hb
  · exact absurd ha (by omega)
  · exact Prod.ext (by simp only; omega) rfl
  · exact absurd ⟨hlo, hhi, by simp only [decide_eq_true_eq]; omega,
      by simp only [decide_eq_true_eq]; omega⟩ hb

/-- Decoding the encoding of a scalar value gives it back, with the length of the encoding. -/
theorem decodeRune_encodeRune (hs : IsScalar r) :
    decodeRune (encodeRune r ++ rest) = (r, (encodeRune r).length) := by
  by_cases h₁ : r < 0x80
  · exact decodeRune_encodeRune_one rest h₁
  by_cases h₂ : r < 0x800
  · exact decodeRune_encodeRune_two rest h₁ h₂
  by_cases h₃ : r < 0x10000
  · exact decodeRune_encodeRune_three rest h₂ hs h₃
  · exact decodeRune_encodeRune_four rest hs h₃

end EncodeDecode

/-! ## What the loops over runes rely on -/

/-- `DecodeRune` consumes at least one byte of a non-empty input. -/
theorem decodeRune_snd_pos (b : UInt8) (rest : List UInt8) : 0 < (decodeRune (b :: rest)).2 := by
  simp only [decodeRune]
  split_ifs
  · exact Nat.one_pos
  · split <;> (try split_ifs) <;> exact Nat.zero_lt_succ _

theorem firstByte_lo {b n lo hi : Nat} (h : firstByte b = some (n, lo, hi)) : 0x80 ≤ lo := by
  simp only [firstByte, ite_eq_iff, Option.some.injEq, Prod.mk.injEq, reduceCtorEq, and_false,
    or_false] at h
  omega

/-- The bytes `DecodeRune` consumes after a byte from `0x80` up are all from `0x80` up. -/
theorem decodeRune_take_high {b : UInt8} (hb : ¬ b.toNat < 0x80) (rest : List UInt8) :
    ∀ x ∈ (b :: rest).take (decodeRune (b :: rest)).2, 0x80 ≤ x.toNat := by
  simp only [decodeRune, if_neg hb]
  split
  · split_ifs with h
    · have := firstByte_lo ‹_›
      simp only [List.take, List.forall_mem_cons, List.not_mem_nil, false_implies, implies_true,
        and_true]
      omega
    · simpa using hb
  · split_ifs with h
    · have := firstByte_lo ‹_›
      simp only [isTail, decide_eq_true_eq] at h
      simp only [List.take, List.forall_mem_cons, List.not_mem_nil, false_implies, implies_true,
        and_true]
      omega
    · simpa using hb
  · split_ifs with h
    · have := firstByte_lo ‹_›
      simp only [isTail, decide_eq_true_eq] at h
      simp only [List.take, List.forall_mem_cons, List.not_mem_nil, false_implies, implies_true,
        and_true]
      omega
    · simpa using hb
  · simpa using hb

theorem encodeRune_of_lt {r : Nat} (h : r < 0x80) : encodeRune r = [r.toUInt8] := by
  simp only [encodeRune, if_pos h, List.map_cons, List.map_nil]

/-- A scalar value from `0x80` up is written as two to four bytes, all from `0x80` up. -/
theorem encodeRune_high {r : Nat} (hs : IsScalar r) (h : ¬ r < 0x80) :
    2 ≤ (encodeRune r).length ∧ ∀ x ∈ encodeRune r, 0x80 ≤ x.toNat := by
  unfold IsScalar at hs
  unfold encodeRune
  split_ifs
  all_goals
    refine ⟨by simp, ?_⟩
    simp only [List.map_cons, List.map_nil, List.mem_cons, List.mem_singleton,
      forall_eq_or_imp, forall_eq, List.not_mem_nil, false_imp_iff, imp_true_iff, and_true]
    refine ⟨?_, ?_⟩ <;> (try refine ⟨?_, ?_⟩) <;> (try refine ⟨?_, ?_⟩) <;>
      rw [toNat_toUInt8 (by omega)] <;> omega

theorem encodeRune_cons_high {r : Nat} (hs : IsScalar r) (h : ¬ r < 0x80) :
    ∃ b bs, encodeRune r = b :: bs ∧ 0x80 ≤ b.toNat := by
  obtain ⟨hlen, hhigh⟩ := encodeRune_high hs h
  match hr : encodeRune r, hlen with
  | b :: bs, _ => exact ⟨b, bs, rfl, hhigh b (hr ▸ .head _)⟩

end SfoConnectivity.Auth
