import Mathlib.Algebra.Group.Nat.Basic
import Mathlib.Data.List.Basic

/-! # `base64.RawURLEncoding`

The URL-safe alphabet without padding, as `Signer.Sign` and `Signer.Verify` use it. Decoding
is Go's non-strict mode: it skips `\r` and `\n` anywhere, and ignores the low bits of the last
character that no decoded byte takes. A corrupt input is reported by the offset Go's
`CorruptInputError` carries. Bytes are `UInt8`; the arithmetic on groups is over `Nat`.
-/

namespace SfoConnectivity.Auth

/-- `encodeURL`, the alphabet. -/
def encodeURL : List UInt8 :=
  "ABCDEFGHIJKLMNOPQRSTUVWXYZabcdefghijklmnopqrstuvwxyz0123456789-_".toList.map
    fun c => c.toNat.toUInt8

/-- `enc.encode[v]`. -/
def encodeChar (v : Nat) : UInt8 := encodeURL.getD v 0

/-- `enc.decodeMap[b]`: the index of `b` in the alphabet, none for Go's `0xFF`. -/
def decodeMap (b : UInt8) : Option Nat := encodeURL.indexOf? b

/-- `val>>18&0x3F`, `val>>12&0x3F`, `val>>6&0x3F`, `val&0x3F` of a group of three bytes. -/
def sextets (val : Nat) : List Nat :=
  [val / 2 ^ 18 % 64, val / 2 ^ 12 % 64, val / 2 ^ 6 % 64, val % 64]

/-- `Encoding.EncodeToString`: whole groups of three bytes, then the remaining one or two bytes
as two or three characters, no padding. -/
def encodeToString : List UInt8 → List UInt8
  | b₀ :: b₁ :: b₂ :: rest =>
    (sextets (b₀.toNat * 2 ^ 16 + b₁.toNat * 2 ^ 8 + b₂.toNat)).map encodeChar ++
      encodeToString rest
  | [b₀, b₁] => ((sextets (b₀.toNat * 2 ^ 16 + b₁.toNat * 2 ^ 8)).take 3).map encodeChar
  | [b₀] => ((sextets (b₀.toNat * 2 ^ 16)).take 2).map encodeChar
  | [] => []

/-- The bytes of a quantum of two to four sextets: `dlen - 1` of them. -/
def quantumBytes (ds : List Nat) : List UInt8 :=
  let val := ds.getD 0 0 * 2 ^ 18 + ds.getD 1 0 * 2 ^ 12 + ds.getD 2 0 * 2 ^ 6 + ds.getD 3 0
  ([val / 2 ^ 16 % 2 ^ 8, val / 2 ^ 8 % 2 ^ 8, val % 2 ^ 8].map Nat.toUInt8).take (ds.length - 1)

/-- The end of the input inside a quantum: none, two or three sextets are fine, one is not. -/
def finishQuantum (si : Nat) (ds : List Nat) : Except Nat (List UInt8) :=
  match ds with
  | [] => .ok []
  | [_] => .error (si - 1)
  | ds => .ok (quantumBytes ds)

/-- `Encoding.Decode`, one input byte at a time: `si` is its offset, `ds` the sextets of the
quantum so far. -/
def decodeFrom : List UInt8 → Nat → List Nat → Except Nat (List UInt8)
  | [], si, ds => finishQuantum si ds
  | b :: rest, si, ds =>
    match decodeMap b with
    | some v =>
      if ds.length = 3 then (quantumBytes (ds ++ [v]) ++ ·) <$> decodeFrom rest (si + 1) []
      else decodeFrom rest (si + 1) (ds ++ [v])
    | none => if b = 10 ∨ b = 13 then decodeFrom rest (si + 1) ds else .error si

/-- `Encoding.DecodeString`; an error is the offset of `CorruptInputError`. -/
def decodeString (s : List UInt8) : Except Nat (List UInt8) := decodeFrom s 0 []

/-- `CorruptInputError.Error`. -/
def corruptInputError (offset : Nat) : String :=
  "illegal base64 data at input byte " ++ toString offset

/-! ## The alphabet -/

theorem decodeMap_encodeChar {v : Nat} (hv : v < 64) : decodeMap (encodeChar v) = some v := by
  have : ∀ v : Fin 64, decodeMap (encodeChar v) = some v.val := by decide
  exact this ⟨v, hv⟩

/-- No character of the alphabet is `.`, `\r` or `\n`. -/
theorem encodeChar_ne {v : Nat} (hv : v < 64) :
    encodeChar v ≠ 46 ∧ encodeChar v ≠ 13 ∧ encodeChar v ≠ 10 := by
  have : ∀ v : Fin 64, encodeChar v ≠ 46 ∧ encodeChar v ≠ 13 ∧ encodeChar v ≠ 10 := by decide
  exact this ⟨v, hv⟩

theorem sextets_lt {val v : Nat} (h : v ∈ sextets val) : v < 64 := by
  simp only [sextets, List.mem_cons, List.mem_singleton, List.not_mem_nil, or_false] at h
  rcases h with rfl | rfl | rfl | rfl <;> exact Nat.mod_lt _ (by decide)

theorem mem_encodeToString {bs : List UInt8} {c : UInt8} (h : c ∈ encodeToString bs) :
    ∃ v < 64, c = encodeChar v := by
  induction bs using encodeToString.induct with
  | case1 b₀ b₁ b₂ rest ih =>
    rcases List.mem_append.mp h with h | h
    · obtain ⟨v, hv, rfl⟩ := List.mem_map.mp h
      exact ⟨v, sextets_lt hv, rfl⟩
    · exact ih h
  | case2 b₀ b₁ =>
    obtain ⟨v, hv, rfl⟩ := List.mem_map.mp h
    exact ⟨v, sextets_lt (List.mem_of_mem_take hv), rfl⟩
  | case3 b₀ =>
    obtain ⟨v, hv, rfl⟩ := List.mem_map.mp h
    exact ⟨v, sextets_lt (List.mem_of_mem_take hv), rfl⟩
  | case4 => cases h

/-! ## Decoding what was encoded -/

theorem toUInt8_toNat (b : UInt8) : b.toNat.toUInt8 = b :=
  UInt8.toNat.inj (UInt8.toNat_ofNat_of_lt b.toNat_lt_size)

theorem toUInt8_of_toNat {b : UInt8} {n : Nat} (h : b.toNat = n) : n.toUInt8 = b :=
  h ▸ toUInt8_toNat b

theorem decodeFrom_encodeChar {v : Nat} (hv : v < 64) (rest : List UInt8) (si : Nat)
    (ds : List Nat) : decodeFrom (encodeChar v :: rest) si ds =
      if ds.length = 3 then (quantumBytes (ds ++ [v]) ++ ·) <$> decodeFrom rest (si + 1) []
      else decodeFrom rest (si + 1) (ds ++ [v]) := by
  rw [decodeFrom, decodeMap_encodeChar hv]

/-- Sextets that do not complete a quantum are only collected. -/
theorem decodeFrom_collect (xs : List Nat) (hxs : ∀ x ∈ xs, x < 64) (rest : List UInt8)
    (si : Nat) (ds : List Nat) (hlen : ds.length + xs.length ≤ 3) :
    decodeFrom (xs.map encodeChar ++ rest) si ds = decodeFrom rest (si + xs.length) (ds ++ xs) := by
  induction xs generalizing si ds with
  | nil => simp
  | cons x xs ih =>
    have hx := hxs x (List.mem_cons_self _ _)
    simp only [List.map_cons, List.cons_append, List.length_cons] at hlen ⊢
    rw [decodeFrom_encodeChar hx, if_neg (show ¬ ds.length = 3 by omega),
      ih (fun y hy => hxs y (List.mem_cons_of_mem _ hy)) _ _ (by simp; omega)]
    simp [Nat.add_assoc, Nat.add_comm 1]

/-- A group's first `k` sextets, put back together, give its first `k - 1` bytes. -/
theorem quantumBytes_sextets (val : Nat) {k : Nat} (hk : 2 ≤ k ∧ k ≤ 4) :
    quantumBytes ((sextets val).take k) =
      ([val / 2 ^ 16 % 2 ^ 8, val / 2 ^ 8 % 2 ^ 8, val % 2 ^ 8].map Nat.toUInt8).take (k - 1) := by
  obtain rfl | rfl | rfl : k = 2 ∨ k = 3 ∨ k = 4 := by omega
  all_goals
    simp only [quantumBytes, sextets, List.take, List.getD_cons_zero, List.getD_cons_succ,
      List.getD_nil, List.length_cons, List.length_nil, List.map_cons, List.map_nil,
      List.cons.injEq, and_true, Nat.reduceAdd, Nat.reduceSub]
  · congr 1
    omega
  · exact ⟨congrArg _ (by omega), congrArg _ (by omega)⟩
  · exact ⟨congrArg _ (by omega), congrArg _ (by omega), congrArg _ (by omega)⟩

theorem decodeFrom_encodeToString (bs : List UInt8) (si : Nat) :
    decodeFrom (encodeToString bs) si [] = .ok bs := by
  induction bs using encodeToString.induct generalizing si with
  | case1 b₀ b₁ b₂ rest ih =>
    have h₀ : b₀.toNat < 256 := b₀.toNat_lt_size
    have h₁ : b₁.toNat < 256 := b₁.toNat_lt_size
    have h₂ : b₂.toNat < 256 := b₂.toNat_lt_size
    set val := b₀.toNat * 2 ^ 16 + b₁.toNat * 2 ^ 8 + b₂.toNat
    have hsplit : (sextets val).map encodeChar ++ encodeToString rest =
        ((sextets val).take 3).map encodeChar ++ (encodeChar (val % 64) :: encodeToString rest) := by
      simp [sextets]
    have hfour : [] ++ (sextets val).take 3 ++ [val % 64] = (sextets val).take 4 := by
      simp [sextets]
    rw [encodeToString, hsplit, decodeFrom_collect _ (fun x hx => sextets_lt (List.mem_of_mem_take hx))
      _ _ _ (by simp [sextets]), decodeFrom_encodeChar (Nat.mod_lt _ (by decide)),
      if_pos (by simp [sextets]), ih, hfour, quantumBytes_sextets val ⟨by decide, le_rfl⟩]
    simp only [List.map_cons, List.map_nil, Nat.reduceSub, List.take, Except.map_ok,
      List.cons_append, List.nil_append, Functor.map, Except.map]
    rw [toUInt8_of_toNat (b := b₀) (by omega), toUInt8_of_toNat (b := b₁) (by omega),
      toUInt8_of_toNat (b := b₂) (by omega)]
  | case2 b₀ b₁ =>
    have h₀ : b₀.toNat < 256 := b₀.toNat_lt_size
    have h₁ : b₁.toNat < 256 := b₁.toNat_lt_size
    set val := b₀.toNat * 2 ^ 16 + b₁.toNat * 2 ^ 8
    rw [encodeToString, ← List.append_nil (List.map _ _), decodeFrom_collect _
      (fun x hx => sextets_lt (List.mem_of_mem_take hx)) _ _ _ (by simp [sextets])]
    have hq : decodeFrom [] (si + ((sextets val).take 3).length) ([] ++ (sextets val).take 3) =
        .ok (quantumBytes ((sextets val).take 3)) := by
      simp [sextets, decodeFrom, finishQuantum]
    rw [hq, quantumBytes_sextets val ⟨by decide, by decide⟩]
    simp only [List.map_cons, List.map_nil, Nat.reduceSub, List.take]
    rw [toUInt8_of_toNat (b := b₀) (by omega), toUInt8_of_toNat (b := b₁) (by omega)]
  | case3 b₀ =>
    have h₀ : b₀.toNat < 256 := b₀.toNat_lt_size
    rw [encodeToString, ← List.append_nil (List.map _ _), decodeFrom_collect _
      (fun x hx => sextets_lt (List.mem_of_mem_take hx)) _ _ _ (by simp [sextets])]
    have hq : decodeFrom [] (si + ((sextets (b₀.toNat * 2 ^ 16)).take 2).length)
        ([] ++ (sextets (b₀.toNat * 2 ^ 16)).take 2) =
        .ok (quantumBytes ((sextets (b₀.toNat * 2 ^ 16)).take 2)) := by
      simp [sextets, decodeFrom, finishQuantum]
    rw [hq, quantumBytes_sextets _ ⟨le_rfl, by decide⟩]
    simp only [List.map_cons, List.map_nil, Nat.reduceSub, List.take]
    rw [toUInt8_of_toNat (b := b₀) (by omega)]
  | case4 => rfl

end SfoConnectivity.Auth
