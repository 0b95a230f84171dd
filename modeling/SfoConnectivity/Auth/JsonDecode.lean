import SfoConnectivity.Auth.JsonEncode

/-! # `encoding/json`: the decoder's walk over valid input

After `checkValid`, `Unmarshal` walks the input a second time (`value`, `object`, `array`,
`rescanLiteral`), unquoting strings (`unquoteBytes`) and keeping numbers as their literal for
`literalStore`. Here the walk builds the `Value` it meets; `none` is the decoder's
`phasePanicMsg`, which input the scanner accepted does not reach. `unquoteBytes` is its slow
loop: its fast path returns the same bytes.
-/

namespace SfoConnectivity.Auth

/-- A JSON value as the decoder meets it: strings unquoted, numbers as their literal. -/
inductive Value
  | null
  | bool (b : Bool)
  | number (literal : List UInt8)
  | string (s : List UInt8)
  | array (elems : List Value)
  | object (members : List (List UInt8 × Value))

/-- `scanWhile(scanSkipSpace)`. -/
def skipSpace (s : List UInt8) : List UInt8 := s.dropWhile isSpace

/-- `rescanLiteral` on a string: the bytes up to the closing quote, and what follows it. -/
def rescanString : List UInt8 → List UInt8 × List UInt8
  | [] => ([], [])
  | c :: s =>
    if c = 34 then ([], s)
    else if c = 92 then
      match s with
      | [] => ([c], [])
      | e :: s' => let r := rescanString s'; (c :: e :: r.1, r.2)
    else let r := rescanString s; (c :: r.1, r.2)

/-- The bytes `rescanLiteral` takes into a number. -/
def isNumberByte (c : UInt8) : Bool := isDigit c ∨ c = 46 ∨ c = 101 ∨ c = 69 ∨ c = 43 ∨ c = 45

/-! ## `unquoteBytes` -/

/-- One hex digit of `getu4`. -/
def unhex (c : UInt8) : Option Nat :=
  if 48 ≤ c ∧ c ≤ 57 then some (c.toNat - 48)
  else if 97 ≤ c ∧ c ≤ 102 then some (c.toNat - 87)
  else if 65 ≤ c ∧ c ≤ 70 then some (c.toNat - 55)
  else none

/-- `getu4`: the value of the `\uXXXX` escape that `s` starts with. -/
def getu4 : List UInt8 → Option Nat
  | 92 :: 117 :: h₁ :: h₂ :: h₃ :: h₄ :: _ => do
    let d₁ ← unhex h₁
    let d₂ ← unhex h₂
    let d₃ ← unhex h₃
    let d₄ ← unhex h₄
    return ((d₁ * 16 + d₂) * 16 + d₃) * 16 + d₄
  | _ => none

/-- `utf16.IsSurrogate`. -/
def isSurrogate (r : Nat) : Bool := 0xD800 ≤ r ∧ r < 0xE000

/-- `utf16.DecodeRune`: the rune of a surrogate pair, else `RuneError`. -/
def decodePair (r₁ r₂ : Nat) : Nat :=
  if 0xD800 ≤ r₁ ∧ r₁ < 0xDC00 ∧ 0xDC00 ≤ r₂ ∧ r₂ < 0xE000 then
    (r₁ - 0xD800) * 2 ^ 10 + (r₂ - 0xDC00) + 0x10000
  else runeError

/-- The two-byte escapes of `unquoteBytes`. -/
def shortEscape (e : UInt8) : Option UInt8 :=
  if e = 34 ∨ e = 92 ∨ e = 47 ∨ e = 39 then some e
  else if e = 98 then some 8
  else if e = 102 then some 12
  else if e = 110 then some 10
  else if e = 114 then some 13
  else if e = 116 then some 9
  else none

/-- The loop of `unquoteBytes` over the bytes between the quotes. -/
def unquoteBody : List UInt8 → Option (List UInt8)
  | [] => some []
  | c :: s =>
    if c = 92 then
      match s with
      | [] => none
      | e :: s' =>
        if e = 117 then
          match getu4 (c :: e :: s') with
          | none => none
          | some rr =>
            if isSurrogate rr then
              let dec := match getu4 (s'.drop 4) with
                | some rr₁ => decodePair rr rr₁
                | none => runeError
              if dec ≠ runeError then (encodeRune dec ++ ·) <$> unquoteBody ((s'.drop 4).drop 6)
              else (encodeRune runeError ++ ·) <$> unquoteBody (s'.drop 4)
            else (encodeRune rr ++ ·) <$> unquoteBody (s'.drop 4)
        else
          match shortEscape e with
          | some b => (b :: ·) <$> unquoteBody s'
          | none => none
    else if c = 34 ∨ c < 0x20 then none
    else if c < 0x80 then (c :: ·) <$> unquoteBody s
    else
      let r := decodeRune (c :: s)
      (encodeRune r.1 ++ ·) <$> unquoteBody ((c :: s).drop r.2)
termination_by s => s.length
decreasing_by
  all_goals simp_wf
  all_goals first | omega | exact decodeRune_snd_pos _ _

/-! ## The walk -/

mutual

/-- `value`, at the first byte of a value. -/
def parseValue : Nat → List UInt8 → Option (Value × List UInt8)
  | 0, _ => none
  | _, [] => none
  | fuel + 1, c :: s =>
    if c = 123 then parseObject fuel s []
    else if c = 91 then parseArray fuel s []
    else if c = 34 then
      match rescanString s with
      | (lit, rest) => (fun v => (.string v, rest)) <$> unquoteBody lit
    else if c = 116 then some (.bool true, s.drop 3)
    else if c = 102 then some (.bool false, s.drop 4)
    else if c = 110 then some (.null, s.drop 3)
    else
      match (c :: s).span isNumberByte with
      | (lit, rest) => some (.number lit, rest)

/-- The loop of `object`, after `{` or `,`. -/
def parseObject : Nat → List UInt8 → List (List UInt8 × Value) → Option (Value × List UInt8)
  | 0, _, _ => none
  | fuel + 1, s, acc =>
    match skipSpace s with
    | 125 :: s => some (.object acc, s)
    | 34 :: s =>
      match rescanString s with
      | (lit, rest) =>
        match unquoteBody lit, skipSpace rest with
        | some key, 58 :: rest =>
          match parseValue fuel (skipSpace rest) with
          | some (v, rest) =>
            match skipSpace rest with
            | 44 :: rest => parseObject fuel rest (acc ++ [(key, v)])
            | 125 :: rest => some (.object (acc ++ [(key, v)]), rest)
            | _ => none
          | none => none
        | _, _ => none
    | _ => none

/-- The loop of `array`, after `[` or `,`. -/
def parseArray : Nat → List UInt8 → List Value → Option (Value × List UInt8)
  | 0, _, _ => none
  | fuel + 1, s, acc =>
    match skipSpace s with
    | 93 :: s => some (.array acc, s)
    | s =>
      match parseValue fuel s with
      | some (v, rest) =>
        match skipSpace rest with
        | 44 :: rest => parseArray fuel rest (acc ++ [v])
        | 93 :: rest => some (.array (acc ++ [v]), rest)
        | _ => none
      | none => none

end

/-! ## `strconv.ParseInt` and the folding of field names -/

/-- `strconv.ParseUint(s, 10, 64)` but for its range check, which `ParseInt` makes again. -/
def parseUint (s : List UInt8) : Option Nat :=
  if s ≠ [] ∧ s.all isDigit then some (s.foldl (fun n c => n * 10 + (c.toNat - 48)) 0) else none

/-- The sign `ParseInt` picks off: `+` or `-`, which is then dropped. -/
def pickSign : List UInt8 → Bool × List UInt8
  | [] => (false, [])
  | c :: t => if c = 43 then (false, t) else if c = 45 then (true, t) else (false, c :: t)

/-- `strconv.ParseInt(s, 10, 64)`. -/
def parseInt (s : List UInt8) : Option Int :=
  let (neg, digits) := pickSign s
  match parseUint digits with
  | none => none
  | some un =>
    if !neg ∧ 2 ^ 63 ≤ un then none
    else if neg ∧ 2 ^ 63 < un then none
    else some (if neg then -(un : Int) else un)

/-- `unicode.ToUpper(unicode.ToLower(r))` on the runes that fold to an ASCII letter: `İ`, `ı`,
`ſ` and the Kelvin sign. Every other rune from `0x80` up folds to a rune from `0x80` up, which
no ASCII name can equal; it is kept as it is. -/
def foldRune (r : Nat) : Nat :=
  if r = 0x130 ∨ r = 0x131 then 73 else if r = 0x17F then 83 else if r = 0x212A then 75 else r

/-- `foldName`: ASCII letters to upper case, other runes folded. -/
def foldName : List UInt8 → List UInt8
  | [] => []
  | c :: s =>
    if c < 0x80 then (if 97 ≤ c ∧ c ≤ 122 then c - 32 else c) :: foldName s
    else
      let r := decodeRune (c :: s)
      encodeRune (foldRune r.1) ++ foldName ((c :: s).drop r.2)
termination_by s => s.length
decreasing_by
  all_goals simp_wf
  all_goals first | omega | exact decodeRune_snd_pos _ _

/-! ## The walk over what `Marshal` writes -/

theorem skipSpace_of_not_isSpace {c : UInt8} (h : ¬ isSpace c) (s : List UInt8) :
    skipSpace (c :: s) = c :: s := by
  simp [skipSpace, h]

theorem hex_ne {h : UInt8} (hh : isHex h) : h ≠ 34 ∧ h ≠ 92 := by
  simp only [isHex, isDigit, decide_eq_true_eq, byte_le_iff, byte_toNat_lit] at hh
  simp only [Ne, byte_eq_iff, byte_toNat_lit]
  omega

theorem rescanString_quote (s : List UInt8) : rescanString (34 :: s) = ([], s) := by
  cases s <;> rfl

theorem rescanString_escape (e : UInt8) (s : List UInt8) :
    rescanString (92 :: e :: s) = (92 :: e :: (rescanString s).1, (rescanString s).2) := rfl

theorem rescanString_plain {c : UInt8} (h₁ : c ≠ 34) (h₂ : c ≠ 92) (s : List UInt8) :
    rescanString (c :: s) = (c :: (rescanString s).1, (rescanString s).2) := by
  cases s <;> simp only [rescanString, if_neg h₁, if_neg h₂]

/-- `rescanLiteral` stops at the quote that closes a literal body. -/
theorem rescanString_literalBody {body : List UInt8} (h : LiteralBody body) (rest : List UInt8) :
    rescanString (body ++ 34 :: rest) = (body, rest) := by
  induction h with
  | nil => exact rescanString_quote rest
  | plain _ h₂ h₃ _ ih => rw [List.cons_append, rescanString_plain h₂ h₃, ih]
  | short _ _ ih => rw [List.cons_append, List.cons_append, rescanString_escape, ih]
  | unicode h₁ h₂ h₃ h₄ _ ih =>
    simp only [List.cons_append, rescanString_escape, rescanString_plain (hex_ne h₁).1 (hex_ne h₁).2,
      rescanString_plain (hex_ne h₂).1 (hex_ne h₂).2, rescanString_plain (hex_ne h₃).1 (hex_ne h₃).2,
      rescanString_plain (hex_ne h₄).1 (hex_ne h₄).2, ih]

/-! ### One step of `unquoteBytes` per kind of byte -/

section Unquote

variable {c e b : UInt8} {s : List UInt8}

theorem unquoteBody_ascii (h₁ : c ≠ 92) (h₂ : ¬ (c = 34 ∨ c < 0x20)) (h₃ : c < 0x80) :
    unquoteBody (c :: s) = (c :: ·) <$> unquoteBody s := by
  rw [unquoteBody.eq_def]
  simp only [if_neg h₁, if_neg h₂, if_pos h₃]

theorem unquoteBody_high (h₁ : c ≠ 92) (h₂ : ¬ (c = 34 ∨ c < 0x20)) (h₃ : ¬ c < 0x80) :
    unquoteBody (c :: s) =
      (encodeRune (decodeRune (c :: s)).1 ++ ·) <$> unquoteBody ((c :: s).drop (decodeRune (c :: s)).2) := by
  rw [unquoteBody.eq_def]
  simp only [if_neg h₁, if_neg h₂, if_neg h₃]

theorem unquoteBody_short (he : e ≠ 117) (hb : shortEscape e = some b) :
    unquoteBody (92 :: e :: s) = (b :: ·) <$> unquoteBody s := by
  rw [unquoteBody.eq_def]
  simp only [if_true, if_neg he, hb]

theorem unquoteBody_u {rr : Nat} (h : getu4 (92 :: 117 :: s) = some rr) (hr : ¬ isSurrogate rr) :
    unquoteBody (92 :: 117 :: s) = (encodeRune rr ++ ·) <$> unquoteBody (s.drop 4) := by
  rw [unquoteBody.eq_def]
  simp only [if_true, h, hr]
  rfl

end Unquote

theorem unhex_hexDigit : ∀ n, n < 16 → unhex (hexDigit n) = some n := by decide

theorem getu4_hex (d₁ d₂ d₃ d₄ : Nat) (h₁ : d₁ < 16) (h₂ : d₂ < 16) (h₃ : d₃ < 16) (h₄ : d₄ < 16)
    (s : List UInt8) :
    getu4 (92 :: 117 :: hexDigit d₁ :: hexDigit d₂ :: hexDigit d₃ :: hexDigit d₄ :: s) =
      some (((d₁ * 16 + d₂) * 16 + d₃) * 16 + d₄) := by
  simp only [getu4, unhex_hexDigit _ h₁, unhex_hexDigit _ h₂, unhex_hexDigit _ h₃,
    unhex_hexDigit _ h₄]
  rfl

theorem getu4_u00 (b : UInt8) (s : List UInt8) :
    getu4 (92 :: 117 :: 48 :: 48 :: hexDigit (b.toNat / 16) :: hexDigit (b.toNat % 16) :: s) =
      some b.toNat := by
  have hb := b.toNat_lt_size
  refine (getu4_hex 0 0 (b.toNat / 16) (b.toNat % 16) (by decide) (by decide)
    (by simp only [UInt8.size] at hb; omega) (Nat.mod_lt _ (by decide)) s).trans ?_
  congr 1
  omega

theorem getu4_u202 (r : Nat) (s : List UInt8) :
    getu4 (92 :: 117 :: 50 :: 48 :: 50 :: hexDigit (r % 16) :: s) = some (0x2020 + r % 16) := by
  refine (getu4_hex 2 0 2 (r % 16) (by decide) (by decide) (by decide) (Nat.mod_lt _ (by decide))
    s).trans ?_
  congr 1

/-- `unquoteBytes` reads back what `appendString` writes for an ASCII byte it escapes. -/
theorem unquoteBody_escapeASCII {b : UInt8} (hb : b < 0x80) (rest : List UInt8) :
    unquoteBody (escapeASCII b ++ rest) = (b :: ·) <$> unquoteBody rest := by
  unfold escapeASCII
  split_ifs with h₁ h₂ h₃ h₄ h₅ h₆
  · obtain rfl | rfl := h₁ <;> exact unquoteBody_short (by decide) rfl
  all_goals try (subst_vars; exact unquoteBody_short (by decide) rfl)
  have hb' : b.toNat < 128 := hb
  simp only [List.cons_append, List.nil_append]
  rw [unquoteBody_u (getu4_u00 b _) (by simp [isSurrogate]; omega), encodeRune_of_lt hb']
  simp only [List.drop, List.cons_append, List.nil_append, List.singleton_append]
  rw [show b.toNat.toUInt8 = b from UInt8.toNat.inj (toNat_toUInt8 (by omega))]

/-- `unquoteBytes` reads back what `appendString` writes for a scalar value. -/
theorem unquoteBody_escapeRune {r : Nat} (hs : IsScalar r) (rest : List UInt8) :
    unquoteBody (escapeRune r ++ rest) = (encodeRune r ++ ·) <$> unquoteBody rest := by
  unfold escapeRune
  split_ifs with h₁ h₂ h₃
  · simp only [htmlSafe, decide_eq_true_eq] at h₂
    rw [encodeRune_of_lt h₁, List.singleton_append]
    exact unquoteBody_ascii h₂.2.2.2.1 (not_or.2 ⟨h₂.2.2.1, by simpa using h₂.1⟩) h₂.2.1
  · have hr : r.toUInt8 < 0x80 := by
      show r.toUInt8.toNat < 128
      rw [toNat_toUInt8 (by omega)]
      exact h₁
    rw [unquoteBody_escapeASCII hr, encodeRune_of_lt h₁]
    rfl
  · have e := getu4_u202 r rest
    rw [show 0x2020 + r % 16 = r by omega] at e
    simp only [List.cons_append, List.nil_append]
    rw [unquoteBody_u e (by simp [isSurrogate]; omega)]
    rfl
  · obtain ⟨b, bs, hbs, hb⟩ := encodeRune_cons_high hs h₁
    have hne : b ≠ 92 ∧ ¬ (b = 34 ∨ b < 0x20) ∧ ¬ b < 0x80 := by
      simp only [Ne, byte_eq_iff, byte_lt_iff, byte_toNat_lit]
      omega
    rw [hbs, List.cons_append, unquoteBody_high hne.1 hne.2.1 hne.2.2, ← List.cons_append, ← hbs,
      decodeRune_encodeRune rest hs, List.drop_left]

/-- `unquoteBytes` reads back what `appendString` writes for a valid UTF-8 string. -/
theorem unquoteBody_flatMap {rs : List Nat} (h : ∀ r ∈ rs, IsScalar r) :
    unquoteBody (rs.flatMap escapeRune) = some (rs.flatMap encodeRune) := by
  induction rs with
  | nil => simp only [List.flatMap_nil, unquoteBody]
  | cons r rs ih =>
    rw [List.flatMap_cons, List.flatMap_cons, unquoteBody_escapeRune (h r (.head _)),
      ih fun r hr => h r (.tail _ hr)]
    rfl

/-! ### `ParseInt` reads what `AppendInt` writes -/

theorem foldl_decimal {l : List Nat} (h : ∀ d ∈ l, d < 10) :
    (l.reverse.map fun d => (48 + d).toUInt8).foldl (fun n c => n * 10 + (c.toNat - 48)) 0 =
      Nat.ofDigits 10 l := by
  induction l with
  | nil => rfl
  | cons d l ih =>
    have hd := h d (.head _)
    rw [List.reverse_cons, List.map_append, List.foldl_append, ih fun d hd => h d (.tail _ hd)]
    simp only [List.map_cons, List.map_nil, List.foldl_cons, List.foldl_nil, Nat.ofDigits_cons,
      Nat.cast_id, toNat_toUInt8 (show 48 + d < 256 by omega)]
    omega

theorem decimalDigits_isDigit (n : Nat) : ∀ c ∈ decimalDigits n, isDigit c := by
  unfold decimalDigits
  split_ifs
  · decide
  · simp only [List.mem_map, List.mem_reverse]
    rintro c ⟨d, hd, rfl⟩
    have := Nat.digits_lt_base (by decide) hd
    simp only [isDigit, decide_eq_true_eq, byte_le_iff, byte_toNat_lit, toNat_toUInt8 (show 48 + d < 256 by omega)]
    omega

theorem decimalDigits_ne_nil (n : Nat) : decimalDigits n ≠ [] := by
  unfold decimalDigits
  split_ifs with h
  · simp
  · simpa using Nat.digits_ne_nil_iff_ne_zero.2 h

theorem parseUint_decimalDigits (n : Nat) : parseUint (decimalDigits n) = some n := by
  rw [parseUint, if_pos ⟨decimalDigits_ne_nil n, List.all_eq_true.2 (decimalDigits_isDigit n)⟩]
  unfold decimalDigits
  split_ifs with h
  · subst h; rfl
  · rw [foldl_decimal fun d hd => Nat.digits_lt_base (by decide) hd, Nat.ofDigits_digits]

/-- The digits of a non-zero number start with `1` to `9`. -/
theorem decimalDigits_head {n : Nat} (hn : n ≠ 0) :
    ∃ d ds, decimalDigits n = d :: ds ∧ 49 ≤ d.toNat ∧ d.toNat ≤ 57 := by
  have hne : Nat.digits 10 n ≠ [] := Nat.digits_ne_nil_iff_ne_zero.2 hn
  have hlast := Nat.getLast_digit_ne_zero 10 hn
  have hlt := Nat.digits_lt_base (b := 10) (m := n) (by decide) (List.getLast_mem hne)
  refine ⟨(48 + (Nat.digits 10 n).getLast hne).toUInt8,
    ((Nat.digits 10 n).dropLast.reverse.map fun d => (48 + d).toUInt8), ?_, ?_⟩
  · rw [decimalDigits, if_neg hn]
    conv_lhs => rw [← List.dropLast_append_getLast hne]
    simp
  · rw [toNat_toUInt8 (by omega)]
    omega

theorem pickSign_of_digit {d : UInt8} (h : 48 ≤ d.toNat) (ds : List UInt8) :
    pickSign (d :: ds) = (false, d :: ds) := by
  rw [pickSign, if_neg, if_neg] <;> simp only [byte_eq_iff, byte_toNat_lit] <;> omega

/-- `ParseInt` reads back what `AppendInt` writes for any `int64`. -/
theorem parseInt_formatInt {i : Int} (h₁ : -2 ^ 63 ≤ i) (h₂ : i < 2 ^ 63) :
    parseInt (formatInt i) = some i := by
  unfold formatInt
  split_ifs with hi
  · have hp : pickSign ([45] ++ decimalDigits i.natAbs) = (true, decimalDigits i.natAbs) := rfl
    simp only [parseInt, hp, parseUint_decimalDigits]
    rw [if_neg (by simp), if_neg (by simp; omega)]
    simp only [if_true]
    congr 1
    omega
  · obtain ⟨ds, hp⟩ : ∃ ds, pickSign ([] ++ decimalDigits i.natAbs) = (false, ds) ∧
        parseUint ds = some i.natAbs := by
      by_cases h0 : i.natAbs = 0
      · exact ⟨_, by rw [h0]; rfl, by rw [h0]; rfl⟩
      · obtain ⟨d, ds, hds, hd, -⟩ := decimalDigits_head h0
        refine ⟨d :: ds, by rw [List.nil_append, hds, pickSign_of_digit (by omega)], ?_⟩
        rw [← hds, parseUint_decimalDigits]
    simp only [parseInt, hp.1, hp.2]
    rw [if_neg (by simp; omega), if_neg (by simp)]
    simp only [Bool.false_eq_true, if_false]
    congr 1
    omega

end SfoConnectivity.Auth
