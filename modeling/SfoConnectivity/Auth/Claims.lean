import SfoConnectivity.Auth.JsonDecode

/-! # `TokenClaims` through `json.Marshal` and `json.Unmarshal`

A Go string is its bytes, so `SessionID` and `Role` are byte lists; `ExpiresAt` is an `int64`.
`Unmarshal` is `checkValid`, then the walk, then the store of what it met into the struct.
-/

namespace SfoConnectivity.Auth

/-- `TokenClaims`. -/
structure TokenClaims where
  sessionID : List UInt8
  role : List UInt8
  expiresAt : BitVec 64
  deriving DecidableEq, Repr

/-- The bytes of a text that the source writes as a literal. -/
def ascii (s : String) : List UInt8 := s.toList.map fun ch => ch.toNat.toUInt8

/-- The text of bytes that are ASCII, for error messages. -/
def asciiString (bs : List UInt8) : String := String.mk (bs.map fun b => Char.ofNat b.toNat)

/-- `json.Marshal(claims)`: `{`, each field under its tag, `}`. -/
def marshal (c : TokenClaims) : List UInt8 :=
  ascii "\x7b\"sid\":" ++ appendString c.sessionID ++ ascii ",\"role\":" ++ appendString c.role ++
    ascii ",\"exp\":" ++ formatInt c.expiresAt.toInt ++ ascii "\x7d"

/-! ## Storing into the struct -/

/-- The fields of `TokenClaims`. -/
inductive Field
  | sid | role | exp
  deriving DecidableEq, Repr

/-- The field's tag. -/
def Field.tag : Field → String
  | .sid => "sid"
  | .role => "role"
  | .exp => "exp"

/-- The field's Go type, as `reflect.Type.String` writes it. -/
def Field.goType : Field → String
  | .sid => "string"
  | .role => "string"
  | .exp => "int64"

def fields : List Field := [.sid, .role, .exp]

/-- `fields.byExactName[key]`, else `fields.byFoldedName[foldName(key)]`. -/
def fieldFor (key : List UInt8) : Option Field :=
  fields.find? (fun f => key = ascii f.tag) <|>
    fields.find? (fun f => foldName key = foldName (ascii f.tag))

/-- The `Value` that `UnmarshalTypeError` names. -/
def Value.kind : Value → String
  | .null => "null"
  | .bool _ => "bool"
  | .number _ => "number"
  | .string _ => "string"
  | .array _ => "array"
  | .object _ => "object"

/-- `UnmarshalTypeError.Error` inside the struct: the field path is the tag. -/
def fieldTypeError (value : String) (f : Field) : String :=
  "json: cannot unmarshal " ++ value ++ " into Go struct field TokenClaims." ++ f.tag ++
    " of type " ++ f.goType

/-- `UnmarshalTypeError.Error` at the top level. -/
def valueTypeError (value : String) : String :=
  "json: cannot unmarshal " ++ value ++ " into Go value of type auth.TokenClaims"

/-- `literalStore`, `object` or `array` into one field: the claims after it, or the
`UnmarshalTypeError` it saves. A `null` leaves a string or an `int64` as it is. -/
def storeField (c : TokenClaims) (f : Field) (v : Value) : Except String TokenClaims :=
  match v, f with
  | .null, _ => .ok c
  | .string s, .sid => .ok { c with sessionID := s }
  | .string s, .role => .ok { c with role := s }
  | .number lit, .exp =>
    match parseInt lit with
    | some n => .ok { c with expiresAt := BitVec.ofInt 64 n }
    | none => .error (fieldTypeError ("number " ++ asciiString lit) .exp)
  | v, f => .error (fieldTypeError v.kind f)

/-- The loop of `object` over the members: unknown keys are skipped; the first error is saved
(`saveError`) and the loop goes on. -/
def storeMembers : TokenClaims × Option String → List (List UInt8 × Value) →
    TokenClaims × Option String
  | acc, [] => acc
  | (c, saved), (key, v) :: ms =>
    match fieldFor key with
    | none => storeMembers (c, saved) ms
    | some f =>
      match storeField c f v with
      | .ok c' => storeMembers (c', saved) ms
      | .error e => storeMembers (c, saved <|> some e) ms

/-- The zero `TokenClaims` that `Verify` declares. -/
def zeroClaims : TokenClaims := ⟨[], [], 0⟩

/-- `d.value(&claims)` on a fresh `claims`, and the saved error `unmarshal` returns. -/
def decodeTokenClaims : Value → Except String TokenClaims
  | .object members =>
    match storeMembers (zeroClaims, none) members with
    | (c, none) => .ok c
    | (_, some e) => .error e
  | .null => .ok zeroClaims
  | v => .error (valueTypeError v.kind)

/-- `phasePanicMsg`. -/
def phasePanicMsg : String := "JSON decoder out of sync - data changing underfoot?"

/-- `json.Unmarshal(data, &claims)` into a fresh `claims`. -/
def unmarshal (data : List UInt8) : Except String TokenClaims :=
  match checkValid data with
  | .error e => .error e
  | .ok () =>
    match parseValue (data.length + 1) (skipSpace data) with
    | some (v, _) => decodeTokenClaims v
    | none => .error phasePanicMsg

/-! ## `int64` -/

theorem toInt_range (x : BitVec 64) : -2 ^ 63 ≤ x.toInt ∧ x.toInt < 2 ^ 63 := by
  rw [BitVec.toInt_eq_toNat_bmod]
  have h₁ := Int.le_bmod (x := x.toNat) (m := 2 ^ 64) (by decide)
  have h₂ := Int.bmod_lt (x := x.toNat) (m := 2 ^ 64) (by decide)
  constructor <;> omega

theorem ofInt_toInt (x : BitVec 64) : BitVec.ofInt 64 x.toInt = x := by
  apply BitVec.eq_of_toInt_eq
  rw [BitVec.toInt_ofInt, BitVec.toInt_eq_toNat_bmod, Int.bmod_bmod]

/-! ## `checkValid` takes whatever `Marshal` writes -/

section Scan

variable (ps : List ParseState) (et : Bool)

theorem scan_appendString (src : List UInt8) :
    (⟨.beginValue, ps, et⟩ : Scanner).scan (appendString src) = .ok ⟨.endValue, ps, et⟩ := by
  rw [appendString, List.cons_append, Scanner.scan_cons_ok (next_beginValue_quote ps et),
    Scanner.scan_append (scan_literalBody ps et (literalBody_appendStringBody src))]
  rfl

theorem scan_formatInt (i : Int) :
    (⟨.beginValue, ps, et⟩ : Scanner).scan (formatInt i) = .ok ⟨.one, ps, et⟩ ∨
      (⟨.beginValue, ps, et⟩ : Scanner).scan (formatInt i) = .ok ⟨.zero, ps, et⟩ := by
  by_cases h0 : i.natAbs = 0
  · right
    rw [formatInt, if_neg (by omega), h0]
    rfl
  obtain ⟨d, ds, hds, hd₁, hd₂⟩ := decimalDigits_head h0
  have hds' : ∀ c ∈ ds, isDigit c := fun c hc =>
    decimalDigits_isDigit _ c (by rw [hds]; exact .tail _ hc)
  left
  rw [formatInt, hds]
  split_ifs
  · rw [List.singleton_append, Scanner.scan_cons_ok (next_beginValue_minus ps et),
      Scanner.scan_cons_ok (next_neg_digit ps et hd₁ hd₂), scan_digits ps et hds']
  · rw [List.nil_append, Scanner.scan_cons_ok (next_beginValue_digit ps et hd₁ hd₂),
      scan_digits ps et hds']

end Scan

theorem checkValid_marshal (c : TokenClaims) : checkValid (marshal c) = .ok () := by
  have h₁ : Scanner.reset.scan (ascii "\x7b\"sid\":") = .ok ⟨.beginValue, [.objectValue], false⟩ :=
    rfl
  have h₂ : (⟨.endValue, [.objectValue], false⟩ : Scanner).scan (ascii ",\"role\":") =
      .ok ⟨.beginValue, [.objectValue], false⟩ := rfl
  have h₃ : (⟨.endValue, [.objectValue], false⟩ : Scanner).scan (ascii ",\"exp\":") =
      .ok ⟨.beginValue, [.objectValue], false⟩ := rfl
  simp only [checkValid, marshal, List.append_assoc]
  rw [Scanner.scan_append h₁, Scanner.scan_append (scan_appendString _ _ _), Scanner.scan_append h₂,
    Scanner.scan_append (scan_appendString _ _ _), Scanner.scan_append h₃]
  rcases scan_formatInt [.objectValue] false c.expiresAt.toInt with h | h <;>
    rw [Scanner.scan_append h] <;> rfl

/-! ## The walk meets the claims -/

theorem literalBody_of_htmlSafe {s : List UInt8} (h : ∀ c ∈ s, htmlSafe c) : LiteralBody s := by
  induction s with
  | nil => exact .nil
  | cons c s ih =>
    have hc := h c (.head _)
    simp only [htmlSafe, decide_eq_true_eq] at hc
    exact .plain (by simpa [byte_lt_iff] using hc.1) hc.2.2.1 hc.2.2.2.1 (ih fun c hc => h c (.tail _ hc))

theorem unquoteBody_of_htmlSafe {s : List UInt8} (h : ∀ c ∈ s, htmlSafe c) :
    unquoteBody s = some s := by
  induction s with
  | nil => rw [unquoteBody]
  | cons c s ih =>
    have hc := h c (.head _)
    simp only [htmlSafe, decide_eq_true_eq] at hc
    rw [unquoteBody_ascii hc.2.2.2.1 (not_or.2 ⟨hc.2.2.1, by simpa [byte_lt_iff] using hc.1⟩) hc.2.1,
      ih fun c hc => h c (.tail _ hc)]
    rfl

theorem parseObject_member {fuel : Nat} {acc : List (List UInt8 × Value)} {key body more : List UInt8}
    {v : Value} (hk : ∀ c ∈ key, htmlSafe c) (hb : skipSpace body = body)
    (hv : parseValue (fuel + 1) body = some (v, 44 :: more)) :
    parseObject (fuel + 2) (34 :: key ++ 34 :: 58 :: body) acc =
      parseObject (fuel + 1) more (acc ++ [(key, v)]) := by
  rw [parseObject, List.cons_append, skipSpace_of_not_isSpace (by decide)]
  simp only [rescanString_literalBody (literalBody_of_htmlSafe hk), unquoteBody_of_htmlSafe hk,
    skipSpace_of_not_isSpace (show ¬ isSpace 58 by decide), hb, hv]
  rfl

theorem parseObject_last {fuel : Nat} {acc : List (List UInt8 × Value)} {key body more : List UInt8}
    {v : Value} (hk : ∀ c ∈ key, htmlSafe c) (hb : skipSpace body = body)
    (hv : parseValue (fuel + 1) body = some (v, 125 :: more)) :
    parseObject (fuel + 2) (34 :: key ++ 34 :: 58 :: body) acc =
      some (.object (acc ++ [(key, v)]), more) := by
  rw [parseObject, List.cons_append, skipSpace_of_not_isSpace (by decide)]
  simp only [rescanString_literalBody (literalBody_of_htmlSafe hk), unquoteBody_of_htmlSafe hk,
    skipSpace_of_not_isSpace (show ¬ isSpace 58 by decide), hb, hv]
  rfl

/-- The walk reads a valid UTF-8 string back from what `appendString` writes. -/
theorem parseValue_appendString {s : List UInt8} (hs : ValidUTF8 s) (fuel : Nat) (more : List UInt8) :
    parseValue (fuel + 1) (appendString s ++ more) = some (.string s, more) := by
  obtain ⟨rs, hrs, rfl⟩ := hs
  have hb : LiteralBody (rs.flatMap escapeRune) :=
    appendStringBody_flatMap hrs ▸ literalBody_appendStringBody _
  simp only [appendString, appendStringBody_flatMap hrs, List.cons_append, List.append_assoc,
    List.singleton_append, List.nil_append]
  rw [parseValue, if_neg (by decide), if_neg (by decide), if_pos rfl]
  simp only [rescanString_literalBody hb, unquoteBody_flatMap hrs]
  rfl

theorem isNumberByte_formatInt (i : Int) : ∀ c ∈ formatInt i, isNumberByte c := by
  intro c hc
  rw [formatInt, List.mem_append] at hc
  rcases hc with hc | hc
  · split_ifs at hc <;> simp_all [isNumberByte]
  · simp [isNumberByte, decimalDigits_isDigit _ c hc]

theorem formatInt_cons (i : Int) :
    ∃ d ds, formatInt i = d :: ds ∧ (d = 45 ∨ 48 ≤ d.toNat ∧ d.toNat ≤ 57) := by
  unfold formatInt
  split_ifs
  · exact ⟨_, _, rfl, .inl rfl⟩
  · by_cases h0 : i.natAbs = 0
    · exact ⟨48, [], by rw [h0]; rfl, .inr ⟨by decide, by decide⟩⟩
    · obtain ⟨d, ds, h, h₁, h₂⟩ := decimalDigits_head h0
      exact ⟨d, ds, by rw [List.nil_append, h], .inr ⟨by omega, h₂⟩⟩

theorem skipSpace_formatInt (i : Int) (more : List UInt8) :
    skipSpace (formatInt i ++ more) = formatInt i ++ more := by
  obtain ⟨d, ds, hds, hd⟩ := formatInt_cons i
  rw [hds, List.cons_append, skipSpace_of_not_isSpace]
  simp only [isSpace, decide_eq_true_eq, byte_eq_iff, byte_toNat_lit]
  rcases hd with rfl | hd
  · decide
  · omega

/-- The walk reads a number back as the literal `AppendInt` writes. -/
theorem parseValue_formatInt (i : Int) (fuel : Nat) (more : List UInt8) :
    parseValue (fuel + 1) (formatInt i ++ 125 :: more) = some (.number (formatInt i), 125 :: more) := by
  obtain ⟨d, ds, hds, hd⟩ := formatInt_cons i
  have hnum := isNumberByte_formatInt i
  rw [hds] at hnum ⊢
  rw [List.cons_append, parseValue]
  have hne : ¬ d = 123 ∧ ¬ d = 91 ∧ ¬ d = 34 ∧ ¬ d = 116 ∧ ¬ d = 102 ∧ ¬ d = 110 := by
    simp only [byte_eq_iff, byte_toNat_lit]
    rcases hd with rfl | hd
    · decide
    · omega
  simp only [hne, if_false, ← List.cons_append, List.span_eq_take_drop,
    List.takeWhile_append_of_pos hnum, List.dropWhile_append_of_pos hnum, List.takeWhile_cons,
    List.dropWhile_cons, show isNumberByte 125 = false from rfl, Bool.false_eq_true, if_false,
    List.append_nil]

/-- What `Marshal` writes, as the walk meets it. -/
theorem marshal_eq (c : TokenClaims) : marshal c =
    123 :: (34 :: ascii "sid" ++ 34 :: 58 :: (appendString c.sessionID ++ 44 ::
      (34 :: ascii "role" ++ 34 :: 58 :: (appendString c.role ++ 44 ::
        (34 :: ascii "exp" ++ 34 :: 58 :: (formatInt c.expiresAt.toInt ++ [125])))))) := by
  simp only [marshal, List.append_assoc]
  rfl

theorem parseValue_marshal {c : TokenClaims} (hs : ValidUTF8 c.sessionID) (hr : ValidUTF8 c.role)
    (fuel : Nat) :
    parseValue (fuel + 5) (marshal c) =
      some (.object [(ascii "sid", .string c.sessionID), (ascii "role", .string c.role),
        (ascii "exp", .number (formatInt c.expiresAt.toInt))], []) := by
  rw [marshal_eq, show fuel + 5 = fuel + 4 + 1 from rfl, parseValue, if_pos rfl,
    parseObject_member (by decide) rfl (parseValue_appendString hs _ _),
    parseObject_member (by decide) rfl (parseValue_appendString hr _ _),
    parseObject_last (by decide) (skipSpace_formatInt _ _) (parseValue_formatInt _ _ _)]
  rfl

theorem storeMembers_marshal (c : TokenClaims) :
    storeMembers (zeroClaims, none) [(ascii "sid", .string c.sessionID),
      (ascii "role", .string c.role), (ascii "exp", .number (formatInt c.expiresAt.toInt))] =
      (c, none) := by
  have he : parseInt (formatInt c.expiresAt.toInt) = some c.expiresAt.toInt :=
    parseInt_formatInt (toInt_range _).1 (toInt_range _).2
  simp only [storeMembers, show fieldFor (ascii "sid") = some .sid from rfl,
    show fieldFor (ascii "role") = some .role from rfl, show fieldFor (ascii "exp") = some .exp from rfl,
    storeField, he, ofInt_toInt]

/-- `Unmarshal` gives back the claims `Marshal` wrote, when both strings are valid UTF-8. -/
theorem unmarshal_marshal {c : TokenClaims} (hs : ValidUTF8 c.sessionID) (hr : ValidUTF8 c.role) :
    unmarshal (marshal c) = .ok c := by
  obtain ⟨n, hn⟩ : ∃ n, (marshal c).length + 1 = n + 5 :=
    ⟨(marshal c).length - 4, by simp only [marshal_eq, List.length_cons, List.length_append]; omega⟩
  have hsk : skipSpace (marshal c) = marshal c := by
    rw [marshal_eq]
    exact skipSpace_of_not_isSpace (by decide) _
  simp only [unmarshal, checkValid_marshal, hn, hsk, parseValue_marshal hs hr, decodeTokenClaims,
    storeMembers_marshal]

end SfoConnectivity.Auth
