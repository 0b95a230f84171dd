import SfoConnectivity.Auth.Base64
import SfoConnectivity.Auth.Claims

/-! # `Signer`: capability tokens

`Sign` writes `b64url(payload) . b64url(mac)`. `Verify` splits the token at `.`, decodes both
halves, compares the MAC, unmarshals the payload and checks the expiry against `now`
(`time.Now().Unix()`). HMAC-SHA256 is not modelled: the MAC is any function of the secret and
the payload into 32 bytes.
-/

namespace SfoConnectivity.Auth

/-- `hmac.New(sha256.New, secret)`, `Write(payload)`, `Sum(nil)`. -/
structure Mac where
  sum : List UInt8 → List UInt8 → List UInt8
  length_sum : ∀ secret payload, (sum secret payload).length = 32

/-- `strings.Split(s, sep)` for a one-byte `sep`. -/
def split (sep : UInt8) : List UInt8 → List (List UInt8)
  | [] => [[]]
  | c :: s =>
    if c = sep then [] :: split sep s
    else
      match split sep s with
      | p :: ps => (c :: p) :: ps
      | [] => [[c]]

/-- `Signer.Sign`. `json.Marshal` does not fail on `TokenClaims`, so neither does `Sign`. -/
def sign (mac : Mac) (secret : List UInt8) (claims : TokenClaims) : List UInt8 :=
  let payload := marshal claims
  encodeToString payload ++ 46 :: encodeToString (mac.sum secret payload)

/-- `Signer.Verify`. -/
def verify (mac : Mac) (secret : List UInt8) (now : BitVec 64) (token : List UInt8) :
    Except String TokenClaims :=
  match split 46 token with
  | [part₀, part₁] =>
    match decodeString part₀ with
    | .error off => .error ("invalid token payload: " ++ corruptInputError off)
    | .ok payload =>
      match decodeString part₁ with
      | .error off => .error ("invalid token signature: " ++ corruptInputError off)
      | .ok signature =>
        if signature ≠ mac.sum secret payload then .error "invalid signature"
        else
          match unmarshal payload with
          | .error e => .error ("invalid claims: " ++ e)
          | .ok claims =>
            if now.toInt > claims.expiresAt.toInt then .error "token expired" else .ok claims
  | _ => .error "invalid token format"

/-- What `Verify` does once both halves are decoded. -/
def verifyDecoded (mac : Mac) (secret : List UInt8) (now : BitVec 64)
    (payload signature : List UInt8) : Except String TokenClaims :=
  if signature ≠ mac.sum secret payload then .error "invalid signature"
  else
    match unmarshal payload with
    | .error e => .error ("invalid claims: " ++ e)
    | .ok claims =>
      if now.toInt > claims.expiresAt.toInt then .error "token expired" else .ok claims

theorem verify_of_split {mac : Mac} {secret : List UInt8} {now : BitVec 64}
    {token part₀ part₁ payload signature : List UInt8} (h : split 46 token = [part₀, part₁])
    (h₀ : decodeString part₀ = .ok payload) (h₁ : decodeString part₁ = .ok signature) :
    verify mac secret now token = verifyDecoded mac secret now payload signature := by
  simp only [verify, h, h₀, h₁, verifyDecoded]

/-! ## Splitting at the dot -/

section Split

variable {sep : UInt8}

theorem split_of_not_mem {s : List UInt8} (h : sep ∉ s) : split sep s = [s] := by
  induction s with
  | nil => rfl
  | cons c s ih =>
    rw [List.mem_cons, not_or] at h
    rw [split, if_neg (Ne.symm h.1), ih h.2]

theorem split_append {a : List UInt8} (h : sep ∉ a) (b : List UInt8) :
    split sep (a ++ sep :: b) = a :: split sep b := by
  induction a with
  | nil => simp only [List.nil_append, split, if_true]
  | cons c a ih =>
    rw [List.mem_cons, not_or] at h
    rw [List.cons_append, split, if_neg (Ne.symm h.1), ih h.2]

theorem length_split (s : List UInt8) : (split sep s).length = s.count sep + 1 := by
  induction s with
  | nil => rfl
  | cons c s ih =>
    by_cases h : c = sep
    · simp [split, h, List.count_cons, ih]
    · rw [split, if_neg h, List.count_cons, if_neg (by simpa using h)]
      split <;> simp_all

end Split

theorem not_mem_encodeToString (bs : List UInt8) : (46 : UInt8) ∉ encodeToString bs := by
  intro h
  obtain ⟨v, hv, e⟩ := mem_encodeToString h
  exact (encodeChar_ne hv).1 e.symm

theorem split_sign (mac : Mac) (secret : List UInt8) (c : TokenClaims) :
    split 46 (sign mac secret c) =
      [encodeToString (marshal c), encodeToString (mac.sum secret (marshal c))] := by
  rw [sign, split_append (not_mem_encodeToString _), split_of_not_mem (not_mem_encodeToString _)]

/-! ## A signed token verifies to its claims -/

theorem decodeString_encodeToString (bs : List UInt8) : decodeString (encodeToString bs) = .ok bs :=
  decodeFrom_encodeToString bs 0

theorem verify_sign_eq (mac : Mac) (secret : List UInt8) (now : BitVec 64) {c : TokenClaims}
    (hs : ValidUTF8 c.sessionID) (hr : ValidUTF8 c.role) :
    verify mac secret now (sign mac secret c) =
      if now.toInt > c.expiresAt.toInt then .error "token expired" else .ok c := by
  rw [verify_of_split (split_sign mac secret c) (decodeString_encodeToString _)
    (decodeString_encodeToString _)]
  simp only [verifyDecoded, ne_eq, not_true_eq_false, if_false, unmarshal_marshal hs hr]

/-- A token `Sign` issues splits at its one `.` into the encodings of the payload and the MAC,
both decode back, the payload unmarshals to the claims, and `Verify` returns the claims until
their expiry second has passed and fails with `token expired` after it. -/
theorem sign_verify_round_trip (mac : Mac) (secret : List UInt8) (now : BitVec 64)
    {c : TokenClaims} (hs : ValidUTF8 c.sessionID) (hr : ValidUTF8 c.role) :
    split 46 (sign mac secret c) =
        [encodeToString (marshal c), encodeToString (mac.sum secret (marshal c))] ∧
      decodeString (encodeToString (marshal c)) = .ok (marshal c) ∧
      decodeString (encodeToString (mac.sum secret (marshal c))) = .ok (mac.sum secret (marshal c)) ∧
      unmarshal (marshal c) = .ok c ∧
      (now.toInt ≤ c.expiresAt.toInt → verify mac secret now (sign mac secret c) = .ok c) ∧
      (c.expiresAt.toInt < now.toInt →
        verify mac secret now (sign mac secret c) = .error "token expired") := by
  refine ⟨split_sign mac secret c, decodeString_encodeToString _, decodeString_encodeToString _,
    unmarshal_marshal hs hr, fun h => ?_, fun h => ?_⟩ <;>
    rw [verify_sign_eq mac secret now hs hr]
  · rw [if_neg (by omega)]
  · rw [if_pos h]

/-- The MAC that is 32 zero bytes. -/
def zeroMac : Mac := ⟨fun _ _ => List.replicate 32 0, fun _ _ => List.length_replicate _ _⟩

/-- Claims whose strings need escapes: a quote, `<` and U+2028. -/
def escapedClaims : TokenClaims := ⟨ascii "a\"<", [0xE2, 0x80, 0xA8], 5⟩

theorem sign_verify_round_trip_escaped :
    ValidUTF8 escapedClaims.sessionID ∧ ValidUTF8 escapedClaims.role ∧
      verify zeroMac [] 5 (sign zeroMac [] escapedClaims) = .ok escapedClaims :=
  have hs : ValidUTF8 escapedClaims.sessionID := ⟨[97, 34, 60], by decide, rfl⟩
  have hr : ValidUTF8 escapedClaims.role := ⟨[0x2028], by decide, rfl⟩
  ⟨hs, hr, (sign_verify_round_trip zeroMac [] 5 hs hr).2.2.2.2.1 (le_refl _)⟩

/-! ## Relay tokens -/

/-- `t.Unix()` of an instant `t` in nanoseconds. -/
def unix (t : Nat) : BitVec 64 := BitVec.ofNat 64 (t / 10 ^ 9)

/-- `Signer.CreateRelayToken(sessionID, role, ttl)` at the instant `now`. -/
def createRelayToken (mac : Mac) (secret sessionID role : List UInt8) (ttl now : Nat) :
    List UInt8 :=
  sign mac secret ⟨sessionID, role, unix (now + ttl)⟩

theorem toInt_unix {t : Nat} (h : t / 10 ^ 9 < 2 ^ 63) : (unix t).toInt = (t / 10 ^ 9 : Nat) := by
  rw [unix, BitVec.toInt_eq_toNat_cond, BitVec.toNat_ofNat, Nat.mod_eq_of_lt (by omega),
    if_pos (by omega)]

/-- A relay token verifies to its claims up to `ttl` after it was made. -/
theorem verify_createRelayToken (mac : Mac) (secret : List UInt8) {sessionID role : List UInt8}
    (hs : ValidUTF8 sessionID) (hr : ValidUTF8 role) {ttl now t : Nat} (ht : t ≤ now + ttl)
    (hb : (now + ttl) / 10 ^ 9 < 2 ^ 63) :
    verify mac secret (unix t) (createRelayToken mac secret sessionID role ttl now) =
      .ok ⟨sessionID, role, unix (now + ttl)⟩ := by
  have hd : t / 10 ^ 9 ≤ (now + ttl) / 10 ^ 9 := Nat.div_le_div_right ht
  rw [createRelayToken, verify_sign_eq mac secret _ hs hr, if_neg]
  rw [toInt_unix (by omega), toInt_unix hb]
  omega

/-! ## Bits the decoder does not read

`RawURLEncoding` is not strict: of the last character of a half whose length is not a multiple
of three, the low bits that no decoded byte takes are ignored. A payload of `3k + 1` bytes ends
in the two characters of `}`, `fQ`, and `Q` may become `S`. -/

/-- The token with bit `k` of its byte `i` flipped. -/
def flipBit (t : List UInt8) (i : Nat) (k : UInt8) : List UInt8 := t.set i (t.getD i 0 ^^^ (1 <<< k))

/-- Claims that never expire, with a payload of 52 bytes. -/
def hostClaims : TokenClaims := ⟨ascii "s1", ascii "host", 0x7FFFFFFFFFFFFFFF#64⟩

theorem marshal_hostClaims :
    marshal hostClaims =
      ascii "\x7b\"sid\":\"s1\",\"role\":\"host\",\"exp\":9223372036854775807\x7d" := by
  have h₁ : appendStringBody (ascii "s1") = ascii "s1" := appendStringBody_of_htmlSafe (by decide)
  have h₂ : appendStringBody (ascii "host") = ascii "host" := appendStringBody_of_htmlSafe (by decide)
  have h₃ : decimalDigits 9223372036854775807 = ascii "9223372036854775807" := by
    rw [decimalDigits, if_neg (by decide)]
    norm_num
    rfl
  simp only [marshal, hostClaims, appendString, h₁, h₂, formatInt,
    show (0x7FFFFFFFFFFFFFFF#64).toInt = 9223372036854775807 from rfl, if_neg (show ¬ (9223372036854775807 : Int) < 0 by decide),
    show (9223372036854775807 : Int).natAbs = 9223372036854775807 from rfl, h₃]
  rfl

theorem hostClaims_valid : ValidUTF8 hostClaims.sessionID ∧ ValidUTF8 hostClaims.role :=
  ⟨⟨[115, 49], by decide, rfl⟩, ⟨[104, 111, 115, 116], by decide, rfl⟩⟩

/-- A MAC that tells the payload of `hostClaims` from every other payload. -/
def hostMac : Mac :=
  ⟨fun _ p => if p = marshal hostClaims then List.replicate 32 1 else List.replicate 32 0,
    fun _ p => by dsimp only; split_ifs <;> rfl⟩

/-- With any MAC and secret, the signed token for `hostClaims` with its byte 69 (`Q`, the last
of the payload half) made `S` verifies, at every instant. -/
theorem verify_hostClaims_set (mac : Mac) (secret : List UInt8) (now : BitVec 64) :
    verify mac secret now ((sign mac secret hostClaims).set 69 83) = .ok hostClaims := by
  have hP := marshal_hostClaims
  have hE : (encodeToString (marshal hostClaims)).length = 70 := by rw [hP]; rfl
  have hsplit : split 46 ((encodeToString (marshal hostClaims)).set 69 83 ++
      46 :: encodeToString (mac.sum secret (marshal hostClaims))) =
      [(encodeToString (marshal hostClaims)).set 69 83,
        encodeToString (mac.sum secret (marshal hostClaims))] := by
    rw [split_append (by rw [hP]; decide), split_of_not_mem (not_mem_encodeToString _)]
  have h₀ : decodeString ((encodeToString (marshal hostClaims)).set 69 83) = .ok (marshal hostClaims) := by
    rw [hP]; rfl
  simp only [sign]
  rw [List.set_append_left _ _ (by omega), verify_of_split hsplit h₀ (decodeString_encodeToString _)]
  have hnow := (toInt_range now).2
  simp only [verifyDecoded, ne_eq, not_true_eq_false, if_false,
    unmarshal_marshal hostClaims_valid.1 hostClaims_valid.2]
  rw [if_neg (by rw [show hostClaims.expiresAt.toInt = 2 ^ 63 - 1 from rfl]; omega)]

/-- With any MAC and secret, flipping bit 1 of byte 69 of the token `Sign` issues for
`hostClaims` gives another token that `Verify` accepts, with the same claims, at every instant. -/
theorem verify_flipBit_hostClaims (mac : Mac) (secret : List UInt8) (now : BitVec 64) :
    flipBit (sign mac secret hostClaims) 69 1 ≠ sign mac secret hostClaims ∧
      verify mac secret now (flipBit (sign mac secret hostClaims) 69 1) = .ok hostClaims := by
  have hE : (encodeToString (marshal hostClaims)).length = 70 := by rw [marshal_hostClaims]; rfl
  have h69 : (sign mac secret hostClaims)[69]? = some 81 := by
    simp only [sign, List.getElem?_append_left
      (show 69 < (encodeToString (marshal hostClaims)).length by omega)]
    rw [marshal_hostClaims]
    rfl
  have hflip : flipBit (sign mac secret hostClaims) 69 1 = (sign mac secret hostClaims).set 69 83 := by
    rw [flipBit, List.getD_eq_getElem?_getD, h69]
    rfl
  refine ⟨fun h => ?_, hflip ▸ verify_hostClaims_set mac secret now⟩
  have := congrArg (·[69]?) h
  simp only [hflip, List.getElem?_set_self', h69] at this
  exact absurd this (by decide)

/-- Under `hostMac`, which tells `marshal hostClaims` from every other payload, the token with
bit 1 of its byte 69 flipped is another token that verifies to `hostClaims`. -/
theorem flipped_signed_token_verifies :
    flipBit (sign hostMac [] hostClaims) 69 1 ≠ sign hostMac [] hostClaims ∧
      verify hostMac [] 0 (flipBit (sign hostMac [] hostClaims) 69 1) = .ok hostClaims :=
  verify_flipBit_hostClaims hostMac [] 0

/-! ## What `Verify` accepts of a token that differs in one byte -/

section OneByte

variable {mac : Mac} {secret : List UInt8} {now : BitVec 64} {x : TokenClaims}

theorem verify_of_length_split_ne {t : List UInt8} (h : (split 46 t).length ≠ 2) :
    verify mac secret now t = .error "invalid token format" := by
  unfold verify
  split
  · simp_all
  · rfl

/-- A token `Verify` accepts has exactly one `.`. -/
theorem count_dot_of_verify {t : List UInt8} (hx : verify mac secret now t = .ok x) :
    t.count 46 = 1 := by
  by_contra h
  rw [verify_of_length_split_ne (by rw [length_split]; omega)] at hx
  cases hx

theorem verify_ok_decoded {t a b : List UInt8} (hsplit : split 46 t = [a, b])
    (hx : verify mac secret now t = .ok x) :
    ∃ p s, decodeString a = .ok p ∧ decodeString b = .ok s ∧ s = mac.sum secret p ∧
      verifyDecoded mac secret now p s = .ok x := by
  cases ha : decodeString a with
  | error off => simp [verify, hsplit, ha] at hx
  | ok p =>
    cases hb : decodeString b with
    | error off => simp [verify, hsplit, ha, hb] at hx
    | ok s =>
      have hv := verify_of_split hsplit ha hb ▸ hx
      refine ⟨p, s, rfl, rfl, ?_, hv⟩
      by_contra hne
      simp [verifyDecoded, hne] at hv

/-- The halves of `E ++ . :: F` with the `.` counted: a byte set in a half to `.` makes two. -/
theorem count_dot_set_two {l : List UInt8} {k : Nat} (hk : k < l.length)
    (r : List UInt8) :
    2 ≤ (l.set k 46 ++ 46 :: r).count 46 ∧ 2 ≤ (r ++ 46 :: l.set k 46).count 46 := by
  have := List.count_pos_iff.2 (List.mem_set l k hk (46 : UInt8))
  constructor <;> simp only [List.count_append, List.count_cons_self] <;> omega

/-- A one-byte change of a token `E ++ . :: F`, with no `.` in either half, that leaves exactly
one `.` is the token itself, or a change inside one half that writes no `.`. -/
theorem set_dot_cases {E F : List UInt8} (hE : 46 ∉ E) (hF : 46 ∉ F) {i : Nat} {b : UInt8}
    (h : ((E ++ 46 :: F).set i b).count 46 = 1) :
    (E ++ 46 :: F).set i b = E ++ 46 :: F ∨
      (b ≠ 46 ∧ (E ++ 46 :: F).set i b = E.set i b ++ 46 :: F) ∨
      (b ≠ 46 ∧ ∃ k, (E ++ 46 :: F).set i b = E ++ 46 :: F.set k b) := by
  rcases lt_trichotomy i E.length with hi | rfl | hi
  · -- in the first half
    rw [List.set_append_left _ _ hi] at h ⊢
    refine .inr (.inl ⟨fun hb => ?_, rfl⟩)
    subst hb
    have := (count_dot_set_two hi F).1
    omega
  · -- the dot
    rw [List.set_append_right _ _ le_rfl, Nat.sub_self, List.set_cons_zero] at h ⊢
    by_cases hb : b = 46
    · exact .inl (by rw [hb])
    · simp [List.count_append, List.count_cons, List.count_eq_zero_of_not_mem hE,
        List.count_eq_zero_of_not_mem hF, hb] at h
  · -- in the second half
    obtain ⟨k, rfl⟩ : ∃ k, i = E.length + (k + 1) := ⟨i - E.length - 1, by omega⟩
    rw [List.set_append_right _ _ (by omega), Nat.add_sub_cancel_left, List.set_cons_succ] at h ⊢
    by_cases hk : k < F.length
    · refine .inr (.inr ⟨fun hb => ?_, k, rfl⟩)
      subst hb
      have := (count_dot_set_two hk E).2
      omega
    · exact .inl (by rw [List.set_eq_of_length_le (by omega)])

end OneByte

/-- A token that differs from a signed token in one byte (a one-bit flip among them) and that
`Verify` accepts gives the claims the signed token gives, for a MAC under which no other payload
has the signed payload's MAC: both halves decode to the bytes `Sign` encoded. -/
theorem verify_one_byte_change_same_claims (mac : Mac) (secret : List UInt8) (now : BitVec 64)
    (c : TokenClaims) (hmac : ∀ p, mac.sum secret p = mac.sum secret (marshal c) → p = marshal c)
    (i : Nat) (b : UInt8) {x : TokenClaims}
    (hx : verify mac secret now ((sign mac secret c).set i b) = .ok x) :
    verify mac secret now (sign mac secret c) = .ok x := by
  have hE := not_mem_encodeToString (marshal c)
  have hF := not_mem_encodeToString (mac.sum secret (marshal c))
  have hsigned : verify mac secret now (sign mac secret c) =
      verifyDecoded mac secret now (marshal c) (mac.sum secret (marshal c)) :=
    verify_of_split (split_sign mac secret c) (decodeString_encodeToString _)
      (decodeString_encodeToString _)
  rw [sign] at hx hsigned ⊢
  rcases set_dot_cases hE hF (count_dot_of_verify hx) with h | ⟨hb, h⟩ | ⟨hb, k, h⟩ <;>
    rw [h] at hx
  · exact hx
  · -- the payload half changed: it decodes to a payload with the signed payload's MAC
    have hE' : (46 : UInt8) ∉ (encodeToString (marshal c)).set i b := fun h =>
      (List.mem_or_eq_of_mem_set h).elim hE (Ne.symm hb)
    obtain ⟨p, s, -, hs, hsig, hv⟩ :=
      verify_ok_decoded (by rw [split_append hE', split_of_not_mem hF]) hx
    rw [decodeString_encodeToString] at hs
    cases hs
    obtain rfl := hmac p hsig.symm
    rwa [hsigned]
  · -- the signature half changed: it decodes to the MAC of the signed payload
    have hF' : (46 : UInt8) ∉ (encodeToString (mac.sum secret (marshal c))).set k b := fun h =>
      (List.mem_or_eq_of_mem_set h).elim hF (Ne.symm hb)
    obtain ⟨p, s, hp, -, hsig, hv⟩ :=
      verify_ok_decoded (by rw [split_append hE, split_of_not_mem hF']) hx
    rw [decodeString_encodeToString] at hp
    cases hp
    rwa [hsigned, ← hsig]

theorem verify_one_byte_change_host :
    (∀ p, hostMac.sum [] p = hostMac.sum [] (marshal hostClaims) → p = marshal hostClaims) ∧
      verify hostMac [] 0 ((sign hostMac [] hostClaims).set 69 83) = .ok hostClaims ∧
      verify hostMac [] 0 (sign hostMac [] hostClaims) = .ok hostClaims :=
  have hmac : ∀ p, hostMac.sum [] p = hostMac.sum [] (marshal hostClaims) → p = marshal hostClaims :=
    fun p hp => by
      by_contra hne
      simp only [hostMac, if_neg hne, if_true] at hp
      exact absurd hp (by decide)
  have hx := verify_hostClaims_set hostMac [] 0
  ⟨hmac, hx, verify_one_byte_change_same_claims hostMac [] 0 hostClaims hmac 69 83 hx⟩

end SfoConnectivity.Auth
