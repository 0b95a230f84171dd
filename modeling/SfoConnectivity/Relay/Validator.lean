import SfoConnectivity.Relay.Meet
import SfoConnectivity.Rendezvous.Server

/-! # The relay's token validators (`server/cmd/relay/main.go`, `cmd/sfo-helper/main.go`)

The relay binary checks a relay token with a signer over `SIGNALING_SECRET`, the variable the
rendezvous server signs with, and asks the server's `/internal/validate` only when its own check
fails. The relay the helper embeds (`runRelayServer`) has the first check alone. A Go string
travels as its bytes: the relay's texts hold one character per byte (`Auth.asciiString`), and
`Auth.ascii` gives the bytes back.
-/

namespace SfoConnectivity.Relay

open Rendezvous

/-! ## The validators -/

/-- The request `validateRemote` posts to `signalingURL + "/internal/validate"`: the body
`{"token": token}`, decoded as each handler of the server would decode it. -/
def validateRequest (relayAddr token : String) : Request :=
  ⟨"POST", "/internal/validate", "", "", "", relayAddr, some "", some ("", false),
    some (Auth.ascii token)⟩

/-- A string field of the decoded result: absent is `""`, a number or a flag is a type error. -/
def resultString : Option Json → Option String
  | none => some ""
  | some (.str s) => some s
  | some (.bytes b) => some (Auth.asciiString b)
  | some _ => none

/-- The `Valid` field of the decoded result. -/
def resultBool : Option Json → Option Bool
  | none => some false
  | some (.bool b) => some b
  | some _ => none

/-- `tokenValidator.validateRemote` once the server has answered. -/
def validateRemote (answer : Response) : Except String (String × String) :=
  match answer with
  | .json fields =>
    match resultString (fields.lookup "sessionId"), resultString (fields.lookup "role"),
      resultBool (fields.lookup "valid") with
    | some sessionID, some role, some valid =>
      if valid then .ok (sessionID, role) else .error "token invalid"
    | _, _, _ => .error "failed to decode response"
  | .error status _ | .empty status =>
    if status = 200 then .error "failed to decode response"
    else .error ("token validation failed: status " ++ toString status)

/-- `tokenValidator.Validate` of the relay binary at `now`: the signer, and when it refuses the
token, the rendezvous server's answer `remote token` to `validateRemote`. -/
def tokenValidator.validate (mac : Auth.Mac) (secret : List UInt8) (now : Nat)
    (remote : String → Response) : TokenValidator := fun token =>
  match Auth.verify mac secret (Auth.unix now) (Auth.ascii token) with
  | .ok claims => .ok (Auth.asciiString claims.sessionID, Auth.asciiString claims.role)
  | .error _ => validateRemote (remote token)

/-- `tokenValidator.Validate` of the relay in `runRelayServer`: the signer alone. -/
def helperTokenValidator.validate (mac : Auth.Mac) (secret : List UInt8) (now : Nat) :
    TokenValidator := fun token =>
  match Auth.verify mac secret (Auth.unix now) (Auth.ascii token) with
  | .ok claims => .ok (Auth.asciiString claims.sessionID, Auth.asciiString claims.role)
  | .error e => .error e

/-! ## Bytes and instants -/

section Later

open Auth

variable {mac : Mac} {secret : List UInt8} {now now' : BitVec 64} {token : List UInt8}
  {c : TokenClaims}

/-- `Verify` reads the clock only to refuse an expired token: what it accepts later it accepts
earlier. -/
theorem verify_of_later (h : now.toInt ≤ now'.toInt) (hok : verify mac secret now' token = .ok c) :
    verify mac secret now token = .ok c := by
  obtain ⟨a, b, hs⟩ : ∃ a b, split 46 token = [a, b] := by
    match hs : split 46 token with
    | [a, b] => exact ⟨a, b, rfl⟩
    | [] | [_] | _ :: _ :: _ :: _ =>
      rw [verify_of_length_split_ne (by simp [hs])] at hok; cases hok
  obtain ⟨p, s, hp, hs', -, hv⟩ := verify_ok_decoded hs hok
  rw [verify_of_split hs hp hs']
  unfold verifyDecoded at hv ⊢
  split_ifs at hv ⊢
  cases hu : unmarshal p with
  | error e => simp [hu] at hv
  | ok claims =>
    simp only [hu] at hv ⊢
    split_ifs at hv ⊢
    · omega
    · exact hv

theorem toInt_unix_le {t t' : Nat} (ht : t ≤ t') (hb : t' / 10 ^ 9 < 2 ^ 63) :
    (unix t).toInt ≤ (unix t').toInt := by
  have hd : t / 10 ^ 9 ≤ t' / 10 ^ 9 := Nat.div_le_div_right ht
  rw [toInt_unix (by omega), toInt_unix hb]
  omega

end Later

/-! ## The fallback to the rendezvous server -/

/-- The relay binary and the rendezvous server share `SIGNALING_SECRET`, and the relay asks the
server after its own check. Then the server's answer never changes the relay's: the binary
accepts exactly the tokens the embedded relay accepts, with the same session id and role,
whatever sessions the server still holds, and refuses every other with the status of
`Invalid token`. -/
theorem validate_eq_helper_validate (srv : Server) (mac : Auth.Mac) (secret : List UInt8)
    (hmac : srv.mac = mac) (hsecret : srv.secret = secret) (relayAddr : String) (t t' : Nat)
    (ht : t ≤ t') (hb : t' / 10 ^ 9 < 2 ^ 63) (token : String) :
    tokenValidator.validate mac secret t
        (fun tok => srv.handleValidate t' (validateRequest relayAddr tok)) token =
      match helperTokenValidator.validate mac secret t token with
      | .ok ids => .ok ids
      | .error _ => .error "token validation failed: status 401" := by
  unfold tokenValidator.validate helperTokenValidator.validate
  cases hv : Auth.verify mac secret (Auth.unix t) (Auth.ascii token) with
  | ok claims => rfl
  | error e =>
    have hlater : ∀ c, Auth.verify mac secret (Auth.unix t') (Auth.ascii token) ≠ .ok c :=
      fun c hc => by cases hv ▸ verify_of_later (toInt_unix_le ht hb) hc
    cases hv' : Auth.verify mac secret (Auth.unix t') (Auth.ascii token) with
    | ok c => exact absurd hv' (hlater c)
    | error e' =>
      simp [Server.handleValidate, validateRequest, hmac, hsecret, hv', validateRemote]
      rfl

/-- A session of the server with the id `ab`. -/
def abSession : Session := ⟨"ab", "C", "tok", "", false, false, 0, 600, 0⟩

/-- A server that signs with `zeroMac` and an empty secret, for ten minutes. -/
def abServer : Server := newServer Auth.zeroMac [] 600

/-- The relay token `abServer` signs for the host of `abSession` at the instant 0. -/
def abHostToken : String := Auth.asciiString (abServer.relayToken abSession "host" 0)

theorem validate_eq_helper_validate_signed_token :
    abServer.mac = Auth.zeroMac ∧ abServer.secret = [] ∧ 5 ≤ 7 ∧ 7 / 10 ^ 9 < 2 ^ 63 ∧
      10 ^ 12 ≤ 10 ^ 12 + 1 ∧ (10 ^ 12 + 1) / 10 ^ 9 < 2 ^ 63 ∧
      tokenValidator.validate Auth.zeroMac [] 5
          (fun tok => abServer.handleValidate 7 (validateRequest "relay:8443" tok)) abHostToken =
        (match helperTokenValidator.validate Auth.zeroMac [] 5 abHostToken with
        | .ok ids => .ok ids
        | .error _ => .error "token validation failed: status 401") ∧
      tokenValidator.validate Auth.zeroMac [] (10 ^ 12)
          (fun tok => abServer.handleValidate (10 ^ 12 + 1) (validateRequest "relay:8443" tok))
          abHostToken =
        match helperTokenValidator.validate Auth.zeroMac [] (10 ^ 12) abHostToken with
        | .ok ids => .ok ids
        | .error _ => .error "token validation failed: status 401" :=
  ⟨rfl, rfl, by decide, by decide, by decide, by decide,
    validate_eq_helper_validate abServer Auth.zeroMac [] rfl rfl "relay:8443" 5 7 (by decide)
      (by decide) abHostToken,
    validate_eq_helper_validate abServer Auth.zeroMac [] rfl rfl "relay:8443" (10 ^ 12)
      (10 ^ 12 + 1) (by decide) (by decide) abHostToken⟩

/-! ## A session's two clients meet at the relay -/

end SfoConnectivity.Relay
