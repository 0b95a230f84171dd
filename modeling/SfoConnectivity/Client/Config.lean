import Mathlib.Algebra.Group.Int
import Mathlib.Algebra.Group.Nat.Basic
import SfoConnectivity.Net.HostPort

/-! # The helper's configuration (`internal/client/config`)

`runHost` and `runJoin` start from `DefaultConfig`, let the flags and then `LoadFromEnv` change
it, check it with `Validate`, and give the bridge `TargetAddr` to dial. `strconv.Itoa` and
`strconv.Atoi` are written over decimal digits, for Go's 64-bit `int`; `os.Getenv` is a function
that gives `""` for a variable that is not set. `LocalListenPort` and `BindInterface` are read
and written by none of these functions and are left out.
-/

namespace SfoConnectivity.Client

/-! ## Decimal text -/

/-- The decimal digits of `n`, the last one coming off the end; `fuel` bounds their number. -/
def digits : (fuel n : Nat) → List Char
  | 0, _ => []
  | fuel + 1, n => (if n < 10 then [] else digits fuel (n / 10)) ++ [Char.ofNat (48 + n % 10)]

/-- `strconv.Itoa`. -/
def itoa (i : Int) : String :=
  ⟨(if i < 0 then ['-'] else []) ++ digits (i.natAbs + 1) i.natAbs⟩

/-- The value of a digit string, or `none` at a character that is no digit. -/
def digitsVal (ds : List Char) : Option Nat :=
  ds.foldl (fun acc c => acc.bind fun v => if c.isDigit then some (10 * v + (c.toNat - 48)) else none)
    (some 0)

/-- The sign `Atoi` strips: whether the number is negative, and the rest. -/
def sign : List Char → Bool × List Char
  | '-' :: ds => (true, ds)
  | '+' :: ds => (false, ds)
  | ds => (false, ds)

/-- `strconv.Atoi`: a sign, then at least one digit, of a value that fits in 64 bits. The
reasons of a refusal are not read by `LoadFromEnv`, so a refusal is `none`. -/
def atoi (s : String) : Option Int :=
  let (neg, ds) := sign s.data
  match ds, digitsVal ds with
  | [], _ => none
  | _, none => none
  | _, some n =>
    let v : Int := if neg then -n else n
    if -2 ^ 63 ≤ v ∧ v < 2 ^ 63 then some v else none

theorem toNat_digitChar {d : Nat} (h : d < 10) : (Char.ofNat (48 + d)).toNat = 48 + d := by
  rw [Char.ofNat, dif_pos (by unfold Nat.isValidChar; omega)]
  simp [Char.ofNatAux, Char.toNat, UInt32.toNat]

theorem isDigit_iff {c : Char} : c.isDigit = true ↔ 48 ≤ c.toNat ∧ c.toNat ≤ 57 := by
  simp [Char.isDigit, Char.le_def, UInt32.le_def, BitVec.le_def, Char.toNat, UInt32.toNat]

theorem isDigit_digitChar {d : Nat} (h : d < 10) : (Char.ofNat (48 + d)).isDigit := by
  rw [isDigit_iff, toNat_digitChar h]; omega

theorem digits_ne_nil (f n : Nat) : digits (f + 1) n ≠ [] := by simp [digits]

theorem isDigit_of_mem_digits {c : Char} : ∀ {f n : Nat}, c ∈ digits f n → c.isDigit
  | 0, _, h => by simp [digits] at h
  | f + 1, n, h => by
    simp only [digits, List.mem_append, List.mem_singleton] at h
    rcases h with h | rfl
    · split at h
      · simp at h
      · exact isDigit_of_mem_digits h
    · exact isDigit_digitChar (Nat.mod_lt _ (by omega))

theorem digitsVal_append_one (ds : List Char) (c : Char) :
    digitsVal (ds ++ [c]) =
      (digitsVal ds).bind fun v => if c.isDigit then some (10 * v + (c.toNat - 48)) else none := by
  simp [digitsVal, List.foldl_append]

/-- With fuel for every digit, `digitsVal` reads back what `digits` writes. -/
theorem digitsVal_digits : ∀ {f n : Nat}, n < 10 ^ f → digitsVal (digits f n) = some n
  | 0, n, h => by simp at h; simp [h, digits, digitsVal]
  | f + 1, n, h => by
    have hd := toNat_digitChar (Nat.mod_lt n (by omega : 10 > 0))
    rw [digits, digitsVal_append_one]
    simp only [isDigit_digitChar (Nat.mod_lt n (by omega : 10 > 0)), if_true, hd]
    split
    · simp [digitsVal]; omega
    · rw [digitsVal_digits (by rw [Nat.pow_succ] at h; omega)]
      simp; omega

theorem sign_of_digit {c : Char} (hc : 48 ≤ c.toNat) (cs : List Char) :
    sign (c :: cs) = (false, c :: cs) := by
  have hm : c ≠ '-' := fun h => by subst h; simp at hc
  have hp : c ≠ '+' := fun h => by subst h; simp at hc
  simp [sign, hm, hp]

/-- `Atoi` reads back every 64-bit number `Itoa` writes. -/
theorem atoi_itoa {i : Int} (hlo : -2 ^ 63 ≤ i) (hhi : i < 2 ^ 63) : atoi (itoa i) = some i := by
  have hv : digitsVal (digits (i.natAbs + 1) i.natAbs) = some i.natAbs :=
    digitsVal_digits (by have := Nat.lt_pow_self (by decide : 1 < 10) (i.natAbs + 1); omega)
  obtain ⟨c, cs, hcs⟩ := List.exists_cons_of_ne_nil (digits_ne_nil i.natAbs i.natAbs)
  have hc := isDigit_iff.mp (isDigit_of_mem_digits (hcs ▸ List.mem_cons_self c cs))
  rw [hcs] at hv
  unfold atoi itoa
  by_cases hneg : i < 0
  · simp only [if_pos hneg, hcs, List.singleton_append, sign, hv, if_true]
    rw [if_pos (by omega)]
    congr 1; omega
  · simp only [if_neg hneg, hcs, List.nil_append, sign_of_digit hc.1, hv, Bool.false_eq_true,
      if_false]
    rw [if_pos (by omega)]
    congr 1; omega

example : itoa (-40) = "-40" ∧ atoi "+1626" = some 1626 ∧ atoi "-" = none ∧
    atoi "9223372036854775808" = none := by
  decide

theorem mem_itoa {i : Int} {c : Char} (h : c ∈ (itoa i).data) : c = '-' ∨ c.isDigit := by
  simp only [itoa, List.mem_append] at h
  rcases h with h | h
  · split at h <;> simp_all
  · exact .inr (isDigit_of_mem_digits h)

theorem not_mem_itoa {i : Int} {c : Char} (hc : c ≠ '-') (hd : 57 < c.toNat) :
    c ∉ (itoa i).data :=
  fun h => (mem_itoa h).elim hc fun h => by rw [isDigit_iff] at h; omega

/-! ## The configuration -/

/-- `Config`, but for `LocalListenPort` and `BindInterface`. -/
structure Config where
  targetHost : String
  targetPort : Int
  signalingURL : String
  relayAddr : String
  alwaysRelay : Bool
  debug : Bool
  deriving DecidableEq, Repr

/-- `DefaultConfig`. -/
def defaultConfig : Config :=
  ⟨"127.0.0.1", 1626, "http://localhost:8080", "localhost:8443", true, false⟩

/-- `Config.TargetAddr`. -/
def Config.targetAddr (c : Config) : String := Net.joinHostPort c.targetHost (itoa c.targetPort)

/-- `Config.Validate`. -/
def Config.validate (c : Config) : Except String Unit :=
  if c.targetPort < 1 ∨ c.targetPort > 65535 then
    .error ("invalid target port: " ++ itoa c.targetPort)
  else if c.signalingURL = "" then .error "signaling URL is required"
  else if c.relayAddr = "" then .error "relay address is required"
  else .ok ()

example : defaultConfig.validate = .ok () ∧
    ({ defaultConfig with targetPort := 0 }).validate = .error "invalid target port: 0" :=
  ⟨rfl, rfl⟩

/-- `Config.LoadFromEnv`. Each of its five blocks writes a field of its own, so they are
written here field by field. -/
def Config.loadFromEnv (getenv : String → String) (c : Config) : Config :=
  let host := getenv "SFO_TARGET_HOST"
  let port := getenv "SFO_TARGET_PORT"
  let url := getenv "SFO_SIGNALING_URL"
  let addr := getenv "SFO_RELAY_ADDR"
  let debug := getenv "SFO_DEBUG"
  { c with
    targetHost := if host ≠ "" then host else c.targetHost
    targetPort := if port ≠ "" then (atoi port).getD c.targetPort else c.targetPort
    signalingURL := if url ≠ "" then url else c.signalingURL
    relayAddr := if addr ≠ "" then addr else c.relayAddr
    debug := if debug = "true" ∨ debug = "1" then true else c.debug }

/-- A port that `Atoi` refuses leaves the default in place. -/
example : (defaultConfig.loadFromEnv fun v => if v = "SFO_TARGET_PORT" then "7777" else "").targetPort =
      7777 ∧
    (defaultConfig.loadFromEnv fun v => if v = "SFO_TARGET_PORT" then "port" else "").targetPort =
      1626 := by
  decide

/-- The address the bridge dials, for a configuration `Validate` accepts and a host with no
bracket: `net.SplitHostPort` takes it apart into the configured host and the port's decimal
text, an IPv6 host included, and `Atoi` reads that text back as the configured port. -/
theorem targetAddr_round_trip (c : Config) (hh : '[' ∉ c.targetHost.data ∧ ']' ∉ c.targetHost.data)
    (hv : c.validate = .ok ()) :
    Net.splitHostPort c.targetAddr = .ok (c.targetHost, itoa c.targetPort) ∧
      atoi (itoa c.targetPort) = some c.targetPort := by
  have hp : 1 ≤ c.targetPort ∧ c.targetPort ≤ 65535 := by
    unfold Config.validate at hv
    split_ifs at hv with h
    omega
  exact ⟨Net.splitHostPort_joinHostPort hh ⟨not_mem_itoa (by decide) (by decide),
    not_mem_itoa (by decide) (by decide), not_mem_itoa (by decide) (by decide)⟩,
    atoi_itoa (by omega) (by omega)⟩

/-- The default configuration aimed at the IPv6 loopback. -/
def ipv6Config : Config := { defaultConfig with targetHost := "::1" }

theorem targetAddr_round_trip_ipv6 :
    ('[' ∉ ipv6Config.targetHost.data ∧ ']' ∉ ipv6Config.targetHost.data) ∧
      ipv6Config.validate = .ok () ∧
      (Net.splitHostPort ipv6Config.targetAddr = .ok (ipv6Config.targetHost, itoa ipv6Config.targetPort) ∧
        atoi (itoa ipv6Config.targetPort) = some ipv6Config.targetPort) :=
  ⟨by decide, rfl, targetAddr_round_trip ipv6Config (by decide) rfl⟩

end SfoConnectivity.Client
