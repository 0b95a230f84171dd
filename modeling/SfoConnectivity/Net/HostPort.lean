import Mathlib.Data.List.Basic

/-! # Host and port (`net.SplitHostPort`, `net.JoinHostPort`)

`getClientIP` of the rendezvous server takes the host out of `r.RemoteAddr` with
`net.SplitHostPort`, and `Config.TargetAddr` builds the address the bridge dials with
`net.JoinHostPort`. Both look only for the bytes `:`, `[` and `]`. These are ASCII, so the byte
index of one of them and the index of its character cut a text at the same place, and the two
functions are written over characters.
-/

namespace SfoConnectivity.Net

/-- `bytealg.IndexByteString`. -/
def indexOf (c : Char) : List Char → Option Nat
  | [] => none
  | x :: xs => if x = c then some 0 else (indexOf c xs).map (· + 1)

/-- `bytealg.LastIndexByteString`. -/
def lastIndexOf (c : Char) : List Char → Option Nat
  | [] => none
  | x :: xs =>
    match lastIndexOf c xs with
    | some i => some (i + 1)
    | none => if x = c then some 0 else none

/-- `AddrError.Error()`. -/
def addrError (addr why : String) : String :=
  if addr = "" then why else "address " ++ addr ++ ": " ++ why

def missingPort : String := "missing port in address"

def tooManyColons : String := "too many colons in address"

/-- The host `net.SplitHostPort` cuts out when the last colon is at `i`, with the positions
`j` and `k` from which no `[` and no `]` may follow. -/
def splitHost (hostport : String) (i : Nat) : Except String (String × Nat × Nat) :=
  let s := hostport.data
  if s.head? = some '[' then
    match indexOf ']' s with
    | none => .error (addrError hostport "missing ']' in address")
    | some e =>
      if e + 1 = s.length then .error (addrError hostport missingPort)
      else if e + 1 = i then .ok (⟨(s.take e).drop 1⟩, 1, e + 1)
      else if s.get? (e + 1) = some ':' then .error (addrError hostport tooManyColons)
      else .error (addrError hostport missingPort)
  else if ':' ∈ s.take i then .error (addrError hostport tooManyColons)
  else .ok (⟨s.take i⟩, 0, 0)

/-- `net.SplitHostPort`. -/
def splitHostPort (hostport : String) : Except String (String × String) :=
  let s := hostport.data
  match lastIndexOf ':' s with
  | none => .error (addrError hostport missingPort)
  | some i =>
    match splitHost hostport i with
    | .error e => .error e
    | .ok (host, j, k) =>
      if '[' ∈ s.drop j then .error (addrError hostport "unexpected '[' in address")
      else if ']' ∈ s.drop k then .error (addrError hostport "unexpected ']' in address")
      else .ok (host, ⟨s.drop (i + 1)⟩)

/-- `net.JoinHostPort`. -/
def joinHostPort (host port : String) : String :=
  if ':' ∈ host.data then "[" ++ host ++ "]:" ++ port else host ++ ":" ++ port

/-! ## Searching for one character -/

section Search

variable {c : Char}

theorem indexOf_append_of_not_mem {a : List Char} (h : c ∉ a) (b : List Char) :
    indexOf c (a ++ b) = (indexOf c b).map (· + a.length) := by
  induction a with
  | nil => simp
  | cons x a ih =>
    simp only [List.mem_cons, not_or] at h
    rw [List.cons_append, indexOf, if_neg (Ne.symm h.1), ih h.2, Option.map_map]
    congr 1

theorem lastIndexOf_eq_none {s : List Char} (h : c ∉ s) : lastIndexOf c s = none := by
  induction s with
  | nil => rfl
  | cons x s ih =>
    simp only [List.mem_cons, not_or] at h
    simp [lastIndexOf, ih h.2, Ne.symm h.1]

/-- The last `c` of `a ++ c :: b` is the one after `a` when `b` holds none. -/
theorem lastIndexOf_append_cons {b : List Char} (h : c ∉ b) (a : List Char) :
    lastIndexOf c (a ++ c :: b) = some a.length := by
  induction a with
  | nil => simp [lastIndexOf, lastIndexOf_eq_none h]
  | cons x a ih => simp [lastIndexOf, ih]

end Search

/-! ## `SplitHostPort` takes `JoinHostPort` apart -/

/-- A host and a port that `net.SplitHostPort` gives back from `net.JoinHostPort`: no bracket
in either, and no colon in the port. A host with colons (IPv6) is bracketed on the way. -/
theorem splitHostPort_joinHostPort {host port : String} (hh : '[' ∉ host.data ∧ ']' ∉ host.data)
    (hp : ':' ∉ port.data ∧ '[' ∉ port.data ∧ ']' ∉ port.data) :
    splitHostPort (joinHostPort host port) = .ok (host, port) := by
  unfold joinHostPort
  split_ifs with hc
  · -- `[host]:port`
    have hd : ("[" ++ host ++ "]:" ++ port).data = '[' :: (host.data ++ ']' :: ':' :: port.data) := by
      simp [String.data_append]
    have hl : lastIndexOf ':' ('[' :: (host.data ++ ']' :: ':' :: port.data)) =
        some (host.data.length + 2) := by
      simpa using lastIndexOf_append_cons hp.1 ('[' :: host.data ++ [']'])
    have hi : indexOf ']' ('[' :: (host.data ++ ']' :: ':' :: port.data)) =
        some (host.data.length + 1) := by
      rw [← List.cons_append, indexOf_append_of_not_mem (by simpa using hh.2)]
      simp [indexOf]
    simp only [splitHostPort, hd, hl, splitHost, List.head?_cons, if_true, hi]
    rw [if_neg (by simp only [List.length_cons, List.length_append]; omega)]
    simp only [List.drop_succ_cons, List.take_succ_cons, List.drop_append, List.take_left',
      List.drop_zero]
    simp [hh.1, hh.2, hp.2.1, hp.2.2]
  · -- `host:port`
    have hd : (host ++ ":" ++ port).data = host.data ++ ':' :: port.data := by
      simp [String.data_append]
    have hhead : (host.data ++ ':' :: port.data).head? ≠ some '[' := by
      cases h : host.data with
      | nil => simp
      | cons x xs => simpa [h] using fun e : x = '[' => hh.1 (by simp [h, e])
    simp only [splitHostPort, hd, lastIndexOf_append_cons hp.1, splitHost, if_neg hhead,
      String.length, List.take_left', List.drop_zero, List.mem_append, List.mem_cons, hc, hh.1,
      hh.2, hp.2.1, hp.2.2, false_or, or_false, if_false, List.drop_append]
    rfl

end SfoConnectivity.Net
