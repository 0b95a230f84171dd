import SfoConnectivity.Wire.Readers
import SfoConnectivity.Auth.Claims

/-! # The relay handshake on the wire

`RelayClient.Connect` writes its auth message as one line, `HandleConnection` reads it with
`json.NewDecoder(conn).Decode`, answers with one line, and `Connect` reads that with
`bufio.NewReader(conn).ReadBytes('\n')`. Both readers are dropped after the handshake: the
relay's splice (`io.Copy`) and the bridge (`GetConn`) read the raw connection from where the
reader left it.
-/

namespace SfoConnectivity.Wire

open SfoConnectivity.Auth

/-- `AuthMessage`; a Go string is its bytes. -/
structure AuthMessage where
  sessionID : List UInt8
  relayToken : List UInt8
  role : List UInt8
  deriving DecidableEq, Repr

/-- `json.Marshal(authMsg)`. -/
def AuthMessage.marshal (m : AuthMessage) : List UInt8 :=
  ascii "\x7b\"sessionId\":" ++ appendString m.sessionID ++ ascii ",\"relayToken\":" ++
    appendString m.relayToken ++ ascii ",\"role\":" ++ appendString m.role ++ ascii "\x7d"

/-- What `Connect` writes: `data = append(data, '\n')`. -/
def authLine (m : AuthMessage) : List UInt8 := m.marshal ++ [10]

/-- What `sendAuthResponse` writes: `json.Marshal(AuthResponse{...})`, whose `error` is
`omitempty`, and a newline. -/
def responseLine (success : Bool) (errMsg : List UInt8) : List UInt8 :=
  ascii "\x7b\"success\":" ++ ascii (toString success) ++
    (if errMsg = [] then [] else ascii ",\"error\":" ++ appendString errMsg) ++ ascii "\x7d" ++ [10]

/-- What the relay's splice reads from a client's connection once `HandleConnection` has
decoded the auth message there: the connection from where the decoder left it. -/
def spliced (chunks : List (List UInt8)) : Option (List UInt8) :=
  match decode chunks with
  | .ok (_, _, rest) => some rest.flatten
  | .error _ => none

/-- What the bridge reads through `GetConn` once `Connect` has read the response line: the
connection from where the `bufio.Reader` left it. -/
def bridged (chunks : List (List UInt8)) : Option (List UInt8) :=
  match readBytes 10 [] chunks with
  | .ok (_, _, rest) => some rest.flatten
  | .error _ => none

/-! ## The relay reads the whole message, and whole chunks -/

/-- The scanner goes through the message up to its `}` inside the object, and `}` closes it. -/
theorem marshal_closes (m : AuthMessage) :
    ∃ body, m.marshal = body ++ [125] ∧ Closes .reset body 125 := by
  have h₁ : Scanner.reset.scan (ascii "\x7b\"sessionId\":") =
      .ok ⟨.beginValue, [.objectValue], false⟩ := rfl
  have h₂ : (⟨.endValue, [.objectValue], false⟩ : Scanner).scan (ascii ",\"relayToken\":") =
      .ok ⟨.beginValue, [.objectValue], false⟩ := rfl
  have h₃ : (⟨.endValue, [.objectValue], false⟩ : Scanner).scan (ascii ",\"role\":") =
      .ok ⟨.beginValue, [.objectValue], false⟩ := rfl
  refine ⟨_, rfl, ⟨.endValue, [.objectValue], false⟩, ⟨.endTop, [], true⟩, ?_, rfl,
    List.cons_ne_nil _ _, rfl, rfl⟩
  simp only [List.append_assoc]
  rw [Scanner.scan_append h₁, Scanner.scan_append (scan_appendString _ _ _),
    Scanner.scan_append h₂, Scanner.scan_append (scan_appendString _ _ _),
    Scanner.scan_append h₃, scan_appendString]

/-- On every cut of the stream the decoder hands the whole message to `Unmarshal`, so whether
the relay accepts it does not depend on the cut; it takes whole chunks up to the one that
brings the message's `}`. -/
theorem decode_marshal (m : AuthMessage) (rest : List UInt8) {chunks : List (List UInt8)}
    (hc : chunks.flatten = m.marshal ++ rest) :
    decode chunks = .ok (m.marshal, cut m.marshal.length chunks) := by
  obtain ⟨body, hb, hcl⟩ := marshal_closes m
  rw [hb] at hc ⊢
  rw [decode, readValue_closes hcl [] rest (by simpa using hc)]
  simp

/-- What the relay forwards is the newline and the payload, less what the decoder buffered. -/
theorem spliced_authLine (m : AuthMessage) (p : List UInt8) {chunks : List (List UInt8)}
    (hc : chunks.flatten = authLine m ++ p) :
    spliced chunks = some (cut m.marshal.length chunks).2.flatten ∧
      (cut m.marshal.length chunks).1 ++ (cut m.marshal.length chunks).2.flatten = 10 :: p := by
  rw [authLine, List.append_assoc, List.singleton_append] at hc
  refine ⟨by rw [spliced, decode_marshal m _ hc], ?_⟩
  rw [cut_flatten (by simp [hc]), hc, List.drop_left]

/-- The relay forwards exactly the payload on the cuts of the stream that have a boundary
right after the newline and none between the `}` and the newline; on every other cut it drops
payload bytes or forwards the newline. -/
theorem spliced_eq_payload_iff (m : AuthMessage) (p : List UInt8) {chunks : List (List UInt8)}
    (hc : chunks.flatten = authLine m ++ p) :
    spliced chunks = some p ↔
      (∃ k, (chunks.take k).flatten = authLine m) ∧
        ∀ j, (chunks.take j).flatten ≠ m.marshal := by
  obtain ⟨hs, hcut⟩ := spliced_authLine m p hc
  set n := m.marshal.length
  have hn : 0 < n := by
    obtain ⟨body, hb, -⟩ := marshal_closes m
    simp [n, hb]
  have hlen : n + 1 ≤ chunks.flatten.length := by simp [hc, authLine, n]
  have hc' : chunks.flatten = m.marshal ++ (10 :: p) := by simp [hc, authLine]
  -- a boundary after the message, and one after the newline
  have hat : (cut n chunks).1 = [] ↔ ∃ j, (chunks.take j).flatten = m.marshal := by
    rw [cut_fst_eq_nil_iff hn (by omega)]
    exact exists_congr fun j => flatten_take_eq_iff j hc'
  have hafter : (cut (n + 1) chunks).1 = [] ↔ ∃ k, (chunks.take k).flatten = authLine m := by
    rw [cut_fst_eq_nil_iff (Nat.succ_pos n) hlen]
    exact exists_congr fun k => by
      rw [← flatten_take_eq_iff k hc]; simp [authLine, n]
  rw [hs, Option.some_inj]
  constructor
  · intro hp
    rw [hp] at hcut
    have h1 : (cut n chunks).1 = [10] := List.append_cancel_right (hcut.trans (by simp))
    refine ⟨hafter.mp ?_, fun j hj => ?_⟩
    · rw [cut_succ (by simp [h1]), h1]; rfl
    · exact absurd (hat.mpr ⟨j, hj⟩) (by simp [h1])
  · rintro ⟨hk, hj⟩
    have hne : (cut n chunks).1 ≠ [] := fun h => (hat.mp h).elim fun j h => hj j h
    obtain ⟨b, l, hb⟩ := List.exists_cons_of_ne_nil hne
    have hdrop := hafter.mpr hk
    simp only [cut_succ hne, hb, List.drop_one, List.tail_cons] at hdrop
    rw [hb, hdrop, List.singleton_append] at hcut
    exact (List.cons.inj hcut).2

/-! ## The client reads the response line, and whole chunks -/

theorem readBytes_responseLine (rest : List UInt8) {chunks : List (List UInt8)}
    (hc : chunks.flatten = responseLine true [] ++ rest) :
    readBytes 10 [] chunks =
      .ok (responseLine true [], cut (responseLine true []).length chunks) :=
  readBytes_line (by decide : (10 : UInt8) ∉ ascii "\x7b\"success\":true\x7d") [] rest
    (by rw [hc]; rfl)

/-- What the bridge reads is what the relay forwarded, less what the `bufio.Reader` buffered. -/
theorem bridged_responseLine (p : List UInt8) {chunks : List (List UInt8)}
    (hc : chunks.flatten = responseLine true [] ++ p) :
    bridged chunks = some (cut (responseLine true []).length chunks).2.flatten ∧
      (cut (responseLine true []).length chunks).1 ++
        (cut (responseLine true []).length chunks).2.flatten = p := by
  refine ⟨by rw [bridged, readBytes_responseLine p hc], ?_⟩
  rw [cut_flatten (by simp [hc]), hc, List.drop_left]

/-- The bridge reads exactly what the relay forwarded on the cuts of the stream that have a
boundary right after the response line; on every other cut the `bufio.Reader` takes bytes of
it along. -/
theorem bridged_eq_payload_iff (p : List UInt8) {chunks : List (List UInt8)}
    (hc : chunks.flatten = responseLine true [] ++ p) :
    bridged chunks = some p ↔ ∃ k, (chunks.take k).flatten = responseLine true [] := by
  obtain ⟨hs, hcut⟩ := bridged_responseLine p hc
  rw [hs, Option.some_inj, ← exists_congr fun k => flatten_take_eq_iff k hc,
    ← cut_fst_eq_nil_iff (by decide) (by simp [hc])]
  constructor
  · intro hp
    rw [hp] at hcut
    simpa using hcut
  · intro h
    simpa [h] using hcut

/-! ## From one bridge to the other

The relay splices the host's connection to the joiner's: what its decoder left on the host's
connection follows the joiner's response line, and the joiner's bridge reads what its
`bufio.Reader` left of that.
-/

/-- Whatever the cuts of the two connections, the bridge at the other end reads the payload
with bytes missing at its front, or with the newline ahead of it: never a byte out of order,
nor one the sender did not write. It reads exactly the payload on cuts with a boundary right
after each line and none between the `}` and the newline. -/
theorem bridge_reads_spliced_payload (m : AuthMessage) (p : List UInt8)
    {sent received : List (List UInt8)} (hs : sent.flatten = authLine m ++ p) {fwd : List UInt8}
    (hfwd : spliced sent = some fwd) (hr : received.flatten = responseLine true [] ++ fwd) :
    (∃ out, bridged received = some out ∧ out <:+ 10 :: p) ∧
      ((∃ k, (sent.take k).flatten = authLine m) → (∀ j, (sent.take j).flatten ≠ m.marshal) →
        (∃ k, (received.take k).flatten = responseLine true []) → bridged received = some p) := by
  obtain ⟨hs₁, hs₂⟩ := spliced_authLine m p hs
  obtain ⟨hr₁, hr₂⟩ := bridged_responseLine fwd hr
  refine ⟨?_, fun hline hbrace hresp => ?_⟩
  · rw [hs₁, Option.some_inj] at hfwd
    subst hfwd
    exact ⟨_, hr₁, (List.suffix_append _ _).trans (hr₂ ▸ hs₂ ▸ List.suffix_append _ _)⟩
  · rw [(spliced_eq_payload_iff m p hs).mpr ⟨hline, hbrace⟩, Option.some_inj] at hfwd
    subst hfwd
    exact (bridged_eq_payload_iff _ hr).mpr hresp

/-- The host's auth message of a session `ab`. -/
def abAuth : AuthMessage := ⟨ascii "ab", ascii "tok", ascii "host"⟩

theorem bridge_reads_payload_cut_after_lines :
    [authLine abAuth, [1, 2]].flatten = authLine abAuth ++ [1, 2] ∧
      spliced [authLine abAuth, [1, 2]] = some [1, 2] ∧
      [responseLine true [], [1, 2]].flatten = responseLine true [] ++ [1, 2] ∧
      ((∃ out, bridged [responseLine true [], [1, 2]] = some out ∧ out <:+ [10, 1, 2]) ∧
        ((∃ k, ([authLine abAuth, [1, 2]].take k).flatten = authLine abAuth) →
          (∀ j, ([authLine abAuth, [1, 2]].take j).flatten ≠ abAuth.marshal) →
          (∃ k, ([responseLine true [], [1, 2]].take k).flatten = responseLine true []) →
          bridged [responseLine true [], [1, 2]] = some [1, 2])) :=
  have hs : [authLine abAuth, [1, 2]].flatten = authLine abAuth ++ [1, 2] := by simp
  have hf : spliced [authLine abAuth, [1, 2]] = some [1, 2] :=
    (spliced_eq_payload_iff abAuth [1, 2] hs).mpr ⟨⟨1, by simp⟩, fun j h => by
      have hl := congrArg List.length h
      rcases j with _ | _ | j <;> simp [authLine, AuthMessage.marshal, ascii] at hl⟩
  have hr : [responseLine true [], [1, 2]].flatten = responseLine true [] ++ [1, 2] := by simp
  ⟨hs, hf, hr, bridge_reads_spliced_payload abAuth [1, 2] hs hf hr⟩

/-! ## Cuts that break the framing

Every `Read` of the decoder has room for 512 bytes or more, and the first of a `bufio.Reader`
for 4096, so the reads below can all happen.
-/

/-- For every auth message and every payload: when the client's bytes come one per read, the
relay forwards the newline ahead of the payload; when one read brings the `}`, the newline and
the payload's first byte, the relay drops that byte with the decoder; and when one read brings
the response line and the first byte the relay forwarded after it, the client drops that byte
with its `bufio.Reader`. -/
theorem handshake_cuts_drop_or_inject (m : AuthMessage) (b : UInt8) (p : List UInt8) :
    spliced (bytewise (authLine m ++ p)) = some (10 :: p) ∧
      spliced (bytewise m.marshal.dropLast ++ [125, 10, b] :: bytewise p) = some p ∧
      bridged ((responseLine true [] ++ [b]) :: bytewise p) = some p := by
  obtain ⟨body, hb, -⟩ := marshal_closes m
  have hn : m.marshal.length = body.length + 1 := by simp [hb]
  refine ⟨?_, ?_, ?_⟩
  · have hc : bytewise (authLine m ++ p) = bytewise body ++ [125] :: bytewise (10 :: p) := by
      simp [bytewise, authLine, hb]
    rw [spliced, decode_marshal m (10 :: p) (by rw [flatten_bytewise, authLine]; simp), hc, hn,
      cut_bytewise_append _ Nat.one_pos,
      cut_cons_of_le _ (show 1 ≤ [(125 : UInt8)].length by decide)]
    simp [flatten_bytewise]
  · rw [hb, List.dropLast_concat, spliced, decode_marshal m (10 :: b :: p)
      (by rw [hb, List.flatten_append, flatten_bytewise]; simp [flatten_bytewise]), hn,
      cut_bytewise_append _ Nat.one_pos,
      cut_cons_of_le _ (show 1 ≤ [(125 : UInt8), 10, b].length by simp)]
    simp [flatten_bytewise]
  · rw [bridged, readBytes_responseLine (b :: p) (by simp [flatten_bytewise]),
      cut_cons_of_le _ (by simp)]
    simp [flatten_bytewise]

end SfoConnectivity.Wire
