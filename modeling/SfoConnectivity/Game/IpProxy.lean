import Mathlib.Data.List.Infix

/-! # The IP-rewrite proxy (`game/sfo_ip_proxy.mjs`)

`sfo_ip_proxy.mjs` sits between the game and its SMUS server. Each `data` event of the server
socket hands over one chunk of the server's byte stream; `replaceIP` overwrites every
occurrence of `PUBLIC_IP` in that chunk with `LAN_IP`, which has the same length, and the chunk
goes on to the game. The chunk is all `replaceIP` sees, so an occurrence that a chunk boundary
cuts is found in neither chunk and reaches the game unchanged.
-/

namespace SfoConnectivity.Game

/-- `Buffer.from(s, 'ascii')`: one byte per character, its low eight bits. -/
def asciiBytes (s : String) : List UInt8 := s.data.map fun c => c.toNat.toUInt8

def publicIp : String := "199.204.234.98"

def lanIp : String := "192.168.001.08"

def publicIpBuf : List UInt8 := asciiBytes publicIp

def lanIpBuf : List UInt8 := asciiBytes lanIp

/-- The check at start-up: the two addresses have the same length in bytes. -/
theorem length_lanIpBuf : lanIpBuf.length = publicIpBuf.length := rfl

theorem length_publicIpBuf : publicIpBuf.length = 14 := rfl

/-! ## `Buffer` operations -/

/-- `buf.indexOf(value, byteOffset)` over the bytes `hay`, the first of which is at `i`. -/
def findFrom (value : List UInt8) (i : Nat) : List UInt8 → Option Nat
  | [] => if value.isPrefixOf [] then some i else none
  | b :: rest => if value.isPrefixOf (b :: rest) then some i else findFrom value (i + 1) rest

/-- `buf.indexOf(value, byteOffset)`: the first index from `byteOffset` at which `value`
starts; `none` is -1. -/
def indexOf (buf value : List UInt8) (byteOffset : Nat) : Option Nat :=
  findFrom value byteOffset (buf.drop byteOffset)

/-- `source.copy(target, targetStart)`: the bytes of `source` written over `target` from
`targetStart`, as many as fit. -/
def copy (source target : List UInt8) (targetStart : Nat) : List UInt8 :=
  target.take targetStart ++ source.take (target.length - targetStart) ++
    target.drop (targetStart + source.length)

/-- `value` starts at index `i` of `s`. -/
def OccursAt (value s : List UInt8) (i : Nat) : Prop := value <+: s.drop i

instance (value s : List UInt8) (i : Nat) : Decidable (OccursAt value s i) :=
  inferInstanceAs (Decidable (value <+: s.drop i))

section Search

variable {value hay buf : List UInt8} {i idx off : Nat}

theorem findFrom_eq_some (h : findFrom value i hay = some idx) :
    i ≤ idx ∧ OccursAt value hay (idx - i) ∧ ∀ j < idx - i, ¬ OccursAt value hay j := by
  induction hay generalizing i with
  | nil =>
    simp only [findFrom, List.isPrefixOf_iff_prefix] at h
    split at h <;> cases h
    simp_all [OccursAt]
  | cons b rest ih =>
    simp only [findFrom, List.isPrefixOf_iff_prefix] at h
    split at h
    · cases h
      simp_all [OccursAt]
    · obtain ⟨hle, hocc, hfirst⟩ := ih h
      refine ⟨by omega, by simpa [OccursAt, show idx - i = idx - (i + 1) + 1 by omega] using hocc, ?_⟩
      intro j hj
      cases j with
      | zero => simpa [OccursAt]
      | succ j => exact hfirst j (by omega)

theorem findFrom_eq_none (h : findFrom value i hay = none) (j : Nat) : ¬ OccursAt value hay j := by
  induction hay generalizing i j with
  | nil =>
    simp only [findFrom, List.isPrefixOf_iff_prefix] at h
    split at h
    · cases h
    · rename_i hn
      simpa [OccursAt] using hn
  | cons b rest ih =>
    simp only [findFrom, List.isPrefixOf_iff_prefix] at h
    split at h
    · cases h
    · cases j with
      | zero => simpa [OccursAt]
      | succ j => simpa [OccursAt] using ih h j

theorem indexOf_eq_some (h : indexOf buf value off = some idx) :
    off ≤ idx ∧ OccursAt value buf idx ∧ ∀ j, off ≤ j → j < idx → ¬ OccursAt value buf j := by
  obtain ⟨hle, hocc, hfirst⟩ := findFrom_eq_some h
  refine ⟨hle, by simpa [OccursAt, List.drop_drop, Nat.add_sub_cancel' hle] using hocc, ?_⟩
  intro j hj hj'
  simpa [OccursAt, List.drop_drop, Nat.add_sub_cancel' hj] using hfirst (j - off) (by omega)

theorem indexOf_eq_none (h : indexOf buf value off = none) (j : Nat) (hj : off ≤ j) :
    ¬ OccursAt value buf j := by
  simpa [OccursAt, List.drop_drop, Nat.add_sub_cancel' hj] using findFrom_eq_none h (j - off)

theorem OccursAt.add_length_le (h : OccursAt value buf i) : i + value.length ≤ buf.length ∨
    value = [] := by
  have := h.length_le
  rcases value with _ | ⟨b, value⟩
  · exact .inr rfl
  · left
    simp only [List.length_drop, List.length_cons] at this ⊢
    omega

theorem copy_of_le {source target : List UInt8} {targetStart : Nat}
    (h : targetStart + source.length ≤ target.length) :
    copy source target targetStart =
      target.take targetStart ++ source ++ target.drop (targetStart + source.length) := by
  have hs : source.take (target.length - targetStart) = source := List.take_of_length_le (by omega)
  rw [copy, hs]

theorem length_copy {source target : List UInt8} {targetStart : Nat}
    (h : targetStart + source.length ≤ target.length) :
    (copy source target targetStart).length = target.length := by
  rw [copy_of_le h]
  simp only [List.length_append, List.length_take, List.length_drop]
  omega

end Search

/-! ## `replaceIP` -/

/-- The `while (true)` loop of `replaceIP`, from `offset`, with `replaced` occurrences
rewritten so far. -/
def replaceLoop (data : List UInt8) (offset replaced : Nat) : List UInt8 × Nat :=
  match h : indexOf data publicIpBuf offset with
  | none => (data, replaced)
  | some idx => replaceLoop (copy lanIpBuf data idx) (idx + lanIpBuf.length) (replaced + 1)
termination_by data.length + 1 - offset
decreasing_by
  obtain ⟨hoff, hocc, -⟩ := indexOf_eq_some h
  have hlen : idx + lanIpBuf.length ≤ data.length := by
    rcases hocc.add_length_le with hle | hnil
    · rwa [length_lanIpBuf]
    · cases hnil
  rw [length_copy hlen]
  have : lanIpBuf.length = 14 := rfl
  omega

/-- `replaceIP(data)`: `data` rewritten in place, and the number of occurrences replaced. -/
def replaceIP (data : List UInt8) : List UInt8 × Nat := replaceLoop data 0 0

/-- The server socket's `data` handler: the chunk after `replaceIP`, as written to the game. -/
def onServerData (data : List UInt8) : List UInt8 := (replaceIP data).1

/-- What the game receives for the chunks the server socket delivers, in order. -/
def serverToClient (chunks : List (List UInt8)) : List UInt8 := (chunks.map onServerData).flatten

/-! ## Every occurrence replaced -/

/-- `s` with each occurrence of `pat`, from left to right, replaced by `rep`: at an
occurrence, `rep` and then what follows the occurrence. -/
def replaceAll (pat rep : List UInt8) : List UInt8 → List UInt8
  | [] => []
  | b :: s =>
    if pat ≠ [] ∧ pat <+: b :: s then rep ++ replaceAll pat rep (s.drop (pat.length - 1))
    else b :: replaceAll pat rep s
termination_by s => s.length

/-- No proper suffix of `pat` is a prefix of it, so two occurrences of `pat` never overlap. -/
def BorderFree (pat : List UInt8) : Prop := ∀ d < pat.length, 0 < d → ¬ pat.drop d <+: pat

instance (pat : List UInt8) : Decidable (BorderFree pat) :=
  inferInstanceAs (Decidable (∀ d < pat.length, 0 < d → ¬ pat.drop d <+: pat))

theorem borderFree_publicIpBuf : BorderFree publicIpBuf := by decide

section Occurrences

variable {pat rep s : List UInt8} {b : UInt8} {i j k p : Nat}

@[simp] theorem occursAt_zero : OccursAt pat s 0 ↔ pat <+: s := by simp [OccursAt]

@[simp] theorem occursAt_cons_succ : OccursAt pat (b :: s) (i + 1) ↔ OccursAt pat s i := by
  simp [OccursAt]

@[simp] theorem occursAt_drop : OccursAt pat (s.drop k) i ↔ OccursAt pat s (k + i) := by
  simp [OccursAt, List.drop_drop]

/-- Two occurrences of a border-free `pat` that overlap are the same. -/
theorem BorderFree.eq_of_le (hbf : BorderFree pat) (hi : OccursAt pat s i) (hj : OccursAt pat s j)
    (hij : i ≤ j) (hji : j < i + pat.length) : i = j := by
  by_contra hne
  have hd : pat.drop (j - i) <+: s.drop j := by
    simpa [List.drop_drop, Nat.add_sub_cancel' hij] using List.IsPrefix.drop hi (j - i)
  exact hbf (j - i) (by omega) (by omega) (List.prefix_of_prefix_length_le hd hj (by simp))

theorem BorderFree.eq_of_cover (hbf : BorderFree pat) (hi : OccursAt pat s i)
    (hj : OccursAt pat s j) (hip : i ≤ p) (hpi : p < i + pat.length) (hjp : j ≤ p)
    (hpj : p < j + pat.length) : i = j := by
  rcases Nat.le_total i j with hij | hji
  · exact hbf.eq_of_le hi hj hij (by omega)
  · exact (hbf.eq_of_le hj hi hji (by omega)).symm

/-- After an occurrence at the head of `b :: rest`, the scan resumes at index `pat.length`. -/
theorem occursAt_after (hpos : 0 < pat.length) (hk : pat.length ≤ i) :
    OccursAt pat (b :: s) i ↔ OccursAt pat (s.drop (pat.length - 1)) (i - pat.length) := by
  obtain ⟨i, rfl⟩ : ∃ i', i = i' + 1 := ⟨i - 1, by omega⟩
  rw [occursAt_cons_succ, occursAt_drop, show pat.length - 1 + (i + 1 - pat.length) = i by omega]

theorem length_replaceAll (hlen : rep.length = pat.length) (s : List UInt8) :
    (replaceAll pat rep s).length = s.length := by
  induction s using replaceAll.induct pat rep with
  | case1 => rw [replaceAll]
  | case2 b rest h ih =>
    have := h.2.length_le
    have := List.length_pos.mpr h.1
    rw [replaceAll, if_pos h, List.length_append, ih, hlen, List.length_drop]
    simp only [List.length_cons] at *
    omega
  | case3 b rest h ih => rw [replaceAll, if_neg h, List.length_cons, ih, List.length_cons]

/-- Inside an occurrence, `replaceAll` has written `rep`. -/
theorem getElem?_replaceAll_of_occursAt (hbf : BorderFree pat) (hlen : rep.length = pat.length)
    (hi : OccursAt pat s i) (hp : i ≤ p) (hp' : p < i + pat.length) :
    (replaceAll pat rep s)[p]? = rep[p - i]? := by
  induction s using replaceAll.induct pat rep generalizing i p with
  | case1 =>
    simp only [OccursAt, List.drop_nil, List.prefix_nil] at hi
    simp only [hi, List.length_nil] at hp'
    omega
  | case2 b rest h ih =>
    have hpos := List.length_pos.mpr h.1
    rw [replaceAll, if_pos h]
    rcases Nat.lt_or_ge i pat.length with hi' | hi'
    · obtain rfl : 0 = i := hbf.eq_of_le (occursAt_zero.mpr h.2) hi (Nat.zero_le _) (by omega)
      rw [List.getElem?_append_left (by omega), Nat.sub_zero]
    · rw [List.getElem?_append_right (by omega), hlen,
        ih ((occursAt_after hpos hi').mp hi) (show i - pat.length ≤ p - pat.length by omega)
          (by omega)]
      congr 1
      omega
  | case3 b rest h ih =>
    rw [replaceAll, if_neg h]
    cases i with
    | zero =>
      refine absurd ⟨fun hnil => ?_, occursAt_zero.mp hi⟩ h
      simp only [hnil, List.length_nil] at hp'
      omega
    | succ i =>
      obtain ⟨p, rfl⟩ : ∃ p', p = p' + 1 := ⟨p - 1, by omega⟩
      rw [List.getElem?_cons_succ, ih (occursAt_cons_succ.mp hi) (show i ≤ p by omega) (by omega)]
      congr 1
      omega

/-- Where no occurrence lies, `replaceAll` keeps the byte. -/
theorem getElem?_replaceAll_of_uncovered (hlen : rep.length = pat.length)
    (h : ∀ i ≤ p, p < i + pat.length → ¬ OccursAt pat s i) :
    (replaceAll pat rep s)[p]? = s[p]? := by
  induction s using replaceAll.induct pat rep generalizing p with
  | case1 => rw [replaceAll]
  | case2 b rest hh ih =>
    have hpos := List.length_pos.mpr hh.1
    have hp : pat.length ≤ p := by
      by_contra hlt
      exact h 0 (Nat.zero_le _) (by omega) (occursAt_zero.mpr hh.2)
    rw [replaceAll, if_pos hh, List.getElem?_append_right (by omega), hlen,
      ih fun i hi hi' hocc => h (i + pat.length) (by omega) (by omega)
        ((occursAt_after hpos (by omega)).mpr (by simpa using hocc)),
      List.getElem?_drop]
    obtain ⟨p, rfl⟩ : ∃ p', p = p' + 1 := ⟨p - 1, by omega⟩
    rw [List.getElem?_cons_succ]
    congr 1
    omega
  | case3 b rest hh ih =>
    rw [replaceAll, if_neg hh]
    cases p with
    | zero => simp
    | succ p =>
      rw [List.getElem?_cons_succ, List.getElem?_cons_succ,
        ih fun i hi hi' hocc => h (i + 1) (by omega) (by omega) (occursAt_cons_succ.mpr hocc)]

theorem replaceAll_of_forall_not (h : ∀ j, ¬ OccursAt pat s j) : replaceAll pat rep s = s := by
  induction s using replaceAll.induct pat rep with
  | case1 => rw [replaceAll]
  | case2 b rest hh _ => exact absurd (occursAt_zero.mpr hh.2) (h 0)
  | case3 b rest hh ih =>
    rw [replaceAll, if_neg hh, ih fun j hj => h (j + 1) (occursAt_cons_succ.mpr hj)]

/-- Up to the first occurrence the bytes are kept; there `rep` is written, and the rest is
rewritten after it. -/
theorem replaceAll_of_first (hne : pat ≠ []) (hk : OccursAt pat s k)
    (hfirst : ∀ j < k, ¬ OccursAt pat s j) :
    replaceAll pat rep s = s.take k ++ rep ++ replaceAll pat rep (s.drop (k + pat.length)) := by
  have hpos := List.length_pos.mpr hne
  obtain ⟨b, rest, rfl⟩ : ∃ b rest, s = b :: rest := by
    rcases s with _ | ⟨b, rest⟩
    · simp [OccursAt, hne] at hk
    · exact ⟨b, rest, rfl⟩
  induction k generalizing b rest with
  | zero =>
    rw [replaceAll, if_pos ⟨hne, occursAt_zero.mp hk⟩, Nat.zero_add,
      show pat.length = pat.length - 1 + 1 by omega, List.drop_succ_cons]
    rfl
  | succ k ih =>
    rw [replaceAll, if_neg fun h => hfirst 0 (Nat.succ_pos k) (occursAt_zero.mpr h.2)]
    rcases rest with _ | ⟨b', rest⟩
    · simp [OccursAt, hne] at hk
    · rw [ih b' rest (occursAt_cons_succ.mp hk)
        fun j hj hocc => hfirst (j + 1) (by omega) (occursAt_cons_succ.mpr hocc),
        List.take_succ_cons, Nat.add_right_comm, List.drop_succ_cons]
      rfl

end Occurrences

/-! ## `replaceIP` replaces every occurrence in its buffer -/

section Loop

variable {data : List UInt8} {offset replaced idx : Nat}

theorem replaceLoop_of_none (h : indexOf data publicIpBuf offset = none) :
    replaceLoop data offset replaced = (data, replaced) := by
  rw [replaceLoop]
  split <;> simp_all

theorem replaceLoop_of_some (h : indexOf data publicIpBuf offset = some idx) :
    replaceLoop data offset replaced =
      replaceLoop (copy lanIpBuf data idx) (idx + lanIpBuf.length) (replaced + 1) := by
  rw [replaceLoop]
  split <;> simp_all

/-- The loop's invariant: the bytes before `offset` are final, and from `offset` on every
occurrence gets replaced. -/
theorem replaceLoop_fst (data : List UInt8) (offset replaced : Nat) :
    (replaceLoop data offset replaced).1 =
      data.take offset ++ replaceAll publicIpBuf lanIpBuf (data.drop offset) := by
  induction data, offset, replaced using replaceLoop.induct with
  | case1 data offset replaced h =>
    rw [replaceLoop_of_none h, replaceAll_of_forall_not fun j hj =>
      indexOf_eq_none h (offset + j) (by omega) (occursAt_drop.mp hj), List.take_append_drop]
  | case2 data offset replaced idx h ih =>
    obtain ⟨hoff, hocc, hfirst⟩ := indexOf_eq_some h
    have hlen : idx + lanIpBuf.length ≤ data.length := by
      rcases hocc.add_length_le with hle | hnil
      · rwa [length_lanIpBuf]
      · cases hnil
    have hk : OccursAt publicIpBuf (data.drop offset) (idx - offset) := by
      rwa [occursAt_drop, Nat.add_sub_cancel' hoff]
    have hprefix : data.take offset ++ (data.drop offset).take (idx - offset) = data.take idx := by
      rw [← List.take_add, Nat.add_sub_cancel' hoff]
    have hrest : (data.drop offset).drop (idx - offset + publicIpBuf.length) =
        data.drop (idx + lanIpBuf.length) := by
      rw [List.drop_drop, length_lanIpBuf]
      congr 1
      omega
    have htake : (data.take idx ++ lanIpBuf).length = idx + lanIpBuf.length := by
      simp only [List.length_append, List.length_take]
      omega
    rw [replaceLoop_of_some h, ih, copy_of_le hlen, List.take_left' htake, List.drop_left' htake,
      replaceAll_of_first (by decide) hk fun j hj hocc' =>
        hfirst (offset + j) (by omega) (by omega) (occursAt_drop.mp hocc'),
      hrest, ← hprefix]
    simp only [List.append_assoc]

/-- `replaceIP` leaves its buffer with every occurrence of `PUBLIC_IP` replaced. -/
theorem onServerData_eq (data : List UInt8) :
    onServerData data = replaceAll publicIpBuf lanIpBuf data := by
  simp [onServerData, replaceIP, replaceLoop_fst]

end Loop

/-! ## The stream cut into chunks -/

/-- An occurrence of `pat` at index `i` of the stream that lies inside one chunk. -/
def InsideChunk (pat : List UInt8) : List (List UInt8) → Nat → Prop
  | [], _ => False
  | c :: cs, i => OccursAt pat c i ∨ (c.length ≤ i ∧ InsideChunk pat cs (i - c.length))

instance instDecidableInsideChunk (pat : List UInt8) :
    (cs : List (List UInt8)) → (i : Nat) → Decidable (InsideChunk pat cs i)
  | [], _ => isFalse id
  | c :: cs, i =>
    have := instDecidableInsideChunk pat cs (i - c.length)
    inferInstanceAs (Decidable (OccursAt pat c i ∨ (c.length ≤ i ∧ _)))

/-- An occurrence of `PUBLIC_IP` in the stream that no single chunk holds: a chunk boundary
cuts it. -/
def Straddles (chunks : List (List UInt8)) : Prop :=
  ∃ i, OccursAt publicIpBuf chunks.flatten i ∧ ¬ InsideChunk publicIpBuf chunks i

section Chunks

variable {pat rep : List UInt8} {cs : List (List UInt8)} {i p : Nat}

theorem InsideChunk.occursAt (h : InsideChunk pat cs i) : OccursAt pat cs.flatten i := by
  induction cs generalizing i with
  | nil => exact h.elim
  | cons c cs ih =>
    rw [List.flatten_cons, OccursAt, List.drop_append_eq_append_drop]
    rcases h with h | ⟨hle, h⟩
    · exact h.trans (List.prefix_append _ _)
    · rw [List.drop_eq_nil_of_le hle, List.nil_append]
      exact ih h

/-- Inside an occurrence that one chunk holds, that chunk's rewrite has written `rep`. -/
theorem getElem?_flatten_of_insideChunk (hbf : BorderFree pat) (hlen : rep.length = pat.length)
    (hi : InsideChunk pat cs i) (hp : i ≤ p) (hp' : p < i + pat.length) :
    (cs.map (replaceAll pat rep)).flatten[p]? = rep[p - i]? := by
  induction cs generalizing i p with
  | nil => exact hi.elim
  | cons c cs ih =>
    rw [List.map_cons, List.flatten_cons]
    rcases hi with hi | ⟨hle, hi⟩
    · rcases hi.add_length_le with hle | hnil
      · rw [List.getElem?_append_left (by rw [length_replaceAll hlen]; omega),
          getElem?_replaceAll_of_occursAt hbf hlen hi hp hp']
      · simp only [hnil, List.length_nil] at hp'
        omega
    · rw [List.getElem?_append_right (by rw [length_replaceAll hlen]; omega),
        length_replaceAll hlen, ih hi (show i - c.length ≤ p - c.length by omega) (by omega)]
      congr 1
      omega

/-- Where no occurrence that one chunk holds lies, the chunks' rewrites keep the byte. -/
theorem getElem?_flatten_of_uncovered (hlen : rep.length = pat.length)
    (h : ∀ i ≤ p, p < i + pat.length → ¬ InsideChunk pat cs i) :
    (cs.map (replaceAll pat rep)).flatten[p]? = cs.flatten[p]? := by
  induction cs generalizing p with
  | nil => rfl
  | cons c cs ih =>
    rw [List.map_cons, List.flatten_cons, List.flatten_cons]
    rcases Nat.lt_or_ge p c.length with hp | hp
    · rw [List.getElem?_append_left (by rwa [length_replaceAll hlen]), List.getElem?_append_left hp,
        getElem?_replaceAll_of_uncovered hlen fun i hi hi' hocc => h i hi hi' (Or.inl hocc)]
    · rw [List.getElem?_append_right (by rwa [length_replaceAll hlen]),
        List.getElem?_append_right hp, length_replaceAll hlen,
        ih fun i hi hi' hin => h (i + c.length) (by omega) (by omega)
          (Or.inr ⟨by omega, by rwa [Nat.add_sub_cancel]⟩)]

end Chunks

theorem serverToClient_eq (chunks : List (List UInt8)) :
    serverToClient chunks = (chunks.map (replaceAll publicIpBuf lanIpBuf)).flatten := by
  simp only [serverToClient, funext onServerData_eq]

/-- The game receives the server's stream with every occurrence of `PUBLIC_IP` replaced by
`LAN_IP` exactly when no chunk boundary cuts an occurrence. -/
theorem serverToClient_eq_replaceAll_iff (chunks : List (List UInt8)) :
    serverToClient chunks = replaceAll publicIpBuf lanIpBuf chunks.flatten ↔
      ¬ Straddles chunks := by
  have hbf := borderFree_publicIpBuf
  have hlen := length_lanIpBuf
  rw [serverToClient_eq]
  constructor
  · rintro heq ⟨i, hi, hin⟩
    have hcut : ∀ j ≤ i + 2, i + 2 < j + publicIpBuf.length →
        ¬ InsideChunk publicIpBuf chunks j := fun j hj hj' hj'' => by
      obtain rfl := hbf.eq_of_cover hi hj''.occursAt (Nat.le_add_right i 2)
        (by simp [length_publicIpBuf]) hj hj'
      exact hin hj''
    obtain ⟨t, ht⟩ := hi
    have hstream : chunks.flatten[i + 2]? = publicIpBuf[2]? := by
      rw [← List.getElem?_drop, ← ht, List.getElem?_append_left (by decide)]
    have h2 := congrArg (·[i + 2]?) heq
    simp only at h2
    rw [getElem?_flatten_of_uncovered hlen hcut, hstream,
      getElem?_replaceAll_of_occursAt hbf hlen ⟨t, ht⟩ (Nat.le_add_right i 2)
        (by simp [length_publicIpBuf]), Nat.add_sub_cancel_left] at h2
    exact absurd h2 (by decide)
  · intro hns
    simp only [Straddles, not_exists, not_and, not_not] at hns
    refine List.ext_getElem? fun p => ?_
    by_cases hc : ∃ i ≤ p, p < i + publicIpBuf.length ∧ OccursAt publicIpBuf chunks.flatten i
    · obtain ⟨i, hip, hpi, hi⟩ := hc
      rw [getElem?_flatten_of_insideChunk hbf hlen (hns i hi) hip hpi,
        getElem?_replaceAll_of_occursAt hbf hlen hi hip hpi]
    · push_neg at hc
      rw [getElem?_flatten_of_uncovered hlen fun i hi hi' hin => hc i hi hi' hin.occursAt,
        getElem?_replaceAll_of_uncovered hlen fun i hi hi' => hc i hi hi']

/-- Sent as the chunks `199.204.` and `234.98`, the address reaches the game unchanged. -/
theorem public_ip_cut_after_eight_bytes_is_kept :
    Straddles [asciiBytes "199.204.", asciiBytes "234.98"] ∧
      serverToClient [asciiBytes "199.204.", asciiBytes "234.98"] ≠
        replaceAll publicIpBuf lanIpBuf [asciiBytes "199.204.", asciiBytes "234.98"].flatten :=
  have hs : Straddles [asciiBytes "199.204.", asciiBytes "234.98"] := ⟨0, by decide, by decide⟩
  ⟨hs, fun h => (serverToClient_eq_replaceAll_iff _).mp h hs⟩

end SfoConnectivity.Game
