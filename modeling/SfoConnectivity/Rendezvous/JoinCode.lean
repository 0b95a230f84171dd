import Mathlib.Algebra.Order.Ring.Nat
import Mathlib.Data.List.Forall2
import Mathlib.Data.List.Infix
import SfoConnectivity.Rendezvous.Store
import SfoConnectivity.Signal.Server

/-! # Join codes on the way in (`src/unnamed/part_005`, `cmd/sfo-helper/main.go`)

Both join handlers rewrite the code they are sent before `store.Join`: `handleJoin` of the
rendezvous server for `XXXX-XXXX-XXXX` codes, and the `/session/join` handler of
`runSignalingServer` for `SFO-XXXX` codes. The code comes out of a JSON body, so it is valid
UTF-8 and a Go string is a `String`; `len` counts its UTF-8 bytes and `s[i:j]` cuts bytes.
Past ASCII, `unicode.ToUpper` reads a table, which is the parameter `upper`: every theorem
holds for every table.
-/

namespace SfoConnectivity.Rendezvous

/-! ## The `strings` functions -/

/-- `unicode.ToUpper`. -/
def toUpperRune (upper : Char → Char) (c : Char) : Char :=
  if c.toNat < 128 then c.toUpper else upper c

/-- `strings.ToUpper`. -/
def toUpper (upper : Char → Char) (s : String) : String := ⟨s.data.map (toUpperRune upper)⟩

/-- `strings.ReplaceAll(s, "-", "")`. -/
def stripDashes (s : String) : String := ⟨s.data.filter (· != '-')⟩

/-- `unicode.IsSpace`. -/
def isSpace (c : Char) : Bool :=
  if c.toNat ≤ 0xFF then c.toNat ∈ [0x09, 0x0A, 0x0B, 0x0C, 0x0D, 0x20, 0x85, 0xA0]
  else c.toNat ∈ [0x1680, 0x2028, 0x2029, 0x202F, 0x205F, 0x3000] ||
    (0x2000 ≤ c.toNat && c.toNat ≤ 0x200A)

/-- `strings.TrimSpace`. -/
def trimSpace (s : String) : String :=
  ⟨((s.data.dropWhile isSpace).reverse.dropWhile isSpace).reverse⟩

/-- The characters from byte `n` on; `none` when byte `n` falls inside a character. -/
def dropBytes : List Char → Nat → Option (List Char)
  | cs, 0 => some cs
  | [], _ + 1 => none
  | c :: cs, n + 1 => if c.utf8Size ≤ n + 1 then dropBytes cs (n + 1 - c.utf8Size) else none

/-- The characters of the first `n` bytes; `none` when byte `n` falls inside a character. -/
def takeBytes : List Char → Nat → Option (List Char)
  | _, 0 => some []
  | [], _ + 1 => none
  | c :: cs, n + 1 =>
    if c.utf8Size ≤ n + 1 then (takeBytes cs (n + 1 - c.utf8Size)).map (c :: ·) else none

/-- `s[i:j]`. A cut inside a character splits its bytes, and the key built from the pieces
is then not valid UTF-8: `none`. -/
def sliceBytes (s : String) (i j : Nat) : Option (List Char) :=
  (dropBytes s.data i).bind (takeBytes · (j - i))

/-! ## The two handlers -/

/-- The key `handleJoin` hands to `store.Join`: without dashes, upper-cased, and regrouped
when it has 12 bytes. `none` stands for a key that is not valid UTF-8, the code of no
session. -/
def normalizeJoinCode (upper : Char → Char) (code : String) : Option String :=
  let code := toUpper upper (stripDashes code)
  if code.utf8ByteSize = 12 then
    match sliceBytes code 0 4, sliceBytes code 4 8, sliceBytes code 8 12 with
    | some a, some b, some c => some ⟨a ++ '-' :: b ++ '-' :: c⟩
    | _, _, _ => none
  else some code

/-- `handleJoin` from the decoded body to `store.Join`. -/
def Store.handleJoin (s : Store) (upper : Char → Char) (code : String)
    (tokenRead : Except String (Fin 32 → UInt8)) (now : Nat) : Except String (Session × Store) :=
  match normalizeJoinCode upper code with
  | some code => s.join code tokenRead now
  | none => .error "session not found"

/-- The code the `/session/join` handler of `runSignalingServer` hands to `store.Join`. The
prefix `SFO` is three bytes, so `code[3:]` drops three characters. -/
def normalizeSfoCode (upper : Char → Char) (code : String) : String :=
  let code := stripDashes (toUpper upper (trimSpace code))
  let code : String := if "SFO".data.isPrefixOf code.data then ⟨code.data.drop 3⟩ else code
  if code.utf8ByteSize = 4 then "SFO-" ++ code else code

/-! ## Spellings of a code -/

/-- A way to type a character of a code: as it is, or a letter in lower case. -/
def Spells (a b : Char) : Prop := a = b ∨ a = b.toLower

instance : DecidableRel Spells := fun a b => inferInstanceAs (Decidable (a = b ∨ a = b.toLower))

/-- The characters of both kinds of code, `A` to `Z` and `0` to `9`, and their spellings:
one byte, no dash, no space, upper-cased back to the character. -/
theorem codeChars_spellings : ∀ b ∈ Signal.codeChars, ∀ a ∈ [b, b.toLower],
    a.toNat < 128 ∧ a.toUpper = b ∧ a ≠ '-' ∧ isSpace a = false ∧ a.utf8Size = 1 := by
  decide

theorem base32Char_mem_codeChars : ∀ n < 32, base32Char n ∈ Signal.codeChars := by decide

variable {upper : Char → Char}

theorem Spells.toUpperRune (upper : Char → Char) {a b : Char} (hb : b ∈ Signal.codeChars) (h : Spells a b) :
    toUpperRune upper a = b ∧ a ≠ '-' ∧ isSpace a = false ∧ a.utf8Size = 1 := by
  have := codeChars_spellings b hb a (by rcases h with rfl | rfl <;> simp)
  exact ⟨by simp [SfoConnectivity.Rendezvous.toUpperRune, this.1, this.2.1], this.2.2⟩

theorem map_toUpperRune {us bs : List Char} (h : List.Forall₂ Spells us bs)
    (hb : ∀ b ∈ bs, b ∈ Signal.codeChars) : us.map (toUpperRune upper) = bs := by
  induction h with
  | nil => rfl
  | cons hab _ ih =>
    simp only [List.map_cons, List.mem_cons, forall_eq_or_imp] at hb ⊢
    rw [(hab.toUpperRune upper hb.1).1, ih hb.2]

theorem exists_of_forall₂ {R : Char → Char → Prop} {l₁ l₂ : List Char}
    (h : List.Forall₂ R l₁ l₂) {a : Char} (ha : a ∈ l₁) : ∃ b ∈ l₂, R a b := by
  induction h with
  | nil => cases ha
  | cons hr _ ih =>
    rcases List.mem_cons.mp ha with rfl | ha
    · exact ⟨_, List.mem_cons_self _ _, hr⟩
    · obtain ⟨b, hb, h⟩ := ih ha
      exact ⟨b, List.mem_cons_of_mem _ hb, h⟩

/-! ## Lengths and slices of one-byte text -/

theorem utf8ByteSize_mk (cs : List Char) :
    (String.mk cs).utf8ByteSize = (cs.map Char.utf8Size).sum := by
  show String.utf8ByteSize.go cs = _
  induction cs with
  | nil => rfl
  | cons c cs ih =>
    rw [String.utf8ByteSize.go, ih, List.map_cons, List.sum_cons, Nat.add_comm]

theorem utf8ByteSize_of_one_byte {cs : List Char} (h : ∀ c ∈ cs, c.utf8Size = 1) :
    (String.mk cs).utf8ByteSize = cs.length := by
  rw [utf8ByteSize_mk]
  induction cs with
  | nil => rfl
  | cons c cs ih =>
    simp only [List.mem_cons, forall_eq_or_imp] at h
    simp [h.1, ih h.2, Nat.add_comm]

theorem dropBytes_of_one_byte {cs : List Char} (h : ∀ c ∈ cs, c.utf8Size = 1) {n : Nat}
    (hn : n ≤ cs.length) : dropBytes cs n = some (cs.drop n) := by
  induction cs generalizing n with
  | nil => cases n <;> simp_all [dropBytes]
  | cons c cs ih =>
    cases n with
    | zero => rfl
    | succ n =>
      simp only [List.mem_cons, forall_eq_or_imp] at h
      simp only [dropBytes, h.1, Nat.le_add_left, if_true, Nat.add_sub_cancel, List.drop_succ_cons]
      exact ih h.2 (by simpa using hn)

theorem takeBytes_of_one_byte {cs : List Char} (h : ∀ c ∈ cs, c.utf8Size = 1) {n : Nat}
    (hn : n ≤ cs.length) : takeBytes cs n = some (cs.take n) := by
  induction cs generalizing n with
  | nil => cases n <;> simp_all [takeBytes]
  | cons c cs ih =>
    cases n with
    | zero => rfl
    | succ n =>
      simp only [List.mem_cons, forall_eq_or_imp] at h
      simp only [takeBytes, h.1, Nat.le_add_left, if_true, Nat.add_sub_cancel,
        ih h.2 (by simpa using hn : n ≤ cs.length), Option.map_some', List.take_succ_cons]

theorem sliceBytes_of_one_byte {s : String} (h : ∀ c ∈ s.data, c.utf8Size = 1) {i j : Nat}
    (hj : j ≤ s.data.length) (hij : i ≤ j) :
    sliceBytes s i j = some ((s.data.drop i).take (j - i)) := by
  rw [sliceBytes, dropBytes_of_one_byte h (by omega), Option.some_bind,
    takeBytes_of_one_byte (fun c hc => h c (List.mem_of_mem_drop hc))
      (by rw [List.length_drop]; omega)]

/-! ## `handleJoin` takes back every spelling of a minted code -/

theorem length_base32Block (b : List UInt8) :
    (base32Block b).length = (8 * b.length + 4) / 5 := by
  simp [base32Block]

theorem base32Block_mem {b : List UInt8} {x : Char} (hx : x ∈ base32Block b) :
    x ∈ Signal.codeChars := by
  simp only [base32Block, List.mem_map, List.mem_range] at hx
  obtain ⟨i, -, rfl⟩ := hx
  exact base32Char_mem_codeChars _ (Nat.mod_lt _ (by decide))

/-- `generateCode` writes twelve characters of the code alphabet as three dash-separated
groups of four. -/
theorem generateCode_eq {draw : Fin 8 → UInt8} {c : String}
    (h : generateCode (.ok draw) = .ok c) :
    ∃ e : List Char, e.length = 12 ∧ (∀ x ∈ e, x ∈ Signal.codeChars) ∧
      c = ⟨e.take 4 ++ '-' :: (e.drop 4).take 4 ++ '-' :: (e.drop 8).take 4⟩ := by
  have henc : base32Encode (List.ofFn draw) =
      base32Block [draw 0, draw 1, draw 2, draw 3, draw 4] ++ base32Block [draw 5, draw 6, draw 7] := by
    simp [List.ofFn_succ, base32Encode]
  have hmem : ∀ x ∈ base32Encode (List.ofFn draw), x ∈ Signal.codeChars := by
    rw [henc]
    intro x hx
    rcases List.mem_append.mp hx with hx | hx <;> exact base32Block_mem hx
  have hlen : (base32Encode (List.ofFn draw)).length = 13 := by
    rw [henc]; simp [length_base32Block]
  refine ⟨(base32Encode (List.ofFn draw)).take 12, by rw [List.length_take, hlen]; rfl,
    fun x hx => hmem x (List.mem_of_mem_take hx), ?_⟩
  simp only [generateCode, Except.map, Except.ok.injEq] at h
  rw [← h, List.map_congr_left (fun x hx => (codeChars_spellings x
    (hmem x (List.mem_of_mem_take hx)) x (List.mem_cons_self _ _)).2.1), List.map_id']

theorem stripDashes_grouped {e : List Char} (he : e.length = 12) (hd : ∀ x ∈ e, x ≠ '-') :
    (stripDashes ⟨e.take 4 ++ '-' :: (e.drop 4).take 4 ++ '-' :: (e.drop 8).take 4⟩).data = e := by
  have hf : ∀ l : List Char, (∀ x ∈ l, x ∈ e) → l.filter (· != '-') = l := fun l hl =>
    List.filter_eq_self.mpr fun x hx => by simpa using hd x (hl x hx)
  simp only [stripDashes, List.filter_append, List.filter_cons, bne_self_eq_false,
    Bool.false_eq_true, if_false]
  rw [hf _ fun x hx => List.mem_of_mem_take hx,
    hf _ fun x hx => List.mem_of_mem_drop (List.mem_of_mem_take hx),
    hf _ fun x hx => List.mem_of_mem_drop (List.mem_of_mem_take hx), ← List.take_add]
  show List.take 8 e ++ List.take 4 (List.drop 8 e) = e
  rw [← List.take_add]
  exact List.take_of_length_le (by omega)

/-- Every way of typing a minted code that changes the case of its letters and adds or
removes dashes anywhere reaches `store.Join` as the code itself, whatever the case table. -/
theorem handleJoin_normalizes_every_spelling (upper : Char → Char) (draw : Fin 8 → UInt8)
    {c u : String} (hc : generateCode (.ok draw) = .ok c)
    (hu : List.Forall₂ Spells (stripDashes u).data (stripDashes c).data) :
    normalizeJoinCode upper u = some c ∧
      ∀ (s : Store) t now, s.handleJoin upper u t now = s.join c t now := by
  obtain ⟨e, he, hec, rfl⟩ := generateCode_eq hc
  have hfacts := fun x hx => codeChars_spellings x (hec x hx) x (List.mem_cons_self _ _)
  rw [stripDashes_grouped he fun x hx => (hfacts x hx).2.2.1] at hu
  have hup : (toUpper upper (stripDashes u)).data = e := map_toUpperRune hu hec
  have hone : ∀ x ∈ (toUpper upper (stripDashes u)).data, x.utf8Size = 1 := by
    rw [hup]; exact fun x hx => (hfacts x hx).2.2.2.2
  have hnorm : normalizeJoinCode upper u =
      some ⟨e.take 4 ++ '-' :: (e.drop 4).take 4 ++ '-' :: (e.drop 8).take 4⟩ := by
    have hsize : (toUpper upper (stripDashes u)).utf8ByteSize = 12 := by
      rw [show toUpper upper (stripDashes u) = ⟨e⟩ from String.ext hup,
        utf8ByteSize_of_one_byte (by rwa [← hup]), he]
    simp only [normalizeJoinCode, hsize, if_true]
    rw [sliceBytes_of_one_byte hone (by simp [hup, he]) (by omega),
      sliceBytes_of_one_byte hone (by simp [hup, he]) (by omega),
      sliceBytes_of_one_byte hone (by simp [hup, he]) (by omega), hup]
    rfl
  exact ⟨hnorm, fun s t now => by simp [Store.handleJoin, hnorm]⟩

theorem handleJoin_normalizes_lower_case_spelling :
    generateCode (.ok fun i => [0x12, 0x34, 0x56, 0x78, 0x9A, 0xBC, 0xDE, 0xF0].getD i.val 0) =
        .ok "CI2F-M6E2-XTPP" ∧
      List.Forall₂ Spells (stripDashes "-ci2fm-6e2xt--pp").data (stripDashes "CI2F-M6E2-XTPP").data ∧
      (normalizeJoinCode id "-ci2fm-6e2xt--pp" = some "CI2F-M6E2-XTPP" ∧
        ∀ (s : Store) t now, s.handleJoin id "-ci2fm-6e2xt--pp" t now = s.join "CI2F-M6E2-XTPP" t now) := by
  have hc : generateCode (.ok fun i => [0x12, 0x34, 0x56, 0x78, 0x9A, 0xBC, 0xDE, 0xF0].getD i.val 0) =
      .ok "CI2F-M6E2-XTPP" := rfl
  exact ⟨hc, by decide, handleJoin_normalizes_every_spelling id _ hc (by decide)⟩

/-! ## The `SFO-XXXX` handler and the codes that begin with `SFO` -/

theorem dropWhile_append_of_all {p : Char → Bool} {w l : List Char} (h : ∀ c ∈ w, p c = true) :
    (w ++ l).dropWhile p = l.dropWhile p := by
  induction w with
  | nil => rfl
  | cons c w ih =>
    simp only [List.mem_cons, forall_eq_or_imp] at h
    rw [List.cons_append, List.dropWhile_cons_of_pos h.1, ih h.2]

theorem dropWhile_of_head {p : Char → Bool} {l : List Char} (h : ∀ c ∈ l.head?, p c = false) :
    l.dropWhile p = l := by
  cases l with
  | nil => rfl
  | cons c l => exact List.dropWhile_cons_of_neg (by simpa using h c rfl)

/-- `strings.TrimSpace` removes exactly the whitespace around text that neither starts nor
ends with a space. -/
theorem trimSpace_surrounded {w₁ v w₂ : List Char} (h₁ : ∀ c ∈ w₁, isSpace c = true)
    (h₂ : ∀ c ∈ w₂, isSpace c = true) (hv : v ≠ []) (hvs : ∀ c ∈ v, isSpace c = false) :
    trimSpace ⟨w₁ ++ v ++ w₂⟩ = ⟨v⟩ := by
  obtain ⟨a, v', rfl⟩ := List.exists_cons_of_ne_nil hv
  have hfront : (w₁ ++ a :: v' ++ w₂).dropWhile isSpace = a :: v' ++ w₂ := by
    rw [List.append_assoc, dropWhile_append_of_all h₁]
    exact List.dropWhile_cons_of_neg (by simp [hvs a (List.mem_cons_self _ _)])
  have hback : (a :: v' ++ w₂).reverse.dropWhile isSpace = (a :: v').reverse := by
    rw [List.reverse_append, dropWhile_append_of_all (by simpa using h₂)]
    exact dropWhile_of_head fun c hc => hvs c (List.mem_reverse.mp (List.mem_of_mem_head? hc))
  show String.mk (((w₁ ++ a :: v' ++ w₂).dropWhile isSpace).reverse.dropWhile isSpace).reverse = _
  rw [hfront, hback, List.reverse_reverse]

/-- A character of a spelling of `p ++ X`: a dash, or a spelling of one of its characters. -/
theorem spelling_char (upper : Char → Char) {v l : List Char} (hv : List.Forall₂ Spells (stripDashes ⟨v⟩).data l)
    (hl : ∀ b ∈ l, b ∈ Signal.codeChars) {c : Char} (hc : c ∈ v) :
    isSpace c = false ∧ (toUpperRune upper c != '-') = (c != '-') := by
  by_cases hd : c = '-'
  · subst hd; exact ⟨by decide, by simp [toUpperRune]⟩
  · obtain ⟨b, hb, hs⟩ := exists_of_forall₂ hv (List.mem_filter.mpr ⟨hc, by simpa using hd⟩)
    obtain ⟨hu, hne, hsp, -⟩ := hs.toUpperRune upper (hl b hb)
    have hbne : b ≠ '-' := by
      simpa using (codeChars_spellings b (hl b hb) b (List.mem_cons_self _ _)).2.2.1
    exact ⟨hsp, by rw [hu, bne_iff_ne.mpr hbne, bne_iff_ne.mpr hne]⟩

/-- What the handler does with a spelling of `SFO-X`, `SFOX` or `X`: the code between
the whitespace, upper-cased and without dashes. -/
theorem stripDashes_toUpper_trimSpace {X p w₁ v w₂ : List Char}
    (hpX : ∀ b ∈ p ++ X, b ∈ Signal.codeChars) (hX : X.length = 4)
    (hw₁ : ∀ c ∈ w₁, isSpace c = true) (hw₂ : ∀ c ∈ w₂, isSpace c = true)
    (hv : List.Forall₂ Spells (stripDashes ⟨v⟩).data (p ++ X)) :
    stripDashes (toUpper upper (trimSpace ⟨w₁ ++ v ++ w₂⟩)) = ⟨p ++ X⟩ := by
  have hne : v ≠ [] := by
    rintro rfl
    have := hv.length_eq
    simp [stripDashes] at this
    omega
  rw [trimSpace_surrounded hw₁ hw₂ hne fun c hc => (spelling_char upper hv hpX hc).1]
  have hf : v.filter ((· != '-') ∘ toUpperRune upper) = v.filter (· != '-') :=
    List.filter_congr fun c hc => (spelling_char upper hv hpX hc).2
  apply String.ext
  simp only [stripDashes, toUpper, List.filter_map, hf]
  exact map_toUpperRune hv hpX

/-- The spellings the handler's comment promises to take (`SFO-X`, `SFOX` or `X`, in any
letter case, between any whitespace, with dashes added anywhere) reach `store.Join` as
`SFO-X`, whatever the case table, except one: `X` alone, when `X` itself begins with
`SFO`. -/
theorem normalizeSfoCode_spellings (upper : Char → Char) {X p w₁ v w₂ : List Char}
    (hX : X.length = 4) (hXc : ∀ x ∈ X, x ∈ Signal.codeChars) (hp : p = "SFO".data ∨ p = [])
    (hw₁ : ∀ c ∈ w₁, isSpace c = true) (hw₂ : ∀ c ∈ w₂, isSpace c = true)
    (hv : List.Forall₂ Spells (stripDashes ⟨v⟩).data (p ++ X)) :
    normalizeSfoCode upper ⟨w₁ ++ v ++ w₂⟩ = "SFO-" ++ ⟨X⟩ ↔
      ¬ (p = [] ∧ X.take 3 = "SFO".data) := by
  have hpX : ∀ b ∈ p ++ X, b ∈ Signal.codeChars := by
    intro b hb
    rcases List.mem_append.mp hb with hb | hb
    · rcases hp with rfl | rfl
      · exact (by decide : ∀ b ∈ "SFO".data, b ∈ Signal.codeChars) b hb
      · cases hb
    · exact hXc b hb
  have hone : ∀ l : List Char, (∀ x ∈ l, x ∈ X) → (String.mk l).utf8ByteSize = l.length :=
    fun l hl => utf8ByteSize_of_one_byte fun x hx =>
      (codeChars_spellings x (hXc x (hl x hx)) x (List.mem_cons_self _ _)).2.2.2.2
  have hsize : (String.mk X).utf8ByteSize = 4 := (hone X fun _ => id).trans hX
  simp only [normalizeSfoCode, stripDashes_toUpper_trimSpace hpX hX hw₁ hw₂ hv]
  rcases hp with rfl | rfl
  · simp [List.isPrefixOf, hsize]
  · by_cases hs : X.take 3 = "SFO".data
    · have hpre : "SFO".data.isPrefixOf X = true :=
        List.isPrefixOf_iff_prefix.mpr (List.prefix_iff_eq_take.mpr hs.symm)
      have hdrop : (String.mk (X.drop 3)).utf8ByteSize = 1 := by
        rw [hone _ fun x hx => List.mem_of_mem_drop hx]; simp [hX]
      simp only [List.nil_append, hpre, if_true, hdrop, hs, and_self, not_true_eq_false,
        iff_false, String.ext_iff, String.data_append]
      intro h
      have := congrArg List.length h
      simp [hX] at this
    · have hpre : "SFO".data.isPrefixOf X = false := by
        rw [← Bool.not_eq_true, List.isPrefixOf_iff_prefix, List.prefix_iff_eq_take]
        exact fun h => hs h.symm
      simp [hpre, hsize, hs]

/-- `SFO7` is a code of the alphabet, and typed alone it reaches `store.Join` as `7`, not as
`SFO-SFO7`. -/
theorem bare_code_beginning_with_sfo_is_lost :
    normalizeSfoCode id "SFO7" = "7" ∧
      (normalizeSfoCode id ⟨[] ++ "SFO7".data ++ []⟩ = "SFO-" ++ ⟨"SFO7".data⟩ ↔
        ¬ (([] : List Char) = [] ∧ ("SFO7".data).take 3 = "SFO".data)) :=
  ⟨by decide, normalizeSfoCode_spellings id rfl (by decide) (.inr rfl) (by decide) (by decide)
    (by decide)⟩

end SfoConnectivity.Rendezvous
