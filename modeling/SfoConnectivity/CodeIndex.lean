import Mathlib.Data.List.AList

/-! # The code index of a session store

Both stores keep `sessions` (id to record) and `byCodes` (join code to id). They write the
two maps together and delete from them together, and their janitors run the same loop.
-/

namespace SfoConnectivity

/-- A lookup after writing `b` under `a`: the value written, or one that was there. -/
theorem lookup_insert_cases {α β : Type} [DecidableEq α] {s : AList (fun _ : α => β)}
    {a x : α} {b q : β} (hq : (s.insert a b).lookup x = some q) :
    (x = a ∧ q = b) ∨ (x ≠ a ∧ s.lookup x = some q) := by
  by_cases hx : x = a
  · subst hx
    rw [AList.lookup_insert] at hq
    exact .inl ⟨rfl, (Option.some.inj hq).symm⟩
  · rw [AList.lookup_insert_ne hx] at hq
    exact .inr ⟨hx, hq⟩

theorem lookup_erase_cases {α β : Type} [DecidableEq α] {s : AList (fun _ : α => β)}
    {a x : α} {q : β} (hq : (s.erase a).lookup x = some q) : x ≠ a ∧ s.lookup x = some q := by
  by_cases hx : x = a
  · subst hx
    rw [AList.lookup_erase] at hq
    cases hq
  · rw [AList.lookup_erase_ne hx] at hq
    exact ⟨hx, hq⟩

variable {R : Type} (code : R → String)

/-- The janitor loop of both stores: for each stale entry,
`delete(byCodes, session.Code)` and `delete(sessions, id)`. The loop deletes only the entry
it is at, so it visits the entries the map had when it started. -/
def sweep (stale : R → Bool)
    (m : AList (fun _ : String => R) × AList (fun _ : String => String)) :
    AList (fun _ : String => R) × AList (fun _ : String => String) :=
  m.1.entries.foldl
    (fun acc e => if stale e.2 then (acc.1.erase e.1, acc.2.erase (code e.2)) else acc) m

/-- `byCodes[c] = id` exactly when `sessions[id]` is a record with the code `c`. -/
def CodeIndexed (sessions : AList (fun _ : String => R))
    (byCodes : AList (fun _ : String => String)) : Prop :=
  ∀ c id, byCodes.lookup c = some id ↔ ∃ r, sessions.lookup id = some r ∧ code r = c

variable {code} {S : AList (fun _ : String => R)} {B : AList (fun _ : String => String)}

theorem codeIndexed_empty : CodeIndexed code ∅ ∅ := by
  intro c id
  simp [AList.lookup_empty]

/-- A record under a new id and a new code keeps the index. -/
theorem codeIndexed_insert (h : CodeIndexed code S B) {id : String} {r : R}
    (hid : id ∉ S) (hc : code r ∉ B) :
    CodeIndexed code (S.insert id r) (B.insert (code r) id) := by
  intro c x
  by_cases hx : x = id
  · subst hx
    by_cases hcx : c = code r
    · subst hcx
      simp [AList.lookup_insert]
    · rw [AList.lookup_insert_ne hcx, h, AList.lookup_insert]
      simp only [Option.some.injEq, exists_eq_left', Ne.symm hcx, iff_false, not_exists,
        not_and]
      intro r' hr'
      exact absurd (AList.lookup_isSome.mp (by simp [hr'])) hid
  · rw [AList.lookup_insert_ne hx]
    by_cases hcx : c = code r
    · subst hcx
      rw [AList.lookup_insert]
      simp only [Option.some.injEq, Ne.symm hx, false_iff, not_exists, not_and]
      intro r' hr' hcode
      exact hc (AList.lookup_isSome.mp (by simp [(h _ _).mpr ⟨r', hr', hcode⟩]))
    · rw [AList.lookup_insert_ne hcx, h]

/-- Deleting a record and its code keeps the index. -/
theorem codeIndexed_erase (h : CodeIndexed code S B) {id : String} {r : R}
    (hr : S.lookup id = some r) : CodeIndexed code (S.erase id) (B.erase (code r)) := by
  intro c x
  by_cases hx : x = id
  · subst hx
    simp only [AList.lookup_erase, reduceCtorEq, false_and, exists_false, iff_false]
    by_cases hcx : c = code r
    · subst hcx
      simp [AList.lookup_erase]
    · rw [AList.lookup_erase_ne hcx, h]
      rintro ⟨r', hr', rfl⟩
      rw [hr] at hr'
      cases hr'
      exact hcx rfl
  · rw [AList.lookup_erase_ne hx]
    by_cases hcx : c = code r
    · subst hcx
      simp only [AList.lookup_erase, reduceCtorEq, false_iff, not_exists, not_and]
      intro r' hr' hcode
      have h1 := (h _ _).mpr ⟨r', hr', hcode⟩
      rw [(h _ _).mpr ⟨r, hr, rfl⟩] at h1
      exact hx (Option.some.inj h1).symm
    · rw [AList.lookup_erase_ne hcx, h]

/-- A write that keeps the record's code keeps the index. -/
theorem codeIndexed_update (h : CodeIndexed code S B) {id : String} {r r' : R}
    (hr : S.lookup id = some r) (hc : code r' = code r) :
    CodeIndexed code (S.insert id r') B := by
  intro c x
  rw [h]
  by_cases hx : x = id
  · subst hx
    simp [AList.lookup_insert, hr, hc]
  · simp [AList.lookup_insert_ne hx]

/-! ## The janitor loop -/

section Sweep

variable (stale : R → Bool)

theorem lookup_foldl_sweep (l : List (Σ _ : String, R))
    (acc : AList (fun _ : String => R) × AList (fun _ : String => String)) (id : String) (r : R) :
    (l.foldl (fun acc e => if stale e.2 then (acc.1.erase e.1, acc.2.erase (code e.2)) else acc)
      acc).1.lookup id = some r ↔
      acc.1.lookup id = some r ∧ ∀ e ∈ l, e.1 = id → stale e.2 = false := by
  induction l generalizing acc with
  | nil => simp
  | cons e l ih =>
    rw [List.foldl_cons, ih]
    by_cases hs : stale e.2
    · by_cases he : e.1 = id
      · subst he
        simp [hs, AList.lookup_erase]
      · simp [hs, AList.lookup_erase_ne (Ne.symm he), he]
    · simp only [hs, Bool.false_eq_true, if_false, List.mem_cons, forall_eq_or_imp]
      tauto

theorem lookup_foldl_sweep_codes (l : List (Σ _ : String, R))
    (acc : AList (fun _ : String => R) × AList (fun _ : String => String)) (c x : String) :
    (l.foldl (fun acc e => if stale e.2 then (acc.1.erase e.1, acc.2.erase (code e.2)) else acc)
      acc).2.lookup c = some x ↔
      acc.2.lookup c = some x ∧ ∀ e ∈ l, code e.2 = c → stale e.2 = false := by
  induction l generalizing acc with
  | nil => simp
  | cons e l ih =>
    rw [List.foldl_cons, ih]
    by_cases hs : stale e.2
    · by_cases he : code e.2 = c
      · subst he
        simp [hs, AList.lookup_erase]
      · simp [hs, AList.lookup_erase_ne (Ne.symm he), he]
    · simp only [hs, Bool.false_eq_true, if_false, List.mem_cons, forall_eq_or_imp]
      tauto

variable (m : AList (fun _ : String => R) × AList (fun _ : String => String))

/-- After the janitor a record stays exactly when it is not stale. -/
theorem sweep_lookup (id : String) (r : R) :
    (sweep code stale m).1.lookup id = some r ↔ m.1.lookup id = some r ∧ stale r = false := by
  rw [sweep, lookup_foldl_sweep]
  constructor
  · rintro ⟨hr, hall⟩
    exact ⟨hr, hall ⟨id, r⟩ (AList.mem_lookup_iff.mp hr) rfl⟩
  · rintro ⟨hr, hs⟩
    refine ⟨hr, fun e he hid => ?_⟩
    obtain ⟨k, v⟩ := e
    subst hid
    have : v = r := Option.some.inj ((AList.mem_lookup_iff.mpr he).symm.trans hr)
    rwa [this]

/-- After the janitor a code stays unless some stale record has it. -/
theorem sweep_lookup_codes (c x : String) :
    (sweep code stale m).2.lookup c = some x ↔
      m.2.lookup c = some x ∧ ∀ id r, m.1.lookup id = some r → code r = c → stale r = false := by
  rw [sweep, lookup_foldl_sweep_codes]
  refine and_congr_right fun _ => ⟨fun h id r hr => h ⟨id, r⟩ (AList.mem_lookup_iff.mp hr),
    fun h e he => h e.1 e.2 (AList.mem_lookup_iff.mpr he)⟩

theorem codeIndexed_sweep (h : CodeIndexed code m.1 m.2) :
    CodeIndexed code (sweep code stale m).1 (sweep code stale m).2 := by
  intro c x
  rw [sweep_lookup_codes, h]
  simp only [sweep_lookup]
  constructor
  · rintro ⟨⟨r, hr, hc⟩, hall⟩
    exact ⟨r, ⟨hr, hall x r hr hc⟩, hc⟩
  · rintro ⟨r, ⟨hr, hs⟩, hc⟩
    refine ⟨⟨r, hr, hc⟩, fun id r' hr' hc' => ?_⟩
    -- both ids are the one `byCodes[c]` holds, so `r'` is `r`
    have hid := ((h c id).mpr ⟨r', hr', hc'⟩).symm.trans ((h c x).mpr ⟨r, hr, hc⟩)
    obtain rfl : id = x := Option.some.inj hid
    obtain rfl : r' = r := Option.some.inj (hr'.symm.trans hr)
    exact hs

end Sweep

end SfoConnectivity
