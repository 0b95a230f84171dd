import Mathlib.Algebra.Order.Field.Rat
import Mathlib.Data.List.AList
import Mathlib.Data.List.Sort
import Mathlib.Tactic.Linarith
import Mathlib.Tactic.Positivity
import Mathlib.Tactic.Ring

/-! # The bridge's rate limiter (`internal/client/bridge/bridge.go`)

`Limiter` keeps one `rate.Limiter` an identity, made on its first call, and a janitor that
drops those not seen for `cleanup`. The `rate.Limiter` is an exact token bucket: tokens are
rationals, instants are nanoseconds, and a refused call leaves the bucket as it was.
-/

namespace SfoConnectivity.Bridge

/-! ## `rate.Limiter` -/

/-- `rate.Limiter`: `limit` tokens a second, at most `burst`; `tokens` as of `last`. -/
structure RateLimiter where
  limit : ℚ
  burst : Nat
  tokens : ℚ
  last : Nat
  deriving DecidableEq

/-- `rate.NewLimiter`. Its `last` is Go's zero time, so the first `advance` fills the bucket. -/
def newRateLimiter (limit : ℚ) (burst : Nat) : RateLimiter := ⟨limit, burst, burst, 0⟩

/-- `Limit.tokensFromDuration`: the tokens `limit` adds in `d` nanoseconds. -/
def tokensFromDuration (limit : ℚ) (d : Nat) : ℚ := d / 10 ^ 9 * limit

/-- `advance`: the tokens at `now`, refilled since `last` and capped at `burst`. -/
def RateLimiter.advance (lim : RateLimiter) (now : Nat) : ℚ :=
  min (lim.burst : ℚ) (lim.tokens + tokensFromDuration lim.limit (now - lim.last))

/-- `Allow`: take a token if there is a whole one. -/
def RateLimiter.allow (lim : RateLimiter) (now : Nat) : Bool × RateLimiter :=
  if 1 ≤ lim.advance now then (true, { lim with tokens := lim.advance now - 1, last := now })
  else (false, lim)

/-! ## `Limiter` -/

structure ClientLimiter where
  limiter : RateLimiter
  lastSeen : Nat

structure Limiter where
  limiters : AList (fun _ : String => ClientLimiter)
  rate : ℚ
  burst : Nat
  cleanup : Nat

def newLimiter (r : ℚ) (burst : Nat) : Limiter := ⟨∅, r, burst, 3 * 60 * 10 ^ 9⟩

def Limiter.allow (l : Limiter) (ip : String) (now : Nat) : Bool × Limiter :=
  let client := (l.limiters.lookup ip).getD ⟨newRateLimiter l.rate l.burst, now⟩
  let r := client.limiter.allow now
  (r.1, { l with limiters := l.limiters.insert ip ⟨r.2, now⟩ })

@[simp] theorem Limiter.allow_rate (l : Limiter) (ip : String) (now : Nat) :
    (l.allow ip now).2.rate = l.rate := rfl

@[simp] theorem Limiter.allow_burst (l : Limiter) (ip : String) (now : Nat) :
    (l.allow ip now).2.burst = l.burst := rfl

def Limiter.doCleanup (l : Limiter) (now : Nat) : Limiter :=
  { l with
    limiters := l.limiters.entries.foldl
      (fun acc e => if e.2.lastSeen < now - l.cleanup then acc.erase e.1 else acc) l.limiters }

structure MultiLimiter where
  create : Limiter
  join : Limiter

def newMultiLimiter : MultiLimiter := ⟨newLimiter (10 / 60) 3, newLimiter (30 / 60) 10⟩

/-- A call on a limiter: `Allow(ip)`, or one tick of `cleanupLoop`. -/
inductive Call where
  | allow (ip : String)
  | doCleanup

def Call.isAllow : Call → Bool
  | .allow _ => true
  | .doCleanup => false

/-- The calls in order, each at its instant; the answers of the `Allow`s. -/
def Limiter.run : Limiter → List (Nat × Call) → List (Nat × String × Bool) × Limiter
  | l, [] => ([], l)
  | l, (now, .allow ip) :: calls =>
    let r := l.allow ip now
    let rest := r.2.run calls
    ((now, ip, r.1) :: rest.1, rest.2)
  | l, (now, .doCleanup) :: calls => (l.doCleanup now).run calls

/-- The `Allow`s of `ip` that succeeded at an instant of the window `[t₀, t₀ + w]`. -/
def successesIn (ip : String) (t₀ w : Nat) (answers : List (Nat × String × Bool)) : Nat :=
  (answers.filter fun a => a.2.1 = ip ∧ a.2.2 ∧ t₀ ≤ a.1 ∧ a.1 ≤ t₀ + w).length

/-! ## Refill -/

theorem tokensFromDuration_add (limit : ℚ) (a b : Nat) :
    tokensFromDuration limit (a + b) = tokensFromDuration limit a + tokensFromDuration limit b := by
  simp only [tokensFromDuration, Nat.cast_add]
  ring

theorem tokensFromDuration_zero (limit : ℚ) : tokensFromDuration limit 0 = 0 := by
  simp [tokensFromDuration]

theorem tokensFromDuration_nonneg {limit : ℚ} (hr : 0 ≤ limit) (d : Nat) :
    0 ≤ tokensFromDuration limit d := by
  exact mul_nonneg (div_nonneg (Nat.cast_nonneg d) (by positivity)) hr

theorem tokensFromDuration_mono {limit : ℚ} (hr : 0 ≤ limit) {a b : Nat} (h : a ≤ b) :
    tokensFromDuration limit a ≤ tokensFromDuration limit b := by
  obtain ⟨d, rfl⟩ := Nat.exists_eq_add_of_le h
  rw [tokensFromDuration_add]
  linarith [tokensFromDuration_nonneg hr d]

/-- A cap grows no faster than what is under it. -/
theorem min_add_le (b y d : ℚ) (hd : 0 ≤ d) : min b (y + d) ≤ min b y + d := by
  rcases le_total b y with h | h
  · rw [min_eq_left h]
    exact (min_le_left _ _).trans (by linarith)
  · rw [min_eq_right h]
    exact min_le_right _ _

theorem RateLimiter.allow_fst (lim : RateLimiter) (now : Nat) :
    (lim.allow now).1 = decide (1 ≤ lim.advance now) := by
  unfold RateLimiter.allow
  split_ifs with h <;> simp [h]

/-- After `Allow` at `t`, the bucket at `t'` is a function of the bucket at `t`. -/
theorem RateLimiter.advance_allow (lim : RateLimiter) (t t' : Nat) :
    (lim.allow t).2.advance t' = if 1 ≤ lim.advance t then
      min (lim.burst : ℚ) (lim.advance t - 1 + tokensFromDuration lim.limit (t' - t))
    else lim.advance t' := by
  unfold RateLimiter.allow
  split_ifs <;> rfl

theorem advance_newRateLimiter {limit : ℚ} (hr : 0 ≤ limit) (burst t : Nat) :
    (newRateLimiter limit burst).advance t = burst := by
  simp only [RateLimiter.advance, newRateLimiter]
  exact min_eq_left (le_add_of_nonneg_right (tokensFromDuration_nonneg hr _))

/-! ## The bucket a call finds -/

/-- The tokens `ip` finds at `t`: its bucket's, or those of a new full one. -/
def Limiter.level (l : Limiter) (ip : String) (t : Nat) : ℚ :=
  match l.limiters.lookup ip with
  | some c => c.limiter.advance t
  | none => l.burst

/-- A bucket as `Limiter` keeps it, as of `now`. -/
structure ClientLimiter.Fits (c : ClientLimiter) (rate : ℚ) (burst now : Nat) : Prop where
  limit_eq : c.limiter.limit = rate
  burst_eq : c.limiter.burst = burst
  tokens_nonneg : 0 ≤ c.limiter.tokens
  last_le : c.limiter.last ≤ c.lastSeen
  seen_le : c.lastSeen ≤ now

def Limiter.Wf (l : Limiter) (now : Nat) : Prop :=
  ∀ ip c, l.limiters.lookup ip = some c → c.Fits l.rate l.burst now

section Level

variable {l : Limiter} {ip ip' : String} {now t t' : Nat}

theorem ClientLimiter.Fits.mono {c : ClientLimiter} {rate : ℚ} {burst : Nat}
    (h : c.Fits rate burst now) (ht : now ≤ t) : c.Fits rate burst t :=
  ⟨h.limit_eq, h.burst_eq, h.tokens_nonneg, h.last_le, h.seen_le.trans ht⟩

theorem Limiter.Wf.mono (hw : l.Wf now) (ht : now ≤ t) : l.Wf t :=
  fun ip c hc => (hw ip c hc).mono ht

theorem wf_newLimiter (r : ℚ) (burst now : Nat) : (newLimiter r burst).Wf now :=
  fun ip c hc => by simp [newLimiter] at hc

theorem level_le_burst (hw : l.Wf now) (ip : String) (t : Nat) : l.level ip t ≤ l.burst := by
  unfold Limiter.level
  split
  · rename_i c hc
    rw [← (hw ip c hc).burst_eq]
    exact min_le_left _ _
  · exact le_rfl

/-- Between calls a bucket gains at most what the rate adds. -/
theorem level_le_add (ip : String) (hr : 0 ≤ l.rate) (hw : l.Wf now) (ht : now ≤ t) :
    l.level ip t ≤ l.level ip now + tokensFromDuration l.rate (t - now) := by
  unfold Limiter.level
  split
  · rename_i c hc
    have hf := hw ip c hc
    have hsplit : t - c.limiter.last = (now - c.limiter.last) + (t - now) := by
      have := hf.last_le.trans hf.seen_le
      omega
    simp only [RateLimiter.advance, hsplit, tokensFromDuration_add, ← add_assoc, hf.limit_eq]
    exact min_add_le _ _ _ (tokensFromDuration_nonneg hr _)
  · exact le_add_of_nonneg_right (tokensFromDuration_nonneg hr _)

/-- The bucket `Allow` works on: the one kept for `ip`, or a new one. -/
def Limiter.client (l : Limiter) (ip : String) (now : Nat) : ClientLimiter :=
  (l.limiters.lookup ip).getD ⟨newRateLimiter l.rate l.burst, now⟩

theorem level_eq_client (hr : 0 ≤ l.rate) (t : Nat) :
    l.level ip t' = (l.client ip t).limiter.advance t' := by
  unfold Limiter.level Limiter.client
  split <;> simp_all [advance_newRateLimiter hr]

theorem client_fits (ip : String) (hw : l.Wf now) (ht : now ≤ t) :
    (l.client ip t).limiter.limit = l.rate ∧ (l.client ip t).limiter.burst = l.burst ∧
      0 ≤ (l.client ip t).limiter.tokens ∧ (l.client ip t).limiter.last ≤ t := by
  unfold Limiter.client
  cases hc : l.limiters.lookup ip with
  | none => exact ⟨rfl, rfl, Nat.cast_nonneg _, Nat.zero_le _⟩
  | some c =>
    have hf := (hw ip c hc).mono ht
    exact ⟨hf.limit_eq, hf.burst_eq, hf.tokens_nonneg, hf.last_le.trans hf.seen_le⟩

theorem allow_snd : (l.allow ip t).2 =
    { l with limiters := l.limiters.insert ip ⟨((l.client ip t).limiter.allow t).2, t⟩ } := rfl

theorem allow_fst (hr : 0 ≤ l.rate) : (l.allow ip t).1 = decide (1 ≤ l.level ip t) := by
  rw [level_eq_client hr t]
  exact RateLimiter.allow_fst _ _

theorem level_insert (c : ClientLimiter) :
    ({ l with limiters := l.limiters.insert ip c } : Limiter).level ip' t' =
      if ip' = ip then c.limiter.advance t' else l.level ip' t' := by
  split_ifs with hip
  · subst hip
    simp only [Limiter.level, AList.lookup_insert]
  · simp only [Limiter.level, AList.lookup_insert_ne hip]

/-- After `Allow(ip)` at `t`, the bucket of `ip` is a function of the one it found. -/
theorem level_allow (hr : 0 ≤ l.rate) (hw : l.Wf now) (ht : now ≤ t) :
    (l.allow ip t).2.level ip' t' = if ip' = ip then
      (if 1 ≤ l.level ip t then
        min (l.burst : ℚ) (l.level ip t - 1 + tokensFromDuration l.rate (t' - t))
      else l.level ip t')
    else l.level ip' t' := by
  obtain ⟨hlim, hburst, -⟩ := client_fits ip hw ht
  rw [allow_snd, level_insert, RateLimiter.advance_allow, hlim, hburst,
    ← level_eq_client hr, ← level_eq_client hr]

theorem wf_allow (hw : l.Wf now) (ht : now ≤ t) : (l.allow ip t).2.Wf t := by
  obtain ⟨hlim, hburst, htok, hlast⟩ := client_fits ip hw ht
  intro ip' c hc
  rw [allow_snd] at hc
  by_cases hip : ip' = ip
  · subst hip
    rw [AList.lookup_insert] at hc
    cases hc
    unfold RateLimiter.allow
    split_ifs with h
    · exact ⟨hlim, hburst, by simp only; linarith, le_rfl, le_rfl⟩
    · exact ⟨hlim, hburst, htok, hlast, le_rfl⟩
  · rw [AList.lookup_insert_ne hip] at hc
    exact (hw ip' c hc).mono ht

end Level

/-! ## The janitor -/

section Janitor

variable {l : Limiter} {ip : String} {now t : Nat}

theorem lookup_foldl_erase {β : Type} (stale : β → Prop) [DecidablePred stale]
    (L : List (Σ _ : String, β)) (acc : AList (fun _ : String => β)) (k : String) (v : β) :
    (L.foldl (fun acc e => if stale e.2 then acc.erase e.1 else acc) acc).lookup k = some v ↔
      acc.lookup k = some v ∧ ∀ e ∈ L, e.1 = k → ¬ stale e.2 := by
  induction L generalizing acc with
  | nil => simp
  | cons e L ih =>
    rw [List.foldl_cons, ih]
    by_cases hs : stale e.2
    · by_cases he : e.1 = k
      · subst he
        simp [hs, AList.lookup_erase]
      · simp [hs, AList.lookup_erase_ne (Ne.symm he), he]
    · simp only [hs, if_false, List.mem_cons, forall_eq_or_imp, not_false_eq_true, imp_true_iff,
        true_and]

/-- After `doCleanup` a bucket stays exactly when it was seen within `cleanup`. -/
theorem doCleanup_lookup (c : ClientLimiter) :
    (l.doCleanup now).limiters.lookup ip = some c ↔
      l.limiters.lookup ip = some c ∧ ¬ c.lastSeen < now - l.cleanup := by
  rw [Limiter.doCleanup, lookup_foldl_erase (fun c : ClientLimiter => c.lastSeen < now - l.cleanup)]
  refine and_congr_right fun hc => ⟨fun h => h ⟨ip, c⟩ (AList.mem_lookup_iff.mp hc) rfl,
    fun h e he hk => ?_⟩
  obtain ⟨k, v⟩ := e
  subst hk
  rwa [Option.some.inj ((AList.mem_lookup_iff.mpr he).symm.trans hc)]

theorem wf_doCleanup (hw : l.Wf now) : (l.doCleanup t).Wf now :=
  fun ip c hc => hw ip c ((doCleanup_lookup c).mp hc).1

/-- A bucket the janitor drops is full again, so the new one `Allow` makes in its place is
the same. -/
theorem level_doCleanup (hr : 0 ≤ l.rate)
    (hb : (l.burst : ℚ) ≤ tokensFromDuration l.rate l.cleanup) (hw : l.Wf now) {t' : Nat}
    (ht : now ≤ t') : (l.doCleanup now).level ip t' = l.level ip t' := by
  unfold Limiter.level
  cases hc : l.limiters.lookup ip with
  | none =>
    have : (l.doCleanup now).limiters.lookup ip = none :=
      Option.eq_none_iff_forall_not_mem.mpr fun c h => by
        rw [(doCleanup_lookup c).mp h |>.1] at hc
        cases hc
    rw [this]
    rfl
  | some c =>
    by_cases hs : c.lastSeen < now - l.cleanup
    · have : (l.doCleanup now).limiters.lookup ip = none :=
        Option.eq_none_iff_forall_not_mem.mpr fun c' h => by
          obtain ⟨hc', hs'⟩ := (doCleanup_lookup c').mp h
          rw [hc] at hc'
          cases hc'
          exact hs' hs
      have hf := hw ip c hc
      have hgap : l.cleanup ≤ t' - c.limiter.last := by
        have := hf.last_le
        omega
      rw [this]
      simp only [RateLimiter.advance, hf.burst_eq, hf.limit_eq]
      refine (min_eq_left ?_).symm
      calc (l.burst : ℚ) ≤ tokensFromDuration l.rate l.cleanup := hb
        _ ≤ tokensFromDuration l.rate (t' - c.limiter.last) := tokensFromDuration_mono hr hgap
        _ ≤ _ := le_add_of_nonneg_left hf.tokens_nonneg
    · rw [(doCleanup_lookup c).mpr ⟨hc, hs⟩]

end Janitor

/-! ## The janitor cannot be seen -/

/-- Two limiters that answer every `Allow` from `now` on alike. -/
structure Agree (a b : Limiter) (now : Nat) : Prop where
  rate_eq : a.rate = b.rate
  burst_eq : a.burst = b.burst
  wf_left : a.Wf now
  wf_right : b.Wf now
  level_eq : ∀ ip t, now ≤ t → a.level ip t = b.level ip t

section Agree

variable {a b : Limiter} {now t : Nat}

theorem Agree.allow (hr : 0 ≤ a.rate) (h : Agree a b now) (ht : now ≤ t) (ip : String) :
    Agree (a.allow ip t).2 (b.allow ip t).2 t := by
  have hr' : 0 ≤ b.rate := h.rate_eq ▸ hr
  refine ⟨h.rate_eq, h.burst_eq, wf_allow h.wf_left ht, wf_allow h.wf_right ht,
    fun ip' t' ht' => ?_⟩
  rw [level_allow hr h.wf_left ht, level_allow hr' h.wf_right ht, h.rate_eq, h.burst_eq,
    h.level_eq ip t ht, h.level_eq ip t' (ht.trans ht'), h.level_eq ip' t' (ht.trans ht')]

theorem Agree.doCleanup (hr : 0 ≤ a.rate)
    (hb : (a.burst : ℚ) ≤ tokensFromDuration a.rate a.cleanup) (h : Agree a b now)
    (ht : now ≤ t) : Agree (a.doCleanup t) b t :=
  ⟨h.rate_eq, h.burst_eq, wf_doCleanup (h.wf_left.mono ht), h.wf_right.mono ht,
    fun ip t' ht' => (level_doCleanup hr hb (h.wf_left.mono ht) ht').trans
      (h.level_eq ip t' (ht.trans ht'))⟩

theorem run_agree (hr : 0 ≤ a.rate) (hb : (a.burst : ℚ) ≤ tokensFromDuration a.rate a.cleanup)
    (h : Agree a b now) (calls : List (Nat × Call))
    (hsorted : (now :: calls.map Prod.fst).Sorted (· ≤ ·)) :
    (a.run calls).1 = (b.run (calls.filter fun c => c.2.isAllow)).1 := by
  induction calls generalizing a b now with
  | nil => rfl
  | cons c calls ih =>
    obtain ⟨t, call⟩ := c
    have ht : now ≤ t := List.rel_of_sorted_cons hsorted t (List.mem_cons_self _ _)
    have hsorted' := hsorted.of_cons
    cases call with
    | allow ip =>
      simp only [Limiter.run, List.filter_cons, Call.isAllow, if_true, List.cons.injEq, true_and,
        Prod.mk.injEq]
      refine ⟨?_, ih hr hb (h.allow hr ht ip) hsorted'⟩
      rw [allow_fst hr, allow_fst (h.rate_eq ▸ hr), h.level_eq ip t ht]
    | doCleanup =>
      simp only [Limiter.run, List.filter_cons, Call.isAllow, Bool.false_eq_true, if_false]
      exact ih hr hb (h.doCleanup hr hb ht) hsorted'

end Agree

/-! ## Successes in a window -/

theorem successesIn_cons (ip : String) (t₀ w : Nat) (a : Nat × String × Bool)
    (as : List (Nat × String × Bool)) :
    successesIn ip t₀ w (a :: as) =
      (if a.2.1 = ip ∧ a.2.2 = true ∧ t₀ ≤ a.1 ∧ a.1 ≤ t₀ + w then 1 else 0) +
        successesIn ip t₀ w as := by
  unfold successesIn
  rw [List.filter_cons]
  split_ifs with h₁ h₂ h₂ <;> simp_all [Nat.add_comm]

/-- `M` successes of `ip` in the window `[t₀, t₀ + w]` so far, as of `now`: the bucket and
the count together have gained no more than the rate gives since `t₀`. -/
structure WindowInv (l : Limiter) (ip : String) (t₀ w now M : Nat) : Prop where
  bound : (M : ℚ) ≤ tokensFromDuration l.rate w + l.burst
  pot : t₀ ≤ now → M + l.level ip now ≤ tokensFromDuration l.rate (now - t₀) + l.burst
  pre : now < t₀ → M = 0

section Window

variable {l : Limiter} {ip : String} {t₀ w now t M : Nat}

theorem WindowInv.pot_at (hr : 0 ≤ l.rate) (hw : l.Wf now) (h : WindowInv l ip t₀ w now M)
    (ht : now ≤ t) (h₀ : t₀ ≤ t) :
    M + l.level ip t ≤ tokensFromDuration l.rate (t - t₀) + l.burst := by
  by_cases hn : t₀ ≤ now
  · have hsplit : t - t₀ = (now - t₀) + (t - now) := by omega
    rw [hsplit, tokensFromDuration_add]
    linarith [h.pot hn, level_le_add ip hr hw ht]
  · rw [h.pre (by omega), Nat.cast_zero, zero_add]
    linarith [level_le_burst hw ip t, tokensFromDuration_nonneg hr (t - t₀)]

theorem level_allow_le (hr : 0 ≤ l.rate) (hw : l.Wf now) (ht : now ≤ t) (ip' : String) :
    (l.allow ip' t).2.level ip t ≤ l.level ip t := by
  rw [level_allow hr hw ht, Nat.sub_self, tokensFromDuration_zero, add_zero]
  split_ifs with hip hok
  · subst hip
    exact (min_le_right _ _).trans (sub_le_self _ zero_le_one)
  · subst hip
    exact le_rfl
  · exact le_rfl

theorem level_allow_self (hr : 0 ≤ l.rate) (hw : l.Wf now) (ht : now ≤ t)
    (hok : 1 ≤ l.level ip t) : (l.allow ip t).2.level ip t = l.level ip t - 1 := by
  rw [level_allow hr hw ht, if_pos rfl, if_pos hok, Nat.sub_self, tokensFromDuration_zero,
    add_zero]
  exact min_eq_right (by linarith [level_le_burst hw ip t])

theorem WindowInv.allow (hr : 0 ≤ l.rate) (hw : l.Wf now) (ht : now ≤ t)
    (h : WindowInv l ip t₀ w now M) (ip' : String) :
    WindowInv (l.allow ip' t).2 ip t₀ w t
      (M + if ip' = ip ∧ (l.allow ip' t).1 = true ∧ t₀ ≤ t ∧ t ≤ t₀ + w then 1 else 0) := by
  simp only [allow_fst hr, decide_eq_true_eq]
  split_ifs with hhit
  · obtain ⟨rfl, hok, h₀, h₁⟩ := hhit
    have hpot := h.pot_at hr hw ht h₀
    have hw' : tokensFromDuration l.rate (t - t₀) ≤ tokensFromDuration l.rate w :=
      tokensFromDuration_mono hr (by omega)
    refine ⟨?_, fun _ => ?_, fun hlt => absurd h₀ (by omega)⟩
    · push_cast
      exact (show (M : ℚ) + 1 ≤ tokensFromDuration l.rate w + l.burst by linarith)
    · rw [level_allow_self hr hw ht hok, Limiter.allow_rate, Limiter.allow_burst]
      push_cast
      linarith
  · rw [add_zero]
    refine ⟨h.bound, fun h₀ => ?_, fun hlt => h.pre (by omega)⟩
    exact (add_le_add_left (level_allow_le hr hw ht ip') _).trans (h.pot_at hr hw ht h₀)

theorem WindowInv.doCleanup (hr : 0 ≤ l.rate)
    (hb : (l.burst : ℚ) ≤ tokensFromDuration l.rate l.cleanup) (hw : l.Wf now) (ht : now ≤ t)
    (h : WindowInv l ip t₀ w now M) : WindowInv (l.doCleanup t) ip t₀ w t M :=
  ⟨h.bound, fun h₀ => by
    rw [level_doCleanup hr hb (hw.mono ht) le_rfl]
    exact h.pot_at hr hw ht h₀, fun hlt => h.pre (by omega)⟩

theorem run_window (hr : 0 ≤ l.rate) (hb : (l.burst : ℚ) ≤ tokensFromDuration l.rate l.cleanup)
    (hw : l.Wf now) (calls : List (Nat × Call))
    (hsorted : (now :: calls.map Prod.fst).Sorted (· ≤ ·)) (h : WindowInv l ip t₀ w now M) :
    ((M + successesIn ip t₀ w (l.run calls).1 : Nat) : ℚ) ≤
      tokensFromDuration l.rate w + l.burst := by
  induction calls generalizing l now M with
  | nil => simpa [Limiter.run, successesIn] using h.bound
  | cons c calls ih =>
    obtain ⟨t, call⟩ := c
    have ht : now ≤ t := List.rel_of_sorted_cons hsorted t (List.mem_cons_self _ _)
    have hsorted' := hsorted.of_cons
    cases call with
    | allow ip' =>
      simp only [Limiter.run, successesIn_cons, ← Nat.add_assoc]
      exact ih hr hb (wf_allow hw ht) hsorted' (h.allow hr hw ht ip')
    | doCleanup =>
      exact ih hr hb (wf_doCleanup (hw.mono ht)) hsorted' (h.doCleanup hr hb hw ht)

end Window

/-! ## Each address has its own bucket -/

/-- The call is `Allow(ip)`. -/
def Call.isAllowOf (ip : String) : Call → Bool
  | .allow ip' => ip' == ip
  | .doCleanup => false

theorem run_append (l : Limiter) (c₁ c₂ : List (Nat × Call)) :
    l.run (c₁ ++ c₂) = ((l.run c₁).1 ++ ((l.run c₁).2.run c₂).1, ((l.run c₁).2.run c₂).2) := by
  induction c₁ generalizing l with
  | nil => rfl
  | cons c c₁ ih =>
    obtain ⟨t, _ | _⟩ := c <;> rw [List.cons_append] <;> simp only [Limiter.run, ih, List.cons_append]

/-- A run answers the `Allow`s of `ip` in order, each at its instant. -/
theorem run_filter_map (l : Limiter) (ip : String) (calls : List (Nat × Call)) :
    (((l.run calls).1.filter fun a => a.2.1 == ip).map fun a => (a.1, Call.allow ip)) =
      calls.filter fun c => c.2.isAllowOf ip := by
  induction calls generalizing l with
  | nil => rfl
  | cons c calls ih =>
    obtain ⟨t, ip' | _⟩ := c
    · by_cases h : ip' = ip
      · subst h
        simp [Limiter.run, Call.isAllowOf, ih]
      · simp [Limiter.run, Call.isAllowOf, h, ih]
    · exact ih _

/-- Two limiters that answer `Allow(ip)` alike from `now` on. -/
structure AgreeOn (a b : Limiter) (ip : String) (now : Nat) : Prop where
  rate_eq : a.rate = b.rate
  burst_eq : a.burst = b.burst
  wf_left : a.Wf now
  wf_right : b.Wf now
  level_eq : ∀ t, now ≤ t → a.level ip t = b.level ip t

section AgreeOn

variable {a b : Limiter} {ip : String} {now t : Nat}

theorem AgreeOn.allow_self (hr : 0 ≤ a.rate) (h : AgreeOn a b ip now) (ht : now ≤ t) :
    AgreeOn (a.allow ip t).2 (b.allow ip t).2 ip t := by
  have hr' : 0 ≤ b.rate := h.rate_eq ▸ hr
  refine ⟨h.rate_eq, h.burst_eq, wf_allow h.wf_left ht, wf_allow h.wf_right ht, fun t' ht' => ?_⟩
  rw [level_allow hr h.wf_left ht, level_allow hr' h.wf_right ht, h.rate_eq, h.burst_eq,
    h.level_eq t ht, h.level_eq t' (ht.trans ht')]

/-- `Allow` of another address leaves the bucket of `ip` as it was. -/
theorem AgreeOn.allow_other (hr : 0 ≤ a.rate) (h : AgreeOn a b ip now) (ht : now ≤ t)
    {ip' : String} (hip : ip' ≠ ip) : AgreeOn (a.allow ip' t).2 b ip t :=
  ⟨h.rate_eq, h.burst_eq, wf_allow h.wf_left ht, h.wf_right.mono ht, fun t' ht' => by
    rw [level_allow hr h.wf_left ht, if_neg (Ne.symm hip)]
    exact h.level_eq t' (ht.trans ht')⟩

theorem AgreeOn.doCleanup (hr : 0 ≤ a.rate)
    (hb : (a.burst : ℚ) ≤ tokensFromDuration a.rate a.cleanup) (h : AgreeOn a b ip now)
    (ht : now ≤ t) : AgreeOn (a.doCleanup t) b ip t :=
  ⟨h.rate_eq, h.burst_eq, wf_doCleanup (h.wf_left.mono ht), h.wf_right.mono ht,
    fun t' ht' => (level_doCleanup hr hb (h.wf_left.mono ht) ht').trans
      (h.level_eq t' (ht.trans ht'))⟩

/-- What `ip` is answered in a run is what a limiter that sees only its `Allow`s answers: the
calls of other addresses and the janitor change none of it. -/
theorem run_agreeOn (hr : 0 ≤ a.rate) (hb : (a.burst : ℚ) ≤ tokensFromDuration a.rate a.cleanup)
    (h : AgreeOn a b ip now) (calls : List (Nat × Call))
    (hsorted : (now :: calls.map Prod.fst).Sorted (· ≤ ·)) :
    ((a.run calls).1.filter fun x => x.2.1 == ip) =
      (b.run (calls.filter fun c => c.2.isAllowOf ip)).1 := by
  induction calls generalizing a b now with
  | nil => rfl
  | cons c calls ih =>
    obtain ⟨t, call⟩ := c
    have ht : now ≤ t := List.rel_of_sorted_cons hsorted t (List.mem_cons_self _ _)
    have hsorted' := hsorted.of_cons
    cases call with
    | allow ip' =>
      by_cases hip : ip' = ip
      · subst hip
        simp only [Limiter.run, List.filter_cons, Call.isAllowOf, beq_self_eq_true, if_true,
          List.cons.injEq, Prod.mk.injEq, true_and]
        refine ⟨?_, ih hr hb (h.allow_self hr ht) hsorted'⟩
        rw [allow_fst hr, allow_fst (h.rate_eq ▸ hr), h.level_eq t ht]
      · simp only [Limiter.run, List.filter_cons, Call.isAllowOf, beq_iff_eq, hip, if_false]
        exact ih hr hb (h.allow_other hr ht hip) hsorted'
    | doCleanup =>
      simp only [Limiter.run, List.filter_cons, Call.isAllowOf, Bool.false_eq_true, if_false]
      exact ih hr hb (h.doCleanup hr hb ht) hsorted'

end AgreeOn

/-! ## The first calls of an address -/

section First

variable {l : Limiter} {ip : String} {now : Nat}

theorem level_mono (hr : 0 ≤ l.rate) (hw : l.Wf now) (ip : String) {t t' : Nat} (ht : t ≤ t') :
    l.level ip t ≤ l.level ip t' := by
  unfold Limiter.level
  split
  · rename_i c hc
    have hf := hw ip c hc
    simp only [RateLimiter.advance, hf.limit_eq]
    exact min_le_min_left _ (add_le_add_left (tokensFromDuration_mono hr (by omega)) _)
  · exact le_rfl

theorem mem_filter_isAllowOf {c : Nat × Call} {calls : List (Nat × Call)}
    (hc : c ∈ calls.filter fun c => c.2.isAllowOf ip) : c.2 = .allow ip := by
  obtain ⟨-, h⟩ := List.mem_filter.mp hc
  obtain ⟨t, _ | _⟩ := c
  · simp only [Call.isAllowOf, beq_iff_eq] at h
    rw [h]
  · cases h

/-- With `m` whole tokens in the bucket of `ip`, the first `m` of its calls pass. -/
theorem run_take_all (hr : 0 ≤ l.rate) (hw : l.Wf now) {m : Nat} (hm : (m : ℚ) ≤ l.level ip now)
    (calls : List (Nat × Call)) (hcalls : ∀ c ∈ calls, c.2 = .allow ip)
    (hsorted : (now :: calls.map Prod.fst).Sorted (· ≤ ·)) :
    (((l.run calls).1.take m).all fun a => a.2.2) = true := by
  induction calls generalizing l now m with
  | nil => simp [Limiter.run]
  | cons c calls ih =>
    obtain ⟨t, call⟩ := c
    obtain rfl : call = .allow ip := hcalls _ (List.mem_cons_self _ _)
    have ht : now ≤ t := List.rel_of_sorted_cons hsorted t (List.mem_cons_self _ _)
    cases m with
    | zero => simp
    | succ k =>
      have hlev : ((k + 1 : Nat) : ℚ) ≤ l.level ip t := hm.trans (level_mono hr hw ip ht)
      have hok : 1 ≤ l.level ip t := le_trans (by simp) hlev
      simp only [Limiter.run, List.take_succ_cons, List.all_cons, allow_fst hr, hok,
        decide_True, Bool.true_and]
      refine @ih (l.allow ip t).2 t hr (wf_allow hw ht) k ?_ (fun c hc => hcalls c (List.mem_cons_of_mem _ hc))
        hsorted.of_cons
      rw [level_allow_self hr hw ht hok]
      push_cast at hlev
      linarith

end First

/-! ## The limiters of `NewMultiLimiter` -/

/-- A limiter whose buckets refill within the janitor's three minutes. -/
theorem newLimiter_run {r : ℚ} {burst : Nat} (hr : 0 ≤ r)
    (hb : (burst : ℚ) ≤ tokensFromDuration r (3 * 60 * 10 ^ 9)) (calls : List (Nat × Call))
    (hsorted : (calls.map Prod.fst).Sorted (· ≤ ·)) :
    ((newLimiter r burst).run calls).1 =
        ((newLimiter r burst).run (calls.filter fun c => c.2.isAllow)).1 ∧
      ∀ ip t₀ w, (successesIn ip t₀ w ((newLimiter r burst).run calls).1 : ℚ) ≤
        tokensFromDuration r w + burst := by
  have hsorted₀ : (0 :: calls.map Prod.fst).Sorted (· ≤ ·) :=
    List.sorted_cons.mpr ⟨fun _ _ => Nat.zero_le _, hsorted⟩
  have hagree : Agree (newLimiter r burst) (newLimiter r burst) 0 :=
    ⟨rfl, rfl, wf_newLimiter r burst 0, wf_newLimiter r burst 0, fun _ _ _ => rfl⟩
  refine ⟨?_, fun ip t₀ w => ?_⟩
  · exact run_agree (a := newLimiter r burst) hr hb hagree calls hsorted₀
  · have hinit : WindowInv (newLimiter r burst) ip t₀ w 0 0 :=
      ⟨by simpa using add_nonneg (tokensFromDuration_nonneg hr w) (Nat.cast_nonneg burst),
        fun _ => by simp [Limiter.level, newLimiter, tokensFromDuration_nonneg hr],
        fun _ => rfl⟩
    simpa using run_window (l := newLimiter r burst) hr hb (wf_newLimiter r burst 0) calls
      hsorted₀ hinit

/-- What a limiter of `NewLimiter` answers an address is what a new limiter answers the
address's own calls alone, at their instants. -/
theorem newLimiter_isolated {r : ℚ} {burst : Nat} (hr : 0 ≤ r)
    (hb : (burst : ℚ) ≤ tokensFromDuration r (3 * 60 * 10 ^ 9)) (calls : List (Nat × Call))
    (hsorted : (calls.map Prod.fst).Sorted (· ≤ ·)) (ip : String) :
    (((newLimiter r burst).run calls).1.filter fun a => a.2.1 == ip) =
      ((newLimiter r burst).run ((((newLimiter r burst).run calls).1.filter
        fun a => a.2.1 == ip).map fun a => (a.1, .allow ip))).1 := by
  rw [run_filter_map]
  exact @run_agreeOn (newLimiter r burst) _ ip 0 hr hb ⟨rfl, rfl, wf_newLimiter r burst 0, wf_newLimiter r burst 0,
    fun _ _ => rfl⟩ calls (List.sorted_cons.mpr ⟨fun _ _ => Nat.zero_le _, hsorted⟩)

/-- Whatever the other calls, the first `burst` calls of an address on a limiter of
`NewLimiter` pass. -/
theorem newLimiter_first_pass {r : ℚ} {burst : Nat} (hr : 0 ≤ r)
    (hb : (burst : ℚ) ≤ tokensFromDuration r (3 * 60 * 10 ^ 9)) (calls : List (Nat × Call))
    (hsorted : (calls.map Prod.fst).Sorted (· ≤ ·)) (ip : String) :
    (((((newLimiter r burst).run calls).1.filter fun a => a.2.1 == ip).take burst).all
      fun a => a.2.2) = true := by
  rw [newLimiter_isolated hr hb calls hsorted ip, run_filter_map]
  refine run_take_all hr (wf_newLimiter r burst 0) le_rfl _ (fun c hc => mem_filter_isAllowOf hc) ?_
  exact List.sorted_cons.mpr ⟨fun _ _ => Nat.zero_le _,
    hsorted.sublist ((List.filter_sublist calls).map Prod.fst)⟩

theorem janitor_unobservable (calls : List (Nat × Call))
    (hsorted : (calls.map Prod.fst).Sorted (· ≤ ·)) :
    ∀ l ∈ [newMultiLimiter.create, newMultiLimiter.join],
      (l.run calls).1 = (l.run (calls.filter fun c => c.2.isAllow)).1 ∧
      ∀ ip t₀ w, (successesIn ip t₀ w (l.run calls).1 : ℚ) ≤
        tokensFromDuration l.rate w + l.burst := by
  intro l hl
  simp only [List.mem_cons, List.mem_singleton, List.not_mem_nil, or_false] at hl
  rcases hl with rfl | rfl
  · exact newLimiter_run (by norm_num) (by norm_num [tokensFromDuration]) calls hsorted
  · exact newLimiter_run (by norm_num) (by norm_num [tokensFromDuration]) calls hsorted

theorem janitor_unobservable_allow_then_cleanup :
    ([(0, Call.allow "a"), (200 * 10 ^ 9, Call.doCleanup)].map Prod.fst).Sorted (· ≤ ·) ∧
    ∀ l ∈ [newMultiLimiter.create, newMultiLimiter.join],
      (l.run [(0, .allow "a"), (200 * 10 ^ 9, .doCleanup)]).1 =
        (l.run ([(0, Call.allow "a"), (200 * 10 ^ 9, .doCleanup)].filter
          fun c => c.2.isAllow)).1 ∧
      ∀ ip t₀ w, (successesIn ip t₀ w (l.run [(0, .allow "a"), (200 * 10 ^ 9, .doCleanup)]).1 : ℚ) ≤
        tokensFromDuration l.rate w + l.burst :=
  ⟨by decide, janitor_unobservable _ (by decide)⟩

end SfoConnectivity.Bridge
