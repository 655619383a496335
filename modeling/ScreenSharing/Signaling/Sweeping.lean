import ScreenSharing.Signaling.Attempts

/-!
# What a sweep forgets

A sweep drops the buckets that neither block nor have a hit inside the window.  It does not look at the
overflow count, which outlives both: it says how often the next backoff of the key is doubled.

`Alike` relates the bucket of a key to the one it has without the sweeps.  A sweep that drops only
buckets that never backed off keeps it, and then no later attempt can tell the difference.  Any other
sweep shows as soon as the key uses up its burst again, except where no backoff is longer than the
first one.
-/

namespace ScreenSharing.Signaling.RateLimiter

open Lib

variable {cfg : RateLimitConfig} {clock now n : ℕ} {b b' : Bucket} {L L' : RateLimiter}
  {key : String} {u : Use} {us : List Use}

/-! ### Runs with and without their sweeps -/

def Use.isSweep : Use → Bool
  | .sweep _ => true
  | _ => false

/-- The run without its sweeps. -/
def unswept (us : List Use) : List Use := us.filter fun u => !u.isSweep

/-- What the attempts of a run got, in order. -/
def results (L : RateLimiter) (us : List Use) : List (Option ℕ) :=
  (machine.trace L us).map Attempt.result

/-- The sweep drops only buckets that never backed off. -/
def ForgetsNothing (L : RateLimiter) : Use → Prop
  | .sweep now => ∀ b ∈ L.buckets.values, L.idle now b = true → b.overflowCount = 0
  | _ => True

instance (L : RateLimiter) (u : Use) : Decidable (ForgetsNothing L u) := by
  apply u.casesOn (motive := fun u => Decidable (ForgetsNothing L u)) <;> intros <;>
    unfold ForgetsNothing <;> infer_instance

/-- No backoff is longer than the first one. -/
def Flat (cfg : RateLimitConfig) : Prop :=
  cfg.maxBackoffMs ≤ cfg.baseBackoffMs ∨ cfg.baseBackoffMs = 0

instance (cfg : RateLimitConfig) : Decidable (Flat cfg) := inferInstanceAs (Decidable (_ ∨ _))

theorem backoff_of_flat (h : Flat cfg) (n : ℕ) : cfg.backoff n = cfg.backoff 0 := by
  have hpos : 0 < 2 ^ n := Nat.pow_pos (by omega)
  have hle := Nat.le_mul_of_pos_right cfg.baseBackoffMs hpos
  unfold RateLimitConfig.backoff
  rcases h with h | h
  · omega
  · rw [h, Nat.zero_mul, Nat.zero_mul]

/-- The bucket of a key, and the one it has without the sweeps. -/
structure Alike (cfg : RateLimitConfig) (clock : ℕ) (b b' : Bucket) : Prop where
  blocked : b.blockedUntil = b'.blockedUntil ∨ b.blockedUntil ≤ clock ∧ b'.blockedUntil ≤ clock
  hits : SlidingWindow.Keeps cfg.windowMs clock b.hits b'.hits
  overflowCount : Flat cfg ∨ b.overflowCount = b'.overflowCount

theorem Alike.later (h : Alike cfg clock b b') (hle : clock ≤ now) : Alike cfg now b b' :=
  ⟨h.blocked.imp_right fun hb => ⟨Nat.le_trans hb.1 hle, Nat.le_trans hb.2 hle⟩,
    h.hits.later hle, h.overflowCount⟩

theorem Alike.blocked_iff (h : Alike cfg clock b b') (hle : clock ≤ now) :
    now < b.blockedUntil ↔ now < b'.blockedUntil := by
  rcases h.blocked with heq | hpast
  · rw [heq]
  · omega

theorem Alike.backoff (h : Alike cfg clock b b') :
    cfg.backoff b.overflowCount = cfg.backoff b'.overflowCount := by
  rcases h.overflowCount with hflat | heq
  · rw [backoff_of_flat hflat, backoff_of_flat hflat b'.overflowCount]
  · rw [heq]

/-- **An attempt cannot tell alike buckets apart**, and leaves them alike. -/
theorem Alike.attempt (h : Alike cfg clock b b') (hle : clock ≤ now) :
    (b.attempt cfg now).2 = (b'.attempt cfg now).2 ∧
      Alike cfg now (b.attempt cfg now).1 (b'.attempt cfg now).1 := by
  have hfresh := h.hits now hle
  by_cases hblocked : now < b.blockedUntil
  · have heq : b.blockedUntil = b'.blockedUntil := by
      rcases h.blocked with heq | hpast
      · exact heq
      · omega
    rw [Bucket.attempt_of_blocked hblocked, Bucket.attempt_of_blocked (heq ▸ hblocked), heq]
    exact ⟨rfl, h.later hle⟩
  · have hopen' : b'.blockedUntil ≤ now :=
      Nat.not_lt.mp fun hc => hblocked ((h.blocked_iff hle).mpr hc)
    rw [Nat.not_lt] at hblocked
    by_cases hburst : cfg.burst ≤ (SlidingWindow.fresh cfg.windowMs now b.hits).length
    · rw [Bucket.attempt_of_exhausted hblocked hburst,
        Bucket.attempt_of_exhausted hopen' (hfresh ▸ hburst), hfresh, h.backoff]
      exact ⟨rfl, .inl rfl, SlidingWindow.Keeps.refl _,
        h.overflowCount.imp_right (congrArg (· + 1))⟩
    · rw [Nat.not_le] at hburst
      rw [Bucket.attempt_of_room hblocked hburst, Bucket.attempt_of_room hopen' (hfresh ▸ hburst),
        hfresh]
      exact ⟨rfl, .inr ⟨hblocked, hopen'⟩, SlidingWindow.Keeps.refl _, h.overflowCount⟩

/-- The hits of a bucket are past, and it backed off only if the configuration lets hits count. -/
structure Earned (cfg : RateLimitConfig) (clock : ℕ) (b : Bucket) : Prop where
  past : ∀ t ∈ b.hits, t ≤ clock
  counts : b.overflowCount ≠ 0 → cfg.burst = 0 ∨ 0 < cfg.windowMs

theorem earned_new : Earned cfg clock ⟨[], 0, 0⟩ := ⟨nofun, fun h => absurd rfl h⟩

theorem Earned.later (h : Earned cfg clock b) (hle : clock ≤ now) : Earned cfg now b :=
  ⟨fun t ht => Nat.le_trans (h.past t ht) hle, h.counts⟩

theorem Earned.attempt (h : Earned cfg clock b) (hle : clock ≤ now) :
    Earned cfg now (b.attempt cfg now).1 := by
  have hpast : ∀ t ∈ SlidingWindow.fresh cfg.windowMs now b.hits, t ≤ now := fun t ht =>
    Nat.le_trans (h.past t (List.mem_of_mem_filter ht)) hle
  by_cases hblocked : now < b.blockedUntil
  · rw [Bucket.attempt_of_blocked hblocked]
    exact h.later hle
  · rw [Nat.not_lt] at hblocked
    by_cases hburst : cfg.burst ≤ (SlidingWindow.fresh cfg.windowMs now b.hits).length
    · rw [Bucket.attempt_of_exhausted hblocked hburst]
      refine ⟨hpast, fun _ => ?_⟩
      by_contra hnone
      rw [not_or] at hnone
      -- in a window of no length no past hit counts, so a burst is never used up
      have hempty : SlidingWindow.fresh cfg.windowMs now b.hits = [] := by
        rw [SlidingWindow.fresh_eq_nil]
        intro t ht
        have hold := h.past t ht
        omega
      rw [hempty, List.length_nil] at hburst
      omega
    · rw [Bucket.attempt_of_room hblocked (Nat.not_le.mp hburst)]
      refine ⟨fun t ht => ?_, h.counts⟩
      rcases List.mem_append.mp ht with ht | ht
      · exact hpast t ht
      · exact Nat.le_of_eq (List.mem_singleton.mp ht)

/-! ### Limiters with and without sweeps -/

/-- A limiter, and the one it would be without the sweeps. -/
structure Follows (cfg : RateLimitConfig) (clock : ℕ) (L L' : RateLimiter) : Prop where
  config : L.cfg = cfg
  config' : L'.cfg = cfg
  alike : ∀ key, Alike cfg clock (L.bucket key) (L'.bucket key)
  earned : ∀ key, Earned cfg clock (L.bucket key)

/-- The bucket of a key among the values, if it is not a fresh one. -/
theorem bucket_mem_values (h : (L.bucket key).overflowCount ≠ 0) :
    L.bucket key ∈ L.buckets.values := by
  rw [InsertionMap.mem_values]
  unfold bucket at h ⊢
  cases hget : L.buckets.get key with
  | none =>
    rw [hget] at h
    exact absurd rfl h
  | some b => exact ⟨key, hget⟩

/-- A bucket that a sweep drops is like a fresh one, unless its overflow count matters. -/
theorem alike_dropped (h : Alike cfg clock b b') (hle : clock ≤ now) (hcfg : L.cfg = cfg)
    (hidle : L.idle now b = true) (hcount : Flat cfg ∨ b.overflowCount = 0) :
    Alike cfg now ⟨[], 0, 0⟩ b' := by
  unfold idle at hidle
  rw [Bool.and_eq_true, decide_eq_true_eq, List.all_eq_true] at hidle
  obtain ⟨hblocked, hhits⟩ := hidle
  have hopen' : b'.blockedUntil ≤ now :=
    Nat.not_lt.mp fun hc => Nat.lt_asymm hblocked ((h.blocked_iff hle).mpr hc)
  have hnone : SlidingWindow.fresh cfg.windowMs now b.hits = [] := by
    rw [SlidingWindow.fresh_eq_nil]
    intro t ht
    have hold := hhits t ht
    rw [hcfg, decide_eq_true_eq] at hold
    exact hold
  refine ⟨.inr ⟨Nat.zero_le _, hopen'⟩, h.hits.forget hle hnone, ?_⟩
  rcases hcount with hflat | hzero
  · exact .inl hflat
  · exact h.overflowCount.imp_right hzero.symm.trans

/-- An attempt is answered alike, and the limiters go on alike. -/
theorem follows_take (h : Follows cfg clock L L') (hle : clock ≤ now) (key : String) :
    (L.take now key).2 = (L'.take now key).2 ∧
      Follows cfg now (L.take now key).1 (L'.take now key).1 := by
  have hattempt := (h.alike key).attempt hle
  have hearned := (h.earned key).attempt hle
  refine ⟨?_, (take_cfg L now key).trans h.config, (take_cfg L' now key).trans h.config',
    fun key' => ?_, fun key' => ?_⟩
  · rw [take_result, take_result, h.config, h.config', hattempt.1]
  · rw [take_bucket, take_bucket, h.config, h.config']
    split
    · exact hattempt.2
    · exact (h.alike key').later hle
  · rw [take_bucket, h.config]
    split
    · exact hearned
    · exact (h.earned key').later hle

theorem follows_clear (h : Follows cfg clock L L') (key : String) :
    Follows cfg clock (L.clear key) (L'.clear key) := by
  refine ⟨h.config, h.config', fun key' => ?_, fun key' => ?_⟩
  · rw [bucket_clear, bucket_clear]
    split
    · exact ⟨.inl rfl, SlidingWindow.Keeps.refl _, .inr rfl⟩
    · exact h.alike key'
  · rw [bucket_clear]
    split
    · exact earned_new
    · exact h.earned key'

/-- A sweep of the first limiter alone, if it drops only buckets whose overflow count does not matter. -/
theorem follows_sweep (h : Follows cfg clock L L') (hle : clock ≤ now)
    (hkeep : Flat cfg ∨ ForgetsNothing L (.sweep now)) : Follows cfg now (L.sweep now) L' := by
  refine ⟨h.config, h.config', fun key => ?_, fun key => ?_⟩
  · rw [bucket_sweep]
    split
    · next hidle =>
      refine alike_dropped (h.alike key) hle h.config hidle (hkeep.imp_right fun hforgets => ?_)
      by_contra hcount
      exact hcount (hforgets _ (bucket_mem_values hcount) hidle)
    · exact (h.alike key).later hle
  · rw [bucket_sweep]
    split
    · exact earned_new
    · exact (h.earned key).later hle

/-- **One use.**  It is answered alike, and the limiters go on alike unless it is a sweep that drops a
bucket whose overflow count matters. -/
theorem Follows.next (h : Follows cfg clock L L') (hle : clock ≤ u.time.getD clock)
    (hkeep : Flat cfg ∨ ForgetsNothing L u) :
    results L [u] = results L' (unswept [u]) ∧
      Follows cfg (u.time.getD clock) (machine.next L u) (machine.exec L' (unswept [u])) := by
  cases u with
  | take now key =>
    obtain ⟨hresult, hfollows⟩ := follows_take h hle key
    exact ⟨congrArg (fun result => [result]) hresult, hfollows⟩
  | clear key => exact ⟨rfl, follows_clear h key⟩
  | sweep now => exact ⟨rfl, follows_sweep h hle hkeep⟩

end ScreenSharing.Signaling.RateLimiter
