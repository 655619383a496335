import Mathlib.Algebra.Group.Nat.Defs
import ScreenSharing.Lib.InsertionMap
import ScreenSharing.Lib.SlidingWindow

/-!
# The host's rate limiter

A sliding window of attempts for each key and, once the burst is exhausted, a backoff that doubles
with each further attempt.  Times are milliseconds.

`take_eq`, `bucket_clear` and `bucket_sweep` say what each method does to the bucket of a key; what
holds of a key is proved about `Bucket.attempt`, which is an attempt seen by its bucket alone.
-/

namespace ScreenSharing.Signaling

open Lib

structure RateLimitConfig where
  burst : ℕ
  windowMs : ℕ
  baseBackoffMs : ℕ
  maxBackoffMs : ℕ

/-- `DEFAULT_RATE_LIMIT`. -/
def defaultRateLimit : RateLimitConfig where
  burst := 5
  windowMs := 60000
  baseBackoffMs := 2000
  maxBackoffMs := 15 * 60000

structure Bucket where
  hits : List ℕ
  blockedUntil : ℕ
  overflowCount : ℕ
  deriving DecidableEq

/-- The fields of the `RateLimiter` class. -/
structure RateLimiter where
  cfg : RateLimitConfig
  buckets : InsertionMap String Bucket

namespace RateLimiter

def new (cfg : RateLimitConfig) : RateLimiter := ⟨cfg, .empty⟩

/-- The bucket of a key, a fresh one if there is none. -/
def bucket (L : RateLimiter) (key : String) : Bucket := (L.buckets.get key).getD ⟨[], 0, 0⟩

/-- The hits of a bucket that still are inside the window. -/
def fresh (L : RateLimiter) (now : ℕ) (b : Bucket) : List ℕ :=
  b.hits.filter fun t => now < t + L.cfg.windowMs

/-- `take`: `none` when the attempt is allowed, which records it, and the time until a retry
otherwise. -/
def take (now : ℕ) (key : String) (L : RateLimiter) : RateLimiter × Option ℕ :=
  let b := L.bucket key
  if now < b.blockedUntil then
    ({ L with buckets := L.buckets.set key b }, some (b.blockedUntil - now))
  else
    let hits := L.fresh now b
    if hits.length ≥ L.cfg.burst then
      let backoff := min (L.cfg.baseBackoffMs * 2 ^ b.overflowCount) L.cfg.maxBackoffMs
      ({ L with buckets := L.buckets.set key ⟨hits, now + backoff, b.overflowCount + 1⟩ },
        some backoff)
    else
      ({ L with buckets := L.buckets.set key { b with hits := hits ++ [now] } }, none)

/-- `clear`: a successful handshake resets the standing of its key. -/
def clear (key : String) (L : RateLimiter) : RateLimiter :=
  { L with buckets := L.buckets.delete key }

/-- `sweep` drops a bucket that does not block and has no hit inside the window. -/
def idle (L : RateLimiter) (now : ℕ) (b : Bucket) : Bool :=
  decide (b.blockedUntil < now) && b.hits.all fun t => decide (t + L.cfg.windowMs ≤ now)

/-- `sweep`: drop stale buckets. -/
def sweep (now : ℕ) (L : RateLimiter) : RateLimiter :=
  { L with buckets := L.buckets.filterValues fun b => !L.idle now b }

/-- An attempt is allowed when the key is not blocked and the burst is not exhausted. -/
theorem take_eq_none {now : ℕ} {key : String} {L : RateLimiter}
    (hblocked : (L.bucket key).blockedUntil ≤ now)
    (hhits : (L.bucket key).hits.length < L.cfg.burst) : (L.take now key).2 = none := by
  have hle : (L.fresh now (L.bucket key)).length ≤ (L.bucket key).hits.length :=
    List.length_filter_le _ _
  unfold take
  dsimp only
  rw [if_neg (by omega), if_neg (by omega)]

/-- An attempt that is allowed is one more hit of its key, and of no other. -/
theorem take_of_allowed {now : ℕ} {key : String} {L : RateLimiter}
    (hblocked : (L.bucket key).blockedUntil ≤ now)
    (hhits : (L.bucket key).hits.length < L.cfg.burst) :
    (L.take now key).1 = { L with
      buckets := L.buckets.set key
        { L.bucket key with hits := L.fresh now (L.bucket key) ++ [now] } } := by
  have hle : (L.fresh now (L.bucket key)).length ≤ (L.bucket key).hits.length :=
    List.length_filter_le _ _
  unfold take
  dsimp only
  rw [if_neg (by omega), if_neg (by omega)]

theorem bucket_set (L : RateLimiter) (key key' : String) (b : Bucket) :
    ({ L with buckets := L.buckets.set key b } : RateLimiter).bucket key'
      = if key' = key then b else L.bucket key' := by
  unfold bucket
  dsimp only
  rw [InsertionMap.get_set]
  split <;> rfl

theorem bucket_clear (L : RateLimiter) (key key' : String) :
    (L.clear key).bucket key' = if key' = key then ⟨[], 0, 0⟩ else L.bucket key' := by
  unfold bucket clear
  dsimp only
  rw [InsertionMap.get_delete]
  split <;> rfl

theorem bucket_sweep (L : RateLimiter) (now : ℕ) (key : String) :
    (L.sweep now).bucket key = if L.idle now (L.bucket key) then ⟨[], 0, 0⟩ else L.bucket key := by
  unfold bucket sweep
  dsimp only
  rw [InsertionMap.get_filterValues]
  cases L.buckets.get key with
  | none => split <;> rfl
  | some b =>
    rw [Option.filter_some]
    cases h : L.idle now b <;> simp [h]

end RateLimiter

/-! ### An attempt, seen by its bucket -/

/-- The backoff that comes after `n` others. -/
def RateLimitConfig.backoff (cfg : RateLimitConfig) (n : ℕ) : ℕ :=
  min (cfg.baseBackoffMs * 2 ^ n) cfg.maxBackoffMs

theorem RateLimitConfig.backoff_mono (cfg : RateLimitConfig) {n n' : ℕ} (hle : n ≤ n') :
    cfg.backoff n ≤ cfg.backoff n' := by
  have hpow : 2 ^ n ≤ 2 ^ n' := Nat.pow_le_pow_right (by omega) hle
  have hmul := Nat.mul_le_mul_left cfg.baseBackoffMs hpow
  unfold RateLimitConfig.backoff
  omega

namespace Bucket

variable {cfg : RateLimitConfig} {now : ℕ} {b : Bucket}

/-- What an attempt at time `now` makes of the bucket of its key, and its result. -/
def attempt (cfg : RateLimitConfig) (now : ℕ) (b : Bucket) : Bucket × Option ℕ :=
  let hits := SlidingWindow.fresh cfg.windowMs now b.hits
  if now < b.blockedUntil then (b, some (b.blockedUntil - now))
  else if cfg.burst ≤ hits.length then
    (⟨hits, now + cfg.backoff b.overflowCount, b.overflowCount + 1⟩,
      some (cfg.backoff b.overflowCount))
  else ({ b with hits := hits ++ [now] }, none)

theorem attempt_of_blocked (h : now < b.blockedUntil) :
    b.attempt cfg now = (b, some (b.blockedUntil - now)) := if_pos h

theorem attempt_of_exhausted (h : b.blockedUntil ≤ now)
    (hburst : cfg.burst ≤ (SlidingWindow.fresh cfg.windowMs now b.hits).length) :
    b.attempt cfg now =
      (⟨SlidingWindow.fresh cfg.windowMs now b.hits, now + cfg.backoff b.overflowCount,
        b.overflowCount + 1⟩, some (cfg.backoff b.overflowCount)) := by
  unfold attempt
  dsimp only
  rw [if_neg (Nat.not_lt.mpr h), if_pos hburst]

theorem attempt_of_room (h : b.blockedUntil ≤ now)
    (hroom : (SlidingWindow.fresh cfg.windowMs now b.hits).length < cfg.burst) :
    b.attempt cfg now =
      ({ b with hits := SlidingWindow.fresh cfg.windowMs now b.hits ++ [now] }, none) := by
  unfold attempt
  dsimp only
  rw [if_neg (Nat.not_lt.mpr h), if_neg (Nat.not_le.mpr hroom)]

end Bucket

namespace RateLimiter

/-- `take` is an attempt of the bucket of its key. -/
theorem take_eq (L : RateLimiter) (now : ℕ) (key : String) :
    L.take now key =
      ({ L with buckets := L.buckets.set key ((L.bucket key).attempt L.cfg now).1 },
        ((L.bucket key).attempt L.cfg now).2) := by
  by_cases hblocked : now < (L.bucket key).blockedUntil
  · rw [Bucket.attempt_of_blocked hblocked]
    exact if_pos hblocked
  · rw [Nat.not_lt] at hblocked
    by_cases hburst : L.cfg.burst ≤ (L.fresh now (L.bucket key)).length
    · rw [Bucket.attempt_of_exhausted hblocked hburst]
      exact (if_neg (Nat.not_lt.mpr hblocked)).trans (if_pos hburst)
    · rw [Bucket.attempt_of_room hblocked (Nat.not_le.mp hburst)]
      exact (if_neg (Nat.not_lt.mpr hblocked)).trans (if_neg hburst)

theorem take_result (L : RateLimiter) (now : ℕ) (key : String) :
    (L.take now key).2 = ((L.bucket key).attempt L.cfg now).2 := by rw [take_eq]

theorem take_bucket (L : RateLimiter) (now : ℕ) (key key' : String) :
    (L.take now key).1.bucket key' =
      if key' = key then ((L.bucket key).attempt L.cfg now).1 else L.bucket key' := by
  rw [take_eq, bucket_set]

@[simp] theorem take_cfg (L : RateLimiter) (now : ℕ) (key : String) :
    (L.take now key).1.cfg = L.cfg := by rw [take_eq]

/-- **When the limiter lets an attempt through.** -/
theorem take_eq_none_iff {L : RateLimiter} {now : ℕ} {key : String} : (L.take now key).2 = none ↔
    (L.bucket key).blockedUntil ≤ now ∧ (L.fresh now (L.bucket key)).length < L.cfg.burst := by
  unfold take
  dsimp only
  split
  · next hblocked =>
    simp only [reduceCtorEq, false_iff]
    omega
  · next hblocked =>
    split
    · next hburst =>
      simp only [reduceCtorEq, false_iff]
      omega
    · next hburst =>
      simp only [true_iff]
      omega

/-- An attempt that is let through is one more hit of its bucket. -/
theorem bucket_of_take_none {L : RateLimiter} {now : ℕ} {key : String}
    (hnone : (L.take now key).2 = none) :
    (L.take now key).1.bucket key =
      { L.bucket key with hits := L.fresh now (L.bucket key) ++ [now] } := by
  obtain ⟨hblocked, hburst⟩ := take_eq_none_iff.mp hnone
  rw [take_bucket, if_pos rfl, Bucket.attempt_of_room hblocked hburst]
  rfl

end RateLimiter

end ScreenSharing.Signaling
