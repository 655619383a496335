import Mathlib.Data.List.Pairwise
import ScreenSharing.Lib.Machine
import ScreenSharing.Signaling.RateLimit

/-!
# The limits of a key

A run of the rate limiter is a list of uses of it; what comes out of it are the attempts, each with
what it found and what it got.  As long as a key is not cleared and no sweep drops its bucket,
`Standing` relates the bucket to the attempts of the key so far:

* the hits kept count like all the attempts that were let through, although a blocked attempt does not
  prune them;
* the overflow count is the number of backoffs computed so far.

The first gives the cap on every interval as long as the window, the second the doubling.
-/

namespace ScreenSharing.Signaling.RateLimiter

open Lib

/-- A use of the limiter; the time is what the clock shows. -/
inductive Use
  | take (now : ℕ) (key : String)
  | clear (key : String)
  | sweep (now : ℕ)
  deriving DecidableEq

def Use.time : Use → Option ℕ
  | .take now _ => some now
  | .clear _ => none
  | .sweep now => some now

/-- An attempt: until when its key was blocked, and the result of `take`. -/
structure Attempt where
  key : String
  now : ℕ
  blockedUntil : ℕ
  result : Option ℕ
  deriving DecidableEq

/-- Any use may be made at any time. -/
def machine : Machine RateLimiter Use Attempt where
  enabled _ _ := True
  step L
    | .take now key =>
      ((L.take now key).1, [⟨key, now, (L.bucket key).blockedUntil, (L.take now key).2⟩])
    | .clear key => (L.clear key, [])
    | .sweep now => (L.sweep now, [])

/-! ### What is said of a key -/

/-- The attempts of one key. -/
def attemptsOf (key : String) (attempts : List Attempt) : List Attempt :=
  attempts.filter fun a => a.key = key

/-- When the attempts of a key were made that were let through. -/
def allowed (key : String) (attempts : List Attempt) : List ℕ :=
  ((attemptsOf key attempts).filter fun a => a.result.isNone).map Attempt.now

/-- The backoffs computed for a key, in order.  An attempt that comes while the key is blocked is told
how long to wait, but no backoff is computed for it. -/
def backoffs (key : String) (attempts : List Attempt) : List ℕ :=
  ((attemptsOf key attempts).filter fun a => a.blockedUntil ≤ a.now).filterMap Attempt.result

/-- The use does not reset the standing of `key`. -/
def Spares (key : String) (L : RateLimiter) : Use → Prop
  | .take _ _ => True
  | .clear key' => key' ≠ key
  | .sweep now => (L.sweep now).bucket key = L.bucket key

instance (key : String) (L : RateLimiter) (u : Use) : Decidable (Spares key L u) := by
  apply u.casesOn (motive := fun u => Decidable (Spares key L u)) <;> intros <;> unfold Spares <;>
    infer_instance

/-- The use may concern `key`. -/
def Use.concerns (key : String) : Use → Bool
  | .take _ key' => key' = key
  | .clear key' => key' = key
  | .sweep _ => true

@[simp] theorem attemptsOf_append (key : String) (as as' : List Attempt) :
    attemptsOf key (as ++ as') = attemptsOf key as ++ attemptsOf key as' :=
  List.filter_append _ _

@[simp] theorem allowed_append (key : String) (as as' : List Attempt) :
    allowed key (as ++ as') = allowed key as ++ allowed key as' := by
  simp [allowed, List.filter_append]

@[simp] theorem backoffs_append (key : String) (as as' : List Attempt) :
    backoffs key (as ++ as') = backoffs key as ++ backoffs key as' := by
  simp [backoffs, List.filter_append, List.filterMap_append]

/-! ### The standing of a key -/

/-- The bucket of a key after the attempts `log` that were let through and after `n` backoffs. -/
structure Standing (cfg : RateLimitConfig) (clock : ℕ) (log : List ℕ) (n : ℕ) (b : Bucket) :
    Prop where
  hits : SlidingWindow.Keeps cfg.windowMs clock b.hits log
  capped : SlidingWindow.Capped cfg.windowMs cfg.burst log
  overflowCount : b.overflowCount = n

variable {cfg : RateLimitConfig} {clock now n : ℕ} {log : List ℕ} {b : Bucket}

theorem standing_new : Standing cfg clock [] 0 ⟨[], 0, 0⟩ :=
  ⟨SlidingWindow.Keeps.refl [], SlidingWindow.Capped.nil, rfl⟩

theorem Standing.later (h : Standing cfg clock log n b) (hle : clock ≤ now) :
    Standing cfg now log n b := ⟨h.hits.later hle, h.capped, h.overflowCount⟩

/-- The ways an attempt of a key can end. -/
inductive Outcome (cfg : RateLimitConfig) (now : ℕ) (log : List ℕ) (n : ℕ) (b : Bucket) :
    Bucket → Option ℕ → Prop
  | blocked (h : now < b.blockedUntil) : Outcome cfg now log n b b (some (b.blockedUntil - now))
  | backoff {b' : Bucket} (h : b.blockedUntil ≤ now) (hs : Standing cfg now log (n + 1) b') :
      Outcome cfg now log n b b' (some (cfg.backoff n))
  | allowed {b' : Bucket} (hs : Standing cfg now (log ++ [now]) n b') :
      Outcome cfg now log n b b' none

/-- **An attempt** and what it makes of the standing of its key. -/
theorem Standing.attempt (h : Standing cfg clock log n b) (hle : clock ≤ now) :
    Outcome cfg now log n b (b.attempt cfg now).1 (b.attempt cfg now).2 := by
  by_cases hblocked : now < b.blockedUntil
  · rw [Bucket.attempt_of_blocked hblocked]
    exact .blocked hblocked
  · rw [Nat.not_lt] at hblocked
    have hpruned := h.hits.prune hle
    by_cases hburst : cfg.burst ≤ (SlidingWindow.fresh cfg.windowMs now b.hits).length
    · rw [Bucket.attempt_of_exhausted hblocked hburst, h.overflowCount]
      exact .backoff hblocked ⟨hpruned, h.capped, rfl⟩
    · rw [Nat.not_le] at hburst
      rw [Bucket.attempt_of_room hblocked hburst]
      -- the log counts what is kept, so there is room in the log as well
      have hroom : (SlidingWindow.fresh cfg.windowMs now log).length < cfg.burst := by
        rw [← h.hits now hle]
        exact hburst
      exact .allowed ⟨hpruned.push now, h.capped.push hroom, h.overflowCount⟩

/-! ### One use -/

variable {L L' : RateLimiter} {key : String} {u : Use} {us : List Use}

@[simp] theorem next_cfg (L : RateLimiter) (u : Use) : (machine.next L u).cfg = L.cfg := by
  cases u with
  | take now key => exact take_cfg L now key
  | clear key => rfl
  | sweep now => rfl

@[simp] theorem attemptsOf_nil (key : String) : attemptsOf key [] = [] := rfl

theorem attemptsOf_single (key : String) (a : Attempt) :
    attemptsOf key [a] = if a.key = key then [a] else [] := by
  by_cases hkey : a.key = key <;> simp [attemptsOf, hkey]

theorem allowed_single (key : String) (a : Attempt) :
    allowed key [a] = if a.key = key ∧ a.result = none then [a.now] else [] := by
  by_cases hkey : a.key = key <;> cases hresult : a.result <;>
    simp [allowed, attemptsOf, hkey, hresult]

theorem backoffs_single (key : String) (a : Attempt) :
    backoffs key [a] = if a.key = key ∧ a.blockedUntil ≤ a.now then a.result.toList else [] := by
  by_cases hkey : a.key = key <;> by_cases hblocked : a.blockedUntil ≤ a.now <;>
    cases hresult : a.result <;> simp [backoffs, attemptsOf, hkey, hblocked, hresult]

/-- What a use does to the standing of a key, if it does not reset it. -/
theorem standing_next (hcfg : L.cfg = cfg) (h : Standing cfg clock log n (L.bucket key))
    (hspares : Spares key L u) (hle : clock ≤ u.time.getD clock) :
    Standing cfg (u.time.getD clock) (log ++ allowed key (machine.out L u))
      (n + (backoffs key (machine.out L u)).length) ((machine.next L u).bucket key) ∧
    backoffs key (machine.out L u) =
      (List.range' n (backoffs key (machine.out L u)).length).map cfg.backoff := by
  cases u with
  | clear key' =>
    have hb : (machine.next L (.clear key')).bucket key = L.bucket key :=
      (bucket_clear L key' key).trans (if_neg (Ne.symm hspares))
    rw [hb]
    exact ⟨(List.append_nil log).symm ▸ h, rfl⟩
  | sweep now =>
    have hb : (machine.next L (.sweep now)).bucket key = L.bucket key := hspares
    rw [hb]
    exact ⟨(List.append_nil log).symm ▸ h.later hle, rfl⟩
  | take now key' =>
    have hout : machine.out L (.take now key') =
        [⟨key', now, (L.bucket key').blockedUntil, (L.take now key').2⟩] := rfl
    have hnext : machine.next L (.take now key') = (L.take now key').1 := rfl
    rw [hout, hnext, take_bucket, allowed_single, backoffs_single, take_result]
    by_cases hkey : key' = key
    · subst hkey
      rw [if_pos rfl, hcfg]
      have hnow : clock ≤ now := hle
      have houtcome := h.attempt hnow
      generalize ((L.bucket key').attempt cfg now).1 = b',
        ((L.bucket key').attempt cfg now).2 = result at houtcome
      cases houtcome with
      | blocked hblocked =>
        rw [if_neg (by simp), if_neg (fun hc => absurd hc.2 (Nat.not_le.mpr hblocked))]
        exact ⟨(List.append_nil log).symm ▸ h.later hle, rfl⟩
      | backoff hopen hs =>
        rw [if_neg (by simp), if_pos ⟨rfl, hopen⟩]
        exact ⟨(List.append_nil log).symm ▸ hs, rfl⟩
      | allowed hs =>
        rw [if_pos ⟨rfl, rfl⟩]
        split
        · exact ⟨hs, rfl⟩
        · exact ⟨hs, rfl⟩
    · rw [if_neg (Ne.symm hkey), if_neg (fun hc => hkey hc.1), if_neg (fun hc => hkey hc.1)]
      exact ⟨(List.append_nil log).symm ▸ h.later hle, rfl⟩

/-- What the uses of a run do to the standing of a key that none of them resets. -/
theorem standing_trace : ∀ {L : RateLimiter} {clock n : ℕ} {log : List ℕ}, L.cfg = cfg →
    Standing cfg clock log n (L.bucket key) → Forward Use.time clock us →
    machine.Along (Spares key) L us →
      SlidingWindow.Capped cfg.windowMs cfg.burst (log ++ allowed key (machine.trace L us)) ∧
      backoffs key (machine.trace L us) =
        (List.range' n (backoffs key (machine.trace L us)).length).map cfg.backoff := by
  induction us with
  | nil =>
    intro L clock n log _ h _ _
    exact ⟨(List.append_nil log).symm ▸ h.capped, rfl⟩
  | cons u us ih =>
    intro L clock n log hcfg h hclock hspares
    obtain ⟨hnext, hout⟩ := standing_next hcfg h hspares.1 hclock.1
    obtain ⟨hcapped, hrest⟩ := ih ((next_cfg L u).trans hcfg) hnext hclock.2 hspares.2
    rw [Machine.trace, allowed_append, backoffs_append]
    refine ⟨(List.append_assoc ..) ▸ hcapped, ?_⟩
    rw [List.length_append, ← List.range'_append_1, List.map_append, ← hout, ← hrest]

/-! ### Other keys -/

/-- What a use does to a key depends on the bucket of that key only. -/
theorem next_congr (hcfg : L.cfg = L'.cfg) (hb : L.bucket key = L'.bucket key) (u : Use) :
    (machine.next L u).bucket key = (machine.next L' u).bucket key ∧
    attemptsOf key (machine.out L u) = attemptsOf key (machine.out L' u) := by
  cases u with
  | clear key' =>
    refine ⟨?_, rfl⟩
    show (L.clear key').bucket key = (L'.clear key').bucket key
    rw [bucket_clear, bucket_clear, hb]
  | sweep now =>
    refine ⟨?_, rfl⟩
    show (L.sweep now).bucket key = (L'.sweep now).bucket key
    rw [bucket_sweep, bucket_sweep, idle, idle, hb, hcfg]
  | take now key' =>
    constructor
    · show (L.take now key').1.bucket key = (L'.take now key').1.bucket key
      rw [take_bucket, take_bucket, hb, hcfg]
      split
      · next hkey => rw [← hkey, hb]
      · rfl
    · show attemptsOf key [_] = attemptsOf key [_]
      rw [attemptsOf_single, attemptsOf_single]
      dsimp only
      by_cases hkey : key' = key
      · rw [if_pos hkey, if_pos hkey, take_result, take_result, hkey, hb, hcfg]
      · rw [if_neg hkey, if_neg hkey]

/-- A use that does not concern a key leaves its bucket alone and makes no attempt of it. -/
theorem next_of_not_concerns (h : u.concerns key = false) :
    (machine.next L u).bucket key = L.bucket key ∧ attemptsOf key (machine.out L u) = [] := by
  cases u with
  | clear key' =>
    have hkey : key' ≠ key := of_decide_eq_false h
    exact ⟨(bucket_clear L key' key).trans (if_neg (Ne.symm hkey)), rfl⟩
  | sweep now => cases h
  | take now key' =>
    have hkey : key' ≠ key := of_decide_eq_false h
    exact ⟨(take_bucket L now key' key).trans (if_neg (Ne.symm hkey)),
      (attemptsOf_single key _).trans (if_neg hkey)⟩

/-- **Other keys have no effect**: the attempts of a key go as if the others did not exist. -/
theorem attemptsOf_trace : ∀ {L L' : RateLimiter}, L.cfg = L'.cfg → L.bucket key = L'.bucket key →
    attemptsOf key (machine.trace L us) =
      attemptsOf key (machine.trace L' (us.filter (Use.concerns key))) := by
  induction us with
  | nil => exact fun _ _ => rfl
  | cons u us ih =>
    intro L L' hcfg hb
    rw [Machine.trace, attemptsOf_append]
    cases hu : u.concerns key with
    | true =>
      obtain ⟨hnext, hout⟩ := next_congr hcfg hb u
      rw [List.filter_cons_of_pos hu, Machine.trace, attemptsOf_append, hout,
        ih (by rw [next_cfg, next_cfg, hcfg]) hnext]
    | false =>
      obtain ⟨hnext, hout⟩ := next_of_not_concerns (L := L) hu
      rw [List.filter_cons_of_neg (by rw [hu]; exact Bool.false_ne_true), hout, List.nil_append,
        ih ((next_cfg L u).trans hcfg) (hnext.trans hb)]

/-- While a key is blocked an attempt is told the remaining wait and changes nothing. -/
theorem take_blocked (h : now < (L.bucket key).blockedUntil) :
    L.take now key = (L, some ((L.bucket key).blockedUntil - now)) := by
  rw [take_eq, Bucket.attempt_of_blocked h]
  have hget : L.buckets.get key = some (L.bucket key) := by
    cases hb : L.buckets.get key with
    | none =>
      -- a key without a bucket is not blocked
      rw [bucket, hb] at h
      exact absurd h (Nat.not_lt_zero now)
    | some b => rw [bucket, hb, Option.getD_some]
  rw [InsertionMap.set_get_self hget]

/-- **The limits of a key**, from when it has no bucket until it is cleared or swept.  Every half-open
interval as long as the window holds at most `burst` attempts that were let through; while the key is
blocked an attempt is told the remaining wait and changes nothing; the backoffs double up to their
maximum, so they never decrease; and what other keys do has no effect. -/
theorem attempts_limited (L : RateLimiter) (key : String) (us : List Use)
    (hnone : L.buckets.get key = none) (hclock : Forward Use.time 0 us)
    (hspares : machine.Along (Spares key) L us) :
    SlidingWindow.Capped L.cfg.windowMs L.cfg.burst (allowed key (machine.trace L us)) ∧
    (∀ pre now key' post, us = pre ++ .take now key' :: post →
      now < ((machine.exec L pre).bucket key').blockedUntil →
      (machine.exec L pre).take now key' =
        (machine.exec L pre, some (((machine.exec L pre).bucket key').blockedUntil - now))) ∧
    backoffs key (machine.trace L us) =
      (List.range (backoffs key (machine.trace L us)).length).map (fun k =>
        min (L.cfg.baseBackoffMs * 2 ^ k) L.cfg.maxBackoffMs) ∧
    (backoffs key (machine.trace L us)).Pairwise (· ≤ ·) ∧
    attemptsOf key (machine.trace L us) =
      attemptsOf key (machine.trace L (us.filter (Use.concerns key))) := by
  have hnew : L.bucket key = ⟨[], 0, 0⟩ := by rw [bucket, hnone, Option.getD_none]
  have hstanding : Standing L.cfg 0 [] 0 (L.bucket key) := by
    rw [hnew]
    exact standing_new
  obtain ⟨hcapped, hbackoffs⟩ := standing_trace rfl hstanding hclock hspares
  rw [List.nil_append] at hcapped
  rw [← List.range_eq_range'] at hbackoffs
  refine ⟨hcapped, fun pre now key' post _ hblocked => take_blocked hblocked, hbackoffs, ?_,
    attemptsOf_trace rfl rfl⟩
  rw [hbackoffs, List.pairwise_map]
  exact List.pairwise_lt_range.imp fun hlt => L.cfg.backoff_mono (Nat.le_of_lt hlt)

/-- Two keys of a small limiter: one overflows twice while the other one comes and goes. -/
theorem attempts_limited_twoKeys :
    let L : RateLimiter := .new ⟨2, 1000, 100, 150⟩
    let us : List Use := [.take 0 "a", .take 5 "b", .take 10 "a", .take 20 "a", .clear "b",
      .take 60 "a", .sweep 90, .take 120 "a", .take 2000 "a"]
    SlidingWindow.Capped 1000 2 (allowed "a" (machine.trace L us)) ∧
    backoffs "a" (machine.trace L us) = [100, 150] := by
  intro L us
  have h := attempts_limited L "a" us rfl (by decide) (by decide)
  exact ⟨h.1, by decide⟩

end ScreenSharing.Signaling.RateLimiter
