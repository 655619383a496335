import Mathlib.Data.List.TakeWhile
import ScreenSharing.Net.Dial

/-!
# Giving up in time

What `openWithRetry` makes of the failures of its attempts (`failures`): it goes on after a failure that may
be retried, as long as the budget lasts, and throws the first other one; the user is told once that the relay
is being woken (`gives_up_iff`).

Against the clock (`clocked`), where the timers of an attempt and the one of the back-off fire when they are
due, or at most `lag` later, this bounds the number of attempts and the time until the promise is settled
(`settles_in_time`).
-/

namespace ScreenSharing.Net.Dial

open Lib Relay

variable {opts : OpenWithRetryOptions} {role : Role} {D : Dial}

/-- What `catch` gets, and when. -/
def failure (D : Dial) : Event → Option (DialError × ℕ)
  | .connectFailed now => some (.refused, now)
  | .connectTimeout now => some (.connectTimeout, now)
  | .reject i reason now => if D.pendingOpen i then some (.rejected reason, now) else none
  | .closed i now => if D.pendingOpen i then some (.closedBeforeReady, now) else none
  | .readyTimeout now => some (.neverReady, now)
  | .connected | .ready _ | .wake => none

/-- The failures of a run. -/
def failures (opts : OpenWithRetryOptions) (role : Role) (D : Dial) (es : List Event) :
    List (DialError × ℕ) :=
  (dial opts role).induced (fun D e => (failure D e).toList) D es

/-- Another attempt is made after this failure. -/
def retries (deadline : ℕ) (f : DialError × ℕ) : Bool :=
  isRetriableRelayError f.1 && decide (f.2 < deadline)

theorem retries_iff {deadline now : ℕ} {error : DialError} :
    retries deadline (error, now) = true ↔ isRetriableRelayError error = true ∧ now < deadline := by
  simp [retries]

/-- An attempt is under way, or has succeeded. -/
def Trying (D : Dial) : Prop := D.phase = .connecting ∨ D.phase = .waiting ∨ D.phase = .returned

/-! ### One event -/

/-- What `catch` leaves alone. -/
structure Keeps (D D' : Dial) : Prop where
  attempt : D'.attempt = D.attempt
  notified : D'.notified = D.notified
  deadline : D'.deadline = D.deadline

/-- **A failure** goes to `catch`. -/
theorem react_failure (opts : OpenWithRetryOptions) (role : Role) (e : Event) {error : DialError} {now : ℕ} (h : failure D e = some (error, now)) :
    ∃ D' : Dial, Keeps D D' ∧ react opts role D e = D'.caught opts error now := by
  cases e with
  | connectFailed now' =>
    obtain ⟨rfl, rfl⟩ : DialError.refused = error ∧ now' = now := by simpa [failure] using h
    exact ⟨D.setWs D.attempt .failed, ⟨rfl, rfl, rfl⟩, rfl⟩
  | connectTimeout now' =>
    obtain ⟨rfl, rfl⟩ : DialError.connectTimeout = error ∧ now' = now := by simpa [failure] using h
    exact ⟨D.setWs D.attempt .closedByClient, ⟨rfl, rfl, rfl⟩, rfl⟩
  | reject i reason now' =>
    obtain ⟨hpending, rfl, rfl⟩ : D.pendingOpen i = true ∧ DialError.rejected reason = error ∧ now' = now := by
      simpa [failure] using h
    exact ⟨D.setWs i .closedByRelay, ⟨rfl, rfl, rfl⟩, by simp [react, hpending]⟩
  | closed i now' =>
    obtain ⟨hpending, rfl, rfl⟩ : D.pendingOpen i = true ∧ DialError.closedBeforeReady = error ∧ now' = now := by
      simpa [failure] using h
    exact ⟨D.setWs i .closedByRelay, ⟨rfl, rfl, rfl⟩, by simp [react, hpending]⟩
  | readyTimeout now' =>
    obtain ⟨rfl, rfl⟩ : DialError.neverReady = error ∧ now' = now := by simpa [failure] using h
    exact ⟨D, ⟨rfl, rfl, rfl⟩, rfl⟩
  | connected => simp [failure] at h
  | ready i => simp [failure] at h
  | wake => simp [failure] at h

/-- What an event other than a failure does to the variables of `openWithRetry`. -/
inductive Quiet (e : Event) (D D' : Dial) : Prop
  | idle (keeps : Keeps D D') (phase : D'.phase = D.phase)
  | answered (keeps : Keeps D D') (before : D.phase = .waiting) (phase : D'.phase = .returned)
  | opened (keeps : Keeps D D') (before : D.phase = .connecting) (phase : D'.phase = .waiting)
  | redialed (delay : ℕ) (event : e = .wake) (before : D.phase = .backoff delay) (phase : D'.phase = .connecting)
      (attempt : D'.attempt = D.attempt + 1) (notified : D'.notified = D.notified)
      (deadline : D'.deadline = D.deadline)

/-- **Any other event** tells nobody anything. -/
theorem react_quiet (opts : OpenWithRetryOptions) (role : Role) (e : Event) (he : D.Enabled e)
    (h : failure D e = none) :
    Quiet e D (react opts role D e).1 ∧ Output.onWaking ∉ (react opts role D e).2 := by
  cases e with
  | connected => exact ⟨.opened ⟨rfl, rfl, rfl⟩ he rfl, by simp [react]⟩
  | ready i =>
    cases hpending : D.pendingOpen i with
    | true =>
      have hreact : react opts role D (.ready i) = ({ D with phase := .returned }, []) := by
        simp [react, hpending]
      rw [hreact]
      exact ⟨.answered ⟨rfl, rfl, rfl⟩ (pendingOpen_iff.1 hpending).1 rfl, List.not_mem_nil⟩
    | false =>
      have hreact : react opts role D (.ready i) = (D, []) := by simp [react, hpending]
      rw [hreact]
      exact ⟨.idle ⟨rfl, rfl, rfl⟩ rfl, List.not_mem_nil⟩
  | reject i reason now =>
    have hpending : D.pendingOpen i = false := by simpa [failure] using h
    have hreact : react opts role D (.reject i reason now) = (D.setWs i .closedByRelay, []) := by
      simp [react, hpending]
    rw [hreact]
    exact ⟨.idle ⟨rfl, rfl, rfl⟩ rfl, List.not_mem_nil⟩
  | closed i now =>
    have hpending : D.pendingOpen i = false := by simpa [failure] using h
    have hreact : react opts role D (.closed i now) = (D.setWs i .closedByRelay, []) := by
      simp [react, hpending]
    rw [hreact]
    exact ⟨.idle ⟨rfl, rfl, rfl⟩ rfl, List.not_mem_nil⟩
  | wake =>
    obtain ⟨delay, hdelay⟩ := he
    exact ⟨.redialed delay rfl hdelay rfl rfl rfl rfl, List.not_mem_nil⟩
  | connectFailed now => cases h
  | connectTimeout now => cases h
  | readyTimeout now => cases h

/-- A failure comes while an attempt is under way. -/
theorem trying_of_failure {e : Event} (he : D.Enabled e) {f : DialError × ℕ} (h : failure D e = some f) :
    D.phase = .connecting ∨ D.phase = .waiting := by
  have hpending : ∀ i, D.pendingOpen i = true → D.phase = .connecting ∨ D.phase = .waiting :=
    fun i hi => .inr (pendingOpen_iff.1 hi).1
  cases e with
  | connectFailed now => exact .inl he
  | connectTimeout now => exact .inl he
  | readyTimeout now => exact .inr he
  | reject i reason now =>
    apply hpending i
    by_contra hi
    simp [failure, hi] at h
  | closed i now =>
    apply hpending i
    by_contra hi
    simp [failure, hi] at h
  | connected => cases h
  | ready i => cases h
  | wake => cases h

/-- The two ways out of `catch`. -/
theorem caught_retries (opts : OpenWithRetryOptions) (error : DialError) (now : ℕ) (h : retries D.deadline (error, now) = true) :
    (D.caught opts error now).1 =
        { D with
          phase := .backoff (min (1500 * D.attempt) 6000)
          notified := D.notified || decide (opts.wakingAfterAttempts ≤ D.attempt) } ∧
      (D.caught opts error now).2 =
        if D.notified = false ∧ opts.wakingAfterAttempts ≤ D.attempt then [.onWaking] else [] := by
  obtain ⟨hretriable, hnow⟩ := retries_iff.1 h
  have hgoes : ¬ (isRetriableRelayError error = false ∨ D.deadline ≤ now) := by
    rintro (hfatal | hlate)
    · rw [hretriable] at hfatal
      cases hfatal
    · omega
  unfold caught
  rw [if_neg hgoes]
  cases D.notified <;> simp

theorem caught_gives_up (opts : OpenWithRetryOptions) (error : DialError) (now : ℕ) (h : retries D.deadline (error, now) = false) :
    D.caught opts error now = ({ D with phase := .thrown error }, []) := by
  have hends : isRetriableRelayError error = false ∨ D.deadline ≤ now := by
    cases hretriable : isRetriableRelayError error with
    | false => exact .inl rfl
    | true =>
      refine .inr ?_
      simpa [retries, hretriable] using h
  unfold caught
  rw [if_pos hends]

/-! ### The failures of a run -/

/-- What is known after the failures `fs` and the outputs `out`. -/
structure Told (opts : OpenWithRetryOptions) (deadline : ℕ) (D : Dial) (fs : List (DialError × ℕ))
    (out : List Output) : Prop where
  until_deadline : D.deadline = deadline
  notified : D.notified = true ↔
    0 < (fs.takeWhile (retries deadline)).length ∧
      opts.wakingAfterAttempts ≤ (fs.takeWhile (retries deadline)).length
  count : out.count .onWaking = D.notified.toNat
  /-- all failures were retried, or the last one was thrown -/
  phase : (fs.takeWhile (retries deadline) = fs ∧
      ((D.Trying ∧ D.attempt = fs.length + 1) ∨
        (fs ≠ [] ∧ D.phase = .backoff (min (1500 * D.attempt) 6000) ∧ D.attempt = fs.length))) ∨
    ∃ error now, D.phase = .thrown error ∧ retries deadline (error, now) = false ∧
      fs = fs.takeWhile (retries deadline) ++ [(error, now)] ∧ D.attempt = fs.length

theorem takeWhile_snoc_pos {α : Type*} {p : α → Bool} {xs : List α} {x : α} (hxs : xs.takeWhile p = xs)
    (hx : p x = true) : (xs ++ [x]).takeWhile p = xs ++ [x] := by
  apply List.takeWhile_eq_self_iff.2
  intro y hy
  rcases List.mem_append.1 hy with hy | hy
  · exact List.takeWhile_eq_self_iff.1 hxs y hy
  · rw [List.mem_singleton.1 hy]
    exact hx

theorem takeWhile_snoc_neg {α : Type*} {p : α → Bool} {xs : List α} {x : α} (hxs : xs.takeWhile p = xs)
    (hx : p x = false) : (xs ++ [x]).takeWhile p = xs := by
  rw [List.takeWhile_append, if_pos (by rw [hxs])]
  simp [hx]

theorem told_failure {deadline : ℕ} {fs : List (DialError × ℕ)} {out : List Output}
    (h : Told opts deadline D fs out) {e : Event} (he : D.Enabled e) {error : DialError} {now : ℕ}
    (hfailure : failure D e = some (error, now)) :
    Told opts deadline (react opts role D e).1 (fs ++ [(error, now)])
      (out ++ (react opts role D e).2) := by
  obtain ⟨D', hkeeps, hreact⟩ := react_failure opts role e hfailure
  obtain ⟨hfs, hattempt⟩ : fs.takeWhile (retries deadline) = fs ∧ D.attempt = fs.length + 1 := by
    have hphase := trying_of_failure he hfailure
    rcases h.phase with ⟨hfs, ⟨-, hattempt⟩ | ⟨-, hbackoff, -⟩⟩ | ⟨error', now', hthrown, -⟩
    · exact ⟨hfs, hattempt⟩
    · rw [hbackoff] at hphase
      simp at hphase
    · rw [hthrown] at hphase
      simp at hphase
  have hdeadline : D'.deadline = deadline := hkeeps.deadline.trans h.until_deadline
  have hattempt' : D'.attempt = fs.length + 1 := hkeeps.attempt.trans hattempt
  have hnotified' : D'.notified = true ↔ 0 < fs.length ∧ opts.wakingAfterAttempts ≤ fs.length := by
    rw [hkeeps.notified, h.notified, hfs]
  rw [hreact]
  cases hretries : retries deadline (error, now) with
  | true =>
    obtain ⟨hstate, hout⟩ := caught_retries (D := D') opts error now (hdeadline ▸ hretries)
    have hall := takeWhile_snoc_pos hfs hretries
    rw [hstate, hout]
    refine ⟨hdeadline, ?_, ?_, .inl ⟨hall, .inr ⟨by simp, rfl, ?_⟩⟩⟩
    · rw [hall, List.length_append, List.length_singleton]
      show (D'.notified || decide (opts.wakingAfterAttempts ≤ D'.attempt)) = true ↔ _
      rw [Bool.or_eq_true, hnotified', decide_eq_true_iff, hattempt']
      omega
    · have hcount : out.count .onWaking = D'.notified.toNat := by rw [h.count, hkeeps.notified]
      rw [List.count_append, hcount]
      cases hn : D'.notified with
      | true => simp
      | false => by_cases hw : opts.wakingAfterAttempts ≤ D'.attempt <;> simp [hw]
    · show D'.attempt = _
      rw [hattempt', List.length_append, List.length_singleton]
  | false =>
    rw [caught_gives_up (D := D') opts error now (hdeadline ▸ hretries)]
    have hall := takeWhile_snoc_neg hfs hretries
    refine ⟨hdeadline, ?_, ?_, .inr ⟨error, now, rfl, hretries, ?_, ?_⟩⟩
    · rw [hall]
      exact hnotified'
    · rw [List.append_nil, h.count, ← hkeeps.notified]
    · rw [hall]
    · show D'.attempt = _
      rw [hattempt', List.length_append, List.length_singleton]

theorem told_quiet {deadline : ℕ} {fs : List (DialError × ℕ)} {out out' : List Output} {D' : Dial}
    {e : Event} (h : Told opts deadline D fs out) (hquiet : Quiet e D D') (hout : Output.onWaking ∉ out') :
    Told opts deadline D' fs (out ++ out') := by
  have hcount : (out ++ out').count .onWaking = D.notified.toNat := by
    rw [List.count_append, List.count_eq_zero.2 hout, h.count, Nat.add_zero]
  have htrying : ∀ {phase}, D.phase = phase → phase = .connecting ∨ phase = .waiting →
      fs.takeWhile (retries deadline) = fs ∧ D.attempt = fs.length + 1 := by
    rintro phase rfl hphase
    rcases h.phase with ⟨hfs, ⟨-, hattempt⟩ | ⟨-, hbackoff, -⟩⟩ | ⟨error', now', hthrown, -⟩
    · exact ⟨hfs, hattempt⟩
    · rw [hbackoff] at hphase
      simp at hphase
    · rw [hthrown] at hphase
      simp at hphase
  cases hquiet with
  | idle keeps phase =>
    refine ⟨keeps.deadline.trans h.until_deadline, keeps.notified ▸ h.notified, keeps.notified ▸ hcount, ?_⟩
    unfold Trying
    rw [phase, keeps.attempt]
    exact h.phase
  | answered keeps before phase =>
    obtain ⟨hfs, hattempt⟩ := htrying before (.inr rfl)
    refine ⟨keeps.deadline.trans h.until_deadline, keeps.notified ▸ h.notified, keeps.notified ▸ hcount, ?_⟩
    exact .inl ⟨hfs, .inl ⟨.inr (.inr phase), keeps.attempt.trans hattempt⟩⟩
  | opened keeps before phase =>
    obtain ⟨hfs, hattempt⟩ := htrying before (.inl rfl)
    refine ⟨keeps.deadline.trans h.until_deadline, keeps.notified ▸ h.notified, keeps.notified ▸ hcount, ?_⟩
    exact .inl ⟨hfs, .inl ⟨.inr (.inl phase), keeps.attempt.trans hattempt⟩⟩
  | redialed delay event before phase attempt notified deadline' =>
    refine ⟨deadline'.trans h.until_deadline, notified ▸ h.notified, notified ▸ hcount, ?_⟩
    rcases h.phase with ⟨hfs, ⟨htrying', -⟩ | ⟨-, -, hattempt⟩⟩ | ⟨error', now', hthrown, -⟩
    · unfold Trying at htrying'
      rw [before] at htrying'
      simp at htrying'
    · exact .inl ⟨hfs, .inl ⟨.inl phase, by rw [attempt, hattempt]⟩⟩
    · rw [before] at hthrown
      cases hthrown

theorem told_exec {deadline : ℕ} (es : List Event) : ∀ {D : Dial} {fs : List (DialError × ℕ)}
    {out : List Output}, (dial opts role).Valid D es → Told opts deadline D fs out →
    Told opts deadline ((dial opts role).exec D es) (fs ++ failures opts role D es)
      (out ++ (dial opts role).trace D es) := by
  induction es with
  | nil =>
    intro D fs out _ h
    simpa [failures, Machine.induced, Machine.trace] using h
  | cons e es ih =>
    intro D fs out hvalid h
    have hnext : Told opts deadline ((dial opts role).next D e) (fs ++ (failure D e).toList)
        (out ++ (dial opts role).out D e) := by
      cases hfailure : failure D e with
      | none =>
        rw [Option.toList_none, List.append_nil]
        obtain ⟨hquiet, hout⟩ := react_quiet opts role e hvalid.1 hfailure
        exact told_quiet h hquiet hout
      | some f =>
        obtain ⟨error, now⟩ := f
        exact told_failure h hvalid.1 hfailure
    have hrest := ih hvalid.2 hnext
    rwa [List.append_assoc, List.append_assoc] at hrest

theorem told_start (opts : OpenWithRetryOptions) (now : ℕ) :
    Told opts (now + opts.budgetMs) (start opts now) [] [] :=
  ⟨rfl, by simp [start], rfl, .inl ⟨rfl, .inl ⟨.inl rfl, rfl⟩⟩⟩

/-- **When `openWithRetry` gives up.**  It throws the first failure that is fatal, or comes when the budget is
spent, and no other; until then every failure is followed by another attempt, and the user is told that the
relay is being woken once, by the first failure that is retried after enough attempts. -/
theorem gives_up_iff (opts : OpenWithRetryOptions) (role : Role) (now : ℕ) (es : List Event)
    (hvalid : (dial opts role).Valid (start opts now) es) :
    (∀ error, ((dial opts role).exec (start opts now) es).phase = .thrown error ↔
        ∃ late, (failures opts role (start opts now) es).dropWhile (retries (now + opts.budgetMs)) =
          [(error, late)]) ∧
      ((dial opts role).exec (start opts now) es).attempt ≤
        ((failures opts role (start opts now) es).takeWhile (retries (now + opts.budgetMs))).length + 1 ∧
      ((dial opts role).trace (start opts now) es).count .onWaking =
        if max 1 opts.wakingAfterAttempts ≤
          ((failures opts role (start opts now) es).takeWhile (retries (now + opts.budgetMs))).length
        then 1 else 0 := by
  have htold := told_exec es hvalid (told_start opts now)
  rw [List.nil_append, List.nil_append] at htold
  generalize (dial opts role).exec (start opts now) es = D at htold ⊢
  generalize failures opts role (start opts now) es = fs at htold ⊢
  generalize (dial opts role).trace (start opts now) es = out at htold ⊢
  refine ⟨fun error => ?_, ?_, ?_⟩
  · have hsplit := List.takeWhile_append_dropWhile (p := retries (now + opts.budgetMs)) (l := fs)
    rcases htold.phase with ⟨hfs, hphase⟩ | ⟨error', now', hthrown, -, hfs, -⟩
    · have hnone : fs.dropWhile (retries (now + opts.budgetMs)) = [] := by
        rw [hfs] at hsplit
        simpa using hsplit
      rw [hnone]
      constructor
      · intro hthrown
        rcases hphase with ⟨htrying, -⟩ | ⟨-, hbackoff, -⟩
        · unfold Trying at htrying
          rw [hthrown] at htrying
          simp at htrying
        · rw [hthrown] at hbackoff
          cases hbackoff
      · rintro ⟨late, hlate⟩
        cases hlate
    · have hone : fs.dropWhile (retries (now + opts.budgetMs)) = [(error', now')] := by
        exact List.append_cancel_left (hsplit.trans hfs)
      rw [hone, hthrown]
      simp
  · rcases htold.phase with ⟨hfs, ⟨-, hattempt⟩ | ⟨-, -, hattempt⟩⟩ | ⟨error', now', -, -, hfs, hattempt⟩
    · rw [hfs]
      omega
    · rw [hfs]
      omega
    · have hlength := congrArg List.length hfs
      rw [List.length_append, List.length_singleton] at hlength
      omega
  · rw [htold.count]
    cases hnotified : D.notified with
    | true =>
      have hwaking := htold.notified.1 hnotified
      rw [if_pos (by omega)]
      rfl
    | false =>
      have hquiet : ¬ (0 < (fs.takeWhile (retries (now + opts.budgetMs))).length ∧
          opts.wakingAfterAttempts ≤ (fs.takeWhile (retries (now + opts.budgetMs))).length) := by
        rw [← htold.notified, hnotified]
        simp
      rw [if_neg (by omega)]
      rfl

/-- The relay wakes up during the first attempts; then it turns out that there is no such room. -/
def staleCodeRun : List Event :=
  [.connectFailed 100, .wake, .connected, .closed 2 1700, .wake, .connected, .reject 3 .noSuchRoom 4900]

/-- The second failure makes the user wait, the third one is final. -/
theorem gives_up_staleCodeRun :
    ((dial {} .peer).exec (start {} 0) staleCodeRun).phase = .thrown (.rejected .noSuchRoom) ∧
      ((dial {} .peer).trace (start {} 0) staleCodeRun).count .onWaking = 1 := by
  obtain ⟨hthrown, -, hwaking⟩ := gives_up_iff {} .peer 0 staleCodeRun
    ⟨rfl, ⟨_, rfl⟩, rfl, rfl, ⟨_, rfl⟩, rfl, rfl, trivial⟩
  exact ⟨(hthrown _).2 ⟨4900, by decide⟩, hwaking.trans (by decide)⟩

/-! ### Against the clock -/

/-- `OPEN_TIMEOUT_MS`, of `connectWs` and of `waitPendingOpen`. -/
def openTimeout : ℕ := 12000

/-- How long after the start of a phase its timer is due. -/
def due : DialPhase → Option ℕ
  | .connecting | .waiting => some openTimeout
  | .backoff delay => some delay
  | .returned | .thrown _ => none

/-- Is it a timer that fires? -/
def isTimer : Event → Bool
  | .connectTimeout _ | .readyTimeout _ | .wake => true
  | _ => false

/-- What an event reads off the clock. -/
def clock? : Event → Option ℕ
  | .connectFailed now | .connectTimeout now | .reject _ _ now | .closed _ now | .readyTimeout now => some now
  | .connected | .ready _ | .wake => none

/-- An event, and when it happens. -/
structure Timed where
  event : Event
  now : ℕ

/-- `since` is when the phase was entered, `last` when the last event happened. -/
structure Clocked where
  dial : Dial
  since : ℕ
  last : ℕ

/-- The timer of the phase does not fire before it is due, and nothing happens once it is overdue by more than
`lag`. -/
structure Clocked.Enabled (lag : ℕ) (C : Clocked) (e : Timed) : Prop where
  event : C.dial.Enabled e.event
  clock : (clock? e.event).getD e.now = e.now
  forward : C.last ≤ e.now
  timer : isTimer e.event = true → C.since + (due C.dial.phase).getD 0 ≤ e.now
  punctual : ∀ d, due C.dial.phase = some d → e.now ≤ C.since + d + lag

/-- `openWithRetry` and the clock. -/
def clocked (opts : OpenWithRetryOptions) (role : Role) (lag : ℕ) : Machine Clocked Timed Output where
  enabled := Clocked.Enabled lag
  step C e :=
    let r := react opts role C.dial e.event
    (⟨r.1, if r.1.phase = C.dial.phase then C.since else e.now, e.now⟩, r.2)

def Clocked.start (opts : OpenWithRetryOptions) (now : ℕ) : Clocked := ⟨Dial.start opts now, now, now⟩

/-- All the back-offs after the first `n` attempts together. -/
def waited : ℕ → ℕ
  | 0 => 0
  | n + 1 => waited n + min (1500 * (n + 1)) 6000

theorem le_waited (n : ℕ) : 6000 * n ≤ waited n + 9000 := by
  induction n with
  | zero => exact Nat.zero_le _
  | succ n ih =>
    rcases n with _ | _ | _ | n
    · decide
    · decide
    · decide
    · have hprev : 6000 * (n + 3) ≤ waited (n + 3) + 9000 := ih
      show 6000 * (n + 3 + 1) ≤ waited (n + 3) + min (1500 * (n + 3 + 1)) 6000 + 9000
      omega

/-- No attempt begins later than this. -/
def latestDial (opts : OpenWithRetryOptions) (begin lag : ℕ) : ℕ := begin + opts.budgetMs + 6000 + lag

/-- Where the clock stands. -/
structure OnTime (opts : OpenWithRetryOptions) (begin lag : ℕ) (C : Clocked) : Prop where
  attempts : 1 ≤ C.dial.attempt
  until_deadline : C.dial.deadline = begin + opts.budgetMs
  began : begin + waited (C.dial.attempt - 1) ≤ C.since
  since_le : C.since ≤ C.last
  /-- the failure before this attempt was in time -/
  budget : C.dial.attempt = 1 ∨ waited (C.dial.attempt - 2) < opts.budgetMs
  punctual : ∀ d, due C.dial.phase = some d → C.last ≤ C.since + d + lag
  connecting : C.dial.phase = .connecting → C.since ≤ latestDial opts begin lag
  waiting : C.dial.phase = .waiting → C.since ≤ latestDial opts begin lag + openTimeout + lag
  backoff : ∀ delay, C.dial.phase = .backoff delay →
    delay = min (1500 * C.dial.attempt) 6000 ∧ C.since < begin + opts.budgetMs

section Clocked

variable {begin lag : ℕ} {C : Clocked}

/-- While the promise is not settled, nothing happens later than this. -/
theorem now_le_of_unsettled (h : OnTime opts begin lag C) (hsettled : ¬ C.dial.Settled) {e : Timed}
    (he : C.Enabled lag e) :
    e.now ≤ latestDial opts begin lag + 2 * (openTimeout + lag) := by
  unfold latestDial at *
  cases hphase : C.dial.phase with
  | connecting =>
    have hsince := h.connecting hphase
    have hnow := he.punctual openTimeout (by rw [hphase]; rfl)
    unfold latestDial at hsince
    omega
  | waiting =>
    have hsince := h.waiting hphase
    have hnow := he.punctual openTimeout (by rw [hphase]; rfl)
    unfold latestDial at hsince
    omega
  | backoff delay =>
    obtain ⟨hdelay, hsince⟩ := h.backoff delay hphase
    have hnow := he.punctual delay (by rw [hphase]; rfl)
    omega
  | returned => exact absurd (.inl hphase) hsettled
  | thrown error => exact absurd (.inr ⟨error, hphase⟩) hsettled

/-- A failure does not come before the attempt began. -/
theorem began_le_failure (h : OnTime opts begin lag C) {e : Timed} (he : C.Enabled lag e) :
    begin + waited (C.dial.attempt - 1) ≤ e.now :=
  h.began.trans (h.since_le.trans he.forward)

theorem clock?_of_failure {e : Event} {error : DialError} {now : ℕ}
    (h : failure D e = some (error, now)) : clock? e = some now := by
  cases e with
  | connectFailed now' => simp_all [failure, clock?]
  | connectTimeout now' => simp_all [failure, clock?]
  | reject i reason now' => simp_all [failure, clock?]
  | closed i now' => simp_all [failure, clock?]
  | readyTimeout now' => simp_all [failure, clock?]
  | connected => cases h
  | ready i => cases h
  | wake => cases h

theorem onTime_failure (h : OnTime opts begin lag C) {e : Timed} (he : C.Enabled lag e)
    {error : DialError} {now : ℕ} (hfailure : failure C.dial e.event = some (error, now)) :
    OnTime opts begin lag ((clocked opts role lag).next C e) := by
  obtain ⟨D', hkeeps, hreact⟩ := react_failure opts role e.event hfailure
  obtain rfl : now = e.now := by
    have hclock := he.clock
    rw [clock?_of_failure hfailure] at hclock
    exact hclock
  have hphase := trying_of_failure he.event hfailure
  have hbegan := began_le_failure h he
  have hdeadline : D'.deadline = begin + opts.budgetMs := hkeeps.deadline.trans h.until_deadline
  have hattempts := h.attempts
  show OnTime opts begin lag ⟨(react opts role C.dial e.event).1,
    if (react opts role C.dial e.event).1.phase = C.dial.phase then C.since else e.now, e.now⟩
  rw [hreact]
  cases hretries : retries D'.deadline (error, e.now) with
  | true =>
    obtain ⟨hstate, -⟩ := caught_retries (D := D') opts error e.now hretries
    have hnow : e.now < begin + opts.budgetMs := hdeadline ▸ (retries_iff.1 hretries).2
    have hmoved : (D'.caught opts error e.now).1.phase ≠ C.dial.phase := by
      rw [hstate]
      rcases hphase with hphase | hphase <;> rw [hphase] <;> exact fun heq => by cases heq
    rw [if_neg hmoved, hstate]
    refine ⟨?_, hdeadline, ?_, Nat.le_refl _, ?_, ?_, ?_, ?_, ?_⟩
    · show 1 ≤ D'.attempt
      rw [hkeeps.attempt]
      exact hattempts
    · show begin + waited (D'.attempt - 1) ≤ e.now
      rw [hkeeps.attempt]
      exact hbegan
    · show D'.attempt = 1 ∨ waited (D'.attempt - 2) < opts.budgetMs
      rw [hkeeps.attempt]
      exact h.budget
    · intro d _
      show e.now ≤ e.now + d + lag
      omega
    · intro hconnecting
      cases hconnecting
    · intro hwaiting
      cases hwaiting
    · intro delay hdelay
      injection hdelay with hdelay
      exact ⟨hdelay.symm, hnow⟩
  | false =>
    rw [caught_gives_up (D := D') opts error e.now hretries]
    have hmoved : DialPhase.thrown error ≠ C.dial.phase := by
      rcases hphase with hphase | hphase <;> rw [hphase] <;> exact fun heq => by cases heq
    rw [if_neg hmoved]
    refine ⟨?_, hdeadline, ?_, Nat.le_refl _, ?_, ?_, ?_, ?_, ?_⟩
    · show 1 ≤ D'.attempt
      rw [hkeeps.attempt]
      exact hattempts
    · show begin + waited (D'.attempt - 1) ≤ e.now
      rw [hkeeps.attempt]
      exact hbegan
    · show D'.attempt = 1 ∨ waited (D'.attempt - 2) < opts.budgetMs
      rw [hkeeps.attempt]
      exact h.budget
    · intro d hd
      cases hd
    · intro hconnecting
      cases hconnecting
    · intro hwaiting
      cases hwaiting
    · intro delay hdelay
      cases hdelay

/-- Nothing changes. -/
theorem onTime_idle (h : OnTime opts begin lag C) {e : Timed} (he : C.Enabled lag e) {D' : Dial}
    (keeps : Keeps C.dial D') (phase : D'.phase = C.dial.phase) :
    OnTime opts begin lag ⟨D', C.since, e.now⟩ := by
  have hforward := h.since_le.trans he.forward
  refine ⟨?_, keeps.deadline.trans h.until_deadline, ?_, hforward, ?_, ?_, ?_, ?_, ?_⟩
  · exact keeps.attempt.symm ▸ h.attempts
  · exact keeps.attempt.symm ▸ h.began
  · exact keeps.attempt.symm ▸ h.budget
  · intro d hd
    exact he.punctual d (phase ▸ hd)
  · intro hconnecting
    exact h.connecting (phase ▸ hconnecting)
  · intro hwaiting
    exact h.waiting (phase ▸ hwaiting)
  · intro delay hdelay
    rw [show (Clocked.mk D' C.since e.now).dial.attempt = C.dial.attempt from keeps.attempt]
    exact h.backoff delay (phase ▸ hdelay)

/-- The link is returned. -/
theorem onTime_answered (h : OnTime opts begin lag C) {e : Timed} (he : C.Enabled lag e) {D' : Dial}
    (keeps : Keeps C.dial D') (phase : D'.phase = .returned) :
    OnTime opts begin lag ⟨D', e.now, e.now⟩ := by
  have hforward := h.since_le.trans he.forward
  refine ⟨?_, keeps.deadline.trans h.until_deadline, ?_, Nat.le_refl _, ?_, ?_, ?_, ?_, ?_⟩
  · exact keeps.attempt.symm ▸ h.attempts
  · exact keeps.attempt.symm ▸ h.began.trans hforward
  · exact keeps.attempt.symm ▸ h.budget
  · intro d hd
    rw [show (Clocked.mk D' e.now e.now).dial.phase = .returned from phase] at hd
    cases hd
  · intro hconnecting
    rw [show D'.phase = .connecting from hconnecting] at phase
    cases phase
  · intro hwaiting
    rw [show D'.phase = .waiting from hwaiting] at phase
    cases phase
  · intro delay hdelay
    rw [show D'.phase = .backoff delay from hdelay] at phase
    cases phase

/-- The WebSocket is open, and HELLO is answered within a timeout. -/
theorem onTime_opened (h : OnTime opts begin lag C) {e : Timed} (he : C.Enabled lag e) {D' : Dial}
    (keeps : Keeps C.dial D') (before : C.dial.phase = .connecting) (phase : D'.phase = .waiting) :
    OnTime opts begin lag ⟨D', e.now, e.now⟩ := by
  have hforward := h.since_le.trans he.forward
  have hnow := he.punctual openTimeout (by rw [before]; rfl)
  have hsince := h.connecting before
  refine ⟨?_, keeps.deadline.trans h.until_deadline, ?_, Nat.le_refl _, ?_, ?_, ?_, ?_, ?_⟩
  · exact keeps.attempt.symm ▸ h.attempts
  · exact keeps.attempt.symm ▸ h.began.trans hforward
  · exact keeps.attempt.symm ▸ h.budget
  · intro d _
    show e.now ≤ e.now + d + lag
    omega
  · intro hconnecting
    rw [show D'.phase = .connecting from hconnecting] at phase
    cases phase
  · intro _
    show e.now ≤ latestDial opts begin lag + openTimeout + lag
    omega
  · intro delay hdelay
    rw [show D'.phase = .backoff delay from hdelay] at phase
    cases phase

/-- The delay is over, and the next attempt begins. -/
theorem onTime_redialed (h : OnTime opts begin lag C) {e : Timed} (he : C.Enabled lag e) {D' : Dial}
    {delay : ℕ} (event : e.event = .wake) (before : C.dial.phase = .backoff delay)
    (phase : D'.phase = .connecting) (attempt : D'.attempt = C.dial.attempt + 1)
    (deadline : D'.deadline = C.dial.deadline) : OnTime opts begin lag ⟨D', e.now, e.now⟩ := by
  have hforward := h.since_le.trans he.forward
  obtain ⟨hdelay, hsince⟩ := h.backoff delay before
  have hnow := he.punctual delay (by rw [before]; rfl)
  have htimer := he.timer (by rw [event]; rfl)
  rw [before] at htimer
  have hbegan := h.began
  have hwaited : waited C.dial.attempt = waited (C.dial.attempt - 1) + delay := by
    obtain ⟨n, hn⟩ : ∃ n, C.dial.attempt = n + 1 := ⟨C.dial.attempt - 1, by have := h.attempts; omega⟩
    rw [hdelay, hn]
    rfl
  refine ⟨?_, deadline.trans h.until_deadline, ?_, Nat.le_refl _, ?_, ?_, ?_, ?_, ?_⟩
  · show 1 ≤ D'.attempt
    omega
  · show begin + waited (D'.attempt - 1) ≤ e.now
    rw [attempt, Nat.add_sub_cancel, hwaited]
    have htimer' : C.since + delay ≤ e.now := htimer
    omega
  · refine .inr ?_
    show waited (D'.attempt - 2) < opts.budgetMs
    rw [attempt, show C.dial.attempt + 1 - 2 = C.dial.attempt - 1 by omega]
    omega
  · intro d _
    show e.now ≤ e.now + d + lag
    omega
  · intro _
    show e.now ≤ latestDial opts begin lag
    unfold latestDial
    omega
  · intro hwaiting
    rw [show D'.phase = .waiting from hwaiting] at phase
    cases phase
  · intro delay' hdelay'
    rw [show D'.phase = .backoff delay' from hdelay'] at phase
    cases phase

theorem onTime_quiet (h : OnTime opts begin lag C) {e : Timed} (he : C.Enabled lag e)
    (hfailure : failure C.dial e.event = none) :
    OnTime opts begin lag ((clocked opts role lag).next C e) := by
  obtain ⟨hquiet, -⟩ := react_quiet opts role e.event he.event hfailure
  show OnTime opts begin lag ⟨(react opts role C.dial e.event).1,
    if (react opts role C.dial e.event).1.phase = C.dial.phase then C.since else e.now, e.now⟩
  generalize (react opts role C.dial e.event).1 = D' at hquiet ⊢
  cases hquiet with
  | idle keeps phase =>
    rw [if_pos phase]
    exact onTime_idle h he keeps phase
  | answered keeps before phase =>
    rw [if_neg (by simp [phase, before])]
    exact onTime_answered h he keeps phase
  | opened keeps before phase =>
    rw [if_neg (by simp [phase, before])]
    exact onTime_opened h he keeps before phase
  | redialed delay event before phase attempt notified deadline =>
    rw [if_neg (by simp [phase, before])]
    exact onTime_redialed h he event before phase attempt deadline

theorem onTime_next (h : OnTime opts begin lag C) {e : Timed} (he : C.Enabled lag e) :
    OnTime opts begin lag ((clocked opts role lag).next C e) := by
  cases hfailure : failure C.dial e.event with
  | none => exact onTime_quiet h he hfailure
  | some f =>
    obtain ⟨error, now⟩ := f
    exact onTime_failure h he hfailure

theorem onTime_start (opts : OpenWithRetryOptions) (begin lag : ℕ) :
    OnTime opts begin lag (.start opts begin) := by
  refine ⟨Nat.le_refl _, rfl, Nat.le_refl _, Nat.le_refl _, .inl rfl, ?_, ?_, ?_, ?_⟩
  · intro d _
    show begin ≤ begin + d + lag
    omega
  · intro _
    show begin ≤ begin + opts.budgetMs + 6000 + lag
    omega
  · intro hwaiting
    cases hwaiting
  · intro delay hdelay
    cases hdelay

/-- **Until the promise is settled there is a timer** that can still fire. -/
theorem exists_enabled (h : OnTime opts begin lag C) (hsettled : ¬ C.dial.Settled) :
    ∃ e, C.Enabled lag e := by
  -- the timer of the phase, when it is due, or right after the last event
  have htimer : ∀ (d : ℕ) (e : ℕ → Event), due C.dial.phase = some d →
      (∀ now, C.dial.Enabled (e now)) → (∀ now, (clock? (e now)).getD now = now) →
      ∃ e, C.Enabled lag e := by
    intro d e hdue hevent hclock
    have hlast := h.punctual d hdue
    refine ⟨⟨e (max C.last (C.since + d)), max C.last (C.since + d)⟩, hevent _, hclock _, ?_, ?_, ?_⟩
    · exact Nat.le_max_left _ _
    · intro _
      rw [hdue]
      exact Nat.le_max_right _ _
    · intro d' hd'
      obtain rfl : d = d' := Option.some.inj (hdue.symm.trans hd')
      show max C.last (C.since + d) ≤ C.since + d + lag
      omega
  cases hphase : C.dial.phase with
  | connecting =>
    exact htimer openTimeout .connectTimeout (by rw [hphase]; rfl) (fun _ => hphase) fun _ => rfl
  | waiting =>
    exact htimer openTimeout .readyTimeout (by rw [hphase]; rfl) (fun _ => hphase) fun _ => rfl
  | backoff delay =>
    exact htimer delay (fun _ => .wake) (by rw [hphase]; rfl) (fun _ => ⟨delay, hphase⟩) fun _ => rfl
  | returned => exact absurd (.inl hphase) hsettled
  | thrown error => exact absurd (.inr ⟨error, hphase⟩) hsettled

/-- **A bounded wait.**  With timers that are at most `lag` late, `openWithRetry` makes a number of attempts
that its budget bounds; until its promise is settled there is a timer that can fire, and that is at most the
last back-off and the two timers of an attempt after the budget is spent. -/
theorem settles_in_time (opts : OpenWithRetryOptions) (role : Role) (begin lag : ℕ) (es : List Timed)
    (hvalid : (clocked opts role lag).Valid (.start opts begin) es) :
    (((clocked opts role lag).exec (.start opts begin) es).dial.attempt = 1 ∨
        6000 * ((clocked opts role lag).exec (.start opts begin) es).dial.attempt <
          opts.budgetMs + 21000) ∧
      (clocked opts role lag).Along
        (fun C e => ¬ C.dial.Settled → e.now ≤ begin + opts.budgetMs + 30000 + 3 * lag)
        (.start opts begin) es ∧
      (¬ ((clocked opts role lag).exec (.start opts begin) es).dial.Settled →
        ∃ e, ((clocked opts role lag).exec (.start opts begin) es).Enabled lag e) := by
  have hkeep : ∀ C e, OnTime opts begin lag C → C.Enabled lag e →
      OnTime opts begin lag ((clocked opts role lag).next C e) := fun C e h he => onTime_next h he
  have hend := Machine.exec_invariant hkeep hvalid (onTime_start opts begin lag)
  refine ⟨?_, ?_, exists_enabled hend⟩
  · have hle := le_waited (((clocked opts role lag).exec (.start opts begin) es).dial.attempt - 2)
    rcases hend.budget with hone | hbudget
    · exact .inl hone
    · refine .inr ?_
      omega
  · apply Machine.along_of_invariant hkeep _ hvalid (onTime_start opts begin lag)
    intro C e h he hsettled
    have hnow := now_le_of_unsettled h hsettled he
    unfold latestDial openTimeout at hnow
    omega

/-- The first attempt is refused, the second one is answered. -/
def answeredRun : List Timed :=
  [⟨.connectFailed 100, 100⟩, ⟨.wake, 1600⟩, ⟨.connected, 1700⟩, ⟨.ready 2, 1800⟩]

theorem settles_answeredRun :
    ((clocked {} .host 0).exec (.start {} 0) answeredRun).dial.attempt = 1 ∨
      6000 * ((clocked {} .host 0).exec (.start {} 0) answeredRun).dial.attempt < 96000 := by
  refine (settles_in_time {} .host 0 0 answeredRun ⟨?_, ?_, ?_, ?_, trivial⟩).1
  · exact ⟨rfl, rfl, by decide, (fun h => by cases h), (fun d h => by cases h; decide)⟩
  · exact ⟨⟨_, rfl⟩, rfl, by decide, (fun _ => by decide), (fun d h => by cases h; decide)⟩
  · exact ⟨rfl, rfl, by decide, (fun h => by cases h), (fun d h => by cases h; decide)⟩
  · exact ⟨rfl, rfl, by decide, (fun h => by cases h), (fun d h => by cases h; decide)⟩

end Clocked

end ScreenSharing.Net.Dial
