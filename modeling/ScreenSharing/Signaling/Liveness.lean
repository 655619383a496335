import ScreenSharing.Lib.Machine
import ScreenSharing.Signaling.Heartbeat

/-!
# Who is declared dead

A heartbeat keeps one nonce and one counter.  The history beside it keeps every ping and what became
of it: whether its pong was delivered at all, and whether it was delivered in time, which is before
the next ping was sent.  `Tracks` reads the counter off the history: the heartbeat counts the pings
at the end of the history whose pongs did not come in time.

A pong that comes later than that is ignored, as the nonce it carries is no longer outstanding
(`pong_ignored_iff`).  A peer whose pongs all take longer than one interval is therefore declared dead, however short of
`maxMissed` intervals they are.
-/

namespace ScreenSharing.Signaling

open Lib

/-- A ping of the history. -/
structure Ping where
  nonce : ℤ
  delivered : Bool
  inTime : Bool
  deriving DecidableEq

namespace Ping

def sent (nonce : ℤ) : Ping := ⟨nonce, false, false⟩

/-- A pong arrives while `p` is not the last ping. -/
def late (nonce : ℤ) (p : Ping) : Ping :=
  if p.nonce = nonce then { p with delivered := true } else p

/-- A pong arrives while `p` is the last ping. -/
def answer (nonce : ℤ) (p : Ping) : Ping :=
  if p.nonce = nonce then { p with delivered := true, inTime := true } else p

/-- The pings at the end of the history, the last one first, that were not answered in time. -/
def lapsed (pings : List Ping) : ℕ := (pings.takeWhile fun p => !p.inTime).length

/-- The nonce that a pong of the last ping would carry, while there is none. -/
def awaited : List Ping → Option ℤ
  | [] => none
  | p :: _ => if p.inTime then none else some p.nonce

/-- What a pong does to the history, the last ping first. -/
def pong (nonce : ℤ) : List Ping → List Ping
  | [] => []
  | p :: pings => p.answer nonce :: pings.map (late nonce)

@[simp] theorem late_inTime (nonce : ℤ) (p : Ping) : (p.late nonce).inTime = p.inTime := by
  unfold late
  split <;> rfl

@[simp] theorem answer_nonce (nonce : ℤ) (p : Ping) : (p.answer nonce).nonce = p.nonce := by
  unfold answer
  split <;> rfl

theorem answer_inTime (nonce : ℤ) (p : Ping) :
    (p.answer nonce).inTime = (p.inTime || decide (p.nonce = nonce)) := by
  unfold answer
  split <;> simp_all

@[simp] theorem lapsed_nil : lapsed [] = 0 := rfl

theorem lapsed_cons (p : Ping) (pings : List Ping) :
    lapsed (p :: pings) = if p.inTime then 0 else lapsed pings + 1 := by
  cases h : p.inTime <;> simp [lapsed, h]

@[simp] theorem awaited_nil : awaited [] = none := rfl

theorem awaited_cons (p : Ping) (pings : List Ping) :
    awaited (p :: pings) = if p.inTime then none else some p.nonce := rfl

@[simp] theorem lapsed_late (nonce : ℤ) (pings : List Ping) :
    lapsed (pings.map (late nonce)) = lapsed pings := by
  induction pings with
  | nil => rfl
  | cons p pings ih => simp [lapsed_cons, ih]

/-- The count of unanswered pings, said of the pings themselves. -/
theorem le_lapsed_iff (k : ℕ) (pings : List Ping) :
    k ≤ lapsed pings ↔ k ≤ pings.length ∧ ∀ p ∈ pings.take k, p.inTime = false := by
  induction pings generalizing k with
  | nil => simp +contextual [lapsed]
  | cons p pings ih =>
    cases k with
    | zero => simp
    | succ k =>
      rw [lapsed_cons]
      cases hp : p.inTime with
      | true => simp [hp]
      | false => simp [hp, ih]

end Ping

/-- The calls an owner makes.  A nonce of `start` and `tick` is the one drawn for the ping. -/
inductive Call
  | start (nonce : ℤ)
  | tick (nonce : ℤ)
  | onPong (nonce : ℤ)
  | stop
  deriving DecidableEq

/-- A heartbeat with the history of its pings, the last one first. -/
structure Watched where
  heartbeat : Heartbeat
  pings : List Ping
  deriving DecidableEq

namespace Watched

def new (maxMissed : ℕ) : Watched := ⟨.new maxMissed, []⟩

/-- The history after a beat. -/
def record (pings : List Ping) : Beat → List Ping
  | .idle => pings
  | .sendPing nonce => Ping.sent nonce :: pings
  | .onDead => pings

/-- The state after a call that made the heartbeat beat, and what the beat called. -/
def beat (pings : List Ping) (r : Heartbeat × Beat) : Watched × List Beat :=
  (⟨r.1, record pings r.2⟩, [r.2])

/-- Any call may be made at any time. -/
def machine : Machine Watched Call Beat where
  enabled _ _ := True
  step W
    | .start nonce => beat W.pings (W.heartbeat.start nonce)
    | .tick nonce => beat W.pings (W.heartbeat.tick nonce)
    | .onPong nonce => (⟨W.heartbeat.onPong nonce, Ping.pong nonce W.pings⟩, [])
    | .stop => (⟨W.heartbeat.stop, W.pings⟩, [])

/-- The counter and the outstanding nonce of a heartbeat that has not given up, read off the
history. -/
structure Tracks (maxMissed : ℕ) (W : Watched) : Prop where
  limit : W.heartbeat.maxMissed = max 1 maxMissed
  outstanding : W.heartbeat.dead = false →
    W.heartbeat.outstanding = Ping.awaited W.pings
  missed : W.heartbeat.dead = false → W.heartbeat.missed = Ping.lapsed W.pings - 1

theorem tracks_new (maxMissed : ℕ) : Tracks maxMissed (new maxMissed) :=
  ⟨rfl, fun _ => rfl, fun _ => rfl⟩

/-- A heartbeat that gave up or is not running does nothing. -/
theorem tick_of_silent {H : Heartbeat} (h : H.dead = true ∨ H.started = false) (nonce : ℤ) :
    H.tick nonce = (H, .idle) := by
  unfold Heartbeat.tick
  rw [if_pos (by rcases h with h | h <;> simp [h])]

/-- A tick of a running heartbeat, said of the history. -/
theorem tick_of_running {maxMissed : ℕ} {W : Watched} (h : Tracks maxMissed W)
    (hlive : W.heartbeat.dead = false) (hon : W.heartbeat.started = true) (nonce : ℤ) :
    W.heartbeat.tick nonce =
      if max 1 maxMissed ≤ Ping.lapsed W.pings then
        ({ W.heartbeat with missed := Ping.lapsed W.pings, dead := true }, .onDead)
      else
        ({ W.heartbeat with
          missed := Ping.lapsed W.pings, outstanding := some nonce }, .sendPing nonce) := by
  have hout := h.outstanding hlive
  have hmissed := h.missed hlive
  unfold Heartbeat.tick
  rw [if_neg (by simp [hlive, hon]), hout]
  cases hpings : W.pings with
  | nil =>
    have hzero : W.heartbeat.missed = 0 := by rw [hmissed, hpings]; rfl
    simp [hzero]
  | cons p pings =>
    rw [hpings, Ping.lapsed_cons] at hmissed
    rw [hpings, Ping.awaited_cons] at hout
    rw [Ping.lapsed_cons, Ping.awaited_cons]
    cases hp : p.inTime with
    | true =>
      -- answered in time: nothing is outstanding
      have hzero : W.heartbeat.missed = 0 := by rw [hmissed, if_pos hp]
      simp [hzero]
    | false =>
      have hcount : W.heartbeat.missed = Ping.lapsed pings := by
        rw [hmissed, if_neg (by simp [hp]), Nat.add_sub_cancel]
      rw [if_neg (by simp [hp])] at hout
      simp [hcount, hout, h.limit]

/-- A tick gives up exactly when enough of the last pings were not answered in time. -/
theorem onDead_iff {maxMissed : ℕ} {W : Watched} (h : Tracks maxMissed W) (nonce : ℤ) :
    (W.heartbeat.tick nonce).2 = .onDead ↔
      W.heartbeat.dead = false ∧ W.heartbeat.started = true ∧
        max 1 maxMissed ≤ Ping.lapsed W.pings := by
  cases hlive : W.heartbeat.dead with
  | true => simp [tick_of_silent (.inl hlive)]
  | false =>
    cases hon : W.heartbeat.started with
    | false => simp [tick_of_silent (.inr hon)]
    | true =>
      rw [tick_of_running h hlive hon]
      split <;> simp_all

/-- What was recorded of a tick still matches. -/
theorem tracks_tick {maxMissed : ℕ} {W : Watched} (h : Tracks maxMissed W) (nonce : ℤ) :
    Tracks maxMissed (beat W.pings (W.heartbeat.tick nonce)).1 := by
  by_cases hsilent : W.heartbeat.dead = true ∨ W.heartbeat.started = false
  · rw [tick_of_silent hsilent]
    exact h
  · rw [not_or, Bool.not_eq_true, Bool.not_eq_false] at hsilent
    rw [tick_of_running h hsilent.1 hsilent.2]
    split
    · exact ⟨h.limit, nofun, nofun⟩
    · refine ⟨h.limit, fun _ => rfl, fun _ => ?_⟩
      simp [beat, record, Ping.sent, Ping.lapsed_cons]

theorem tracks_onPong {maxMissed : ℕ} {W : Watched} (h : Tracks maxMissed W) (nonce : ℤ) :
    Tracks maxMissed ⟨W.heartbeat.onPong nonce, Ping.pong nonce W.pings⟩ := by
  unfold Heartbeat.onPong
  split
  case isTrue hdead => exact ⟨h.limit, fun hlive => by simp_all, fun hlive => by simp_all⟩
  case isFalse hlive =>
    rw [Bool.not_eq_true] at hlive
    have hout := h.outstanding hlive
    have hmissed := h.missed hlive
    cases hpings : W.pings with
    | nil =>
      rw [hpings] at hout hmissed
      rw [if_neg (by simp [hout])]
      exact ⟨h.limit, fun _ => hout, fun _ => hmissed⟩
    | cons p pings =>
      rw [hpings, Ping.lapsed_cons] at hmissed
      rw [hpings, Ping.awaited_cons] at hout
      cases hp : p.inTime with
      | true =>
        -- answered before: the pong is a stale one
        rw [if_pos hp] at hout hmissed
        rw [if_neg (by simp [hout])]
        refine ⟨h.limit, fun _ => ?_, fun _ => ?_⟩
        · simp [hout, hp, Ping.pong, Ping.awaited_cons, Ping.answer_inTime]
        · simp [hmissed, hp, Ping.pong, Ping.lapsed_cons, Ping.answer_inTime]
      | false =>
        rw [if_neg (by simp [hp])] at hout hmissed
        by_cases hnonce : p.nonce = nonce
        · rw [if_pos (by rw [hout, hnonce])]
          refine ⟨h.limit, fun _ => ?_, fun _ => ?_⟩
          · simp [Ping.pong, Ping.awaited_cons, Ping.answer_inTime, hnonce]
          · simp [Ping.pong, Ping.lapsed_cons, Ping.answer_inTime, hnonce]
        · rw [if_neg (by rw [hout, Option.some_inj]; exact Ne.symm hnonce)]
          refine ⟨h.limit, fun _ => ?_, fun _ => ?_⟩
          · simp [hout, hp, Ping.pong, Ping.awaited_cons, Ping.answer_inTime, hnonce]
          · simp [hmissed, hp, Ping.pong, Ping.lapsed_cons, Ping.answer_inTime, hnonce]

/-- `start` and `stop` only turn the ticks on and off. -/
theorem tracks_started {maxMissed : ℕ} {W : Watched} (h : Tracks maxMissed W) (started : Bool) :
    Tracks maxMissed ⟨{ W.heartbeat with started }, W.pings⟩ :=
  ⟨h.limit, h.outstanding, h.missed⟩

theorem tracks_next {maxMissed : ℕ} {W : Watched} (h : Tracks maxMissed W) (c : Call) :
    Tracks maxMissed (machine.next W c) := by
  cases c with
  | start nonce => exact tracks_tick (tracks_started h true) nonce
  | tick nonce => exact tracks_tick h nonce
  | onPong nonce => exact tracks_onPong h nonce
  | stop => exact tracks_started h false

theorem tracks_exec (maxMissed : ℕ) (calls : List Call) :
    Tracks maxMissed (machine.exec (new maxMissed) calls) :=
  Machine.exec_invariant (I := Tracks maxMissed) (fun _ c h _ => tracks_next h c)
    (Machine.along_true _ calls) (tracks_new maxMissed)

/-- A call that gives up is a tick, and the last `maxMissed` pings were not answered in time. -/
theorem unanswered_of_onDead {maxMissed : ℕ} {W : Watched} (h : Tracks maxMissed W) {c : Call}
    (hdead : .onDead ∈ machine.out W c) : max 1 maxMissed ≤ Ping.lapsed W.pings := by
  cases c with
  | start nonce =>
    have hbeat := List.mem_singleton.mp hdead
    exact ((onDead_iff (tracks_started h true) nonce).mp hbeat.symm).2.2
  | tick nonce =>
    have hbeat := List.mem_singleton.mp hdead
    exact ((onDead_iff h nonce).mp hbeat.symm).2.2
  | onPong nonce => cases hdead
  | stop => cases hdead

/-! ### At most once -/

/-- How often the heartbeat may still give up. -/
def chances (H : Heartbeat) : ℕ := if H.dead then 0 else 1

theorem tick_chances (H : Heartbeat) (nonce : ℤ) :
    [(H.tick nonce).2].count .onDead + chances (H.tick nonce).1 ≤ chances H := by
  unfold Heartbeat.tick
  split
  · exact Nat.le_of_eq (Nat.zero_add _)
  · split
    · exact Nat.le_of_eq (Nat.zero_add _)
    · dsimp only
      split <;> simp_all [chances]

theorem onPong_chances (H : Heartbeat) (nonce : ℤ) : chances (H.onPong nonce) = chances H := by
  unfold Heartbeat.onPong
  split
  · rfl
  · split <;> rfl

theorem out_chances (W : Watched) (c : Call) :
    (machine.out W c).count .onDead + chances (machine.next W c).heartbeat ≤
      chances W.heartbeat := by
  cases c with
  | start nonce => exact tick_chances { W.heartbeat with started := true } nonce
  | tick nonce => exact tick_chances W.heartbeat nonce
  | onPong nonce => exact Nat.le_of_eq ((Nat.zero_add _).trans (onPong_chances _ nonce))
  | stop => exact Nat.le_of_eq (Nat.zero_add _)

theorem trace_chances (W : Watched) (calls : List Call) :
    (machine.trace W calls).count .onDead ≤ chances W.heartbeat := by
  induction calls generalizing W with
  | nil => exact Nat.zero_le _
  | cons c calls ih =>
    have hstep := out_chances W c
    have hrest := ih (machine.next W c)
    rw [Machine.trace, List.count_append]
    omega

/-! ### Which pongs are ignored -/

/-- A pong changes a heartbeat exactly if it answers the ping that is outstanding. -/
theorem onPong_ignored_iff (H : Heartbeat) (nonce : ℤ) :
    H.onPong nonce = H ↔ H.dead = true ∨ H.outstanding ≠ some nonce := by
  unfold Heartbeat.onPong
  by_cases hdead : H.dead = true
  · simp [hdead]
  · by_cases hout : some nonce = H.outstanding
    · rw [if_neg hdead, if_pos hout]
      refine iff_of_false (fun heq => ?_) ?_
      · have hnone : none = H.outstanding := congrArg Heartbeat.outstanding heq
        rw [← hout] at hnone
        cases hnone
      · rintro (h | h)
        · exact hdead h
        · exact h hout.symm
    · rw [if_neg hdead, if_neg hout]
      exact iff_of_true rfl (.inr (Ne.symm hout))

/-- The pong of a ping that is not the last one is not awaited, if no two pings have one nonce. -/
theorem awaited_ne_of_earlier {pings : List Ping} (hnonces : (pings.map Ping.nonce).Nodup) {p : Ping}
    (hp : p ∈ pings.tail) : Ping.awaited pings ≠ some p.nonce := by
  cases pings with
  | nil => cases hp
  | cons last earlier =>
    rw [List.map_cons, List.nodup_cons] at hnonces
    have hne : last.nonce ≠ p.nonce := fun heq => hnonces.1 (heq ▸ List.mem_map_of_mem hp)
    rw [Ping.awaited_cons]
    split
    · exact nofun
    · simpa using hne

/-- A pong is ignored exactly if it is not awaited, or comes after the peer was declared dead. -/
theorem pong_ignored_iff {maxMissed : ℕ} {W : Watched} (h : Tracks maxMissed W) (nonce : ℤ) :
    (machine.next W (.onPong nonce)).heartbeat = W.heartbeat ↔
      W.heartbeat.dead = true ∨ Ping.awaited W.pings ≠ some nonce := by
  show W.heartbeat.onPong nonce = W.heartbeat ↔ _
  rw [onPong_ignored_iff]
  cases hdead : W.heartbeat.dead with
  | true => simp
  | false => rw [h.outstanding hdead]

/-! ### The last pings were not answered -/

/-- A ping has been answered when the next one is due. -/
def AnsweredInTime (W : Watched) : Call → Prop
  | .start _ => ∀ p ∈ W.pings.head?, p.inTime = true
  | .tick _ => ∀ p ∈ W.pings.head?, p.inTime = true
  | .onPong _ => True
  | .stop => True

theorem not_onDead_of_answered {maxMissed : ℕ} {W : Watched} (h : Tracks maxMissed W) {c : Call}
    (ha : AnsweredInTime W c) : .onDead ∉ machine.out W c := by
  intro hdead
  have hlapsed : 1 ≤ Ping.lapsed W.pings :=
    Nat.le_trans (Nat.le_max_left 1 maxMissed) (unanswered_of_onDead h hdead)
  have hnone : Ping.lapsed W.pings = 0 := by
    have hhead : ∀ p ∈ W.pings.head?, p.inTime = true := by
      cases c with
      | start nonce => exact ha
      | tick nonce => exact ha
      | onPong nonce => cases hdead
      | stop => cases hdead
    cases hpings : W.pings with
    | nil => rfl
    | cons p pings =>
      rw [hpings] at hhead
      rw [Ping.lapsed_cons, if_pos (hhead p rfl)]
  omega

/-- **Who is declared dead.**  `onDead` is called at most once, and only when none of the last
`maxMissed` pings was answered before the next one was sent (before this call, for the last of
them); a peer that answers each ping before the next one is due is never declared dead.  A pong is
ignored exactly if it is not the one that is awaited, or the peer has been declared dead; so that,
as no two pings have one nonce, a pong that comes after the next ping was sent is ignored. -/
theorem onDead_only_unanswered (maxMissed : ℕ) (calls : List Call) :
    (machine.trace (new maxMissed) calls).count .onDead ≤ 1 ∧
    (∀ pre c post, calls = pre ++ c :: post →
      .onDead ∈ machine.out (machine.exec (new maxMissed) pre) c →
        max 1 maxMissed ≤ (machine.exec (new maxMissed) pre).pings.length ∧
        ∀ p ∈ (machine.exec (new maxMissed) pre).pings.take (max 1 maxMissed),
          p.inTime = false) ∧
    (machine.Along AnsweredInTime (new maxMissed) calls →
      .onDead ∉ machine.trace (new maxMissed) calls) ∧
    ∀ pre nonce post, calls = pre ++ .onPong nonce :: post →
      ((machine.exec (new maxMissed) (pre ++ [.onPong nonce])).heartbeat =
          (machine.exec (new maxMissed) pre).heartbeat ↔
        (machine.exec (new maxMissed) pre).heartbeat.dead = true ∨
          Ping.awaited (machine.exec (new maxMissed) pre).pings ≠ some nonce) ∧
      (((machine.exec (new maxMissed) pre).pings.map Ping.nonce).Nodup →
        (∃ p ∈ (machine.exec (new maxMissed) pre).pings.tail, p.nonce = nonce) →
        (machine.exec (new maxMissed) (pre ++ [.onPong nonce])).heartbeat =
          (machine.exec (new maxMissed) pre).heartbeat) := by
  refine ⟨trace_chances (new maxMissed) calls, ?_, ?_, fun pre nonce post _ => ?_⟩
  · intro pre c post _ hdead
    exact (Ping.le_lapsed_iff _ _).mp (unanswered_of_onDead (tracks_exec maxMissed pre) hdead)
  · intro hanswered
    have hbeats : ∀ b ∈ machine.trace (new maxMissed) calls, b ≠ .onDead :=
      Machine.trace_forall (I := Tracks maxMissed) (fun _ c h _ => tracks_next h c)
        (fun _ _ h ha b hb => ne_of_mem_of_not_mem hb (not_onDead_of_answered h ha))
        hanswered (tracks_new maxMissed)
    exact fun hdead => hbeats _ hdead rfl
  · have hignored := pong_ignored_iff (tracks_exec maxMissed pre) nonce
    rw [Machine.exec_append]
    refine ⟨hignored, fun hnonces hearlier => ?_⟩
    obtain ⟨p, hp, rfl⟩ := hearlier
    exact hignored.mpr (.inr (awaited_ne_of_earlier hnonces hp))

/-- A pong in time saves the peer once, and a late one does not; then three pings in a row go
unanswered. -/
def watchedRun : List Call :=
  [.start 1, .onPong 1, .tick 2, .tick 3, .onPong 2, .tick 4, .tick 5, .tick 6]

theorem onDead_only_unanswered_run :
    (machine.trace (new 3) watchedRun).count .onDead = 1 ∧
    (machine.trace (new 3) watchedRun).count .onDead ≤ 1 ∧
    (∀ p ∈ (machine.exec (new 3) (watchedRun.take 6)).pings.take 3, p.inTime = false) ∧
    (machine.exec (new 3) (watchedRun.take 5)).heartbeat =
      (machine.exec (new 3) (watchedRun.take 4)).heartbeat := by
  have h := onDead_only_unanswered 3 watchedRun
  refine ⟨by decide, h.1, (h.2.1 (watchedRun.take 6) (.tick 5) [.tick 6] rfl (by decide)).2, ?_⟩
  exact (h.2.2.2 (watchedRun.take 4) 2 [.tick 4, .tick 5, .tick 6] rfl).2 (by decide)
    ⟨⟨2, false, false⟩, by decide, rfl⟩

/-- A peer that answers every ping one and a half intervals later is declared dead at the fourth beat,
although two of its last three pings have been answered by then. -/
theorem onDead_although_answered :
    ¬ ∀ (maxMissed : ℕ) (calls : List Call),
      ((machine.exec (new maxMissed) calls).pings.map Ping.nonce).Nodup →
      (machine.trace (new maxMissed) calls).count .onDead ≤ 1 ∧
      ∀ pre c post, calls = pre ++ c :: post →
        .onDead ∈ machine.out (machine.exec (new maxMissed) pre) c →
          ∀ p ∈ (machine.exec (new maxMissed) pre).pings.take maxMissed, p.delivered = false := by
  intro h
  have hlate := (h 3 [.start 1, .tick 2, .onPong 1, .tick 3, .onPong 2, .tick 4] (by decide)).2
    [.start 1, .tick 2, .onPong 1, .tick 3, .onPong 2] (.tick 4) [] rfl (by decide)
  exact absurd hlate (by decide)

end Watched

end ScreenSharing.Signaling
