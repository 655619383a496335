import Mathlib.Logic.Function.Basic
import ScreenSharing.Lib.Machine
import ScreenSharing.Relay.Runs

/-!
# Dialing the relay

`openWithRetry` calls `RelayHostLink.open` or `RelayPeerLink.open` until one attempt succeeds, fails for good,
or the budget is spent.  An attempt makes a WebSocket (`connectWs`), constructs a link over it, sends HELLO
and waits for the answer (`waitPendingOpen`).  The attempts and their WebSockets are numbered from 1 on.

An attempt that fails leaves its WebSocket closed, with one exception: when READY does not come in time the
WebSocket stays open, and the keepalive of the link keeps it so (`leavesNothing_iff`).
-/

namespace ScreenSharing.Net

open Lib Relay

/-- Why an attempt failed. -/
inductive DialError
  /-- the error of the WebSocket -/
  | refused
  /-- "relay did not accept the connection" -/
  | connectTimeout
  /-- "relay rejected" -/
  | rejected (reason : RejectReason)
  /-- "relay closed before READY" -/
  | closedBeforeReady
  /-- "relay never sent READY" -/
  | neverReady
  deriving DecidableEq

/-- `FATAL_REJECT_REASONS`. -/
def fatalRejectReasons : List RejectReason :=
  [.roomExists, .noSuchRoom, .roomFull, .badHello, .protoMismatch]

def isRetriableRelayError : DialError → Bool
  | .rejected reason => reason ∉ fatalRejectReasons
  | _ => true

structure OpenWithRetryOptions where
  budgetMs : ℕ := 75000
  wakingAfterAttempts : ℕ := 2

/-- What is known of a WebSocket. -/
inductive WsState
  | unopened
  | connecting
  | opened
  | failed
  | closedByClient
  | closedByRelay
  deriving DecidableEq

/-- Neither side has closed it. -/
def WsState.live : WsState → Bool
  | .connecting | .opened => true
  | _ => false

/-- Where `openWithRetry` is. -/
inductive DialPhase
  /-- `connectWs` -/
  | connecting
  /-- `waitPendingOpen` -/
  | waiting
  | backoff (delay : ℕ)
  | returned
  | thrown (error : DialError)
  deriving DecidableEq

/-- The variables of `openWithRetry`, and its WebSockets. -/
structure Dial where
  ws : ℕ → WsState
  phase : DialPhase
  attempt : ℕ
  notified : Bool
  deadline : ℕ

namespace Dial

inductive Event
  /-- the `open` event of the WebSocket, and its error -/
  | connected
  | connectFailed (now : ℕ)
  | connectTimeout (now : ℕ)
  /-- READY or REJECT arrives on a WebSocket; the relay closes it right behind REJECT -/
  | ready (ws : ℕ)
  | reject (ws : ℕ) (reason : RejectReason) (now : ℕ)
  /-- the relay closes a WebSocket for any other reason -/
  | closed (ws : ℕ) (now : ℕ)
  | readyTimeout (now : ℕ)
  /-- the end of the back-off -/
  | wake
  deriving DecidableEq

inductive Output
  | hello (ws : ℕ) (role : Role)
  | onWaking
  deriving DecidableEq

/-- The first attempt. -/
def start (opts : OpenWithRetryOptions) (now : ℕ) : Dial :=
  ⟨Function.update (fun _ => .unopened) 1 .connecting, .connecting, 1, false, now + opts.budgetMs⟩

variable (opts : OpenWithRetryOptions) (role : Role) (D : Dial)

def setWs (i : ℕ) (state : WsState) : Dial := { D with ws := Function.update D.ws i state }

/-- The `catch` branch. -/
def caught (error : DialError) (now : ℕ) : Dial × List Output :=
  if isRetriableRelayError error = false ∨ D.deadline ≤ now then ({ D with phase := .thrown error }, [])
  else
    let waking := !D.notified && decide (opts.wakingAfterAttempts ≤ D.attempt)
    ({ D with phase := .backoff (min (1500 * D.attempt) 6000), notified := D.notified || waking },
      if waking then [.onWaking] else [])

/-- Is there a promise that the answer on this WebSocket settles? -/
def pendingOpen (i : ℕ) : Bool := D.phase = .waiting ∧ i = D.attempt

def react : Event → Dial × List Output
  | .connected => ({ D.setWs D.attempt .opened with phase := .waiting }, [.hello D.attempt role])
  | .connectFailed now => (D.setWs D.attempt .failed).caught opts .refused now
  | .connectTimeout now => (D.setWs D.attempt .closedByClient).caught opts .connectTimeout now
  | .ready i => if D.pendingOpen i then ({ D with phase := .returned }, []) else (D, [])
  | .reject i reason now =>
    if D.pendingOpen i then (D.setWs i .closedByRelay).caught opts (.rejected reason) now
    else (D.setWs i .closedByRelay, [])
  | .closed i now =>
    if D.pendingOpen i then (D.setWs i .closedByRelay).caught opts .closedBeforeReady now
    else (D.setWs i .closedByRelay, [])
  | .readyTimeout now => D.caught opts .neverReady now
  | .wake =>
    ({ D.setWs (D.attempt + 1) .connecting with phase := .connecting, attempt := D.attempt + 1 }, [])

/-- A timer fires while it is set, and the relay uses a WebSocket while it is open. -/
def Enabled : Event → Prop
  | .connected | .connectFailed _ | .connectTimeout _ => D.phase = .connecting
  | .ready i | .reject i _ _ | .closed i _ => D.ws i = .opened
  | .readyTimeout _ => D.phase = .waiting
  | .wake => ∃ delay, D.phase = .backoff delay

/-- The promise of `openWithRetry` is settled. -/
def Settled : Prop := D.phase = .returned ∨ ∃ error, D.phase = .thrown error

/-- No WebSocket is left open but the one of the link that was returned. -/
def LeavesNothing : Prop :=
  ∀ i, (D.ws i).live = true → D.phase = .returned ∧ i = D.attempt

/-- The relay closes the WebSocket. -/
def closes (i : ℕ) : Event → Bool
  | .reject i' _ _ | .closed i' _ => i' = i
  | _ => false

end Dial

/-- `openWithRetry`. -/
def dial (opts : OpenWithRetryOptions) (role : Role) : Machine Dial Dial.Event Dial.Output :=
  ⟨Dial.Enabled, Dial.react opts role⟩

namespace Dial

variable {opts : OpenWithRetryOptions} {role : Role} {D : Dial} {i : ℕ}

/-- The attempt that is under way, or has succeeded. -/
def Active (D : Dial) (i : ℕ) : Prop :=
  i = D.attempt ∧ (D.phase = .connecting ∨ D.phase = .waiting ∨ D.phase = .returned)

/-- A WebSocket that is left open. -/
def Left (D : Dial) (i : ℕ) : Prop := (D.ws i).live = true ∧ ¬ D.Active i

theorem ws_caught (error : DialError) (now : ℕ) : (D.caught opts error now).1.ws = D.ws := by
  unfold caught
  split <;> rfl

theorem attempt_caught (error : DialError) (now : ℕ) :
    (D.caught opts error now).1.attempt = D.attempt := by
  unfold caught
  split <;> rfl

/-- No attempt is under way in a `catch`. -/
theorem not_active_caught (error : DialError) (now : ℕ) : ¬ (D.caught opts error now).1.Active i := by
  rintro ⟨-, hphase⟩
  unfold caught at hphase
  split at hphase <;> simp at hphase

@[simp] theorem phase_setWs (state : WsState) : (D.setWs i state).phase = D.phase := rfl

@[simp] theorem attempt_setWs (state : WsState) : (D.setWs i state).attempt = D.attempt := rfl

theorem pendingOpen_iff : D.pendingOpen i = true ↔ D.phase = .waiting ∧ i = D.attempt := by
  simp [pendingOpen]

theorem ws_setWs (state : WsState) (j : ℕ) :
    (D.setWs i state).ws j = if j = i then state else D.ws j := by
  simp [setWs, Function.update_apply]

/-- What the relay does to a WebSocket, and the answer that a promise may wait for. -/
theorem react_closes {e : Event} (h : closes i e = true) :
    ((react opts role D e).1 = D.setWs i .closedByRelay ∧ D.pendingOpen i = false) ∨
      ∃ error now, (react opts role D e).1 = ((D.setWs i .closedByRelay).caught opts error now).1 ∧
        D.pendingOpen i = true := by
  cases e with
  | reject i' reason now =>
    obtain rfl : i' = i := by simpa [closes] using h
    cases hpending : D.pendingOpen i' with
    | true => exact .inr ⟨.rejected reason, now, by simp [react, hpending], rfl⟩
    | false => exact .inl ⟨by simp [react, hpending], rfl⟩
  | closed i' now =>
    obtain rfl : i' = i := by simpa [closes] using h
    cases hpending : D.pendingOpen i' with
    | true => exact .inr ⟨.closedBeforeReady, now, by simp [react, hpending], rfl⟩
    | false => exact .inl ⟨by simp [react, hpending], rfl⟩
  | _ => cases h

/-- **Where a WebSocket that is left open comes from.**  It was left open before, or its READY has not come
in time. -/
theorem left_react {e : Event} (he : D.Enabled e) (h : (react opts role D e).1.Left i) :
    (D.Left i ∧ closes i e = false) ∨ (∃ now, e = .readyTimeout now) ∧ D.attempt = i := by
  obtain ⟨hlive, hactive⟩ := h
  have hother : (D.ws i).live = true → i ≠ D.attempt → D.Left i :=
    fun hlive hne => ⟨hlive, fun hact => hne hact.1⟩
  -- an attempt that fails with its WebSocket closed
  have hfailed : ∀ (state : WsState) error now, state.live = false →
      (((D.setWs D.attempt state).caught opts error now).1.ws i).live = true → D.Left i := by
    intro state error now hstate hlive
    rw [ws_caught, ws_setWs] at hlive
    split at hlive
    · rw [hstate] at hlive
      cases hlive
    · next hne => exact hother hlive hne
  cases hcloses : closes i e with
  | true =>
    have hws : (react opts role D e).1.ws i = .closedByRelay := by
      rcases react_closes hcloses with ⟨heq, -⟩ | ⟨error, now, heq, -⟩
      · rw [heq, ws_setWs, if_pos rfl]
      · rw [heq, ws_caught, ws_setWs, if_pos rfl]
    rw [hws] at hlive
    cases hlive
  | false =>
    have hclosed : ∀ i', closes i' e = true → i ≠ i' → D.Left i := by
      intro i' hcloses' hne
      rcases react_closes hcloses' with ⟨heq, -⟩ | ⟨error, now, heq, hpending⟩
      · rw [heq] at hlive hactive
        rw [ws_setWs, if_neg hne] at hlive
        exact ⟨hlive, hactive⟩
      · rw [heq, ws_caught, ws_setWs, if_neg hne] at hlive
        exact hother hlive ((pendingOpen_iff.1 hpending).2 ▸ hne)
    cases e with
    | connected =>
      have hne : i ≠ D.attempt := fun heq => hactive ⟨heq, .inr (.inl rfl)⟩
      have hws : (react opts role D .connected).1.ws i = D.ws i := by simp [react, ws_setWs, hne]
      exact .inl ⟨hother (hws ▸ hlive) hne, rfl⟩
    | connectFailed now => exact .inl ⟨hfailed .failed _ now rfl hlive, rfl⟩
    | connectTimeout now => exact .inl ⟨hfailed .closedByClient _ now rfl hlive, rfl⟩
    | ready i' =>
      refine .inl ⟨?_, rfl⟩
      simp only [react] at hlive hactive
      split at hactive
      · next hpending =>
        rw [if_pos hpending] at hlive
        exact hother hlive fun heq => hactive ⟨heq, .inr (.inr rfl)⟩
      · next hpending =>
        rw [if_neg hpending] at hlive
        exact ⟨hlive, hactive⟩
    | readyTimeout now =>
      have hws : (react opts role D (.readyTimeout now)).1.ws i = D.ws i := by simp [react, ws_caught]
      by_cases hi : D.attempt = i
      · exact .inr ⟨⟨now, rfl⟩, hi⟩
      · exact .inl ⟨hother (hws ▸ hlive) (Ne.symm hi), rfl⟩
    | wake =>
      have hne : i ≠ D.attempt + 1 := fun heq => hactive ⟨heq, .inl rfl⟩
      have hws : (react opts role D .wake).1.ws i = D.ws i := by simp [react, ws_setWs, hne]
      refine .inl ⟨⟨hws ▸ hlive, ?_⟩, rfl⟩
      rintro ⟨-, hphase⟩
      obtain ⟨delay, hdelay⟩ := he
      rw [hdelay] at hphase
      simp at hphase
    | reject i' reason now =>
      have hne : i ≠ i' := by simpa [closes, eq_comm] using hcloses
      exact .inl ⟨hclosed i' (by simp [closes]) hne, rfl⟩
    | closed i' now =>
      have hne : i ≠ i' := by simpa [closes, eq_comm] using hcloses
      exact .inl ⟨hclosed i' (by simp [closes]) hne, rfl⟩

/-- A WebSocket whose READY has not come in time; the attempt is over. -/
structure Abandoned (D : Dial) (i : ℕ) : Prop where
  opened : D.ws i = .opened
  le : i ≤ D.attempt
  not_active : ¬ D.Active i

/-- The WebSocket of a promise that is not settled is open. -/
def Waits (D : Dial) : Prop := D.phase = .waiting → D.ws D.attempt = .opened

theorem waits_react (h : D.Waits) {e : Event} (he : D.Enabled e) : (react opts role D e).1.Waits := by
  have hcaught : ∀ (D' : Dial) error now, (D'.caught opts error now).1.Waits := by
    intro D' error now hphase
    exact absurd ⟨rfl, .inr (.inl hphase)⟩ (not_active_caught (D := D') error now)
  have hcloses : ∀ i', closes i' e = true → (react opts role D e).1.Waits := by
    intro i' hcloses
    rcases react_closes hcloses with ⟨heq, hpending⟩ | ⟨error, now, heq, -⟩
    · rw [heq]
      intro hphase
      have hne : D.attempt ≠ i' := by
        rintro rfl
        have hpending' : D.pendingOpen D.attempt = true := pendingOpen_iff.2 ⟨hphase, rfl⟩
        rw [hpending] at hpending'
        cases hpending'
      rw [ws_setWs, attempt_setWs, if_neg hne]
      exact h hphase
    · rw [heq]
      exact hcaught _ error now
  cases e with
  | connected =>
    intro _
    simp [react, ws_setWs]
  | connectFailed now => exact hcaught _ _ now
  | connectTimeout now => exact hcaught _ _ now
  | ready i' =>
    simp only [react]
    split
    · intro hphase
      cases hphase
    · exact h
  | reject i' reason now => exact hcloses i' (by simp [closes])
  | closed i' now => exact hcloses i' (by simp [closes])
  | readyTimeout now => exact hcaught _ _ now
  | wake =>
    intro hphase
    cases hphase

/-- **READY does not come in time**: the WebSocket is abandoned. -/
theorem abandoned_readyTimeout (opts : OpenWithRetryOptions) (role : Role) (h : D.Waits) {now : ℕ} (he : D.Enabled (.readyTimeout now)) :
    (react opts role D (.readyTimeout now)).1.Abandoned D.attempt := by
  refine ⟨?_, ?_, not_active_caught _ now⟩
  · rw [show (react opts role D (.readyTimeout now)).1.ws = D.ws from ws_caught _ now]
    exact h he
  · exact Nat.le_of_eq (attempt_caught _ now).symm

/-- It stays so until the relay closes it. -/
theorem abandoned_react {e : Event} (he : D.Enabled e) (h : D.Abandoned i) (hcloses : closes i e = false) :
    (react opts role D e).1.Abandoned i := by
  have hcaught : ∀ (D' : Dial) error now, D'.ws i = .opened → D'.attempt = D.attempt →
      (D'.caught opts error now).1.Abandoned i := by
    intro D' error now hws hattempt
    refine ⟨?_, ?_, not_active_caught error now⟩
    · rw [ws_caught]
      exact hws
    · rw [attempt_caught, hattempt]
      exact h.le
  -- while an attempt is under way, an abandoned WebSocket is one of an earlier attempt
  have hpast : D.phase = .connecting ∨ D.phase = .waiting ∨ D.phase = .returned → i ≠ D.attempt :=
    fun hphase heq => h.not_active ⟨heq, hphase⟩
  have hclosed : ∀ i', closes i' e = true → i ≠ i' → (react opts role D e).1.Abandoned i := by
    intro i' hcloses' hne
    have hws : (D.setWs i' .closedByRelay).ws i = .opened := by
      rw [ws_setWs, if_neg hne]
      exact h.opened
    rcases react_closes hcloses' with ⟨heq, -⟩ | ⟨error, now, heq, -⟩
    · rw [heq]
      exact ⟨hws, h.le, h.not_active⟩
    · rw [heq]
      exact hcaught _ error now hws rfl
  cases e with
  | connected =>
    have hne := hpast (.inl he)
    refine ⟨?_, h.le, fun hact => hne hact.1⟩
    simp [react, ws_setWs, hne, h.opened]
  | connectFailed now =>
    refine hcaught (D.setWs D.attempt .failed) _ now ?_ rfl
    rw [ws_setWs, if_neg (hpast (.inl he))]
    exact h.opened
  | connectTimeout now =>
    refine hcaught (D.setWs D.attempt .closedByClient) _ now ?_ rfl
    rw [ws_setWs, if_neg (hpast (.inl he))]
    exact h.opened
  | ready i' =>
    simp only [react]
    split
    · next hpending =>
      have hne := hpast (.inr (.inl (pendingOpen_iff.1 hpending).1))
      exact ⟨h.opened, h.le, fun hact => hne hact.1⟩
    · exact h
  | reject i' reason now =>
    exact hclosed i' (by simp [closes]) (by simpa [closes, eq_comm] using hcloses)
  | closed i' now =>
    exact hclosed i' (by simp [closes]) (by simpa [closes, eq_comm] using hcloses)
  | readyTimeout now => exact hcaught D _ now h.opened rfl
  | wake =>
    have hle := h.le
    have hne : i ≠ D.attempt + 1 := by omega
    refine ⟨?_, Nat.le_succ_of_le hle, fun hact => hne hact.1⟩
    simp [react, ws_setWs, hne, h.opened]

/-! ### Runs -/

def isReadyTimeout : Event → Bool
  | .readyTimeout _ => true
  | _ => false

/-- Every attempt whose READY does not come in time has its WebSocket closed by the relay afterwards. -/
def ClosedInTime (opts : OpenWithRetryOptions) (role : Role) : Dial → List Event → Prop
  | _, [] => True
  | D, e :: es => (isReadyTimeout e = true → ∃ e' ∈ es, closes D.attempt e' = true) ∧
      ClosedInTime opts role (react opts role D e).1 es

instance decidableClosedInTime (opts : OpenWithRetryOptions) (role : Role) :
    ∀ D es, Decidable (ClosedInTime opts role D es)
  | _, [] => isTrue trivial
  | D, e :: es =>
    have := decidableClosedInTime opts role (react opts role D e).1 es
    inferInstanceAs (Decidable ((_ → _) ∧ ClosedInTime opts role (react opts role D e).1 es))

/-- A WebSocket that is left open at the end of such a run was left open before. -/
theorem left_exec (es : List Event) : ∀ {D : Dial}, (dial opts role).Valid D es →
    ClosedInTime opts role D es → ((dial opts role).exec D es).Left i →
    D.Left i ∧ ∀ e ∈ es, closes i e = false := by
  induction es with
  | nil => exact fun _ _ h => ⟨h, fun e he => by cases he⟩
  | cons e es ih =>
    intro D hvalid hclosed h
    obtain ⟨hleft, hrest⟩ := ih hvalid.2 hclosed.2 h
    rcases left_react hvalid.1 hleft with ⟨hleft', he⟩ | ⟨⟨now, rfl⟩, rfl⟩
    · exact ⟨hleft', List.forall_mem_cons.2 ⟨he, hrest⟩⟩
    · obtain ⟨e', he', hcloses⟩ := hclosed.1 rfl
      rw [hrest e' he'] at hcloses
      cases hcloses

theorem abandoned_exec (es : List Event) : ∀ {D : Dial}, (dial opts role).Valid D es →
    D.Abandoned i → (∀ e ∈ es, closes i e = false) → ((dial opts role).exec D es).Abandoned i := by
  induction es with
  | nil => exact fun _ h _ => h
  | cons e es ih =>
    intro D hvalid h hcloses
    exact ih hvalid.2 (abandoned_react hvalid.1 h (hcloses e List.mem_cons_self))
      fun e' he' => hcloses e' (List.mem_cons_of_mem _ he')

/-- A WebSocket that is abandoned, and not closed, is left at the end. -/
theorem closedInTime_of_leavesNothing (es : List Event) : ∀ {D : Dial}, D.Waits →
    (dial opts role).Valid D es → ((dial opts role).exec D es).LeavesNothing →
    ClosedInTime opts role D es := by
  induction es with
  | nil => exact fun _ _ _ => trivial
  | cons e es ih =>
    intro D hwaits hvalid hnothing
    refine ⟨fun htimeout => ?_, ih (waits_react hwaits hvalid.1) hvalid.2 hnothing⟩
    by_contra hnone
    have hopen : ∀ e' ∈ es, closes D.attempt e' = false :=
      fun e' he' => Bool.eq_false_iff.2 fun hcloses => hnone ⟨e', he', hcloses⟩
    cases e with
    | readyTimeout now =>
      have habandoned := abandoned_exec es hvalid.2
        (abandoned_readyTimeout opts role hwaits hvalid.1) hopen
      obtain ⟨hphase, hi⟩ := hnothing _ (congrArg WsState.live habandoned.opened)
      exact habandoned.not_active ⟨hi, .inr (.inr hphase)⟩
    | _ => cases htimeout

/-- **A failed dial leaves nothing behind** exactly if the relay has closed the WebSocket of every attempt
whose READY did not come in time. -/
theorem leavesNothing_iff (opts : OpenWithRetryOptions) (role : Role) (now : ℕ) (es : List Event)
    (hvalid : (dial opts role).Valid (start opts now) es)
    (hsettled : ((dial opts role).exec (start opts now) es).Settled) :
    ((dial opts role).exec (start opts now) es).LeavesNothing ↔
      ClosedInTime opts role (start opts now) es := by
  constructor
  · have hwaits : (start opts now).Waits := fun hphase => by cases hphase
    exact closedInTime_of_leavesNothing es hwaits hvalid
  · intro hclosed i hlive
    by_contra hnot
    have hleft : ((dial opts role).exec (start opts now) es).Left i := by
      refine ⟨hlive, ?_⟩
      rintro ⟨hi, hphase⟩
      refine hnot ⟨?_, hi⟩
      rcases hsettled with h | ⟨error, h⟩
      · exact h
      · rw [h] at hphase
        simp at hphase
    obtain ⟨⟨hlive', hactive⟩, -⟩ := left_exec es hvalid hclosed hleft
    by_cases hi : i = 1
    · exact hactive ⟨hi, .inl rfl⟩
    · simp [start, hi, WsState.live] at hlive'

/-- READY of the first attempt does not come in time; the second attempt finds the room. -/
def lateRun : List Event :=
  [.connected, .readyTimeout 12000, .wake, .connected, .ready 1, .reject 2 .roomExists 13600]

/-- How the relay answers the HELLO of a host. -/
def hostHelloAt (now : ℕ) (token : String) (socket : Socket) (R : State) : State × List Effect :=
  onHello defaultLimits now token socket ⟨.host, "65727231", "0.1.0", relayProtocolVersion, none⟩ R

/-- **The link that was given up hosts the room**, and keeps the one that is asked for out of it.  The last
two parts are what the relay makes of it. -/
theorem abandoned_link_hosts :
    (dial {} .host).Valid (start {} 0) lateRun ∧
      ((dial {} .host).exec (start {} 0) lateRun).phase = .thrown (.rejected .roomExists) ∧
      ¬ ((dial {} .host).exec (start {} 0) lateRun).LeavesNothing ∧
      (hostHelloAt 13000 "a" ⟨1, "ip"⟩ Relay.new).2 = [.send ⟨1, "ip"⟩ (.ready none (some "a"))] ∧
      (hostHelloAt 13500 "b" ⟨2, "ip"⟩ (hostHelloAt 13000 "a" ⟨1, "ip"⟩ Relay.new).1).2 =
        kick ⟨2, "ip"⟩ .roomExists := by
  refine ⟨⟨rfl, rfl, ⟨_, rfl⟩, rfl, rfl, rfl, trivial⟩, rfl, fun h => ?_, by decide, by decide⟩
  obtain ⟨hphase, -⟩ := h 1 rfl
  cases hphase

/-- A relay that wakes up: the first attempt is refused, the second gets no READY before the relay restarts,
the third succeeds. -/
def wakingRun : List Event :=
  [.connectFailed 50, .wake, .connected, .readyTimeout 13600, .closed 2 13700, .wake, .connected, .ready 3]

theorem leavesNothing_wakingRun : ((dial {} .peer).exec (start {} 0) wakingRun).LeavesNothing :=
  (leavesNothing_iff {} .peer 0 wakingRun
    ⟨rfl, ⟨_, rfl⟩, rfl, rfl, rfl, ⟨_, rfl⟩, rfl, rfl, trivial⟩ (.inl rfl)).2 (by decide)

end Dial

end ScreenSharing.Net
