import ScreenSharing.Signaling.Changes

/-!
# One bucket for everybody

The rate limiter of the host keeps a bucket for each ip.  The host link hands every transport on with
the ip `relay`, so the peers of a room share one bucket: the attempts of each count against all, and a
handshake that one of them completes resets the standing of all.

`Independent` asks that whether an attempt is refused depends on the peer's own attempts and completed
handshakes only, over pairs of runs.  `independent_iff` says that a configuration has this only where the
limiter refuses everybody or nobody, and that under any other one, after every run, a peer that would be
let through can be shut out by failing handshakes of others alone.
-/

namespace ScreenSharing.Signaling

open Lib SignalingServer

variable {L : Config} {S S' : SignalingServer} {e : Event} {now clock : ℕ} {out : List Output}

/-! ### Runs behind a host link -/

/-- The ip with which the host link hands on every transport. -/
def relayIp : String := "relay"

/-- The event may come from a host link. -/
def FromRelay : Event → Prop
  | .connection ip _ => ip = relayIp
  | _ => True

instance : Decidable (FromRelay e) := by
  apply e.casesOn (motive := fun e => Decidable (FromRelay e)) <;> intros <;> unfold FromRelay <;>
    infer_instance

/-- When the event asks for the time to limit attempts. -/
def Event.time : Event → Option ℕ
  | .connection _ now => some now
  | _ => none

/-- A run behind a host link, after which a peer may try its luck at time `now`. -/
structure RelayRun (L : Config) (es : List Event) (now : ℕ) : Prop where
  valid : (server L).Valid (.new L) (es ++ [.connection relayIp now])
  relay : ∀ e ∈ es, FromRelay e
  clock : Forward Event.time 0 (es ++ [.connection relayIp now])
  taking : ((server L).exec (.new L) es).closing = false

/-- A connection that comes at time `now` is refused as one too many of its ip. -/
def RateLimits (L : Config) (S : SignalingServer) (now : ℕ) : Prop :=
  .peerRejected relayIp "rate_limited" ∈ (server L).out S (.connection relayIp now)

instance : Decidable (RateLimits L S now) := inferInstanceAs (Decidable (_ ∈ _))

/-- A connection that comes at time `now` is let into the handshake. -/
def Accepts (L : Config) (S : SignalingServer) (now : ℕ) : Prop :=
  (server L).out S (.connection relayIp now) = []

/-! ### What a peer does itself -/

inductive Deed
  | attempt (now : ℕ)
  | completed
  deriving DecidableEq

/-- The continuation of the handshake has ended it with a MAC that verified: the wait for the join
begins. -/
def completes (L : Config) (S : SignalingServer) (c : ℕ) (draw : Draw) : Bool :=
  ((S.resume L c draw).1.conns.get c).map Conn.stage = some .joining

/-- What the event adds to the history of peer `p`; `who` says whose each connection is. -/
def deeds (L : Config) (who : ℕ → ℕ) (p : ℕ) (S : SignalingServer) : Event → List Deed
  | .connection _ now => if who S.nextConn = p then [.attempt now] else []
  | .resume c draw => if who c = p ∧ completes L S c draw then [.completed] else []
  | _ => []

def history (L : Config) (who : ℕ → ℕ) (p : ℕ) : SignalingServer → List Event → List Deed
  | _, [] => []
  | S, e :: es => deeds L who p S e ++ history L who p ((server L).next S e) es

/-- **Attempts are limited independently**: in any two runs in which a peer has done the same itself,
its next attempt at one time is refused in both or in neither. -/
def Independent (L : Config) : Prop :=
  ∀ (p : ℕ) (who who' : ℕ → ℕ) (es es' : List Event) (now : ℕ), RelayRun L es now →
    RelayRun L es' now → history L who p (.new L) es = history L who' p (.new L) es' →
    (RateLimits L ((server L).exec (.new L) es) now ↔
      RateLimits L ((server L).exec (.new L) es') now)

/-! ### The limiter -/

/-- **While the server takes connections, the limiter decides.** -/
theorem rateLimits_iff (htaking : S.closing = false) :
    RateLimits L S now ↔ (S.rateLimiter.take now relayIp).2 ≠ none := by
  show _ ∈ (S.handleConnection relayIp now).2 ↔ _
  unfold SignalingServer.handleConnection
  rw [htaking, if_neg Bool.false_ne_true]
  dsimp only
  have hquiet : ∀ (T : SignalingServer) (reason r : String),
      Output.peerRejected relayIp r ∉ (T.refuse relayIp reason).2 := by
    intro T reason r hmem
    unfold SignalingServer.refuse at hmem
    dsimp only at hmem
    split at hmem
    · simp at hmem
    · cases hmem
  cases hwait : (S.rateLimiter.take now relayIp).2 with
  | some wait => simp
  | none =>
    rw [Option.isSome_none, if_neg Bool.false_ne_true]
    split
    · simp only [List.mem_append, hquiet, false_or, List.mem_singleton, ne_eq, not_true_eq_false,
        iff_false]
      decide
    · simp

/-- An attempt that is let through passed the limiter and found room. -/
theorem accepts_iff (htaking : S.closing = false) : Accepts L S now ↔
    (S.rateLimiter.take now relayIp).2 = none ∧ S.activeHandshakes < maxConcurrentHandshakes := by
  show (S.handleConnection relayIp now).2 = [] ↔ _
  unfold SignalingServer.handleConnection
  rw [htaking, if_neg Bool.false_ne_true]
  dsimp only
  cases hwait : (S.rateLimiter.take now relayIp).2 with
  | some wait => simp
  | none =>
    rw [Option.isSome_none, if_neg Bool.false_ne_true]
    split
    · next hbusy => simp; omega
    · next hroom => simp; omega

/-! ### Shutting a peer out -/

/-- An attempt whose peer goes away at once. -/
def failedAttempt (c now : ℕ) : List Event :=
  [.connection relayIp now, .drop c, .resume c ⟨"", 0, 0, []⟩]

/-- The connection of such an attempt, in the end. -/
def endedConn : Conn := ⟨relayIp, true, false, [], [], true, .ended⟩

/-- What a failed attempt leaves behind: a hit. -/
def hitBy (S : SignalingServer) (now : ℕ) : SignalingServer :=
  { S with
    conns := S.conns.set S.nextConn endedConn, nextConn := S.nextConn + 1
    rateLimiter := (S.rateLimiter.take now relayIp).1 }

/-- The connection that has just been let in. -/
def newConn : Conn := ⟨relayIp, false, false, [], [], true, .awaiting .hello⟩

theorem next_connection (htaking : S.closing = false) (haccepts : Accepts L S now) :
    (server L).next S (.connection relayIp now) =
      { S with
        conns := S.conns.set S.nextConn newConn, nextConn := S.nextConn + 1
        activeHandshakes := S.activeHandshakes + 1
        rateLimiter := (S.rateLimiter.take now relayIp).1 } := by
  obtain ⟨hnone, hroom⟩ := (accepts_iff htaking).mp haccepts
  show (S.handleConnection relayIp now).1 = _
  unfold SignalingServer.handleConnection
  rw [htaking, if_neg Bool.false_ne_true]
  dsimp only
  rw [hnone, Option.isSome_none, if_neg Bool.false_ne_true, if_neg (Nat.not_le.mpr hroom)]
  rfl

theorem next_drop {c : ℕ} (hget : S.conns.get c = some newConn) :
    (server L).next S (.drop c) =
      { S with conns := S.conns.set c (newConn.shutAs (.failed "closed")) } := by
  show (S.dropConn L c).1 = _
  rw [dropConn_eq hget]
  rfl

theorem next_resume {c : ℕ} (draw : Draw)
    (hget : S.conns.get c = some (newConn.shutAs (.failed "closed"))) :
    (server L).next S (.resume c draw) =
      { S with
        conns := S.conns.set c endedConn, activeHandshakes := S.activeHandshakes - 1 } := by
  have hclosed : S.closeConn L c = (S, []) := closeConn_closed (by rw [hget]; rfl)
  have hstage : (newConn.shutAs (.failed "closed")).stage = .failed "closed" := rfl
  show (S.resume L c draw).1 = _
  unfold SignalingServer.resume
  rw [hget]
  dsimp only
  rw [hstage]
  dsimp only
  unfold SignalingServer.handshakeFailed SignalingServer.setStage
  rw [hclosed]
  dsimp only
  rw [modifyConn_some hget]
  rfl

/-- **A failed attempt is a hit**, and nothing else that lasts. -/
theorem exec_failedAttempt (htaking : S.closing = false) (hsource : S.source ≠ .gone)
    (haccepts : Accepts L S now) :
    (server L).Valid S (failedAttempt S.nextConn now) ∧
      (server L).exec S (failedAttempt S.nextConn now) = hitBy S now ∧
      ∀ who p, (who S.nextConn ≠ p → history L who p S (failedAttempt S.nextConn now) = []) ∧
        .completed ∉ history L who p S (failedAttempt S.nextConn now) := by
  have hnext₁ := next_connection (L := L) htaking haccepts
  generalize hS₁ : (server L).next S (.connection relayIp now) = S₁ at hnext₁
  have hget₁ : S₁.conns.get S.nextConn = some newConn := by
    rw [hnext₁]
    exact InsertionMap.get_set_self _ _ _
  have hsource₁ : S₁.source ≠ .gone := by
    rw [hnext₁]
    exact hsource
  have hnext₂ := next_drop (L := L) hget₁
  generalize hS₂ : (server L).next S₁ (.drop S.nextConn) = S₂ at hnext₂
  have hget₂ : S₂.conns.get S.nextConn = some (newConn.shutAs (.failed "closed")) := by
    rw [hnext₂]
    exact InsertionMap.get_set_self _ _ _
  have hnext₃ := next_resume (L := L) ⟨"", 0, 0, []⟩ hget₂
  have hend : (server L).next S₂ (.resume S.nextConn ⟨"", 0, 0, []⟩) = hitBy S now := by
    rw [hnext₃, hnext₂, hnext₁]
    simp only [InsertionMap.set_set, Nat.add_sub_cancel]
    rfl
  have hunfinished : completes L S₂ S.nextConn ⟨"", 0, 0, []⟩ = false := by
    have hget₃ : ((server L).next S₂ (.resume S.nextConn ⟨"", 0, 0, []⟩)).conns.get S.nextConn =
        some endedConn := by
      rw [hnext₃]
      exact InsertionMap.get_set_self _ _ _
    have hresume : (S₂.resume L S.nextConn ⟨"", 0, 0, []⟩).1.conns.get S.nextConn =
        some endedConn := hget₃
    unfold completes
    rw [hresume]
    rfl
  refine ⟨⟨hsource, ?_, ?_, trivial⟩, ?_, fun who p => ?_⟩
  · rw [hS₁]
    refine ⟨hsource₁, ?_⟩
    unfold ConnIs
    rw [hget₁]
    rfl
  · rw [hS₁, hS₂]
    show ConnIs S₂ S.nextConn fun k => k.stage.queued
    unfold ConnIs
    rw [hget₂]
    rfl
  · show (server L).next ((server L).next ((server L).next S (.connection relayIp now))
      (.drop S.nextConn)) (.resume S.nextConn ⟨"", 0, 0, []⟩) = hitBy S now
    rw [hS₁, hS₂, hend]
  · have hhistory : history L who p S (failedAttempt S.nextConn now) =
        if who S.nextConn = p then [.attempt now] else [] := by
      simp only [failedAttempt, history, deeds, hS₁, hS₂, hunfinished]
      simp
    rw [hhistory]
    refine ⟨fun hne => if_neg hne, ?_⟩
    split <;> simp

/-- Failing handshakes of newcomers at time `now`: none completes, and none is left under way. -/
structure Failing (L : Config) (S : SignalingServer) (others : List Event) (now : ℕ) : Prop where
  valid : (server L).Valid S others
  relay : ∀ e ∈ others, FromRelay e
  time : ∀ e ∈ others, e.time.getD now = now
  alien : ∀ who p, (∀ c, S.nextConn ≤ c → who c ≠ p) → history L who p S others = []
  failing : ∀ who p, .completed ∉ history L who p S others
  handshakes : ((server L).exec S others).activeHandshakes = S.activeHandshakes
  taking : ((server L).exec S others).closing = S.closing
  source : ((server L).exec S others).source = S.source

theorem history_append (who : ℕ → ℕ) (p : ℕ) (es es' : List Event) : ∀ S,
    history L who p S (es ++ es') =
      history L who p S es ++ history L who p ((server L).exec S es) es' := by
  induction es with
  | nil => exact fun S => rfl
  | cons e es ih =>
    intro S
    simp only [List.cons_append, history, ih, List.append_assoc, Machine.exec_cons]

theorem failing_failedAttempt (htaking : S.closing = false) (hsource : S.source ≠ .gone)
    (haccepts : Accepts L S now) : Failing L S (failedAttempt S.nextConn now) now := by
  obtain ⟨hvalid, hexec, hhistory⟩ := exec_failedAttempt htaking hsource haccepts
  refine ⟨hvalid, ?_, ?_, fun who p hne => (hhistory who p).1 (hne _ (Nat.le_refl _)),
    fun who p => (hhistory who p).2, ?_, ?_, ?_⟩
  · intro e he
    simp only [failedAttempt, List.mem_cons, List.not_mem_nil, or_false] at he
    rcases he with rfl | rfl | rfl
    · rfl
    · trivial
    · trivial
  · intro e he
    simp only [failedAttempt, List.mem_cons, List.not_mem_nil, or_false] at he
    rcases he with rfl | rfl | rfl <;> rfl
  · rw [hexec]
    rfl
  · rw [hexec]
    rfl
  · rw [hexec]
    rfl

theorem Failing.append {others others' : List Event} (h : Failing L S others now)
    (hnext : S.nextConn ≤ ((server L).exec S others).nextConn)
    (h' : Failing L ((server L).exec S others) others' now) :
    Failing L S (others ++ others') now := by
  refine ⟨(Machine.along_append _ _ _ _ _).mpr ⟨h.valid, h'.valid⟩, ?_, ?_, fun who p hne => ?_,
    fun who p => ?_, ?_, ?_, ?_⟩
  · intro e he
    exact (List.mem_append.mp he).elim (h.relay e) (h'.relay e)
  · intro e he
    exact (List.mem_append.mp he).elim (h.time e) (h'.time e)
  · rw [history_append, h.alien who p hne, h'.alien who p fun c hc => hne c (Nat.le_trans hnext hc)]
    rfl
  · rw [history_append]
    exact fun hmem => (List.mem_append.mp hmem).elim (h.failing who p) (h'.failing who p)
  · rw [Machine.exec_append, h'.handshakes, h.handshakes]
  · rw [Machine.exec_append, h'.taking, h.taking]
  · rw [Machine.exec_append, h'.source, h.source]

/-- How many more attempts the bucket of the relay lets through at time `now`. -/
def left (S : SignalingServer) (now : ℕ) : ℕ :=
  S.rateLimiter.cfg.burst -
    (S.rateLimiter.fresh now (S.rateLimiter.bucket relayIp)).length

/-- A failed attempt uses up one of them. -/
theorem left_hitBy (hwindow : 0 < S.rateLimiter.cfg.windowMs)
    (hnone : (S.rateLimiter.take now relayIp).2 = none) : left (hitBy S now) now < left S now := by
  obtain ⟨-, hburst⟩ := RateLimiter.take_eq_none_iff.mp hnone
  have hfresh : ∀ b, RateLimiter.fresh (S.rateLimiter.take now relayIp).1 now b =
      S.rateLimiter.fresh now b := by
    intro b
    unfold RateLimiter.fresh
    rw [RateLimiter.take_cfg]
  -- pruning twice is pruning once, and the new hit counts
  have hagain : S.rateLimiter.fresh now { S.rateLimiter.bucket relayIp with
      hits := S.rateLimiter.fresh now (S.rateLimiter.bucket relayIp) ++ [now] } =
        S.rateLimiter.fresh now (S.rateLimiter.bucket relayIp) ++ [now] := by
    unfold RateLimiter.fresh
    rw [List.filter_append, List.filter_filter]
    simp [hwindow]
  unfold left
  show (S.rateLimiter.take now relayIp).1.cfg.burst - (RateLimiter.fresh
    (S.rateLimiter.take now relayIp).1 now
      ((S.rateLimiter.take now relayIp).1.bucket relayIp)).length < _
  rw [hfresh, RateLimiter.take_cfg, RateLimiter.bucket_of_take_none hnone, hagain,
    List.length_append, List.length_singleton]
  omega

/-- **The lockout**: wherever an attempt would be let through, failing attempts of others at the same
time shut it out. -/
theorem lockout (n : ℕ) : ∀ {S : SignalingServer}, left S now ≤ n →
    0 < S.rateLimiter.cfg.windowMs → S.closing = false → S.source ≠ .gone → Accepts L S now →
    ∃ others, Failing L S others now ∧ RateLimits L ((server L).exec S others) now := by
  induction n with
  | zero =>
    intro S hleft hwindow htaking hsource haccepts
    have hless := left_hitBy hwindow ((accepts_iff htaking).mp haccepts).1
    omega
  | succ n ih =>
    intro S hleft hwindow htaking hsource haccepts
    obtain ⟨hnone, hroom⟩ := (accepts_iff htaking).mp haccepts
    have hfailing := failing_failedAttempt htaking hsource haccepts
    have hexec := (exec_failedAttempt htaking hsource haccepts).2.1
    have htaking' : (hitBy S now).closing = false := htaking
    by_cases hlimits : RateLimits L (hitBy S now) now
    · exact ⟨_, hfailing, by rw [hexec]; exact hlimits⟩
    · -- the next one is let through as well
      have haccepts' : Accepts L (hitBy S now) now := by
        rw [rateLimits_iff htaking', not_not] at hlimits
        exact (accepts_iff htaking').mpr ⟨hlimits, hroom⟩
      have hless := left_hitBy hwindow hnone
      have hwindow' : 0 < (hitBy S now).rateLimiter.cfg.windowMs := by
        show 0 < (S.rateLimiter.take now relayIp).1.cfg.windowMs
        rw [RateLimiter.take_cfg]
        exact hwindow
      obtain ⟨others, hothers, hrefused⟩ :=
        ih (by omega) hwindow' htaking' hsource haccepts'
      refine ⟨failedAttempt S.nextConn now ++ others, hfailing.append ?_ ?_, ?_⟩
      · rw [hexec]
        exact Nat.le_succ _
      · rw [hexec]
        exact hothers
      · rw [Machine.exec_append, hexec]
        exact hrefused

/-! ### Where the limiter refuses everybody or nobody -/

/-- The limiter keeps its configuration. -/
theorem cfg_exec {es : List Event} (hvalid : (server L).Valid (.new L) es) :
    ((server L).exec (.new L) es).rateLimiter.cfg = L.rateLimit := by
  refine Machine.exec_invariant (G := Enabled L) (I := fun S => S.rateLimiter.cfg = L.rateLimit)
    (fun S e hcfg henabled => ?_) hvalid rfl
  refine server_invariant (A := fun _ _ => True)
    (I := fun S => S.rateLimiter.cfg = L.rateLimit) (fun S₁ S₂ out hI hatom => ?_) henabled
    (fun _ _ _ => trivial) hcfg
  cases hatom with
  | account active transfers limiter probes pending hactive hlimiter =>
    rcases hlimiter with rfl | ⟨ip, rfl⟩
    · exact hI
    · exact hI
  | connect k ip now active limiter hstage hactive hlimiter =>
    rcases hlimiter with rfl | rfl
    · exact hI
    · exact (RateLimiter.take_cfg _ _ _).trans hI
  | _ => exact hI

/-- No bucket blocks, and no hit lies ahead. -/
structure Idle (L : Config) (clock : ℕ) (S : SignalingServer) : Prop where
  cfg : S.rateLimiter.cfg = L.rateLimit
  blocked : ∀ key, (S.rateLimiter.bucket key).blockedUntil = 0
  past : ∀ key, ∀ t ∈ (S.rateLimiter.bucket key).hits, t ≤ clock

theorem Idle.later (h : Idle L clock S) (hle : clock ≤ now) : Idle L now S :=
  ⟨h.cfg, h.blocked, fun key t ht => Nat.le_trans (h.past key t ht) hle⟩

/-- In a window of no length nothing counts. -/
theorem Idle.take_eq_none (h : Idle L now S) (hburst : L.rateLimit.burst ≠ 0)
    (hwindow : L.rateLimit.windowMs = 0) (key : String) :
    (S.rateLimiter.take now key).2 = none := by
  have hfresh : S.rateLimiter.fresh now (S.rateLimiter.bucket key) = [] := by
    unfold RateLimiter.fresh
    rw [List.filter_eq_nil_iff]
    intro t ht
    have hle := h.past key t ht
    rw [h.cfg, hwindow, decide_eq_true_eq]
    omega
  refine RateLimiter.take_eq_none_iff.mpr ⟨by rw [h.blocked]; exact Nat.zero_le _, ?_⟩
  rw [hfresh, h.cfg]
  exact Nat.pos_of_ne_zero hburst

theorem Idle.take (h : Idle L now S) (hburst : L.rateLimit.burst ≠ 0)
    (hwindow : L.rateLimit.windowMs = 0) (key : String) :
    Idle L now { S with rateLimiter := (S.rateLimiter.take now key).1 } := by
  have hnone := h.take_eq_none hburst hwindow key
  have hother : ∀ key', key' ≠ key →
      (S.rateLimiter.take now key).1.bucket key' = S.rateLimiter.bucket key' := by
    intro key' hne
    obtain ⟨hblocked, hroom⟩ := RateLimiter.take_eq_none_iff.mp hnone
    unfold RateLimiter.take
    dsimp only
    rw [if_neg (by omega), if_neg (by omega), RateLimiter.bucket_set, if_neg hne]
  refine ⟨(RateLimiter.take_cfg _ _ _).trans h.cfg, fun key' => ?_, fun key' t ht => ?_⟩
  · show ((S.rateLimiter.take now key).1.bucket key').blockedUntil = 0
    by_cases hkey : key' = key
    · rw [hkey, RateLimiter.bucket_of_take_none hnone]
      exact h.blocked key
    · rw [hother key' hkey]
      exact h.blocked key'
  · have hmem : t ∈ ((S.rateLimiter.take now key).1.bucket key').hits := ht
    by_cases hkey : key' = key
    · rw [hkey, RateLimiter.bucket_of_take_none hnone] at hmem
      rcases List.mem_append.mp hmem with hold | hnew
      · exact h.past key t (List.mem_filter.mp hold).1
      · rw [List.mem_singleton.mp hnew]
    · rw [hother key' hkey] at hmem
      exact h.past key' t hmem

theorem Idle.congr (h : Idle L clock S) (hlimiter : S'.rateLimiter = S.rateLimiter) :
    Idle L clock S' :=
  ⟨by rw [hlimiter]; exact h.cfg, by rw [hlimiter]; exact h.blocked, by rw [hlimiter]; exact h.past⟩

theorem Idle.next (h : Idle L clock S) (henabled : Enabled L S e)
    (hle : clock ≤ e.time.getD clock) (hburst : L.rateLimit.burst ≠ 0)
    (hwindow : L.rateLimit.windowMs = 0) :
    Idle L (e.time.getD clock) ((server L).next S e) := by
  have htime : ∀ ip now, e = .connection ip now → now = e.time.getD clock := by
    rintro ip now rfl
    rfl
  generalize e.time.getD clock = now at hle htime ⊢
  refine (does_event (A := fun _ _ => True) henabled (fun _ _ _ => trivial) htime).invariant
    (I := Idle L now) (fun S₁ S₂ out hI hatom => ?_) (h.later hle)
  cases hatom with
  | account active transfers limiter probes pending hactive hlimiter =>
    rcases hlimiter with rfl | ⟨ip, rfl⟩
    · exact hI.congr rfl
    · refine ⟨hI.cfg, fun key => ?_, fun key t ht => ?_⟩
      · show ((S₁.rateLimiter.clear ip).bucket key).blockedUntil = 0
        rw [RateLimiter.bucket_clear]
        split
        · rfl
        · exact hI.blocked key
      · have hmem : t ∈ ((S₁.rateLimiter.clear ip).bucket key).hits := ht
        rw [RateLimiter.bucket_clear] at hmem
        split at hmem
        · cases hmem
        · exact hI.past key t hmem
  | connect k ip t active limiter hstage hactive hlimiter hrate hbusy ht =>
    rcases hlimiter with rfl | rfl
    · exact hI.congr rfl
    · rw [ht]
      exact (hI.take hburst hwindow ip).congr rfl
  | _ => exact hI.congr rfl

theorem idle_exec (hburst : L.rateLimit.burst ≠ 0) (hwindow : L.rateLimit.windowMs = 0)
    (es : List Event) : ∀ {S : SignalingServer} {clock : ℕ}, Idle L clock S →
    (server L).Valid S es → Forward Event.time clock es →
    Idle L (clockAfter Event.time clock es) ((server L).exec S es) := by
  induction es with
  | nil => exact fun h _ _ => h
  | cons e es ih =>
    intro S clock h hvalid hclock
    exact ih (h.next hvalid.1 hclock.1 hburst hwindow) hvalid.2 hclock.2

/-- **Nobody is refused** where the window has no length. -/
theorem not_rateLimits (hburst : L.rateLimit.burst ≠ 0) (hwindow : L.rateLimit.windowMs = 0)
    {es : List Event} (hrun : RelayRun L es now) :
    ¬ RateLimits L ((server L).exec (.new L) es) now := by
  have hclock := (forward_append _ _ _ _).mp hrun.clock
  have hinit : Idle L 0 (.new L) := ⟨rfl, fun _ => rfl, fun _ t ht => by cases ht⟩
  have hidle := idle_exec hburst hwindow es hinit
    ((Machine.along_append _ _ _ _ _).mp hrun.valid).1 hclock.1
  rw [rateLimits_iff hrun.taking, not_not]
  exact (hidle.later hclock.2.1).take_eq_none hburst hwindow relayIp

/-- **Everybody is refused** where there is no burst. -/
theorem rateLimits_of_no_burst (hburst : L.rateLimit.burst = 0) {es : List Event}
    (hrun : RelayRun L es now) : RateLimits L ((server L).exec (.new L) es) now := by
  rw [rateLimits_iff hrun.taking]
  intro hnone
  have hroom := (RateLimiter.take_eq_none_iff.mp hnone).2
  rw [cfg_exec ((Machine.along_append _ _ _ _ _).mp hrun.valid).1, hburst] at hroom
  exact absurd hroom (Nat.not_lt_zero _)

/-- **Attempts are limited independently exactly where the limiter refuses everybody or nobody.**
Under every other configuration, whatever the run so far, failing handshakes of others turn the
admission of a peer into a refusal. -/
theorem independent_iff (L : Config) :
    (Independent L ↔ L.rateLimit.burst = 0 ∨ L.rateLimit.windowMs = 0) ∧
      (L.rateLimit.burst ≠ 0 → L.rateLimit.windowMs ≠ 0 → ∀ es now, RelayRun L es now →
        Accepts L ((server L).exec (.new L) es) now →
        ∃ others, Failing L ((server L).exec (.new L) es) others now ∧
          RelayRun L (es ++ others) now ∧
          RateLimits L ((server L).exec (.new L) (es ++ others)) now) := by
  have hshut : L.rateLimit.windowMs ≠ 0 → ∀ es now, RelayRun L es now →
      Accepts L ((server L).exec (.new L) es) now →
      ∃ others, Failing L ((server L).exec (.new L) es) others now ∧
        RelayRun L (es ++ others) now ∧
        RateLimits L ((server L).exec (.new L) (es ++ others)) now := by
    intro hwindow es now hrun haccepts
    obtain ⟨hvalid, hlast, -⟩ := (Machine.along_append _ _ _ _ _).mp hrun.valid
    obtain ⟨hclock, hle, -⟩ := (forward_append _ _ _ _).mp hrun.clock
    have hcfg := cfg_exec hvalid
    obtain ⟨others, hothers, hrefused⟩ := lockout _ (Nat.le_refl _)
      (by rw [hcfg]; exact Nat.pos_of_ne_zero hwindow) hrun.taking hlast haccepts
    obtain ⟨htimes, hend⟩ := forward_of_all_at hle hothers.time
    refine ⟨others, hothers, ⟨?_, fun e he => ?_, ?_, ?_⟩, ?_⟩
    · rw [List.append_assoc]
      refine (Machine.along_append _ _ _ _ _).mpr ⟨hvalid,
        (Machine.along_append _ _ _ _ _).mpr ⟨hothers.valid, ?_, trivial⟩⟩
      show ((server L).exec _ others).source ≠ .gone
      rw [hothers.source]
      exact hlast
    · exact (List.mem_append.mp he).elim (hrun.relay e) (hothers.relay e)
    · rw [List.append_assoc]
      exact (forward_append _ _ _ _).mpr ⟨hclock,
        (forward_append _ _ _ _).mpr ⟨htimes, hend, trivial⟩⟩
    · rw [Machine.exec_append, hothers.taking]
      exact hrun.taking
    · rw [Machine.exec_append]
      exact hrefused
  refine ⟨⟨fun hindep => ?_, ?_⟩, fun _ => hshut⟩
  · by_contra hcon
    rw [not_or] at hcon
    -- nobody has done anything yet: the first attempt of all is let through
    have hempty : RelayRun L [] 0 :=
      ⟨⟨fun h => (by cases h), trivial⟩, fun e he => (by cases he), ⟨Nat.le_refl _, trivial⟩, rfl⟩
    have hfirst : (RateLimiter.take 0 relayIp (.new L.rateLimit)).2 = none :=
      RateLimiter.take_eq_none_iff.mpr ⟨Nat.le_refl _, Nat.pos_of_ne_zero hcon.1⟩
    have haccepts : Accepts L (.new L) 0 := (accepts_iff rfl).mpr ⟨hfirst, Nat.zero_lt_succ 2⟩
    obtain ⟨others, hothers, hrun, hrefused⟩ := hshut hcon.2 [] 0 hempty haccepts
    have hsame := hindep 0 (fun _ => 1) (fun _ => 1) [] others 0 hempty hrun
      (hothers.alien (fun _ => 1) 0 fun _ _ => Nat.one_ne_zero).symm
    exact (rateLimits_iff rfl).mp (hsame.mpr hrefused) hfirst
  · rintro (hburst | hwindow) p who who' es es' now hrun hrun' -
    · exact iff_of_true (rateLimits_of_no_burst hburst hrun) (rateLimits_of_no_burst hburst hrun')
    · by_cases hburst : L.rateLimit.burst = 0
      · exact iff_of_true (rateLimits_of_no_burst hburst hrun)
          (rateLimits_of_no_burst hburst hrun')
      · exact iff_of_false (not_rateLimits hburst hwindow hrun)
          (not_rateLimits hburst hwindow hrun')

/-- Five peers come and go. -/
def fiveLeave : List Event :=
  failedAttempt 0 1000 ++ failedAttempt 1 1100 ++ failedAttempt 2 1200 ++ failedAttempt 3 1300 ++
    failedAttempt 4 1400

/-- The first attempt of a sixth peer is refused, which it would not be without them. -/
theorem fiveLeave_shut_out : ¬ Independent smallRoom := by
  intro hindep
  have halone : RelayRun smallRoom [] 1500 :=
    ⟨by decide +kernel, by decide, by decide, by decide +kernel⟩
  have hbusy : RelayRun smallRoom fiveLeave 1500 :=
    ⟨by decide +kernel, by decide, by decide, by decide +kernel⟩
  have hsame := hindep 6 (fun c => c + 1) (fun c => c + 1) [] fiveLeave 1500 halone hbusy
    (by decide +kernel)
  have hrefused : RateLimits smallRoom ((server smallRoom).exec (.new smallRoom) fiveLeave) 1500 := by
    decide +kernel
  have hnot : ¬ RateLimits smallRoom ((server smallRoom).exec (.new smallRoom) []) 1500 := by
    decide +kernel
  exact hnot (hsame.mpr hrefused)

end ScreenSharing.Signaling
