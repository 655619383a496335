import ScreenSharing.Net.HostLink
import ScreenSharing.Relay.Membership
import ScreenSharing.Signaling.Changes

/-!
# The adoption of the survivors

A successor claims the room of a host that handed off.  The relay answers with READY and, back to
back, one PEER_UP for each peer that is still connected; the successor's link hands each of them to
its fresh signaling server as a connection from the ip `relay`.  `Adoption` puts the three together:
the frames on their way to the successor, its link, and its server.

To the server the survivors are newcomers like any other.  `MAX_CONCURRENT_HANDSHAKES` of them may
be in their handshake at a time, and the announcements can all arrive before any handshake is over.
`adopts_all_iff` says that the cap is the bound: whatever the order of events, no survivor is
refused for load exactly if there are three of them at most.
-/

namespace ScreenSharing.Handoff

open Lib Net Signaling
open Relay (sentTo sentTo_cons_send)

/-! ### The successor's side -/

structure Adoption where
  /-- the frames on their way from the relay -/
  inFlight : List Relay.Frame
  link : HostLink
  server : SignalingServer

inductive AdoptionEvent
  /-- the relay sends a further frame -/
  | announce (frame : Relay.Frame)
  | receive (now : ℕ)
  /-- `SignalingServer.listen` calls `onConnection` -/
  | listen (now : ℕ)
  | server (e : Event)

/-- The frame that a payload is for the connection it arrives on: parsed, or decrypted. -/
abbrev Decode := SignalingServer → ℕ → Bool → Relay.Bytes → Signaling.Frame

variable (L : Config) (decode : Decode)

/-- What the server does with a callback of its link. -/
def call (now : ℕ) (S : SignalingServer) : Callback → SignalingServer × List Output
  | .connection _ => S.handleConnection "relay" now
  | .message vt isBinary payload => S.onFrame L vt (decode S vt isBinary payload)
  | .dropped vt =>
    if ((S.conns.get vt).map Conn.closed).getD true then (S, []) else S.dropConn L vt

def callAll (now : ℕ) : List Callback → SignalingServer → SignalingServer × List Output
  | [], S => (S, [])
  | callback :: rest, S =>
    let (S₁, out₁) := call L decode now S callback
    let (S₂, out₂) := callAll now rest S₁
    (S₂, out₁ ++ out₂)

/-- Closing a transport takes it out of the link. -/
def kickAll (link : HostLink) (out : List Output) : HostLink :=
  out.foldl (fun link o =>
    match o with
    | .kick vt => link.kick vt
    | _ => link) link

/-- Events of the server that only its link brings about. -/
def fromLink : Event → Bool
  | .connection _ _ | .deliver _ _ | .drop _ => true
  | _ => false

def Adoption.step (A : Adoption) : AdoptionEvent → Adoption × List Output
  | .announce frame => ({ A with inFlight := A.inFlight ++ [frame] }, [])
  | .receive now =>
    match A.inFlight with
    | [] => (A, [])
    | frame :: rest =>
      let (link, callbacks) := A.link.onFrame frame
      let (S, out) := callAll L decode now callbacks A.server
      (⟨rest, kickAll link out, S⟩, out)
  | .listen now =>
    let (link, callbacks) := A.link.onConnection
    let (S, out) := callAll L decode now callbacks A.server
    (⟨A.inFlight, kickAll link out, S⟩, out)
  | .server e =>
    let (S, out) := react L A.server e
    (⟨A.inFlight, kickAll A.link out, S⟩, out)

/-- The relay gives no newcomer the connId of a survivor; `listen` runs once, after `open`. -/
def Adoption.Enabled (survivors : List ℕ) (A : Adoption) : AdoptionEvent → Prop
  | .announce frame => ∀ connId ∈ HostLink.announced [frame], connId ∉ survivors
  | .receive _ => A.inFlight ≠ [] ∧ A.server.source ≠ .gone
  | .listen _ => A.link.listening = false ∧ A.link.opening.isReady = true
  | .server e => Signaling.Enabled L A.server e ∧ fromLink e = false

instance (survivors : List ℕ) (A : Adoption) (e : AdoptionEvent) :
    Decidable (A.Enabled L survivors e) := by
  cases e <;> unfold Adoption.Enabled <;> infer_instance

def adoption (survivors : List ℕ) : Machine Adoption AdoptionEvent Output :=
  ⟨Adoption.Enabled L survivors, Adoption.step L decode⟩

instance (survivors : List ℕ) (A : Adoption) (e : AdoptionEvent) :
    Decidable ((adoption L decode survivors).enabled A e) :=
  inferInstanceAs (Decidable (A.Enabled L survivors e))

/-- The successor has sent its HELLO. -/
def Adoption.start (frames : List Relay.Frame) : Adoption := ⟨frames, .new, .new L⟩

/-- A connection was refused because there were too many. -/
def ForLoad (stage : Stage) : Prop :=
  stage = .refused "rate_limited" ∨ stage = .refused "too_many_handshakes"

/-- The connection of `connId` was refused for load. -/
def RefusedForLoad (A : Adoption) (connId : ℕ) : Prop :=
  ∃ i k, A.link.made[i]? = some connId ∧ A.server.conns.get i = some k ∧ ForLoad k.stage

/-! ### What the relay sends -/

variable {L decode} {S S' : SignalingServer} {A : Conn → Draw → Prop} {B : String → ℕ → Prop}
  {out : List Output}

/-- The loop of `#claimHandoff`, as the new host sees it. -/
theorem sentTo_peers (socket : Relay.Socket) (entries : List (ℕ × Relay.Socket)) :
    HostLink.announced (sentTo socket (entries.flatMap fun e =>
        [.send socket (.peerUp e.1), .send e.2 .hostClaimed])) = entries.map Prod.fst ∧
      ∀ f ∈ sentTo socket (entries.flatMap fun e =>
          [.send socket (.peerUp e.1), .send e.2 .hostClaimed]),
        (∃ connId, f = .peerUp connId) ∨ f = .hostClaimed := by
  induction entries with
  | nil => exact ⟨rfl, fun f hf => by cases hf⟩
  | cons e es ih =>
    obtain ⟨ihups, ihkinds⟩ := ih
    have hcons : sentTo socket ((e :: es).flatMap fun e =>
        [.send socket (.peerUp e.1), .send e.2 .hostClaimed]) =
        .peerUp e.1 :: ((if e.2 = socket then [Relay.Frame.hostClaimed] else []) ++
          sentTo socket (es.flatMap fun e =>
            [.send socket (.peerUp e.1), .send e.2 .hostClaimed])) := by
      rw [List.flatMap_cons, List.cons_append, List.cons_append, List.nil_append,
        sentTo_cons_send, if_pos rfl, sentTo_cons_send]
      split <;> rfl
    rw [hcons]
    constructor
    · have hself :
          HostLink.announced (if e.2 = socket then [Relay.Frame.hostClaimed] else []) = [] := by
        split <;> rfl
      have happ : ∀ fs gs, HostLink.announced (fs ++ gs) =
          HostLink.announced fs ++ HostLink.announced gs := fun _ _ => List.filterMap_append
      change e.1 :: HostLink.announced _ = _
      rw [happ, hself, ihups]
      rfl
    · intro f hf
      rcases List.mem_cons.mp hf with rfl | hf
      · exact .inl ⟨e.1, rfl⟩
      · rcases List.mem_append.mp hf with hf | hf
        · split at hf
          · exact .inr (List.mem_singleton.mp hf)
          · cases hf
        · exact ihkinds f hf

/-- **The answer to a claim**: READY, and one PEER_UP for each peer of the room. -/
theorem sentTo_claimHandoff (token : String) (socket : Relay.Socket) (room : Relay.Room)
    (R : Relay.State) :
    ∃ fs, sentTo socket (Relay.claimHandoff token socket room R).2 =
        .ready none (some token) :: fs ∧
      HostLink.announced fs = room.peers.keys ∧
      ∀ f ∈ fs, (∃ connId, f = .peerUp connId) ∨ f = .hostClaimed := by
  obtain ⟨hups, hkinds⟩ := sentTo_peers socket room.peers.entries
  refine ⟨_, ?_, hups, hkinds⟩
  change sentTo socket (.send socket (.ready none (some token)) :: _) = _
  rw [sentTo_cons_send, if_pos rfl]

/-! ### The first three connections -/

/-- What holds of a fresh server as long as it was handed three connections at most. -/
structure Calm (S : SignalingServer) : Prop where
  cfg : S.rateLimiter.cfg = defaultRateLimit
  blocked : ∀ key, (S.rateLimiter.bucket key).blockedUntil = 0
  hits : ∀ key, (S.rateLimiter.bucket key).hits.length ≤ S.nextConn
  active : S.activeHandshakes ≤ S.nextConn

/-- The first three connections are not refused for load. -/
structure Spared (S : SignalingServer) : Prop where
  calm : S.nextConn ≤ 3 → Calm S
  first : ∀ i k, i < 3 → S.conns.get i = some k → ¬ ForLoad k.stage

theorem not_forLoad_of_ongoing {stage : Stage} (h : stage.ongoing = true) : ¬ ForLoad stage := by
  rintro (rfl | rfl) <;> cases h

theorem Calm.take_eq_none (h : Calm S) (hn : S.nextConn < 5) (now : ℕ) (ip : String) :
    (S.rateLimiter.take now ip).2 = none := by
  refine RateLimiter.take_eq_none ?_ ?_
  · rw [h.blocked ip]
    exact Nat.zero_le now
  · rw [h.cfg]
    exact Nat.lt_of_le_of_lt (h.hits ip) hn

/-- The limiter of a calm server stays calm over one more attempt. -/
theorem Calm.take (h : Calm S) (hn : S.nextConn < 5) (now : ℕ) (ip : String) :
    (S.rateLimiter.take now ip).1.cfg = defaultRateLimit ∧
      ∀ key, ((S.rateLimiter.take now ip).1.bucket key).blockedUntil = 0 ∧
        ((S.rateLimiter.take now ip).1.bucket key).hits.length ≤ S.nextConn + 1 := by
  have hallowed : (S.rateLimiter.bucket ip).hits.length < S.rateLimiter.cfg.burst := by
    rw [h.cfg]
    exact Nat.lt_of_le_of_lt (h.hits ip) hn
  have hblocked : (S.rateLimiter.bucket ip).blockedUntil ≤ now := by
    rw [h.blocked ip]
    exact Nat.zero_le now
  rw [RateLimiter.take_of_allowed hblocked hallowed]
  refine ⟨h.cfg, fun key => ?_⟩
  rw [RateLimiter.bucket_set]
  split
  · refine ⟨h.blocked ip, ?_⟩
    have hfresh : (S.rateLimiter.fresh now (S.rateLimiter.bucket ip)).length
        ≤ (S.rateLimiter.bucket ip).hits.length := List.length_filter_le _ _
    have hhits := h.hits ip
    rw [List.length_append, List.length_singleton]
    omega
  · exact ⟨h.blocked key, Nat.le_succ_of_le (h.hits key)⟩

theorem Calm.connect (h : Calm S) (hn : S.nextConn < 5) {k : Conn} {ip : String} {now active : ℕ}
    {limiter : RateLimiter} (hactive : active ≤ S.activeHandshakes + 1)
    (hlimiter : limiter = S.rateLimiter ∨ limiter = (S.rateLimiter.take now ip).1) :
    Calm { S with
      conns := S.conns.set S.nextConn k, nextConn := S.nextConn + 1
      activeHandshakes := active, rateLimiter := limiter } := by
  have hle : active ≤ S.nextConn + 1 := Nat.le_trans hactive (Nat.succ_le_succ h.active)
  rcases hlimiter with rfl | rfl
  · exact ⟨h.cfg, h.blocked, fun key => Nat.le_succ_of_le (h.hits key), hle⟩
  · obtain ⟨hcfg, hbucket⟩ := h.take hn now ip
    exact ⟨hcfg, fun key => (hbucket key).1, fun key => (hbucket key).2, hle⟩

/-- **No elementary change refuses one of the first three connections for load.** -/
theorem Spared.atom (h : Spared S) (hatom : Atom L A B S S' out) : Spared S' := by
  cases hatom with
  | conn c k k' hget hstage =>
    refine ⟨fun hn => ⟨(h.calm hn).cfg, (h.calm hn).blocked, (h.calm hn).hits, (h.calm hn).active⟩,
      fun i ki hi hki => ?_⟩
    by_cases hc : i = c
    · subst hc
      rw [InsertionMap.get_set_self] at hki
      cases hki
      rcases hstage with heq | ⟨-, hongoing⟩
      · rw [heq]
        exact h.first i k hi hget
      · exact not_forLoad_of_ongoing hongoing
    · rw [InsertionMap.get_set_ne _ _ hc] at hki
      exact h.first i ki hi hki
  | leave c k p hget hstage =>
    refine ⟨fun hn => ⟨(h.calm hn).cfg, (h.calm hn).blocked, (h.calm hn).hits, (h.calm hn).active⟩,
      fun i ki hi hki => ?_⟩
    by_cases hc : i = c
    · subst hc
      rw [InsertionMap.get_set_self] at hki
      cases hki
      exact h.first i k hi hget
    · rw [InsertionMap.get_set_ne _ _ hc] at hki
      exact h.first i ki hi hki
  | account active transfers limiter probes pending hactive hlimiter =>
    refine ⟨fun hn => ?_, h.first⟩
    have hcalm := h.calm hn
    refine ⟨?_, ?_, ?_, Nat.le_trans hactive hcalm.active⟩
    · rcases hlimiter with rfl | ⟨ip, rfl⟩
      · exact hcalm.cfg
      · exact hcalm.cfg
    · intro key
      rcases hlimiter with rfl | ⟨ip, rfl⟩
      · exact hcalm.blocked key
      · dsimp only
        rw [RateLimiter.bucket_clear]
        split
        · rfl
        · exact hcalm.blocked key
    · intro key
      rcases hlimiter with rfl | ⟨ip, rfl⟩
      · exact hcalm.hits key
      · dsimp only
        rw [RateLimiter.bucket_clear]
        split
        · exact Nat.zero_le _
        · exact hcalm.hits key
  | connect k ip now active limiter hstage hactive hlimiter hrate hbusy =>
    refine ⟨fun hn => ?_, fun i ki hi hki => ?_⟩
    · have hn' : S.nextConn < 3 := hn
      exact (h.calm (by omega)).connect (by omega) hactive hlimiter
    · by_cases hc : i = S.nextConn
      · subst hc
        rw [InsertionMap.get_set_self] at hki
        cases hki
        have hcalm := h.calm (Nat.le_of_lt hi)
        rintro (hload | hload)
        · have hwait := hrate hload
          rw [hcalm.take_eq_none (by omega)] at hwait
          cases hwait
        · have hfull : 3 ≤ S.activeHandshakes := hbusy hload
          have hactive := hcalm.active
          omega
      · rw [InsertionMap.get_set_ne _ _ hc] at hki
        exact h.first i ki hi hki
  | admission c k join draw out hget =>
    refine ⟨fun hn => ⟨(h.calm hn).cfg, (h.calm hn).blocked, (h.calm hn).hits, (h.calm hn).active⟩,
      fun i ki hi hki => ?_⟩
    by_cases hc : i = c
    · subst hc
      rw [InsertionMap.get_set_self] at hki
      cases hki
      rintro (hload | hload) <;> cases hload
    · rw [InsertionMap.get_set_ne _ _ hc] at hki
      exact h.first i ki hi hki
  | _ =>
    exact ⟨fun hn => ⟨(h.calm hn).cfg, (h.calm hn).blocked, (h.calm hn).hits, (h.calm hn).active⟩,
      h.first⟩

theorem spared_new (hrate : L.rateLimit = defaultRateLimit) : Spared (.new L) where
  calm _ := ⟨hrate, fun _ => rfl, fun _ => Nat.le_refl _, Nat.le_refl _⟩
  first i k _ hget := by cases hget

theorem does_call (now : ℕ) (callback : Callback) :
    Does L A (fun _ _ => True) S (call L decode now S callback).1 (call L decode now S callback).2 := by
  cases callback with
  | connection vt => exact does_handleConnection "relay" now trivial
  | message vt isBinary payload => exact does_onFrame vt _
  | dropped vt =>
    simp only [call]
    split
    · exact .refl S
    · exact does_dropConn vt

theorem does_callAll (now : ℕ) (callbacks : List Callback) :
    Does L A (fun _ _ => True) S (callAll L decode now callbacks S).1 (callAll L decode now callbacks S).2 := by
  induction callbacks generalizing S with
  | nil => exact .refl S
  | cons callback rest ih => exact (does_call now callback).trans ih

theorem Spared.does (h : Spared S) (hdoes : Does L (fun _ _ => True) B S S' out) : Spared S' :=
  hdoes.invariant (fun _ _ _ hS hatom => hS.atom hatom) h

/-! ### Three survivors or fewer -/

theorem made_kickAll (link : HostLink) (out : List Output) :
    (kickAll link out).made = link.made := by
  unfold kickAll
  induction out generalizing link with
  | nil => rfl
  | cons o rest ih =>
    rw [List.foldl_cons, ih]
    split
    · exact HostLink.made_kick link _
    · rfl

/-- The survivors are announced first. -/
structure Ordered (survivors : List ℕ) (A : Adoption) : Prop where
  spared : Spared A.server
  order : ∃ newcomers, A.link.made ++ HostLink.announced A.inFlight = survivors ++ newcomers ∧
    ∀ connId ∈ newcomers, connId ∉ survivors

theorem announced_append (fs gs : List Relay.Frame) :
    HostLink.announced (fs ++ gs) = HostLink.announced fs ++ HostLink.announced gs :=
  List.filterMap_append

theorem ordered_next {survivors : List ℕ} {A : Adoption} {e : AdoptionEvent}
    (h : Ordered survivors A) (henabled : A.Enabled L survivors e) :
    Ordered survivors ((adoption L decode survivors).next A e) := by
  obtain ⟨newcomers, horder, hnew⟩ := h.order
  cases e with
  | announce frame =>
    refine ⟨h.spared, newcomers ++ HostLink.announced [frame], ?_, fun connId hmem => ?_⟩
    · change A.link.made ++ HostLink.announced (A.inFlight ++ [frame]) = _
      rw [announced_append, ← List.append_assoc, horder, List.append_assoc]
    · rcases List.mem_append.mp hmem with hmem | hmem
      · exact hnew connId hmem
      · exact henabled connId hmem
  | receive now =>
    cases hflight : A.inFlight with
    | nil => exact absurd hflight henabled.1
    | cons frame rest =>
      have hnext : (adoption L decode survivors).next A (.receive now) =
          ⟨rest, kickAll (A.link.onFrame frame).1
              (callAll L decode now (A.link.onFrame frame).2 A.server).2,
            (callAll L decode now (A.link.onFrame frame).2 A.server).1⟩ := by
        change (A.step L decode (.receive now)).1 = _
        simp only [Adoption.step, hflight]
      rw [hnext]
      refine ⟨h.spared.does (does_callAll now _), newcomers, ?_, hnew⟩
      dsimp only
      rw [made_kickAll, HostLink.made_onFrame, List.append_assoc, ← horder, hflight]
      exact congrArg (A.link.made ++ ·) (announced_append [frame] rest).symm
  | listen now =>
    refine ⟨h.spared.does (does_callAll now _), newcomers, ?_, hnew⟩
    change (kickAll A.link.onConnection.1 _).made ++ _ = _
    rw [made_kickAll]
    exact horder
  | server e =>
    refine ⟨h.spared.does (does_step henabled.1 fun _ _ _ => trivial), newcomers, ?_, hnew⟩
    change (kickAll A.link _).made ++ _ = _
    rw [made_kickAll]
    exact horder

/-- Three survivors at most are among the first three connections. -/
theorem Ordered.not_refused {survivors : List ℕ} {A : Adoption} (h : Ordered survivors A)
    (hfew : survivors.length ≤ 3) {connId : ℕ} (hmem : connId ∈ survivors) :
    ¬ RefusedForLoad A connId := by
  rintro ⟨i, k, hmade, hget, hload⟩
  obtain ⟨newcomers, horder, hnew⟩ := h.order
  have hi : i < survivors.length := by
    by_contra hge
    have hall : (survivors ++ newcomers)[i]? = some connId := by
      rw [← horder]
      exact List.getElem?_append_left (List.getElem?_eq_some_iff.mp hmade).1 ▸ hmade
    rw [List.getElem?_append_right (Nat.le_of_not_lt hge)] at hall
    exact hnew connId (List.mem_of_getElem? hall) hmem
  exact h.spared.first i k (Nat.lt_of_lt_of_le hi hfew) hget hload

/-! ### Four survivors or more -/

/-- The next survivor is handed to the server. -/
def handOn (S : SignalingServer) : SignalingServer := (S.handleConnection "relay" 0).1

theorem callAll_connections (vts : List ℕ) (S : SignalingServer) :
    (callAll L decode 0 (vts.map .connection) S).1 = handOn^[vts.length] S := by
  induction vts generalizing S with
  | nil => rfl
  | cons vt rest ih => exact ih (handOn S)

theorem handOn_accepts (h : Calm S) (hopen : S.closing = false) (hn : S.nextConn < 5)
    (hactive : S.activeHandshakes < 3) :
    handOn S = { S with
      conns := S.conns.set S.nextConn ⟨"relay", false, false, [], [], true, .awaiting .hello⟩
      nextConn := S.nextConn + 1
      rateLimiter := (S.rateLimiter.take 0 "relay").1
      activeHandshakes := S.activeHandshakes + 1 } := by
  have hwait := h.take_eq_none hn 0 "relay"
  have hfree : ¬ S.activeHandshakes ≥ maxConcurrentHandshakes := Nat.not_le.mpr hactive
  unfold handOn SignalingServer.handleConnection
  rw [hopen, if_neg Bool.false_ne_true]
  dsimp only
  rw [hwait, Option.isSome_none, if_neg Bool.false_ne_true, if_neg hfree]

theorem handOn_busy (h : Calm S) (hopen : S.closing = false) (hn : S.nextConn < 5)
    (hactive : 3 ≤ S.activeHandshakes) :
    (handOn S).conns.get S.nextConn
      = some ⟨"relay", true, false, [], [], false, .refused "too_many_handshakes"⟩ := by
  have hwait := h.take_eq_none hn 0 "relay"
  have hfull : S.activeHandshakes ≥ maxConcurrentHandshakes := hactive
  unfold handOn SignalingServer.handleConnection
  rw [hopen, if_neg Bool.false_ne_true]
  dsimp only
  rw [hwait, Option.isSome_none, if_neg Bool.false_ne_true, if_pos hfull]
  exact InsertionMap.get_set_self _ _ _

/-- Every connection gets the next number and leaves the earlier ones alone. -/
theorem handOn_keeps (S : SignalingServer) : (handOn S).nextConn = S.nextConn + 1 ∧
    ∀ i, i < S.nextConn → (handOn S).conns.get i = S.conns.get i := by
  have hset : ∀ k i, i < S.nextConn → (S.conns.set S.nextConn k).get i = S.conns.get i :=
    fun k i hi => InsertionMap.get_set_ne _ _ (Nat.ne_of_lt hi)
  unfold handOn SignalingServer.handleConnection SignalingServer.refuse
  split
  · exact ⟨rfl, hset _⟩
  · dsimp only
    split
    · exact ⟨rfl, hset _⟩
    · split
      · exact ⟨rfl, hset _⟩
      · exact ⟨rfl, hset _⟩

theorem handOn_iterate_keeps (m : ℕ) (S : SignalingServer) (i : ℕ) (hi : i < S.nextConn) :
    (handOn^[m] S).conns.get i = S.conns.get i := by
  induction m generalizing S with
  | zero => rfl
  | succ m ih =>
    obtain ⟨hnext, hkeep⟩ := handOn_keeps S
    rw [Function.iterate_succ_apply, ih (handOn S) (by omega), hkeep i hi]

/-- **The fourth survivor in a row is refused.** -/
theorem fourth_refused (hrate : L.rateLimit = defaultRateLimit) (m : ℕ) :
    (handOn^[4 + m] (.new L)).conns.get 3
      = some ⟨"relay", true, false, [], [], false, .refused "too_many_handshakes"⟩ := by
  have hstep : ∀ S : SignalingServer, Calm S → S.closing = false → S.nextConn < 3 →
      S.activeHandshakes = S.nextConn →
      Calm (handOn S) ∧ (handOn S).closing = false ∧ (handOn S).nextConn = S.nextConn + 1 ∧
        (handOn S).activeHandshakes = S.activeHandshakes + 1 := by
    intro S h hopen hn hactive
    rw [handOn_accepts h hopen (by omega) (by omega)]
    exact ⟨h.connect (by omega) (Nat.le_refl _) (.inr rfl), hopen, rfl, rfl⟩
  have h₀ : Calm (.new L) := (spared_new hrate).calm (Nat.zero_le 3)
  obtain ⟨h₁, hopen₁, hn₁, ha₁⟩ := hstep (.new L) h₀ rfl (Nat.zero_lt_succ 2) rfl
  have hn₁' : (handOn (.new L)).nextConn = 1 := hn₁
  have ha₁' : (handOn (.new L)).activeHandshakes = 1 := ha₁
  obtain ⟨h₂, hopen₂, hn₂, ha₂⟩ := hstep _ h₁ hopen₁ (by omega) (by omega)
  obtain ⟨h₃, hopen₃, hn₃, ha₃⟩ := hstep _ h₂ hopen₂ (by omega) (by omega)
  have hn₃' : (handOn (handOn (handOn (.new L)))).nextConn = 3 := by omega
  have hbusy := handOn_busy h₃ hopen₃ (by omega) (by omega)
  rw [hn₃'] at hbusy
  have hsplit : handOn^[4 + m] (.new L) =
      handOn^[m] (handOn (handOn (handOn (handOn (.new L))))) := by
    rw [Nat.add_comm, Function.iterate_add_apply]
    rfl
  have hn₄ := (handOn_keeps (handOn (handOn (handOn (.new L))))).1
  rw [hsplit, handOn_iterate_keeps m _ 3 (by omega), hbusy]

/-- While the link does not listen, the announcements are only buffered. -/
theorem receive_announcements (decode : Decode) (survivors : List ℕ) (fs : List Relay.Frame)
    (hkinds : ∀ f ∈ fs, (∃ connId, f = .peerUp connId) ∨ f = .hostClaimed) (link : HostLink)
    (S : SignalingServer) (hlistening : link.listening = false) (hsource : S.source ≠ .gone)
    (hpending : link.pendingPeers = List.range link.made.length) :
    (adoption L decode survivors).Valid ⟨fs, link, S⟩ (List.replicate fs.length (.receive 0)) ∧
      ∃ link', (adoption L decode survivors).exec ⟨fs, link, S⟩
          (List.replicate fs.length (.receive 0)) = ⟨[], link', S⟩ ∧
        link'.made = link.made ++ HostLink.announced fs ∧ link'.listening = false ∧
        link'.opening = link.opening ∧ link'.pendingPeers = List.range link'.made.length := by
  induction fs generalizing link with
  | nil =>
    refine ⟨trivial, link, rfl, ?_, hlistening, rfl, hpending⟩
    exact (List.append_nil _).symm
  | cons f fs ih =>
    -- the frame changes the link and calls nothing back
    have hframe : (link.onFrame f).2 = [] ∧ (link.onFrame f).1.listening = false ∧
        (link.onFrame f).1.opening = link.opening := by
      rcases hkinds f List.mem_cons_self with ⟨connId, rfl⟩ | rfl
      · simp [HostLink.onFrame, HostLink.peerUp, hlistening]
      · exact ⟨rfl, hlistening, rfl⟩
    obtain ⟨hcalls, hlistening', hopening'⟩ := hframe
    have hpending' := HostLink.pendingPeers_onFrame hlistening hpending f
    have hnext : (adoption L decode survivors).next ⟨f :: fs, link, S⟩ (.receive 0) =
        ⟨fs, (link.onFrame f).1, S⟩ := by
      change (Adoption.step L decode ⟨f :: fs, link, S⟩ (.receive 0)).1 = _
      simp only [Adoption.step, hcalls, callAll]
      rfl
    obtain ⟨hvalid, link', hexec, hmade, hlisten, hopening, hbuffered⟩ :=
      ih (fun g hg => hkinds g (List.mem_cons_of_mem _ hg)) (link.onFrame f).1 hlistening' hpending'
    refine ⟨⟨⟨List.cons_ne_nil _ _, hsource⟩, ?_⟩, link', ?_, ?_, hlisten,
      hopening.trans hopening', hbuffered⟩
    · rw [hnext]
      exact hvalid
    · change (adoption L decode survivors).exec
        ((adoption L decode survivors).next ⟨f :: fs, link, S⟩ (.receive 0)) _ = _
      rw [hnext]
      exact hexec
    · rw [hmade, HostLink.made_onFrame, List.append_assoc]
      exact congrArg (link.made ++ ·) (announced_append [f] fs).symm

/-- **With four survivors, one is refused**: all announcements arrive before the server listens. -/
theorem refused_of_four (decode : Decode) (hrate : L.rateLimit = defaultRateLimit)
    {survivors : List ℕ} {token : String} {fs : List Relay.Frame}
    (hannounced : HostLink.announced fs = survivors)
    (hkinds : ∀ f ∈ fs, (∃ connId, f = .peerUp connId) ∨ f = .hostClaimed)
    (hmany : 4 ≤ survivors.length) :
    ∃ es, (adoption L decode survivors).Valid (.start L (.ready none (some token) :: fs)) es ∧
      ∃ connId ∈ survivors, RefusedForLoad
        ((adoption L decode survivors).exec (.start L (.ready none (some token) :: fs)) es)
        connId := by
  let link₁ : HostLink := { HostLink.new with opening := .ready token }
  have hready : (adoption L decode survivors).next (.start L (.ready none (some token) :: fs))
      (.receive 0) = ⟨fs, link₁, .new L⟩ := rfl
  obtain ⟨hvalid, link₂, hexec, hmade, hlistening, hopening, hbuffered⟩ :=
    receive_announcements (L := L) decode survivors fs hkinds link₁
      (.new L) rfl (by exact fun h => by cases h) rfl
  have hmade₂ : link₂.made = survivors := by rw [hmade, hannounced]; rfl
  have hpending : link₂.pendingPeers = List.range survivors.length := by rw [hbuffered, hmade₂]
  refine ⟨.receive 0 :: (List.replicate fs.length (.receive 0) ++ [.listen 0]), ?_, ?_⟩
  · refine ⟨⟨List.cons_ne_nil _ _, fun h => by cases h⟩, ?_⟩
    rw [hready, (adoption L decode survivors).along_append, hexec]
    refine ⟨hvalid, ⟨hlistening, ?_⟩, trivial⟩
    rw [hopening]
    rfl
  · have hfinal : ((adoption L decode survivors).exec (.start L (.ready none (some token) :: fs))
        (.receive 0 :: (List.replicate fs.length (.receive 0) ++ [.listen 0]))).server
        = handOn^[survivors.length] (.new L) ∧
        ((adoption L decode survivors).exec (.start L (.ready none (some token) :: fs))
          (.receive 0 :: (List.replicate fs.length (.receive 0) ++ [.listen 0]))).link.made
        = survivors := by
      rw [Machine.exec_cons, hready, (adoption L decode survivors).exec_append, hexec]
      constructor
      · change (callAll L decode 0 (link₂.pendingPeers.map .connection) (.new L)).1 = _
        rw [callAll_connections, hpending, List.length_range]
      · change (kickAll link₂.onConnection.1 _).made = _
        rw [made_kickAll]
        exact hmade₂
    obtain ⟨hserver, hlink⟩ := hfinal
    have hthree : 3 < survivors.length := hmany
    have hthird : survivors[3]? = some survivors[3] := List.getElem?_eq_getElem _
    refine ⟨survivors[3], List.getElem_mem _, 3,
      ⟨"relay", true, false, [], [], false, .refused "too_many_handshakes"⟩, ?_, ?_, .inr rfl⟩
    · rw [hlink]
      exact hthird
    · rw [hserver, ← Nat.add_sub_of_le hmany]
      exact fourth_refused hrate _

/-! ### The cap is the bound -/

theorem ordered_start (hrate : L.rateLimit = defaultRateLimit) {survivors : List ℕ}
    (frames : List Relay.Frame) (hannounced : HostLink.announced frames = survivors) :
    Ordered survivors (.start L frames) :=
  ⟨spared_new hrate, [], by rw [List.append_nil]; exact hannounced, fun _ h => by cases h⟩

/-- **Adoption, exactly.**  A socket claims a room whose handoff is pending.  Whatever the order of
events on the successor's side, none of the room's peers is refused for load if and only if there
are three of them at most. -/
theorem adopts_all_iff (L : Config) (decode : Decode) (hrate : L.rateLimit = defaultRateLimit)
    (limits : Relay.RelayLimits) (R : Relay.State) (socket : Relay.Socket) (hello : Relay.Hello)
    (room : Relay.Room) (now : ℕ) (token : String) (hfresh : R.attached.get socket = none)
    (hproto : hello.proto = Relay.relayProtocolVersion) (hrole : hello.role = .host)
    (hroom : R.rooms.get hello.roomId = some room) (hpending : Relay.claimable now room = true) :
    (∀ es, (adoption L decode room.peers.keys).Valid
          (.start L (sentTo socket (Relay.onHello limits now token socket hello R).2)) es →
        ∀ connId ∈ room.peers.keys, ¬ RefusedForLoad
          ((adoption L decode room.peers.keys).exec
            (.start L (sentTo socket (Relay.onHello limits now token socket hello R).2)) es)
          connId) ↔
      room.peers.size ≤ 3 := by
  have hlength : room.peers.keys.length = room.peers.size := List.length_map _
  rw [Relay.onHello_claim limits token hfresh hproto hrole hroom hpending]
  obtain ⟨fs, hframes, hannounced, hkinds⟩ := sentTo_claimHandoff token socket room R
  rw [hframes]
  constructor
  · intro hall
    by_contra hmany
    obtain ⟨es, hvalid, connId, hmem, hrefused⟩ :=
      refused_of_four decode hrate hannounced hkinds (by omega)
    exact hall es hvalid connId hmem hrefused
  · intro hfew es hvalid connId hmem
    have hordered := Machine.exec_invariant (M := adoption L decode room.peers.keys)
      (fun A e hA henabled => ordered_next hA henabled) hvalid
      (ordered_start hrate (.ready none (some token) :: fs) hannounced)
    exact hordered.not_refused (by omega) hmem

/-- A host, a number of peers, and the HANDOFF of the host. -/
def handoffRun (peers : ℕ) : List Relay.Event :=
  .hello ⟨0, "10.0.0.1"⟩ (Relay.helloAs .host) 0 "a" ::
    (List.range peers).map (fun i => .hello ⟨i + 1, "10.0.0.2"⟩ (Relay.helloAs .peer) 0 "") ++
    [.message ⟨0, "10.0.0.1"⟩ [Relay.T.handoff] 0]

/-- The relay after the HANDOFF. -/
def handedOff (peers : ℕ) : Relay.State :=
  ((Relay.server Relay.defaultLimits).exec Relay.init (handoffRun peers)).relay

/-- The frames that answer the claim of a successor. -/
def claimFrames (peers : ℕ) : List Relay.Frame :=
  sentTo ⟨9, "10.0.0.9"⟩ (Relay.onHello Relay.defaultLimits 1 "b" ⟨9, "10.0.0.9"⟩
    (Relay.helloAs .host) (handedOff peers)).2

/-- No frame of a peer is read. -/
def noMessage : Decode := fun _ _ _ _ => .text none

/-- Four survivors, all announced before the server listens. -/
def crowdedRun : List AdoptionEvent := List.replicate 5 (.receive 0) ++ [.listen 0]

theorem fourth_survivor_refused :
    (Relay.server Relay.defaultLimits).Valid Relay.init (handoffRun 4) ∧
      ((handedOff 4).rooms.get "65727231").map (fun room => room.peers.keys) = some [1, 2, 3, 4] ∧
      4 + 1 ≤ smallRoom.roomParams.maxParticipants ∧
      (adoption smallRoom noMessage [1, 2, 3, 4]).Valid (.start smallRoom (claimFrames 4))
        crowdedRun ∧
      RefusedForLoad ((adoption smallRoom noMessage [1, 2, 3, 4]).exec
        (.start smallRoom (claimFrames 4)) crowdedRun) 4 := by
  refine ⟨by decide +kernel, by decide +kernel, by decide, by decide +kernel, 3,
    ⟨"relay", true, false, [], [], false, .refused "too_many_handshakes"⟩, by decide +kernel, rfl,
    .inr rfl⟩

/-- The room of three survivors, with its handoff pending. -/
def fullRoom : Relay.Room :=
  ⟨"65727231", "a", ⟨0, "10.0.0.1"⟩,
    ((InsertionMap.empty.set 1 ⟨1, "10.0.0.2"⟩).set 2 ⟨2, "10.0.0.2"⟩).set 3 ⟨3, "10.0.0.2"⟩, 4,
    some 8000⟩

/-- Three survivors, all announced before the server listens, are all taken in. -/
theorem adopts_all_iff_fullRoom :
    (handedOff 3).rooms.get "65727231" = some fullRoom ∧
      ∀ connId ∈ fullRoom.peers.keys, ¬ RefusedForLoad
        ((adoption smallRoom noMessage fullRoom.peers.keys).exec
          (.start smallRoom (claimFrames 3)) (List.replicate 4 (.receive 0) ++ [.listen 0])) connId :=
  ⟨rfl, (adopts_all_iff smallRoom noMessage rfl Relay.defaultLimits (handedOff 3) ⟨9, "10.0.0.9"⟩
    (Relay.helloAs .host) fullRoom 1 "b" rfl rfl rfl rfl rfl).mpr (by decide) _ (by decide +kernel)⟩

end ScreenSharing.Handoff
