import Mathlib.Logic.Function.Basic
import ScreenSharing.Crypto.Cpace
import ScreenSharing.Lib.Machine
import ScreenSharing.Net.Connection

/-!
# After a connection has closed

`session` is a `Connection` between its transport and the code that uses it, as a machine.  Listeners
run inside the call that emits, and may call the connection again: `calls` is the stack of the calls
that have not returned, and `returned` is the return of the innermost listener, after which that call
goes on.  The transport may deliver frames at any time, also after `close`, as a WebSocket in its
closing state does.

`shut` says that the connection was closed locally.  Nothing in `#onMessage`, `#deliver` or `#flush`
looks at it, so a connection is `Final` exactly in the runs that are `Quiet` (`final_iff_quiet`): once
it is shut, everything that passes the checks of its phase finds nobody listening.
-/

namespace ScreenSharing.Net

open Lib Crypto

/-- A call that has not returned, since it is emitting. -/
inductive Call
  /-- the loop of `upgrade`, with the early frames that are left -/
  | draining (early : List Bytes)
  /-- the loop of `#flush`, with the held items that are left -/
  | flushing (held : List InboxItem)
  /-- `#fail`, before its call of `close` -/
  | failing

structure Session where
  conn : Connection
  /-- `listenerCount` -/
  listeners : EventName → ℕ
  /-- queued calls of `#flush` -/
  flushes : ℕ
  calls : List Call
  /-- was the connection closed by `close` or `#fail`? -/
  shut : Bool

inductive SessionEvent
  /-- the callback of `transport.onMessage` -/
  | frame (data : Bytes) (isBinary : Bool)
  /-- the callback of `transport.onClose` -/
  | transportClosed (code : ℕ) (reason : String)
  /-- the callback of `transport.onError`; or a listener throws inside `#onMessage` -/
  | failed (e : ConnectionError)
  | on (name : EventName)
  | off (name : EventName)
  | upgrade (keys : TransportKeys)
  | send (body : Body)
  | sendHandshake (msg : HandshakeMessage)
  | close (code : ℕ) (reason : String)
  /-- a queued `#flush` -/
  | flush
  /-- the innermost call goes on -/
  | returned
  /-- the innermost call is left by an exception -/
  | unwound

inductive SessionOutput
  /-- a `handshake` or `message` event -/
  | emitted (item : InboxItem)
  | emittedClose (code : ℕ) (reason : String)
  | emittedError (e : ConnectionError)
  | sent (data : Bytes) (isBinary : Bool)
  | closedTransport (code : ℕ) (reason : String)
  | thrown (e : ConnectionError)
  deriving DecidableEq

namespace Session

def new (role : ConnectionRole) : Session where
  conn := .new role
  listeners _ := 0
  flushes := 0
  calls := []
  shut := false

variable {J : Type*} (gcm : Gcm) (decipher : Decipher) (wire : Wire J) (S : Session)

/-- `#deliver`. -/
def deliver (item : InboxItem) : Session × List SessionOutput :=
  if S.listeners item.ev > 0 then (S, [.emitted item])
  else ({ S with conn := S.conn.hold item }, [])

def close (code : ℕ) (reason : String) : Session × List SessionOutput :=
  if S.conn.closed then (S, [])
  else
    ({ S with conn := { S.conn with closed := true }, shut := true },
      [.closedTransport code reason])

/-- `#fail`, up to its call of `close`.  Without a listener, emitting an error throws it. -/
def fail (e : ConnectionError) : Session × List SessionOutput :=
  if S.conn.closed then (S, [])
  else if S.listeners .error = 0 then (S, [.thrown e])
  else ({ S with calls := .failing :: S.calls }, [.emittedError e])

/-- `#onMessage`; what it throws goes to `onError`. -/
def onMessage (data : Bytes) (isBinary : Bool)
    (onError : ConnectionError → Session → Session × List SessionOutput) :
    Session × List SessionOutput :=
  match S.conn.receive decipher wire data isBinary with
  | (conn, .error e) => onError e { S with conn := conn }
  | (conn, .ok none) => ({ S with conn := conn }, [])
  | (conn, .ok (some item)) => { S with conn := conn }.deliver item

/-- One more round of the innermost call, or its end. -/
def goOn : Session × List SessionOutput :=
  match S.calls with
  | [] => (S, [])
  | .draining [] :: calls => ({ S with calls := calls }, [])
  | .draining (frame :: early) :: calls =>
    -- an error leaves `upgrade`, with the rest of the early frames
    { S with calls := .draining early :: calls }.onMessage decipher wire frame true
      fun e S => ({ S with calls := calls }, [.thrown e])
  | .flushing [] :: calls => ({ S with calls := calls }, [])
  | .flushing (item :: held) :: calls => { S with calls := .flushing held :: calls }.deliver item
  | .failing :: calls => { S with calls := calls }.close 1002 "protocol error"

def react : SessionEvent → Session × List SessionOutput
  | .frame data isBinary => S.onMessage decipher wire data isBinary fun e S => S.fail e
  | .transportClosed code reason =>
    ({ S with conn := { S.conn with closed := true } }, [.emittedClose code reason])
  | .failed e => S.fail e
  | .on name =>
    ({ S with
        listeners := Function.update S.listeners name (S.listeners name + 1)
        flushes := if name = .handshake ∨ name = .message then S.flushes + 1 else S.flushes }, [])
  | .off name =>
    ({ S with listeners := Function.update S.listeners name (S.listeners name - 1) }, [])
  | .upgrade keys =>
    match S.conn.upgrade keys with
    | (conn, .error e) => ({ S with conn := conn }, [.thrown e])
    | (conn, .ok early) => ({ S with conn := conn, calls := .draining early :: S.calls }, [])
  | .send body =>
    match S.conn.send gcm wire body with
    | (conn, .error e) => ({ S with conn := conn }, [.thrown e])
    | (conn, .ok frame) => ({ S with conn := conn }, [.sent frame true])
  | .sendHandshake msg =>
    match S.conn.sendHandshake wire msg with
    | .error e => (S, [.thrown e])
    | .ok text => (S, [.sent text false])
  | .close code reason => S.close code reason
  | .flush =>
    ({ S with
        conn := { S.conn with inbox := [] }
        flushes := S.flushes - 1
        calls := .flushing S.conn.inbox :: S.calls }, [])
  | .returned => S.goOn decipher wire
  | .unwound => ({ S with calls := S.calls.tail }, [])

end Session

/-- When an event can happen: a `#flush` runs when it is queued. -/
def SessionEvent.possible (S : Session) : SessionEvent → Prop
  | .flush => 0 < S.flushes
  | _ => True

instance (S : Session) (e : SessionEvent) : Decidable (e.possible S) := by
  cases e <;> unfold SessionEvent.possible <;> infer_instance

/-- A connection and what may happen to it. -/
def session {J : Type*} (gcm : Gcm) (decipher : Decipher) (wire : Wire J) :
    Machine Session SessionEvent SessionOutput where
  enabled S e := e.possible S
  step S e := S.react gcm decipher wire e

section

variable {J : Type*} (gcm : Gcm) (decipher : Decipher) (wire : Wire J)

instance (S : Session) (e : SessionEvent) :
    Decidable ((session gcm decipher wire).enabled S e) :=
  inferInstanceAs (Decidable (e.possible S))

/-! ### What is asked of a run -/

/-- No `handshake` or `message` event is emitted on a connection that is shut. -/
def Final (S : Session) (e : SessionEvent) : Prop :=
  S.shut = true → ∀ item, .emitted item ∉ (session gcm decipher wire).out S e

/-- Nobody listens for what a frame carries, if it passes. -/
def Unheard (S : Session) (data : Bytes) (isBinary : Bool) : Prop :=
  ∀ item, S.conn.Opens decipher wire data isBinary item → S.listeners item.ev = 0

/-- Nobody listens for what comes in, or comes up again, on a connection that is shut. -/
def Quiet (S : Session) (e : SessionEvent) : Prop :=
  S.shut = true →
    match e with
    | .frame data isBinary => Unheard decipher wire S data isBinary
    | .returned =>
      match S.calls with
      | .draining (frame :: _) :: _ => Unheard decipher wire S frame true
      | .flushing (item :: _) :: _ => S.listeners item.ev = 0
      | _ => True
    | _ => True

variable {gcm decipher wire} {S : Session}

/-! ### Which steps emit -/

theorem mem_deliver {item item' : InboxItem} :
    .emitted item' ∈ (S.deliver item).2 ↔ item' = item ∧ S.listeners item.ev ≠ 0 := by
  unfold Session.deliver
  split
  · next h => 
    rw [List.mem_singleton, SessionOutput.emitted.injEq]
    exact ⟨fun heq => ⟨heq, Nat.ne_of_gt h⟩, And.left⟩
  · next h =>
    rw [Nat.not_lt, Nat.le_zero] at h
    exact ⟨fun hmem => absurd hmem List.not_mem_nil, fun hboth => absurd h hboth.2⟩

theorem not_mem_close {code : ℕ} {reason : String} {item : InboxItem} :
    .emitted item ∉ (S.close code reason).2 := by
  unfold Session.close
  split
  · exact List.not_mem_nil
  · rw [List.mem_singleton]
    exact fun h => by cases h

theorem not_mem_fail {e : ConnectionError} {item : InboxItem} :
    .emitted item ∉ (S.fail e).2 := by
  unfold Session.fail
  split
  · exact List.not_mem_nil
  · split <;> rw [List.mem_singleton] <;> exact fun h => by cases h

/-- **A frame is heard** if and only if it passes and somebody listens for what it carries. -/
theorem mem_onMessage {data : Bytes} {isBinary : Bool}
    {onError : ConnectionError → Session → Session × List SessionOutput}
    (hquiet : ∀ e S item, .emitted item ∉ (onError e S).2) {item : InboxItem} :
    .emitted item ∈ (S.onMessage decipher wire data isBinary onError).2 ↔
      S.conn.Opens decipher wire data isBinary item ∧ S.listeners item.ev ≠ 0 := by
  rw [← Connection.receive_eq_some_iff]
  unfold Session.onMessage
  cases S.conn.receive decipher wire data isBinary with
  | mk conn result =>
    cases result with
    | error e => exact ⟨fun h => absurd h (hquiet _ _ _), fun h => (by cases h.1)⟩
    | ok found =>
      cases found with
      | none => exact ⟨fun h => absurd h List.not_mem_nil, fun h => (by cases h.1)⟩
      | some item' =>
        dsimp only
        rw [mem_deliver]
        constructor
        · rintro ⟨rfl, hlisten⟩
          exact ⟨rfl, hlisten⟩
        · rintro ⟨heq, hlisten⟩
          cases heq
          exact ⟨rfl, hlisten⟩

theorem unheard_iff {data : Bytes} {isBinary : Bool}
    {onError : ConnectionError → Session → Session × List SessionOutput}
    (hquiet : ∀ e S item, .emitted item ∉ (onError e S).2) :
    (∀ item, .emitted item ∉ (S.onMessage decipher wire data isBinary onError).2) ↔
      Unheard decipher wire S data isBinary := by
  unfold Unheard
  refine forall_congr' fun item => ?_
  rw [mem_onMessage hquiet, not_and_not_right]

/-- What a step emits, by the event: a frame if it passes, the innermost call if it has an item at
hand, and nothing else. -/
theorem final_step_iff (S : Session) (e : SessionEvent) :
    Final gcm decipher wire S e ↔ Quiet decipher wire S e := by
  refine imp_congr_right fun _ => ?_
  cases e with
  | frame data isBinary => exact unheard_iff fun _ _ _ => not_mem_fail
  | failed e => exact ⟨fun _ => trivial, fun _ _ => not_mem_fail⟩
  | close code reason => exact ⟨fun _ => trivial, fun _ _ => not_mem_close⟩
  | upgrade keys =>
    refine ⟨fun _ => trivial, fun _ item => ?_⟩
    show .emitted item ∉ (S.react gcm decipher wire (.upgrade keys)).2
    unfold Session.react
    dsimp only
    split
    · simp
    · simp
  | send body =>
    refine ⟨fun _ => trivial, fun _ item => ?_⟩
    show .emitted item ∉ (S.react gcm decipher wire (.send body)).2
    unfold Session.react
    dsimp only
    split <;> simp
  | sendHandshake msg =>
    refine ⟨fun _ => trivial, fun _ item => ?_⟩
    show .emitted item ∉ (S.react gcm decipher wire (.sendHandshake msg)).2
    unfold Session.react
    dsimp only
    split <;> simp
  | transportClosed code reason =>
    refine ⟨fun _ => trivial, fun _ item hmem => ?_⟩
    cases List.mem_singleton.mp hmem
  | on name => exact ⟨fun _ => trivial, fun _ _ => List.not_mem_nil⟩
  | off name => exact ⟨fun _ => trivial, fun _ _ => List.not_mem_nil⟩
  | flush => exact ⟨fun _ => trivial, fun _ _ => List.not_mem_nil⟩
  | unwound => exact ⟨fun _ => trivial, fun _ _ => List.not_mem_nil⟩
  | returned =>
    show (∀ item, .emitted item ∉ (S.goOn decipher wire).2) ↔ _
    unfold Session.goOn
    dsimp only
    cases S.calls with
    | nil => exact ⟨fun _ => trivial, fun _ _ => List.not_mem_nil⟩
    | cons call calls =>
      cases call with
      | failing => exact ⟨fun _ => trivial, fun _ _ => not_mem_close⟩
      | draining early =>
        cases early with
        | nil => exact ⟨fun _ => trivial, fun _ _ => List.not_mem_nil⟩
        | cons frame early =>
          refine unheard_iff fun e S item hmem => ?_
          cases List.mem_singleton.mp hmem
      | flushing held =>
        cases held with
        | nil => exact ⟨fun _ => trivial, fun _ _ => List.not_mem_nil⟩
        | cons item held =>
          dsimp only
          constructor
          · intro h
            by_contra hlisten
            exact h item (mem_deliver.mpr ⟨rfl, hlisten⟩)
          · intro h item' hmem
            exact (mem_deliver.mp hmem).2 h

/-! ### Closing is for good -/

theorem shut_deliver {item : InboxItem} (h : S.shut = true) : (S.deliver item).1.shut = true := by
  unfold Session.deliver
  split <;> exact h

theorem shut_close {code : ℕ} {reason : String} (h : S.shut = true) :
    (S.close code reason).1.shut = true := by
  unfold Session.close
  split
  · exact h
  · rfl

theorem shut_fail {e : ConnectionError} (h : S.shut = true) : (S.fail e).1.shut = true := by
  unfold Session.fail
  split
  · exact h
  · split <;> exact h

theorem shut_onMessage {data : Bytes} {isBinary : Bool}
    {onError : ConnectionError → Session → Session × List SessionOutput}
    (herror : ∀ (e : ConnectionError) (S : Session), S.shut = true → (onError e S).1.shut = true) (h : S.shut = true) :
    (S.onMessage decipher wire data isBinary onError).1.shut = true := by
  unfold Session.onMessage
  split
  · exact herror _ _ h
  · exact h
  · exact shut_deliver h

theorem shut_goOn (h : S.shut = true) : (S.goOn decipher wire).1.shut = true := by
  unfold Session.goOn
  split
  · exact h
  · exact h
  · exact shut_onMessage (fun _ _ hS => hS) h
  · exact h
  · exact shut_deliver h
  · exact shut_close h

/-- **A connection that is shut stays shut**, whatever happens to it. -/
theorem shut_next (e : SessionEvent) (h : S.shut = true) :
    ((session gcm decipher wire).next S e).shut = true := by
  show (S.react gcm decipher wire e).1.shut = true
  cases e with
  | frame data isBinary => exact shut_onMessage (fun _ _ => shut_fail) h
  | failed e => exact shut_fail h
  | close code reason => exact shut_close h
  | returned => exact shut_goOn h
  | upgrade keys =>
    unfold Session.react
    dsimp only
    split <;> exact h
  | send body =>
    unfold Session.react
    dsimp only
    split <;> exact h
  | sendHandshake msg =>
    unfold Session.react
    dsimp only
    split <;> exact h
  | transportClosed code reason => exact h
  | on name => exact h
  | off name => exact h
  | flush => exact h
  | unwound => exact h

/-! ### Exactly when -/

/-- **Final exactly when quiet.**  A connection that was closed locally stays so, and it emits no further
`handshake` or `message` event, in every state of a run, if and only if from then on nobody listens for
what the frames that pass carry, whether they are delivered late, drained by `upgrade`, or flushed from
the inbox. -/
theorem final_iff_quiet (role : ConnectionRole) (es : List SessionEvent) :
    (session gcm decipher wire).Along
        (fun S e => S.shut = true → ((session gcm decipher wire).next S e).shut = true)
        (.new role) es ∧
      ((session gcm decipher wire).Along (Final gcm decipher wire) (.new role) es ↔
        (session gcm decipher wire).Along (Quiet decipher wire) (.new role) es) :=
  ⟨Machine.along_iff_split.mpr fun _ e _ _ => shut_next e,
    Machine.Along.mono fun S e => (final_step_iff S e).mp,
    Machine.Along.mono fun S e => (final_step_iff S e).mpr⟩

end

/-! ### A frame after the close -/

/-- The keys of the run below. -/
def lateKeys : TransportKeys where
  c2s := ⟨List.replicate 32 1, [1, 1, 1, 1]⟩
  s2c := ⟨List.replicate 32 2, [2, 2, 2, 2]⟩

def lateEnvelope : Envelope := ⟨1, 0, 0, "p", .pong 7 0⟩

/-- `lateEnvelope` as JSON. -/
def lateText : Bytes := utf8ToBytes ("\x7b\"v\":1,\"epoch\":0,\"seq\":0,\"from\":\"p\"," ++
  "\"body\":\x7b\"type\":\"pong\",\"nonce\":7,\"sentAt\":0\x7d\x7d")

/-- What the host seals first. -/
def lateSealing : Sealing :=
  let h := header .serverToClient 0
  ⟨lateKeys.s2c.key, nonce lateKeys.s2c.nonceSalt (h.drop 2), h, lateText⟩

/-- JSON, as far as the run below needs it. -/
def lateWire : Wire Unit where
  parse raw := if raw = lateText then some () else none
  handshakeMessageSchema _ := .error "Invalid input"
  envelopeSchema _ := .ok lateEnvelope
  ofHandshake _ := []
  ofEnvelope _ := lateText

/-- A peer is listening.  A text frame after the upgrade is a protocol error, which closes the
connection; then comes a genuine frame of the host. -/
def lateRun : List SessionEvent :=
  [.on .error, .on .message, .upgrade lateKeys, .returned, .flush, .returned,
    .frame lateText false, .returned, .frame (frameOf default lateSealing) true]

/-- The genuine frame is emitted. -/
theorem late_frame_emitted :
    (session default (ideal default [lateSealing]) lateWire).Valid (.new .peer) lateRun ∧
      ¬ (session default (ideal default [lateSealing]) lateWire).Along
        (Final default (ideal default [lateSealing]) lateWire) (.new .peer) lateRun := by
  refine ⟨by decide +kernel, fun h => ?_⟩
  have hlast := Machine.along_iff_split.mp h (lateRun.take 8)
    (.frame (frameOf default lateSealing) true) [] rfl
  exact hlast (by decide +kernel) (.message lateEnvelope) (by decide +kernel)

end ScreenSharing.Net
