import ScreenSharing.Signaling.Server

/-!
# The signaling client

`SignalingClient` of a peer, from the join that `connect` sends: the wait for the answer, the
continuation behind it, and the messages that come in afterwards.  Frames are the bodies they decrypt to.
As on the other side, an item for which nobody listens is held in the inbox of the `Connection`, and a
message listener queues a flush.

A turn delivers frames and then runs the microtasks until there are none left; `draining` says that
this has begun.
-/

namespace ScreenSharing.Mirror

open Lib Signaling

/-- `SignalingClientOptions`, with the defaults filled in. -/
structure ClientConfig where
  minEpoch : ℕ
  heartbeatMaxMissed : ℕ

/-- The fields of a `joined` body that `connect` reads. -/
structure Welcome where
  peerId : String
  epoch : ℕ
  roster : List RosterEntry
  streams : List StreamInfo
  deriving DecidableEq

inductive ClientStage
  /-- in `#waitForJoined`, with its listeners installed -/
  | waiting
  /-- the promise is resolved, or rejected; nobody listens -/
  | resolved (joined : Welcome)
  | rejected (message : String)
  /-- `connect` has returned, and `#onMessage` listens for good -/
  | connected
  /-- `connect` has thrown -/
  | ended
  deriving DecidableEq

inductive Microtask
  | flush
  | resume
  deriving DecidableEq

/-- The fields of the `SignalingClient` class, and of its connection. -/
structure Client where
  stage : ClientStage
  inbox : List Body
  queue : List Microtask
  /-- are the microtasks of this turn being run? -/
  draining : Bool
  peerId : String
  roster : List RosterEntry
  streams : List StreamInfo
  epoch : ℕ
  heartbeat : Option Heartbeat
  /-- is `heartbeatTimer` running? -/
  timer : Bool
  deriving DecidableEq

inductive ClientOutput
  | send (body : Body)
  | closeConn (code : ℕ) (reason : String)
  | threw (message : String)
  | roster (entries : List RosterEntry)
  | streams (streams : List StreamInfo)
  | hostTransfer (successorPeerId : String) (epoch : ℕ)
  | closed (code : ℕ) (reason : String)
  | media (body : Body)
  | message (body : Body)
  | hostLost
  deriving DecidableEq

/-- The client behind `conn.send` of its join. -/
def Client.start : Client := ⟨.waiting, [], [.flush], false, "", [], [], 0, none, false⟩

def reasonText : RejectedReason → String
  | .roomFull => "room_full"
  | .duplicateNickname => "duplicate_nickname"
  | .roomClosing => "room_closing"
  | .badMessage => "bad_message"

/-! ### Updates -/

/-- The roster after a `roster_update`. -/
def updateRoster (added : List RosterEntry) (removed : List String) (changed roster : List RosterEntry) :
    List RosterEntry :=
  let changes : InsertionMap String RosterEntry :=
    changed.foldl (fun m e => m.set e.peerId e) .empty
  let kept := (roster.filter fun e => e.peerId ∉ removed).map fun e =>
    (changes.get e.peerId).getD e
  (kept ++ added).insertionSort fun a b => a.joinSeq ≤ b.joinSeq

/-- The streams after a `stream_state`. -/
def updateStreams (stream : StreamInfo) (state : StreamState) (streams : List StreamInfo) :
    List StreamInfo :=
  let others := streams.filter fun s => s.streamId ≠ stream.streamId
  match state with
  | .ended => others
  | .live => others ++ [stream]

namespace Client

variable (cfg : ClientConfig) (k : Client)

/-- `#stopHeartbeat`. -/
def stopHeartbeat : Client :=
  { k with heartbeat := k.heartbeat.map Heartbeat.stop, timer := false }

def settle (stage : ClientStage) : Client :=
  { k with stage := stage, queue := k.queue ++ [.resume] }

/-! ### Messages -/

/-- The listener of `#waitForJoined`. -/
def onAnswer : Body → Client
  | .joined peerId _ epoch _ roster streams => k.settle (.resolved ⟨peerId, epoch, roster, streams⟩)
  | .rejected reason => k.settle (.rejected ("join rejected: " ++ reasonText reason))
  | .bye reason => k.settle (.rejected ("host said bye: " ++ reason))
  | _ => k

/-- `#onMessage`. -/
def onMessage (body : Body) : Client × List ClientOutput :=
  match body with
  | .rosterUpdate added removed changed =>
    let roster := updateRoster added removed changed k.roster
    ({ k with roster := roster }, [.roster roster])
  | .ping nonce sentAt => (k, [.send (.pong nonce sentAt)])
  | .pong nonce _ => ({ k with heartbeat := k.heartbeat.map (Heartbeat.onPong nonce) }, [])
  | .hostTransfer successorPeerId epoch => (k, [.hostTransfer successorPeerId epoch])
  | .bye reason => (k.stopHeartbeat, [.closed 1000 reason])
  | .streamState stream state =>
    let streams := updateStreams stream state k.streams
    ({ k with streams := streams }, [.streams streams])
  | .publishAnswer .. | .subscribeOffer .. | .mediaError .. | .qualityDirective _ =>
    (k, [.media body])
  | _ => (k, [.message body])

/-- `#deliver` of a message. -/
def deliver (body : Body) : Client × List ClientOutput :=
  match k.stage with
  | .waiting => (k.onAnswer body, [])
  | .connected => k.onMessage body
  | _ => ({ k with inbox := k.inbox ++ [body] }, [])

/-- The loop of `#flush`. -/
def deliverAll : List Body → Client → Client × List ClientOutput
  | [], k => (k, [])
  | body :: rest, k =>
    let (k₁, out₁) := k.deliver body
    let (k₂, out₂) := deliverAll rest k₁
    (k₂, out₁ ++ out₂)

/-- `#flush`. -/
def flush : Client × List ClientOutput := deliverAll k.inbox { k with inbox := [] }

/-! ### `connect` -/

/-- The first ping of `#startHeartbeat`. -/
def firstPing (nonce : ℤ) (now : ℚ) : Heartbeat × List ClientOutput :=
  match (Heartbeat.new cfg.heartbeatMaxMissed).start nonce with
  | (heartbeat, .sendPing nonce) => (heartbeat, [.send (.ping nonce now)])
  | (heartbeat, _) => (heartbeat, [])

/-- The continuation of `connect` behind `#waitForJoined`. -/
def resume (nonce : ℤ) (now : ℚ) : Client × List ClientOutput :=
  match k.stage with
  | .resolved joined =>
    if joined.epoch < cfg.minEpoch then
      ({ k with stage := .ended },
        [.closeConn 1000 "stale epoch",
          .threw ("host epoch " ++ toString joined.epoch ++ " is older than expected " ++
            toString cfg.minEpoch)])
    else
      let (heartbeat, ping) := firstPing cfg nonce now
      ({ k with
          stage := .connected
          -- installing the message listener queues the flush
          queue := k.queue ++ [.flush]
          peerId := joined.peerId
          roster := joined.roster
          streams := joined.streams
          epoch := joined.epoch
          heartbeat := some heartbeat
          timer := true },
        ping ++ [.roster joined.roster, .streams joined.streams])
  | .rejected message => ({ k with stage := .ended }, [.threw message])
  | _ => (k, [])

/-- Run the microtask at the head of the queue. -/
def runTask (nonce : ℤ) (now : ℚ) : Client × List ClientOutput :=
  match k.queue with
  | [] => (k, [])
  | task :: queue =>
    let k₀ := { k with queue := queue }
    let result := match task with
      | .flush => k₀.flush
      | .resume => k₀.resume cfg nonce now
    ({ result.1 with draining := !result.1.queue.isEmpty }, result.2)

/-- The timer of `#waitForJoined`. -/
def expire : Client :=
  match k.stage with
  | .waiting => k.settle (.rejected "timed out waiting for joined")
  | _ => k

/-- The heartbeat interval. -/
def tick (nonce : ℤ) (now : ℚ) : Client × List ClientOutput :=
  match k.heartbeat with
  | none => (k, [])
  | some heartbeat =>
    let (heartbeat, beat) := heartbeat.tick nonce
    let k' := { k with heartbeat := some heartbeat }
    match beat with
    | .idle => (k', [])
    | .sendPing nonce => (k', [.send (.ping nonce now)])
    | .onDead => (k'.stopHeartbeat, [.hostLost])

/-- Has `connect` thrown, or is it going to? -/
def gaveUp : Bool :=
  match k.stage with
  | .rejected _ | .ended => true
  | _ => false

end Client

/-! ### What messages do to the mirror -/

/-- The roster after a message. -/
def rosterAfter (roster : List RosterEntry) : Body → List RosterEntry
  | .rosterUpdate added removed changed => updateRoster added removed changed roster
  | _ => roster

/-- The streams after a message. -/
def streamsAfter (streams : List StreamInfo) : Body → List StreamInfo
  | .streamState stream state => updateStreams stream state streams
  | _ => streams

/-- A body that neither starts a mirror nor changes its streams. -/
def Calm : Body → Prop
  | .joined .. | .streamState .. => False
  | _ => True

/-- A body that changes no mirror. -/
def Aside : Body → Prop
  | .joined .. | .streamState .. | .rosterUpdate .. => False
  | _ => True

theorem Aside.calm {body : Body} (h : Aside body) : Calm body := by
  cases body <;> first | exact h | trivial

theorem Aside.roster {body : Body} (h : Aside body) (roster : List RosterEntry) :
    rosterAfter roster body = roster := by
  cases body <;> first | rfl | exact h.elim

theorem Calm.streams {body : Body} (h : Calm body) (streams : List StreamInfo) :
    streamsAfter streams body = streams := by
  cases body <;> first | rfl | exact h.elim

/-- A fold whose steps change nothing. -/
theorem foldl_still {α β : Type} {f : α → β → α} {a : α} {l : List β} (h : ∀ b ∈ l, f a b = a) :
    l.foldl f a = a := by
  induction l with
  | nil => rfl
  | cons b l ih =>
    rw [List.foldl_cons, h b List.mem_cons_self]
    exact ih fun b' hb' => h b' (List.mem_cons_of_mem _ hb')

variable {k : Client}

/-- **A message** changes the mirror, and neither the stage, the inbox nor the queue. -/
theorem onMessage_fields (body : Body) :
    (k.onMessage body).1.roster = rosterAfter k.roster body ∧
      (k.onMessage body).1.streams = streamsAfter k.streams body ∧
      (k.onMessage body).1.stage = k.stage ∧ (k.onMessage body).1.inbox = k.inbox ∧
      (k.onMessage body).1.queue = k.queue ∧ (k.onMessage body).1.draining = k.draining := by
  cases body <;> exact ⟨rfl, rfl, rfl, rfl, rfl, rfl⟩

theorem deliver_waiting (h : k.stage = .waiting) (body : Body) :
    k.deliver body = (k.onAnswer body, []) := by
  unfold Client.deliver
  rw [h]

theorem deliver_connected (h : k.stage = .connected) (body : Body) :
    k.deliver body = k.onMessage body := by
  unfold Client.deliver
  rw [h]

theorem deliver_deaf (hwaiting : k.stage ≠ .waiting) (hconnected : k.stage ≠ .connected)
    (body : Body) : k.deliver body = ({ k with inbox := k.inbox ++ [body] }, []) := by
  unfold Client.deliver
  cases hstage : k.stage with
  | waiting => exact absurd hstage hwaiting
  | connected => exact absurd hstage hconnected
  | resolved _ | rejected _ | ended => rfl

/-- A connected client takes messages in their order. -/
theorem deliverAll_connected (bodies : List Body) : ∀ {k : Client}, k.stage = .connected →
    (Client.deliverAll bodies k).1.roster = bodies.foldl rosterAfter k.roster ∧
      (Client.deliverAll bodies k).1.streams = bodies.foldl streamsAfter k.streams ∧
      (Client.deliverAll bodies k).1.stage = .connected ∧
      (Client.deliverAll bodies k).1.inbox = k.inbox ∧
      (Client.deliverAll bodies k).1.queue = k.queue := by
  induction bodies with
  | nil => exact fun h => ⟨rfl, rfl, h, rfl, rfl⟩
  | cons body bodies ih =>
    intro k h
    have hone := deliver_connected h body
    obtain ⟨hroster, hstreams, hstage, hinbox, hqueue, -⟩ := onMessage_fields (k := k) body
    obtain ⟨hroster', hstreams', hstage', hinbox', hqueue'⟩ := ih (hstage.trans h)
    unfold Client.deliverAll
    rw [hone]
    refine ⟨hroster'.trans ?_, hstreams'.trans ?_, hstage', hinbox'.trans hinbox,
      hqueue'.trans hqueue⟩
    · rw [hroster]
      rfl
    · rw [hstreams]
      rfl

/-- Where nobody listens, the inbox keeps its order. -/
theorem deliverAll_deaf (bodies : List Body) : ∀ {k : Client}, k.stage ≠ .waiting →
    k.stage ≠ .connected → (Client.deliverAll bodies k).1 = { k with inbox := k.inbox ++ bodies } := by
  induction bodies with
  | nil =>
    intro k _ _
    show k = _
    rw [List.append_nil]
  | cons body bodies ih =>
    intro k hwaiting hconnected
    have hone := deliver_deaf hwaiting hconnected body
    unfold Client.deliverAll
    rw [hone]
    refine (ih (k := { k with inbox := k.inbox ++ [body] }) hwaiting hconnected).trans ?_
    simp

end ScreenSharing.Mirror
