import Mathlib.Logic.Function.Basic
import ScreenSharing.Lib.InsertionMap
import ScreenSharing.Shared.Protocol

/-!
# The SFU's router

`Router` holds the fields of the `SfuRouter` class: the table of publishers by stream id, the table
of subscriptions by the string key `subKey`, and whether the router was closed.  A WebRTC
negotiation takes several awaits during which anything else may run, so a call of `publish` or
`subscribe` is two steps here:

* its first segment (`publish`, `subscribe`) checks, creates the peer connection and leaves the call
  in `negotiating`, or throws;
* its last segment (`settle`) runs when the negotiation has failed or succeeded, which the
  environment decides.

`pcs` is the part of the WebRTC library's heap that the router touches, by the number of the call
that created the connection: whether it is closed, the kinds of the tracks it has received, the
kinds of the RTP forwards attached into it, and what its state handler will call.  The router's
return values and the events it emits are outputs, in the order in which they appear.

A connection reports `closed` inside the call of `pc.close()`.  Every operation but `close` takes
the registration away before it closes the connection, so that the handler finds nothing to do;
`close` closes the connections of publishers that are still registered (`closePublisher`).
-/

namespace ScreenSharing.Sfu

open Lib

inductive Kind
  | video
  | audio
  deriving DecidableEq, Repr

/-- The `kinds` argument of `publish`. -/
structure Kinds where
  video : Bool
  audio : Bool
  deriving DecidableEq, Repr

/-- The `RTCPeerConnectionState` values. -/
inductive PcState
  | new
  | connecting
  | connected
  | disconnected
  | failed
  | closed
  deriving DecidableEq, Repr

/-- The states at which a state handler acts. -/
def PcState.lost : PcState → Bool
  | .failed | .closed | .disconnected => true
  | _ => false

/-- What a connection's state handler calls when the connection is lost. -/
inductive Handler
  | unpublish (streamId : String)
  | unsubscribe (subscriberPeerId : PeerId) (streamId : String)
  deriving DecidableEq

/-- An `RTCPeerConnection`, as far as the router acts on it. -/
structure Pc where
  closed : Bool
  tracks : List Kind
  /-- the kinds whose RTP is forwarded into this connection -/
  forwards : List Kind
  /-- subscribed to `connectionStateChange` once the negotiation has succeeded -/
  onState : Option Handler
  deriving DecidableEq

/-- A connection that was just created. -/
def newPc : Pc := ⟨false, [], [], none⟩

structure Publisher where
  pc : ℕ
  info : StreamInfo
  deriving DecidableEq

/-- A subscription.  Its disposers detach the forwards of its connection. -/
structure Subscription where
  pc : ℕ
  deriving DecidableEq

/-- A call in flight, with what its last segment still needs. -/
inductive Call
  | publish (ownerPeerId : PeerId) (streamId : String) (kinds : Kinds)
  | subscribe (subscriberPeerId : PeerId) (streamId : String) (ownerPeerId : String)
  | completeSubscribe (subscriberPeerId : PeerId) (streamId : String)
  deriving DecidableEq

/-- How the awaited WebRTC operations end: with an exception, or with the connection's local
description. -/
inductive Negotiation
  | failed (message : String)
  | succeeded (sdp : Option String)
  deriving DecidableEq

inductive Output
  | streamLive (info : StreamInfo)
  | streamEnded (streamId : String)
  | demandChanged (streamId ownerPeerId : String) (subscribers : ℕ)
  /-- `setRemoteDescription` on a subscriber's connection with its answer -/
  | answered (pc : ℕ)
  /-- the call returns, `publish` and `subscribe` with a description -/
  | resolved (call : Call) (sdp : Option String)
  | rejected (call : Call) (message : String)
  deriving DecidableEq

/-- The fields of the `SfuRouter` class, and the calls and connections behind them. -/
structure Router where
  publishers : InsertionMap String Publisher
  subscriptions : InsertionMap String Subscription
  closed : Bool
  negotiating : InsertionMap ℕ Call
  pcs : ℕ → Pc
  nextCall : ℕ

/-- `new SfuRouter()`. -/
def Router.new : Router := ⟨.empty, .empty, false, .empty, fun _ => newPc, 0⟩

/-! ### Keys -/

def subKey (peerId : PeerId) (streamId : String) : String := peerId.text ++ "::" ++ streamId

/-- `String.prototype.startsWith`. -/
def startsWith (s pre : String) : Bool := pre.toList.isPrefixOf s.toList

/-- `String.prototype.endsWith`. -/
def endsWith (s suf : String) : Bool := suf.toList.isSuffixOf s.toList

/-- `String.prototype.slice` with one argument. -/
def slice (s : String) (start : ℕ) : String := String.ofList (s.toList.drop start)

theorem subKey_toList (p : PeerId) (s : String) :
    (subKey p s).toList = p.text.toList ++ (':' :: ':' :: s.toList) := by
  simp [subKey, String.toList_append]

/-- A key determines the peer and the stream it was made of, since generated ids have one
length. -/
theorem subKey_inj {p q : PeerId} {s t : String} : subKey p s = subKey q t ↔ p = q ∧ s = t := by
  constructor
  · intro h
    have hlist : p.text.toList ++ (':' :: ':' :: s.toList)
        = q.text.toList ++ (':' :: ':' :: t.toList) := by
      rw [← subKey_toList, ← subKey_toList, h]
    have hlen : p.text.toList.length = q.text.toList.length := by
      rw [p.length_text, q.length_text]
    obtain ⟨hp, hs⟩ := List.append_inj hlist hlen
    have hst : s.toList = t.toList := by
      simpa using hs
    exact ⟨PeerId.ext_text (String.toList_injective hp), String.toList_injective hst⟩
  · rintro ⟨rfl, rfl⟩
    rfl

theorem endsWith_subKey (p : PeerId) (s : String) : endsWith (subKey p s) ("::" ++ s) = true := by
  rw [endsWith, List.isSuffixOf_iff_suffix, subKey_toList]
  exact ⟨p.text.toList, by simp [String.toList_append]⟩

theorem startsWith_subKey (p q : PeerId) (s : String) :
    startsWith (subKey q s) (p.text ++ "::") = true ↔ q = p := by
  rw [startsWith, List.isPrefixOf_iff_prefix, subKey_toList]
  constructor
  · rintro ⟨rest, h⟩
    rw [String.toList_append, List.append_assoc] at h
    have hlen : p.text.toList.length = q.text.toList.length := by
      rw [p.length_text, q.length_text]
    exact (PeerId.ext_text (String.toList_injective (List.append_inj h hlen).1)).symm
  · rintro rfl
    exact ⟨s.toList, by simp [String.toList_append]⟩

/-! ### Dropping and closing -/

/-- `pc.close()`. -/
def Pc.close (pc : Pc) : Pc := { pc with closed := true }

/-- The disposers of a subscription, then `pc.close()`. -/
def Pc.shut (pc : Pc) : Pc := { pc with closed := true, forwards := [] }

namespace Router

def closePc (pc : ℕ) (R : Router) : Router :=
  { R with pcs := Function.update R.pcs pc (R.pcs pc).close }

/-- `#dropSubscription`. -/
def dropSubscription (key : String) (sub : Subscription) (R : Router) : Router :=
  { R with
    subscriptions := R.subscriptions.delete key
    pcs := Function.update R.pcs sub.pc (R.pcs sub.pc).shut }

/-- The loops over the subscriptions that drop those whose key passes a test. -/
def dropWhere (p : String → Bool) : List (String × Subscription) → Router → Router
  | [], R => R
  | (key, sub) :: rest, R => dropWhere p rest (if p key then dropSubscription key sub R else R)

/-- `unpublish`.  The caller is not asked for. -/
def unpublish (streamId : String) (R : Router) : Router × List Output :=
  match R.publishers.get streamId with
  | none => (R, [])
  | some pub =>
    let R₁ := { R with publishers := R.publishers.delete streamId }
    let R₂ := dropWhere (fun key => endsWith key ("::" ++ streamId)) R₁.subscriptions.entries R₁
    (R₂.closePc pub.pc, [.streamEnded streamId])

def subscriberCount (streamId : String) (R : Router) : ℕ :=
  (R.subscriptions.keys.filter fun key => endsWith key ("::" ++ streamId)).length

/-- `#emitDemand`. -/
def emitDemand (streamId ownerPeerId : String) (R : Router) : Output :=
  .demandChanged streamId ownerPeerId (R.subscriberCount streamId)

/-- The demand of a stream, if it still is published. -/
def demandOf (R : Router) (streamId : String) : List Output :=
  match R.publishers.get streamId with
  | none => []
  | some pub => [R.emitDemand streamId pub.info.ownerPeerId]

def unsubscribe (subscriberPeerId : PeerId) (streamId : String) (R : Router) :
    Router × List Output :=
  let key := subKey subscriberPeerId streamId
  match R.subscriptions.get key with
  | none => (R, [])
  | some sub =>
    let R' := R.dropSubscription key sub
    (R', R'.demandOf streamId)

/-- The first loop of `removePeer`. -/
def unpublishAll : List String → Router → Router × List Output
  | [], R => (R, [])
  | streamId :: rest, R =>
    let (R₁, out₁) := R.unpublish streamId
    let (R₂, out₂) := R₁.unpublishAll rest
    (R₂, out₁ ++ out₂)

/-- The ids of the streams a peer publishes. -/
def ownedBy (peerId : PeerId) (R : Router) : List String :=
  (R.publishers.entries.filter fun e => e.2.info.ownerPeerId = peerId.text).map Prod.fst

/-- `removePeer`. -/
def removePeer (peerId : PeerId) (R : Router) : Router × List Output :=
  let (R₁, ended) := R.unpublishAll (R.ownedBy peerId)
  let own := fun key => startsWith key (peerId.text ++ "::")
  let touched := (R₁.subscriptions.keys.filter own).map (slice · (peerId.text.length + 2))
  let R₂ := dropWhere own R₁.subscriptions.entries R₁
  (R₂, ended ++ touched.flatMap R₂.demandOf)

def listStreams (R : Router) : List StreamInfo := R.publishers.values.map Publisher.info

/-! ### Publishing and subscribing -/

/-- Leave `call` in flight, with a connection of its own. -/
def begin (call : Call) (pc : Pc) (R : Router) : Router :=
  { R with
    negotiating := R.negotiating.set R.nextCall call
    pcs := Function.update R.pcs R.nextCall pc
    nextCall := R.nextCall + 1 }

/-- The first segment of `publish`. -/
def publish (ownerPeerId : PeerId) (streamId : String) (kinds : Kinds) (R : Router) :
    Router × List Output :=
  let call := Call.publish ownerPeerId streamId kinds
  if R.closed then (R, [.rejected call "sfu closed"])
  else if R.publishers.has streamId then
    (R, [.rejected call ("stream " ++ streamId ++ " already published")])
  else (R.begin call newPc, [])

/-- The first segment of `subscribe`.  The forwards are attached before the negotiation. -/
def subscribe (subscriberPeerId : PeerId) (streamId : String) (R : Router) :
    Router × List Output :=
  let call := Call.subscribe subscriberPeerId streamId
  if R.closed then (R, [.rejected (call "") "sfu closed"])
  else
    match R.publishers.get streamId with
    | none => (R, [.rejected (call "") ("no such stream: " ++ streamId)])
    | some pub =>
      if R.subscriptions.has (subKey subscriberPeerId streamId) then
        (R, [.rejected (call "") "already subscribed"])
      else
        let forwards := [Kind.video, Kind.audio].filter fun kind => kind ∈ (R.pcs pub.pc).tracks
        if forwards.isEmpty then
          (R, [.rejected (call "") "stream has no forwardable tracks yet"])
        else (R.begin (call pub.info.ownerPeerId) { newPc with forwards := forwards }, [])

/-- The first segment of `completeSubscribe`. -/
def completeSubscribe (subscriberPeerId : PeerId) (streamId : String) (R : Router) :
    Router × List Output :=
  let call := Call.completeSubscribe subscriberPeerId streamId
  match R.subscriptions.get (subKey subscriberPeerId streamId) with
  | none => (R, [.rejected call "no pending subscription"])
  | some sub => (R.begin call newPc, [.answered sub.pc])

/-- `mustSdp`, as what the call does with its result. -/
def mustSdp (call : Call) : Option String → Output
  | some sdp =>
    if sdp = "" then .rejected call "no local description after negotiation"
    else .resolved call (some sdp)
  | none => .rejected call "no local description after negotiation"

/-- The last segment of `publish`.  It does not look at the tables again before it writes. -/
def settlePublish (pc : ℕ) (ownerPeerId : PeerId) (streamId : String) (kinds : Kinds)
    (outcome : Negotiation) (R : Router) : Router × List Output :=
  let call := Call.publish ownerPeerId streamId kinds
  match outcome with
  | .failed message => (R.closePc pc, [.rejected call ("publish negotiation failed: " ++ message)])
  | .succeeded sdp =>
    let info : StreamInfo := ⟨streamId, ownerPeerId.text, kinds.video, kinds.audio⟩
    ({ R with
        publishers := R.publishers.set streamId ⟨pc, info⟩
        pcs := Function.update R.pcs pc { R.pcs pc with onState := some (.unpublish streamId) } },
      [.streamLive info, mustSdp call sdp])

/-- The last segment of `subscribe`. -/
def settleSubscribe (pc : ℕ) (subscriberPeerId : PeerId) (streamId ownerPeerId : String)
    (outcome : Negotiation) (R : Router) : Router × List Output :=
  let call := Call.subscribe subscriberPeerId streamId ownerPeerId
  match outcome with
  | .failed message =>
    ({ R with pcs := Function.update R.pcs pc (R.pcs pc).shut },
      [.rejected call ("subscribe offer failed: " ++ message)])
  | .succeeded sdp =>
    let handler := Handler.unsubscribe subscriberPeerId streamId
    let R' := { R with
      subscriptions := R.subscriptions.set (subKey subscriberPeerId streamId) ⟨pc⟩
      pcs := Function.update R.pcs pc { R.pcs pc with onState := some handler } }
    (R', [R'.emitDemand streamId ownerPeerId, mustSdp call sdp])

/-- The last segment of `completeSubscribe`. -/
def settleComplete (subscriberPeerId : PeerId) (streamId : String) (outcome : Negotiation)
    (R : Router) : Router × List Output :=
  let call := Call.completeSubscribe subscriberPeerId streamId
  match outcome with
  | .failed message => (R, [.rejected call message])
  | .succeeded _ => (R, [.resolved call none])

/-- The last segment of call `k`. -/
def settle (k : ℕ) (outcome : Negotiation) (R : Router) : Router × List Output :=
  match R.negotiating.get k with
  | none => (R, [])
  | some call =>
    let R' := { R with negotiating := R.negotiating.delete k }
    match call with
    | .publish owner streamId kinds => R'.settlePublish k owner streamId kinds outcome
    | .subscribe subscriber streamId owner => R'.settleSubscribe k subscriber streamId owner outcome
    | .completeSubscribe subscriber streamId => R'.settleComplete subscriber streamId outcome

/-! ### What a connection reports -/

/-- `pc.onTrack`. -/
def onTrack (pc : ℕ) (kind : Kind) (R : Router) : Router :=
  { R with pcs := Function.update R.pcs pc { R.pcs pc with tracks := kind :: (R.pcs pc).tracks } }

/-- What a report makes of the connection itself. -/
def reported (pc : ℕ) (state : PcState) (R : Router) : Router :=
  if state = .closed then R.closePc pc else R

/-- `connectionStateChange`.  The handler acts on the stream or the subscription it was made for,
whichever connection carries it now. -/
def onStateChange (pc : ℕ) (state : PcState) (R : Router) : Router × List Output :=
  let R' := R.reported pc state
  if state.lost then
    match (R.pcs pc).onState with
    | none => (R', [])
    | some (.unpublish streamId) => R'.unpublish streamId
    | some (.unsubscribe subscriber streamId) => R'.unsubscribe subscriber streamId
  else (R', [])

/-! ### Closing -/

/-- `safeClose(pub.pc)` in `close`.  Here the stream is still registered, and an open connection
reports in the call of `pc.close()` that it is closed. -/
def closePublisher (pub : Publisher) (R : Router) : Router × List Output :=
  if (R.pcs pub.pc).closed then (R, []) else R.onStateChange pub.pc .closed

/-- The loop of `close` over the publishers. -/
def closePublishers : List Publisher → Router → Router × List Output
  | [], R => (R, [])
  | pub :: rest, R =>
    let (R₁, out₁) := R.closePublisher pub
    let (R₂, out₂) := R₁.closePublishers rest
    (R₂, out₁ ++ out₂)

/-- `close`. -/
def close (R : Router) : Router × List Output :=
  let R₁ := { R with closed := true }
  let R₂ := dropWhere (fun _ => true) R₁.subscriptions.entries R₁
  let (R₃, ended) := R₂.closePublishers R₂.publishers.values
  ({ R₃ with publishers := .empty }, ended)

end Router

end ScreenSharing.Sfu
