import Mathlib.Data.Rat.Defs
import Mathlib.Data.List.Basic

/-!
# The control protocol

The bodies that travel between a peer and the host once their connection is encrypted, as the
parsed values the rest of the program works on.  One constructor of `Body` for each member of the
`bodySchema` union, with its fields; numbers that the schema does not restrict to integers are
rationals.

`PeerId` is the form of the ids the host generates: `p_` and eight hexadecimal digits.  It carries
that form, so that what the program derives from an id by cutting strings can be inverted.
-/

namespace ScreenSharing

def isHexDigit (c : Char) : Bool := "0123456789abcdef".toList.contains c

/-- `p_` followed by eight hexadecimal digits. -/
def isPeerId (s : String) : Bool :=
  s.toList.length == 10 && s.toList.take 2 == ['p', '_'] && (s.toList.drop 2).all isHexDigit

/-- A generated peer id. -/
structure PeerId where
  text : String
  shape : isPeerId text = true
  deriving DecidableEq

theorem PeerId.length_text (p : PeerId) : p.text.toList.length = 10 := by
  have h := p.shape
  simp only [isPeerId, Bool.and_eq_true, beq_iff_eq] at h
  exact h.1.1

theorem PeerId.ext_text {p q : PeerId} (h : p.text = q.text) : p = q := by
  cases p
  cases q
  cases h
  rfl

structure RoomParams where
  maxParticipants : ℕ
  maxRecommendedSubscriptions : ℕ
  videoBitrateKbps : ℕ
  deriving DecidableEq

structure Publishing where
  video : Bool
  audio : Bool
  streamId : String
  deriving DecidableEq

structure InboundEndpoint where
  address : String
  port : ℕ
  deriving DecidableEq

structure RosterEntry where
  peerId : String
  nickname : String
  joinSeq : ℕ
  isHost : Bool
  inboundVerified : Bool
  inboundEndpoint : Option InboundEndpoint
  publishing : Option Publishing
  deriving DecidableEq

/-- A stream currently published in the room. -/
structure StreamInfo where
  streamId : String
  ownerPeerId : String
  video : Bool
  audio : Bool
  deriving DecidableEq

structure ClientCaps where
  canHost : Bool
  inboundPort : ℕ
  deriving DecidableEq

structure Join where
  nickname : String
  clientCaps : ClientCaps
  deriving DecidableEq

inductive RejectedReason
  | roomFull
  | duplicateNickname
  | roomClosing
  | badMessage
  deriving DecidableEq

inductive StreamState
  | live
  | ended
  deriving DecidableEq

inductive DirectiveReason
  | noViewers
  | restored
  | bandwidth
  | cpu
  deriving DecidableEq

structure QualityDirective where
  streamId : String
  maxKbps : ℤ
  maxFps : ℕ
  scaleDownBy : ℚ
  reason : DirectiveReason
  deriving DecidableEq

/-- What a viewer reports about one stream it watches. -/
structure SubscriptionStats where
  streamId : String
  fractionLost : ℚ
  jitterMs : ℚ
  rttMs : ℚ
  fps : ℚ
  deriving DecidableEq

/-- What a publisher reports about one stream it sends. -/
structure PublicationStats where
  streamId : String
  cpuPressure : ℚ
  fps : ℚ
  deriving DecidableEq

/-- `Body`. -/
inductive Body
  | join (join : Join)
  | joined (peerId : String) (joinSeq epoch : ℕ) (roomParams : RoomParams)
      (roster : List RosterEntry) (streams : List StreamInfo)
  | hostTransfer (successorPeerId : String) (epoch : ℕ)
  | rosterUpdate (added : List RosterEntry) (removed : List String) (changed : List RosterEntry)
  | rejected (reason : RejectedReason)
  | ping (nonce : ℤ) (sentAt : ℚ)
  | pong (nonce : ℤ) (sentAt : ℚ)
  | bye (reason : String)
  | publishOffer (streamId : String) (video audio : Bool) (sdp : String)
  | publishAnswer (streamId sdp : String)
  | unpublish (streamId : String)
  | subscribe (streamId : String)
  | subscribeOffer (streamId sdp : String)
  | subscribeAnswer (streamId sdp : String)
  | unsubscribe (streamId : String)
  | streamState (stream : StreamInfo) (state : StreamState)
  | mediaError (streamId reason : String)
  | qualityDirective (directive : QualityDirective)
  | statsReport (subscriptions : List SubscriptionStats) (publications : List PublicationStats)
  deriving DecidableEq

/-- The `type` field of a body. -/
def Body.type : Body → String
  | .join _ => "join"
  | .joined .. => "joined"
  | .hostTransfer .. => "host_transfer"
  | .rosterUpdate .. => "roster_update"
  | .rejected _ => "rejected"
  | .ping .. => "ping"
  | .pong .. => "pong"
  | .bye _ => "bye"
  | .publishOffer .. => "publish_offer"
  | .publishAnswer .. => "publish_answer"
  | .unpublish _ => "unpublish"
  | .subscribe _ => "subscribe"
  | .subscribeOffer .. => "subscribe_offer"
  | .subscribeAnswer .. => "subscribe_answer"
  | .unsubscribe _ => "unsubscribe"
  | .streamState .. => "stream_state"
  | .mediaError .. => "media_error"
  | .qualityDirective _ => "quality_directive"
  | .statsReport .. => "stats_report"

/-- The bodies of the type `MediaBody`. -/
def Body.isMediaBody : Body → Bool
  | .publishOffer .. | .publishAnswer .. | .unpublish _ | .subscribe _ | .subscribeOffer ..
  | .subscribeAnswer .. | .unsubscribe _ | .streamState .. | .mediaError .. | .qualityDirective _
  | .statsReport .. => true
  | _ => false

/-- `isMediaMessage`: the media messages a peer can send inbound. -/
def Body.isMediaMessage : Body → Bool
  | .publishOffer .. | .unpublish _ | .subscribe _ | .subscribeAnswer .. | .unsubscribe _
  | .statsReport .. => true
  | _ => false

end ScreenSharing
