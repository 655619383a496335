import ScreenSharing.Lib.Json
import ScreenSharing.Shared.Protocol

/-!
# The schemas of the control protocol

What `bodySchema` asks of a body beyond the types of its fields: the lengths of strings, in UTF-16 code
units, the lengths of arrays and the ranges of numbers.  An `.int()` is a safe integer.  A receiver
parses every body with it and takes a body that does not pass for a fatal error.
-/

namespace ScreenSharing

open Lib

/-- `Number.MAX_SAFE_INTEGER`. -/
def maxSafeInteger : ℕ := 2 ^ 53 - 1

/-- `z.string().max(n)`. -/
def Short (n : ℕ) (s : String) : Prop := utf16Length s ≤ n

/-- `z.string().min(1).max(n)`. -/
def Filled (n : ℕ) (s : String) : Prop := 1 ≤ utf16Length s ∧ utf16Length s ≤ n

/-- `z.array(schema).max(n)`. -/
def Few {α : Type} (n : ℕ) (schema : α → Prop) (items : List α) : Prop :=
  items.length ≤ n ∧ ∀ item ∈ items, schema item

/-- `z.number().int()`. -/
def Safe (z : ℤ) : Prop := z.natAbs ≤ maxSafeInteger

/-- `z.number().int().min(lo).max(hi)`, for bounds that are safe. -/
def Ranges (lo hi z : ℤ) : Prop := lo ≤ z ∧ z ≤ hi

/-- `z.number().min(lo).max(hi)`. -/
def Spans (lo hi q : ℚ) : Prop := lo ≤ q ∧ q ≤ hi

instance (n : ℕ) (s : String) : Decidable (Short n s) := inferInstanceAs (Decidable (_ ≤ _))

instance (n : ℕ) (s : String) : Decidable (Filled n s) := inferInstanceAs (Decidable (_ ∧ _))

instance {α : Type} (n : ℕ) (schema : α → Prop) [DecidablePred schema] (items : List α) :
    Decidable (Few n schema items) := inferInstanceAs (Decidable (_ ∧ _))

instance (z : ℤ) : Decidable (Safe z) := inferInstanceAs (Decidable (_ ≤ _))

instance (lo hi z : ℤ) : Decidable (Ranges lo hi z) := inferInstanceAs (Decidable (_ ∧ _))

instance (lo hi q : ℚ) : Decidable (Spans lo hi q) := inferInstanceAs (Decidable (_ ∧ _))

/-- `roomParamsSchema`: positive integers. -/
structure RoomParamsSchema (params : RoomParams) : Prop where
  maxParticipants : 0 < params.maxParticipants ∧ params.maxParticipants ≤ maxSafeInteger
  maxRecommendedSubscriptions :
    0 < params.maxRecommendedSubscriptions ∧ params.maxRecommendedSubscriptions ≤ maxSafeInteger
  videoBitrateKbps : 0 < params.videoBitrateKbps ∧ params.videoBitrateKbps ≤ maxSafeInteger

instance : DecidablePred RoomParamsSchema := fun params =>
  decidable_of_iff
    ((0 < params.maxParticipants ∧ params.maxParticipants ≤ maxSafeInteger) ∧
      (0 < params.maxRecommendedSubscriptions ∧
        params.maxRecommendedSubscriptions ≤ maxSafeInteger) ∧
      0 < params.videoBitrateKbps ∧ params.videoBitrateKbps ≤ maxSafeInteger)
    ⟨fun ⟨h, h', h''⟩ => ⟨h, h', h''⟩, fun ⟨h, h', h''⟩ => ⟨h, h', h''⟩⟩

def PublishingSchema (publishing : Publishing) : Prop := Short 64 publishing.streamId

def InboundEndpointSchema (endpoint : InboundEndpoint) : Prop :=
  Short 64 endpoint.address ∧ Ranges 1 65535 endpoint.port

/-- `rosterEntrySchema`; the two nullable members are checked if they are there. -/
structure RosterEntrySchema (entry : RosterEntry) : Prop where
  peerId : Short 64 entry.peerId
  nickname : Short 48 entry.nickname
  joinSeq : entry.joinSeq ≤ maxSafeInteger
  inboundEndpoint : ∀ endpoint ∈ entry.inboundEndpoint, InboundEndpointSchema endpoint
  publishing : ∀ publishing ∈ entry.publishing, PublishingSchema publishing

instance : DecidablePred PublishingSchema := fun _ => inferInstanceAs (Decidable (Short _ _))

instance : DecidablePred InboundEndpointSchema := fun _ => inferInstanceAs (Decidable (_ ∧ _))

instance : DecidablePred RosterEntrySchema := fun entry =>
  decidable_of_iff
    (Short 64 entry.peerId ∧ Short 48 entry.nickname ∧ entry.joinSeq ≤ maxSafeInteger ∧
      (∀ endpoint ∈ entry.inboundEndpoint, InboundEndpointSchema endpoint) ∧
      ∀ publishing ∈ entry.publishing, PublishingSchema publishing)
    ⟨fun ⟨h₁, h₂, h₃, h₄, h₅⟩ => ⟨h₁, h₂, h₃, h₄, h₅⟩,
      fun ⟨h₁, h₂, h₃, h₄, h₅⟩ => ⟨h₁, h₂, h₃, h₄, h₅⟩⟩

def JoinSchema (join : Join) : Prop :=
  Filled 48 join.nickname ∧ Ranges 0 65535 join.clientCaps.inboundPort

def StreamInfoSchema (stream : StreamInfo) : Prop :=
  Filled 64 stream.streamId ∧ Short 64 stream.ownerPeerId

def QualityDirectiveSchema (directive : QualityDirective) : Prop :=
  Filled 64 directive.streamId ∧ Ranges 0 20000 directive.maxKbps ∧ directive.maxFps ≤ 120 ∧
    Spans 1 8 directive.scaleDownBy

/-- An element of `subscriptions` in `statsReportSchema`. -/
def SubscriptionSchema (stats : SubscriptionStats) : Prop :=
  Filled 64 stats.streamId ∧ Spans 0 1 stats.fractionLost ∧ Spans 0 10000 stats.jitterMs ∧
    Spans 0 10000 stats.rttMs ∧ Spans 0 240 stats.fps

/-- An element of `publications` in `statsReportSchema`. -/
def PublicationSchema (stats : PublicationStats) : Prop :=
  Filled 64 stats.streamId ∧ Spans 0 1 stats.cpuPressure ∧ Spans 0 240 stats.fps

instance : DecidablePred JoinSchema := fun _ => inferInstanceAs (Decidable (_ ∧ _))

instance : DecidablePred StreamInfoSchema := fun _ => inferInstanceAs (Decidable (_ ∧ _))

instance : DecidablePred QualityDirectiveSchema := fun _ => inferInstanceAs (Decidable (_ ∧ _))

instance : DecidablePred SubscriptionSchema := fun _ => inferInstanceAs (Decidable (_ ∧ _))

instance : DecidablePred PublicationSchema := fun _ => inferInstanceAs (Decidable (_ ∧ _))

/-- `bodySchema`. -/
def BodySchema : Body → Prop
  | .join join => JoinSchema join
  | .joined peerId joinSeq epoch roomParams roster streams =>
    Short 64 peerId ∧ joinSeq ≤ maxSafeInteger ∧ epoch ≤ maxSafeInteger ∧
      RoomParamsSchema roomParams ∧ Few 64 RosterEntrySchema roster ∧ Few 64 StreamInfoSchema streams
  | .hostTransfer successorPeerId epoch => Short 64 successorPeerId ∧ epoch ≤ maxSafeInteger
  | .rosterUpdate added removed changed =>
    Few 64 RosterEntrySchema added ∧ Few 64 (Short 64) removed ∧ Few 64 RosterEntrySchema changed
  | .rejected _ => True
  | .ping nonce _ => Safe nonce
  | .pong nonce _ => Safe nonce
  | .bye reason => Short 120 reason
  | .publishOffer streamId _ _ sdp => Filled 64 streamId ∧ Filled 60000 sdp
  | .publishAnswer streamId sdp => Filled 64 streamId ∧ Filled 60000 sdp
  | .unpublish streamId => Filled 64 streamId
  | .subscribe streamId => Filled 64 streamId
  | .subscribeOffer streamId sdp => Filled 64 streamId ∧ Filled 60000 sdp
  | .subscribeAnswer streamId sdp => Filled 64 streamId ∧ Filled 60000 sdp
  | .unsubscribe streamId => Filled 64 streamId
  | .streamState stream _ => StreamInfoSchema stream
  | .mediaError streamId reason => Filled 64 streamId ∧ Short 160 reason
  | .qualityDirective directive => QualityDirectiveSchema directive
  | .statsReport subscriptions publications =>
    Few 32 SubscriptionSchema subscriptions ∧ Few 8 PublicationSchema publications

instance : DecidablePred BodySchema := fun body => by
  cases body <;> unfold BodySchema <;> infer_instance

/-! ### Strings and lists -/

/-- A generated id passes. -/
theorem PeerId.short_text (p : PeerId) : Short 64 p.text := by
  have hle : ∀ cs : List Char,
      (cs.map fun c => if c.toNat < 0x10000 then 1 else 2).sum ≤ 2 * cs.length := by
    intro cs
    induction cs with
    | nil => simp
    | cons c cs ih =>
      rw [List.map_cons, List.sum_cons, List.length_cons]
      split <;> omega
  have hsum := hle p.text.toList
  have hlength := p.length_text
  show utf16Length p.text ≤ 64
  unfold utf16Length
  omega

section Lists

variable {α : Type} {n : ℕ} {schema : α → Prop}

theorem few_nil : Few n schema [] := ⟨Nat.zero_le _, fun _ h => by cases h⟩

theorem few_singleton {item : α} (hn : 1 ≤ n) (h : schema item) : Few n schema [item] :=
  ⟨hn, fun item' hmem => by rw [List.mem_singleton.mp hmem]; exact h⟩

end Lists

end ScreenSharing
