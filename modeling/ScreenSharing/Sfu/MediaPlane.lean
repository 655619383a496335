import ScreenSharing.Lib.Json
import ScreenSharing.Sfu.Governor
import ScreenSharing.Sfu.Runs

/-!
# The media plane

`MediaPlane` holds the fields of the `SfuMediaPlane` class: the router and the governor.  It turns
the media messages of a peer into calls of the router, feeds the governor, and turns what the router
emits into messages to peers.  The listeners on the router's events do not call the router, so a
step of the media plane is a step of the router, after which the listeners run over its outputs.

`mediaPlane` is the class as a machine.  `request` is the call a message makes, and `routerEvent`
the event of the router behind an event of the media plane; `next_router` says that the router of
the media plane takes exactly these steps, so whatever is proved about runs of the router holds
here.
-/

namespace ScreenSharing.Sfu

open Lib

structure MediaPlane where
  router : Router
  governor : Governor

/-- `new SfuMediaPlane({ videoBitrateKbps })`. -/
def MediaPlane.new (videoBitrateKbps : ℚ) : MediaPlane := ⟨.new, .new videoBitrateKbps⟩

inductive MediaOutput
  | broadcast (body : Body)
  | sendTo (peerId : String) (body : Body)
  /-- what `handleMessage` returns, unless that is `null` -/
  | reply (peerId : PeerId) (body : Body)
  | answered (pc : ℕ)
  deriving DecidableEq

inductive MediaEvent
  | message (peerId : PeerId) (body : Body)
  | settle (call : ℕ) (outcome : Negotiation)
  | peerGone (peerId : PeerId)
  | track (pc : ℕ) (kind : Kind)
  | stateChange (pc : ℕ) (state : PcState)
  | runGovernor
  | close

/-! ### Messages out -/

/-- `toWire`. -/
def toWire (d : GovernorDirective) : QualityDirective :=
  ⟨d.streamId, d.maxKbps, d.maxFps, d.scaleDownBy, d.reason⟩

/-- `reason.slice(0, 160)`. -/
def clip (reason : String) : String := utf16Slice 160 reason

/-- The peer and the stream of a call. -/
def Call.peerId : Call → PeerId
  | .publish p _ _ => p
  | .subscribe p _ _ => p
  | .completeSubscribe p _ => p

def Call.streamId : Call → String
  | .publish _ s _ => s
  | .subscribe _ s _ => s
  | .completeSubscribe _ s => s

/-- What `handleMessage` returns after a call of the router has returned. -/
def replyTo (sdp : Option String) : Call → List MediaOutput
  | .publish p s _ => [.reply p (.publishAnswer s (sdp.getD ""))]
  | .subscribe p s _ => [.reply p (.subscribeOffer s (sdp.getD ""))]
  | .completeSubscribe _ _ => []

/-- The listeners on the router's events, and the end of `handleMessage`. -/
def MediaPlane.onOutput (M : MediaPlane) : Output → MediaPlane × List MediaOutput
  | .streamLive info =>
    ({ M with governor := M.governor.register info.streamId info.ownerPeerId },
      [.broadcast (.streamState info .live)])
  | .streamEnded streamId =>
    ({ M with governor := M.governor.forget streamId },
      [.broadcast (.streamState ⟨streamId, "", false, false⟩ .ended)])
  | .demandChanged streamId owner subscribers =>
    if subscribers = 0 then
      ({ M with governor := M.governor.setPaused streamId true },
        [.sendTo owner (.qualityDirective ⟨streamId, 0, 0, 1, .noViewers⟩)])
    else
      let governor := M.governor.setPaused streamId false
      ({ M with governor := governor },
        match governor.resumeDirective streamId with
        | none => []
        | some d => [.sendTo owner (.qualityDirective (toWire d))])
  | .answered pc => (M, [.answered pc])
  | .resolved call sdp => (M, replyTo sdp call)
  | .rejected call message => (M, [.reply call.peerId (.mediaError call.streamId (clip message))])

def MediaPlane.onOutputs : List Output → MediaPlane → MediaPlane × List MediaOutput
  | [], M => (M, [])
  | o :: os, M =>
    let (M₁, out₁) := M.onOutput o
    let (M₂, out₂) := M₁.onOutputs os
    (M₂, out₁ ++ out₂)

/-! ### Messages in -/

/-- The call of the router that `handleMessage` makes. -/
def request (peerId : PeerId) : Body → Option Event
  | .publishOffer s video audio _ => some (.publish peerId s ⟨video, audio⟩)
  | .unpublish s => some (.unpublish s)
  | .subscribe s => some (.subscribe peerId s)
  | .subscribeAnswer s _ => some (.completeSubscribe peerId s)
  | .unsubscribe s => some (.unsubscribe peerId s)
  | _ => none

/-- The `stats_report` branch of `handleMessage`. -/
def MediaPlane.ingest (peerId : PeerId) (subscriptions : List SubscriptionStats)
    (publications : List PublicationStats) (M : MediaPlane) : MediaPlane :=
  let governor := subscriptions.foldl
    (fun G sub => G.ingestSubscriber
      ⟨sub.streamId, peerId.text, sub.fractionLost, sub.rttMs, sub.fps⟩) M.governor
  let governor' := publications.foldl
    (fun G pub => G.ingestPublisher ⟨pub.streamId, pub.cpuPressure, pub.fps⟩) governor
  { M with governor := governor' }

/-- An event of the router, and the listeners on what it emits. -/
def MediaPlane.route (e : Event) (M : MediaPlane) : MediaPlane × List MediaOutput :=
  let (R, out) := react M.router e
  { M with router := R }.onOutputs out

/-- The first segment of `handleMessage`. -/
def MediaPlane.handleMessage (peerId : PeerId) (body : Body) (M : MediaPlane) :
    MediaPlane × List MediaOutput :=
  match request peerId body, body with
  | some e, _ => M.route e
  | none, .statsReport subscriptions publications =>
    (M.ingest peerId subscriptions publications, [])
  | none, _ => (M, [])

def MediaPlane.onPeerGone (peerId : PeerId) (M : MediaPlane) : MediaPlane × List MediaOutput :=
  { M with governor := M.governor.dropSubscriber peerId.text }.route (.removePeer peerId)

/-- `#runGovernor`. -/
def MediaPlane.runGovernor (M : MediaPlane) : MediaPlane × List MediaOutput :=
  let (governor, directives) := M.governor.evaluate
  ({ M with governor := governor },
    directives.map fun d => .sendTo d.ownerPeerId (.qualityDirective (toWire d)))

/-- The router's part of an event. -/
def routerEvent : MediaEvent → Option Event
  | .message p body => request p body
  | .settle call outcome => some (.settle call outcome)
  | .peerGone p => some (.removePeer p)
  | .track pc kind => some (.track pc kind)
  | .stateChange pc state => some (.stateChange pc state)
  | .runGovernor => none
  | .close => some .close

def mediaReact (M : MediaPlane) : MediaEvent → MediaPlane × List MediaOutput
  | .message p body => M.handleMessage p body
  | .settle call outcome => M.route (.settle call outcome)
  | .peerGone p => M.onPeerGone p
  | .track pc kind => M.route (.track pc kind)
  | .stateChange pc state => M.route (.stateChange pc state)
  | .runGovernor => M.runGovernor
  | .close => M.route .close

/-- The timer of the governor runs until `close`. -/
def MediaEnabled (M : MediaPlane) (e : MediaEvent) : Prop :=
  (∀ e' ∈ routerEvent e, Enabled M.router e') ∧
    match e with
    | .runGovernor => M.router.closed = false
    | _ => True

instance (M : MediaPlane) (e : MediaEvent) : Decidable (MediaEnabled M e) := by
  cases e <;> unfold MediaEnabled <;> infer_instance

def mediaPlane : Machine MediaPlane MediaEvent MediaOutput := ⟨MediaEnabled, mediaReact⟩

instance (M : MediaPlane) (e : MediaEvent) : Decidable (mediaPlane.enabled M e) :=
  inferInstanceAs (Decidable (MediaEnabled M e))

/-! ### The router inside -/

variable {M : MediaPlane}

@[simp] theorem onOutput_router (o : Output) : (M.onOutput o).1.router = M.router := by
  cases o with
  | demandChanged s owner subscribers =>
    rw [MediaPlane.onOutput]
    split <;> rfl
  | streamLive => rfl
  | streamEnded => rfl
  | answered => rfl
  | resolved => rfl
  | rejected => rfl

theorem onOutputs_router (os : List Output) : ∀ M : MediaPlane,
    (M.onOutputs os).1.router = M.router := by
  induction os with
  | nil => intro M; rfl
  | cons o os ih =>
    intro M
    show ((M.onOutput o).1.onOutputs os).1.router = M.router
    rw [ih, onOutput_router]

theorem route_router (e : Event) : (M.route e).1.router = router.next M.router e :=
  onOutputs_router _ _

/-- **The router inside the media plane** takes the steps of `routerEvent` and no others. -/
theorem next_router (e : MediaEvent) :
    (mediaPlane.next M e).router =
      match routerEvent e with
      | some e' => router.next M.router e'
      | none => M.router := by
  cases e with
  | message p body =>
    show (M.handleMessage p body).1.router = _
    cases body <;> first | exact route_router _ | rfl
  | settle call outcome => exact route_router _
  | peerGone p => exact route_router _
  | track pc kind => exact route_router _
  | stateChange pc state => exact route_router _
  | runGovernor => rfl
  | close => exact route_router _

/-- The representation invariant of the router holds inside the media plane. -/
theorem wf_mediaPlane_next (hw : Wf M.router) {e : MediaEvent} (henabled : MediaEnabled M e) :
    Wf (mediaPlane.next M e).router := by
  rw [next_router]
  cases he : routerEvent e with
  | none => exact hw
  | some e' => exact wf_next hw e' (henabled.1 e' he)

end ScreenSharing.Sfu
