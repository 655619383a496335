import ScreenSharing.Sfu.MediaPlane
import ScreenSharing.Signaling.Server

/-!
# The host

`HostProcess` is the signaling server with its media plane, as `#startServer` of a session wires them.  The
server calls `handleMessage` and `onPeerGone` of the media plane in the middle of a step, so what the media
plane emits stands in the outputs where the call stood.  What it emits goes to the server again, which only
sends it (`onMedia`); a call of `handleMessage` that has returned a body leaves it in `replies`, from where
the continuation of `#handleMedia` takes it.  The media plane has no other input but the WebRTC library,
its timer, and the renderer of the host (`sendMedia`).  The server takes the steps of its own machine
(`next_server`).
-/

namespace ScreenSharing.Host

open Lib

structure HostProcess where
  server : Signaling.SignalingServer
  media : Sfu.MediaPlane
  /-- what `handleMessage` has returned, for whom -/
  replies : List (String × Body)

inductive Output
  | server (o : Signaling.Output)
  | media (o : Sfu.MediaOutput)
  deriving DecidableEq

inductive Event
  | server (e : Signaling.Event)
  | media (e : Sfu.MediaEvent)
  | sendMedia (body : Body)

/-- The server and the media plane of `#startServer`. -/
def HostProcess.new (L : Signaling.Config) : HostProcess :=
  ⟨.new L, .new L.roomParams.videoBitrateKbps, []⟩

/-- One thing after the other. -/
def forEach {α : Type} (f : α → HostProcess → HostProcess × List Output) :
    List α → HostProcess → HostProcess × List Output
  | [], H => (H, [])
  | a :: as, H =>
    let (H₁, out₁) := f a H
    let (H₂, out₂) := forEach f as H₁
    (H₂, out₁ ++ out₂)

theorem forEach_cons {α : Type} (f : α → HostProcess → HostProcess × List Output) (a : α) (as : List α)
    (H : HostProcess) : forEach f (a :: as) H =
      ((forEach f as (f a H).1).1, (f a H).2 ++ (forEach f as (f a H).1).2) := rfl

/-- An id as the media plane knows it. -/
def peerId? (p : String) : Option PeerId :=
  if h : isPeerId p = true then some ⟨p, h⟩ else none

namespace HostProcess

variable (L : Signaling.Config)

/-- The listeners that `#startServer` attaches to the media plane, and the end of `handleMessage`. -/
def onMedia (o : Sfu.MediaOutput) (H : HostProcess) : HostProcess × List Output :=
  match o with
  | .broadcast body => (H, .media o :: (H.server.broadcast body none).map .server)
  | .sendTo p body =>
    (H, .media o :: if p = L.hostPeerId then [] else (H.server.sendTo p body).map .server)
  | .reply p body => ({ H with replies := H.replies ++ [(p.text, body)] }, [.media o])
  | .answered _ => (H, [.media o])

/-- A step of the media plane. -/
def mediate (e : Sfu.MediaEvent) (H : HostProcess) : HostProcess × List Output :=
  let (M, out) := Sfu.mediaReact H.media e
  forEach (onMedia L) out { H with media := M }

/-- A call of the media plane for a peer. -/
def call (p : String) (e : PeerId → Sfu.MediaEvent) (H : HostProcess) : HostProcess × List Output :=
  match peerId? p with
  | none => (H, [])
  | some q => mediate L (e q) H

/-- What an output of the server calls. -/
def onServer (o : Signaling.Output) (H : HostProcess) : HostProcess × List Output :=
  let result := match o with
    | .handleMessage p body => call L p (fun q => .message q body) H
    | .mediaPeerGone p => call L p .peerGone H
    | _ => (H, [])
  (result.1, .server o :: result.2)

/-- A segment of the server, with the calls that it makes. -/
def serve (f : Signaling.SignalingServer → Signaling.SignalingServer × List Signaling.Output)
    (H : HostProcess) : HostProcess × List Output :=
  let (S, out) := f H.server
  forEach (onServer L) out { H with server := S }

/-- `#flush` of a connection, item by item. -/
def flush (conn : ℕ) (H : HostProcess) : HostProcess × List Output :=
  let held := ((H.server.conns.get conn).map Signaling.Conn.inbox).getD []
  let S := H.server.modifyConn conn fun k => { k with inbox := [], flushQueued := false }
  forEach (fun item => serve L fun S => S.deliverItem L conn item) held { H with server := S }

/-- The continuation of `#handleMedia`. -/
def handleMedia (p : String) (reply : Option Body) (H : HostProcess) : HostProcess × List Output :=
  serve L (fun S => S.mediaReply p reply)
    { H with replies := reply.elim H.replies fun body => H.replies.erase (p, body) }

end HostProcess

def react (L : Signaling.Config) (H : HostProcess) : Event → HostProcess × List Output
  | .server (.flush conn) => H.flush L conn
  | .server (.mediaReply p reply) => H.handleMedia L p reply
  | .server e => H.serve L fun S => Signaling.react L S e
  | .media e => H.mediate L e
  | .sendMedia body => H.call L L.hostPeerId fun q => .message q body

/-- What the server is given by the media plane. -/
def Supplied (H : HostProcess) : Signaling.Event → Prop
  | .resume _ draw => draw.streams = H.media.router.listStreams
  | .mediaReply p reply => ∀ body ∈ reply, (p, body) ∈ H.replies
  | .sendTo _ _ | .broadcast _ => False
  | _ => True

/-- The events of the media plane that are not calls of the server; `leave` closes it last. -/
def OfItself (H : HostProcess) : Sfu.MediaEvent → Prop
  | .message _ _ | .peerGone _ => False
  | .close => H.server.closing = true
  | _ => True

instance (H : HostProcess) (e : Signaling.Event) : Decidable (Supplied H e) := by
  apply e.casesOn (motive := fun e => Decidable (Supplied H e)) <;> intros <;> unfold Supplied <;>
    infer_instance

instance (H : HostProcess) (e : Sfu.MediaEvent) : Decidable (OfItself H e) := by
  apply e.casesOn (motive := fun e => Decidable (OfItself H e)) <;> intros <;> unfold OfItself <;>
    infer_instance

def Enabled (L : Signaling.Config) (H : HostProcess) : Event → Prop
  | .server e => Signaling.Enabled L H.server e ∧ Supplied H e
  | .media e => Sfu.MediaEnabled H.media e ∧ OfItself H e
  | .sendMedia body => body.isMediaBody = true

instance (L : Signaling.Config) (H : HostProcess) (e : Event) : Decidable (Enabled L H e) := by
  cases e <;> unfold Enabled <;> infer_instance

def host (L : Signaling.Config) : Machine HostProcess Event Output := ⟨Enabled L, react L⟩

instance (L : Signaling.Config) (H : HostProcess) (e : Event) : Decidable ((host L).enabled H e) :=
  inferInstanceAs (Decidable (Enabled L H e))

/-! ### The server inside -/

variable {L : Signaling.Config} {H : HostProcess}

theorem forEach_server {α : Type} {f : α → HostProcess → HostProcess × List Output}
    (hf : ∀ a H, (f a H).1.server = H.server) (as : List α) : ∀ H : HostProcess,
    (forEach f as H).1.server = H.server := by
  induction as with
  | nil => exact fun _ => rfl
  | cons a as ih => exact fun H => (ih _).trans (hf a H)

theorem onMedia_server (o : Sfu.MediaOutput) (H : HostProcess) :
    (HostProcess.onMedia L o H).1.server = H.server := by
  cases o <;> rfl

theorem call_server (p : String) (e : PeerId → Sfu.MediaEvent) (H : HostProcess) :
    (HostProcess.call L p e H).1.server = H.server := by
  unfold HostProcess.call
  split
  · rfl
  · exact forEach_server onMedia_server _ _

theorem onServer_server (o : Signaling.Output) (H : HostProcess) :
    (HostProcess.onServer L o H).1.server = H.server := by
  cases o with
  | handleMessage p body => exact call_server p _ H
  | mediaPeerGone p => exact call_server p _ H
  | _ => rfl

theorem serve_server {f : Signaling.SignalingServer → Signaling.SignalingServer × List Signaling.Output} :
    (HostProcess.serve L f H).1.server = (f H.server).1 := forEach_server onServer_server _ _

/-- **The server inside the host** takes the steps of its own machine. -/
theorem next_server (e : Signaling.Event) :
    ((host L).next H (.server e)).server = (Signaling.react L H.server e).1 := by
  have hitems : ∀ (conn : ℕ) (items : List Signaling.Item) (H : HostProcess),
      (forEach (fun item => HostProcess.serve L fun S => S.deliverItem L conn item) items H).1.server =
        (Signaling.SignalingServer.deliverItems L conn items H.server).1 := by
    intro conn items
    induction items with
    | nil => exact fun _ => rfl
    | cons item items ih =>
      intro H
      rw [forEach_cons]
      dsimp only
      rw [ih, serve_server]
      rfl
  cases e with
  | flush conn => exact hitems conn _ _
  | mediaReply p reply => exact serve_server
  | _ => exact serve_server

end ScreenSharing.Host
