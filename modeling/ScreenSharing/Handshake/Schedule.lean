import ScreenSharing.Handshake.Coroutines
import ScreenSharing.Lib.Machine

/-!
# Two sides and their channels

`handshake` is a host and a peer with a channel in each direction, which keeps the order and delays as
it likes.  A turn of a side delivers any number of frames, none of which lets the function go on, and
then runs the microtasks until there are none left; only then can the next turn begin.  That is
what `draining` is for: no frame is delivered while it is set.

The host's transport delivers at most 64 early binary frames.
-/

namespace ScreenSharing.Handshake

open Lib Crypto Net

/-- The primitives, and the two sides. -/
structure Setup (P J : Type*) [AddCommGroup P] where
  prim : Primitives P
  gcm : Gcm
  decipher : Decipher
  wire : Wire J
  host : HostConfig prim.order
  peer : PeerConfig prim.order

structure Room (order : ℕ) where
  host : Host
  peer : Peer order
  toHost : List Frame
  toPeer : List Frame

inductive RoomEvent
  | deliverToHost
  | deliverToPeer
  | hostTask
  | peerTask
  /-- the promise of `deriveW` is fulfilled -/
  | derived
  | peerSends (body : Body)
  | hostSends (body : Body)
  | peerListens (listening : Bool)
  /-- the peer learns its id -/
  | peerNamed (peerId : String)

/-- Is it the schedule that produces this event, and not the code around the two functions? -/
def RoomEvent.scheduled : RoomEvent → Bool
  | .deliverToHost | .deliverToPeer | .hostTask | .peerTask | .derived => true
  | _ => false

section

variable {P J : Type*} [AddCommGroup P] (L : Setup P J)

/-- The host's connection, when the handshake begins. -/
def Setup.hostConn : Connection :=
  { Connection.new .host with outboundFrom := L.host.hostPeerId, epoch := L.host.epoch }

/-- The first message. -/
def Setup.hello : HandshakeMessage := .hello appVersion protocolVersion (bytesToHex L.peer.roomId)

/-- Both functions have been called. -/
def Room.start : Room L.prim.order where
  host := ⟨L.hostConn, .awaitHello, [.flush], false, [], [], []⟩
  peer := ⟨Connection.new .peer, .awaitAck, [.flush], false, [], [], []⟩
  toHost := [(L.wire.ofHandshake L.hello, false)]
  toPeer := []

/-- `send` by the code around a side, which catches what it throws. -/
def sendBody {Pc : Type*} (body : Body) (p : Process Pc) : Process Pc × List Frame :=
  match p.send L.gcm L.wire body with
  | (p', .error _) => (p', [])
  | (p', .ok frame) => (p', [(frame, true)])

/-- An envelope that the schema of the receiver takes as it was. -/
def Setup.Fits (env : Envelope) : Prop :=
  parseJson L.wire.parse L.wire.envelopeSchema (L.wire.ofEnvelope env) = .ok env

/-- The code behind the peer has sent its join. -/
def PeerPc.joined {order : ℕ} : PeerPc order → Bool
  | .sentJoin _ => true
  | _ => false

/-- When an event can happen. -/
def Room.possible (S : Room L.prim.order) : RoomEvent → Prop
  | .deliverToHost => S.toHost ≠ [] ∧ S.host.draining = false ∧
      ((S.toHost.head?.map Prod.snd).getD false = true → S.host.conn.encrypted = false →
        S.host.conn.pendingBinary.length < 64)
  | .deliverToPeer => S.toPeer ≠ [] ∧ S.peer.draining = false
  | .hostTask => S.host.queue ≠ []
  | .peerTask => S.peer.queue ≠ []
  | .derived => ∃ sid argonParams, S.peer.pc = .awaitW sid argonParams
  | .peerSends body => S.peer.pc.joined = true ∧ L.Fits (S.peer.conn.envelope body)
  | .hostSends body => S.host.pc = .admitted ∧ L.Fits (S.host.conn.envelope body)
  | .peerListens _ | .peerNamed _ => S.peer.pc.joined = true

/-- Is the promise of `deriveW` awaited? -/
def PeerPc.derives {order : ℕ} : PeerPc order → Bool
  | .awaitW _ _ => true
  | _ => false

theorem derives_iff {order : ℕ} (pc : PeerPc order) :
    pc.derives = true ↔ ∃ sid argonParams, pc = .awaitW sid argonParams := by
  cases pc <;> simp [PeerPc.derives]

instance (env : Envelope) : Decidable (L.Fits env) :=
  inferInstanceAs (Decidable (_ = _))

instance (S : Room L.prim.order) : ∀ e, Decidable (S.possible L e)
  | .deliverToHost => inferInstanceAs (Decidable (_ ∧ _ ∧ (_ → _ → _)))
  | .deliverToPeer => inferInstanceAs (Decidable (_ ∧ _))
  | .hostTask | .peerTask => inferInstanceAs (Decidable (_ ≠ _))
  | .derived => decidable_of_iff _ (derives_iff S.peer.pc)
  | .peerSends _ | .hostSends _ => inferInstanceAs (Decidable (_ ∧ _))
  | .peerListens _ | .peerNamed _ => inferInstanceAs (Decidable (_ = _))

variable [DecidableEq P]

def Room.step (S : Room L.prim.order) : RoomEvent → Room L.prim.order
  | .deliverToHost =>
    match S.toHost with
    | [] => S
    | frame :: rest =>
      { S with host := S.host.onFrame L.decipher L.wire hostProgram frame, toHost := rest }
  | .deliverToPeer =>
    match S.toPeer with
    | [] => S
    | frame :: rest =>
      { S with
        peer := S.peer.onFrame L.decipher L.wire (peerProgram L.prim.order) frame
        toPeer := rest }
  | .hostTask =>
    let (host, frames) :=
      S.host.runTask hostProgram (resumeHost L.prim L.decipher L.wire L.host)
    { S with host := host, toPeer := S.toPeer ++ frames }
  | .peerTask =>
    let (peer, frames) := S.peer.runTask (peerProgram L.prim.order)
      (resumePeer L.prim L.gcm L.decipher L.wire L.peer)
    { S with peer := peer, toHost := S.toHost ++ frames }
  | .derived =>
    match S.peer.pc with
    | .awaitW sid argonParams =>
      { S with peer := S.peer.settle (.gotW sid (L.peer.deriveW argonParams)) }
    | _ => S
  | .peerSends body =>
    let (peer, frames) := sendBody L body S.peer
    { S with peer := peer, toHost := S.toHost ++ frames }
  | .hostSends body =>
    let (host, frames) := sendBody L body S.host
    { S with host := host, toPeer := S.toPeer ++ frames }
  | .peerListens listening =>
    { S with
      peer := if listening then S.peer.wait (.sentJoin true)
        else { S.peer with pc := .sentJoin false } }
  | .peerNamed peerId =>
    { S with peer := { S.peer with conn := { S.peer.conn with outboundFrom := peerId } } }

/-- The two sides and their channels. -/
def handshake : Machine (Room L.prim.order) RoomEvent Unit where
  enabled S e := S.possible L e
  step S e := (S.step L e, [])

instance (S : Room L.prim.order) (e : RoomEvent) : Decidable ((handshake L).enabled S e) :=
  inferInstanceAs (Decidable (S.possible L e))

end

end ScreenSharing.Handshake
