import Mathlib.Logic.Function.Basic
import ScreenSharing.Net.HostLink
import ScreenSharing.Net.RelayWire
import ScreenSharing.Relay.Seats

/-!
# Payloads on their way through the relay

A `Tunnel` is the relay with the WebSockets of its clients and the link behind each of them, at the
level of bytes: a link encodes what is given to `send`, the relay decodes it, frames it anew and encodes
it again, and the link at the other end decodes that.  Each socket has a queue of messages in either
direction, and whoever takes from the head of one may be as slow as one likes.

A message may come from one of the links, or be anything else that a client puts on its socket.  The
ones that carry a payload given to `send` are marked with it (`Parcel`); neither the relay nor a link
looks at the mark.
-/

namespace ScreenSharing.Net

open Lib hiding Bytes readUInt32BE
open Relay hiding readUInt32BE

/-- The `maxPayload` of the relay's WebSockets. -/
def maxPayload : ℕ := 512 * 1024

/-- A `Transport`: the link of a peer, or a virtual transport of the link of a host. -/
inductive Endpoint
  | peer (socket : Socket)
  | transport (host : Socket) (vt : ℕ)
  deriving DecidableEq

/-- The socket that an endpoint writes to. -/
def Endpoint.socket : Endpoint → Socket
  | .peer socket => socket
  | .transport host _ => host

/-- A payload that was given to `send`; `number` counts the calls. -/
structure Parcel where
  sender : Endpoint
  number : ℕ
  isBinary : Bool
  payload : Bytes
  deriving DecidableEq

/-- A message on its way to the relay. -/
structure Upward where
  data : Bytes
  parcel : Option Parcel

/-- A frame of the relay, as it is on its way. -/
structure Downward (rt : JsonRuntime) where
  frame : Frame
  data : Bytes
  encoded : Wire.encode rt frame = .ok data
  parcel : Option Parcel

/-- A call of the `onMessage` callback of a transport. -/
structure Delivery where
  endpoint : Endpoint
  isBinary : Bool
  payload : Bytes
  parcel : Option Parcel

/-! ### The clients -/

/-- What is behind the socket of a client; `shut` are the virtual transports with `#closed` set. -/
inductive ClientLink
  | unopened
  | host (link : HostLink) (shut : List ℕ)
  | peer (link : PeerLink)

/-- The number in a member, where the relay writes connIds. -/
def connIdOf : JsNumber → Option ℕ
  | .finite q => if q.den = 1 ∧ 0 ≤ q.num then some q.num.toNat else none
  | .infinite _ => none

def rejectReasons : List RejectReason :=
  [.roomExists, .noSuchRoom, .hostAbsent, .roomFull, .rateLimited, .badHello, .protoMismatch,
    .serverFull]

/-- The frame that a `RelayControl` was made from. -/
def relayFrame : RelayControl → Option Frame
  | .ready connId hostToken => some (.ready (connId.bind connIdOf) hostToken)
  | .reject reason => (rejectReasons.find? fun r => r.text = reason).map .reject
  | .peerUp connId => (connIdOf connId).map .peerUp
  | .peerDown connId => (connIdOf connId).map .peerDown
  | .hostGone => some .hostGone
  | .hostClaimed => some .hostClaimed
  | .pong => some .pong
  | .data none isBinary payload => some (.dataToPeer isBinary payload)
  | .data (some connId) isBinary payload => some (.dataToHost connId isBinary payload)

namespace ClientLink

def opened : Role → ClientLink
  | .host => .host .new []
  | .peer => .peer .new

def isHost : ClientLink → Bool
  | .host .. => true
  | _ => false

/-- The link of a peer that has not been closed. -/
def isOpenPeer : ClientLink → Bool
  | .peer link => !link.closed
  | _ => false

/-- The connIds of the virtual transports that the link of a host has made. -/
def made : ClientLink → List ℕ
  | .host link _ => link.made
  | _ => []

/-- The transports that are closed. -/
def shut : ClientLink → List ℕ
  | .host _ shut => shut
  | _ => []

/-- `#peers.get`. -/
def transport (connId : ℕ) : ClientLink → Option ℕ
  | .host link _ => link.peers.get connId
  | _ => none

/-- The transports that a callback closes. -/
def dropped : List Callback → List ℕ :=
  List.filterMap fun callback =>
    match callback with
    | .dropped vt => some vt
    | _ => none

/-- The payloads that the callbacks of a host link deliver. -/
def hostDeliveries (socket : Socket) (parcel : Option Parcel) : List Callback → List Delivery :=
  List.filterMap fun callback =>
    match callback with
    | .message vt isBinary payload => some ⟨.transport socket vt, isBinary, payload, parcel⟩
    | _ => none

def peerDeliveries (socket : Socket) (parcel : Option Parcel) : List PeerCallback → List Delivery :=
  List.filterMap fun callback =>
    match callback with
    | .message isBinary payload => some ⟨.peer socket, isBinary, payload, parcel⟩
    | _ => none

/-- The message handler, behind `decodeRelayFrame`. -/
def onFrame (socket : Socket) (parcel : Option Parcel) (frame : Frame) :
    ClientLink → ClientLink × List Delivery
  | .unopened => (.unopened, [])
  | .host link shut =>
    let (link', callbacks) := link.onFrame frame
    (.host link' (shut ++ dropped callbacks), hostDeliveries socket parcel callbacks)
  | .peer link =>
    let (link', callbacks) := link.onFrame frame
    (.peer link', peerDeliveries socket parcel callbacks)

/-- The message handler. -/
def onMessage (rt : JsonRuntime) (socket : Socket) (parcel : Option Parcel) (data : Bytes)
    (link : ClientLink) : ClientLink × List Delivery :=
  match decodeRelayFrame rt data with
  | .ok (some control) =>
    match relayFrame control with
    | some frame => link.onFrame socket parcel frame
    | none => (link, [])
  | _ => (link, [])

end ClientLink

/-! ### The machine -/

structure Tunnel (rt : JsonRuntime) where
  relay : ServerState
  up : Socket → List Upward
  down : Socket → List (Downward rt)
  link : Socket → ClientLink
  /-- how many payloads have been given to `send` -/
  stamp : ℕ

inductive TunnelEvent
  /-- the relay reads the HELLO of a socket, its next message, or its close, or it sweeps -/
  | hello (socket : Socket) (hello : Hello) (now : ℕ) (token : String)
  | read (socket : Socket) (now : ℕ)
  | close (socket : Socket)
  | sweep (now : ℕ)
  /-- a link receives its next message -/
  | receive (socket : Socket)
  /-- `onConnection` of a host link -/
  | listen (socket : Socket)
  /-- `send` of the link of a peer, and of a virtual transport -/
  | peerSend (socket : Socket) (isBinary : Bool) (payload : Bytes)
  | hostSend (socket : Socket) (vt : ℕ) (isBinary : Bool) (payload : Bytes)
  /-- `close` of a virtual transport -/
  | hostClose (socket : Socket) (vt : ℕ)
  /-- anything else that a client puts on its socket -/
  | write (socket : Socket) (data : Bytes)

/-- What a call of `send` is given. -/
def given (S : Endpoint) : TunnelEvent → Option (Bool × Bytes)
  | .peerSend socket isBinary payload =>
    if S = .peer socket then some (isBinary, payload) else none
  | .hostSend socket vt isBinary payload =>
    if S = .transport socket vt then some (isBinary, payload) else none
  | _ => none

namespace Tunnel

variable {rt : JsonRuntime}

def init : Tunnel rt := ⟨Relay.init, fun _ => [], fun _ => [], fun _ => .unopened, 0⟩

variable (L : RelayLimits) (W : Tunnel rt)

/-- The relay writes frames; one that cannot be encoded is not sent. -/
def written (rt : JsonRuntime) (parcel : Option Parcel) : List Frame → List (Downward rt) :=
  List.filterMap fun frame =>
    match h : Wire.encode rt frame with
    | .ok data => some ⟨frame, data, h, parcel⟩
    | .error _ => none

/-- The relay handles an event; what it sends joins the queues. -/
def relays (e : Relay.Event) (parcel : Option Parcel) : Tunnel rt :=
  let (S, effects) := Relay.handle L W.relay e
  { W with relay := S, down := fun s => W.down s ++ written rt parcel (sentTo s effects) }

/-- The relay reads the next message of a socket.  One that is too long closes it. -/
def readNext (socket : Socket) (now : ℕ) : Tunnel rt :=
  match W.up socket with
  | [] => W
  | message :: rest =>
    let W' := { W with up := Function.update W.up socket rest }
    if message.data.length > maxPayload then W'.relays L (.close socket) none
    else W'.relays L (.message socket message.data now) message.parcel

/-- A link receives its next message. -/
def receiveNext (socket : Socket) : Tunnel rt × List Delivery :=
  match W.down socket with
  | [] => (W, [])
  | packet :: rest =>
    let (link, deliveries) := (W.link socket).onMessage rt socket packet.parcel packet.data
    ({ W with
        down := Function.update W.down socket rest, link := Function.update W.link socket link },
      deliveries)

def setLink (socket : Socket) (link : ClientLink) : Tunnel rt :=
  { W with link := Function.update W.link socket link }

/-- A client puts a message on its socket. -/
def post (socket : Socket) (data : Bytes) (parcel : Option Parcel) : Tunnel rt :=
  { W with up := Function.update W.up socket (W.up socket ++ [⟨data, parcel⟩]) }

/-- A message with a payload that is given to `send` now. -/
def postParcel (sender : Endpoint) (socket : Socket) (data : Bytes) (isBinary : Bool)
    (payload : Bytes) : Tunnel rt :=
  { W.post socket data (some ⟨sender, W.stamp, isBinary, payload⟩) with stamp := W.stamp + 1 }

/-- `RelayPeerLink.send`. -/
def peerSend (socket : Socket) (isBinary : Bool) (payload : Bytes) : Tunnel rt :=
  match W.link socket with
  | .peer link =>
    if link.closed then W
    else W.postParcel (.peer socket) socket (encodeDataP isBinary payload) isBinary payload
  | _ => W

/-- `VirtualTransport.send`. -/
def hostSend (socket : Socket) (vt : ℕ) (isBinary : Bool) (payload : Bytes) : Tunnel rt :=
  match W.link socket with
  | .host link shut =>
    if vt ∈ shut then W
    else
      match link.made[vt]?.map fun connId => encodeDataH connId isBinary payload with
      | some (.ok data) => W.postParcel (.transport socket vt) socket data isBinary payload
      | _ => W
  | _ => W

/-- `VirtualTransport.close`. -/
def hostClose (socket : Socket) (vt : ℕ) : Tunnel rt :=
  match W.link socket with
  | .host link shut =>
    if vt ∈ shut then W
    else
      match link.made[vt]?.map encodeKick with
      | some (.ok data) =>
        (W.post socket data none).setLink socket (.host (link.kick vt) (shut ++ [vt]))
      | _ => W.setLink socket (.host link (shut ++ [vt]))
  | _ => W

/-- `RelayHostLink.onConnection`. -/
def listen (socket : Socket) : Tunnel rt :=
  match W.link socket with
  | .host link shut => W.setLink socket (.host link.onConnection.1 shut)
  | _ => W

def step : TunnelEvent → Tunnel rt × List Delivery
  | .hello socket hello now token =>
    ((W.relays L (.hello socket hello now token) none).setLink socket (.opened hello.role), [])
  | .read socket now => (W.readNext L socket now, [])
  | .close socket => (W.relays L (.close socket) none, [])
  | .sweep now => (W.relays L (.sweep now) none, [])
  | .receive socket => W.receiveNext socket
  | .listen socket => (W.listen socket, [])
  | .peerSend socket isBinary payload => (W.peerSend socket isBinary payload, [])
  | .hostSend socket vt isBinary payload => (W.hostSend socket vt isBinary payload, [])
  | .hostClose socket vt => (W.hostClose socket vt, [])
  | .write socket data => (W.post socket data none, [])

/-- The handler of the relay keeps its discipline, and nothing else comes before the HELLO of a
socket. -/
def Enabled : TunnelEvent → Prop
  | .hello socket hello now token => Relay.Enabled W.relay (.hello socket hello now token)
  | .read socket now => W.up socket ≠ [] ∧ Relay.Enabled W.relay (.message socket [] now)
  | .close socket => Relay.Enabled W.relay (.close socket)
  | .sweep _ => True
  | .receive socket => socket ∈ W.relay.greeted ∧ W.down socket ≠ []
  | .listen socket | .peerSend socket _ _ | .write socket _ => socket ∈ W.relay.greeted
  | .hostSend socket vt _ _ | .hostClose socket vt =>
    socket ∈ W.relay.greeted ∧ vt < (W.link socket).made.length

instance (e : TunnelEvent) : Decidable (W.Enabled e) := by
  cases e <;> unfold Enabled <;> infer_instance

end Tunnel

def tunnel (L : RelayLimits) (rt : JsonRuntime) : Machine (Tunnel rt) TunnelEvent Delivery :=
  ⟨Tunnel.Enabled, Tunnel.step L⟩

instance (L : RelayLimits) (rt : JsonRuntime) (W : Tunnel rt) (e : TunnelEvent) :
    Decidable ((tunnel L rt).enabled W e) :=
  inferInstanceAs (Decidable (W.Enabled e))

end ScreenSharing.Net
