import Mathlib.Logic.Function.Basic
import ScreenSharing.Net.PeerLink
import ScreenSharing.Relay.Seats

/-!
# The network around a handoff

`Network` is the relay together with everything that is on its way.  Each socket has a queue in
either direction; the relay and the clients take from the head and write at the tail, at any time
and in any order, so a frame may be delayed for as long as one likes.  A `Survivor` is what a client
knows of a handoff: its link, and how far `#rehome` has got.  Every socket has one; a host never
uses it.

A frame on its way to the relay carries what its sender knew when it wrote it: how many HOST_CLAIMED
it had received, and how many of them when the session the frame belongs to was made.  The relay
does not see these two numbers.
-/

namespace ScreenSharing.Handoff

open Lib Net
open Relay (Effect Frame Hello RelayLimits Socket sentTo)

/-! ### The survivors -/

/-- How far `#onHostTransfer` is. -/
inductive Phase
  /-- a `SignalingClient` runs over the link -/
  | inRoom
  /-- `#rehome` waits for the claim -/
  | waiting
  /-- the claim was reported; the new `SignalingClient` is still to be made -/
  | ready
  /-- nobody claimed the room in time -/
  | left
  deriving DecidableEq

structure Survivor where
  link : PeerLink
  phase : Phase
  /-- how many HOST_CLAIMED have arrived -/
  received : ℕ
  /-- how many had arrived when the `SignalingClient` was made -/
  session : ℕ
  deriving DecidableEq

/-- What a payload makes the client do, as far as the handoff is concerned. -/
inductive Reaction
  | nothing
  /-- `host_transfer`, with another peer as the successor -/
  | hostTransfer
  /-- a `ping`, answered with a `pong` -/
  | answer (payload : Relay.Bytes)

namespace Survivor

def new : Survivor := ⟨.new, .inRoom, 0, 0⟩

variable (k : Survivor)

/-- `#transferring`. -/
def transferring : Bool := k.phase = .waiting ∨ k.phase = .ready

/-- `#onHostTransfer`, and `#rehome` as far as its promise. -/
def onHostTransfer : Survivor :=
  if k.transferring then k
  else
    let (link, callbacks) := k.link.register
    { k with link := link, phase := if callbacks.isEmpty then .waiting else .ready }

/-- What becomes of a callback of the link. -/
def called (reaction : Reaction) : PeerCallback → Survivor
  | .message _ _ =>
    match reaction with
    | .hostTransfer => k.onHostTransfer
    | _ => k
  | .handoffReady => if k.phase = .waiting then { k with phase := .ready } else k
  | .close _ _ => if k.phase = .ready then k else { k with phase := .left }

/-- A frame of the relay arrives. -/
def onFrame (frame : Frame) (reaction : Reaction) : Survivor :=
  let (link, callbacks) := k.link.onFrame frame
  let received := if frame = .hostClaimed then k.received + 1 else k.received
  callbacks.foldl (fun k callback => k.called reaction callback)
    { k with link := link, received := received }

/-- The rest of `#rehome`: a new `SignalingClient` over the same link. -/
def remake : Survivor := { k with phase := .inRoom, session := k.received }

/-- The promise of `#rehome` times out. -/
def giveUp : Survivor := if k.phase = .waiting then { k with phase := .left } else k

variable {k}

/-- What a client does with a callback leaves the two counts alone. -/
theorem called_fields (reaction : Reaction) (callback : PeerCallback) :
    (k.called reaction callback).received = k.received ∧
      (k.called reaction callback).session = k.session ∧
      (k.called reaction callback).link.closed = k.link.closed := by
  unfold called
  split
  · split
    · unfold onHostTransfer
      split
      · exact ⟨rfl, rfl, rfl⟩
      · exact ⟨rfl, rfl, k.link.closed_register⟩
    · exact ⟨rfl, rfl, rfl⟩
  · split <;> exact ⟨rfl, rfl, rfl⟩
  · split <;> exact ⟨rfl, rfl, rfl⟩

theorem foldl_called_fields (reaction : Reaction) (callbacks : List PeerCallback) (k : Survivor) :
    (callbacks.foldl (fun k callback => k.called reaction callback) k).received = k.received ∧
      (callbacks.foldl (fun k callback => k.called reaction callback) k).session = k.session ∧
      (callbacks.foldl (fun k callback => k.called reaction callback) k).link.closed =
        k.link.closed := by
  induction callbacks generalizing k with
  | nil => exact ⟨rfl, rfl, rfl⟩
  | cons callback rest ih =>
    obtain ⟨hreceived, hsession, hclosed⟩ := called_fields (k := k) reaction callback
    obtain ⟨hreceived', hsession', hclosed'⟩ := ih (k.called reaction callback)
    exact ⟨hreceived'.trans hreceived, hsession'.trans hsession, hclosed'.trans hclosed⟩

/-- A frame counts if it is a HOST_CLAIMED; it makes no session, and reopens no link. -/
theorem onFrame_fields (frame : Frame) (reaction : Reaction) :
    (k.onFrame frame reaction).received =
        (if frame = .hostClaimed then k.received + 1 else k.received) ∧
      (k.onFrame frame reaction).session = k.session ∧
      (k.link.closed = true → (k.onFrame frame reaction).link.closed = true) := by
  obtain ⟨hreceived, hsession, hclosed⟩ := foldl_called_fields reaction (k.link.onFrame frame).2
    { k with
        link := (k.link.onFrame frame).1
        received := if frame = .hostClaimed then k.received + 1 else k.received }
  refine ⟨hreceived, hsession, fun h => ?_⟩
  exact hclosed.trans (PeerLink.closed_onFrame frame h)

end Survivor

/-! ### The network -/

/-- A frame on its way to the relay. -/
structure Sent where
  data : Relay.Bytes
  /-- how many HOST_CLAIMED its sender had received -/
  received : ℕ
  /-- how many when the session of the frame was made -/
  session : ℕ
  /-- is it the `hello` of a session made by `#rehome`? -/
  hello : Bool
  deriving DecidableEq

/-- A DATA frame of a peer. -/
def Sent.isData (sent : Sent) : Bool := (Relay.decodeDataFromPeer sent.data).isSome

structure Network where
  relay : Relay.ServerState
  up : Socket → List Sent
  down : Socket → List Frame
  survivor : Socket → Survivor
  /-- has the relay forwarded a `hello` since it last sent HOST_CLAIMED to the socket? -/
  opened : Socket → Bool

inductive NetworkEvent
  /-- the relay reads the HELLO of a socket, its next message, or its close, or it sweeps -/
  | hello (socket : Socket) (hello : Hello) (now : ℕ) (token : String)
  | read (socket : Socket) (now : ℕ)
  | close (socket : Socket)
  | sweep (now : ℕ)
  /-- a client writes a frame of its present session, receives one, gives up waiting, re-homes -/
  | send (socket : Socket) (data : Relay.Bytes)
  | receive (socket : Socket) (reaction : Reaction)
  | timeout (socket : Socket)
  | rehome (socket : Socket) (payload : Relay.Bytes)

namespace Network

def init : Network := ⟨Relay.init, fun _ => [], fun _ => [], fun _ => .new, fun _ => false⟩

variable (L : RelayLimits) (N : Network)

/-- How many HOST_CLAIMED the relay has sent to a socket: those that arrived and those on their
way. -/
def told (socket : Socket) : ℕ :=
  (N.survivor socket).received + (N.down socket).count .hostClaimed

/-- Has the socket a seat in some room? -/
def HasSeat (socket : Socket) : Prop :=
  ∃ r connId, Relay.Registered N.relay.relay r connId socket

instance (socket : Socket) : Decidable (N.HasSeat socket) :=
  decidable_of_iff (∃ room ∈ N.relay.relay.rooms.values, socket ∈ room.peers.values) <| by
    simp only [InsertionMap.mem_values, HasSeat, Relay.Registered]
    constructor
    · rintro ⟨room, ⟨r, hroom⟩, connId, hpeer⟩
      exact ⟨r, connId, room, hroom, hpeer⟩
    · rintro ⟨r, connId, room, hroom, hpeer⟩
      exact ⟨room, ⟨r, hroom⟩, connId, hpeer⟩

/-- The relay handles an event; what it sends joins the queues. -/
def relays (e : Relay.Event) : Network × List Effect :=
  let (S, effects) := Relay.handle L N.relay e
  ({ N with
      relay := S
      down := fun s => N.down s ++ sentTo s effects
      opened := fun s => N.opened s && !(sentTo s effects).contains .hostClaimed }, effects)

/-- A client writes to its link. -/
def write (socket : Socket) (data : Relay.Bytes) (hello : Bool) : Network :=
  let k := N.survivor socket
  if k.link.closed then N
  else
    { N with
      up := Function.update N.up socket
        (N.up socket ++ [⟨data, k.received, k.session, hello⟩]) }

def setSurvivor (socket : Socket) (k : Survivor) : Network :=
  { N with survivor := Function.update N.survivor socket k }

section Fields

variable {N : Network} {socket s : Socket} {k : Survivor} {data : Relay.Bytes} {hello : Bool}

@[simp] theorem survivor_setSurvivor_self : (N.setSurvivor socket k).survivor socket = k :=
  Function.update_self _ _ _

theorem survivor_setSurvivor_ne (h : s ≠ socket) :
    (N.setSurvivor socket k).survivor s = N.survivor s :=
  Function.update_of_ne h _ _

theorem write_fields (N : Network) (socket : Socket) (data : Relay.Bytes) (hello : Bool) :
    (N.write socket data hello).relay = N.relay ∧
    (N.write socket data hello).down = N.down ∧
    (N.write socket data hello).survivor = N.survivor ∧
    (N.write socket data hello).opened = N.opened := by
  unfold write
  dsimp only
  split <;> exact ⟨rfl, rfl, rfl, rfl⟩

theorem up_write_ne (h : s ≠ socket) : (N.write socket data hello).up s = N.up s := by
  unfold write
  dsimp only
  split
  · rfl
  · exact Function.update_of_ne h _ _

/-- What a client has written is at the tail of its queue, unless its link was closed. -/
theorem up_write_self (N : Network) (socket : Socket) (data : Relay.Bytes) (hello : Bool) :
    (N.write socket data hello).up socket =
    if (N.survivor socket).link.closed then N.up socket
    else N.up socket ++
      [⟨data, (N.survivor socket).received, (N.survivor socket).session, hello⟩] := by
  unfold write
  dsimp only
  split
  · rfl
  · exact Function.update_self _ _ _

theorem told_write : (N.write socket data hello).told s = N.told s := by
  obtain ⟨-, hdown, hsurvivor, -⟩ := write_fields N socket data hello
  unfold told
  rw [hdown, hsurvivor]

/-- A change of a client that leaves its count alone leaves everyone told what they were. -/
theorem told_setSurvivor (h : k.received = (N.survivor socket).received) :
    (N.setSurvivor socket k).told s = N.told s := by
  unfold told
  by_cases hs : s = socket
  · rw [hs, survivor_setSurvivor_self, h]
    rfl
  · rw [survivor_setSurvivor_ne hs]
    rfl

end Fields

end Network

/-- Is the effect a DATA frame to a host? -/
def toHost : Effect → Bool
  | .send _ (.dataToHost _ _ _) => true
  | _ => false

namespace Network

variable (L : RelayLimits) (N : Network)

/-- The relay reads the next frame of a socket. -/
def readNext (socket : Socket) (now : ℕ) : Network × List Effect :=
  match N.up socket with
  | [] => (N, [])
  | sent :: rest =>
    let (N', effects) :=
      { N with up := Function.update N.up socket rest }.relays L (.message socket sent.data now)
    if sent.hello && effects.any toHost then
      ({ N' with opened := Function.update N'.opened socket true }, effects)
    else (N', effects)

/-- A client receives its next frame. -/
def receiveNext (socket : Socket) (reaction : Reaction) : Network :=
  match N.down socket with
  | [] => N
  | frame :: rest =>
    let N' := { N with down := Function.update N.down socket rest }.setSurvivor socket
      ((N.survivor socket).onFrame frame reaction)
    match reaction, frame with
    | .answer payload, .dataToPeer _ _ => N'.write socket (encodeDataP true payload) false
    | _, _ => N'

def step : NetworkEvent → Network × List Effect
  | .hello socket hello now token => N.relays L (.hello socket hello now token)
  | .read socket now => N.readNext L socket now
  | .close socket => N.relays L (.close socket)
  | .sweep now => N.relays L (.sweep now)
  | .send socket data => (N.write socket data false, [])
  | .receive socket reaction => (N.receiveNext socket reaction, [])
  | .timeout socket => (N.setSurvivor socket (N.survivor socket).giveUp, [])
  | .rehome socket payload =>
    ((N.setSurvivor socket (N.survivor socket).remake).write socket (encodeDataP false payload)
      true, [])

/-- The handler of the relay keeps its discipline; a client writes and receives once it has said
HELLO, and while it is between two sessions it writes no DATA frame of its own accord. -/
def Enabled : NetworkEvent → Prop
  | .hello socket hello now token => Relay.Enabled N.relay (.hello socket hello now token)
  | .read socket now => N.up socket ≠ [] ∧ Relay.Enabled N.relay (.message socket [] now)
  | .close socket => Relay.Enabled N.relay (.close socket)
  | .sweep _ => True
  | .send socket data => socket ∈ N.relay.greeted ∧
      ((N.survivor socket).phase = .inRoom ∨ Relay.decodeDataFromPeer data = none)
  | .receive socket _ => socket ∈ N.relay.greeted ∧ N.down socket ≠ []
  | .timeout _ => True
  | .rehome socket _ => socket ∈ N.relay.greeted ∧ (N.survivor socket).phase = .ready

instance (e : NetworkEvent) : Decidable (N.Enabled e) := by
  cases e <;> unfold Enabled <;> infer_instance

end Network

def network (L : RelayLimits) : Machine Network NetworkEvent Effect :=
  ⟨Network.Enabled, Network.step L⟩

instance (L : RelayLimits) (N : Network) (e : NetworkEvent) : Decidable ((network L).enabled N e) :=
  inferInstanceAs (Decidable (N.Enabled e))

end ScreenSharing.Handoff
