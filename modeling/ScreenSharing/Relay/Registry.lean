import ScreenSharing.Lib.InsertionMap
import ScreenSharing.Relay.Wire

/-!
# The relay's room registry

One room is one host socket and any number of peer sockets.  The relay gives each peer a numeric
connId and carries opaque payloads between the peers and the host.  `State` holds the fields of the
`Relay` class: the table of rooms, what each socket was attached as, and the rate buckets.  The four
entry points of the class are `onHello`, `onMessage`, `onClose` and `sweep`; each returns the new
state and the calls it makes on sockets, in order.

Two things the class draws from outside are arguments here: the clock (`now`) and the random host
token (`token`).  A socket is identified by `id`; `ip` is what the rate limits are keyed by.
-/

namespace ScreenSharing.Relay

open Lib

structure Socket where
  id : ℕ
  ip : String
  deriving DecidableEq, Repr

/-- A call on a socket. -/
inductive Effect
  | send (dest : Socket) (frame : Frame)
  | close (socket : Socket) (code : ℕ) (reason : String)
  deriving DecidableEq, Repr

structure RelayLimits where
  maxRooms : ℕ
  maxPeersPerRoom : ℕ
  roomCreatesPerWindow : ℕ
  joinsPerWindow : ℕ
  rateWindowMs : ℕ

def defaultLimits : RelayLimits where
  maxRooms := 500
  maxPeersPerRoom := 24
  roomCreatesPerWindow := 10
  joinsPerWindow := 40
  rateWindowMs := 60000

/-- How long a room stays reserved for a successor after its host's HANDOFF. -/
def handoffGraceMs : ℕ := 8000

structure Room where
  roomId : String
  hostToken : String
  host : Socket
  peers : InsertionMap ℕ Socket
  nextConnId : ℕ
  /-- set by HANDOFF: until then a host HELLO claims the room -/
  handoffDeadline : Option ℕ

structure Attached where
  role : Role
  roomId : String
  connId : Option ℕ
  deriving DecidableEq

structure RateBucket where
  creates : List ℕ
  joins : List ℕ

inductive RateKind
  | creates
  | joins
  deriving DecidableEq

/-- The fields of the `Relay` class. -/
structure State where
  rooms : InsertionMap String Room
  attached : InsertionMap Socket Attached
  rate : InsertionMap String RateBucket

/-- `new Relay()`. -/
def new : State := ⟨.empty, .empty, .empty⟩

/-! ### Helpers -/

/-- `#kick`: a REJECT frame, then the close. -/
def kick (socket : Socket) (reason : RejectReason) : List Effect :=
  [.send socket (.reject reason), .close socket 1008 reason.text]

def RateBucket.hits (b : RateBucket) : RateKind → List ℕ
  | .creates => b.creates
  | .joins => b.joins

def RateBucket.put (b : RateBucket) (hits : List ℕ) : RateKind → RateBucket
  | .creates => { b with creates := hits }
  | .joins => { b with joins := hits }

def RelayLimits.cap (L : RelayLimits) : RateKind → ℕ
  | .creates => L.roomCreatesPerWindow
  | .joins => L.joinsPerWindow

/-- `#allow`: a sliding window of attempts of one kind from one ip.  A refused attempt still
prunes the window. -/
def allow (L : RelayLimits) (now : ℕ) (ip : String) (kind : RateKind) (R : State) :
    State × Bool :=
  let bucket := (R.rate.get ip).getD ⟨[], []⟩
  let fresh := (bucket.hits kind).filter fun t => now < t + L.rateWindowMs
  if fresh.length ≥ L.cap kind then
    ({ R with rate := R.rate.set ip (bucket.put fresh kind) }, false)
  else
    ({ R with rate := R.rate.set ip (bucket.put (fresh ++ [now]) kind) }, true)

@[simp] theorem allow_rooms (L : RelayLimits) (now : ℕ) (ip : String) (kind : RateKind)
    (R : State) : (allow L now ip kind R).1.rooms = R.rooms := by
  unfold allow
  dsimp only
  split <;> rfl

@[simp] theorem allow_attached (L : RelayLimits) (now : ℕ) (ip : String) (kind : RateKind)
    (R : State) : (allow L now ip kind R).1.attached = R.attached := by
  unfold allow
  dsimp only
  split <;> rfl

/-- `#claimHandoff`: the socket becomes the host of a room whose handoff is pending.  The new
host hears of every peer, and every peer hears of the claim. -/
def claimHandoff (token : String) (socket : Socket) (room : Room) (R : State) :
    State × List Effect :=
  ({ R with
      rooms := R.rooms.set room.roomId
        { room with host := socket, handoffDeadline := none, hostToken := token }
      attached := R.attached.set socket ⟨.host, room.roomId, none⟩ },
    .send socket (.ready none (some token)) ::
      room.peers.entries.flatMap fun (connId, peer) =>
        [.send socket (.peerUp connId), .send peer .hostClaimed])

/-- `#teardownRoom`. -/
def teardownRoom (room : Room) (R : State) : State × List Effect :=
  ({ R with rooms := R.rooms.delete room.roomId },
    room.peers.values.flatMap fun peer => [.send peer .hostGone, .close peer 1001 "host gone"])

/-- Is the room's handoff window open at time `now`? -/
def claimable (now : ℕ) (room : Room) : Bool :=
  match room.handoffDeadline with
  | some deadline => now < deadline
  | none => false

/-- The part of `#hostHello` that runs when the room cannot be claimed. -/
def createRoom (L : RelayLimits) (now : ℕ) (token : String) (socket : Socket) (hello : Hello)
    (R : State) : State × List Effect :=
  if R.rooms.size ≥ L.maxRooms then (R, kick socket .serverFull)
  else
    let (R', allowed) := allow L now socket.ip .creates R
    if !allowed then (R', kick socket .rateLimited)
    else if R'.rooms.has hello.roomId then (R', kick socket .roomExists)
    else
      ({ R' with
          rooms := R'.rooms.set hello.roomId ⟨hello.roomId, token, socket, .empty, 1, none⟩
          attached := R'.attached.set socket ⟨.host, hello.roomId, none⟩ },
        [.send socket (.ready none (some token))])

/-- `#hostHello`: a host HELLO for a room in its handoff window claims it, any other one tries
to create the room. -/
def hostHello (L : RelayLimits) (now : ℕ) (token : String) (socket : Socket) (hello : Hello)
    (R : State) : State × List Effect :=
  match R.rooms.get hello.roomId with
  | some existing =>
    if claimable now existing then claimHandoff token socket existing R
    else createRoom L now token socket hello R
  | none => createRoom L now token socket hello R

/-- `#peerHello`. -/
def peerHello (L : RelayLimits) (now : ℕ) (socket : Socket) (hello : Hello) (R : State) :
    State × List Effect :=
  match R.rooms.get hello.roomId with
  | none => (R, kick socket .noSuchRoom)
  | some room =>
    if room.peers.size ≥ L.maxPeersPerRoom then (R, kick socket .roomFull)
    else
      let (R', allowed) := allow L now socket.ip .joins R
      if !allowed then (R', kick socket .rateLimited)
      else
        let connId := room.nextConnId
        ({ R' with
            rooms := R'.rooms.set hello.roomId
              { room with peers := room.peers.set connId socket, nextConnId := connId + 1 }
            attached := R'.attached.set socket ⟨.peer, hello.roomId, some connId⟩ },
          [.send socket (.ready (some connId) none), .send room.host (.peerUp connId)])

/-! ### Connection lifecycle -/

/-- `onHello`. -/
def onHello (L : RelayLimits) (now : ℕ) (token : String) (socket : Socket) (hello : Hello)
    (R : State) : State × List Effect :=
  if R.attached.has socket then (R, kick socket .badHello)
  else if hello.proto ≠ relayProtocolVersion then (R, kick socket .protoMismatch)
  else
    match hello.role with
    | .host => hostHello L now token socket hello R
    | .peer => peerHello L now socket hello R

/-- The KICK branch of `onMessage`.  It looks the connId up in the room the *sender* was attached
to; it does not ask whether the sender still is that room's host. -/
def onKick (att : Attached) (room : Room) (data : Bytes) (R : State) : State × List Effect :=
  match decodeKick data with
  | none => (R, [])
  | some connId =>
    match room.peers.get connId with
    | none => (R, [])
    | some peer =>
      ({ R with rooms := R.rooms.set att.roomId { room with peers := room.peers.delete connId } },
        [.close peer 1000 "kicked"])

/-- The HANDOFF branch of `onMessage`: a no-op unless the sender is the room's current host. -/
def onHandoff (now : ℕ) (socket : Socket) (att : Attached) (room : Room) (R : State) :
    State × List Effect :=
  if room.host = socket then
    ({ R with
        rooms := R.rooms.set att.roomId
          { room with handoffDeadline := some (now + handoffGraceMs) } }, [])
  else (R, [])

/-- The host branch of `onMessage`. -/
def onHostMessage (now : ℕ) (socket : Socket) (att : Attached) (room : Room) (data : Bytes)
    (R : State) : State × List Effect :=
  if data.head? = some T.kick then onKick att room data R
  else if data.head? = some T.handoff then onHandoff now socket att room R
  else
    match decodeDataFromHost data with
    | none => (R, [])
    | some frame =>
      match room.peers.get frame.connId with
      | none => (R, [])
      | some peer => (R, [.send peer (.dataToPeer frame.isBinary frame.payload)])

/-- The peer branch of `onMessage`.  While a handoff is pending the frame is dropped. -/
def onPeerMessage (att : Attached) (room : Room) (data : Bytes) (R : State) :
    State × List Effect :=
  if room.handoffDeadline.isSome then (R, [])
  else
    match decodeDataFromPeer data, att.connId with
    | some frame, some connId =>
      (R, [.send room.host (.dataToHost connId frame.isBinary frame.payload)])
    | _, _ => (R, [])

/-- `onMessage`. -/
def onMessage (now : ℕ) (socket : Socket) (data : Bytes) (R : State) : State × List Effect :=
  if data.head? = some T.ping then (R, [.send socket .pong])
  else
    match R.attached.get socket with
    | none => (R, [])
    | some att =>
      match R.rooms.get att.roomId with
      | none => (R, [])
      | some room =>
        match att.role with
        | .host => onHostMessage now socket att room data R
        | .peer => onPeerMessage att room data R

/-- `onClose`.  A peer's close deletes the connId of its attachment from the room that has the
attachment's roomId now. -/
def onClose (socket : Socket) (R : State) : State × List Effect :=
  match R.attached.get socket with
  | none => (R, [])
  | some att =>
    let R' := { R with attached := R.attached.delete socket }
    match R'.rooms.get att.roomId with
    | none => (R', [])
    | some room =>
      match att.role with
      | .host =>
        -- a superseded host, or a handoff in flight: the room is left alone
        if room.host ≠ socket ∨ room.handoffDeadline.isSome then (R', [])
        else teardownRoom room R'
      | .peer =>
        match att.connId with
        | none => (R', [])
        | some connId =>
          ({ R' with
              rooms := R'.rooms.set att.roomId { room with peers := room.peers.delete connId } },
            [.send room.host (.peerDown connId)])

/-- Has the room's handoff window elapsed at time `now`? -/
def expired (now : ℕ) (room : Room) : Bool :=
  match room.handoffDeadline with
  | some deadline => deadline ≤ now
  | none => false

/-- The room loop of `sweep`. -/
def sweepRooms (now : ℕ) : List Room → State → State × List Effect
  | [], R => (R, [])
  | room :: rooms, R =>
    if expired now room then
      let (R', effects) := teardownRoom room R
      let (R'', effects') := sweepRooms now rooms R'
      (R'', effects ++ effects')
    else sweepRooms now rooms R

/-- Is the bucket idle, that is, are all its hits outside the window? -/
def idle (L : RelayLimits) (now : ℕ) (b : RateBucket) : Bool :=
  (b.creates.all fun t => t + L.rateWindowMs ≤ now) &&
    b.joins.all fun t => t + L.rateWindowMs ≤ now

/-- The bucket loop of `sweep`. -/
def sweepRate (L : RelayLimits) (now : ℕ) : List (String × RateBucket) → State → State
  | [], R => R
  | (ip, bucket) :: rest, R =>
    sweepRate L now rest (if idle L now bucket then { R with rate := R.rate.delete ip } else R)

/-- `sweep`. -/
def sweep (L : RelayLimits) (now : ℕ) (R : State) : State × List Effect :=
  let (R', effects) := sweepRooms now R.rooms.values R
  (sweepRate L now R'.rate.entries R', effects)

@[simp] theorem sweepRate_rooms (L : RelayLimits) (now : ℕ) (bs : List (String × RateBucket)) :
    ∀ R : State, (sweepRate L now bs R).rooms = R.rooms := by
  induction bs with
  | nil => intro R; rfl
  | cons b bs ih =>
    intro R
    rw [sweepRate, ih]
    split <;> rfl

@[simp] theorem sweepRate_attached (L : RelayLimits) (now : ℕ) (bs : List (String × RateBucket)) :
    ∀ R : State, (sweepRate L now bs R).attached = R.attached := by
  induction bs with
  | nil => intro R; rfl
  | cons b bs ih =>
    intro R
    rw [sweepRate, ih]
    split <;> rfl

end ScreenSharing.Relay
