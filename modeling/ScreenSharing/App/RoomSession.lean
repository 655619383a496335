import ScreenSharing.Crypto.Kdf
import ScreenSharing.Lib.Machine
import ScreenSharing.Shared.Ipc
import ScreenSharing.Signaling.Roster

/-!
# One membership of the room

`RoomSession` as a machine.  The objects it makes (`SignalingClient`, `SignalingServer` with its
media plane) are numbered in the order in which it makes them, and of each the session sees the
fields that its getters return; what it asks of them, and what it emits, are the effects of a step.

The session runs three kinds of coroutines: the call that enters the room, the reaction to a
`host-transfer`, and any number of calls to `leave`.  A constructor of `EntryFlow`, `TransferFlow` and
`LeaveFlow` is an await of the source, with the locals that are read behind it.  Between two awaits
anything may happen, with one exception: `connect` returns within the turn that delivers the answer,
and until the session goes on nothing but the frames that came along with the answer is handled.
-/

namespace ScreenSharing.App

open Lib Signaling Crypto

def defaultRoomParams : RoomParams := ⟨12, 2, 6000⟩

def wakingNotice : String :=
  "Acordando o servidor de sinalização (pode levar até 1 minuto)…"

def maxEnterAttempts : ℕ := 3

def rehomeHandshakeTimeoutMs : ℕ := 6000

/-- `EnterOptions`, and those of `host` and `join`. -/
structure EnterOptions where
  nickname : String
  roomParams : Option RoomParams
  argonParams : Option ArgonParams
  relayUrl : Option String

/-- What a session sees of a `SignalingClient`, with the epoch below which it refuses a host. -/
structure ClientView where
  minEpoch : ℕ
  connected : Bool
  peerId : String
  epoch : ℕ
  roster : List RosterEntry
  streams : List StreamInfo

/-- A client that has not been admitted. -/
def ClientView.new (minEpoch : ℕ) : ClientView := ⟨minEpoch, false, "", 0, [], []⟩

/-- What a session sees of a `SignalingServer` and its media plane. -/
structure HostView where
  epoch : ℕ
  hostPeerId : String
  roster : List RosterEntry
  streams : List StreamInfo

/-- The fields of a `joined` body. -/
structure Welcome where
  peerId : String
  epoch : ℕ
  roomParams : RoomParams
  roster : List RosterEntry
  streams : List StreamInfo

/-- Who called `host` or `join`: a loop of `enter`, in its attempt `n`, or somebody else. -/
abbrev Caller := Option ℕ

inductive EntryFlow
  | idle
  /-- `openWithRetry`, in `host` or in `join` -/
  | opening (caller : Caller) (opts : EnterOptions) (asHost : Bool)
  /-- `link.close()` of a host that has left -/
  | closingLink
  /-- `server.listen()` -/
  | listening (caller : Caller) (server : ℕ)
  /-- `server.close()` of a host that has left -/
  | closingServer
  /-- `client.connect()` -/
  | connecting (caller : Caller) (client : ℕ)
  /-- `connect` has returned -/
  | connected (client : ℕ) (roomParams : RoomParams)
  | done

def EntryFlow.isIdle : EntryFlow → Bool
  | .idle => true
  | _ => false

def EntryFlow.isOpening : EntryFlow → Bool
  | .opening .. => true
  | _ => false

inductive TransferFlow
  /-- `openWithRetry`, in `#promote` -/
  | opening (epoch : ℕ) (hostPeerId : String)
  | closingLink
  | listening (server : ℕ)
  | closingServer
  /-- the wait for the claim, in `#rehome` -/
  | waiting (epoch : ℕ)
  | connecting (client : ℕ)
  | connected (client : ℕ) (roomParams : RoomParams)

inductive LeaveFlow
  /-- `server.transferHost()` -/
  | handingOff (server : ℕ)
  /-- `server.close()`, or that of the host link -/
  | closing

/-- The fields of the `RoomSession` class, the objects it has made, and its coroutines. -/
structure RoomSession where
  phase : SessionPhase
  nickname : String
  notice : Option String
  roomParams : RoomParams
  server : Option ℕ
  client : Option ℕ
  media : Option ℕ
  /-- are `#hostLink` and `#peerLink` set? -/
  hostLink : Bool
  peerLink : Bool
  relayUrl : Option String
  argonParams : Option ArgonParams
  transferring : Bool
  leaving : Bool
  clients : List ClientView
  servers : List HostView
  entry : EntryFlow
  transfer : Option TransferFlow
  leaves : List LeaveFlow

inductive Effect
  /-- emits `update` -/
  | update (snapshot : SessionSnapshot)
  /-- emits `media` -/
  | media (body : Body)
  | openHostLink (url : Option String)
  | openPeerLink (url : Option String)
  | closeHostLink
  | closePeerLink (code : ℕ) (reason : String)
  | listen (server : ℕ) (roomParams : RoomParams) (argonParams : Option ArgonParams)
  | connect (client : ℕ) (nickname : String) (handshakeTimeoutMs : Option ℕ)
  | closeClient (client : ℕ) (reason : String)
  | detachClient (client : ℕ)
  /-- `connect` refuses a host whose epoch is too old -/
  | closeConn (client : ℕ) (code : ℕ) (reason : String)
  | handoff
  | transferHost (server : ℕ)
  | closeServer (server : ℕ)
  | closeMedia (server : ℕ)
  | broadcast (server : ℕ) (body : Body)
  | sendTo (server : ℕ) (peerId : String) (body : Body)
  | handleMessage (server : ℕ) (peerId : String) (body : Body)
  | send (client : ℕ) (body : Body)
  /-- the promise of `enter`, `host` or `join` settles -/
  | entered
  | threw (message : String)

namespace RoomSession

/-- `RoomSession.begin`. -/
def begin : RoomSession where
  phase := .idle
  nickname := ""
  notice := none
  roomParams := defaultRoomParams
  server := none
  client := none
  media := none
  hostLink := false
  peerLink := false
  relayUrl := none
  argonParams := none
  transferring := false
  leaving := false
  clients := []
  servers := []
  entry := .idle
  transfer := none
  leaves := []

variable (s : RoomSession)

/-! ### Snapshots -/

/-- What `#client` refers to. -/
def clientView : Option ClientView := s.client.bind (s.clients[·]?)

/-- What `#server` refers to. -/
def hostView : Option HostView := s.server.bind (s.servers[·]?)

def streams : List StreamInfo :=
  match s.media.bind (s.servers[·]?) with
  | some media => media.streams
  | none => (s.clientView.map ClientView.streams).getD []

def snapshot : SessionSnapshot where
  phase := s.phase
  isHost := s.server.isSome
  selfPeerId :=
    if s.server.isSome then (s.hostView.map HostView.hostPeerId).getD ""
    else (s.clientView.map ClientView.peerId).getD ""
  nickname := s.nickname
  epoch :=
    if s.server.isSome then (s.hostView.map HostView.epoch).getD 0
    else (s.clientView.map ClientView.epoch).getD 0
  roster :=
    if s.server.isSome then (s.hostView.map HostView.roster).getD []
    else (s.clientView.map ClientView.roster).getD []
  streams := s.streams
  maxRecommendedSubscriptions := s.roomParams.maxRecommendedSubscriptions
  notice := s.notice

/-- `#emit`. -/
def emit : List Effect := [.update s.snapshot]

/-! ### Entering the room -/

/-- The call that enters the room has settled. -/
def settle (effects : List Effect) : RoomSession × List Effect :=
  ({ s with entry := .done }, effects)

/-- `host`, up to its first await. -/
def host (caller : Caller) (opts : EnterOptions) : RoomSession × List Effect :=
  let s₁ := { s with
    nickname := opts.nickname, relayUrl := opts.relayUrl, argonParams := opts.argonParams
    phase := .connecting }
  ({ s₁ with
      roomParams := opts.roomParams.getD defaultRoomParams
      entry := .opening caller opts true },
    s₁.emit ++ [.openHostLink opts.relayUrl])

/-- `join`, up to its first await. -/
def join (caller : Caller) (opts : EnterOptions) : RoomSession × List Effect :=
  let s₁ := { s with
    nickname := opts.nickname, relayUrl := opts.relayUrl, argonParams := opts.argonParams
    phase := .connecting
    entry := .opening caller opts false }
  (s₁, s₁.emit ++ [.openPeerLink opts.relayUrl])

/-- An attempt of `enter`. -/
def attempt (n : ℕ) (opts : EnterOptions) (asHost : Bool) : RoomSession × List Effect :=
  if asHost then s.host (some n) opts else s.join (some n) opts

/-- `enter`, up to its first await. -/
def enter (opts : EnterOptions) : RoomSession × List Effect := s.attempt 1 opts false

/-- What `host` or `join` throws, where it is not tried again. -/
def rejected (caller : Caller) (message : String) : RoomSession × List Effect :=
  s.settle [if caller.isSome && s.leaving then .entered else .threw message]

/-- Does `enter` answer this reason by trying the other way in? -/
def flips (asHost : Bool) (reason : Option String) : Bool :=
  (!asHost && reason == some "no_such_room") || (asHost && reason == some "room_exists")

/-- What `openWithRetry` throws; `reason` is that of a `RelayLinkError`. -/
def failed (caller : Caller) (opts : EnterOptions) (asHost : Bool) (reason : Option String)
    (message : String) : RoomSession × List Effect :=
  match caller with
  | some n =>
    if !s.leaving && flips asHost reason && n < maxEnterAttempts then
      s.attempt (n + 1) opts !asHost
    else s.rejected caller message
  | none => s.rejected caller message

/-- `#setWaking`. -/
def setWaking : RoomSession × List Effect :=
  if s.phase = .connecting then
    let s₁ := { s with phase := .waking, notice := some wakingNotice }
    (s₁, s₁.emit)
  else (s, [])

/-- `#startServer`, up to its await. -/
def startServer (epoch : ℕ) (hostPeerId : String) : RoomSession × List Effect :=
  let server := s.servers.length
  ({ s with
      media := some server
      servers := s.servers ++ [⟨epoch, hostPeerId, (Roster.new hostPeerId s.nickname).snapshot, []⟩] },
    [.listen server s.roomParams s.argonParams])

/-- A new `SignalingClient`, wired and told to connect. -/
def startClient (minEpoch : ℕ) (handshakeTimeoutMs : Option ℕ) : RoomSession × List Effect :=
  let client := s.clients.length
  ({ s with client := some client, clients := s.clients ++ [.new minEpoch] },
    [.connect client s.nickname handshakeTimeoutMs])

/-- `host` and `join` behind `openWithRetry`; `hostPeerId` is the id that a new server draws. -/
def entryOpened (hostPeerId : String) : RoomSession × List Effect :=
  match s.entry with
  | .opening caller _ true =>
    if s.leaving then ({ s with entry := .closingLink }, [.closeHostLink])
    else
      let (s₁, effects) := { s with hostLink := true }.startServer 0 hostPeerId
      ({ s₁ with entry := .listening caller s.servers.length }, effects)
  | .opening caller _ false =>
    if s.leaving then s.settle [.closePeerLink 1000 "left before joining", .entered]
    else
      let (s₁, effects) := { s with peerLink := true }.startClient 0 none
      ({ s₁ with entry := .connecting caller s.clients.length }, effects)
  | _ => (s, [])

/-- `host` behind `#startServer`. -/
def entryListening : RoomSession × List Effect :=
  match s.entry with
  | .listening _ server =>
    let s₁ := { s with server := some server }
    if s.leaving then ({ s₁ with entry := .closingServer }, [.closeServer server])
    else
      let s₂ := { s₁ with phase := .hosting, notice := none }
      s₂.settle (s₂.emit ++ [.entered])
  | _ => (s, [])

/-- `join` behind `client.connect()`. -/
def entryConnected : RoomSession × List Effect :=
  match s.entry with
  | .connected client roomParams =>
    if s.leaving then s.settle [.closeClient client "left before joining", .entered]
    else
      let s₁ := { s with roomParams := roomParams, phase := .inRoom, notice := none }
      s₁.settle (s₁.emit ++ [.entered])
  | _ => (s, [])

/-- What the call awaits throws. -/
def entryFailed (reason : Option String) (message : String) : RoomSession × List Effect :=
  match s.entry with
  | .opening caller opts asHost => s.failed caller opts asHost reason message
  | .listening caller _ | .connecting caller _ => s.rejected caller message
  | _ => (s, [])

/-- A link or a server that nobody wants any more is closed. -/
def entryClosed : RoomSession × List Effect :=
  match s.entry with
  | .closingLink | .closingServer => s.settle [.entered]
  | _ => (s, [])

/-! ### A change of host -/

/-- `#roomEndedAfterFailedHandoff`. -/
def roomEnded (reason : String) : RoomSession × List Effect :=
  let s₁ := { s with
    transferring := false, phase := .left, notice := some ("A sala encerrou: " ++ reason ++ ".")
    transfer := none }
  (s₁, s₁.emit)

/-- `#promote`, up to its first await. -/
def promote (epoch : ℕ) (hostPeerId : String) : RoomSession × List Effect :=
  let closed := s.client.toList.map fun client => Effect.closeClient client "promoted"
  let s₁ := { s with
    client := none, peerLink := false, notice := some "Assumindo como host…"
    transfer := some (.opening epoch hostPeerId) }
  (s₁, closed ++ s₁.emit ++ [.openHostLink s.relayUrl])

/-- `#rehome`, up to its first await. -/
def rehome (epoch : ℕ) : RoomSession × List Effect :=
  let detached := s.client.toList.map Effect.detachClient
  let s₁ := { s with client := none }
  if s.peerLink then
    let s₂ := { s₁ with notice := some "Trocando de host…", transfer := some (.waiting epoch) }
    (s₂, detached ++ s₂.emit)
  else
    let (s₂, effects) := s₁.roomEnded "conexão com o relé perdida"
    (s₂, detached ++ effects)

/-- `#onHostTransfer`. -/
def onHostTransfer (successorPeerId : String) (epoch : ℕ) : RoomSession × List Effect :=
  if s.leaving || s.transferring then (s, [])
  else
    let s₁ := { s with transferring := true }
    if some successorPeerId = s.clientView.map ClientView.peerId then
      s₁.promote epoch successorPeerId
    else s₁.rehome epoch

/-- `#promote` behind `openWithRetry`. -/
def transferOpened : RoomSession × List Effect :=
  match s.transfer with
  | some (.opening epoch hostPeerId) =>
    if s.leaving then ({ s with transfer := some .closingLink }, [.closeHostLink])
    else
      let (s₁, effects) := { s with hostLink := true }.startServer epoch hostPeerId
      ({ s₁ with transfer := some (.listening s.servers.length) }, effects)
  | _ => (s, [])

/-- `#promote` behind `#startServer`. -/
def transferListening : RoomSession × List Effect :=
  match s.transfer with
  | some (.listening server) =>
    let s₁ := { s with server := some server }
    if s.leaving then ({ s₁ with transfer := some .closingServer }, [.closeServer server])
    else
      let s₂ := { s₁ with transferring := false, phase := .hosting, notice := none, transfer := none }
      (s₂, s₂.emit)
  | _ => (s, [])

/-- `#rehome` behind the wait for the claim. -/
def transferClaimed (claimed : Bool) : RoomSession × List Effect :=
  match s.transfer with
  | some (.waiting epoch) =>
    if s.leaving then ({ s with transfer := none }, [])
    else if claimed then
      let (s₁, effects) := s.startClient epoch (some rehomeHandshakeTimeoutMs)
      ({ s₁ with transfer := some (.connecting s.clients.length) }, effects)
    else s.roomEnded "ninguém assumiu a sala a tempo"
  | _ => (s, [])

/-- `#rehome` behind `client.connect()`. -/
def transferConnected : RoomSession × List Effect :=
  match s.transfer with
  | some (.connected _ roomParams) =>
    if s.leaving then ({ s with transfer := none }, [])
    else
      let s₁ := { s with
        roomParams := roomParams, transferring := false, phase := .inRoom, notice := none
        transfer := none }
      (s₁, s₁.emit)
  | _ => (s, [])

/-- What `#promote` or `#rehome` awaits throws. -/
def transferFailed (message : String) : RoomSession × List Effect :=
  match s.transfer with
  | some (.opening ..) | some (.listening _) =>
    let s₁ := { s with
      transferring := false, phase := .left
      notice := some ("A sala encerrou: não foi possível assumir como host (" ++ message ++ ").")
      transfer := none }
    (s₁, s₁.emit)
  | some (.connecting _) =>
    if s.leaving then ({ s with transfer := none }, [])
    else { s with client := none }.roomEnded "o novo host não respondeu a tempo"
  | _ => (s, [])

/-- A link or a server that nobody wants any more is closed. -/
def transferClosed : RoomSession × List Effect :=
  match s.transfer with
  | some .closingLink | some .closingServer => ({ s with transfer := none }, [])
  | _ => (s, [])

/-! ### Clients -/

/-- `connect` fills in the fields of the client, which then emits `roster` and `streams`. -/
def fill (client : ℕ) (welcome : Welcome) : RoomSession :=
  { s with clients := s.clients.modify client fun view =>
      { view with
        connected := true, peerId := welcome.peerId, epoch := welcome.epoch
        roster := welcome.roster, streams := welcome.streams } }

/-- Does `connect` refuse the host that answers the join? -/
def stale (client : ℕ) (welcome : Welcome) : Bool :=
  welcome.epoch < (s.clients[client]?.map ClientView.minEpoch).getD 0

def staleMessage (client : ℕ) (welcome : Welcome) : String :=
  "host epoch " ++ toString welcome.epoch ++ " is older than expected " ++
    toString ((s.clients[client]?.map ClientView.minEpoch).getD 0)

/-- The client that `join` has made reads the answer to its join. -/
def entryJoined (welcome : Welcome) : RoomSession × List Effect :=
  match s.entry with
  | .connecting _ client =>
    if s.stale client welcome then
      let (s₁, effects) := s.entryFailed none (s.staleMessage client welcome)
      (s₁, .closeConn client 1000 "stale epoch" :: effects)
    else
      let s₁ := s.fill client welcome
      ({ s₁ with entry := .connected client welcome.roomParams }, s₁.emit ++ s₁.emit)
  | _ => (s, [])

/-- The client that `#rehome` has made reads the answer to its join. -/
def transferJoined (welcome : Welcome) : RoomSession × List Effect :=
  match s.transfer with
  | some (.connecting client) =>
    if s.stale client welcome then
      let (s₁, effects) := s.transferFailed (s.staleMessage client welcome)
      (s₁, .closeConn client 1000 "stale epoch" :: effects)
    else
      let s₁ := s.fill client welcome
      ({ s₁ with transfer := some (.connected client welcome.roomParams) }, s₁.emit ++ s₁.emit)
  | _ => (s, [])

inductive ClientEvent
  | roster (roster : List RosterEntry)
  | streams (streams : List StreamInfo)
  | media (body : Body)
  | hostLost
  | close (reason : String)
  | error
  | hostTransfer (successorPeerId : String) (epoch : ℕ)

/-- The listeners of `#wireClient`. -/
def onClient (client : ℕ) : ClientEvent → RoomSession × List Effect
  | .roster roster =>
    let s₁ := { s with clients := s.clients.modify client fun view => { view with roster := roster } }
    (s₁, s₁.emit)
  | .streams streams =>
    let s₁ := { s with clients := s.clients.modify client fun view => { view with streams := streams } }
    (s₁, s₁.emit)
  | .media body => (s, [.media body])
  | .hostLost =>
    if s.transferring then (s, [])
    else
      let s₁ := { s with phase := .left, notice := some "Perdemos contato com o host." }
      (s₁, s₁.emit)
  | .close reason =>
    if s.phase = .left ∨ s.transferring = true then (s, [])
    else
      let s₁ := { s with phase := .left, notice := some ("A sala encerrou: " ++ reason) }
      (s₁, s₁.emit)
  | .error => (s, s.emit)
  | .hostTransfer successorPeerId epoch => s.onHostTransfer successorPeerId epoch

/-! ### Servers -/

inductive ServerEvent
  /-- `peer-joined`, `peer-left` or `error`, with the roster after it -/
  | changed (roster : List RosterEntry)
  | sourceClosed (reason : String)
  /-- the media plane broadcasts a body, with its streams after it -/
  | broadcast (body : Body) (streams : List StreamInfo)
  /-- the media plane sends a body to one peer -/
  | sendTo (peerId : String) (body : Body)
  /-- the media plane answers a message of the host's own renderer -/
  | reply (body : Body)

/-- The listeners of `#startServer`, and `sendMedia` behind its await. -/
def onServer (server : ℕ) : ServerEvent → RoomSession × List Effect
  | .changed roster =>
    let s₁ := { s with servers := s.servers.modify server fun view => { view with roster := roster } }
    (s₁, s₁.emit)
  | .sourceClosed reason =>
    let s₁ := { s with
      phase := .left
      notice := some ("A sala encerrou: conexão com o relé perdida (" ++ reason ++ ").") }
    (s₁, s₁.emit)
  | .broadcast body streams =>
    let s₁ := { s with servers := s.servers.modify server fun view => { view with streams := streams } }
    (s₁, [.broadcast server body, .media body] ++ s₁.emit)
  | .sendTo peerId body =>
    if s.servers[server]?.map HostView.hostPeerId = some peerId then (s, [.media body])
    else (s, [.sendTo server peerId body])
  | .reply body => (s, .media body :: s.emit)

/-- `sendMedia`, up to its await. -/
def sendMedia (body : Body) : List Effect :=
  match s.media, s.client with
  | some server, none =>
    [.handleMessage server ((s.hostView.map HostView.hostPeerId).getD "host") body]
  | _, some client => [.send client body]
  | none, none => []

/-! ### Leaving -/

/-- `leave`, up to its first await. -/
def leave : RoomSession × List Effect :=
  let s₁ := { s with leaving := true, phase := .left }
  let closed := s.client.toList.map fun client => Effect.closeClient client "leaving"
  match s.server with
  | some server =>
    if s.hostLink && 1 < ((s.hostView.map HostView.roster).getD []).length then
      ({ s₁ with leaves := s.leaves ++ [.handingOff server] },
        closed ++ [.handoff, .transferHost server])
    else ({ s₁ with leaves := s.leaves ++ [.closing] }, closed ++ [.closeServer server])
  | none =>
    ({ s₁ with leaves := s.leaves ++ [.closing] },
      closed ++ if s.hostLink then [.closeHostLink] else [])

/-- What the `i`-th call of `leave` awaits settles; `thrown` says how. -/
def left (i : ℕ) (thrown : Bool) : RoomSession × List Effect :=
  match s.leaves[i]?, thrown with
  | some (.handingOff server), true =>
    ({ s with leaves := s.leaves.set i .closing }, [.closeServer server])
  | some _, _ =>
    let s₁ := { s with leaves := s.leaves.eraseIdx i }
    (s₁, s.media.toList.map Effect.closeMedia ++ s₁.emit)
  | none, _ => (s, [])

end RoomSession

/-! ### The machine -/

inductive SessionEvent
  | enter (opts : EnterOptions)
  | host (opts : EnterOptions)
  | join (opts : EnterOptions)
  /-- `openWithRetry` takes its relay to be asleep -/
  | waking
  | entryOpened (hostPeerId : String)
  | entryListening
  | entryJoined (welcome : Welcome)
  | entryConnected
  | entryFailed (reason : Option String) (message : String)
  | entryClosed
  | transferOpened
  | transferListening
  | transferClaimed (claimed : Bool)
  | transferJoined (welcome : Welcome)
  | transferConnected
  | transferFailed (message : String)
  | transferClosed
  | client (client : ℕ) (event : RoomSession.ClientEvent)
  | server (server : ℕ) (event : RoomSession.ServerEvent)
  | sendMedia (body : Body)
  | leave
  | left (call : ℕ) (thrown : Bool)

namespace RoomSession

def step (s : RoomSession) : SessionEvent → RoomSession × List Effect
  | .enter opts => s.enter opts
  | .host opts => s.host none opts
  | .join opts => s.join none opts
  | .waking => s.setWaking
  | .entryOpened hostPeerId => s.entryOpened hostPeerId
  | .entryListening => s.entryListening
  | .entryJoined welcome => s.entryJoined welcome
  | .entryConnected => s.entryConnected
  | .entryFailed reason message => s.entryFailed reason message
  | .entryClosed => s.entryClosed
  | .transferOpened => s.transferOpened
  | .transferListening => s.transferListening
  | .transferClaimed claimed => s.transferClaimed claimed
  | .transferJoined welcome => s.transferJoined welcome
  | .transferConnected => s.transferConnected
  | .transferFailed message => s.transferFailed message
  | .transferClosed => s.transferClosed
  | .client client event => s.onClient client event
  | .server server event => s.onServer server event
  | .sendMedia body => (s, s.sendMedia body)
  | .leave => s.leave
  | .left call thrown => s.left call thrown

/-- The client whose `connect` has returned, while the session has not gone on behind it. -/
def returned (s : RoomSession) : Option ℕ :=
  match s.entry, s.transfer with
  | .connected client _, _ => some client
  | _, some (.connected client _) => some client
  | _, _ => none

/-- May the event come in the turn in which `connect` of this client returns? -/
def sameTurn (client : ℕ) : SessionEvent → Bool
  | .entryConnected | .transferConnected | .leave => true
  | .client client' _ => client = client'
  | _ => false

/-- A session is told to enter the room once, clients emit when they are connected and servers when
they have been made.  What an await has not asked for changes nothing. -/
def enabled (s : RoomSession) (e : SessionEvent) : Prop :=
  s.returned.all (sameTurn · e) = true ∧
    match e with
    | .enter _ | .host _ | .join _ => s.entry.isIdle = true
    | .waking => s.entry.isOpening = true
    | .client client _ => s.clients[client]?.map ClientView.connected = some true
    | .server server _ => server < s.servers.length
    | _ => True

instance (s : RoomSession) (e : SessionEvent) : Decidable (s.enabled e) := by
  unfold enabled
  cases e <;> infer_instance

end RoomSession

def session : Machine RoomSession SessionEvent Effect where
  enabled := RoomSession.enabled
  step := RoomSession.step

instance (s : RoomSession) (e : SessionEvent) : Decidable (session.enabled s e) :=
  inferInstanceAs (Decidable (s.enabled e))

end ScreenSharing.App
