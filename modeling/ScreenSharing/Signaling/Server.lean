import ScreenSharing.Election.Succession
import ScreenSharing.Lib.Machine
import ScreenSharing.Signaling.Heartbeat
import ScreenSharing.Signaling.RateLimit
import ScreenSharing.Signaling.Roster

/-!
# The signaling server

`SignalingServer` of the host process, over the relay.  A connection is one virtual transport of the
relay's host link with the `Connection` object on it; `Conn` holds both, and `stage` says how far
`#handleConnection` is with it and which listeners it has installed:

* `awaiting`: in the CPace handshake, waiting for one message; a message, a close or an error ends
  the wait;
* `received`, `failed`: the wait is over and its continuation is queued.  No listener is installed;
* `joining`, `joinReceived`, `joinFailed`: the same for the join message;
* `admitted`: in the roster; the message and close listeners stay installed for good.

A step is a transport callback, a queued continuation (`resume`, `flush`), a timer, or a call from
outside (`broadcast`, `transferHost`, `close`, ...).  What the code draws at random or reads from
the clock comes with the event.  The media plane is outside: what it is asked is an output, what it
sends is an event.  Encryption is outside too: a binary frame is the body it decrypts to, or `none`.
-/

namespace ScreenSharing.Signaling

open Lib Election

/-- `SignalingServerOptions`, with the defaults filled in. -/
structure Config where
  roomId : String
  roomParams : RoomParams
  hostNickname : String
  hostPeerId : String
  epoch : ℕ
  rateLimit : RateLimitConfig
  heartbeatMaxMissed : ℕ
  verifyInbound : Bool
  /-- is there a media plane? -/
  media : Bool
  toLowerCase : String → String

/-- `MAX_CONCURRENT_HANDSHAKES`. -/
def maxConcurrentHandshakes : ℕ := 3

def protocolVersion : ℤ := 1

/-- A handshake message of a peer.  Whether the share of a `pake_peer` can be used, and whether the
MAC of a `pake_confirm` verifies, are facts about the message. -/
inductive HandshakeMessage
  | hello (protoVersion : ℤ) (roomId : String)
  | pakePeer (usable : Bool)
  | pakeConfirm (verifies : Bool)
  /-- a message of the host's side, or `handshake_reject` -/
  | other
  deriving DecidableEq

/-- A handshake message of the host. -/
inductive HostMessage
  | helloAck
  | pakeHost
  | handshakeReject (reason : String)
  deriving DecidableEq

/-- A transport frame: text that parses as a handshake message, or a binary frame that decrypts to
an envelope with this body. -/
inductive Frame
  | text (msg : Option HandshakeMessage)
  | binary (body : Option Body)
  deriving DecidableEq

/-- An `InboxItem` of a connection. -/
inductive Item
  | handshake (msg : HandshakeMessage)
  | message (body : Body)
  deriving DecidableEq

/-- The type of message `waitFor` waits for. -/
inductive Awaited
  | hello
  | pakePeer
  | pakeConfirm
  deriving DecidableEq

inductive Stage
  | refused (reason : String)
  | awaiting (type : Awaited)
  | received (msg : HandshakeMessage)
  | failed (reason : String)
  | joining
  | joinReceived (join : Join)
  | joinFailed (reason : String)
  | admitted (peerId : String)
  | ended
  deriving DecidableEq

/-- A `Connection` over a virtual transport. -/
structure Conn where
  ip : String
  closed : Bool
  encrypted : Bool
  pendingBinary : List (Option Body)
  inbox : List Item
  flushQueued : Bool
  stage : Stage

inductive LeaveReason
  | bye
  | timeout
  deriving DecidableEq

structure PeerLink where
  peerId : String
  conn : ℕ
  ip : String
  heartbeat : Option Heartbeat
  /-- is `heartbeatTimer` running? -/
  timer : Bool
  reason : LeaveReason

/-- Clear the timer of a link and stop its heartbeat. -/
def PeerLink.stop (link : PeerLink) : PeerLink :=
  { link with heartbeat := link.heartbeat.map Heartbeat.stop, timer := false }

/-- The host link of the server: its WebSocket is open, or the server has closed it and frames that
were under way may still come in, or it is gone. -/
inductive Source
  | connected
  | closing
  | gone
  deriving DecidableEq

/-- `RelayHostLink.close`. -/
def Source.close : Source → Source
  | .connected => .closing
  | source => source

/-- The fields of the `SignalingServer` class, the connections it has been handed, and what is
pending. -/
structure SignalingServer where
  conns : InsertionMap ℕ Conn
  nextConn : ℕ
  rateLimiter : RateLimiter
  roster : Roster
  links : InsertionMap String PeerLink
  activeHandshakes : ℕ
  closing : Bool
  source : Source
  /-- calls of `transferHost` in their grace wait -/
  transfers : ℕ
  /-- inbound probes in flight -/
  probes : List (String × InboundEndpoint)
  /-- the peers whose `handleMessage` has not returned yet -/
  mediaPending : List String

inductive Output
  | sendHandshake (conn : ℕ) (msg : HostMessage)
  | send (conn : ℕ) (body : Body)
  /-- the KICK that closing a virtual transport sends -/
  | kick (conn : ℕ)
  | handleMessage (peerId : String) (body : Body)
  | mediaPeerGone (peerId : String)
  | peerJoined (peerId nickname : String)
  | peerLeft (peerId nickname : String) (reason : LeaveReason)
  | peerRejected (ip reason : String)
  | sourceClosed (reason : String)
  | error (message : String)
  /-- an exception that nothing catches -/
  | uncaught (message : String)
  deriving DecidableEq

/-- What the continuation of an admission draws. -/
structure Draw where
  peerId : String
  nonce : ℤ
  now : ℚ
  /-- what the media plane lists at that moment -/
  streams : List StreamInfo

inductive Event
  | connection (ip : String) (now : ℕ)
  | deliver (conn : ℕ) (frame : Frame)
  | drop (conn : ℕ)
  | timeout (conn : ℕ)
  | flush (conn : ℕ)
  | resume (conn : ℕ) (draw : Draw)
  | tick (peerId : String) (nonce : ℤ) (now : ℚ)
  | probed (peerId : String) (endpoint : InboundEndpoint) (reachable : Bool)
  | mediaReply (peerId : String) (reply : Option Body)
  | sendTo (peerId : String) (body : Body)
  | broadcast (body : Body)
  | transferHost
  | graceOver
  | close
  | crash
  | sourceLost (reason : String)

/-- `new SignalingServer(opts)`, listening. -/
def SignalingServer.new (L : Config) : SignalingServer where
  conns := .empty
  nextConn := 0
  rateLimiter := .new L.rateLimit
  roster := .new L.hostPeerId L.hostNickname
  links := .empty
  activeHandshakes := 0
  closing := false
  source := .connected
  transfers := 0
  probes := []
  mediaPending := []

namespace SignalingServer

variable (L : Config) (S : SignalingServer)

/-! ### Sending -/

/-- Is the WebSocket of the host link open? -/
def sourceOpen : Bool := S.source = .connected

/-- Is the transport of the connection open, on an open link? -/
def reaches (conn : ℕ) : Bool :=
  S.sourceOpen && ((S.conns.get conn).map fun k => !k.closed).getD false

def sendHandshake (conn : ℕ) (msg : HostMessage) : List Output :=
  if S.reaches conn then [.sendHandshake conn msg] else []

/-- `Connection.send`, of a connection that was upgraded. -/
def send (conn : ℕ) (body : Body) : List Output :=
  if S.reaches conn then [.send conn body] else []

/-- `broadcast`. -/
def broadcast (body : Body) (exceptPeerId : Option String) : List Output :=
  S.links.values.flatMap fun link =>
    if some link.peerId = exceptPeerId then [] else S.send link.conn body

/-- `sendTo`. -/
def sendTo (peerId : String) (body : Body) : List Output :=
  match S.links.get peerId with
  | none => []
  | some link => S.send link.conn body

/-! ### Closing a connection -/

def modifyConn (conn : ℕ) (f : Conn → Conn) : SignalingServer :=
  match S.conns.get conn with
  | none => S
  | some k => { S with conns := S.conns.set conn (f k) }

def setStage (conn : ℕ) (stage : Stage) : SignalingServer :=
  S.modifyConn conn fun k => { k with stage := stage }

/-- Install a message listener, which queues a flush of the inbox. -/
def listen (conn : ℕ) (stage : Stage) : SignalingServer :=
  S.modifyConn conn fun k => { k with stage := stage, flushQueued := true }

/-- `#onPeerGone`. -/
def onPeerGone (peerId : String) : SignalingServer × List Output :=
  if S.closing then (S, [])
  else
    let S' := { S with roster := S.roster.remove peerId, links := S.links.delete peerId }
    let gone := if L.media then [Output.mediaPeerGone peerId] else []
    match S.roster.entries.get peerId with
    | none => (S', gone)
    | some entry =>
      let reason := ((S.links.get peerId).map PeerLink.reason).getD .bye
      (S', gone ++ S'.broadcast (.rosterUpdate [] [peerId] []) none ++
        [.peerLeft peerId entry.nickname reason])

/-- The `close` event of a connection, for the listeners of its stage. -/
def emitClose (conn : ℕ) : SignalingServer × List Output :=
  match (S.conns.get conn).map Conn.stage with
  | some (.awaiting _) => (S.setStage conn (.failed "closed"), [])
  | some .joining => (S.setStage conn (.joinFailed "connection closed before message"), [])
  | some (.admitted peerId) => onPeerGone L S peerId
  | _ => (S, [])

/-- The transport reports that the peer is gone. -/
def dropConn (conn : ℕ) : SignalingServer × List Output :=
  emitClose L (S.modifyConn conn fun k => { k with closed := true }) conn

/-- `Connection.close`: a no-op on a closed connection, else a KICK and the close event. -/
def closeConn (conn : ℕ) : SignalingServer × List Output :=
  if ((S.conns.get conn).map Conn.closed).getD true then (S, [])
  else
    let (S', out) := dropConn L S conn
    (S', (if S.sourceOpen then [.kick conn] else []) ++ out)

/-! ### Messages of admitted peers -/

/-- `#onPeerMessage`. -/
def onPeerMessage (peerId : String) (body : Body) : SignalingServer × List Output :=
  match S.links.get peerId with
  | none => (S, [])
  | some link =>
    match body with
    | .ping nonce sentAt => (S, S.send link.conn (.pong nonce sentAt))
    | .pong nonce _ =>
      let link' := { link with heartbeat := link.heartbeat.map (Heartbeat.onPong nonce) }
      ({ S with links := S.links.set peerId link' }, [])
    | .bye _ =>
      closeConn L { S with links := S.links.set peerId { link with reason := .bye } } link.conn
    | _ =>
      if body.isMediaMessage && L.media then
        ({ S with mediaPending := peerId :: S.mediaPending }, [.handleMessage peerId body])
      else (S, [.error ("unexpected " ++ body.type ++ " from " ++ peerId)])

/-! ### Receiving -/

/-- Does a stage have a listener for the event of an item? -/
def listens : Stage → Item → Bool
  | .awaiting _, .handshake _ => true
  | .joining, .message _ => true
  | .admitted _, .message _ => true
  | _, _ => false

/-- Is the message of the awaited type? -/
def answers : Awaited → HandshakeMessage → Bool
  | .hello, .hello _ _ => true
  | .pakePeer, .pakePeer _ => true
  | .pakeConfirm, .pakeConfirm _ => true
  | _, _ => false

/-- The listeners of a stage, on an item. -/
def emitItem (conn : ℕ) (stage : Stage) (item : Item) : SignalingServer × List Output :=
  match stage, item with
  | .awaiting type, .handshake msg =>
    (S.setStage conn (if answers type msg then .received msg else .failed "bad_message"), [])
  | .joining, .message (.join join) => (S.setStage conn (.joinReceived join), [])
  | .joining, .message body =>
    (S.setStage conn (.joinFailed ("expected join, got " ++ body.type)), [])
  | .admitted peerId, .message body => onPeerMessage L S peerId body
  | _, _ => (S, [])

/-- `#deliver`: emit if someone is listening, hold it in the inbox otherwise. -/
def deliverItem (conn : ℕ) (item : Item) : SignalingServer × List Output :=
  match S.conns.get conn with
  | none => (S, [])
  | some k =>
    if listens k.stage item then emitItem L S conn k.stage item
    else (S.modifyConn conn fun k => { k with inbox := k.inbox ++ [item] }, [])

def deliverItems (conn : ℕ) : List Item → SignalingServer → SignalingServer × List Output
  | [], S => (S, [])
  | item :: rest, S =>
    let (S₁, out₁) := deliverItem L S conn item
    let (S₂, out₂) := deliverItems conn rest S₁
    (S₂, out₁ ++ out₂)

/-- `#flush`. -/
def flush (conn : ℕ) : SignalingServer × List Output :=
  let held := ((S.conns.get conn).map Conn.inbox).getD []
  deliverItems L conn held
    (S.modifyConn conn fun k => { k with inbox := [], flushQueued := false })

/-- `#fail`.  Only the handshake installs an error listener; without one, emitting the error throws
before the connection is closed. -/
def fail (conn : ℕ) (message : String) : SignalingServer × List Output :=
  match (S.conns.get conn).map Conn.stage with
  | some (.awaiting _) => closeConn L (S.setStage conn (.failed "bad_message")) conn
  | _ => (S, [.uncaught message])

/-- `Connection.#onMessage`, of an open connection. -/
def onFrame (conn : ℕ) (frame : Frame) : SignalingServer × List Output :=
  match S.conns.get conn with
  | none => (S, [])
  | some k =>
    match frame, k.encrypted with
    | .text _, true => fail L S conn "text frame after upgrade"
    | .binary none, true => fail L S conn "frame rejected"
    | .binary (some body), true => deliverItem L S conn (.message body)
    | .binary body, false =>
      if k.pendingBinary.length < 64 then
        (S.modifyConn conn fun k => { k with pendingBinary := k.pendingBinary ++ [body] }, [])
      else fail L S conn "too many binary frames before upgrade"
    | .text none, false => fail L S conn "message failed schema"
    | .text (some msg), false => deliverItem L S conn (.handshake msg)

/-! ### `#handleConnection` -/

/-- Refuse a new connection: a reject in the clear, then the close. -/
def refuse (ip reason : String) : SignalingServer × List Output :=
  let conn := S.nextConn
  ({ S with
      conns := S.conns.set conn ⟨ip, true, false, [], [], false, .refused reason⟩
      nextConn := conn + 1 },
    if S.sourceOpen then [.sendHandshake conn (.handshakeReject reason), .kick conn] else [])

/-- The first segment of `#handleConnection`. -/
def handleConnection (ip : String) (now : ℕ) : SignalingServer × List Output :=
  if S.closing then S.refuse ip "room_closing"
  else
    let (limiter, wait) := S.rateLimiter.take now ip
    let S' := { S with rateLimiter := limiter }
    if wait.isSome then
      let (S'', out) := S'.refuse ip "rate_limited"
      (S'', out ++ [.peerRejected ip "rate_limited"])
    else if S.activeHandshakes ≥ maxConcurrentHandshakes then
      let (S'', out) := S'.refuse ip "too_many_handshakes"
      (S'', out ++ [.peerRejected ip "too_many_handshakes"])
    else
      ({ S' with
          conns := S'.conns.set S'.nextConn ⟨ip, false, false, [], [], true, .awaiting .hello⟩
          nextConn := S'.nextConn + 1
          activeHandshakes := S'.activeHandshakes + 1 }, [])

/-- The `catch` and `finally` of the handshake. -/
def handshakeFailed (conn : ℕ) (ip reason : String) : SignalingServer × List Output :=
  let (S', out) := closeConn L S conn
  ({ S'.setStage conn .ended with activeHandshakes := S'.activeHandshakes - 1 },
    .peerRejected ip reason :: out)

/-- `Connection.upgrade` replays the early frames; the first one that is rejected ends it. -/
def replay : List (Option Body) → List Item → List Item × Bool
  | [], inbox => (inbox, true)
  | none :: _, inbox => (inbox, false)
  | some body :: rest, inbox => replay rest (inbox ++ [.message body])

/-- The end of `runHostHandshake` after a MAC that verifies. -/
def upgrade (conn : ℕ) (k : Conn) : SignalingServer × List Output :=
  let (inbox, ok) := replay k.pendingBinary k.inbox
  let S' := S.modifyConn conn fun k =>
    { k with encrypted := true, pendingBinary := [], inbox := inbox }
  if ok then
    -- the handshake is over: the rate standing is reset, and `#admit` waits for the join
    ({ S' with
        activeHandshakes := S'.activeHandshakes - 1
        rateLimiter := S'.rateLimiter.clear k.ip }.listen conn .joining, [])
  else handshakeFailed L S' conn k.ip "error"

/-- `runHostHandshake`, resumed with the message it waited for. -/
def onReceived (conn : ℕ) (k : Conn) : HandshakeMessage → SignalingServer × List Output
  | .hello protoVersion roomId =>
    if protoVersion ≠ protocolVersion then
      let (S', out) := handshakeFailed L S conn k.ip "version_mismatch"
      (S', S.sendHandshake conn (.handshakeReject "version_mismatch") ++ out)
    else if roomId ≠ L.roomId then
      let (S', out) := handshakeFailed L S conn k.ip "room_id_mismatch"
      (S', S.sendHandshake conn (.handshakeReject "room_id_mismatch") ++ out)
    else (S.listen conn (.awaiting .pakePeer), S.sendHandshake conn .helloAck)
  | .pakePeer usable =>
    if usable then (S.listen conn (.awaiting .pakeConfirm), S.sendHandshake conn .pakeHost)
    else handshakeFailed L S conn k.ip "bad_message"
  | .pakeConfirm verifies =>
    if verifies then upgrade L S conn k else handshakeFailed L S conn k.ip "bad_password"
  | .other => handshakeFailed L S conn k.ip "bad_message"

/-! ### `#admit` -/

/-- A rejection in `#admit`. -/
def reject (conn : ℕ) (ip : String) (reason : RejectedReason) (text : String) :
    SignalingServer × List Output :=
  let (S', out) := closeConn L S conn
  (S'.setStage conn .ended, S.send conn (.rejected reason) ++ out ++ [.peerRejected ip text])

/-- Does `#admit` let the join pass? -/
def admits (join : Join) : Bool :=
  S.roster.size < L.roomParams.maxParticipants && !S.roster.hasNickname L.toLowerCase join.nickname

/-- The link of a new peer, with its heartbeat started. -/
def newLink (conn : ℕ) (ip : String) (draw : Draw) : PeerLink where
  peerId := draw.peerId
  conn := conn
  ip := ip
  heartbeat := some ((Heartbeat.new L.heartbeatMaxMissed).start draw.nonce).1
  timer := true
  reason := .bye

def newEntry (join : Join) (draw : Draw) : RosterEntry where
  peerId := draw.peerId
  nickname := join.nickname
  joinSeq := S.roster.nextJoinSeq
  isHost := false
  inboundVerified := false
  inboundEndpoint := none
  publishing := none

/-- `#admit` of a join that passes. -/
def admitPeer (conn : ℕ) (ip : String) (join : Join) (draw : Draw) :
    SignalingServer × List Output :=
  let entry := S.newEntry join draw
  let roster := ({ S.roster with nextJoinSeq := S.roster.nextJoinSeq + 1 } : Roster).add entry
  let S' := { S with
    roster := roster
    links := S.links.set draw.peerId (newLink L conn ip draw) }.listen conn (.admitted draw.peerId)
  let probe := L.verifyInbound && 0 < join.clientCaps.inboundPort
  ({ S' with
      probes := if probe then (draw.peerId, ⟨ip, join.clientCaps.inboundPort⟩) :: S'.probes
        else S'.probes },
    S'.send conn (.joined draw.peerId entry.joinSeq L.epoch L.roomParams roster.snapshot
        (if L.media then draw.streams else [])) ++
      S'.broadcast (.rosterUpdate [entry] [] []) (some draw.peerId) ++
      [.peerJoined draw.peerId entry.nickname] ++ S'.send conn (.ping draw.nonce draw.now))

/-- `#admit`, resumed with the join. -/
def admitConn (conn : ℕ) (ip : String) (join : Join) (draw : Draw) :
    SignalingServer × List Output :=
  if S.roster.size ≥ L.roomParams.maxParticipants then
    reject L S conn ip .roomFull "room_full"
  else if S.roster.hasNickname L.toLowerCase join.nickname then
    reject L S conn ip .duplicateNickname "duplicate_nickname"
  else admitPeer L S conn ip join draw

/-- A queued continuation of `#handleConnection`. -/
def resume (conn : ℕ) (draw : Draw) : SignalingServer × List Output :=
  match S.conns.get conn with
  | none => (S, [])
  | some k =>
    match k.stage with
    | .received msg => onReceived L S conn k msg
    | .failed reason => handshakeFailed L S conn k.ip reason
    | .joinReceived join => admitConn L S conn k.ip join draw
    | .joinFailed reason =>
      let (S', out) := closeConn L S conn
      (S'.setStage conn .ended, .error reason :: out)
    | _ => (S, [])

/-- The timer of a wait. -/
def timeout (conn : ℕ) : SignalingServer :=
  match (S.conns.get conn).map Conn.stage with
  | some (.awaiting _) => S.setStage conn (.failed "timeout")
  | some .joining => S.setStage conn (.joinFailed "timed out waiting for join")
  | _ => S

/-! ### Timers and probes -/

/-- The heartbeat interval of a link. -/
def tick (peerId : String) (nonce : ℤ) (now : ℚ) : SignalingServer × List Output :=
  match S.links.get peerId with
  | none => (S, [])
  | some link =>
    match link.heartbeat with
    | none => (S, [])
    | some heartbeat =>
      let (heartbeat', beat) := heartbeat.tick nonce
      let link' := { link with heartbeat := some heartbeat' }
      let S' := { S with links := S.links.set peerId link' }
      match beat with
      | .idle => (S', [])
      | .sendPing nonce => (S', S'.send link.conn (.ping nonce now))
      | .onDead =>
        closeConn L { S with links := S.links.set peerId { link' with reason := .timeout } }
          link.conn

/-- The end of `#probeInbound`. -/
def probed (peerId : String) (endpoint : InboundEndpoint) (reachable : Bool) :
    SignalingServer × List Output :=
  let S₀ := { S with probes := S.probes.erase (peerId, endpoint) }
  match S.links.get peerId, S.roster.entries.get peerId with
  | some _, some entry =>
    let entry' := { entry with
      inboundVerified := reachable
      inboundEndpoint := if reachable then some endpoint else none }
    let S' := { S₀ with roster := { S.roster with entries := S.roster.entries.set peerId entry' } }
    (S', S'.broadcast (.rosterUpdate [] [] [entry']) none)
  | _, _ => (S₀, [])

/-- The end of `#handleMedia`. -/
def mediaReply (peerId : String) (reply : Option Body) : SignalingServer × List Output :=
  ({ S with mediaPending := S.mediaPending.erase peerId },
    match reply with
    | none => []
    | some body => S.sendTo peerId body)

/-! ### Leaving -/

/-- The loop of `close` and `crash` over the links; `bye` says whether each peer is told. -/
def closeLinks (bye : Bool) : List PeerLink → SignalingServer → SignalingServer × List Output
  | [], S => (S, [])
  | link :: rest, S =>
    let told := if bye then S.send link.conn (.bye "room_closing") else []
    let (S₁, out₁) := closeConn L S link.conn
    let (S₂, out₂) := closeLinks bye rest S₁
    (S₂, told ++ out₁ ++ out₂)

/-- `close`, and `crash` without the `bye`s. -/
def shutDown (bye : Bool) : SignalingServer × List Output :=
  let S₀ := { S with closing := true }
  let (S₁, out) := closeLinks L bye S₀.links.values S₀
  ({ S₁ with links := .empty, source := S₁.source.close }, out)

/-- The first segment of `transferHost`. -/
def transferHost : SignalingServer × List Output :=
  match successionOrder (electionEntriesFromRoster S.roster.snapshot) with
  | [] => shutDown L S true
  | successor :: _ =>
    let S₀ := { S with closing := true }
    ({ S₀ with links := S₀.links.mapValues PeerLink.stop, transfers := S₀.transfers + 1 },
      S₀.broadcast (.hostTransfer successor (L.epoch + 1)) none)

/-- `#closeForHandoff`, after the grace wait. -/
def graceOver : SignalingServer :=
  { S with
    closing := true, links := .empty, source := S.source.close, transfers := S.transfers - 1 }

/-- Drop every virtual transport that is open. -/
def dropAll : List ℕ → SignalingServer → SignalingServer × List Output
  | [], S => (S, [])
  | conn :: rest, S =>
    let (S₁, out₁) :=
      if ((S.conns.get conn).map Conn.closed).getD true then (S, []) else dropConn L S conn
    let (S₂, out₂) := dropAll rest S₁
    (S₂, out₁ ++ out₂)

/-- The WebSocket of the host link is closed: `#tearDown`, unless the server has closed the link. -/
def sourceLost (reason : String) : SignalingServer × List Output :=
  let S₀ := { S with source := .gone }
  if S.sourceOpen then
    let (S', out) := dropAll L S.conns.keys S₀
    (S', out ++ if S'.closing then [] else [.sourceClosed reason])
  else (S₀, [])

end SignalingServer

/-! ### The server as a machine -/

def react (L : Config) (S : SignalingServer) : Event → SignalingServer × List Output
  | .connection ip now => S.handleConnection ip now
  | .deliver conn frame => S.onFrame L conn frame
  | .drop conn => S.dropConn L conn
  | .timeout conn => (S.timeout conn, [])
  | .flush conn => S.flush L conn
  | .resume conn draw => S.resume L conn draw
  | .tick peerId nonce now => S.tick L peerId nonce now
  | .probed peerId endpoint reachable => S.probed peerId endpoint reachable
  | .mediaReply peerId reply => S.mediaReply peerId reply
  | .sendTo peerId body => (S, S.sendTo peerId body)
  | .broadcast body => (S, S.broadcast body none)
  | .transferHost => S.transferHost L
  | .graceOver => (S.graceOver, [])
  | .close => S.shutDown L true
  | .crash => S.shutDown L false
  | .sourceLost reason => S.sourceLost L reason

/-- The record of a connection satisfies `P`. -/
def ConnIs (S : SignalingServer) (conn : ℕ) (P : Conn → Bool) : Prop :=
  ((S.conns.get conn).map P).getD false = true

instance (S : SignalingServer) (conn : ℕ) (P : Conn → Bool) : Decidable (ConnIs S conn P) :=
  inferInstanceAs (Decidable (_ = true))

def Stage.waits : Stage → Bool
  | .awaiting _ | .joining => true
  | _ => false

/-- Is a continuation of `#handleConnection` queued? -/
def Stage.queued : Stage → Bool
  | .received _ | .failed _ | .joinReceived _ | .joinFailed _ => true
  | _ => false

/-- When an event can happen.  A transport speaks only while it is open, and the host link until it
is gone; a timer runs only in its wait; a continuation runs only when it is queued; what the media
plane sends is a media body. -/
def Enabled (L : Config) (S : SignalingServer) : Event → Prop
  | .connection _ _ => S.source ≠ .gone
  | .deliver conn _ => S.source ≠ .gone ∧ ConnIs S conn fun k => !k.closed
  | .drop conn => S.source ≠ .gone ∧ ConnIs S conn fun k => !k.closed
  | .timeout conn => ConnIs S conn fun k => k.stage.waits
  | .flush conn => ConnIs S conn fun k => k.flushQueued
  | .resume conn _ => ConnIs S conn fun k => k.stage.queued
  | .tick peerId _ _ => ((S.links.get peerId).map PeerLink.timer).getD false = true
  | .probed peerId endpoint _ => (peerId, endpoint) ∈ S.probes
  | .mediaReply peerId reply => peerId ∈ S.mediaPending ∧ ∀ body ∈ reply, body.isMediaBody = true
  | .sendTo _ body => L.media = true ∧ body.isMediaBody = true
  | .broadcast body => L.media = true ∧ body.isMediaBody = true
  | .transferHost => True
  | .graceOver => 0 < S.transfers
  | .close => True
  | .crash => True
  | .sourceLost _ => S.source ≠ .gone

instance (L : Config) (S : SignalingServer) (e : Event) : Decidable (Enabled L S e) := by
  cases e <;> unfold Enabled <;> infer_instance

def server (L : Config) : Machine SignalingServer Event Output := ⟨Enabled L, react L⟩

instance (L : Config) (S : SignalingServer) (e : Event) : Decidable ((server L).enabled S e) :=
  inferInstanceAs (Decidable (Enabled L S e))

/-! ### A small room -/

/-- A room of eight over the relay, for nicknames in lower case. -/
def smallRoom : Config where
  roomId := "room"
  roomParams := ⟨8, 4, 2500⟩
  hostNickname := "host"
  hostPeerId := "p_00000001"
  epoch := 0
  rateLimit := defaultRateLimit
  heartbeatMaxMissed := 3
  verifyInbound := false
  media := true
  toLowerCase := id

/-- The handshake on the connection with the next number, up to the wait for the join. -/
def handshake (conn : ℕ) : List Event :=
  let draw : Draw := ⟨"", 0, 0, []⟩
  [.connection "relay" conn, .flush conn,
    .deliver conn (.text (some (.hello 1 "room"))), .resume conn draw, .flush conn,
    .deliver conn (.text (some (.pakePeer true))), .resume conn draw, .flush conn,
    .deliver conn (.text (some (.pakeConfirm true))), .resume conn draw, .flush conn]

def joinFrame (nickname : String) : Frame := .binary (some (.join ⟨nickname, ⟨true, 0⟩⟩))

/-- A whole admission. -/
def admission (conn : ℕ) (nickname peerId : String) : List Event :=
  handshake conn ++
    [.deliver conn (joinFrame nickname), .resume conn ⟨peerId, 7, 0, []⟩, .flush conn]

end ScreenSharing.Signaling
