import ScreenSharing.Crypto.Kdf
import ScreenSharing.Handshake.Process
import ScreenSharing.Lib.Hex

/-!
# The handshake of the two sides

`runHostHandshake`, with `#handleConnection` and `waitForBody` behind it, and `runPeerHandshake`, with
`connect` behind it, as coroutines.  A constructor of `HostPc` or `PeerPc` is a place where the function
stands, with its live variables: `await…` before a promise is settled, `got…` after it and before the
continuation has run.

The checks of `#admit` between the join and the message listener are left out: the host is one that
admits the peer.
-/

namespace ScreenSharing.Handshake

open Lib Crypto Net

/-! ### Waiting for a message -/

def rejectText : RejectReason → String
  | .roomIdMismatch => "room_id_mismatch"
  | .versionMismatch => "version_mismatch"
  | .rateLimited => "rate_limited"
  | .tooManyHandshakes => "too_many_handshakes"
  | .roomClosing => "room_closing"
  | .badMessage => "bad_message"

/-- `msg.type`. -/
def typeOf : HandshakeMessage → String
  | .hello .. => "hello"
  | .helloAck .. => "hello_ack"
  | .pakePeer _ => "pake_peer"
  | .pakeHost .. => "pake_host"
  | .pakeConfirm _ => "pake_confirm"
  | .handshakeReject _ => "handshake_reject"

/-- How `waitFor` rejects a message that is not of the type it waits for. -/
def refusal (type : String) : HandshakeMessage → Failure
  | .handshakeReject reason => .handshake ("rejected: " ++ rejectText reason) .badMessage
  | msg => .handshake ("expected " ++ type ++ ", got " ++ typeOf msg) .badMessage

/-- How `waitFor` rejects an error; the message of the error is not modelled. -/
def errorRefusal : Failure := .handshake "" .badMessage

/-! ### The host -/

/-- `HostHandshakeConfig`, and what the host draws at random. -/
structure HostConfig (order : ℕ) where
  roomId : Bytes
  w : Bytes
  argonParams : ArgonParams
  sid : Bytes
  scalar : Scalar order
  hostPeerId : String
  epoch : ℕ

inductive HostPc
  | awaitHello
  | gotHello (protoVersion : ℤ) (roomId : String)
  | awaitPakePeer
  | gotPakePeer (ya : String)
  | awaitConfirm (host : HostHandshake)
  | gotConfirm (host : HostHandshake) (macPeer : String)
  /-- `runHostHandshake` has returned -/
  | returned (isk : Bytes)
  | awaitJoin
  | gotJoin (join : Join)
  | admitted
  /-- the promise that was awaited is rejected -/
  | refused (f : Failure)
  /-- the function has thrown -/
  | thrown (f : Failure)
  | ended (f : Failure)
  deriving DecidableEq

abbrev Host := Process HostPc

def hostOnItem : HostPc → InboxItem → HostPc × Bool
  | .awaitHello, .handshake (.hello _ protoVersion roomId) => (.gotHello protoVersion roomId, true)
  | .awaitHello, .handshake msg => (.refused (refusal "hello" msg), true)
  | .awaitPakePeer, .handshake (.pakePeer ya) => (.gotPakePeer ya, true)
  | .awaitPakePeer, .handshake msg => (.refused (refusal "pake_peer" msg), true)
  | .awaitConfirm host, .handshake (.pakeConfirm macPeer) => (.gotConfirm host macPeer, true)
  | .awaitConfirm _, .handshake msg => (.refused (refusal "pake_confirm" msg), true)
  | .awaitJoin, .message env =>
    match env.body with
    | .join join => (.gotJoin join, true)
    | body => (.refused (.connection (.protocol ("expected join, got " ++ body.type))), true)
  | pc, _ => (pc, false)

def hostListens : HostPc → EventName → Bool
  | .awaitHello, .handshake | .awaitPakePeer, .handshake | .awaitConfirm _, .handshake => true
  | .awaitHello, .error | .awaitPakePeer, .error | .awaitConfirm _, .error => true
  | .awaitJoin, .message | .admitted, .message => true
  | _, _ => false

def hostProgram : Program HostPc where
  listens := hostListens
  onItem := hostOnItem
  onError _ _ := .refused errorRefusal
  thrown := .thrown

section

variable {P J : Type*} [AddCommGroup P] [DecidableEq P]

/-- The binding of both sides. -/
def bindingOf (roomId : Bytes) : CpaceBinding := ⟨roomId, protocolVersion.toNat⟩

/-- The next segment of the host. -/
def resumeHost (prim : Primitives P) (decipher : Decipher) (wire : Wire J)
    (cfg : HostConfig prim.order) (p : Host) : Host × List Frame :=
  match p.pc with
  | .gotHello protoVersion roomId =>
    if protoVersion ≠ protocolVersion then
      p.tell wire hostProgram (.handshakeReject .versionMismatch)
        (p.throw hostProgram (.handshake "peer protocol version mismatch" .versionMismatch))
    else if roomId ≠ bytesToHex cfg.roomId then
      p.tell wire hostProgram (.handshakeReject .roomIdMismatch)
        (p.throw hostProgram (.handshake "peer targeted a different room" .roomIdMismatch))
    else
      p.tell wire hostProgram (.helloAck protocolVersion (bytesToHex cfg.sid) cfg.argonParams)
        (p.wait .awaitPakePeer)
  | .gotPakePeer ya =>
    match hexToBytes ya with
    | none => (p.throw hostProgram .hex, [])
    | some ya =>
      match hostRespond prim cfg.w (bindingOf cfg.roomId) cfg.sid ya cfg.scalar with
      | .error e => (p.throw hostProgram (.handshake e.message .badMessage), [])
      | .ok host =>
        p.tell wire hostProgram (.pakeHost (bytesToHex host.yb) (bytesToHex host.macHost))
          (p.wait (.awaitConfirm host))
  | .gotConfirm host macPeer =>
    match hexToBytes macPeer with
    | none => (p.throw hostProgram .hex, [])
    | some macPeer =>
      if host.verifyPeer macPeer = false then
        (p.throw hostProgram (.handshake "peer key confirmation failed" .badPassword), [])
      else
        match p.upgrade decipher wire hostProgram (deriveTransportKeys prim host.isk) with
        | (p', some e) => (p'.throw hostProgram (.connection e), [])
        | (p', none) => (p'.settle (.returned host.isk), [])
  -- `#handleConnection` goes on with `#admit`
  | .returned _ => (p.wait .awaitJoin, [])
  | .gotJoin _ => (p.wait .admitted, [])
  | .refused f => (p.throw hostProgram f, [])
  -- the `catch` of `#handleConnection`
  | .thrown f => ({ p with pc := .ended f, conn := { p.conn with closed := true } }, [])
  | _ => (p, [])

/-! ### The peer -/

/-- `PeerHandshakeConfig`, what the peer draws at random, and its join. -/
structure PeerConfig (order : ℕ) where
  roomId : Bytes
  deriveW : ArgonParams → Bytes
  scalar : Scalar order
  join : Join

inductive PeerPc (order : ℕ)
  | awaitAck
  | gotAck (protoVersion : ℤ) (sid : String) (argonParams : ArgonParams)
  | awaitW (sid : String) (argonParams : ArgonParams)
  | gotW (sid : String) (w : Bytes)
  | awaitPakeHost (peer : PeerHandshake order)
  | gotPakeHost (peer : PeerHandshake order) (yb macHost : String)
  /-- `runPeerHandshake` has returned -/
  | returned (isk : Bytes)
  /-- the join is sent; does the code behind listen for messages? -/
  | sentJoin (listening : Bool)
  | refused (f : Failure)
  | thrown (f : Failure)
  | ended (f : Failure)

abbrev Peer (order : ℕ) := Process (PeerPc order)

def peerOnItem {order : ℕ} : PeerPc order → InboxItem → PeerPc order × Bool
  | .awaitAck, .handshake (.helloAck protoVersion sid params) =>
    (.gotAck protoVersion sid params, true)
  | .awaitAck, .handshake msg => (.refused (refusal "hello_ack" msg), true)
  | .awaitPakeHost peer, .handshake (.pakeHost yb macHost) => (.gotPakeHost peer yb macHost, true)
  | .awaitPakeHost _, .handshake msg => (.refused (refusal "pake_host" msg), true)
  | pc, _ => (pc, false)

def peerListens {order : ℕ} : PeerPc order → EventName → Bool
  | .awaitAck, .handshake | .awaitPakeHost _, .handshake => true
  | .awaitAck, .error | .awaitPakeHost _, .error => true
  | .sentJoin listening, .message => listening
  | _, _ => false

def peerProgram (order : ℕ) : Program (PeerPc order) where
  listens := peerListens
  onItem := peerOnItem
  onError _ _ := .refused errorRefusal
  thrown := .thrown

/-- The next segment of the peer. -/
def resumePeer (prim : Primitives P) (gcm : Gcm) (decipher : Decipher) (wire : Wire J)
    (cfg : PeerConfig prim.order) (p : Peer prim.order) : Peer prim.order × List Frame :=
  let prog := peerProgram prim.order
  match p.pc with
  | .gotAck protoVersion sid argonParams =>
    if protoVersion ≠ protocolVersion then
      (p.throw prog (.handshake "host protocol version mismatch" .versionMismatch), [])
    else if argonParamsAcceptable argonParams = false then
      (p.throw prog
        (.handshake "host proposed weaker-than-allowed password hardening" .badMessage), [])
    else ({ p with pc := .awaitW sid argonParams }, [])
  | .gotW sid w =>
    match hexToBytes sid with
    | none => (p.throw prog .hex, [])
    | some sid =>
      match peerBegin prim w (bindingOf cfg.roomId) sid cfg.scalar with
      | .error e => (p.throw prog (.cpace e), [])
      | .ok peer =>
        p.tell wire prog (.pakePeer (bytesToHex peer.ya)) (p.wait (.awaitPakeHost peer))
  | .gotPakeHost peer yb macHost =>
    match hexToBytes yb, hexToBytes macHost with
    | some yb, some macHost =>
      match peer.finish prim yb macHost with
      | .error e =>
        p.tell wire prog (.handshakeReject .badMessage)
          (p.throw prog (.handshake e.message .badMessage))
      | .ok result =>
        match p.conn.sendHandshake wire (.pakeConfirm (bytesToHex result.macPeer)) with
        | .error e => (p.throw prog (.connection e), [])
        | .ok text =>
          if result.hostConfirmed = false then
            (p.throw prog
              (.handshake "host key confirmation failed (wrong password?)" .badPassword),
              [(text, false)])
          else
            match p.upgrade decipher wire prog (deriveTransportKeys prim result.isk) with
            | (p', some e) => (p'.throw prog (.connection e), [(text, false)])
            | (p', none) => (p'.settle (.returned result.isk), [(text, false)])
    | _, _ => (p.throw prog .hex, [])
  -- `connect` sends the join and waits for the answer
  | .returned _ =>
    let p₀ := { p with conn := { p.conn with outboundFrom := "pending" } }
    match p₀.send gcm wire (.join cfg.join) with
    | (p', .error e) => (p'.throw prog (.connection e), [])
    | (p', .ok frame) => (p'.wait (.sentJoin true), [(frame, true)])
  | .refused f => (p.throw prog f, [])
  | .thrown f => ({ p with pc := .ended f }, [])
  | _ => (p, [])

end

end ScreenSharing.Handshake
