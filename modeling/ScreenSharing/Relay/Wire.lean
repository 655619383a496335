import Mathlib.Algebra.Group.Nat.Defs
import Mathlib.Data.Int.Notation
import Mathlib.Data.List.Basic

/-!
# The relay's wire format, as the relay reads it

Every relay message is binary with a one-byte type prefix.  The relay parses only the frames it
receives: the host's `KICK`, `HANDOFF` and `DATA_H`, a peer's `DATA_P`, and `PING` from either.  A
payload is never looked at.

The frames the relay sends are kept as values of `Frame`, one constructor for each constructor
function of the wire module, since the registry never reads them back.
-/

namespace ScreenSharing.Relay

/-- The contents of a `Buffer`. -/
abbrev Bytes := List UInt8

def relayProtocolVersion : ℤ := 1

/-! ### Frame types -/

namespace T

def hello : UInt8 := 0x01
def ready : UInt8 := 0x02
def reject : UInt8 := 0x03
def peerUp : UInt8 := 0x04
def peerDown : UInt8 := 0x05
def hostGone : UInt8 := 0x06
def kick : UInt8 := 0x07
def handoff : UInt8 := 0x08
def hostClaimed : UInt8 := 0x09
def dataH : UInt8 := 0x10
def dataP : UInt8 := 0x11
def ping : UInt8 := 0x20
def pong : UInt8 := 0x21

end T

inductive Role
  | host
  | peer
  deriving DecidableEq, Repr

/-- The first message of a connection, once `helloSchema` has accepted it. -/
structure Hello where
  role : Role
  roomId : String
  app : String
  proto : ℤ
  hostToken : Option String
  deriving DecidableEq, Repr

inductive RejectReason
  | roomExists
  | noSuchRoom
  | hostAbsent
  | roomFull
  | rateLimited
  | badHello
  | protoMismatch
  | serverFull
  deriving DecidableEq, Repr

/-- The reason string of a REJECT frame, which is also the close reason of the socket. -/
def RejectReason.text : RejectReason → String
  | .roomExists => "room_exists"
  | .noSuchRoom => "no_such_room"
  | .hostAbsent => "host_absent"
  | .roomFull => "room_full"
  | .rateLimited => "rate_limited"
  | .badHello => "bad_hello"
  | .protoMismatch => "proto_mismatch"
  | .serverFull => "server_full"

/-- A frame the relay sends. -/
inductive Frame
  | ready (connId : Option ℕ) (hostToken : Option String)
  | reject (reason : RejectReason)
  | peerUp (connId : ℕ)
  | peerDown (connId : ℕ)
  | hostGone
  | hostClaimed
  | pong
  | dataToPeer (isBinary : Bool) (payload : Bytes)
  | dataToHost (connId : ℕ) (isBinary : Bool) (payload : Bytes)
  deriving DecidableEq, Repr

/-! ### Decoding -/

/-- `Buffer.readUInt32BE`. -/
def readUInt32BE (buf : Bytes) (offset : ℕ) : ℕ :=
  (buf.getD offset 0).toNat * 2 ^ 24 + (buf.getD (offset + 1) 0).toNat * 2 ^ 16
    + (buf.getD (offset + 2) 0).toNat * 2 ^ 8 + (buf.getD (offset + 3) 0).toNat

structure DataFromHost where
  connId : ℕ
  isBinary : Bool
  payload : Bytes
  deriving DecidableEq, Repr

structure DataFromPeer where
  isBinary : Bool
  payload : Bytes
  deriving DecidableEq, Repr

/-- host -> relay -> peer: the connId, the flag and the payload of a DATA_H frame. -/
def decodeDataFromHost (buf : Bytes) : Option DataFromHost :=
  if buf.length < 6 ∨ buf.head? ≠ some T.dataH then none
  else some ⟨readUInt32BE buf 1, buf.getD 5 0 = 1, buf.drop 6⟩

/-- peer -> relay -> host: the flag and the payload of a DATA_P frame. -/
def decodeDataFromPeer (buf : Bytes) : Option DataFromPeer :=
  if buf.length < 2 ∨ buf.head? ≠ some T.dataP then none
  else some ⟨buf.getD 1 0 = 1, buf.drop 2⟩

def decodeKick (buf : Bytes) : Option ℕ :=
  if buf.length < 5 ∨ buf.head? ≠ some T.kick then none
  else some (readUInt32BE buf 1)

theorem head_of_decodeKick {buf : Bytes} {c : ℕ} (h : decodeKick buf = some c) :
    buf.head? = some T.kick := by
  unfold decodeKick at h
  split at h
  · cases h
  · next hn => exact not_not.mp (not_or.mp hn).2

theorem head_of_decodeDataFromHost {buf : Bytes} {f : DataFromHost}
    (h : decodeDataFromHost buf = some f) : buf.head? = some T.dataH := by
  unfold decodeDataFromHost at h
  split at h
  · cases h
  · next hn => exact not_not.mp (not_or.mp hn).2

theorem head_of_decodeDataFromPeer {buf : Bytes} {f : DataFromPeer}
    (h : decodeDataFromPeer buf = some f) : buf.head? = some T.dataP := by
  unfold decodeDataFromPeer at h
  split at h
  · cases h
  · next hn => exact not_not.mp (not_or.mp hn).2

end ScreenSharing.Relay
