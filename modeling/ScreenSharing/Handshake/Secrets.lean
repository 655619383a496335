import ScreenSharing.Crypto.Agreement
import ScreenSharing.Handshake.Schedule

/-!
# What two honest sides compute

The values that a host and a peer with the same room, the same password key and acceptable parameters
arrive at: their shares, the session key, the MACs and the keys of the two directions.  The lemmas say
what the segments of the two coroutines do with them, and how a frame that one side sent is received
by the other one.
-/

namespace ScreenSharing.Handshake

open Lib Crypto Net

variable {P J : Type*} [AddCommGroup P]

/-! ### What is assumed -/

def isHex (bytes : ℕ) (s : String) : Prop :=
  s.toList.length = 2 * bytes ∧ ∀ c ∈ s.toList, c ∈ hexDigits

/-- `handshakeMessageSchema`, as far as the types do not say it. -/
def Conforms : HandshakeMessage → Prop
  | .hello appVersion _ roomId => appVersion.toList.length ≤ 32 ∧ isHex 4 roomId
  | .helloAck _ sid params => isHex 16 sid ∧ 0 < params.m ∧ 0 < params.t ∧ 0 < params.p
  | .pakePeer ya => isHex 32 ya
  | .pakeHost yb macHost => isHex 32 yb ∧ isHex 32 macHost
  | .pakeConfirm macPeer => isHex 32 macPeer
  | .handshakeReject _ => True

/-- The envelope of the join. -/
def Setup.joinEnvelope (L : Setup P J) : Envelope :=
  ⟨protocolVersion, 0, 0, "pending", .join L.peer.join⟩

/-- The two sides agree, and the join is one that the host's schema takes. -/
structure Setup.Honest (L : Setup P J) : Prop where
  room : L.peer.roomId = L.host.roomId
  room_length : L.host.roomId.length = 4
  key : L.peer.deriveW L.host.argonParams = L.host.w
  acceptable : argonParamsAcceptable L.host.argonParams = true
  sid_length : L.host.sid.length = sidBytes
  join_fits : L.Fits L.joinEnvelope
  join_length : (L.wire.ofEnvelope L.joinEnvelope).length ≤ maxPlaintextBytes

theorem isHex_bytesToHex {bs : Bytes} {n : ℕ} (h : bs.length = n) : isHex n (bytesToHex bs) := by
  unfold isHex bytesToHex
  rw [String.toList_ofList, length_hexChars, h]
  exact ⟨rfl, mem_hexChars⟩

/-! ### The values -/

namespace Setup

variable (L : Setup P J)

def generator : P := calculateGenerator L.prim L.host.w (bindingOf L.host.roomId) L.host.sid

def ya : Bytes := L.prim.encode (L.peer.scalar.1 • L.generator)

def yb : Bytes := L.prim.encode (L.host.scalar.1 • L.generator)

/-- The session key. -/
def isk : Bytes :=
  deriveIsk L.prim L.host.sid
    (L.prim.encode (L.host.scalar.1 • L.peer.scalar.1 • L.generator)) L.ya [] L.yb []

def macHost : Bytes := macFor L.prim L.isk .host L.host.sid L.ya L.yb

def macPeer : Bytes := macFor L.prim L.isk .peer L.host.sid L.ya L.yb

/-- The state of the peer's exchange. -/
def begun : PeerHandshake L.prim.order := ⟨L.host.sid, L.peer.scalar, L.ya⟩

/-- The state of the host's exchange. -/
def responded : HostHandshake := ⟨L.yb, L.macHost, L.isk, L.macPeer⟩

def keys : TransportKeys := deriveTransportKeys L.prim L.isk

/-- The messages after the first one, in their order. -/
def ack : HandshakeMessage :=
  .helloAck protocolVersion (bytesToHex L.host.sid) L.host.argonParams

def pakePeer : HandshakeMessage := .pakePeer (bytesToHex L.ya)

def pakeHost : HandshakeMessage := .pakeHost (bytesToHex L.yb) (bytesToHex L.macHost)

def pakeConfirm : HandshakeMessage := .pakeConfirm (bytesToHex L.macPeer)

def messages : List HandshakeMessage :=
  [L.hello, L.ack, L.pakePeer, L.pakeHost, L.pakeConfirm]

/-- The primitives and the libraries are correct: outputs have their lengths, what was sealed can be
opened, and a message that conforms to the schema survives JSON. -/
structure Correct : Prop where
  sized : L.prim.Sized
  opens : ∀ key nonce aad plaintext, L.decipher key nonce aad
    (L.gcm.encrypt key nonce aad plaintext).1 (L.gcm.encrypt key nonce aad plaintext).2 =
      some plaintext
  json : ∀ msg ∈ L.messages, Conforms msg →
    parseJson L.wire.parse L.wire.handshakeMessageSchema (L.wire.ofHandshake msg) = .ok msg

variable {L}

theorem peerBegin_honest (h : L.Honest) : peerBegin L.prim L.host.w (bindingOf L.host.roomId)
    L.host.sid L.peer.scalar = .ok L.begun :=
  (peerBegin_eq_ok L.prim).mpr ⟨h.sid_length, rfl⟩

theorem generator_ne_zero : L.generator ≠ 0 := Crypto.generator_ne_zero L.prim _ _ _

theorem verifyPeer_honest : L.responded.verifyPeer L.macPeer = true :=
  (constantTimeEqual_iff _ _).mpr rfl

/-! ### The messages conform -/

theorem conforms_hello (h : L.Honest) : Conforms L.hello := by
  refine ⟨by decide, isHex_bytesToHex ?_⟩
  rw [h.room]
  exact h.room_length

theorem conforms_ack (h : L.Honest) : Conforms L.ack :=
  ⟨isHex_bytesToHex h.sid_length, pos_of_acceptable h.acceptable⟩

theorem conforms_pakePeer : Conforms L.pakePeer := isHex_bytesToHex (L.prim.length_encode _)

theorem conforms_pakeHost (hC : L.Correct) : Conforms L.pakeHost :=
  ⟨isHex_bytesToHex (L.prim.length_encode _), isHex_bytesToHex (hC.sized.length_hmac _ _)⟩

theorem conforms_pakeConfirm (hC : L.Correct) : Conforms L.pakeConfirm :=
  isHex_bytesToHex (hC.sized.length_hmac _ _)

/-! ### Frames -/

theorem salt_length (hC : L.Correct) (role : ConnectionRole) :
    4 ≤ (Connection.sends role L.keys).1.nonceSalt.length := by
  cases role <;> exact Nat.le_of_eq (hC.sized.length_hkdf _ _ _).symm

theorem key_length (hC : L.Correct) (role : ConnectionRole) :
    (Connection.sends role L.keys).1.key.length = keyBytes := by
  cases role <;> exact hC.sized.length_hkdf _ _ _

/-- The encoder of a side after `n` frames. -/
def encoder (hC : L.Correct) (role : ConnectionRole) (n : ℕ) : FrameEncoder where
  key := (Connection.sends role L.keys).1.key
  salt := (Connection.sends role L.keys).1.nonceSalt
  direction := (Connection.sends role L.keys).2
  counter := n
  salt_length := salt_length hC role

/-- The other side's decoder, after `n` frames. -/
def decoder (hC : L.Correct) (role : ConnectionRole) (n : ℕ) : FrameDecoder where
  key := (Connection.sends role L.keys).1.key
  salt := (Connection.sends role L.keys).1.nonceSalt
  expectedDirection := (Connection.sends role L.keys).2
  lastCounter := (n : ℤ) - 1
  salt_length := salt_length hC role

/-- The frame number `n` of a side. -/
def frame (hC : L.Correct) (role : ConnectionRole) (n : ℕ) (env : Envelope) : Bytes :=
  frameOf L.gcm ((encoder hC role n).sealing (L.wire.ofEnvelope env))

/-- The frames of consecutive envelopes, from number `n` on. -/
def frames (hC : L.Correct) (role : ConnectionRole) : ℕ → List Envelope → List Bytes
  | _, [] => []
  | n, env :: envs => frame hC role n env :: frames hC role (n + 1) envs

theorem frames_append (hC : L.Correct) (role : ConnectionRole) (envs envs' : List Envelope) (n : ℕ) :
    frames hC role n (envs ++ envs') =
      frames hC role n envs ++ frames hC role (n + envs.length) envs' := by
  induction envs generalizing n with
  | nil => rfl
  | cons env envs ih =>
    show frame hC role n env :: frames hC role (n + 1) (envs ++ envs') = _
    rw [ih, List.length_cons, Nat.add_assoc, Nat.add_comm 1]
    rfl

/-- An envelope that can be sent and is taken as it was. -/
structure Sendable (L : Setup P J) (env : Envelope) : Prop where
  version : env.v = protocolVersion
  fits : L.Fits env
  length : (L.wire.ofEnvelope env).length ≤ maxPlaintextBytes

/-- **A frame is decoded**, if it is the next one. -/
theorem decode_frame (hC : L.Correct) (role : ConnectionRole) {n : ℕ} (hn : n ≤ maxU64)
    {env : Envelope} (henv : L.Sendable env) :
    (decoder hC role n).decode L.decipher (frame hC role n env) =
      (decoder hC role (n + 1), .ok (L.wire.ofEnvelope env)) := by
  have hnew : (decoder hC role n).lastCounter < ((encoder hC role n).counter : ℤ) := by
    show (n : ℤ) - 1 < n
    omega
  have hok := decode_frameOf (D := decoder hC role n) (E := encoder hC role n) rfl
    rfl rfl (key_length hC role) hn hnew henv.length (hC.opens _ _ _ _)
  rw [frame, hok]
  have hlast : (((encoder hC role n).counter : ℕ) : ℤ) = ((n + 1 : ℕ) : ℤ) - 1 := by
    show (n : ℤ) = _
    omega
  rw [hlast]
  rfl

/-! ### The exchange -/

variable [DecidableEq P]

theorem hostRespond_honest (h : L.Honest) : hostRespond L.prim L.host.w (bindingOf L.host.roomId)
    L.host.sid L.ya L.host.scalar = .ok L.responded := by
  have hshare : L.peer.scalar.1 • L.generator ≠ 0 := nsmul_ne_zero L.prim _ generator_ne_zero
  exact (hostRespond_eq_ok L.prim).mpr ⟨h.sid_length, _, decodeShare_encode L.prim hshare _,
    nsmul_ne_zero L.prim _ hshare, rfl, rfl, rfl, rfl⟩

/-- The peer arrives at the host's key, and accepts its MAC. -/
theorem finish_honest : L.begun.finish L.prim L.yb L.macHost = .ok ⟨L.isk, L.macPeer, true⟩ := by
  have hshare : L.host.scalar.1 • L.generator ≠ 0 := nsmul_ne_zero L.prim _ generator_ne_zero
  have hsecret : L.peer.scalar.1 • L.host.scalar.1 • L.generator =
      L.host.scalar.1 • L.peer.scalar.1 • L.generator := (secret_eq_iff L.prim _ _ _ _).mpr rfl
  refine (finish_eq_ok L.prim).mpr ⟨_, decodeShare_encode L.prim hshare _,
    nsmul_ne_zero L.prim _ hshare, ?_, rfl, ?_⟩
  · show L.isk = deriveIsk L.prim L.host.sid
      (L.prim.encode (L.peer.scalar.1 • L.host.scalar.1 • L.generator)) L.ya [] L.yb []
    rw [hsecret]
    rfl
  · exact ((constantTimeEqual_iff _ _).mpr rfl).symm

end Setup

end ScreenSharing.Handshake
