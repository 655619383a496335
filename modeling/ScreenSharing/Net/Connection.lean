import ScreenSharing.Crypto.Kdf
import ScreenSharing.Net.FrameCodec
import ScreenSharing.Shared.Protocol

/-!
# A connection

`Connection` holds the fields of the class of this name.  Before `upgrade` it takes handshake
messages from text frames and keeps early binary frames; after it, it takes envelopes from sealed
binary frames.  `receive` is `#onMessage` up to its call of `#deliver`: what it returns is emitted if
somebody listens, and held in the inbox otherwise.  The listeners are not part of this module, since
what they do is up to the code around a connection.

JSON and the schemas are parameters, in `Wire`.
-/

namespace ScreenSharing.Net

open Lib Crypto

/-! ### What a connection carries -/

/-- `PROTOCOL_VERSION`. -/
def protocolVersion : ℤ := 1

/-- `APP_VERSION`. -/
def appVersion : String := "0.1.0"

inductive RejectReason
  | roomIdMismatch
  | versionMismatch
  | rateLimited
  | tooManyHandshakes
  | roomClosing
  | badMessage
  deriving DecidableEq

/-- `HandshakeMessage`. -/
inductive HandshakeMessage
  | hello (appVersion : String) (protoVersion : ℤ) (roomId : String)
  | helloAck (protoVersion : ℤ) (sid : String) (argonParams : ArgonParams)
  | pakePeer (ya : String)
  | pakeHost (yb macHost : String)
  | pakeConfirm (macPeer : String)
  | handshakeReject (reason : RejectReason)
  deriving DecidableEq

structure Envelope where
  v : ℤ
  epoch : ℕ
  seq : ℕ
  /-- `from` -/
  sender : String
  body : Body
  deriving DecidableEq

/-- An `InboxItem`. -/
inductive InboxItem
  | handshake (data : HandshakeMessage)
  | message (data : Envelope)
  deriving DecidableEq

/-- The names of `ConnectionEvents`. -/
inductive EventName
  | handshake
  | message
  | close
  | error
  deriving DecidableEq

/-- `item.ev`. -/
def InboxItem.ev : InboxItem → EventName
  | .handshake _ => .handshake
  | .message _ => .message

/-- JSON, and the schemas of the two kinds of message. -/
structure Wire (J : Type*) where
  /-- `JSON.parse` of the bytes as UTF-8; `none` is an exception -/
  parse : Bytes → Option J
  /-- `safeParse` -/
  handshakeMessageSchema : J → Except String HandshakeMessage
  envelopeSchema : J → Except String Envelope
  /-- `JSON.stringify` -/
  ofHandshake : HandshakeMessage → Bytes
  ofEnvelope : Envelope → Bytes

/-- What `#onMessage` and `upgrade` throw. -/
inductive ConnectionError
  /-- a `ProtocolError` -/
  | protocol (message : String)
  | codec (e : CodecError)
  /-- the `TypeError` of a missing decoder -/
  | type
  /-- of the transport, or of a listener -/
  | foreign (message : String)
  deriving DecidableEq

def parseJson {J α : Type*} (parse : Bytes → Option J) (schema : J → Except String α) (raw : Bytes) :
    Except ConnectionError α :=
  match parse raw with
  | none => .error (.protocol "message is not valid JSON")
  | some obj =>
    match schema obj with
    | .error message => .error (.protocol ("message failed schema: " ++ message))
    | .ok data => .ok data

/-! ### The connection -/

inductive ConnectionRole
  | host
  | peer
  deriving DecidableEq

structure Connection where
  role : ConnectionRole
  encoder : Option FrameEncoder
  decoder : Option FrameDecoder
  pendingBinary : List Bytes
  inbox : List InboxItem
  closed : Bool
  outboundFrom : String
  epoch : ℕ
  seq : ℕ

namespace Connection

def new (role : ConnectionRole) : Connection where
  role := role
  encoder := none
  decoder := none
  pendingBinary := []
  inbox := []
  closed := false
  outboundFrom := "unknown"
  epoch := 0
  seq := 0

variable {J : Type*} (gcm : Gcm) (decipher : Decipher) (wire : Wire J) (C : Connection)

def encrypted : Bool := C.encoder.isSome

/-- `sendHandshake`: the text frame. -/
def sendHandshake (msg : HandshakeMessage) : Except ConnectionError Bytes :=
  if C.encrypted then .error (.protocol "handshake after upgrade") else .ok (wire.ofHandshake msg)

/-- The keys and the direction of what a role sends. -/
def sends (role : ConnectionRole) (keys : TransportKeys) : DirectionKeys × Direction :=
  match role with
  | .host => (keys.s2c, .serverToClient)
  | .peer => (keys.c2s, .clientToServer)

/-- The keys and the direction of what a role receives. -/
def receives (role : ConnectionRole) (keys : TransportKeys) : DirectionKeys × Direction :=
  match role with
  | .host => (keys.c2s, .clientToServer)
  | .peer => (keys.s2c, .serverToClient)

/-- `upgrade`, up to the loop over the early frames, which it returns. -/
def upgrade (keys : TransportKeys) : Connection × Except ConnectionError (List Bytes) :=
  if C.encrypted then (C, .error (.protocol "already upgraded"))
  else
    let send := sends C.role keys
    let recv := receives C.role keys
    match FrameEncoder.new send.1.key send.1.nonceSalt send.2 with
    | .error e => (C, .error (.codec e))
    | .ok encoder =>
      match FrameDecoder.new recv.1.key recv.1.nonceSalt recv.2 with
      | .error e => ({ C with encoder := some encoder }, .error (.codec e))
      | .ok decoder =>
        ({ C with encoder := some encoder, decoder := some decoder, pendingBinary := [] },
          .ok C.pendingBinary)

/-- The envelope of the next body. -/
def envelope (body : Body) : Envelope := ⟨protocolVersion, C.epoch, C.seq, C.outboundFrom, body⟩

/-- `send`: the binary frame. -/
def send (body : Body) : Connection × Except ConnectionError Bytes :=
  match C.encoder with
  | none => (C, .error (.protocol "send before upgrade"))
  | some encoder =>
    match encoder.encode gcm (wire.ofEnvelope (C.envelope body)) with
    | (encoder', .error e) =>
      ({ C with encoder := some encoder', seq := C.seq + 1 }, .error (.codec e))
    | (encoder', .ok frame) => ({ C with encoder := some encoder', seq := C.seq + 1 }, .ok frame)

/-- `#onMessage`, up to its call of `#deliver`: the item to deliver, if there is one. -/
def receive (data : Bytes) (isBinary : Bool) :
    Connection × Except ConnectionError (Option InboxItem) :=
  if C.encrypted then
    if isBinary = false then (C, .error (.protocol "text frame after upgrade"))
    else
      match C.decoder with
      | none => (C, .error .type)
      | some decoder =>
        match decoder.decode decipher data with
        | (decoder', .error e) => ({ C with decoder := some decoder' }, .error (.codec e))
        | (decoder', .ok plaintext) =>
          match parseJson wire.parse wire.envelopeSchema plaintext with
          | .error e => ({ C with decoder := some decoder' }, .error e)
          | .ok envelope =>
            if envelope.v ≠ protocolVersion then
              ({ C with decoder := some decoder' },
                .error (.protocol ("envelope version " ++ toString envelope.v)))
            else ({ C with decoder := some decoder' }, .ok (some (.message envelope)))
  else if isBinary then
    if C.pendingBinary.length < 64 then
      ({ C with pendingBinary := C.pendingBinary ++ [data] }, .ok none)
    else (C, .error (.protocol "too many binary frames before upgrade"))
  else
    match parseJson wire.parse wire.handshakeMessageSchema data with
    | .error e => (C, .error e)
    | .ok msg => (C, .ok (some (.handshake msg)))

/-- Hold an item in the inbox. -/
def hold (item : InboxItem) : Connection := { C with inbox := C.inbox ++ [item] }

/-- The frame passes every check of the phase the connection is in, and carries this item. -/
def Opens (data : Bytes) (isBinary : Bool) (item : InboxItem) : Prop :=
  match C.encoder with
  | some _ => isBinary = true ∧ ∃ decoder plaintext envelope, C.decoder = some decoder ∧
      (decoder.decode decipher data).2 = .ok plaintext ∧
      parseJson wire.parse wire.envelopeSchema plaintext = .ok envelope ∧
      envelope.v = protocolVersion ∧ item = .message envelope
  | none => isBinary = false ∧ ∃ msg,
      parseJson wire.parse wire.handshakeMessageSchema data = .ok msg ∧ item = .handshake msg

/-- **`receive` hands on** the frames that pass, and nothing else. -/
theorem receive_eq_some_iff {data : Bytes} {isBinary : Bool} {item : InboxItem} :
    (C.receive decipher wire data isBinary).2 = .ok (some item) ↔
      C.Opens decipher wire data isBinary item := by
  unfold receive Opens encrypted
  cases C.encoder with
  | none =>
    cases isBinary with
    | true =>
      simp only [Option.isSome_none, if_true, Bool.true_eq_false, false_and, iff_false]
      rw [if_neg Bool.false_ne_true]
      split <;> exact fun h => by cases h
    | false =>
      rw [Option.isSome_none, if_neg Bool.false_ne_true, if_neg Bool.false_ne_true]
      cases parseJson wire.parse wire.handshakeMessageSchema data with
      | error e => exact ⟨fun h => (by cases h), fun ⟨_, msg, hmsg, _⟩ => (by cases hmsg)⟩
      | ok msg =>
        constructor
        · intro h
          cases h
          exact ⟨rfl, msg, rfl, rfl⟩
        · rintro ⟨-, msg', hmsg, rfl⟩
          cases hmsg
          rfl
  | some encoder =>
    rw [Option.isSome_some, if_pos rfl]
    cases isBinary with
    | false => exact ⟨fun h => (by cases h), fun h => absurd h.1 Bool.false_ne_true⟩
    | true =>
      rw [if_neg (by decide)]
      cases C.decoder with
      | none => exact ⟨fun h => (by cases h), fun ⟨_, D, _, _, hD, _⟩ => (by cases hD)⟩
      | some decoder =>
        dsimp only
        cases hdecode : decoder.decode decipher data with
        | mk decoder' result =>
          cases result with
          | error e =>
            constructor
            · intro h
              cases h
            · rintro ⟨-, D, plaintext, envelope, hD, hplain, -⟩
              cases hD
              rw [hdecode] at hplain
              cases hplain
          | ok plaintext =>
            dsimp only
            cases hparse : parseJson wire.parse wire.envelopeSchema plaintext with
            | error e =>
              constructor
              · intro h
                cases h
              · rintro ⟨-, D, plaintext', envelope, hD, hplain, hparse', -⟩
                cases hD
                rw [hdecode] at hplain
                cases hplain
                rw [hparse] at hparse'
                cases hparse'
            | ok envelope =>
              dsimp only
              split
              · next hversion =>
                constructor
                · intro h
                  cases h
                · rintro ⟨-, D, plaintext', envelope', hD, hplain, hparse', hv, -⟩
                  cases hD
                  rw [hdecode] at hplain
                  cases hplain
                  rw [hparse] at hparse'
                  cases hparse'
                  exact absurd hv hversion
              · next hversion =>
                constructor
                · intro h
                  cases h
                  exact ⟨rfl, decoder, plaintext, envelope, rfl, by rw [hdecode], hparse,
                    not_not.mp hversion, rfl⟩
                · rintro ⟨-, D, plaintext', envelope', hD, hplain, hparse', -, rfl⟩
                  cases hD
                  rw [hdecode] at hplain
                  cases hplain
                  rw [hparse] at hparse'
                  cases hparse'
                  rfl

/-- `receive` holds nothing and keeps the phase; a frame that is too early is put aside. -/
theorem receive_keeps (data : Bytes) (isBinary : Bool) :
    (C.receive decipher wire data isBinary).1.inbox = C.inbox ∧
    (C.receive decipher wire data isBinary).1.encoder = C.encoder ∧
    (C.receive decipher wire data isBinary).1.decoder.isSome = C.decoder.isSome ∧
    ((C.receive decipher wire data isBinary).1.pendingBinary = C.pendingBinary ∨
      C.encrypted = false ∧ isBinary = true ∧
        (C.receive decipher wire data isBinary).1.pendingBinary = C.pendingBinary ++ [data]) := by
  unfold receive
  split
  · split
    · exact ⟨rfl, rfl, rfl, .inl rfl⟩
    · split
      · exact ⟨rfl, rfl, rfl, .inl rfl⟩
      · next decoder hdecoder =>
        split
        · exact ⟨rfl, rfl, by rw [hdecoder]; rfl, .inl rfl⟩
        · split
          · exact ⟨rfl, rfl, by rw [hdecoder]; rfl, .inl rfl⟩
          · split <;> exact ⟨rfl, rfl, by rw [hdecoder]; rfl, .inl rfl⟩
  · next hplain =>
    split
    · next hbinary =>
      split
      · exact ⟨rfl, rfl, rfl, .inr ⟨by simpa using hplain, hbinary, rfl⟩⟩
      · exact ⟨rfl, rfl, rfl, .inl rfl⟩
    · split <;> exact ⟨rfl, rfl, rfl, .inl rfl⟩

/-- The phase decides the kind of what is handed on. -/
theorem receive_kind {data : Bytes} {isBinary : Bool} {item : InboxItem}
    (h : (C.receive decipher wire data isBinary).2 = .ok (some item)) :
    (C.encrypted = false ∧ isBinary = false ∧ item.ev = .handshake) ∨
      (C.encrypted = true ∧ isBinary = true ∧ C.decoder.isSome = true ∧ item.ev = .message) := by
  have hopens := C.receive_eq_some_iff decipher wire |>.mp h
  unfold Opens at hopens
  split at hopens
  · next encoder hencoder =>
    obtain ⟨hbinary, decoder, plaintext, envelope, hdecoder, -, -, -, rfl⟩ := hopens
    exact .inr ⟨by simp [encrypted, hencoder], hbinary, by simp [hdecoder], rfl⟩
  · next hencoder =>
    obtain ⟨htext, msg, -, rfl⟩ := hopens
    exact .inl ⟨by simp [encrypted, hencoder], htext, rfl⟩

/-- `upgrade` hands out the early frames once. -/
theorem upgrade_cases (C : Connection) (keys : TransportKeys) :
    (C.upgrade keys).1.inbox = C.inbox ∧
      ((∃ e, (C.upgrade keys).2 = .error e ∧ (C.upgrade keys).1.pendingBinary = C.pendingBinary ∧
          (C.upgrade keys).1.decoder = C.decoder ∧
          (C.encrypted = true → (C.upgrade keys).1.encrypted = true)) ∨
        (C.upgrade keys).2 = .ok C.pendingBinary ∧ (C.upgrade keys).1.pendingBinary = [] ∧
          C.encrypted = false ∧ (C.upgrade keys).1.encrypted = true) := by
  unfold upgrade
  split
  · exact ⟨rfl, .inl ⟨_, rfl, rfl, rfl, id⟩⟩
  · next hplain =>
    dsimp only
    split
    · exact ⟨rfl, .inl ⟨_, rfl, rfl, rfl, id⟩⟩
    · split
      · exact ⟨rfl, .inl ⟨_, rfl, rfl, rfl, fun _ => rfl⟩⟩
      · exact ⟨rfl, .inr ⟨rfl, rfl, by simpa using hplain, rfl⟩⟩

theorem send_keeps (body : Body) : (C.send gcm wire body).1.inbox = C.inbox ∧
    (C.send gcm wire body).1.pendingBinary = C.pendingBinary ∧
    (C.send gcm wire body).1.decoder = C.decoder ∧
    (C.send gcm wire body).1.encrypted = C.encrypted := by
  unfold send
  split
  · exact ⟨rfl, rfl, rfl, rfl⟩
  · next encoder hencoder => split <;> exact ⟨rfl, rfl, rfl, by simp [encrypted, hencoder]⟩

end Connection

end ScreenSharing.Net
